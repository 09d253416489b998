import AgentService.Gateway.Discipline

/-!
# Granted executions

A call that returns a handle has recorded the message and, as its last operation on it, moved the
event of the message to `running` under the handle's owner. `Granting` reads this off the log of the
call; `claimInbound_obeys` and `dispatch_obeys` prove it for the two functions that return handles.
-/

namespace AgentService.Gateway

open Storage Platform Outbox Concurrent Program Dispatcher

variable {x : Externals}

/-- The record of a message, with its answer. -/
def recordEntry (input : MessageEventInput) (event : MessageEvent) (duplicate : Bool)
    (pre post : State) : Entry x :=
  ⟨.store .caller (.recordMessage input),
    (.ok (event, duplicate) : Except Storage.Err (MessageEvent × Bool)), pre, post⟩

/-- The step to `running` by which an event is granted. -/
def grantTransition (durable : DurableExecution) (status : EventStatus) : MessageTransition :=
  { tenantID := durable.tenantID, eventID := durable.eventID, «from» := status, «to» := .running,
    owner := durable.owner, leaseDuration := durableInboundLease }

/-- The grant of an event that was answered with `running`. -/
def grantEntry (durable : DurableExecution) (status : EventStatus) (running : MessageEvent)
    (pre post : State) : Entry x :=
  ⟨.store .caller (.transitionMessage (grantTransition durable status)),
    (.ok running : Except Storage.Err MessageEvent), pre, post⟩

/-- The log of a call that recorded the message of `input` and was granted its event. -/
def Granting (log : List (Entry x)) (input : MessageEventInput) (durable : DurableExecution) :
    Prop :=
  ∃ event duplicate status running, ∃ pre post pre' post', ∃ l₁ l₂ l₃,
    log = l₁ ++ recordEntry input event duplicate pre post ::
      (l₂ ++ grantEntry durable status running pre' post' :: l₃) ∧
    durable.tenantID = input.tenantID ∧ durable.eventID = event.eventID ∧
    durable.replyTarget = event.replyTarget ∧ durable.fencingToken = running.fencingToken

/-- A grant stays in the log. -/
theorem Granting.mono {l l' : List (Entry x)} {input : MessageEventInput}
    {durable : DurableExecution} (h : Granting l input durable) (hl : l <+: l') :
    Granting l' input durable := by
  obtain ⟨event, duplicate, status, running, pre, post, pre', post', l1, l2, l3, rfl, hnames⟩ := h
  obtain ⟨l4, rfl⟩ := hl
  exact ⟨event, duplicate, status, running, pre, post, pre', post', l1, l2, l3 ++ l4, by simp,
    hnames⟩

/-- What identifies an inbound message: tenant, binding, and external message. -/
def messageOf (principal : Principal) (message : InboundMessage) : Option (String × String × String) :=
  principal.routingTarget.map fun target =>
    (principal.tenantID, target.bindingID, message.externalMessageID)

/-- What identifies the message of an input. -/
def inputOf (input : MessageEventInput) : String × String × String :=
  (input.tenantID, input.bindingID, input.externalMessageID)

/-- No condition on the operations of a program. -/
abbrev Free (_ : List (Entry x)) (_ : Op) : Prop := True

/-- A program without a condition on its operations ends with a longer log. -/
theorem obeys_longer {α : Type} (p : Code x α) (log : List (Entry x)) :
    p.Obeys Free (fun l _ => log <+: l) log :=
  (obeys_extends p (List.prefix_refl log)).mono (fun _ _ _ => trivial) fun _ _ => id

/-- `prepareInboundEvent` answers with the event, up to its status. -/
theorem prepareInboundEvent_obeys (tenantID : String) (event : MessageEvent) (duplicate : Bool)
    (owner : String) (log : List (Entry x)) :
    (prepareInboundEvent (x := x) tenantID event duplicate owner).Obeys Free
      (fun _ r => ∀ prepared, r = .ok prepared →
        prepared.eventID = event.eventID ∧ prepared.replyTarget = event.replyTarget) log := by
  have hstarts : ∀ event prepared : MessageEvent, admitClaim event = .ok prepared →
      prepared = event := by
    intro event prepared h
    unfold admitClaim at h
    split_ifs at h
    exact (Except.ok.inj h).symm
  unfold prepareInboundEvent
  split
  · intro prepared h
    cases h
    exact ⟨rfl, rfl⟩
  · split
    · split
      · rintro prepared ⟨⟩
      · simp only [obeys_bind, obeys_timeNow]
        refine ⟨trivial, fun pre _ post _ => ?_⟩
        split
        · rintro prepared ⟨⟩
        · simp only [obeys_bind, obeys_storeOp]
          refine ⟨trivial, fun pre r post _ => ?_⟩
          split
          · rintro prepared ⟨⟩
          · intro prepared h
            obtain rfl := hstarts _ _ h
            exact ⟨rfl, rfl⟩
    · intro prepared h
      obtain rfl := hstarts _ _ h
      exact ⟨rfl, rfl⟩

/-- `claimInbound` after the record of the message. -/
theorem claimRecorded_obeys (input : MessageEventInput) (event : MessageEvent) (duplicate : Bool)
    {log : List (Entry x)}
    (hlog : ∃ l pre post, log = l ++ [recordEntry input event duplicate pre post]) :
    (claimRecorded (x := x) input.tenantID event duplicate).Obeys Free
      (fun l r => ∀ durable, r = .ok (some durable) → Granting l input durable) log := by
  obtain ⟨l, pre, post, rfl⟩ := hlog
  unfold claimRecorded
  simp only [obeys_bind, obeys_newUUID]
  refine ⟨trivial, fun pre1 uuid post1 _ => ?_⟩
  refine ((prepareInboundEvent_obeys _ _ _ _ _).and (obeys_longer _ _)).mono
    (fun _ _ _ => trivial) fun _ r h => ?_
  obtain ⟨hprepared, hl'⟩ := h
  split
  · rintro durable ⟨⟩
  · next prepared =>
    obtain ⟨heventID, htarget⟩ := hprepared prepared rfl
    simp only [obeys_bind, obeys_storeOp]
    refine ⟨trivial, fun pre2 r post2 _ => ?_⟩
    split
    · rintro durable ⟨⟩
    · next running _ =>
      intro durable h
      obtain rfl := Option.some.inj (Except.ok.inj h)
      obtain ⟨l2, rfl⟩ := hl'
      refine ⟨event, duplicate, prepared.status, running, pre, post, pre2, post2, l,
        ⟨.env .newUUID, uuid, pre1, post1⟩ :: l2, [], ?_, rfl, heventID, htarget, rfl⟩
      simp only [List.append_assoc, List.cons_append, List.nil_append]
      rfl

variable (d : Dispatcher) (principal : Principal)

/-- A call of `claimInbound` that returns a handle has recorded its message and was granted the
event. -/
theorem claimInbound_obeys (message : InboundMessage) (identity : RunnerIdentity)
    (log : List (Entry x)) : (d.claimInbound (x := x) principal message identity).Obeys Free
      (fun l r => ∀ durable, r = .ok (some durable) →
        ∃ input, messageOf principal message = some (inputOf input) ∧ Granting l input durable)
      log := by
  unfold claimInbound
  split
  · rintro durable ⟨⟩
  · split
    · rintro durable ⟨⟩
    · next target htarget =>
      split
      · rintro durable ⟨⟩
      · split
        · rintro durable ⟨⟩
        · next replyTarget =>
          rw [obeys_bind]
          refine (obeys_longer _ _).mono (fun _ _ _ => trivial) fun l r _ => ?_
          split
          · rintro durable ⟨⟩
          · simp only [obeys_bind, obeys_newUUID, obeys_storeOp]
            refine ⟨trivial, fun _ _ _ _ => ⟨trivial, fun pre r post _ => ?_⟩⟩
            split
            · rintro durable ⟨⟩
            · next event duplicate _ =>
              refine (claimRecorded_obeys _ event duplicate ⟨_, pre, post, rfl⟩).mono
                (fun _ _ => id) fun l r h durable hr => ⟨_, ?_, h durable hr⟩
              simp [messageOf, htarget, inputOf]

/-- A program that only ends with errors. -/
theorem failExecution_obeys (e : Execution) (eventType : Audit.EventType) (errorType : String)
    (err : Gateway.Err) (log : List (Entry x)) :
    (d.failExecution (x := x) e eventType errorType err).Obeys Free
      (fun _ r => ∃ err, r = .error err) log := by
  unfold failExecution
  rw [obeys_bind]
  refine (obeys_longer _ _).mono (fun _ _ _ => trivial) fun l _ _ => ?_
  rw [obeys_bind]
  refine (obeys_longer _ _).mono (fun _ _ _ => trivial) fun l r _ => ?_
  split
  · rw [obeys_bind]
    exact (obeys_longer _ _).mono (fun _ _ _ => trivial) fun l _ _ => ⟨_, rfl⟩
  · exact ⟨_, rfl⟩

/-- `Dispatch` starts the execution that was claimed. -/
theorem dispatchClaimed_obeys (e : Execution) (canary : Option ℤ) (log : List (Entry x)) :
    (d.dispatchClaimed (x := x) e canary).Obeys Free
      (fun _ r => ∀ e' events, r = .ok (e', events) → e' = e) log := by
  have hfail : ∀ eventType errorType err (log : List (Entry x)),
      (d.failExecution (x := x) e eventType errorType err).Obeys Free
        (fun _ r => ∀ e' events, r = .ok (e', events) → e' = e) log := fun _ _ _ _ =>
    (failExecution_obeys d e _ _ _ _).mono (fun _ _ => id) fun l r h e' events hr => by
      obtain ⟨err, rfl⟩ := h
      cases hr
  have hrelease : ∀ err (log : List (Entry x)),
      (do failDurable e.durable; return .error err : Code x (Except Gateway.Err
        Dispatcher.Started)).Obeys Free
        (fun _ r => ∀ e' events, r = .ok (e', events) → e' = e) log := fun err log => by
    rw [obeys_bind]
    refine (obeys_longer _ _).mono (fun _ _ _ => trivial) fun l _ _ => ?_
    rintro e' events ⟨⟩
  unfold dispatchClaimed
  rw [obeys_bind]
  refine (obeys_longer _ _).mono (fun _ _ _ => trivial) fun l r _ => ?_
  split
  · exact hrelease _ _
  rw [obeys_bind]
  refine (obeys_longer _ _).mono (fun _ _ _ => trivial) fun l r _ => ?_
  split
  · exact hrelease _ _
  rw [obeys_bind]
  refine (obeys_longer _ _).mono (fun _ _ _ => trivial) fun l r _ => ?_
  split
  · rintro e' events ⟨⟩
  unfold startRunner
  simp only [obeys_bind, obeys_envOp]
  refine ⟨trivial, fun pre r post _ => ?_⟩
  split
  · exact hfail _ _ _ _
  simp only [obeys_bind, obeys_envOp]
  refine ⟨trivial, fun pre r post _ => ?_⟩
  split
  · exact hfail _ _ _ _
  simp only [obeys_bind, obeys_envOp]
  refine ⟨trivial, fun pre r post _ => ?_⟩
  split
  · split <;> exact hfail _ _ _ _
  · exact hfail _ _ _ _
  · intro e' events h
    cases h
    rfl

/-- The handle of an execution that `Dispatch` starts was granted in the same call, and nothing but
this handle is used by it. -/
theorem dispatch_obeys : (d.dispatch (x := x) principal).Obeys
      (fun l o => Issues (fun _ => False) (fun durable => ∃ input, Granting l input durable) o)
      (fun l r => ∀ e events, r = .ok (e, events) → ∀ durable ∈ e.durable,
        ∃ input, Granting l input durable) [] := by
  unfold dispatch
  simp only [obeys_bind, obeys_envOp]
  refine ⟨trivial, fun pre r post _ => ?_⟩
  split
  · rintro e events ⟨⟩
  next message requestID traceID _ =>
  simp only [obeys_bind, obeys_envOp]
  refine ⟨trivial, fun pre r post _ => ?_⟩
  split
  · rintro e events ⟨⟩
  next canary _ =>
  simp only [obeys_bind, obeys_envOp]
  refine ⟨trivial, fun pre r post _ => ?_⟩
  split
  · rintro e events ⟨⟩
  next identity _ =>
  rw [obeys_bind]
  refine (((claimInbound_every d principal _ _).obeys _).and (claimInbound_obeys _ _ _ _ _)).mono
    (fun l o h => Issues.mono (D := fun _ => False) (fun _ => id) (fun _ h => h.elim) h.1)
    fun l r h => ?_
  obtain ⟨-, hgranted⟩ := h
  split
  · rintro e events ⟨⟩
  · next durable =>
    have hissues := dispatchClaimed_every (x := x) (R := fun _ => False) (D := fun d => d ∈ durable)
      d ⟨requestID, traceID, durable, principal, message, identity⟩ canary fun _ => id
    refine (((hissues.obeys l).and (dispatchClaimed_obeys d _ canary l)).and
      (obeys_extends _ (List.prefix_refl l))).mono (fun l' o h => ?_) fun l' r h => ?_
    · obtain ⟨⟨ho, -⟩, hl⟩ := h
      refine Issues.mono (fun _ => id) (fun d hd => ?_) ho
      obtain ⟨input, -, hinput⟩ := hgranted d (by rw [hd])
      exact ⟨input, hinput.mono hl⟩
    · obtain ⟨⟨-, hr⟩, hl⟩ := h
      intro e events he d hd
      rw [hr e events he] at hd
      obtain ⟨input, -, hinput⟩ := hgranted d (congrArg Except.ok hd)
      exact ⟨input, hinput.mono hl⟩

end AgentService.Gateway
