import AgentService.Platform.Outcomes

/-!
# Failed dispatches

A `Dispatch` that fails after its claim gives the event back, on every path but one: when the
handoff cannot be reserved it returns without a call of `failDurable`, and the event stays `running`
until its lease is over (`leftRunning`). `dispatch_fails_iff` says that this is the only exception.

What a grant leaves stays as it is until its lease is over or the event is given back with its owner
and its token (`reachable_leased`), and only the call that was granted the event can do so as long
as it has not returned its handle (`releaser_of_granted`).
-/

namespace AgentService.Platform

open Storage Concurrent Gateway List Option

variable {x : Externals}

/-- A reservation of a handoff that was refused. -/
def refusedReservation : Entry x → Bool
  | ⟨.reserve _ _, r, _, _⟩ => !Except.isOk r
  | _ => false

/-! ## What a dispatch does to its claim -/

/-- What can be seen of a claim. -/
inductive ClaimMark where
  /-- The event is granted. -/
  | granted (tenantID eventID : String) (running : MessageEvent)
  /-- The event is given back by an operation. -/
  | released (op : Op)
  /-- The handoff is reserved, or the reservation is refused. -/
  | reserved (accepted : Bool)

/-- What an entry shows of a claim. -/
def claimMark : Entry x → Option ClaimMark
  | ⟨.reserve _ _, r, _, _⟩ => some (.reserved (Except.isOk r))
  | e =>
    match grantOf e with
    | some (tenantID, eventID, running) => some (.granted tenantID eventID running)
    | none => (releaseOf e).map fun _ => .released e.op

variable {e : Entry x} {tenantID eventID : String} {running : MessageEvent} {m : List ClaimMark}

/-- A grant shows as such. -/
theorem claimMark_of_grantOf (h : grantOf e = some (tenantID, eventID, running)) :
    claimMark e = some (.granted tenantID eventID running) := by
  unfold claimMark
  split
  · cases h
  · rw [h]

/-- An entry that shows a grant is one. -/
theorem grantOf_of_claimMark (h : claimMark e = some (.granted tenantID eventID running)) :
    grantOf e = some (tenantID, eventID, running) := by
  unfold claimMark at h
  split at h
  · cases h
  · split at h
    · next hgrant =>
      cases h
      exact hgrant
    · obtain ⟨-, -, hop⟩ := map_eq_some_iff.1 h
      cases hop

/-- An event that is given back shows as such. -/
theorem claimMark_of_releaseOf {t : MessageTransition} {r : Except Storage.Err MessageEvent}
    (h : releaseOf e = some (t, r)) : claimMark e = some (.released e.op) := by
  have hgrant : grantOf e = none := by
    unfold releaseOf at h
    split at h
    · split_ifs at h with hft
      unfold grantOf
      split
      · next heq =>
        cases heq
        rw [if_neg]
        rcases hft.2 with hto | hto <;> simp [hto]
      · rfl
    · cases h
  unfold claimMark
  split
  · cases h
  · rw [hgrant, h]
    rfl

/-- A refused reservation shows as such, and nothing else does. -/
theorem claimMark_eq_refused :
    claimMark e = some (.reserved false) ↔ refusedReservation e = true := by
  obtain ⟨o, r, _, _⟩ := e
  unfold claimMark refusedReservation
  cases o <;> simp <;> split <;> simp

/-- An entry that shows an operation by which an event is given back is of this operation. -/
theorem op_of_claimMark {op : Op} (h : claimMark e = some (.released op)) : e.op = op := by
  unfold claimMark at h
  split at h
  · cases h
  · split at h
    · cases h
    · obtain ⟨-, -, hop⟩ := map_eq_some_iff.1 h
      cases hop
      rfl

/-- A step to `running` shows nothing, unless it is made. -/
theorem claimMark_error (ctx : Ctx) (t : MessageTransition) (hto : t.to = .running)
    (err : Storage.Err) (pre post : State) :
    claimMark (⟨.store ctx (.transitionMessage t), (.error err : Except Storage.Err MessageEvent),
      pre, post⟩ : Entry x) = none := by
  simp [claimMark, grantOf, releaseOf, hto]

/-- `ensureInboundSession` shows nothing. -/
theorem ensureInboundSession_shows (tenantID sessionID : String) :
    (ensureInboundSession (x := x) tenantID sessionID).Shows claimMark fun m _ => m = [] := by
  refine Program.Every.shows_nil (.bind ⟨fun _ _ _ => rfl, fun _ => trivial⟩ fun r => ?_)
  split
  · trivial
  · exact .bind ⟨fun _ _ _ => rfl, fun _ => trivial⟩ fun r => by split <;> trivial
  · trivial

/-- The takeover of an expired lease shows nothing. -/
theorem prepareInboundEvent_shows (tenantID : String) (event : MessageEvent) (duplicate : Bool)
    (owner : String) : (prepareInboundEvent (x := x) tenantID event duplicate owner).Shows claimMark
      fun m _ => m = [] := by
  refine Program.Every.shows_nil ?_
  unfold prepareInboundEvent
  split
  · trivial
  · split
    · split
      · trivial
      · refine .bind ⟨fun _ _ _ => rfl, fun _ => trivial⟩ fun _ => ?_
        split
        · trivial
        · refine .bind ⟨fun r _ _ => ?_, fun _ => trivial⟩ fun r => by split <;> trivial
          cases r <;> rfl
    · trivial

variable (d : Dispatcher)

/-- An audit shows nothing. -/
theorem writeExecutionAuditRevision_shows (ctx : Ctx) (e : Execution) (eventType : Audit.EventType)
    (errorType : String) (revision : Option ℤ) :
    (d.writeExecutionAuditRevision (x := x) ctx e eventType errorType revision).Shows claimMark
      fun m _ => m = [] := by
  refine Program.Every.shows_nil ?_
  unfold Dispatcher.writeExecutionAuditRevision
  split
  · trivial
  · refine .bind ⟨fun _ _ _ => rfl, fun _ => trivial⟩ fun _ =>
      .bind ⟨fun _ _ _ => rfl, fun _ => trivial⟩ fun r => ?_
    split <;> trivial

/-- The operation of `failDurable`. -/
def failOp (durable : DurableExecution) : Op :=
  .store .background (.transitionMessage (release durable .failed "" 0))

/-- What `failDurable` shows. -/
def failedMarks (durable : Option DurableExecution) : List ClaimMark :=
  durable.toList.map fun d => .released (failOp d)

/-- What a `Dispatch` that fails after its claim shows from there on: the reservation is refused, or
the claim is given back once or twice. -/
inductive GivesUp (durable : Option DurableExecution) : List ClaimMark → Prop
  /-- The reservation of the handoff is refused. -/
  | refused : GivesUp durable [.reserved false]
  /-- The claim is given back. -/
  | once (m : List ClaimMark) (hm : m = [] ∨ m = [.reserved true]) :
      GivesUp durable (m ++ failedMarks durable)
  /-- The claim is given back, and once more after the audit of the failure. -/
  | twice (m : List ClaimMark) (hm : m = [] ∨ m = [.reserved true]) :
      GivesUp durable (m ++ (failedMarks durable ++ failedMarks durable))

/-- `failDurable` gives the event of its handle back. -/
theorem failDurable_shows (durable : Option DurableExecution) :
    (failDurable (x := x) durable).Shows claimMark fun m _ => m = failedMarks durable := by
  cases durable with
  | none => exact .ret rfl
  | some durable =>
    refine .perform fun pre r post _ => .ret ?_
    have hrelease : releaseOf (releaseEntry durable .failed "" 0 r pre post : Entry x) =
        some (release durable .failed "" 0, r) := rfl
    exact congrArg (fun mark => toList mark ++ []) (claimMark_of_releaseOf hrelease)

/-- `reserveHandoff` shows its answer, if there is a handoff store. -/
theorem reserveHandoff_shows (e : Execution) :
    (d.reserveHandoff (x := x) e).Shows claimMark fun m r =>
      (r = none ∧ (m = [] ∨ m = [.reserved true])) ∨ (r ≠ none ∧ m = [.reserved false]) := by
  unfold Dispatcher.reserveHandoff
  split
  · exact .ret (.inl ⟨rfl, .inl rfl⟩)
  · refine .perform fun _ r _ _ => ?_
    cases r with
    | error => exact .ret (.inr ⟨by simp, rfl⟩)
    | ok => exact .ret (.inl ⟨rfl, .inr rfl⟩)

/-- A failure after the reservation gives the claim back. -/
theorem failExecution_shows (e : Execution) (eventType : Audit.EventType) (errorType : String)
    (err : Gateway.Err) {m0 : List ClaimMark} (hm0 : m0 = [] ∨ m0 = [.reserved true]) :
    (d.failExecution (x := x) e eventType errorType err).Shows claimMark fun m r =>
      ∀ err, r = .error err → GivesUp e.durable (m0 ++ m) := by
  refine (failDurable_shows e.durable).bind ?_
  rintro _ - rfl
  refine (writeExecutionAuditRevision_shows d .background e eventType errorType none).bind ?_
  rintro _ r rfl
  cases r with
  | some =>
    refine (failDurable_shows e.durable).bind ?_
    rintro _ - rfl
    exact .ret fun _ _ => by simpa using GivesUp.twice m0 hm0
  | none => exact .ret fun _ _ => by simpa using GivesUp.once m0 hm0

/-- A failure from the acquisition of a runner on gives the claim back. -/
theorem startRunner_shows (e : Execution) {m0 : List ClaimMark}
    (hm0 : m0 = [] ∨ m0 = [.reserved true]) : (d.startRunner (x := x) e).Shows claimMark fun m r =>
      ∀ err, r = .error err → GivesUp e.durable (m0 ++ m) := by
  refine .perform fun pre r post _ => ?_
  split
  · exact failExecution_shows d e _ _ _ hm0
  refine .perform fun pre r post _ => ?_
  split
  · exact failExecution_shows d e _ _ _ hm0
  refine .perform fun pre r post _ => ?_
  split
  · split <;> exact failExecution_shows d e _ _ _ hm0
  · exact failExecution_shows d e _ _ _ hm0
  · exact .ret fun err h => by cases h

/-- A `Dispatch` that fails after its claim gives it back, unless its reservation is refused. -/
theorem dispatchClaimed_shows (e : Execution) (canary : Option ℤ) :
    (d.dispatchClaimed (x := x) e canary).Shows claimMark fun m r =>
      ∀ err, r = .error err → GivesUp e.durable m := by
  have hcanary : (d.writeCanary (x := x) e canary).Shows claimMark fun m _ => m = [] := by
    cases canary with
    | none => exact .ret rfl
    | some => exact writeExecutionAuditRevision_shows d .caller e .canarySelected "" _
  have hrelease : ∀ err, (do failDurable e.durable; return .error err : Code x (Except Gateway.Err
      Dispatcher.Started)).Shows claimMark fun m r => ∀ err, r = .error err → GivesUp e.durable m :=
    fun err => (failDurable_shows e.durable).bind fun m _ hm => .ret fun _ _ => by
      rw [hm, append_nil]
      exact .once [] (.inl rfl)
  refine hcanary.bind ?_
  rintro _ r rfl
  split
  · exact hrelease _
  refine (writeExecutionAuditRevision_shows d .caller e .executionStarted "" none).bind ?_
  rintro _ r rfl
  split
  · exact hrelease _
  refine (reserveHandoff_shows d e).bind ?_
  rintro m r (⟨rfl, hm⟩ | ⟨hr, rfl⟩)
  · exact startRunner_shows d e hm
  · cases r with
    | none => exact absurd rfl hr
    | some => exact .ret fun _ _ => .refused

/-- What the claim of a message shows: the event is granted exactly if a handle is returned. -/
inductive Claims : List ClaimMark → Except Gateway.Err (Option DurableExecution) → Prop
  /-- Nothing is granted. -/
  | nothing (r : Except Gateway.Err (Option DurableExecution)) (h : ∀ d, r ≠ .ok (some d)) :
      Claims [] r
  /-- The event is granted. -/
  | granted (d : DurableExecution) (running : MessageEvent) (howner : running.leaseOwner = d.owner)
      (htoken : running.fencingToken = d.fencingToken) :
      Claims [.granted d.tenantID d.eventID running] (.ok (some d))

/-- Nothing is shown where nothing is granted. -/
theorem Claims.of_nil {r : Except Gateway.Err (Option DurableExecution)}
    (hm : m = []) (h : ∀ d, r ≠ .ok (some d)) : Claims m r := by
  subst hm
  exact .nothing r h

/-- `claimInbound` after the message is recorded. -/
theorem claimRecorded_shows (tenantID : String) (event : MessageEvent) (duplicate : Bool) :
    (claimRecorded (x := x) tenantID event duplicate).Shows claimMark Claims := by
  refine .perform fun pre (uuid : String) post _ => ?_
  refine (prepareInboundEvent_shows tenantID event duplicate _).bind ?_
  rintro _ r rfl
  cases r with
  | error => exact .ret (.nothing _ (by simp))
  | ok event =>
    refine .perform fun pre r post hp => ?_
    cases r with
    | error err =>
      have hmark := claimMark_error (x := x) .caller
        (claimTransition tenantID ("gateway-" ++ uuid) event) rfl err pre post
      exact .ret (.of_nil (congrArg (fun mark => toList mark ++ []) hmark) (by simp))
    | ok =>
      refine .ret ?_
      rcases performs_transitionMessage hp with ⟨-, err, herr⟩ | ⟨_, -, hr, -⟩
      · cases herr
      · cases hr
        exact Claims.granted ⟨tenantID, event.eventID, "gateway-" ++ uuid, _, event.replyTarget⟩ _
          rfl rfl

variable (principal : Principal)

/-- `claimInbound`. -/
theorem claimInbound_shows (message : InboundMessage) (identity : RunnerIdentity) :
    (d.claimInbound (x := x) principal message identity).Shows claimMark Claims := by
  unfold Dispatcher.claimInbound
  split
  · exact .ret (.nothing _ (by simp))
  split
  · exact .ret (.nothing _ (by simp))
  split
  · exact .ret (.nothing _ (by simp))
  split
  · exact .ret (.nothing _ (by simp))
  refine (ensureInboundSession_shows _ _).bind ?_
  rintro _ r rfl
  split
  · exact .ret (.nothing _ (by simp))
  refine .perform fun pre _ post _ => .perform fun pre r post _ => ?_
  split
  · exact .ret (.nothing _ (by simp))
  · exact claimRecorded_shows _ _ _

/-- What a failed `Dispatch` shows, if it was granted an event. -/
def FailsAfterClaim (m : List ClaimMark) : Prop :=
  ∀ tenantID eventID running, .granted tenantID eventID running ∈ m →
    ∃ d m', m = .granted tenantID eventID running :: m' ∧ d.tenantID = tenantID ∧
      d.eventID = eventID ∧ running.leaseOwner = d.owner ∧
      running.fencingToken = d.fencingToken ∧ GivesUp (some d) m'

/-- No event is granted after the claim. -/
theorem GivesUp.not_granted {durable : Option DurableExecution}
    (h : GivesUp durable m) (tenantID eventID : String) (running : MessageEvent) :
    .granted tenantID eventID running ∉ m := by
  cases h with
  | refused => simp
  | once m hm => rcases hm with rfl | rfl <;> simp [failedMarks]
  | twice m hm => rcases hm with rfl | rfl <;> simp [failedMarks]

/-- Unless the reservation is refused, the claim is given back, and only by `failDurable`. -/
theorem GivesUp.released {d : DurableExecution} (h : GivesUp (some d) m) :
    m = [.reserved false] ∨ (.reserved false ∉ m ∧ .released (failOp d) ∈ m ∧
      ∀ op, .released op ∈ m → op = failOp d) := by
  cases h with
  | refused => exact .inl rfl
  | once m hm => exact .inr (by rcases hm with rfl | rfl <;> simp [failedMarks])
  | twice m hm => exact .inr (by rcases hm with rfl | rfl <;> simp [failedMarks])

/-- A `Dispatch` that fails after its claim gives it back, unless its reservation is refused. -/
theorem dispatch_shows : (d.dispatch (x := x) principal).Shows claimMark fun m r =>
      ∀ err, r = .error err → FailsAfterClaim m := by
  have hnil : FailsAfterClaim [] := by
    rintro tenantID eventID running ⟨⟩
  refine .perform fun pre r post _ => ?_
  split
  · exact .ret fun _ _ => hnil
  refine .perform fun pre r post _ => ?_
  split
  · exact .ret fun _ _ => hnil
  refine .perform fun pre r post _ => ?_
  split
  · exact .ret fun _ _ => hnil
  refine (claimInbound_shows d principal _ _).bind ?_
  rintro m r hclaims
  cases hclaims with
  | nothing r =>
    cases r with
    | error => exact .ret fun _ _ => hnil
    | ok =>
      refine (dispatchClaimed_shows d _ _).mono ?_
      rintro m r hm err hr tenantID eventID running hmem
      exact absurd hmem ((hm err hr).not_granted tenantID eventID running)
  | granted durable _ howner htoken =>
    refine (dispatchClaimed_shows d _ _).mono ?_
    rintro m r hm err hr tenantID eventID running' hmem
    have hgives := hm err hr
    rcases mem_cons.1 hmem with heq | hmem
    · cases heq
      exact ⟨durable, m, rfl, rfl, rfl, howner, htoken, hgives⟩
    · exact absurd hmem (hgives.not_granted tenantID eventID running')

/-! ## What a grant leaves -/

section Runs

variable {adm : Run x → Call → Prop} {clock : ℤ} {c : Run x}

variable {running : MessageEvent} {g st : RunStep x} {t : ℕ} {d : DurableExecution}

section

variable (hc : Reachable adm (Run.start (State.initial clock)) c)

include hc

/-- Two grants of one event with one token are one. -/
theorem grant_eq {g' : RunStep x} (hg : g ∈ c.history) (hg' : g' ∈ c.history)
    {tenantID eventID : String} {running' : MessageEvent}
    (hgr : grantOf g.entry = some (tenantID, eventID, running))
    (hgr' : grantOf g'.entry = some (tenantID, eventID, running'))
    (htoken : running.fencingToken = running'.fencingToken) : g = g' := by
  obtain ⟨_, h2, hsplit⟩ := append_of_mem hg
  rw [hsplit] at hg'
  rcases mem_append.1 hg' with hmem | hmem
  · obtain ⟨k1, k2, rfl⟩ := append_of_mem hmem
    have hsplit' : c.history = k1 ++ g' :: (k2 ++ g :: h2) := by
      rw [hsplit]
      simp
    obtain ⟨hlt, -⟩ := grants_ordered hc hsplit' hgr' hgr
    omega
  · rcases mem_cons.1 hmem with rfl | hmem
    · rfl
    · obtain ⟨k1, k2, rfl⟩ := append_of_mem hmem
      obtain ⟨hlt, -⟩ := grants_ordered hc hsplit hgr hgr'
      omega

/-- A call that was granted the event of a handle, with its token. -/
theorem tid_of_granting {c' : Run x} (hlater : Reachable adm c' c) {input : MessageEventInput}
    (hgranting : Granting (log c'.history t) input d) (hg : g ∈ c.history)
    (hgr : grantOf g.entry = some (d.tenantID, d.eventID, running))
    (htoken : d.fencingToken = running.fencingToken) : t = g.tid := by
  obtain ⟨_, _, _, grant, hsteps⟩ := granting_steps hgranting
  have hmem : grant ∈ c'.history := by
    obtain ⟨_, _, _, hsplit⟩ := hsteps.order
    rw [hsplit]
    simp
  rw [← hsteps.grant_tid]
  exact congrArg Step.tid (grant_eq hc (hlater.history_extends.subset hmem) hg hsteps.grantOf_eq hgr
    (hsteps.fencingToken.symm.trans htoken))

end

/-- A returned handle stays returned. -/
theorem handleOf_later {c' : Run x} (hlater : Reachable adm c c') {durable : DurableExecution}
    (h : handleOf (c.threads t) = some durable) : handleOf (c'.threads t) = some durable := by
  have hreturned : ∃ call r, c.Returned t call r := by
    unfold handleOf at h
    split at h
    · next hth => exact ⟨_, _, hth⟩
    · next hth => exact ⟨_, _, hth⟩
    · cases h
  obtain ⟨call, r, hr⟩ := hreturned
  have hthreads : c'.threads t = c.threads t := (hlater.returned_later hr).trans hr.symm
  rw [hthreads]
  exact h

/-- As long as a call has not returned its handle, nobody else gives its event back. -/
theorem releaser_of_granted (hc : Reachable Faithful (Run.start (State.initial clock)) c)
    (hg : g ∈ c.history) (hnone : handleOf (c.threads g.tid) = none) {tr : MessageTransition}
    (hgr : grantOf g.entry = some (tr.tenantID, tr.eventID, running)) (hst : st ∈ c.history)
    {r : Except Storage.Err MessageEvent} (hrelease : releaseOf st.entry = some (tr, r))
    (htoken : tr.fencingToken = running.fencingToken) : st.tid = g.tid := by
  obtain ⟨_, _, hsplit⟩ := append_of_mem hst
  obtain ⟨c', k, hc', hlater, -, -, hth, -⟩ := hc.before_step hsplit
  have hpre := reachable_pre hc' hth
  obtain ⟨tid, call, _, _, _, _⟩ := st
  dsimp only at hrelease hth hpre ⊢
  unfold releaseOf at hrelease
  split at hrelease
  swap
  · cases hrelease
  next ctx t' r' pre' post' heq =>
  split_ifs at hrelease with hfromto
  obtain ⟨hfrom, hto⟩ := hfromto
  cases heq
  cases hrelease
  by_cases hcall : ∃ w, call = .runOnce w
  · obtain ⟨w, rfl⟩ := hcall
    cases hpre <;> cases hfrom
  rcases hpre.gateway fun w hw => hcall ⟨w, hw⟩ with
    h | ⟨-, h⟩ | ⟨-, d, status, replyID, segments, hd, -, rfl⟩
  · rcases hto with hto | hto <;> rw [hto] at h <;> cases h
  · rcases hto with hto | hto <;> rw [hto] at h <;> cases h
  -- A handle that was given to another call was returned by the call that was granted it.
  have hgranted : ∀ {c'' : Run x}, Reachable Faithful (Run.start (State.initial clock)) c'' →
      Reachable Faithful c'' c' → ¬ Granted c'' d := by
    rintro c'' hc'' hlater' ⟨_, -, hhandle⟩
    obtain ⟨input, hinput⟩ := granting_of_handleOf hc'' hhandle
    have htid := tid_of_granting hc (hlater'.trans hlater) hinput hg hgr htoken
    have hhandle' := handleOf_later (hlater'.trans hlater) hhandle
    rw [htid, hnone] at hhandle'
    cases hhandle'
  obtain ⟨c'', hc'', hlater', hadm⟩ := hc'.admitted hth
  cases call with
  | failDurable => exact absurd (hadm d hd) (hgranted hc'' hlater')
  | finishDurable =>
    exact absurd (hadm.2 d hd) (hgranted hc'' hlater')
  | forward => exact absurd (hadm.2 d hd) (hgranted hc'' hlater')
  | dispatch =>
    obtain ⟨input, hinput⟩ := hd
    exact tid_of_granting hc hlater hinput hg hgr htoken
  | _ => exact hd.elim

/-- A call that fails its event while the lease of its grant runs gives it back. -/
theorem givenBack_of_failOp (hc : Reachable adm (Run.start (State.initial clock)) c)
    {h1 h2 h3 : List (RunStep x)} (hsplit : c.history = h1 ++ g :: (h2 ++ st :: h3))
    (hgr : grantOf g.entry = some (d.tenantID, d.eventID, running))
    (howner : running.leaseOwner = d.owner) (htoken : running.fencingToken = d.fencingToken)
    (hop : st.entry.op = failOp d) {deadline : ℤ} (hlease : running.leaseExpiresAt = some deadline)
    (hlive : c.state.clock < deadline) : GivenBack d.tenantID d.eventID running c.history := by
  have hsplit' : c.history = (h1 ++ g :: h2) ++ st :: h3 := by
    rw [hsplit]
    simp
  obtain ⟨c', k, hc', hlater, hhistory, hpre, -, hp⟩ := hc.before_step hsplit'
  have hg : g ∈ c'.history := by
    rw [hhistory]
    simp
  obtain ⟨t, value, ht, he, hto, hmoves0, happly, -⟩ :=
    grantOf_spec hgr (reachable_performs hc' hg)
  have hsound := (reachable_sound_step Store.Sound.empty hc' hg).1.events _ value hmoves0.found
  obtain ⟨v, hv, -⟩ := event_of_grant hc' hg hgr
  have hclock : c'.state.clock < deadline := Int.lt_of_le_of_lt (reachable_later hlater).clock hlive
  rcases (reachable_leased hc' d.tenantID d.eventID v hv).2 g hg running hgr with
    rfl | ⟨_, hd, hle⟩ | ⟨-, st', hst', h⟩
  · -- The event is as the grant left it, so the step is made.
    obtain ⟨tid, call, op, r, pre, post⟩ := st
    obtain rfl : op = failOp d := hop
    obtain rfl : c'.state = pre := hpre
    have hmoves : c'.state.store.MovesMessage c'.state.clock (release d .failed "" 0) v := by
      refine ⟨?_, ?_, ?_, rfl, hv, (running_of_grant hgr (reachable_performs hc' hg)).1,
        (Store.validateMessageLease_release rfl (.inr rfl)).2 ⟨howner, ?_, htoken, ?_⟩⟩
      · show d.tenantID ≠ ""
        exact ht ▸ hmoves0.tenant_ne
      · show d.eventID ≠ ""
        exact he ▸ hmoves0.event_ne
      · have hgranted : v.leaseOwner = t.owner := by simp [happly, Store.applyMessageTransition, hto]
        show d.owner ≠ ""
        rw [← howner, hgranted]
        exact hmoves0.owner_ne
      · have hgranted : v.fencingToken = value.fencingToken + 1 := by
          simp [happly, Store.applyMessageTransition]
        have := hsound.fencingToken
        show d.fencingToken ≠ 0
        omega
      · rw [hlease]
        rintro _ ⟨⟩
        exact hclock
    have hrelease : releaseOf (⟨failOp d, r, c'.state, post⟩ : Entry x) =
      some (release d .failed "" 0, r) := rfl
    rcases performs_store.1 hp with ⟨hctx, -⟩ | ⟨_, store, happly', -⟩
    · cases hctx
    · simp only [StoreOp.apply, hmoves.eq] at happly'
      cases happly'
      refine ⟨⟨tid, call, _⟩, ?_, release d .failed "" 0, _, hrelease, rfl, rfl, howner.symm,
        htoken.symm⟩
      rw [hsplit']
      exact mem_append_right _ mem_cons_self
  · rw [hlease] at hd
    cases hd
    omega
  · exact ⟨st', hlater.history_extends.subset hst', h⟩

/-- An event that was given back by `failDurable` is failed. -/
theorem failed_of_failOp (hc : Reachable adm (Run.start (State.initial clock)) c)
    (hst : st ∈ c.history) (hop : st.entry.op = failOp d) {tr : MessageTransition}
    {released : MessageEvent} (hrelease : releaseOf st.entry = some (tr, .ok released)) :
    ∃ v, c.state.store.events.lookup (key [d.tenantID, d.eventID]) = some v ∧
      v.status = .failed := by
  have hp := reachable_performs hc hst
  have hlater := ((reachable_evolves hc).2.1 st hst).2.2.store
  obtain ⟨_, _, op, r, _, _⟩ := st
  obtain rfl : op = failOp d := hop
  obtain rfl : r = .ok released := congrArg Prod.snd (some.inj hrelease)
  dsimp only at hp hlater
  rcases performs_transitionMessage hp with ⟨-, _, herr⟩ | ⟨_, -, -, rfl⟩
  · cases herr
  · obtain ⟨v, hv, hevolves⟩ := hlater.events _ _ (AList.lookup_insert _)
    rw [hevolves.final (.inr rfl)] at hv
    exact ⟨_, hv, rfl⟩

/-- What a failed `Dispatch` shows of its claim. -/
theorem failsAfterClaim_of_returned (hc : Reachable adm (Run.start (State.initial clock)) c)
    {d : Dispatcher} {principal : Principal} {err : Gateway.Err}
    (hr : c.Returned t (.dispatch d principal) (.dispatched (.error err))) :
    FailsAfterClaim ((log c.history t).filterMap claimMark) := by
  have hbody : ((services x).body (.dispatch d principal)).Obeys (fun _ _ => True)
      (fun l r => ∀ err, r = .dispatched (.error err) → FailsAfterClaim (l.filterMap claimMark))
      [] := by
    show Program.Obeys _ _ (_ >>= _) _
    rw [Program.obeys_bind]
    refine (dispatch_shows d principal []).mono (fun _ _ => id) ?_
    rintro l r ⟨k, rfl, hk⟩ err heq
    cases heq
    exact hk err rfl
  exact hc.returned hbody hr err rfl

/-- A `Dispatch` that fails after its claim, while the lease runs: the event is failed exactly if no
reservation of the call was refused. -/
theorem dispatch_fails_iff (hc : Reachable Faithful (Run.start (State.initial clock)) c) {t : ℕ}
    {d : Dispatcher} {principal : Principal} {err : Gateway.Err}
    (hr : c.Returned t (.dispatch d principal) (.dispatched (.error err))) {entry : Entry x}
    (hentry : entry ∈ log c.history t) {tenantID eventID : String} {running : MessageEvent}
    (hgrant : grantOf entry = some (tenantID, eventID, running)) {deadline : ℤ}
    (hlease : running.leaseExpiresAt = some deadline) (hlive : c.state.clock < deadline) :
    (∃ v, c.state.store.events.lookup (key [tenantID, eventID]) = some v ∧ v.status = .failed) ↔
      ¬ ∃ entry' ∈ log c.history t, refusedReservation entry' = true := by
  have hmark : .granted tenantID eventID running ∈ (log c.history t).filterMap claimMark :=
    List.mem_filterMap.2 ⟨entry, hentry, claimMark_of_grantOf hgrant⟩
  obtain ⟨durable, m, hm, rfl, rfl, howner, htoken, hgives⟩ :=
    failsAfterClaim_of_returned hc hr _ _ _ hmark
  obtain ⟨g, hg, hgtid, rfl⟩ := mem_log.1 hentry
  obtain ⟨v, hv, -⟩ := event_of_grant hc hg hgrant
  have hleased := (reachable_leased hc _ _ v hv).2 g hg running hgrant
  have hexpired : ¬ Expired c.state.clock running := by
    rintro ⟨_, hd, hle⟩
    rw [hlease] at hd
    cases hd
    omega
  -- Who gives the event back is this call, and it shows.
  have hreleased : ∀ {st : RunStep x}, st ∈ c.history → ∀ {tr r}, releaseOf st.entry = some (tr, r) →
      tr.tenantID = durable.tenantID → tr.eventID = durable.eventID →
      tr.fencingToken = running.fencingToken → .released st.entry.op ∈ m := by
    intro st hst tr r hrelease htenant hevent htok
    have htid := releaser_of_granted hc hg (by rw [hgtid, hr]; rfl)
      (by rw [htenant, hevent]; exact hgrant) hst hrelease htok
    have hmem : .released st.entry.op ∈ (log c.history t).filterMap claimMark :=
      List.mem_filterMap.2 ⟨st.entry, mem_log.2 ⟨st, hst, htid.trans hgtid, rfl⟩,
        claimMark_of_releaseOf hrelease⟩
    rw [hm] at hmem
    simpa using hmem
  have hrefused : (∃ entry' ∈ log c.history t, refusedReservation entry' = true) ↔
      .reserved false ∈ m := by
    have hiff : .reserved false ∈ (log c.history t).filterMap claimMark ↔ .reserved false ∈ m := by
      rw [hm]
      simp
    rw [← hiff, List.mem_filterMap]
    simp only [claimMark_eq_refused]
  rw [hrefused]
  rcases hgives.released with rfl | ⟨hnot, hfail, honly⟩
  · -- The reservation was refused, and nothing gives the event back.
    refine iff_of_false ?_ (by simp)
    rintro ⟨v', hv', hstatus⟩
    obtain rfl := Option.some.inj (hv.symm.trans hv')
    rcases hleased with rfl | h | ⟨-, st, hst, tr, released, hrelease, htenant, hevent, -, htok⟩
    · rw [(running_of_grant hgrant (reachable_performs hc hg)).1] at hstatus
      cases hstatus
    · exact hexpired h
    · simpa using hreleased hst hrelease htenant hevent htok
  · refine iff_of_true ?_ hnot
    obtain ⟨l1, e, l2, hlog, -, he, hl2⟩ := List.filterMap_eq_cons_iff.1 hm
    rw [← hl2] at hfail
    obtain ⟨e', he', hmark'⟩ := List.mem_filterMap.1 hfail
    obtain ⟨l3, l4, rfl⟩ := List.append_of_mem he'
    obtain ⟨h1, g', h2, hsplit, -, rfl, -, hlog2⟩ := exists_of_log_eq hlog
    obtain ⟨h3, st', h4, rfl, -, rfl, -, -⟩ := exists_of_log_eq hlog2
    obtain ⟨st, hst, tr, released, hrelease, htenant, hevent, -, htok⟩ :=
      givenBack_of_failOp hc hsplit (grantOf_of_claimMark he) howner htoken
        (op_of_claimMark hmark') hlease hlive
    exact failed_of_failOp hc hst (honly _ (hreleased hst hrelease htenant hevent htok)) hrelease

end Runs

/-! ## A refused reservation -/

/-- A call of `Dispatch`. -/
def dispatchSample : Call := .dispatch auditedDispatcher samplePrincipal

/-- The dispatch of the message up to the reservation of its handoff, which is refused. -/
def refuseReservation : List (Action (services plainExternals)) :=
  dispatchMessage.take 12 ++ [.perform 0 { unavailable := true }]

/-- The lease that an entry grants the event `e`. -/
def grantedUntil (entry : Entry x) : Option (Option ℤ) :=
  match grantOf entry with
  | some ("t", "e", running) => some running.leaseExpiresAt
  | _ => none

/-- A lease that is granted is the one of a grant. -/
theorem grantOf_of_grantedUntil {entry : Entry x} {deadline : ℤ}
    (h : grantedUntil entry = some (some deadline)) :
    ∃ running, grantOf entry = some ("t", "e", running) ∧
      running.leaseExpiresAt = some deadline := by
  unfold grantedUntil at h
  split at h
  · next running hgrant => exact ⟨running, hgrant, some.inj h⟩
  · cases h

/-- The handoff cannot be reserved: the call fails, and the event stays `running`. -/
theorem leftRunning : ∃ c : Run plainExternals,
    Reachable Faithful (Run.start (State.initial 1)) c ∧
      c.Returned 0 dispatchSample (.dispatched (.error .auditWriteFailed)) ∧
      (∃ entry ∈ log c.history 0, ∃ running, grantOf entry = some ("t", "e", running) ∧
        running.leaseExpiresAt = some (1 + durableInboundLease)) ∧
      c.state.clock = 1 ∧
      ∃ v, c.state.store.events.lookup (key ["t", "e"]) = some v ∧ v.status = .running := by
  obtain ⟨c, hc, hreturned, hresult, ⟨entry, hentry, hgranted⟩, hclock, hevent⟩ :=
    Config.exists_returned_of_run Faithful (Run.start (State.initial 1)) refuseReservation
      (fun c => c.result 0 = some (.dispatched (.error .auditWriteFailed)) ∧
        (∃ entry ∈ log c.history 0,
          grantedUntil entry = some (some (1 + durableInboundLease))) ∧
        c.state.clock = 1 ∧
        (c.state.store.events.lookup (key ["t", "e"])).map (·.status) = some .running)
      (by decide +kernel)
  obtain ⟨v, hv, hstatus⟩ := Option.map_eq_some_iff.1 hevent
  exact ⟨c, hc, hreturned 0 dispatchSample _ (by simp [refuseReservation, dispatchMessage,
    dispatchSample]) hresult, ⟨entry, hentry, grantOf_of_grantedUntil hgranted⟩, hclock, v, hv,
    hstatus⟩

/-- The handoff is reserved, and then no runner can be acquired. -/
def refuseRunner : List (Action (services plainExternals)) :=
  dispatchMessage.take 13 ++ [.perform 0 { acquire := some .runnerUnavailable }, .perform 0 {},
    .perform 0 {}, .perform 0 {}]

/-- No runner can be acquired: the call fails, and so does the event. -/
theorem dispatch_fails_noRunner : ∃ c : Run plainExternals,
    Reachable Faithful (Run.start (State.initial 1)) c ∧
      c.Returned 0 dispatchSample (.dispatched (.error .runnerUnavailable)) ∧
      ∃ v, c.state.store.events.lookup (key ["t", "e"]) = some v ∧ v.status = .failed := by
  obtain ⟨c, hc, hreturned, hresult, ⟨entry, hentry, hgranted⟩, hclock, hnone⟩ :=
    Config.exists_returned_of_run Faithful (Run.start (State.initial 1)) refuseRunner
      (fun c => c.result 0 = some (.dispatched (.error .runnerUnavailable)) ∧
        (∃ entry ∈ log c.history 0,
          grantedUntil entry = some (some (1 + durableInboundLease))) ∧
        c.state.clock = 1 ∧
        ¬ ∃ entry ∈ log c.history 0, refusedReservation entry = true)
      (by decide +kernel)
  have hreturned' := hreturned 0 dispatchSample _
    (by simp [refuseRunner, dispatchMessage, dispatchSample]) hresult
  obtain ⟨running, hgrant, hlease⟩ := grantOf_of_grantedUntil hgranted
  exact ⟨c, hc, hreturned', (dispatch_fails_iff hc hreturned' hentry hgrant hlease
    (by rw [hclock]; decide)).2 hnone⟩

end AgentService.Platform
