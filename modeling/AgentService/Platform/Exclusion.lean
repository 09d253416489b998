import AgentService.Platform.Executions

/-!
# At most one live execution of a message

A claim of a message is a sequence of separate store operations, and none of them but the last
checks a token. Still only one execution holds the event at a time: the step to `running` starts
from an event that is not running, and a running event is left only by its holder, before the end of
its lease, or for reconciliation after it. `exclusive_of_reachable` collects what follows for every
interleaving.

The proof carries one invariant (`Leased`): a running event is the one that the latest grant left,
and every earlier grant is over, by its lease or because the event was given back.
-/

namespace AgentService.Platform

open Storage Concurrent Gateway List Store

variable {x : Externals}

/-- The event that an entry moves to `running`, by tenant and event, as it is afterwards. -/
def grantOf : Entry x → Option (String × String × MessageEvent)
  | ⟨.store _ (.transitionMessage t), .ok running, _, _⟩ =>
    if t.to = .running then some (t.tenantID, t.eventID, running) else none
  | _ => none

/-- The attempt of an entry to move an event from `running` to `completed` or `failed`, with its
answer. -/
def releaseOf : Entry x → Option (MessageTransition × Except Storage.Err MessageEvent)
  | ⟨.store _ (.transitionMessage t), r, _, _⟩ =>
    if t.from = .running ∧ (t.to = .completed ∨ t.to = .failed) then some (t, r) else none
  | _ => none

/-- The call `t₁` was granted its event before the call `t₂`, with a smaller token, and its lease
was over by then. -/
def Succeeds (history : List (RunStep x)) (t₁ : ℕ) (d₁ : DurableExecution) (t₂ : ℕ)
    (d₂ : DurableExecution) : Prop :=
  ∃ h₁ g₁ h₂ g₂ h₃ running₁ running₂ deadline, history = h₁ ++ g₁ :: (h₂ ++ g₂ :: h₃) ∧
    g₁.tid = t₁ ∧ grantOf g₁.entry = some (d₁.tenantID, d₁.eventID, running₁) ∧
    g₂.tid = t₂ ∧ grantOf g₂.entry = some (d₂.tenantID, d₂.eventID, running₂) ∧
    d₁.fencingToken < d₂.fencingToken ∧ running₁.leaseExpiresAt = some deadline ∧
    deadline ≤ g₂.entry.pre.clock

/-- The request carries the owner and the token of the latest grant of its event, before the end of
its lease. -/
def HeldByLatest (before : List (RunStep x)) (now : ℤ) (t : MessageTransition) : Prop :=
  ∃ h₁ g h₂ running deadline, before = h₁ ++ g :: h₂ ∧
    grantOf g.entry = some (t.tenantID, t.eventID, running) ∧
    (∀ g' ∈ h₂, ∀ running', grantOf g'.entry ≠ some (t.tenantID, t.eventID, running')) ∧
    running.leaseOwner = t.owner ∧ running.fencingToken = t.fencingToken ∧
    running.leaseExpiresAt = some deadline ∧ now < deadline

/-- At most one execution of a message is live. -/
structure Exclusive (c : Run x) : Prop where
  /-- Two claims of one message that succeed return one event, and the later one has a greater token
  and was granted after the end of the earlier lease. -/
  successive : ∀ t₁ t₂ disp₁ disp₂ p₁ p₂ m₁ m₂ i₁ i₂ d₁ d₂, t₁ ≠ t₂ →
    c.Returned t₁ (.claimInbound disp₁ p₁ m₁ i₁) (.claimed (.ok (some d₁))) →
    c.Returned t₂ (.claimInbound disp₂ p₂ m₂ i₂) (.claimed (.ok (some d₂))) →
    messageOf p₁ m₁ = messageOf p₂ m₂ →
    d₁.eventID = d₂.eventID ∧
      (Succeeds c.history t₁ d₁ t₂ d₂ ∨ Succeeds c.history t₂ d₂ t₁ d₁)
  /-- An event is moved from `running` to `completed` or `failed` by the latest grant, before the end
  of its lease; every other attempt is a conflict and changes nothing. -/
  released : Throughout (fun before st => ∀ t r, releaseOf st.entry = some (t, r) →
    (∀ released, r = .ok released → HeldByLatest before st.entry.pre.clock t) ∧
    ∀ err, r = .error err → err = .conflict ∧ st.entry.post = st.entry.pre) c.history
  /-- A closed event is not granted any more. -/
  closed : ∀ h₁ st h₂, c.history = h₁ ++ st :: h₂ → ∀ tenantID eventID v,
    st.entry.post.store.events.lookup (key [tenantID, eventID]) = some v → v.status.Closed →
    ∀ g ∈ h₂, ∀ running, grantOf g.entry ≠ some (tenantID, eventID, running)

/-! ## Grants -/

/-- What a grant did. -/
theorem grantOf_spec {e : Entry x} {tenantID eventID : String} {running : MessageEvent}
    (h : grantOf e = some (tenantID, eventID, running))
    (hp : (platform x).Performs e.op e.pre e.res e.post) :
    ∃ t value, t.tenantID = tenantID ∧ t.eventID = eventID ∧ t.to = .running ∧
      e.pre.store.MovesMessage e.pre.clock t value ∧
      running = Store.applyMessageTransition e.pre.clock value t ∧
      e.post.store.events.lookup (key [tenantID, eventID]) = some running := by
  unfold grantOf at h
  split at h
  · next ctx t running' pre post =>
    split_ifs at h with hto
    cases h
    rcases performs_transitionMessage hp with ⟨-, _, herr⟩ | ⟨value, hmoves, hr, hpost⟩
    · cases herr
    · refine ⟨t, value, rfl, rfl, hto, hmoves, Except.ok.inj hr, ?_⟩
      rw [show post = _ from hpost, Except.ok.inj hr]
      exact AList.lookup_insert _
  · cases h

/-- A granted event is running under a lease. -/
theorem running_of_grant {e : Entry x} {tenantID eventID : String} {running : MessageEvent}
    (h : grantOf e = some (tenantID, eventID, running))
    (hp : (platform x).Performs e.op e.pre e.res e.post) :
    running.status = .running ∧ ∃ deadline, running.leaseExpiresAt = some deadline := by
  obtain ⟨t, _, -, -, hto, -, rfl, -⟩ := grantOf_spec h hp
  simp [applyMessageTransition, hto]

/-- An event that is moved to `running` is neither running nor closed. -/
theorem not_closed_of_grant {s : Store} {now : ℤ} {t : MessageTransition} {value : MessageEvent}
    (h : s.MovesMessage now t value) (hto : t.to = .running) :
    value.status ≠ .running ∧ ¬ value.status.Closed := by
  have hlegal := h.legal
  rw [hto, ← h.status] at hlegal
  cases hs : value.status <;> rw [hs] at hlegal <;>
    simp_all [validateMessageTransition, EventStatus.Closed]

/-! ## The invariant -/

/-- The lease of a granted event is over. -/
def Expired (now : ℤ) (running : MessageEvent) : Prop :=
  ∃ deadline, running.leaseExpiresAt = some deadline ∧ deadline ≤ now

/-- The event was given back with the owner and the token of a grant. -/
def GivenBack (tenantID eventID : String) (running : MessageEvent) (history : List (RunStep x)) :
    Prop :=
  ∃ st ∈ history, ∃ t released, releaseOf st.entry = some (t, .ok released) ∧
    t.tenantID = tenantID ∧ t.eventID = eventID ∧ t.owner = running.leaseOwner ∧
    t.fencingToken = running.fencingToken

/-- What is given back stays given back. -/
theorem GivenBack.snoc {tenantID eventID : String} {running : MessageEvent}
    {history : List (RunStep x)} (h : GivenBack tenantID eventID running history)
    (st : RunStep x) : GivenBack tenantID eventID running (history ++ [st]) := by
  obtain ⟨st', hst', h⟩ := h
  exact ⟨st', mem_append_left _ hst', h⟩

/-- A running event is what a grant left, and every grant still stands as it was, or its lease is
over, or the event was given back and is closed. -/
def Leased (tenantID eventID : String) (s : State) (history : List (RunStep x)) : Prop :=
  ∀ v, s.store.events.lookup (key [tenantID, eventID]) = some v →
    (v.status = .running → ∃ g ∈ history, grantOf g.entry = some (tenantID, eventID, v)) ∧
    ∀ g ∈ history, ∀ running, grantOf g.entry = some (tenantID, eventID, running) →
      v = running ∨ Expired s.clock running ∨
        (v.status.Closed ∧ GivenBack tenantID eventID running history)

/-- A step on an event that a grant left ends its lease or gives the event back. -/
theorem expired_or_givenBack {s : Store} {now : ℤ} {t : MessageTransition} {running : MessageEvent}
    (hmoves : s.MovesMessage now t running) (hrunning : running.status = .running) :
    Expired now running ∨ (t.from = .running ∧ (t.to = .completed ∨ t.to = .failed) ∧
      t.owner = running.leaseOwner ∧ t.fencingToken = running.fencingToken) := by
  have hfrom : t.from = .running := hmoves.status.symm.trans hrunning
  have hlegal := hmoves.legal
  have hlease := hmoves.lease
  rw [hfrom] at hlegal
  simp only [validateMessageTransition, decide_eq_true_eq] at hlegal
  have hrelease : t.to = .completed ∨ t.to = .failed →
      t.owner = running.leaseOwner ∧ t.fencingToken = running.fencingToken := fun hto => by
    obtain ⟨howner, -, htoken, -⟩ := (validateMessageLease_release hfrom hto).1 hlease
    exact ⟨howner.symm, htoken.symm⟩
  rcases hlegal with hto | hto | hto
  · exact .inr ⟨hfrom, .inl hto, hrelease (.inl hto)⟩
  · unfold validateMessageLease at hlease
    simp only [hto, hfrom] at hlease
    cases hd : running.leaseExpiresAt with
    | none => simp [hd] at hlease
    | some deadline =>
      refine .inl ⟨deadline, hd, ?_⟩
      simp [hd] at hlease
      exact hlease
  · exact .inr ⟨hfrom, .inr hto, hrelease (.inr hto)⟩

section Runs

variable {adm : Run x → Call → Prop} {clock : ℤ} {c : Run x}

section

variable (hc : Reachable adm (Run.start (State.initial clock)) c)

include hc

/-- A granted event is stored from then on. -/
theorem event_of_grant {g : RunStep x} (hg : g ∈ c.history) {tenantID eventID : String}
    {running : MessageEvent} (hgr : grantOf g.entry = some (tenantID, eventID, running)) :
    ∃ v, c.state.store.events.lookup (key [tenantID, eventID]) = some v ∧ running.Evolves v := by
  obtain ⟨-, -, -, -, -, -, -, hpost⟩ := grantOf_spec hgr (reachable_performs hc hg)
  exact ((reachable_evolves hc).2.1 g hg).2.2.store.events _ _ hpost

/-- The invariant holds throughout every run. -/
theorem reachable_leased (tenantID eventID : String) :
    Leased tenantID eventID c.state c.history := by
  refine Reachable.invariant (I := Leased tenantID eventID) ?_ ?_ ?_ hc
  · intro v hv
    cases hv
  · intro c t call o k r s' hc _ hp ih v hv
    obtain ⟨hclock, hevent⟩ := performs_event hp tenantID eventID
    refine ⟨fun hrun => ?_, fun g hmem running hgr => ?_⟩
    · rcases hevent with heq | ⟨-, _, _, heq⟩ | ⟨_, _, _, ⟨⟩, ⟨rfl, rfl⟩, -, heq⟩
      · obtain ⟨g, hg, hgr⟩ := (ih v (heq.symm.trans hv)).1 hrun
        exact ⟨g, mem_append_left _ hg, hgr⟩
      · obtain rfl := Option.some.inj (hv.symm.trans heq)
        simp [newEvent] at hrun
      · obtain rfl := Option.some.inj (hv.symm.trans heq)
        exact ⟨_, mem_concat_self, if_pos hrun⟩
    rcases mem_append.1 hmem with hg | hg
    swap
    · -- A grant by this step left the event as it is now.
      rw [mem_singleton.1 hg] at hgr
      obtain ⟨-, -, -, -, -, -, -, hpost⟩ := grantOf_spec hgr hp
      exact .inl (Option.some.inj (hv.symm.trans hpost))
    obtain ⟨v0, hv0, -⟩ := event_of_grant hc hg hgr
    have hold := (ih v0 hv0).2 g hg running hgr
    rw [hclock]
    rcases hevent with heq | ⟨hnone, -⟩ | ⟨_, tr, _, ⟨⟩, ⟨rfl, rfl⟩, hmoves, heq⟩
    · obtain rfl := Option.some.inj (hv0.symm.trans (heq.symm.trans hv))
      exact hold.imp_right (Or.imp_right fun h => ⟨h.1, h.2.snoc _⟩)
    · -- A new event was never granted.
      rw [hnone] at hv0
      cases hv0
    · obtain rfl := Option.some.inj (hv.symm.trans heq)
      obtain rfl := Option.some.inj (hv0.symm.trans hmoves.found)
      rcases hold with rfl | h | ⟨hclosed, h⟩
      · have hrunning := (running_of_grant hgr (reachable_performs hc hg)).1
        rcases expired_or_givenBack hmoves hrunning with h | ⟨hfrom, hto, howner, htoken⟩
        · exact .inr (.inl h)
        · refine .inr (.inr ⟨?_, _, mem_concat_self, tr, _, if_pos ⟨hfrom, hto⟩, rfl, rfl, howner,
            htoken⟩)
          rcases hto with hto | hto
          · exact .inl hto
          · exact .inr (.inr (.inr hto))
      · exact .inr (.inl h)
      · exact .inr (.inr ⟨hmoves.evolves.closed hclosed, h.snoc _⟩)
  · intro c m hc ih v hv
    obtain ⟨hgrant, hgrants⟩ := ih v hv
    refine ⟨hgrant, fun g hg running hgr => ?_⟩
    rcases hgrants g hg running hgr with h | ⟨deadline, hd, _⟩ | h
    · exact .inl h
    · refine .inr (.inl ⟨deadline, hd, ?_⟩)
      show deadline ≤ c.state.clock + (m : ℤ)
      omega
    · exact .inr (.inr h)

/-- Of two grants of one event the later one has the greater token, and the lease of the earlier one
is over by then. -/
theorem grants_ordered {h1 h2 h3 : List (RunStep x)} {g1 g2 : RunStep x} {tenantID eventID : String}
    {running1 running2 : MessageEvent} (hsplit : c.history = h1 ++ g1 :: (h2 ++ g2 :: h3))
    (hg1 : grantOf g1.entry = some (tenantID, eventID, running1))
    (hg2 : grantOf g2.entry = some (tenantID, eventID, running2)) :
    running1.fencingToken < running2.fencingToken ∧ Expired g2.entry.pre.clock running1 := by
  have hsplit' : c.history = (h1 ++ g1 :: h2) ++ g2 :: h3 := by rw [hsplit]; simp
  -- The configuration before the later grant.
  obtain ⟨c', k, hc', -, hhistory, hpre, -, hp⟩ := hc.before_step hsplit'
  have hmem : g1 ∈ c'.history := by rw [hhistory]; simp
  obtain ⟨t, value, rfl, rfl, hto, hmoves, rfl, -⟩ := grantOf_spec hg2 hp
  rw [← hpre] at hmoves ⊢
  obtain ⟨_, hvalue', hevolves⟩ := event_of_grant hc' hmem hg1
  rw [hmoves.found] at hvalue'
  cases hvalue'
  obtain ⟨hnot, hopen⟩ := not_closed_of_grant hmoves hto
  refine ⟨?_, ?_⟩
  · have := hevolves.fencingToken
    simp only [applyMessageTransition]
    omega
  · obtain ⟨-, hgrants⟩ := reachable_leased hc' t.tenantID t.eventID value hmoves.found
    rcases hgrants g1 hmem running1 hg1 with rfl | h | ⟨h, -⟩
    · exact absurd (running_of_grant hg1 (reachable_performs hc' hmem)).1 hnot
    · exact h
    · exact absurd h hopen

end

section Claims

variable {t : ℕ} {input : MessageEventInput} {d d' : DurableExecution}
  {event running running' : MessageEvent} {record grant : RunStep x}

/-- The message of a granted call leads to the event of its handle. -/
theorem GrantSteps.message_current (h : GrantSteps c.history t input d event running record grant)
    (hc : Reachable adm (Run.start (State.initial clock)) c) :
    c.state.store.messages.lookup (key [input.tenantID, input.bindingID,
      input.externalMessageID]) = some (key [d.tenantID, d.eventID]) := by
  obtain ⟨-, hmessage⟩ := h.recorded hc Store.Sound.empty
  obtain ⟨_, _, _, hsplit⟩ := h.order
  have hmem : record ∈ c.history := by rw [hsplit]; simp
  exact ((reachable_evolves hc).2.1 record hmem).2.2.store.messages _ _ hmessage

/-- The grant of a granted call. -/
theorem GrantSteps.grantOf_eq {history : List (RunStep x)}
    (h : GrantSteps history t input d event running record grant) :
    grantOf grant.entry = some (d.tenantID, d.eventID, running) := by
  obtain ⟨_, hentry⟩ := h.grant_entry
  rw [hentry]
  rfl

/-- Two granted calls of one event, in the order of their grants. -/
theorem succeeds_of_order (hc : Reachable adm (Run.start (State.initial clock)) c)
    {h1 h2 h3 : List (RunStep x)} {g g' : RunStep x}
    (hsplit : c.history = h1 ++ g :: (h2 ++ g' :: h3))
    (hg : grantOf g.entry = some (d.tenantID, d.eventID, running))
    (hg' : grantOf g'.entry = some (d'.tenantID, d'.eventID, running'))
    (htenant : d.tenantID = d'.tenantID) (hevent : d.eventID = d'.eventID)
    (htoken : d.fencingToken = running.fencingToken)
    (htoken' : d'.fencingToken = running'.fencingToken) : Succeeds c.history g.tid d g'.tid d' := by
  have hg'' := hg'
  rw [← htenant, ← hevent] at hg''
  obtain ⟨hlt, deadline, hd, hle⟩ := grants_ordered hc hsplit hg hg''
  exact ⟨h1, g, h2, g', h3, running, running', deadline, hsplit, rfl, hg, rfl, hg',
    by rw [htoken, htoken']; exact hlt, hd, hle⟩

end Claims

/-- Two claims of one message. -/
theorem claims_successive (hc : Reachable adm (Run.start (State.initial clock)) c) {t1 t2 : ℕ}
    (ht : t1 ≠ t2) {input1 input2 : MessageEventInput} {d1 d2 : DurableExecution}
    (hg1 : Granting (log c.history t1) input1 d1) (hg2 : Granting (log c.history t2) input2 d2)
    (hinput : inputOf input1 = inputOf input2) : d1.eventID = d2.eventID ∧
      (Succeeds c.history t1 d1 t2 d2 ∨ Succeeds c.history t2 d2 t1 d1) := by
  obtain ⟨_, _, record1, grant1, hs1⟩ := granting_steps hg1
  obtain ⟨_, _, _, grant2, hs2⟩ := granting_steps hg2
  -- The message leads to one event.
  obtain ⟨htenant, hevent⟩ : d1.tenantID = d2.tenantID ∧ d1.eventID = d2.eventID := by
    have h1 := hs1.message_current hc
    have h2 := hs2.message_current hc
    simp only [inputOf, Prod.mk.injEq] at hinput
    rw [hinput.1, hinput.2.1, hinput.2.2, h2] at h1
    simpa using (Option.some.inj h1).symm
  refine ⟨hevent, ?_⟩
  -- Whichever grant comes first.
  obtain ⟨h1, h2, h3, hsplit⟩ := hs1.order
  have hsplit1 : c.history = (h1 ++ record1 :: h2) ++ grant1 :: h3 := by rw [hsplit]; simp
  have hmem2 : grant2 ∈ c.history := by
    obtain ⟨k1, k2, _, h⟩ := hs2.order
    rw [h]
    simp
  have hne : grant2 ≠ grant1 := fun h => ht (by rw [← hs1.grant_tid, ← hs2.grant_tid, h])
  rw [hsplit1, mem_append, mem_cons] at hmem2
  rw [← hs1.grant_tid, ← hs2.grant_tid]
  rcases hmem2 with hmem | hmem | hmem
  · obtain ⟨k1, k2, hk⟩ := append_of_mem hmem
    have hsplit2 : c.history = k1 ++ grant2 :: (k2 ++ grant1 :: h3) := by
      rw [hsplit1, hk]
      simp
    exact .inr (succeeds_of_order hc hsplit2 hs2.grantOf_eq hs1.grantOf_eq htenant.symm
      hevent.symm hs2.fencingToken hs1.fencingToken)
  · exact absurd hmem hne
  · obtain ⟨k1, k2, rfl⟩ := append_of_mem hmem
    exact .inl (succeeds_of_order hc hsplit1 hs1.grantOf_eq hs2.grantOf_eq htenant hevent
      hs1.fencingToken hs2.fencingToken)

/-- A release that is made carries the owner and the token of the latest grant. -/
theorem heldByLatest_of_release (hc : Reachable adm (Run.start (State.initial clock)) c)
    {t : MessageTransition} {value : MessageEvent} (hfrom : t.from = .running)
    (hto : t.to = .completed ∨ t.to = .failed)
    (hmoves : c.state.store.MovesMessage c.state.clock t value) :
    HeldByLatest c.history c.state.clock t := by
  obtain ⟨howner, -, htoken, hlive⟩ := (validateMessageLease_release hfrom hto).1 hmoves.lease
  obtain ⟨hgrant, -⟩ := reachable_leased hc t.tenantID t.eventID value hmoves.found
  obtain ⟨g, hg, hgr⟩ := hgrant (hmoves.status.trans hfrom)
  obtain ⟨-, deadline, hdeadline⟩ := running_of_grant hgr (reachable_performs hc hg)
  obtain ⟨h1, h2, hsplit⟩ := append_of_mem hg
  refine ⟨h1, g, h2, value, deadline, hsplit, hgr, fun g' hg' _ hgr' => ?_, howner, htoken,
    hdeadline, hlive deadline hdeadline⟩
  -- A later grant would have a greater token than the event has.
  obtain ⟨_, _, rfl⟩ := append_of_mem hg'
  obtain ⟨_, -⟩ := grants_ordered hc hsplit hgr hgr'
  have hmem : g' ∈ c.history := by rw [hsplit]; simp
  obtain ⟨v, hv, hevolves⟩ := event_of_grant hc hmem hgr'
  rw [hmoves.found] at hv
  cases hv
  have := hevolves.fencingToken
  omega

section

variable (hc : Reachable Faithful (Run.start (State.initial clock)) c)

include hc

/-- The request of a release comes with a good handle. -/
theorem release_of_pre {t : ℕ} {call : Call} {ctx : Ctx} {tr : MessageTransition}
    {k : _ → Code x Result}
    (hth : c.threads t = some ⟨call, .call (.store ctx (.transitionMessage tr)) k⟩)
    (hfrom : tr.from = .running) (hto : tr.to = .completed ∨ tr.to = .failed) :
    ctx = .background ∧ ∃ durable, Held c.state.store durable ∧
      tr.tenantID = durable.tenantID ∧ tr.eventID = durable.eventID ∧ tr.owner = durable.owner := by
  have hpre := reachable_pre hc hth
  by_cases hcall : ∃ w, call = .runOnce w
  · obtain ⟨w, rfl⟩ := hcall
    cases hpre <;> cases hfrom
  · rcases hpre.gateway fun w hw => hcall ⟨w, hw⟩ with
      h | ⟨-, h⟩ | ⟨hctx, d, status, replyID, segments, hd, -, rfl⟩
    · rcases hto with hto | hto <;> rw [hto] at h <;> cases h
    · rcases hto with hto | hto <;> rw [hto] at h <;> cases h
    · exact ⟨hctx, d, handles_held hc Store.Sound.empty hth hd, rfl, rfl, rfl⟩

/-- An attempt to give an event back is made by the latest grant, or it is a conflict. -/
theorem release_exclusive {h1 h2 : List (RunStep x)} {st : RunStep x}
    (hsplit : c.history = h1 ++ st :: h2) {t : MessageTransition}
    {r : Except Storage.Err MessageEvent} (hrelease : releaseOf st.entry = some (t, r)) :
    (∀ released, r = .ok released → HeldByLatest h1 st.entry.pre.clock t) ∧
      ∀ err, r = .error err → err = .conflict ∧ st.entry.post = st.entry.pre := by
  obtain ⟨c', k, hc', -, rfl, hpre, hth, hp⟩ := hc.before_step hsplit
  obtain ⟨_, _, _, _, pre, post⟩ := st
  dsimp only at hpre hth hp hrelease ⊢
  subst hpre
  unfold releaseOf at hrelease
  split at hrelease
  · next ctx tr r' pre' post' heq =>
    split_ifs at hrelease with hfromto
    obtain ⟨hfrom, hto⟩ := hfromto
    cases heq
    cases hrelease
    obtain ⟨rfl, _, hheld, htenant, hevent, howner⟩ := release_of_pre hc' hth hfrom hto
    obtain ⟨value, hvalue, -⟩ := hheld.stored
    rcases performs_store.1 hp with ⟨hctx, -⟩ | ⟨_, store, happly, rfl⟩
    · cases hctx
    rw [← htenant, ← hevent] at hvalue
    have houtcome : c'.state.store.MovesMessage c'.state.clock t value ∨ _ :=
      transitionMessage_release hfrom hto ⟨htenant ▸ hheld.tenant_ne,
        hevent ▸ hheld.event_ne, howner ▸ hheld.owner_ne⟩ hvalue
    rcases houtcome with hmoves | hconflict
    · refine ⟨fun released _ => heldByLatest_of_release hc' hfrom hto hmoves, fun err herr => ?_⟩
      simp only [StoreOp.apply, hmoves.eq] at happly
      cases happly
      cases herr
    · simp only [StoreOp.apply, hconflict] at happly
      cases happly
      refine ⟨fun released h => (by cases h), fun err h => ?_⟩
      cases h
      exact ⟨rfl, rfl⟩
  · cases hrelease

end

/-- At most one execution of a message is live, in every interleaving of claims, releases, and
passes of workers. -/
theorem exclusive_of_reachable (hc : Reachable Faithful (Run.start (State.initial clock)) c) :
    Exclusive c := by
  refine ⟨?_, fun h1 st h2 hsplit t r => release_exclusive hc hsplit, ?_⟩
  · intro t1 t2 disp1 disp2 p1 p2 m1 m2 i1 i2 d1 d2 ht hr1 hr2 hmessage
    obtain ⟨input1, hin1, hg1⟩ := reachable_returned hc hr1 d1 rfl
    obtain ⟨input2, hin2, hg2⟩ := reachable_returned hc hr2 d2 rfl
    refine claims_successive hc ht hg1 hg2 ?_
    rw [hin1, hin2] at hmessage
    exact Option.some.inj hmessage
  · intro h1 st h2 hsplit tenantID eventID v hv hclosed g hg running hgr
    have hmem : g ∈ c.history := by rw [hsplit]; simp [hg]
    obtain ⟨t, value, rfl, rfl, hto, hmoves, -, -⟩ :=
      grantOf_spec hgr (reachable_performs hc hmem)
    have hpair := (reachable_evolves hc).2.2
    rw [hsplit, List.pairwise_append, List.pairwise_cons] at hpair
    obtain ⟨v', hv', hevolves⟩ := (hpair.2.1.1 g hg).store.events _ v hv
    rw [hmoves.found] at hv'
    cases hv'
    exact (not_closed_of_grant hmoves hto).2 (hevolves.closed hclosed)

end Runs

/-! ## A concrete run -/

/-- A dispatcher with a runtime store and segments of up to five code points. -/
def sampleDispatcher : Dispatcher where
  runtimeStore := true
  materializer := some ⟨5, by decide⟩

/-- A channel binding of the tenant `t`. -/
def samplePrincipal : Principal :=
  { kind := .channel, tenantID := "t", appID := "app", subjectID := "b",
    target := { bindingID := "b", channel := "c" } }

/-- A direct message. -/
def sampleMessage : InboundMessage :=
  { content := "hi", externalMessageID := "m", externalUserID := "u", conversationKind := .direct,
    externalPeerID := "p", externalChatID := "", externalThreadID := "" }

/-- A claim of the message. -/
def sampleClaim : Call := .claimInbound sampleDispatcher samplePrincipal sampleMessage ⟨"u", "s"⟩

/-- The handle of a grant of the event `e`. -/
def sampleHandle (owner : String) (fencingToken : ℤ) : DurableExecution :=
  { tenantID := "t", eventID := "e", owner := "gateway-" ++ owner, fencingToken := fencingToken
    replyTarget := { bindingID := "b", conversationKind := "direct", receiverID := "p" } }

/-- The end of an execution of the event `e` with a reply. -/
def sampleFinish (owner : String) (fencingToken : ℤ) (requestID reply : String) : Call :=
  .finishDurable sampleDispatcher requestID "" (some (sampleHandle owner fencingToken)) none reply

/-- The first claim of the message, by the call `0`. -/
def firstClaim : List (Action (services plainExternals)) :=
  [.spawn 0 sampleClaim, .perform 0 {}, .perform 0 {}, .perform 0 { uuid := "e" }, .perform 0 {},
    .perform 0 { uuid := "a" }, .perform 0 {}]

/-- The takeover of the event after the end of the lease, by the call `1`. -/
def secondClaim : List (Action (services plainExternals)) :=
  [.move (30000000000 : ℕ), .spawn 1 sampleClaim, .perform 1 {}, .perform 1 { uuid := "f" },
    .perform 1 {}, .perform 1 { uuid := "b" }, .perform 1 {}, .perform 1 {}, .perform 1 {}]

/-- Both executions fail their event: the first one too late, the second one in time. -/
def bothFail : List (Action (services plainExternals)) :=
  firstClaim ++ secondClaim ++ [.spawn 2 (.failDurable (some (sampleHandle "a" 1))), .perform 2 {},
    .spawn 3 (.failDurable (some (sampleHandle "b" 3))), .perform 3 {}]

/-- Two claims of one message succeed one after the other, and the second one is released. -/
theorem exclusive_bothFail : ∃ c : Run plainExternals,
    Reachable Faithful (Run.start (State.initial 1)) c ∧ Granted c (sampleHandle "a" 1) ∧
      Granted c (sampleHandle "b" 3) ∧ (c.state.store.events.lookup (key ["t", "e"])).any
        (fun v => v.status = .failed ∧ v.fencingToken = 4) ∧ Exclusive c := by
  obtain ⟨c, hc, hfirst, hsecond, hfailed⟩ := Config.exists_reachable_of_run Faithful
    (Run.start (State.initial 1)) bothFail
    (fun c => Granted c (sampleHandle "a" 1) ∧ Granted c (sampleHandle "b" 3) ∧
      (c.state.store.events.lookup (key ["t", "e"])).any
        (fun v => v.status = .failed ∧ v.fencingToken = 4)) (by decide +kernel)
  exact ⟨c, hc, hfirst, hsecond, hfailed, exclusive_of_reachable hc⟩

end AgentService.Platform
