import AgentService.Platform.Discipline

/-!
# Executions and their handles

A handle of a durable execution is what a `claimInbound` or a `Dispatch` of the run has returned,
and the functions that give an event back are called with such handles (`Faithful`). A granted
handle names a stored event and its destination (`Held`), and this stays so (`Handles.held`).
-/

namespace AgentService.Platform

open Storage Concurrent Gateway

variable {x : Externals}

/-- The platform before anything is stored. -/
def State.initial (clock : ℤ) : State := { clock := clock, store := {} }

/-- The handle that a call has returned. -/
def handleOf : Option (Thread (services x)) → Option DurableExecution
  | some ⟨_, .ret (.claimed (.ok durable))⟩ => durable
  | some ⟨_, .ret (.dispatched (.ok (e, _)))⟩ => e.durable
  | _ => none

/-- A call of the run has returned the handle. -/
def Granted (c : Run x) (durable : DurableExecution) : Prop :=
  ∃ st ∈ c.history, handleOf (c.threads st.tid) = some durable

instance (c : Run x) (durable : DurableExecution) : Decidable (Granted c durable) :=
  inferInstanceAs (Decidable (∃ st ∈ c.history, _))

/-- Events are given back with handles that were granted, for requests that have an identifier. -/
def Faithful (c : Run x) : Call → Prop
  | .failDurable durable => ∀ d ∈ durable, Granted c d
  | .finishDurable _ requestID _ durable _ _ => requestID ≠ "" ∧ ∀ d ∈ durable, Granted c d
  | .forward _ e _ => e.requestID ≠ "" ∧ ∀ d ∈ e.durable, Granted c d
  | _ => True

instance : (c : Run x) → (call : Call) → Decidable (Faithful c call)
  | c, .failDurable durable => inferInstanceAs (Decidable (∀ d ∈ durable, Granted c d))
  | c, .finishDurable _ requestID _ durable _ _ =>
    inferInstanceAs (Decidable (requestID ≠ "" ∧ ∀ d ∈ durable, Granted c d))
  | c, .forward _ e _ =>
    inferInstanceAs (Decidable (e.requestID ≠ "" ∧ ∀ d ∈ e.durable, Granted c d))
  | _, .runOnce _ | _, .claimInbound .. | _, .dispatch .. => isTrue trivial

/-- What a granted handle says about the store. -/
structure Held (s : Store) (durable : DurableExecution) : Prop where
  tenant_ne : durable.tenantID ≠ ""
  event_ne : durable.eventID ≠ ""
  owner_ne : durable.owner ≠ ""
  /-- The destination is valid. -/
  target_valid : validateReplyTarget durable.replyTarget = none
  /-- The event is stored, with the same destination. -/
  stored : ∃ v, s.events.lookup (key [durable.tenantID, durable.eventID]) = some v ∧
    v.replyTarget = durable.replyTarget

/-- A handle stays good. -/
theorem Held.evolves {s s' : Store} {durable : DurableExecution} (h : Held s durable)
    (hs : s.Evolves s') : Held s' durable := by
  refine ⟨h.tenant_ne, h.event_ne, h.owner_ne, h.target_valid, ?_⟩
  obtain ⟨v, hv, htarget⟩ := h.stored
  obtain ⟨v', hv', hevolves⟩ := hs.events _ v hv
  exact ⟨v', hv', hevolves.replyTarget.trans htarget⟩

/-- A recorded message leads to the event of the answer. -/
theorem recordMessage_stored {s s' : State} (hs : s.store.Sound) {ctx : Ctx}
    {input : MessageEventInput} {event : MessageEvent} {duplicate : Bool}
    (h : (platform x).Performs (.store ctx (.recordMessage input)) s
      (.ok (event, duplicate) : Except Storage.Err (MessageEvent × Bool)) s') :
    event.tenantID = input.tenantID ∧
      s'.store.events.lookup (key [input.tenantID, event.eventID]) = some event ∧
      s'.store.messages.lookup (key [input.tenantID, input.bindingID, input.externalMessageID]) =
        some (key [input.tenantID, event.eventID]) := by
  rcases performs_recordMessage h with ⟨-, _, herr⟩ | ⟨rfl, k, hk, hr⟩ | ⟨_, seq, _, hr, rfl⟩
  · cases herr
  · obtain ⟨v, hv, hu⟩ := hs.messages _ k hk
    obtain ⟨rfl, rfl⟩ : event = v ∧ duplicate = true := by
      simpa [hv] using hr
    obtain ⟨htenant, -, -⟩ : input.tenantID = event.tenantID ∧ _ ∧ _ := by simpa using hu
    have hkey := (hs.events k event hv).key
    rw [← htenant] at hkey
    subst hkey
    exact ⟨htenant.symm, hv, hk⟩
  · obtain ⟨rfl, rfl⟩ : event = Store.newEvent s.clock input seq ∧ duplicate = false := by
      simpa using hr
    exact ⟨rfl, AList.lookup_insert _, AList.lookup_insert _⟩

section Runs

variable {adm : Run x → Call → Prop} {s₀ : State} {c : Run x}

/-- The states of two configurations of a run are ordered. -/
theorem reachable_later {c' : Run x} (h : Reachable adm c' c) : c'.state.Evolves c.state :=
  Reachable.related (R := State.Evolves) State.Evolves.refl (fun _ _ _ => State.Evolves.trans)
    performs_evolves advance_evolves h

/-- The steps of a call that was granted an event: the record of the message and, later, the
grant. -/
structure GrantSteps (history : List (RunStep x)) (t : ℕ) (input : MessageEventInput)
    (durable : DurableExecution) (event running : MessageEvent) (record grant : RunStep x) :
    Prop where
  /-- The record comes before the grant. -/
  order : ∃ h₁ h₂ h₃, history = h₁ ++ record :: (h₂ ++ grant :: h₃)
  /-- The record is the call's. -/
  record_tid : record.tid = t
  /-- The grant is the call's. -/
  grant_tid : grant.tid = t
  /-- The record was answered with the event. -/
  record_entry : ∃ duplicate, record.entry =
    recordEntry input event duplicate record.entry.pre record.entry.post
  /-- The grant was answered with the running event. -/
  grant_entry : ∃ status, grant.entry =
    grantEntry durable status running grant.entry.pre grant.entry.post
  tenantID : durable.tenantID = input.tenantID
  eventID : durable.eventID = event.eventID
  replyTarget : durable.replyTarget = event.replyTarget
  fencingToken : durable.fencingToken = running.fencingToken

/-- The log of a granted call as steps of the history. -/
theorem granting_steps {history : List (RunStep x)} {t : ℕ} {input : MessageEventInput}
    {durable : DurableExecution} (h : Granting (log history t) input durable) :
    ∃ event running record grant,
      GrantSteps history t input durable event running record grant := by
  obtain ⟨event, duplicate, status, running, _, _, _, _, _, _, _, hlog, htenant,
    hevent, htarget, htoken⟩ := h
  obtain ⟨h1, record, _, rfl, hrtid, hrentry, -, hl2⟩ := exists_of_log_eq hlog
  obtain ⟨h3, grant, h4, rfl, hgtid, hgentry, -, -⟩ := exists_of_log_eq hl2
  refine ⟨event, running, record, grant, ⟨h1, h3, h4, rfl⟩, hrtid, hgtid, ⟨duplicate, ?_⟩,
    ⟨status, ?_⟩, htenant, hevent, htarget, htoken⟩
  · rw [hrentry]
    rfl
  · rw [hgentry]
    rfl

section GrantSteps

variable {t : ℕ} {input : MessageEventInput} {durable : DurableExecution}
  {event running : MessageEvent} {record grant : RunStep x}

section

variable (h : GrantSteps c.history t input durable event running record grant)
  (hc : Reachable adm (Run.start s₀) c)

include h hc

/-- After the record the message leads to the event of the handle, which is stored. -/
theorem GrantSteps.recorded (hs : s₀.store.Sound) :
    record.entry.post.store.events.lookup (key [durable.tenantID, durable.eventID]) = some event ∧
      record.entry.post.store.messages.lookup
        (key [input.tenantID, input.bindingID, input.externalMessageID]) =
          some (key [durable.tenantID, durable.eventID]) := by
  obtain ⟨_, _, _, hsplit⟩ := h.order
  obtain ⟨_, hentry⟩ := h.record_entry
  obtain ⟨-, hperf⟩ := reachable_issued hc hsplit
  rw [hentry] at hperf
  obtain ⟨-, hevent, hmessage⟩ := recordMessage_stored
    (reachable_sound_step hs hc (by rw [hsplit]; simp)).1 hperf
  rw [h.tenantID, h.eventID]
  exact ⟨hevent, hmessage⟩

/-- The grant moved the event of the handle to `running`. -/
theorem GrantSteps.granted :
    ∃ status value, grant.entry.pre.store.MovesMessage grant.entry.pre.clock
        (grantTransition durable status) value ∧
      running = Store.applyMessageTransition grant.entry.pre.clock value
        (grantTransition durable status) ∧
      grant.entry.post.store.events.lookup (key [durable.tenantID, durable.eventID]) =
        some running := by
  obtain ⟨h1, h2, h3, hsplit⟩ := h.order
  obtain ⟨status, hentry⟩ := h.grant_entry
  have hsplit' : c.history = (h1 ++ record :: h2) ++ grant :: h3 := by rw [hsplit]; simp
  obtain ⟨-, hperf⟩ := reachable_issued hc hsplit'
  rw [hentry] at hperf
  rcases performs_transitionMessage hperf with ⟨-, _, herr⟩ | ⟨value, hmoves, hr, hpost⟩
  · cases herr
  · have hrunning : running = Store.applyMessageTransition grant.entry.pre.clock value
        (grantTransition durable status) := Except.ok.inj hr
    refine ⟨status, value, hmoves, hrunning, ?_⟩
    rw [show grant.entry.post = _ from hpost, hrunning]
    exact AList.lookup_insert _

/-- The handle of a grant is good from then on. -/
theorem GrantSteps.held (hs : s₀.store.Sound) : Held c.state.store durable := by
  obtain ⟨hevent, -⟩ := h.recorded hc hs
  obtain ⟨_, _, hmoves, -, -⟩ := h.granted hc
  obtain ⟨_, _, _, hsplit⟩ := h.order
  have hmem : record ∈ c.history := by rw [hsplit]; simp
  have hevolves := ((reachable_evolves hc).2.1 record hmem).2.2.store
  obtain ⟨v, hv, hv'⟩ := hevolves.events _ event hevent
  have hsound := (reachable_sound_step hs hc hmem).2.events _ event hevent
  exact ⟨hmoves.tenant_ne, hmoves.event_ne, hmoves.owner_ne,
    by rw [h.replyTarget]; exact hsound.replyTarget, v, hv, by rw [hv'.replyTarget, h.replyTarget]⟩

end

end GrantSteps

/-- A call that has returned a handle was granted it. -/
theorem granting_of_handleOf (hc : Reachable adm (Run.start s₀) c) {t : ℕ}
    {durable : DurableExecution} (h : handleOf (c.threads t) = some durable) :
    ∃ input, Granting (log c.history t) input durable := by
  unfold handleOf at h
  split at h
  · next call r hth =>
    have hpost := reachable_returned hc hth
    cases call with
    | claimInbound =>
      obtain ⟨input, -, hinput⟩ := hpost durable (by rw [h])
      exact ⟨input, hinput⟩
    | _ => exact hpost.elim
  · next call e events hth =>
    have hpost := reachable_returned hc hth
    cases call with
    | dispatch => exact hpost e events rfl durable h
    | _ => exact hpost.elim
  · cases h

/-- A returned handle was granted in the call that returned it. -/
theorem Granted.granting (hc : Reachable adm (Run.start s₀) c) {durable : DurableExecution}
    (h : Granted c durable) : ∃ t input, Granting (log c.history t) input durable := by
  obtain ⟨st, -, hst⟩ := h
  obtain ⟨input, hinput⟩ := granting_of_handleOf hc hst
  exact ⟨st.tid, input, hinput⟩

/-- The log of a granted call makes its handle good. -/
theorem granting_held (hc : Reachable adm (Run.start s₀) c) (hs : s₀.store.Sound) {t : ℕ}
    {input : MessageEventInput} {durable : DurableExecution}
    (h : Granting (log c.history t) input durable) : Held c.state.store durable := by
  obtain ⟨_, _, _, _, hsteps⟩ := granting_steps h
  exact hsteps.held hc hs

/-- The handles of a started call are good. -/
theorem handles_held (hc : Reachable Faithful (Run.start s₀) c) (hs : s₀.store.Sound) {t : ℕ}
    {call : Call} {prog : Code x Result} (hth : c.threads t = some ⟨call, prog⟩)
    {durable : DurableExecution} (h : call.Handles (log c.history t) durable) :
    Held c.state.store durable := by
  obtain ⟨c', hc', hlater, hadm⟩ := hc.admitted hth
  have hgranted : Granted c' durable → Held c.state.store durable := fun hg => by
    obtain ⟨_, input, hinput⟩ := hg.granting hc'
    exact (granting_held hc' hs hinput).evolves (reachable_later hlater).store
  cases call with
  | failDurable => exact hgranted (hadm durable h)
  | finishDurable =>
    exact hgranted (hadm.2 durable h)
  | forward => exact hgranted (hadm.2 durable h)
  | dispatch =>
    obtain ⟨input, hinput⟩ := h
    exact granting_held hc hs hinput
  | _ => exact h.elim

end Runs

end AgentService.Platform
