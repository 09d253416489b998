import AgentService.Gateway.Grants
import AgentService.Outbox.Discipline
import AgentService.Platform.Effects
import AgentService.Platform.System

/-!
# Runs of the platform

Every call keeps its discipline (`body_obeys`): a pass of a worker the one of its log, a call of the
gateway the one of its operations. With it, the rules for runs of programs become rules for runs of
the platform: an invariant is checked against the operations that the calls can really issue
(`Reachable.invariant`), every step of a run was allowed when it was made (`reachable_issued`), and
states only move forward (`reachable_evolves`).
-/

namespace AgentService.Platform

open Storage Concurrent Gateway Reachable

variable {x : Externals}

/-- The requests that a call of the gateway works for. -/
def Call.Requests : Call → String → Prop
  | .finishDurable _ requestID _ _ _ _, r => r = requestID
  | .forward _ e _, r => r = e.requestID
  | _, _ => False

/-- The handles that a call of the gateway works with: its own, or those that it was granted. -/
def Call.Handles : Call → List (Entry x) → Gateway.DurableExecution → Prop
  | .failDurable durable, _, d => d ∈ durable
  | .finishDurable _ _ _ durable _ _, _, d => d ∈ durable
  | .forward _ e _, _, d => d ∈ e.durable
  | .dispatch .., log, d => ∃ input, Gateway.Granting log input d
  | _, _, _ => False

/-- The discipline of a call. -/
def Call.Pre : Call → List (Entry x) → Op → Prop
  | .runOnce w, log, o => Outbox.Issues w log o
  | call, log, o => Gateway.Issues call.Requests (call.Handles log) o

/-- The discipline of a call that is not a pass of a worker. -/
theorem Call.Pre.gateway {call : Call} {log : List (Entry x)} {o : Op} (h : Call.Pre call log o)
    (hcall : ∀ w, call ≠ .runOnce w) : Gateway.Issues call.Requests (call.Handles log) o := by
  cases call with
  | runOnce w => exact absurd rfl (hcall w)
  | _ => exact h

/-- What holds when a call has returned. -/
def Call.Post : Call → List (Entry x) → Result → Prop
  | .runOnce w, log, .processed _ err =>
    ((∀ e, err ≠ some (.audit e)) → Outbox.Settled w log) ∧
      ∀ e, err = some e → Outbox.Explains w log e
  | .claimInbound _ principal message _, log, .claimed r =>
    ∀ durable, r = .ok (some durable) → ∃ input,
      Gateway.messageOf principal message = some (Gateway.inputOf input) ∧
        Gateway.Granting log input durable
  | .failDurable _, _, .finished | .finishDurable .., _, .finished | .forward .., _, .forwarded _ =>
    True
  | .dispatch .., log, .dispatched r =>
    ∀ e events, r = .ok (e, events) → ∀ durable ∈ e.durable,
      ∃ input, Gateway.Granting log input durable
  | _, _, _ => False

/-- Every call keeps its discipline. -/
theorem body_obeys (call : Call) :
    (Call.body (x := x) call).Obeys (Call.Pre call) (Call.Post call) [] := by
  cases call with
  | runOnce w =>
    unfold Call.body
    rw [Program.obeys_bind]
    exact (Outbox.runOnce_obeys w).mono (fun _ _ => id) fun log r h => h
  | claimInbound d principal message identity =>
    unfold Call.body
    rw [Program.obeys_bind]
    exact (((claimInbound_every d principal message identity).obeys []).and
      (claimInbound_obeys d principal message identity [])).mono (fun _ _ h => h.1)
      fun log r h => h.2
  | failDurable durable =>
    unfold Call.body
    rw [Program.obeys_bind]
    exact ((failDurable_every durable fun _ => id).obeys []).mono
      (fun _ _ (h : Gateway.Issues _ (Call.Handles (x := x) (.failDurable durable) []) _) => h)
      fun _ _ _ => trivial
  | finishDurable d requestID traceID durable terminalErr reply =>
    unfold Call.body
    rw [Program.obeys_bind]
    exact ((finishDurable_every (R := fun r => r = requestID) (D := fun d => d ∈ durable)
      d requestID traceID durable terminalErr reply rfl fun _ => id).obeys []).mono
      (fun _ _ => id) fun _ _ _ => trivial
  | forward d e runnerEvents =>
    unfold Call.body
    rw [Program.obeys_bind]
    exact ((forward_every (R := fun r => r = e.requestID) (D := fun d => d ∈ e.durable)
      d e runnerEvents rfl fun _ => id).obeys []).mono (fun _ _ => id) fun _ _ _ => trivial
  | dispatch d principal =>
    unfold Call.body
    rw [Program.obeys_bind]
    exact (dispatch_obeys d principal).mono (fun _ _ => id) fun log r h => h

/-- The batches of a call hold new segments of one execution. -/
theorem Call.Pre.newSegments {call : Call} {log : List (Entry x)} {ctx : Ctx} {o : StoreOp}
    (h : Call.Pre call log (.store ctx o)) {correlation : ReplyCorrelation}
    {values : List ReplyOutbox} (ho : o.Batch x correlation values) :
    ∃ durable, ∀ v ∈ values, Gateway.NewSegment durable v := by
  cases o with
  | enqueueReplies =>
    obtain ⟨-, rfl⟩ := ho
    cases call with
    | runOnce => cases h
    | _ => exact ⟨_, h.2.choose_spec.2⟩
  | enqueueRepliesWithCorrelation =>
    obtain ⟨-, rfl, -⟩ := ho
    cases call with
    | runOnce => cases h
    | _ => exact ⟨_, h.2.choose_spec.2⟩
  | _ => exact ho.elim

section Runs

variable {adm : Run x → Call → Prop} {s₀ : State} {c : Run x}

section

variable (hc : Reachable adm (Run.start s₀) c)

include hc

/-- A call that is about to perform an operation issues it under its discipline. -/
theorem reachable_pre {t : ℕ} {call : Call} {o : Op} {k : o.Res → Code x Result}
    (hth : c.threads t = some ⟨call, .call o k⟩) : Call.Pre call (log c.history t) o :=
  ((lawful (fun _ call _ => body_obeys call) hc).threads t _ hth).1

/-- Each step of a run was issued under the discipline of its call, and performed. -/
theorem reachable_issued {h1 h2 : List (RunStep x)} {st : RunStep x}
    (hsplit : c.history = h1 ++ st :: h2) : Call.Pre st.call (log h1 st.tid) st.entry.op ∧
      (platform x).Performs st.entry.op st.entry.pre st.entry.res st.entry.post := by
  obtain ⟨_, k, hc', -, rfl, -, hth, hp⟩ := hc.before_step hsplit
  exact ⟨reachable_pre hc' hth, hp⟩

/-- Each step of a run was performed. -/
theorem reachable_performs {st : RunStep x} (hst : st ∈ c.history) :
    (platform x).Performs st.entry.op st.entry.pre st.entry.res st.entry.post :=
  hc.performs hst

/-- The states of a run are ordered. -/
theorem reachable_evolves : s₀.Evolves c.state ∧ (∀ a ∈ c.history, s₀.Evolves a.entry.pre ∧
      a.entry.pre.Evolves a.entry.post ∧ a.entry.post.Evolves c.state) ∧
      c.history.Pairwise fun a b => a.entry.post.Evolves b.entry.pre :=
  ordered (R := State.Evolves) State.Evolves.refl (fun _ _ _ => State.Evolves.trans)
    performs_evolves advance_evolves hc

/-- The operations of a call were performed. -/
theorem reachable_performs_log {t : ℕ} {entry : Entry x} (hentry : entry ∈ log c.history t) :
    (platform x).Performs entry.op entry.pre entry.res entry.post := by
  obtain ⟨_, hst, -, rfl⟩ := mem_log.1 hentry
  exact reachable_performs hc hst

/-- The states around the operations of a call are ordered. -/
theorem reachable_evolves_log (t : ℕ) :
    (log c.history t).Pairwise fun a b => a.post.Evolves b.pre :=
  pairwise_log (R := fun a b : Entry x => a.post.Evolves b.pre) (reachable_evolves hc).2.2 t

end

variable {I : Store → Prop}

/-- A property of the store that every change by an operation of a call keeps stays, once it
holds. -/
theorem reachable_store_from
    (hstep : ∀ (c : Run x) t call prog ctx o store, Reachable adm (Run.start s₀) c →
      c.threads t = some ⟨call, prog⟩ → Call.Pre call (log c.history t) (.store ctx o) →
      Change x c.state.clock c.state.store o store → I c.state.store → I store)
    {c' : Run x} (hc' : Reachable adm (Run.start s₀) c') (hc : Reachable adm c' c)
    (h : I c'.state.store) : I c.state.store := by
  refine invariant_from (I := fun (s : State) _ => I s.store) ?_ (fun _ _ _ h => h) hc' hc h
  intro c t call o k r _ hc hth hp hI
  cases o with
  | store ctx o =>
    obtain ⟨store, rfl, hchange⟩ := performs_store_change hp
    exact hstep c t call _ ctx o store hc hth (reachable_pre hc hth) hchange hI
  | _ =>
    rw [(performs_other (by simp) hp).1]
    exact hI

/-- A property of the store that every change by an operation of a call keeps holds throughout a
run. -/
theorem reachable_store (h0 : I s₀.store)
    (hstep : ∀ (c : Run x) t call prog ctx o store, Reachable adm (Run.start s₀) c →
      c.threads t = some ⟨call, prog⟩ → Call.Pre call (log c.history t) (.store ctx o) →
      Change x c.state.clock c.state.store o store → I c.state.store → I store)
    (hc : Reachable adm (Run.start s₀) c) : I c.state.store :=
  reachable_store_from hstep .refl hc h0

/-- The store stays well formed. -/
theorem reachable_sound (hs : s₀.store.Sound) (hc : Reachable adm (Run.start s₀) c) :
    c.state.store.Sound :=
  reachable_store (I := Store.Sound) hs
    (fun _ _ _ _ _ _ _ _ _ hpre hchange h => hchange.sound h fun _ _ ho v hv => by
      obtain ⟨_, hnew⟩ := hpre.newSegments ho
      exact ⟨(hnew v hv).attempts, (hnew v hv).fencingToken⟩) hc

/-- The state after an operation of a call is the state of a run. -/
theorem reachable_post_log (hc : Reachable adm (Run.start s₀) c) {t : ℕ} {entry : Entry x}
    (hentry : entry ∈ log c.history t) :
    ∃ c' : Run x, Reachable adm (Run.start s₀) c' ∧ c'.state = entry.post := by
  obtain ⟨_, hst, -, rfl⟩ := mem_log.1 hentry
  obtain ⟨_, _, hsplit⟩ := List.append_of_mem hst
  obtain ⟨c', k, hc', -, -, hpre, hth, hp⟩ := hc.before_step hsplit
  rw [← hpre] at hp
  exact ⟨_, hc'.tail (.perform hth hp), rfl⟩

/-- The store was well formed around each step. -/
theorem reachable_sound_step (hs : s₀.store.Sound) (hc : Reachable adm (Run.start s₀) c)
    {st : RunStep x} (hst : st ∈ c.history) :
    st.entry.pre.store.Sound ∧ st.entry.post.store.Sound := by
  obtain ⟨_, _, hsplit⟩ := List.append_of_mem hst
  obtain ⟨_, k, hc', -, -, hpre, hth, hp⟩ := hc.before_step hsplit
  rw [← hpre] at hp ⊢
  exact ⟨reachable_sound hs hc', reachable_sound hs (hc'.tail (.perform hth hp))⟩

/-- A call that has returned satisfies its postcondition. -/
theorem reachable_returned (hc : Reachable adm (Run.start s₀) c) {t : ℕ} {call : Call}
    {r : Result} (hr : c.Returned t call r) : Call.Post call (log c.history t) r :=
  (lawful (fun _ call _ => body_obeys call) hc).returned hr

end Runs

end AgentService.Platform
