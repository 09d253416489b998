import Mathlib.Data.List.Basic
import Mathlib.Data.List.Induction

/-!
# Components that answer calls one at a time

A component under a lock, or a database whose statements are atomic: its states, its calls, and what
it answers. A run is a list of calls; `history` is what was answered, with the states around each
call. `invariant` is the rule for what holds in every state, `history_invariant` the one for what
relates a state to the calls before it. Two components are compared by giving the same calls to both
(`both`): `agree_of_simulates` is the rule for a relation between their states.
-/

namespace AgentService.Concurrent

open List

/-- A component that answers calls one at a time. -/
structure Server (Call : Type) where
  /-- The states. -/
  State : Type
  /-- What a call is answered with. -/
  Res : Call → Type
  /-- The answer to a call, and the state after it. -/
  answer : (call : Call) → State → Res call × State

namespace Server

variable {Call : Type} {S : Server Call}

/-- One answered call. -/
structure Step (S : Server Call) where
  call : Call
  /-- Its answer. -/
  res : S.Res call
  /-- The state before it. -/
  pre : S.State
  /-- The state after it. -/
  post : S.State

/-- The answer to a call in a state. -/
def stepOf (S : Server Call) (s : S.State) (call : Call) : Step S :=
  ⟨call, (S.answer call s).1, s, (S.answer call s).2⟩

/-- A step, from the answer of its call. -/
theorem stepOf_eq {s s' : S.State} {call : Call} {r : S.Res call}
    (h : S.answer call s = (r, s')) : S.stepOf s call = ⟨call, r, s, s'⟩ := by
  rw [stepOf, h]

/-- The state after some calls. -/
def after (S : Server Call) (s : S.State) (calls : List Call) : S.State :=
  calls.foldl (fun s call => (S.answer call s).2) s

/-- What some calls are answered. -/
def history (S : Server Call) : S.State → List Call → List (Step S)
  | _, [] => []
  | s, call :: calls => S.stepOf s call :: S.history (S.answer call s).2 calls

variable (s : S.State) (calls calls' : List Call)

theorem after_append :
    S.after s (calls ++ calls') = S.after (S.after s calls) calls' := foldl_append

/-- The history of calls in two parts. -/
theorem history_append :
    S.history s (calls ++ calls') = S.history s calls ++ S.history (S.after s calls) calls' := by
  induction calls generalizing s with
  | nil => rfl
  | cons _ _ ih =>
    simp only [cons_append, history, ih]
    rfl

variable (calls : List Call)

theorem history_snoc (call : Call) :
    S.history s (calls ++ [call]) = S.history s calls ++ [S.stepOf (S.after s calls) call] :=
  history_append s calls [call]

theorem after_snoc (call : Call) :
    S.after s (calls ++ [call]) = (S.answer call (S.after s calls)).2 :=
  after_append s calls [call]

/-- A step of a history was taken after the calls before it. -/
theorem exists_of_mem_history {s : S.State} {calls : List Call} {st : Step S}
    (h : st ∈ S.history s calls) : ∃ before later, calls = before ++ st.call :: later ∧
      st = S.stepOf (S.after s before) st.call := by
  induction calls generalizing s with
  | nil => cases h
  | cons call calls ih =>
    rcases mem_cons.1 h with rfl | h
    · exact ⟨[], calls, rfl, rfl⟩
    · obtain ⟨before, later, rfl, hst⟩ := ih h
      exact ⟨call :: before, later, rfl, hst⟩

/-- The calls of a history are the calls that were made. -/
theorem call_mem_of_mem_history {s : S.State} {calls : List Call} {st : Step S}
    (h : st ∈ S.history s calls) : st.call ∈ calls := by
  obtain ⟨_, _, hcalls, -⟩ := exists_of_mem_history h
  rw [hcalls]
  exact mem_append_right _ mem_cons_self

section Invariants

variable (adm : S.State → Call → Prop) {s₀ : S.State} {calls : List Call}

variable {J : List (Step S) → S.State → Prop}

/-- What holds at the start and is kept by every call together with the calls so far holds of every
history. -/
theorem history_always (h0 : J [] s₀)
    (hstep : ∀ l s call, J l s → J (l ++ [S.stepOf s call]) (S.answer call s).2)
    (calls : List Call) : J (S.history s₀ calls) (S.after s₀ calls) := by
  induction calls using reverseRecOn with
  | nil => exact h0
  | append_singleton _ _ ih =>
    rw [history_snoc, after_snoc]
    exact hstep _ _ _ ih

/-- What holds at the start and is kept by every admissible call together with the calls so far
holds of every history. -/
theorem history_invariant (h0 : J [] s₀)
    (hstep : ∀ l s call, adm s call → J l s → J (l ++ [S.stepOf s call]) (S.answer call s).2)
    (hadm : ∀ st ∈ S.history s₀ calls, adm st.pre st.call) :
    J (S.history s₀ calls) (S.after s₀ calls) := by
  refine history_always (J := fun l s => (∀ st ∈ l, adm st.pre st.call) → J l s)
    (fun _ => h0) (fun l s call ih hl => ?_) calls hadm
  refine hstep l s call (hl _ mem_concat_self) ?_
  exact ih fun st hst => hl st (mem_append_left _ hst)

/-- What holds at the start and is kept by every admissible call holds in every state. -/
theorem invariant {I : S.State → Prop} (h0 : I s₀)
    (hstep : ∀ s call, adm s call → I s → I (S.answer call s).2)
    (hadm : ∀ st ∈ S.history s₀ calls, adm st.pre st.call) : I (S.after s₀ calls) :=
  history_invariant adm (J := fun _ s => I s) h0 (fun _ s call => hstep s call) hadm

end Invariants

/-! ## Two components -/

/-- Two components that are given the same calls. -/
def both (S T : Server Call) : Server Call where
  State := S.State × T.State
  Res call := S.Res call × T.Res call
  answer call s :=
    (((S.answer call s.1).1, (T.answer call s.2).1), ((S.answer call s.1).2, (T.answer call s.2).2))

variable {T : Server Call}

/-- Where a relation between the states is kept by the admissible calls and makes their answers
agree, all answers agree. -/
theorem agree_of_simulates (adm : S.State × T.State → Call → Prop)
    (agree : (call : Call) → S.Res call → T.Res call → Prop) {R : S.State → T.State → Prop}
    (hstep : ∀ s t call, adm (s, t) call → R s t →
      agree call (S.answer call s).1 (T.answer call t).1 ∧
        R (S.answer call s).2 (T.answer call t).2)
    {s₀ : S.State} {t0 : T.State} (h0 : R s₀ t0) {calls : List Call}
    (hadm : ∀ st ∈ (S.both T).history (s₀, t0) calls, adm st.pre st.call) :
    ∀ st ∈ (S.both T).history (s₀, t0) calls, agree st.call st.res.1 st.res.2 := by
  have hall := history_invariant (S := S.both T) adm
    (J := fun l s => (∀ st ∈ l, agree st.call st.res.1 st.res.2) ∧ R s.1 s.2)
    ⟨by simp, h0⟩ (fun l s call hcall hl => ?_) hadm
  · exact hall.1
  · obtain ⟨hagree, hR⟩ := hstep s.1 s.2 call hcall hl.2
    refine ⟨fun st hst => ?_, hR⟩
    rcases mem_append.1 hst with hst | hst
    · exact hl.1 st hst
    · rw [mem_singleton.1 hst]
      exact hagree

end Server

end AgentService.Concurrent
