import Mathlib.Algebra.BigOperators.Group.Finset.Piecewise
import Mathlib.Algebra.Order.BigOperators.Group.Finset
import AgentService.Concurrent.Pool

/-!
# Counting steps

The number of steps of a run that pass a test is the sum of the numbers over the logs of its calls.
What each call keeps in its own log, for instance that every `p` comes right after a `q`, therefore
bounds the numbers of the whole run (`occurrences_le_of_preceded`).
-/

namespace AgentService.Concurrent

open List

variable {M : Machine} {P : Pool M} {α : Type}

/-- The number of steps of a history whose entry passes a test. -/
def occurrences (p : M.Entry → Bool) (history : List (Step P)) : ℕ :=
  history.countP fun st => p st.entry

variable (p : M.Entry → Bool)

@[simp] theorem occurrences_snoc (history : List (Step P)) (st : Step P) :
    occurrences p (history ++ [st]) = occurrences p history + if p st.entry then 1 else 0 := by
  simp [occurrences, countP_append, countP_singleton]

/-- The steps that pass a test, call by call. -/
theorem occurrences_eq_sum (history : List (Step P)) {T : Finset ℕ}
    (hT : ∀ st ∈ history, st.tid ∈ T) :
    occurrences p history = ∑ t ∈ T, (log history t).countP p := by
  induction history using reverseRecOn with
  | nil => simp [occurrences, log]
  | append_singleton history st ih =>
    have hst : st.tid ∈ T := hT st (by simp)
    have hlog : ∀ t, (log (history ++ [st]) t).countP p =
        (log history t).countP p + if t = st.tid then (if p st.entry then 1 else 0) else 0 := by
      intro t
      by_cases ht : t = st.tid
      · subst ht
        rw [log_snoc_self, countP_append, countP_singleton, if_pos rfl]
      · rw [log_snoc_ne _ _ fun h => ht h.symm, if_neg ht, Nat.add_zero]
    rw [occurrences_snoc, ih fun s hs => hT s (mem_append_left _ hs)]
    simp only [hlog, Finset.sum_add_distrib, Finset.sum_ite_eq', hst, if_true]

/-- In a list in which every `p` comes right after a `q` and something else, there are no more `p`
than `q`. -/
theorem countP_le_of_preceded {p q : α → Bool} {l : List α}
    (h : ∀ l1 a l2, l = l1 ++ a :: l2 → p a = true →
      ∃ l0 b d, l1 = l0 ++ [b, d] ∧ q b = true ∧ p b = false ∧ p d = false) :
    l.countP p ≤ l.countP q := by
  -- By induction on the length: a final `p` is dropped together with the two entries before it.
  induction hn : l.length using Nat.strong_induction_on generalizing l with
  | _ n ih =>
    rcases eq_nil_or_concat l with rfl | ⟨l1, a, rfl⟩
    · simp
    · rw [concat_eq_append] at h hn ⊢
      cases ha : p a with
      | false =>
        have hle := ih l1.length (by simp [← hn]) (l := l1) (fun l1' a' l2 hl => by
          subst hl
          exact h l1' a' (l2 ++ [a]) (by simp)) rfl
        simp only [countP_append, countP_singleton, ha]
        simp only [Bool.false_eq_true, if_false]
        omega
      | true =>
        obtain ⟨l0, b, d, rfl, hb, hpb, hpd⟩ := h l1 a [] rfl ha
        have hle := ih l0.length (by simp [← hn]) (l := l0) (fun l1' a' l2 hl => by
          subst hl
          exact h l1' a' (l2 ++ [b, d] ++ [a]) (by simp)) rfl
        simp only [countP_append, countP_cons, countP_nil, ha, hb, hpb, hpd]
        simp only [Bool.false_eq_true, if_false, if_true]
        omega

/-- When in every log each `p` comes right after a `q` and something else, a run has no more `p`
than `q`. -/
theorem occurrences_le_of_preceded {p q : M.Entry → Bool} {history : List (Step P)}
    (h : ∀ t l1 a l2, log history t = l1 ++ a :: l2 → p a = true →
      ∃ l0 b d, l1 = l0 ++ [b, d] ∧ q b = true ∧ p b = false ∧ p d = false) :
    occurrences p history ≤ occurrences q history := by
  have hT : ∀ st ∈ history, st.tid ∈ (history.map Step.tid).toFinset := fun st hst => by
    rw [mem_toFinset]
    exact mem_map_of_mem hst
  rw [occurrences_eq_sum p history hT, occurrences_eq_sum q history hT]
  exact Finset.sum_le_sum fun t _ => countP_le_of_preceded (h t)

end AgentService.Concurrent
