import Mathlib.Data.List.Sort

/-!
# Sorting slices

`sort.Slice` of Go. It sorts by any method, so what is known of the result is that it is in order;
for a total order of the elements that determines it, and insertion is one way to get there. The
services only use the first element (`head_sortSlice`).
-/

namespace AgentService.Go

open List

variable {α β : Type}

/-- `sort.Slice(l, less)`. -/
def sortSlice (less : α → α → Bool) (l : List α) : List α :=
  l.insertionSort fun a b => less b a = false

/-- What is known of a sorted slice: it has the elements in an order that `less` allows. -/
theorem sortSlice_sorted [LinearOrder β] {less : α → α → Bool} {f : α → β}
    (hless : ∀ a b, less a b = true ↔ f a < f b) (l : List α) :
    (sortSlice less l).Perm l ∧ (sortSlice less l).Pairwise fun a b => less b a = false := by
  have hle : ∀ a b, less b a = false ↔ f a ≤ f b := by
    intro a b
    rw [← Bool.not_eq_true, hless, not_lt]
  have htotal : Std.Total fun a b => less b a = false :=
    ⟨fun a b => by simpa only [hle] using le_total (f a) (f b)⟩
  have htrans : IsTrans α fun a b => less b a = false :=
    ⟨fun a b c hab hbc => (hle a c).2 (le_trans ((hle a b).1 hab) ((hle b c).1 hbc))⟩
  exact ⟨perm_insertionSort _ l, pairwise_insertionSort (fun a b => less b a = false) l⟩

/-- The first element after sorting is a least one. -/
theorem head_sortSlice [LinearOrder β] {less : α → α → Bool} {f : α → β}
    (hless : ∀ a b, less a b = true ↔ f a < f b) {l : List α} {a : α}
    (h : (sortSlice less l).head? = some a) : a ∈ l ∧ ∀ b ∈ l, f a ≤ f b := by
  obtain ⟨hperm, hsorted⟩ := sortSlice_sorted hless l
  generalize sortSlice less l = sorted at h hperm hsorted
  cases sorted with
  | nil => cases h
  | cons =>
    cases h
    refine ⟨hperm.mem_iff.1 mem_cons_self, fun b hb => ?_⟩
    rcases mem_cons.1 (hperm.mem_iff.2 hb) with rfl | hb
    · exact le_refl _
    · have hnot := (pairwise_cons.1 hsorted).1 b hb
      rwa [← Bool.not_eq_true, hless, not_lt] at hnot

/-- Orders that agree on the elements sort alike. -/
theorem sortSlice_congr {less less' : α → α → Bool} {l : List α}
    (h : ∀ a ∈ l, ∀ b ∈ l, less a b = less' a b) : sortSlice less l = sortSlice less' l := by
  have hmap := map_insertionSort (fun a b => less b a = false) (fun a b => less' b a = false)
    id l fun a ha b hb => by rw [h b hb a ha]; rfl
  unfold sortSlice
  simpa only [map_id] using hmap

end AgentService.Go
