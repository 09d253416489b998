import AgentService.Go.Maps
import Mathlib.Data.List.Induction
import Mathlib.Data.List.Perm.Basic

/-!
# The latest write under a key

Writes of values to a map, each under its own key. What a sequence of writes leaves under a key is
the last one of them with this key, and otherwise what was there before (`lookup_foldl_insert`). The
order of the writes matters for writes with one key only: where the keys are distinct, every order
leaves the same (`latestBy_perm`).
-/

namespace AgentService.Go

open List

variable {K V : Type} [DecidableEq K] {key : V → K} {l l' : List V} {k : K} {v : V}

/-- The last value of a list with a key. -/
def latestBy (key : V → K) (l : List V) (k : K) : Option V :=
  (l.filter fun v => key v = k).getLast?

/-- Of two lists, the second one decides. -/
theorem latestBy_append (key : V → K) (l l' : List V) (k : K) :
    latestBy key (l ++ l') k = (latestBy key l' k).or (latestBy key l k) := by
  rw [latestBy, filter_append, getLast?_append]
  rfl

/-- The last value decides if it has the key. -/
theorem latestBy_snoc (key : V → K) (l : List V) (v : V) (k : K) :
    latestBy key (l ++ [v]) k = if key v = k then some v else latestBy key l k := by
  rw [latestBy_append]
  by_cases hk : key v = k
  · simp [latestBy, hk]
  · simp [latestBy, hk]

/-- The latest value with a key is in the list and has the key. -/
theorem mem_of_latestBy (h : latestBy key l k = some v) : v ∈ l ∧ key v = k := by
  have hmem := mem_of_getLast? h
  simpa using mem_filter.1 hmem

/-- A key of the list has a latest value. -/
theorem exists_latestBy (hv : v ∈ l) (hk : key v = k) : ∃ w, latestBy key l k = some w := by
  have hne : l.filter (fun v => decide (key v = k)) ≠ [] :=
    ne_nil_of_mem (mem_filter.2 ⟨hv, by simpa using hk⟩)
  exact ⟨_, getLast?_eq_getLast_of_ne_nil hne⟩

/-- The latest value is one that no value with the key follows. -/
theorem latestBy_eq_some_iff : latestBy key l k = some v ↔
    key v = k ∧ ∃ l1 l2, l = l1 ++ v :: l2 ∧ ∀ w ∈ l2, key w ≠ k := by
  constructor
  · intro h
    refine ⟨(mem_of_latestBy h).2, ?_⟩
    induction l using reverseRecOn with
    | nil => cases h
    | append_singleton l w ih =>
      rw [latestBy_snoc] at h
      split_ifs at h with hw
      · cases h
        exact ⟨l, [], rfl, fun w hw => absurd hw not_mem_nil⟩
      · obtain ⟨l1, l2, rfl, hl2⟩ := ih h
        refine ⟨l1, l2 ++ [w], by simp, fun w' hw' => ?_⟩
        rcases mem_append.1 hw' with hw' | hw'
        · exact hl2 w' hw'
        · rwa [mem_singleton.1 hw']
  · rintro ⟨hk, l1, l2, rfl, hl2⟩
    have hnone : latestBy key l2 k = none := by
      cases hlatest : latestBy key l2 k with
      | none => rfl
      | some w => exact absurd (mem_of_latestBy hlatest).2 (hl2 w (mem_of_latestBy hlatest).1)
    rw [show l1 ++ v :: l2 = l1 ++ [v] ++ l2 by simp, latestBy_append, hnone, Option.none_or,
      latestBy_snoc, if_pos hk]

/-- Where the keys are distinct, a value of the list is the latest one with its key. -/
theorem latestBy_eq_some_of_nodup (hl : (l.map key).Nodup) :
    latestBy key l k = some v ↔ v ∈ l ∧ key v = k := by
  refine ⟨mem_of_latestBy, fun ⟨hv, hk⟩ => latestBy_eq_some_iff.2 ⟨hk, ?_⟩⟩
  obtain ⟨l1, l2, rfl⟩ := append_of_mem hv
  refine ⟨l1, l2, rfl, fun w hw heq => ?_⟩
  rw [map_append, map_cons, nodup_append, nodup_cons] at hl
  rw [← hk] at heq
  exact hl.2.1.1 (heq ▸ mem_map_of_mem hw)

/-- Where the keys are distinct, the order of the values does not matter. -/
theorem latestBy_perm (hl : (l.map key).Nodup) (h : l.Perm l') (k : K) :
    latestBy key l k = latestBy key l' k := by
  have hl' : (l'.map key).Nodup := ((h.map key).nodup_iff).1 hl
  refine Option.ext fun v => ?_
  rw [latestBy_eq_some_of_nodup hl, latestBy_eq_some_of_nodup hl', h.mem_iff]

/-- What a loop of writes leaves under a key. -/
theorem lookup_foldl_insert (key : V → K) (l : List V) (m : AList fun _ : K => V) (k : K) :
    (l.foldl (fun m v => m.insert (key v) v) m).lookup k = (latestBy key l k).or (m.lookup k) := by
  induction l using reverseRecOn with
  | nil => rfl
  | append_singleton l v ih =>
    rw [foldl_append, foldl_cons, foldl_nil, latestBy_snoc]
    by_cases hk : key v = k
    · rw [if_pos hk, ← hk, AList.lookup_insert, Option.some_or]
    · rw [if_neg hk, AList.lookup_insert_ne (Ne.symm hk), ih]

end AgentService.Go
