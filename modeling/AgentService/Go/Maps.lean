import Mathlib.Data.List.AList

/-!
# Go maps

A Go `map[K]V` is an association list with distinct keys. This module has the loop that deletes
while it walks: Go visits every entry that is still there exactly once, so the order does not matter
(`lookup_deleteWhere`). Where the order does show, in a slice that a loop collects, `visit` walks
the map in an order that is given to it (`mem_visit`). `foldl_iff` is the rule for a loop whose
rounds each take something away.
-/

namespace AgentService.Go

open Function AList

/-- A Go `map[string]V`. -/
abbrev Map (V : Type) := AList fun _ : String => V

variable {K V : Type} [DecidableEq K]

/-- What holds after a loop, when each round keeps it exactly if its element lets it. -/
theorem foldl_iff {α σ : Type} {round : σ → α → σ} {P : σ → Prop} {Q : α → Prop}
    (hround : ∀ s a, P (round s a) ↔ P s ∧ Q a) (l : List α) (s : σ) :
    P (l.foldl round s) ↔ P s ∧ ∀ a ∈ l, Q a := by
  induction l generalizing s with
  | nil => simp
  | cons a l ih => rw [List.foldl_cons, ih, hround, List.forall_mem_cons, and_assoc]

/-- What `delete` leaves. -/
theorem lookup_erase_eq_some {m : AList fun _ : K => V} {k k' : K} {v : V} :
    (m.erase k).lookup k' = some v ↔ m.lookup k' = some v ∧ k ≠ k' := by
  by_cases hk : k = k'
  · subst hk
    simp
  · simp [lookup_erase_ne (Ne.symm hk), hk]

/-- What a write leaves. -/
theorem lookup_insert_eq_some {m : AList fun _ : K => V} {k k' : K} {v v' : V} :
    (m.insert k v).lookup k' = some v' ↔ (k' = k ∧ v' = v) ∨ (k' ≠ k ∧ m.lookup k' = some v') := by
  by_cases hk : k' = k
  · subst hk
    simp [eq_comm]
  · simp [lookup_insert_ne hk, hk]

/-- What holds of all values holds of them after a write of one of which it holds. -/
theorem forall_lookup_insert {m : AList fun _ : K => V} {P : V → Prop} {k : K} {v : V}
    (h : ∀ k v, m.lookup k = some v → P v) (hv : P v) (k' : K) (v' : V)
    (hv' : (m.insert k v).lookup k' = some v') : P v' := by
  rcases lookup_insert_eq_some.1 hv' with ⟨-, rfl⟩ | ⟨-, hold⟩
  · exact hv
  · exact h k' v' hold

variable (p : K → V → Bool) (m : AList fun _ : K => V) (k : K)

/-- The function that a map with one more value stands for. -/
theorem lookup_insert_fun (v : V) :
    (fun k' => (m.insert k v).lookup k') = Function.update (fun k' => m.lookup k') k (some v) := by
  funext k'
  by_cases hk : k' = k
  · subst hk
    rw [lookup_insert, update_self]
  · rw [lookup_insert_ne hk, update_of_ne hk]

/-- The function that a map without a key stands for. -/
theorem lookup_erase_fun :
    (fun k' => (m.erase k).lookup k') = Function.update (fun k' => m.lookup k') k none := by
  funext k'
  by_cases hk : k' = k
  · subst hk
    rw [lookup_erase, update_self]
  · rw [lookup_erase_ne hk, update_of_ne hk]

/-- `for k, v := range m { if p(k, v) { delete(m, k) } }`. -/
def deleteWhere (p : K → V → Bool) (m : AList fun _ : K => V) :
    AList fun _ : K => V :=
  m.entries.foldl (fun m' entry => if p entry.1 entry.2 then m'.erase entry.1 else m') m

variable (l : List (Sigma fun _ : K => V))

/-- Deleting some entries of a map. -/
theorem lookup_foldl_erase (m : AList fun _ : K => V) (k : K) :
    (l.foldl (fun m' entry => if p entry.1 entry.2 then m'.erase entry.1 else m') m).lookup k =
      if ∃ entry ∈ l, entry.1 = k ∧ p entry.1 entry.2 = true then none else m.lookup k := by
  induction l generalizing m with
  | nil => simp
  | cons entry l ih =>
    rw [List.foldl_cons, ih]
    by_cases hrest : ∃ entry ∈ l, entry.1 = k ∧ p entry.1 entry.2 = true
    · have hall : ∃ e ∈ entry :: l, e.1 = k ∧ p e.1 e.2 = true := by
        obtain ⟨e, he, h⟩ := hrest
        exact ⟨e, List.mem_cons_of_mem _ he, h⟩
      rw [if_pos hrest, if_pos hall]
    · rw [if_neg hrest]
      by_cases hp : p entry.1 entry.2 = true
      · rw [if_pos hp]
        by_cases hk : entry.1 = k
        · subst hk
          rw [lookup_erase, if_pos ⟨entry, List.mem_cons_self, rfl, hp⟩]
        · rw [lookup_erase_ne (Ne.symm hk), if_neg]
          rintro ⟨e, he, hek, hpe⟩
          rcases List.mem_cons.1 he with rfl | he
          · exact hk hek
          · exact hrest ⟨e, he, hek, hpe⟩
      · rw [if_neg hp, if_neg]
        rintro ⟨e, he, hek, hpe⟩
        rcases List.mem_cons.1 he with rfl | he
        · exact hp hpe
        · exact hrest ⟨e, he, hek, hpe⟩

/-- What is left after the loop. -/
theorem lookup_deleteWhere : (deleteWhere p m).lookup k = (m.lookup k).filter fun v => ¬ p k v := by
  rw [deleteWhere, lookup_foldl_erase]
  cases hk : m.lookup k with
  | none =>
    simp
  | some v =>
    have hmem : (⟨k, v⟩ : Sigma fun _ : K => V) ∈ m.entries := mem_lookup_iff.1 hk
    by_cases hp : p k v = true
    · rw [if_pos ⟨_, hmem, rfl, hp⟩]
      simp [Option.filter, hp]
    · rw [if_neg]
      · simp [Option.filter, hp]
      · rintro ⟨⟨k', v'⟩, hmem', rfl, hp'⟩
        have hv' : m.lookup k' = some v' := mem_lookup_iff.2 hmem'
        rw [hk] at hv'
        cases hv'
        exact hp hp'

/-- A write under a new key makes the map one longer. -/
theorem length_insert_of_lookup_eq_none {m : AList fun _ : K => V} {k : K} {v : V}
    (hk : m.lookup k = none) : (m.insert k v).entries.length = m.entries.length + 1 := by
  have hmem : k ∉ m := lookup_eq_none.1 hk
  rw [insert_of_notMem hmem, List.length_cons]

theorem length_erase_le : (m.erase k).entries.length ≤ m.entries.length :=
  (List.kerase_sublist k m.entries).length_le

/-- `delete` of a key that is there makes the map one shorter. -/
theorem length_erase_of_lookup_eq_some {m : AList fun _ : K => V} {k : K} {v : V}
    (hk : m.lookup k = some v) : (m.erase k).entries.length + 1 = m.entries.length := by
  have hmem : k ∈ m := by
    rw [← lookup_isSome, hk]
    rfl
  have hkeys : (m.erase k).keys.length + 1 = m.keys.length := by
    rw [keys_erase]
    exact List.length_erase_add_one hmem
  simpa [keys, List.keys] using hkeys

/-- Deleting some entries of a map makes it no longer. -/
theorem length_foldl_erase_le (m : AList fun _ : K => V) :
    (l.foldl (fun m' entry => if p entry.1 entry.2 then m'.erase entry.1 else m') m).entries.length
      ≤ m.entries.length := by
  induction l generalizing m with
  | nil => exact Nat.le_refl _
  | cons entry l ih =>
    rw [List.foldl_cons]
    refine Nat.le_trans (ih _) ?_
    split_ifs
    · exact length_erase_le m entry.1
    · exact Nat.le_refl _

theorem length_deleteWhere_le : (deleteWhere p m).entries.length ≤ m.entries.length :=
  length_foldl_erase_le p m.entries m

/-- A map whose keys are all keys of another map is no longer. -/
theorem length_le_of_lookup {m m' : AList fun _ : K => V}
    (h : ∀ k v, m.lookup k = some v → ∃ v', m'.lookup k = some v') :
    m.entries.length ≤ m'.entries.length := by
  have hsub : m.keys ⊆ m'.keys := by
    intro k hk
    obtain ⟨v, hv⟩ := Option.isSome_iff_exists.1 (lookup_isSome.2 (mem_keys.2 hk))
    obtain ⟨v', hv'⟩ := h k v hv
    rw [← mem_keys, ← lookup_isSome, hv']
    rfl
  have hlen : m.keys.length ≤ m'.keys.length := (List.subperm_of_subset m.keys_nodup hsub).length_le
  simpa [keys, List.keys] using hlen

/-- The entries of a map in the order in which one `range` visits them. Go leaves the order open: it
is any arrangement `order` of the keys (anything else is ignored). -/
def visit (order : List K) (m : AList fun _ : K => V) : List (Sigma fun _ : K => V) :=
  if order.Perm m.keys then
    order.filterMap fun k => (m.lookup k).map fun v => ⟨k, v⟩
  else
    m.entries

/-- A `range` visits the entries of the map and nothing else. -/
theorem mem_visit {order : List K} {m : AList fun _ : K => V} {k : K} {v : V} :
    (⟨k, v⟩ : Sigma fun _ : K => V) ∈ visit order m ↔ m.lookup k = some v := by
  unfold visit
  split_ifs with horder
  · simp only [List.mem_filterMap, Option.map_eq_some_iff]
    constructor
    · rintro ⟨_, -, _, hk', heq⟩
      cases heq
      exact hk'
    · intro hk
      have hkey : k ∈ m.keys := by
        rw [← mem_keys, ← lookup_isSome, hk]
        rfl
      exact ⟨k, horder.mem_iff.2 hkey, v, hk, rfl⟩
  · exact mem_lookup_iff.symm

end AgentService.Go
