import Mathlib.Data.Int.Order.Basic
import Mathlib.Logic.Function.Basic

/-!
# An index of versioned rows

Rows with versions, and an index that is to have every row that qualifies. The index is written
after the rows, by whoever has written the row, and meanwhile others may write the row again.
`Tracked` is what such an index keeps for one key: it has nothing for a row that does not exist,
nothing newer than the row, and where it does not have the present row, someone owes it. `Tracks`
says this of all keys, and its lemmas say what the writes of rows and of the index keep.
-/

namespace AgentService.Vectors

open Function

variable {K V : Type} {version : V → ℤ} {indexed : V → Bool} {row entry : Option V}
  {owes owes' : V → Prop}

/-- The entry is the one that the row asks for. -/
def Settled (indexed : V → Bool) (row entry : Option V) : Prop := entry = row.filter indexed

/-- The entry is the present row or an older one, and if it is not what the row asks for, someone
owes that. -/
structure Tracked (version : V → ℤ) (indexed : V → Bool) (row entry : Option V) (owes : V → Prop) :
    Prop where
  /-- The entry is the present row or an older one. -/
  dated : ∀ v, entry = some v → ∃ r, row = some r ∧ version v ≤ version r ∧
    (version v = version r → indexed r = true ∧ v = r)
  /-- The entry is right, or it is owed. -/
  owed : Settled indexed row entry ∨ ∃ r, row = some r ∧ owes r

/-- An entry that is right. -/
theorem Settled.tracked (h : Settled indexed row entry) : Tracked version indexed row entry owes := by
  refine ⟨fun v hv => ?_, .inl h⟩
  rw [h, Option.filter_eq_some_iff] at hv
  exact ⟨v, hv.1, le_rfl, fun _ => ⟨hv.2, rfl⟩⟩

/-- The debts change. -/
theorem Tracked.mono (h : Tracked version indexed row entry owes)
    (howes : ∀ r, row = some r → owes r → owes' r) : Tracked version indexed row entry owes' := by
  refine ⟨h.dated, h.owed.imp_right ?_⟩
  rintro ⟨r, hr, ho⟩
  exact ⟨r, hr, howes r hr ho⟩

/-- The row is written under a new version, and its writer owes the entry. -/
theorem Tracked.write (h : Tracked version indexed row entry owes) {r : V}
    (hversion : ∀ old, row = some old → version old < version r) (hr : owes' r) :
    Tracked version indexed (some r) entry owes' := by
  refine ⟨fun v hv => ?_, .inr ⟨r, rfl, hr⟩⟩
  obtain ⟨old, hold, _, -⟩ := h.dated v hv
  have hlt := hversion old hold
  exact ⟨r, rfl, by omega, fun _ => by omega⟩

/-- No entry. -/
theorem tracked_none (h : ∀ r, row = some r → indexed r = true → owes r) :
    Tracked version indexed row none owes := by
  refine ⟨fun v hv => (by cases hv), ?_⟩
  cases hrow : row with
  | none => exact .inl rfl
  | some r =>
    by_cases hr : indexed r = true
    · exact .inr ⟨r, rfl, h r hrow hr⟩
    · left
      rw [Settled, Option.filter_some, if_neg hr]

variable {rows index : K → Option V} {owed owed' : K → V → Prop} {keys : K → Prop} {k : K} {r : V}

/-- Every row under one of the keys is indexed, or its entry is owed. -/
def Tracks (keys : K → Prop) (version : V → ℤ) (indexed : V → Bool) (rows index : K → Option V)
    (owed : K → V → Prop) : Prop :=
  ∀ k, keys k → Tracked version indexed (rows k) (index k) (owed k)

/-- Where nothing is owed, the index has all rows. -/
theorem Tracks.settled (h : Tracks keys version indexed rows index owed) (hk : keys k)
    (hnone : ∀ r, rows k = some r → ¬ owed k r) : Settled indexed (rows k) (index k) := by
  rcases (h k hk).owed with hsettled | ⟨r, hr, howed⟩
  · exact hsettled
  · exact absurd howed (hnone r hr)

variable [DecidableEq K] (h : Tracks keys version indexed rows index owed)
  (hother : ∀ k' r', k' ≠ k → owed k' r' → owed' k' r')

include h hother

/-- A row is written under a new version, and its writer owes the entry. -/
theorem Tracks.write (hversion : ∀ old, rows k = some old → version old < version r)
    (hk : owed' k r) :
    Tracks keys version indexed (Function.update rows k (some r)) index owed' := by
  intro k' hkeys
  by_cases heq : k' = k
  · subst heq
    rw [update_self]
    exact (h k' hkeys).write hversion hk
  · rw [update_of_ne heq]
    exact (h k' hkeys).mono fun r' _ => hother k' r' heq

/-- The entry of a key is set. -/
theorem Tracks.set {entry : Option V} (hk : Tracked version indexed (rows k) entry (owed' k)) :
    Tracks keys version indexed rows (Function.update index k entry) owed' := by
  intro k' hkeys
  by_cases heq : k' = k
  · subst heq
    rw [update_self]
    exact hk
  · rw [update_of_ne heq]
    exact (h k' hkeys).mono fun r' _ => hother k' r' heq

/-- A row is removed together with its entry. -/
theorem Tracks.remove : Tracks keys version indexed (Function.update rows k none)
    (Function.update index k none) owed' := by
  intro k' hkeys
  by_cases heq : k' = k
  · subst heq
    rw [update_self, update_self]
    exact tracked_none fun r hr => (by cases hr)
  · rw [update_of_ne heq, update_of_ne heq]
    exact (h k' hkeys).mono fun r' _ => hother k' r' heq

/-- The present row is entered. -/
theorem Tracks.insert (hrow : rows k = some r) (hindexed : indexed r = true) :
    Tracks keys version indexed rows (Function.update index k (some r)) owed' := by
  refine h.set hother (Settled.tracked ?_)
  rw [Settled, hrow, Option.filter_some, if_pos hindexed]

end AgentService.Vectors
