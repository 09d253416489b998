import AgentService.Runners.Lifetime

/-!
# The slots of a registry

A key has at most one slot of a registry, an entry or a pending build, and there are no more slots
than `maxEntries` (`Slots`). A build that is finished gives its slot to its entry, and evictions and
invalidations only give slots back.
-/

namespace AgentService.Runners

open Concurrent Registry

variable {K : Type} [DecidableEq K] {r r' : Registry K} {toClose : List ℕ}

/-- What evictions leave in the map. -/
theorem Evicts.lookup (h : Evicts r toClose r') {key : K} {e : ℕ}
    (hkey : r'.entries.lookup key = some e) : r.entries.lookup key = some e := by
  induction h with
  | nothing => exact hkey
  | more _ _ _ _ ih => exact (lookup_retire.1 (ih hkey)).1

/-- Evictions make the map no longer. -/
theorem Evicts.length_le (h : Evicts r toClose r') :
    r'.entries.entries.length ≤ r.entries.entries.length := by
  induction h with
  | nothing => exact Nat.le_refl _
  | more _ _ _ _ ih => exact Nat.le_trans ih (Go.length_deleteWhere_le _ _)

namespace Registry

/-- The slots of a registry. -/
structure Slots (r : Registry K) : Prop where
  /-- A key has no more than one. -/
  exclusive : ∀ key e, r.entries.lookup key = some e → r.pending.lookup key = none
  /-- There are not too many. -/
  capacity : r.slotCountLocked ≤ r.maxEntries

variable {r r' : Registry K}

/-- What only takes entries out of the map keeps to the slots. -/
theorem Slots.sub (h : r.Slots)
    (hlookup : ∀ key e, r'.entries.lookup key = some e → r.entries.lookup key = some e)
    (hlength : r'.entries.entries.length ≤ r.entries.entries.length)
    (hpending : r'.pending = r.pending) (hmax : r'.maxEntries = r.maxEntries) : r'.Slots := by
  refine ⟨fun key e hkey => ?_, ?_⟩
  · rw [hpending]
    exact h.exclusive key e (hlookup key e hkey)
  · have hcapacity := h.capacity
    unfold slotCountLocked at hcapacity ⊢
    rw [hpending, hmax]
    omega

theorem Slots.congr (h : r.Slots) (hentries : r'.entries = r.entries)
    (hpending : r'.pending = r.pending) (hmax : r'.maxEntries = r.maxEntries) : r'.Slots :=
  h.sub (fun _ _ hkey => hentries ▸ hkey) (hentries ▸ Nat.le_refl _) hpending hmax

theorem Slots.retire {r : Registry K} (h : r.Slots) (gone : K → ℕ → Bool) : (r.retire gone).Slots :=
  h.sub (fun _ _ hkey => (lookup_retire.1 hkey).1) (Go.length_deleteWhere_le _ _) rfl rfl

/-- A build gives its slot back. -/
theorem Slots.abandon {r : Registry K} (h : r.Slots) (key : K) (b : ℕ) :
    (r.abandon key b).Slots := by
  refine ⟨fun key' e he => ?_, ?_⟩
  · have hold := h.exclusive key' e he
    change (r.pending.erase key).lookup key' = none
    rw [Option.eq_none_iff_forall_ne_some]
    intro _ hb'
    rw [(Go.lookup_erase_eq_some.1 hb').1] at hold
    cases hold
  · have hcapacity := h.capacity
    have hlength := Go.length_erase_le r.pending key
    unfold slotCountLocked at hcapacity ⊢
    change r.entries.entries.length + (r.pending.erase key).entries.length ≤ r.maxEntries
    omega

end Registry

/-- A step of a call keeps to the slots. -/
theorem Act.slots {phase phase' : Phase K} (hact : Act r phase phase' r') (h : r.Slots)
    {doomed : ℕ → Prop} (hsound : r.Sound doomed)
    (htoken : ∀ key b, phase.token = some (key, b) → r.pending.lookup key = some b) :
    r'.Slots ∧ r'.maxEntries = r.maxEntries := by
  cases hact with
  | closes =>
    rw [closeEntry_rest]
    exact ⟨h.congr rfl rfl rfl, rfl⟩
  | evicted hevicts =>
    have hsame := SameBut.of_evicts hevicts
    have hmax : r'.maxEntries = r.maxEntries := by rw [hsame.rest]
    exact ⟨h.sub (fun _ _ => hevicts.lookup) hevicts.length_le (by rw [hsame.rest]) hmax, hmax⟩
  | @registered r1 key _ hevicts hentry hpending hroom =>
    have hsame := SameBut.of_evicts hevicts
    have hmax : r1.maxEntries = r.maxEntries := by rw [hsame.rest]
    have hpending' : r1.pending = r.pending := by rw [hsame.rest]
    -- there is no entry, for an entry of the map is not invalidated
    have hnone : ∀ e, r.entries.lookup key ≠ some e := by
      intro e he
      have hinvalid := hentry e he
      rw [(hsound.stored key e he).2] at hinvalid
      cases hinvalid
    refine ⟨⟨fun key' e he => ?_, ?_⟩, hmax⟩
    · have hold := hevicts.lookup he
      have hne : key' ≠ key := by
        rintro rfl
        exact hnone e hold
      change (r1.pending.insert key r1.buildCount).lookup key' = none
      rw [AList.lookup_insert_ne hne, hpending']
      exact h.exclusive key' e hold
    · have hlength := Go.length_insert_of_lookup_eq_none (v := r1.buildCount)
        (hpending' ▸ hpending)
      unfold slotCountLocked at hroom ⊢
      change r1.entries.entries.length + (r1.pending.insert key r1.buildCount).entries.length ≤
        r1.maxEntries
      omega
  | @published key b _ _ hclosed hbuild =>
    have hpending := htoken key b rfl
    have hnone : r.entries.lookup key = none := by
      rw [Option.eq_none_iff_forall_ne_some]
      intro e he
      rw [h.exclusive key e he] at hpending
      cases hpending
    refine ⟨⟨fun key' e he => ?_, ?_⟩, rfl⟩
    · change (r.pending.erase key).lookup key' = none
      rcases Go.lookup_insert_eq_some.1 he with ⟨rfl, -⟩ | ⟨hne, he⟩
      · exact AList.lookup_erase _ _
      · rw [AList.lookup_erase_ne hne]
        exact h.exclusive key' e he
    · have hinsert := Go.length_insert_of_lookup_eq_none (v := r.entryCount) hnone
      have herase := Go.length_erase_of_lookup_eq_some hpending
      have hcapacity := h.capacity
      unfold slotCountLocked at hcapacity ⊢
      change (r.entries.insert key r.entryCount).entries.length +
        (r.pending.erase key).entries.length ≤ r.maxEntries
      omega
  | @rejected key b err err' => exact ⟨(h.abandon key b).congr rfl rfl rfl, rfl⟩
  | abandoned => exact ⟨h.abandon _ _, rfl⟩
  | flagged => exact ⟨h.congr rfl rfl rfl, rfl⟩
  | invalidated which =>
    have hflag : (r.flag which).Slots := h.congr rfl rfl rfl
    exact ⟨hflag.retire _, rfl⟩
  | closeStarted =>
    have hflag : (flag { r with closeStarted := true, closed := true }
      fun _ => true).Slots := h.congr rfl rfl rfl
    exact ⟨hflag.retire _, rfl⟩
  | released =>
    rw [releaseEntry_rest]
    exact ⟨h.congr rfl rfl rfl, rfl⟩
  | stays | stored | retained | made | closeFinished => exact ⟨h.congr rfl rfl rfl, rfl⟩

/-- Every event keeps to the slots. -/
theorem System.Safe.slots_next {s : System K} (hsafe : s.Safe) (h : s.registry.Slots)
    {maxEntries : ℕ} (hmax : s.registry.maxEntries = maxEntries) (event : Event K) :
    (s.next event).registry.Slots ∧ (s.next event).registry.maxEntries = maxEntries := by
  cases event with
  | call =>
    rw [registry_next_call]
    exact ⟨h, hmax⟩
  | step i choice =>
    have hact := s.registry.next_spec choice (s.phase i)
    obtain ⟨h', hmax'⟩ := hact.slots h hsafe.sound
      fun key b hb => (hsafe.building.token i key b hb).1
    exact ⟨h', hmax'.trans hmax⟩

/-- In every state of every run, the slots are as they should be. -/
theorem slots_after (maxEntries : ℕ) (idleTTL : ℤ) (events : List (Event K)) :
    ((registry K).after (initial K maxEntries idleTTL) events).registry.Slots ∧
      ((registry K).after (initial K maxEntries idleTTL) events).registry.maxEntries =
        maxEntries := by
  have hall : ((registry K).after (initial K maxEntries idleTTL) events).Safe ∧
      ((registry K).after (initial K maxEntries idleTTL) events).registry.Slots ∧
      ((registry K).after (initial K maxEntries idleTTL) events).registry.maxEntries = maxEntries :=
    Server.invariant (S := registry K) (fun _ _ => True)
      (I := fun s => s.Safe ∧ s.registry.Slots ∧ s.registry.maxEntries = maxEntries)
      ⟨System.safe_initial maxEntries idleTTL, ⟨fun _ _ h => absurd h nofun, Nat.zero_le _⟩, rfl⟩
      (fun s event _ h => ⟨h.1.next event, h.1.slots_next h.2.1 h.2.2 event⟩) (fun _ _ => trivial)
  exact hall.2

end AgentService.Runners
