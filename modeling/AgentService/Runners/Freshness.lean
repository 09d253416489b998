import AgentService.Runners.Capacity

/-!
# Capacity, single flight, and invalidation

`registry_discipline` collects what callers rely on: a registry has no more slots than `maxEntries`,
the factory is not called twice at a time for one key, a key does not have an entry and a build, and
after `Invalidate` or `InvalidateMatching` has returned without an error, a call of `Acquire` that
starts later gets a runner whose factory call had not begun when the invalidation took the mutex.

For the last one, builds are counted. An invalidation with `n` builds before it leaves an entry or a
pending build for the key only if it is a later one or is marked (`Renewed`). A marked build does
not get an entry, so this stays so, and what is lent from then on is from a later build (`Fresh`).
-/

namespace AgentService.Runners

open Concurrent Function Registry.SameBuilds Registry.SameBut

variable {K : Type} [DecidableEq K]

/-! ## Single flight -/

/-- Two factory calls in progress are for different keys. -/
theorem System.Building.single {s : System K} (h : s.Building) {i j : ℕ} {key : K} {b b' : ℕ}
    (hi : s.phase i = .building key b) (hj : s.phase j = .building key b') : i = j := by
  have htoken : (s.phase i).token = some (key, b) := by rw [hi]; rfl
  have htoken' : (s.phase j).token = some (key, b') := by rw [hj]; rfl
  have hb := (h.token i key b htoken).1
  rw [(h.token j key b' htoken').1] at hb
  cases hb
  exact h.token_inj i j key key b htoken htoken'

/-! ## After an invalidation -/

namespace Registry

/-- What a key still has of the first `n` builds is marked as invalidated. -/
structure Renewed (r : Registry K) (key : K) (n : ℕ) : Prop where
  /-- There have been that many. -/
  count : n ≤ r.buildCount
  /-- Its entry is from a later one. -/
  stored : ∀ e, r.entries.lookup key = some e → n ≤ (r.entry e).runner
  /-- Its pending build is a later one, or marked. -/
  pending : ∀ b, r.pending.lookup key = some b → n ≤ b ∨ (r.build b).invalidated = true

namespace Renewed

variable {r r' : Registry K} {key : K} {n : ℕ}

section

variable (h : r.Renewed key n)

include h

/-- What makes no builds and puts nothing into the map. -/
theorem congr (hsame : r.SameBuilds r')
    (hstored : ∀ e, r'.entries.lookup key = some e → r.entries.lookup key = some e)
    (hmarked : ∀ b, (r.build b).invalidated = true → (r'.build b).invalidated = true) :
    r'.Renewed key n := by
  refine ⟨hsame.buildCount ▸ h.count, fun e he => ?_, fun b hb => ?_⟩
  · rw [hsame.runner]
    exact h.stored e (hstored e he)
  · rw [hsame.pending] at hb
    exact (h.pending b hb).imp id (hmarked b)

/-- Marks stay. -/
theorem flag (which : K → Bool) : (r.flag which).Renewed key n := by
  refine h.congr ⟨rfl, fun _ => rfl, rfl, rfl, fun _ => rfl⟩ (fun _ he => he) fun b hb => ?_
  unfold Registry.flag
  dsimp only
  split_ifs
  · rfl
  · exact hb

/-- Entries are taken out of the map. -/
theorem retire (gone : K → ℕ → Bool) : (r.retire gone).Renewed key n :=
  h.congr ⟨rfl, fun _ => rfl, rfl, rfl, fun e => (r.retire_entry gone e).2.2.2.1⟩
    (fun _ he => (lookup_retire.1 he).1) fun _ hb => hb

/-- A new build is a later one. -/
theorem register (hlt : ∀ key b, r.pending.lookup key = some b → b < r.buildCount) (key' : K) :
    (r.register key').Renewed key n := by
  refine ⟨Nat.le_succ_of_le h.count, h.stored, fun b hb => ?_⟩
  rcases Go.lookup_insert_eq_some.1 hb with ⟨-, rfl⟩ | ⟨-, hb⟩
  · exact .inl h.count
  · have hne : b ≠ r.buildCount := Nat.ne_of_lt (hlt key b hb)
    refine (h.pending b hb).imp id fun hmarked => ?_
    simpa [Registry.register, hne] using hmarked

/-- A build is finished, and has no entry. -/
theorem abandon (key' : K) (b : ℕ) : (r.abandon key' b).Renewed key n :=
  ⟨h.count, h.stored, fun b' hb' => h.pending b' (Go.lookup_erase_eq_some.1 hb').1⟩

/-- A build that is not marked gets an entry. -/
theorem publish {key' : K} {b : ℕ} (hpending : r.pending.lookup key' = some b)
    (hbuild : (r.build b).invalidated = false)
    (hstored : ∀ key e, r.entries.lookup key = some e → e < r.entryCount) (now : ℤ) :
    (r.publish now key' b).Renewed key n := by
  refine ⟨h.count, fun e he => ?_, fun b' hb' => h.pending b' (Go.lookup_erase_eq_some.1 hb').1⟩
  change n ≤ (Function.update r.entry r.entryCount
    { runner := b, refs := 1, lastUsed := now, zero := some 0 } e).runner
  rcases Go.lookup_insert_eq_some.1 he with ⟨rfl, rfl⟩ | ⟨-, he⟩
  · rw [update_self]
    refine (h.pending b hpending).resolve_right fun hmarked => ?_
    exact absurd (hbuild.symm.trans hmarked) nofun
  · rw [update_of_ne (Nat.ne_of_lt (hstored key e he))]
    exact h.stored e he

end

end Renewed

end Registry

variable {r r' : Registry K}

/-- A step of a call keeps a key renewed. -/
theorem Act.renewed {phase phase' : Phase K} (hact : Act r phase phase' r') {key : K} {n : ℕ}
    (h : r.Renewed key n) {doomed : ℕ → Prop} (hsound : r.Sound doomed)
    (hlt : ∀ key b, r.pending.lookup key = some b → b < r.buildCount)
    (htoken : ∀ key b, phase.token = some (key, b) → r.pending.lookup key = some b) :
    r'.Renewed key n := by
  cases hact with
  | closes closeErr e =>
    refine h.congr (.closeEntry closeErr e) (fun _ he' => ?_) fun b hb => ?_
    · rw [Registry.closeEntry_rest] at he'
      exact he'
    · rw [Registry.closeEntry_build]
      exact hb
  | retained => exact h.congr (.retain _ _) (fun _ he => he) fun _ hb => hb
  | evicted hevicts =>
    refine h.congr (.evicts hevicts) (fun _ he => hevicts.lookup he) fun b hb => ?_
    rw [(of_evicts hevicts).rest]
    exact hb
  | @registered r1 key' toClose hevicts hentry hpending hroom =>
    have hsame := evicts hevicts
    have hevicted : r1.Renewed key n := by
      refine h.congr hsame (fun _ he => hevicts.lookup he) fun b hb => ?_
      rw [(of_evicts hevicts).rest]
      exact hb
    refine hevicted.register (fun key b hb => ?_) key'
    rw [hsame.pending] at hb
    rw [hsame.buildCount]
    exact hlt key b hb
  | @made key' b err returned =>
    refine ⟨h.count, h.stored, fun b' hb' => (h.pending b' hb').imp id fun hmarked => ?_⟩
    by_cases hbb' : b' = b
    · subst hbb'
      simpa using hmarked
    · simpa [hbb'] using hmarked
  | published now _ hbuild =>
    exact h.publish (htoken _ _ rfl) hbuild (fun key e he => (hsound.stored key e he).1) now
  | @rejected key' b err err' =>
    refine ⟨h.count, fun e he => ?_, (h.abandon key' b).pending⟩
    have hne : e ≠ r.entryCount := Nat.ne_of_lt (hsound.stored key e he).1
    change n ≤ (Function.update r.entry r.entryCount { runner := b } e).runner
    rw [update_of_ne hne]
    exact h.stored e he
  | abandoned => exact h.abandon _ _
  | flagged => exact h.flag _
  | invalidated which =>
    exact (h.flag which).retire _
  | closeStarted =>
    have hclosed : Registry.Renewed { r with closeStarted := true, closed := true } key n :=
      { h with }
    exact (hclosed.flag _).retire _
  | @released l now honce =>
    refine h.congr (.release now l) (fun e he => ?_) fun b hb => ?_
    · rw [Registry.releaseEntry_rest] at he
      exact he
    · rw [Registry.releaseEntry_rest]
      exact hb
  | stays | stored | closeFinished => exact { h with }

/-- A lease stays one of its entry and an entry one of its runner, and a new lease is one of the
entry in the map. -/
theorem Act.leased {phase phase' : Phase K} (hact : Act r phase phase' r') :
    (∀ l < r.leaseCount, (r'.lease l).entry = (r.lease l).entry) ∧
      (∀ e < r.entryCount, (r'.entry e).runner = (r.entry e).runner) ∧
      ∀ key l, phase'.lease = some (key, l) → phase.lease = some (key, l) ∨
        l < r'.leaseCount ∧ r'.entries.lookup key = some (r'.lease l).entry := by
  have hlend : ∀ {r : Registry K} (e l : ℕ), l < r.leaseCount →
      ((r.lend e).lease l).entry = (r.lease l).entry := fun e l hl =>
    congrArg Lease.entry (update_of_ne (Nat.ne_of_lt hl) _ _)
  have hnew : ∀ (r : Registry K) (e : ℕ), ((r.lend e).lease r.leaseCount).entry = e := by
    intro r e
    simp [Registry.lend]
  have hallocate : ∀ {r : Registry K} (entry : Entry) (e : ℕ), e < r.entryCount →
      ((r.allocate entry).entry e).runner = (r.entry e).runner := fun entry e he =>
    congrArg Entry.runner (update_of_ne (Nat.ne_of_lt he) _ _)
  have hnone : ∀ key l, (none : Option (K × ℕ)) = some (key, l) → phase.lease = some (key, l) ∨
      l < r'.leaseCount ∧ r'.entries.lookup key = some (r'.lease l).entry := fun key l hl =>
    absurd hl.symm (Option.some_ne_none _)
  cases hact with
  | stays hkeeps =>
    exact ⟨fun _ _ => rfl, fun _ _ => rfl, fun key l hl => .inl (hkeeps.lease ▸ hl)⟩
  | closes closeErr e hkeeps =>
    refine ⟨fun l _ => ?_, fun e' _ => (closeEntry closeErr e).runner e',
      fun key l hl => .inl (hkeeps.lease ▸ hl)⟩
    rw [Registry.closeEntry_rest]
  | @retained _ e now _ hentry =>
    refine ⟨fun l hl => hlend e l hl, fun e' _ => (retain now e).runner e', fun key' l hl => ?_⟩
    cases hl
    refine .inr ⟨Nat.lt_succ_self _, hentry.trans (congrArg some ?_)⟩
    exact (hnew (r.retainLocked now e) e).symm
  | evicted hevicts =>
    refine ⟨fun l _ => ?_, fun e _ => (evicts hevicts).runner e, hnone⟩
    rw [(of_evicts hevicts).rest]
  | @registered r1 key toClose hevicts hentry hpending hroom =>
    refine ⟨fun l _ => ?_, fun e _ => (evicts hevicts).runner e, hnone⟩
    change (r1.lease l).entry = _
    rw [(of_evicts hevicts).rest]
  | @published key b err now hclosed hbuild =>
    refine ⟨fun l hl => ?_, fun e he => hallocate _ e he, fun key' l hl => ?_⟩
    · exact congrArg Lease.entry (update_of_ne (Nat.ne_of_lt hl) _ _)
    · cases hl
      refine .inr ⟨Nat.lt_succ_self _, (AList.lookup_insert _).trans (congrArg some ?_)⟩
      simp [Registry.publish, Registry.lend, Registry.closeChan, Registry.allocate]
  | rejected => exact ⟨fun _ _ => rfl, fun e he => hallocate _ e he, hnone⟩
  | abandoned _ hquiet =>
    refine ⟨fun _ _ => rfl, fun _ _ => rfl, fun key l hl => ?_⟩
    rw [hquiet.lease] at hl
    cases hl
  | invalidated _ _ _ _ _ hlease =>
    refine ⟨fun _ _ => rfl, fun e _ => (Registry.retire_entry _ _ e).2.2.2.1, fun key l hl => ?_⟩
    rw [hlease] at hl
    cases hl
  | closeStarted =>
    exact ⟨fun _ _ => rfl, fun e _ => (Registry.retire_entry _ _ e).2.2.2.1, hnone⟩
  | @released l now honce =>
    refine ⟨fun l' _ => ?_, fun e _ => (release now l).runner e, fun key l' hl' => ?_⟩
    · rw [Registry.releaseEntry_rest]
      by_cases hll' : l' = l
      · subst hll'
        simp [Registry.takeOnce]
      · simp [Registry.takeOnce, hll']
    · rw [(Registry.releaseEntry_phase ..).2.2.1] at hl'
      cases hl'
  | stored | made | flagged | closeFinished => exact ⟨fun _ _ => rfl, fun _ _ => rfl, hnone⟩

namespace System

variable {s : System K} {key : K} {n c : ℕ}

/-- What calls from number `c` on have got for a key is from later builds than the first `n`. -/
structure Fresh (s : System K) (key : K) (n c : ℕ) : Prop where
  renewed : s.registry.Renewed key n
  leased : ∀ j, c ≤ j → ∀ l, (s.phase j).lease = some (key, l) →
    l < s.registry.leaseCount ∧ n ≤ (s.registry.entry (s.registry.lease l).entry).runner

/-- Every event keeps a key renewed. -/
theorem Safe.renewed_next (hsafe : s.Safe) (h : s.registry.Renewed key n) (event : Event K) :
    (s.next event).registry.Renewed key n := by
  cases event with
  | call =>
    rw [registry_next_call]
    exact h
  | step i choice =>
    exact (s.registry.next_spec choice (s.phase i)).renewed h hsafe.sound hsafe.building.pending_lt
      fun key b hb => (hsafe.building.token i key b hb).1

/-- Every event keeps later calls fresh. -/
theorem Safe.fresh_next (hsafe : s.Safe) (h : s.Fresh key n c) (event : Event K) :
    (s.next event).Fresh key n c := by
  have hrenewed := hsafe.renewed_next h.renewed event
  refine ⟨hrenewed, fun j hj l hl => ?_⟩
  cases event with
  | call op =>
    rw [registry_next_call]
    refine h.leased j hj l ?_
    rw [System.next] at hl
    split_ifs at hl
    · change (Function.update s.phase s.callCount op.start j).lease = some (key, l) at hl
      by_cases hjc : j = s.callCount
      · rw [hjc, update_self] at hl
        exact absurd hl op.start_lease
      · rwa [update_of_ne hjc] at hl
    · exact hl
  | step i choice =>
    have hact := s.registry.next_spec choice (s.phase i)
    obtain ⟨hlease, hrunner, hnew⟩ := hact.leased
    have hcount := hact.releases_lease.2.1
    have hold : ∀ {j}, c ≤ j → (s.phase j).lease = some (key, l) →
        l < (s.next (.step i choice)).registry.leaseCount ∧
          n ≤ ((s.next (.step i choice)).registry.entry
            ((s.next (.step i choice)).registry.lease l).entry).runner := by
      intro j hj hl
      obtain ⟨hlt, hle⟩ := h.leased j hj l hl
      refine ⟨Nat.lt_of_lt_of_le hlt hcount, ?_⟩
      have hentry := hlease l hlt
      have hrunner' := hrunner _ (hsafe.sound.lent l hlt)
      change n ≤ ((s.registry.next choice (s.phase i)).2.entry
        ((s.registry.next choice (s.phase i)).2.lease l).entry).runner
      rw [hentry, hrunner']
      exact hle
    have hphase := s.phase_goes i (s.registry.next choice (s.phase i)).1
      (s.registry.next choice (s.phase i)).2 j
    rw [System.next, hphase] at hl
    split_ifs at hl with hji
    · rcases hnew key l hl with hl | ⟨hlt, hentry⟩
      · exact hold (hji ▸ hj) hl
      · exact ⟨hlt, hrenewed.stored _ hentry⟩
    · exact hold hj hl

end System

/-! ## The invalidation -/

/-- Whether a call is going to invalidate a key when it takes the mutex. -/
def Phase.invalidates (key : K) : Phase K → Bool
  | .invalidating key' => key = key'
  | .matching predicate => predicate key
  | _ => false

namespace Registry

variable {r : Registry K}

/-- The builds that an invalidation marks. -/
theorem flag_invalidated {which : K → Bool} {key : K} {b : ℕ} (hkey : which key = true)
    (hb : r.pending.lookup key = some b) : ((r.flag which).build b).invalidated = true := by
  have hany : (r.pending.entries.any fun waiting => waiting.2 = b && which waiting.1) = true := by
    rw [List.any_eq_true]
    exact ⟨⟨key, b⟩, AList.mem_lookup_iff.1 hb, by simp [hkey]⟩
  unfold flag
  dsimp only
  rw [if_pos hany]

/-- After an invalidation of a key, it has nothing left that is not marked. -/
theorem renewed_of_flag {which : K → Bool} {key : K} (hkey : which key = true)
    (hnone : ∀ e, r.entries.lookup key ≠ some e) : (r.flag which).Renewed key r.buildCount :=
  ⟨Nat.le_refl _, fun e he => absurd he (hnone e), fun _ hb => .inr (flag_invalidated hkey hb)⟩

/-- After an invalidation that takes entries out of the map, neither. -/
theorem renewed_of_retire {which : K → Bool} {key : K} (hkey : which key = true) :
    ((r.flag which).retire fun key _ => which key).Renewed key r.buildCount := by
  refine ⟨Nat.le_refl _, fun e he => ?_, fun _ hb => .inr (flag_invalidated hkey hb)⟩
  exact absurd (hkey.symm.trans (lookup_retire.1 he).2) nofun

/-- An invalidation renews the key, or the registry is closed and the call returns `ErrClosed`. -/
theorem invalidates_spec (r : Registry K) (choice : Choice K) {phase : Phase K} {key : K}
    (h : phase.invalidates key = true) : (r.next choice phase).1 = .returned (some .closed) ∨
      (r.next choice phase).2.Renewed key r.buildCount := by
  cases phase with
  | invalidating key' =>
    have hkey : key = key' := of_decide_eq_true h
    subst hkey
    have hnext : r.next choice (.invalidating key) = r.invalidate key := rfl
    rw [hnext, invalidate]
    split_ifs with hclosed
    · exact .inl rfl
    have hflag : (r.flag fun waiting => decide (waiting = key)).entries = r.entries := rfl
    have hself : decide (key = key) = true := decide_eq_true rfl
    cases hentry : r.entries.lookup key with
    | none =>
      simp only [hflag, hentry]
      refine .inr (renewed_of_flag hself fun e he => ?_)
      rw [hentry] at he
      cases he
    | some =>
      simp only [hflag, hentry]
      exact .inr (renewed_of_retire hself)
  | matching predicate =>
    have hnext : r.next choice (.matching predicate) = r.invalidateMatching choice predicate := rfl
    rw [hnext, invalidateMatching]
    split_ifs with hclosed
    · exact .inl rfl
    · exact .inr (renewed_of_retire h)
  | _ => cases h

end Registry

namespace System

variable {s : System K} {i : ℕ}

/-- A call that has returned stays so. -/
theorem returned_next {err : Option Err} (hi : i < s.callCount) (h : s.phase i = .returned err)
    (event : Event K) : i < (s.next event).callCount ∧ (s.next event).phase i = .returned err := by
  cases event with
  | call =>
    rw [System.next]
    split_ifs
    · exact ⟨Nat.lt_succ_of_lt hi, (update_of_ne (Nat.ne_of_lt hi) _ _).trans h⟩
    · exact ⟨hi, h⟩
  | step =>
    refine ⟨hi, ?_⟩
    rw [System.next, phase_goes]
    split_ifs with hij
    · subst hij
      rw [h]
      rfl
    · exact h

/-- The factory call of a build has begun: there is such a build, and the call that has started it
is not still closing what it has evicted. -/
def Began (s : System K) (b : ℕ) : Prop :=
  b < s.registry.buildCount ∧ ∀ i key toClose, s.phase i ≠ .evicting key toClose (some b)

end System

/-! ## All together -/

/-- What holds after the events of a run. -/
structure Disciplined (maxEntries : ℕ) (idleTTL : ℤ) (events : List (Event K)) : Prop where
  /-- There are no more entries and pending builds than `maxEntries`. -/
  capacity : ((registry K).after (initial K maxEntries idleTTL) events).registry.slotCountLocked ≤
    maxEntries
  /-- No two factory calls for one key are in progress. -/
  single : ∀ i j key b b',
    ((registry K).after (initial K maxEntries idleTTL) events).phase i = .building key b →
    ((registry K).after (initial K maxEntries idleTTL) events).phase j = .building key b' → i = j
  /-- No key is both in `entries` and in `pending`. -/
  exclusive : ∀ key e,
    ((registry K).after (initial K maxEntries idleTTL) events).registry.entries.lookup key =
      some e →
    ((registry K).after (initial K maxEntries idleTTL) events).registry.pending.lookup key = none
  /-- When `Invalidate` or `InvalidateMatching` has taken the mutex after `before`, and has returned
  `nil` before `later`, a call of `Acquire` that has started in `later` does not get a runner whose
  factory call had begun in `before`. -/
  fresh : ∀ before i choice between later key,
    events = before ++ .step i choice :: between ++ later →
    (((registry K).after (initial K maxEntries idleTTL) before).phase i).invalidates key = true →
    ((registry K).after (initial K maxEntries idleTTL)
      (before ++ .step i choice :: between)).phase i = .returned none →
    ∀ j l, ((registry K).after (initial K maxEntries idleTTL)
        (before ++ .step i choice :: between)).callCount ≤ j →
      ((registry K).after (initial K maxEntries idleTTL) events).phase j = .leased key l →
      ¬ ((registry K).after (initial K maxEntries idleTTL) before).Began
        (((registry K).after (initial K maxEntries idleTTL) events).registry.entry
          (((registry K).after (initial K maxEntries idleTTL) events).registry.lease l).entry).runner

/-- A call of `Acquire` that starts after an invalidation gets a later build. -/
theorem fresh_of_invalidated {s : System K} (hsafe : s.Safe) {i : ℕ} {key : K}
    (hkey : (s.phase i).invalidates key = true) (choice : Choice K) (between later : List (Event K))
    (hreturned : ((registry K).after s (.step i choice :: between)).phase i = .returned none) :
    ((registry K).after s (.step i choice :: between ++ later)).Fresh key s.registry.buildCount
      ((registry K).after s (.step i choice :: between)).callCount := by
  have hi : i < s.callCount := by
    by_contra hi
    rw [hsafe.idle i (Nat.le_of_not_lt hi)] at hkey
    cases hkey
  rw [Server.after_append]
  have hafter : (registry K).after s (.step i choice :: between) =
      (registry K).after (s.next (.step i choice)) between := rfl
  rw [hafter] at hreturned ⊢
  rcases s.registry.invalidates_spec choice hkey with hclosed | hrenewed
  -- the call has returned an error, and stays so
  · have hphase : (s.next (.step i choice)).phase i = .returned (some .closed) := by
      rw [System.next, System.phase_goes, if_pos rfl, hclosed]
    have hstays : i < ((registry K).after (s.next (.step i choice)) between).callCount ∧
        ((registry K).after (s.next (.step i choice)) between).phase i = .returned (some .closed) :=
      Server.invariant (S := registry K) (fun _ _ => True)
        (I := fun s => i < s.callCount ∧ s.phase i = .returned (some .closed))
        ⟨hi, hphase⟩ (fun _ event _ h => System.returned_next h.1 h.2 event) (fun _ _ => trivial)
    rw [hstays.2] at hreturned
    cases hreturned
  -- the key is renewed, and stays so, and later calls have got nothing yet
  · have hbetween : ((registry K).after (s.next (.step i choice)) between).Safe ∧
        ((registry K).after (s.next (.step i choice)) between).registry.Renewed key
          s.registry.buildCount :=
      Server.invariant (S := registry K) (fun _ _ => True)
        (I := fun s' => s'.Safe ∧ s'.registry.Renewed key s.registry.buildCount)
        ⟨hsafe.next _, hrenewed⟩ (fun _ event _ h => ⟨h.1.next event, h.1.renewed_next h.2 event⟩)
        (fun _ _ => trivial)
    generalize (registry K).after (s.next (.step i choice)) between = s2 at hbetween ⊢
    have hfresh : s2.Fresh key s.registry.buildCount s2.callCount := by
      refine ⟨hbetween.2, fun j hj l hl => ?_⟩
      rw [hbetween.1.idle j hj] at hl
      cases hl
    have hlater : ((registry K).after s2 later).Safe ∧
        ((registry K).after s2 later).Fresh key s.registry.buildCount s2.callCount :=
      Server.invariant (S := registry K) (fun _ _ => True)
        (I := fun s' => s'.Safe ∧ s'.Fresh key s.registry.buildCount s2.callCount)
        ⟨hbetween.1, hfresh⟩ (fun _ event _ h => ⟨h.1.next event, h.1.fresh_next h.2 event⟩)
        (fun _ _ => trivial)
    exact hlater.2

/-- Registry capacity, single flight, and invalidation: after every run. -/
theorem registry_discipline (maxEntries : ℕ) (idleTTL : ℤ) (events : List (Event K)) :
    Disciplined maxEntries idleTTL events := by
  have hsafe := safe_after maxEntries idleTTL events
  obtain ⟨hslots, hmax⟩ := slots_after maxEntries idleTTL events
  have hcapacity := hslots.capacity
  rw [hmax] at hcapacity
  refine ⟨hcapacity, fun i j key b b' => hsafe.building.single, hslots.exclusive, ?_⟩
  rintro before i choice between later key hevents hkey hreturned j l hj hl hbegan
  have hbefore := safe_after maxEntries idleTTL before
  rw [hevents, List.append_assoc, Server.after_append] at hl hbegan
  rw [Server.after_append] at hreturned hj
  generalize (registry K).after (initial K maxEntries idleTTL) before = s at *
  have hfresh := fresh_of_invalidated hbefore hkey choice between later hreturned
  have hlease : (((registry K).after s (.step i choice :: between ++ later)).phase j).lease =
      some (key, l) := by
    rw [hl]
    rfl
  exact Nat.not_lt.2 (hfresh.leased j hj l hlease).2 hbegan.1

end AgentService.Runners
