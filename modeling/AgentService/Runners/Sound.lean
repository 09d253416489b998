import AgentService.Runners.Calls
import Mathlib.Data.Finset.Card

/-!
# What the sections under the mutex keep

`Sound` is what holds of a registry between two steps, for the entries that some calls are going to
close (`doomed`). The reference count of an entry is the number of its leases that have not been
released. An entry that is closed, or is going to be, has no such lease and is not in the map, so
that no call can lend it again (`Retired`); and so is an entry whose channel `zero` is closed. There
is one lemma for each change that the steps are made of.
-/

namespace AgentService.Runners

open Concurrent Function Finset

variable {K : Type} [DecidableEq K]

namespace Registry

/-- The leases of an entry that have not been released. -/
def borrowers (r : Registry K) (e : ℕ) : Finset ℕ :=
  (Finset.range r.leaseCount).filter fun l => (r.lease l).entry = e ∧ (r.lease l).once = false

omit [DecidableEq K] in
/-- The leases of an entry that have not been released. -/
theorem mem_borrowers {r : Registry K} {e l : ℕ} :
    l ∈ r.borrowers e ↔ l < r.leaseCount ∧ (r.lease l).entry = e ∧ (r.lease l).once = false := by
  rw [borrowers, mem_filter, mem_range]

/-- An entry that nobody uses or will use. -/
def Retired (r : Registry K) (e : ℕ) : Prop :=
  e < r.entryCount ∧ (r.entry e).refs = 0 ∧ ∀ key, r.entries.lookup key ≠ some e

/-- How often the runners have been closed. -/
structure Accounted (r : Registry K) : Prop where
  /-- A runner in an entry has been closed exactly if the entry has. -/
  closes : ∀ e < r.entryCount, (r.entry e).runner < r.buildCount ∧
    (r.build (r.entry e).runner).closes = (r.entry e).closeOnce.toNat
  /-- A runner is in one entry only. -/
  runner_inj : ∀ e < r.entryCount, ∀ e' < r.entryCount, (r.entry e).runner = (r.entry e').runner →
    e = e'
  /-- A runner that is in no entry has not been closed. -/
  unborn : ∀ b, (∀ e < r.entryCount, (r.entry e).runner ≠ b) → (r.build b).closes = 0

omit [DecidableEq K] in
/-- What neither makes nor closes entries keeps the account. -/
theorem Accounted.congr {r r' : Registry K} (h : r.Accounted)
    (hentryCount : r'.entryCount = r.entryCount)
    (hrunner : ∀ e, (r'.entry e).runner = (r.entry e).runner)
    (honce : ∀ e, (r'.entry e).closeOnce = (r.entry e).closeOnce)
    (hbuildCount : r.buildCount ≤ r'.buildCount)
    (hcloses : ∀ b, (r'.build b).closes = (r.build b).closes) : r'.Accounted := by
  refine ⟨?_, ?_, ?_⟩
  · intro e he
    rw [hentryCount] at he
    obtain ⟨hlt, hcount⟩ := h.closes e he
    rw [hrunner, honce, hcloses]
    exact ⟨Nat.lt_of_lt_of_le hlt hbuildCount, hcount⟩
  · intro e he e' he' heq
    rw [hentryCount] at he he'
    rw [hrunner, hrunner] at heq
    exact h.runner_inj e he e' he' heq
  · intro b hb
    rw [hcloses]
    refine h.unborn b fun e he => ?_
    rw [← hrunner]
    exact hb e (hentryCount ▸ he)

omit [DecidableEq K] in
/-- `entry.close()` keeps the account. -/
theorem Accounted.closeEntry {r : Registry K} (h : r.Accounted) {e : ℕ} (he : e < r.entryCount)
    (closeErr : Bool) : (r.closeEntry closeErr e).Accounted := by
  unfold Registry.closeEntry
  dsimp only
  split_ifs with honce
  · exact h
  obtain ⟨_, hcount⟩ := h.closes e he
  have hrunner : ∀ e', (Function.update r.entry e
      { r.entry e with closeOnce := true, closeErr := closeErr } e').runner =
        (r.entry e').runner := by
    intro e'
    by_cases he' : e' = e
    · subst he'
      simp
    · simp [he']
  refine ⟨?_, ?_, ?_⟩
  · intro e' he'
    dsimp only
    rw [hrunner]
    refine ⟨(h.closes e' he').1, ?_⟩
    by_cases hee' : e' = e
    · subst hee'
      simp [hcount, honce]
    · have hne : (r.entry e').runner ≠ (r.entry e).runner := fun heq =>
        hee' (h.runner_inj e' he' e he heq)
      rw [update_of_ne hne, update_of_ne hee']
      exact (h.closes e' he').2
  · intro e1 he1 e2 he2 heq
    dsimp only at heq
    rw [hrunner, hrunner] at heq
    exact h.runner_inj e1 he1 e2 he2 heq
  · intro b hb
    have hb' : ∀ e' < r.entryCount, (r.entry e').runner ≠ b := fun e' he' => hrunner e' ▸ hb e' he'
    dsimp only
    rw [update_of_ne (hb' e he).symm]
    exact h.unborn b hb'

omit [DecidableEq K] in
/-- A runner gets an entry. -/
theorem Accounted.allocate {r : Registry K} (h : r.Accounted) {b : ℕ} (hb : b < r.buildCount)
    (hnew : ∀ e < r.entryCount, (r.entry e).runner ≠ b) :
    (r.allocate { runner := b }).Accounted := by
  have hself : (r.allocate { runner := b }).entry r.entryCount = { runner := b } :=
    update_self _ _ _
  have hother : ∀ e, e < r.entryCount → (r.allocate { runner := b }).entry e = r.entry e :=
    fun e he => update_of_ne (Nat.ne_of_lt he) _ _
  refine ⟨?_, ?_, ?_⟩
  · intro e he
    rcases Nat.lt_succ_iff_lt_or_eq.1 he with he | rfl
    · rw [hother e he]
      exact h.closes e he
    · rw [hself]
      exact ⟨hb, h.unborn b hnew⟩
  · intro e he e' he' heq
    rcases Nat.lt_succ_iff_lt_or_eq.1 he with he | rfl <;>
      rcases Nat.lt_succ_iff_lt_or_eq.1 he' with he' | rfl
    · rw [hother e he, hother e' he'] at heq
      exact h.runner_inj e he e' he' heq
    · rw [hother e he, hself] at heq
      exact absurd heq (hnew e he)
    · rw [hself, hother e' he'] at heq
      exact absurd heq.symm (hnew e' he')
    · rfl
  · intro b' hb'
    refine h.unborn b' fun e he => ?_
    rw [← hother e he]
    exact hb' e (Nat.lt_succ_of_lt he)

omit [DecidableEq K] in
/-- No runner has been closed twice. -/
theorem Accounted.closes_le {r : Registry K} (h : r.Accounted) (b : ℕ) :
    (r.build b).closes ≤ 1 := by
  by_cases hb : ∃ e < r.entryCount, (r.entry e).runner = b
  · obtain ⟨e, he, rfl⟩ := hb
    rw [(h.closes e he).2]
    exact Bool.toNat_le _
  · push Not at hb
    rw [h.unborn b hb]
    exact Nat.zero_le 1

/-- What holds of a registry, for the entries that are going to be closed. -/
structure Sound (r : Registry K) (doomed : ℕ → Prop) : Prop where
  /-- The reference counts. -/
  refs : ∀ e, (r.entry e).refs = (r.borrowers e).card
  /-- Leases are of entries. -/
  lent : ∀ l < r.leaseCount, (r.lease l).entry < r.entryCount
  /-- What is in the map is valid. -/
  stored : ∀ key e, r.entries.lookup key = some e →
    e < r.entryCount ∧ (r.entry e).invalidated = false
  /-- An entry is in the map under one key only. -/
  stored_inj : ∀ key key' e, r.entries.lookup key = some e → r.entries.lookup key' = some e →
    key = key'
  /-- A closed registry is empty. -/
  closed : r.closed = true → ∀ key, r.entries.lookup key = none
  /-- What is closed, or is going to be, is retired. -/
  retired : ∀ e, doomed e ∨ (r.entry e).closeOnce = true → r.Retired e
  /-- The channel `zero` of an entry with leases is open. -/
  zeroOpen : ∀ e, 0 < (r.entry e).refs →
    ∃ generation, (r.entry e).zero = some generation ∧ r.closings (.zero e generation) = 0
  /-- An entry with a closed channel `zero` is retired. -/
  zeroUsed : ∀ e generation, r.closings (.zero e generation) ≠ 0 → r.Retired e
  /-- No channel is closed twice. -/
  closings : ∀ c, r.closings c ≤ 1
  /-- The runners are closed through their entries. -/
  accounted : r.Accounted

namespace Sound

variable {r : Registry K} {doomed doomed' : ℕ → Prop} (h : r.Sound doomed)
include h

theorem mono (hsub : ∀ e, doomed' e → doomed e) : r.Sound doomed' :=
  { h with retired := fun e he => h.retired e (he.imp (hsub e) id) }

/-- What does not touch the entries, the leases, and the channels keeps everything. -/
theorem congr {r' : Registry K} (hentries : r'.entries = r.entries) (hclosed : r'.closed = r.closed)
    (hentry : r'.entry = r.entry) (hentryCount : r'.entryCount = r.entryCount)
    (hlease : r'.lease = r.lease) (hleaseCount : r'.leaseCount = r.leaseCount)
    (hclosings : r'.closings = r.closings) (hbuildCount : r.buildCount ≤ r'.buildCount)
    (hcloses : ∀ b, (r'.build b).closes = (r.build b).closes) : r'.Sound doomed := by
  have hborrowers : ∀ e, r'.borrowers e = r.borrowers e := by
    intro e
    unfold borrowers
    rw [hlease, hleaseCount]
  have hretired : ∀ e, r.Retired e → r'.Retired e := by
    intro e he
    exact ⟨hentryCount ▸ he.1, hentry ▸ he.2.1, hentries ▸ he.2.2⟩
  refine ⟨?_, ?_, ?_, ?_, ?_, ?_, ?_, ?_, ?_, ?_⟩
  · intro e
    rw [hentry, hborrowers]
    exact h.refs e
  · rw [hlease, hleaseCount, hentryCount]
    exact h.lent
  · rw [hentries, hentryCount, hentry]
    exact h.stored
  · rw [hentries]
    exact h.stored_inj
  · rw [hclosed, hentries]
    exact h.closed
  · rw [hentry]
    exact fun e he => hretired e (h.retired e he)
  · rw [hentry, hclosings]
    exact h.zeroOpen
  · rw [hclosings]
    exact fun e generation he => hretired e (h.zeroUsed e generation he)
  · rw [hclosings]
    exact h.closings
  · exact h.accounted.congr hentryCount (fun e => by rw [hentry]) (fun e => by rw [hentry])
      hbuildCount hcloses

/-- Marking builds as invalidated. -/
theorem flag (which : K → Bool) : (r.flag which).Sound doomed := by
  refine h.congr rfl rfl rfl rfl rfl rfl rfl (Nat.le_refl _) fun b => ?_
  unfold Registry.flag
  dsimp only
  split_ifs <;> rfl

/-- Closing a channel other than those of the entries. -/
theorem closeChan {c : Chan} (hc : ∀ e generation, c ≠ .zero e generation)
    (hopen : r.closings c = 0) : (r.closeChan c).Sound doomed := by
  have hzero : ∀ e generation, (r.closeChan c).closings (.zero e generation) =
      r.closings (.zero e generation) := fun e generation =>
    update_of_ne (hc e generation).symm _ _
  refine { h with zeroOpen := ?_, zeroUsed := ?_, closings := ?_, accounted := ?_ }
  · intro e he
    obtain ⟨generation, hgeneration, hopen'⟩ := h.zeroOpen e he
    exact ⟨generation, hgeneration, (hzero e generation).trans hopen'⟩
  · intro e generation he
    rw [hzero] at he
    exact h.zeroUsed e generation he
  · intro c'
    by_cases hc' : c' = c
    · subst hc'
      simp [Registry.closeChan, hopen]
    · simpa [Registry.closeChan, hc'] using h.closings c'
  · exact h.accounted.congr rfl (fun _ => rfl) (fun _ => rfl) (Nat.le_refl _) fun _ => rfl

/-- `entry.close()` of an entry that is retired. -/
theorem closeEntry {e : ℕ} (he : r.Retired e) (closeErr : Bool) :
    (r.closeEntry closeErr e).Sound doomed := by
  have haccounted := h.accounted.closeEntry he.1 closeErr
  unfold Registry.closeEntry at haccounted ⊢
  dsimp only at haccounted ⊢
  split_ifs at haccounted ⊢ with honce
  · exact h
  -- only `closeOnce` and `closeErr` of the entry change, and the count of its runner
  generalize hentry : Function.update r.entry e
    { r.entry e with closeOnce := true, closeErr := closeErr } = entry at haccounted ⊢
  have hsame : ∀ e', (entry e').refs = (r.entry e').refs ∧
      (entry e').invalidated = (r.entry e').invalidated ∧ (entry e').zero = (r.entry e').zero ∧
      ((entry e').closeOnce = true → (r.entry e').closeOnce = true ∨ r.Retired e') := by
    intro e'
    rw [← hentry]
    by_cases he' : e' = e
    · subst he'
      simp [he]
    · simp +contextual [he']
  refine { h with refs := ?_, stored := ?_, retired := ?_, zeroOpen := ?_, zeroUsed := ?_,
                  accounted := haccounted }
  · exact fun e' => (hsame e').1.trans (h.refs e')
  · exact fun key e' he' => ⟨(h.stored key e' he').1, (hsame e').2.1.trans (h.stored key e' he').2⟩
  · intro e' he'
    have hretired : r.Retired e' := by
      rcases he' with he' | he'
      · exact h.retired e' (.inl he')
      · exact ((hsame e').2.2.2 he').elim (fun he' => h.retired e' (.inr he')) id
    exact ⟨hretired.1, (hsame e').1.trans hretired.2.1, hretired.2.2⟩
  · intro e' he'
    obtain ⟨generation, hgeneration, hopen⟩ := h.zeroOpen e' ((hsame e').1 ▸ he')
    exact ⟨generation, (hsame e').2.2.1.trans hgeneration, hopen⟩
  · intro e' generation he'
    have hretired := h.zeroUsed e' generation he'
    exact ⟨hretired.1, (hsame e').1.trans hretired.2.1, hretired.2.2⟩

end Sound

/-! ### Lending and releasing -/

variable (r : Registry K)

omit [DecidableEq K] in
/-- A new lease of an entry. -/
theorem card_borrowers_lend (e e' : ℕ) :
    ((r.lend e).borrowers e').card = (r.borrowers e').card + if e = e' then 1 else 0 := by
  have hold : (range r.leaseCount).filter (fun l => ((r.lend e).lease l).entry = e' ∧
      ((r.lend e).lease l).once = false) = r.borrowers e' := by
    refine filter_congr fun l hl => ?_
    have hne : l ≠ r.leaseCount := Nat.ne_of_lt (mem_range.1 hl)
    simp [lend, hne]
  have hnew : ((r.lend e).lease r.leaseCount) = { entry := e } := update_self _ _ _
  have hcount : (r.lend e).leaseCount = r.leaseCount + 1 := rfl
  unfold borrowers at hold ⊢
  rw [hcount, range_add_one, filter_insert, hnew, hold]
  split_ifs with hif heq heq
  · rw [card_insert_of_notMem]
    simp
  · exact absurd hif.1 heq
  · exact absurd ⟨heq, rfl⟩ hif
  · rfl

omit [DecidableEq K] in
/-- A lease is released. -/
theorem card_borrowers_takeOnce {l : ℕ} (hl : l < r.leaseCount) (honce : (r.lease l).once = false)
    (e : ℕ) : ((r.takeOnce l).borrowers e).card + (if (r.lease l).entry = e then 1 else 0) =
      (r.borrowers e).card := by
  have hborrowers : (r.takeOnce l).borrowers e = (r.borrowers e).erase l := by
    ext l'
    rw [mem_erase, mem_borrowers, mem_borrowers]
    by_cases hl' : l' = l
    · subst hl'
      simp [takeOnce]
    · simp [takeOnce, hl']
  rw [hborrowers]
  split_ifs with heq
  · have hmem : l ∈ r.borrowers e := mem_borrowers.2 ⟨hl, heq, honce⟩
    exact card_erase_add_one hmem
  · have hmem : l ∉ r.borrowers e := fun h => heq (mem_borrowers.1 h).2.1
    rw [erase_eq_of_notMem hmem]
    rfl

omit [DecidableEq K] in
/-- An entry with a new lease has one more reference. -/
theorem retainLocked_entry (now : ℤ) (e e' : ℕ) :
    ((r.retainLocked now e).entry e').refs = (r.entry e').refs + (if e = e' then 1 else 0) ∧
      ((r.retainLocked now e).entry e').invalidated = (r.entry e').invalidated ∧
      ((r.retainLocked now e).entry e').closeOnce = (r.entry e').closeOnce ∧
      ((r.retainLocked now e).entry e').runner = (r.entry e').runner := by
  by_cases he' : e' = e
  · subst he'
    simp [retainLocked]
  · simp [retainLocked, he', Ne.symm he']

omit [DecidableEq K] in
/-- An entry of which a lease is given back has one reference less. -/
theorem dropRef_entry (l e : ℕ) (lastUsed : ℤ) (e' : ℕ) :
    (((r.takeOnce l).dropRef e lastUsed).entry e').refs =
      (r.entry e').refs - (if e = e' then 1 else 0) ∧
      (((r.takeOnce l).dropRef e lastUsed).entry e').invalidated = (r.entry e').invalidated ∧
      (((r.takeOnce l).dropRef e lastUsed).entry e').zero = (r.entry e').zero ∧
      (((r.takeOnce l).dropRef e lastUsed).entry e').closeOnce = (r.entry e').closeOnce ∧
      (((r.takeOnce l).dropRef e lastUsed).entry e').runner = (r.entry e').runner := by
  by_cases he' : e' = e
  · subst he'
    simp [Registry.dropRef, takeOnce]
  · simp [Registry.dropRef, takeOnce, he', Ne.symm he']

namespace Sound

variable {r : Registry K} {doomed doomed' : ℕ → Prop}

/-- An entry in the map is not retired. -/
theorem ne_of_retired {key : K} {e e' : ℕ} (hkey : r.entries.lookup key = some e)
    (he' : r.Retired e') : e' ≠ e := by
  rintro rfl
  exact he'.2.2 key hkey

/-- `acquireOnce` lends an entry of the map. -/
theorem retain (h : r.Sound doomed) {key : K} {e : ℕ} (hkey : r.entries.lookup key = some e)
    (now : ℤ) : ((r.retainLocked now e).lend e).Sound doomed := by
  have hentry := r.retainLocked_entry now e
  have hretired : ∀ e', r.Retired e' → ((r.retainLocked now e).lend e).Retired e' := by
    intro e' he'
    have hrefs := (hentry e').1
    rw [if_neg (ne_of_retired hkey he').symm] at hrefs
    exact ⟨he'.1, hrefs.trans he'.2.1, he'.2.2⟩
  refine { h with refs := ?_, lent := ?_, stored := ?_, retired := ?_, zeroOpen := ?_,
                  zeroUsed := ?_, accounted := ?_ }
  · intro e'
    rw [card_borrowers_lend]
    have hold : (r.retainLocked now e).borrowers e' = r.borrowers e' := rfl
    rw [hold, ← h.refs e']
    exact (hentry e').1
  · intro l hl
    by_cases hl' : l = r.leaseCount
    · have hnew : ((r.retainLocked now e).lend e).lease l = { entry := e } := by
        rw [hl']
        exact update_self _ _ _
      rw [hnew]
      exact (h.stored key e hkey).1
    · have hold : ((r.retainLocked now e).lend e).lease l = r.lease l := update_of_ne hl' _ _
      rw [hold]
      exact h.lent l (Nat.lt_of_le_of_ne (Nat.le_of_lt_succ hl) hl')
  · intro key' e' he'
    exact ⟨(h.stored key' e' he').1, (hentry e').2.1.trans (h.stored key' e' he').2⟩
  · rintro e' (he' | he')
    · exact hretired e' (h.retired e' (.inl he'))
    · exact hretired e' (h.retired e' (.inr ((hentry e').2.2.1.symm.trans he')))
  · intro e' he'
    by_cases hee' : e' = e
    · subst hee'
      by_cases hrefs : (r.entry e').refs = 0
      -- a channel that is not closed, for otherwise the entry would be retired
      · refine ⟨(r.entry e').zero.elim 0 (· + 1), by simp [retainLocked, lend, hrefs], ?_⟩
        by_contra hclosed
        exact ne_of_retired hkey (h.zeroUsed _ _ hclosed) rfl
      · simpa [retainLocked, lend, hrefs] using h.zeroOpen e' (Nat.pos_of_ne_zero hrefs)
    · have hsame : ((r.retainLocked now e).lend e).entry e' = r.entry e' := update_of_ne hee' _ _
      rw [hsame] at he' ⊢
      exact h.zeroOpen e' he'
  · exact fun e' generation he' => hretired e' (h.zeroUsed e' generation he')
  · exact h.accounted.congr rfl (fun e' => (hentry e').2.2.2) (fun e' => (hentry e').2.2.1)
      (Nat.le_refl _) fun _ => rfl

/-- A lease gives back its reference. -/
theorem dropRef (h : r.Sound doomed) {l : ℕ} (hl : l < r.leaseCount)
    (honce : (r.lease l).once = false) (lastUsed : ℤ) :
    ((r.takeOnce l).dropRef (r.lease l).entry lastUsed).Sound doomed := by
  generalize hentry : (r.lease l).entry = e
  have hsame := r.dropRef_entry l e lastUsed
  have hretired : ∀ e', r.Retired e' → ((r.takeOnce l).dropRef e lastUsed).Retired e' := by
    intro e' he'
    refine ⟨he'.1, ?_, he'.2.2⟩
    rw [(hsame e').1, he'.2.1, Nat.zero_sub]
  refine { h with refs := ?_, lent := ?_, stored := ?_, retired := ?_, zeroOpen := ?_,
                  zeroUsed := ?_, accounted := ?_ }
  · intro e'
    have hcard := card_borrowers_takeOnce r hl honce e'
    rw [hentry] at hcard
    rw [(hsame e').1, h.refs e', ← hcard, Nat.add_sub_cancel]
    rfl
  · intro l' hl'
    have hold : (((r.takeOnce l).dropRef e lastUsed).lease l').entry = (r.lease l').entry := by
      by_cases hll' : l' = l
      · subst hll'
        simp [Registry.dropRef, takeOnce]
      · simp [Registry.dropRef, takeOnce, hll']
    rw [hold]
    exact h.lent l' hl'
  · intro key e' he'
    exact ⟨(h.stored key e' he').1, (hsame e').2.1.trans (h.stored key e' he').2⟩
  · rintro e' (he' | he')
    · exact hretired e' (h.retired e' (.inl he'))
    · exact hretired e' (h.retired e' (.inr ((hsame e').2.2.2.1.symm.trans he')))
  · intro e' he'
    rw [(hsame e').1] at he'
    rw [(hsame e').2.2.1]
    exact h.zeroOpen e' (Nat.lt_of_lt_of_le he' (Nat.sub_le _ _))
  · exact fun e' generation he' => hretired e' (h.zeroUsed e' generation he')
  · exact h.accounted.congr rfl (fun e' => (hsame e').2.2.2.2) (fun e' => (hsame e').2.2.2.1)
      (Nat.le_refl _) fun _ => rfl

/-- `close(entry.zero)` of an entry that is retired now. -/
theorem closeZero (h : r.Sound doomed) {e : ℕ} (he : r.Retired e)
    (hopen : ∀ generation, (r.entry e).zero = some generation → r.closings (.zero e generation) = 0)
    (hdoomed : ∀ e', doomed' e' → doomed e' ∨ e' = e) : (r.closeZero e).Sound doomed' := by
  have hmore : r.Sound doomed' := by
    refine { h with retired := fun e' he' => ?_ }
    rcases he' with he' | he'
    · rcases hdoomed e' he' with he' | rfl
      · exact h.retired e' (.inl he')
      · exact he
    · exact h.retired e' (.inr he')
  unfold Registry.closeZero
  cases hzero : (r.entry e).zero with
  | none => exact hmore
  | some generation =>
    have hcount := hopen generation hzero
    refine { hmore with zeroOpen := ?_, zeroUsed := ?_, closings := ?_, accounted := ?_ }
    · intro e' he'
      obtain ⟨generation', hgeneration', hopen'⟩ := h.zeroOpen e' he'
      have hne : e' ≠ e := by
        rintro rfl
        exact Nat.ne_of_gt he' he.2.1
      refine ⟨generation', hgeneration', ?_⟩
      simp [Registry.closeChan, hne, hopen']
    · intro e' generation' hused
      by_cases hee' : e' = e
      · rw [hee']
        exact he
      · have hused' : r.closings (.zero e' generation') ≠ 0 := by
          simpa [Registry.closeChan, hee'] using hused
        exact h.zeroUsed e' generation' hused'
    · intro c
      by_cases hc : c = .zero e generation
      · subst hc
        simp [Registry.closeChan, hcount]
      · simpa [Registry.closeChan, hc] using h.closings c
    · exact h.accounted.congr rfl (fun _ => rfl) (fun _ => rfl) (Nat.le_refl _) fun _ => rfl

end Sound

omit [DecidableEq K] in
/-- `release` of an entry that has a reference: either it is the last one and the entry is not to be
kept, or it is only given back. -/
theorem releaseEntry_cases (now : ℤ) (l : ℕ) {e : ℕ} (hpos : 0 < (r.entry e).refs) :
    (((r.entry e).refs ≠ 1 ∨ (r.entry e).invalidated = false ∧ r.closed = false) ∧
      ∃ lastUsed, r.releaseEntry now l e = (.released l none, r.dropRef e lastUsed)) ∨
    (((r.entry e).refs = 1 ∧ ((r.entry e).invalidated = true ∨ r.closed = true)) ∧
      r.releaseEntry now l e = (.closingLease l e, (r.dropRef e now).closeZero e)) := by
  unfold releaseEntry
  rw [if_neg (Nat.not_lt.2 hpos)]
  split_ifs with hone hlast
  · exact .inl ⟨.inl hone, _, rfl⟩
  · exact .inr ⟨⟨by simpa using hone, by simpa using hlast⟩, rfl⟩
  · exact .inl ⟨.inr (by simpa using hlast), _, rfl⟩

/-- An entry has a reference as long as one of its leases has not been released. -/
theorem Sound.refs_pos {r : Registry K} {doomed : ℕ → Prop} (h : r.Sound doomed) {l : ℕ}
    (hl : l < r.leaseCount) (honce : (r.lease l).once = false) :
    0 < (r.entry (r.lease l).entry).refs := by
  rw [h.refs]
  exact card_pos.2 ⟨l, mem_borrowers.2 ⟨hl, rfl, honce⟩⟩

/-- `Release` of a lease. -/
theorem Sound.release {r : Registry K} {doomed : ℕ → Prop} (h : r.Sound doomed) {l : ℕ}
    (hl : l < r.leaseCount) (honce : (r.lease l).once = false) (now : ℤ) :
    ((r.takeOnce l).releaseEntry now l (r.lease l).entry).2.Sound fun e =>
      doomed e ∨ e ∈ ((r.takeOnce l).releaseEntry now l (r.lease l).entry).1.toClose := by
  have hpos := h.refs_pos hl honce
  rcases (r.takeOnce l).releaseEntry_cases now l hpos with
    ⟨-, lastUsed, heq⟩ | ⟨⟨hone, hlast⟩, heq⟩
  · rw [heq]
    exact (h.dropRef hl honce lastUsed).mono fun e he => he.resolve_right List.not_mem_nil
  · rw [heq]
    have hself : (((r.takeOnce l).dropRef (r.lease l).entry now).entry (r.lease l).entry) =
        { r.entry (r.lease l).entry with
          refs := (r.entry (r.lease l).entry).refs - 1, lastUsed := now } :=
      update_self _ _ _
    refine (h.dropRef hl honce now).closeZero ⟨h.lent l hl, ?_, ?_⟩ ?_ ?_
    · have hone' : (r.entry (r.lease l).entry).refs = 1 := hone
      rw [hself]
      exact congrArg (· - 1) hone'
    -- neither an invalidated entry nor one of a closed registry is in the map
    · intro key hkey
      rcases hlast with hinvalid | hclosed
      · exact absurd ((h.stored key _ hkey).2.symm.trans hinvalid) nofun
      · exact absurd ((h.closed hclosed key).symm.trans hkey) nofun
    · intro _ hgeneration
      rw [hself] at hgeneration
      obtain ⟨_, hgeneration', hopen⟩ := h.zeroOpen _ hpos
      cases hgeneration.symm.trans hgeneration'
      exact hopen
    · exact fun e he => he.imp id List.mem_singleton.1

/-! ### Taking entries out of the map -/

/-- Two registries that differ in the map and in what is marked as invalidated. -/
structure SameBut (r r' : Registry K) : Prop where
  rest : r' = { r with entries := r'.entries, entry := r'.entry }
  entry : ∀ e, r'.entry e = { r.entry e with invalidated := (r'.entry e).invalidated }

/-- The entries that a loop deletes. -/
theorem isGone_iff {r : Registry K} {gone : K → ℕ → Bool} {e : ℕ} :
    r.isGone gone e = true ↔ ∃ key, r.entries.lookup key = some e ∧ gone key e = true := by
  simp only [isGone, List.any_eq_true, Bool.and_eq_true, decide_eq_true_eq, Sigma.exists]
  constructor
  · rintro ⟨key, _, hmem, rfl, hgone⟩
    exact ⟨key, AList.mem_lookup_iff.2 hmem, hgone⟩
  · rintro ⟨key, hkey, hgone⟩
    exact ⟨key, e, AList.mem_lookup_iff.1 hkey, rfl, hgone⟩

/-- What such a loop leaves. -/
theorem lookup_retire {r : Registry K} {gone : K → ℕ → Bool} {key : K} {e : ℕ} :
    (r.retire gone).entries.lookup key = some e ↔
      r.entries.lookup key = some e ∧ gone key e = false := by
  have hlookup : (r.retire gone).entries.lookup key =
      (r.entries.lookup key).filter fun e => ¬ gone key e := Go.lookup_deleteWhere _ _ _
  rw [hlookup, Option.filter_eq_some_iff]
  simp

/-- Such a loop touches nothing but `invalidated`. -/
theorem retire_entry (gone : K → ℕ → Bool) (e : ℕ) :
    ((r.retire gone).entry e).refs = (r.entry e).refs ∧
      ((r.retire gone).entry e).zero = (r.entry e).zero ∧
      ((r.retire gone).entry e).closeOnce = (r.entry e).closeOnce ∧
      ((r.retire gone).entry e).runner = (r.entry e).runner ∧
      ((r.retire gone).entry e).invalidated = ((r.entry e).invalidated || r.isGone gone e) := by
  unfold retire
  dsimp only
  split_ifs with hgone
  · simp [hgone]
  · simp [hgone]

/-- Evictions change nothing but the map and the marks. -/
theorem SameBut.of_evicts {r r' : Registry K} {toClose : List ℕ} (h : Evicts r toClose r') :
    SameBut r r' := by
  induction h with
  | nothing => exact ⟨rfl, fun _ => rfl⟩
  | more _ _ _ _ ih =>
    refine ⟨ih.rest, fun e => ?_⟩
    rw [ih.entry e]
    unfold retire
    dsimp only
    split_ifs <;> rfl

namespace Sound

variable {r : Registry K} {doomed doomed' : ℕ → Prop} (h : r.Sound doomed)
include h

/-- A loop deletes from the map, and some call is going to close the idle ones of what it deletes.
-/
theorem retire (gone : K → ℕ → Bool)
    (hdoomed : ∀ e, doomed' e → doomed e ∨
      (r.entry e).refs = 0 ∧ ∃ key, r.entries.lookup key = some e ∧ gone key e = true) :
    (r.retire gone).Sound doomed' := by
  have hentry := r.retire_entry gone
  have hretired : ∀ e, r.Retired e → (r.retire gone).Retired e := by
    intro e he
    exact ⟨he.1, (hentry e).1.trans he.2.1, fun key hkey => he.2.2 key (lookup_retire.1 hkey).1⟩
  -- an entry is in the map under one key only, so what is deleted is not there any more
  have hgone : ∀ e key, r.entries.lookup key = some e → gone key e = true →
      ∀ key', (r.retire gone).entries.lookup key' ≠ some e := by
    intro e key hkey hgone key' hkey'
    obtain ⟨hold, hkept⟩ := lookup_retire.1 hkey'
    rw [h.stored_inj key key' e hkey hold, hkept] at hgone
    cases hgone
  refine { h with refs := ?_, stored := ?_, stored_inj := ?_, closed := ?_, retired := ?_,
                  zeroOpen := ?_, zeroUsed := ?_, accounted := ?_ }
  · exact fun e => (hentry e).1.trans (h.refs e)
  · intro key e hkey
    obtain ⟨hold, hkept⟩ := lookup_retire.1 hkey
    obtain ⟨hlt, hvalid⟩ := h.stored key e hold
    refine ⟨hlt, ?_⟩
    rw [(hentry e).2.2.2.2, hvalid, Bool.false_or, Bool.eq_false_iff]
    intro hisGone
    obtain ⟨key', hkey', hgone'⟩ := isGone_iff.1 hisGone
    exact hgone e key' hkey' hgone' key hkey
  · intro key key' e hkey hkey'
    exact h.stored_inj key key' e (lookup_retire.1 hkey).1 (lookup_retire.1 hkey').1
  · intro hclosed key
    rw [Option.eq_none_iff_forall_ne_some]
    intro e hkey
    have hold := (lookup_retire.1 hkey).1
    rw [h.closed hclosed key] at hold
    cases hold
  · rintro e (he | he)
    · rcases hdoomed e he with he | ⟨hrefs, key, hkey, hgone'⟩
      · exact hretired e (h.retired e (.inl he))
      · exact ⟨(h.stored key e hkey).1, (hentry e).1.trans hrefs, hgone e key hkey hgone'⟩
    · exact hretired e (h.retired e (.inr ((hentry e).2.2.1.symm.trans he)))
  · intro e he
    rw [(hentry e).1] at he
    rw [(hentry e).2.1]
    exact h.zeroOpen e he
  · exact fun e generation he => hretired e (h.zeroUsed e generation he)
  · exact h.accounted.congr rfl (fun e => (hentry e).2.2.2.1) (fun e => (hentry e).2.2.1)
      (Nat.le_refl _) fun _ => rfl

/-- A registry without entries is closed. -/
theorem close (hempty : ∀ key, r.entries.lookup key = none) :
    Sound { r with closeStarted := true, closed := true } doomed :=
  { h with
    closed := fun _ => hempty
    accounted := h.accounted.congr rfl (fun _ => rfl) (fun _ => rfl) (Nat.le_refl _) fun _ => rfl }

/-! ### New entries -/

variable {b : ℕ}

/-- A runner gets an entry. -/
theorem allocate (hb : b < r.buildCount) (hnew : ∀ e < r.entryCount, (r.entry e).runner ≠ b)
    (hdoomed : ∀ e, doomed' e → doomed e ∨ e = r.entryCount) :
    (r.allocate { runner := b }).Sound doomed' := by
  have hself : (r.allocate { runner := b }).entry r.entryCount = { runner := b } :=
    update_self _ _ _
  have hother : ∀ e, e ≠ r.entryCount → (r.allocate { runner := b }).entry e = r.entry e :=
    fun e he => update_of_ne he _ _
  have hunused : r.borrowers r.entryCount = ∅ := by
    rw [eq_empty_iff_forall_notMem]
    intro l hl
    obtain ⟨hlt, hentry, -⟩ := mem_borrowers.1 hl
    exact Nat.lt_irrefl _ (hentry ▸ h.lent l hlt)
  have hnotStored : ∀ key, r.entries.lookup key ≠ some r.entryCount :=
    fun key hkey => Nat.lt_irrefl _ (h.stored key _ hkey).1
  have hretired : ∀ e, r.Retired e → (r.allocate { runner := b }).Retired e := by
    intro e he
    refine ⟨Nat.lt_succ_of_lt he.1, ?_, he.2.2⟩
    rw [hother e (Nat.ne_of_lt he.1)]
    exact he.2.1
  refine { h with refs := ?_, lent := ?_, stored := ?_, retired := ?_, zeroOpen := ?_,
                  zeroUsed := ?_, accounted := ?_ }
  · intro e
    have hsame : (r.allocate { runner := b }).borrowers e = r.borrowers e := rfl
    rw [hsame]
    by_cases he : e = r.entryCount
    · rw [he, hself, hunused]
      rfl
    · rw [hother e he]
      exact h.refs e
  · exact fun l hl => Nat.lt_succ_of_lt (h.lent l hl)
  · intro key e hkey
    obtain ⟨hlt, hvalid⟩ := h.stored key e hkey
    rw [hother e (Nat.ne_of_lt hlt)]
    exact ⟨Nat.lt_succ_of_lt hlt, hvalid⟩
  · intro e he
    by_cases hee : e = r.entryCount
    · refine ⟨hee ▸ Nat.lt_succ_self _, ?_, hee ▸ hnotStored⟩
      rw [hee, hself]
    · rw [hother e hee] at he
      refine hretired e (h.retired e (he.imp (fun he => ?_) id))
      exact (hdoomed e he).resolve_right hee
  · intro e he
    have hee : e ≠ r.entryCount := by
      rintro rfl
      rw [hself] at he
      exact Nat.lt_irrefl 0 he
    rw [hother e hee] at he ⊢
    exact h.zeroOpen e he
  · exact fun e generation he => hretired e (h.zeroUsed e generation he)
  · exact h.accounted.allocate hb hnew

/-- An entry that is not in use is put into the map. -/
theorem insert {key : K} {e : ℕ} (hlt : e < r.entryCount) (hvalid : (r.entry e).invalidated = false)
    (hclosed : r.closed = false) (hstored : ∀ key, r.entries.lookup key ≠ some e)
    (hdoomed : ¬ doomed e) (honce : (r.entry e).closeOnce = false)
    (hzero : ∀ generation, r.closings (.zero e generation) = 0) :
    Sound { r with entries := r.entries.insert key e } doomed := by
  have hretired : ∀ e', e' ≠ e → r.Retired e' →
      Retired { r with entries := r.entries.insert key e } e' := by
    intro e' hne he'
    refine ⟨he'.1, he'.2.1, fun key' hkey' => ?_⟩
    rcases Go.lookup_insert_eq_some.1 hkey' with ⟨-, heq⟩ | ⟨-, hkey'⟩
    · exact hne heq
    · exact he'.2.2 key' hkey'
  refine { h with stored := ?_, stored_inj := ?_, closed := ?_, retired := ?_, zeroUsed := ?_,
                  accounted := ?_ }
  · intro key' e' hkey'
    rcases Go.lookup_insert_eq_some.1 hkey' with ⟨-, rfl⟩ | ⟨-, hkey'⟩
    · exact ⟨hlt, hvalid⟩
    · exact h.stored key' e' hkey'
  · intro key1 key2 e' hkey1 hkey2
    rcases Go.lookup_insert_eq_some.1 hkey1 with ⟨rfl, rfl⟩ | ⟨-, hold1⟩
    · rcases Go.lookup_insert_eq_some.1 hkey2 with ⟨rfl, -⟩ | ⟨-, hold2⟩
      · rfl
      · exact absurd hold2 (hstored key2)
    · rcases Go.lookup_insert_eq_some.1 hkey2 with ⟨rfl, rfl⟩ | ⟨-, hold2⟩
      · exact absurd hold1 (hstored key1)
      · exact h.stored_inj key1 key2 e' hold1 hold2
  · intro hclosed'
    have hopen : r.closed = true := hclosed'
    rw [hclosed] at hopen
    cases hopen
  · intro e' he'
    refine hretired e' ?_ (h.retired e' he')
    rintro rfl
    rcases he' with he' | he'
    · exact hdoomed he'
    · have honce' : (r.entry e').closeOnce = true := he'
      rw [honce] at honce'
      cases honce'
  · intro e' generation he'
    refine hretired e' ?_ (h.zeroUsed e' generation he')
    rintro rfl
    exact he' (hzero generation)
  · exact h.accounted.congr rfl (fun _ => rfl) (fun _ => rfl) (Nat.le_refl _) fun _ => rfl

/-- `finishRunnerBuild` keeps the runner. -/
theorem publish (hb : b < r.buildCount) (hnew : ∀ e < r.entryCount, (r.entry e).runner ≠ b)
    (hclosed : r.closed = false) (hdone : r.closings (.done b) = 0) (now : ℤ) (key : K) :
    (r.publish now key b).Sound doomed := by
  -- a new entry is lent as one that has no leases yet
  have hpublish : r.publish now key b = ((Registry.closeChan
        { r.allocate { runner := b } with
          pending := r.pending.erase key
          entries := r.entries.insert key r.entryCount } (.done b)).retainLocked
            now r.entryCount).lend r.entryCount := by
    simp [Registry.publish, Registry.allocate, Registry.closeChan, retainLocked, lend]
  have hnotStored : ∀ key, r.entries.lookup key ≠ some r.entryCount :=
    fun key hkey => Nat.lt_irrefl _ (h.stored key _ hkey).1
  have hself : (r.allocate { runner := b }).entry r.entryCount = { runner := b } :=
    update_self _ _ _
  have hallocated : (r.allocate { runner := b }).Sound doomed :=
    h.allocate hb hnew fun e he => .inl he
  have hinserted : Sound { r.allocate { runner := b } with
      entries := r.entries.insert key r.entryCount } doomed := by
    refine hallocated.insert (Nat.lt_succ_self _) ?_ hclosed hnotStored ?_ ?_ ?_
    · rw [hself]
    · exact fun hdoomed => Nat.lt_irrefl _ (h.retired _ (.inl hdoomed)).1
    · rw [hself]
    · intro generation
      by_contra hused
      exact Nat.lt_irrefl _ (h.zeroUsed _ generation hused).1
  have hpending : Sound { r.allocate { runner := b } with
      pending := r.pending.erase key
      entries := r.entries.insert key r.entryCount } doomed :=
    hinserted.congr rfl rfl rfl rfl rfl rfl rfl (Nat.le_refl _) fun _ => rfl
  have hkey : (r.entries.insert key r.entryCount).lookup key = some r.entryCount :=
    AList.lookup_insert _
  have hclosedDone := hpending.closeChan (fun e generation => Chan.noConfusion) hdone
  rw [hpublish]
  exact hclosedDone.retain hkey now

/-- `finishRunnerBuild` has no entry for the map. -/
theorem abandon (hdone : r.closings (.done b) = 0) (key : K) : (r.abandon key b).Sound doomed := by
  have hpending : Sound { r with pending := r.pending.erase key } doomed :=
    h.congr rfl rfl rfl rfl rfl rfl rfl (Nat.le_refl _) fun _ => rfl
  exact hpending.closeChan (fun e _ => Chan.noConfusion) hdone

/-- A new build. -/
theorem register (hnew : ∀ e < r.entryCount, (r.entry e).runner ≠ r.buildCount)
    (key : K) : (r.register key).Sound doomed := by
  refine h.congr rfl rfl rfl rfl rfl rfl rfl (Nat.le_succ _) fun b => ?_
  by_cases hb : b = r.buildCount
  · have hclosed := h.accounted.unborn r.buildCount hnew
    subst hb
    simp [Registry.register, hclosed]
  · simp [Registry.register, hb]

/-- A call evicts entries. -/
theorem evicts {r' : Registry K} {toClose : List ℕ}
    (hevicts : Evicts r toClose r') : r'.Sound fun e => doomed e ∨ e ∈ toClose := by
  induction hevicts generalizing doomed with
  | nothing => exact h.mono fun e he => he.resolve_right (List.not_mem_nil)
  | @more r toClose _ _ gone htoClose hidle _ ih =>
    have hretired : (r.retire gone).Sound fun e => doomed e ∨ e ∈ toClose := by
      refine h.retire gone fun e he => he.imp id fun he => ?_
      obtain ⟨key, hkey, hgone⟩ := (htoClose e).1 he
      exact ⟨hidle key e hkey hgone, key, hkey, hgone⟩
    refine (ih hretired).mono fun e he => ?_
    rw [List.mem_append, ← or_assoc] at he
    exact he

end Sound

/-! ### What has nothing to do with builds -/

/-- Two registries with the same builds, and the same entries for their runners. -/
structure SameBuilds (r r' : Registry K) : Prop where
  pending : r'.pending = r.pending
  done : ∀ b, r'.closings (.done b) = r.closings (.done b)
  buildCount : r'.buildCount = r.buildCount
  entryCount : r'.entryCount = r.entryCount
  runner : ∀ e, (r'.entry e).runner = (r.entry e).runner

namespace SameBuilds

variable {r : Registry K}

omit [DecidableEq K] in
theorem refl : r.SameBuilds r := ⟨rfl, fun _ => rfl, rfl, rfl, fun _ => rfl⟩

omit [DecidableEq K] in
/-- `entry.close()`. -/
theorem closeEntry (closeErr : Bool) (e : ℕ) : r.SameBuilds (r.closeEntry closeErr e) := by
  refine ⟨?_, fun b => ?_, ?_, ?_, fun _ => ?_⟩
  · rw [closeEntry_rest]
  · rw [closeEntry_rest]
  · rw [closeEntry_rest]
  · rw [closeEntry_rest]
  · rw [closeEntry_entry]

omit [DecidableEq K] in
/-- `acquireOnce` lends an entry. -/
theorem retain (now : ℤ) (e : ℕ) : r.SameBuilds ((r.retainLocked now e).lend e) := by
  refine ⟨rfl, fun _ => rfl, rfl, rfl, fun e' => ?_⟩
  change ((r.retainLocked now e).entry e').runner = (r.entry e').runner
  by_cases he' : e' = e
  · subst he'
    simp [retainLocked]
  · simp [retainLocked, he']

/-- A call evicts entries. -/
theorem evicts {r' : Registry K} {toClose : List ℕ} (h : Evicts r toClose r') :
    r.SameBuilds r' := by
  have hsame := SameBut.of_evicts h
  refine ⟨?_, fun b => ?_, ?_, ?_, fun e => ?_⟩
  · rw [hsame.rest]
  · rw [hsame.rest]
  · rw [hsame.rest]
  · rw [hsame.rest]
  · rw [hsame.entry]

omit [DecidableEq K] in
/-- `Release`. -/
theorem release (now : ℤ) (l : ℕ) :
    r.SameBuilds ((r.takeOnce l).releaseEntry now l (r.lease l).entry).2 := by
  refine ⟨?_, fun b => ?_, ?_, ?_, fun e => ?_⟩
  · rw [releaseEntry_rest]
    rfl
  · exact releaseEntry_closings _ _ _ _ nofun
  · rw [releaseEntry_rest]
    rfl
  · rw [releaseEntry_rest]
    rfl
  · rw [releaseEntry_entry]
    rfl

end SameBuilds

omit [DecidableEq K]

/-- The runner of a new entry, and those of the old ones. -/
theorem runner_allocate (entry : Entry) {e : ℕ} (he : e < r.entryCount + 1) :
    ((r.allocate entry).entry e).runner = entry.runner ∨
      e < r.entryCount ∧ ((r.allocate entry).entry e).runner = (r.entry e).runner := by
  rcases Nat.lt_succ_iff_lt_or_eq.1 he with he | rfl
  · exact .inr ⟨he, by simp [allocate, Nat.ne_of_lt he]⟩
  · exact .inl (by simp [allocate])

/-- `release` does not close the registry, runs once, lends nothing, and finishes no build. -/
theorem releaseEntry_phase (now : ℤ) (l e : ℕ) : let phase := (r.releaseEntry now l e).1
    phase.closer = false ∧ phase.releases = none ∧ phase.lease = none ∧ phase.token = none := by
  unfold releaseEntry
  split_ifs <;> exact ⟨rfl, rfl, rfl, rfl⟩

end Registry

end AgentService.Runners
