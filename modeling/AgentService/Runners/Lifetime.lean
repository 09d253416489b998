import AgentService.Runners.Sound

/-!
# Runners are not closed while they are used

The calls on a registry share it safely: `Safe` is what holds of the registry together with the
phases of its calls, in every state of every run. A build is finished by the one call that has
started it (`Building`), and the registry is closed by one call (`Closing`); so no channel is closed
twice, and a runner gets one entry.

`runner_lifetime` is the result: whatever happens next in a run, `Close` of a runner is not called
as long as `Release` of one of its leases has not been, and never twice, and no channel is closed
twice.
-/

namespace AgentService.Runners

open Concurrent Function Registry SameBut

variable {K : Type} [DecidableEq K]

namespace System

variable {s : System K} {i : ℕ} {phase : Phase K} {r : Registry K}

omit [DecidableEq K] in
/-- The phases after a step of a call. -/
theorem phase_goes (s : System K) (i : ℕ) (phase : Phase K) (r : Registry K) (j : ℕ) :
    (s.goes i phase r).phase j = if j = i then phase else s.phase j :=
  update_apply _ _ _ _

omit [DecidableEq K] in
/-- Where a call gets nothing new, nothing new is owned. -/
theorem of_phase_goes {α : Type} {P : Phase K → α → Prop} {a : α}
    (hsub : P phase a → P (s.phase i) a) {j : ℕ} (h : P ((s.goes i phase r).phase j) a) :
    P (s.phase j) a := by
  rw [phase_goes] at h
  split_ifs at h with hj
  · rw [hj]
    exact hsub h
  · exact h

/-- An entry that some call is going to close. -/
def Doomed (s : System K) (e : ℕ) : Prop := ∃ i, e ∈ (s.phase i).toClose

omit [DecidableEq K] in
/-- What is going to be closed after a step. -/
theorem doomed_of_goes {e : ℕ} (h : (s.goes i phase r).Doomed e) :
    s.Doomed e ∨ e ∈ phase.toClose := by
  obtain ⟨j, hj⟩ := h
  rw [phase_goes] at hj
  split_ifs at hj with hji
  · exact .inr hj
  · exact .inl ⟨j, hj⟩

/-! ## Builds -/

/-- The builds that have not been finished, and the calls that are going to finish them. -/
structure Building (s : System K) : Prop where
  /-- A call finishes a build that is pending, has not been finished, and has no entry. -/
  token : ∀ i key b, (s.phase i).token = some (key, b) →
    s.registry.pending.lookup key = some b ∧ s.registry.closings (.done b) = 0 ∧
      ∀ e < s.registry.entryCount, (s.registry.entry e).runner ≠ b
  /-- Only one call finishes a build. -/
  token_inj : ∀ i j key key' b, (s.phase i).token = some (key, b) →
    (s.phase j).token = some (key', b) → i = j
  /-- The builds that are pending have been started. -/
  pending_lt : ∀ key b, s.registry.pending.lookup key = some b → b < s.registry.buildCount
  /-- A build that has not been started has not been finished. -/
  unfinished : ∀ b, s.registry.buildCount ≤ b → s.registry.closings (.done b) = 0

/-- A step that has nothing to do with builds. -/
theorem Building.congr (h : s.Building)
    (htoken : phase.token = none ∨ phase.token = (s.phase i).token)
    (hsame : s.registry.SameBuilds r) : (s.goes i phase r).Building := by
  have hold : ∀ {j key b}, ((s.goes i phase r).phase j).token = some (key, b) →
      (s.phase j).token = some (key, b) := by
    intro j key b
    refine of_phase_goes (P := fun phase t => phase.token = some t) fun hphase => ?_
    rcases htoken with hnone | hsame
    · rw [hnone] at hphase
      cases hphase
    · exact hsame ▸ hphase
  refine ⟨?_, ?_, ?_, ?_⟩
  · intro j key b hj
    obtain ⟨hkey, hopen, hnew⟩ := h.token j key b (hold hj)
    refine ⟨hsame.pending ▸ hkey, (hsame.done b).trans hopen, fun e he heq => ?_⟩
    exact hnew e (hsame.entryCount ▸ he) ((hsame.runner e).symm.trans heq)
  · exact fun j j' key key' b hj hj' => h.token_inj j j' key key' b (hold hj) (hold hj')
  · intro key b hb
    change r.pending.lookup key = some b at hb
    rw [hsame.pending] at hb
    exact hsame.buildCount ▸ h.pending_lt key b hb
  · intro b hb
    exact (hsame.done b).trans (h.unfinished b (hsame.buildCount ▸ hb))

/-- A call starts a build. -/
theorem Building.register (h : s.Building) {key : K} (hkey : s.registry.pending.lookup key = none)
    (hrunner : ∀ e < s.registry.entryCount, (s.registry.entry e).runner < s.registry.buildCount)
    (htoken : phase.token = some (key, s.registry.buildCount)) :
    (s.goes i phase (s.registry.register key)).Building := by
  -- the token of the call is the new build, and the others have older ones under other keys
  have hcases : ∀ {j key' b}, ((s.goes i phase (s.registry.register key)).phase j).token =
      some (key', b) → (j = i ∧ key' = key ∧ b = s.registry.buildCount) ∨
        ((s.phase j).token = some (key', b) ∧ key' ≠ key ∧ b < s.registry.buildCount) := by
    intro j key' b hj
    rw [phase_goes] at hj
    split_ifs at hj with hji
    · rw [htoken] at hj
      cases hj
      exact .inl ⟨hji, rfl, rfl⟩
    · obtain ⟨hkey', -, -⟩ := h.token j key' b hj
      refine .inr ⟨hj, ?_, h.pending_lt key' b hkey'⟩
      rintro rfl
      rw [hkey] at hkey'
      cases hkey'
  refine ⟨?_, ?_, ?_, ?_⟩
  · intro j key' b hj
    rcases hcases hj with ⟨-, rfl, rfl⟩ | ⟨hold, hne, hlt⟩
    · refine ⟨AList.lookup_insert _, h.unfinished _ (Nat.le_refl _), fun e he => ?_⟩
      exact Nat.ne_of_lt (hrunner e he)
    · obtain ⟨hkey', hopen, hnew⟩ := h.token j key' b hold
      exact ⟨(AList.lookup_insert_ne hne).trans hkey', hopen, hnew⟩
  · intro j j' key1 key2 b hj hj'
    rcases hcases hj with ⟨hji, -, hb⟩ | ⟨hold, -, hlt⟩
    · rcases hcases hj' with ⟨hji', -, -⟩ | ⟨-, -, hlt'⟩
      · rw [hji, hji']
      · exact absurd hb (Nat.ne_of_lt hlt')
    · rcases hcases hj' with ⟨-, -, hb'⟩ | ⟨hold', -, -⟩
      · exact absurd hb' (Nat.ne_of_lt hlt)
      · exact h.token_inj j j' key1 key2 b hold hold'
  · intro key' b hb
    rcases Go.lookup_insert_eq_some.1 hb with ⟨-, rfl⟩ | ⟨-, hb⟩
    · exact Nat.lt_succ_self _
    · exact Nat.lt_succ_of_lt (h.pending_lt key' b hb)
  · exact fun b hb => h.unfinished b (Nat.le_of_succ_le hb)

/-- A call finishes a build. -/
theorem Building.finish (h : s.Building) {key : K} {b : ℕ}
    (hi : (s.phase i).token = some (key, b)) (htoken : phase.token = none)
    (hpending : r.pending = s.registry.pending.erase key)
    (hdone : ∀ b', b' ≠ b → r.closings (.done b') = s.registry.closings (.done b'))
    (hbuildCount : r.buildCount = s.registry.buildCount)
    (hrunner : ∀ e < r.entryCount, (r.entry e).runner = b ∨
      e < s.registry.entryCount ∧ (r.entry e).runner = (s.registry.entry e).runner) :
    (s.goes i phase r).Building := by
  obtain ⟨hkey, -, -⟩ := h.token i key b hi
  have hcases : ∀ {j key' b'}, ((s.goes i phase r).phase j).token = some (key', b') →
      (s.phase j).token = some (key', b') ∧ key' ≠ key ∧ b' ≠ b := by
    intro j key' b' hj
    rw [phase_goes] at hj
    split_ifs at hj with hji
    · rw [htoken] at hj
      cases hj
    have hb : b' ≠ b := by
      rintro rfl
      exact hji (h.token_inj j i key' key b' hj hi)
    refine ⟨hj, ?_, hb⟩
    rintro rfl
    obtain ⟨hkey', -, -⟩ := h.token j key' b' hj
    rw [hkey] at hkey'
    exact hb (Option.some.inj hkey').symm
  refine ⟨?_, ?_, ?_, ?_⟩
  · intro j key' b' hj
    obtain ⟨hold, hne, hb⟩ := hcases hj
    obtain ⟨hkey', hopen, hnew⟩ := h.token j key' b' hold
    refine ⟨?_, (hdone b' hb).trans hopen, fun e he heq => ?_⟩
    · change r.pending.lookup key' = some b'
      rw [hpending]
      exact Go.lookup_erase_eq_some.2 ⟨hkey', hne.symm⟩
    · rcases hrunner e he with hself | ⟨hlt, hsame⟩
      · exact hb (heq.symm.trans hself)
      · exact hnew e hlt (hsame.symm.trans heq)
  · intro j j' key1 key2 b' hj hj'
    exact h.token_inj j j' key1 key2 b' (hcases hj).1 (hcases hj').1
  · intro key' b' hb'
    change r.pending.lookup key' = some b' at hb'
    change b' < r.buildCount
    rw [hpending] at hb'
    rw [hbuildCount]
    exact h.pending_lt key' b' (Go.lookup_erase_eq_some.1 hb').1
  · intro b' hb'
    change r.buildCount ≤ b' at hb'
    rw [hbuildCount] at hb'
    have hne : b' ≠ b := Nat.ne_of_gt (Nat.lt_of_lt_of_le (h.pending_lt key b hkey) hb')
    exact (hdone b' hne).trans (h.unfinished b' hb')

/-! ## The closing of the registry -/

/-- The call that closes the registry. -/
structure Closing (s : System K) : Prop where
  /-- There is only one. -/
  closer_inj : ∀ i j, (s.phase i).closer = true → (s.phase j).closer = true → i = j
  /-- It has started, and has not finished. -/
  closer : ∀ i, (s.phase i).closer = true →
    s.registry.closeStarted = true ∧ s.registry.closings .closeDone = 0
  /-- What has not started has not finished. -/
  unfinished : s.registry.closeStarted = false → s.registry.closings .closeDone = 0

omit [DecidableEq K] in
/-- A step that has nothing to do with the closing. -/
theorem Closing.congr (h : s.Closing)
    (hcloser : phase.closer = false ∨ phase.closer = (s.phase i).closer)
    (hstarted : r.closeStarted = s.registry.closeStarted)
    (hdone : r.closings .closeDone = s.registry.closings .closeDone) :
    (s.goes i phase r).Closing := by
  have hold : ∀ {j}, ((s.goes i phase r).phase j).closer = true → (s.phase j).closer = true := by
    intro j
    refine of_phase_goes (P := fun phase closer => phase.closer = closer) fun hphase => ?_
    rcases hcloser with hnone | hsame
    · rw [hnone] at hphase
      cases hphase
    · exact hsame ▸ hphase
  refine ⟨fun j j' hj hj' => h.closer_inj j j' (hold hj) (hold hj'), fun j hj => ?_, fun hnot => ?_⟩
  · obtain ⟨hstarted', hopen⟩ := h.closer j (hold hj)
    exact ⟨hstarted.trans hstarted', hdone.trans hopen⟩
  · exact hdone.trans (h.unfinished (hstarted.symm.trans hnot))

omit [DecidableEq K] in
/-- A call starts the closing. -/
theorem Closing.start (h : s.Closing) (hnot : s.registry.closeStarted = false)
    (hstarted : r.closeStarted = true)
    (hdone : r.closings .closeDone = s.registry.closings .closeDone) :
    (s.goes i phase r).Closing := by
  have honly : ∀ {j}, ((s.goes i phase r).phase j).closer = true → j = i := by
    intro j hj
    rw [phase_goes] at hj
    split_ifs at hj with hji
    · exact hji
    · have hstarted' := (h.closer j hj).1
      rw [hnot] at hstarted'
      cases hstarted'
  have hopen : r.closings .closeDone = 0 := hdone.trans (h.unfinished hnot)
  exact ⟨fun j _ hj hj' => (honly hj).trans (honly hj').symm, fun _ _ => ⟨hstarted, hopen⟩,
    fun _ => hopen⟩

omit [DecidableEq K] in
/-- A call finishes the closing. -/
theorem Closing.finish (h : s.Closing) (hi : (s.phase i).closer = true)
    (hcloser : phase.closer = false) (hstarted : r.closeStarted = s.registry.closeStarted) :
    (s.goes i phase r).Closing := by
  have hnone : ∀ {j}, ((s.goes i phase r).phase j).closer ≠ true := by
    intro j hj
    rw [phase_goes] at hj
    split_ifs at hj with hji
    · rw [hcloser] at hj
      cases hj
    · exact hji (h.closer_inj j i hj hi)
  refine ⟨fun j _ hj => absurd hj hnone, fun j hj => absurd hj hnone, fun hnot => ?_⟩
  have hstarted' := hstarted.trans (h.closer i hi).1
  exact absurd (hstarted'.symm.trans hnot) nofun

end System

/-! ## Steps -/

omit [DecidableEq K] in
/-- Only a call of `Release` starts with a lease. -/
theorem Op.eq_release_of_start {op : Op K} {l : ℕ} (h : op.start.releases = some l) :
    op = .release l := by
  cases op with
  | release =>
    cases h
    rfl
  | invalidateMatching predicate => cases predicate <;> cases h
  | acquire | invalidate | close => cases h

omit [DecidableEq K] in
/-- No call starts with a lease that it returns. -/
theorem Op.start_lease (op : Op K) {t : K × ℕ} : op.start.lease ≠ some t := by
  cases op with
  | invalidateMatching predicate => cases predicate <;> exact nofun
  | acquire | release | invalidate | close => exact nofun

/-- What a call closes is retired. -/
theorem Registry.Sound.retired_of_closable {r : Registry K} {doomed : ℕ → Prop}
    (h : r.Sound doomed) {phase : Phase K} (hdoomed : ∀ e ∈ phase.toClose, doomed e) {e : ℕ}
    (hclosable : e ∈ phase.toClose ∨ r.zeroClosed e = true) : r.Retired e := by
  rcases hclosable with hmem | hzero
  · exact h.retired e (.inl (hdoomed e hmem))
  · obtain ⟨generation, -, hclosed⟩ := (Option.any_eq_true _ _).1 hzero
    exact h.zeroUsed e generation (by simpa [chanClosed] using hclosed)

variable {r r' : Registry K}

/-- A step of a call keeps the registry sound. -/
theorem Act.sound {phase phase' : Phase K} (hact : Act r phase phase' r')
    {doomed : ℕ → Prop} (h : r.Sound doomed) (hdoomed : ∀ e ∈ phase.toClose, doomed e)
    (htoken : ∀ key b, phase.token = some (key, b) → b < r.buildCount ∧
      r.closings (.done b) = 0 ∧ ∀ e < r.entryCount, (r.entry e).runner ≠ b)
    (hcloser : phase.closer = true → r.closings .closeDone = 0)
    (hreleases : ∀ l, phase.releases = some l → l < r.leaseCount) :
    r'.Sound fun e => doomed e ∨ e ∈ phase'.toClose := by
  -- where the call is not going to close anything new
  have hmono : ∀ {r : Registry K} {phase' : Phase K}, r.Sound doomed →
      (∀ e ∈ phase'.toClose, doomed e) → r.Sound fun e => doomed e ∨ e ∈ phase'.toClose :=
    fun h hsub => h.mono fun e he => he.elim id (hsub e)
  have hnil : ∀ {phase' : Phase K}, phase'.toClose = [] → ∀ e ∈ phase'.toClose, doomed e := by
    intro phase' hphase' e he
    rw [hphase'] at he
    cases he
  cases hact with
  | stays _ htoClose => exact hmono h (htoClose ▸ hdoomed)
  | stored =>
    exact hmono (h.congr rfl rfl rfl rfl rfl rfl rfl (Nat.le_refl _) fun _ => rfl) (hnil rfl)
  | closes closeErr _ _ hclosable hsub =>
    have hretired := h.retired_of_closable hdoomed hclosable
    exact hmono (h.closeEntry hretired closeErr) fun e' he' => hdoomed e' (hsub e' he')
  | retained now _ hentry => exact hmono (h.retain hentry now) (hnil rfl)
  | evicted hevicts => exact h.evicts hevicts
  | registered hevicts =>
    have hevicted := h.evicts hevicts
    refine hevicted.register (fun e he => ?_) _
    exact Nat.ne_of_lt (hevicted.accounted.closes e he).1
  | @made key b err returned =>
    refine hmono (h.congr rfl rfl rfl rfl rfl rfl rfl (Nat.le_refl _) fun b' => ?_) (hnil rfl)
    by_cases hb' : b' = b
    · subst hb'
      simp
    · simp [hb']
  | published now hclosed =>
    obtain ⟨hlt, hopen, hnew⟩ := htoken _ _ rfl
    exact hmono (h.publish hlt hnew hclosed hopen now _) (hnil rfl)
  | rejected =>
    obtain ⟨hlt, hopen, hnew⟩ := htoken _ _ rfl
    refine (h.abandon hopen _).allocate hlt hnew fun e he => he.imp id fun he => ?_
    exact List.mem_singleton.1 he
  | abandoned _ hquiet =>
    obtain ⟨-, hopen, -⟩ := htoken _ _ rfl
    exact hmono (h.abandon hopen _) (hnil hquiet.toClose)
  | flagged => exact hmono (h.flag _) (hnil rfl)
  | invalidated which _ _ _ _ _ htoClose =>
    refine (h.flag which).retire _ fun e he => he.imp id fun he => ?_
    exact (htoClose e).1 he
  | @closeStarted toClose _ _ _ _ htoClose =>
    have hretired : ((r.flag fun _ => true).retire fun _ _ => true).Sound
        fun e => doomed e ∨ e ∈ toClose := by
      refine (h.flag fun _ => true).retire _ fun e he => he.imp id fun he => ?_
      obtain ⟨hrefs, key, hkey⟩ := (htoClose e).1 he
      exact ⟨hrefs, key, hkey, rfl⟩
    refine hretired.close fun key => ?_
    rw [Option.eq_none_iff_forall_ne_some]
    intro e hkey
    exact absurd (lookup_retire.1 hkey).2 nofun
  | released now honce => exact h.release (hreleases _ rfl) honce now
  | closeFinished =>
    have hset : ∀ err, Sound { r with closeErr := err } doomed := fun err =>
      h.congr rfl rfl rfl rfl rfl rfl rfl (Nat.le_refl _) fun _ => rfl
    exact hmono ((hset _).closeChan (fun e _ => Chan.noConfusion) (hcloser rfl)) (hnil rfl)

/-- A step closes only a runner that nobody uses. -/
theorem Act.closes_runner {phase phase' : Phase K} (hact : Act r phase phase' r')
    {doomed : ℕ → Prop} (h : r.Sound doomed) (hdoomed : ∀ e ∈ phase.toClose, doomed e) (b : ℕ) :
    (r'.build b).closes = (r.build b).closes ∨ ∃ e, r.Retired e ∧ (r.entry e).runner = b := by
  cases hact with
  | closes _ e _ hclosable =>
    by_cases hb : (r.entry e).runner = b
    · exact .inr ⟨e, h.retired_of_closable hdoomed hclosable, hb⟩
    · refine .inl ?_
      unfold closeEntry
      dsimp only
      split_ifs
      · rfl
      · exact congrArg Build.closes (update_of_ne (Ne.symm hb) _ _)
  | @registered r1 key toClose hevicts hentry hpending hroom =>
    have hsame := of_evicts hevicts
    have hbuild : r1.build = r.build := by rw [hsame.rest]
    have hcount : r1.buildCount = r.buildCount := by rw [hsame.rest]
    refine .inl ?_
    by_cases hb : b = r.buildCount
    · have hzero := h.accounted.unborn r.buildCount fun e he =>
        Nat.ne_of_lt (h.accounted.closes e he).1
      rw [hb]
      simp [register, hcount, hzero]
    · simp [register, hcount, hbuild, hb]
  | @made key b' err returned =>
    refine .inl ?_
    by_cases hb : b = b'
    · subst hb
      simp
    · simp [hb]
  | evicted hevicts =>
    rw [(of_evicts hevicts).rest]
    exact .inl rfl
  | released =>
    rw [releaseEntry_rest]
    exact .inl rfl
  | flagged =>
    refine .inl ?_
    unfold flag
    dsimp only
    split_ifs <;> rfl
  | invalidated =>
    refine .inl ?_
    unfold retire flag
    dsimp only
    split_ifs <;> rfl
  | closeStarted =>
    refine .inl ?_
    unfold retire flag
    dsimp only
    split_ifs <;> rfl
  | stays | stored | retained | published | rejected | abandoned | closeFinished => exact .inl rfl

/-- `Release` goes on with the lease that it was called of, only it releases that lease, and leases
do not go away. -/
theorem Act.releases_lease {phase phase' : Phase K} (hact : Act r phase phase' r') :
    (∀ l, phase'.releases = some l → phase.releases = some l) ∧ r.leaseCount ≤ r'.leaseCount ∧
      ∀ l, (r'.lease l).once = true → (r.lease l).once = true ∨ phase.releases = some l := by
  have hlend : ∀ {r : Registry K} (e l : ℕ), ((r.lend e).lease l).once = true →
      (r.lease l).once = true := by
    intro r e l hl
    by_cases hl' : l = r.leaseCount
    · subst hl'
      simp [lend] at hl
    · simpa [lend, hl'] using hl
  have hnone : ∀ l, (none : Option ℕ) = some l → phase.releases = some l := fun l hl =>
    absurd hl.symm (Option.some_ne_none l)
  cases hact with
  | stays hkeeps => exact ⟨hkeeps.releases, Nat.le_refl _, fun l hl => .inl hl⟩
  | closes _ _ hkeeps =>
    rw [closeEntry_rest]
    exact ⟨hkeeps.releases, Nat.le_refl _, fun l hl => .inl hl⟩
  | retained => exact ⟨hnone, Nat.le_succ _, fun l hl => .inl (hlend _ l hl)⟩
  | published => exact ⟨hnone, Nat.le_succ _, fun l hl => .inl (hlend _ l hl)⟩
  | evicted hevicts =>
    rw [(of_evicts hevicts).rest]
    exact ⟨hnone, Nat.le_refl _, fun l hl => .inl hl⟩
  | registered hevicts =>
    rw [(of_evicts hevicts).rest]
    exact ⟨hnone, Nat.le_refl _, fun l hl => .inl hl⟩
  | abandoned _ hquiet =>
    refine ⟨fun l hl => ?_, Nat.le_refl _, fun l hl => .inl hl⟩
    rw [hquiet.releases] at hl
    cases hl
  | invalidated _ _ _ _ hreleases =>
    refine ⟨fun l hl => ?_, Nat.le_refl _, fun l hl => .inl hl⟩
    rw [hreleases] at hl
    cases hl
  | @released l now honce =>
    refine ⟨fun l' hl' => ?_, ?_, fun l' hl' => ?_⟩
    · rw [(releaseEntry_phase ..).2.1] at hl'
      cases hl'
    · rw [releaseEntry_rest]
      exact Nat.le_refl _
    · rw [releaseEntry_rest] at hl'
      by_cases hll' : l' = l
      · exact .inr (congrArg some hll'.symm)
      · exact .inl (by simpa [takeOnce, hll'] using hl')
  | stored | made | rejected | flagged | closeStarted | closeFinished =>
    exact ⟨hnone, Nat.le_refl _, fun l hl => .inl hl⟩

namespace System

variable {s : System K} {i : ℕ}

/-- A step of a call keeps the account of the builds. -/
theorem Building.goes (h : s.Building) {doomed : ℕ → Prop} (hsound : s.registry.Sound doomed)
    {r r' : Registry K} {phase phase' : Phase K} (hr : s.registry = r) (hi : s.phase i = phase)
    (hact : Act r phase phase' r') : (s.goes i phase' r').Building := by
  subst hr
  cases hact with
  | stays hkeeps => exact h.congr (.inr (hi ▸ hkeeps.token)) .refl
  | stored => exact h.congr (.inl rfl) ⟨rfl, fun _ => rfl, rfl, rfl, fun _ => rfl⟩
  | closes _ _ hkeeps =>
    exact h.congr (.inr (hi ▸ hkeeps.token)) (.closeEntry _ _)
  | retained => exact h.congr (.inl rfl) (.retain _ _)
  | evicted hevicts => exact h.congr (.inl rfl) (.evicts hevicts)
  | @registered r1 key toClose hevicts hentry hpending hroom =>
    -- first the evictions, with the call where it is, and then the new build
    have hsame := SameBuilds.evicts hevicts
    have hevicted : (s.goes i (s.phase i) r1).Building := h.congr (.inr rfl) hsame
    have hnone : r1.pending.lookup key = none := hsame.pending ▸ hpending
    have hregistered : ((s.goes i (s.phase i) r1).goes i
        (.evicting key toClose (some r1.buildCount)) (r1.register key)).Building :=
      hevicted.register hnone (fun e he => ((hsound.evicts hevicts).accounted.closes e he).1) rfl
    unfold System.goes at hregistered ⊢
    rwa [update_idem] at hregistered
  | made => exact h.congr (.inr (hi ▸ rfl)) ⟨rfl, fun _ => rfl, rfl, rfl, fun _ => rfl⟩
  | @published key b err now hclosed hbuild =>
    have htoken : (s.phase i).token = some (key, b) := by rw [hi]; rfl
    refine h.finish htoken rfl rfl (fun b' hb' => ?_) rfl fun e he => ?_
    · exact update_of_ne (fun heq => hb' (Chan.done.inj heq)) _ _
    · exact s.registry.runner_allocate _ he
  | @rejected key b err err' =>
    have htoken : (s.phase i).token = some (key, b) := by rw [hi]; rfl
    refine h.finish htoken rfl rfl (fun b' hb' => ?_) rfl fun e he => ?_
    · exact update_of_ne (fun heq => hb' (Chan.done.inj heq)) _ _
    · exact s.registry.runner_allocate _ he
  | @abandoned key b _ _ _ hquiet =>
    have htoken : (s.phase i).token = some (key, b) := by rw [hi]; rfl
    refine h.finish htoken hquiet.token rfl (fun b' hb' => ?_) rfl fun e he => .inr ⟨he, rfl⟩
    exact update_of_ne (fun heq => hb' (Chan.done.inj heq)) _ _
  | flagged => exact h.congr (.inl rfl) ⟨rfl, fun _ => rfl, rfl, rfl, fun _ => rfl⟩
  | invalidated which _ htoken =>
    exact h.congr (.inl htoken) ⟨rfl, fun _ => rfl, rfl, rfl, fun e =>
      ((s.registry.flag which).retire_entry _ e).2.2.2.1⟩
  | closeStarted =>
    exact h.congr (.inl rfl) ⟨rfl, fun _ => rfl, rfl, rfl, fun e =>
      (retire_entry _ _ e).2.2.2.1⟩
  | released => exact h.congr (.inl (releaseEntry_phase ..).2.2.2) (.release _ _)
  | closeFinished =>
    refine h.congr (.inl rfl) ⟨rfl, fun b => ?_, rfl, rfl, fun _ => rfl⟩
    simp [finishClose, closeChan]

/-- A step of a call keeps the account of the closing. -/
theorem Closing.goes (h : s.Closing) {r r' : Registry K} {phase phase' : Phase K}
    (hr : s.registry = r) (hi : s.phase i = phase) (hact : Act r phase phase' r') :
    (s.goes i phase' r').Closing := by
  subst hr
  cases hact with
  | stays hkeeps => exact h.congr (.inr (hi ▸ hkeeps.closer)) rfl rfl
  | stored => exact h.congr (.inl rfl) rfl rfl
  | closes _ _ hkeeps =>
    refine h.congr (.inr (hi ▸ hkeeps.closer)) ?_ ?_
    · rw [closeEntry_rest]
    · rw [closeEntry_rest]
  | retained => exact h.congr (.inl rfl) rfl rfl
  | evicted hevicts =>
    have hsame := of_evicts hevicts
    refine h.congr (.inl rfl) ?_ ?_
    · rw [hsame.rest]
    · rw [hsame.rest]
  | @registered r1 key toClose hevicts hentry hpending hroom =>
    have hsame := of_evicts hevicts
    refine h.congr (.inl rfl) ?_ ?_
    · change r1.closeStarted = _
      rw [hsame.rest]
    · change r1.closings .closeDone = _
      rw [hsame.rest]
  | made => exact h.congr (.inl rfl) rfl rfl
  | @published key b err now hclosed hbuild =>
    refine h.congr (.inl rfl) rfl ?_
    simp [publish, lend, closeChan, allocate]
  | @rejected key b err err' =>
    refine h.congr (.inl rfl) rfl ?_
    simp [abandon, closeChan, allocate]
  | abandoned _ hquiet =>
    refine h.congr (.inl hquiet.closer) rfl ?_
    simp [abandon, closeChan]
  | flagged => exact h.congr (.inl rfl) rfl rfl
  | invalidated _ _ _ hcloser =>
    exact h.congr (.inl hcloser) rfl rfl
  | closeStarted hstarted => exact h.start hstarted rfl rfl
  | released =>
    refine h.congr (.inl (releaseEntry_phase ..).1) ?_ ?_
    · rw [releaseEntry_rest]
      rfl
    · exact releaseEntry_closings _ _ _ _ (fun _ _ h => by cases h)
  | closeFinished =>
    have hcloser : (s.phase i).closer = true := by rw [hi]; rfl
    exact h.finish hcloser rfl rfl

/-! ## Runs -/

/-- What holds in every state of every run. -/
structure Safe (s : System K) : Prop where
  /-- The registry is sound. -/
  sound : s.registry.Sound s.Doomed
  /-- The builds. -/
  building : s.Building
  closing : s.Closing
  /-- `Release` is called of a lease. -/
  releasing : ∀ i l, (s.phase i).releases = some l → l < s.registry.leaseCount
  /-- A call that has not started has nothing. -/
  idle : ∀ i, s.callCount ≤ i → s.phase i = .returned none

/-- A new registry. -/
theorem safe_initial (maxEntries : ℕ) (idleTTL : ℤ) : (initial K maxEntries idleTTL).Safe := by
  refine ⟨⟨?_, ?_, ?_, ?_, ?_, ?_, ?_, ?_, ?_, ?_⟩, ⟨?_, ?_, ?_, ?_⟩, ⟨?_, ?_, ?_⟩, ?_, ?_⟩
  · exact fun _ => rfl
  · exact fun l hl => absurd hl (Nat.not_lt_zero l)
  · exact fun key e he => absurd he nofun
  · exact fun key key' e he => absurd he nofun
  · exact fun hclosed => absurd hclosed nofun
  · rintro e (⟨j, hj⟩ | he)
    · exact absurd hj List.not_mem_nil
    · exact absurd he nofun
  · exact fun e he => absurd he (Nat.lt_irrefl 0)
  · exact fun e _ he => absurd rfl he
  · exact fun _ => Nat.zero_le 1
  · exact ⟨fun e he => absurd he (Nat.not_lt_zero e), fun e he => absurd he (Nat.not_lt_zero e),
      fun _ _ => rfl⟩
  · exact fun j key b hj => absurd hj nofun
  · exact fun j j' key key' b hj => absurd hj nofun
  · exact fun key b hb => absurd hb nofun
  · exact fun _ _ => rfl
  · exact fun j j' hj => absurd hj nofun
  · exact fun j hj => absurd hj nofun
  · exact fun _ => rfl
  · exact fun j l hj => absurd hj nofun
  · exact fun _ _ => rfl

/-- A call that has not started does not go on. -/
theorem next_of_idle (hi : s.phase i = .returned none) (choice : Choice K) :
    s.next (.step i choice) = s := by
  have hnext : s.registry.next choice (.returned none) = (.returned none, s.registry) := rfl
  have hphase : Function.update s.phase i (.returned none) = s.phase := by
    rw [← hi]
    exact update_eq_self i s.phase
  rw [System.next, System.goes, hi, hnext, hphase]

/-- A step of a call keeps everything. -/
theorem Safe.goes (h : s.Safe) (hi : i < s.callCount) {phase' : Phase K} {r' : Registry K}
    (hact : Act s.registry (s.phase i) phase' r') : (s.goes i phase' r').Safe := by
  obtain ⟨hreleases, hleaseCount, -⟩ := hact.releases_lease
  refine ⟨?_, h.building.goes h.sound rfl rfl hact, h.closing.goes rfl rfl hact, ?_, ?_⟩
  · refine (hact.sound h.sound (fun e he => ⟨i, he⟩) ?_ ?_ ?_).mono fun e he => doomed_of_goes he
    · intro key b hb
      obtain ⟨hpending, hopen, hnew⟩ := h.building.token i key b hb
      exact ⟨h.building.pending_lt key b hpending, hopen, hnew⟩
    · exact fun hcloser => (h.closing.closer i hcloser).2
    · exact h.releasing i
  · intro j l hj
    refine Nat.lt_of_lt_of_le (h.releasing j l ?_) hleaseCount
    exact of_phase_goes (P := fun phase l => phase.releases = some l) (hreleases l) hj
  · intro j hj
    rw [phase_goes, if_neg (Nat.ne_of_gt (Nat.lt_of_lt_of_le hi hj))]
    exact h.idle j hj

/-- A call starts. -/
theorem Safe.call (h : s.Safe) {op : Op K} (hop : s.canCall op = true) : Safe { s with
      phase := Function.update s.phase s.callCount op.start, callCount := s.callCount + 1 } := by
  have hstart : op.start.toClose = [] ∧ op.start.token = none ∧ op.start.closer = false := by
    cases op with
    | invalidateMatching predicate => cases predicate <;> exact ⟨rfl, rfl, rfl⟩
    | acquire | release | invalidate | close => exact ⟨rfl, rfl, rfl⟩
  have hbuilding : (s.goes s.callCount op.start s.registry).Building :=
    h.building.congr (.inl hstart.2.1) .refl
  have hclosing : (s.goes s.callCount op.start s.registry).Closing :=
    h.closing.congr (.inl hstart.2.2) rfl rfl
  refine ⟨h.sound.mono ?_, ⟨hbuilding.1, hbuilding.2, hbuilding.3, hbuilding.4⟩,
    ⟨hclosing.1, hclosing.2, hclosing.3⟩, ?_, ?_⟩
  · rintro e ⟨j, hj⟩
    have hdoomed : (s.goes s.callCount op.start s.registry).Doomed e := ⟨j, hj⟩
    refine (doomed_of_goes hdoomed).resolve_right ?_
    rw [hstart.1]
    exact List.not_mem_nil
  · intro j l hj
    change ((s.goes s.callCount op.start s.registry).phase j).releases = some l at hj
    rw [phase_goes] at hj
    split_ifs at hj with hjc
    · rw [Op.eq_release_of_start hj] at hop
      simpa [canCall] using hop
    · exact h.releasing j l hj
  · intro j hj
    have hne : j ≠ s.callCount := Nat.ne_of_gt hj
    exact (update_of_ne hne _ _).trans (h.idle j (Nat.le_of_succ_le hj))

/-- Every event keeps everything. -/
theorem Safe.next (h : s.Safe) (event : Event K) : (s.next event).Safe := by
  cases event with
  | call =>
    rw [System.next]
    split_ifs with hop
    · exact h.call hop
    · exact h
  | step i choice =>
    by_cases hi : i < s.callCount
    · exact h.goes hi (s.registry.next_spec choice (s.phase i))
    · rw [next_of_idle (h.idle i (Nat.le_of_not_lt hi))]
      exact h

/-- An event closes only a runner that nobody uses. -/
theorem Safe.closes_next (h : s.Safe) (event : Event K) (b : ℕ)
    (hcloses : ((s.next event).registry.build b).closes ≠ (s.registry.build b).closes) :
    ∃ e, s.registry.Retired e ∧ (s.registry.entry e).runner = b := by
  cases event with
  | call =>
    rw [registry_next_call] at hcloses
    exact absurd rfl hcloses
  | step i choice =>
    have hact := s.registry.next_spec choice (s.phase i)
    exact (hact.closes_runner h.sound (fun e he => ⟨i, he⟩) b).resolve_left hcloses

end System

variable (maxEntries : ℕ) (idleTTL : ℤ) (events : List (Event K))

/-- Every state of every run is safe. -/
theorem safe_after : ((registry K).after (initial K maxEntries idleTTL) events).Safe :=
  Server.invariant (S := registry K) (fun _ _ => True) (I := System.Safe)
    (System.safe_initial maxEntries idleTTL) (fun _ event _ h => h.next event)
    (fun _ _ => trivial)

/-- The leases of which `Release` runs or has run are those of which it has been called. -/
structure Called (steps : List (Server.Step (registry K))) (s : System K) : Prop where
  releasing : ∀ i l, (s.phase i).releases = some l → ∃ st ∈ steps, st.call = .call (.release l)
  once : ∀ l, (s.registry.lease l).once = true → ∃ st ∈ steps, st.call = .call (.release l)

/-- A new registry has no leases. -/
theorem called_initial : Called [] (initial K maxEntries idleTTL) :=
  ⟨fun _ _ hi => absurd hi nofun, fun _ hl => absurd hl nofun⟩

/-- Every event keeps to it. -/
theorem Called.next {steps : List (Server.Step (registry K))} {s : System K} (h : Called steps s)
    (event : Event K) : Called (steps ++ [(registry K).stepOf s event]) (s.next event) := by
  have hold : ∀ l, (∃ st ∈ steps, st.call = .call (.release l)) →
      ∃ st ∈ steps ++ [(registry K).stepOf s event], st.call = .call (.release l) := by
    rintro l ⟨st, hst, hcall⟩
    exact ⟨st, List.mem_append_left _ hst, hcall⟩
  cases event with
  | call op =>
    rw [System.next]
    split_ifs with hop
    · refine ⟨fun j l hj => ?_, fun l hl => hold l (h.once l hl)⟩
      change (Function.update s.phase s.callCount op.start j).releases = some l at hj
      by_cases hjc : j = s.callCount
      · rw [hjc, update_self] at hj
        refine ⟨_, List.mem_concat_self, ?_⟩
        rw [Op.eq_release_of_start hj]
        rfl
      · rw [update_of_ne hjc] at hj
        exact hold l (h.releasing j l hj)
    · exact ⟨fun j l hj => hold l (h.releasing j l hj), fun l hl => hold l (h.once l hl)⟩
  | step i choice =>
    obtain ⟨hreleases, -, honce⟩ := (s.registry.next_spec choice (s.phase i)).releases_lease
    refine ⟨fun j l hj => hold l (h.releasing j l ?_), fun l hl => hold l ?_⟩
    · exact System.of_phase_goes (P := fun phase l => phase.releases = some l) (hreleases l) hj
    · exact (honce l hl).elim (h.once l) (h.releasing i l)

/-- A lease has been released only if `Release` of it has been called. -/
theorem called_of_once (l : ℕ)
    (hl : (((registry K).after (initial K maxEntries idleTTL) events).registry.lease l).once = true) :
    .call (.release l) ∈ events := by
  have hcalled : Called ((registry K).history (initial K maxEntries idleTTL) events)
      ((registry K).after (initial K maxEntries idleTTL) events) :=
    Server.history_always (S := registry K) (J := Called) (called_initial maxEntries idleTTL)
      (fun _ _ event h => h.next event) events
  obtain ⟨_, hst, hcall⟩ := hcalled.once l hl
  exact hcall ▸ Server.call_mem_of_mem_history hst

/-- What the next event of a run respects. -/
structure LifetimeSafe (events : List (Event K)) (s s' : System K) : Prop where
  /-- `Close` of a runner is called only when `Release` of all its leases has been. -/
  released : ∀ b, (s'.registry.build b).closes ≠ (s.registry.build b).closes →
    ∀ l < s.registry.leaseCount, (s.registry.entry (s.registry.lease l).entry).runner = b →
      .call (.release l) ∈ events
  /-- No channel is closed twice. -/
  closings : ∀ c, s'.registry.closings c ≤ 1
  /-- `Close` of a runner is called at most once. -/
  closes : ∀ b, (s'.registry.build b).closes ≤ 1

/-- Runner lifetime safety: in every run, whatever happens next. -/
theorem runner_lifetime (maxEntries : ℕ) (idleTTL : ℤ) (events : List (Event K)) (event : Event K) :
    LifetimeSafe events ((registry K).after (initial K maxEntries idleTTL) events)
      ((registry K).after (initial K maxEntries idleTTL) (events ++ [event])) := by
  have hsafe := safe_after maxEntries idleTTL events
  have hcalled := called_of_once maxEntries idleTTL events
  have hsafe' := safe_after maxEntries idleTTL (events ++ [event])
  refine ⟨?_, hsafe'.sound.closings, fun b => ?_⟩
  · rw [Server.after_snoc]
    generalize (registry K).after (initial K maxEntries idleTTL) events = s at hsafe hcalled ⊢
    intro b hcloses l hl hb
    obtain ⟨e, hretired, hrunner⟩ := hsafe.closes_next event b hcloses
    -- the entry of the lease is the one that is closed, which has no lease left
    have hentry : (s.registry.lease l).entry = e :=
      hsafe.sound.accounted.runner_inj _ (hsafe.sound.lent l hl) e hretired.1
        (hb.trans hrunner.symm)
    refine hcalled l ?_
    by_contra honce
    have hpos := hsafe.sound.refs_pos hl (by simpa using honce)
    rw [hentry, hretired.2.1] at hpos
    exact Nat.lt_irrefl 0 hpos
  · exact hsafe'.sound.accounted.closes_le b

end AgentService.Runners
