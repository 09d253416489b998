import AgentService.Runners.Capacity

/-!
# Runners are not lost

Somebody has to close a runner in the end. `Kept` says who: an entry is in the map, or it has leases
and the last one is going to close it, or a call is going to close it, or it has been closed; and a
runner without an entry is still in the hands of the call that has built it. Every step hands on
what it takes, with one exception. When a runner's `Close` fails, `InvalidateMatching` returns at
once and forgets the other entries that it has taken out of the map.

So a runner is never lost in a run where that does not happen (`no_leak`), and `leaked` is a run
where it does.
-/

namespace AgentService.Runners

open Concurrent Function List

variable {K : Type} [DecidableEq K]

/-! ## The property -/

/-- No call on the registry is in progress. -/
def System.Quiet (s : System K) : Prop := ∀ i < s.callCount, (s.phase i).isReturned = true

/-- Where a runner is, when no call is in progress: in the map, lent, or closed exactly once. -/
def Registry.Accessible (r : Registry K) (b : ℕ) : Prop :=
  (∃ stored ∈ r.entries.entries, (r.entry stored.2).runner = b) ∨
    (∃ l < r.leaseCount, (r.lease l).once = false ∧ (r.entry (r.lease l).entry).runner = b) ∨
      (r.build b).closes = 1

/-- No runner that the factory has returned is lost. -/
def System.NoLeak (s : System K) : Prop :=
  s.Quiet → ∀ b < s.registry.buildCount, (s.registry.build b).returned = true →
    s.registry.Accessible b

instance (s : System K) : Decidable s.NoLeak := by
  unfold System.NoLeak System.Quiet Registry.Accessible
  infer_instance

/-- The entry that `InvalidateMatching` closes while it has others left to close. -/
def Phase.closesWithOthersLeft : Phase K → Option ℕ
  | .closingAll (e :: _ :: _) => some e
  | _ => none

/-- When `InvalidateMatching` closes an entry and has others left to close, the runner's `Close`
does not fail, and has not failed before. -/
def System.Clean (s : System K) : Event K → Prop
  | .call _ => True
  | .step i choice =>
    ∀ e ∈ (s.phase i).closesWithOthersLeft,
      choice.closeErr = false ∧ (s.registry.entry e).closeErr = false

instance (s : System K) (event : Event K) : Decidable (s.Clean event) := by
  cases event <;> unfold System.Clean <;> infer_instance

/-! ## Who closes what -/

omit [DecidableEq K] in
/-- A call that is not going to finish a build has no new runner. -/
theorem Phase.made_of_token {phase : Phase K} (h : phase.token = none) : phase.made = none := by
  cases phase <;> first | rfl | cases h

/-- Who closes the entries, for those that calls are going to close, and who has the runners, for
those that calls have built. -/
structure Registry.Kept (r : Registry K) (doomed built : ℕ → Prop) : Prop where
  /-- An entry with leases is in the map, or its last lease is going to close it. -/
  borrowed : ∀ e, 0 < (r.entry e).refs →
    (∃ key, r.entries.lookup key = some e) ∨ (r.entry e).invalidated = true
  /-- An entry is in the map, or lent, or closed, or is going to be closed. -/
  entry : ∀ e < r.entryCount, (∃ key, r.entries.lookup key = some e) ∨ 0 < (r.entry e).refs ∨
    (r.entry e).closeOnce = true ∨ doomed e
  /-- A runner has an entry, or is in the hands of a call. -/
  runner : ∀ b, (r.build b).returned = true →
    built b ∨ ∃ e < r.entryCount, (r.entry e).runner = b

namespace Registry.Kept

variable {r r' : Registry K} {doomed doomed' built built' : ℕ → Prop} (h : r.Kept doomed built)
include h

/-- More entries are going to be closed, and more runners are in the hands of calls. -/
theorem mono (hdoomed : ∀ e, doomed e → doomed' e)
    (hbuilt : ∀ b, built b → built' b) : r.Kept doomed' built' :=
  { h with
    entry := fun e he => (h.entry e he).imp id (.imp id (.imp id (hdoomed e)))
    runner := fun b hb => (h.runner b hb).imp (hbuilt b) id }

/-- What neither takes entries out of the map nor makes runners. -/
theorem congr (hentries : r'.entries = r.entries)
    (hcount : r'.entryCount = r.entryCount)
    (hrefs : ∀ e, (r.entry e).refs ≤ (r'.entry e).refs)
    (hborrowed : ∀ e, 0 < (r'.entry e).refs →
      0 < (r.entry e).refs ∨ ∃ key, r.entries.lookup key = some e)
    (hinvalid : ∀ e, (r.entry e).invalidated = true → (r'.entry e).invalidated = true)
    (honce : ∀ e, (r.entry e).closeOnce = true → (r'.entry e).closeOnce = true)
    (hrunner : ∀ e, (r'.entry e).runner = (r.entry e).runner)
    (hreturned : ∀ b, (r'.build b).returned = true → (r.build b).returned = true) :
    r'.Kept doomed built := by
  refine ⟨fun e he => ?_, fun e he => ?_, fun b hb => ?_⟩
  · rw [hentries]
    rcases hborrowed e he with he | hstored
    · exact (h.borrowed e he).imp id (hinvalid e)
    · exact .inl hstored
  · rw [hentries]
    refine (h.entry e (hcount ▸ he)).imp id (.imp ?_ (.imp (honce e) id))
    exact fun hpos => Nat.lt_of_lt_of_le hpos (hrefs e)
  · refine (h.runner b (hreturned b hb)).imp id fun ⟨e, he, heq⟩ => ?_
    exact ⟨e, hcount ▸ he, (hrunner e).trans heq⟩

/-- What only marks builds. -/
theorem flag (which : K → Bool) : (r.flag which).Kept doomed built := by
  refine h.congr rfl rfl (fun _ => Nat.le_refl _) (fun _ he => .inl he) (fun _ he => he)
    (fun _ he => he) (fun _ => rfl) fun b hb => ?_
  unfold Registry.flag at hb
  dsimp only at hb
  split_ifs at hb <;> exact hb

/-- A loop deletes from the map, and the idle ones of what it deletes are going to be closed. -/
theorem retire (gone : K → ℕ → Bool)
    (hdoomed : ∀ e, doomed e → doomed' e)
    (hgone : ∀ key e, r.entries.lookup key = some e → gone key e = true → (r.entry e).refs = 0 →
      doomed' e) : (r.retire gone).Kept doomed' built := by
  have hentry := r.retire_entry gone
  refine ⟨fun e he => ?_, fun e he => ?_, fun b hb => ?_⟩
  · rw [(hentry e).1] at he
    rw [(hentry e).2.2.2.2, Bool.or_eq_true]
    rcases h.borrowed e he with ⟨key, hkey⟩ | hinvalid
    · by_cases hg : gone key e = true
      · exact .inr (.inr (Registry.isGone_iff.2 ⟨key, hkey, hg⟩))
      · exact .inl ⟨key, Registry.lookup_retire.2 ⟨hkey, by simpa using hg⟩⟩
    · exact .inr (.inl hinvalid)
  · rw [(hentry e).1, (hentry e).2.2.1]
    rcases h.entry e he with ⟨key, hkey⟩ | hpos | honce | hdoom
    · by_cases hg : gone key e = true
      · by_cases hrefs : (r.entry e).refs = 0
        · exact .inr (.inr (.inr (hgone key e hkey hg hrefs)))
        · exact .inr (.inl (Nat.pos_of_ne_zero hrefs))
      · exact .inl ⟨key, Registry.lookup_retire.2 ⟨hkey, by simpa using hg⟩⟩
    · exact .inr (.inl hpos)
    · exact .inr (.inr (.inl honce))
    · exact .inr (.inr (.inr (hdoomed e hdoom)))
  · refine (h.runner b hb).imp id fun ⟨e, he, heq⟩ => ?_
    exact ⟨e, he, (hentry e).2.2.2.1.trans heq⟩

/-- A call evicts entries. -/
theorem evicts {toClose : List ℕ} (hevicts : Evicts r toClose r') :
    r'.Kept (fun e => doomed e ∨ e ∈ toClose) built := by
  induction hevicts generalizing doomed with
  | nothing => exact h.mono (fun e he => .inl he) fun b hb => hb
  | @more r toClose _ _ gone htoClose _ _ ih =>
    have hretired : (r.retire gone).Kept (fun e => doomed e ∨ e ∈ toClose) built :=
      h.retire gone (fun e he => .inl he) fun key e hkey hgone _ =>
        .inr ((htoClose e).2 ⟨key, hkey, hgone⟩)
    refine (ih hretired).mono (fun e he => ?_) fun b hb => hb
    rw [mem_append, ← or_assoc]
    exact he

/-- `entry.close()`, after which the entry need not be closed any more. -/
theorem closeEntry (closeErr : Bool) (e : ℕ) (hdoomed : ∀ e', doomed e' → e' = e ∨ doomed' e') :
    (r.closeEntry closeErr e).Kept doomed' built := by
  have hself : ((r.closeEntry closeErr e).entry e).closeOnce = true := by
    unfold Registry.closeEntry
    dsimp only
    split_ifs with honce
    · exact honce
    · simp
  have hkept : ∀ e', (r.entry e').closeOnce = true →
      ((r.closeEntry closeErr e).entry e').closeOnce = true := by
    intro e' honce
    by_cases he' : e' = e
    · rw [he']
      exact hself
    · unfold Registry.closeEntry
      dsimp only
      split_ifs
      · exact honce
      · simpa [he'] using honce
  have hclosed : (r.closeEntry closeErr e).Kept doomed built := by
    refine h.congr ?_ ?_ (fun e' => ?_) (fun e' he' => ?_) (fun e' he' => ?_) hkept (fun e' => ?_)
      fun b hb => ?_
    · rw [closeEntry_rest]
    · rw [closeEntry_rest]
    · rw [closeEntry_entry]
    · rw [closeEntry_entry] at he'
      exact .inl he'
    · rw [closeEntry_entry]
      exact he'
    · rw [closeEntry_entry]
    · rw [closeEntry_build] at hb
      exact hb
  refine { hclosed with entry := fun e' he' => ?_ }
  rcases hclosed.entry e' he' with hstored | hpos | honce | hdoom
  · exact .inl hstored
  · exact .inr (.inl hpos)
  · exact .inr (.inr (.inl honce))
  · rcases hdoomed e' hdoom with rfl | hdoom
    · exact .inr (.inr (.inl hself))
    · exact .inr (.inr (.inr hdoom))

/-- `acquireOnce` lends an entry of the map. -/
theorem retain {key : K} {e : ℕ} (hkey : r.entries.lookup key = some e)
    (now : ℤ) : ((r.retainLocked now e).lend e).Kept doomed built := by
  have hentry := r.retainLocked_entry now e
  refine h.congr rfl rfl (fun e' => ?_) (fun e' he' => ?_)
    (fun e' he' => (hentry e').2.1.trans he') (fun e' he' => (hentry e').2.2.1.trans he')
    (fun e' => (hentry e').2.2.2) fun b hb => hb
  · exact (Nat.le_add_right _ _).trans_eq (hentry e').1.symm
  · by_cases hee' : e = e'
    · exact .inr ⟨key, hee' ▸ hkey⟩
    · have hrefs := (hentry e').1
      rw [if_neg hee'] at hrefs
      exact .inl (Nat.lt_of_lt_of_eq he' hrefs)

/-- A new build has not returned. -/
theorem register (key : K) : (r.register key).Kept doomed built := by
  refine { h with runner := fun b hb => h.runner b ?_ }
  by_cases hb' : b = r.buildCount
  · subst hb'
    simp [Registry.register] at hb
  · simpa [Registry.register, hb'] using hb

/-- `finishRunnerBuild` takes a runner, which gets an entry that is going to be closed. -/
theorem reject {b : ℕ} (hbuilt : ∀ b', built b' → b' = b ∨ built' b')
    (hdoomed : ∀ e, doomed e → doomed' e) (hnew : doomed' r.entryCount) (key : K) :
    ((r.abandon key b).allocate { runner := b }).Kept doomed' built' := by
  have hself : ((r.abandon key b).allocate { runner := b }).entry r.entryCount =
      { runner := b } := update_self _ _ _
  have hother : ∀ e, e ≠ r.entryCount →
      ((r.abandon key b).allocate { runner := b }).entry e = r.entry e :=
    fun e he => update_of_ne he _ _
  refine ⟨fun e he => ?_, fun e he => ?_, fun b' hb' => ?_⟩
  · have hne : e ≠ r.entryCount := by
      rintro rfl
      rw [hself] at he
      exact Nat.lt_irrefl 0 he
    rw [hother e hne] at he ⊢
    exact h.borrowed e he
  · rcases Nat.lt_succ_iff_lt_or_eq.1 he with he | rfl
    · rw [hother e (Nat.ne_of_lt he)]
      exact (h.entry e he).imp id (.imp id (.imp id (hdoomed e)))
    · exact .inr (.inr (.inr hnew))
  · rcases h.runner b' hb' with hin | ⟨e, he, heq⟩
    · refine (hbuilt b' hin).symm.imp id fun heq => ⟨r.entryCount, Nat.lt_succ_self _, ?_⟩
      rw [hself, heq]
    · refine .inr ⟨e, Nat.lt_succ_of_lt he, ?_⟩
      rw [hother e (Nat.ne_of_lt he)]
      exact heq

/-- `finishRunnerBuild` puts a runner into the map, under a key that has no entry. -/
theorem publish {b : ℕ} (hbuilt : ∀ b', built b' → b' = b ∨ built' b') {key : K}
    (hkey : r.entries.lookup key = none) (now : ℤ) : (r.publish now key b).Kept doomed built' := by
  have hself : (r.publish now key b).entry r.entryCount =
      { runner := b, refs := 1, lastUsed := now, zero := some 0 } := update_self _ _ _
  have hother : ∀ e, e ≠ r.entryCount → (r.publish now key b).entry e = r.entry e :=
    fun e he => update_of_ne he _ _
  have hnew : (r.publish now key b).entries.lookup key = some r.entryCount := AList.lookup_insert _
  have hold : ∀ {key' e}, r.entries.lookup key' = some e →
      (r.publish now key b).entries.lookup key' = some e := by
    intro key' e hkey'
    have hne : key' ≠ key := by
      rintro rfl
      rw [hkey] at hkey'
      cases hkey'
    exact (AList.lookup_insert_ne hne).trans hkey'
  refine ⟨fun e he => ?_, fun e he => ?_, fun b' hb' => ?_⟩
  · by_cases hee : e = r.entryCount
    · exact .inl ⟨key, hee ▸ hnew⟩
    · rw [hother e hee] at he ⊢
      exact (h.borrowed e he).imp (fun ⟨key', hkey'⟩ => ⟨key', hold hkey'⟩) id
  · rcases Nat.lt_succ_iff_lt_or_eq.1 he with he | rfl
    · rw [hother e (Nat.ne_of_lt he)]
      exact (h.entry e he).imp (fun ⟨key', hkey'⟩ => ⟨key', hold hkey'⟩) id
    · exact .inl ⟨key, hnew⟩
  · rcases h.runner b' hb' with hin | ⟨e, he, heq⟩
    · refine (hbuilt b' hin).symm.imp id fun heq => ⟨r.entryCount, Nat.lt_succ_self _, ?_⟩
      rw [hself, heq]
    · refine .inr ⟨e, Nat.lt_succ_of_lt he, ?_⟩
      rw [hother e (Nat.ne_of_lt he)]
      exact heq

/-- A lease gives back its reference to an entry that has others, or is in the map, or is going to
be closed. -/
theorem dropRef (hdoomed : ∀ e, doomed e → doomed' e) {e : ℕ}
    (hstill : 1 < (r.entry e).refs ∨ (∃ key, r.entries.lookup key = some e) ∨ doomed' e) (l : ℕ)
    (lastUsed : ℤ) : ((r.takeOnce l).dropRef e lastUsed).Kept doomed' built := by
  have hentry := r.dropRef_entry l e lastUsed
  refine ⟨fun e' he' => ?_, fun e' he' => ?_, fun b hb => ?_⟩
  · rw [(hentry e').1] at he'
    rw [(hentry e').2.1]
    exact h.borrowed e' (Nat.lt_of_lt_of_le he' (Nat.sub_le _ _))
  · rw [(hentry e').1, (hentry e').2.2.2.1]
    split_ifs with hee'
    · subst hee'
      rcases hstill with hmore | hstored | hdoom
      · exact .inr (.inl (Nat.sub_pos_of_lt hmore))
      · exact .inl hstored
      · exact .inr (.inr (.inr hdoom))
    · exact (h.entry e' he').imp id (.imp id (.imp id (hdoomed e')))
  · refine (h.runner b hb).imp id fun ⟨e', he', heq⟩ => ⟨e', he', ?_⟩
    exact (hentry e').2.2.2.2.trans heq

/-- `Release` gives back a reference, and goes on to close an entry that it was the last one of and
that is not in the map. -/
theorem release {l : ℕ} (hpos : 0 < (r.entry (r.lease l).entry).refs)
    (now : ℤ) : ((r.takeOnce l).releaseEntry now l (r.lease l).entry).2.Kept (fun e => doomed e ∨
      e ∈ ((r.takeOnce l).releaseEntry now l (r.lease l).entry).1.toClose) built := by
  rcases (r.takeOnce l).releaseEntry_cases now l hpos with ⟨hkeep, lastUsed, heq⟩ | ⟨-, heq⟩
  · rw [heq]
    refine h.dropRef (fun e he => .inl he) ?_ l lastUsed
    rcases hkeep with hmore | ⟨hvalid, -⟩
    · have hmore' : (r.entry (r.lease l).entry).refs ≠ 1 := hmore
      exact .inl (by omega)
    · refine .inr (.inl ((h.borrowed _ hpos).resolve_right fun hinvalid => ?_))
      exact absurd (hvalid.symm.trans hinvalid) nofun
  · rw [heq]
    have hdrop : ((r.takeOnce l).dropRef (r.lease l).entry now).Kept
        (fun e => doomed e ∨ e ∈ [(r.lease l).entry]) built :=
      h.dropRef (fun e he => .inl he) (.inr (.inr (.inr (mem_singleton_self _)))) l now
    unfold Registry.closeZero
    dsimp only
    split
    · exact { hdrop with }
    · exact hdrop

end Registry.Kept

/-! ## Steps -/

/-- A step of a call loses no entry and no runner, as long as it does not give up closing. -/
theorem Act.kept {r r' : Registry K} {phase phase' : Phase K} (hact : Act r phase phase' r')
    {doomed built : ℕ → Prop}
    (h : r.Kept (fun e => doomed e ∨ e ∈ phase.toClose) (fun b => built b ∨ phase.made = some b))
    (hkey : ∀ key b, phase.token = some (key, b) → r.entries.lookup key = none)
    (hpos : ∀ l, phase.releases = some l → (r.lease l).once = false →
      0 < (r.entry (r.lease l).entry).refs)
    (hclean : ∀ e rest, phase = .closingAll (e :: rest) → rest ≠ [] → r'.closeResult e = none) :
    r'.Kept (fun e => doomed e ∨ e ∈ phase'.toClose) (fun b => built b ∨ phase'.made = some b) := by
  -- where the call is going to close nothing new, and has no other runner in its hands
  have hsame : ∀ {r : Registry K} {phase phase' : Phase K},
      r.Kept (fun e => doomed e ∨ e ∈ phase.toClose) (fun b => built b ∨ phase.made = some b) →
      phase'.toClose = phase.toClose → phase'.made = phase.made →
      r.Kept (fun e => doomed e ∨ e ∈ phase'.toClose)
        (fun b => built b ∨ phase'.made = some b) := by
    intro r phase phase' h htoClose hmade
    rwa [htoClose, hmade]
  cases hact with
  | stays hkeeps htoClose => exact hsame h htoClose hkeeps.made
  | stored => exact { h with }
  | closes closeErr e hkeeps _ _ hrest =>
    rw [hkeeps.made]
    refine h.closeEntry closeErr e fun e' he' => ?_
    rcases he' with he' | he'
    · exact .inr (.inl he')
    rcases hrest e' he' with heq | hmem | ⟨rest, hphase, hmem, hfailed⟩
    · exact .inl heq
    · exact .inr (.inr hmem)
    · exact absurd (hclean e rest hphase (ne_nil_of_mem hmem)) hfailed
  | retained now _ hentry => exact h.retain hentry now
  | evicted hevicts =>
    refine (h.evicts hevicts).mono (fun e he => ?_) fun b hb => hb
    exact he.imp (fun he => he.resolve_right not_mem_nil) id
  | @registered r1 key toClose hevicts hentry hpending hroom =>
    refine ((h.evicts hevicts).mono (fun e he => ?_) fun b hb => hb).register key
    exact he.imp (fun he => he.resolve_right not_mem_nil) id
  | @made key b err returned =>
    refine { h with runner := fun b' hb' => ?_ }
    by_cases hbb' : b' = b
    · exact .inl (.inr (congrArg some hbb'.symm))
    · have hold : (r.build b').returned = true := by simpa [hbb'] using hb'
      exact (h.runner b' hold).imp (fun hb => .inl (hb.resolve_right nofun)) id
  | @published key b err now hclosed hbuild =>
    refine h.publish (fun b' hb' => ?_) (hkey key b rfl) now
    exact hb'.symm.imp (fun heq => (Option.some.inj heq).symm) .inl
  | @rejected key b err err' =>
    refine h.reject (fun b' hb' => ?_) (fun e he => ?_) (.inr (mem_singleton_self _)) key
    · exact hb'.symm.imp (fun heq => (Option.some.inj heq).symm) .inl
    · exact .inl (he.resolve_right not_mem_nil)
  | @abandoned _ b _ _ hbuild hquiet =>
    rw [hquiet.toClose, hquiet.made]
    refine { h with runner := fun b' hb' => ?_ }
    refine (h.runner b' hb').imp (fun hb => .inl (hb.resolve_right fun heq => ?_)) id
    have hb : (r.build b).returned = true := by
      rw [Option.some.inj heq]
      exact hb'
    exact absurd (hbuild.symm.trans hb) nofun
  | flagged => exact h.flag _
  | invalidated which hphase htoken _ _ _ htoClose =>
    have hphase' : phase.toClose = [] ∧ phase.made = none := by
      rcases hphase with rfl | ⟨key, rfl, -⟩ <;> exact ⟨rfl, rfl⟩
    rw [hphase'.1, hphase'.2] at h
    rw [Phase.made_of_token htoken]
    refine (h.flag which).retire _ (fun e he => ?_) fun key e hkey hgone hrefs => ?_
    · exact .inl (he.resolve_right not_mem_nil)
    · exact .inr ((htoClose e).2 ⟨hrefs, key, hkey, hgone⟩)
  | closeStarted _ htoClose =>
    have hclosed : Registry.Kept { r with closeStarted := true, closed := true }
        (fun e => doomed e ∨ e ∈ []) (fun b => built b ∨ none = some b) := { h with }
    refine (hclosed.flag fun _ => true).retire _ (fun e he => ?_) fun key e hkey _ hrefs => ?_
    · exact .inl (he.resolve_right not_mem_nil)
    · exact .inr ((htoClose e).2 ⟨hrefs, key, hkey⟩)
  | @released l now honce =>
    rw [Phase.made_of_token (Registry.releaseEntry_phase ..).2.2.2]
    refine (h.release (hpos l rfl honce) now).mono (fun e he => ?_) fun b hb => hb
    exact he.imp (fun he => he.resolve_right not_mem_nil) id
  | closeFinished => exact { h with }

/-! ## Runs -/

namespace System

variable {s : System K}

/-- A runner that is in the hands of a call. -/
def Made (s : System K) (b : ℕ) : Prop := ∃ i, (s.phase i).made = some b

/-- Nothing is lost. -/
def Kept (s : System K) : Prop := s.registry.Kept s.Doomed s.Made

omit [DecidableEq K] in
/-- What all calls own, from what one of them and what the others own. -/
theorem exists_phase_iff (s : System K) (P : Phase K → Prop) (i : ℕ) :
    (∃ j, P (s.phase j)) ↔ (∃ j, j ≠ i ∧ P (s.phase j)) ∨ P (s.phase i) := by
  constructor
  · rintro ⟨j, hj⟩
    by_cases hji : j = i
    · exact .inr (hji ▸ hj)
    · exact .inl ⟨j, hji, hj⟩
  · rintro (⟨j, -, hj⟩ | hi)
    · exact ⟨j, hj⟩
    · exact ⟨i, hi⟩

omit [DecidableEq K] in
/-- What all calls own after a step of one of them. -/
theorem exists_phase_goes {i : ℕ} {phase : Phase K} {r : Registry K} {P : Phase K → Prop}
    (h : (∃ j, j ≠ i ∧ P (s.phase j)) ∨ P phase) : ∃ j, P ((s.goes i phase r).phase j) := by
  rcases h with ⟨j, hji, hj⟩ | hi
  · refine ⟨j, ?_⟩
    rw [phase_goes, if_neg hji]
    exact hj
  · refine ⟨i, ?_⟩
    rw [phase_goes, if_pos rfl]
    exact hi

/-- A step of a call that does not give up closing loses nothing. -/
theorem Kept.step (h : s.Kept) (hsafe : s.Safe) (hslots : s.registry.Slots) {i : ℕ}
    {choice : Choice K} (hclean : s.Clean (.step i choice)) : (s.next (.step i choice)).Kept := by
  have hact := s.registry.next_spec choice (s.phase i)
  have hbefore : s.registry.Kept
      (fun e => (∃ j, j ≠ i ∧ e ∈ (s.phase j).toClose) ∨ e ∈ (s.phase i).toClose)
      (fun b => (∃ j, j ≠ i ∧ (s.phase j).made = some b) ∨ (s.phase i).made = some b) := by
    refine h.mono (fun e he => ?_) fun b hb => ?_
    · exact (s.exists_phase_iff (fun phase => e ∈ phase.toClose) i).1 he
    · exact (s.exists_phase_iff (fun phase => phase.made = some b) i).1 hb
  refine (hact.kept hbefore ?_ ?_ ?_).mono (fun e he => ?_) fun b hb => ?_
  · intro key b hb
    rw [Option.eq_none_iff_forall_ne_some]
    intro e he
    have hpending := (hsafe.building.token i key b hb).1
    rw [hslots.exclusive key e he] at hpending
    cases hpending
  · exact fun l hl honce => hsafe.sound.refs_pos (hsafe.releasing i l hl) honce
  · intro e rest hphase hne
    obtain ⟨_, rest, rfl⟩ := exists_cons_of_ne_nil hne
    have hnext : (s.registry.next choice (s.phase i)).2 =
        s.registry.closeEntry choice.closeErr e := by
      rw [hphase]
      rfl
    obtain ⟨hok, hok'⟩ : choice.closeErr = false ∧ (s.registry.entry e).closeErr = false := by
      refine hclean e ?_
      rw [hphase]
      rfl
    rw [hnext, Registry.closeResult, Registry.closeEntry]
    dsimp only
    split_ifs with honce hfailed hfailed
    · exact absurd (hok'.symm.trans hfailed) nofun
    · rfl
    · simp [hok] at hfailed
    · rfl
  · exact exists_phase_goes (P := fun phase => e ∈ phase.toClose) he
  · exact exists_phase_goes (P := fun phase => phase.made = some b) hb

/-- The start of a call loses nothing. -/
theorem Kept.call (h : s.Kept) (hsafe : s.Safe) (op : Op K) : (s.next (.call op)).Kept := by
  have hnew := hsafe.idle s.callCount (Nat.le_refl _)
  have hphase : ∀ {P : Phase K → Prop}, ¬ P (.returned none) → (∃ j, P (s.phase j)) →
      ∃ j, P ((s.next (.call op)).phase j) := by
    rintro P hnone ⟨j, hj⟩
    have hne : j ≠ s.callCount := by
      rintro rfl
      rw [hnew] at hj
      exact hnone hj
    refine ⟨j, ?_⟩
    rw [System.next]
    split_ifs
    · change P (Function.update s.phase s.callCount op.start j)
      rwa [update_of_ne hne]
    · exact hj
  have hkept : (s.next (.call op)).registry.Kept s.Doomed s.Made := by
    rw [registry_next_call]
    exact h
  refine hkept.mono (fun e he => ?_) fun b hb => ?_
  · exact hphase (P := fun phase => e ∈ phase.toClose) not_mem_nil he
  · exact hphase (P := fun phase => phase.made = some b) (Option.some_ne_none b).symm hb

/-- Where nothing is lost and no call is in progress, no runner is lost. -/
theorem Kept.noLeak (h : s.Kept) (hsafe : s.Safe) : s.NoLeak := by
  intro hquiet b _ hb
  -- a call that has returned owns nothing
  have hreturned : ∀ i, (s.phase i).isReturned = true := by
    intro i
    by_cases hi : i < s.callCount
    · exact hquiet i hi
    · rw [hsafe.idle i (Nat.le_of_not_lt hi)]
      rfl
  have hnone : ∀ {phase : Phase K}, phase.isReturned = true →
      phase.toClose = [] ∧ phase.made = none := by
    intro phase hphase
    cases phase <;> first | exact ⟨rfl, rfl⟩ | cases hphase
  rcases h.runner b hb with ⟨i, hi⟩ | ⟨e, he, rfl⟩
  · rw [(hnone (hreturned i)).2] at hi
    cases hi
  rcases h.entry e he with ⟨key, hkey⟩ | hpos | honce | ⟨i, hi⟩
  · exact .inl ⟨⟨key, e⟩, AList.mem_lookup_iff.1 hkey, rfl⟩
  · rw [hsafe.sound.refs, Finset.card_pos] at hpos
    obtain ⟨l, hl⟩ := hpos
    obtain ⟨hlt, hentry, hopen⟩ := Registry.mem_borrowers.1 hl
    exact .inr (.inl ⟨l, hlt, hopen, by rw [hentry]⟩)
  · refine .inr (.inr ?_)
    rw [(hsafe.sound.accounted.closes e he).2, honce]
    rfl
  · rw [(hnone (hreturned i)).1] at hi
    cases hi

end System

/-- No runner leak: in every run in which `InvalidateMatching` does not see a `Close` fail while it
has others left to make. -/
theorem no_leak (maxEntries : ℕ) (idleTTL : ℤ) (events : List (Event K))
    (hclean : ∀ st ∈ (registry K).history (initial K maxEntries idleTTL) events,
      st.pre.Clean st.call) :
    ((registry K).after (initial K maxEntries idleTTL) events).NoLeak := by
  have hall : ((registry K).after (initial K maxEntries idleTTL) events).Safe ∧
      ((registry K).after (initial K maxEntries idleTTL) events).registry.Slots ∧
      ((registry K).after (initial K maxEntries idleTTL) events).Kept := by
    refine Server.invariant (S := registry K) System.Clean
      (I := fun s => s.Safe ∧ s.registry.Slots ∧ s.Kept) ?_ (fun s event hclean h => ?_) hclean
    · refine ⟨System.safe_initial maxEntries idleTTL, ⟨fun _ _ h => absurd h nofun, Nat.zero_le _⟩,
        ⟨fun _ h => absurd h (Nat.lt_irrefl 0), fun e he => absurd he (Nat.not_lt_zero e),
          fun _ h => absurd h nofun⟩⟩
    · obtain ⟨hsafe, hslots, hkept⟩ := h
      refine ⟨hsafe.next event, (hsafe.slots_next hslots rfl event).1, ?_⟩
      cases event with
      | call op => exact hkept.call hsafe op
      | step => exact hkept.step hsafe hslots hclean
  exact hall.2.2.noLeak hall.1

/-! ## A run that loses a runner -/

/-- A call of `Acquire` that builds a runner, from its start to its return. -/
def acquireRun (i : ℕ) (key : Bool) : List (Event Bool) :=
  .call (.acquire (some key)) :: List.replicate 5 (.step i {})

/-- A call of `Release`, from its start to its return. -/
def releaseRun (i l : ℕ) : List (Event Bool) :=
  .call (.release l) :: List.replicate 2 (.step i {})

/-- Two runners are built and released, and `InvalidateMatching` takes both out of the map. -/
def invalidateRun : List (Event Bool) :=
  acquireRun 0 false ++ releaseRun 1 0 ++ acquireRun 2 true ++ releaseRun 3 1 ++
    [.call (.invalidateMatching (some fun _ => true)), .step 4 {}]

/-- Without errors, both runners are closed. -/
theorem no_leak_invalidated :
    let s := (registry Bool).after (initial Bool 2 second)
      (invalidateRun ++ List.replicate 3 (.step 4 {}))
    s.Quiet ∧ s.registry.Accessible 0 ∧ s.registry.Accessible 1 := by
  have hleak := no_leak 2 second (invalidateRun ++ List.replicate 3 (.step 4 {})) (by decide +kernel)
  have hquiet : ((registry Bool).after (initial Bool 2 second)
      (invalidateRun ++ List.replicate 3 (.step 4 {}))).Quiet := by
    unfold System.Quiet
    decide +kernel
  exact ⟨hquiet, hleak hquiet 0 (by decide +kernel) (by decide +kernel),
    hleak hquiet 1 (by decide +kernel) (by decide +kernel)⟩

/-- When the first `Close` fails, `InvalidateMatching` returns, and the other runner is lost. -/
theorem leaked :
    ¬ ((registry Bool).after (initial Bool 2 second)
      (invalidateRun ++ [.step 4 { closeErr := true }])).NoLeak := by
  decide +kernel

end AgentService.Runners
