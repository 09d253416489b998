import AgentService.Migration.Cutover

/-!
# The rollback

An operator calls the methods of the tool for a tenant one after the other, in any order, while
records are put (`Call`). A cutover notes the backend that was selected before it, and `Rollback`
goes back to that backend if the records are the same on both sides. `Begin` forgets the note, also
while the destination is selected; a `Rollback` is then refused, and no other call writes the note
again (`begin_refusesRollback`). Up to a `Begin`, every cutover can be undone
(`rollback_restores_iff`).
-/

namespace AgentService.Migration

open Concurrent Program

/-- A call of the tool. -/
inductive Call where
  | begin
  | copy
  | catchUp
  | validate
  | cutover
  | rollback
deriving DecidableEq

/-- The code of a call under a context. -/
def Call.body (sha256 : List UInt8 → List UInt8) (t : String) : Call × Option ℕ → Code Outcome
  | (.begin, ctx) => Tool.begin ctx t
  | (.copy, ctx) => Tool.copy ctx t
  | (.catchUp, ctx) => Tool.catchUp ctx t
  | (.validate, ctx) => Tool.validate sha256 ctx t
  | (.cutover, ctx) => Tool.cutover sha256 ctx t
  | (.rollback, ctx) => Tool.rollback sha256 ctx t

/-- A call that has returned. -/
abbrev Done := Finished machine (Call × Option ℕ) Outcome

/-- The call was a `Begin`, and has succeeded. -/
def Done.begins (d : Done) : Prop := d.call.1 = .begin ∧ d.out.2 = none

instance (d : Done) : Decidable d.begins := by
  unfold Done.begins
  infer_instance

/-- The call was a `Cutover`, has succeeded, and has switched the route. -/
def Done.switches (t : String) (d : Done) : Prop :=
  d.call.1 = .cutover ∧ d.out.2 = none ∧ d.pre.router.selected t ≠ .destination

instance (t : String) (d : Done) : Decidable (d.switches t) := by
  unfold Done.switches
  infer_instance

section Note

variable {sha256 : List UInt8 → List UInt8} {t : String} {s s' : State} {l : List machine.Entry}

/-- What is put and called leaves the source sound. -/
theorem sound_of_call {α : Type} {p q : Code α} (h : p.Runs machine.Moves s l q s')
    (hsound : s.source.Sound) : s'.source.Sound :=
  (grows_of_runs (fun _ _ => follows_of_moves) h).sound hsound

/-- So does a sequence of calls. -/
theorem sound_of_sequence {ds : List Done} (h : Sequence machine.Moves (Call.body sha256 t) s ds s')
    (hsound : s.source.Sound) : s'.source.Sound :=
  h.keeps (M := machine) (P := fun s => s.source.Sound)
    (fun _ _ hmoves => (follows_of_moves hmoves).sound) (fun _ _ _ hrun => sound_of_call hrun) hsound

variable {d : Done}

/-- While the destination is selected, only a `Begin` changes the note, and removes it. -/
theorem cutovers_of_call (hsound : d.pre.source.Sound)
    (h : (Call.body sha256 t d.call).Runs machine.Moves d.pre l (.ret d.out) d.post)
    (hbefore : d.pre.router.selected t = .destination)
    (hafter : d.post.router.selected t = .destination) : d.post.tool.cutovers.lookup t =
      if d.begins then none else d.pre.tool.cutovers.lookup t := by
  have hR : ∀ a b, machine.Moves a b → State.Follows a b := fun _ _ => follows_of_moves
  obtain ⟨⟨call, _⟩, out, pre, post⟩ := d
  cases call with
  | begin =>
    rcases Tool.begin_spec hR h with ⟨hfail, hfollows⟩ | ⟨hok, -, -, -, _, -, -, -, -, htool⟩
    · rw [if_neg fun hb : Done.begins _ => hfail hb.2, hfollows.tool]
    · rw [if_pos ⟨rfl, hok⟩, htool]
      exact AList.lookup_erase t _
  | copy =>
    rw [if_neg fun hb : Done.begins _ => Call.noConfusion hb.1]
    rcases Tool.copy_spec hR hsound h with ⟨-, hfollows⟩ | ⟨-, -, htool, -⟩
    · rw [hfollows.tool]
    · rw [htool, Tool.withCopied]
  | catchUp =>
    rw [if_neg fun hb : Done.begins _ => Call.noConfusion hb.1]
    rcases Tool.catchUp_spec hR hsound h with ⟨-, hfollows⟩ | ⟨-, -, htool, -⟩
    · rw [hfollows.tool]
    · rw [htool, Tool.withCaughtUp]
  | validate =>
    rw [if_neg fun hb : Done.begins _ => Call.noConfusion hb.1, (Tool.validate_spec hR h).1.tool]
  | cutover =>
    rw [if_neg fun hb : Done.begins _ => Call.noConfusion hb.1]
    rcases Tool.cutover_spec hR h with ⟨hfollows, -⟩ | ⟨-, hsource, -⟩
    · rw [hfollows.tool]
    · rw [hsource] at hbefore
      cases hbefore
  | rollback =>
    rw [if_neg fun hb : Done.begins _ => Call.noConfusion hb.1]
    rcases Tool.rollback_spec hR h with ⟨-, hfollows⟩ | ⟨-, -, hsource, -⟩
    · rw [hfollows.tool]
    · rw [hsource] at hafter
      cases hafter

/-- The destination is selected, and the note of the tenant is `note`. -/
structure Standing (t : String) (note : Option Backend) (s : State) : Prop where
  /-- The source is one that `Put` has filled. -/
  sound : s.source.Sound
  /-- The destination is selected. -/
  selected : s.router.selected t = .destination
  /-- The note. -/
  noted : s.tool.cutovers.lookup t = note

variable {note : Option Backend}

/-- The environment changes neither the route nor the note. -/
theorem Standing.moves (h : Standing t note s) (hmoves : machine.Moves s s') :
    Standing t note s' := by
  have hfollows := follows_of_moves hmoves
  refine ⟨hfollows.sound h.sound, ?_, ?_⟩
  · rw [hfollows.router, h.selected]
  · rw [hfollows.tool, h.noted]

/-- The note stays until a `Begin`, as long as the destination is selected. -/
theorem Standing.sequence (h : Standing t note s) {ds : List Done}
    (hcalls : Sequence machine.Moves (Call.body sha256 t) s ds s')
    (hstays : ∀ d ∈ ds, d.post.router.selected t = .destination)
    (hbegin : note = none ∨ ∀ d ∈ ds, ¬ d.begins) : Standing t note s' := by
  refine hcalls.keeps (fun a b hmoves ha => ha.moves hmoves) (fun d hd l hrun hpre => ?_) h
  refine ⟨sound_of_call hrun hpre.sound, hstays d hd, ?_⟩
  rw [cutovers_of_call hpre.sound hrun hpre.selected (hstays d hd), hpre.noted]
  split_ifs with hbegins
  · rcases hbegin with hnote | hnone
    · exact hnote.symm
    · exact absurd hbegins (hnone d hd)
  · rfl

/-- A cutover that switches the route notes the backend. -/
theorem standing_of_switches (hsound : d.pre.source.Sound) (hd : d.switches t)
    (h : (Call.body sha256 t d.call).Runs machine.Moves d.pre l (.ret d.out) d.post) :
    t ≠ "" ∧ d.pre.router.selected t = .source ∧ Standing t (some .source) d.post := by
  obtain ⟨⟨call, _⟩, out, pre, post⟩ := d
  obtain ⟨rfl, hok, hbefore⟩ := hd
  have hsound' : post.source.Sound := sound_of_call h hsound
  rcases Tool.cutover_spec (fun _ _ => follows_of_moves) h with ⟨-, hdestination⟩ |
    ⟨ht, hsource, -, ⟨hselected, htool⟩, -⟩
  · exact absurd (hdestination _ rfl hok) hbefore
  · refine ⟨ht, hsource, hsound', hselected, ?_⟩
    rw [(htool _ rfl).2]
    exact AList.lookup_insert _

/-- A `Begin` removes the note. -/
theorem standing_of_begins (hsound : d.pre.source.Sound) (hd : d.begins)
    (h : (Call.body sha256 t d.call).Runs machine.Moves d.pre l (.ret d.out) d.post)
    (hafter : d.post.router.selected t = .destination) : Standing t none d.post := by
  obtain ⟨⟨call, _⟩, out, pre, post⟩ := d
  obtain ⟨rfl, hok⟩ := hd
  refine ⟨sound_of_call h hsound, hafter, ?_⟩
  rcases Tool.begin_spec (fun _ _ => follows_of_moves) h with ⟨hfail, -⟩ |
    ⟨-, -, -, -, read, -, -, -, -, htool⟩
  · exact absurd hok hfail
  · rw [htool]
    exact AList.lookup_erase t _

end Note

/-! ## Rollback alone -/

/-- Where the backend is noted and the records are the same, `Rollback` alone succeeds. -/
theorem rollback_alone {sha256 : List UInt8 → List UInt8} {t : String} {s s' : State}
    {l : List machine.Entry} {c : ℕ} {out : Outcome} (ht : t ≠ "")
    (hstanding : Standing t (some .source) s) (hsame : SameRecords t s)
    (h : (Tool.rollback sha256 (some c) t).Runs Eq s l (.ret out) s') (hlive : Live l) :
    out.2 = none := by
  obtain ⟨err, _, _, s1, rfl, h1, h2⟩ := Runs.bind_complete h
  obtain ⟨hlive1, hlive2⟩ := List.forall_mem_append.1 hlive
  obtain rfl : err = none := (validate_spec follows_of_eq h1).2.2 hlive1 rfl ht
  obtain rfl : s = s1 := Runs.related (T := Eq) (fun _ _ => id) h1
    (validate_every fun _ _ _ _ hperf => (performs_reads hperf rfl).symm)
  obtain ⟨_, noted, s3, _, rfl, hp, rfl, h3⟩ := Runs.perform_complete h2
  obtain rfl : s3 = s := performs_reads hp rfl
  obtain rfl : noted = some .source := (performs_cutover hp).trans hstanding.noted
  obtain ⟨⟨_, err⟩, _, _, _, rfl, h4, h5⟩ := Runs.bind_complete h3
  obtain ⟨hlive4, -⟩ := List.forall_mem_append.1 (List.forall_mem_cons.1 hlive2).2
  obtain rfl : err = none := validate_succeeds hstanding.sound hsame rfl ht h4 hlive4
  obtain ⟨_, r, _, _, rfl, hp', rfl, h6⟩ := Runs.perform_complete h5
  obtain ⟨rfl, -⟩ := performs_set hp' ht
  obtain ⟨-, hout, -⟩ := h6.ret_cases
  cases hout
  rfl

/-- In every state where the destination is selected because a cutover has switched the route, and
the records are the same on both sides, `Rollback` succeeds and selects the backend from before the
cutover exactly if no `Begin` has succeeded since. -/
theorem rollback_restores_iff {sha256 : List UInt8 → List UInt8} {t : String} {s₀ s : State}
    {ds₁ ds₂ : List Done} {d : Done} (hsound : s₀.source.Sound)
    (h : Sequence machine.Moves (Call.body sha256 t) s₀ (ds₁ ++ d :: ds₂) s) (hd : d.switches t)
    (hstays : ∀ e ∈ ds₂, e.post.router.selected t = .destination) (hsame : SameRecords t s)
    (c : ℕ) :
    Succeeds (Tool.rollback sha256 (some c) t) s
        (fun s' => s'.router.selected t = d.pre.router.selected t) ↔
      ∀ e ∈ ds₂, ¬ e.begins := by
  obtain ⟨hbefore, ⟨l, hrun⟩, hafter⟩ := h.split
  have hpre : d.pre.source.Sound := sound_of_sequence hbefore hsound
  obtain ⟨ht, hselected, hpost⟩ := standing_of_switches hpre hd hrun
  constructor
  · rintro ⟨⟨lr, out, s', hrollback, hlive⟩, hsucceeds⟩ e he hbegins
    obtain ⟨es1, es2, rfl⟩ := List.append_of_mem he
    obtain ⟨hfirst, ⟨le, hbegin⟩, hlast⟩ := hafter.split
    -- the note is gone since the `Begin`
    have hgone := standing_of_begins (sound_of_sequence hfirst hpost.sound) hbegins hbegin
      (hstays e he)
    have hstanding := hgone.sequence hlast
      (fun d hd => hstays d (List.mem_append_right _ (List.mem_cons_of_mem _ hd))) (.inl rfl)
    have hok := (hsucceeds lr out s' hrollback hlive).1
    rcases Tool.rollback_spec follows_of_eq hrollback with ⟨hfail, -⟩ | ⟨-, hnoted, -⟩
    · exact hfail hok
    · rw [hstanding.noted] at hnoted
      cases hnoted
  · intro hnone
    have hstanding := hpost.sequence hafter hstays (.inr hnone)
    refine ⟨?_, fun lr out s' hrollback hlive => ?_⟩
    · exact Runs.exists_complete (M := machine) exists_performs _ s
    · have hok := rollback_alone ht hstanding hsame hrollback hlive
      rcases Tool.rollback_spec follows_of_eq hrollback with ⟨hfail, -⟩ | ⟨-, -, hsource, -⟩
      · exact absurd hok hfail
      · exact ⟨hok, hsource.trans hselected.symm⟩

/-- A record is put, and `Begin`, `Copy`, `CatchUp`, and `Cutover` are called. -/
def cutoverCalls : List ((Call × Option ℕ) × List (Turn machine)) :=
  let record : Choice := { order := [sampleRecord "a" 1 1] }
  [((.begin, some 0), [.others ("t", sampleRecord "a" 1 0), .own {}, .own {}, .own {}]),
    ((.copy, some 0), [.own {}, .own {}, .own record, .own record, .own {}, .own {}]),
    ((.catchUp, some 0), List.replicate 6 (.own {})),
    ((.cutover, some 0), [.own {}, .own {}, .own {}] ++ List.replicate 6 (.own record) ++
      [.own {}, .own {}, .own {}])]

/-- After the cutover only `CatchUp` is called, and `Rollback` succeeds. -/
theorem rollback_restores_iff_caughtUp : ∃ ds₁ d ds₂ s,
    Sequence machine.Moves (Call.body id "t") {} (ds₁ ++ d :: ds₂) s ∧ Done.switches "t" d ∧
      ds₂.map (fun e => (e.call.1, e.out.2)) = [(.catchUp, none)] ∧
      Succeeds (Tool.rollback id (some 0) "t") s
        fun s' => s'.router.selected "t" = d.pre.router.selected "t" := by
  obtain ⟨ds, s, hcalls, hd, hafter, hstays, hentries⟩ := exists_sequence_of_followCalls
    (M := machine) (Call.body id "t") {}
    (cutoverCalls ++ [((.catchUp, some 0), List.replicate 6 (.own {}))])
    (fun ds s => ds[3]?.any (fun d => decide (Done.switches "t" d)) = true ∧
      (ds.drop 4).map (fun e => (e.call.1, e.out.2)) = [(.catchUp, none)] ∧
      (∀ e ∈ ds.drop 4, ¬ Done.begins e ∧ e.post.router.selected "t" = .destination) ∧
      (s.source.recordsOf "t").entries = (s.destination.recordsOf "t").entries)
    (by decide +kernel)
  obtain ⟨d, hd, hswitches⟩ := (Option.any_eq_true _ _).1 hd
  have hsplit : ds = ds.take 3 ++ d :: ds.drop 4 := by
    obtain ⟨h, rfl⟩ := List.getElem?_eq_some_iff.1 hd
    rw [← List.drop_eq_getElem_cons h, List.take_append_drop]
  rw [hsplit] at hcalls
  have hswitches := of_decide_eq_true hswitches
  exact ⟨_, d, _, s, hcalls, hswitches, hafter, (rollback_restores_iff MemorySource.sound_empty hcalls
    hswitches (fun e he => (hstays e he).2) (fun k => congrArg (List.dlookup k) hentries) 0).2
    fun e he => (hstays e he).1⟩

/-- After the cutover `Begin` is called again: the records are the same, the destination is
selected, and `Rollback` is refused. -/
theorem begin_refusesRollback : ∃ ds s, Sequence machine.Moves (Call.body id "t") {} ds s ∧
    ds.map (fun d => (d.call.1, d.out.2)) = [(.begin, none), (.copy, none), (.catchUp, none),
      (.cutover, none), (.begin, none), (.rollback, some .conflict)] ∧
    ∀ d ∈ ds.drop 4, d.pre.router.selected "t" = .destination ∧
      (d.pre.source.recordsOf "t").entries = (d.pre.destination.recordsOf "t").entries :=
  exists_sequence_of_followCalls (M := machine) (Call.body id "t") {}
    (cutoverCalls ++ [((.begin, some 0), List.replicate 3 (.own {})),
      ((.rollback, some 0), List.replicate 2 (.own {}))]) _
    (by decide +kernel)

end AgentService.Migration
