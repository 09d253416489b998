import AgentService.Migration.Tool

/-!
# What the methods of the migration tool do

One statement for each method, about its complete runs while the environment puts records. `R` is
what happens between two operations of the method; it is `machine.Moves` or nothing at all.
-/

namespace AgentService.Migration

open Concurrent Program Runs List

/-- A context was found to be done. -/
def interrupted : machine.Entry → Bool
  | ⟨.ctxErr _, r, _, _⟩ => Option.isSome r
  | _ => false

/-- No context was found to be done. -/
def Live (l : List machine.Entry) : Prop := ∀ e ∈ l, interrupted e = false

/-! ## The operations of the methods -/

section Operations

variable {ctx : Option ℕ} {t : String} {sha256 : List UInt8 → List UInt8} {P : Op → Prop}

/-- `validate` only looks at the context. -/
theorem validate_every (h : ∀ c, P (.ctxErr c)) : (Migration.validate ctx t).Every P := by
  unfold Migration.validate
  cases ctx with
  | none => exact trivial
  | some ctx =>
    dsimp only
    split_ifs
    · exact trivial
    · exact ⟨h ctx, fun _ => trivial⟩

/-- The comparison of two snapshots only sorts. -/
theorem compare_every (h : ∀ records, P (.sortSlice records)) (source destination : Snapshot) :
    (Tool.compare sha256 t source destination).Every P := by
  have hsort : ∀ tenantID records, (normalizeRecords tenantID records).Every P :=
    fun _ _ => ⟨h _, fun _ => trivial⟩
  have hdigest : ∀ records, (digest sha256 records).Every P :=
    fun records => (hsort "" records).bind fun _ => trivial
  refine (hdigest _).bind fun d => (hdigest _).bind fun _ => ?_
  split_ifs
  · exact (hsort t _).bind fun _ => (hsort t _).bind fun _ => trivial
  · exact trivial

/-- `Validate` writes nothing. -/
theorem Tool.validate_every (h : ∀ o : Op, o.writes = false → P o) :
    (Tool.validate sha256 ctx t).Every P := by
  refine (Migration.validate_every fun _ => h _ rfl).bind fun err => ?_
  cases err with
  | some => exact trivial
  | none =>
    refine ⟨h _ rfl, fun source => ?_⟩
    rcases source with err | source
    · exact trivial
    · refine ⟨h _ rfl, fun destination => ?_⟩
      rcases destination with err | destination
      · exact trivial
      · exact (compare_every (fun _ => h _ rfl) source destination).bind fun _ => trivial

section

variable (h : ∀ o : Op, o.sets = false → P o)

include h

/-- `Begin` does not change a route. -/
theorem Tool.begin_every : (Tool.begin ctx t).Every P := by
  refine (Migration.validate_every fun _ => h _ rfl).bind fun err => ?_
  cases err with
  | some => exact trivial
  | none =>
    refine ⟨h _ rfl, fun watermark => ?_⟩
    rcases watermark with err | watermark
    · exact trivial
    · exact ⟨h _ rfl, fun _ => trivial⟩

/-- `Copy` does not change a route. -/
theorem Tool.copy_every : (Tool.copy ctx t).Every P := by
  refine (Migration.validate_every fun _ => h _ rfl).bind fun err => ?_
  cases err with
  | some => exact trivial
  | none =>
    refine ⟨h _ rfl, fun read => ?_⟩
    obtain ⟨barrier, _, _⟩ := read
    cases barrier with
    | none => exact trivial
    | some =>
      refine ⟨h _ rfl, fun snapshot => ?_⟩
      rcases snapshot with err | snapshot
      · exact trivial
      · change (ite _ _ _ : Code Outcome).Every P
        split_ifs
        · exact trivial
        · refine ⟨h _ rfl, fun _ => ⟨h _ rfl, fun err => ?_⟩⟩
          rcases err with _ | err
          · exact ⟨h _ rfl, fun _ => trivial⟩
          · exact trivial

/-- `CatchUp` does not change a route. -/
theorem Tool.catchUp_every : (Tool.catchUp ctx t).Every P := by
  refine (Migration.validate_every fun _ => h _ rfl).bind fun err => ?_
  cases err with
  | some => exact trivial
  | none =>
    refine ⟨h _ rfl, fun read => ?_⟩
    obtain ⟨barrier, copied, _⟩ := read
    rcases barrier with _ | barrier
    · exact trivial
    · cases copied with
      | false => exact trivial
      | true =>
        refine ⟨h _ rfl, fun read => ?_⟩
        rcases read with err | ⟨_, _⟩
        · exact trivial
        · refine ⟨h _ rfl, fun _ => ⟨h _ rfl, fun err => ?_⟩⟩
          rcases err with _ | err
          · exact ⟨h _ rfl, fun _ => trivial⟩
          · exact trivial

end

end Operations

/-! ## The methods -/

section Specs

variable {R : machine.State → machine.State → Prop} (hR : ∀ a b, R a b → State.Follows a b)
  {ctx : Option ℕ} {t : String} {s s' : State} {l : List machine.Entry}

include hR

/-- A program that writes nothing leaves everything but the source alone. -/
theorem follows_of_reads {α : Type} {p q : Code α} (h : p.Runs R s l q s')
    (hp : p.Every fun o : Op => o.writes = false) : s.Follows s' := by
  refine related hR h (hp.mono fun o ho _ r _ hperf => ?_)
  rw [performs_reads hperf ho]
  exact .refl _

/-- A complete run of an operation that writes nothing, and what follows it. -/
theorem read_complete {α : Type} {a : α} {o : Op} {f : machine.Res o → Code α} {s₀ : State}
    (hfollows : s₀.Follows s)
    (h : (Program.perform (M := machine) o >>= f).Runs R s l (.ret a) s') (ho : o.writes = false) :
    ∃ s1 r l', machine.Performs o s1 r s1 ∧ l = ⟨o, r, s1, s1⟩ :: l' ∧ s₀.Follows s1 ∧
      (f r).Runs R s1 l' (.ret a) s' := by
  obtain ⟨s1, r, s2, l', hmoves, hp, rfl, h'⟩ := perform_complete h
  obtain rfl : s2 = s1 := performs_reads hp ho
  exact ⟨_, r, l', hp, rfl, hfollows.trans (hR _ _ hmoves), h'⟩

/-- `validate`. -/
theorem validate_spec {err : Option Err} (h : (Migration.validate ctx t).Runs R s l (.ret err) s') :
    s.Follows s' ∧ (err = none → ctx.isSome = true ∧ t ≠ "") ∧
      (Live l → ctx.isSome = true → t ≠ "" → err = none) := by
  unfold Migration.validate at h
  cases ctx with
  | none =>
    obtain ⟨-, herr, hmoves⟩ := h.ret_cases
    cases herr
    exact ⟨hR _ _ hmoves, nofun, nofun⟩
  | some =>
    dsimp only at h
    split_ifs at h with ht
    · obtain ⟨-, herr, hmoves⟩ := h.ret_cases
      cases herr
      exact ⟨hR _ _ hmoves, fun h => (by cases h), fun _ _ ht' => absurd ht ht'⟩
    · obtain ⟨s1, r, s2, _, hmoves, hp, rfl, hrest⟩ := call_complete h
      obtain ⟨-, herr, hmoves'⟩ := hrest.ret_cases
      cases herr
      have hs2 : s2 = s1 := performs_reads hp rfl
      subst hs2
      refine ⟨(hR _ _ hmoves).trans (hR _ _ hmoves'), fun _ => ⟨rfl, ht⟩, fun hlive _ _ => ?_⟩
      have hr := hlive _ mem_cons_self
      exact Option.isNone_iff_eq_none.1 (by simpa [interrupted] using hr)

/-- `normalizeRecords`. -/
theorem normalizeRecords_spec {tenantID : String} {records ordered : List Record}
    (h : (normalizeRecords tenantID records).Runs R s l (.ret ordered) s') :
    s.Follows s' ∧ Sorted (records.map fun r => if tenantID ≠ "" then { r with tenantID } else r)
      ordered := by
  obtain ⟨s1, r, s2, _, hmoves, hp, rfl, hrest⟩ := call_complete h
  obtain ⟨-, hordered, hmoves'⟩ := hrest.ret_cases
  cases hordered
  have hs2 : s2 = s1 := performs_reads hp rfl
  subst hs2
  exact ⟨(hR _ _ hmoves).trans (hR _ _ hmoves'), performs_sortSlice hp⟩

/-- A method that returns an error leaves everything as it was. -/
theorem failed_spec {report : Report} {err : Err} {out : Outcome} {s1 : State}
    (hfollows : s.Follows s1) (h : (pure (report, some err) : Code Outcome).Runs R s1 l (.ret out) s') :
    out.2 ≠ none ∧ s.Follows s' := by
  obtain ⟨-, hout, hmoves⟩ := h.ret_cases
  cases hout
  exact ⟨Option.some_ne_none _, hfollows.trans (hR _ _ hmoves)⟩

variable [Std.Refl R] {sha256 : List UInt8 → List UInt8} {records : List Record}

/-- `Digest`. -/
theorem digest_spec {d : String} (h : (digest sha256 records).Runs R s l (.ret d) s') :
    s.Follows s' ∧ ∃ ordered, Sorted records ordered ∧ d = digestOf sha256 ordered := by
  obtain ⟨ordered, _, _, _, rfl, h1, h2⟩ := bind_complete h
  obtain ⟨-, hd, hmoves⟩ := h2.ret_cases
  cases hd
  obtain ⟨hfollows, hsorted⟩ := normalizeRecords_spec hR h1
  simp only [ne_eq, not_true_eq_false, if_false, map_id'] at hsorted
  exact ⟨hfollows.trans (hR _ _ hmoves), ordered, hsorted, rfl⟩

/-- The comparison of two snapshots. -/
theorem compare_spec {source destination : Snapshot} {sourceDigest destinationDigest : String}
    {validated : Bool} (h : (Tool.compare sha256 t source destination).Runs R s l
      (.ret (sourceDigest, destinationDigest, validated)) s') :
    s.Follows s' ∧ ∃ sources destinations, Sorted source.records sources ∧
      Sorted destination.records destinations ∧
      (validated = true ↔ digestOf sha256 sources = digestOf sha256 destinations ∧
        source.records.length = destination.records.length) := by
  obtain ⟨d, _, l2, _, rfl, h1, h⟩ := bind_complete h
  obtain ⟨hfollows1, sources, hsources, rfl⟩ := digest_spec hR h1
  obtain ⟨d, l2, l3, _, rfl, h2, h⟩ := bind_complete h
  obtain ⟨hfollows2, destinations, hdestinations, rfl⟩ := digest_spec hR h2
  split_ifs at h with hd
  · obtain ⟨_, l3, l4, _, rfl, h3, h⟩ := bind_complete h
    obtain ⟨hfollows3, hordered⟩ := normalizeRecords_spec hR h3
    obtain ⟨_, l4, _, _, rfl, h4, h⟩ := bind_complete h
    obtain ⟨hfollows4, hordered'⟩ := normalizeRecords_spec hR h4
    obtain ⟨-, hout, hmoves⟩ := h.ret_cases
    cases hout
    refine ⟨hfollows1.trans (hfollows2.trans (hfollows3.trans (hfollows4.trans (hR _ _ hmoves)))),
      sources, destinations, hsources, hdestinations, ?_⟩
    have hlength := hordered.1.length_eq
    have hlength' := hordered'.1.length_eq
    rw [length_map] at hlength hlength'
    rw [decide_eq_true_iff, hlength, hlength']
    exact ⟨fun hlen => ⟨hd, hlen⟩, fun hboth => hboth.2⟩
  · obtain ⟨-, hout, hmoves⟩ := h.ret_cases
    cases hout
    exact ⟨hfollows1.trans (hfollows2.trans (hR _ _ hmoves)), sources, destinations, hsources,
      hdestinations, fun h => (by cases h), fun h => absurd h.1 hd⟩

/-- `Validate` compares the records of the source when it reads them with those of the destination,
which do not change meanwhile. -/
theorem Tool.validate_spec {out : Outcome}
    (h : (Tool.validate sha256 ctx t).Runs R s l (.ret out) s') :
    s.Follows s' ∧ ((out.2 ≠ none ∧ (Live l → ctx.isSome = true → t = "")) ∨
      ∃ l1 read l2 sources destinations, l = l1 ++ read :: l2 ∧ read.op = .snapshotSource t ∧
        (∀ e ∈ l2, e.op ≠ .snapshotSource t) ∧ s.Follows read.pre ∧ State.Follows read.pre s' ∧
        t ≠ "" ∧ Sorted (values (read.pre.source.recordsOf t)) sources ∧
        Sorted (values (s'.destination.recordsOf t)) destinations ∧
        (out.2 = none ↔ digestOf sha256 sources = digestOf sha256 destinations ∧
          sources.length = destinations.length)) := by
  obtain ⟨err, l1, l2, _, rfl, h1, h2⟩ := bind_complete h
  obtain ⟨hfollows1, hnone, hlive⟩ := Migration.validate_spec hR h1
  cases err with
  | some =>
    obtain ⟨-, hout, hmoves⟩ := h2.ret_cases
    cases hout
    refine ⟨hfollows1.trans (hR _ _ hmoves), .inl ⟨Option.some_ne_none _, fun hl hctx => ?_⟩⟩
    by_contra ht
    exact Option.some_ne_none _ (hlive (fun e he => hl e (mem_append_left _ he)) hctx ht)
  | none =>
    obtain ⟨-, ht⟩ := hnone rfl
    obtain ⟨s3, r, _, hp, rfl, hread, h3⟩ := read_complete hR hfollows1 h2 rfl
    obtain ⟨_, rfl, horder⟩ := performs_snapshotSource hp ht
    obtain ⟨s5, r, _, hp', rfl, hread', h4⟩ := read_complete hR (.refl s3) h3 rfl
    obtain ⟨_, rfl, horder'⟩ := performs_snapshotDestination hp' ht
    obtain ⟨⟨d, _, validated⟩, _, _, _, rfl, h5, h6⟩ := bind_complete h4
    obtain ⟨hfollows5, sources, destinations, hsources, hdestinations, hvalidated⟩ :=
      compare_spec hR h5
    obtain ⟨rfl, hout, hmoves6⟩ := h6.ret_cases
    cases hout
    have hend : State.Follows s5 s' := hfollows5.trans (hR _ _ hmoves6)
    refine ⟨hread.trans (hread'.trans hend), .inr ⟨l1, _, _, sources, destinations, rfl, rfl, ?_,
      hread, hread'.trans hend, ht, hsources.of_perm horder, ?_, ?_⟩⟩
    · have hsorts := (h5.every (P := fun o : Op => ∀ t, o ≠ .snapshotSource t)
        (compare_every (fun _ _ h => (by cases h)) _ _)).1
      rw [append_nil]
      exact forall_mem_cons.2 ⟨fun h => (by cases h), fun e he => hsorts e he t⟩
    · rw [hend.destination]
      exact hdestinations.of_perm horder'
    · have hsources' := hsources.1.length_eq
      have hdestinations' := hdestinations.1.length_eq
      rw [hsources', hdestinations', ← hvalidated]
      cases validated <;> simp

omit [Std.Refl R] in
/-- The end of `Cutover` notes the backend that was selected before. -/
theorem setCutover_spec {backend : Backend} {done : Outcome} {q : Code Outcome}
    (h : (setCutover t backend >>= fun _ => pure done).Runs R s l q s') :
    s'.destination = s.destination ∧ s'.router = s.router ∧
      ∀ out, q = .ret out → out = done ∧ s'.tool = s.tool.withCutover t backend := by
  rcases perform_cases h with ⟨hq, hmoves⟩ | ⟨_, r, _, _, hmoves, hp, rfl, hrest⟩
  · have hfollows := hR _ _ hmoves
    exact ⟨hfollows.destination, hfollows.router, fun out hout => absurd hout (hq out)⟩
  · obtain rfl := performs_setCutover hp
    obtain ⟨-, rfl, hmoves'⟩ := hrest.ret_cases
    have hfollows := hR _ _ hmoves
    have hfollows' := hR _ _ hmoves'
    refine ⟨hfollows'.destination.trans hfollows.destination,
      hfollows'.router.trans hfollows.router, fun out hout => ?_⟩
    cases hout
    refine ⟨rfl, ?_⟩
    rw [hfollows'.tool, ← hfollows.tool]

/-- `Cutover` leaves everything as it is, or finds equal digests and switches the route. Where it
succeeds without a switch, the route is the destination already. -/
theorem Tool.cutover_spec {q : Code Outcome} (h : (Tool.cutover sha256 ctx t).Runs R s l q s') :
    (s.Follows s' ∧ ∀ out, q = .ret out → out.2 = none → s.router.selected t = .destination) ∨
    (t ≠ "" ∧ s.router.selected t = .source ∧ s'.destination = s.destination ∧
      (s'.router.selected t = .destination ∧
        ∀ out, q = .ret out → out.2 = none ∧ s'.tool = s.tool.withCutover t .source) ∧
      ∃ l1 read l2 switch l3 sources destinations, l = l1 ++ read :: (l2 ++ switch :: l3) ∧
        read.op = .snapshotSource t ∧ (∀ e ∈ l2, e.op ≠ .snapshotSource t) ∧
        switch.op = .set t .destination ∧ s.Follows read.pre ∧ State.Follows read.pre switch.pre ∧
        Sorted (values (read.pre.source.recordsOf t)) sources ∧
        Sorted (values (s'.destination.recordsOf t)) destinations ∧
        digestOf sha256 sources = digestOf sha256 destinations) := by
  rcases bind_cases h with ⟨hq, p', h1⟩ | ⟨err, l1, l2, _, rfl, h1, h2⟩
  · refine .inl ⟨follows_of_reads hR h1 (Migration.validate_every fun _ => rfl), fun out hout => ?_⟩
    exact absurd hout (hq out)
  obtain ⟨hfollows1, hnone, -⟩ := Migration.validate_spec hR h1
  cases err with
  | some =>
    obtain ⟨-, rfl, hmoves⟩ := h2.ret_cases
    exact .inl ⟨hfollows1.trans (hR _ _ hmoves), fun out hout hok => by cases hout; cases hok⟩
  | none =>
    obtain ⟨-, ht⟩ := hnone rfl
    rcases perform_cases h2 with ⟨hq, hmoves⟩ | ⟨s2, flags, s3, l3, hmoves, hp, rfl, h3⟩
    · exact .inl ⟨hfollows1.trans (hR _ _ hmoves), fun out hout => absurd hout (hq out)⟩
    obtain rfl : s3 = s2 := performs_reads hp rfl
    have hfollows3 : s.Follows s3 := hfollows1.trans (hR _ _ hmoves)
    split_ifs at h3
    · obtain ⟨-, rfl, hmoves'⟩ := h3.ret_cases
      exact .inl ⟨hfollows3.trans (hR _ _ hmoves'), fun out hout hok => by cases hout; cases hok⟩
    rcases bind_cases h3 with ⟨hq, p', h4⟩ | ⟨⟨_, err⟩, _, _, s4, rfl, h4, h5⟩
    · have hreads := follows_of_reads hR h4 (Tool.validate_every fun _ => id)
      exact .inl ⟨hfollows3.trans hreads, fun out hout => absurd hout (hq out)⟩
    obtain ⟨hfollows4, hvalidated⟩ := Tool.validate_spec hR h4
    have hfollows5 : s.Follows s4 := hfollows3.trans hfollows4
    cases err with
    | some =>
      obtain ⟨-, rfl, hmoves'⟩ := h5.ret_cases
      exact .inl ⟨hfollows5.trans (hR _ _ hmoves'), fun out hout hok => by cases hout; cases hok⟩
    | none =>
      rcases hvalidated with ⟨hfail, -⟩ | ⟨lv1, read, lv2, sources, destinations, rfl, hread, hnone',
        hread1, hread2, -, hsources, hdestinations, hvalid⟩
      · exact absurd rfl hfail
      rcases perform_cases h5 with ⟨hq, hmoves6⟩ | ⟨s6, r, s7, _, hmoves6, hp6, rfl, h6⟩
      · exact .inl ⟨hfollows5.trans (hR _ _ hmoves6), fun out hout => absurd hout (hq out)⟩
      obtain rfl := performs_current hp6 ht
      obtain rfl : s7 = s6 := performs_reads hp6 rfl
      have hfollows6 : s.Follows s7 := hfollows5.trans (hR _ _ hmoves6)
      cases hselected : s7.router.selected t with
      | destination =>
        rw [hselected] at h6
        refine .inl ⟨?_, fun _ _ _ => hfollows6.router ▸ hselected⟩
        rcases perform_cases h6 with ⟨-, hmoves8⟩ | ⟨s8, known, s9, l8, hmoves8, hp8, rfl, h8⟩
        · exact hfollows6.trans (hR _ _ hmoves8)
        · obtain rfl : s9 = s8 := performs_reads hp8 rfl
          have hend : R s9 s' := by
            cases known with
            | none => exact h8.ret_cases.2.2
            | some => exact h8.ret_cases.2.2
          exact (hfollows6.trans (hR _ _ hmoves8)).trans (hR _ _ hend)
      | source =>
        rw [hselected] at h6
        rcases perform_cases h6 with ⟨hq, hmoves8⟩ | ⟨s8, r, s9, l8, hmoves8, hp8, rfl, h8⟩
        · exact .inl ⟨hfollows6.trans (hR _ _ hmoves8), fun out hout => absurd hout (hq out)⟩
        have hfollows8 : State.Follows s s8 := hfollows6.trans (hR _ _ hmoves8)
        obtain ⟨rfl, hs9⟩ := performs_set hp8 ht
        obtain ⟨hdestination, hrouter, hnoted⟩ := setCutover_spec hR h8
        have hdestination' : s'.destination = s.destination := by
          rw [hdestination, hs9, hfollows8.destination]
        refine .inr ⟨ht, hfollows6.router ▸ hselected, hdestination', ⟨?_, fun out hout => ?_⟩,
          l1 ++ ⟨.flags t, flags, s3, s3⟩ :: lv1, read, lv2 ++ [⟨.current t, .ok .source, s7, s7⟩],
          ⟨.set t .destination, none, s8, s9⟩, l8, sources, destinations, ?_, hread, ?_, rfl,
          hfollows3.trans hread1, hread2.trans ((hR _ _ hmoves6).trans (hR _ _ hmoves8)), hsources,
          ?_, (hvalid.1 rfl).1⟩
        · rw [hrouter, hs9, MemoryRouter.selected_insert]
        · obtain ⟨rfl, htool⟩ := hnoted out hout
          rw [htool, hs9, hfollows8.tool]
          exact ⟨rfl, rfl⟩
        · simp only [append_assoc, cons_append, nil_append]
        · intro e he
          rcases mem_append.1 he with he | he
          · exact hnone' e he
          · rw [mem_singleton.1 he]
            exact Op.noConfusion
        · rw [hdestination', ← hfollows5.destination]
          exact hdestinations

/-- A method that starts with `validate` fails there, or goes on. -/
theorem validated_spec {f : Option Err → Code Outcome} {out : Outcome}
    (h : (Migration.validate ctx t >>= f).Runs R s l (.ret out) s')
    (herr : ∀ err, f (some err) = pure ({}, some err)) :
    (out.2 ≠ none ∧ s.Follows s') ∨ ∃ l1 l2 s1, l = l1 ++ l2 ∧ s.Follows s1 ∧ t ≠ "" ∧
      (f none).Runs R s1 l2 (.ret out) s' := by
  obtain ⟨err, l1, l2, s1, rfl, h1, h2⟩ := bind_complete h
  obtain ⟨hfollows1, hnone, -⟩ := Migration.validate_spec hR h1
  cases err with
  | some =>
    rw [herr] at h2
    exact .inl (failed_spec hR hfollows1 h2)
  | none => exact .inr ⟨l1, l2, s1, rfl, hfollows1, (hnone rfl).2, h2⟩

/-- `Rollback` leaves everything as it is, or selects the backend that was noted by the cutover. -/
theorem Tool.rollback_spec {out : Outcome}
    (h : (Tool.rollback sha256 ctx t).Runs R s l (.ret out) s') :
    (out.2 ≠ none ∧ s.Follows s') ∨ (out.2 = none ∧ s.tool.cutovers.lookup t = some .source ∧
      s'.router.selected t = .source ∧ s'.tool = s.tool) := by
  rcases validated_spec hR h fun _ => rfl with hfail | ⟨_, _, _, rfl, hfollows1, ht, h2⟩
  · exact .inl hfail
  obtain ⟨s3, noted, _, hp, rfl, hfollows3, h3⟩ := read_complete hR hfollows1 h2 rfl
  have hnoted := performs_cutover hp
  rcases noted with _ | _ | _
  case none | some.destination =>
    exact .inl (failed_spec hR hfollows3 h3)
  case some.source =>
    obtain ⟨⟨_, err⟩, _, _, s4, rfl, h4, h5⟩ := bind_complete h3
    have hfollows4 : s.Follows s4 := hfollows3.trans (Tool.validate_spec hR h4).1
    cases err with
    | some =>
      exact .inl (failed_spec hR hfollows4 h5)
    | none =>
      obtain ⟨s5, r, _, _, hmoves5, hp', rfl, h6⟩ := perform_complete h5
      obtain ⟨rfl, rfl⟩ := performs_set hp' ht
      obtain ⟨-, hout, hmoves6⟩ := h6.ret_cases
      cases hout
      have hfollows5 : s.Follows s5 := hfollows4.trans (hR _ _ hmoves5)
      refine .inr ⟨rfl, ?_, ?_, (hR _ _ hmoves6).tool.trans hfollows5.tool⟩
      · rw [hnoted, hfollows3.tool]
      · rw [(hR _ _ hmoves6).router, MemoryRouter.selected_insert]

/-- `Begin` sets the barrier at the watermark that it reads, or does nothing. -/
theorem Tool.begin_spec {out : Outcome} (h : (Tool.begin ctx t).Runs R s l (.ret out) s') :
    (out.2 ≠ none ∧ s.Follows s') ∨ (out.2 = none ∧ t ≠ "" ∧ s'.destination = s.destination ∧
      s'.router = s.router ∧ ∃ read ∈ l, read.op = .beginDualWrite t ∧ s.Grows read.pre ∧
        State.Grows read.pre s' ∧ s'.tool = s.tool.withBarrier t (read.pre.source.seqOf t)) := by
  rcases validated_spec hR h fun _ => rfl with hfail | ⟨_, _, _, rfl, hfollows1, ht, h2⟩
  · exact .inl hfail
  obtain ⟨s2, r, _, _, hmoves2, hp, rfl, h3⟩ := perform_complete h2
  obtain ⟨rfl, hfollows3⟩ := performs_beginDualWrite hp ht
  obtain ⟨s4, r, s5, _, hmoves4, hp', rfl, h4⟩ := perform_complete h3
  have hgrows4 : State.Grows s4 s5 := performs_source hp'
  obtain ⟨_, hp'⟩ := hp'
  cases hp'
  obtain ⟨-, hout, hmoves5⟩ := h4.ret_cases
  cases hout
  have hread : s.Follows s2 := hfollows1.trans (hR _ _ hmoves2)
  have hlocked : State.Follows s2 s4 := hfollows3.trans (hR _ _ hmoves4)
  have hend := hR _ _ hmoves5
  refine .inr ⟨rfl, ht, ?_, ?_, _, mem_append_right _ mem_cons_self, rfl, hread.toGrows,
    hlocked.toGrows.trans (hgrows4.trans hend.toGrows), ?_⟩
  · exact hend.destination.trans (hlocked.destination.trans hread.destination)
  · exact hend.router.trans (hlocked.router.trans hread.router)
  · rw [hend.tool]
    dsimp only
    rw [hlocked.tool, hread.tool]

omit hR [Std.Refl R] in
/-- The records of a tenant name it already. -/
theorem map_tenantID (h : ∀ r ∈ records, r.tenantID = t) :
    (records.map fun r => if t ≠ "" then { r with tenantID := t } else r) = records := by
  refine (map_congr_left fun r hr => ?_).trans (map_id records)
  split_ifs
  · rw [← h r hr, id]
  · rfl

/-- The end of `Copy` and of `CatchUp`: records of the tenant are written to the destination in some
sorted order, and a locked section takes note of it. -/
theorem applied_spec
    (hnamed : ∀ r ∈ records, r.tenantID = t ∧ t ≠ "" ∧ r.kind ≠ "" ∧ r.key ≠ "")
    {o : Op} {f : Tool → Tool} (hnoted : ∀ {s r s'}, machine.Performs o s r s' →
      s' = ({ s with tool := f s.tool } : State))
    {rest : List Record → Option Err → Code Outcome} (hrest : ∀ ordered, ∃ report,
      rest ordered none = Program.perform (M := machine) o >>= fun _ => pure (report, none))
    {out : Outcome} (h : (normalizeRecords t records >>= fun ordered =>
      apply ordered >>= rest ordered).Runs R s l (.ret out) s') :
    out.2 = none ∧ s.Grows s' ∧ s'.router = s.router ∧ s'.tool = f s.tool ∧
      ∃ ordered, Sorted records ordered ∧ ∀ k, (s'.destination.recordsOf t).lookup k =
        (Go.latestBy Record.mapKey ordered k).or ((s.destination.recordsOf t).lookup k) := by
  obtain ⟨ordered, _, _, _, rfl, h1, h2⟩ := bind_complete h
  obtain ⟨hfollows1, hsorted⟩ := normalizeRecords_spec hR h1
  rw [map_tenantID fun r hr => (hnamed r hr).1] at hsorted
  obtain ⟨s2, _, s3, _, hmoves2, hp, rfl, h3⟩ := perform_complete h2
  have hgrows3 : State.Grows s2 s3 := performs_source hp
  obtain ⟨rfl, rfl⟩ := performs_apply hp
  obtain ⟨herr, hlookup⟩ := s2.destination.apply_spec fun r hr => hnamed r (hsorted.1.mem_iff.1 hr)
  obtain ⟨report, hreport⟩ := hrest ordered
  rw [herr, hreport] at h3
  obtain ⟨s4, r, s5, _, hmoves4, hp', rfl, h4⟩ := perform_complete h3
  have hgrows5 : State.Grows s4 s5 := performs_source hp'
  obtain rfl := hnoted hp'
  obtain ⟨-, hout, hmoves⟩ := h4.ret_cases
  cases hout
  have happly : s.Follows s2 := hfollows1.trans (hR _ _ hmoves2)
  have hlocked := hR _ _ hmoves4
  have hend := hR _ _ hmoves
  refine ⟨rfl, happly.toGrows.trans (hgrows3.trans (hlocked.toGrows.trans
    (hgrows5.trans hend.toGrows))), ?_, ?_, ordered, hsorted, fun k => ?_⟩
  · exact hend.router.trans (hlocked.router.trans happly.router)
  · rw [hend.tool]
    change f s4.tool = _
    rw [hlocked.tool]
    change f s2.tool = _
    rw [happly.tool]
  · have hdestination : s'.destination = (s2.destination.apply ordered).2 :=
      hend.destination.trans hlocked.destination
    rw [hdestination, hlookup, happly.destination]

/-- `Copy` writes the records of a snapshot to the destination, or does nothing. -/
theorem Tool.copy_spec (hsound : s.source.Sound) {out : Outcome}
    (h : (Tool.copy ctx t).Runs R s l (.ret out) s') :
    (out.2 ≠ none ∧ s.Follows s') ∨ (out.2 = none ∧ s'.router = s.router ∧
      s'.tool = s.tool.withCopied t ∧ ∃ read : State, s.Grows read ∧ read.Grows s' ∧
        (∃ barrier, s.tool.barriers.lookup t = some barrier) ∧
        ∀ k, (s'.destination.recordsOf t).lookup k =
          (((read.source.recordsOf t).lookup k).or ((s.destination.recordsOf t).lookup k))) := by
  rcases validated_spec hR h fun _ => rfl with hfail | ⟨_, _, _, rfl, hfollows1, ht, h2⟩
  · exact .inl hfail
  obtain ⟨s3, read, _, hp, rfl, hfollows2, h3⟩ := read_complete hR hfollows1 h2 rfl
  obtain rfl := performs_flags hp
  cases hbarrier : (s3.tool.flagsOf t).barrier with
  | none =>
    rw [hbarrier] at h3
    exact .inl (failed_spec hR hfollows2 h3)
  | some barrier =>
    rw [hbarrier] at h3
    obtain ⟨s5, r, _, hp', rfl, hfollows5, h4⟩ := read_complete hR hfollows2 h3 rfl
    obtain ⟨order, rfl, horder⟩ := performs_snapshotSource hp' ht
    dsimp only at h4
    split_ifs at h4
    · exact .inl (failed_spec hR hfollows5 h4)
    · -- the records of the snapshot, each under its own key
      have hsound5 := hfollows5.sound hsound
      have hkeyed : ∀ k r, (s5.source.recordsOf t).lookup k = some r → r.mapKey = k :=
        fun k r hr => (hsound5.mem_log hr).2
      have hnamed : ∀ r ∈ order, r.tenantID = t ∧ t ≠ "" ∧ r.kind ≠ "" ∧ r.key ≠ "" := by
        intro r hr
        obtain ⟨k, hk⟩ := mem_values.1 (horder.mem_iff.1 hr)
        exact hsound5.named t r (hsound5.mem_log hk).1
      obtain ⟨hout, hgrows, hrouter, htool, ordered, hsorted, hlookup⟩ :=
        applied_spec hR hnamed (o := .setCopied t) (f := fun tool => tool.withCopied t)
          (fun ⟨_, hp⟩ => by cases hp; rfl) (fun _ => ⟨_, rfl⟩) h4
      refine .inr ⟨hout, hrouter.trans hfollows5.router, ?_, s5, hfollows5.toGrows, hgrows,
        ⟨barrier, ?_⟩, fun k => ?_⟩
      · rw [htool, hfollows5.tool]
      · rw [← hfollows2.tool]
        exact hbarrier
      · have hvalues : Go.latestBy Record.mapKey ordered k = (s5.source.recordsOf t).lookup k := by
          rw [← latestBy_values hkeyed]
          exact (Go.latestBy_perm (nodup_values hkeyed) (hsorted.of_perm horder).1.symm k).symm
        rw [hlookup, hvalues, hfollows5.destination]

/-- `CatchUp` writes what was put after the barrier to the destination, or does nothing. -/
theorem Tool.catchUp_spec (hsound : s.source.Sound) {out : Outcome}
    (h : (Tool.catchUp ctx t).Runs R s l (.ret out) s') :
    (out.2 ≠ none ∧ s.Follows s') ∨ (out.2 = none ∧ s'.router = s.router ∧
      s'.tool = s.tool.withCaughtUp t ∧ ∃ barrier, (s.tool.flagsOf t).barrier = some barrier ∧
        (s.tool.flagsOf t).copied = true ∧ ∃ read ∈ l, read.op = .changes t barrier ∧
        s.Grows read.pre ∧ State.Grows read.post s' ∧ read.post = read.pre ∧
        ∀ n : ℕ, barrier = n → ∃ ordered, Sorted ((read.pre.source.log t).drop n) ordered ∧
          ∀ k, (s'.destination.recordsOf t).lookup k =
            (Go.latestBy Record.mapKey ordered k).or ((s.destination.recordsOf t).lookup k)) := by
  rcases validated_spec hR h fun _ => rfl with hfail | ⟨_, _, _, rfl, hfollows1, _, h2⟩
  · exact .inl hfail
  obtain ⟨s3, read, _, hp, rfl, hfollows2, h3⟩ := read_complete hR hfollows1 h2 rfl
  obtain rfl := performs_flags hp
  cases hbarrier : (s3.tool.flagsOf t).barrier with
  | none =>
    rw [hbarrier] at h3
    exact .inl (failed_spec hR hfollows2 h3)
  | some barrier =>
    cases hcopied : (s3.tool.flagsOf t).copied with
    | false =>
      rw [hbarrier, hcopied] at h3
      exact .inl (failed_spec hR hfollows2 h3)
    | true =>
      rw [hbarrier, hcopied] at h3
      obtain ⟨s5, r, _, hp', rfl, hfollows5, h4⟩ := read_complete hR hfollows2 h3 rfl
      obtain rfl := performs_changes hp'
      have hsound5 := hfollows5.sound hsound
      rw [hfollows2.tool] at hbarrier hcopied
      by_cases hvalid : t = "" ∨ barrier < 0
      · rw [MemorySource.changesAfter, if_pos hvalid] at h4
        exact .inl (failed_spec hR hfollows5 h4)
      · have hread : s5.source.changesAfter t barrier = .ok
            ((s5.source.changesOf t).filter fun c => c.sequence > barrier, s5.source.seqOf t) :=
          if_neg hvalid
        rw [hread] at h4
        have hnamed : ∀ p, ∀ r ∈ (((s5.source.changesOf t).filter fun c =>
            decide (c.sequence > barrier)).filter p).map Change.record,
            r.tenantID = t ∧ t ≠ "" ∧ r.kind ≠ "" ∧ r.key ≠ "" := by
          intro p r hr
          obtain ⟨c, hc, rfl⟩ := mem_map.1 hr
          have hmem := mem_of_mem_filter (mem_of_mem_filter hc)
          exact hsound5.named t _ (mem_map_of_mem hmem)
        obtain ⟨hout, hgrows, hrouter, htool, ordered, hsorted, hlookup⟩ :=
          applied_spec hR (hnamed _) (o := .setCaughtUp t) (f := fun tool => tool.withCaughtUp t)
            (fun ⟨_, hp⟩ => by cases hp; rfl) (fun _ => ⟨_, rfl⟩) h4
        refine .inr ⟨hout, hrouter.trans hfollows5.router, ?_, barrier, hbarrier, hcopied, _,
          mem_append_right _ (mem_cons_of_mem _ mem_cons_self), rfl,
          hfollows5.toGrows, hgrows, rfl, ?_⟩
        · rw [htool, hfollows5.tool]
        · rintro n rfl
          rw [filter_filter] at hsorted
          refine ⟨ordered, ?_, fun k => ?_⟩
          · rw [← hsound5.changesAfter]
            simpa using hsorted
          · rw [hlookup, hfollows5.destination]

end Specs

end AgentService.Migration
