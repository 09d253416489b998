import AgentService.Migration.Convergence

/-!
# The cutover

An operator calls `Begin`, `Copy`, `CatchUp`, and `Cutover` for a tenant while records are put
(`Tool.migrate`). `Cutover` compares the source with the destination, asks the router, and switches
the route, one after the other. A record that is put after the source was read and before the route
is switched is in the source only (`latePut_lost`). Whether the records put before the switch are
all in the destination is decided by that alone, and by records with different kinds and keys that
the source itself keeps under one key (`cutover_keeps_iff`).
-/

namespace AgentService.Migration

open Concurrent Program List

/-- Every record of the log that no later one with its kind and key replaces is in the
destination. -/
def Kept (t : String) (log : List Record) (d : MemoryDestination) : Prop :=
  ∀ l₁ r l₂, log = l₁ ++ r :: l₂ → (∀ r' ∈ l₂, (r'.kind, r'.key) ≠ (r.kind, r.key)) →
    (d.recordsOf t).lookup r.mapKey = some r

/-- Records with different kinds or keys lie under different keys in a map. -/
def CollisionFree (log : List Record) : Prop :=
  ∀ r ∈ log, ∀ r' ∈ log, r.mapKey = r'.mapKey → (r.kind, r.key) = (r'.kind, r'.key)

/-! ## Two logs -/

section Logs

variable {t : String} {d : MemoryDestination} {log : List Record}

/-- Where the keys do not collide, the latest records of the log are kept exactly if the destination
has the latest record under each key. -/
theorem kept_of_latest (hfree : CollisionFree log)
    (h : ∀ k, (d.recordsOf t).lookup k = Go.latestBy Record.mapKey log k) : Kept t log d := by
  rintro l1 r l2 rfl hlast
  rw [h]
  refine Go.latestBy_eq_some_iff.2 ⟨rfl, l1, l2, rfl, fun r' hr' heq => ?_⟩
  exact hlast r' hr' (hfree r' (mem_append_right _ (mem_cons_of_mem _ hr')) r
    (mem_append_right _ mem_cons_self) heq)

/-- A record of a log, and the last one with its kind and key. -/
theorem exists_last {r : Record} (hr : r ∈ log) :
    ∃ l1 last l2, log = l1 ++ last :: l2 ∧ (last.kind, last.key) = (r.kind, r.key) ∧
      ∀ r' ∈ l2, (r'.kind, r'.key) ≠ (last.kind, last.key) := by
  have hexists : ∃ last, Go.latestBy (fun r : Record => (r.kind, r.key)) log (r.kind, r.key) =
      some last := Go.exists_latestBy hr rfl
  obtain ⟨last, hlast⟩ := hexists
  obtain ⟨hkey, l1, l2, hsplit, hl2⟩ := Go.latestBy_eq_some_iff.1 hlast
  exact ⟨l1, last, l2, hsplit, hkey, fun r' hr' => hkey ▸ hl2 r' hr'⟩

/-- Records that are kept do not collide. -/
theorem Kept.collisionFree (h : Kept t log d) : CollisionFree log := by
  intro r hr _ hr' hkey
  obtain ⟨l1, last, l2, hsplit, hlast, hl2⟩ := exists_last hr
  obtain ⟨l1', last', l2', hsplit', hlast', hl2'⟩ := exists_last hr'
  have hmapKey : ∀ {a b : Record}, (a.kind, a.key) = (b.kind, b.key) → a.mapKey = b.mapKey := by
    intro a b hab
    rw [Prod.mk.injEq] at hab
    rw [Record.mapKey, Record.mapKey, hab.1, hab.2]
  have hkept := h l1 last l2 hsplit hl2
  have hkept' := h l1' last' l2' hsplit' hl2'
  rw [hmapKey hlast, hkey, ← hmapKey hlast', hkept', Option.some.injEq] at hkept
  rw [← hlast, ← hlast', hkept]

/-- A destination that has the records of an earlier source keeps all records of the later one
exactly if nothing was put in between and no keys collide. -/
theorem kept_iff {source source' : MemorySource} (hsound : source.Sound) (hsound' : source'.Sound)
    (hlog : source.log t <+: source'.log t)
    (h : ∀ k, (d.recordsOf t).lookup k = (source.recordsOf t).lookup k) :
    Kept t (source'.log t) d ↔ source.log t = source'.log t ∧ CollisionFree (source'.log t) := by
  constructor
  · intro hkept
    refine ⟨?_, hkept.collisionFree⟩
    by_contra hne
    -- the last record of the later source is newer than all records of the earlier one
    obtain ⟨more, hmore⟩ := hlog
    rcases eq_nil_or_concat more with rfl | ⟨more, last, rfl⟩
    · exact hne (by rw [← hmore, append_nil])
    · rw [concat_eq_append, ← append_assoc] at hmore
      have hlast := hkept _ last [] hmore.symm fun _ hr' => absurd hr' not_mem_nil
      rw [h] at hlast
      have hle := hsound.version_le (hsound.mem_log hlast).1
      have hversion := hsound'.version t _ last [] hmore.symm
      rw [length_append] at hversion
      omega
  · rintro ⟨heq, hfree⟩
    refine kept_of_latest hfree fun k => ?_
    rw [h, hsound.records, heq]

/-- A source and a destination with equal digests have the same records. -/
theorem lookup_eq_of_digest {sha256 : List UInt8 → List UInt8} (hsha : Function.Injective sha256)
    {source : MemorySource} (hsound : source.Sound) (hkeyed : d.Keyed)
    {sources destinations : List Record} (hsources : Sorted (values (source.recordsOf t)) sources)
    (hdestinations : Sorted (values (d.recordsOf t)) destinations)
    (hdigest : digestOf sha256 sources = digestOf sha256 destinations) (k : String) :
    (d.recordsOf t).lookup k = (source.recordsOf t).lookup k := by
  obtain rfl : sources = destinations := digestOf_injective hsha hdigest
  have hsource : ∀ k r, (source.recordsOf t).lookup k = some r → r.mapKey = k :=
    fun k r hr => (hsound.mem_log hr).2
  have hdestination : ∀ k r, (d.recordsOf t).lookup k = some r → r.mapKey = k :=
    fun k r hr => (hkeyed t k r hr).2
  rw [← latestBy_values hsource, ← latestBy_values hdestination]
  exact Go.latestBy_perm (nodup_values hdestination) (hdestinations.1.symm.trans hsources.1) k

end Logs

/-! ## The switch -/

/-- No operation spoils the destination. -/
theorem performs_keyed {o : Op} {s s' : State} {r : machine.Res o} (h : machine.Performs o s r s')
    (hkeyed : s.destination.Keyed) : s'.destination.Keyed := by
  by_cases happly : o.applies = false
  · rw [performs_destination h happly]
    exact hkeyed
  · cases o with
    | apply records =>
      rw [(performs_apply h).2]
      exact hkeyed.apply records
    | _ => exact absurd rfl happly

section Switch

variable {sha256 : List UInt8 → List UInt8} {R : machine.State → machine.State → Prop}
  (hR : ∀ a b, R a b → State.Follows a b) {ctx : Option ℕ} {t : String} {s s' : State}
  {l : List machine.Entry}

include hR

variable {α : Type}

/-- A program that changes no route leaves the routes as they are. -/
theorem router_of_every {p q : Code α} (h : p.Runs R s l q s')
    (hp : p.Every fun o : Op => o.sets = false) : s'.router = s.router := by
  refine Runs.keeps (M := machine) State.router (fun a b h => (hR a b h).router) h ?_
  exact hp.mono fun o ho _ r _ hperf => performs_router hperf ho

/-- The source only gets more records, whatever the program does. -/
theorem grows_of_runs {p q : Code α} (h : p.Runs R s l q s') : s.Grows s' :=
  Runs.related (M := machine) (T := State.Grows) (fun a b hab => (hR a b hab).toGrows) h
    (Every.of_forall (fun _ _ _ _ hperf => performs_source hperf) p)

/-- No program spoils the destination. -/
theorem keyed_of_runs {p q : Code α} (h : p.Runs R s l q s')
    (hkeyed : s.destination.Keyed) : s'.destination.Keyed := by
  have htrans : IsTrans machine.State fun a b => a.destination.Keyed → b.destination.Keyed :=
    ⟨fun _ _ _ h h' hs => h' (h hs)⟩
  refine Runs.related (M := machine) (T := fun a b => a.destination.Keyed → b.destination.Keyed)
    ?_ h ?_ hkeyed
  · exact fun a b hab hs => (hR a b hab).destination ▸ hs
  · exact Every.of_forall (fun _ _ _ _ hperf => performs_keyed hperf) p

variable [Std.Refl R]

/-- Where a route is changed, a program that changes none is complete. -/
theorem before_switch {α β : Type} {p : Code α} {f : α → Code β} {q : Code β}
    (h : (p >>= f).Runs R s l q s') (hp : p.Every fun o : Op => o.sets = false)
    (hsound : s.source.Sound) (hkeyed : s.destination.Keyed) (hrouter : s'.router ≠ s.router) :
    ∃ a l1 l2 s1, l = l1 ++ l2 ∧ (f a).Runs R s1 l2 q s' ∧ s1.source.Sound ∧
      s1.destination.Keyed ∧ s1.router = s.router := by
  rcases Runs.bind_cases h with ⟨-, _, h1⟩ | ⟨a, l1, l2, s1, hl, h1, h2⟩
  · exact absurd (router_of_every hR h1 hp) hrouter
  · exact ⟨a, l1, l2, s1, hl, h2, (grows_of_runs hR h1).sound hsound, keyed_of_runs hR h1 hkeyed,
      router_of_every hR h1 hp⟩

/-- A cutover that switches the route has found the destination equal to the source when it read the
source, and does not change the destination. -/
theorem cutover_switches (hsha : Function.Injective sha256) (hsound : s.source.Sound)
    (hkeyed : s.destination.Keyed) (hbefore : s.router.selected t ≠ .destination) {q : Code Outcome}
    (h : (Tool.cutover sha256 ctx t).Runs R s l q s') (hafter : s'.router.selected t = .destination) :
    ∃ l1 read l2 switch l3, l = l1 ++ read :: (l2 ++ switch :: l3) ∧
      read.op = .snapshotSource t ∧ (∀ e ∈ l2, e.op ≠ .snapshotSource t) ∧
      switch.op = .set t .destination ∧ State.Grows s read.pre ∧ State.Grows read.pre switch.pre ∧
      ∀ k, (s'.destination.recordsOf t).lookup k = (read.pre.source.recordsOf t).lookup k := by
  obtain ⟨hfollows, -⟩ | ⟨-, -, hdestination, -, l1, read, l2, switch, l3, _, _, hl,
    hread, hnone, hswitch, hfollows, hfollows', hsources, hdestinations, hdigest⟩ :=
      Tool.cutover_spec hR h
  · exact absurd (hfollows.router ▸ hafter) hbefore
  · refine ⟨l1, read, l2, switch, l3, hl, hread, hnone, hswitch, hfollows.toGrows,
      hfollows'.toGrows, ?_⟩
    exact lookup_eq_of_digest hsha (hfollows.sound hsound) (hdestination ▸ hkeyed) hsources
      hdestinations hdigest

end Switch

/-! ## The records put before the switch -/

/-- An operator calls `Begin`, `Copy`, `CatchUp`, and `Cutover` for a tenant. -/
def Tool.migrate (sha256 : List UInt8 → List UInt8) (ctx : Option ℕ) (tenantID : String) :
    Code Outcome := do
  let _ ← Tool.begin ctx tenantID
  let _ ← Tool.copy ctx tenantID
  let _ ← Tool.catchUp ctx tenantID
  Tool.cutover sha256 ctx tenantID

/-- In every run in which the cutover has switched the route, the destination has the latest records
put before the switch exactly if none was put after `Cutover` has read the source, and no two of
them have different kinds and keys under the same key of the map. -/
theorem cutover_keeps_iff {sha256 : List UInt8 → List UInt8} (hsha : Function.Injective sha256)
    {ctx : Option ℕ} {t : String} {s s' : State} {l : List machine.Entry} {q : Code Outcome}
    (h : (Tool.migrate sha256 ctx t).Runs machine.Moves s l q s') (hsound : s.source.Sound)
    (hkeyed : s.destination.Keyed) (hbefore : s.router.selected t ≠ .destination)
    (hafter : s'.router.selected t = .destination) :
    ∃ l₁ read l₂ switch l₃, l = l₁ ++ read :: (l₂ ++ switch :: l₃) ∧
      read.op = .snapshotSource t ∧ (∀ e ∈ l₂, e.op ≠ .snapshotSource t) ∧
      switch.op = .set t .destination ∧
      (Kept t (switch.pre.source.log t) s'.destination ↔
        read.pre.source.log t = switch.pre.source.log t ∧
          CollisionFree (switch.pre.source.log t)) := by
  have hR : ∀ a b, machine.Moves a b → State.Follows a b := fun _ _ => follows_of_moves
  have hsame : s'.router ≠ s.router := fun heq => hbefore (heq ▸ hafter)
  -- the first three phases leave the route alone
  obtain ⟨-, lb, l, s1, rfl, h1, hsound1, hkeyed1, hrouter1⟩ :=
    before_switch hR h (Tool.begin_every fun _ => id) hsound hkeyed hsame
  obtain ⟨-, lc, l, s2, rfl, h2, hsound2, hkeyed2, hrouter2⟩ :=
    before_switch hR h1 (Tool.copy_every fun _ => id) hsound1 hkeyed1 (hrouter1 ▸ hsame)
  rw [← hrouter1, ← hrouter2] at hsame
  obtain ⟨-, lu, l, s3, rfl, h3, hsound3, hkeyed3, hrouter3⟩ :=
    before_switch hR h2 (Tool.catchUp_every fun _ => id) hsound2 hkeyed2 hsame
  rw [← hrouter1, ← hrouter2, ← hrouter3] at hbefore
  obtain ⟨l₁, read, l₂, switch, l₃, rfl, hread, hnone, hswitch, hgrows, hgrows', hlookup⟩ :=
    cutover_switches hR hsha hsound3 hkeyed3 hbefore h3 hafter
  refine ⟨lb ++ (lc ++ (lu ++ l₁)), read, l₂, switch, l₃, ?_, hread, hnone, hswitch, ?_⟩
  · simp only [List.append_assoc]
  · have hread : read.pre.source.Sound := hgrows.sound hsound3
    exact kept_iff hread (hgrows'.sound hread) (hgrows'.log t) hlookup

/-- A record is put before `Begin`, the records `early` are put before `Copy`, and the records
`late` are put after `Cutover` has read the source. -/
def migrateTurns (early late copied : List Record) : List (Turn machine) :=
  transferTurns early copied copied.tail ++
    [.own {}, .own {}, .own {}, .own { order := copied }] ++
    late.map (fun r => .others ("t", r)) ++
    List.replicate 5 (.own { order := copied }) ++ [.own {}, .own {}, .own {}]

/-- Nothing is put after the source was read: both records are in the destination. -/
theorem cutover_keeps_iff_caughtUp : ∃ l out s,
    (Tool.migrate id (some 0) "t").Runs machine.Moves {} l (.ret out) s ∧
      s.router.selected "t" = .destination ∧
      Kept "t" [sampleRecord "a" 1 1, sampleRecord "b" 2 2] s.destination := by
  obtain ⟨l, out, s, hrun, hselected, hlog⟩ :=
    exists_runs_of_completes (M := machine) (Tool.migrate id (some 0) "t") {}
      (migrateTurns [sampleRecord "b" 2 0] [] [sampleRecord "a" 1 1, sampleRecord "b" 2 2])
      (fun l _ s => s.router.selected "t" = .destination ∧ l.all (fun e => match e.op with
        | .snapshotSource _ | .set .. =>
          e.pre.source.log "t" = [sampleRecord "a" 1 1, sampleRecord "b" 2 2]
        | _ => true) = true)
      (by decide +kernel)
  obtain ⟨_, read, _, switch, _, rfl, hread, -, hswitch, hkept⟩ := cutover_keeps_iff
    Function.injective_id hrun MemorySource.sound_empty (fun t k r hr => by cases hr) (by decide)
    hselected
  -- both operations find the two records
  have hreadLog := all_eq_true.1 hlog read (by simp)
  have hswitchLog := all_eq_true.1 hlog switch (by simp)
  rw [hread] at hreadLog
  rw [hswitch] at hswitchLog
  rw [of_decide_eq_true hreadLog, of_decide_eq_true hswitchLog] at hkept
  exact ⟨_, out, s, hrun, hselected, hkept.2 ⟨rfl, by unfold CollisionFree; decide +kernel⟩⟩

/-- A record is put after the source was read and before the route is switched: the cutover
succeeds, and the destination does not have the record. -/
theorem latePut_lost : ∃ l out s,
    (Tool.migrate id (some 0) "t").Runs machine.Moves {} l (.ret out) s ∧ out.2 = none ∧
      s.router.selected "t" = .destination ∧
      (∃ e ∈ l, e.op.sets = true ∧ sampleRecord "b" 2 2 ∈ e.pre.source.log "t") ∧
      (s.destination.recordsOf "t").lookup "k\x00b" = none :=
  exists_runs_of_completes (M := machine) (Tool.migrate id (some 0) "t") {}
    (migrateTurns [] [sampleRecord "b" 2 0] [sampleRecord "a" 1 1]) _ (by decide +kernel)

end AgentService.Migration
