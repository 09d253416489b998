import AgentService.Migration.Spec

/-!
# Copy and catch-up

An operator calls `Begin`, `Copy`, and `CatchUp` for a tenant while records are put
(`Tool.transfer`). `CatchUp` sorts the records that were put after the barrier by kind and key
before it writes them, so that two of them with one kind and key may be written in the wrong order;
the destination then keeps the older one (`repeatedPut_diverges`). When no kind and key is put twice
after the barrier, the destination has the records of the source, and `Validate` succeeds
(`transfer_converges`).
-/

namespace AgentService.Migration

open Concurrent Program List

/-- The records of a tenant are the same in the source and in the destination. -/
def SameRecords (t : String) (s : State) : Prop :=
  ∀ k, (s.source.recordsOf t).lookup k = (s.destination.recordsOf t).lookup k

/-- A call that is made alone, under a context that is not done, succeeds, and leaves a state with
`Q`. -/
def Succeeds (p : Code Outcome) (s : State) (Q : State → Prop) : Prop :=
  (∃ l out s', p.Runs Eq s l (.ret out) s' ∧ Live l) ∧
    ∀ l out s', p.Runs Eq s l (.ret out) s' → Live l → out.2 = none ∧ Q s'

/-! ## Validation -/

/-- Every operation can be performed, and a context need not be done. -/
theorem exists_performs (o : machine.Op) (s : machine.State) :
    ∃ r s', machine.Performs o s r s' ∧ interrupted ⟨o, r, s, s'⟩ = false := by
  cases o with
  | sortSlice records =>
    obtain ⟨ordered, hsorted⟩ := exists_sorted records
    exact ⟨_, _, ⟨{ order := ordered }, if_pos hsorted⟩, rfl⟩
  | snapshotSource t =>
    exact ⟨_, _, ⟨{ order := values (s.source.recordsOf t) }, if_pos (List.Perm.refl _)⟩, rfl⟩
  | snapshotDestination t =>
    exact ⟨_, _, ⟨{ order := values (s.destination.recordsOf t) }, if_pos (List.Perm.refl _)⟩, rfl⟩
  | _ => exact ⟨_, _, ⟨{}, rfl⟩, rfl⟩

/-- Maps with the same records have them in different orders at most. -/
theorem values_perm {m m' : Go.Map Record} (hm : ∀ k r, m.lookup k = some r → r.mapKey = k)
    (h : ∀ k, m.lookup k = m'.lookup k) : (values m).Perm (values m') := by
  have hm' : ∀ k r, m'.lookup k = some r → r.mapKey = k := fun k r hr => hm k r ((h k).trans hr)
  refine (perm_ext_iff_of_nodup (List.Nodup.of_map _ (nodup_values hm))
    (List.Nodup.of_map _ (nodup_values hm'))).2 fun r => ?_
  simp only [mem_values, h]

variable {sha256 : List UInt8 → List UInt8} {t : String} {s s' : State} {l : List machine.Entry}

/-- Alone, `Validate` changes nothing. -/
theorem eq_of_validate {ctx : Option ℕ} {out : Outcome}
    (h : (Tool.validate sha256 ctx t).Runs Eq s l (.ret out) s') : s' = s := by
  refine (Runs.related (T := Eq) (fun _ _ => id) h ?_).symm
  refine Tool.validate_every fun o ho _ r _ hperf => ?_
  exact (performs_reads hperf ho).symm

/-- Nothing happens between the operations of a call that is made alone. -/
theorem follows_of_eq (a b : machine.State) (h : a = b) : State.Follows a b := by
  rw [h]
  exact .refl b

/-- Where the records are the same, `Validate` alone succeeds. -/
theorem validate_succeeds (hsound : s.source.Sound) (hsame : SameRecords t s) {ctx : Option ℕ}
    (hctx : ctx.isSome = true) (ht : t ≠ "") {out : Outcome}
    (h : (Tool.validate sha256 ctx t).Runs Eq s l (.ret out) s') (hlive : Live l) :
    out.2 = none := by
  obtain ⟨-, ⟨-, hfail⟩ | ⟨_, read, _, sources, destinations, -, -, -, hread, hend, -, hsources,
    hdestinations, hvalid⟩⟩ := Tool.validate_spec follows_of_eq h
  · exact absurd (hfail hlive hctx) ht
  · have hs' := eq_of_validate h
    subst hs'
    -- nothing was put meanwhile
    have hlog : read.pre.source.log t = s'.source.log t :=
      (hend.log t).eq_of_length_le (hread.log t).length_le
    have hrecords : ∀ k, (read.pre.source.recordsOf t).lookup k =
        (s'.destination.recordsOf t).lookup k := by
      intro k
      rw [(hread.sound hsound).records, hlog, ← hsound.records, hsame k]
    have hkeyed : ∀ k r, (read.pre.source.recordsOf t).lookup k = some r → r.mapKey = k :=
      fun k r hr => ((hread.sound hsound).mem_log hr).2
    have hperm := values_perm hkeyed hrecords
    have heq : sources = destinations :=
      Sorted.unique (nodup_values hkeyed) hsources (hdestinations.of_perm hperm.symm)
    rw [hvalid, heq]
    exact ⟨rfl, rfl⟩

/-! ## Keys without a zero character -/

/-- The kind and the key of a record are free of zero characters. -/
def Record.NulFree (r : Record) : Prop := '\x00' ∉ r.kind.toList ∧ '\x00' ∉ r.key.toList

/-- Such records have one key in a map only if they have one kind and one key. -/
theorem Record.NulFree.mapKey_inj {a b : Record} (ha : a.NulFree) (hb : b.NulFree)
    (h : a.mapKey = b.mapKey) : a.kind = b.kind ∧ a.key = b.key := by
  have hlist : a.kind.toList ++ '\x00' :: a.key.toList = b.kind.toList ++ '\x00' :: b.key.toList := by
    simpa [Record.mapKey] using congrArg String.toList h
  obtain ⟨hkind, hkey⟩ := Go.append_stop_inj ha.1 hb.1 hlist
  exact ⟨String.toList_inj.1 hkind, String.toList_inj.1 hkey⟩

/-! ## Convergence -/

/-- An operator calls `Begin`, `Copy`, and `CatchUp` for a tenant. -/
def Tool.transfer (ctx : Option ℕ) (tenantID : String) : Code (Outcome × Outcome × Outcome) := do
  let begun ← Tool.begin ctx tenantID
  let copied ← Tool.copy ctx tenantID
  let caughtUp ← Tool.catchUp ctx tenantID
  return (begun, copied, caughtUp)

/-- No record of the tenant is put after the changes are read. -/
def NothingAfterChanges (t : String) (l : List machine.Entry) (s : State) : Prop :=
  ∀ e ∈ l, Op.isChanges t e.op = true → e.post.source.log t = s.source.log t

/-- No kind and key of the tenant is put twice after `Begin` has read the watermark. -/
def DistinctAfterBarrier (t : String) (l : List machine.Entry) (s : State) : Prop :=
  ∀ e ∈ l, Op.isBarrier t e.op = true →
    ((s.source.log t).drop (e.pre.source.log t).length).Pairwise fun r r' =>
      (r.kind, r.key) ≠ (r'.kind, r'.key)

/-- What was put before a number and after it, in any order, under distinct keys: the latest record
under each key. -/
theorem latestBy_of_copied {log before copied ordered : List Record} (hbefore : before <+: copied)
    (hcopied : copied <+: log) (hordered : Sorted (log.drop before.length) ordered)
    (hnodup : ((log.drop before.length).map Record.mapKey).Nodup) (k : String) :
    (Go.latestBy Record.mapKey ordered k).or (Go.latestBy Record.mapKey copied k) =
      Go.latestBy Record.mapKey log k := by
  obtain ⟨more, rfl⟩ := hbefore
  obtain ⟨rest, rfl⟩ := hcopied
  rw [append_assoc, drop_left] at hordered hnodup
  rw [← Go.latestBy_perm hnodup hordered.1.symm k, append_assoc,
    Go.latestBy_append _ before (more ++ rest), Go.latestBy_append _ before more]
  cases hlatest : Go.latestBy Record.mapKey (more ++ rest) k with
  | some => rfl
  | none =>
    rw [Go.latestBy_append, Option.or_eq_none_iff] at hlatest
    rw [hlatest.2, Option.none_or, Option.none_or]

/-- What a successful transfer leaves in the destination: a copy of the source, and over it what was
put after the barrier, in a sorted order. -/
theorem transfer_spec {ctx : Option ℕ} {outs : Outcome × Outcome × Outcome} {s0 : State}
    (h : (Tool.transfer ctx t).Runs machine.Moves s0 l (.ret outs) s) (hsound : s0.source.Sound)
    (hfresh : s0.tool.barriers.lookup t = none) (hok : outs.2.2.2 = none) :
    ∃ barrier ∈ l, barrier.op = .beginDualWrite t ∧ ∃ read ∈ l, ∃ n, read.op = .changes t n ∧
      ∃ copied : State, ∃ ordered, s0.Grows barrier.pre ∧ State.Grows barrier.pre copied ∧
        copied.Grows read.post ∧ State.Grows read.post s ∧ t ≠ "" ∧
        Sorted ((read.post.source.log t).drop (barrier.pre.source.log t).length) ordered ∧
        ∀ k, (s.destination.recordsOf t).lookup k = (Go.latestBy Record.mapKey ordered k).or
          (((copied.source.recordsOf t).lookup k).or ((s0.destination.recordsOf t).lookup k)) := by
  obtain ⟨_, _, _, s1, rfl, hB, h1⟩ := Runs.bind_complete h
  obtain ⟨_, _, _, s2, rfl, hC, h2⟩ := Runs.bind_complete h1
  obtain ⟨_, _, _, _, rfl, hU, h3⟩ := Runs.bind_complete h2
  obtain ⟨-, houts, hmoves⟩ := h3.ret_cases
  cases houts
  have hfollows : ∀ a b, machine.Moves a b → State.Follows a b := fun _ _ => follows_of_moves
  have hend := hfollows _ _ hmoves
  have hB := Tool.begin_spec hfollows hB
  have hgrows1 : s0.Grows s1 := by
    rcases hB with ⟨-, hB⟩ | ⟨-, -, -, -, read, -, -, hread, hread', -⟩
    · exact hB.toGrows
    · exact hread.trans hread'
  have hC := Tool.copy_spec hfollows (hgrows1.sound hsound) hC
  have hgrows2 : State.Grows s1 s2 := by
    rcases hC with ⟨-, hC⟩ | ⟨-, -, -, read, hread, hread', -⟩
    · exact hC.toGrows
    · exact hread.trans hread'
  -- the catch-up has succeeded, so the copy has, and so has the start
  obtain ⟨hfail, -⟩ | ⟨-, -, -, n, hn, hcopied, read, hread, hop, hread1, hread2, hpost, hwritten⟩ :=
    Tool.catchUp_spec hfollows (hgrows2.sound (hgrows1.sound hsound)) hU
  · exact absurd hok hfail
  obtain ⟨-, hC⟩ | ⟨-, -, htoolC, copied, hcopied1, hcopied2, ⟨_, hn'⟩, hlookupC⟩ := hC
  · rw [hC.tool] at hn hcopied
    rcases hB with ⟨-, hB⟩ | ⟨-, -, -, -, barrier, -, -, -, -, htoolB⟩
    · rw [hB.tool] at hn
      cases hfresh.symm.trans hn
    · rw [htoolB, Tool.flagsOf_withBarrier] at hcopied
      cases hcopied
  obtain ⟨-, hB⟩ | ⟨-, ht, hdestB, -, barrier, hbarrier, hopB, hbarrier1, hbarrier2, htoolB⟩ := hB
  · rw [hB.tool, hfresh] at hn'
    cases hn'
  have hlength : n = (barrier.pre.source.log t).length := by
    rw [htoolC, Tool.flagsOf_withCopied, htoolB] at hn
    have hbarriers : (s0.tool.withBarrier t (barrier.pre.source.seqOf t)).barriers.lookup t =
        some (barrier.pre.source.seqOf t) := AList.lookup_insert _
    rw [hbarriers, Option.some.injEq] at hn
    rw [← hn, (hbarrier1.sound hsound).seq]
  obtain ⟨ordered, hsorted, hlookupU⟩ := hwritten _ hlength
  refine ⟨barrier, mem_append_left _ hbarrier, hopB, read, ?_, n, hop, copied, ordered,
    hbarrier1, hbarrier2.trans hcopied1, ?_, hread2.trans hend.toGrows, ht, ?_, fun k => ?_⟩
  · exact mem_append_right _ (mem_append_right _ (mem_append_left _ hread))
  · rw [hpost]
    exact hcopied2.trans hread1
  · rw [hpost]
    exact hsorted
  · rw [hend.destination, hlookupU, hlookupC, hdestB]

/-- While an operator begins, copies, and catches up and records of the tenant are put, none of them
after the changes are read, a successful catch-up leaves the records of the source in the
destination, and `Validate` then succeeds, if no kind and key is put twice after the barrier. -/
theorem transfer_converges {ctx : Option ℕ} {outs : Outcome × Outcome × Outcome} {s₀ : State}
    (h : (Tool.transfer ctx t).Runs machine.Moves s₀ l (.ret outs) s) (hsound : s₀.source.Sound)
    (hfresh : s₀.tool.barriers.lookup t = none) (hempty : s₀.destination.recordsOf t = ∅)
    (hok : outs.2.2.2 = none) (hlast : NothingAfterChanges t l s) (hfree : ∀ r ∈ s.source.log t, r.NulFree)
    (hdistinct : DistinctAfterBarrier t l s) :
    SameRecords t s ∧ ∀ c, Succeeds (Tool.validate sha256 (some c) t) s fun _ => True := by
  obtain ⟨barrier, hbarrier, hopB, read, hread, n, hop, copied, ordered, hgrows1, hgrows2, hgrows3,
    hgrows4, ht, hsorted, hlookup⟩ := transfer_spec h hsound hfresh hok
  have hlog := hlast read hread (by rw [hop]; exact decide_eq_true rfl)
  have hsound2 := hgrows2.sound (hgrows1.sound hsound)
  have hsoundS := hgrows4.sound (hgrows3.sound hsound2)
  rw [hlog] at hsorted
  have hnodup :
      (((s.source.log t).drop (barrier.pre.source.log t).length).map Record.mapKey).Nodup := by
    have hpairwise := hdistinct barrier hbarrier (by rw [hopB]; exact decide_eq_true rfl)
    refine List.pairwise_map.2 (hpairwise.imp_of_mem fun ha hb hne heq => ?_)
    obtain ⟨hkind, hkey⟩ := (hfree _ (List.mem_of_mem_drop ha)).mapKey_inj
      (hfree _ (List.mem_of_mem_drop hb)) heq
    exact hne (by rw [hkind, hkey])
  have hsame : SameRecords t s := by
    intro k
    have hlatest := latestBy_of_copied (hgrows2.log t) (hlog ▸ hgrows3.log t) hsorted hnodup k
    rw [hlookup, hempty, hsoundS.records, hsound2.records, ← hlatest, AList.lookup_empty,
      Option.or_none]
  refine ⟨hsame, fun c => ⟨?_, fun l out s' h hlive => ⟨?_, trivial⟩⟩⟩
  · exact Runs.exists_complete (M := machine) exists_performs _ s
  · exact validate_succeeds hsoundS hsame rfl ht h hlive

/-! ## Two transfers -/

instance (r : Record) : Decidable r.NulFree := by
  unfold Record.NulFree
  infer_instance

instance (t : String) (l : List machine.Entry) (s : State) :
    Decidable (NothingAfterChanges t l s) := by
  unfold NothingAfterChanges
  infer_instance

instance (t : String) (l : List machine.Entry) (s : State) :
    Decidable (DistinctAfterBarrier t l s) := by
  unfold DistinctAfterBarrier
  infer_instance

/-- The records of the runs below. -/
def sampleRecord (key : String) (payload : UInt8) (version : ℤ) : Record :=
  { tenantID := "t", kind := "k", key, payload := [payload], version }

/-- A record is put before `Begin`, and records are put before `Copy`; the records of the copy and
those of the catch-up are written in these orders. -/
def transferTurns (puts copied caughtUp : List Record) : List (Turn machine) :=
  [.others ("t", sampleRecord "a" 1 0), .own {}, .own {}, .own {}] ++
    puts.map (fun r => .others ("t", r)) ++
    [.own {}, .own {}, .own { order := copied }, .own { order := copied }, .own {}, .own {},
      .own {}, .own {}, .own {}, .own { order := caughtUp }, .own {}, .own {}]

/-- A state in which another tenant is being transferred. -/
def otherTenant : State := { tool := Tool.withBarrier {} "u" 0 }

/-- Another kind and key is put after the barrier. -/
theorem transfer_converges_otherKey : ∃ l outs s,
    (Tool.transfer (some 0) "t").Runs machine.Moves otherTenant l (.ret outs) s ∧
      (s.source.log "t").length = 2 ∧ SameRecords "t" s ∧
      ∀ c, Succeeds (Tool.validate id (some c) "t") s fun _ => True := by
  obtain ⟨l, outs, s, hrun, hlength, hok, hlast, hfree, hdistinct⟩ :=
    exists_runs_of_completes (M := machine) (Tool.transfer (some 0) "t") otherTenant
      (transferTurns [sampleRecord "b" 2 0] [sampleRecord "a" 1 1, sampleRecord "b" 2 2]
        [sampleRecord "b" 2 2])
      (fun l outs s => (s.source.log "t").length = 2 ∧ outs.2.2.2 = none ∧
        NothingAfterChanges "t" l s ∧ (∀ r ∈ s.source.log "t", r.NulFree) ∧
        DistinctAfterBarrier "t" l s)
      (by decide +kernel)
  exact ⟨l, outs, s, hrun, hlength, transfer_converges hrun MemorySource.sound_empty
    (by decide +kernel) rfl hok hlast hfree hdistinct⟩

/-- A kind and key is put twelve times after the barrier, and then another one. From thirteen
records on `sort.Slice` partitions: it swaps the first record with the middle one, and the second
one with the last. So the catch-up writes the second of the twelve last, and the destination keeps
it. -/
theorem repeatedPut_diverges : ∃ l outs s,
    (Tool.transfer (some 0) "t").Runs machine.Moves {} l (.ret outs) s ∧
      outs.2.2.2 = none ∧ NothingAfterChanges "t" l s ∧ (∀ r ∈ s.source.log "t", r.NulFree) ∧
      (s.source.recordsOf "t").lookup "k\x00b" = some (sampleRecord "b" 11 13) ∧
      (s.destination.recordsOf "t").lookup "k\x00b" = some (sampleRecord "b" 1 3) :=
  exists_runs_of_completes (M := machine) (Tool.transfer (some 0) "t") {}
    (transferTurns ((range 12).map (fun i => sampleRecord "b" (.ofNat i) 0) ++ [sampleRecord "a" 0 0])
      [sampleRecord "a" 0 14, sampleRecord "b" 11 13]
      (sampleRecord "a" 0 14 :: [6, 2, 3, 4, 5, 0, 7, 8, 9, 10, 11, 1].map
        fun i : ℕ => sampleRecord "b" (.ofNat i) (i + 2))) _
    (by decide +kernel)

end AgentService.Migration
