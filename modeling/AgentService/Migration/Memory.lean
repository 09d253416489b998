import AgentService.Go.Latest
import Mathlib.Data.Int.Notation

/-!
# The memory adapters of the migration tool

`MemorySource`, `MemoryDestination`, and `MemoryRouter` of
`trpcservice/runtime/migration/memory.go`. The source keeps the records of a tenant under the kind
and the key, joined by a zero character, and appends every write to the log of the tenant, with its
number as the version of the record; the destination writes the records that it is given one after
the other. Both hand out the records of a map, in an order that Go leaves open; the values are
listed by `values` here, and what orders there can be is said where a snapshot is taken.

A source that was filled by `Put` is `Sound`: the log of a tenant is numbered from one, and what is
kept under a key is the latest record of the log with this key (`Sound.put`).
-/

namespace AgentService.Migration

open List

/-- The errors of the package. -/
inductive Err where
  | invalid
  | conflict
  | validation
  /-- The error of a context. -/
  | canceled
  deriving DecidableEq, Repr

/-- `Backend`. -/
inductive Backend where
  | source
  | destination
  deriving DecidableEq, Repr

/-- `Record`. -/
structure Record where
  tenantID : String := ""
  kind : String
  key : String
  payload : List UInt8 := []
  version : ℤ := 0
  deriving DecidableEq

/-- `Change`. -/
structure Change where
  sequence : ℤ
  record : Record
  deriving DecidableEq

/-- `Snapshot`. -/
structure Snapshot where
  records : List Record
  watermark : ℤ
  deriving DecidableEq

/-- The key of a record in the map of its tenant. -/
def Record.mapKey (r : Record) : String := r.kind ++ "\x00" ++ r.key

/-- The values of a map, in some order. -/
def values (m : Go.Map Record) : List Record := m.entries.map Sigma.snd

variable {m : Go.Map Record}

/-- The values of a map are what lies under its keys. -/
theorem mem_values {r : Record} : r ∈ values m ↔ ∃ k, m.lookup k = some r := by
  simp only [values, mem_map, ← Option.mem_def, AList.mem_lookup_iff]
  constructor
  · rintro ⟨⟨k, _⟩, hmem, rfl⟩
    exact ⟨k, hmem⟩
  · rintro ⟨k, hmem⟩
    exact ⟨⟨k, r⟩, hmem, rfl⟩

section

variable (h : ∀ k r, m.lookup k = some r → r.mapKey = k)

include h

/-- The records of a map that lie under their own keys have distinct ones. -/
theorem nodup_values : ((values m).map Record.mapKey).Nodup := by
  have hkeys : (values m).map Record.mapKey = m.keys := by
    rw [values, map_map, AList.keys, keys]
    refine map_congr_left fun ⟨k, r⟩ hmem => ?_
    exact h k r (AList.mem_lookup_iff.2 hmem)
  rw [hkeys]
  exact m.keys_nodup

/-- A record of such a map is found under its own key. -/
theorem latestBy_values (k : String) : Go.latestBy Record.mapKey (values m) k = m.lookup k := by
  refine Option.ext fun r => ?_
  rw [Go.latestBy_eq_some_of_nodup (nodup_values h), mem_values]
  constructor
  · rintro ⟨⟨k', hk'⟩, hk⟩
    rw [← hk, h k' r hk']
    exact hk'
  · exact fun hr => ⟨⟨k, hr⟩, h k r hr⟩

end

/-! ## The source -/

/-- `MemorySource`. -/
structure MemorySource where
  records : Go.Map (Go.Map Record) := ∅
  changes : Go.Map (List Change) := ∅
  seq : Go.Map ℤ := ∅
  dual : Go.Map Bool := ∅

namespace MemorySource

/-- `s.records[tenantID]`. -/
def recordsOf (s : MemorySource) (tenantID : String) : Go.Map Record :=
  (s.records.lookup tenantID).getD ∅

/-- `s.changes[tenantID]`. -/
def changesOf (s : MemorySource) (tenantID : String) : List Change :=
  (s.changes.lookup tenantID).getD []

/-- `s.seq[tenantID]`. -/
def seqOf (s : MemorySource) (tenantID : String) : ℤ := (s.seq.lookup tenantID).getD 0

/-- `BeginDualWrite`. -/
def beginDualWrite (s : MemorySource) (tenantID : String) : Except Err ℤ × MemorySource :=
  if tenantID = "" then (.error .invalid, s)
  else (.ok (s.seqOf tenantID), { s with dual := s.dual.insert tenantID true })

/-- `Put`. -/
def put (s : MemorySource) (tenantID : String) (record : Record) : Option Err × MemorySource :=
  if tenantID = "" ∨ record.kind = "" ∨ record.key = "" then (some .invalid, s)
  else
    let n := s.seqOf tenantID + 1
    let record := { record with tenantID, version := n }
    (none, { s with
      seq := s.seq.insert tenantID n
      records := s.records.insert tenantID ((s.recordsOf tenantID).insert record.mapKey record)
      changes := s.changes.insert tenantID (s.changesOf tenantID ++ [⟨n, record⟩]) })

/-- `Snapshot`, with the records in a given order. -/
def snapshot (s : MemorySource) (tenantID : String) (order : List Record) : Except Err Snapshot :=
  if tenantID = "" then .error .invalid else .ok ⟨order, s.seqOf tenantID⟩

/-- `Changes`. -/
def changesAfter (s : MemorySource) (tenantID : String) (after : ℤ) :
    Except Err (List Change × ℤ) :=
  if tenantID = "" ∨ after < 0 then .error .invalid
  else .ok ((s.changesOf tenantID).filter fun change => change.sequence > after, s.seqOf tenantID)

/-- The records that were put for a tenant, in order. -/
def log (s : MemorySource) (tenantID : String) : List Record :=
  (s.changesOf tenantID).map Change.record

/-- A source that `Put` has filled. -/
structure Sound (s : MemorySource) : Prop where
  /-- A change has the number of its record. -/
  changes : ∀ t, ∀ c ∈ s.changesOf t, c.sequence = c.record.version
  /-- The records of a tenant are numbered from one. -/
  version : ∀ t l₁ r l₂, s.log t = l₁ ++ r :: l₂ → r.version = (l₁.length : ℤ) + 1
  /-- The watermark is the number of the last record. -/
  seq : ∀ t, s.seqOf t = (s.log t).length
  /-- The records of a tenant name it, and have a kind and a key. -/
  named : ∀ t, ∀ r ∈ s.log t, r.tenantID = t ∧ t ≠ "" ∧ r.kind ≠ "" ∧ r.key ≠ ""
  /-- The latest record with a key is kept. -/
  records : ∀ t k, (s.recordsOf t).lookup k = Go.latestBy Record.mapKey (s.log t) k

/-- An empty source. -/
theorem sound_empty : Sound {} where
  changes _ c hc := absurd hc not_mem_nil
  version _ l1 r l2 h := by cases l1 <;> cases h
  seq _ := rfl
  named _ r hr := absurd hr not_mem_nil
  records _ _ := rfl

variable (s : MemorySource)

/-- What `Put` adds to the log: nothing if it fails, and otherwise the record with its number. -/
theorem put_spec (tenantID : String) (record : Record) : (s.put tenantID record).2 = s ∨
      tenantID ≠ "" ∧ record.kind ≠ "" ∧ record.key ≠ "" ∧
        s.put tenantID record = (none, (s.put tenantID record).2) ∧
        ∃ r : Record, r = { record with tenantID, version := s.seqOf tenantID + 1 } ∧
        ∀ t, (s.put tenantID record).2.changesOf t =
            s.changesOf t ++ (if t = tenantID then [⟨r.version, r⟩] else []) ∧
          (s.put tenantID record).2.seqOf t = (if t = tenantID then s.seqOf t + 1 else s.seqOf t) ∧
          (s.put tenantID record).2.recordsOf t =
            (if t = tenantID then (s.recordsOf t).insert r.mapKey r else s.recordsOf t) := by
  unfold put
  split_ifs with hinvalid
  · exact .inl rfl
  · simp only [not_or] at hinvalid
    refine .inr ⟨hinvalid.1, hinvalid.2.1, hinvalid.2.2, rfl, _, rfl, fun t => ?_⟩
    by_cases ht : t = tenantID
    · subst ht
      simp [changesOf, seqOf, recordsOf]
    · simp [changesOf, seqOf, recordsOf, ht, AList.lookup_insert_ne]

/-- `Put` only adds to the logs. -/
theorem log_put (tenantID : String) (record : Record) (t : String) :
    s.log t <+: (s.put tenantID record).2.log t := by
  rcases s.put_spec tenantID record with h | ⟨-, -, -, -, r, -, h⟩
  · have hlog : (s.put tenantID record).2.log t = s.log t := by rw [h]
    exact hlog ▸ prefix_rfl
  · rw [log, log, (h t).1, map_append]
    exact prefix_append _ _

variable {s : MemorySource}

/-- `Put` keeps a source sound. -/
theorem Sound.put (h : s.Sound) (tenantID : String) (record : Record) :
    (s.put tenantID record).2.Sound := by
  rcases s.put_spec tenantID record with heq | ⟨htenant, hkind, hkey, -, r, hr, hput⟩
  · rw [heq]
    exact h
  · have hversion : r.version = s.seqOf tenantID + 1 := by rw [hr]
    have hlog : ∀ t, (s.put tenantID record).2.log t =
        s.log t ++ if t = tenantID then [r] else [] := by
      intro t
      rw [log, log, (hput t).1, map_append]
      split_ifs <;> rfl
    refine ⟨fun t c hc => ?_, fun t l1 r' l2 hsplit => ?_, fun t => ?_, fun t r' hr' => ?_,
      fun t k => ?_⟩
    · rw [(hput t).1, mem_append] at hc
      rcases hc with hc | hc
      · exact h.changes t c hc
      · split_ifs at hc with ht
        · rw [mem_singleton.1 hc]
        · cases hc
    · rw [hlog] at hsplit
      by_cases ht : t = tenantID
      · rw [if_pos ht] at hsplit
        rcases eq_nil_or_concat l2 with rfl | ⟨l2, _, rfl⟩
        · -- the new record
          obtain ⟨hl, hrr⟩ := append_inj' hsplit rfl
          rw [← (cons.inj hrr).1, hversion, ← hl, ← ht, h.seq]
        · rw [concat_eq_append, ← cons_append, ← append_assoc] at hsplit
          exact h.version t l1 r' l2 (append_inj' hsplit rfl).1
      · rw [if_neg ht, append_nil] at hsplit
        exact h.version t l1 r' l2 hsplit
    · rw [(hput t).2.1, hlog, h.seq]
      split_ifs <;> simp
    · rw [hlog, mem_append] at hr'
      rcases hr' with hr' | hr'
      · exact h.named t r' hr'
      · split_ifs at hr' with ht
        · rw [mem_singleton.1 hr', hr, ht]
          exact ⟨rfl, htenant, hkind, hkey⟩
        · cases hr'
    · rw [(hput t).2.2, hlog]
      split_ifs with ht
      · rw [Go.latestBy_snoc, ← h.records]
        by_cases hk : r.mapKey = k
        · rw [if_pos hk, ← hk, AList.lookup_insert]
        · rw [if_neg hk, AList.lookup_insert_ne (Ne.symm hk)]
      · rw [append_nil]
        exact h.records t k

/-- What is kept is in the log, under its own key. -/
theorem Sound.mem_log (h : s.Sound) {t k : String} {r : Record}
    (hr : (s.recordsOf t).lookup k = some r) : r ∈ s.log t ∧ r.mapKey = k := by
  rw [h.records] at hr
  exact Go.mem_of_latestBy hr

/-- The number of a record is its place in the log. -/
theorem Sound.version_le (h : s.Sound) {t : String} {r : Record}
    (hr : r ∈ s.log t) : r.version ≤ (s.log t).length := by
  obtain ⟨l1, l2, hsplit⟩ := append_of_mem hr
  rw [h.version t l1 r l2 hsplit, hsplit, length_append, length_cons]
  omega

/-- The changes after a number are the rest of the log. -/
theorem Sound.changesAfter (h : s.Sound) (t : String) (n : ℕ) :
    ((s.changesOf t).filter fun c => decide (c.sequence > (n : ℤ))).map Change.record =
      (s.log t).drop n := by
  have hdrop : ∀ (l before : List Record), s.log t = before ++ l →
      l.filter (fun r => decide (r.version > (n : ℤ))) = l.drop (n - before.length) := by
    intro l
    induction l with
    | nil => intro before _; simp
    | cons r l ih =>
      intro before hsplit
      have hversion := h.version t before r l hsplit
      have hrest := ih (before ++ [r]) (by simpa using hsplit)
      rw [filter_cons, hrest, length_append, length_singleton]
      by_cases hn : r.version > (n : ℤ)
      · rw [if_pos (by simpa using hn), show n - (before.length + 1) = 0 by omega,
          show n - before.length = 0 by omega, drop_zero, drop_zero]
      · rw [if_neg (by simpa using hn),
          show n - before.length = n - (before.length + 1) + 1 by omega, drop_succ_cons]
  have hfilter : (s.changesOf t).filter (fun c => decide (c.sequence > (n : ℤ))) =
      (s.changesOf t).filter fun c => decide (c.record.version > (n : ℤ)) := by
    refine filter_congr fun c hc => ?_
    rw [h.changes t c hc]
  calc ((s.changesOf t).filter fun c => decide (c.sequence > (n : ℤ))).map Change.record
      = ((s.changesOf t).filter fun c => decide (c.record.version > (n : ℤ))).map Change.record := by
        rw [hfilter]
    _ = (s.log t).filter fun r => decide (r.version > (n : ℤ)) := by
        rw [log, filter_map]
        rfl
    _ = (s.log t).drop n := hdrop (s.log t) [] rfl

end MemorySource

/-! ## The destination -/

/-- `MemoryDestination`. -/
structure MemoryDestination where
  records : Go.Map (Go.Map Record) := ∅
  water : Go.Map ℤ := ∅

namespace MemoryDestination

/-- `d.records[tenantID]`. -/
def recordsOf (d : MemoryDestination) (tenantID : String) : Go.Map Record :=
  (d.records.lookup tenantID).getD ∅

/-- `d.water[tenantID]`. -/
def waterOf (d : MemoryDestination) (tenantID : String) : ℤ := (d.water.lookup tenantID).getD 0

/-- One round of the loop of `Apply`. -/
def upsert (d : MemoryDestination) (record : Record) : MemoryDestination where
  records := d.records.insert record.tenantID
    ((d.recordsOf record.tenantID).insert record.mapKey record)
  water := if record.version > d.waterOf record.tenantID then
    d.water.insert record.tenantID record.version else d.water

/-- `Apply`. -/
def apply (d : MemoryDestination) : List Record → Option Err × MemoryDestination
  | [] => (none, d)
  | record :: records =>
    if record.tenantID = "" ∨ record.kind = "" ∨ record.key = "" then (some .invalid, d)
    else (d.upsert record).apply records

/-- `Snapshot`, with the records in a given order. -/
def snapshot (d : MemoryDestination) (tenantID : String) (order : List Record) :
    Except Err Snapshot :=
  if tenantID = "" then .error .invalid else .ok ⟨order, d.waterOf tenantID⟩

/-- The records of the destination lie under their own keys. -/
def Keyed (d : MemoryDestination) : Prop :=
  ∀ t k r, (d.recordsOf t).lookup k = some r → r.tenantID = t ∧ r.mapKey = k

variable (d : MemoryDestination)

/-- What a write changes. -/
theorem recordsOf_upsert (r : Record) (t : String) : (d.upsert r).recordsOf t =
      if t = r.tenantID then (d.recordsOf t).insert r.mapKey r else d.recordsOf t := by
  by_cases ht : t = r.tenantID
  · subst ht
    simp [upsert, recordsOf]
  · simp [upsert, recordsOf, ht, AList.lookup_insert_ne]

/-- A write lies under its own key. -/
theorem Keyed.upsert {d : MemoryDestination} (h : d.Keyed) (r : Record) : (d.upsert r).Keyed := by
  intro t k r' hr'
  rw [recordsOf_upsert] at hr'
  split_ifs at hr' with ht
  · rcases Go.lookup_insert_eq_some.1 hr' with ⟨hk, hrr⟩ | ⟨-, hold⟩
    · rw [hrr]
      exact ⟨ht.symm, hk.symm⟩
    · exact h t k r' hold
  · exact h t k r' hr'

/-- `Apply` writes records under their own keys. -/
theorem Keyed.apply {d : MemoryDestination} (h : d.Keyed) (records : List Record) :
    (d.apply records).2.Keyed := by
  induction records generalizing d with
  | nil => exact h
  | cons r _ ih =>
    rw [MemoryDestination.apply]
    split_ifs
    · exact h
    · exact ih (h.upsert r)

/-- `Apply` of records of a tenant writes them in their order. -/
theorem apply_spec {t : String} {records : List Record}
    (hnamed : ∀ r ∈ records, r.tenantID = t ∧ t ≠ "" ∧ r.kind ≠ "" ∧ r.key ≠ "") :
    (d.apply records).1 = none ∧ ∀ k, ((d.apply records).2.recordsOf t).lookup k =
      (Go.latestBy Record.mapKey records k).or ((d.recordsOf t).lookup k) := by
  have hfold : (d.apply records).1 = none ∧ (d.apply records).2.recordsOf t =
      records.foldl (fun m r => m.insert r.mapKey r) (d.recordsOf t) := by
    induction records generalizing d with
    | nil => exact ⟨rfl, rfl⟩
    | cons r _ ih =>
      obtain ⟨hr, hrest⟩ := forall_mem_cons.1 hnamed
      have hvalid : ¬ (r.tenantID = "" ∨ r.kind = "" ∨ r.key = "") := by
        rw [hr.1]
        rintro (h | h | h)
        · exact hr.2.1 h
        · exact hr.2.2.1 h
        · exact hr.2.2.2 h
      rw [apply, if_neg hvalid, foldl_cons]
      obtain ⟨herr, hrecords⟩ := ih (d.upsert r) hrest
      rw [recordsOf_upsert, if_pos hr.1.symm] at hrecords
      exact ⟨herr, hrecords⟩
  refine ⟨hfold.1, fun k => ?_⟩
  rw [hfold.2, Go.lookup_foldl_insert]

end MemoryDestination

/-! ## The router -/

/-- `MemoryRouter`. -/
structure MemoryRouter where
  backend : Go.Map Backend := ∅

namespace MemoryRouter

/-- The backend that a tenant uses. -/
def selected (r : MemoryRouter) (tenantID : String) : Backend :=
  (r.backend.lookup tenantID).getD .source

/-- `Current`. -/
def current (r : MemoryRouter) (tenantID : String) : Except Err Backend :=
  if tenantID = "" then .error .invalid else .ok (r.selected tenantID)

/-- `Set`. There are no other backends than the two. -/
def set (r : MemoryRouter) (tenantID : String) (backend : Backend) : Option Err × MemoryRouter :=
  if tenantID = "" then (some .invalid, r)
  else (none, { backend := r.backend.insert tenantID backend })

/-- The route that was set is selected. -/
@[simp] theorem selected_insert (r : MemoryRouter) (tenantID : String) (backend : Backend) :
    ({ backend := r.backend.insert tenantID backend } : MemoryRouter).selected tenantID =
      backend := by
  simp [selected]

end MemoryRouter

end AgentService.Migration
