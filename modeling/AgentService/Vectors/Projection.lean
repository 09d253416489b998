import AgentService.Go.Maps
import AgentService.Vectors.Index
import AgentService.Vectors.Postgres

/-!
# The vector index of the PostgreSQL store

`PutMemory` and `PutKnowledge` write a row and then, in a statement of its own, the index. Whoever
has written a row owes its entry (`Debt`); `Projected` is the invariant that every row is in the
index or owed, and no entry is newer than its row. An entry is inserted for the version that the
call has written only, but it is deleted whatever the row has become: a call that has put a row
without an embedding may delete the entry of a newer one (`lateDelete_diverges`). Where this does
not happen, the index has exactly the projections of the rows once all calls have succeeded
(`projection_converges`).
-/

namespace AgentService.Vectors.Postgres

open Concurrent Function Option KnowledgeDocument List AList
open Database (row)
open Storage (Err validateTenant)
open Function (update)

/-- A key of the index: tenant, source, and document. -/
abbrev Key := String × VectorSource × String

/-- The rows that are not deleted, as vectors. -/
def rows (db : Database) (k : Key) : Option VectorRecord := db.row k.1 k.2.1 k.2.2

/-- The entries of the index. -/
def index (db : Database) (k : Key) : Option VectorRecord := db.vectors.lookup k

/-! ## What the statements do -/

section Statements

variable (db : Database) {t : String} {source : VectorSource} {d : String} {version : ℤ}

/-- A row of `runtime_memory` is written. -/
theorem rows_insertMemory (t m : String) (r : MemoryRecord) :
    rows { db with memories := db.memories.insert (t, m) r } = update (rows db)
      (t, .memory, m) (if r.deletedAt = none then some r.vector else none) := by
  funext ⟨t', source, m'⟩
  cases source with
  | memory =>
    by_cases hkey : (t', m') = (t, m)
    · cases hkey
      rw [update_self, rows, row, lookup_insert, filter_some]
      by_cases hdeleted : r.deletedAt = none <;> simp [hdeleted]
    · rw [update_of_ne fun h => hkey (by cases h; rfl), rows, row, lookup_insert_ne hkey, rows, row]
  | generic | knowledge =>
    rw [update_of_ne fun h => by cases h]
    rfl

/-- One row of `runtime_knowledge` changes. -/
theorem rows_knowledge {knowledge : AList fun _ : String × String => KnowledgeDocument}
    {t d : String} (hne : ∀ k ≠ (t, d), knowledge.lookup k = db.knowledge.lookup k) :
    rows { db with knowledge } = update (rows db) (t, .knowledge, d)
      ((knowledge.lookup (t, d)).map KnowledgeDocument.vector) := by
  funext ⟨t', source, d'⟩
  cases source with
  | knowledge =>
    by_cases hkey : (t', d') = (t, d)
    · cases hkey
      rw [update_self, rows, row]
    · rw [update_of_ne fun h => hkey (by cases h; rfl), rows, row, hne _ hkey, rows, row]
  | generic | memory =>
    rw [update_of_ne fun h => by cases h]
    rfl

/-- A row of `runtime_knowledge` is written. -/
theorem rows_insertKnowledge (t d : String) (r : KnowledgeDocument) :
    rows { db with knowledge := db.knowledge.insert (t, d) r } =
      update (rows db) (t, .knowledge, d) (some r.vector) := by
  rw [rows_knowledge db fun k hk => lookup_insert_ne hk, lookup_insert, map_some]

/-- A row of `runtime_knowledge` is deleted. -/
theorem rows_eraseKnowledge (t d : String) :
    rows { db with knowledge := db.knowledge.erase (t, d) } =
      update (rows db) (t, .knowledge, d) none := by
  rw [rows_knowledge db fun k hk => lookup_erase_ne hk, lookup_erase, map_none]

/-- `PutMemory` writes a row under a new version. -/
theorem upsertMemory_spec (value : MemoryRecord) :
    rows (db.upsertMemory value).2 = update (rows db)
        (value.tenantID, .memory, value.memoryID) (some (db.upsertMemory value).1.vector) ∧
      index (db.upsertMemory value).2 = index db ∧
      ∀ old, rows db (value.tenantID, .memory, value.memoryID) = some old →
        old.version < (db.upsertMemory value).1.vector.version := by
  have hdeleted : (db.upsertMemory value).1.deletedAt = none := by
    unfold Database.upsertMemory
    cases db.memories.lookup (value.tenantID, value.memoryID) <;> rfl
  refine ⟨?_, rfl, fun old hold => ?_⟩
  · rw [Database.upsertMemory, rows_insertMemory]
    rw [Database.upsertMemory] at hdeleted
    rw [if_pos hdeleted]
  · rw [rows, row, map_eq_some_iff] at hold
    obtain ⟨r, hr, rfl⟩ := hold
    rw [Database.upsertMemory, (filter_eq_some_iff.1 hr).1]
    exact Int.lt_succ r.version

/-- `PutKnowledge` writes a row under a new version. -/
theorem upsertKnowledge_spec (value : KnowledgeDocument) :
    rows (db.upsertKnowledge value).2 = update (rows db)
        (value.tenantID, .knowledge, value.documentID)
        (some (db.upsertKnowledge value).1.vector) ∧
      index (db.upsertKnowledge value).2 = index db ∧
      ∀ old, rows db (value.tenantID, .knowledge, value.documentID) = some old →
        old.version < (db.upsertKnowledge value).1.vector.version := by
  refine ⟨?_, rfl, fun old hold => ?_⟩
  · rw [Database.upsertKnowledge, rows_insertKnowledge]
  · rw [rows, row, map_eq_some_iff] at hold
    obtain ⟨r, hr, rfl⟩ := hold
    rw [Database.upsertKnowledge, hr]
    exact Int.lt_succ r.version

/-- An entry of the index is deleted. -/
theorem deleteVector_spec (t : String) (source : VectorSource) (d : String) :
    rows (db.deleteVector t source d) = rows db ∧
      index (db.deleteVector t source d) = update (index db) (t, source, d) none :=
  ⟨rfl, Go.lookup_erase_fun db.vectors (t, source, d)⟩

/-- `DeleteMemory` removes a row and its entry. -/
theorem deleteMemory_spec {now : ℤ} {t m : String} (h : (db.deleteMemory now t m).1 = .ok ()) :
    rows (db.deleteMemory now t m).2 = update (rows db) (t, .memory, m) none ∧
      index (db.deleteMemory now t m).2 = update (index db) (t, .memory, m) none := by
  unfold Database.deleteMemory at h ⊢
  split at h
  · cases h
  · refine ⟨?_, (deleteVector_spec _ t .memory m).2⟩
    rw [(deleteVector_spec _ t .memory m).1, rows_insertMemory]
    rfl

/-- `DeleteKnowledge` removes a row and its entry. -/
theorem deleteKnowledge_spec {t d : String} (h : (db.deleteKnowledge t d).1 = .ok ()) :
    rows (db.deleteKnowledge t d).2 = update (rows db) (t, .knowledge, d) none ∧
      index (db.deleteKnowledge t d).2 = update (index db) (t, .knowledge, d) none := by
  unfold Database.deleteKnowledge at h ⊢
  split at h
  · cases h
  · refine ⟨?_, (deleteVector_spec _ t .knowledge d).2⟩
    rw [(deleteVector_spec _ t .knowledge d).1, rows_eraseKnowledge]

/-- A memory that was selected is a row. -/
theorem selectMemory_spec {t m : String} {value : MemoryRecord}
    (h : db.selectMemory t m = .ok value) : rows db (t, .memory, m) = some value.vector := by
  unfold Database.selectMemory at h
  split at h
  · cases h
  · next r hr =>
    cases h
    rw [rows, row, hr, map_some]

/-- The row is entered under its version, or nothing happens. -/
theorem insertVector_spec (t : String) (source : VectorSource) (d : String) (version : ℤ) :
    (∃ r, rows db (t, source, d) = some r ∧ r.version = version ∧ r.indexed = true ∧
      rows (db.insertVector t source d version).2 = rows db ∧
      index (db.insertVector t source d version).2 =
        update (index db) (t, source, d) (some r)) ∨
    ((db.insertVector t source d version).1 = 0 ∧ (db.insertVector t source d version).2 = db ∧
      ∀ r, rows db (t, source, d) = some r → r.version = version → r.indexed = true →
        ∃ old, index db (t, source, d) = some old ∧ r.version < old.version) := by
  unfold Database.insertVector
  split
  · next hrow => exact .inr ⟨rfl, rfl, fun r hr => absurd (hrow.symm.trans hr) (by simp)⟩
  · next r hrow =>
    split_ifs with hguard
    · exact .inl ⟨r, hrow, hguard.1, decide_eq_true hguard.2.1, rfl,
        Go.lookup_insert_fun db.vectors (t, source, d) r⟩
    · refine .inr ⟨rfl, rfl, fun r' hr' hversion hindexed => ?_⟩
      obtain rfl : r = r' := some.inj (hrow.symm.trans hr')
      by_contra hnone
      refine hguard ⟨hversion, of_decide_eq_true hindexed, fun old hold => ?_⟩
      by_contra hlt
      exact hnone ⟨old, hold, by omega⟩

end Statements

/-! ## Debts -/

/-- An operation that has answered an error. -/
def failed (e : machine.Entry) : Bool :=
  match e.res with
  | .error _ => true
  | .ok _ => false

/-- The key and the row that an operation has written. -/
def written : machine.Entry → Option (Key × VectorRecord)
  | ⟨.upsertMemory value, .ok row, _, _⟩ =>
    some ((value.tenantID, .memory, value.memoryID), MemoryRecord.vector row)
  | ⟨.upsertKnowledge value, .ok row, _, _⟩ =>
    some ((value.tenantID, .knowledge, value.documentID), KnowledgeDocument.vector row)
  | _ => none

/-- An operation with which the writer of a row may leave the index. -/
def closes (k : Key) (r : VectorRecord) : machine.Entry → Prop
  | ⟨.insertVector t source d version, .ok count, _, _⟩ =>
    (t, source, d) = k ∧ version = r.version ∧ (r.indexed = true ∨ Nat.lt 0 count)
  | ⟨.deleteVector t source d, .ok _, _, _⟩ => (t, source, d) = k ∧ r.indexed = false
  | ⟨.selectMemory t m, .ok row, _, _⟩ =>
    (t, .memory, m) = k ∧ MemoryRecord.version row = r.version ∧
      (MemoryRecord.vector row).indexed = true ∧ r.indexed = false
  | _ => False

/-- The index owes the row `r` under `k`. -/
def Debt {sha256 : String → String} (history : List (Step (pool sha256))) (k : Key)
    (r : VectorRecord) : Prop :=
  Owed (fun e => written e = some (k, r)) (closes k r) history

/-- An operation answers an error, or is executed. -/
theorem performs_cases {o : Op} {db db' : Database} {r : machine.Res o}
    (h : machine.Performs o db r db') :
    (∃ err, r = .error err) ∨ ∃ ch, execute o ch db = (r, db') := by
  obtain ⟨ch, h⟩ := h
  change perform o ch db = _ at h
  unfold perform at h
  split at h
  · exact .inr ⟨ch, some.inj h⟩
  · cases h
    exact .inl ⟨_, rfl⟩

/-- The row that `PutMemory` has written has the key of its parameters. -/
theorem performs_upsertMemory {value row : MemoryRecord} {db db' : Database}
    (h : machine.Performs (.upsertMemory value) db (.ok row) db') :
    row.tenantID = value.tenantID ∧ row.memoryID = value.memoryID := by
  rcases performs_cases h with ⟨_, herr⟩ | ⟨_, hexecute⟩
  · cases herr
  · cases hexecute
    unfold Database.upsertMemory
    cases db.memories.lookup (value.tenantID, value.memoryID) <;> exact ⟨rfl, rfl⟩

/-- The row that `PutKnowledge` has written has the key of its parameters. -/
theorem performs_upsertKnowledge {value row : KnowledgeDocument} {db db' : Database}
    (h : machine.Performs (.upsertKnowledge value) db (.ok row) db') :
    row.tenantID = value.tenantID ∧ row.documentID = value.documentID := by
  rcases performs_cases h with ⟨_, herr⟩ | ⟨_, hexecute⟩
  · cases herr
  · cases hexecute
    unfold Database.upsertKnowledge
    cases db.knowledge.lookup (value.tenantID, value.documentID) <;> exact ⟨rfl, rfl⟩

/-- The keys of memories and knowledge documents. -/
def keys (k : Key) : Prop := k.2.1 ≠ .generic

/-- Every row of the tables is in the index, or some call owes it. -/
def Projected {sha256 : String → String} (history : List (Step (pool sha256))) (db : Database) :
    Prop :=
  Tracks keys VectorRecord.version VectorRecord.indexed (rows db) (index db) (Debt history)

/-- The entry that a statement deletes from the index. -/
def Op.deletes : Op → Option Key
  | .deleteVector t source d => some (t, source, d)
  | _ => none

/-- A statement that deletes from the index does not delete the present row. -/
def Harmless (e : machine.Entry) : Prop :=
  ∀ k ∈ Op.deletes e.op, rows e.pre k = none ∨ index e.pre k ≠ rows e.pre k

instance (e : machine.Entry) : Decidable (Harmless e) := by
  unfold Harmless
  infer_instance

section Step

variable {sha256 : String → String} {history : List (Step (pool sha256))} {st : Step (pool sha256)}

theorem Debt.snoc {k : Key} {r : VectorRecord} (h : Debt history k r)
    (hst : ¬ closes k r st.entry) : Debt (history ++ [st]) k r := Owed.snoc h hst

/-- An operation that is executed keeps the index. -/
theorem Projected.step {db db' : Database} {t : ℕ} {call : Call} {o : Op} {ch : Choice}
    {value : o.Value} (h : Projected history db) (hexecute : execute o ch db = (.ok value, db'))
    (hharmless : Harmless ⟨o, .ok value, db, db'⟩) :
    Projected (history ++ [⟨t, call, ⟨o, .ok value, db, db'⟩⟩]) db' := by
  unfold Projected at h ⊢
  cases o with
  | check | newString =>
    cases hexecute
    exact fun k hk => (h k hk).mono fun r _ hr => hr.snoc fun hcloses => hcloses
  | upsertMemory value' =>
    cases hexecute
    obtain ⟨hrows, hindex, hversion⟩ := upsertMemory_spec db value'
    rw [hrows, hindex]
    refine h.write (fun k' r' _ hr => hr.snoc fun hcloses => hcloses) hversion ?_
    exact owed_of_opens history rfl
  | upsertKnowledge value' =>
    cases hexecute
    obtain ⟨hrows, hindex, hversion⟩ := upsertKnowledge_spec db value'
    rw [hrows, hindex]
    refine h.write (fun k' r' _ hr => hr.snoc fun hcloses => hcloses) hversion ?_
    exact owed_of_opens history rfl
  | insertVector t source d version =>
    cases hexecute
    rcases insertVector_spec db t source d version with
      ⟨r, hrow, -, hindexed, hrows, hindex⟩ | ⟨hcount, hdb, hskip⟩
    · rw [hrows, hindex]
      refine h.insert (fun k' r' hne hr => hr.snoc fun hcloses => ?_) hrow hindexed
      exact hne hcloses.1.symm
    · rw [hdb]
      refine fun k hk => (h k hk).mono fun r hrow hr => hr.snoc ?_
      rintro ⟨rfl, hversion, hindexed | hpos⟩
      · -- the entry would have to be newer than the row
        obtain ⟨old, hold, _⟩ := hskip r hrow hversion.symm hindexed
        obtain ⟨r', hr', _, -⟩ := (h _ hk).dated old hold
        obtain rfl : r = r' := some.inj (hrow.symm.trans hr')
        omega
      · rw [hcount] at hpos
        exact absurd hpos (Nat.lt_irrefl 0)
  | deleteVector t source d =>
    cases hexecute
    obtain ⟨hrows, hindex⟩ := deleteVector_spec db t source d
    rw [hrows, hindex]
    refine h.set (fun k' r' hne hr => Debt.snoc hr ?_) (tracked_none fun r hrow hindexed => ?_)
    · rintro ⟨hk, -⟩
      exact hne hk.symm
    · have hk : keys (t, source, d) := by
        rintro rfl
        cases hrow
      rcases (h _ hk).owed with hsettled | ⟨r', hr', howed⟩
      · rw [hrow, Settled, filter_some, if_pos hindexed] at hsettled
        rcases hharmless (t, source, d) rfl with hnone | hother
        · cases hnone.symm.trans hrow
        · exact absurd (hsettled.trans hrow.symm) hother
      · obtain rfl : r = r' := some.inj (hrow.symm.trans hr')
        refine Debt.snoc howed ?_
        rintro ⟨-, hnot⟩
        rw [hindexed] at hnot
        cases hnot
  | selectMemory =>
    have hdb : db = db' := congrArg Prod.snd hexecute
    have hvalue := selectMemory_spec db (congrArg Prod.fst hexecute)
    subst hdb
    refine fun k hk => (h k hk).mono fun r hrow hr => Debt.snoc hr ?_
    rintro ⟨rfl, -, hindexed, hnot⟩
    obtain rfl := some.inj (hvalue.symm.trans hrow)
    rw [hindexed] at hnot
    cases hnot
  | deleteMemory t m =>
    have hdb : (db.deleteMemory ch.now t m).2 = db' := congrArg Prod.snd hexecute
    obtain ⟨hrows, hindex⟩ := deleteMemory_spec db (congrArg Prod.fst hexecute)
    rw [← hdb, hrows, hindex]
    exact h.remove fun k' r' _ hr => hr.snoc fun hcloses => hcloses
  | deleteKnowledge t d =>
    have hdb : (db.deleteKnowledge t d).2 = db' := congrArg Prod.snd hexecute
    obtain ⟨hrows, hindex⟩ := deleteKnowledge_spec db (congrArg Prod.fst hexecute)
    rw [← hdb, hrows, hindex]
    exact h.remove fun k' r' _ hr => hr.snoc fun hcloses => hcloses

end Step

/-! ## What the calls leave behind -/

/-- No operation of the log has failed, and no row but `debt` is owed. -/
def Good (debt : Option (Key × VectorRecord)) (l : List machine.Entry) : Prop :=
  (∀ e ∈ l, failed e = false) ∧
    ∀ k r, Owing (fun e => written e = some (k, r)) (closes k r) l → debt = some (k, r)

section Good

variable {debt : Option (Key × VectorRecord)} {l : List machine.Entry} {e : machine.Entry} {k : Key}
  {r : VectorRecord}

theorem good_nil : Good none [] :=
  ⟨fun _ he => absurd he not_mem_nil, fun _ _ h => absurd h not_owing_nil⟩

/-- One more operation that has not failed. -/
theorem Good.failed (h : Good debt l) (hok : failed e = false) :
    ∀ e' ∈ l ++ [e], Postgres.failed e' = false := by
  intro e' he'
  rcases mem_append.1 he' with he' | he'
  · exact h.1 e' he'
  · rw [mem_singleton.1 he', hok]

/-- An operation that writes no row. -/
theorem Good.snoc (h : Good debt l) (hok : Postgres.failed e = false) (hnone : written e = none) :
    Good debt (l ++ [e]) := by
  refine ⟨h.failed hok, fun k r howing => ?_⟩
  rw [owing_snoc, hnone] at howing
  rcases howing with hw | ⟨howing, -⟩
  · cases hw
  · exact h.2 k r howing

/-- An operation that writes a row. -/
theorem Good.write (h : Good none l) (hok : Postgres.failed e = false)
    (hwritten : written e = some (k, r)) : Good (some (k, r)) (l ++ [e]) := by
  refine ⟨h.failed hok, fun k' r' howing => ?_⟩
  rw [owing_snoc, hwritten] at howing
  rcases howing with hw | ⟨howing, -⟩
  · exact hw
  · cases h.2 k' r' howing

/-- An operation that closes the debt. -/
theorem Good.close (h : Good (some (k, r)) l) (hok : Postgres.failed e = false)
    (hnone : written e = none) (hcloses : closes k r e) : Good none (l ++ [e]) := by
  refine ⟨h.failed hok, fun k' r' howing => ?_⟩
  rw [owing_snoc, hnone] at howing
  rcases howing with hw | ⟨howing, hnot⟩
  · cases hw
  · cases h.2 k' r' howing
    exact absurd hcloses hnot

/-- What holds of the log and the result of a program at its end. -/
def Ends {α : Type} (Post : List machine.Entry → α → Prop) (p : Code α) (l : List machine.Entry) :
    Prop :=
  p.Obeys (fun _ _ => True) Post l

/-- A call that succeeds owes nothing. -/
def Clean (l : List machine.Entry) (a : Except Err Unit) : Prop := a = .ok () → Good none l

/-- A call that has failed. -/
theorem ends_error (err : Err) (l : List machine.Entry) : Ends Clean (.ret (.error err)) l := by
  intro h
  cases h

/-- A call whose debt is closed may succeed. -/
theorem ends_ok (h : Good none l) : Ends Clean (.ret (.ok ())) l := fun _ => h

variable {α : Type} {Post : List machine.Entry → α → Prop}

/-- An operation, and what is done with its answer. -/
theorem ends_perform {o : Op} {f : machine.Res o → Code α}
    (herr : ∀ err l, Ends Post (f (.error err)) l)
    (hok : ∀ value pre post, machine.Performs o pre (.ok value) post →
      Ends Post (f (.ok value)) (l ++ [⟨o, .ok value, pre, post⟩])) :
    Ends Post (Program.perform (M := machine) o >>= f) l := by
  refine ⟨trivial, fun pre answer post hp => ?_⟩
  cases answer with
  | error err => exact herr err _
  | ok value => exact hok value pre post hp

variable {ctx : Option ℕ}

/-- `checkCapability`. -/
theorem ends_check {f : Except Err Unit → Code α} (h : Good debt l)
    (herr : ∀ err l, Ends Post (f (.error err)) l)
    (hok : ∀ l, Good debt l → Ends Post (f (.ok ())) l) : Ends Post (checkCapability ctx >>= f) l := by
  cases ctx with
  | none => exact herr .invalid l
  | some => exact ends_perform herr fun _ _ _ _ => hok _ (h.snoc rfl rfl)

/-- `GetMemory`. -/
theorem ends_getMemory {t m : String} {f : Except Err MemoryRecord → Code α}
    (h : Good debt l) (herr : ∀ err l, Ends Post (f (.error err)) l)
    (hok : ∀ value l pre post, Good debt l →
      Ends Post (f (.ok value)) (l ++ [⟨.selectMemory t m, .ok value, pre, post⟩])) :
    Ends Post (getMemory ctx t m >>= f) l := by
  unfold Ends
  rw [getMemory, Program.obeys_bind]
  refine ends_check h (fun err l => herr err l) fun l h => ?_
  dsimp only
  split_ifs
  · exact herr .invalid l
  · refine ⟨trivial, fun pre answer post _ => ?_⟩
    cases answer with
    | error err => exact herr err _
    | ok value => exact hok value l pre post h

/-- A deletion from the index at the end of a call. -/
theorem ends_deleteVector {t d : String} {source : VectorSource} (h : Good none l) :
    Ends Clean (deleteVector t source d) l := by
  refine ⟨trivial, fun _ _ _ _ hok => ?_⟩
  cases hok
  exact h.snoc rfl rfl

/-- The same for a call that owes a row that is not to be indexed. -/
theorem ends_deleteVector_debt {t d : String} {source : VectorSource}
    (h : Good (some ((t, source, d), r)) l) (hindexed : r.indexed = false) :
    Ends Clean (deleteVector t source d) l := by
  refine ⟨trivial, fun _ _ _ _ hok => ?_⟩
  cases hok
  exact h.close rfl rfl ⟨rfl, hindexed⟩

/-- The call that has written a memory indexes it. -/
theorem ends_enqueueMemoryIndex {value : MemoryRecord}
    (h : Good (some ((value.tenantID, .memory, value.memoryID), value.vector)) l) :
    Ends Clean (enqueueMemoryIndex ctx value) l := by
  refine ends_check h (fun err l => ends_error err l) fun l h => ?_
  dsimp only
  split_ifs
  · exact ends_error .invalid l
  refine ends_perform (fun err l => ends_error err l) fun _ pre post _ => ?_
  dsimp only
  split_ifs with hcount
  · exact ends_ok (h.close rfl rfl ⟨rfl, rfl, .inr hcount⟩)
  by_cases hindexed : value.vector.indexed = true
  · -- the insertion has closed the debt
    refine ends_getMemory (h.close rfl rfl ⟨rfl, rfl, .inl hindexed⟩)
      (fun err l => ends_error err l) fun current l pre post h => ?_
    dsimp only
    split_ifs
    · exact ends_error .conflict _
    · exact ends_ok (h.snoc rfl rfl)
    · exact ends_deleteVector (h.snoc rfl rfl)
  · rw [Bool.not_eq_true] at hindexed
    refine ends_getMemory (h.snoc rfl rfl) (fun err l => ends_error err l)
      fun current l pre post h => ?_
    dsimp only
    split_ifs with hversion hlength
    · exact ends_error .conflict _
    · exact ends_ok (h.close rfl rfl ⟨rfl, not_not.1 hversion,
        decide_eq_true (ne_nil_of_length_pos hlength), hindexed⟩)
    · exact ends_deleteVector_debt (h.snoc rfl rfl) hindexed

/-- `memoryIDOf`. -/
theorem ends_memoryIDOf {input : MemoryInput} {f : Except Err String → Code α} (h : Good debt l)
    (herr : ∀ err l, Ends Post (f (.error err)) l)
    (hok : ∀ memoryID l, Good debt l → Ends Post (f (.ok memoryID)) l) :
    Ends Post (memoryIDOf input >>= f) l := by
  unfold Ends
  rw [memoryIDOf, Program.obeys_bind]
  split_ifs
  · refine ends_perform (fun err l => herr err l) fun _ _ _ _ => ?_
    exact hok _ _ (h.snoc rfl rfl)
  · exact hok _ _ h

/-- `PutMemory` leaves no debt when it succeeds. -/
theorem ends_putMemory (ctx : Option ℕ) (input : MemoryInput) :
    Ends Clean (putMemory ctx input) [] := by
  refine ends_check good_nil (fun err l => ends_error err l) fun l h => ?_
  dsimp only
  split_ifs
  · exact ends_error .invalid l
  refine ends_memoryIDOf h (fun err l => ends_error err l) fun _ l h => ?_
  dsimp only
  cases input.metadata.encode with
  | none => exact ends_error .invalid l
  | some =>
    refine ends_perform (fun err l => ends_error err l) fun _ _ _ hp => ?_
    obtain ⟨htenant, hmemory⟩ := performs_upsertMemory hp
    refine ends_enqueueMemoryIndex (h.write rfl ?_)
    rw [htenant, hmemory]
    rfl

variable (sha256 : String → String)

/-- `PutKnowledge` leaves no debt when it succeeds. -/
theorem ends_putKnowledge (ctx : Option ℕ) (value : KnowledgeInput) :
    Ends Clean (putKnowledge sha256 ctx value) [] := by
  refine ends_check good_nil (fun err l => ends_error err l) fun l h => ?_
  dsimp only
  generalize (if value.digest = "" then sha256 value.content else value.digest) = digest
  split_ifs
  · exact ends_error .invalid l
  cases value.metadata.encode with
  | none => exact ends_error .invalid l
  | some =>
    refine ends_perform (fun err l => ends_error err l) fun out pre post hp => ?_
    obtain ⟨htenant, hdocument⟩ := performs_upsertKnowledge hp
    have hwritten : Good (some ((tenantID out, .knowledge,
        documentID out), vector out)) (l ++ [_]) :=
      h.write (e := ⟨_, .ok out, pre, post⟩) rfl (by rw [htenant, hdocument]; rfl)
    dsimp only
    split_ifs with hlength
    · refine ends_perform (fun err l => ends_error err l) fun _ pre post _ => ?_
      refine ends_ok (hwritten.close rfl rfl ⟨rfl, rfl, .inl ?_⟩)
      exact decide_eq_true (ne_nil_of_length_pos hlength)
    · refine ends_deleteVector_debt hwritten (decide_eq_false (not_not.2 ?_))
      exact length_eq_zero_iff.1 (Nat.eq_zero_of_not_pos hlength)

/-- Every call leaves no debt when it succeeds. -/
theorem ends_body (call : Call) : Ends Clean ((pool sha256).body call) [] := by
  cases call with
  | putMemory ctx input => exact ends_putMemory ctx input
  | putKnowledge ctx value => exact ends_putKnowledge sha256 ctx value
  | deleteMemory =>
    refine ends_check good_nil (fun err l => ends_error err l) fun l h => ?_
    dsimp only
    split_ifs
    · exact ends_error .invalid l
    · refine ⟨trivial, fun pre answer post _ hok => ?_⟩
      cases hok
      exact h.snoc rfl rfl
  | deleteKnowledge =>
    refine ends_check good_nil (fun err l => ends_error err l) fun l h => ?_
    dsimp only
    split_ifs
    · exact ends_error .invalid l
    · refine ⟨trivial, fun pre answer post _ hok => ?_⟩
      cases hok
      exact h.snoc rfl rfl

end Good

/-! ## Convergence -/

section Convergence

variable {sha256 : String → String} {db₀ : Database} {c : Config (pool sha256)}

/-- As long as no operation fails or deletes a present row from the index, the index is kept. -/
theorem projected_of_reachable
    (h0 : ∀ k, keys k → Settled VectorRecord.indexed (rows db₀ k) (index db₀ k))
    (hc : Reachable (fun _ _ => True) (Config.start db₀) c)
    (hfailed : ∀ st ∈ c.history, failed st.entry = false)
    (hharmless : ∀ st ∈ c.history, Harmless st.entry) : Projected c.history c.state := by
  refine Reachable.invariant (I := fun db history => (∀ st ∈ history, failed st.entry = false) →
    (∀ st ∈ history, Harmless st.entry) → Projected history db) ?_ ?_ ?_ hc hfailed hharmless
  · exact fun _ _ k hk => (h0 k hk).tracked
  · intro c t _ o k r _ _ _ hp ih hfailed hharmless
    rw [forall_mem_append, forall_mem_singleton] at hfailed hharmless
    rcases performs_cases hp with ⟨_, rfl⟩ | ⟨_, hexecute⟩
    · cases hfailed.2
    · cases r with
      | error => cases hfailed.2
      | ok => exact (ih hfailed.1 hharmless.1).step hexecute hharmless.2
  · exact fun c m => m.elim

/-- When all calls have succeeded, no operation has failed. -/
theorem not_failed_of_returned (hc : Reachable (fun _ _ => True) (Config.start db₀) c)
    (hall : ∀ t th, c.threads t = some th → c.Returned t th.call (.ok ())) :
    ∀ st ∈ c.history, failed st.entry = false := by
  intro st hst
  obtain ⟨_, hth⟩ := hc.owner st hst
  have hbody : ((pool sha256).body st.call).Obeys (fun _ _ => True) Clean [] :=
    ends_body sha256 st.call
  have hgood := hc.returned hbody (hall _ _ hth) rfl
  exact hgood.1 _ (mem_log.2 ⟨st, hst, rfl, rfl⟩)

/-- In every state where all calls have succeeded, the index has exactly the projections of the rows
that are not deleted and have an embedding, if no statement has deleted a present row from the
index. -/
theorem projection_converges (h₀ : ∀ t source d, source ≠ .generic →
      db₀.vectors.lookup (t, source, d) = projection (db₀.row t source d))
    (hc : Reachable (fun _ _ => True) (Config.start db₀) c)
    (hall : ∀ t th, c.threads t = some th → c.Returned t th.call (.ok ()))
    (hharmless : ∀ st ∈ c.history, Harmless st.entry) (t : String) {source : VectorSource}
    (hsource : source ≠ .generic) (d : String) :
    c.state.vectors.lookup (t, source, d) = projection (c.state.row t source d) := by
  have hprojected : Projected c.history c.state :=
    projected_of_reachable (fun k hk => h₀ k.1 k.2.1 k.2.2 hk) hc (not_failed_of_returned hc hall)
      hharmless
  refine hprojected.settled (k := (t, source, d)) hsource fun r _ => ?_
  have hbody : ∀ call, ((pool sha256).body call).Obeys (fun _ _ => True) (fun l a => a = .ok () →
      ¬ Owing (fun e => written e = some ((t, source, d), r)) (closes (t, source, d) r) l) [] := by
    intro call
    refine (ends_body sha256 call).mono (fun _ _ => id) fun l a hclean hok howing => ?_
    cases (hclean hok).2 _ _ howing
  exact hc.not_owed hbody fun t th hth => ⟨.ok (), hall t th hth, rfl⟩

end Convergence

/-- A memory with this embedding. -/
def sampleMemory (embedding : List Float64) : Call :=
  .putMemory (some 0) { tenantID := "t", memoryID := "m", userID := "u", content := "c", embedding }

/-- A memory is put with an embedding, and then without. -/
theorem projection_converges_twice : ∃ c : Config (pool id),
    Reachable (fun _ _ => True) (Config.start (P := pool id) ({} : Database)) c ∧ c.history.length = 11 ∧
      ∀ d, c.state.vectors.lookup ("t", .memory, d) = projection (c.state.row "t" .memory d) := by
  obtain ⟨c, hc, hall, hlength, hharmless⟩ := Config.exists_finished_of_run (P := pool id)
    (fun _ _ => True) {}
    ([.spawn 0 (sampleMemory [0])] ++ List.replicate 4 (.perform 0 {}) ++
      [.spawn 1 (sampleMemory [])] ++ List.replicate 7 (.perform 1 {})) Except.isOk
    (fun c => c.history.length = 11 ∧ ∀ st ∈ c.history, Harmless st.entry)
    (by decide +kernel)
  refine ⟨c, hc, hlength, projection_converges (fun _ source _ hsource => ?_) hc
    (fun t th hth => ?_) hharmless "t" VectorSource.noConfusion⟩
  · cases source with
    | generic => exact absurd rfl hsource
    | memory | knowledge => rfl
  · obtain ⟨a, hreturned, hok⟩ := hall t th hth
    cases a with
    | error => cases hok
    | ok => exact hreturned

/-- A memory without an embedding is put, and before its statement that deletes from the index the
memory is put with an embedding: both calls succeed, and the index does not have the memory. -/
theorem lateDelete_diverges : ∃ c : Config (pool id),
    Reachable (fun _ _ => True) (Config.start (P := pool id) ({} : Database)) c ∧
      (∀ t th, c.threads t = some th → ∃ a, c.Returned t th.call a ∧ a.isOk = true) ∧
      c.state.vectors.lookup ("t", .memory, "m") = none ∧
      (projection (c.state.row "t" .memory "m")).isSome = true :=
  Config.exists_finished_of_run (P := pool id) (fun _ _ => True) {}
    ([.spawn 0 (sampleMemory [])] ++ List.replicate 6 (.perform 0 {}) ++
      [.spawn 1 (sampleMemory [0])] ++ List.replicate 4 (.perform 1 {}) ++ [.perform 0 {}])
    Except.isOk _ (by decide +kernel)

end AgentService.Vectors.Postgres
