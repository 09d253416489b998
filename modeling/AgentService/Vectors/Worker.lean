import AgentService.Vectors.InMemory
import AgentService.Vectors.Index

/-!
# The vector index of the in-memory store

`PutMemory` writes a record and then sends it to the worker of the index. Until it is sent, the call
owes it (`Debt`); then it is in the queue or in the hands of the worker (`Queued`). `Projected` is
the invariant that each memory that is not deleted is in the index, owed, or queued, in its present
version, and that no entry of the index is newer than its memory. The worker compares the version,
so that records that come late or out of order do no harm, and a deletion takes the entry with it.
Once all calls have succeeded and the worker has nothing left to do, the index has exactly the
memories with an embedding (`index_converges`).
-/

namespace AgentService.Vectors.InMemory

open Concurrent Function Option List
open Storage (Err CtxErr validateTenant key key_inj)

/-- A key of a memory: tenant and memory. -/
abbrev Key := String × String

/-- The memories that are not deleted, as vectors. -/
def rows (s : Store) (k : Key) : Option VectorRecord :=
  ((s.memories.lookup (key [k.1, k.2])).filter fun r => r.deletedAt = none).map MemoryRecord.vector

/-- The entries of the index for memories. -/
def entries (s : Store) (k : Key) : Option VectorRecord := s.vectors.lookup (vectorKey k.1 k.2)

/-- Every record lies under its own key. -/
def Keyed (s : Store) : Prop :=
  ∀ t m r, s.memories.lookup (key [t, m]) = some r → (r.tenantID, r.memoryID) = (t, m)

/-! ## What the locked sections do -/

section Sections

variable (s : Store) {t m : String}

/-- A record is written. -/
theorem rows_insert (t m : String) (r : MemoryRecord) :
    rows { s with memories := s.memories.insert (key [t, m]) r } = Function.update (rows s) (t, m)
      (if r.deletedAt = none then some r.vector else none) := by
  funext ⟨t', m'⟩
  by_cases hkey : (t', m') = (t, m)
  · cases hkey
    rw [update_self, rows, AList.lookup_insert, filter_some]
    by_cases hdeleted : r.deletedAt = none <;> simp [hdeleted]
  · have hne : key [t', m'] ≠ key [t, m] := by
      intro heq
      rw [key_inj] at heq
      cases heq
      exact hkey rfl
    rw [update_of_ne hkey, rows, AList.lookup_insert_ne hne, rows]

/-- An entry is written or deleted. -/
theorem entries_of_lookup {vectors : Go.Map VectorRecord} {value : Option VectorRecord}
    (h : (fun k => vectors.lookup k) =
      Function.update (fun k => s.vectors.lookup k) (vectorKey t m) value) :
    entries { s with vectors } = Function.update (entries s) (t, m) value := by
  funext ⟨t', m'⟩
  have hlookup := congrFun h (vectorKey t' m')
  by_cases hkey : (t', m') = (t, m)
  · cases hkey
    rw [update_self] at hlookup ⊢
    exact hlookup
  · have hne : vectorKey t' m' ≠ vectorKey t m := by
      intro heq
      rw [vectorKey, vectorKey, key_inj] at heq
      cases heq
      exact hkey rfl
    rw [update_of_ne hne] at hlookup
    rw [update_of_ne hkey]
    exact hlookup

variable {s : Store}

/-- A record that is written under its own key. -/
theorem Keyed.insert (h : Keyed s) {t m : String} {r : MemoryRecord}
    (hr : (r.tenantID, r.memoryID) = (t, m)) :
    Keyed { s with memories := s.memories.insert (key [t, m]) r } := by
  intro t' m' r' hr'
  rcases Go.lookup_insert_eq_some.1 hr' with ⟨hkey, rfl⟩ | ⟨-, hold⟩
  · rw [key_inj] at hkey
    cases hkey
    exact hr
  · exact h t' m' r' hold

/-- `PutMemory` writes a record under a new version. -/
theorem put_spec (hkeyed : Keyed s) (input : MemoryInput) (memoryID metadata : String) :
    ((s.put input memoryID metadata).1.tenantID, (s.put input memoryID metadata).1.memoryID) =
        (input.tenantID, memoryID) ∧
      (s.put input memoryID metadata).1.deletedAt = none ∧
      rows (s.put input memoryID metadata).2 = Function.update (rows s) (input.tenantID, memoryID)
        (some (s.put input memoryID metadata).1.vector) ∧
      ∀ old, rows s (input.tenantID, memoryID) = some old →
        old.version < (s.put input memoryID metadata).1.vector.version := by
  have hvalue : (s.put input memoryID metadata).1.deletedAt = none ∧
      ((s.put input memoryID metadata).1.tenantID, (s.put input memoryID metadata).1.memoryID) =
        (input.tenantID, memoryID) := by
    unfold Store.put
    dsimp only
    cases hold : s.memories.lookup (key [input.tenantID, memoryID]) with
    | none => exact ⟨rfl, rfl⟩
    | some existing => exact ⟨rfl, hkeyed _ _ existing hold⟩
  refine ⟨hvalue.2, hvalue.1, ?_, fun old hold => ?_⟩
  · have hrows := rows_insert s input.tenantID memoryID (s.put input memoryID metadata).1
    rw [if_pos hvalue.1] at hrows
    exact hrows
  · rw [rows, map_eq_some_iff] at hold
    obtain ⟨r, hr, rfl⟩ := hold
    rw [Store.put, (filter_eq_some_iff.1 hr).1]
    exact Int.lt_succ r.version

/-- `DeleteMemory` removes a memory and its entry. -/
theorem delete_spec (hkeyed : Keyed s) {now : ℤ} {t m : String} (h : (s.delete now t m).1 = none) :
    Keyed (s.delete now t m).2 ∧ rows (s.delete now t m).2 = Function.update (rows s) (t, m) none ∧
      entries (s.delete now t m).2 = Function.update (entries s) (t, m) none ∧
      (s.delete now t m).2.indexQueue = s.indexQueue ∧ (s.delete now t m).2.worker = s.worker := by
  unfold Store.delete at h ⊢
  dsimp only at h ⊢
  split at h
  · cases h
  · next value hvalue =>
    have hold := hkeyed t m value (filter_eq_some_iff.1 hvalue).1
    refine ⟨hkeyed.insert hold, ?_, ?_, rfl, rfl⟩
    · exact rows_insert s t m { value with deletedAt := some now, version := value.version + 1 }
    · exact entries_of_lookup s (Go.lookup_erase_fun s.vectors (vectorKey t m))

/-- A failed `DeleteMemory` changes nothing. -/
theorem delete_eq_of_error {now : ℤ} {t m : String}
    (h : (s.delete now t m).1 ≠ none) : (s.delete now t m).2 = s := by
  unfold Store.delete at h ⊢
  dsimp only at h ⊢
  split at h
  · rfl
  · exact absurd rfl h

/-- A record is sent, or the context is done. -/
theorem send_spec {s s' : Store} {done : Option CtxErr} {value : MemoryRecord} {err : Option Err}
    (h : s.send done value = some (err, s')) : (err ≠ none ∧ s' = s) ∨
      (err = none ∧ s' = { s with indexQueue := s.indexQueue ++ [value] }) := by
  unfold Store.send at h
  split at h
  · cases h
    exact .inl ⟨some_ne_none _, rfl⟩
  · split_ifs at h
    cases h
    exact .inr ⟨rfl, rfl⟩

end Sections

/-! ## Debts -/

/-- The records that the worker has not looked at. -/
def pending (s : Store) : List MemoryRecord := s.worker.toList ++ s.indexQueue

/-- The version `r` of the memory `k` is on its way to the index. -/
def Queued (s : Store) (k : Key) (r : VectorRecord) : Prop :=
  ∃ v ∈ pending s, (v.tenantID, v.memoryID) = k ∧ v.version = r.version ∧ v.deletedAt = none

/-- The key and the record that an operation has written. -/
def written : machine.Entry → Option (Key × VectorRecord)
  | ⟨.put _ _ _, value, _, _⟩ =>
    some ((MemoryRecord.tenantID value, MemoryRecord.memoryID value), MemoryRecord.vector value)
  | _ => none

/-- An operation that sends a version of a memory to the worker. -/
def closes (k : Key) (r : VectorRecord) : machine.Entry → Prop
  | ⟨.send _ value, err, _, _⟩ =>
    err = none ∧ (value.tenantID, value.memoryID) = k ∧ value.version = r.version ∧
      value.deletedAt = none
  | _ => False

/-- The version `r` of the memory `k` is to be sent. -/
def Debt (history : List (Step pool)) (k : Key) (r : VectorRecord) : Prop :=
  Owed (fun e => written e = some (k, r)) (closes k r) history

/-- Every memory is in the index, or on its way. -/
structure Projected (history : List (Step pool)) (s : Store) : Prop where
  /-- Every record lies under its own key. -/
  keyed : Keyed s
  /-- Every memory is in the index, or on its way. -/
  tracks : Tracks (fun _ => True) VectorRecord.version VectorRecord.indexed (rows s) (entries s)
    fun k r => Debt history k r ∨ Queued s k r

section Step

variable {history : List (Step pool)} {st : Step pool} {s s' : Store} {k : Key} {r : VectorRecord}

theorem Debt.snoc (h : Debt history k r) (hst : ¬ closes k r st.entry) :
    Debt (history ++ [st]) k r := Owed.snoc h hst

/-- What is on its way stays there while the worker has it. -/
theorem Queued.mono (h : Queued s k r) (hpending : ∀ v ∈ pending s, v ∈ pending s') :
    Queued s' k r := by
  obtain ⟨v, hv, hkey⟩ := h
  exact ⟨v, hpending v hv, hkey⟩

/-- An operation keeps the index. -/
theorem Projected.step (h : Projected history s) {t : ℕ} {call : Call} {o : Op}
    {answer : machine.Res o} (hp : machine.Performs o s answer s') :
    Projected (history ++ [⟨t, call, ⟨o, answer, s, s'⟩⟩]) s' := by
  obtain ⟨ch, hp⟩ := hp
  cases o with
  | ctxErr | newString | read =>
    cases hp
    refine ⟨h.keyed, fun k hk => (h.tracks k hk).mono fun r _ hr => ?_⟩
    exact hr.imp_left fun hdebt => hdebt.snoc fun hcloses => hcloses
  | put input memoryID metadata =>
    obtain rfl : (s.put input memoryID metadata).2 = s' := congrArg Prod.snd (some.inj hp)
    obtain rfl : (s.put input memoryID metadata).1 = answer := congrArg Prod.fst (some.inj hp)
    obtain ⟨hkey, -, hrows, hversion⟩ := put_spec h.keyed input memoryID metadata
    refine ⟨h.keyed.insert hkey, ?_⟩
    rw [hrows]
    refine h.tracks.write (fun k' r' _ hr => ?_) hversion (.inl ?_)
    · exact hr.imp_left fun hdebt => hdebt.snoc fun hcloses => hcloses
    · rw [← hkey]
      exact owed_of_opens history rfl
  | delete t m =>
    obtain rfl : (s.delete ch.now t m).2 = s' := congrArg Prod.snd (some.inj hp)
    obtain rfl : (s.delete ch.now t m).1 = answer := congrArg Prod.fst (some.inj hp)
    by_cases hdelete : (s.delete ch.now t m).1 = none
    · obtain ⟨hkeyed, hrows, hentries, hqueue, hworker⟩ := delete_spec h.keyed hdelete
      refine ⟨hkeyed, ?_⟩
      rw [hrows, hentries]
      refine h.tracks.remove fun k' r' _ hr => hr.imp (fun hdebt => hdebt.snoc fun hc => hc) ?_
      refine fun hqueued => hqueued.mono fun v hv => ?_
      rw [pending, hqueue, hworker]
      exact hv
    · rw [delete_eq_of_error hdelete]
      refine ⟨h.keyed, fun k hk => (h.tracks k hk).mono fun r _ hr => ?_⟩
      exact hr.imp_left fun hdebt => hdebt.snoc fun hcloses => hcloses
  | send ctx value =>
    rcases send_spec hp with ⟨herr, rfl⟩ | ⟨rfl, rfl⟩
    · refine ⟨h.keyed, fun k hk => (h.tracks k hk).mono fun r _ hr => ?_⟩
      exact hr.imp_left fun hdebt => hdebt.snoc fun hcloses => herr hcloses.1
    · have hpending : pending { s with indexQueue := s.indexQueue ++ [value] } =
          pending s ++ [value] := (append_assoc ..).symm
      refine ⟨h.keyed, fun k hk => (h.tracks k hk).mono fun r _ hr => ?_⟩
      by_cases hcloses : (value.tenantID, value.memoryID) = k ∧ value.version = r.version ∧
          value.deletedAt = none
      · refine .inr ⟨value, ?_, hcloses⟩
        rw [hpending]
        exact mem_append_right _ (mem_singleton_self value)
      · refine hr.imp (fun hdebt => hdebt.snoc fun hc => hcloses hc.2) fun hqueued => ?_
        refine hqueued.mono fun v hv => ?_
        rw [hpending]
        exact mem_append_left _ hv

/-- The worker takes a record. -/
theorem Queued.receive (h : Queued s k r) : Queued s.receive k r := by
  obtain ⟨v, hv, hkey, hversion, hlive⟩ := h
  refine ⟨v, ?_, hkey, hversion, hlive⟩
  unfold Store.receive pending at *
  split
  · next value rest hworker hqueue =>
    rw [hworker, hqueue] at hv
    rcases mem_cons.1 hv with rfl | hv
    · rw [if_pos hlive]
      exact mem_cons_self
    · exact mem_append_right _ hv
  · exact hv

/-- The worker is done with a record that is not the present version of `k`. -/
theorem Queued.done {value : MemoryRecord} {vectors : Go.Map VectorRecord} (h : Queued s k r)
    (hworker : s.worker = some value)
    (hvalue : ¬ ((value.tenantID, value.memoryID) = k ∧ value.version = r.version)) :
    Queued { s with worker := none, vectors } k r := by
  obtain ⟨v, hv, hkey, hversion, hlive⟩ := h
  refine ⟨v, ?_, hkey, hversion, hlive⟩
  rw [pending, hworker] at hv
  rcases mem_cons.1 hv with rfl | hv
  · exact absurd ⟨hkey, hversion⟩ hvalue
  · exact hv

section

variable (h : Projected history s)

include h

/-- The worker keeps the index. -/
theorem Projected.index : Projected history s.index := by
  unfold Store.index
  split
  · exact h
  · next value hworker =>
    have hother : ∀ (vectors : Go.Map VectorRecord) (k' : Key) (r' : VectorRecord),
        k' ≠ (value.tenantID, value.memoryID) → Debt history k' r' ∨ Queued s k' r' →
        Debt history k' r' ∨ Queued { s with worker := none, vectors } k' r' :=
      fun vectors k' r' hne hr => hr.imp_right fun hqueued =>
        hqueued.done hworker fun hkey => hne hkey.1.symm
    -- a record that is not the present version does not matter
    have hskip : (∀ r, rows s (value.tenantID, value.memoryID) = some r → value.version ≠ r.version) →
        Projected history { s with worker := none } := by
      intro hold
      refine ⟨h.keyed, fun k hk => (h.tracks k hk).mono fun r hrow hr => ?_⟩
      refine hr.imp_right fun hqueued => hqueued.done hworker ?_
      rintro ⟨rfl, hversion⟩
      exact hold r hrow hversion
    dsimp only
    cases hlookup : s.memories.lookup (key [value.tenantID, value.memoryID]) with
    | none =>
      refine hskip fun r hrow => ?_
      rw [rows, hlookup] at hrow
      cases hrow
    | some =>
      dsimp only
      split_ifs with hpresent hempty
      · refine ⟨h.keyed, ?_⟩
        rw [entries_of_lookup { s with worker := none }
          (Go.lookup_erase_fun s.vectors (vectorKey value.tenantID value.memoryID))]
        refine h.tracks.set (hother _) (tracked_none fun r hrow hindexed => ?_)
        rw [rows, hlookup, filter_some, if_pos (decide_eq_true hpresent.2)] at hrow
        cases hrow
        exact absurd (length_eq_zero_iff.1 hempty) (of_decide_eq_true hindexed)
      · refine ⟨h.keyed, ?_⟩
        rw [entries_of_lookup { s with worker := none }
          (Go.lookup_insert_fun s.vectors (vectorKey value.tenantID value.memoryID) _)]
        refine h.tracks.insert (hother _) ?_ (decide_eq_true fun hnil => ?_)
        · rw [rows, hlookup, filter_some, if_pos (decide_eq_true hpresent.2)]
          rfl
        · exact hempty (length_eq_zero_iff.2 hnil)
      · refine hskip fun r hrow hversion => hpresent ?_
        rw [rows, hlookup, map_eq_some_iff] at hrow
        obtain ⟨_, hcurrent, rfl⟩ := hrow
        obtain ⟨hsome, hlive⟩ := filter_eq_some_iff.1 hcurrent
        cases hsome
        exact ⟨hversion.symm, of_decide_eq_true hlive⟩

/-- A vector of another source does not matter. -/
theorem Projected.foreign (t source d : String)
    (value : Option VectorRecord) : Projected history (s.foreign t source d value) := by
  unfold Store.foreign
  split_ifs with hsource
  · exact h
  · have hne : ∀ t' m', vectorKey t' m' ≠ key [t, source, d] := by
      intro t' m' heq
      rw [vectorKey, key_inj] at heq
      cases heq
      exact hsource rfl
    have hentries : ∀ vectors : Go.Map VectorRecord,
        (∀ k, k ≠ key [t, source, d] → vectors.lookup k = s.vectors.lookup k) →
        Projected history { s with vectors } := by
      intro vectors hvectors
      refine ⟨h.keyed, fun k hk => ?_⟩
      have hentry : entries { s with vectors } k = entries s k := hvectors _ (hne k.1 k.2)
      rw [hentry]
      exact h.tracks k hk
    cases value with
    | some => exact hentries _ fun k hk => AList.lookup_insert_ne hk
    | none => exact hentries _ fun k hk => AList.lookup_erase_ne hk

/-- The environment keeps the index. -/
theorem Projected.advance (m : Move) : Projected history (machine.advance m s) := by
  cases m with
  | receive =>
    have hsame : rows s.receive = rows s ∧ entries s.receive = entries s ∧
        s.receive.memories = s.memories := by
      unfold Store.receive
      split <;> exact ⟨rfl, rfl, rfl⟩
    refine ⟨?_, ?_⟩
    · intro t m r hr
      exact h.keyed t m r (hsame.2.2 ▸ hr)
    · change Tracks _ _ _ (rows s.receive) (entries s.receive) _
      rw [hsame.1, hsame.2.1]
      exact fun k hk => (h.tracks k hk).mono fun r _ hr => hr.imp_right Queued.receive
  | index => exact h.index
  | foreign t source d value => exact h.foreign t source d value

end

end Step

/-! ## What the calls leave behind -/

/-- Every record that was written was sent. -/
def Clean (l : List machine.Entry) : Prop :=
  ∀ k r, ¬ Owing (fun e => written e = some (k, r)) (closes k r) l

section Clean

variable {l : List machine.Entry} {e : machine.Entry}

theorem clean_nil : Clean [] := fun _ _ => not_owing_nil

/-- An operation that writes no record. -/
theorem Clean.snoc (h : Clean l) (hnone : written e = none) : Clean (l ++ [e]) := by
  intro k r howing
  rw [owing_snoc, hnone] at howing
  rcases howing with hw | ⟨howing, -⟩
  · cases hw
  · exact h k r howing

/-- A record is written and sent. -/
theorem Clean.put_send (h : Clean l) {e' : machine.Entry} {k : Key} {r : VectorRecord}
    (hwritten : written e = some (k, r)) (hcloses : closes k r e') (hnone : written e' = none) :
    Clean (l ++ [e] ++ [e']) := by
  intro k' r' howing
  rw [owing_snoc, owing_snoc, hnone, hwritten] at howing
  rcases howing with hw | ⟨hw | ⟨howing, -⟩, hnot⟩
  · cases hw
  · cases hw
    exact hnot hcloses
  · exact h k' r' howing

/-- What a call leaves behind when it succeeds. -/
def Ends (p : Code (Option Err)) (l : List machine.Entry) : Prop :=
  p.Obeys (fun _ _ => True) (fun l a => a = none → Clean l) l

/-- A call that has failed. -/
theorem ends_error (err : Err) (l : List machine.Entry) : Ends (.ret (some err)) l := by
  intro h
  cases h

/-- A call under a context. -/
theorem ends_ctx {ctx : ℕ} {f : Option Err → Code (Option Err)} (h : Clean l)
    (herr : ∀ err l, Ends (f (some err)) l) (hok : ∀ l, Clean l → Ends (f none) l) :
    Ends (ctxErr ctx >>= f) l := by
  refine ⟨trivial, fun _ answer _ _ => ?_⟩
  cases answer with
  | some err => exact herr err _
  | none => exact hok _ (h.snoc rfl)

/-- The locked section of `PutMemory`, and the sending of its record. -/
theorem ends_put {ctx : ℕ} {input : MemoryInput} {memoryID metadata : String} (h : Clean l) :
    Ends (put input memoryID metadata >>= enqueueIndex ctx) l := by
  refine ⟨trivial, fun pre value _ hp => ⟨trivial, fun _ _ _ _ herr => ?_⟩⟩
  obtain ⟨_, hp⟩ := hp
  have hvalue : (Store.put pre input memoryID metadata).1 = value := congrArg Prod.fst (some.inj hp)
  have hlive : MemoryRecord.deletedAt value = none := by
    rw [← hvalue]
    unfold Store.put
    dsimp only
    split <;> rfl
  exact h.put_send rfl ⟨herr, rfl, rfl, hlive⟩ rfl

/-- Every call that succeeds has sent what it has written. -/
theorem ends_body (call : Call) : Ends (pool.body call) [] := by
  cases call with
  | putMemory ctx input =>
    cases ctx with
    | none => exact ends_error .invalid []
    | some =>
      refine ends_ctx clean_nil (fun err l => ends_error err l) fun l h => ?_
      dsimp only
      split_ifs
      · exact ends_error .invalid l
      cases input.metadata.encode with
      | none => exact ends_error .invalid l
      | some =>
        dsimp only
        unfold memoryIDOf
        split_ifs
        · exact ⟨trivial, fun pre _ post _ => ends_put (h.snoc rfl)⟩
        · exact ends_put h
  | deleteMemory ctx =>
    cases ctx with
    | none => exact ends_error .invalid []
    | some =>
      refine ends_ctx clean_nil (fun err l => ends_error err l) fun l h => ?_
      dsimp only
      split_ifs
      · exact ends_error .invalid l
      · exact ⟨trivial, fun pre err post _ _ => h.snoc rfl⟩
  | enqueueMemoryIndex ctx =>
    cases ctx with
    | none => exact ends_error .invalid []
    | some =>
      refine ends_ctx clean_nil (fun err l => ends_error err l) fun l h => ?_
      dsimp only
      split_ifs
      · exact ends_error .invalid l
      · refine ⟨trivial, fun _ answer _ _ => ?_⟩
        cases answer with
        | none => exact ends_error .notFound _
        | some =>
          dsimp only [Program.bind]
          split_ifs
          · exact ends_error .notFound _
          · exact ends_error .conflict _
          · exact ⟨trivial, fun pre err post _ _ => (h.snoc rfl).snoc rfl⟩

end Clean

/-! ## Convergence -/

/-- In every run the index is kept. -/
theorem projected_of_reachable {c : Config pool}
    (hc : Reachable (fun _ _ => True) (Config.start ({} : Store)) c) :
    Projected c.history c.state := by
  refine Reachable.invariant (I := fun s history => Projected history s) ?_ ?_ ?_ hc
  · refine ⟨fun t m r hr => (by cases hr), fun k _ => ?_⟩
    exact Settled.tracked rfl
  · exact fun c t _ o k r _ _ _ hp ih => ih.step hp
  · exact fun c m _ ih => ih.advance m

/-- In every state where all calls have succeeded, the queue is empty, and the worker is idle, the
index has exactly the memories that are not deleted and have an embedding, in their present
version. -/
theorem index_converges {c : Config pool}
    (hc : Reachable (fun _ _ => True) (Config.start ({} : Store)) c)
    (hall : ∀ t th, c.threads t = some th → c.Returned t th.call none)
    (hqueue : c.state.indexQueue = []) (hworker : c.state.worker = none)
    (tenantID memoryID : String) :
    c.state.vectors.lookup (vectorKey tenantID memoryID) =
      projection (((c.state.memories.lookup (key [tenantID, memoryID])).filter
        fun r => r.deletedAt = none).map MemoryRecord.vector) := by
  have hprojected := projected_of_reachable hc
  refine hprojected.tracks.settled (k := (tenantID, memoryID)) trivial fun r _ howed => ?_
  rcases howed with hdebt | ⟨v, hv, -⟩
  · have hbody : ∀ call, (pool.body call).Obeys (fun _ _ => True) (fun l a => a = none →
        ¬ Owing (fun e => written e = some ((tenantID, memoryID), r))
          (closes (tenantID, memoryID) r) l) [] :=
      fun call => (ends_body call).mono (fun _ _ => id) fun l a hclean hok => hclean hok _ _
    exact hc.not_owed hbody (fun t th hth => ⟨none, hall t th hth, rfl⟩) hdebt
  · rw [pending, hqueue, hworker] at hv
    exact absurd hv List.not_mem_nil

/-- A memory is put with an embedding. -/
def sampleCall : Call :=
  .putMemory (some 0)
    { tenantID := "t", memoryID := "m", userID := "u", content := "c", embedding := [0] }

/-- A memory is put, and the worker has indexed it. -/
theorem index_converges_put : ∃ c : Config pool,
    Reachable (fun _ _ => True) (Config.start (P := pool) ({} : Store)) c ∧
      (c.state.vectors.lookup (vectorKey "t" "m")).isSome = true ∧
      ∀ tenantID memoryID, c.state.vectors.lookup (vectorKey tenantID memoryID) =
        projection (((c.state.memories.lookup (key [tenantID, memoryID])).filter
          fun r => r.deletedAt = none).map MemoryRecord.vector) := by
  obtain ⟨c, hc, hall, hsome, hqueue, hworker⟩ := Config.exists_finished_of_run (P := pool)
    (fun _ _ => True) ({} : Store)
    [.spawn 0 sampleCall, .perform 0 {}, .perform 0 {}, .perform 0 {}, .move .receive, .move .index]
    Option.isNone
    (fun c => (c.state.vectors.lookup (vectorKey "t" "m")).isSome = true ∧
      c.state.indexQueue = [] ∧ c.state.worker = none)
    (by decide +kernel)
  refine ⟨c, hc, hsome, index_converges hc (fun t th hth => ?_) hqueue hworker⟩
  obtain ⟨a, hreturned, hok⟩ := hall t th hth
  rw [Option.isNone_iff_eq_none] at hok
  rw [← hok]
  exact hreturned

end AgentService.Vectors.InMemory
