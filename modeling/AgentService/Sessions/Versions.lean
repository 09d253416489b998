import AgentService.Sessions.Memory
import AgentService.Sessions.Rules

/-!
# Updates of a session's state

The store writes the state of a session only for a caller that has its current version. The service
remembers the version that an instance has last seen, but `UpdateSessionState` does not use it: it
reads the session again and writes against the version that it has just read. An update that
another instance committed before this read is overwritten, although the instance has never seen it
(`blindUpdate_overwrites`).

An update that another instance commits after the read is not lost: the versions only grow, and the
write fails. So as long as no update of another instance has been missed when `UpdateSessionState`
reads the session, every call that was overtaken returns an error and leaves the store as it is
(`overtaken_refused`). This is over all runs of any number of instances, with any interleaving of
their operations, in which no session is deleted.
-/

namespace AgentService.Sessions

open Concurrent Program List
open Storage (Session key Store)

variable {U : Upstream}

/-! ## Overtaken calls -/

/-- The instance of a call. -/
def Call.service : Call → Service
  | .createSession s .. | .getSession s .. | .updateSessionState s .. | .appendEvent s ..
  | .deleteSession s _ => s

/-- An operation on the stored row of a session. -/
def RowOp (tenantID sessionID : String) : Op → Prop
  | .store (.getSession tenantID' sessionID') => tenantID' = tenantID ∧ sessionID' = sessionID
  | .store (.updateSessionState tenantID' sessionID' _ _) =>
    tenantID' = tenantID ∧ sessionID' = sessionID
  | _ => False

/-- A write of the state of a session. -/
def WriteOp (tenantID sessionID : String) : Op → Prop
  | .store (.updateSessionState tenantID' sessionID' _ _) =>
    tenantID' = tenantID ∧ sessionID' = sessionID
  | _ => False

/-- A write of the state of a session that was committed. -/
def Committed (tenantID sessionID : String) : Entry U → Prop
  | ⟨.store (.updateSessionState tenantID' sessionID' _ _), .ok _, _, _⟩ =>
    tenantID' = tenantID ∧ sessionID' = sessionID
  | _ => False

instance (tenantID sessionID : String) (o : Op) : Decidable (RowOp tenantID sessionID o) := by
  unfold RowOp
  split <;> infer_instance

instance (tenantID sessionID : String) (o : Op) : Decidable (WriteOp tenantID sessionID o) := by
  unfold WriteOp
  split <;> infer_instance

instance (tenantID sessionID : String) (entry : Entry U) :
    Decidable (Committed tenantID sessionID entry) := by
  unfold Committed
  split <;> infer_instance

section Overtaken

variable (s : Service) (sessionID : String) (t : ℕ)

/-- The instance of call `t` read or wrote the session in another call. -/
def Own (st : RunStep U) : Prop :=
  st.tid ≠ t ∧ st.call.service = s ∧ RowOp s.tenantID sessionID st.entry.op

/-- Another instance has committed an update of the session. -/
def Foreign (st : RunStep U) : Prop :=
  st.call.service.instanceID ≠ s.instanceID ∧ Committed s.tenantID sessionID st.entry

instance (st : RunStep U) : Decidable (Own s sessionID t st) := by
  unfold Own
  infer_instance

instance (st : RunStep U) : Decidable (Foreign s sessionID st) := by
  unfold Foreign
  infer_instance

/-- Since the instance of call `t` has last read or written the session in another call,
another instance has committed an update of it. -/
def Overtaken (history : List (RunStep U)) : Prop :=
  (∃ own ∈ history, Own s sessionID t own) ∧
  ∃ update ∈ history.reverse.takeWhile (fun st => ¬ Own s sessionID t st),
    Foreign s sessionID update

instance (history : List (RunStep U)) : Decidable (Overtaken s sessionID t history) := by
  unfold Overtaken
  infer_instance

end Overtaken

/-- The update of another instance lies between the last step of the instance and the end. -/
theorem overtaken_iff {s : Service} {sessionID : String} {t : ℕ} {history : List (RunStep U)} :
    Overtaken s sessionID t history ↔ ∃ before update after, history = before ++ update :: after ∧
      Foreign s sessionID update ∧ (∃ own ∈ before, Own s sessionID t own) ∧
      ∀ st ∈ after, ¬ Own s sessionID t st := by
  have hforeign : ∀ st : RunStep U, Foreign s sessionID st → ¬ Own s sessionID t st :=
    fun st hforeign hown => hforeign.1 (congrArg Service.instanceID hown.2.1)
  constructor
  · rintro ⟨⟨own, hmem, hown⟩, update, hupdate, hf⟩
    obtain ⟨after, rest, hsplit⟩ := append_of_mem hupdate
    have hafter : ∀ st ∈ after, ¬ Own s sessionID t st := by
      intro st hst
      have hwhile := mem_append_left (update :: rest) hst
      rw [← hsplit] at hwhile
      have hnot := mem_takeWhile_imp
        (p := fun st : RunStep U => decide (¬ Own s sessionID t st)) hwhile
      exact of_decide_eq_true hnot
    obtain ⟨tail, htail⟩ : ∃ tail, history.reverse = after ++ update :: tail := by
      have hreverse := takeWhile_append_dropWhile
        (p := fun st : RunStep U => decide (¬ Own s sessionID t st)) (l := history.reverse)
      rw [hsplit, append_assoc, cons_append] at hreverse
      exact ⟨_, hreverse.symm⟩
    have hhistory : history = tail.reverse ++ update :: after.reverse := by
      rw [← reverse_reverse history, htail]
      simp
    refine ⟨tail.reverse, update, after.reverse, hhistory, hf, ⟨own, ?_, hown⟩,
      fun st hst => hafter st (mem_reverse.1 hst)⟩
    rw [hhistory] at hmem
    rcases mem_append.1 hmem with hmem | hmem
    · exact hmem
    · rcases mem_cons.1 hmem with rfl | hmem
      · exact absurd hown (hforeign _ hf)
      · exact absurd hown (hafter own (mem_reverse.1 hmem))
  · rintro ⟨before, update, after, rfl, hf, ⟨own, hmem, hown⟩, hafter⟩
    have hnot : decide (¬ Own s sessionID t update) = true := decide_eq_true (hforeign _ hf)
    refine ⟨⟨own, mem_append_left _ hmem, hown⟩, update, ?_, hf⟩
    rw [reverse_append, reverse_cons, append_assoc,
      takeWhile_append_of_pos fun st hst => decide_eq_true (hafter st (mem_reverse.1 hst)),
      singleton_append, takeWhile_cons, if_pos hnot]
    exact mem_append_right _ mem_cons_self

/-! ## The methods -/

/-- Calls that delete no session. -/
def Undeleted (_ : Run U) (call : Call) : Prop := ∀ s key, call ≠ .deleteSession s key

/-- The discipline of the calls: none deletes a stored session, and `UpdateSessionState` writes
against the version that it has just read. -/
def Call.VersionPre (call : Call) (log : List (Entry U)) : Op → Prop
  | .store (.deleteSession ..) => False
  | .store (.updateSessionState tenantID sessionID version _) =>
    ∃ s key state, call = .updateSessionState s key state ∧
      tenantID = s.tenantID ∧ sessionID = key.sessionID ∧
      ∃ persisted pre post, version = persisted.version ∧
        log = [⟨.store (.getSession s.tenantID key.sessionID), .ok persisted, pre, post⟩]
  | _ => True

/-- A call that has failed and has left the store as it was. -/
def Refused (log : List (Entry U)) (r : Result) : Prop :=
  (∃ err, r = .finished (some err)) ∧ ∀ entry ∈ log, entry.post.store = entry.pre.store

/-- How a call ends: a call of `UpdateSessionState` is refused, or its write was committed. -/
def Call.Settles (call : Call) (log : List (Entry U)) (r : Result) : Prop :=
  match call with
  | .updateSessionState s key _ => Refused log r ∨
    (∃ entry ∈ log, WriteOp s.tenantID key.sessionID entry.op) ∧
    ∀ entry ∈ log, WriteOp s.tenantID key.sessionID entry.op →
      Committed s.tenantID key.sessionID entry
  | _ => True

/-- The store is as it was after an operation that failed. -/
theorem store_of_error {o : StoreOp} {s s' : State U} {err : Storage.Err}
    (h : (machine U).Performs (.store o) s (.error err) s') : s'.store = s.store := by
  rcases performs_store h with ⟨rfl, -⟩ | ⟨_, _, _, hok, -⟩
  · rfl
  · cases hok

variable {tenantID sessionID : String}

/-- Reading a session leaves the store as it is. -/
theorem store_of_getSession {s s' : State U} {r : Except Storage.Err Session}
    (h : (machine U).Performs (.store (.getSession tenantID sessionID)) s r s') :
    s'.store = s.store := by
  rcases performs_store h with ⟨rfl, -⟩ | ⟨_, _, _, -, rfl, hacts⟩
  · rfl
  · cases hacts
    rfl

/-- `UpdateSessionState`. -/
theorem updateSessionState_obeys (s : Service) (key : Key) (state : Option String) :
    (s.updateSessionState (U := U) key state).Obeys
      (Call.VersionPre (.updateSessionState s key state))
      (fun log r => Call.Settles (.updateSessionState s key state) log (.finished r)) [] := by
  unfold Service.updateSessionState
  cases validateKey key with
  | some err => exact .inl ⟨⟨err, rfl⟩, fun _ hentry => absurd hentry not_mem_nil⟩
  | none =>
    rw [obeys_bind]
    refine ⟨trivial, fun pre r post hread => ?_⟩
    have hkeep := store_of_getSession hread
    cases r with
    | error err =>
      refine .inl ⟨⟨.storage err, rfl⟩, fun entry hentry => ?_⟩
      rw [mem_singleton.1 hentry]
      exact hkeep
    | ok persisted =>
      simp only [obeys_ret, obeys_bind]
      refine ⟨⟨s, key, state, rfl, rfl, rfl, persisted, pre, post, rfl, rfl⟩,
        fun _ r _ hwrite => ?_⟩
      cases r with
      | error err =>
        refine .inl ⟨⟨.storage err, rfl⟩, fun entry hentry => ?_⟩
        rcases mem_append.1 hentry with hentry | hentry
        · rw [mem_singleton.1 hentry]
          exact hkeep
        · rw [mem_singleton.1 hentry]
          exact store_of_error hwrite
      | ok =>
        refine ⟨trivial, fun _ _ _ _ => ⟨trivial, fun _ _ _ _ => .inr ⟨?_, ?_⟩⟩⟩
        -- the write is the second of four operations
        · exact ⟨_, mem_append_left _ (mem_append_left _
            (mem_append_right _ mem_cons_self)), rfl, rfl⟩
        · intro entry hentry hop
          simp only [nil_append, cons_append, mem_cons, not_mem_nil, or_false] at hentry
          rcases hentry with rfl | rfl | rfl | rfl
          · exact hop.elim
          · exact ⟨rfl, rfl⟩
          · exact hop.elim
          · exact hop.elim

/-- The other calls write no state. -/
theorem Call.Uses.versionPre {call : Call} {o : Op} (h : call.Uses o)
    (hdelete : ∀ s key, call ≠ .deleteSession s key)
    (hupdate : ∀ s key state, call ≠ .updateSessionState s key state) (log : List (Entry U)) :
    call.VersionPre log o := by
  cases call with
  | deleteSession => exact absurd rfl (hdelete _ _)
  | updateSessionState => exact absurd rfl (hupdate _ _ _)
  | getSession | createSession | appendEvent =>
    cases o with
    | store o => cases o <;> first | exact trivial | exact h.elim
    | delegate | setVersion | dropVersion => exact trivial

/-- Every call keeps the discipline. -/
theorem body_versionPre {c : Run U} {call : Call} (hadm : Undeleted c call) :
    (call.body (U := U)).Obeys (Call.VersionPre call) (Call.Settles call) [] := by
  cases call with
  | updateSessionState s key state =>
    exact obeys_bind.2 (updateSessionState_obeys s key state)
  | deleteSession s key => exact absurd rfl (hadm s key)
  | getSession =>
    exact (body_uses _).mono (fun log o ho => ho.versionPre nofun nofun log) fun _ _ _ => trivial
  | createSession =>
    exact (body_uses _).mono (fun log o ho => ho.versionPre nofun nofun log) fun _ _ _ => trivial
  | appendEvent =>
    exact (body_uses _).mono (fun log o ho => ho.versionPre nofun nofun log) fun _ _ _ => trivial

/-! ## Versions -/

/-- The stored sessions stay, and their versions do not go down. -/
def Ahead (s s' : State U) : Prop :=
  ∀ k value, s.store.sessions.lookup k = some value →
    ∃ value', s'.store.sessions.lookup k = some value' ∧ value.version ≤ value'.version

theorem Ahead.of_eq {s s' : State U} (h : s'.store.sessions = s.store.sessions) : Ahead s s' :=
  fun _ value hvalue => ⟨value, h ▸ hvalue, Int.le_refl _⟩

/-- One state after another. -/
theorem Ahead.trans {s s' s'' : State U} (h : Ahead s s') (h' : Ahead s' s'') : Ahead s s'' := by
  intro k value hvalue
  obtain ⟨value', hvalue', hle⟩ := h k value hvalue
  obtain ⟨value'', hvalue'', hle'⟩ := h' k value' hvalue'
  exact ⟨value'', hvalue'', Int.le_trans hle hle'⟩

/-- No step of the calls takes a version back. -/
theorem performs_ahead {call : Call} {log : List (Entry U)} {s s' : State U} {o : Op} {r : o.Res}
    (hpre : call.VersionPre log o) (hperf : (machine U).Performs o s r s') : Ahead s s' := by
  rcases performs_acts hperf with heq | ⟨_, _, _, ⟨⟩, hacts⟩
  · exact .of_eq (congrArg _ heq)
  unfold Ahead
  generalize s'.store = store at hacts ⊢
  cases hacts with
  | got | present | appended | listed => exact Ahead.of_eq rfl
  | deleted => exact hpre.elim
  | @created tenantID sessionID _ hnew =>
    intro k value hvalue
    have hk : k ≠ key [tenantID, sessionID] := by
      rintro rfl
      rw [hnew] at hvalue
      cases hvalue
    exact ⟨value, (AList.lookup_insert_ne hk).trans hvalue, Int.le_refl _⟩
  | @updated tenantID sessionID _ _ _ hfound =>
    intro k value hvalue
    by_cases hk : k = key [tenantID, sessionID]
    · subst hk
      rw [hfound] at hvalue
      cases hvalue
      refine ⟨_, AList.lookup_insert _, ?_⟩
      simp only [Store.updatedSession]
      omega
    · exact ⟨value, (AList.lookup_insert_ne hk).trans hvalue, Int.le_refl _⟩

/-- A committed write finds the version that it expects and leaves the next one. -/
theorem Committed.version {entry : Entry U} (h : Committed tenantID sessionID entry)
    (hperf : (machine U).Performs entry.op entry.pre entry.res entry.post) :
    ∃ version state value value',
      entry.op = .store (.updateSessionState tenantID sessionID version state) ∧
      entry.pre.store.sessions.lookup (key [tenantID, sessionID]) = some value ∧
      value.version = version ∧
      entry.post.store.sessions.lookup (key [tenantID, sessionID]) = some value' ∧
      value'.version = version + 1 := by
  unfold Committed at h
  split at h
  · next tenantID' sessionID' version state updated pre post =>
    obtain ⟨rfl, rfl⟩ := h
    rcases performs_store hperf with ⟨-, _, herr⟩ | ⟨_, v, store, -, hpost, hacts⟩
    · cases herr
    · cases hacts with
      | @updated _ _ _ _ value hfound hversion =>
        dsimp only at hpost ⊢
        subst hpost
        exact ⟨version, state, value, _, rfl, hfound, hversion, AList.lookup_insert _,
          congrArg (· + 1) hversion⟩
  · exact h.elim

/-! ## Runs -/

/-- The history before the write of a call, or all of it when the call has not written. -/
def beforeWrite (tenantID sessionID : String) (t : ℕ) (history : List (RunStep U)) :
    List (RunStep U) :=
  history.takeWhile fun st => ¬ (st.tid = t ∧ WriteOp tenantID sessionID st.entry.op)

/-- When `UpdateSessionState` reads the session, its instance has missed no update of
another instance. -/
def ReadsFresh (before : List (RunStep U)) (st : RunStep U) : Prop :=
  match st.call with
  | .updateSessionState s key _ =>
    st.entry.op = .store (.getSession s.tenantID key.sessionID) →
      ¬ Overtaken s key.sessionID st.tid before
  | _ => True

instance (before : List (RunStep U)) (st : RunStep U) : Decidable (ReadsFresh before st) := by
  unfold ReadsFresh
  split <;> infer_instance

section Runs

variable {s₀ : State U} {c : Run U}

section

variable (hc : Reachable Undeleted (Config.start s₀) c)

include hc

/-- The versions only grow from one step to the next. -/
theorem reachable_ahead : c.history.Pairwise fun a b => Ahead a.entry.post b.entry.pre := by
  refine (hc.ordered_of (R := Ahead) (fun s => .of_eq rfl) (fun _ _ _ => Ahead.trans) ?_ nofun).2.2
  intro c t _ o k r _ hc hth hperf
  exact performs_ahead
    ((Reachable.lawful (fun _ _ => body_versionPre) hc).threads t _ hth).1 hperf

/-- A write against a version that was read before another update is not committed. -/
theorem not_committed_of_update
    {tenantID sessionID : String} {read update write : RunStep U}
    (horder : [read, update, write].Sublist c.history) {persisted : Session}
    {pre post : State U}
    (hread : read.entry = ⟨.store (.getSession tenantID sessionID), .ok persisted, pre, post⟩)
    (hupdate : Committed tenantID sessionID update.entry) {state : Option String}
    (hwrite : write.entry.op =
      .store (.updateSessionState tenantID sessionID persisted.version state)) :
    ¬ Committed tenantID sessionID write.entry := by
  intro hcommitted
  have hmem := horder.subset
  have hread' := hc.performs (hmem mem_cons_self)
  have hupdate' := hc.performs (hmem (mem_cons_of_mem _ mem_cons_self))
  have hwrite' := hc.performs (hmem (mem_cons_of_mem _ (mem_cons_of_mem _ mem_cons_self)))
  have hpair := (reachable_ahead hc).sublist horder
  simp only [pairwise_cons, mem_cons, not_mem_nil, or_false, forall_eq_or_imp, forall_eq] at hpair
  obtain ⟨⟨hahead, -⟩, hahead', -⟩ := hpair
  -- the version that was read
  have hfound : read.entry.post.store.sessions.lookup (key [tenantID, sessionID]) =
      some persisted := by
    rw [hread] at hread' ⊢
    rcases performs_store hread' with ⟨-, _, herr⟩ | ⟨_, v, store, hv, hpost, hacts⟩
    · cases herr
    · cases hv
      cases hacts with
      | got hget =>
        dsimp only at hpost ⊢
        rw [hpost]
        exact Store.lookup_of_getSession hget
  obtain ⟨_, _, _, _, -, hvalue, _, hvalue', _⟩ := hupdate.version hupdate'
  obtain ⟨version, _, _, _, hop, hlast, _, -⟩ := hcommitted.version hwrite'
  rw [hwrite] at hop
  cases hop
  obtain ⟨_, hseen, _⟩ := hahead _ _ hfound
  rw [hvalue] at hseen
  cases hseen
  obtain ⟨_, hlater, _⟩ := hahead' _ _ hvalue'
  rw [hlast] at hlater
  cases hlater
  omega

/-- The read of a call of `UpdateSessionState` before its write, and the version of the write. -/
theorem read_before_write {h1 h2 : List (RunStep U)} {write : RunStep U}
    (hsplit : c.history = h1 ++ write :: h2) {s : Service} {key : Key} {state : Option String}
    (hcall : write.call = .updateSessionState s key state)
    (hwrite : WriteOp s.tenantID key.sessionID write.entry.op) :
    ∃ read ∈ h1, read.tid = write.tid ∧ ∃ persisted pre post state',
      read.entry = ⟨.store (.getSession s.tenantID key.sessionID), .ok persisted, pre, post⟩ ∧
      write.entry.op = .store (.updateSessionState s.tenantID key.sessionID persisted.version
        state') := by
  obtain ⟨c', k, hc', -, hhistory, -, hth, -⟩ := hc.before_step hsplit
  have hpre : write.call.VersionPre (log c'.history write.tid) write.entry.op :=
    ((Reachable.lawful (fun _ _ => body_versionPre) hc').threads _ _ hth).1
  rw [hhistory, hcall] at hpre
  unfold WriteOp at hwrite
  split at hwrite
  · next tenantID sessionID version state' hop =>
    rw [hop] at hpre
    obtain ⟨_, _, _, heq, -, -, persisted, pre, post, rfl, hlog⟩ := hpre
    cases heq
    obtain ⟨rfl, rfl⟩ := hwrite
    have hmem : (⟨.store (.getSession s.tenantID key.sessionID), .ok persisted, pre, post⟩ :
        Entry U) ∈ log h1 write.tid := by
      rw [hlog]
      exact mem_cons_self
    obtain ⟨read, hread, htid, hentry⟩ := mem_log.1 hmem
    exact ⟨read, hread, htid, persisted, pre, post, state', hentry, hop⟩
  · exact hwrite.elim

end

/-- In a run in which no call of `UpdateSessionState` reads the session of an instance that has
missed an update, every call that was overtaken before its write returns an error and leaves the
store as it is. -/
theorem overtaken_refused (hc : Reachable Undeleted (Config.start s₀) c)
    (hfresh : Throughout ReadsFresh c.history) {t : ℕ} {s : Service} {key : Key}
    {state : Option String} {r : Result}
    (hret : c.Returned t (.updateSessionState s key state) r)
    (hover : Overtaken s key.sessionID t
      (beforeWrite s.tenantID key.sessionID t c.history)) :
    Refused (log c.history t) r := by
  have hsettles := (Reachable.lawful (fun _ _ => body_versionPre) hc).returned hret
  rcases hsettles with hrefused | ⟨⟨entry, hentry, hop⟩, hcommitted⟩
  · exact hrefused
  exfalso
  -- the first write of the call
  obtain ⟨st, hst, htid, rfl⟩ := mem_log.1 hentry
  let p := fun st : RunStep U =>
    decide (¬ (st.tid = t ∧ WriteOp s.tenantID key.sessionID st.entry.op))
  have hne : c.history.dropWhile p ≠ [] := fun h =>
    of_decide_eq_true (dropWhile_eq_nil_iff.1 h st hst) ⟨htid, hop⟩
  obtain ⟨write, rest, hdrop⟩ := exists_cons_of_ne_nil hne
  have hsplit : c.history = c.history.takeWhile p ++ write :: rest := by
    rw [← hdrop, takeWhile_append_dropWhile]
  have hwrite := head_dropWhile_not p hne
  simp only [hdrop, head_cons] at hwrite
  obtain ⟨htid', hop'⟩ := not_not.1 (of_decide_eq_false hwrite)
  have hmem : write ∈ c.history := by
    rw [hsplit]
    exact mem_append_right _ mem_cons_self
  have hcall : write.call = .updateSessionState s key state :=
    hc.call_eq hmem (htid'.symm ▸ hret)
  obtain ⟨read, hread, hreadTid, persisted, pre, post, state', hreadEntry, hversion⟩ :=
    read_before_write hc hsplit hcall hop'
  obtain ⟨before, update, after, hbefore, hforeign, hown, hafter⟩ := overtaken_iff.1 hover
  unfold beforeWrite at hbefore
  rw [hbefore] at hread hsplit
  have hne : read ≠ update := by
    rintro rfl
    have hcommitted := hforeign.2
    rw [hreadEntry] at hcommitted
    exact hcommitted
  rcases mem_append.1 hread with hread | hread
  · -- the update came after the read, so that the write found another version
    refine not_committed_of_update hc ?_ hreadEntry hforeign.2 hversion
      (hcommitted write.entry (mem_log.2 ⟨write, hmem, htid', rfl⟩) hop')
    rw [hsplit, append_assoc, cons_append]
    refine (singleton_sublist.2 hread).append (.cons_cons _ ?_)
    exact (nil_sublist after).append (.cons_cons _ (nil_sublist rest))
  · -- the update came before the read, which would have missed it
    obtain ⟨x, y, rfl⟩ := append_of_mem ((mem_cons.1 hread).resolve_left hne)
    have hreadCall : read.call = .updateSessionState s key state := by
      refine hc.call_eq ?_ ((hreadTid.trans htid').symm ▸ hret)
      rw [hsplit]
      exact mem_append_left _ (mem_append_right _ hread)
    have hnot := hfresh (before ++ update :: x) read (y ++ write :: rest) (by rw [hsplit]; simp)
    unfold ReadsFresh at hnot
    rw [hreadCall] at hnot
    refine hnot (by rw [hreadEntry]) (overtaken_iff.2 ⟨before, update, x, rfl, hforeign, ?_, ?_⟩)
    · rw [hreadTid, htid']
      exact hown
    · rw [hreadTid, htid']
      exact fun st hst => hafter st (mem_append_left _ hst)

end Runs

/-! ## Two instances -/

/-- Whether a call deletes a session. -/
def Call.deletes : Call → Bool
  | .deleteSession .. => true
  | _ => false

/-- The calls that delete no session, decided. -/
theorem undeleted_iff (c : Run U) (call : Call) : Undeleted c call ↔ call.deletes = false := by
  constructor
  · intro h
    cases call with
    | deleteSession s key => exact absurd rfl (h s key)
    | _ => rfl
  · rintro h s key rfl
    cases h

instance (c : Run U) (call : Call) : Decidable (Undeleted c call) :=
  decidable_of_iff' _ (undeleted_iff c call)

/-- An instance updates the state of the session. -/
def updateOn (instanceID : ℕ) (state : String) : Call :=
  .updateSessionState ⟨instanceID, "t"⟩ oneKey (some state)

/-- Both instances get the session, and the second one updates it between the read and the write of
the first one. -/
def racingUpdate : List (Action (services memory)) :=
  alone 0 (getOn 0) 5 ++ alone 1 (getOn 1) 5 ++ alone 2 (updateOn 0 "a") 1 ++
    alone 3 (updateOn 1 "b") 4 ++ [.perform 2 { upstream := () }]

/-- Both instances get the session, and then update it one after the other. -/
def blindUpdate : List (Action (services memory)) :=
  alone 0 (getOn 0) 5 ++ alone 1 (getOn 1) 5 ++ alone 2 (updateOn 1 "b") 4 ++
    alone 3 (updateOn 0 "a") 4

/-- An update that was overtaken between its read and its write is refused. -/
theorem overtaken_refused_race : ∃ c : Run memory,
    Reachable Undeleted (Config.start oneSession) c ∧
    c.Returned 2 (updateOn 0 "a") (.finished (some (.storage .conflict))) ∧
    Refused (log c.history 2) (.finished (some (.storage .conflict))) := by
  obtain ⟨c, hc, hreturned, hresult, hfresh, hover⟩ :=
    Config.exists_returned_of_run Undeleted (Config.start oneSession) racingUpdate
      (fun c => c.result 2 = some (.finished (some (.storage .conflict))) ∧
        Throughout ReadsFresh c.history ∧
        Overtaken ⟨0, "t"⟩ "s" 2 (beforeWrite "t" "s" 2 c.history)) (by decide +kernel)
  have hret := hreturned 2 (updateOn 0 "a") _ (mem_append_left _ (mem_append_left _
    (mem_append_right _ mem_cons_self))) hresult
  exact ⟨c, hc, hret, overtaken_refused hc hfresh hret hover⟩

/-- An instance overwrites an update that another instance has committed since it got the session.
-/
theorem blindUpdate_overwrites : ∃ c : Run memory,
    Reachable Undeleted (Config.start oneSession) c ∧
    c.Returned 3 (updateOn 0 "a") (.finished none) ∧
    Overtaken ⟨0, "t"⟩ "s" 3 (beforeWrite "t" "s" 3 c.history) ∧
    (c.state.store.getSession "t" "s").toOption.map Session.state = some (some "a") ∧
    ¬ Refused (log c.history 3) (.finished none) := by
  obtain ⟨c, hc, hreturned, hresult, hover, hstate⟩ :=
    Config.exists_returned_of_run Undeleted (Config.start oneSession) blindUpdate
      (fun c => c.result 3 = some (.finished none) ∧
        Overtaken ⟨0, "t"⟩ "s" 3 (beforeWrite "t" "s" 3 c.history) ∧
        (c.state.store.getSession "t" "s").toOption.map Session.state = some (some "a"))
      (by decide +kernel)
  have hret := hreturned 3 (updateOn 0 "a") _
    (mem_append_right _ mem_cons_self) hresult
  refine ⟨c, hc, hret, hover, hstate, ?_⟩
  rintro ⟨⟨err, herr⟩, -⟩
  cases herr

end AgentService.Sessions
