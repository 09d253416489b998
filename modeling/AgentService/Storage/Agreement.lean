import AgentService.Storage.Postgres

/-!
# The in-memory and the Postgres store

Both stores are given the same delivery calls at the same clock readings, from the same recorded
events. Their rows stay equal (`Mirrors`) as long as each call is one that the two treat alike
(`Alike`), and then they answer alike (`deliveries_agree`). The conditions of `Alike` are the places
where the code differs: values that a column does not take, rows that come with delivery state,
negative segments, the deadline after a step that does not enter `sending`, and an empty provider
message or error class, which the database reads as no change.
-/

namespace AgentService.Storage

open Concurrent List Sql AList
open Store (leaseExpired pendingRow validateExistingReplies rowKey)
open Postgres (rowFault leaseSeconds insertReplySegments second transitionGuard satisfiesChecks
  updateRow claimGuard afterUpdate transitionSet)

/-! ## The two stores -/

/-- The calls that deliver replies. -/
inductive DeliveryCall where
  | enqueueReplies (values : List ReplyOutbox)
  | claimReply (tenantID replyID : String) (segment : ℤ) (owner : String) (leaseDuration : ℤ)
  | transitionReply (transition : ReplyTransition)

/-- A delivery call with its context and the clock at its execution. -/
structure Delivery where
  context : Context := .live
  /-- The clock. -/
  now : ℤ
  call : DeliveryCall

/-- An answer with one row, as a list. -/
def single {σ : Type} (answer : Except Err ReplyOutbox × σ) : Except Err (List ReplyOutbox) × σ :=
  (answer.1.map fun row => [row], answer.2)

/-- The in-memory store. -/
def memory : Server Delivery where
  State := Store
  Res _ := Except Err (List ReplyOutbox)
  answer delivery s :=
    match check delivery.context with
    | some err => (.error err, s)
    | none =>
      match delivery.call with
      | .enqueueReplies values => s.enqueueRepliesPlain delivery.now values
      | .claimReply tenantID replyID segment owner leaseDuration =>
        single (s.claimReply delivery.now tenantID replyID segment owner leaseDuration)
      | .transitionReply transition => single (s.transitionReply delivery.now transition)

/-- The Postgres store. -/
def postgres : Server Delivery where
  State := Postgres.Database
  Res _ := Except Err (List ReplyOutbox)
  answer delivery db :=
    match check delivery.context with
    | some err => (.error err, db)
    | none =>
      match delivery.call with
      | .enqueueReplies values => Postgres.enqueueReplies delivery.now db values
      | .claimReply tenantID replyID segment owner leaseDuration =>
        single (Postgres.claimReply delivery.now db tenantID replyID segment owner leaseDuration)
      | .transitionReply transition =>
        single (Postgres.transitionReply delivery.now db transition)

/-- Rows that agree on the state of their delivery. -/
structure SameDelivery (row row' : ReplyOutbox) : Prop where
  status : row'.status = row.status
  attempts : row'.attempts = row.attempts
  fencingToken : row'.fencingToken = row.fencingToken
  leaseOwner : row'.leaseOwner = row.leaseOwner
  leaseExpiresAt : row'.leaseExpiresAt = row.leaseExpiresAt
  providerMessageID : row'.providerMessageID = row.providerMessageID
  lastErrorClass : row'.lastErrorClass = row.lastErrorClass

/-- Answers that agree: the same error, or rows that agree one by one. -/
def SameAnswer : Except Err (List ReplyOutbox) → Except Err (List ReplyOutbox) → Prop
  | .error err, .error err' => err = err'
  | .ok rows, .ok rows' => List.Forall₂ SameDelivery rows rows'
  | _, _ => False

/-- An answer agrees with itself. -/
theorem SameAnswer.refl (r : Except Err (List ReplyOutbox)) : SameAnswer r r := by
  cases r with
  | error => rfl
  | ok => exact forall₂_same.2 fun _ _ => ⟨rfl, rfl, rfl, rfl, rfl, rfl, rfl⟩

/-! ## Calls that the stores treat alike -/

/-- A row of a batch whose values fit the columns and that comes without delivery state. -/
structure FitsRow (row : ReplyOutbox) : Prop where
  /-- Its texts have no NUL character. -/
  texts : ∀ value ∈ [row.tenantID, row.replyID, row.eventID, row.payload,
    row.replyTarget.bindingID, row.replyTarget.conversationKind, row.replyTarget.receiverID,
    row.replyTarget.threadID], Sql.isText value = true
  /-- Its numbers fit `INT`. -/
  ints : ∀ value ∈ [row.segmentIndex, row.segmentCount], Sql.isInt4 value = true
  /-- Its reply identifier has at most 256 characters and is not blank. -/
  name : Sql.isName row.replyID 256 = true
  /-- Its destination fits its columns. -/
  target : Postgres.isTarget row.replyTarget = true
  attempts : row.attempts = 0
  fencingToken : row.fencingToken = 0
  leaseOwner : row.leaseOwner = ""
  leaseExpiresAt : row.leaseExpiresAt = none
  providerMessageID : row.providerMessageID = ""
  lastErrorClass : row.lastErrorClass = ""

/-- A row whose counters have room for one more. -/
def HasRoom (row : ReplyOutbox) : Prop :=
  Sql.isInt4 (row.attempts + 1) = true ∧ Sql.isInt8 (row.fencingToken + 1) = true

/-- A claim whose values fit the columns. -/
structure FitsClaim (s : Store) (tenantID replyID : String) (segment : ℤ) (owner : String) :
    Prop where
  /-- Its texts have no NUL character. -/
  texts : ∀ value ∈ [tenantID, replyID, owner], Sql.isText value = true
  /-- The segment fits `INT`. -/
  int4 : Sql.isInt4 segment = true
  /-- The segment is not negative. -/
  segment_nonneg : 0 ≤ segment
  /-- The owner has at most 256 characters. -/
  owner_le : owner.length ≤ 256
  /-- The counters of the row have room. -/
  room : ∀ row, s.replies.lookup (replyKey tenantID replyID segment) = some row → HasRoom row

/-- A step whose values fit the columns and that the stores make alike. -/
structure FitsStep (s : Store) (now : ℤ) (t : ReplyTransition) : Prop where
  /-- Its texts have no NUL character. -/
  texts : ∀ value ∈ [t.tenantID, t.replyID, t.owner, t.providerID, t.errorClass],
    Sql.isText value = true
  /-- Its numbers fit `INT`. -/
  ints : ∀ value ∈ [t.segmentIndex, t.leaseDuration / Postgres.second, t.fencingToken],
    Sql.isInt4 value = true
  /-- The segment is not negative. -/
  segment_nonneg : 0 ≤ t.segmentIndex
  /-- The owner has at most 256 characters. -/
  owner_le : t.owner.length ≤ 256
  /-- The provider message has at most 512 characters. -/
  provider_le : t.providerID.length ≤ 512
  /-- The error class has at most 128 characters. -/
  class_le : t.errorClass.length ≤ 128
  /-- The counters of the row have room. -/
  room : ∀ row, s.MovesReply now t row → HasRoom row
  /-- The step enters `sending` with a lease, or it gives no lease and the row has no deadline. -/
  deadline : ∀ row, s.MovesReply now t row →
    (t.to = .sending ∧ 0 < t.leaseDuration) ∨ (t.leaseDuration ≤ 0 ∧ row.leaseExpiresAt = none)
  /-- The step gives a provider message, or the row has none. -/
  provider : ∀ row, s.MovesReply now t row → t.providerID ≠ "" ∨ row.providerMessageID = ""
  /-- The step gives an error class, or the row has none. -/
  errorClass : ∀ row, s.MovesReply now t row → t.errorClass ≠ "" ∨ row.lastErrorClass = ""

/-- A call that the two stores treat alike. -/
def Alike (s : Store) (delivery : Delivery) : Prop :=
  match delivery.call with
  | .enqueueReplies values => ∀ row ∈ values, FitsRow row
  | .claimReply tenantID replyID segment owner _ => FitsClaim s tenantID replyID segment owner
  | .transitionReply t => FitsStep s delivery.now t

/-- The leases of a call are whole seconds. -/
def DeliveryCall.WholeSeconds : DeliveryCall → Prop
  | .enqueueReplies _ => True
  | .claimReply _ _ _ _ leaseDuration => Postgres.second ∣ leaseDuration
  | .transitionReply t => Postgres.second ∣ t.leaseDuration

/-! ## Rows and destinations -/

namespace Postgres

variable {row : ReplyOutbox}

/-- A row can be written when its counters fit and its checks hold. -/
theorem rowFault_eq_none : rowFault row = none ↔
    Sql.isInt4 row.attempts = true ∧ Sql.isInt8 row.fencingToken = true ∧
      satisfiesChecks row = true := by
  unfold rowFault
  split_ifs with hrange hchecks
  · exact ⟨fun _ => ⟨hrange.1, hrange.2, hchecks⟩, fun _ => rfl⟩
  · exact ⟨nofun, fun h => absurd h.2.2 hchecks⟩
  · exact ⟨nofun, fun h => absurd ⟨h.1, h.2.1⟩ hrange⟩

/-- The CHECK constraints one by one. -/
theorem satisfiesChecks_iff : satisfiesChecks row = true ↔
    Sql.isName row.replyID 256 = true ∧ 0 ≤ row.segmentIndex ∧
      row.segmentIndex < row.segmentCount ∧ isStatus row.status = true ∧ 0 ≤ row.attempts ∧
      0 ≤ row.fencingToken ∧ row.leaseOwner.length ≤ 256 ∧ row.providerMessageID.length ≤ 512 ∧
      row.lastErrorClass.length ≤ 128 ∧ isTarget row.replyTarget = true := by
  simp only [satisfiesChecks, decide_eq_true_eq, gt_iff_lt]

variable {leaseDuration : ℤ}

/-- A lease of whole seconds is given in full. -/
theorem leaseSeconds_mul (hpos : 0 < leaseDuration)
    (hwhole : second ∣ leaseDuration) : leaseSeconds leaseDuration * second = leaseDuration := by
  obtain ⟨n, rfl⟩ := hwhole
  have hn : 0 < n := by
    unfold second at hpos
    omega
  have hdiv : second * n / second = n := Int.mul_ediv_cancel_left n (by decide)
  unfold leaseSeconds
  rw [hdiv, if_neg (by omega), Int.mul_comm]

/-- A positive lease of whole seconds is a positive number of seconds. -/
theorem leaseSeconds_pos (hpos : 0 < leaseDuration) : 0 < leaseSeconds leaseDuration := by
  have hdiv : 0 ≤ leaseDuration / second := Int.ediv_nonneg (Int.le_of_lt hpos) (by decide)
  unfold leaseSeconds
  split_ifs with hzero
  · decide
  · omega

end Postgres

/-- The destination of a recorded event: none, or a conversation of its binding. -/
def RecordedEvent (event : MessageEvent) : Prop :=
  event.replyTarget = {} ∨
    (event.replyTarget.conversationKind ≠ "" ∧ event.replyTarget.bindingID = event.bindingID)

/-- A valid destination is empty, or it has a conversation. -/
theorem conversationKind_of_valid {target : ReplyTarget} (h : validateReplyTarget target = none) :
    target = {} ∨ target.conversationKind ≠ "" := by
  unfold validateReplyTarget at h
  by_cases hzero : target = {}
  · exact .inl hzero
  · refine .inr fun hkind => ?_
    simp [hzero, hkind] at h

variable {event : MessageEvent} {row first : ReplyOutbox} {tenantID replyID : String}
variable {segment leaseDuration : ℤ} {t : ReplyTransition} {values : List ReplyOutbox}

/-- The destination of a recorded event is read as it was recorded. -/
theorem RecordedEvent.cloneEvent (h : RecordedEvent event) :
    (Postgres.cloneEvent event).replyTarget = event.replyTarget := by
  rcases h with hzero | ⟨hkind, hbinding⟩
  · simp [Postgres.cloneEvent, hzero]
  · simp [Postgres.cloneEvent, hkind, ← hbinding]

/-- The condition of the INSERT is that the destinations are equal. -/
theorem RecordedEvent.matchesEvent (h : RecordedEvent event)
    {target : ReplyTarget} (htarget : validateReplyTarget target = none) :
    Postgres.matchesEvent event target = true ↔ event.replyTarget = target := by
  obtain ⟨_, _, _, _⟩ := target
  have hkinds := conversationKind_of_valid htarget
  simp only [ReplyTarget.mk.injEq] at hkinds
  unfold Postgres.matchesEvent
  simp only [decide_eq_true_eq]
  rcases h with hzero | ⟨hkind, hbinding⟩
  · rw [hzero, ReplyTarget.mk.injEq]
    constructor
    · rintro (⟨-, -, -, rfl, rfl, rfl, rfl⟩ | ⟨-, rfl, rfl, rfl⟩)
      · exact ⟨rfl, rfl, rfl, rfl⟩
      · rcases hkinds with ⟨rfl, -⟩ | hne
        · exact ⟨rfl, rfl, rfl, rfl⟩
        · exact absurd rfl hne
    · rintro ⟨rfl, rfl, rfl, rfl⟩
      exact .inl ⟨rfl, rfl, rfl, rfl, rfl, rfl, rfl⟩
  · rw [← hbinding]
    constructor
    · rintro (⟨hempty, -⟩ | ⟨rfl, rfl, rfl, rfl⟩)
      · exact absurd hempty hkind
      · rfl
    · intro heq
      rw [heq]
      exact .inr ⟨rfl, rfl, rfl, rfl⟩

/-! ## Mirrored stores -/

/-- A store and a database with the same events and the same rows. -/
structure Mirrors (s : Store) (db : Postgres.Database) : Prop where
  /-- The same events. -/
  events : ∀ k, db.events.lookup k = s.events.lookup k
  /-- The same rows. -/
  replies : ∀ k, db.replies.lookup k = s.replies.lookup k
  /-- The events are recorded. -/
  recorded : ∀ k event, s.events.lookup k = some event → RecordedEvent event
  /-- The rows satisfy the constraints of the table. -/
  stored : ∀ k row, s.replies.lookup k = some row → Postgres.rowFault row = none

variable {s : Store} {db : Postgres.Database} {now : ℤ}

/-- Writing the same row. -/
theorem Mirrors.setReply (h : Mirrors s db) {k : String} (hrow : rowFault row = none) :
    Mirrors (s.setReply k row) { db with replies := db.replies.insert k row } := by
  refine ⟨h.events, fun k' => ?_, h.recorded, fun k' row' hk' => ?_⟩
  · by_cases hk : k' = k
    · subst hk
      simp only [Store.setReply, lookup_insert]
    · simp only [Store.setReply, lookup_insert_ne hk, h.replies k']
  · rcases Go.lookup_insert_eq_some.1 hk' with ⟨-, rfl⟩ | ⟨-, hold⟩
    · exact hrow
    · exact h.stored k' row' hold

/-- An UPDATE that meets the constraints, with the look at the row after one that finds none. -/
theorem afterUpdate_updateRow
    {guard : ReplyOutbox → Bool} {set : ReplyOutbox → ReplyOutbox} (htenant : tenantID ≠ "")
    (hreply : replyID ≠ "") (hsegment : 0 ≤ segment)
    (hparams : Sql.parameterFault [tenantID, replyID] [segment] = none)
    (hset : ∀ row, db.replies.lookup (replyKey tenantID replyID segment) = some row →
      guard row = true → rowFault (set row) = none) :
    afterUpdate tenantID replyID segment
        (updateRow db (replyKey tenantID replyID segment) guard set) =
      match db.replies.lookup (replyKey tenantID replyID segment) with
      | none => (.error .notFound, db)
      | some row =>
        if guard row then
          (.ok (set row), { db with
            replies := db.replies.insert (replyKey tenantID replyID segment) (set row) })
        else (.error .conflict, db) := by
  have hvalid : ¬ (validateTenant tenantID ≠ none ∨ replyID = "" ∨ segment < 0) := by
    simp [htenant, hreply, hsegment]
  cases hrow : db.replies.lookup (replyKey tenantID replyID segment) with
  | none =>
    have hget : Postgres.getReply db tenantID replyID segment = .error .notFound := by
      simp only [Postgres.getReply, if_neg hvalid, hparams, hrow]
      rfl
    simp only [updateRow, hrow, afterUpdate, hget]
  | some row =>
    have hget : Postgres.getReply db tenantID replyID segment = .ok row := by
      simp only [Postgres.getReply, if_neg hvalid, hparams, hrow]
    by_cases hguard : guard row = true
    · simp only [updateRow, hrow, hguard, not_true_eq_false, if_false, if_true,
        hset row hrow hguard, afterUpdate]
    · simp only [updateRow, hrow, hguard, not_false_eq_true, if_true, if_false,
        afterUpdate, hget, Bool.false_eq_true]

/-- Parameters of which some have been taken are taken. -/
theorem parameterFault_two {texts : List String} {ints : List ℤ}
    (htexts : ∀ value ∈ tenantID :: replyID :: texts, Sql.isText value = true)
    (hints : ∀ value ∈ segment :: ints, Sql.isInt4 value = true) :
    Sql.parameterFault [tenantID, replyID] [segment] = none := by
  refine parameterFault_eq_none (fun value hvalue => htexts value ?_)
    fun value hvalue => hints value ?_
  · simp only [mem_cons, not_mem_nil, or_false] at hvalue ⊢
    tauto
  · simp only [mem_cons, not_mem_nil, or_false] at hvalue ⊢
    tauto

/-! ## Claims -/

/-- The guard of a claim is the test of the in-memory store. -/
theorem claimGuard_iff : claimGuard now row = true ↔
    ¬ (row.status ≠ .pending ∧ row.status ≠ .retryable ∧ ¬ leaseExpired now row = true) := by
  unfold claimGuard leaseExpired
  simp only [decide_eq_true_eq, Int.not_lt, gt_iff_lt]
  generalize (row.status = .sending ∧ ∃ deadline ∈ row.leaseExpiresAt, deadline ≤ now) = expired
  tauto

/-- A claim writes a row that meets the constraints. -/
theorem rowFault_applyClaim {owner : String}
    (hrow : rowFault row = none) (hroom : HasRoom row) (howner : owner.length ≤ 256) :
    rowFault (Store.applyClaim now owner leaseDuration row) = none := by
  obtain ⟨-, -, hchecks⟩ := Postgres.rowFault_eq_none.1 hrow
  refine Postgres.rowFault_eq_none.2 ⟨hroom.1, hroom.2, ?_⟩
  obtain ⟨hname, hindex, hcount, -, _, _, -, hprovider, hclass, htarget⟩ :=
    Postgres.satisfiesChecks_iff.1 hchecks
  have hattempts' : 0 ≤ row.attempts + 1 := by omega
  have htoken' : 0 ≤ row.fencingToken + 1 := by omega
  exact Postgres.satisfiesChecks_iff.2 ⟨hname, hindex, hcount, rfl, hattempts', htoken', howner,
    hprovider, hclass, htarget⟩

/-- The stores claim alike. -/
theorem Mirrors.claimReply (h : Mirrors s db) {owner : String}
    (hfits : FitsClaim s tenantID replyID segment owner) (hwhole : second ∣ leaseDuration) :
    (Postgres.claimReply now db tenantID replyID segment owner leaseDuration).1 =
        (s.claimReply now tenantID replyID segment owner leaseDuration).1 ∧
      Mirrors (s.claimReply now tenantID replyID segment owner leaseDuration).2
        (Postgres.claimReply now db tenantID replyID segment owner leaseDuration).2 := by
  unfold Postgres.claimReply Store.claimReply
  by_cases hinvalid : validateTenant tenantID ≠ none ∨ replyID = "" ∨ owner = "" ∨ leaseDuration ≤ 0
  · rw [if_pos hinvalid, if_pos hinvalid]
    exact ⟨rfl, h⟩
  · rw [if_neg hinvalid, if_neg hinvalid]
    simp only [not_or, not_not, validateTenant_eq_none, Int.not_le] at hinvalid
    obtain ⟨htenant, hreply, -, hpos⟩ := hinvalid
    have hints : ∀ value ∈ [segment], isInt4 value = true := by
      simpa using hfits.int4
    have hparams : parameterFault [tenantID, replyID, owner] [segment] = none :=
      parameterFault_eq_none hfits.texts hints
    have hset : ∀ row, Postgres.claimSet now owner (leaseSeconds leaseDuration) row =
        Store.applyClaim now owner leaseDuration row := by
      intro row
      rw [Postgres.claimSet, Postgres.leaseSeconds_mul hpos hwhole]
      rfl
    have hfault : ∀ row, db.replies.lookup (replyKey tenantID replyID segment) = some row →
        claimGuard now row = true → rowFault
          (Postgres.claimSet now owner (leaseSeconds leaseDuration) row) = none := by
      intro row hrow _
      rw [h.replies] at hrow
      rw [hset row]
      exact rowFault_applyClaim (h.stored _ row hrow) (hfits.room row hrow) hfits.owner_le
    have htwo := parameterFault_two hfits.texts hints
    simp only [hparams]
    rw [afterUpdate_updateRow htenant hreply hfits.segment_nonneg htwo hfault, h.replies]
    cases hrow : s.replies.lookup (replyKey tenantID replyID segment) with
    | none => exact ⟨rfl, h⟩
    | some row =>
      by_cases hguard : claimGuard now row = true
      · have hrow' := hfault row ((h.replies _).trans hrow) hguard
        rw [hset row] at hrow'
        dsimp only
        rw [if_pos hguard, if_neg (claimGuard_iff.1 hguard), hset row]
        exact ⟨rfl, h.setReply hrow'⟩
      · dsimp only
        rw [if_neg hguard, if_pos (not_not.1 (mt claimGuard_iff.2 hguard))]
        exact ⟨rfl, h⟩

/-! ## Steps -/

/-- The guard of a step is the test of the in-memory store. -/
theorem transitionGuard_iff : transitionGuard now t row = true ↔
      ¬ (row.status ≠ t.from ∨ (row.leaseOwner ≠ "" ∧ row.leaseOwner ≠ t.owner) ∨
        (t.fencingToken ≠ 0 ∧ row.fencingToken ≠ t.fencingToken)) ∧
      ¬ leaseExpired now row = true := by
  have hlease : (row.status ≠ .sending ∨ row.leaseExpiresAt = none ∨
      ∃ deadline ∈ row.leaseExpiresAt, deadline > now) ↔ ¬ leaseExpired now row = true := by
    unfold leaseExpired
    cases row.leaseExpiresAt <;> simp [imp_iff_not_or]
  unfold transitionGuard
  rw [decide_eq_true_eq, hlease]
  tauto

/-- A row that passes the guard of a valid step is moved by the in-memory store. -/
theorem movesReply_of_guard (htenant : t.tenantID ≠ "") (hreply : t.replyID ≠ "")
    (howner : t.owner ≠ "") (hlegal : validateTransition t.from t.to = true)
    (hrow : s.replies.lookup (replyKey t.tenantID t.replyID t.segmentIndex) = some row)
    (hguard : transitionGuard now t row = true) : s.MovesReply now t row := by
  have hlive := (transitionGuard_iff.1 hguard).2
  simp only [transitionGuard, decide_eq_true_eq] at hguard
  exact ⟨htenant, hreply, howner, hlegal, hrow, hguard.1, hguard.2.1, hguard.2.2.1,
    by simpa using hlive⟩

/-- The number of seconds of a step. -/
theorem isInt4_stepSeconds (h : Sql.isInt4 (leaseDuration / second) = true) :
    Sql.isInt4 (if leaseDuration > 0 then leaseSeconds leaseDuration else 0) = true := by
  unfold leaseSeconds
  split_ifs
  · decide
  · exact h
  · decide

/-- A step that the stores make alike sets the same row. -/
theorem FitsStep.set_eq (h : FitsStep s now t) (hwhole : second ∣ t.leaseDuration)
    (hmoves : s.MovesReply now t row) : transitionSet now t
        (if t.leaseDuration > 0 then leaseSeconds t.leaseDuration else 0) row =
      Store.applyReplyTransition now row t := by
  have hattempts : (row.attempts + if t.to = .sending then 1 else 0) =
      if t.to = .sending then row.attempts + 1 else row.attempts := by
    split_ifs
    · rfl
    · exact Int.add_zero _
  -- Either both set the deadline of the new lease, or there is none before and after.
  have hdeadline : (if (if t.leaseDuration > 0 then leaseSeconds t.leaseDuration else 0) > 0
        then some (now + (if t.leaseDuration > 0 then leaseSeconds t.leaseDuration else 0) *
          second)
        else none) =
      if t.to = .sending ∧ t.leaseDuration > 0 then some (now + t.leaseDuration)
      else row.leaseExpiresAt := by
    rcases h.deadline row hmoves with ⟨hto, hpos⟩ | ⟨_, hempty⟩
    · have hseconds := Postgres.leaseSeconds_pos hpos
      have hmul := Postgres.leaseSeconds_mul hpos hwhole
      simp only [hpos, gt_iff_lt, if_true, hseconds, hto, and_self, hmul]
    · have hnot : ¬ t.leaseDuration > 0 := by omega
      simp only [hnot, if_false, and_false, hempty, gt_iff_lt, Int.lt_irrefl]
  rw [transitionSet, Store.applyReplyTransition, hattempts, hdeadline,
    coalesce_nullif (h.provider row hmoves), coalesce_nullif (h.errorClass row hmoves)]

/-- A step that the stores make alike writes a row that meets the constraints. -/
theorem FitsStep.rowFault (h : FitsStep s now t) (hmoves : s.MovesReply now t row)
    (hrow : rowFault row = none) : rowFault (Store.applyReplyTransition now row t) = none := by
  obtain ⟨hint, -, hchecks⟩ := Postgres.rowFault_eq_none.1 hrow
  obtain ⟨hroom, hroom'⟩ := h.room row hmoves
  obtain ⟨hname, hindex, hcount, -, hattempts, _, -, -, -, htarget⟩ :=
    Postgres.satisfiesChecks_iff.1 hchecks
  have hto : Postgres.isStatus t.to = true := by
    have hlegal := hmoves.legal
    revert hlegal
    cases t.from <;> cases t.to <;> simp [validateTransition, Postgres.isStatus]
  have htoken' : 0 ≤ row.fencingToken + 1 := by omega
  refine Postgres.rowFault_eq_none.2 ⟨?_, hroom', Postgres.satisfiesChecks_iff.2
    ⟨hname, hindex, hcount, hto, ?_, htoken', h.owner_le, h.provider_le, h.class_le, htarget⟩⟩
  · simp only [Store.applyReplyTransition]
    split_ifs
    · exact hroom
    · exact hint
  · simp only [Store.applyReplyTransition]
    split_ifs
    · omega
    · exact hattempts

/-- The stores make a step alike. -/
theorem Mirrors.transitionReply (h : Mirrors s db)
    (hfits : FitsStep s now t) (hwhole : second ∣ t.leaseDuration) :
    (Postgres.transitionReply now db t).1 = (s.transitionReply now t).1 ∧
      Mirrors (s.transitionReply now t).2 (Postgres.transitionReply now db t).2 := by
  unfold Postgres.transitionReply Store.transitionReply
  by_cases hinvalid : validateTenant t.tenantID ≠ none ∨ t.replyID = "" ∨ t.owner = ""
  · rw [if_pos hinvalid, if_pos hinvalid]
    exact ⟨rfl, h⟩
  · rw [if_neg hinvalid, if_neg hinvalid]
    simp only [not_or, not_not, validateTenant_eq_none] at hinvalid
    obtain ⟨htenant, hreply, howner⟩ := hinvalid
    by_cases hlegal : validateTransition t.from t.to = true
    · rw [if_neg (not_not.2 hlegal), if_neg (not_not.2 hlegal)]
      have hints : ∀ value ∈ [t.segmentIndex,
          if t.leaseDuration > 0 then leaseSeconds t.leaseDuration else 0,
          t.fencingToken], isInt4 value = true := by
        have hgiven := hfits.ints
        simp only [forall_mem_cons] at hgiven ⊢
        exact ⟨hgiven.1, isInt4_stepSeconds hgiven.2.1, hgiven.2.2⟩
      have hfault : ∀ row,
          db.replies.lookup (replyKey t.tenantID t.replyID t.segmentIndex) = some row →
          transitionGuard now t row = true → rowFault
            (transitionSet now t
              (if t.leaseDuration > 0 then leaseSeconds t.leaseDuration else 0) row) =
            none := by
        intro row hrow hguard
        rw [h.replies] at hrow
        have hmoves := movesReply_of_guard htenant hreply howner hlegal hrow hguard
        rw [hfits.set_eq hwhole hmoves]
        exact hfits.rowFault hmoves (h.stored _ row hrow)
      simp only [parameterFault_eq_none hfits.texts hints]
      rw [afterUpdate_updateRow htenant hreply hfits.segment_nonneg
        (parameterFault_two hfits.texts hints) hfault, h.replies]
      cases hrow : s.replies.lookup (replyKey t.tenantID t.replyID t.segmentIndex) with
      | none => exact ⟨rfl, h⟩
      | some row =>
        dsimp only
        by_cases hguard : transitionGuard now t row = true
        · obtain ⟨hheld, hlive⟩ := transitionGuard_iff.1 hguard
          have hmoves := movesReply_of_guard htenant hreply howner hlegal hrow hguard
          rw [if_pos hguard, if_neg hheld, if_neg hlive, hfits.set_eq hwhole hmoves]
          exact ⟨rfl, h.setReply (hfits.rowFault hmoves (h.stored _ row hrow))⟩
        · rw [if_neg hguard]
          rw [transitionGuard_iff] at hguard
          by_cases hheld : row.status ≠ t.from ∨ (row.leaseOwner ≠ "" ∧ row.leaseOwner ≠ t.owner) ∨
              (t.fencingToken ≠ 0 ∧ row.fencingToken ≠ t.fencingToken)
          · rw [if_pos hheld]
            exact ⟨rfl, h⟩
          · have hexpired : leaseExpired now row = true :=
              not_not.1 fun hlive => hguard ⟨hheld, hlive⟩
            rw [if_neg hheld, if_pos hexpired]
            exact ⟨rfl, h⟩
    · rw [if_pos hlegal, if_pos hlegal]
      exact ⟨rfl, h⟩

/-! ## Batches -/

/-- A row without delivery state is stored as it is by both. -/
theorem FitsRow.insertedRow (h : FitsRow row) (now : ℤ) :
    Postgres.insertedRow now row = pendingRow now row := by
  unfold Postgres.insertedRow pendingRow
  rw [h.attempts, h.fencingToken, h.leaseOwner, h.leaseExpiresAt, h.providerMessageID,
    h.lastErrorClass]

/-- A row of a batch that fits the columns meets the constraints. -/
theorem FitsRow.rowFault (h : FitsRow row) (now : ℤ) (hindex : 0 ≤ row.segmentIndex)
    (hcount : row.segmentIndex < row.segmentCount) : rowFault (pendingRow now row) = none := by
  rw [← h.insertedRow now]
  have hint4 : isInt4 0 = true := by decide
  have hint8 : isInt8 0 = true := by decide
  have hzero : (0 : ℤ) ≤ 0 := Int.le_refl 0
  have hempty : ("" : String).length ≤ 0 := Nat.le_refl 0
  refine Postgres.rowFault_eq_none.2 ⟨hint4, hint8, Postgres.satisfiesChecks_iff.2 ?_⟩
  exact ⟨h.name, hindex, hcount, rfl, hzero, hzero, Nat.le_trans hempty (Nat.zero_le _),
    Nat.le_trans hempty (Nat.zero_le _), Nat.le_trans hempty (Nat.zero_le _), h.target⟩

/-- The event of a row that fits the columns is looked up. -/
theorem FitsRow.lookupMessage (h : FitsRow row) :
    Postgres.lookupMessage db row.tenantID row.eventID =
      match db.events.lookup (key [row.tenantID, row.eventID]) with
      | none => .error .notFound
      | some event => .ok (Postgres.cloneEvent event) := by
  have hparams : parameterFault [row.tenantID, row.eventID] [] = none := by
    refine parameterFault_eq_none (fun value hvalue => h.texts value ?_) (by simp)
    simp only [mem_cons, not_mem_nil, or_false] at hvalue ⊢
    tauto
  unfold Postgres.lookupMessage
  simp only [hparams]
  rfl

/-- A row of a batch for a stored event with the same destination. -/
structure Insertable (db : Postgres.Database) (row : ReplyOutbox) : Prop where
  /-- Its values fit the columns. -/
  fits : FitsRow row
  /-- The segment is one of the reply. -/
  index : 0 ≤ row.segmentIndex ∧ row.segmentIndex < row.segmentCount
  /-- Its event is stored, with the same destination. -/
  event : ∃ event, db.events.lookup (key [row.tenantID, row.eventID]) = some event ∧
    Postgres.matchesEvent event row.replyTarget = true

/-- The INSERT of such a row returns the row that is there, or a new one. -/
theorem Insertable.insertRow (h : Insertable db row) : Postgres.insertRow now db row =
      match db.replies.lookup (rowKey row) with
      | some existing =>
        if Store.replyDiffers existing row then (.error .noRows, db) else (.ok existing, db)
      | none => (.ok (pendingRow now row), { db with
            replies := db.replies.insert (rowKey row) (pendingRow now row) }) := by
  obtain ⟨event, hevent, hmatches⟩ := h.event
  unfold Postgres.insertRow
  simp only [parameterFault_eq_none h.fits.texts h.fits.ints, hevent, hmatches,
    not_true_eq_false, if_false, h.fits.insertedRow now,
    h.fits.rowFault now h.index.1 h.index.2]
  rfl

/-- The rows that are there matter only at the keys of the batch. -/
theorem validateExistingReplies_congr {m m' : GoMap ReplyOutbox}
    (h : ∀ v ∈ values, m'.lookup (rowKey v) = m.lookup (rowKey v)) :
    validateExistingReplies m' values = validateExistingReplies m values := by
  induction values with
  | nil => rfl
  | cons v _ ih =>
    have hv : m'.lookup (replyKey v.tenantID v.replyID v.segmentIndex) =
        m.lookup (replyKey v.tenantID v.replyID v.segmentIndex) := h v mem_cons_self
    simp only [validateExistingReplies, hv, ih fun u hu => h u (mem_cons_of_mem _ hu)]

/-- The rest of a batch after a row that is inserted or found. -/
theorem insertReplySegments_cons {v : ReplyOutbox} {db' : Postgres.Database}
    (h : Postgres.insertRow now db v = (.ok row, db')) : insertReplySegments now db (v :: values) =
      ((insertReplySegments now db' values).1.map (row :: ·),
        (insertReplySegments now db' values).2) := by
  rw [insertReplySegments, h]
  dsimp only
  obtain ⟨result, _⟩ := insertReplySegments now db' values
  cases result with
  | error => rfl
  | ok => rfl

/-- The transaction of a batch answers what the checks and the loop of the in-memory store do, and
leaves the same rows. -/
theorem insertReplySegments_eq {m : GoMap ReplyOutbox} (hvalues : ∀ v ∈ values, Insertable db v)
    (hnodup : (values.map ReplyOutbox.segmentIndex).Nodup)
    (hm : ∀ k, db.replies.lookup k = m.lookup k) : (insertReplySegments now db values).1 =
        (match validateExistingReplies m values with
        | some err => .error err
        | none => .ok (Store.insertReplies now values m).1) ∧
      (validateExistingReplies m values = none →
        (insertReplySegments now db values).2.events = db.events ∧
        ∀ k, (insertReplySegments now db values).2.replies.lookup k =
          (Store.insertReplies now values m).2.lookup k) := by
  induction values generalizing db m with
  | nil => exact ⟨rfl, fun _ => ⟨rfl, hm⟩⟩
  | cons v values ih =>
    have hv := hvalues v mem_cons_self
    obtain ⟨event, hevent, -⟩ := hv.event
    rw [map_cons, nodup_cons] at hnodup
    have hinsert : Postgres.insertRow now db v = _ := hv.insertRow
    rw [hm (rowKey v)] at hinsert
    cases hlook : m.lookup (rowKey v) with
    | some existing =>
      have hlook' : m.lookup (replyKey v.tenantID v.replyID v.segmentIndex) = some existing := hlook
      rw [hlook] at hinsert
      dsimp only at hinsert
      by_cases hdiff : Store.replyDiffers existing v = true
      · rw [if_pos hdiff] at hinsert
        simp only [insertReplySegments, hinsert, hv.fits.lookupMessage, hevent,
          validateExistingReplies, hlook', if_pos hdiff]
        exact ⟨trivial, fun h => absurd h (Option.some_ne_none _)⟩
      · rw [if_neg hdiff] at hinsert
        obtain ⟨hresult, hafter⟩ := ih (fun u hu => hvalues u (mem_cons_of_mem _ hu)) hnodup.2 hm
        rw [insertReplySegments_cons hinsert, hresult]
        simp only [validateExistingReplies, Store.insertReplies, hlook', if_neg hdiff]
        refine ⟨?_, hafter⟩
        cases validateExistingReplies m values <;> rfl
    | none =>
      have hlook' : m.lookup (replyKey v.tenantID v.replyID v.segmentIndex) = none := hlook
      rw [hlook] at hinsert
      -- The new row has a key of its own, so the rest of the batch finds what it would have found.
      have hother : ∀ u ∈ values, (m.insert (rowKey v) (pendingRow now v)).lookup
          (rowKey u) = m.lookup (rowKey u) := by
        intro u hu
        refine lookup_insert_ne fun hkey => hnodup.1 ?_
        rw [rowKey, rowKey, replyKey_inj] at hkey
        exact mem_map.2 ⟨u, hu, hkey.2.2⟩
      have hm' : ∀ k, (db.replies.insert (rowKey v) (pendingRow now v)).lookup k =
          (m.insert (rowKey v) (pendingRow now v)).lookup k := by
        intro k
        by_cases hk : k = rowKey v
        · rw [hk, lookup_insert, lookup_insert]
        · rw [lookup_insert_ne hk, lookup_insert_ne hk, hm k]
      have hvalues' : ∀ u ∈ values, Insertable { db with
          replies := db.replies.insert (rowKey v) (pendingRow now v) } u := by
        intro u hu
        obtain ⟨hfits, hindex, hevent⟩ := hvalues u (mem_cons_of_mem _ hu)
        exact ⟨hfits, hindex, hevent⟩
      obtain ⟨hresult, hafter⟩ := ih hvalues' hnodup.2 hm'
      rw [validateExistingReplies_congr hother] at hresult hafter
      rw [insertReplySegments_cons hinsert, hresult]
      simp only [validateExistingReplies, Store.insertReplies, hlook']
      refine ⟨?_, hafter⟩
      cases validateExistingReplies m values <;> rfl

/-- A batch that passes `validateReplyBatch` starts with the row that it returns. -/
theorem cons_of_validateReplyBatch
    (h : Store.validateReplyBatch values = .ok first) : ∃ tail, values = first :: tail := by
  unfold Store.validateReplyBatch at h
  cases values with
  | nil => cases h
  | cons head tail =>
    dsimp only at h
    split at h
    · cases h
    · split_ifs at h
      cases h
      exact ⟨tail, rfl⟩

/-- A batch whose first row finds no event with its destination inserts nothing. -/
theorem commitReplies_of_noRows
    (hfits : FitsRow first)
    (hevent : ∀ event, db.events.lookup (key [first.tenantID, first.eventID]) = some event →
      Postgres.matchesEvent event first.replyTarget = false) :
    Postgres.commitReplies now db (first :: values) =
      match db.events.lookup (key [first.tenantID, first.eventID]) with
      | none => (.error .notFound, db)
      | some _ => (.error .conflict, db) := by
  have hinsert : Postgres.insertRow now db first = (.error .noRows, db) := by
    unfold Postgres.insertRow
    simp only [parameterFault_eq_none hfits.texts hfits.ints]
    cases hlook : db.events.lookup (key [first.tenantID, first.eventID]) with
    | none => rfl
    | some event => simp only [hevent event hlook, Bool.false_eq_true, not_false_eq_true, if_true]
  unfold Postgres.commitReplies insertReplySegments
  rw [hinsert]
  simp only [hfits.lookupMessage]
  cases db.events.lookup (key [first.tenantID, first.eventID]) with
  | none => rfl
  | some => rfl

/-- A batch for a stored event with the same destination. -/
theorem Mirrors.commitReplies (h : Mirrors s db) (hfits : ∀ row ∈ values, FitsRow row)
    (hbatch : Store.ValidBatch first values)
    (hevent : s.events.lookup (key [first.tenantID, first.eventID]) = some event)
    (hmatches : Postgres.matchesEvent event first.replyTarget = true) :
    (Postgres.commitReplies now db values).1 = (match validateExistingReplies s.replies values with
        | some err => .error err
        | none => .ok (Store.insertReplies now values s.replies).1) ∧
      Mirrors (match validateExistingReplies s.replies values with
        | some _ => s
        | none => s.enqueued now Store.noCorrelation values)
        (Postgres.commitReplies now db values).2 := by
  have hvalues : ∀ v ∈ values, Insertable db v := by
    intro v hv
    obtain ⟨htenant, -, hid, -, -, -, hindex, hcount, -⟩ := hbatch.agrees hv
    refine ⟨hfits v hv, ⟨hindex, hcount⟩, event, ?_, ?_⟩
    · rw [htenant, hid, h.events]
      exact hevent
    · rw [hbatch.replyTarget hv]
      exact hmatches
  obtain ⟨hresult, hafter⟩ : (insertReplySegments now db values).1 = _ ∧ _ :=
    insertReplySegments_eq hvalues hbatch.nodup h.replies
  unfold Postgres.commitReplies
  generalize insertReplySegments now db values = answer at hresult hafter ⊢
  obtain ⟨_, _⟩ := answer
  cases hexisting : validateExistingReplies s.replies values with
  | some =>
    rw [hexisting] at hresult
    cases hresult
    exact ⟨rfl, h⟩
  | none =>
    rw [hexisting] at hresult
    cases hresult
    obtain ⟨hevents, hreplies⟩ := hafter hexisting
    refine ⟨rfl, fun k => ?_, hreplies, h.recorded, fun k row hrow => ?_⟩
    · rw [hevents]
      exact h.events k
    · rcases Store.lookup_enqueued hrow with hold | ⟨-, v, hv, -, rfl⟩
      · exact h.stored k row hold
      · exact (hvalues v hv).fits.rowFault now (hvalues v hv).index.1 (hvalues v hv).index.2

/-- The destination of a valid batch is valid. -/
theorem validTarget_of_batch
    (h : Store.ValidBatch first values) : validateReplyTarget first.replyTarget = none := by
  have hrow := h.rows first h.first_mem
  simp only [Store.invalidBatchReply, decide_eq_false_iff_not, not_or, not_not, ne_eq] at hrow
  obtain ⟨-, -, -, -, -, -, htarget, -⟩ := hrow
  exact htarget

/-- The stores write a batch alike. -/
theorem Mirrors.enqueueReplies (h : Mirrors s db) (hfits : ∀ row ∈ values, FitsRow row) :
    (Postgres.enqueueReplies now db values).1 = (s.enqueueRepliesPlain now values).1 ∧
      Mirrors (s.enqueueRepliesPlain now values).2 (Postgres.enqueueReplies now db values).2 := by
  unfold Postgres.enqueueReplies Store.enqueueRepliesPlain Store.enqueueReplies
  cases hvalid : Store.validateReplyBatch values with
  | error => exact ⟨rfl, h⟩
  | ok first =>
    have hbatch := Store.validateReplyBatch_spec hvalid
    have hfirst := hfits first hbatch.first_mem
    have htarget := validTarget_of_batch hbatch
    obtain ⟨tail, rfl⟩ := cons_of_validateReplyBatch hvalid
    obtain ⟨-, -, -, -, htenant, hid, -⟩ := hbatch.agrees hbatch.first_mem
    have hmessage : Postgres.getMessage db first.tenantID first.eventID =
        Postgres.lookupMessage db first.tenantID first.eventID :=
      if_neg (by simp [htenant, hid])
    have hlookup := h.events (key [first.tenantID, first.eventID])
    dsimp only
    rw [hmessage, hfirst.lookupMessage, hlookup]
    cases hevent : s.events.lookup (key [first.tenantID, first.eventID]) with
    | none =>
      rw [hevent] at hlookup
      have hnone : ∀ event, db.events.lookup (key [first.tenantID, first.eventID]) = some event →
          Postgres.matchesEvent event first.replyTarget = false := by
        intro event hsome
        rw [hlookup] at hsome
        cases hsome
      have hcommit : Postgres.commitReplies now db (first :: tail) = (.error .notFound, db) := by
        rw [commitReplies_of_noRows hfirst hnone, hlookup]
      dsimp only
      rw [hcommit]
      split
      · exact ⟨rfl, h⟩
      · exact ⟨rfl, h⟩
    | some event =>
      rw [hevent] at hlookup
      have hrecorded := h.recorded _ event hevent
      dsimp only
      rw [hrecorded.cloneEvent]
      by_cases hsame : event.replyTarget = first.replyTarget
      · -- The destinations agree, so both go on to the rows.
        have hmatches := (hrecorded.matchesEvent htarget).2 hsame
        obtain ⟨hresult, hmirrors⟩ : (Postgres.commitReplies now db (first :: tail)).1 = _ ∧ _ :=
          h.commitReplies hfits hbatch hevent hmatches
        have hcorrelation : Store.checkCorrelation s Store.noCorrelation first = none := if_pos rfl
        simp only [hsame, ne_eq, not_true_eq_false, if_false, ite_self, hcorrelation]
        rw [hresult]
        cases hexisting : validateExistingReplies s.replies (first :: tail) with
        | some =>
          rw [hexisting] at hmirrors
          exact ⟨rfl, hmirrors⟩
        | none =>
          rw [hexisting] at hmirrors
          exact ⟨rfl, hmirrors⟩
      · have hnone : ∀ event', db.events.lookup (key [first.tenantID, first.eventID]) =
            some event' → Postgres.matchesEvent event' first.replyTarget = false := by
          intro event' hsome
          rw [hlookup] at hsome
          cases hsome
          exact Bool.eq_false_iff.2 fun hmatches => hsame ((hrecorded.matchesEvent htarget).1 hmatches)
        have hcommit : Postgres.commitReplies now db (first :: tail) = (.error .conflict, db) := by
          rw [commitReplies_of_noRows hfirst hnone, hlookup]
        rw [hcommit]
        simp only [ne_eq, hsame, not_false_eq_true, if_true, ite_self]
        exact ⟨trivial, h⟩

/-! ## Runs -/

/-- The stores answer a call that they treat alike with the same answer. -/
theorem Mirrors.answer (h : Mirrors s db) {delivery : Delivery} (halike : Alike s delivery)
    (hwhole : delivery.call.WholeSeconds) :
    SameAnswer (memory.answer delivery s).1 (postgres.answer delivery db).1 ∧
      Mirrors (memory.answer delivery s).2 (postgres.answer delivery db).2 := by
  have hequal : (postgres.answer delivery db).1 = (memory.answer delivery s).1 ∧
      Mirrors (memory.answer delivery s).2 (postgres.answer delivery db).2 := by
    obtain ⟨context, now, call⟩ := delivery
    cases context with
    | nil => exact ⟨rfl, h⟩
    | done => exact ⟨rfl, h⟩
    | live =>
      cases call with
      | enqueueReplies => exact h.enqueueReplies halike
      | claimReply tenantID replyID segment owner leaseDuration =>
        obtain ⟨hresult, hmirrors⟩ :
            (Postgres.claimReply now db tenantID replyID segment owner leaseDuration).1 = _ ∧ _ :=
          h.claimReply halike hwhole
        exact ⟨congrArg (Except.map fun row => [row]) hresult, hmirrors⟩
      | transitionReply =>
        obtain ⟨hresult, hmirrors⟩ := h.transitionReply halike hwhole
        exact ⟨congrArg (Except.map fun row => [row]) hresult, hmirrors⟩
  rw [hequal.1]
  exact ⟨.refl _, hequal.2⟩

/-- The calls that record messages. -/
def Call.Recording : Call → Prop
  | .createSession .. | .recordMessage _ => True
  | _ => False

/-- A new event is recorded. -/
theorem recordedEvent_newEvent {input : MessageEventInput} {eventSeq : ℤ}
    (h : Store.invalidMessageInput input = false) :
    RecordedEvent (Store.newEvent now input eventSeq) := by
  simp only [Store.invalidMessageInput, decide_eq_false_iff_not, not_or, not_and, not_not,
    ne_eq] at h
  obtain ⟨-, -, -, -, hvalid, hbinding⟩ := h
  by_cases hzero : input.replyTarget = {}
  · exact .inl hzero
  · exact .inr ⟨(conversationKind_of_valid hvalid).resolve_left hzero, hbinding hzero⟩

/-- A store with recorded events and no rows is mirrored by a database with its events. -/
theorem mirrors_recorded (lib : Libraries) {setup : List Request}
    (hsetup : ∀ r ∈ setup, r.call.Recording) :
    Mirrors ((server lib).after {} setup) { events := ((server lib).after {} setup).events } := by
  have hstate : (∀ k event, ((server lib).after {} setup).events.lookup k = some event →
      RecordedEvent event) ∧ ((server lib).after {} setup).replies = ∅ := by
    refine Server.invariant (S := server lib) (fun _ request => request.call.Recording)
      (I := fun s => (∀ k event, s.events.lookup k = some event → RecordedEvent event) ∧
        s.replies = ∅) ⟨fun k event hk => ?_, rfl⟩ (fun s request hcall hs => ?_)
      (fun _ hst => hsetup _ (Server.call_mem_of_mem_history hst))
    · cases hk
    · obtain ⟨context, now, call⟩ := request
      rcases server_spec lib ⟨context, now, call⟩ s with ⟨_, heq⟩ | ⟨v, _, heq, hacts⟩
      · rw [heq]
        exact hs
      · rw [heq]
        cases hacts with
        | created | found => exact hs
        | recorded _ _ hrec =>
          exact ⟨Go.forall_lookup_insert hs.1 (recordedEvent_newEvent hrec.valid), hs.2⟩
        | _ => exact hcall.elim
  refine ⟨fun _ => rfl, fun k => ?_, hstate.1, fun k _ hk => ?_⟩
  · rw [hstate.2]
  · rw [hstate.2] at hk
    cases hk

/-- From the same recorded events, the stores agree on every call of a run whose calls they treat
alike, with leases of whole seconds. -/
theorem deliveries_agree (lib : Libraries) (setup : List Request)
    (hsetup : ∀ r ∈ setup, r.call.Recording) (deliveries : List Delivery)
    (hwhole : ∀ d ∈ deliveries, d.call.WholeSeconds)
    (halike : ∀ st ∈ (memory.both postgres).history
      ((server lib).after {} setup, { events := ((server lib).after {} setup).events }) deliveries,
      Alike st.pre.1 st.call) :
    ∀ st ∈ (memory.both postgres).history
      ((server lib).after {} setup, { events := ((server lib).after {} setup).events }) deliveries,
      SameAnswer st.res.1 st.res.2 := by
  refine Server.agree_of_simulates (S := memory) (T := postgres)
    (fun state delivery => Alike state.1 delivery ∧ delivery.call.WholeSeconds)
    (fun _ => SameAnswer) (fun s db delivery hadm hmirrors => hmirrors.answer hadm.1 hadm.2)
    (mirrors_recorded lib hsetup)
    fun st hst => ⟨halike st hst, hwhole _ (Server.call_mem_of_mem_history hst)⟩

/-! ## One segment in both stores -/

/-- The calls that record a message. -/
def oneEvent : List Request :=
  [⟨.live, 0, .createSession "t" "s" none⟩, ⟨.live, 0, .recordMessage oneMessage⟩]

/-- The stores with the message. -/
def bothRecorded : (memory.both postgres).State :=
  ((server plainLibraries).after {} oneEvent,
    { events := ((server plainLibraries).after {} oneEvent).events })

/-- The row fits the columns. -/
theorem fitsRow_oneRow : FitsRow oneRow := by
  refine ⟨?_, ?_, ?_, ?_, rfl, rfl, rfl, rfl, rfl, rfl⟩ <;> decide +kernel

/-- A reply of one segment is materialized, put into `sending` for ten seconds, and then taken
over. -/
def takenOver : List Delivery :=
  [⟨.live, 0, .enqueueReplies [oneRow]⟩,
    ⟨.live, 0, .transitionReply
      ⟨"t", "r", 0, .pending, .sending, "w", 0, 10 * Postgres.second, "", ""⟩⟩,
    ⟨.live, 10 * Postgres.second, .claimReply "t" "r" 0 "v" (10 * Postgres.second)⟩]

/-- The stores agree on the segment, which is claimed in the end. -/
theorem deliveries_agree_takenOver :
    ((memory.both postgres).history bothRecorded takenOver).map (fun st => st.res.1.toBool) =
      [true, true, true] ∧
    ∀ st ∈ (memory.both postgres).history bothRecorded takenOver,
      SameAnswer st.res.1 st.res.2 := by
  refine ⟨by decide +kernel, ?_⟩
  have hrow : ∀ st ∈ (memory.both postgres).history bothRecorded takenOver,
      ∀ row ∈ (st.pre.1 : Store).replies.lookup (replyKey "t" "r" 0),
        (Sql.isInt4 (row.attempts + 1) = true ∧ Sql.isInt8 (row.fencingToken + 1) = true) ∧
          row.providerMessageID = "" ∧ row.lastErrorClass = "" := by decide +kernel
  refine deliveries_agree plainLibraries oneEvent (fun r hr => ?_) takenOver (fun d hd => ?_)
    fun st hst => ?_
  · simp only [oneEvent, mem_cons, not_mem_nil, or_false] at hr
    rcases hr with rfl | rfl <;> trivial
  · simp only [takenOver, mem_cons, not_mem_nil, or_false] at hd
    rcases hd with rfl | rfl | rfl
    · trivial
    · exact ⟨10, Int.mul_comm _ _⟩
    · exact ⟨10, Int.mul_comm _ _⟩
  · have hrow := hrow st hst
    simp only [takenOver, Server.history, mem_cons, not_mem_nil, or_false] at hst
    rcases hst with rfl | rfl | rfl
    · intro row hmem
      rw [mem_singleton.1 hmem]
      exact fitsRow_oneRow
    · refine ⟨by decide +kernel, by decide +kernel, by decide, by decide, by decide, by decide, ?_,
        fun _ _ => .inl ⟨rfl, by decide⟩, ?_, ?_⟩
      · exact fun row hmoves => (hrow row hmoves.found).1
      · exact fun row hmoves => .inr (hrow row hmoves.found).2.1
      · exact fun row hmoves => .inr (hrow row hmoves.found).2.2
    · exact ⟨by decide +kernel, by decide +kernel, by decide, by decide,
        fun row hfound => (hrow row hfound).1⟩

/-- A reply of one segment is materialized and claimed for ten seconds. -/
def claimedOnce : List Delivery :=
  [⟨.live, 0, .enqueueReplies [oneRow]⟩,
    ⟨.live, 0, .claimReply "t" "r" 0 "w" (10 * Postgres.second)⟩]

/-- The claimed segment is reported as sent. -/
def reportedSent : Delivery :=
  ⟨.live, 1, .transitionReply ⟨"t", "r", 0, .sending, .sent, "w", 1, 0, "", "p"⟩⟩

/-- The in-memory store keeps the deadline of the lease, the database clears it. -/
theorem reportedSent_disagrees :
    ¬ ∀ st ∈ (memory.both postgres).history bothRecorded (claimedOnce ++ [reportedSent]),
      SameAnswer st.res.1 st.res.2 := by
  intro h
  rw [Server.history_snoc] at h
  have hlast := h _ mem_concat_self
  have hrows : List.Forall₂ SameDelivery
      [{ oneRow with
        status := .sent, attempts := 1, fencingToken := 2, leaseOwner := "w",
        leaseExpiresAt := some (10 * Postgres.second), providerMessageID := "p", updatedAt := 1 }]
      [{ oneRow with
        status := .sent, attempts := 1, fencingToken := 2, leaseOwner := "w",
        providerMessageID := "p", updatedAt := 1 }] := hlast
  cases (forall₂_cons.1 hrows).1.leaseExpiresAt

end AgentService.Storage
