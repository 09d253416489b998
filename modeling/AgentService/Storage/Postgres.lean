import AgentService.Sql.Values
import AgentService.Storage.Calls

/-!
# The Postgres runtime store

`trpcservice/runtime/storage/postgres/repository.go`, the operations that deliver replies, over the
tables `message_event` and `reply_outbox` of the migrations. Each SQL statement is one function from
the database to its row, or its fault, and the database after it; `now()` is the clock reading of
the call. A row of `reply_outbox` is a `ReplyOutbox`, column by column. A row of `message_event` is
a `MessageEvent`, but the binding of its destination is no column: it is read through `cloneEvent`,
which takes it from the event.
-/

namespace AgentService.Storage.Postgres

/-- The tables. -/
structure Database where
  /-- `message_event`, by tenant and event. -/
  events : GoMap MessageEvent := ∅
  /-- `reply_outbox`, by tenant, reply, and segment. -/
  replies : GoMap ReplyOutbox := ∅

/-- `pgstorage.MapError` under a context that is not done. -/
def mapError : Sql.Fault → Err
  | .noRows => .notFound
  | .driver => .storage
  | .state code =>
    if code = "23505" then .duplicate
    else if code = "23503" ∨ code = "23514" ∨ code = "22P02" ∨ code = "22001" then .invalid
    else if code = "40001" ∨ code = "40P01" then .conflict
    else .storage

/-! ## Constraints of `reply_outbox` -/

/-- The states that the status column takes. -/
def isStatus : ReplyStatus → Bool
  | .pending | .sending | .sent | .retryable | .deadLetter => true
  | .other _ => false

/-- The columns of a destination: none of them, or all that are needed. -/
def isTarget (target : ReplyTarget) : Bool :=
  target.bindingID.length ≤ 256 ∧
    (target.conversationKind = "" ∨ target.conversationKind = "direct" ∨
      target.conversationKind = "group") ∧
    target.receiverID.length ≤ 1024 ∧ target.threadID.length ≤ 1024 ∧
    ((target.bindingID = "" ∧ target.conversationKind = "" ∧ target.receiverID = "" ∧
        target.threadID = "") ∨
      (Sql.btrim target.bindingID ≠ "" ∧
        (target.conversationKind = "direct" ∨ target.conversationKind = "group") ∧
        Sql.btrim target.receiverID ≠ ""))

/-- The CHECK constraints of the table. -/
def satisfiesChecks (row : ReplyOutbox) : Bool :=
  Sql.isName row.replyID 256 ∧ 0 ≤ row.segmentIndex ∧ row.segmentCount > row.segmentIndex ∧
    isStatus row.status ∧ 0 ≤ row.attempts ∧ 0 ≤ row.fencingToken ∧ row.leaseOwner.length ≤ 256 ∧
    row.providerMessageID.length ≤ 512 ∧ row.lastErrorClass.length ≤ 128 ∧ isTarget row.replyTarget

/-- What writing a row fails with: a number out of the range of its column (22003), or a CHECK
constraint (23514). -/
def rowFault (row : ReplyOutbox) : Option Sql.Fault :=
  if ¬ (Sql.isInt4 row.attempts ∧ Sql.isInt8 row.fencingToken) then some (.state "22003")
  else if ¬ satisfiesChecks row then some (.state "23514")
  else none

/-! ## Statements -/

/-- `cloneEvent`: the destination of an event that has one is a conversation of its binding. -/
def cloneEvent (value : MessageEvent) : MessageEvent :=
  { value with
    replyTarget :=
      { value.replyTarget with
        bindingID := if value.replyTarget.conversationKind ≠ "" then value.bindingID else "" } }

/-- `lookupMessage`. -/
def lookupMessage (db : Database) (tenantID eventID : String) : Except Err MessageEvent :=
  match Sql.parameterFault [tenantID, eventID] [] with
  | some fault => .error (mapError fault)
  | none =>
    match db.events.lookup (key [tenantID, eventID]) with
    | none => .error (mapError .noRows)
    | some value => .ok (cloneEvent value)

/-- `Store.GetMessage`. -/
def getMessage (db : Database) (tenantID eventID : String) : Except Err MessageEvent :=
  if validateTenant tenantID ≠ none ∨ eventID = "" then .error .invalid
  else lookupMessage db tenantID eventID

/-- The condition on `message_event` under which `insertReplySegments` inserts a row: the event has
no destination and the row has none, or the event has the destination of the row. -/
def matchesEvent (event : MessageEvent) (target : ReplyTarget) : Bool :=
  (event.replyTarget.conversationKind = "" ∧ event.replyTarget.receiverID = "" ∧
      event.replyTarget.threadID = "" ∧ target.bindingID = "" ∧ target.conversationKind = "" ∧
      target.receiverID = "" ∧ target.threadID = "") ∨
    (event.bindingID = target.bindingID ∧
      event.replyTarget.conversationKind = target.conversationKind ∧
      event.replyTarget.receiverID = target.receiverID ∧
      event.replyTarget.threadID = target.threadID)

/-- The row that `insertReplySegments` inserts; what it does not name has its default. -/
def insertedRow (now : ℤ) (value : ReplyOutbox) : ReplyOutbox where
  tenantID := value.tenantID
  replyID := value.replyID
  eventID := value.eventID
  segmentIndex := value.segmentIndex
  segmentCount := value.segmentCount
  payload := value.payload
  replyTarget := value.replyTarget
  status := .pending
  attempts := 0
  fencingToken := 0
  leaseOwner := ""
  leaseExpiresAt := none
  providerMessageID := ""
  lastErrorClass := ""
  createdAt := now
  updatedAt := now

/-- The INSERT of `insertReplySegments`. A row that is there is returned as it is, when it has the
same content. -/
def insertRow (now : ℤ) (db : Database) (value : ReplyOutbox) :
    Except Sql.Fault ReplyOutbox × Database :=
  match Sql.parameterFault
    [value.tenantID, value.replyID, value.eventID, value.payload, value.replyTarget.bindingID,
      value.replyTarget.conversationKind, value.replyTarget.receiverID, value.replyTarget.threadID]
    [value.segmentIndex, value.segmentCount] with
  | some fault => (.error fault, db)
  | none =>
    match db.events.lookup (key [value.tenantID, value.eventID]) with
    | none => (.error .noRows, db)
    | some event =>
      if ¬ matchesEvent event value.replyTarget then (.error .noRows, db)
      else
        match rowFault (insertedRow now value) with
        | some fault => (.error fault, db)
        | none =>
          let k := replyKey value.tenantID value.replyID value.segmentIndex
          match db.replies.lookup k with
          | some existing =>
            if Store.replyDiffers existing value then (.error .noRows, db) else (.ok existing, db)
          | none =>
            (.ok (insertedRow now value),
              { db with replies := db.replies.insert k (insertedRow now value) })

/-- An UPDATE of the row with a key, where a guard holds of it. -/
def updateRow (db : Database) (k : String) (guard : ReplyOutbox → Bool)
    (set : ReplyOutbox → ReplyOutbox) : Except Sql.Fault ReplyOutbox × Database :=
  match db.replies.lookup k with
  | none => (.error .noRows, db)
  | some row =>
    if ¬ guard row then (.error .noRows, db)
    else
      match rowFault (set row) with
      | some fault => (.error fault, db)
      | none => (.ok (set row), { db with replies := db.replies.insert k (set row) })

/-! ## Batches -/

/-- `insertReplySegments`, inside its transaction. -/
def insertReplySegments (now : ℤ) : Database → List ReplyOutbox →
    Except Err (List ReplyOutbox) × Database
  | db, [] => (.ok [], db)
  | db, value :: values =>
    match insertRow now db value with
    | (.error .noRows, db) =>
      match lookupMessage db value.tenantID value.eventID with
      | .error err => (.error err, db)
      | .ok _ => (.error .conflict, db)
    | (.error fault, db) => (.error (mapError fault), db)
    | (.ok row, db) =>
      match insertReplySegments now db values with
      | (.error err, db) => (.error err, db)
      | (.ok rows, db) => (.ok (row :: rows), db)

/-- The transaction of `EnqueueReplies`: it is rolled back when a row cannot be inserted. -/
def commitReplies (now : ℤ) (db : Database) (values : List ReplyOutbox) :
    Except Err (List ReplyOutbox) × Database :=
  match insertReplySegments now db values with
  | (.error err, _) => (.error err, db)
  | (.ok rows, db) => (.ok rows, db)

/-- `Store.EnqueueReplies`. `validateReplyBatch` is the in-memory store's, line by line. -/
def enqueueReplies (now : ℤ) (db : Database) (values : List ReplyOutbox) :
    Except Err (List ReplyOutbox) × Database :=
  match Store.validateReplyBatch values with
  | .error err => (.error err, db)
  | .ok first =>
    if first.replyTarget ≠ {} then
      match getMessage db first.tenantID first.eventID with
      | .error err => (.error err, db)
      | .ok event =>
        if event.replyTarget ≠ first.replyTarget then (.error .conflict, db)
        else commitReplies now db values
    else commitReplies now db values

/-! ## Delivery -/

/-- A second, in nanoseconds. -/
def second : ℤ := 1000000000

/-- The number of seconds that a positive lease is given. -/
def leaseSeconds (leaseDuration : ℤ) : ℤ :=
  if leaseDuration / second = 0 then 1 else leaseDuration / second

/-- `Store.GetReply`. -/
def getReply (db : Database) (tenantID replyID : String) (segment : ℤ) :
    Except Err ReplyOutbox :=
  if validateTenant tenantID ≠ none ∨ replyID = "" ∨ segment < 0 then .error .invalid
  else
    match Sql.parameterFault [tenantID, replyID] [segment] with
    | some fault => .error (mapError fault)
    | none =>
      match db.replies.lookup (replyKey tenantID replyID segment) with
      | none => .error (mapError .noRows)
      | some value => .ok value

/-- What `ClaimReply` and `TransitionReply` answer after their UPDATE. -/
def afterUpdate (tenantID replyID : String) (segment : ℤ) :
    Except Sql.Fault ReplyOutbox × Database → Except Err ReplyOutbox × Database
  | (.ok value, db) => (.ok value, db)
  | (.error .noRows, db) =>
    match getReply db tenantID replyID segment with
    | .error err => (.error err, db)
    | .ok _ => (.error .conflict, db)
  | (.error fault, db) => (.error (mapError fault), db)

/-- The guard of the UPDATE of `ClaimReply`. -/
def claimGuard (now : ℤ) (row : ReplyOutbox) : Bool :=
  (row.status = .pending ∨ row.status = .retryable) ∨
    (row.status = .sending ∧ ∃ deadline ∈ row.leaseExpiresAt, deadline ≤ now)

/-- What the UPDATE of `ClaimReply` sets. -/
def claimSet (now : ℤ) (owner : String) (seconds : ℤ) (row : ReplyOutbox) : ReplyOutbox :=
  { row with
    status := .sending
    attempts := row.attempts + 1
    fencingToken := row.fencingToken + 1
    leaseOwner := owner
    leaseExpiresAt := some (now + seconds * second)
    updatedAt := now }

/-- `Store.ClaimReply`. -/
def claimReply (now : ℤ) (db : Database) (tenantID replyID : String) (segment : ℤ)
    (owner : String) (leaseDuration : ℤ) : Except Err ReplyOutbox × Database :=
  if validateTenant tenantID ≠ none ∨ replyID = "" ∨ owner = "" ∨ leaseDuration ≤ 0 then
    (.error .invalid, db)
  else
    match Sql.parameterFault [tenantID, replyID, owner] [segment] with
    | some fault => (.error (mapError fault), db)
    | none =>
      afterUpdate tenantID replyID segment
        (updateRow db (replyKey tenantID replyID segment) (claimGuard now)
          (claimSet now owner (leaseSeconds leaseDuration)))

/-- The guard of the UPDATE of `TransitionReply`. -/
def transitionGuard (now : ℤ) (t : ReplyTransition) (row : ReplyOutbox) : Bool :=
  row.status = t.from ∧ (row.leaseOwner = "" ∨ row.leaseOwner = t.owner) ∧
    (t.fencingToken = 0 ∨ row.fencingToken = t.fencingToken) ∧
    (row.status ≠ .sending ∨ row.leaseExpiresAt = none ∨
      ∃ deadline ∈ row.leaseExpiresAt, deadline > now)

/-- What the UPDATE of `TransitionReply` sets. -/
def transitionSet (now : ℤ) (t : ReplyTransition) (seconds : ℤ) (row : ReplyOutbox) :
    ReplyOutbox :=
  { row with
    status := t.to
    attempts := row.attempts + if t.to = .sending then 1 else 0
    fencingToken := row.fencingToken + 1
    leaseOwner := t.owner
    leaseExpiresAt := if seconds > 0 then some (now + seconds * second) else none
    providerMessageID := Sql.coalesce (Sql.nullif t.providerID "") row.providerMessageID
    lastErrorClass := Sql.coalesce (Sql.nullif t.errorClass "") row.lastErrorClass
    updatedAt := now }

/-- `Store.TransitionReply`. -/
def transitionReply (now : ℤ) (db : Database) (t : ReplyTransition) :
    Except Err ReplyOutbox × Database :=
  if validateTenant t.tenantID ≠ none ∨ t.replyID = "" ∨ t.owner = "" then (.error .invalid, db)
  else if ¬ validateTransition t.from t.to then (.error .illegalTransition, db)
  else
    let seconds := if t.leaseDuration > 0 then leaseSeconds t.leaseDuration else 0
    match Sql.parameterFault [t.tenantID, t.replyID, t.owner, t.providerID, t.errorClass]
      [t.segmentIndex, seconds, t.fencingToken] with
    | some fault => (.error (mapError fault), db)
    | none =>
      afterUpdate t.tenantID t.replyID t.segmentIndex
        (updateRow db (replyKey t.tenantID t.replyID t.segmentIndex) (transitionGuard now t)
          (transitionSet now t seconds))

end AgentService.Storage.Postgres
