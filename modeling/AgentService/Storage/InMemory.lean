import AgentService.Go.Encoding
import AgentService.Go.Maps
import AgentService.Storage.Contract

/-!
# The in-memory runtime store

`trpcservice/runtime/storage/inmemory/inmemory.go`: the maps of the store and the operations on
messages and replies. Each operation runs under the store's lock, so it is one function from the
store to its answer and the store after it, at one reading `now` of the clock. A map is an
association list with distinct keys. Its keys are the length-prefixed tuples of `key`, so that
distinct tuples never share an entry (`Go.lengthPrefixed_inj`).

`cloneMap`, the round trip of a session's state through JSON, keeps the JSON text that stands for
it. What the store asks of Go's JSON package, `json.Valid` and the comparison of decoded values, is
a parameter (`Json`). Attempts and fencing tokens are integers without a bound, while Go's wrap
around; what depends on it asks for room in them (`HasRoomFor`). The maps for memories, summaries,
knowledge, artifacts, vectors, and objects are left out: no operation below reads them.
-/

namespace AgentService.Storage

/-- A Go `map[string]V`. -/
abbrev GoMap (V : Type) := Go.Map V

/-- `key`. -/
def key (parts : List String) : String := Go.lengthPrefixed parts

/-- `replyKey`. -/
def replyKey (tenant reply : String) (segment : ℤ) : String := key [tenant, reply, Go.itoa segment]

/-- Distinct tuples have distinct keys. -/
@[simp] theorem key_inj {parts parts' : List String} : key parts = key parts' ↔ parts = parts' :=
  Go.lengthPrefixed_inj

/-- Distinct segments have distinct keys. -/
@[simp] theorem replyKey_inj {tenant reply tenant' reply' : String} {segment segment' : ℤ} :
    replyKey tenant reply segment = replyKey tenant' reply' segment' ↔
      tenant = tenant' ∧ reply = reply' ∧ segment = segment' := by
  simp [replyKey]

/-- `Store`: the maps for sessions, messages, and replies. -/
structure Store where
  /-- The sessions, by tenant and session. -/
  sessions : GoMap Session := ∅
  /-- The events, by tenant and event. -/
  events : GoMap MessageEvent := ∅
  /-- The key of an event, by tenant, binding, and external message. -/
  messages : GoMap String := ∅
  /-- The reply rows, by tenant, reply, and segment. -/
  replies : GoMap ReplyOutbox := ∅
  /-- The correlations, by tenant and event. -/
  correlations : GoMap ReplyCorrelation := ∅
  /-- The event histories, by tenant and session. -/
  histories : GoMap (List EventPayload) := ∅

/-- What the store uses of Go's JSON package. -/
structure Json where
  /-- `json.Valid`. -/
  valid : String → Bool
  /-- `jsonEqual`: the decoded values are deeply equal. -/
  equal : String → String → Bool

namespace Store

/-! ## Sessions -/

/-- `Store.GetSession`. -/
def getSession (s : Store) (tenantID sessionID : String) : Except Err Session :=
  match validateSession tenantID sessionID with
  | some err => .error err
  | none =>
    match s.sessions.lookup (key [tenantID, sessionID]) with
    | none => .error .notFound
    | some value => .ok value

/-- `Store.CreateSession`. -/
def createSession (s : Store) (now : ℤ) (tenantID sessionID : String)
    (state : Option String := none) : Except Err Session × Store :=
  match validateSession tenantID sessionID with
  | some err => (.error err, s)
  | none =>
    match s.sessions.lookup (key [tenantID, sessionID]) with
    | some _ => (.error .duplicate, s)
    | none =>
      let value : Session := ⟨tenantID, sessionID, 1, state, now, now⟩
      (.ok value, { s with sessions := s.sessions.insert (key [tenantID, sessionID]) value })

/-- `Store.UpdateSessionState`. -/
def updateSessionState (s : Store) (now : ℤ) (tenantID sessionID : String) (expectedVersion : ℤ)
    (state : Option String) : Except Err Session × Store :=
  match validateSession tenantID sessionID with
  | some err => (.error err, s)
  | none =>
    let k := key [tenantID, sessionID]
    match s.sessions.lookup k with
    | none => (.error .notFound, s)
    | some value =>
      if value.version ≠ expectedVersion then (.error .conflict, s)
      else
        let value := { value with version := value.version + 1, state := state, updatedAt := now }
        (.ok value, { s with sessions := s.sessions.insert k value })

/-- One round of the loop of `DeleteSession` over the events: an event of the session is deleted
with its message and its reply rows. -/
def deleteEvent (tenantID sessionID : String) (s : Store)
    (entry : Sigma fun _ : String => MessageEvent) : Store :=
  let event := entry.2
  if event.tenantID ≠ tenantID ∨ event.sessionID ≠ sessionID then s
  else
    { s with
      events := s.events.erase entry.1
      messages := s.messages.erase (key [tenantID, event.bindingID, event.externalMessageID])
      replies := Go.deleteWhere
        (fun _ reply => reply.tenantID = tenantID ∧ reply.eventID = event.eventID) s.replies }

/-- `Store.DeleteSession`. -/
def deleteSession (s : Store) (tenantID sessionID : String) : Option Err × Store :=
  match validateSession tenantID sessionID with
  | some err => (some err, s)
  | none =>
    let k := key [tenantID, sessionID]
    match s.sessions.lookup k with
    | none => (some .notFound, s)
    | some _ =>
      (none, s.events.entries.foldl (deleteEvent tenantID sessionID)
        { s with sessions := s.sessions.erase k, histories := s.histories.erase k })

/-- `validatePayload`. -/
def validatePayload (json : Json) (value : EventPayload) : Option Err :=
  if validateSession value.tenantID value.sessionID ≠ none ∨ value.eventID = "" ∨
      value.payload = "" ∨ ¬ json.valid value.payload then some .invalid
  else none

/-- `Store.AppendEventPayload`. -/
def appendEventPayload (json : Json) (s : Store) (now : ℤ) (payload : EventPayload) :
    Except Err EventPayload × Store :=
  match validatePayload json payload with
  | some err => (.error err, s)
  | none =>
    let k := key [payload.tenantID, payload.sessionID]
    match s.sessions.lookup k with
    | none => (.error .notFound, s)
    | some _ =>
      let entries := (s.histories.lookup k).getD []
      match entries.find? fun existing => existing.eventID = payload.eventID with
      | some existing =>
        if ¬ json.equal existing.payload payload.payload then (.error .conflict, s)
        else (.ok existing, s)
      | none =>
        let payload :=
          { payload with historySeq := (entries.length : ℤ) + 1, createdAt := now }
        (.ok payload, { s with histories := s.histories.insert k (entries ++ [payload]) })

/-- `Store.ListEventPayloads`. -/
def listEventPayloads (s : Store) (tenantID sessionID : String) : Except Err (List EventPayload) :=
  match validateSession tenantID sessionID with
  | some err => .error err
  | none =>
    let k := key [tenantID, sessionID]
    match s.sessions.lookup k with
    | none => .error .notFound
    | some _ => .ok ((s.histories.lookup k).getD [])

/-! ## Messages -/

/-- The test that `RecordMessage` makes of its argument. -/
def invalidMessageInput (input : MessageEventInput) : Bool :=
  validateSession input.tenantID input.sessionID ≠ none ∨ input.bindingID = "" ∨
    input.externalMessageID = "" ∨ input.eventID = "" ∨
    validateReplyTarget input.replyTarget ≠ none ∨
    (input.replyTarget ≠ {} ∧ input.replyTarget.bindingID ≠ input.bindingID)

/-- The record of a message that `RecordMessage` stores. -/
def newEvent (now : ℤ) (input : MessageEventInput) (eventSeq : ℤ) : MessageEvent where
  tenantID := input.tenantID
  eventID := input.eventID
  sessionID := input.sessionID
  bindingID := input.bindingID
  externalMessageID := input.externalMessageID
  idempotencyKey := input.idempotencyKey
  eventSeq := eventSeq
  status := .received
  replyTarget := input.replyTarget
  createdAt := now
  updatedAt := now

/-- The zero `MessageEvent`, which a missing map entry reads as. -/
def zeroEvent : MessageEvent where
  tenantID := ""
  eventID := ""
  sessionID := ""
  bindingID := ""
  externalMessageID := ""
  idempotencyKey := ""
  eventSeq := 0
  status := .other ""
  replyTarget := {}
  createdAt := 0
  updatedAt := 0

/-- `Store.RecordMessage`: the event, and whether it was there before. -/
def recordMessage (s : Store) (now : ℤ) (input : MessageEventInput) :
    Except Err (MessageEvent × Bool) × Store :=
  if invalidMessageInput input then (.error .invalid, s)
  else
    let unique := key [input.tenantID, input.bindingID, input.externalMessageID]
    match s.messages.lookup unique with
    | some existingID => (.ok ((s.events.lookup existingID).getD zeroEvent, true), s)
    | none =>
      match s.events.lookup (key [input.tenantID, input.eventID]) with
      | some _ => (.error .duplicate, s)
      | none =>
        let sessionKey := key [input.tenantID, input.sessionID]
        match s.sessions.lookup sessionKey with
        | none => (.error .notFound, s)
        | some sess =>
          let sess := { sess with version := sess.version + 1, updatedAt := now }
          let event := newEvent now input sess.version
          (.ok (event, false),
            { s with
              sessions := s.sessions.insert sessionKey sess
              events := s.events.insert (key [input.tenantID, input.eventID]) event
              messages := s.messages.insert unique (key [input.tenantID, input.eventID]) })

/-- `Store.GetMessage`. -/
def getMessage (s : Store) (tenantID eventID : String) : Except Err MessageEvent :=
  if validateTenant tenantID ≠ none ∨ eventID = "" then .error .invalid
  else
    match s.events.lookup (key [tenantID, eventID]) with
    | none => .error .notFound
    | some value => .ok value

/-- `validateMessageTransition` of the in-memory store. -/
def checkMessageTransition (transition : MessageTransition) : Option Err :=
  if validateTenant transition.tenantID ≠ none ∨ transition.eventID = "" ∨
      transition.owner = "" then some .invalid
  else if ¬ validateMessageTransition transition.from transition.to then some .illegalTransition
  else none

/-- `validateMessageLease`: a new lease has a positive duration, and a running event is left only
after its lease expired, for reconciliation, or by the owner and token that hold it. -/
def validateMessageLease (now : ℤ) (value : MessageEvent) (transition : MessageTransition) :
    Option Err :=
  if transition.to = .running ∧ transition.leaseDuration ≤ 0 then some .invalid
  else if transition.from ≠ .running then none
  else if transition.to = .executionReconciling then
    match value.leaseExpiresAt with
    | none => some .conflict
    | some deadline => if deadline > now then some .conflict else none
  else if value.leaseOwner ≠ transition.owner ∨ transition.fencingToken = 0 ∨
      value.fencingToken ≠ transition.fencingToken ∨
      (∃ deadline ∈ value.leaseExpiresAt, ¬ deadline > now) then some .conflict
  else none

/-- `applyMessageTransition`. -/
def applyMessageTransition (now : ℤ) (value : MessageEvent) (transition : MessageTransition) :
    MessageEvent :=
  { value with
    leaseOwner := if transition.to = .running then transition.owner else ""
    leaseExpiresAt :=
      if transition.to = .running then some (now + transition.leaseDuration) else none
    status := transition.to
    replyID := if transition.replyID ≠ "" then transition.replyID else value.replyID
    segmentCount :=
      if transition.segmentCount > 0 then transition.segmentCount else value.segmentCount
    fencingToken := value.fencingToken + 1
    updatedAt := now }

/-- `Store.TransitionMessage`. -/
def transitionMessage (s : Store) (now : ℤ) (transition : MessageTransition) :
    Except Err MessageEvent × Store :=
  match checkMessageTransition transition with
  | some err => (.error err, s)
  | none =>
    match s.events.lookup (key [transition.tenantID, transition.eventID]) with
    | none => (.error .notFound, s)
    | some value =>
      if value.status ≠ transition.from then (.error .conflict, s)
      else
        match validateMessageLease now value transition with
        | some err => (.error err, s)
        | none =>
          let value := applyMessageTransition now value transition
          (.ok value,
            { s with
              events := s.events.insert (key [transition.tenantID, transition.eventID]) value })

/-! ## Reply batches -/

/-- Whether an existing row differs from a new one in its event, count, payload, or target. -/
def replyDiffers (existing value : ReplyOutbox) : Bool :=
  existing.eventID ≠ value.eventID ∨ existing.segmentCount ≠ value.segmentCount ∨
    existing.payload ≠ value.payload ∨ existing.replyTarget ≠ value.replyTarget

/-- The part of `EnqueueReply` that runs under the lock. -/
def storeReply (s : Store) (value : ReplyOutbox) : Except Err ReplyOutbox × Store :=
  match s.events.lookup (key [value.tenantID, value.eventID]) with
  | none => (.error .notFound, s)
  | some event =>
    if event.replyTarget ≠ value.replyTarget then (.error .conflict, s)
    else
      let k := replyKey value.tenantID value.replyID value.segmentIndex
      match s.replies.lookup k with
      | some existing =>
        if replyDiffers existing value then (.error .conflict, s) else (.ok existing, s)
      | none => (.ok value, { s with replies := s.replies.insert k value })

/-- `Store.EnqueueReply`. -/
def enqueueReply (s : Store) (now : ℤ) (value : ReplyOutbox) : Except Err ReplyOutbox × Store :=
  if validateTenant value.tenantID ≠ none ∨ value.replyID = "" ∨ value.eventID = "" ∨
      value.segmentIndex < 0 ∨ value.segmentCount ≤ value.segmentIndex ∨
      validateReplyTarget value.replyTarget ≠ none then (.error .invalid, s)
  else
    let status := if value.status = .other "" then .pending else value.status
    if status ≠ .pending then (.error .invalid, s)
    else s.storeReply { value with status := status, createdAt := now, updatedAt := now }

/-- The test that `validateReplyBatch` makes of each row of a batch, against the first one. -/
def invalidBatchReply (first value : ReplyOutbox) : Bool :=
  validateTenant value.tenantID ≠ none ∨ value.replyID = "" ∨ value.eventID = "" ∨
    value.segmentIndex < 0 ∨ value.segmentCount ≤ value.segmentIndex ∨
    (value.status ≠ .other "" ∧ value.status ≠ .pending) ∨
    validateReplyTarget value.replyTarget ≠ none ∨ value.tenantID ≠ first.tenantID ∨
    value.replyID ≠ first.replyID ∨ value.eventID ≠ first.eventID ∨
    value.segmentCount ≠ first.segmentCount ∨ value.replyTarget ≠ first.replyTarget

/-- The loop of `validateReplyBatch`: the segment indices of the rows, none of them twice. -/
def collectSegments (first : ReplyOutbox) : List ReplyOutbox → List ℤ → Option (List ℤ)
  | [], seen => some seen
  | value :: values, seen =>
    if invalidBatchReply first value then none
    else if value.segmentIndex ∈ seen then none
    else collectSegments first values (value.segmentIndex :: seen)

/-- `validateReplyBatch`: the first row, when the batch holds each segment exactly once. -/
def validateReplyBatch (values : List ReplyOutbox) : Except Err ReplyOutbox :=
  match values with
  | [] => .error .invalid
  | first :: _ =>
    match collectSegments first values [] with
    | none => .error .invalid
    | some seen =>
      if (seen.length : ℤ) ≠ first.segmentCount then .error .invalid
      else if (List.range first.segmentCount.toNat).all fun index => (index : ℤ) ∈ seen then
        .ok first
      else .error .invalid

/-- `validateExistingReplies`. -/
def validateExistingReplies (replies : GoMap ReplyOutbox) : List ReplyOutbox → Option Err
  | [] => none
  | value :: values =>
    match replies.lookup (replyKey value.tenantID value.replyID value.segmentIndex) with
    | none => validateExistingReplies replies values
    | some existing =>
      if replyDiffers existing value then some .conflict
      else validateExistingReplies replies values

/-- The loop that writes a batch: a row that exists is kept, the others are stored as pending. -/
def insertReplies (now : ℤ) : List ReplyOutbox → GoMap ReplyOutbox →
    List ReplyOutbox × GoMap ReplyOutbox
  | [], replies => ([], replies)
  | value :: values, replies =>
    let k := replyKey value.tenantID value.replyID value.segmentIndex
    match replies.lookup k with
    | some existing =>
      let (result, replies) := insertReplies now values replies
      (existing :: result, replies)
    | none =>
      let value := { value with status := .pending, createdAt := now, updatedAt := now }
      let (result, replies) := insertReplies now values (replies.insert k value)
      (value :: result, replies)

/-- The test that `enqueueReplies` makes of a correlation against the batch and the stored one. An
empty request means that there is no correlation. -/
def checkCorrelation (s : Store) (correlation : ReplyCorrelation) (first : ReplyOutbox) :
    Option Err :=
  if correlation.requestID = "" then none
  else if correlation.tenantID ≠ first.tenantID ∨ correlation.eventID ≠ first.eventID then
    some .invalid
  else
    match s.correlations.lookup (key [correlation.tenantID, correlation.eventID]) with
    | none => none
    | some existing => if existing ≠ correlation then some .conflict else none

/-- `Store.enqueueReplies`. -/
def enqueueReplies (s : Store) (now : ℤ) (correlation : ReplyCorrelation)
    (values : List ReplyOutbox) : Except Err (List ReplyOutbox) × Store :=
  match validateReplyBatch values with
  | .error err => (.error err, s)
  | .ok first =>
    match s.events.lookup (key [first.tenantID, first.eventID]) with
    | none => (.error .notFound, s)
    | some event =>
      if event.replyTarget ≠ first.replyTarget then (.error .conflict, s)
      else
        match checkCorrelation s correlation first with
        | some err => (.error err, s)
        | none =>
          match validateExistingReplies s.replies values with
          | some err => (.error err, s)
          | none =>
            let (result, replies) := insertReplies now values s.replies
            (.ok result,
              { s with
                replies := replies
                correlations :=
                  if correlation.requestID ≠ "" then
                    s.correlations.insert (key [correlation.tenantID, correlation.eventID])
                      correlation
                  else s.correlations })

/-- The zero `ReplyCorrelation`. -/
def noCorrelation : ReplyCorrelation := ⟨"", "", "", "", ""⟩

/-- `Store.EnqueueReplies`. -/
def enqueueRepliesPlain (s : Store) (now : ℤ) (values : List ReplyOutbox) :
    Except Err (List ReplyOutbox) × Store :=
  s.enqueueReplies now noCorrelation values

/-- `Store.EnqueueRepliesWithCorrelation`. `normalizeTraceParent` is the W3C normalization of the
observability package. -/
def enqueueRepliesWithCorrelation (normalizeTraceParent : String → String) (s : Store) (now : ℤ)
    (correlation : ReplyCorrelation) (values : List ReplyOutbox) :
    Except Err (List ReplyOutbox) × Store :=
  if correlation.tenantID = "" ∨ correlation.eventID = "" ∨ correlation.requestID = "" then
    (.error .invalid, s)
  else
    s.enqueueReplies now
      { correlation with traceParent := normalizeTraceParent correlation.traceParent } values

/-- `Store.GetReplyCorrelation`. -/
def getReplyCorrelation (normalizeTraceParent : String → String) (s : Store)
    (tenantID eventID : String) : Except Err ReplyCorrelation :=
  if tenantID = "" ∨ eventID = "" then .error .invalid
  else
    match s.correlations.lookup (key [tenantID, eventID]) with
    | none => .error .notFound
    | some value => .ok { value with traceParent := normalizeTraceParent value.traceParent }

/-! ## Reply delivery -/

/-- `Store.ListReplyCandidates`: every row of the tenant. Go walks the map in an arbitrary order;
this is one of them. -/
def listReplyCandidates (s : Store) (tenantID : String) : Except Err (List ReplyOutbox) :=
  match validateTenant tenantID with
  | some err => .error err
  | none => .ok ((s.replies.entries.map Sigma.snd).filter fun value => value.tenantID = tenantID)

/-- Whether a row is in `sending` with a lease that is over at `now`. -/
def leaseExpired (now : ℤ) (value : ReplyOutbox) : Bool :=
  value.status = .sending ∧ ∃ deadline ∈ value.leaseExpiresAt, ¬ deadline > now

/-- The row after a successful `ClaimReply`. -/
def applyClaim (now : ℤ) (owner : String) (leaseDuration : ℤ) (value : ReplyOutbox) :
    ReplyOutbox :=
  { value with
    status := .sending
    attempts := value.attempts + 1
    fencingToken := value.fencingToken + 1
    leaseOwner := owner
    leaseExpiresAt := some (now + leaseDuration)
    updatedAt := now }

/-- `Store.ClaimReply`. -/
def claimReply (s : Store) (now : ℤ) (tenantID replyID : String) (segment : ℤ) (owner : String)
    (leaseDuration : ℤ) : Except Err ReplyOutbox × Store :=
  if validateTenant tenantID ≠ none ∨ replyID = "" ∨ owner = "" ∨ leaseDuration ≤ 0 then
    (.error .invalid, s)
  else
    match s.replies.lookup (replyKey tenantID replyID segment) with
    | none => (.error .notFound, s)
    | some value =>
      if value.status ≠ .pending ∧ value.status ≠ .retryable ∧ ¬ leaseExpired now value then
        (.error .conflict, s)
      else
        let value := applyClaim now owner leaseDuration value
        (.ok value,
          { s with replies := s.replies.insert (replyKey tenantID replyID segment) value })

/-- The row after a successful `TransitionReply`. -/
def applyReplyTransition (now : ℤ) (value : ReplyOutbox) (transition : ReplyTransition) :
    ReplyOutbox :=
  { value with
    status := transition.to
    leaseOwner := transition.owner
    fencingToken := value.fencingToken + 1
    attempts := if transition.to = .sending then value.attempts + 1 else value.attempts
    leaseExpiresAt :=
      if transition.to = .sending ∧ transition.leaseDuration > 0 then
        some (now + transition.leaseDuration)
      else value.leaseExpiresAt
    providerMessageID := transition.providerID
    lastErrorClass := transition.errorClass
    updatedAt := now }

/-- `Store.TransitionReply`. -/
def transitionReply (s : Store) (now : ℤ) (transition : ReplyTransition) :
    Except Err ReplyOutbox × Store :=
  if validateTenant transition.tenantID ≠ none ∨ transition.replyID = "" ∨
      transition.owner = "" then (.error .invalid, s)
  else if ¬ validateTransition transition.from transition.to then (.error .illegalTransition, s)
  else
    let k := replyKey transition.tenantID transition.replyID transition.segmentIndex
    match s.replies.lookup k with
    | none => (.error .notFound, s)
    | some value =>
      if value.status ≠ transition.from ∨
          (value.leaseOwner ≠ "" ∧ value.leaseOwner ≠ transition.owner) ∨
          (transition.fencingToken ≠ 0 ∧ value.fencingToken ≠ transition.fencingToken) then
        (.error .conflict, s)
      else if leaseExpired now value then (.error .conflict, s)
      else
        let value := applyReplyTransition now value transition
        (.ok value, { s with replies := s.replies.insert k value })

end Store

end AgentService.Storage
