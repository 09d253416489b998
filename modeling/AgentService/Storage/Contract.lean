import AgentService.Go.Strings

/-!
# The runtime persistence contract

The records, the lifecycle states, and the validation of `trpcservice/runtime/storage/storage.go`.
A status is a string in the source and a value of an enumeration here, with `other` for a string
that names no state (the empty string included, which is the status of a row that has not been
stored yet). An instant is an integer, in nanoseconds since Go's zero time, so that the zero
`time.Time` is `0`; a `time.Duration` is an integer, in nanoseconds.
-/

namespace AgentService.Storage

/-- What `ctx.Err()` returns once a context is done. -/
inductive CtxErr where
  | canceled
  | deadlineExceeded
  deriving DecidableEq

/-- A context at the moment of a call. -/
inductive Context where
  /-- No context at all. -/
  | nil
  /-- A context that is not done. -/
  | live
  /-- A context that is done. -/
  | done (cause : CtxErr)
  deriving DecidableEq

/-- The errors of the runtime store. -/
inductive Err where
  | notFound
  | duplicate
  | conflict
  | invalid
  | illegalTransition
  | storage
  | ctx (cause : CtxErr)
  deriving DecidableEq

/-- The trusted, durable destination of a channel reply. -/
structure ReplyTarget where
  bindingID : String := ""
  conversationKind : String := ""
  receiverID : String := ""
  threadID : String := ""
  deriving DecidableEq

/-- The lifecycle of an inbound message. -/
inductive EventStatus where
  | received
  | running
  | completed
  | executionReconciling
  | replyPending
  | replied
  | failed
  | other (value : String)
  deriving DecidableEq

/-- The lifecycle of a reply segment. -/
inductive ReplyStatus where
  | pending
  | sending
  | sent
  | retryable
  | deadLetter
  | other (value : String)
  deriving DecidableEq

/-- A conversation. Its application state is the JSON text of a map, with `none` for nil. -/
structure Session where
  tenantID : String
  sessionID : String
  version : ℤ
  state : Option String := none
  createdAt : ℤ
  updatedAt : ℤ
  deriving DecidableEq

/-- One entry of the event history of a session; its payload is JSON text. -/
structure EventPayload where
  tenantID : String
  sessionID : String
  eventID : String
  payload : String
  historySeq : ℤ := 0
  createdAt : ℤ := 0
  deriving DecidableEq

/-- The durable record of one inbound message. -/
structure MessageEvent where
  tenantID : String
  eventID : String
  sessionID : String
  bindingID : String
  externalMessageID : String
  idempotencyKey : String
  eventSeq : ℤ
  status : EventStatus
  fencingToken : ℤ := 0
  leaseOwner : String := ""
  leaseExpiresAt : Option ℤ := none
  replyID : String := ""
  segmentCount : ℤ := 0
  replyTarget : ReplyTarget
  createdAt : ℤ
  updatedAt : ℤ
  deriving DecidableEq

/-- The identity of an inbound message to record. -/
structure MessageEventInput where
  tenantID : String
  eventID : String
  sessionID : String
  bindingID : String
  externalMessageID : String
  idempotencyKey : String
  replyTarget : ReplyTarget
  deriving DecidableEq

/-- A requested step of the lifecycle of an inbound message. -/
structure MessageTransition where
  tenantID : String
  eventID : String
  «from» : EventStatus
  «to» : EventStatus
  owner : String
  fencingToken : ℤ := 0
  leaseDuration : ℤ := 0
  replyID : String := ""
  segmentCount : ℤ := 0
  deriving DecidableEq

/-- One durable, independently deliverable reply segment. -/
structure ReplyOutbox where
  tenantID : String
  replyID : String
  eventID : String
  segmentIndex : ℤ
  segmentCount : ℤ
  payload : String
  replyTarget : ReplyTarget
  status : ReplyStatus := .other ""
  attempts : ℤ := 0
  fencingToken : ℤ := 0
  leaseOwner : String := ""
  leaseExpiresAt : Option ℤ := none
  providerMessageID : String := ""
  lastErrorClass : String := ""
  createdAt : ℤ := 0
  updatedAt : ℤ := 0
  deriving DecidableEq

/-- The durable link between an execution request and its reply. -/
structure ReplyCorrelation where
  tenantID : String
  eventID : String
  requestID : String
  traceID : String
  traceParent : String
  deriving DecidableEq

/-- A requested step of the lifecycle of a reply segment. -/
structure ReplyTransition where
  tenantID : String
  replyID : String
  segmentIndex : ℤ
  «from» : ReplyStatus
  «to» : ReplyStatus
  owner : String
  fencingToken : ℤ := 0
  leaseDuration : ℤ := 0
  errorClass : String := ""
  providerID : String := ""
  deriving DecidableEq

/-! ## Validation

A Go `error` is an `Option`, with `none` for `nil`. -/

/-- `ValidateTenant`. -/
def validateTenant (tenantID : String) : Option Err :=
  if tenantID = "" then some .invalid else none

/-- `ValidateSession`. -/
def validateSession (tenantID sessionID : String) : Option Err :=
  if validateTenant tenantID ≠ none ∨ sessionID = "" then some .invalid else none

/-- `maxReplyTargetIDRunes`. -/
def maxReplyTargetIDRunes : ℕ := 1024

/-- `validReplyTargetID`. -/
def validReplyTargetID (value : String) : Bool :=
  if Go.trimSpace value = "" ∨ (Go.runes value).length > maxReplyTargetIDRunes then false
  else (Go.runes value).all fun character => ¬ (character.toNat < 0x20 ∨ character.toNat = 0x7f)

/-- `ValidateReplyTarget`: the zero target, or a complete direct or group destination. -/
def validateReplyTarget (target : ReplyTarget) : Option Err :=
  if target = {} then none
  else if ¬ validReplyTargetID target.bindingID ∨ ¬ validReplyTargetID target.receiverID then
    some .invalid
  else if target.conversationKind ≠ "direct" ∧ target.conversationKind ≠ "group" then
    some .invalid
  else if target.threadID ≠ "" ∧ ¬ validReplyTargetID target.threadID then some .invalid
  else none

/-- `ValidateTransition`: the legal steps of a reply segment. -/
def validateTransition : ReplyStatus → ReplyStatus → Bool
  | .pending, next => next = .sending ∨ next = .retryable
  | .sending, next => next = .sent ∨ next = .retryable ∨ next = .deadLetter
  | .retryable, next => next = .sending ∨ next = .deadLetter
  | .sent, _ | .deadLetter, _ | .other _, _ => false

/-- `ValidateMessageTransition`: the legal steps of an inbound message. -/
def validateMessageTransition : EventStatus → EventStatus → Bool
  | .received, next => next = .running ∨ next = .failed
  | .running, next => next = .completed ∨ next = .executionReconciling ∨ next = .failed
  | .executionReconciling, next => next = .running ∨ next = .failed
  | .completed, next => next = .replyPending ∨ next = .failed
  | .replyPending, next => next = .replied ∨ next = .failed
  | .replied, _ | .failed, _ | .other _, _ => false

/-- A tenant passes `ValidateTenant` exactly when it is not empty. -/
@[simp] theorem validateTenant_eq_none {tenantID : String} :
    validateTenant tenantID = none ↔ tenantID ≠ "" := by
  simp [validateTenant]

/-- A session passes `ValidateSession` exactly when both parts are not empty. -/
@[simp] theorem validateSession_eq_none {tenantID sessionID : String} :
    validateSession tenantID sessionID = none ↔ tenantID ≠ "" ∧ sessionID ≠ "" := by
  simp [validateSession]

end AgentService.Storage
