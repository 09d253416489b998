import AgentService.Platform.Machine

/-!
# The outbox worker

`trpcservice/runtime/outbox/worker.go`: `RunOnce` and the functions that it calls, as programs over
the platform's operations. Metrics and spans are left out. The retry delay is computed in floating
point from the row and the settings of the worker; it is a parameter of the worker here
(`retryDelay`), so that everything holds for every backoff.

The clock is read where the source reads it. `restoreCorrelationContext` reads the correlation of
the claimed row before anything else; its answer only goes into the context of later calls.
-/

namespace AgentService.Outbox

open Storage Platform

/-- The errors of the worker. -/
inductive WorkerErr where
  /-- `ErrInvalid`. -/
  | invalid
  /-- An error of the runtime store. -/
  | storage (cause : Storage.Err)
  /-- An error of the audit recorder. -/
  | audit (cause : Audit.Err)
  deriving DecidableEq

/-- `errors.Is(err, runtimestorage.ErrConflict)`. -/
def WorkerErr.isConflict : WorkerErr → Bool
  | .storage .conflict => true
  | _ => false

/-- `Config`, as far as the modelled functions use it. -/
structure Config where
  tenantID : String
  owner : String
  leaseDuration : ℤ
  maxAttempts : ℤ := 0
  backoffBase : ℤ := 0
  backoffMax : ℤ := 0
  /-- Whether `Jitter` lies outside the unit interval. -/
  jitterInvalid : Bool := false
  /-- The delay before a retry of a row, which the settings above determine. -/
  retryDelay : ReplyOutbox → ℤ := fun _ => 0
  /-- The tenant of the audit store that is the `AuditWriter`, if there is one. -/
  auditWriter : Option String := none

/-- `Worker`. -/
structure Worker where
  tenantID : String
  owner : String
  leaseDuration : ℤ
  maxAttempts : ℤ
  backoffBase : ℤ
  retryDelay : ReplyOutbox → ℤ
  auditWriter : Option String
  tenantID_ne : tenantID ≠ ""
  owner_ne : owner ≠ ""
  leaseDuration_pos : 0 < leaseDuration
  maxAttempts_pos : 0 < maxAttempts
  backoffBase_pos : 0 < backoffBase

/-- `New`, for a store and a provider that are not nil. -/
def newWorker (config : Config) : Except WorkerErr Worker :=
  if h : validateTenant config.tenantID ≠ none ∨ config.owner = "" ∨
      config.leaseDuration ≤ 0 then .error .invalid
  else
    let maxAttempts := if config.maxAttempts ≤ 0 then 3 else config.maxAttempts
    if hb : config.backoffBase < 0 ∨ config.backoffMax < 0 ∨ config.jitterInvalid then
      .error .invalid
    else
      let backoffBase := if config.backoffBase = 0 then 100 * 10^6 else config.backoffBase
      let backoffMax := if config.backoffMax = 0 then 30 * 10^9 else config.backoffMax
      if backoffMax < backoffBase then .error .invalid
      else
        .ok
          { tenantID := config.tenantID, owner := config.owner,
            leaseDuration := config.leaseDuration, maxAttempts := maxAttempts,
            backoffBase := backoffBase, retryDelay := config.retryDelay,
            auditWriter := config.auditWriter
            tenantID_ne := by simp at h; tauto
            owner_ne := by tauto
            leaseDuration_pos := by omega
            maxAttempts_pos := by grind
            backoffBase_pos := by grind }

/-! ## Classification of provider errors -/

/-- `normalizeErrorClass`. -/
def normalizeErrorClass (value : String) : String :=
  if value ∈ ["rate_limited", "timeout", "canceled", "invalid", "unauthenticated", "not_ready",
      "unavailable", "provider_rejected", "provider_error"] then value
  else "provider_error"

/-- `classify`: the stored class of a provider error, and whether the delivery may be retried. -/
def classify : ProviderErr → String × Bool
  | .deadlineExceeded => ("timeout", true)
  | .canceled => ("canceled", true)
  | .delivery errorClass retryable =>
    if errorClass ≠ "" then (normalizeErrorClass errorClass, retryable)
    else ("provider_error", true)
  | .other => ("provider_error", true)

/-! ## Programs -/

variable {x : Externals}

/-- `eligible`: the clock is read for rows in `sending` with a lease only. -/
def eligible (value : ReplyOutbox) : Code x Bool :=
  if value.status = .pending ∨ value.status = .retryable then return true
  else if value.status = .sending then
    match value.leaseExpiresAt with
    | none => return false
    | some deadline => do
      let now ← timeNow
      return ¬ deadline > now
  else return false

namespace Worker

variable (w : Worker)

/-- `retryDue`. -/
def retryDue (value : ReplyOutbox) (now : ℤ) : Bool :=
  if value.status ≠ .retryable ∨ w.backoffBase ≤ 0 ∨ value.updatedAt = 0 then true
  else ¬ now < value.updatedAt + w.retryDelay value

/-- `claimCandidate`: the claimed row, if there is one. -/
def claimCandidate (candidate : ReplyOutbox) : Code x (Except WorkerErr (Option ReplyOutbox)) := do
  if ¬ (← eligible candidate) then return .ok none
  else
    let now ← timeNow
    if ¬ w.retryDue candidate now then return .ok none
    else
      match ← storeOp .caller (.claimReply candidate.tenantID candidate.replyID
          candidate.segmentIndex w.owner w.leaseDuration) with
      | .error .conflict | .error .notFound => return .ok none
      | .error err => return .error (.storage err)
      | .ok claimed => return .ok (some claimed)

/-- `advanceEvent` up to the listing: whether there are rows of the event and all of them are
sent. -/
def allSent (eventID : String) (candidates : List ReplyOutbox) : Bool :=
  let rows := candidates.filter fun value => value.eventID = eventID
  rows ≠ [] ∧ rows.all fun value => value.status = .sent

/-- The step of an event from `completed` to `reply_pending`. -/
def toReplyPending (eventID : String) : MessageTransition :=
  { tenantID := w.tenantID, eventID := eventID, «from» := .completed, «to» := .replyPending,
    owner := w.owner }

/-- The step of an event from `reply_pending` to `replied`. -/
def toReplied (eventID : String) : MessageTransition :=
  { tenantID := w.tenantID, eventID := eventID, «from» := .replyPending, «to» := .replied,
    owner := w.owner }

/-- The last step of `advanceEvent`. -/
def markReplied (eventID : String) : Code x Unit := do
  let _ ← storeOp .caller (.transitionMessage (w.toReplied eventID))
  return ()

/-- `advanceEvent`. -/
def advanceEvent (eventID : String) : Code x Unit := do
  if eventID = "" then return ()
  else
    match ← storeOp .caller (.listReplyCandidates w.tenantID) with
    | .error _ => return ()
    | .ok candidates =>
      if ¬ allSent eventID candidates then return ()
      else
        match ← storeOp .caller (.getMessage w.tenantID eventID) with
        | .error _ => return ()
        | .ok event =>
          if event.status = .completed then
            match ← storeOp .caller (.transitionMessage (w.toReplyPending eventID)) with
            | .error _ => return ()
            | .ok _ => w.markReplied eventID
          else if event.status = .replyPending then w.markReplied eventID
          else return ()

/-- `Recorder.IM` of the worker's recorder. -/
def recordIM (eventType : Audit.EventType) (requestID traceID : String)
    (decision : Audit.Decision) (errorType : String) : Code x (Option Audit.Err) :=
  match w.auditWriter with
  | none => return none
  | some writer => do
    let now ← timeNow
    let event := Audit.complete x.hashing w.tenantID now
      (Audit.imEvent eventType requestID traceID "" "" decision errorType)
    match event.validate with
    | some err => return some err
    | none =>
      match ← appendAudit .caller writer event with
      | .error err => return some err
      | .ok _ => return none

/-- `recordDelivery`. -/
def recordDelivery (eventType : Audit.EventType) (value : ReplyOutbox) (errorClass : String) :
    Code x (Option Audit.Err) := do
  let decision : Audit.Decision := if eventType ≠ .imDeliverySent then .rejected else .accepted
  match ← storeOp .caller (.getReplyCorrelation value.tenantID value.eventID) with
  | .ok correlation =>
    w.recordIM eventType correlation.requestID correlation.traceID decision errorClass
  | .error _ => w.recordIM eventType value.replyID "" decision errorClass

/-- The transition of a claimed row out of `sending`. -/
def settle (claimed : ReplyOutbox) (status : ReplyStatus) (errorClass providerID : String) :
    ReplyTransition :=
  { tenantID := claimed.tenantID, replyID := claimed.replyID, segmentIndex := claimed.segmentIndex,
    «from» := .sending, «to» := status, owner := w.owner, fencingToken := claimed.fencingToken,
    errorClass := errorClass, providerID := providerID }

/-- `acceptDelivery`. -/
def acceptDelivery (claimed : ReplyOutbox) (providerID : String) : Code x (Option WorkerErr) := do
  match ← storeOp .caller (.transitionReply (w.settle claimed .sent "" providerID)) with
  | .error err => return some (.storage err)
  | .ok _ =>
    match ← w.recordDelivery .imDeliverySent claimed "" with
    | some err => return some (.audit err)
    | none =>
      w.advanceEvent claimed.eventID
      return none

/-- The status that `rejectDelivery` moves a row to. -/
def rejectedStatus (claimed : ReplyOutbox) (retryable : Bool) : ReplyStatus :=
  if ¬ retryable ∨ claimed.attempts ≥ w.maxAttempts then .deadLetter else .retryable

/-- `rejectDelivery`. -/
def rejectDelivery (claimed : ReplyOutbox) (deliveryErr : ProviderErr) :
    Code x (Option WorkerErr) := do
  let (errorClass, retryable) := classify deliveryErr
  let status := w.rejectedStatus claimed retryable
  match ← storeOp .caller (.transitionReply (w.settle claimed status errorClass "")) with
  | .error err => return some (.storage err)
  | .ok _ =>
    let eventType : Audit.EventType :=
      if status = .deadLetter then .imDeliveryDeadLettered else .imDeliveryRetryScheduled
    match ← w.recordDelivery eventType claimed errorClass with
    | some err => return some (.audit err)
    | none => return none

/-- The transition that `reconcile` requests after the provider's answer. -/
def reconciled (claimed : ReplyOutbox) (status : DeliveryStatus) (providerID : String) :
    ReplyTransition :=
  if status = .rejected then w.settle claimed .retryable "provider_rejected" providerID
  else w.settle claimed .sent "" providerID

/-- `reconcile`: whether the provider's answer is settled in the store. -/
def reconcile (claimed : ReplyOutbox) : Code x Bool := do
  match ← envOp (.reconcile claimed) with
  | .error _ => return false
  | .ok (status, providerID) =>
    if status = .unknown then return false
    else
      match ← storeOp .caller (.transitionReply (w.reconciled claimed status providerID)) with
      | .error _ => return false
      | .ok _ => return true

/-- `processClaimed`: the candidate decides whether the claimed row is reconciled or delivered. -/
def processClaimed (candidate claimed : ReplyOutbox) : Code x (Option WorkerErr) := do
  let _ ← storeOp .caller (.getReplyCorrelation claimed.tenantID claimed.eventID)
  if candidate.status = .sending then
    if ← w.reconcile claimed then w.advanceEvent claimed.eventID
    return none
  else
    match ← envOp (.deliver claimed) with
    | .ok providerID => w.acceptDelivery claimed providerID
    | .error deliveryErr => w.rejectDelivery claimed deliveryErr

/-- The loop of `RunOnce`. -/
def runCandidates : List ReplyOutbox → ℕ → Code x (ℕ × Option WorkerErr)
  | [], processed => return (processed, none)
  | candidate :: candidates, processed => do
    match ← w.claimCandidate candidate with
    | .error err => return (processed, some err)
    | .ok none => runCandidates candidates processed
    | .ok (some claimed) =>
      match ← w.processClaimed candidate claimed with
      | none => runCandidates candidates (processed + 1)
      | some err =>
        if err.isConflict then runCandidates candidates (processed + 1)
        else return (processed + 1, some err)

/-- `RunOnce`: the number of processed rows, and the error if there is one. -/
def runOnce : Code x (ℕ × Option WorkerErr) := do
  match ← storeOp .caller (.listReplyCandidates w.tenantID) with
  | .error err => return (0, some (.storage err))
  | .ok candidates => w.runCandidates candidates 0

end Worker

end AgentService.Outbox
