import AgentService.Outbox.Materializer

/-!
# Durable executions

The part of `trpcservice/gateway/dispatch.go` that ties an execution to the record of its message:
the claim of an inbound message, and the two ways in which an execution gives it back. Every claim
is a sequence of separate store operations: the session, the message, for a message already recorded
the takeover of an expired lease, and the transition to `running`.
-/

namespace AgentService.Gateway

open Storage Platform Outbox

/-- `Dispatcher`, as far as the modelled functions use it. `NewDispatcher` supplies a materializer
whenever there is a runtime store. -/
structure Dispatcher where
  /-- Whether there is a runtime store. -/
  runtimeStore : Bool
  materializer : Option Materializer
  /-- The tenant of the audit store that is the `AuditWriter`, if there is one. -/
  auditWriter : Option String := none
  /-- Whether there is a handoff store. -/
  handoffStore : Bool := false

/-- `durableExecution`. -/
structure DurableExecution where
  tenantID : String
  eventID : String
  owner : String
  fencingToken : ℤ
  replyTarget : ReplyTarget
  deriving DecidableEq

/-- `durableInboundLease`: thirty seconds. -/
def durableInboundLease : ℤ := 30 * 10^9

/-- `maxDurableExternalMessageIDRunes`. -/
def maxDurableExternalMessageIDRunes : ℕ := 512

variable {x : Externals}

/-- `ensureInboundSession`. -/
def ensureInboundSession (tenantID sessionID : String) : Code x (Option Gateway.Err) := do
  match ← storeOp .caller (.getSession tenantID sessionID) with
  | .ok _ => return none
  | .error .notFound =>
    match ← storeOp .caller (.createSession tenantID sessionID) with
    | .ok _ | .error .duplicate => return none
    | .error err => return some (.storage err)
  | .error err => return some (.storage err)

/-- The second half of `prepareInboundEvent`: only a received or reconciling event is claimed. -/
def admitClaim (event : MessageEvent) : Except Gateway.Err MessageEvent :=
  if event.status ≠ .received ∧ event.status ≠ .executionReconciling then
    .error .duplicateMessage
  else .ok event

/-- The transition by which `prepareInboundEvent` takes over an expired lease. -/
def takeover (tenantID owner : String) (event : MessageEvent) : MessageTransition :=
  { tenantID := tenantID, eventID := event.eventID, «from» := .running,
    «to» := .executionReconciling, owner := owner }

/-- `prepareInboundEvent`: the clock is read for running events with a lease only. -/
def prepareInboundEvent (tenantID : String) (event : MessageEvent) (duplicate : Bool)
    (owner : String) : Code x (Except Gateway.Err MessageEvent) := do
  if ¬ duplicate then return .ok event
  else if event.status = .running then
    match event.leaseExpiresAt with
    | none => return .error .duplicateMessage
    | some deadline =>
      let now ← timeNow
      if deadline > now then return .error .duplicateMessage
      else
        match ← storeOp .caller (.transitionMessage (takeover tenantID owner event)) with
        | .error _ => return .error .duplicateMessage
        | .ok _ => return admitClaim { event with status := .executionReconciling }
  else return admitClaim event

/-- The transition by which `claimInbound` takes the event. -/
def claimTransition (tenantID owner : String) (event : MessageEvent) : MessageTransition :=
  { tenantID := tenantID, eventID := event.eventID, «from» := event.status, «to» := .running,
    owner := owner, leaseDuration := durableInboundLease }

/-- The error that `claimInbound` returns when the transition to `running` fails. -/
def claimErr (duplicate : Bool) (err : Storage.Err) : Gateway.Err :=
  if duplicate ∧ err = .conflict then .duplicateMessage else .storage err

/-- `claimInbound` after the message is recorded. -/
def claimRecorded (tenantID : String) (event : MessageEvent) (duplicate : Bool) :
    Code x (Except Gateway.Err (Option DurableExecution)) := do
  let owner := "gateway-" ++ (← newUUID)
  match ← prepareInboundEvent tenantID event duplicate owner with
  | .error err => return .error err
  | .ok event =>
    match ← storeOp .caller (.transitionMessage (claimTransition tenantID owner event)) with
    | .error err => return .error (claimErr duplicate err)
    | .ok running =>
      return .ok (some ⟨tenantID, event.eventID, owner, running.fencingToken, event.replyTarget⟩)

/-- `claimInbound`. -/
def Dispatcher.claimInbound (d : Dispatcher) (principal : Principal) (message : InboundMessage)
    (identity : RunnerIdentity) : Code x (Except Gateway.Err (Option DurableExecution)) := do
  if ¬ d.runtimeStore ∨ principal.kind ≠ .channel then return .ok none
  else
    match principal.routingTarget with
    | none => return .error .invalid
    | some target =>
      if message.externalMessageID = "" ∨
          (Go.runes message.externalMessageID).length > maxDurableExternalMessageIDRunes then
        return .error .invalid
      else
        match Gateway.replyTarget target message with
        | .error err => return .error err
        | .ok replyTarget =>
          match ← ensureInboundSession principal.tenantID identity.sessionID with
          | some err => return .error err
          | none =>
            let eventID ← newUUID
            match ← storeOp .caller (.recordMessage
              { tenantID := principal.tenantID, eventID := eventID,
                sessionID := identity.sessionID, bindingID := target.bindingID,
                externalMessageID := message.externalMessageID,
                idempotencyKey := message.externalMessageID, replyTarget := replyTarget }) with
            | .error err => return .error (.storage err)
            | .ok (event, duplicate) => claimRecorded principal.tenantID event duplicate

/-- The transition by which an execution gives its event back. -/
def release (durable : DurableExecution) (status : EventStatus) (replyID : String)
    (segments : ℕ) : MessageTransition :=
  { tenantID := durable.tenantID, eventID := durable.eventID, «from» := .running,
    «to» := status, owner := durable.owner, fencingToken := durable.fencingToken,
    replyID := replyID, segmentCount := segments }

/-- `failDurable`. -/
def failDurable : Option DurableExecution → Code x Unit
  | none => return ()
  | some durable => do
    let _ ← storeOp .background (.transitionMessage (release durable .failed "" 0))
    return ()

/-- The input that `finishDurable` gives to `Materialize`; the reply carries the name of its event.
-/
def materializeInput (durable : DurableExecution) (requestID traceID traceParent reply : String) :
    MaterializeInput :=
  { tenantID := durable.tenantID, eventID := durable.eventID, replyID := durable.eventID,
    requestID := requestID, traceID := traceID, traceParent := traceParent, payload := reply,
    replyTarget := durable.replyTarget }

/-- The materialization of `finishDurable`: the error, the reply, and the number of its segments. -/
def materializeReply (materializer : Option Materializer) (requestID traceID : String)
    (durable : DurableExecution) (reply : String) : Code x (Option MaterializeErr × String × ℕ) :=
  match materializer with
  | none => return (none, "", 0)
  | some m =>
    if Go.trimSpace reply = "" then return (none, "", 0)
    else do
      let traceParent ← traceParentFromContext
      match ← m.materialize (materializeInput durable requestID traceID traceParent reply) with
      | .error err => return (some err, "", 0)
      | .ok segments => return (none, durable.eventID, segments)

/-- `finishDurable`; the store is reached under a detached context. -/
def Dispatcher.finishDurable (d : Dispatcher) (requestID traceID : String)
    (durable : Option DurableExecution) (terminalErr : Option Gateway.Err) (reply : String) :
    Code x Unit :=
  match durable with
  | none => return ()
  | some durable =>
    match terminalErr with
    | some _ => do
      let _ ← storeOp .background (.transitionMessage (release durable .failed "" 0))
      return ()
    | none => do
      let (failure, replyID, segments) ←
        materializeReply d.materializer requestID traceID durable reply
      let status : EventStatus := if failure = none then .completed else .failed
      let _ ← storeOp .background (.transitionMessage (release durable status replyID segments))
      return ()

end AgentService.Gateway
