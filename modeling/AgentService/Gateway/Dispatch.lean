import AgentService.Gateway.Forward

/-!
# Dispatching a request

`Dispatch` of `trpcservice/gateway/dispatch.go`. What comes before the claim of the message (the
normalization of the request, the plan, the runner's identity) and the runner registry lie outside
this development, so their answers are arbitrary. A `Dispatch` that succeeds starts `forward` on the
runner's stream; here it returns the execution and the stream.
-/

namespace AgentService.Gateway

open Storage Platform Outbox

variable {x : Externals}

namespace Dispatcher

variable (d : Dispatcher)

/-- What a successful `Dispatch` hands to `forward`. -/
abbrev Started := Execution × List (Option RunnerEvent)

/-- `reserveHandoff`. -/
def reserveHandoff (e : Execution) : Code x (Option Audit.Err) := do
  if ¬ d.handoffStore then return none
  else
    match ← reserveOp .caller
      { tenantID := e.principal.tenantID, handoffID := handoffID x.hashing e,
        requestID := e.requestID, traceID := e.traceID,
        eventID := Audit.newEventID x.hashing
          [e.requestID, Audit.EventType.executionStarted.text],
        state := .pending } with
    | .error err => return some err
    | .ok _ => return none

/-- The ends of `Dispatch` after the handoff is reserved: the claim is given back, the outcome is
audited, and `err` is returned. -/
def failExecution (e : Execution) (eventType : Audit.EventType) (errorType : String)
    (err : Gateway.Err) : Code x (Except Gateway.Err Started) := do
  failDurable e.durable
  match ← d.writeExecutionAudit .background e eventType errorType with
  | some _ =>
    failDurable e.durable
    return .error .auditWriteFailed
  | none => return .error err

/-- `Dispatch` from the acquisition of a runner on. -/
def startRunner (e : Execution) : Code x (Except Gateway.Err Started) := do
  match ← envOp .acquire with
  | some err => d.failExecution e .executionFailed "unavailable" err
  | none =>
    match ← envOp .runner with
    | false => d.failExecution e .executionFailed "unavailable" .runnerUnavailable
    | true =>
      match ← envOp .run with
      | .error err =>
        if isContextCancellation err then d.failExecution e .executionCanceled "canceled" err
        else d.failExecution e .executionFailed "unavailable" .execution
      | .ok none => d.failExecution e .executionFailed "unavailable" .execution
      | .ok (some events) => return .ok (e, events)

/-- The audit of a plan that is the canary revision. -/
def writeCanary (e : Execution) (canary : Option ℤ) : Code x (Option Audit.Err) :=
  match canary with
  | none => return none
  | some revision => d.writeExecutionAuditRevision .caller e .canarySelected "" (some revision)

/-- `Dispatch` after the claim. -/
def dispatchClaimed (e : Execution) (canary : Option ℤ) :
    Code x (Except Gateway.Err Started) := do
  match ← d.writeCanary e canary with
  | some _ =>
    failDurable e.durable
    return .error .auditWriteFailed
  | none =>
    match ← d.writeExecutionAudit .caller e .executionStarted "" with
    | some _ =>
      failDurable e.durable
      return .error .auditWriteFailed
    | none =>
      match ← d.reserveHandoff e with
      | some _ => return .error .auditWriteFailed
      | none => d.startRunner e

/-- `Dispatch`. -/
def dispatch (principal : Principal) : Code x (Except Gateway.Err Started) := do
  match ← envOp .normalize with
  | .error err => return .error err
  | .ok (message, requestID, traceID) =>
    match ← envOp .resolve with
    | .error err => return .error err
    | .ok canary =>
      match ← envOp .runnerIdentity with
      | .error err => return .error err
      | .ok identity =>
        match ← d.claimInbound principal message identity with
        | .error err => return .error err
        | .ok durable =>
          d.dispatchClaimed ⟨requestID, traceID, durable, principal, message, identity⟩ canary

end Dispatcher

end AgentService.Gateway
