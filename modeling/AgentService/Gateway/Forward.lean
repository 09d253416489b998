import AgentService.Gateway.Durable

/-!
# Forwarding a runner's stream

`forward` of `trpcservice/gateway/dispatch.go` and the functions that it calls. The runner's events
are the list of what its stream gives before it is closed; a stream that stays silent is a call that
is not scheduled. The variables that `forward` shares with its closures are the fields of `Flow`.
Leases, spans, and metrics are left out, and so is `drainRunnerEvents`, which only discards events.

An outcome is written to three places: the audit log (`finalizeAudit`), the handoff
(`finalizeHandoff`, and once more in `finalizeForward`), and the record of the message
(`finishDurable`).
-/

namespace AgentService.Gateway

open Storage Platform Outbox
open Audit (EventType Hashing ExecutionResult)

/-- The arguments that the functions of one execution share. -/
structure Execution where
  requestID : String
  traceID : String
  durable : Option DurableExecution
  principal : Principal
  message : InboundMessage
  identity : RunnerIdentity
  deriving DecidableEq

/-- The variables of `forward`. -/
structure Flow where
  terminalErr : Option Gateway.Err := none
  reply : String := ""
  /-- The terminal event type, with `none` for the empty string. -/
  terminalEventType : Option EventType := none
  terminalErrorType : String := ""
  auditFinalized : Bool := false

variable {x : Externals}

/-- The event that `writeExecutionAuditRevision` appends. -/
def executionEvent (H : Hashing) (e : Execution) (eventType : EventType)
    (errorType : String) (revision : Option ℤ) (now : ℤ) : Audit.Event :=
  { schemaVersion := Audit.schemaVersion
    eventID := Audit.newEventID H [e.requestID, eventType.text]
    eventType := eventType
    tenantID := e.principal.tenantID
    channel := match e.principal.routingTarget with
      | some target => target.channel
      | none => e.principal.kind.text
    userID := e.message.externalUserID
    sessionID := e.identity.sessionID
    agentAppID := e.principal.appID
    revision := revision
    errorType := errorType
    requestID := e.requestID
    traceID := e.traceID
    actorType := e.principal.kind.text
    actorID := e.principal.subjectID
    occurredAt := now }

/-- The handoff of an execution. -/
def handoffID (H : Hashing) (e : Execution) : String :=
  Audit.newEventID H [e.requestID, "handoff"]

/-- The finalized handoff of an execution with a result. -/
def finalHandoff (H : Hashing) (e : Execution) (result : ExecutionResult)
    (errorType : String) : Audit.ExecutionHandoff :=
  { tenantID := e.principal.tenantID, handoffID := handoffID H e, state := .finalized,
    result := result, errorType := errorType }

/-- `terminalAuditError`. -/
def terminalAuditError : Option Gateway.Err → String
  | none => ""
  | some err => if isContextCancellation err then "canceled" else "unavailable"

/-- `cancellationStatus`, of the context's error. -/
def cancellationStatus : CtxErr → String
  | .deadlineExceeded => "deadline_exceeded"
  | .canceled => "canceled"

/-- The error event of an execution. -/
def errorEvent (e : Execution) (text : String) : DispatchEvent :=
  { type := .error, requestID := e.requestID, traceID := e.traceID, error := text }

/-- The final event of an execution. -/
def doneEvent (e : Execution) (text : String) : DispatchEvent :=
  { type := .done, requestID := e.requestID, traceID := e.traceID, status := text, done := true }

/-- `finishAuditFailure`. -/
def finishAuditFailure (e : Execution) : Code x Unit := do
  let _ ← envOp (.trySend (errorEvent e "audit_write_failed"))
  let _ ← envOp (.trySend (doneEvent e "error"))
  return ()

/-- `finishCanceled`. -/
def finishCanceled (e : Execution) (cause : CtxErr) : Code x Unit := do
  let _ ← envOp (.trySend (errorEvent e "execution canceled"))
  let _ ← envOp (.trySend (doneEvent e (cancellationStatus cause)))
  return ()

/-- The first loop of `handleForwardRunnerEvent` over the dispatch events: the flow, and whether the
context ended it. -/
def sendItems (done : Bool) : List DispatchEvent → Flow → Code x (Flow × Bool)
  | [], flow => return (flow, false)
  | item :: items, flow =>
    if done ∧ item.type = .done then sendItems done items flow
    else do
      let flow :=
        if item.type = .message then { flow with reply := flow.reply ++ item.text } else flow
      let flow := if item.type = .error then { flow with terminalErr := some .execution } else flow
      match ← envOp (.send item) with
      | some cause => return ({ flow with terminalErr := some (.ctx cause) }, true)
      | none => sendItems done items flow

/-- The last loop of `handleForwardRunnerEvent`: the final event is sent after the handoff. -/
def sendDone : List DispatchEvent → Code x Unit
  | [] => return ()
  | item :: items => do
    if item.type = .done then
      let _ ← envOp (.send item)
      sendDone items
    else sendDone items

/-- The select of `forward`, with the test of the context before it. -/
def awaitRunner : Code x (Option CtxErr) := do
  match ← envOp .ctxErr with
  | some cause => return some cause
  | none => selectRunner

namespace Dispatcher

variable (d : Dispatcher)

/-- `writeExecutionAuditRevision`. -/
def writeExecutionAuditRevision (ctx : Ctx) (e : Execution) (eventType : EventType)
    (errorType : String) (revision : Option ℤ) : Code x (Option Audit.Err) :=
  match d.auditWriter with
  | none => return none
  | some writer => do
    let now ← timeNow
    match ← appendAudit ctx writer
        (executionEvent x.hashing e eventType errorType revision now) with
    | .error err => return some err
    | .ok _ => return none

/-- `writeExecutionAudit`. -/
def writeExecutionAudit (ctx : Ctx) (e : Execution) (eventType : EventType)
    (errorType : String) : Code x (Option Audit.Err) :=
  d.writeExecutionAuditRevision ctx e eventType errorType none

/-- The closure `finalizeAudit` of `forward`: the error, and the flag after it. -/
def finalizeAudit (e : Execution) (auditFinalized : Bool) (eventType : EventType)
    (errorType : String) : Code x (Option Audit.Err × Bool) := do
  if auditFinalized then return (none, true)
  else
    match ← d.writeExecutionAudit .background e eventType errorType with
    | none => return (none, true)
    | some err => return (some err, false)

/-- The closure `finalizeHandoff` of `forward`. -/
def finalizeHandoff (e : Execution) (result : ExecutionResult) (errorType : String) :
    Code x (Option Audit.Err) := do
  if ¬ d.handoffStore then return none
  else
    match ← finalizeOp .background (finalHandoff x.hashing e result errorType) with
    | .error err => return some err
    | .ok _ => return none

/-- `handleForwardStreamClosed`, with the assignments before it. -/
def handleForwardStreamClosed (e : Execution) (flow : Flow) : Code x Flow := do
  let flow := { flow with
    terminalEventType := some .executionCompleted, terminalErrorType := "" }
  let (auditErr, finalized) ← d.finalizeAudit e flow.auditFinalized .executionCompleted ""
  let flow := { flow with auditFinalized := finalized }
  if auditErr ≠ none then
    finishAuditFailure e
    return { flow with terminalErr := some .auditWriteFailed }
  else
    match ← d.finalizeHandoff e .success "" with
    | some _ =>
      finishAuditFailure e
      return { flow with terminalErr := some .auditWriteFailed }
    | none =>
      let _ ← envOp (.trySend (doneEvent e "complete"))
      return { flow with terminalErr := none }

/-- `handleForwardCancellation`, with the assignments before it. -/
def handleForwardCancellation (e : Execution) (cause : CtxErr) (flow : Flow) : Code x Flow := do
  let flow := { flow with
    terminalEventType := some .executionCanceled, terminalErrorType := "canceled" }
  let (auditErr, finalized) ←
    d.finalizeAudit e flow.auditFinalized .executionCanceled "canceled"
  let flow := { flow with auditFinalized := finalized }
  if auditErr ≠ none then
    finishAuditFailure e
    return { flow with terminalErr := some .auditWriteFailed }
  else
    match ← d.finalizeHandoff e .canceled "canceled" with
    | some _ =>
      finishAuditFailure e
      return { flow with terminalErr := some .auditWriteFailed }
    | none =>
      finishCanceled e cause
      return { flow with terminalErr := some (.ctx cause) }

/-- `handleForwardRunnerEvent` from the first loop on. -/
def forwardItems (e : Execution) (mapped : List DispatchEvent) (done : Bool) (flow : Flow) :
    Code x (Flow × Bool) := do
  let (flow, interrupted) ← sendItems done mapped flow
  if interrupted then return (flow, true)
  else if ¬ done then return (flow, false)
  else
    let result : ExecutionResult := if flow.terminalErr ≠ none then .failure else .success
    match ← d.finalizeHandoff e result flow.terminalErrorType with
    | some _ =>
      finishAuditFailure e
      return ({ flow with terminalErr := some .auditWriteFailed }, true)
    | none =>
      sendDone mapped
      return (flow, true)

/-- `handleForwardRunnerEvent`: the flow, and whether the execution is over. -/
def handleForwardRunnerEvent (e : Execution) (event : Option RunnerEvent) (flow : Flow) :
    Code x (Flow × Bool) := do
  let (mapped, done) := mapRunnerEvent event e.requestID e.traceID
  if done then
    let failed := mapped.any fun item => item.type = .error
    let eventType : EventType := if failed then .executionFailed else .executionCompleted
    let errorType := if failed then "unavailable" else ""
    let flow := { flow with
      terminalErr := if failed then some .execution else none
      terminalEventType := some eventType
      terminalErrorType := errorType }
    let (auditErr, finalized) ← d.finalizeAudit e flow.auditFinalized eventType errorType
    let flow := { flow with auditFinalized := finalized }
    if auditErr ≠ none then
      finishAuditFailure e
      return ({ flow with terminalErr := some .execution }, true)
    else d.forwardItems e mapped done flow
  else d.forwardItems e mapped done flow

/-- The loop of `forward`. -/
def forwardLoop (e : Execution) : List (Option RunnerEvent) → Flow → Code x Flow
  | [], flow => do
    match ← awaitRunner with
    | some cause => d.handleForwardCancellation e cause flow
    | none => d.handleForwardStreamClosed e flow
  | event :: events, flow => do
    match ← awaitRunner with
    | some cause => d.handleForwardCancellation e cause flow
    | none =>
      let (flow, finished) ← d.handleForwardRunnerEvent e event flow
      if finished then return flow else forwardLoop e events flow

/-- The event type that `finalizeForward` writes. -/
def finalEventType (flow : Flow) : EventType :=
  match flow.terminalEventType with
  | some eventType => eventType
  | none =>
    match flow.terminalErr with
    | none => .executionCompleted
    | some err => if isContextCancellation err then .executionCanceled else .executionFailed

/-- The result that `finalizeForward` hands off. -/
def finalResult : Option Gateway.Err → ExecutionResult
  | none => .success
  | some err => if isContextCancellation err then .canceled else .failure

/-- `finalizeForward`. -/
def finalizeForward (e : Execution) (flow : Flow) : Code x (Option Gateway.Err) := do
  let eventType := finalEventType flow
  let errorType :=
    if flow.terminalErrorType = "" then terminalAuditError flow.terminalErr
    else flow.terminalErrorType
  let handoffErr ← d.finalizeHandoff e (finalResult flow.terminalErr) errorType
  let terminalErr :=
    if handoffErr ≠ none ∧ flow.terminalErr = none then some .auditWriteFailed
    else flow.terminalErr
  let (auditErr, _) ← d.finalizeAudit e flow.auditFinalized eventType errorType
  let terminalErr :=
    if auditErr ≠ none ∧ terminalErr = none then some .execution else terminalErr
  d.finishDurable e.requestID e.traceID e.durable terminalErr flow.reply
  return terminalErr

/-- `forward`: the terminal error. -/
def forward (e : Execution) (runnerEvents : List (Option RunnerEvent)) :
    Code x (Option Gateway.Err) := do
  let flow ← d.forwardLoop e runnerEvents {}
  d.finalizeForward e flow

end Dispatcher

end AgentService.Gateway
