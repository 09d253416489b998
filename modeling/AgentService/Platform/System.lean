import AgentService.Gateway.Dispatch
import AgentService.Outbox.Worker

/-!
# The platform as a system of calls

Any number of dispatchers and workers run on one platform. A started call is one call of one of the
functions below; a worker that polls starts `RunOnce` again and again, and a process that crashes
is a call that is not scheduled any more.
-/

namespace AgentService.Platform

open Storage Concurrent
open Gateway (Dispatcher DurableExecution Execution RunnerEvent Principal InboundMessage
  RunnerIdentity)
open Outbox (Worker WorkerErr)

/-- The calls of the platform. -/
inductive Call where
  /-- `Worker.RunOnce`. -/
  | runOnce (w : Worker)
  /-- `Dispatcher.claimInbound`. -/
  | claimInbound (d : Dispatcher) (principal : Principal) (message : InboundMessage)
      (identity : RunnerIdentity)
  /-- `Dispatcher.failDurable`. -/
  | failDurable (durable : Option DurableExecution)
  /-- `Dispatcher.finishDurable`. -/
  | finishDurable (d : Dispatcher) (requestID traceID : String)
      (durable : Option DurableExecution) (terminalErr : Option Gateway.Err) (reply : String)
  /-- `Dispatcher.forward`. -/
  | forward (d : Dispatcher) (e : Execution) (runnerEvents : List (Option RunnerEvent))
  /-- `Dispatcher.Dispatch`. -/
  | dispatch (d : Dispatcher) (principal : Principal)

/-- What the calls return. -/
inductive Result where
  | processed (count : ℕ) (err : Option WorkerErr)
  | claimed (r : Except Gateway.Err (Option DurableExecution))
  | finished
  | forwarded (terminalErr : Option Gateway.Err)
  | dispatched (r : Except Gateway.Err Dispatcher.Started)
  deriving DecidableEq

variable {x : Externals}

/-- The program of a call. -/
def Call.body : Call → Code x Result
  | .runOnce w => do
    let (count, err) ← w.runOnce
    return .processed count err
  | .claimInbound d principal message identity => do
    return .claimed (← d.claimInbound principal message identity)
  | .failDurable durable => do
    Gateway.failDurable durable
    return .finished
  | .finishDurable d requestID traceID durable terminalErr reply => do
    d.finishDurable requestID traceID durable terminalErr reply
    return .finished
  | .forward d e runnerEvents => do
    return .forwarded (← d.forward e runnerEvents)
  | .dispatch d principal => do
    return .dispatched (← d.dispatch principal)

/-- The calls over the platform. -/
abbrev services (x : Externals) : Pool (platform x) where
  Call := Call
  Result := Result
  body := Call.body

/-- One step of a run of the platform. -/
abbrev RunStep (x : Externals) := Step (services x)

/-- A configuration of a run of the platform. -/
abbrev Run (x : Externals) := Config (services x)

/-- The platform before any call. -/
abbrev Run.start (s : State) : Run x := Config.start s

/-- Only passes of workers are started. -/
def WorkersOnly (_ : Run x) : Call → Prop
  | .runOnce _ => True
  | _ => False

instance : (c : Run x) → (call : Call) → Decidable (WorkersOnly c call)
  | _, .runOnce _ => isTrue trivial
  | _, .claimInbound .. | _, .failDurable _ | _, .finishDurable .. | _, .forward ..
  | _, .dispatch .. => isFalse id

instance : (call : Call) → Decidable (∃ w, call = .runOnce w)
  | .runOnce w => isTrue ⟨w, rfl⟩
  | .claimInbound .. | .failDurable _ | .finishDurable .. | .forward .. | .dispatch .. =>
    isFalse (by simp)

/-- Externals for runs on concrete inputs: the digest of an event tells its identity and its time.
-/
def plainExternals : Externals where
  hashing :=
    { sha256 := id
      marshal := fun e => Audit.bytes (e.eventID ++ Go.itoa e.occurredAt) }
  normalizeTraceParent := id

end AgentService.Platform
