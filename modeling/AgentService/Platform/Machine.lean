import AgentService.Concurrent.Pool
import AgentService.Gateway.Message
import AgentService.Storage.InMemory

/-!
# The atomic operations of the service platform

Dispatchers and outbox workers share one runtime store, one audit backend, one handoff store, and
the clock. Their code reaches these, and everything outside the service (the delivery provider, the
agent runner, the consumer of a stream, contexts), through the operations of this module, each of
them atomic: the stores hold their lock for one operation. `platform` is the machine of these
operations; the environment's part in each is a `Choice`.

A store operation under the caller's context may find it done at any time and then fails without
effect. Background and detached contexts are never done. The audit writer and the handoff store may
also fail transiently. What lies outside the service answers arbitrarily and leaves the shared state
alone.
-/

namespace AgentService.Outbox

/-- The errors of a delivery provider, as far as `classify` looks at them. -/
inductive ProviderErr where
  | deadlineExceeded
  | canceled
  /-- A `DeliveryError`. -/
  | delivery (errorClass : String) (retryable : Bool)
  | other
  deriving DecidableEq

/-- `DeliveryStatus`, with `other` for a string outside the contract. -/
inductive DeliveryStatus where
  | accepted
  | rejected
  | unknown
  | other (value : String)
  deriving DecidableEq

end AgentService.Outbox

namespace AgentService.Platform

open Storage Concurrent
open Gateway (DispatchEvent RunnerEvent InboundMessage RunnerIdentity)
open Outbox (ProviderErr DeliveryStatus)

/-- The functions that the services take from elsewhere. -/
structure Externals where
  /-- SHA-256 and the JSON form of audit events. -/
  hashing : Audit.Hashing
  /-- The W3C normalization of trace parents of the observability package. -/
  normalizeTraceParent : String → String

/-- The state that the services share. -/
structure State where
  clock : ℤ
  /-- The runtime store. -/
  store : Store
  /-- The audit backend. -/
  audits : Audit.Backend := ∅
  /-- The handoff store. -/
  handoffs : Audit.Handoffs := ∅

/-- The context of an operation: the caller's, which may be done, or one that never is
(`context.Background`, `context.WithoutCancel`). -/
inductive Ctx where
  | caller
  | background
  deriving DecidableEq

/-! ## Operations of the runtime store -/

/-- The operations of the runtime store. -/
inductive StoreOp where
  | getSession (tenantID sessionID : String)
  | createSession (tenantID sessionID : String)
  | recordMessage (input : MessageEventInput)
  | getMessage (tenantID eventID : String)
  | transitionMessage (transition : MessageTransition)
  | enqueueReplies (values : List ReplyOutbox)
  | enqueueRepliesWithCorrelation (correlation : ReplyCorrelation) (values : List ReplyOutbox)
  | getReplyCorrelation (tenantID eventID : String)
  | listReplyCandidates (tenantID : String)
  | claimReply (tenantID replyID : String) (segment : ℤ) (owner : String)
      (leaseDuration : ℤ)
  | transitionReply (transition : ReplyTransition)
  deriving DecidableEq

/-- What an operation of the runtime store returns besides an error. -/
def StoreOp.Val : StoreOp → Type
  | .getSession .. | .createSession .. => Session
  | .recordMessage .. => MessageEvent × Bool
  | .getMessage .. | .transitionMessage .. => MessageEvent
  | .enqueueReplies .. | .enqueueRepliesWithCorrelation .. | .listReplyCandidates .. =>
    List ReplyOutbox
  | .getReplyCorrelation .. => ReplyCorrelation
  | .claimReply .. | .transitionReply .. => ReplyOutbox

/-- The order in which a map is walked: the one given, if it is an order of the values. -/
def walk (order : Option (List ReplyOutbox)) (values : List ReplyOutbox) :
    Option (List ReplyOutbox) :=
  match order with
  | none => some values
  | some l => if l.isPerm values then some l else none

/-- An operation of the runtime store at `now`, where a walk over the reply rows takes `order`. -/
def StoreOp.apply (x : Externals) (order : Option (List ReplyOutbox)) (now : ℤ) (s : Store) :
    (o : StoreOp) → Option (Except Err o.Val × Store)
  | .getSession tenantID sessionID => some (s.getSession tenantID sessionID, s)
  | .createSession tenantID sessionID => some (s.createSession now tenantID sessionID)
  | .recordMessage input => some (s.recordMessage now input)
  | .getMessage tenantID eventID => some (s.getMessage tenantID eventID, s)
  | .transitionMessage transition => some (s.transitionMessage now transition)
  | .enqueueReplies values => some (s.enqueueRepliesPlain now values)
  | .enqueueRepliesWithCorrelation correlation values =>
    some (s.enqueueRepliesWithCorrelation x.normalizeTraceParent now correlation values)
  | .getReplyCorrelation tenantID eventID =>
    some (s.getReplyCorrelation x.normalizeTraceParent tenantID eventID, s)
  | .listReplyCandidates tenantID =>
    match s.listReplyCandidates tenantID with
    | .error err => some (.error err, s)
    | .ok values => (walk order values).map fun l => (.ok l, s)
  | .claimReply tenantID replyID segment owner leaseDuration =>
    some (s.claimReply now tenantID replyID segment owner leaseDuration)
  | .transitionReply transition => some (s.transitionReply now transition)

/-! ## Operations outside the service -/

/-- The operations that lie outside the service. -/
inductive EnvOp where
  /-- `Provider.Deliver`. -/
  | deliver (value : ReplyOutbox)
  /-- `Provider.Reconcile`. -/
  | reconcile (value : ReplyOutbox)
  /-- `uuid.NewString`. -/
  | newUUID
  /-- `observability.TraceParentFromContext` of the current context. -/
  | traceParentFromContext
  /-- `normalizeDispatchRequest`. -/
  | normalize
  /-- `PlanResolver.Resolve`: the revision of the plan if it is the canary revision. -/
  | resolve
  /-- `dispatchRunnerIdentity`. -/
  | runnerIdentity
  /-- `RunnerRegistry.Acquire`. -/
  | acquire
  /-- `RunnerLease.Runner`: whether there is one. -/
  | runner
  /-- `Runner.Run`: the events that the stream will give before it is closed, if it is not nil. -/
  | run
  /-- `ctx.Err()`. -/
  | ctxErr
  /-- The select of `forward`: the cause if the context is chosen, `none` for the stream. -/
  | select
  /-- `sendDispatchEvent`: the cause if the context is chosen, `none` when the event is sent. -/
  | send (event : DispatchEvent)
  /-- `trySendDispatchEvent`: whether the event is sent. -/
  | trySend (event : DispatchEvent)
  deriving DecidableEq

/-- What an operation outside the service answers. -/
def EnvOp.Res : EnvOp → Type
  | .deliver _ => Except ProviderErr String
  | .reconcile _ => Except ProviderErr (DeliveryStatus × String)
  | .newUUID | .traceParentFromContext => String
  | .normalize => Except Gateway.Err (InboundMessage × String × String)
  | .resolve => Except Gateway.Err (Option ℤ)
  | .runnerIdentity => Except Gateway.Err RunnerIdentity
  | .acquire => Option Gateway.Err
  | .runner => Bool
  | .run => Except Gateway.Err (Option (List (Option RunnerEvent)))
  | .ctxErr | .select | .send _ => Option CtxErr
  | .trySend _ => Bool

/-! ## The machine -/

/-- What the operations leave to the environment; each operation looks at its own part. -/
structure Choice where
  /-- The cause if the caller's context is done. -/
  done : Option CtxErr := none
  /-- The order in which the reply rows are walked, if not the one of the model. -/
  order : Option (List ReplyOutbox) := none
  /-- Whether the audit writer or the handoff store fails transiently. -/
  unavailable : Bool := false
  deliver : Except ProviderErr String := .ok ""
  reconcile : Except ProviderErr (DeliveryStatus × String) := .ok (.accepted, "")
  /-- The new UUID, not empty. -/
  uuid : String := "uuid"
  traceParent : String := ""
  normalize : Except Gateway.Err (InboundMessage × String × String) := .error .invalid
  resolve : Except Gateway.Err (Option ℤ) := .ok none
  runnerIdentity : Except Gateway.Err RunnerIdentity := .error .invalid
  acquire : Option Gateway.Err := none
  runner : Bool := true
  run : Except Gateway.Err (Option (List (Option RunnerEvent))) := .ok (some [])
  sent : Bool := true

/-- The answer of an operation outside the service. -/
def EnvOp.answer (ch : Choice) : (e : EnvOp) → Option e.Res
  | .deliver _ => some ch.deliver
  | .reconcile _ => some ch.reconcile
  | .newUUID => if ch.uuid = "" then none else some ch.uuid
  | .traceParentFromContext => some ch.traceParent
  | .normalize => some ch.normalize
  | .resolve => some ch.resolve
  | .runnerIdentity => some ch.runnerIdentity
  | .acquire => some ch.acquire
  | .runner => some ch.runner
  | .run => some ch.run
  | .ctxErr | .select | .send _ => some ch.done
  | .trySend _ => some ch.sent

/-- The atomic operations. -/
inductive Op where
  /-- An operation of the runtime store. -/
  | store (ctx : Ctx) (o : StoreOp)
  /-- `time.Now().UTC()`. -/
  | now
  /-- `Append` of the audit store of a tenant. -/
  | append (ctx : Ctx) (tenantID : String) (event : Audit.Event)
  /-- `HandoffStore.Reserve`. -/
  | reserve (ctx : Ctx) (value : Audit.ExecutionHandoff)
  /-- `HandoffStore.Finalize`. -/
  | finalize (ctx : Ctx) (value : Audit.ExecutionHandoff)
  /-- An operation outside the service. -/
  | env (e : EnvOp)
  deriving DecidableEq

/-- What an operation answers. -/
def Op.Res : Op → Type
  | .store _ o => Except Err o.Val
  | .now => ℤ
  | .append .. => Except Audit.Err Audit.AppendResult
  | .reserve .. | .finalize .. => Except Audit.Err Audit.ExecutionHandoff
  | .env e => e.Res

/-- The cause if an operation under `ctx` finds its context done. -/
def Choice.interrupts (ch : Choice) : Ctx → Option CtxErr
  | .caller => ch.done
  | .background => none

/-- How an operation of the audit writer or the handoff store fails from outside, if it does. -/
def Choice.fault (ch : Choice) (ctx : Ctx) : Option Audit.Err :=
  match ch.interrupts ctx with
  | some cause => some (.ctx cause)
  | none => if ch.unavailable then some .unavailable else none

/-- One operation. -/
def perform (x : Externals) (o : Op) (ch : Choice) (s : State) : Option (o.Res × State) :=
  match o with
  | .store ctx o =>
    match ch.interrupts ctx with
    | some cause => some (.error (.ctx cause), s)
    | none => (o.apply x ch.order s.clock s.store).map fun (r, store) => (r, { s with store })
  | .now => some (s.clock, s)
  | .append ctx tenantID event =>
    match ch.fault ctx with
    | some err => some (.error err, s)
    | none =>
      let (r, audits) := Audit.append x.hashing tenantID s.audits event
      some (r, { s with audits })
  | .reserve ctx value =>
    match ch.fault ctx with
    | some err => some (.error err, s)
    | none =>
      let (r, handoffs) := Audit.reserve s.clock s.handoffs value
      some (r, { s with handoffs })
  | .finalize ctx value =>
    match ch.fault ctx with
    | some err => some (.error err, s)
    | none =>
      let (r, handoffs) := Audit.finalize s.clock s.handoffs value
      some (r, { s with handoffs })
  | .env e => (e.answer ch).map fun r => (r, s)

/-- The machine of the platform. The environment moves the clock forward. -/
abbrev platform (x : Externals) : Machine where
  State := State
  Op := Op
  Res := Op.Res
  Choice := Choice
  perform := perform x
  Move := ℕ
  advance n s := { s with clock := s.clock + n }

/-- A program of the services. -/
abbrev Code (x : Externals) (α : Type) := Program (platform x) α

/-- One performed operation of the platform. -/
abbrev Entry (x : Externals) := (platform x).Entry

variable {x : Externals}

/-- Perform an operation of the runtime store. -/
def storeOp (ctx : Ctx) (o : StoreOp) : Code x (Except Err o.Val) :=
  Program.perform (M := platform x) (.store ctx o)

/-- Perform an operation outside the service. -/
def envOp (e : EnvOp) : Code x e.Res := Program.perform (M := platform x) (.env e)

/-- `uuid.NewString()`. -/
def newUUID : Code x String := envOp .newUUID

/-- `observability.TraceParentFromContext`. -/
def traceParentFromContext : Code x String := envOp .traceParentFromContext

/-- The select of `forward`. -/
def selectRunner : Code x (Option CtxErr) := envOp .select

/-- Read the clock. -/
def timeNow : Code x ℤ := Program.perform (M := platform x) .now

/-- Append an event to the audit store of a tenant. -/
def appendAudit (ctx : Ctx) (tenantID : String) (event : Audit.Event) :
    Code x (Except Audit.Err Audit.AppendResult) :=
  Program.perform (M := platform x) (.append ctx tenantID event)

/-- Reserve a handoff. -/
def reserveOp (ctx : Ctx) (value : Audit.ExecutionHandoff) :
    Code x (Except Audit.Err Audit.ExecutionHandoff) :=
  Program.perform (M := platform x) (.reserve ctx value)

/-- Finalize a handoff. -/
def finalizeOp (ctx : Ctx) (value : Audit.ExecutionHandoff) :
    Code x (Except Audit.Err Audit.ExecutionHandoff) :=
  Program.perform (M := platform x) (.finalize ctx value)

section Obeys

variable {Pre : List (Entry x) → Op → Prop} {log : List (Entry x)} {ctx : Ctx}

/-- The discipline of one operation of the runtime store. -/
@[simp] theorem obeys_storeOp {o : StoreOp} {Post : List (Entry x) → Except Err o.Val → Prop} :
    (storeOp ctx o).Obeys Pre Post log ↔ Pre log (.store ctx o) ∧
      ∀ pre (r : Except Err o.Val) post, (platform x).Performs (.store ctx o) pre r post →
        Post (log ++ [⟨.store ctx o, r, pre, post⟩]) r := Iff.rfl

/-- The discipline of one operation outside the service. -/
@[simp] theorem obeys_envOp {e : EnvOp} {Post : List (Entry x) → e.Res → Prop} :
    (envOp e).Obeys Pre Post log ↔ Pre log (.env e) ∧
      ∀ pre (r : e.Res) post, (platform x).Performs (.env e) pre r post →
        Post (log ++ [⟨.env e, r, pre, post⟩]) r := Iff.rfl

variable {Post : List (Entry x) → String → Prop}

/-- The discipline of a new UUID. -/
@[simp] theorem obeys_newUUID : newUUID.Obeys Pre Post log ↔ Pre log (.env .newUUID) ∧
      ∀ pre (r : String) post, (platform x).Performs (.env .newUUID) pre r post →
        Post (log ++ [⟨.env .newUUID, r, pre, post⟩]) r := Iff.rfl

/-- The discipline of a reading of the trace parent. -/
@[simp] theorem obeys_traceParentFromContext :
    traceParentFromContext.Obeys Pre Post log ↔ Pre log (.env .traceParentFromContext) ∧
      ∀ pre (r : String) post, (platform x).Performs (.env .traceParentFromContext) pre r post →
        Post (log ++ [⟨.env .traceParentFromContext, r, pre, post⟩]) r := Iff.rfl

/-- The discipline of the select of `forward`. -/
@[simp] theorem obeys_selectRunner {Post : List (Entry x) → Option CtxErr → Prop} :
    selectRunner.Obeys Pre Post log ↔ Pre log (.env .select) ∧
      ∀ pre (r : Option CtxErr) post, (platform x).Performs (.env .select) pre r post →
        Post (log ++ [⟨.env .select, r, pre, post⟩]) r := Iff.rfl

/-- The discipline of a reading of the clock. -/
@[simp] theorem obeys_timeNow {Post : List (Entry x) → ℤ → Prop} :
    timeNow.Obeys Pre Post log ↔ Pre log .now ∧
      ∀ pre (r : ℤ) post, (platform x).Performs .now pre r post →
        Post (log ++ [⟨.now, r, pre, post⟩]) r := Iff.rfl

/-- The discipline of an audit append. -/
@[simp] theorem obeys_appendAudit {tenantID : String} {event : Audit.Event}
    {Post : List (Entry x) → Except Audit.Err Audit.AppendResult → Prop} :
    (appendAudit ctx tenantID event).Obeys Pre Post log ↔ Pre log (.append ctx tenantID event) ∧
      ∀ pre (r : Except Audit.Err Audit.AppendResult) post,
        (platform x).Performs (.append ctx tenantID event) pre r post →
        Post (log ++ [⟨.append ctx tenantID event, r, pre, post⟩]) r := Iff.rfl

/-- The discipline of a finalization. -/
@[simp] theorem obeys_finalizeOp {value : Audit.ExecutionHandoff}
    {Post : List (Entry x) → Except Audit.Err Audit.ExecutionHandoff → Prop} :
    (finalizeOp ctx value).Obeys Pre Post log ↔ Pre log (.finalize ctx value) ∧
      ∀ pre (r : Except Audit.Err Audit.ExecutionHandoff) post,
        (platform x).Performs (.finalize ctx value) pre r post →
        Post (log ++ [⟨.finalize ctx value, r, pre, post⟩]) r := Iff.rfl

end Obeys

end AgentService.Platform
