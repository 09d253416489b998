import AgentService.Platform.Machine

/-!
# The reply materializer

`trpcservice/runtime/outbox/materializer.go`: a completed reply becomes one batch of durable
segments. The segment size is at least one (`newMaterializer`), and the sums of sizes and lengths
that the loop of `splitRunes` forms stay within an `int` for sizes up to `2^31`.
-/

namespace AgentService.Outbox

open Storage Platform

/-- `defaultSegmentRunes`. -/
def defaultSegmentRunes : ℤ := 512

/-- `Materializer`. -/
structure Materializer where
  /-- The largest number of code points of a segment. -/
  segmentSize : ℕ
  /-- There is room for one code point. -/
  segmentSize_pos : 0 < segmentSize

/-- `NewMaterializer`, for a store that is not nil. -/
def newMaterializer (segmentSize : ℤ) : Materializer :=
  if h : segmentSize ≤ 0 then ⟨defaultSegmentRunes.toNat, by decide⟩
  else ⟨segmentSize.toNat, by omega⟩

/-- `MaterializeInput`. -/
structure MaterializeInput where
  tenantID : String
  eventID : String
  replyID : String
  requestID : String
  traceID : String
  traceParent : String
  payload : String
  replyTarget : ReplyTarget

/-- The errors of `Materialize`. -/
inductive MaterializeErr where
  | invalid
  /-- `ErrMaterialization`, joined with the stable class of its cause if it has one. -/
  | materialization (cause : Option Err)
  deriving DecidableEq

/-- `redactedMaterializationError`. -/
def redactedMaterializationError : Err → MaterializeErr
  | .illegalTransition => .materialization none
  | err => .materialization (some err)

/-- `splitRunes`. -/
def splitRunes (value : String) (size : ℕ) : List String :=
  if Go.trimSpace value = "" then []
  else (Go.chunks size (Go.runes value).length (Go.runes value)).map String.ofList

/-- The rows of a batch: one for each segment, in order, numbered from `index`. -/
def batch (input : MaterializeInput) (count : ℕ) : ℕ → List String → List ReplyOutbox
  | _, [] => []
  | index, payload :: segments =>
    { tenantID := input.tenantID, replyID := input.replyID, eventID := input.eventID,
      segmentIndex := index, segmentCount := count, payload := payload,
      replyTarget := input.replyTarget } :: batch input count (index + 1) segments

variable {x : Externals}

/-- The trace parent that `Materialize` stores: of the context when the input has none. -/
def materializeTraceParent (input : MaterializeInput) : Code x String :=
  if input.traceParent = "" then traceParentFromContext
  else return x.normalizeTraceParent input.traceParent

/-- `EnqueueRepliesWithCorrelation` under a detached context. -/
def enqueueCorrelated (correlation : ReplyCorrelation) (replies : List ReplyOutbox) :
    Code x (Except Err (List ReplyOutbox)) :=
  storeOp .background (.enqueueRepliesWithCorrelation correlation replies)

/-- `EnqueueReplies` under a detached context. -/
def enqueueUncorrelated (replies : List ReplyOutbox) : Code x (Except Err (List ReplyOutbox)) :=
  storeOp .background (.enqueueReplies replies)

/-- The store operation of `Materialize`, with the correlation of the request if there is one. -/
def enqueueBatch (input : MaterializeInput) (replies : List ReplyOutbox) :
    Code x (Except Err (List ReplyOutbox)) :=
  if input.requestID ≠ "" then do
    let traceParent ← materializeTraceParent input
    enqueueCorrelated
      ⟨input.tenantID, input.eventID, input.requestID, input.traceID, traceParent⟩ replies
  else enqueueUncorrelated replies

/-- `Materializer.Materialize`. -/
def Materializer.materialize (m : Materializer) (input : MaterializeInput) :
    Code x (Except MaterializeErr ℕ) :=
  if validateTenant input.tenantID ≠ none ∨ input.eventID = "" ∨ input.replyID = "" ∨
      validateReplyTarget input.replyTarget ≠ none then
    return .error .invalid
  else
    let segments := splitRunes input.payload m.segmentSize
    if segments = [] then return .error .invalid
    else do
      match ← enqueueBatch input (batch input segments.length 0 segments) with
      | .error err => return .error (redactedMaterializationError err)
      | .ok _ => return .ok segments.length

end AgentService.Outbox
