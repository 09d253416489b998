import AgentService.Audit.Event
import Mathlib.Algebra.Group.Nat.Defs
import Mathlib.Data.List.AList

/-!
# The audit store, event identities, and execution handoffs

The in-memory store of `trpcservice/audit/audit.go`, the identities of
`trpcservice/audit/producer.go`, and the handoff store of `trpcservice/audit/handoff.go`. SHA-256
and the JSON form of an event are parameters (`Hashing`): nothing below depends on which functions
they are, except that a digest decides whether a repeated event is a duplicate or a conflict.
-/

namespace AgentService.Audit

/-- SHA-256, and `json.Marshal` of an event. -/
structure Hashing where
  /-- `sha256.Sum256`. -/
  sha256 : List UInt8 → List UInt8
  /-- `json.Marshal` of an event. -/
  marshal : Event → List UInt8

/-! ## Identities and digests -/

/-- A hexadecimal digit. -/
def hexDigit (n : ℕ) : Char := if n < 10 then Char.ofNat (0x30 + n) else Char.ofNat (0x57 + n)

/-- `hex.EncodeToString`, as characters. -/
def hexEncode (bytes : List UInt8) : List Char :=
  bytes.flatMap fun b => [hexDigit (b.toNat / 16), hexDigit (b.toNat % 16)]

/-- The bytes of a string. -/
def bytes (s : String) : List UInt8 := s.toByteArray.data.toList

/-- A part with its length in four bytes in front. -/
def delimited (part : String) : List UInt8 :=
  let n := part.utf8ByteSize
  [UInt8.ofNat (n / 2^24), UInt8.ofNat (n / 2^16), UInt8.ofNat (n / 2^8), UInt8.ofNat n] ++ bytes part

/-- `NewEventID`. -/
def newEventID (H : Hashing) (parts : List String) : String :=
  "audit_" ++ String.ofList ((hexEncode (H.sha256 (parts.flatMap delimited))).take 32)

/-- `Event.Digest` of a valid event. -/
def digest (H : Hashing) (e : Event) : String :=
  String.ofList (hexEncode (H.sha256 (H.marshal e)))

/-! ## The store -/

/-- A stored event with its digest. -/
structure Record where
  event : Event
  digest : String
  deriving DecidableEq

/-- `Backend`: the records of all tenants, by tenant and event. -/
abbrev Backend := AList fun _ : String × String => Record

/-- `AppendResult`, without the copy of the event. -/
structure AppendResult where
  duplicate : Bool
  digest : String
  deriving DecidableEq

/-- `Store.Append` of the store of `tenantID` over a backend. -/
def append (H : Hashing) (tenantID : String) (backend : Backend) (event : Event) :
    Except Err AppendResult × Backend :=
  if tenantID = "" ∨ event.tenantID ≠ tenantID then (.error .tenantScope, backend)
  else
    match event.validate with
    | some err => (.error err, backend)
    | none =>
      match backend.lookup (event.tenantID, event.eventID) with
      | some existing =>
        if existing.digest ≠ digest H event then (.error .conflict, backend)
        else (.ok ⟨true, digest H event⟩, backend)
      | none =>
        (.ok ⟨false, digest H event⟩,
          backend.insert (event.tenantID, event.eventID) ⟨event, digest H event⟩)

/-- The event that `Recorder.Record` appends: the recorder's tenant, the schema version, the derived
identity, and the time, where the event does not carry its own. -/
def complete (H : Hashing) (tenantID : String) (now : ℤ) (event : Event) : Event :=
  let event := if event.tenantID = "" then { event with tenantID := clean tenantID } else event
  let event :=
    if event.schemaVersion = 0 then { event with schemaVersion := schemaVersion } else event
  let parts := [event.eventType.text, event.requestID, event.traceID, event.correlationID]
  let event := if event.eventID = "" then { event with eventID := newEventID H parts } else event
  if event.occurredAt = 0 then { event with occurredAt := now } else event

/-- The event of `Recorder.IM`. -/
def imEvent (eventType : EventType) (requestID traceID userID sessionID : String)
    (decision : Decision) (errorType : String) : Event :=
  { eventType := eventType, requestID := requestID, traceID := traceID, userID := userID,
    sessionID := sessionID, decision := decision, errorType := errorType }

/-! ## Handoffs -/

/-- `HandoffState`, with `other` for a string outside the contract. -/
inductive HandoffState where
  | pending
  | finalized
  | repairable
  | other (value : String)
  deriving DecidableEq

/-- `ExecutionHandoff`, without the latency and the cost, which the dispatcher never sets. -/
structure ExecutionHandoff where
  tenantID : String
  handoffID : String
  requestID : String := ""
  traceID : String := ""
  eventID : String := ""
  state : HandoffState
  result : ExecutionResult := .other ""
  errorType : String := ""
  createdAt : ℤ := 0
  updatedAt : ℤ := 0
  deriving DecidableEq

/-- The values of `InMemoryHandoffStore`. -/
abbrev Handoffs := AList fun _ : String => ExecutionHandoff

/-- The key of a handoff. -/
def handoffKey (tenantID handoffID : String) : String := tenantID ++ "\x00" ++ handoffID

/-- `InMemoryHandoffStore.Reserve`. -/
def reserve (now : ℤ) (values : Handoffs) (value : ExecutionHandoff) :
    Except Err ExecutionHandoff × Handoffs :=
  if value.tenantID = "" ∨ value.handoffID = "" ∨ value.requestID = "" ∨ value.state ≠ .pending then
    (.error .invalid, values)
  else
    match values.lookup (handoffKey value.tenantID value.handoffID) with
    | some old =>
      if old.requestID = value.requestID then (.ok old, values)
      else (.error .handoffConflict, values)
    | none =>
      let value := { value with createdAt := now, updatedAt := now }
      (.ok value, values.insert (handoffKey value.tenantID value.handoffID) value)

/-- `InMemoryHandoffStore.Finalize`: the first result stays. -/
def finalize (now : ℤ) (values : Handoffs) (value : ExecutionHandoff) :
    Except Err ExecutionHandoff × Handoffs :=
  if value.tenantID = "" ∨ value.handoffID = "" ∨ value.state ≠ .finalized then
    (.error .invalid, values)
  else
    match values.lookup (handoffKey value.tenantID value.handoffID) with
    | none => (.error .handoffNotFound, values)
    | some old =>
      if old.state = .finalized then (.ok old, values)
      else
        let value := { value with
          createdAt := old.createdAt, updatedAt := now, requestID := old.requestID,
          traceID := old.traceID, eventID := old.eventID }
        (.ok value, values.insert (handoffKey value.tenantID value.handoffID) value)

end AgentService.Audit
