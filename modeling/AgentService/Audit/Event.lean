import AgentService.Storage.Contract
import Mathlib.Algebra.Group.Int.Defs

/-!
# Audit events

The events of `trpcservice/audit/audit.go` and the contract that `Event.Validate` checks. An event
type, a decision, or a result is a string in the source and a value of an enumeration here, with
`other` for a string outside the contract; an optional `*int64` is an `Option`. Instants are UTC, so
the location test of `validIdentity` always passes.
-/

namespace AgentService.Audit

open Storage (CtxErr)

/-- `SchemaVersion`. -/
def schemaVersion : ℤ := 1

/-- The errors of the audit store and the handoff store. -/
inductive Err where
  | invalid
  | tenantScope
  | notFound
  | conflict
  | handoffNotFound
  | handoffConflict
  | unavailable
  | ctx (cause : CtxErr)
  deriving DecidableEq

/-- `EventType`. -/
inductive EventType where
  | controlPlaneChanged
  | executionStarted
  | executionCompleted
  | executionFailed
  | executionCanceled
  | executionTimedOut
  | executionFallback
  | canarySelected
  | toolAllowed
  | toolDenied
  | toolApprovalRequired
  | imAuthorizationAllowed
  | imAuthorizationDenied
  | imIngressAccepted
  | imIngressDuplicate
  | imDeliverySent
  | imDeliveryRetryScheduled
  | imDeliveryDeadLettered
  | imDeliveryReconciled
  | budgetRejected
  | contentRedacted
  | auditIncomplete
  | other (value : String)
  deriving DecidableEq

/-- The text of an event type. -/
def EventType.text : EventType → String
  | .controlPlaneChanged => "control_plane.changed"
  | .executionStarted => "execution.started"
  | .executionCompleted => "execution.completed"
  | .executionFailed => "execution.failed"
  | .executionCanceled => "execution.canceled"
  | .executionTimedOut => "execution.timed_out"
  | .executionFallback => "execution.fallback"
  | .canarySelected => "execution.canary_selected"
  | .toolAllowed => "tool.allowed"
  | .toolDenied => "tool.denied"
  | .toolApprovalRequired => "tool.approval_required"
  | .imAuthorizationAllowed => "im.authorization_allowed"
  | .imAuthorizationDenied => "im.authorization_denied"
  | .imIngressAccepted => "im.ingress_accepted"
  | .imIngressDuplicate => "im.ingress_duplicate"
  | .imDeliverySent => "im.delivery_sent"
  | .imDeliveryRetryScheduled => "im.delivery_retry_scheduled"
  | .imDeliveryDeadLettered => "im.delivery_dead_lettered"
  | .imDeliveryReconciled => "im.delivery_reconciled"
  | .budgetRejected => "budget.rejected"
  | .contentRedacted => "content.redacted"
  | .auditIncomplete => "audit_incomplete"
  | .other value => value

/-- `Decision`, with `other ""` for no decision. -/
inductive Decision where
  | allow
  | deny
  | approvalRequired
  | accepted
  | duplicate
  | rejected
  | other (value : String)
  deriving DecidableEq

/-- `ExecutionResult`, with `other ""` for no result. -/
inductive ExecutionResult where
  | success
  | failure
  | canceled
  | timeout
  | rejected
  | other (value : String)
  deriving DecidableEq

/-- `Usage`. -/
structure Usage where
  inputTokens : Option ℤ := none
  outputTokens : Option ℤ := none
  modelCostMinor : Option ℤ := none
  toolCostMinor : Option ℤ := none
  currency : String := ""
  budgetUsedTokens : Option ℤ := none
  budgetUsedMinor : Option ℤ := none
  executionResult : ExecutionResult := .other ""
  provider : String := ""
  model : String := ""
  deriving DecidableEq

/-- `Event`. -/
structure Event where
  schemaVersion : ℤ := 0
  eventID : String := ""
  eventType : EventType
  tenantID : String := ""
  channel : String := ""
  userID : String := ""
  sessionID : String := ""
  agentAppID : String := ""
  revision : Option ℤ := none
  modelProfileID : String := ""
  toolName : String := ""
  decision : Decision := .other ""
  latencyMS : Option ℤ := none
  errorType : String := ""
  cost : Option Usage := none
  requestID : String := ""
  traceID : String := ""
  correlationID : String := ""
  actorType : String := ""
  actorID : String := ""
  reason : String := ""
  previousVersion : Option ℤ := none
  nextVersion : Option ℤ := none
  occurredAt : ℤ := 0
  deriving DecidableEq

/-! ## Text checks -/

/-- `hasControl`: a character of the category Cc. -/
def hasControl (value : String) : Bool :=
  (Go.runes value).any fun r => r.toNat < 0x20 ∨ (0x7f ≤ r.toNat ∧ r.toNat < 0xa0)

/-- `clean`. -/
def clean (value : String) : String := Go.trimSpace value

/-- `strings.ToLower`, up to characters that have no ASCII letter as their lower case. The two
characters outside ASCII that do are the dotted capital I and the Kelvin sign. -/
def toLower (r : Char) : Char :=
  if 'A' ≤ r ∧ r ≤ 'Z' then Char.ofNat (r.toNat + 32)
  else if r.toNat = 0x130 then 'i'
  else if r.toNat = 0x212A then 'k'
  else r

/-- `strings.Contains`, on characters. -/
def contains (value phrase : List Char) : Bool :=
  match value with
  | [] => phrase.isEmpty
  | r :: rest => phrase.isPrefixOf (r :: rest) || contains rest phrase

/-- `strings.FieldsFunc` for the separators of `containsSensitiveWords`: the maximal runs of the
letters `a` to `z`. `word` holds the letters of the current run, the last one first. -/
def lowerWords : List Char → List Char → List (List Char)
  | word, [] => if word.isEmpty then [] else [word.reverse]
  | word, r :: rest =>
    if r < 'a' ∨ r > 'z' then
      if word.isEmpty then lowerWords [] rest else word.reverse :: lowerWords [] rest
    else lowerWords (r :: word) rest

/-- The phrases of `containsSensitivePhrase`. -/
def sensitivePhrases : List String :=
  ["://", "authorization", "bearer ", "api_key", "api-key", "token=", "secret=", "secret_ref",
    "password=", "dsn=", "provider error"]

/-- `containsSensitivePhrase`. -/
def containsSensitivePhrase (value : List Char) : Bool :=
  sensitivePhrases.any fun phrase => contains value phrase.toList

/-- Whether `word`, followed by `next`, is one of the pairs of `containsSensitiveWords`. -/
def sensitivePair (word next : List Char) : Bool :=
  word = "bearer".toList ∨ word = "authorization".toList ∨ word = "token".toList ∨
    word = "secret".toList ∨ word = "password".toList ∨ word = "dsn".toList ∨
    (word = "api".toList ∧ next = "key".toList)

/-- The loop of `containsSensitiveWords`. -/
def sensitiveWords : List (List Char) → Bool
  | word :: next :: rest => sensitivePair word next || sensitiveWords (next :: rest)
  | _ => false

/-- `containsSensitive`, for one value. -/
def isSensitive (value : String) : Bool :=
  let lower := (Go.runes value).map toLower
  containsSensitivePhrase lower || sensitiveWords (lowerWords [] lower)

/-! ## Validation -/

/-- `validEventType`. -/
def validEventType : EventType → Bool
  | .other _ => false
  | _ => true

/-- `validDecision`. -/
def validDecision : Decision → Bool
  | .other _ => false
  | _ => true

/-- `validResult`. -/
def validResult : ExecutionResult → Bool
  | .other _ => false
  | _ => true

/-- The error types of the audit contract. -/
def errorTypes : List String :=
  ["canceled", "timeout", "invalid", "unauthenticated", "rate_limited", "duplicate", "unavailable",
    "storage", "model", "tool", "provider_error", "budget", "redacted", "conflict"]

/-- `validErrorType`. -/
def validErrorType (value : String) : Bool := value ∈ errorTypes

/-- `iso4217`. -/
def iso4217 : List String :=
  ["AED", "AFN", "ALL", "AMD", "ANG", "AOA", "ARS", "AUD", "AWG", "AZN", "BAM", "BBD", "BDT",
    "BGN", "BHD", "BIF", "BMD", "BND", "BOB", "BOV", "BRL", "BSD", "BTN", "BWP", "BYN", "BZD",
    "CAD", "CDF", "CHE", "CHF", "CHW", "CLF", "CLP", "CNY", "COP", "COU", "CRC", "CUC", "CUP",
    "CVE", "CZK", "DJF", "DKK", "DOP", "DZD", "EGP", "ERN", "ETB", "EUR", "FJD", "FKP", "GBP",
    "GEL", "GHS", "GIP", "GMD", "GNF", "GTQ", "GYD", "HKD", "HNL", "HTG", "HUF", "IDR", "ILS",
    "INR", "IQD", "IRR", "ISK", "JMD", "JOD", "JPY", "KES", "KGS", "KHR", "KMF", "KPW", "KRW",
    "KWD", "KYD", "KZT", "LAK", "LBP", "LKR", "LRD", "LSL", "LYD", "MAD", "MDL", "MGA", "MKD",
    "MMK", "MNT", "MOP", "MRU", "MUR", "MVR", "MWK", "MXN", "MXV", "MYR", "MZN", "NAD", "NGN",
    "NIO", "NOK", "NPR", "NZD", "OMR", "PAB", "PEN", "PGK", "PHP", "PKR", "PLN", "PYG", "QAR",
    "RON", "RSD", "RUB", "RWF", "SAR", "SBD", "SCR", "SDG", "SEK", "SGD", "SHP", "SLE", "SLL",
    "SOS", "SRD", "SSP", "STN", "SVC", "SYP", "SZL", "THB", "TJS", "TMT", "TND", "TOP", "TRY",
    "TTD", "TWD", "TZS", "UAH", "UGX", "USD", "USN", "UYI", "UYU", "UYW", "UZS", "VED", "VES",
    "VND", "VUV", "WST", "XAF", "XAG", "XAU", "XBA", "XBB", "XBC", "XBD", "XCD", "XDR", "XOF",
    "XPD", "XPF", "XPT", "XSU", "XTS", "XUA", "XXX", "YER", "ZAR", "ZMW", "ZWG"]

/-- `validCurrency`. -/
def validCurrency (value : String) : Bool := value ∈ iso4217

/-- `Usage.Validate`, as whether it passes. -/
def Usage.valid (u : Usage) : Bool :=
  ([u.inputTokens, u.outputTokens, u.modelCostMinor, u.toolCostMinor, u.budgetUsedTokens,
      u.budgetUsedMinor].all fun value => value.all fun n => 0 ≤ n) &&
    !((u.modelCostMinor.isSome || u.toolCostMinor.isSome || u.budgetUsedMinor.isSome) &&
        !validCurrency u.currency ||
      u.executionResult ≠ .other "" && !validResult u.executionResult) &&
    [u.currency, u.provider, u.model].all fun value =>
      !(hasControl value || contains (Go.runes value) "://".toList || isSensitive value)

namespace Event

/-- `validIdentity`. -/
def validIdentity (e : Event) : Bool :=
  e.schemaVersion = Audit.schemaVersion ∧ e.eventID = clean e.eventID ∧
    e.tenantID = clean e.tenantID ∧ clean e.eventID ≠ "" ∧ clean e.tenantID ≠ "" ∧
    validEventType e.eventType ∧ e.occurredAt ≠ 0

/-- The text fields that `validFields` and `validMetadata` walk, in their order. -/
def texts (e : Event) : List String :=
  [e.eventID, e.tenantID, e.channel, e.userID, e.sessionID, e.agentAppID, e.modelProfileID,
    e.toolName, e.errorType, e.requestID, e.traceID, e.correlationID, e.actorType, e.actorID,
    e.reason]

/-- `validFields`. -/
def validFields (e : Event) : Bool :=
  (e.texts.all fun value => !hasControl value) && (e.latencyMS.all fun n => 0 ≤ n) &&
    e.revision.all fun n => 0 ≤ n

/-- `validVersions`. -/
def validVersions (e : Event) : Bool :=
  match e.previousVersion, e.nextVersion with
  | none, none => true
  | some previous, some next => 0 ≤ previous ∧ previous ≠ 2^63 - 1 ∧ next = previous + 1
  | _, _ => false

/-- `validControlPlaneMetadata`. -/
def validControlPlaneMetadata (e : Event) : Bool :=
  e.eventType ≠ .controlPlaneChanged ∨
    (clean e.actorType ≠ "" ∧ clean e.actorID ≠ "" ∧ clean e.reason ≠ "" ∧
      clean e.correlationID ≠ "" ∧ e.previousVersion.isSome)

/-- `validMetadata`. -/
def validMetadata (e : Event) : Bool :=
  (Go.runes (Go.trimSpace e.reason)).length ≤ 1000 &&
    (e.decision = .other "" || validDecision e.decision) &&
    (e.errorType = "" || validErrorType e.errorType) &&
    !(e.texts.any isSensitive) && e.cost.all Usage.valid

/-- `Event.Validate`. -/
def validate (e : Event) : Option Err :=
  if !e.validIdentity then some .invalid
  else if !e.validFields || !e.validVersions || !e.validControlPlaneMetadata then some .invalid
  else if !e.validMetadata then some .invalid
  else none

end Event

end AgentService.Audit
