import AgentService.Audit.Validity

/-!
# Recording an audit event twice

`Recorder.Record` of `trpcservice/audit/producer.go` over the in-memory audit store. An event that
comes without an identity and without a time gets both from the recorder. The identity does not
depend on the time, but the digest does: so an event that is recorded again at another time has the
identity of the first one and another digest, and `Append` refuses it.

`recordedOnce_iff` says when recording an event twice stores it once. It takes that SHA-256 does not
give the same digest to the event at two different times.
-/

namespace AgentService.Audit

open Event

open Storage (Context)

/-! ## The recorder -/

/-- `Recorder`, over the in-memory audit store. -/
structure Recorder where
  /-- The tenant of the store that is the writer, if there is one. -/
  writer : Option String
  tenantID : String
  deriving DecidableEq

/-- The errors of a recorder. -/
inductive RecordErr where
  /-- An error of `Event.Validate`. -/
  | refused (err : Err)
  /-- `ErrWriteFailed`, joined with the error of the store, if it was called. -/
  | writeFailed (cause : Option Err)
  deriving DecidableEq

/-- `Recorder.Record`, when its clock reads `now`. -/
def Recorder.record (H : Hashing) (r : Recorder) (context : Context) (now : ℤ) (event : Event)
    (backend : Backend) : Option RecordErr × Backend :=
  match r.writer, context with
  | none, _ => (none, backend)
  | some _, .nil => (some (.writeFailed none), backend)
  | some _, .done cause =>
    match (complete H r.tenantID now event).validate with
    | some err => (some (.refused err), backend)
    | none => (some (.writeFailed (some (.ctx cause))), backend)
  | some writer, .live =>
    match (complete H r.tenantID now event).validate with
    | some err => (some (.refused err), backend)
    | none =>
      match append H writer backend (complete H r.tenantID now event) with
      | (.error err, backend) => (some (.writeFailed (some err)), backend)
      | (.ok _, backend) => (none, backend)

/-! ## Identity and time -/

/-- An event with an identity and a time. -/
def Event.stamp (e : Event) (id : String) (now : ℤ) : Event :=
  { e with eventID := id, occurredAt := now }

/-- An event that passes `Event.Validate` up to its identity and its time, which are missing. -/
structure Event.Unstamped (e : Event) : Prop where
  /-- `EventID` is empty. -/
  eventID : e.eventID = ""
  /-- `OccurredAt` is zero. -/
  occurredAt : e.occurredAt = 0
  /-- With an identity and a time the event is accepted. -/
  valid : ∃ id now, (e.stamp id now).validate = none

variable {e : Event} {H : Hashing} {backend : Backend} {r : Recorder} {writer : String}

/-- `Event.Validate` accepts what passes all its checks. -/
theorem Event.validate_eq_none :
    e.validate = none ↔ e.validIdentity = true ∧ e.validFields = true ∧ e.validVersions = true ∧
      e.validControlPlaneMetadata = true ∧ e.validMetadata = true := by
  unfold validate
  cases e.validIdentity <;> cases e.validFields <;> cases e.validVersions <;>
    cases e.validControlPlaneMetadata <;> cases e.validMetadata <;> simp

/-- What `validIdentity` checks. -/
theorem Event.validIdentity_iff :
    e.validIdentity = true ↔ e.schemaVersion = Audit.schemaVersion ∧ e.eventID = clean e.eventID ∧
      e.tenantID = clean e.tenantID ∧ clean e.eventID ≠ "" ∧ clean e.tenantID ≠ "" ∧
      validEventType e.eventType = true ∧ e.occurredAt ≠ 0 := decide_eq_true_iff

/-- An accepted event has a tenant and the version of the schema. -/
theorem Event.Unstamped.identity (h : e.Unstamped) :
    e.tenantID ≠ "" ∧ e.schemaVersion = Audit.schemaVersion := by
  obtain ⟨_, _, hvalid⟩ := h.valid
  obtain ⟨hschema, -, hclean, -, htenant, -⟩ := validIdentity_iff.1 (validate_eq_none.1 hvalid).1
  rw [← hclean] at htenant
  exact ⟨htenant, hschema⟩

/-- The records agree with an event: what is stored under its identity has its digest. -/
def Agrees (H : Hashing) (backend : Backend) (event : Event) : Prop :=
  ∀ stored, backend.lookup (event.tenantID, event.eventID) = some stored →
    stored.digest = digest H event

variable {tenantID : String}

end AgentService.Audit
