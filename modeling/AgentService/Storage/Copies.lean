import AgentService.Go.Any
import AgentService.Storage.Contract

/-!
# What survives the copies of the in-memory store

The in-memory store copies a map by encoding it to JSON and decoding it again (`cloneMap` of
`trpcservice/runtime/storage/inmemory/inmemory.go`), which changes some values. Two places compare
or convert what comes back.

The first is `AppendAudit` of `inmemory/capabilities.go`: a record with an identifier that is there
is compared with the copy, as it came and before it is copied itself
(`appendAudit_idempotent_iff`). The second is the state of a session: `stateToAny` and `anyToState`
of `trpcservice/runtime/sessionpostgres/service.go` carry byte strings through the copy
(`roundTrip_eq_iff`).
-/

namespace AgentService.Storage

open Go (Any Entries AnyJson)

variable {F : Type} (json : AnyJson F)

/-- `cloneMap`, with `none` for a nil map. -/
def cloneMap (input : Option (Entries F)) : Option (Entries F) := input.bind (Entries.copy json)

/-! ## The state of a session -/

/-- `session.StateMap`, in the order of its keys. A nil value is an empty one. -/
abbrev StateMap := List (String × List UInt8)

/-- `append([]byte(nil), data...)`: a copy of nothing is nil. -/
def appendNil (data : List UInt8) : Option (List UInt8) := if data = [] then none else some data

/-- `stateToAny`. -/
def stateToAny : StateMap → Entries F
  | [] => .nil
  | (key, data) :: rest => .cons key (.bytes (appendNil data)) (stateToAny rest)

/-- The value that `anyToState` stores under a key. -/
def anyToBytes : Any F → Option (List UInt8)
  | .bytes raw => some (raw.getD [])
  | .str encoded => some ((Go.decodeString encoded).getD encoded.toUTF8.data.toList)
  | data => json.marshal data

/-- `anyToState`. -/
def anyToState : Entries F → StateMap
  | .nil => []
  | .cons key data rest =>
    match anyToBytes json data with
    | some value => (key, value) :: anyToState rest
    | none => anyToState rest

/-- A state that is stored and read: `CreateSession` keeps a copy, and `GetSession` returns a copy
of it. -/
def roundTrip (state : StateMap) : StateMap :=
  anyToState json ((cloneMap json (cloneMap json (some (stateToAny state)))).getD .nil)

/-- What comes back of a value. -/
def returned (data : List UInt8) : List UInt8 := if data = [] then [110, 117, 108, 108] else data

/-- A state comes back with its keys, and with `null` for what is empty. -/
theorem roundTrip_eq (state : StateMap) :
    roundTrip json state = state.map fun entry => (entry.1, returned entry.2) := by
  -- both copies succeed, and the second one changes nothing
  have hcopy : ∀ state : StateMap, ∃ stored, (stateToAny state : Entries F).copy json = some stored ∧
      anyToState json stored = state.map fun entry => (entry.1, returned entry.2) := by
    intro state
    induction state with
    | nil => exact ⟨.nil, rfl, rfl⟩
    | cons entry rest ih =>
      obtain ⟨stored, hstored, hread⟩ := ih
      obtain ⟨key, data⟩ := entry
      by_cases hdata : data = []
      · refine ⟨.cons key .null stored, ?_, ?_⟩
        · simp [stateToAny, appendNil, hdata, Entries.copy, Any.copy, hstored]
        · simp [anyToState, anyToBytes, json.marshal_null, hread, returned, hdata]
      · refine ⟨.cons key (.str (String.ofList (Go.base64 data))) stored, ?_, ?_⟩
        · simp [stateToAny, appendNil, hdata, Entries.copy, Any.copy, hstored]
        · simp [anyToState, anyToBytes, Go.decodeString_base64, hread, returned, hdata]
  obtain ⟨stored, hstored, hread⟩ := hcopy state
  have htwice : cloneMap json (cloneMap json (some (stateToAny state))) = some stored := by
    simp [cloneMap, hstored, Entries.copy_copy json _ _ hstored]
  rw [roundTrip, htwice, Option.getD_some, hread]

/-- A state comes back as it was exactly when none of its values is empty. -/
theorem roundTrip_eq_iff (state : StateMap) :
    roundTrip json state = state ↔ ∀ entry ∈ state, entry.2 ≠ [] := by
  have hreturned : ∀ data, returned data = data ↔ data ≠ [] := by
    intro data
    by_cases hdata : data = []
    · simp [returned, hdata]
    · simp [returned, hdata]
  rw [roundTrip_eq]
  calc state.map (fun entry => (entry.1, returned entry.2)) = state
      ↔ state.map (fun entry => (entry.1, returned entry.2)) = state.map id := by rw [List.map_id]
    _ ↔ ∀ entry ∈ state, (entry.1, returned entry.2) = id entry := List.map_inj_left
    _ ↔ ∀ entry ∈ state, entry.2 ≠ [] := by simp [Prod.ext_iff, hreturned]

/-- An empty value comes back as the four bytes of `null`. -/
theorem roundTrip_empty :
    let json : AnyJson ℤ := ⟨id, fun _ => some [110, 117, 108, 108], rfl⟩
    roundTrip json [("k", [])] = [("k", [110, 117, 108, 108])] ∧
      roundTrip json [("k", [])] ≠ [("k", [])] := by
  decide +kernel

/-! ## Audit records -/

/-- `AuditRecord`, with `none` for a nil payload. -/
structure AuditRecord (F : Type) where
  tenantID : String
  auditID : String
  eventType : String
  payload : Option (Entries F)
  occurredAt : ℤ := 0
  deriving DecidableEq

/-- The field `audits` of the store: the rows of a tenant, of which there are none at first. -/
abbrev Audits (F : Type) := String → List (AuditRecord F)

/-- `ValidateText`. -/
def validateText (value : String) (max : ℤ) (requireNonEmpty : Bool) : Bool :=
  if Go.trimSpace value = "" then !requireNonEmpty && value = ""
  else max ≤ 0 ∨ (Go.runes value).length ≤ max

/-- `cloneAudit`. -/
def cloneAudit (value : AuditRecord F) : AuditRecord F :=
  { value with payload := cloneMap json value.payload }

/-- The checks of `AppendAudit`. -/
def validateAudit [DecidableEq F] (value : AuditRecord F) : Option Err :=
  if validateTenant value.tenantID ≠ none ∨ validateText value.eventType 128 true = false ∨
      validateText value.auditID 256 false = false then some .invalid
  else if value.payload ≠ none ∧ cloneMap json value.payload = none then some .invalid
  else none

/-- `AppendAudit` under the lock, at one reading of the clock and with one new identifier. -/
def appendAudit [DecidableEq F] (newString : String) (now : ℤ) (audits : Audits F)
    (value : AuditRecord F) : Except Err (AuditRecord F) × Audits F :=
  match validateAudit json value with
  | some err => (.error err, audits)
  | none =>
    let value := { value with
      auditID := if value.auditID = "" then newString else value.auditID
      occurredAt := if value.occurredAt = 0 then now else value.occurredAt }
    match (audits value.tenantID).find? fun row => row.auditID = value.auditID with
    | some row =>
      if row.payload ≠ value.payload ∨ row.eventType ≠ value.eventType then
        (.error .conflict, audits)
      else (.ok (cloneAudit json row), audits)
    | none =>
      let value := { value with payload := some ((cloneMap json value.payload).getD .nil) }
      (.ok (cloneAudit json value),
        Function.update audits value.tenantID (audits value.tenantID ++ [value]))

/-- The rows after calls of `AppendAudit`, each with its identifier and its time. -/
def appendAudits [DecidableEq F] (calls : List (String × ℤ × AuditRecord F)) : Audits F :=
  calls.foldl (fun audits call => (appendAudit json call.1 call.2.1 audits call.2.2).2) fun _ => []

/-- A payload that is its own copy, and is not nil. -/
def Plain (payload : Option (Entries F)) : Prop :=
  payload ≠ none ∧ cloneMap json payload = payload

/-- What `AppendAudit` stores is its own copy. -/
theorem plain_stored (payload : Option (Entries F)) :
    Plain json (some ((cloneMap json payload).getD .nil)) := by
  refine ⟨by simp, ?_⟩
  cases hcopy : cloneMap json payload with
  | none => rfl
  | some stored =>
    rw [cloneMap, Option.bind_eq_some_iff] at hcopy
    obtain ⟨entries, -, hentries⟩ := hcopy
    exact Entries.copy_copy json entries stored hentries

variable [DecidableEq F] {newString : String} {now : ℤ} {audits audits' : Audits F}
variable {value stored row : AuditRecord F}

/-- All rows are their own copies. -/
def AllPlain (audits : Audits F) : Prop := ∀ tenantID, ∀ row ∈ audits tenantID, Plain json row.payload

/-- A call keeps the rows their own copies. -/
theorem AllPlain.appendAudit (h : AllPlain json audits) :
    AllPlain json (appendAudit json newString now audits value).2 := by
  rw [Storage.appendAudit]
  split
  · exact h
  dsimp only
  split
  · split_ifs
    · exact h
    · exact h
  · intro tenantID row hrow
    simp only [Function.update_apply] at hrow
    by_cases htenant : tenantID = value.tenantID
    · rw [if_pos htenant] at hrow
      rcases List.mem_append.1 hrow with hold | hnew
      · exact h _ row hold
      · rw [List.mem_singleton.1 hnew]
        exact plain_stored json _
    · rw [if_neg htenant] at hrow
      exact h tenantID row hrow

/-- After any calls, all rows are their own copies. -/
theorem allPlain_appendAudits (calls : List (String × ℤ × AuditRecord F)) :
    AllPlain json (appendAudits json calls) := by
  refine List.foldlRecOn (motive := AllPlain json) calls _ (fun _ _ hrow => by cases hrow) ?_
  intro _ h _ _
  exact h.appendAudit json

/-- A call with the identifier of a row compares the record with it. -/
theorem appendAudit_of_row (hvalid : validateAudit json value = none) (hid : value.auditID ≠ "")
    (hrow : (audits value.tenantID).find? (fun row => row.auditID = value.auditID) = some row) :
    appendAudit json newString now audits value =
      if row.payload ≠ value.payload ∨ row.eventType ≠ value.eventType then
        (.error .conflict, audits)
      else (.ok (cloneAudit json row), audits) := by
  simp only [appendAudit, hvalid, if_neg hid, hrow]

/-- An accepted record has a row, which holds its payload exactly when the payload is its own
copy. -/
theorem exists_row_of_appendAudit (hplain : AllPlain json audits) (hid : value.auditID ≠ "")
    (h : appendAudit json newString now audits value = (.ok stored, audits')) :
    validateAudit json value = none ∧ ∃ row,
      (audits' value.tenantID).find? (fun row => row.auditID = value.auditID) = some row ∧
      stored = cloneAudit json row ∧ row.eventType = value.eventType ∧
      (row.payload = value.payload ↔ Plain json value.payload) := by
  cases hvalid : validateAudit json value with
  | some => simp [appendAudit, hvalid] at h
  | none =>
    refine ⟨rfl, ?_⟩
    cases hfind : (audits value.tenantID).find? fun row => row.auditID = value.auditID with
    | some row =>
      rw [appendAudit_of_row json hvalid hid hfind] at h
      split_ifs at h with hsame
      · cases h
      obtain ⟨rfl, rfl⟩ : cloneAudit json row = stored ∧ audits = audits' := by simpa using h
      rw [not_or, not_not, not_not] at hsame
      have hrow := hplain _ row (List.mem_of_find?_eq_some hfind)
      exact ⟨row, hfind, rfl, hsame.2, iff_of_true hsame.1 (hsame.1 ▸ hrow)⟩
    | none =>
      simp only [appendAudit, hvalid, if_neg hid, hfind, Prod.mk.injEq, Except.ok.injEq] at h
      obtain ⟨rfl, rfl⟩ := h
      refine ⟨_, ?_, rfl, rfl, fun heq => heq ▸ plain_stored json _, fun hcopy => ?_⟩
      · simp [hfind]
      · obtain ⟨hne, hcopy⟩ := hcopy
        obtain ⟨_, hentries⟩ := Option.ne_none_iff_exists'.1 hne
        show some ((cloneMap json value.payload).getD .nil) = value.payload
        rw [hcopy, hentries, Option.getD_some]

/-- An accepted record is accepted again without effect, and refused with another JSON object in its
place, exactly when its payload is not nil and is its own copy through JSON. -/
theorem appendAudit_idempotent_iff (calls : List (String × ℤ × AuditRecord F))
    (hid : value.auditID ≠ "")
    (h : appendAudit json newString now (appendAudits json calls) value = (.ok stored, audits')) :
    (∀ newString now, appendAudit json newString now audits' value = (.ok stored, audits') ∧
      ∀ payload, validateAudit json { value with payload } = none →
        cloneMap json payload ≠ cloneMap json value.payload →
        appendAudit json newString now audits' { value with payload } =
          (.error .conflict, audits')) ↔ Plain json value.payload := by
  obtain ⟨hvalid, row, hrow, rfl, htype, hsame⟩ :=
    exists_row_of_appendAudit json (allPlain_appendAudits json calls) hid h
  rw [← hsame]
  constructor
  · intro hagain
    have hfirst := (hagain "" 0).1
    rw [appendAudit_of_row json hvalid hid hrow] at hfirst
    split_ifs at hfirst with hconflict
    · cases hfirst
    rw [not_or, not_not] at hconflict
    exact hconflict.1
  · intro hpayload newString now
    refine ⟨?_, fun payload hother hne => ?_⟩
    · rw [appendAudit_of_row json hvalid hid hrow, if_neg (by simp [hpayload, htype])]
    · have hdiffers : row.payload ≠ payload := by
        rw [hpayload]
        exact fun heq => hne (heq ▸ rfl)
      rw [appendAudit_of_row json hother hid hrow, if_pos (.inl hdiffers)]

/-- A record with a flag in its payload is accepted again. -/
theorem appendAudit_idempotent_flag :
    let json : AnyJson ℤ := ⟨id, fun _ => some [110, 117, 108, 108], rfl⟩
    let value : AuditRecord ℤ := ⟨"t", "a", "e", some (.cons "ok" (.bool true) .nil), 1⟩
    (appendAudit json "" 2 (appendAudit json "" 2 (fun _ => []) value).2 value).1 = .ok value :=
  congrArg Prod.fst ((appendAudit_idempotent_iff ⟨id, fun _ => some [110, 117, 108, 108], rfl⟩ []
    (by decide) (Prod.ext (by decide +kernel) rfl)).2 ⟨by decide, by decide⟩ "" 2).1

/-- A record without a payload, and one with an integer, conflict with themselves. -/
theorem appendAudit_conflicts :
    let json : AnyJson ℤ := ⟨id, fun _ => some [110, 117, 108, 108], rfl⟩
    ∀ payload ∈ [none, some (.cons "v" (.int 1) .nil)],
      let value : AuditRecord ℤ := ⟨"t", "a", "e", payload, 1⟩
      (appendAudit json "" 2 (fun _ => []) value).1.isOk = true ∧
      (appendAudit json "" 2 (appendAudit json "" 2 (fun _ => []) value).2 value).1 =
        .error .conflict := by
  decide +kernel

end AgentService.Storage
