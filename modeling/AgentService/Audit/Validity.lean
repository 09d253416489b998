import AgentService.Audit.Store

/-!
# Events that pass validation

When the event of a recorder passes `Event.Validate`: the derived identity is always a valid text
(`newEventID_valid`), since it is written with the letters of `audit_` and hexadecimal digits, and
none of the sensitive phrases and words can be written with these. So what is left are the texts
that the caller gives (`validate_complete_imEvent`).
-/

namespace AgentService.Audit

open List Event

/-- A text that `Event.Validate` accepts in every field. -/
def fieldValid (value : String) : Bool := !hasControl value && !isSensitive value

/-! ## Texts over a small alphabet -/

/-- The characters of derived identities. -/
def identityChars : List Char := "audit_0123456789bcef".toList

/-- A phrase that is contained in a text is written with the characters of the text. -/
theorem mem_of_contains {value phrase : List Char} (h : contains value phrase = true) :
    ∀ c ∈ phrase, c ∈ value := by
  induction value with
  | nil =>
    rw [isEmpty_iff.1 h]
    simp
  | cons r rest ih =>
    simp only [contains, Bool.or_eq_true] at h
    rcases h with h | h
    · exact fun c hc => (List.isPrefixOf_iff_prefix.1 h).subset hc
    · exact fun c hc => mem_cons_of_mem r (ih h c hc)

/-- The words of a text are written with its characters. -/
theorem mem_of_lowerWords {value word w : List Char} (h : w ∈ lowerWords word value) :
    ∀ c ∈ w, c ∈ word ∨ c ∈ value := by
  induction value generalizing word with
  | nil =>
    unfold lowerWords at h
    split_ifs at h
    · cases h
    · rw [mem_singleton.1 h]
      exact fun c hc => .inl (mem_reverse.1 hc)
  | cons r rest ih =>
    intro c hc
    unfold lowerWords at h
    split_ifs at h
    · rcases ih h c hc with hc | hc
      · cases hc
      · exact .inr (mem_cons_of_mem r hc)
    · rcases mem_cons.1 h with rfl | h
      · exact .inl (mem_reverse.1 hc)
      · rcases ih h c hc with hc | hc
        · cases hc
        · exact .inr (mem_cons_of_mem r hc)
    · rcases ih h c hc with hc | hc
      · rcases mem_cons.1 hc with rfl | hc
        · exact .inr mem_cons_self
        · exact .inl hc
      · exact .inr (mem_cons_of_mem r hc)

/-- Sensitive words hold a sensitive pair. -/
theorem exists_of_sensitiveWords {words : List (List Char)} (h : sensitiveWords words = true) :
    ∃ w ∈ words, ∃ next, sensitivePair w next = true := by
  induction words with
  | nil => cases h
  | cons word rest ih =>
    cases rest with
    | nil => cases h
    | cons next =>
      simp only [sensitiveWords, Bool.or_eq_true] at h
      rcases h with h | h
      · exact ⟨word, mem_cons_self, next, h⟩
      · obtain ⟨w, hw, hpair⟩ := ih h
        exact ⟨w, mem_cons_of_mem word hw, hpair⟩

theorem forall_mem_of_all {α : Type} {l : List α} {p : α → Prop} [DecidablePred p]
    (h : l.all (fun a => decide (p a)) = true) : ∀ a ∈ l, p a :=
  fun a ha => of_decide_eq_true (all_eq_true.1 h a ha)

/-- No sensitive word is written with the characters of identities. -/
theorem outside_of_sensitivePair {word next : List Char} (h : sensitivePair word next = true) :
    ∃ c ∈ word, c ∉ identityChars := by
  simp only [sensitivePair, decide_eq_true_eq] at h
  rcases h with rfl | rfl | rfl | rfl | rfl | rfl | ⟨rfl, -⟩
  · exact ⟨'r', by decide, by decide⟩
  · exact ⟨'h', by decide, by decide⟩
  · exact ⟨'k', by decide, by decide⟩
  · exact ⟨'s', by decide, by decide⟩
  · exact ⟨'p', by decide, by decide⟩
  · exact ⟨'s', by decide, by decide⟩
  · exact ⟨'p', by decide, by decide⟩

variable {value : String}

/-- A text over the characters of identities passes the text checks. -/
theorem fieldValid_of_identityChars
    (h : ∀ c ∈ value.toList, c ∈ identityChars) : fieldValid value = true := by
  have hlower : (Go.runes value).map toLower = value.toList := by
    refine (map_congr_left fun c hc => ?_).trans (map_id _)
    have hid : ∀ c ∈ identityChars, toLower c = c := forall_mem_of_all (by decide)
    exact hid c (h c hc)
  have hcontrol : hasControl value = false := by
    rw [hasControl, any_eq_false]
    intro c hc
    have hid : ∀ c ∈ identityChars, ¬ (c.toNat < 0x20 ∨ (0x7f ≤ c.toNat ∧ c.toNat < 0xa0)) :=
      forall_mem_of_all (by decide)
    simpa using hid c (h c hc)
  have hphrase : containsSensitivePhrase value.toList = false := by
    rw [containsSensitivePhrase, any_eq_false]
    intro phrase hphrase hcontains
    have houtside : ∀ phrase ∈ sensitivePhrases,
        phrase.toList.any (fun c => c ∉ identityChars) = true := forall_mem_of_all (by decide)
    obtain ⟨c, hc, hout⟩ := any_eq_true.1 (houtside phrase hphrase)
    exact of_decide_eq_true hout (h c (mem_of_contains hcontains c hc))
  have hwords : sensitiveWords (lowerWords [] value.toList) = false := by
    by_contra hne
    obtain ⟨w, hw, _, hpair⟩ := exists_of_sensitiveWords (by simpa using hne)
    obtain ⟨c, hc, hout⟩ := outside_of_sensitivePair hpair
    rcases mem_of_lowerWords hw c hc with hc | hc
    · exact not_mem_nil hc
    · exact hout (h c hc)
  simp only [fieldValid, hcontrol, isSensitive, hlower, hphrase, hwords, Bool.not_false,
    Bool.or_self, Bool.and_self]

/-! ## Derived identities -/

/-- A hexadecimal digit is a character of identities. -/
theorem hexDigit_mem {n : ℕ} (h : n < 16) : hexDigit n ∈ identityChars := by
  have hall : ∀ i : Fin 16, hexDigit i ∈ identityChars := by decide
  exact hall ⟨n, h⟩

variable (H : Hashing) (parts : List String)

/-- The characters of a derived identity. -/
theorem newEventID_chars : ∀ c ∈ (newEventID H parts).toList, c ∈ identityChars := by
  intro c hc
  rw [newEventID, String.toList_append, mem_append] at hc
  rcases hc with hc | hc
  · have hall : ∀ c ∈ "audit_".toList, c ∈ identityChars := forall_mem_of_all (by decide)
    exact hall c hc
  · rw [String.toList_ofList] at hc
    obtain ⟨b, -, hb⟩ := mem_flatMap.1 (mem_of_mem_take hc)
    have hlt := b.toNat_lt
    simp only [mem_cons, not_mem_nil, or_false] at hb
    rcases hb with rfl | rfl
    · exact hexDigit_mem (by omega)
    · exact hexDigit_mem (by omega)

/-- A derived identity is a valid text without white space around it. -/
theorem newEventID_valid :
    fieldValid (newEventID H parts) = true ∧ clean (newEventID H parts) = newEventID H parts ∧
      newEventID H parts ≠ "" := by
  have hchars := newEventID_chars H parts
  refine ⟨fieldValid_of_identityChars hchars, Go.trimSpace_eq_self fun c hc => ?_, fun h => ?_⟩
  · have hall : ∀ c ∈ identityChars, Go.isSpace c = false := forall_mem_of_all (by decide)
    exact hall c (hchars c hc)
  · have htext := congrArg String.toList h
    simp [newEventID] at htext

/-! ## Events of a recorder -/

/-- The error types of the contract are valid texts. -/
theorem fieldValid_of_validErrorType (h : value = "" ∨ validErrorType value = true) :
    fieldValid value = true := by
  have hall : ∀ value ∈ errorTypes, fieldValid value = true := by decide +kernel
  rcases h with rfl | h
  · decide
  · exact hall value (of_decide_eq_true h)

theorem fieldValid_iff :
    fieldValid value = true ↔ hasControl value = false ∧ isSensitive value = false := by
  simp [fieldValid]

/-- The event of `Recorder.IM`, completed. -/
theorem complete_imEvent (tenantID requestID traceID errorType : String) (eventType : EventType)
    (decision : Decision) (now : ℤ) :
    complete H tenantID now (imEvent eventType requestID traceID "" "" decision errorType) =
      { schemaVersion := schemaVersion,
        eventID := newEventID H [eventType.text, requestID, traceID, ""], eventType := eventType,
        tenantID := clean tenantID, decision := decision, errorType := errorType,
        requestID := requestID, traceID := traceID, occurredAt := now } := by
  simp [complete, imEvent]

/-- An event of a recorder passes validation when the given texts do. -/
theorem validate_complete_imEvent {tenantID requestID traceID errorType : String}
    {eventType : EventType} {decision : Decision} {now : ℤ} (hclean : clean tenantID = tenantID)
    (htenant : tenantID ≠ "") (htenantValid : fieldValid tenantID = true) (hnow : now ≠ 0)
    (hrequest : fieldValid requestID = true) (htrace : fieldValid traceID = true)
    (htype : validEventType eventType = true) (hplane : eventType ≠ .controlPlaneChanged)
    (hdecision : validDecision decision = true)
    (herror : errorType = "" ∨ validErrorType errorType = true) : (complete H tenantID now
      (imEvent eventType requestID traceID "" "" decision errorType)).validate = none := by
  obtain ⟨hid, hidClean, hidNe⟩ := newEventID_valid H [eventType.text, requestID, traceID, ""]
  have hempty : fieldValid "" = true := by decide
  rw [complete_imEvent, hclean]
  rw [fieldValid_iff] at htenantValid hrequest htrace hid hempty
  have herrorValid := fieldValid_iff.1 (fieldValid_of_validErrorType herror)
  have hidentity : validIdentity
      { schemaVersion := schemaVersion,
        eventID := newEventID H [eventType.text, requestID, traceID, ""], eventType := eventType,
        tenantID := tenantID, decision := decision, errorType := errorType,
        requestID := requestID, traceID := traceID, occurredAt := now } = true := by
    simp [validIdentity, hidClean, hidNe, hclean, htenant, htype, hnow]
  have hreason : (Go.runes (Go.trimSpace "")).length ≤ 1000 := by decide
  have herrorType : (errorType = "" || validErrorType errorType) = true := by simpa using herror
  simp only [validate, hidentity, validFields, validVersions,
    validControlPlaneMetadata, validMetadata, texts, all_cons, all_nil,
    any_cons, any_nil, hid, htenantValid, hempty, herrorValid, hrequest, htrace, hreason,
    hdecision, herrorType, Option.all_none, hplane, ne_eq, not_false_eq_true, true_or, decide_true,
    Bool.not_true, Bool.not_false, Bool.or_true, Bool.and_self, Bool.or_self, Bool.false_eq_true,
    if_false]

end AgentService.Audit
