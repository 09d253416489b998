import AgentService.Storage.Spec

/-!
# What never goes back

The store only moves forward: nothing is deleted, a message keeps its event, an event keeps its
identity while its fencing token grows, a reply row keeps its content while its attempts and its
token grow, a settled row and a settled event stay as they are, and a correlation never changes.
`Store.Evolves` collects these facts as a preorder. Every write of the store respects it
(`Evolves.setEvent`, `Evolves.setReply`, `Evolves.recorded`, `Evolves.enqueued`), so that what an
operation has seen stays known whatever happens after it.
-/

namespace AgentService.Storage

open AList

/-- An event that can no longer be claimed for execution. -/
def EventStatus.Closed (status : EventStatus) : Prop :=
  status = .completed ∨ status = .replyPending ∨ status = .replied ∨ status = .failed

/-- A later version of an event. -/
structure MessageEvent.Evolves (v v' : MessageEvent) : Prop where
  tenantID : v'.tenantID = v.tenantID
  eventID : v'.eventID = v.eventID
  bindingID : v'.bindingID = v.bindingID
  externalMessageID : v'.externalMessageID = v.externalMessageID
  replyTarget : v'.replyTarget = v.replyTarget
  /-- The token does not go back. -/
  fencingToken : v.fencingToken ≤ v'.fencingToken
  /-- Every change takes a new token. -/
  eq_of_token : v'.fencingToken = v.fencingToken → v' = v
  /-- An event that is closed stays closed. -/
  closed : v.status.Closed → v'.status.Closed
  /-- An event in `reply_pending` does not go back. -/
  pending : v.status = .replyPending →
    v'.status = .replyPending ∨ v'.status = .replied ∨ v'.status = .failed
  /-- A replied or failed event stays as it is. -/
  final : v.status = .replied ∨ v.status = .failed → v' = v

/-- A later version of a reply row. -/
structure ReplyOutbox.Evolves (r r' : ReplyOutbox) : Prop where
  tenantID : r'.tenantID = r.tenantID
  replyID : r'.replyID = r.replyID
  eventID : r'.eventID = r.eventID
  segmentIndex : r'.segmentIndex = r.segmentIndex
  segmentCount : r'.segmentCount = r.segmentCount
  payload : r'.payload = r.payload
  replyTarget : r'.replyTarget = r.replyTarget
  /-- The attempts do not go back. -/
  attempts : r.attempts ≤ r'.attempts
  /-- The token does not go back. -/
  fencingToken : r.fencingToken ≤ r'.fencingToken
  /-- Every change takes a new token. -/
  eq_of_token : r'.fencingToken = r.fencingToken → r' = r
  /-- A sent row stays as it is. -/
  sent : r.status = .sent → r' = r

theorem MessageEvent.Evolves.refl (v : MessageEvent) : v.Evolves v :=
  ⟨rfl, rfl, rfl, rfl, rfl, Int.le_refl _, fun _ => rfl, id, .inl, fun _ => rfl⟩

/-- Versions of an event are ordered. -/
theorem MessageEvent.Evolves.trans {a b c : MessageEvent} (h : a.Evolves b) (h' : b.Evolves c) :
    a.Evolves c where
  tenantID := h'.tenantID.trans h.tenantID
  eventID := h'.eventID.trans h.eventID
  bindingID := h'.bindingID.trans h.bindingID
  externalMessageID := h'.externalMessageID.trans h.externalMessageID
  replyTarget := h'.replyTarget.trans h.replyTarget
  fencingToken := Int.le_trans h.fencingToken h'.fencingToken
  eq_of_token hc := by
    have hab := h.fencingToken
    have hbc := h'.fencingToken
    have hb : b = a := h.eq_of_token (by omega)
    rw [h'.eq_of_token (by omega), hb]
  closed ha := h'.closed (h.closed ha)
  pending ha := by
    rcases h.pending ha with hb | hb
    · exact h'.pending hb
    · rw [h'.final hb]
      exact .inr hb
  final ha := by
    have hb := h.final ha
    rw [h'.final (by rwa [hb]), hb]

theorem ReplyOutbox.Evolves.refl (r : ReplyOutbox) : r.Evolves r :=
  ⟨rfl, rfl, rfl, rfl, rfl, rfl, rfl, Int.le_refl _, Int.le_refl _, fun _ => rfl, fun _ => rfl⟩

/-- Versions of a row are ordered. -/
theorem ReplyOutbox.Evolves.trans {a b c : ReplyOutbox} (h : a.Evolves b) (h' : b.Evolves c) :
    a.Evolves c where
  tenantID := h'.tenantID.trans h.tenantID
  replyID := h'.replyID.trans h.replyID
  eventID := h'.eventID.trans h.eventID
  segmentIndex := h'.segmentIndex.trans h.segmentIndex
  segmentCount := h'.segmentCount.trans h.segmentCount
  payload := h'.payload.trans h.payload
  replyTarget := h'.replyTarget.trans h.replyTarget
  attempts := Int.le_trans h.attempts h'.attempts
  fencingToken := Int.le_trans h.fencingToken h'.fencingToken
  eq_of_token hc := by
    have hab := h.fencingToken
    have hbc := h'.fencingToken
    have hb : b = a := h.eq_of_token (by omega)
    rw [h'.eq_of_token (by omega), hb]
  sent ha := by
    have hb := h.sent ha
    rw [h'.sent (by rwa [hb]), hb]

namespace Store

/-- A later store. -/
structure Evolves (s s' : Store) : Prop where
  /-- A message keeps its event. -/
  messages : ∀ k e, s.messages.lookup k = some e → s'.messages.lookup k = some e
  /-- An event stays, in a later version. -/
  events : ∀ k v, s.events.lookup k = some v → ∃ v', s'.events.lookup k = some v' ∧ v.Evolves v'
  /-- A row stays, in a later version. -/
  replies : ∀ k r, s.replies.lookup k = some r → ∃ r', s'.replies.lookup k = some r' ∧ r.Evolves r'
  /-- A correlation stays. -/
  correlations : ∀ k c, s.correlations.lookup k = some c → s'.correlations.lookup k = some c

theorem Evolves.refl (s : Store) : s.Evolves s :=
  ⟨fun _ _ => id, fun _ v h => ⟨v, h, .refl v⟩, fun _ r h => ⟨r, h, .refl r⟩, fun _ _ => id⟩

/-- Versions of the store are ordered. -/
theorem Evolves.trans {a b c : Store} (h : a.Evolves b) (h' : b.Evolves c) : a.Evolves c where
  messages k e he := h'.messages k e (h.messages k e he)
  events k v hv := by
    obtain ⟨v', hv', hvv'⟩ := h.events k v hv
    obtain ⟨v'', hv'', hvv''⟩ := h'.events k v' hv'
    exact ⟨v'', hv'', hvv'.trans hvv''⟩
  replies k r hr := by
    obtain ⟨r', hr', hrr'⟩ := h.replies k r hr
    obtain ⟨r'', hr'', hrr''⟩ := h'.replies k r' hr'
    exact ⟨r'', hr'', hrr'.trans hrr''⟩
  correlations k e he := h'.correlations k e (h.correlations k e he)

variable {s : Store} {now : ℤ}

/-- A changed session is no change here. -/
theorem Evolves.sessions (s : Store) (sessions : GoMap Session) :
    s.Evolves { s with sessions := sessions } :=
  ⟨fun _ _ => id, fun _ v h => ⟨v, h, .refl v⟩, fun _ r h => ⟨r, h, .refl r⟩, fun _ _ => id⟩

/-- A changed history is no change here. -/
theorem Evolves.setHistory (s : Store) (k : String) (entries : List EventPayload) :
    s.Evolves (s.setHistory k entries) :=
  ⟨fun _ _ => id, fun _ v h => ⟨v, h, .refl v⟩, fun _ r h => ⟨r, h, .refl r⟩, fun _ _ => id⟩

/-- A legal step of an event leads to a later version. -/
theorem MovesMessage.evolves {t : MessageTransition} {value : MessageEvent}
    (h : s.MovesMessage now t value) : value.Evolves (applyMessageTransition now value t) where
  tenantID := rfl
  eventID := rfl
  bindingID := rfl
  externalMessageID := rfl
  replyTarget := rfl
  fencingToken := by simp only [applyMessageTransition]; omega
  eq_of_token hc := by simp only [applyMessageTransition] at hc; omega
  closed hclosed := by
    have hlegal := h.legal
    rw [← h.status] at hlegal
    show t.to.Closed
    unfold EventStatus.Closed at hclosed ⊢
    rcases hclosed with hs | hs | hs | hs <;> rw [hs] at hlegal <;>
      simp [validateMessageTransition] at hlegal <;> tauto
  pending hpending := by
    have hlegal := h.legal
    rw [← h.status, hpending] at hlegal
    exact .inr (by simpa [validateMessageTransition, applyMessageTransition] using hlegal)
  final hfinal := by
    have hlegal := h.legal
    rw [← h.status] at hlegal
    rcases hfinal with hs | hs <;> rw [hs] at hlegal <;> simp [validateMessageTransition] at hlegal

/-- Writing a later version of an event. -/
theorem Evolves.setEvent {k : String} {v v' : MessageEvent} (hfound : s.events.lookup k = some v)
    (h : v.Evolves v') : s.Evolves (s.setEvent k v') := by
  refine ⟨fun _ _ => id, fun k1 w hw => ?_, fun _ r h => ⟨r, h, .refl r⟩, fun _ _ => id⟩
  by_cases hk : k1 = k
  · subst hk
    rw [hfound] at hw
    cases hw
    exact ⟨v', lookup_insert _, h⟩
  · exact ⟨w, (lookup_insert_ne hk).trans hw, .refl w⟩

/-- A claim leads to a later version of a row. -/
theorem ClaimsReply.evolves {tenantID replyID owner : String} {segment leaseDuration : ℤ}
    {value : ReplyOutbox} (h : s.ClaimsReply now tenantID replyID segment owner leaseDuration value) :
    value.Evolves (applyClaim now owner leaseDuration value) where
  tenantID := rfl
  replyID := rfl
  eventID := rfl
  segmentIndex := rfl
  segmentCount := rfl
  payload := rfl
  replyTarget := rfl
  attempts := by simp only [applyClaim]; omega
  fencingToken := by simp only [applyClaim]; omega
  eq_of_token hc := by simp only [applyClaim] at hc; omega
  sent hs := by
    have hclaim := h.claimable
    simp [hs, leaseExpired] at hclaim

/-- A legal step of a row leads to a later version. -/
theorem MovesReply.evolves {t : ReplyTransition} {value : ReplyOutbox}
    (h : s.MovesReply now t value) : value.Evolves (applyReplyTransition now value t) where
  tenantID := rfl
  replyID := rfl
  eventID := rfl
  segmentIndex := rfl
  segmentCount := rfl
  payload := rfl
  replyTarget := rfl
  attempts := by simp only [applyReplyTransition]; split_ifs <;> omega
  fencingToken := by simp only [applyReplyTransition]; omega
  eq_of_token hc := by simp only [applyReplyTransition] at hc; omega
  sent hs := by
    have hlegal := h.legal
    rw [← h.status, hs] at hlegal
    simp [validateTransition] at hlegal

/-- Writing a later version of a row. -/
theorem Evolves.setReply {k : String} {r r' : ReplyOutbox} (hfound : s.replies.lookup k = some r)
    (h : r.Evolves r') : s.Evolves (s.setReply k r') := by
  refine ⟨fun _ _ => id, fun _ v h => ⟨v, h, .refl v⟩, fun k1 w hw => ?_, fun _ _ => id⟩
  by_cases hk : k1 = k
  · subst hk
    rw [hfound] at hw
    cases hw
    exact ⟨r', lookup_insert _, h⟩
  · exact ⟨w, (lookup_insert_ne hk).trans hw, .refl w⟩

/-- Recording a new message. -/
theorem Evolves.recorded {input : MessageEventInput} (h : s.RecordsMessage input)
    (sessions : GoMap Session) (value : MessageEvent) :
    s.Evolves (s.recorded sessions input value) := by
  refine ⟨fun k e he => ?_, fun k v hv => ⟨v, ?_, .refl v⟩, fun _ r h => ⟨r, h, .refl r⟩,
    fun _ _ => id⟩
  · have hne : k ≠ key [input.tenantID, input.bindingID, input.externalMessageID] := by
      rintro rfl
      rw [h.fresh] at he
      cases he
    exact (lookup_insert_ne hne).trans he
  · have hne : k ≠ key [input.tenantID, input.eventID] := by
      rintro rfl
      rw [h.unused] at hv
      cases hv
    exact (lookup_insert_ne hne).trans hv

/-- A correlation that passes the check agrees with the stored one. -/
theorem checkCorrelation_eq_none {correlation stored : ReplyCorrelation} {first : ReplyOutbox}
    (h : checkCorrelation s correlation first = none) (hrequest : correlation.requestID ≠ "")
    (hstored : s.correlations.lookup (key [correlation.tenantID, correlation.eventID]) =
      some stored) : stored = correlation := by
  unfold checkCorrelation at h
  rw [if_neg hrequest] at h
  split_ifs at h
  rw [hstored] at h
  simpa using h

variable {correlation : ReplyCorrelation} {values : List ReplyOutbox}

/-- A batch keeps the rows that are there. -/
theorem lookup_enqueued_of_some {k : String} {r : ReplyOutbox} (h : s.replies.lookup k = some r) :
    (s.enqueued now correlation values).replies.lookup k = some r := by
  simp only [Store.enqueued, lookup_insertReplies, h, Option.some_or]

/-- Writing a batch. -/
theorem Evolves.enqueued {first : ReplyOutbox} (h : s.Enqueues correlation values first) :
    s.Evolves (s.enqueued now correlation values) := by
  refine ⟨fun _ _ => id, fun _ v h => ⟨v, h, .refl v⟩, fun k r hr => ⟨r, ?_, .refl r⟩,
    fun k c hc => ?_⟩
  · exact lookup_enqueued_of_some hr
  · simp only [Store.enqueued]
    split_ifs with hrequest
    · by_cases hk : k = key [correlation.tenantID, correlation.eventID]
      · subst hk
        rw [checkCorrelation_eq_none h.correlation hrequest hc, lookup_insert]
      · rw [lookup_insert_ne hk, hc]
    · exact hc

end Store

end AgentService.Storage
