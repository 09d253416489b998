import AgentService.Storage.InMemory

/-!
# What the operations of the in-memory store do

One specification for each operation that writes: either it fails and leaves the store as it is, or
it found what its preconditions say (`MovesMessage`, `ClaimsReply`, `MovesReply`, `Enqueues`) and
writes one value, or one batch. The proofs above this module use these specifications and never
unfold an operation.
-/

namespace AgentService.Storage.Store

open List

variable {s : Store} {now : ℤ}

/-- The store with an event written. -/
def setEvent (s : Store) (k : String) (value : MessageEvent) : Store :=
  { s with events := s.events.insert k value }

/-- The store with a reply row written. -/
def setReply (s : Store) (k : String) (value : ReplyOutbox) : Store :=
  { s with replies := s.replies.insert k value }

/-- The store with a session written. -/
def setSession (s : Store) (k : String) (value : Session) : Store :=
  { s with sessions := s.sessions.insert k value }

/-- The store with the history of a session written. -/
def setHistory (s : Store) (k : String) (entries : List EventPayload) : Store :=
  { s with histories := s.histories.insert k entries }

/-- The store after a new message is recorded as `value`. -/
def recorded (s : Store) (sessions : GoMap Session) (input : MessageEventInput)
    (value : MessageEvent) : Store :=
  let eventKey := key [input.tenantID, input.eventID]
  let unique := key [input.tenantID, input.bindingID, input.externalMessageID]
  { s with
    sessions := sessions
    events := s.events.insert eventKey value
    messages := s.messages.insert unique eventKey }

/-! ## Sessions and messages -/

/-- `GetSession` finds the stored session. -/
theorem lookup_of_getSession {s : Store} {tenantID sessionID : String} {value : Session}
    (h : s.getSession tenantID sessionID = .ok value) :
    s.sessions.lookup (key [tenantID, sessionID]) = some value := by
  unfold getSession at h
  split at h
  · cases h
  · split at h
    · cases h
    · next hfound =>
      cases h
      exact hfound

/-- `CreateSession` fails, or it stores a new session at version one. -/
theorem createSession_spec (s : Store) (now : ℤ) (tenantID sessionID : String)
    (state : Option String := none) :
    (∃ err, s.createSession now tenantID sessionID state = (.error err, s)) ∨
    (s.sessions.lookup (key [tenantID, sessionID]) = none ∧
      s.createSession now tenantID sessionID state = (.ok ⟨tenantID, sessionID, 1, state, now, now⟩,
          s.setSession (key [tenantID, sessionID]) ⟨tenantID, sessionID, 1, state, now, now⟩)) := by
  unfold createSession
  split
  · exact .inl ⟨_, rfl⟩
  · split
    · exact .inl ⟨_, rfl⟩
    · next hnone => exact .inr ⟨hnone, rfl⟩

/-- The session after `UpdateSessionState`. -/
def updatedSession (now : ℤ) (state : Option String) (value : Session) : Session :=
  { value with version := value.version + 1, state := state, updatedAt := now }

/-- `UpdateSessionState` fails, or it finds the expected version and writes the next one. -/
theorem updateSessionState_spec (s : Store) (now : ℤ) (tenantID sessionID : String)
    (expectedVersion : ℤ) (state : Option String) :
    (∃ err, s.updateSessionState now tenantID sessionID expectedVersion state = (.error err, s)) ∨
    ∃ value, s.sessions.lookup (key [tenantID, sessionID]) = some value ∧
      value.version = expectedVersion ∧
      s.updateSessionState now tenantID sessionID expectedVersion state =
        (.ok (updatedSession now state value),
          s.setSession (key [tenantID, sessionID]) (updatedSession now state value)) := by
  unfold updateSessionState
  split
  · exact .inl ⟨_, rfl⟩
  · dsimp only
    split
    · exact .inl ⟨_, rfl⟩
    · next value hfound =>
      split_ifs with hversion
      · exact .inl ⟨_, rfl⟩
      · exact .inr ⟨value, hfound, not_ne_iff.1 hversion, rfl⟩

/-- An event of a session. -/
def OfSession (tenantID sessionID : String) (event : MessageEvent) : Prop :=
  event.tenantID = tenantID ∧ event.sessionID = sessionID

/-- What `DeleteSession` leaves of a store: everything but the session, its history, its events,
their messages, and their reply rows. The correlations stay as they are. -/
structure Deletes (s s' : Store) (tenantID sessionID : String) : Prop where
  /-- The other sessions stay. -/
  sessions : s'.sessions = s.sessions.erase (key [tenantID, sessionID])
  /-- The histories of the other sessions stay. -/
  histories : s'.histories = s.histories.erase (key [tenantID, sessionID])
  /-- The events of the other sessions stay. -/
  events : ∀ k event, s'.events.lookup k = some event ↔
    s.events.lookup k = some event ∧ ¬ OfSession tenantID sessionID event
  /-- The messages of the deleted events are gone. -/
  messages : ∀ m k, s'.messages.lookup m = some k ↔ s.messages.lookup m = some k ∧
    ∀ k' event, s.events.lookup k' = some event → OfSession tenantID sessionID event →
      key [tenantID, event.bindingID, event.externalMessageID] ≠ m
  /-- The reply rows of the deleted events are gone. -/
  replies : ∀ k row, s'.replies.lookup k = some row ↔ s.replies.lookup k = some row ∧
    ∀ k' event, s.events.lookup k' = some event → OfSession tenantID sessionID event →
      ¬ (row.tenantID = tenantID ∧ row.eventID = event.eventID)
  correlations : s'.correlations = s.correlations

/-- Every entry of a map is found, so that a loop over the entries is one over what is found. -/
theorem forall_mem_entries {V : Type} {m : GoMap V} {P : String → V → Prop} :
    (∀ entry ∈ m.entries, P entry.1 entry.2) ↔ ∀ k v, m.lookup k = some v → P k v := by
  constructor
  · intro h k v hv
    exact h ⟨k, v⟩ (AList.mem_lookup_iff.1 hv)
  · intro h entry hentry
    exact h entry.1 entry.2 (AList.mem_lookup_iff.2 hentry)

section DeleteEvent

variable (tenantID sessionID : String)

/-- A round of `DeleteSession` for an event of another session does nothing. -/
theorem deleteEvent_of_not {s : Store} {entry : Sigma fun _ : String => MessageEvent}
    (h : ¬ OfSession tenantID sessionID entry.2) : deleteEvent tenantID sessionID s entry = s :=
  if_pos (Decidable.not_and_iff_or_not.1 h)

/-- A round of `DeleteSession` for an event of the session. -/
theorem deleteEvent_of {s : Store} {entry : Sigma fun _ : String => MessageEvent}
    (h : OfSession tenantID sessionID entry.2) : deleteEvent tenantID sessionID s entry = { s with
        events := s.events.erase entry.1
        messages := s.messages.erase
          (key [tenantID, entry.2.bindingID, entry.2.externalMessageID])
        replies := Go.deleteWhere
          (fun _ reply => reply.tenantID = tenantID ∧ reply.eventID = entry.2.eventID)
          s.replies } :=
  if_neg fun hne => Decidable.not_and_iff_or_not.2 hne h

/-- The events that one round of `DeleteSession` leaves. -/
theorem deleteEvent_events (k : String) (event : MessageEvent) (s : Store)
    (entry : Sigma fun _ : String => MessageEvent) :
    (deleteEvent tenantID sessionID s entry).events.lookup k = some event ↔
      s.events.lookup k = some event ∧ (OfSession tenantID sessionID entry.2 → entry.1 ≠ k) := by
  by_cases h : OfSession tenantID sessionID entry.2
  · simp only [deleteEvent_of tenantID sessionID h, Go.lookup_erase_eq_some, h, forall_const]
  · simp [deleteEvent_of_not tenantID sessionID h, h]

/-- The messages that one round of `DeleteSession` leaves. -/
theorem deleteEvent_messages (m k : String) (s : Store)
    (entry : Sigma fun _ : String => MessageEvent) :
    (deleteEvent tenantID sessionID s entry).messages.lookup m = some k ↔
      s.messages.lookup m = some k ∧ (OfSession tenantID sessionID entry.2 →
        key [tenantID, entry.2.bindingID, entry.2.externalMessageID] ≠ m) := by
  by_cases h : OfSession tenantID sessionID entry.2
  · simp only [deleteEvent_of tenantID sessionID h, Go.lookup_erase_eq_some, h, forall_const]
  · simp [deleteEvent_of_not tenantID sessionID h, h]

/-- The reply rows that one round of `DeleteSession` leaves. -/
theorem deleteEvent_replies (k : String) (row : ReplyOutbox) (s : Store)
    (entry : Sigma fun _ : String => MessageEvent) :
    (deleteEvent tenantID sessionID s entry).replies.lookup k = some row ↔
      s.replies.lookup k = some row ∧ (OfSession tenantID sessionID entry.2 →
        ¬ (row.tenantID = tenantID ∧ row.eventID = entry.2.eventID)) := by
  by_cases h : OfSession tenantID sessionID entry.2
  · simp only [deleteEvent_of tenantID sessionID h, Go.lookup_deleteWhere,
      Option.filter_eq_some_iff, h, forall_const, decide_eq_true_eq]
  · simp [deleteEvent_of_not tenantID sessionID h, h]

/-- The rounds of `DeleteSession` leave the sessions, the histories, and the correlations. -/
theorem foldl_deleteEvent_frame (l : List (Sigma fun _ : String => MessageEvent)) (s : Store) :
    (l.foldl (deleteEvent tenantID sessionID) s).sessions = s.sessions ∧
      (l.foldl (deleteEvent tenantID sessionID) s).histories = s.histories ∧
      (l.foldl (deleteEvent tenantID sessionID) s).correlations = s.correlations := by
  induction l generalizing s with
  | nil => exact ⟨rfl, rfl, rfl⟩
  | cons entry l ih =>
    rw [foldl_cons]
    have hround : (deleteEvent tenantID sessionID s entry).sessions = s.sessions ∧
        (deleteEvent tenantID sessionID s entry).histories = s.histories ∧
        (deleteEvent tenantID sessionID s entry).correlations = s.correlations := by
      by_cases h : OfSession tenantID sessionID entry.2
      · rw [deleteEvent_of tenantID sessionID h]
        exact ⟨rfl, rfl, rfl⟩
      · rw [deleteEvent_of_not tenantID sessionID h]
        exact ⟨rfl, rfl, rfl⟩
    obtain ⟨h1, h2, h3⟩ := ih (deleteEvent tenantID sessionID s entry)
    exact ⟨h1.trans hround.1, h2.trans hround.2.1, h3.trans hround.2.2⟩

end DeleteEvent

/-- `DeleteSession` fails, or it deletes the session with everything below it but the
correlations. -/
theorem deleteSession_spec (s : Store) (tenantID sessionID : String) :
    (∃ err, s.deleteSession tenantID sessionID = (some err, s)) ∨
    ∃ s', s.deleteSession tenantID sessionID = (none, s') ∧ s.Deletes s' tenantID sessionID := by
  unfold deleteSession
  split
  · exact .inl ⟨_, rfl⟩
  · dsimp only
    split
    · exact .inl ⟨_, rfl⟩
    · refine .inr ⟨_, rfl, ?_⟩
      obtain ⟨hsessions, hhistories, hcorrelations⟩ := foldl_deleteEvent_frame tenantID sessionID
        s.events.entries { s with
          sessions := s.sessions.erase (key [tenantID, sessionID])
          histories := s.histories.erase (key [tenantID, sessionID]) }
      refine ⟨hsessions, hhistories, fun k event => ?_, fun m k => ?_, fun k row => ?_,
        hcorrelations⟩
      · rw [Go.foldl_iff (P := fun s : Store => s.events.lookup k = some event)
            (deleteEvent_events tenantID sessionID k event),
          forall_mem_entries (P := fun k' e => OfSession tenantID sessionID e → k' ≠ k)]
        refine and_congr_right fun hfound => ⟨fun h hof => h k event hfound hof rfl, ?_⟩
        rintro hnot k' _ hfound' hof' rfl
        rw [hfound] at hfound'
        cases hfound'
        exact hnot hof'
      · rw [Go.foldl_iff (P := fun s : Store => s.messages.lookup m = some k)
          (deleteEvent_messages tenantID sessionID m k)]
        exact and_congr_right fun _ => forall_mem_entries (P := fun _ e =>
          OfSession tenantID sessionID e → key [tenantID, e.bindingID, e.externalMessageID] ≠ m)
      · rw [Go.foldl_iff (P := fun s : Store => s.replies.lookup k = some row)
          (deleteEvent_replies tenantID sessionID k row)]
        exact and_congr_right fun _ => forall_mem_entries (P := fun _ e =>
          OfSession tenantID sessionID e → ¬ (row.tenantID = tenantID ∧ row.eventID = e.eventID))

/-- A history entry as `AppendEventPayload` stores it. -/
def appended (now : ℤ) (entries : List EventPayload) (payload : EventPayload) : EventPayload :=
  { payload with historySeq := (entries.length : ℤ) + 1, createdAt := now }

/-- `AppendEventPayload` fails, finds the entry, or appends one with a new event ID to the history
of a stored session. -/
theorem appendEventPayload_spec (json : Json) (s : Store) (now : ℤ) (payload : EventPayload) :
    (∃ err, s.appendEventPayload json now payload = (.error err, s)) ∨
    (∃ existing ∈ (s.histories.lookup (key [payload.tenantID, payload.sessionID])).getD [],
      existing.eventID = payload.eventID ∧
      s.appendEventPayload json now payload = (.ok existing, s)) ∨
    ∃ session entries, s.sessions.lookup (key [payload.tenantID, payload.sessionID]) = some session ∧
      entries = (s.histories.lookup (key [payload.tenantID, payload.sessionID])).getD [] ∧
      (∀ existing ∈ entries, existing.eventID ≠ payload.eventID) ∧
      s.appendEventPayload json now payload = (.ok (appended now entries payload),
        s.setHistory (key [payload.tenantID, payload.sessionID])
          (entries ++ [appended now entries payload])) := by
  unfold appendEventPayload
  split
  · exact .inl ⟨_, rfl⟩
  · dsimp only
    split
    · exact .inl ⟨_, rfl⟩
    · next session hsession =>
      split
      · next hfound =>
        split_ifs
        · exact .inr (.inl ⟨_, mem_of_find?_eq_some hfound, by simpa using find?_some hfound, rfl⟩)
        · exact .inl ⟨_, rfl⟩
      · next hnone =>
        refine .inr (.inr ⟨session, _, hsession, rfl, fun existing hmem => ?_, rfl⟩)
        simpa using find?_eq_none.1 hnone existing hmem

/-- `ListEventPayloads` gives the history of a session, if it is stored. -/
theorem listEventPayloads_eq_ok {s : Store} {tenantID sessionID : String}
    {history : List EventPayload} (h : s.listEventPayloads tenantID sessionID = .ok history) :
    history = (s.histories.lookup (key [tenantID, sessionID])).getD [] := by
  unfold listEventPayloads at h
  split at h
  · cases h
  · dsimp only at h
    split at h
    · cases h
    · exact (Except.ok.inj h).symm

/-- What a message that `RecordMessage` stores found: a valid input whose message and whose event
are not there yet. -/
structure RecordsMessage (s : Store) (input : MessageEventInput) : Prop where
  /-- The input is valid. -/
  valid : invalidMessageInput input = false
  /-- The message has not been recorded. -/
  fresh : s.messages.lookup (key [input.tenantID, input.bindingID, input.externalMessageID]) = none
  /-- The event identifier is not in use. -/
  unused : s.events.lookup (key [input.tenantID, input.eventID]) = none

/-- `RecordMessage` fails, finds the message, or stores a new event. -/
theorem recordMessage_spec (s : Store) (now : ℤ) (input : MessageEventInput) :
    (∃ err, s.recordMessage now input = (.error err, s)) ∨
    (∃ k, invalidMessageInput input = false ∧
      s.messages.lookup (key [input.tenantID, input.bindingID, input.externalMessageID]) = some k ∧
      s.recordMessage now input = (.ok ((s.events.lookup k).getD zeroEvent, true), s)) ∨
    ∃ session, s.RecordsMessage input ∧
      s.sessions.lookup (key [input.tenantID, input.sessionID]) = some session ∧
      s.recordMessage now input = (.ok (newEvent now input (session.version + 1), false),
        s.recorded (s.sessions.insert (key [input.tenantID, input.sessionID])
          { session with version := session.version + 1, updatedAt := now }) input
          (newEvent now input (session.version + 1))) := by
  unfold recordMessage
  split
  · exact .inl ⟨_, rfl⟩
  · next hvalid =>
    have hvalid : invalidMessageInput input = false := by simpa using hvalid
    dsimp only
    split
    · next k hk => exact .inr (.inl ⟨k, hvalid, hk, rfl⟩)
    · next hfresh =>
      split
      · exact .inl ⟨_, rfl⟩
      · next hunused =>
        split
        · exact .inl ⟨_, rfl⟩
        · next session hsession =>
          exact .inr (.inr ⟨session, ⟨hvalid, hfresh, hunused⟩, hsession, rfl⟩)

/-- `GetMessage` finds the stored event. -/
theorem getMessage_eq_ok {s : Store} {tenantID eventID : String} {v : MessageEvent} :
    s.getMessage tenantID eventID = .ok v ↔ tenantID ≠ "" ∧ eventID ≠ "" ∧
      s.events.lookup (key [tenantID, eventID]) = some v := by
  unfold getMessage
  split_ifs with h
  · simp only [ne_eq, validateTenant_eq_none, not_not] at h
    rcases h with rfl | rfl <;> simp
  · simp only [ne_eq, validateTenant_eq_none, not_not, not_or] at h
    cases hv : s.events.lookup (key [tenantID, eventID]) <;> simp [h]

/-- What a successful `TransitionMessage` found: a complete request for a legal step, and an event
in the state that it starts from whose lease allows it. -/
structure MovesMessage (s : Store) (now : ℤ) (t : MessageTransition) (value : MessageEvent) :
    Prop where
  tenant_ne : t.tenantID ≠ ""
  event_ne : t.eventID ≠ ""
  owner_ne : t.owner ≠ ""
  /-- The step is legal. -/
  legal : validateMessageTransition t.from t.to = true
  /-- The event is stored. -/
  found : s.events.lookup (key [t.tenantID, t.eventID]) = some value
  /-- It is in the state that the step starts from. -/
  status : value.status = t.from
  /-- Its lease allows the step. -/
  lease : validateMessageLease now value t = none

variable {t : MessageTransition} {value : MessageEvent} {first : ReplyOutbox}
variable {values : List ReplyOutbox} {seen seen' : List ℤ}

/-- A request with all its parts for a legal step passes the checks before the store is read. -/
theorem checkMessageTransition_eq_none :
    checkMessageTransition t = none ↔ t.tenantID ≠ "" ∧ t.eventID ≠ "" ∧ t.owner ≠ "" ∧
      validateMessageTransition t.from t.to = true := by
  unfold checkMessageTransition
  split_ifs with h1 h2
  · simp_all
    tauto
  · simp_all
  · simp_all

/-- `TransitionMessage` fails, or it moves the event. -/
theorem transitionMessage_spec (s : Store) (now : ℤ) (t : MessageTransition) :
    (∃ err, s.transitionMessage now t = (.error err, s)) ∨
    ∃ value, s.MovesMessage now t value ∧
      s.transitionMessage now t = (.ok (applyMessageTransition now value t),
        s.setEvent (key [t.tenantID, t.eventID]) (applyMessageTransition now value t)) := by
  unfold transitionMessage
  split
  · exact .inl ⟨_, rfl⟩
  · next hcheck =>
    obtain ⟨ht, he, ho, hl⟩ := checkMessageTransition_eq_none.1 hcheck
    split
    · exact .inl ⟨_, rfl⟩
    · next value hfound =>
      split_ifs with hstatus
      · exact .inl ⟨_, rfl⟩
      · split
        · exact .inl ⟨_, rfl⟩
        · next hlease =>
          exact .inr ⟨value, ⟨ht, he, ho, hl, hfound, not_not.1 hstatus, hlease⟩, rfl⟩

/-- A step whose preconditions hold is made. -/
theorem MovesMessage.eq (h : s.MovesMessage now t value) : s.transitionMessage now t =
      (.ok (applyMessageTransition now value t),
        s.setEvent (key [t.tenantID, t.eventID]) (applyMessageTransition now value t)) := by
  have hcheck : checkMessageTransition t = none :=
    checkMessageTransition_eq_none.2 ⟨h.tenant_ne, h.event_ne, h.owner_ne, h.legal⟩
  simp only [transitionMessage, hcheck, h.found, h.status, h.lease, ne_eq, not_true_eq_false,
    if_false]
  rfl

/-- The lease test of a step out of `running` to anything but reconciliation: the owner and the
token of the lease, before its end. -/
theorem validateMessageLease_release
    (hfrom : t.from = .running) (hto : t.to = .completed ∨ t.to = .failed) :
    validateMessageLease now value t = none ↔ value.leaseOwner = t.owner ∧ t.fencingToken ≠ 0 ∧
      value.fencingToken = t.fencingToken ∧ ∀ deadline ∈ value.leaseExpiresAt, now < deadline := by
  have h1 : t.to ≠ .running := by rcases hto with h | h <;> simp [h]
  have h2 : t.to ≠ .executionReconciling := by rcases hto with h | h <;> simp [h]
  unfold validateMessageLease
  simp only [h1, h2, hfrom, false_and, if_false, ne_eq, not_true_eq_false]
  split_ifs with h
  · simp only [false_iff]
    rintro ⟨a, b, c, d⟩
    rcases h with h | h | h | ⟨deadline, hd, h⟩
    · exact h a
    · exact b h
    · exact h c
    · exact h (d deadline hd)
  · simp only [not_or, not_not, not_exists, not_and] at h
    simp only [true_iff]
    exact ⟨h.1, h.2.1, h.2.2.1, fun deadline hd => h.2.2.2 deadline hd⟩

/-- A step out of `running` to anything but reconciliation is either made or answered with a
conflict, when its request is complete and the event is stored. -/
theorem transitionMessage_release
    (hfrom : t.from = .running) (hto : t.to = .completed ∨ t.to = .failed)
    (hcheck : t.tenantID ≠ "" ∧ t.eventID ≠ "" ∧ t.owner ≠ "")
    (hfound : s.events.lookup (key [t.tenantID, t.eventID]) = some value) :
    s.MovesMessage now t value ∨ s.transitionMessage now t = (.error .conflict, s) := by
  have hlegal : validateMessageTransition t.from t.to = true := by
    rcases hto with h | h <;> rw [hfrom, h] <;> decide
  have hnone : checkMessageTransition t = none :=
    checkMessageTransition_eq_none.2 ⟨hcheck.1, hcheck.2.1, hcheck.2.2, hlegal⟩
  unfold transitionMessage
  simp only [hnone, hfound]
  split_ifs with hstatus
  · exact .inr rfl
  · cases hlease : validateMessageLease now value t with
    | none =>
      exact .inl ⟨hcheck.1, hcheck.2.1, hcheck.2.2, hlegal, hfound, not_not.1 hstatus, hlease⟩
    | some err =>
      have herr : err = .conflict := by
        unfold validateMessageLease at hlease
        rcases hto with h | h <;> simp only [hfrom, h] at hlease <;> split_ifs at hlease <;>
          simp_all
      simp only [herr]
      exact .inr trivial

/-! ## Single reply rows -/

/-- What a successful `ClaimReply` found: a complete request, and a row that waits for delivery or
whose lease is over. -/
structure ClaimsReply (s : Store) (now : ℤ) (tenantID replyID : String) (segment : ℤ)
    (owner : String) (leaseDuration : ℤ) (value : ReplyOutbox) : Prop where
  tenant_ne : tenantID ≠ ""
  reply_ne : replyID ≠ ""
  owner_ne : owner ≠ ""
  /-- The lease has a duration. -/
  lease_pos : 0 < leaseDuration
  /-- The row is stored. -/
  found : s.replies.lookup (replyKey tenantID replyID segment) = some value
  /-- It may be claimed. -/
  claimable : value.status = .pending ∨ value.status = .retryable ∨ leaseExpired now value = true

/-- A claim with all its parts fails because there is no such row, or because it is taken. -/
theorem claimReply_error {s : Store} {now : ℤ} {tenantID replyID owner : String}
    {segment leaseDuration : ℤ} {err : Err} (ht : tenantID ≠ "") (hr : replyID ≠ "")
    (ho : owner ≠ "") (hl : 0 < leaseDuration)
    (h : (s.claimReply now tenantID replyID segment owner leaseDuration).1 = .error err) :
    err = .notFound ∨ err = .conflict := by
  unfold claimReply at h
  rw [if_neg (by
    rw [not_or, not_or, not_or, not_not, validateTenant_eq_none]
    exact ⟨ht, hr, ho, Int.not_le.2 hl⟩)] at h
  split at h
  · exact .inl (Except.error.inj h).symm
  · split_ifs at h
    exact .inr (Except.error.inj h).symm

/-- `ClaimReply` fails, or it claims the row. -/
theorem claimReply_spec (s : Store) (now : ℤ) (tenantID replyID : String) (segment : ℤ)
    (owner : String) (leaseDuration : ℤ) :
    (∃ err, s.claimReply now tenantID replyID segment owner leaseDuration = (.error err, s)) ∨
    ∃ value, s.ClaimsReply now tenantID replyID segment owner leaseDuration value ∧
      s.claimReply now tenantID replyID segment owner leaseDuration =
        (.ok (applyClaim now owner leaseDuration value),
          s.setReply (replyKey tenantID replyID segment)
            (applyClaim now owner leaseDuration value)) := by
  unfold claimReply
  split_ifs with hvalid
  · exact .inl ⟨_, rfl⟩
  · simp only [validateTenant_eq_none, not_or, not_not] at hvalid
    obtain ⟨ht, hr, ho, _⟩ := hvalid
    split
    · exact .inl ⟨_, rfl⟩
    · next value hfound =>
      split_ifs with hclaim
      · exact .inl ⟨_, rfl⟩
      · refine .inr ⟨value, ⟨ht, hr, ho, by omega, hfound, ?_⟩, rfl⟩
        simp only [not_and, not_not] at hclaim
        by_cases h1 : value.status = .pending
        · exact .inl h1
        · by_cases h2 : value.status = .retryable
          · exact .inr (.inl h2)
          · exact .inr (.inr (hclaim h1 h2))

/-- What a successful `TransitionReply` found: a complete request for a legal step, and a row in the
state that it starts from, held by nobody else, under the same token, with a lease that is not
over. -/
structure MovesReply (s : Store) (now : ℤ) (t : ReplyTransition) (value : ReplyOutbox) :
    Prop where
  tenant_ne : t.tenantID ≠ ""
  reply_ne : t.replyID ≠ ""
  owner_ne : t.owner ≠ ""
  /-- The step is legal. -/
  legal : validateTransition t.from t.to = true
  /-- The row is stored. -/
  found : s.replies.lookup (replyKey t.tenantID t.replyID t.segmentIndex) = some value
  /-- It is in the state that the step starts from. -/
  status : value.status = t.from
  /-- Nobody else holds it. -/
  holder : value.leaseOwner = "" ∨ value.leaseOwner = t.owner
  /-- The token is the row's, if one is given. -/
  token : t.fencingToken = 0 ∨ value.fencingToken = t.fencingToken
  /-- Its lease is not over. -/
  live : leaseExpired now value = false

/-- A legal step of a stored row with all its parts fails with a conflict only. -/
theorem transitionReply_error {s : Store} {now : ℤ} {t : ReplyTransition} {err : Err}
    (ht : t.tenantID ≠ "") (hr : t.replyID ≠ "") (ho : t.owner ≠ "")
    (hlegal : validateTransition t.from t.to = true) {value : ReplyOutbox}
    (hfound : s.replies.lookup (replyKey t.tenantID t.replyID t.segmentIndex) = some value)
    (h : (s.transitionReply now t).1 = .error err) : err = .conflict := by
  unfold transitionReply at h
  rw [if_neg (by
    rw [not_or, not_or, not_not, validateTenant_eq_none]
    exact ⟨ht, hr, ho⟩), if_neg (not_not.2 hlegal)] at h
  simp only [hfound] at h
  split_ifs at h
  · exact (Except.error.inj h).symm
  · exact (Except.error.inj h).symm

/-- `TransitionReply` fails, or it moves the row. -/
theorem transitionReply_spec (s : Store) (now : ℤ) (t : ReplyTransition) :
    (∃ err, s.transitionReply now t = (.error err, s)) ∨
    ∃ value, s.MovesReply now t value ∧
      s.transitionReply now t = (.ok (applyReplyTransition now value t),
        s.setReply (replyKey t.tenantID t.replyID t.segmentIndex)
          (applyReplyTransition now value t)) := by
  unfold transitionReply
  split_ifs with hvalid hlegal
  · exact .inl ⟨_, rfl⟩
  · simp only [validateTenant_eq_none, not_or, not_not] at hvalid
    obtain ⟨ht, hr, ho⟩ := hvalid
    dsimp only
    split
    · exact .inl ⟨_, rfl⟩
    · next value hfound =>
      split_ifs with hheld hexpired
      · exact .inl ⟨_, rfl⟩
      · exact .inl ⟨_, rfl⟩
      · simp only [not_or, not_and, not_not] at hheld
        obtain ⟨hstatus, hholder, htoken⟩ := hheld
        refine .inr ⟨value, ⟨ht, hr, ho, hlegal, hfound, hstatus, ?_, ?_, ?_⟩, rfl⟩
        · by_cases h : value.leaseOwner = ""
          · exact .inl h
          · exact .inr (hholder h)
        · by_cases h : t.fencingToken = 0
          · exact .inl h
          · exact .inr (htoken h)
        · simpa using hexpired
  · exact .inl ⟨_, rfl⟩

/-- A step whose preconditions hold is made. -/
theorem MovesReply.eq {t : ReplyTransition} {value : ReplyOutbox} (h : s.MovesReply now t value) :
    s.transitionReply now t = (.ok (applyReplyTransition now value t),
      s.setReply (replyKey t.tenantID t.replyID t.segmentIndex)
        (applyReplyTransition now value t)) := by
  have hvalid : ¬ (validateTenant t.tenantID ≠ none ∨ t.replyID = "" ∨ t.owner = "") := by
    simp [h.tenant_ne, h.reply_ne, h.owner_ne]
  have hheld : ¬ (value.status ≠ t.from ∨ (value.leaseOwner ≠ "" ∧ value.leaseOwner ≠ t.owner) ∨
      (t.fencingToken ≠ 0 ∧ value.fencingToken ≠ t.fencingToken)) := by
    rintro (hstatus | ⟨hempty, howner⟩ | ⟨hzero, htoken⟩)
    · exact hstatus h.status
    · exact h.holder.elim hempty howner
    · exact h.token.elim hzero htoken
  have hlive : ¬ leaseExpired now value = true := by simp [h.live]
  unfold transitionReply
  rw [if_neg hvalid, if_neg (not_not.2 h.legal)]
  simp only [h.found, if_neg hheld, if_neg hlive]
  rfl

/-- A claim whose preconditions hold is made. -/
theorem ClaimsReply.eq {tenantID replyID owner : String} {segment leaseDuration : ℤ}
    {value : ReplyOutbox}
    (h : s.ClaimsReply now tenantID replyID segment owner leaseDuration value) :
    s.claimReply now tenantID replyID segment owner leaseDuration =
      (.ok (applyClaim now owner leaseDuration value),
        s.setReply (replyKey tenantID replyID segment)
          (applyClaim now owner leaseDuration value)) := by
  have hvalid : ¬ (validateTenant tenantID ≠ none ∨ replyID = "" ∨ owner = "" ∨
      leaseDuration ≤ 0) := by
    simp [h.tenant_ne, h.reply_ne, h.owner_ne, h.lease_pos]
  have hclaim : ¬ (value.status ≠ .pending ∧ value.status ≠ .retryable ∧
      ¬ leaseExpired now value = true) := by
    rintro ⟨hpending, hretryable, hexpired⟩
    exact h.claimable.elim hpending fun h => h.elim hretryable hexpired
  unfold claimReply
  rw [if_neg hvalid]
  simp only [h.found, if_neg hclaim]
  rfl

/-! ## Reply batches -/

/-- The key of a reply row. -/
def rowKey (value : ReplyOutbox) : String :=
  replyKey value.tenantID value.replyID value.segmentIndex

/-- A row as a batch stores it. -/
def pendingRow (now : ℤ) (value : ReplyOutbox) : ReplyOutbox :=
  { value with status := .pending, createdAt := now, updatedAt := now }

/-- What a row that `EnqueueReply` stores found: a valid row that is not there yet, and its event
with the same destination. -/
structure EnqueuesReply (s : Store) (value : ReplyOutbox) : Prop where
  tenant_ne : value.tenantID ≠ ""
  reply_ne : value.replyID ≠ ""
  /-- The segment is one of the reply. -/
  index : 0 ≤ value.segmentIndex ∧ value.segmentIndex < value.segmentCount
  /-- The event is stored, with the same destination. -/
  event : ∃ event, s.events.lookup (key [value.tenantID, value.eventID]) = some event ∧
    event.replyTarget = value.replyTarget
  /-- The row is not there yet. -/
  fresh : s.replies.lookup (rowKey value) = none

/-- `EnqueueReply` fails, finds the row, or stores it as pending. -/
theorem enqueueReply_spec (s : Store) (now : ℤ) (value : ReplyOutbox) :
    (∃ err, s.enqueueReply now value = (.error err, s)) ∨
    (∃ existing, s.enqueueReply now value = (.ok existing, s)) ∨
    (s.EnqueuesReply value ∧ s.enqueueReply now value =
      (.ok (pendingRow now value), s.setReply (rowKey value) (pendingRow now value))) := by
  unfold enqueueReply
  by_cases hvalid : validateTenant value.tenantID ≠ none ∨ value.replyID = "" ∨
      value.eventID = "" ∨ value.segmentIndex < 0 ∨ value.segmentCount ≤ value.segmentIndex ∨
      validateReplyTarget value.replyTarget ≠ none
  · rw [if_pos hvalid]
    exact .inl ⟨_, rfl⟩
  · rw [if_neg hvalid]
    simp only [not_or, not_not, validateTenant_eq_none, Int.not_lt, Int.not_le] at hvalid
    obtain ⟨htenant, hreply, -, hindex, hcount, -⟩ := hvalid
    dsimp only
    generalize (if value.status = .other "" then ReplyStatus.pending else value.status) = status
    by_cases hstatus : status ≠ .pending
    · rw [if_pos hstatus]
      exact .inl ⟨_, rfl⟩
    · rw [if_neg hstatus, not_not.1 hstatus]
      -- What is left is the part under the lock, at the row as it would be stored.
      unfold storeReply
      dsimp only
      split
      · exact .inl ⟨_, rfl⟩
      · next event hevent =>
        split
        · exact .inl ⟨_, rfl⟩
        · next htarget =>
          split
          · split
            · exact .inl ⟨_, rfl⟩
            · exact .inr (.inl ⟨_, rfl⟩)
          · next hfresh =>
            exact .inr (.inr ⟨⟨htenant, hreply, ⟨hindex, hcount⟩,
              ⟨event, hevent, not_not.1 htarget⟩, hfresh⟩, rfl⟩)

section

variable (h : collectSegments first values seen = some seen')

include h

/-- The segments of a batch that passes the loop of `validateReplyBatch`. -/
theorem collectSegments_spec : (∀ v ∈ values, invalidBatchReply first v = false) ∧
      ∀ i, i ∈ seen' ↔ i ∈ seen ∨ ∃ v ∈ values, v.segmentIndex = i := by
  induction values generalizing seen with
  | nil =>
    cases h
    simp
  | cons _ _ ih =>
    simp only [collectSegments] at h
    split_ifs at h with hinvalid hseen
    obtain ⟨hmem, hiff⟩ := ih h
    refine ⟨?_, fun i => ?_⟩
    · simpa [hinvalid] using hmem
    · rw [hiff i]
      simp only [mem_cons, exists_eq_or_imp]
      constructor
      · rintro ((rfl | h) | h)
        exacts [.inr (.inl rfl), .inl h, .inr (.inr h)]
      · rintro (h | rfl | h)
        exacts [.inl (.inr h), .inl (.inl rfl), .inr h]

/-- No segment of a batch that passes the loop of `validateReplyBatch` occurs twice. -/
theorem collectSegments_nodup :
    (values.map ReplyOutbox.segmentIndex).Nodup ∧ ∀ v ∈ values, v.segmentIndex ∉ seen := by
  induction values generalizing seen with
  | nil => simp
  | cons _ _ ih =>
    simp only [collectSegments] at h
    split_ifs at h with hinvalid hseen
    obtain ⟨hnodup, hfresh⟩ := ih h
    refine ⟨?_, fun u hu => ?_⟩
    · rw [map_cons, nodup_cons]
      refine ⟨fun hmem => ?_, hnodup⟩
      obtain ⟨u, hu, heq⟩ := mem_map.1 hmem
      exact hfresh u hu (heq ▸ mem_cons_self)
    · rcases mem_cons.1 hu with rfl | hu
      · exact hseen
      · exact fun hmem => hfresh u hu (mem_cons_of_mem _ hmem)

/-- The loop of `validateReplyBatch` collects one segment for each row. -/
theorem collectSegments_length : seen'.length = seen.length + values.length := by
  induction values generalizing seen with
  | nil =>
    cases h
    rfl
  | cons _ _ ih =>
    simp only [collectSegments] at h
    split_ifs at h
    rw [ih h, length_cons, length_cons]
    omega

end

/-- A batch that passes `validateReplyBatch`: valid rows of one reply that cover its segments. -/
structure ValidBatch (first : ReplyOutbox) (values : List ReplyOutbox) : Prop where
  /-- The first row is one of the batch. -/
  first_mem : first ∈ values
  /-- Every row is valid and agrees with the first one. -/
  rows : ∀ v ∈ values, invalidBatchReply first v = false
  /-- Every segment of the reply is there. -/
  covers : ∀ i, 0 ≤ i → i < first.segmentCount → ∃ v ∈ values, v.segmentIndex = i
  /-- No segment occurs twice. -/
  nodup : (values.map ReplyOutbox.segmentIndex).Nodup

/-- What `validateReplyBatch` checks. -/
theorem validateReplyBatch_spec
    (h : validateReplyBatch values = .ok first) : ValidBatch first values := by
  unfold validateReplyBatch at h
  cases values with
  | nil => cases h
  | cons =>
    dsimp only at h
    split at h
    · cases h
    · next seen hseen =>
      split_ifs at h with hlen hall
      cases h
      obtain ⟨hrows, hmem⟩ := collectSegments_spec hseen
      refine ⟨mem_cons_self, hrows, fun i h0 _ => ?_, (collectSegments_nodup hseen).1⟩
      have hi' : i ∈ seen := by
        have := all_eq_true.1 hall i.toNat (by simp; omega)
        simpa [Int.toNat_of_nonneg h0] using this
      simpa using (hmem i).1 hi'

/-- A batch that passes `validateReplyBatch` has as many rows as it says. -/
theorem validateReplyBatch_length
    (h : validateReplyBatch values = .ok first) : first.segmentCount = values.length := by
  unfold validateReplyBatch at h
  cases values with
  | nil => cases h
  | cons =>
    dsimp only at h
    split at h
    · cases h
    · next seen hseen =>
      split_ifs at h with hlen hall
      cases h
      have hlength := collectSegments_length hseen
      simp only [length_nil, Nat.zero_add] at hlength
      rw [← hlength]
      exact (not_not.1 hlen).symm

variable {replies : GoMap ReplyOutbox}

/-- What `validateExistingReplies` checks: the rows already there agree with the batch. -/
theorem validateExistingReplies_eq_none :
    validateExistingReplies replies values = none ↔ ∀ v ∈ values, ∀ existing,
      replies.lookup (rowKey v) = some existing → replyDiffers existing v = false := by
  induction values with
  | nil => simp [validateExistingReplies]
  | cons _ _ ih =>
    simp only [validateExistingReplies, forall_mem_cons, rowKey]
    split
    · next hnone =>
      rw [ih, hnone]
      simp [rowKey]
    · next existing hsome =>
      rw [hsome]
      split_ifs with hdiff
      · simp [hdiff]
      · rw [ih]
        simp [rowKey, hdiff]

/-- After a batch is written, a row that was there is unchanged, and a new row is the batch's. -/
theorem lookup_insertReplies (now : ℤ) (values : List ReplyOutbox) (replies : GoMap ReplyOutbox)
    (k : String) : (insertReplies now values replies).2.lookup k = (replies.lookup k).or
      ((values.find? fun v => rowKey v = k).map (pendingRow now)) := by
  induction values generalizing replies with
  | nil => simp [insertReplies]
  | cons v _ ih =>
    simp only [insertReplies]
    split
    · next existing hsome =>
      rw [ih]
      by_cases hk : rowKey v = k
      · have hlook : replies.lookup k = some existing := by rw [← hk]; exact hsome
        simp [hlook]
      · simp [hk]
    · next hnone =>
      rw [ih]
      by_cases hk : rowKey v = k
      · have hlook : replies.lookup k = none := by rw [← hk]; exact hnone
        simp only [find?_cons, hk, decide_true, Option.map_some, hlook, Option.none_or]
        rw [show replyKey v.tenantID v.replyID v.segmentIndex = k from hk, AList.lookup_insert]
        rfl
      · have hne : k ≠ replyKey v.tenantID v.replyID v.segmentIndex := fun h => hk h.symm
        rw [AList.lookup_insert_ne hne]
        simp [hk]

/-- A batch returns the rows that are stored after it. -/
theorem insertReplies_rows (now : ℤ) (values : List ReplyOutbox) (replies : GoMap ReplyOutbox) :
    List.Forall₂ (fun v row => (insertReplies now values replies).2.lookup (rowKey v) = some row)
      values (insertReplies now values replies).1 := by
  induction values generalizing replies with
  | nil => exact .nil
  | cons v _ ih =>
    simp only [insertReplies]
    split
    · next existing hsome =>
      refine .cons ?_ (ih replies)
      rw [lookup_insertReplies, show replies.lookup (rowKey v) = some existing from hsome,
        Option.some_or]
    · refine .cons ?_ (ih _)
      rw [lookup_insertReplies]
      simp only [rowKey, AList.lookup_insert, Option.some_or]

/-- A batch whose rows are all there writes nothing. -/
theorem insertReplies_of_present (h : ∀ v ∈ values, replies.lookup (rowKey v) ≠ none) (now : ℤ) :
    (insertReplies now values replies).2 = replies := by
  induction values with
  | nil => rfl
  | cons v _ ih =>
    simp only [insertReplies]
    split
    · exact ih fun u hu => h u (mem_cons_of_mem _ hu)
    · next hnone => exact absurd hnone (h v mem_cons_self)

/-- What a successful batch found: a valid batch for a stored event with the same destination, a
correlation that agrees with the stored one, and rows that agree with those already there. -/
structure Enqueues (s : Store) (correlation : ReplyCorrelation) (values : List ReplyOutbox)
    (first : ReplyOutbox) : Prop where
  /-- The batch is valid. -/
  batch : ValidBatch first values
  /-- The event is stored, with the same destination. -/
  event : ∃ event, s.events.lookup (key [first.tenantID, first.eventID]) = some event ∧
    event.replyTarget = first.replyTarget
  /-- The correlation agrees with the batch and with the stored one. -/
  correlation : checkCorrelation s correlation first = none
  /-- The rows already there agree with the batch. -/
  existing : ∀ v ∈ values, ∀ row, s.replies.lookup (rowKey v) = some row →
    replyDiffers row v = false

/-- A correlation that a batch carries names the event of the batch. -/
theorem Enqueues.names {s : Store} {correlation : ReplyCorrelation}
    (h : s.Enqueues correlation values first) (hrequest : correlation.requestID ≠ "") :
    correlation.tenantID = first.tenantID ∧ correlation.eventID = first.eventID := by
  have hcheck := h.correlation
  unfold checkCorrelation at hcheck
  rw [if_neg hrequest] at hcheck
  split_ifs at hcheck with hnames
  simpa [not_or] using hnames

/-- The store after a batch is written. -/
def enqueued (s : Store) (now : ℤ) (correlation : ReplyCorrelation) (values : List ReplyOutbox) :
    Store :=
  let correlationKey := key [correlation.tenantID, correlation.eventID]
  { s with
    replies := (insertReplies now values s.replies).2
    correlations :=
      if correlation.requestID ≠ "" then s.correlations.insert correlationKey correlation
      else s.correlations }

/-- A batch fails, or it is written. -/
theorem enqueueReplies_spec (s : Store) (now : ℤ) (correlation : ReplyCorrelation)
    (values : List ReplyOutbox) :
    (∃ err, s.enqueueReplies now correlation values = (.error err, s)) ∨
    ∃ first, validateReplyBatch values = .ok first ∧ s.Enqueues correlation values first ∧
      s.enqueueReplies now correlation values =
        (.ok (insertReplies now values s.replies).1, s.enqueued now correlation values) := by
  unfold enqueueReplies
  split
  · exact .inl ⟨_, rfl⟩
  · next first hbatch =>
    split
    · exact .inl ⟨_, rfl⟩
    · next event hevent =>
      split
      · exact .inl ⟨_, rfl⟩
      · next htarget =>
        split
        · exact .inl ⟨_, rfl⟩
        · next hcorrelation =>
          split
          · exact .inl ⟨_, rfl⟩
          · next hexisting =>
            exact .inr ⟨first, hbatch, ⟨validateReplyBatch_spec hbatch,
              ⟨event, hevent, not_not.1 htarget⟩, hcorrelation,
              validateExistingReplies_eq_none.1 hexisting⟩, rfl⟩

/-- A batch whose preconditions hold is written. -/
theorem Enqueues.eq {correlation : ReplyCorrelation}
    (hvalid : validateReplyBatch values = .ok first) (h : s.Enqueues correlation values first) :
    s.enqueueReplies now correlation values =
      (.ok (insertReplies now values s.replies).1, s.enqueued now correlation values) := by
  obtain ⟨event, hevent, htarget⟩ := h.event
  have hexisting : validateExistingReplies s.replies values = none :=
    validateExistingReplies_eq_none.2 h.existing
  unfold enqueueReplies
  simp only [hvalid, hevent, htarget, h.correlation, hexisting, ne_eq, not_true_eq_false, if_false]
  rfl

end AgentService.Storage.Store
