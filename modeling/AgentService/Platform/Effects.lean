import AgentService.Platform.Machine
import AgentService.Storage.Sound

/-!
# What the operations of the platform do

For each operation, the answers that it can give and the state that it leaves (`performs_...`).
`Change` collects what an operation of the runtime store can do to the store, and `State.Evolves`
extends the order on stores to the whole state: the clock does not go back, an audit event and a
finalized handoff stay. Every operation and every move of the clock respects it.
-/

namespace AgentService.Platform

open Storage Concurrent AList Store

variable {x : Externals} {s s' : State}

/-! ## Answers -/

variable {ctx : Ctx} {o : StoreOp} {r : Except Err MessageEvent} {tenantID : String}
variable {value : Audit.ExecutionHandoff} {now : ℤ}

/-- An operation of the runtime store finds its context done, or it is performed. -/
theorem performs_store {r : Except Err o.Val} : (platform x).Performs (.store ctx o) s r s' ↔
      (ctx = .caller ∧ s' = s ∧ ∃ cause, r = .error (.ctx cause)) ∨
      ∃ order store, o.apply x order s.clock s.store = some (r, store) ∧
        s' = { s with store := store } := by
  constructor
  · rintro ⟨ch, h⟩
    simp only [platform, perform] at h
    cases hctx : ch.interrupts ctx with
    | some cause =>
      rw [hctx] at h
      cases h
      cases ctx with
      | caller => exact .inl ⟨rfl, rfl, cause, rfl⟩
      | background => cases hctx
    | none =>
      rw [hctx] at h
      simp only [Option.map_eq_some_iff] at h
      obtain ⟨⟨_, store⟩, happly, hr⟩ := h
      cases hr
      exact .inr ⟨ch.order, store, happly, rfl⟩
  · rintro (⟨rfl, rfl, cause, rfl⟩ | ⟨order, store, happly, rfl⟩)
    · exact ⟨{ done := some cause }, rfl⟩
    · refine ⟨{ order := order }, ?_⟩
      have hctx : Choice.interrupts { order := order } ctx = none := by cases ctx <;> rfl
      simp only [platform, perform, hctx, happly, Option.map_some]

/-- An operation that answers in one way only gives this answer, unless its context is done. -/
theorem performs_answer {r : Except Err o.Val} {out : Except Err o.Val × Store}
    (h : (platform x).Performs (.store ctx o) s r s')
    (hout : ∀ order, o.apply x order s.clock s.store = some out) :
    (ctx = .caller ∧ s' = s ∧ ∃ cause, r = .error (.ctx cause)) ∨
      (r = out.1 ∧ s' = { s with store := out.2 }) := by
  rcases performs_store.1 h with hctx | ⟨order, store, happly, rfl⟩
  · exact .inl hctx
  · rw [hout] at happly
    cases happly
    exact .inr ⟨rfl, rfl⟩

/-- An operation that fails without effect, or answers in one way where a condition holds. -/
theorem performs_outcome {α : Type} {r : Except Err o.Val} {out : Except Err o.Val × Store}
    {C : α → Prop} {answer : α → o.Val} {store : α → Store}
    (h : (platform x).Performs (.store ctx o) s r s')
    (hout : ∀ order, o.apply x order s.clock s.store = some out)
    (hspec : (∃ err, out = (.error err, s.store)) ∨ ∃ a, C a ∧ out = (.ok (answer a), store a)) :
    (s' = s ∧ ∃ err, r = .error err) ∨
      ∃ a, C a ∧ r = .ok (answer a) ∧ s' = { s with store := store a } := by
  rcases performs_answer h hout with ⟨-, rfl, _, rfl⟩ | ⟨rfl, rfl⟩
  · exact .inl ⟨rfl, _, rfl⟩
  · rcases hspec with ⟨err, rfl⟩ | ⟨a, ha, rfl⟩
    · exact .inl ⟨rfl, _, rfl⟩
    · exact .inr ⟨a, ha, rfl, rfl⟩

variable {t : MessageTransition}

/-- `TransitionMessage` fails without effect, or it moves the event. -/
theorem performs_transitionMessage
    (h : (platform x).Performs (.store ctx (.transitionMessage t)) s r s') :
    (s' = s ∧ ∃ err, r = .error err) ∨
    ∃ value, s.store.MovesMessage s.clock t value ∧
      r = .ok (applyMessageTransition s.clock value t) ∧
      s' = { s with store := s.store.setEvent (key [t.tenantID, t.eventID])
                      (applyMessageTransition s.clock value t) } :=
  performs_outcome h (fun _ => rfl) (s.store.transitionMessage_spec s.clock t)

/-- `ClaimReply` fails without effect, or it claims the row. -/
theorem performs_claimReply {replyID owner : String}
    {segment leaseDuration : ℤ} {r : Except Err ReplyOutbox}
    (h : (platform x).Performs
      (.store ctx (.claimReply tenantID replyID segment owner leaseDuration)) s r s') :
    (s' = s ∧ ∃ err, r = .error err) ∨
    ∃ value, s.store.ClaimsReply s.clock tenantID replyID segment owner leaseDuration value ∧
      r = .ok (applyClaim s.clock owner leaseDuration value) ∧
      s' = { s with store := s.store.setReply (replyKey tenantID replyID segment)
                      (applyClaim s.clock owner leaseDuration value) } :=
  performs_outcome h (fun _ => rfl)
    (s.store.claimReply_spec s.clock tenantID replyID segment owner leaseDuration)

/-- `TransitionReply` fails without effect, or it moves the row. -/
theorem performs_transitionReply {t : ReplyTransition} {r : Except Err ReplyOutbox}
    (h : (platform x).Performs (.store ctx (.transitionReply t)) s r s') :
    (s' = s ∧ ∃ err, r = .error err) ∨
    ∃ value, s.store.MovesReply s.clock t value ∧ r = .ok (applyReplyTransition s.clock value t) ∧
      s' = { s with store := s.store.setReply (replyKey t.tenantID t.replyID t.segmentIndex)
                      (applyReplyTransition s.clock value t) } :=
  performs_outcome h (fun _ => rfl) (s.store.transitionReply_spec s.clock t)

/-- A legal step of an event is made, unless the context is done. -/
theorem performs_transitionMessage_of_moves {value : MessageEvent}
    (hmoves : s.store.MovesMessage s.clock t value) (hr : ∀ cause, r ≠ .error (.ctx cause))
    (h : (platform x).Performs (.store ctx (.transitionMessage t)) s r s') :
    r = .ok (applyMessageTransition s.clock value t) ∧
      s' = { s with store := s.store.setEvent (key [t.tenantID, t.eventID])
                      (applyMessageTransition s.clock value t) } := by
  rcases performs_answer h (fun _ => congrArg some hmoves.eq) with ⟨-, -, cause, hcause⟩ | hanswer
  · exact absurd hcause (hr cause)
  · exact hanswer

/-- The batch that an operation writes: its correlation and its rows. -/
def StoreOp.Batch (x : Externals) : StoreOp → ReplyCorrelation → List ReplyOutbox → Prop
  | .enqueueReplies values, correlation, rows =>
    correlation = Store.noCorrelation ∧ rows = values
  | .enqueueRepliesWithCorrelation given values, correlation, rows =>
    correlation = { given with traceParent := x.normalizeTraceParent given.traceParent } ∧
      rows = values ∧ given.tenantID ≠ "" ∧ given.eventID ≠ "" ∧ given.requestID ≠ ""
  | _, _, _ => False

/-- `EnqueueRepliesWithCorrelation` fails without effect, or it writes the batch. -/
theorem performs_enqueueRepliesWithCorrelation {correlation : ReplyCorrelation}
    {values : List ReplyOutbox} {r : Except Err (List ReplyOutbox)}
    (h : (platform x).Performs
      (.store ctx (.enqueueRepliesWithCorrelation correlation values)) s r s') :
    (s' = s ∧ ∃ err, r = .error err) ∨
    ∃ given first rows,
      (StoreOp.enqueueRepliesWithCorrelation correlation values).Batch x given values ∧
      s.store.Enqueues given values first ∧ r = .ok rows ∧
      s' = { s with store := s.store.enqueued s.clock given values } := by
  rcases performs_store.1 h with ⟨-, rfl, _, rfl⟩ | ⟨_, store, happly, rfl⟩
  · exact .inl ⟨rfl, _, rfl⟩
  · simp only [StoreOp.apply, enqueueRepliesWithCorrelation] at happly
    split_ifs at happly with hgiven
    · cases happly
      exact .inl ⟨rfl, _, rfl⟩
    · simp only [not_or] at hgiven
      rcases s.store.enqueueReplies_spec s.clock
        { correlation with
          traceParent := x.normalizeTraceParent correlation.traceParent } values with
        ⟨err, heq⟩ | ⟨first, -, hfirst, heq⟩
      · rw [heq] at happly
        cases happly
        exact .inl ⟨rfl, _, rfl⟩
      · rw [heq] at happly
        cases happly
        exact .inr ⟨_, first, _, ⟨rfl, rfl, hgiven⟩, hfirst, rfl, rfl⟩

/-- `EnqueueReplies` fails without effect, or it writes the batch. -/
theorem performs_enqueueReplies {values : List ReplyOutbox} {r : Except Err (List ReplyOutbox)}
    (h : (platform x).Performs (.store ctx (.enqueueReplies values)) s r s') :
    (s' = s ∧ ∃ err, r = .error err) ∨
    ∃ first rows, s.store.Enqueues noCorrelation values first ∧ r = .ok rows ∧
      s' = { s with store := s.store.enqueued s.clock noCorrelation values } := by
  rcases performs_answer h (fun _ => rfl) with ⟨-, rfl, _, rfl⟩ | ⟨rfl, rfl⟩
  · exact .inl ⟨rfl, _, rfl⟩
  · rw [enqueueRepliesPlain]
    rcases s.store.enqueueReplies_spec s.clock noCorrelation values with
      ⟨err, heq⟩ | ⟨first, -, hfirst, heq⟩
    · rw [heq]
      exact .inl ⟨rfl, _, rfl⟩
    · rw [heq]
      exact .inr ⟨first, _, hfirst, rfl, rfl⟩

/-- `RecordMessage` fails without effect, finds the message, or records it. -/
theorem performs_recordMessage {input : MessageEventInput} {r : Except Err (MessageEvent × Bool)}
    (h : (platform x).Performs (.store ctx (.recordMessage input)) s r s') :
    (s' = s ∧ ∃ err, r = .error err) ∨
    (s' = s ∧ ∃ k, s.store.messages.lookup
        (key [input.tenantID, input.bindingID, input.externalMessageID]) = some k ∧
      r = .ok ((s.store.events.lookup k).getD zeroEvent, true)) ∨
    ∃ sessions seq, s.store.RecordsMessage input ∧ r = .ok (newEvent s.clock input seq, false) ∧
      s' = { s with
              store := s.store.recorded sessions input (newEvent s.clock input seq) } := by
  rcases performs_answer h (fun _ => rfl) with ⟨-, rfl, _, rfl⟩ | ⟨rfl, rfl⟩
  · exact .inl ⟨rfl, _, rfl⟩
  · rcases s.store.recordMessage_spec s.clock input with
      ⟨err, heq⟩ | ⟨k, -, hk, heq⟩ | ⟨session, hrecords, -, heq⟩
    · rw [heq]
      exact .inl ⟨rfl, _, rfl⟩
    · rw [heq]
      exact .inr (.inl ⟨rfl, k, hk, rfl⟩)
    · rw [heq]
      exact .inr (.inr ⟨_, _, hrecords, rfl, rfl⟩)

/-- `ListReplyCandidates` fails, or it lists the rows of the tenant in some order. -/
theorem performs_listReplyCandidates {r : Except Err (List ReplyOutbox)}
    (h : (platform x).Performs (.store ctx (.listReplyCandidates tenantID)) s r s') :
    s' = s ∧ ((∃ err, r = .error err ∧ (tenantID = "" ∨ ∃ cause, err = .ctx cause)) ∨
      ∃ l, r = .ok l ∧ ∀ row, row ∈ l ↔
        (∃ k, s.store.replies.lookup k = some row) ∧ row.tenantID = tenantID) := by
  rcases performs_store.1 h with ⟨_, rfl, cause, rfl⟩ | ⟨_, store, happly, rfl⟩
  · exact ⟨rfl, .inl ⟨_, rfl, .inr ⟨cause, rfl⟩⟩⟩
  · simp only [StoreOp.apply, listReplyCandidates] at happly
    cases htenant : validateTenant tenantID with
    | some =>
      rw [htenant] at happly
      cases happly
      refine ⟨rfl, .inl ⟨_, rfl, .inl ?_⟩⟩
      by_contra hne
      rw [validateTenant_eq_none.2 hne] at htenant
      cases htenant
    | none =>
      rw [htenant] at happly
      obtain ⟨l, hwalk, hl⟩ : ∃ l : List ReplyOutbox, _ ∧ _ := Option.map_eq_some_iff.1 happly
      cases hl
      refine ⟨rfl, .inr ⟨l, rfl, fun row => ?_⟩⟩
      have hmem : ∀ row, row ∈ l ↔ row ∈ (s.store.replies.entries.map Sigma.snd).filter
          fun value => value.tenantID = tenantID := by
        intro row
        unfold walk at hwalk
        split at hwalk
        · cases hwalk
          exact Iff.rfl
        · split_ifs at hwalk with hperm
          cases hwalk
          exact (List.isPerm_iff.1 hperm).mem_iff
      rw [hmem]
      simp only [List.mem_filter, List.mem_map, decide_eq_true_eq]
      constructor
      · rintro ⟨⟨⟨k, v⟩, hkv, rfl⟩, ht⟩
        exact ⟨⟨k, mem_lookup_iff.2 hkv⟩, ht⟩
      · rintro ⟨⟨k, hk⟩, ht⟩
        exact ⟨⟨⟨k, row⟩, mem_lookup_iff.1 hk, rfl⟩, ht⟩

variable {eventID : String}

/-- `GetMessage` only reads. -/
theorem performs_getMessage
    (h : (platform x).Performs (.store ctx (.getMessage tenantID eventID)) s r s') :
    s' = s ∧ ((ctx = .caller ∧ ∃ cause, r = .error (.ctx cause)) ∨
      r = s.store.getMessage tenantID eventID) := by
  rcases performs_answer h (fun _ => rfl) with ⟨hctx, rfl, hcause⟩ | ⟨hanswer, rfl⟩
  · exact ⟨rfl, .inl ⟨hctx, hcause⟩⟩
  · exact ⟨rfl, .inr hanswer⟩

/-- `GetReplyCorrelation` only reads. -/
theorem performs_getReplyCorrelation {r : Except Err ReplyCorrelation}
    (h : (platform x).Performs (.store ctx (.getReplyCorrelation tenantID eventID)) s r s') :
    s' = s ∧ ((ctx = .caller ∧ ∃ cause, r = .error (.ctx cause)) ∨
      r = s.store.getReplyCorrelation x.normalizeTraceParent tenantID eventID) := by
  rcases performs_answer h (fun _ => rfl) with ⟨hctx, rfl, hcause⟩ | ⟨hanswer, rfl⟩
  · exact ⟨rfl, .inl ⟨hctx, hcause⟩⟩
  · exact ⟨rfl, .inr hanswer⟩

/-- An operation outside the service leaves the state alone. -/
theorem performs_env {e : EnvOp} {r : e.Res} (h : (platform x).Performs (.env e) s r s') :
    s' = s := by
  obtain ⟨_, h⟩ := h
  obtain ⟨_, -, hr⟩ := Option.map_eq_some_iff.1 h
  cases hr
  rfl

/-- The clock is read as it is. -/
theorem performs_now {r : ℤ} (h : (platform x).Performs .now s r s') : s' = s ∧ r = s.clock := by
  obtain ⟨_, h⟩ := h
  cases h
  exact ⟨rfl, rfl⟩

/-- An operation of the audit stores fails from outside, or it is performed. -/
theorem faulty_or_performed {α : Type} {ch : Choice} {r : Except Audit.Err α}
    {out : Except Audit.Err α × State}
    (h : (match ch.fault ctx with
      | some err => some (.error err, s)
      | none => some out) = some (r, s')) :
    (s' = s ∧ ∃ err, ch.fault ctx = some err ∧ r = .error err) ∨ (r = out.1 ∧ s' = out.2) := by
  cases hfault : ch.fault ctx with
  | none =>
    rw [hfault] at h
    cases h
    exact .inr ⟨rfl, rfl⟩
  | some err =>
    rw [hfault] at h
    cases h
    exact .inl ⟨rfl, err, rfl, rfl⟩

/-- An audit append fails from outside, or it is performed. -/
theorem performs_append {event : Audit.Event} {r : Except Audit.Err Audit.AppendResult}
    (h : (platform x).Performs (.append ctx tenantID event) s r s') :
    (s' = s ∧ ((∃ cause, ctx = .caller ∧ r = .error (.ctx cause)) ∨ r = .error .unavailable)) ∨
    (r = (Audit.append x.hashing tenantID s.audits event).1 ∧
      s' = { s with audits := (Audit.append x.hashing tenantID s.audits event).2 }) := by
  obtain ⟨_, h⟩ := h
  rcases faulty_or_performed h with ⟨hs', err, hfault, rfl⟩ | hout
  · refine .inl ⟨hs', ?_⟩
    unfold Choice.fault at hfault
    split at hfault
    · next cause hcause =>
      cases hfault
      cases ctx with
      | caller => exact .inl ⟨cause, rfl, rfl⟩
      | background => cases hcause
    · split_ifs at hfault
      cases hfault
      exact .inr rfl
  · exact .inr hout

variable {r : Except Audit.Err Audit.ExecutionHandoff}

/-- A finalization fails from outside, or it is performed. -/
theorem performs_finalize (h : (platform x).Performs (.finalize ctx value) s r s') :
    (s' = s ∧ ∃ err, r = .error err) ∨
    (r = (Audit.finalize s.clock s.handoffs value).1 ∧
      s' = { s with handoffs := (Audit.finalize s.clock s.handoffs value).2 }) := by
  obtain ⟨_, h⟩ := h
  rcases faulty_or_performed h with ⟨hs', err, -, hr⟩ | hout
  · exact .inl ⟨hs', err, hr⟩
  · exact .inr hout

/-- A reservation fails from outside, or it is performed. -/
theorem performs_reserve (h : (platform x).Performs (.reserve ctx value) s r s') :
    (s' = s ∧ ∃ err, r = .error err) ∨
    (r = (Audit.reserve s.clock s.handoffs value).1 ∧
      s' = { s with handoffs := (Audit.reserve s.clock s.handoffs value).2 }) := by
  obtain ⟨_, h⟩ := h
  rcases faulty_or_performed h with ⟨hs', err, -, hr⟩ | hout
  · exact .inl ⟨hs', err, hr⟩
  · exact .inr hout

/-! ## Changes of the store -/

/-- What an operation of the runtime store can do to the store. -/
inductive Change (x : Externals) (now : ℤ) (s : Store) : StoreOp → Store → Prop
  /-- Nothing. -/
  | none (o : StoreOp) : Change x now s o s
  /-- A session is created. -/
  | session (tenantID sessionID : String) (sessions : GoMap Session) :
      Change x now s (.createSession tenantID sessionID) { s with sessions := sessions }
  /-- A message is recorded. -/
  | record (input : MessageEventInput) (sessions : GoMap Session) (seq : ℤ)
      (h : s.RecordsMessage input) :
      Change x now s (.recordMessage input)
        (s.recorded sessions input (Store.newEvent now input seq))
  /-- An event moves. -/
  | message (t : MessageTransition) (value : MessageEvent) (h : s.MovesMessage now t value) :
      Change x now s (.transitionMessage t)
        (s.setEvent (key [t.tenantID, t.eventID]) (Store.applyMessageTransition now value t))
  /-- A batch is written. -/
  | enqueue (o : StoreOp) (correlation : ReplyCorrelation) (values : List ReplyOutbox)
      (first : ReplyOutbox) (ho : o.Batch x correlation values)
      (h : s.Enqueues correlation values first) :
      Change x now s o (s.enqueued now correlation values)
  /-- A row is claimed. -/
  | claim (tenantID replyID : String) (segment : ℤ) (owner : String) (leaseDuration : ℤ)
      (value : ReplyOutbox)
      (h : s.ClaimsReply now tenantID replyID segment owner leaseDuration value) :
      Change x now s (.claimReply tenantID replyID segment owner leaseDuration)
        (s.setReply (replyKey tenantID replyID segment)
          (Store.applyClaim now owner leaseDuration value))
  /-- A row moves. -/
  | reply (t : ReplyTransition) (value : ReplyOutbox) (h : s.MovesReply now t value) :
      Change x now s (.transitionReply t)
        (s.setReply (replyKey t.tenantID t.replyID t.segmentIndex)
          (Store.applyReplyTransition now value t))

/-- Every operation of the runtime store changes the store in one of these ways, and nothing
else. -/
theorem performs_store_change {r : Except Err o.Val}
    (h : (platform x).Performs (.store ctx o) s r s') :
    ∃ store, s' = { s with store := store } ∧ Change x s.clock s.store o store := by
  cases o with
  | getSession =>
    rcases performs_store.1 h with ⟨-, rfl, -⟩ | ⟨order, store, happly, rfl⟩
    · exact ⟨_, rfl, .none _⟩
    · cases happly
      exact ⟨_, rfl, .none _⟩
  | createSession tenantID sessionID =>
    rcases performs_store.1 h with ⟨-, rfl, -⟩ | ⟨order, store, happly, rfl⟩
    · exact ⟨_, rfl, .none _⟩
    · rcases s.store.createSession_spec s.clock tenantID sessionID with ⟨_, heq⟩ | ⟨-, heq⟩
      · simp only [StoreOp.apply, heq] at happly
        cases happly
        exact ⟨_, rfl, .none _⟩
      · simp only [StoreOp.apply, heq] at happly
        cases happly
        exact ⟨_, rfl, .session tenantID sessionID _⟩
  | recordMessage input =>
    rcases performs_recordMessage h with ⟨rfl, -⟩ | ⟨rfl, -⟩ | ⟨sessions, seq, hrec, -, rfl⟩
    · exact ⟨_, rfl, .none _⟩
    · exact ⟨_, rfl, .none _⟩
    · exact ⟨_, rfl, .record input sessions seq hrec⟩
  | getMessage =>
    obtain ⟨rfl, -⟩ := performs_getMessage h
    exact ⟨_, rfl, .none _⟩
  | transitionMessage t =>
    rcases performs_transitionMessage h with ⟨rfl, -⟩ | ⟨value, hmoves, -, rfl⟩
    · exact ⟨_, rfl, .none _⟩
    · exact ⟨_, rfl, .message t value hmoves⟩
  | enqueueReplies values =>
    rcases performs_enqueueReplies h with ⟨rfl, -⟩ | ⟨first, rows, henq, -, rfl⟩
    · exact ⟨_, rfl, .none _⟩
    · exact ⟨_, rfl, .enqueue _ _ values first ⟨rfl, rfl⟩ henq⟩
  | enqueueRepliesWithCorrelation _ values =>
    rcases performs_enqueueRepliesWithCorrelation h with
      ⟨rfl, -⟩ | ⟨given, first, rows, hbatch, henq, -, rfl⟩
    · exact ⟨_, rfl, .none _⟩
    · exact ⟨_, rfl, .enqueue _ given values first hbatch henq⟩
  | getReplyCorrelation =>
    obtain ⟨rfl, -⟩ := performs_getReplyCorrelation h
    exact ⟨_, rfl, .none _⟩
  | listReplyCandidates =>
    obtain ⟨rfl, -⟩ := performs_listReplyCandidates h
    exact ⟨_, rfl, .none _⟩
  | claimReply =>
    rcases performs_claimReply h with ⟨rfl, -⟩ | ⟨value, hclaims, -, rfl⟩
    · exact ⟨_, rfl, .none _⟩
    · exact ⟨_, rfl, .claim _ _ _ _ _ value hclaims⟩
  | transitionReply t =>
    rcases performs_transitionReply h with ⟨rfl, -⟩ | ⟨value, hmoves, -, rfl⟩
    · exact ⟨_, rfl, .none _⟩
    · exact ⟨_, rfl, .reply t value hmoves⟩

/-- The store only moves forward. -/
theorem Change.evolves {s s' : Store} (h : Change x now s o s') : s.Evolves s' := by
  cases h with
  | none => exact .refl s
  | session _ _ sessions => exact .sessions s sessions
  | record _ sessions _ h => exact .recorded h sessions _
  | message _ _ h => exact .setEvent h.found h.evolves
  | enqueue _ _ _ _ _ h => exact .enqueued h
  | claim _ _ _ _ _ _ h => exact .setReply h.found h.evolves
  | reply _ _ h => exact .setReply h.found h.evolves

/-- A well-formed store stays so, when the rows of a batch are new. -/
theorem Change.sound {s s' : Store} (h : Change x now s o s')
    (hs : s.Sound) (hnew : ∀ correlation values, o.Batch x correlation values →
      ∀ v ∈ values, v.attempts = 0 ∧ v.fencingToken = 0) : s'.Sound := by
  cases h with
  | none => exact hs
  | session _ _ sessions => exact hs.sessions sessions
  | record _ sessions seq h => exact hs.recorded h sessions seq
  | message _ _ h => exact hs.setEvent h.found h.evolves
  | enqueue _ correlation values _ ho h => exact hs.enqueued h (hnew correlation values ho)
  | claim _ _ _ _ _ _ h =>
    exact hs.setReply h.found h.evolves
  | reply _ _ h => exact hs.setReply h.found h.evolves

/-- What an operation can do to the row under a key. -/
theorem Change.row {s s' : Store} (h : Change x now s o s') (k : String) :
    s'.replies.lookup k = s.replies.lookup k ∨
    (∃ correlation values v, o.Batch x correlation values ∧ v ∈ values ∧ rowKey v = k ∧
      s.replies.lookup k = .none ∧ s'.replies.lookup k = some (pendingRow now v)) ∨
    (∃ tenantID replyID segment owner leaseDuration value,
      o = .claimReply tenantID replyID segment owner leaseDuration ∧
      k = replyKey tenantID replyID segment ∧
      s.ClaimsReply now tenantID replyID segment owner leaseDuration value ∧
      s'.replies.lookup k = some (applyClaim now owner leaseDuration value)) ∨
    ∃ t value, o = .transitionReply t ∧ k = replyKey t.tenantID t.replyID t.segmentIndex ∧
      s.MovesReply now t value ∧
      s'.replies.lookup k = some (applyReplyTransition now value t) := by
  cases h with
  | none | session | record | message => exact .inl rfl
  | enqueue _ correlation values _ ho =>
    cases hk : (s.enqueued now correlation values).replies.lookup k with
    | none =>
      refine .inl ?_
      simp only [enqueued, lookup_insertReplies, Option.or_eq_none_iff] at hk
      exact hk.1.symm
    | some =>
      rcases lookup_enqueued hk with hold | ⟨hnone, v, hv, hkey, rfl⟩
      · exact .inl hold.symm
      · exact .inr (.inl ⟨correlation, values, v, ho, hv, hkey, hnone, rfl⟩)
  | claim tenantID replyID segment _ _ value h =>
    by_cases hk : k = replyKey tenantID replyID segment
    · refine .inr (.inr (.inl ⟨_, _, _, _, _, value, rfl, hk, h, ?_⟩))
      rw [hk]
      exact lookup_insert _
    · exact .inl (lookup_insert_ne hk)
  | reply t value h =>
    by_cases hk : k = replyKey t.tenantID t.replyID t.segmentIndex
    · refine .inr (.inr (.inr ⟨t, value, rfl, hk, h, ?_⟩))
      rw [hk]
      exact lookup_insert _
    · exact .inl (lookup_insert_ne hk)

/-- What an operation can do to the event under a key. -/
theorem Change.event {s s' : Store} (h : Change x now s o s') (k : String) :
    s'.events.lookup k = s.events.lookup k ∨
    (∃ input seq, o = .recordMessage input ∧ k = key [input.tenantID, input.eventID] ∧
      s.RecordsMessage input ∧ s'.events.lookup k = some (newEvent now input seq)) ∨
    ∃ t value, o = .transitionMessage t ∧ k = key [t.tenantID, t.eventID] ∧
      s.MovesMessage now t value ∧
      s'.events.lookup k = some (applyMessageTransition now value t) := by
  cases h with
  | none | session | enqueue | claim | reply => exact .inl rfl
  | record input _ seq h =>
    by_cases hk : k = key [input.tenantID, input.eventID]
    · refine .inr (.inl ⟨input, seq, rfl, hk, h, ?_⟩)
      rw [hk]
      exact lookup_insert _
    · exact .inl (lookup_insert_ne hk)
  | message t value h =>
    by_cases hk : k = key [t.tenantID, t.eventID]
    · refine .inr (.inr ⟨t, value, rfl, hk, h, ?_⟩)
      rw [hk]
      exact lookup_insert _
    · exact .inl (lookup_insert_ne hk)

/-- The other operations leave the clock and the runtime store alone. -/
theorem performs_other {o : Op} {r : o.Res} (ho : ∀ ctx o', o ≠ .store ctx o')
    (h : (platform x).Performs o s r s') : s'.store = s.store ∧ s'.clock = s.clock := by
  cases o with
  | store ctx o => exact absurd rfl (ho ctx o)
  | now =>
    obtain ⟨rfl, -⟩ := performs_now h
    exact ⟨rfl, rfl⟩
  | append =>
    rcases performs_append h with ⟨rfl, -⟩ | ⟨-, rfl⟩ <;> exact ⟨rfl, rfl⟩
  | reserve =>
    rcases performs_reserve h with ⟨rfl, -⟩ | ⟨-, rfl⟩ <;> exact ⟨rfl, rfl⟩
  | finalize =>
    rcases performs_finalize h with ⟨rfl, -⟩ | ⟨-, rfl⟩ <;> exact ⟨rfl, rfl⟩
  | env =>
    obtain rfl := performs_env h
    exact ⟨rfl, rfl⟩

/-- What an operation does to an event: nothing, or it is a new one, or it makes a step of it. -/
theorem performs_event {o : Op} {r : o.Res} (h : (platform x).Performs o s r s')
    (tenantID eventID : String) : s'.clock = s.clock ∧
      (s'.store.events.lookup (key [tenantID, eventID]) =
        s.store.events.lookup (key [tenantID, eventID]) ∨
      (s.store.events.lookup (key [tenantID, eventID]) = none ∧ ∃ input seq,
        s'.store.events.lookup (key [tenantID, eventID]) = some (newEvent s.clock input seq)) ∨
      ∃ ctx t value, (⟨o, r⟩ : Sigma Op.Res) =
          ⟨.store ctx (.transitionMessage t), .ok (applyMessageTransition s.clock value t)⟩ ∧
        (tenantID = t.tenantID ∧ eventID = t.eventID) ∧ s.store.MovesMessage s.clock t value ∧
        s'.store.events.lookup (key [tenantID, eventID]) =
          some (applyMessageTransition s.clock value t)) := by
  cases o with
  | store ctx =>
    obtain ⟨store, hs', hchange⟩ := performs_store_change h
    rcases hchange.event (key [tenantID, eventID]) with heq | ⟨input, seq, -, hkey, hrec, heq⟩ |
      ⟨t, value, rfl, hkey, hmoves, heq⟩
    · exact ⟨by rw [hs'], .inl (by rw [hs', heq])⟩
    · exact ⟨by rw [hs'], .inr (.inl ⟨by rw [hkey, hrec.unused], input, seq, by rw [hs', heq]⟩)⟩
    · rcases performs_transitionMessage h with ⟨rfl, -⟩ | ⟨value', hmoves', rfl, -⟩
      · exact ⟨rfl, .inl rfl⟩
      · obtain rfl : value' = value := Option.some.inj (hmoves'.found.symm.trans hmoves.found)
        exact ⟨by rw [hs'], .inr (.inr ⟨ctx, t, value', rfl, by simpa using hkey, hmoves,
          by rw [hs', heq]⟩)⟩
  | _ =>
    obtain ⟨hstore, hclock⟩ := performs_other (by simp) h
    exact ⟨hclock, .inl (by rw [hstore])⟩

/-! ## The order of states -/

/-- A later state of the platform. -/
structure State.Evolves (s s' : State) : Prop where
  /-- The clock does not go back. -/
  clock : s.clock ≤ s'.clock
  /-- The store moves forward. -/
  store : s.store.Evolves s'.store
  /-- An audit event stays. -/
  audits : ∀ k e, s.audits.lookup k = some e → s'.audits.lookup k = some e
  /-- A handoff stays, and a finalized one as it is. -/
  handoffs : ∀ k h, s.handoffs.lookup k = some h →
    ∃ h', s'.handoffs.lookup k = some h' ∧ (h.state = .finalized → h' = h)

theorem State.Evolves.refl (s : State) : s.Evolves s :=
  ⟨Int.le_refl _, .refl _, fun _ _ => id, fun _ h hh => ⟨h, hh, fun _ => rfl⟩⟩

/-- States are ordered. -/
theorem State.Evolves.trans {a b c : State} (h : a.Evolves b) (h' : b.Evolves c) : a.Evolves c where
  clock := Int.le_trans h.clock h'.clock
  store := h.store.trans h'.store
  audits k e he := h'.audits k e (h.audits k e he)
  handoffs k v hv := by
    obtain ⟨v', hv', hf⟩ := h.handoffs k v hv
    obtain ⟨v'', hv'', hf'⟩ := h'.handoffs k v' hv'
    exact ⟨v'', hv'', fun hfin => by rw [← hf hfin, hf' (by rw [hf hfin]; exact hfin)]⟩

/-- An append keeps the events that are there. -/
theorem lookup_append {H : Audit.Hashing} {backend : Audit.Backend} {event : Audit.Event}
    {k : String × String} {e : Audit.Record} (h : backend.lookup k = some e) :
    (Audit.append H tenantID backend event).2.lookup k = some e := by
  unfold Audit.append
  split_ifs
  · exact h
  · split
    · exact h
    · split
      · split_ifs <;> exact h
      · next hnone =>
        have hk : k ≠ (event.tenantID, event.eventID) := by
          rintro rfl
          rw [hnone] at h
          cases h
        exact (lookup_insert_ne hk).trans h

variable {values : Audit.Handoffs}

/-- A reservation keeps the handoffs that are there. -/
theorem lookup_reserve {h : Audit.ExecutionHandoff} {k : String} (hk : values.lookup k = some h) :
    (Audit.reserve now values value).2.lookup k = some h := by
  unfold Audit.reserve
  split_ifs
  · exact hk
  · split
    · split_ifs <;> exact hk
    · next hnone =>
      have hne : k ≠ Audit.handoffKey value.tenantID value.handoffID := by
        rintro rfl
        rw [hnone] at hk
        cases hk
      exact (lookup_insert_ne hne).trans hk

/-- A finalization keeps the handoffs that are there, and the finalized ones as they are. -/
theorem lookup_finalize {h : Audit.ExecutionHandoff} {k : String} (hk : values.lookup k = some h) :
    ∃ h', (Audit.finalize now values value).2.lookup k = some h' ∧
      (h.state = .finalized → h' = h) := by
  unfold Audit.finalize
  split_ifs
  · exact ⟨h, hk, fun _ => rfl⟩
  · split
    · exact ⟨h, hk, fun _ => rfl⟩
    · next old hold =>
      split_ifs with hfin
      · exact ⟨h, hk, fun _ => rfl⟩
      · by_cases hkey : k = Audit.handoffKey value.tenantID value.handoffID
        · subst hkey
          rw [hold] at hk
          cases hk
          exact ⟨_, lookup_insert _, fun h => absurd h hfin⟩
        · exact ⟨h, (lookup_insert_ne hkey).trans hk, fun _ => rfl⟩

/-- Every operation leads to a later state. -/
theorem performs_evolves (o : Op) (s : State) (r : o.Res) (s' : State)
    (h : (platform x).Performs o s r s') : s.Evolves s' := by
  cases o with
  | store =>
    obtain ⟨store, rfl, hchange⟩ := performs_store_change h
    exact ⟨Int.le_refl _, hchange.evolves, fun _ _ => id, fun _ h hh => ⟨h, hh, fun _ => rfl⟩⟩
  | now =>
    obtain ⟨rfl, -⟩ := performs_now h
    exact .refl _
  | append =>
    rcases performs_append h with ⟨rfl, -⟩ | ⟨-, rfl⟩
    · exact .refl _
    · exact ⟨Int.le_refl _, .refl _, fun _ _ => lookup_append, fun _ h hh => ⟨h, hh, fun _ => rfl⟩⟩
  | reserve =>
    rcases performs_reserve h with ⟨rfl, -⟩ | ⟨-, rfl⟩
    · exact .refl _
    · exact ⟨Int.le_refl _, .refl _, fun _ _ => id,
        fun _ h hh => ⟨h, lookup_reserve hh, fun _ => rfl⟩⟩
  | finalize =>
    rcases performs_finalize h with ⟨rfl, -⟩ | ⟨-, rfl⟩
    · exact .refl _
    · exact ⟨Int.le_refl _, .refl _, fun _ _ => id, fun _ _ => lookup_finalize⟩
  | env =>
    obtain rfl := performs_env h
    exact .refl _

/-- A move of the clock leads to a later state. -/
theorem advance_evolves (n : ℕ) (s : State) : s.Evolves ((platform x).advance n s) :=
  ⟨by show s.clock ≤ s.clock + n; omega, .refl _, fun _ _ => id,
    fun _ h hh => ⟨h, hh, fun _ => rfl⟩⟩

/-! ## Failures from outside -/

/-- An operation of the runtime store found its context done. -/
def interrupted : Entry x → Bool
  | ⟨.store _ _, .error (.ctx _), _, _⟩ => true
  | _ => false

/-- The audit store could not serve an append. -/
def auditFault : Entry x → Bool
  | ⟨.append .., .error .unavailable, _, _⟩ => true
  | ⟨.append .., .error (.ctx _), _, _⟩ => true
  | _ => false

/-- The provider refuses a delivery. -/
def refuses : Entry x → Bool
  | ⟨.env (.deliver _), .error _, _, _⟩ => true
  | _ => false

end AgentService.Platform
