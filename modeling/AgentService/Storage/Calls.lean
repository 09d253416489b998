import AgentService.Concurrent.Server
import AgentService.Storage.Sound

/-!
# Calls of the in-memory store

The store as a component that answers calls one at a time (`server`): a call comes with its context
and the reading of the clock at which the store executes it. What a call can do is said once, by
`Acts`: it fails and leaves the store as it is, or it does what its constructor of `Acts` says
(`server_spec`). What holds along every run of the store is proved from these cases.
-/

namespace AgentService.Storage

open Concurrent Store

/-- `check`. -/
def check : Context → Option Err
  | .nil => some .invalid
  | .live => none
  | .done cause => some (.ctx cause)

/-- What the store uses of other packages. -/
structure Libraries where
  /-- The W3C normalization of the observability package. -/
  normalizeTraceParent : String → String
  /-- Go's JSON package. -/
  json : Json

/-- The calls that write. -/
inductive Call where
  | createSession (tenantID sessionID : String) (state : Option String)
  | updateSessionState (tenantID sessionID : String) (expectedVersion : ℤ) (state : Option String)
  | deleteSession (tenantID sessionID : String)
  | recordMessage (input : MessageEventInput)
  | transitionMessage (transition : MessageTransition)
  | appendEventPayload (payload : EventPayload)
  | enqueueReply (value : ReplyOutbox)
  | enqueueReplies (values : List ReplyOutbox)
  | enqueueRepliesWithCorrelation (correlation : ReplyCorrelation) (values : List ReplyOutbox)
  | claimReply (tenantID replyID : String) (segment : ℤ) (owner : String) (leaseDuration : ℤ)
  | transitionReply (transition : ReplyTransition)
  deriving DecidableEq

/-- What a call returns when it succeeds. -/
def Call.Val : Call → Type
  | .createSession .. | .updateSessionState .. => Session
  | .deleteSession .. => Unit
  | .recordMessage _ => MessageEvent × Bool
  | .transitionMessage _ => MessageEvent
  | .appendEventPayload _ => EventPayload
  | .enqueueReply _ | .claimReply .. | .transitionReply _ => ReplyOutbox
  | .enqueueReplies _ | .enqueueRepliesWithCorrelation .. => List ReplyOutbox

/-- A call with its context and the clock at its execution. -/
structure Request where
  context : Context := .live
  /-- The clock. -/
  now : ℤ
  call : Call
  deriving DecidableEq

/-- The effect of a call whose context is not done. -/
def Store.perform (lib : Libraries) (now : ℤ) (s : Store) :
    (call : Call) → Except Err call.Val × Store
  | .createSession tenantID sessionID state => s.createSession now tenantID sessionID state
  | .updateSessionState tenantID sessionID expectedVersion state =>
    s.updateSessionState now tenantID sessionID expectedVersion state
  | .deleteSession tenantID sessionID =>
    match s.deleteSession tenantID sessionID with
    | (some err, s) => (.error err, s)
    | (none, s) => (.ok (), s)
  | .recordMessage input => s.recordMessage now input
  | .transitionMessage transition => s.transitionMessage now transition
  | .appendEventPayload payload => s.appendEventPayload lib.json now payload
  | .enqueueReply value => s.enqueueReply now value
  | .enqueueReplies values => s.enqueueRepliesPlain now values
  | .enqueueRepliesWithCorrelation correlation values =>
    s.enqueueRepliesWithCorrelation lib.normalizeTraceParent now correlation values
  | .claimReply tenantID replyID segment owner leaseDuration =>
    s.claimReply now tenantID replyID segment owner leaseDuration
  | .transitionReply transition => s.transitionReply now transition

/-- What a call finds wrong before it looks at its context. -/
def Call.fault : Call → Option Err
  | .enqueueRepliesWithCorrelation correlation _ =>
    if correlation.tenantID = "" ∨ correlation.eventID = "" ∨ correlation.requestID = "" then
      some .invalid
    else none
  | _ => none

/-- The in-memory store. -/
abbrev server (lib : Libraries) : Server Request where
  State := Store
  Res request := Except Err request.call.Val
  answer request s :=
    match request.call.fault.or (check request.context) with
    | some err => (.error err, s)
    | none => s.perform lib request.now request.call

/-! ## What a call can do -/

/-- The effect of a successful call. -/
inductive Acts (lib : Libraries) (now : ℤ) (s : Store) :
    (call : Call) → call.Val → Store → Prop
  /-- A new session. -/
  | created (tenantID sessionID : String) (state : Option String)
      (hnew : s.sessions.lookup (key [tenantID, sessionID]) = none) :
      Acts lib now s (.createSession tenantID sessionID state)
        (⟨tenantID, sessionID, 1, state, now, now⟩ : Session)
        (s.setSession (key [tenantID, sessionID]) ⟨tenantID, sessionID, 1, state, now, now⟩)
  /-- A new version of a session. -/
  | updated (tenantID sessionID : String) (expectedVersion : ℤ) (state : Option String)
      (value : Session) (hfound : s.sessions.lookup (key [tenantID, sessionID]) = some value) :
      Acts lib now s (.updateSessionState tenantID sessionID expectedVersion state)
        (updatedSession now state value)
        (s.setSession (key [tenantID, sessionID]) (updatedSession now state value))
  /-- A session is gone. -/
  | deleted (tenantID sessionID : String) (s' : Store) (h : s.Deletes s' tenantID sessionID) :
      Acts lib now s (.deleteSession tenantID sessionID) () s'
  /-- A message that was there. -/
  | found (input : MessageEventInput) (v : MessageEvent × Bool) :
      Acts lib now s (.recordMessage input) v s
  /-- A new message. -/
  | recorded (input : MessageEventInput) (session : Session) (h : s.RecordsMessage input)
      (hsession : s.sessions.lookup (key [input.tenantID, input.sessionID]) = some session) :
      Acts lib now s (.recordMessage input)
        (newEvent now input (session.version + 1), false)
        (s.recorded (s.sessions.insert (key [input.tenantID, input.sessionID])
          { session with version := session.version + 1, updatedAt := now }) input
          (newEvent now input (session.version + 1)))
  /-- A step of an event. -/
  | moved (t : MessageTransition) (value : MessageEvent) (h : s.MovesMessage now t value) :
      Acts lib now s (.transitionMessage t) (applyMessageTransition now value t)
        (s.setEvent (key [t.tenantID, t.eventID]) (applyMessageTransition now value t))
  /-- A history entry that was there. -/
  | listed (payload existing : EventPayload) :
      Acts lib now s (.appendEventPayload payload) existing s
  /-- A new history entry. -/
  | appended (payload : EventPayload) (session : Session) (entries : List EventPayload)
      (hsession : s.sessions.lookup (key [payload.tenantID, payload.sessionID]) = some session)
      (hentries : entries =
        (s.histories.lookup (key [payload.tenantID, payload.sessionID])).getD []) :
      Acts lib now s (.appendEventPayload payload) (appended now entries payload)
        (s.setHistory (key [payload.tenantID, payload.sessionID])
          (entries ++ [appended now entries payload]))
  /-- A reply row that was there. -/
  | present (value existing : ReplyOutbox) : Acts lib now s (.enqueueReply value) existing s
  /-- A new reply row. -/
  | stored (value : ReplyOutbox) (h : s.EnqueuesReply value) :
      Acts lib now s (.enqueueReply value) (pendingRow now value)
        (s.setReply (rowKey value) (pendingRow now value))
  /-- A batch. -/
  | enqueued (values : List ReplyOutbox) (first : ReplyOutbox)
      (hvalid : validateReplyBatch values = .ok first)
      (h : s.Enqueues noCorrelation values first) :
      Acts lib now s (.enqueueReplies values) (insertReplies now values s.replies).1
        (s.enqueued now noCorrelation values)
  /-- A batch with a correlation. -/
  | correlated (correlation : ReplyCorrelation) (values : List ReplyOutbox) (first : ReplyOutbox)
      (hgiven : ¬ (correlation.tenantID = "" ∨ correlation.eventID = "" ∨
        correlation.requestID = ""))
      (hvalid : validateReplyBatch values = .ok first)
      (h : s.Enqueues { correlation with
        traceParent := lib.normalizeTraceParent correlation.traceParent } values first) :
      Acts lib now s (.enqueueRepliesWithCorrelation correlation values)
        (insertReplies now values s.replies).1
        (s.enqueued now { correlation with
          traceParent := lib.normalizeTraceParent correlation.traceParent } values)
  /-- A claim. -/
  | claimed (tenantID replyID : String) (segment : ℤ) (owner : String) (leaseDuration : ℤ)
      (value : ReplyOutbox)
      (h : s.ClaimsReply now tenantID replyID segment owner leaseDuration value) :
      Acts lib now s (.claimReply tenantID replyID segment owner leaseDuration)
        (applyClaim now owner leaseDuration value)
        (s.setReply (replyKey tenantID replyID segment)
          (applyClaim now owner leaseDuration value))
  /-- A step of a reply row. -/
  | transitioned (t : ReplyTransition) (value : ReplyOutbox) (h : s.MovesReply now t value) :
      Acts lib now s (.transitionReply t) (applyReplyTransition now value t)
        (s.setReply (replyKey t.tenantID t.replyID t.segmentIndex)
          (applyReplyTransition now value t))

variable {lib : Libraries}

/-- A call whose context is not done fails and leaves the store as it is, or it acts. -/
theorem Store.perform_spec (lib : Libraries) (now : ℤ) (s : Store) (call : Call) :
    (∃ err, s.perform lib now call = (.error err, s)) ∨
    ∃ v s', s.perform lib now call = (.ok v, s') ∧ Acts lib now s call v s' := by
  cases call with
  | createSession tenantID sessionID state =>
    rcases s.createSession_spec now tenantID sessionID state with h | ⟨hnew, heq⟩
    · exact .inl h
    · exact .inr ⟨_, _, heq, .created tenantID sessionID state hnew⟩
  | updateSessionState tenantID sessionID expectedVersion state =>
    rcases s.updateSessionState_spec now tenantID sessionID expectedVersion state with
      h | ⟨value, hfound, -, heq⟩
    · exact .inl h
    · exact .inr ⟨_, _, heq, .updated tenantID sessionID expectedVersion state value hfound⟩
  | deleteSession tenantID sessionID =>
    rcases s.deleteSession_spec tenantID sessionID with ⟨err, heq⟩ | ⟨s', heq, hdeletes⟩
    · exact .inl ⟨err, by simp only [perform, heq]⟩
    · exact .inr ⟨(), s', by simp only [perform, heq], .deleted tenantID sessionID s' hdeletes⟩
  | recordMessage input =>
    rcases s.recordMessage_spec now input with h | ⟨k, -, -, heq⟩ | ⟨session, h, hsession, heq⟩
    · exact .inl h
    · exact .inr ⟨_, _, heq, .found input _⟩
    · exact .inr ⟨_, _, heq, .recorded input session h hsession⟩
  | transitionMessage t =>
    rcases s.transitionMessage_spec now t with h | ⟨value, h, heq⟩
    · exact .inl h
    · exact .inr ⟨_, _, heq, .moved t value h⟩
  | appendEventPayload payload =>
    rcases s.appendEventPayload_spec lib.json now payload with
      h | ⟨existing, -, -, heq⟩ | ⟨session, entries, hsession, hentries, -, heq⟩
    · exact .inl h
    · exact .inr ⟨_, _, heq, .listed payload existing⟩
    · exact .inr ⟨_, _, heq, .appended payload session entries hsession hentries⟩
  | enqueueReply value =>
    rcases s.enqueueReply_spec now value with h | ⟨existing, heq⟩ | ⟨h, heq⟩
    · exact .inl h
    · exact .inr ⟨_, _, heq, .present value existing⟩
    · exact .inr ⟨_, _, heq, .stored value h⟩
  | enqueueReplies values =>
    rcases s.enqueueReplies_spec now noCorrelation values with h | ⟨first, hvalid, h, heq⟩
    · exact .inl h
    · exact .inr ⟨_, _, heq, .enqueued values first hvalid h⟩
  | enqueueRepliesWithCorrelation correlation values =>
    by_cases hempty : correlation.tenantID = "" ∨ correlation.eventID = "" ∨
        correlation.requestID = ""
    · exact .inl ⟨.invalid, if_pos hempty⟩
    · have heq' : s.perform lib now (.enqueueRepliesWithCorrelation correlation values) =
          s.enqueueReplies now { correlation with
            traceParent := lib.normalizeTraceParent correlation.traceParent } values :=
        if_neg hempty
      rw [heq']
      rcases s.enqueueReplies_spec now { correlation with
          traceParent := lib.normalizeTraceParent correlation.traceParent } values with
        h | ⟨first, hvalid, h, heq⟩
      · exact .inl h
      · exact .inr ⟨_, _, heq, .correlated correlation values first hempty hvalid h⟩
  | claimReply tenantID replyID segment owner leaseDuration =>
    rcases s.claimReply_spec now tenantID replyID segment owner leaseDuration with
      h | ⟨value, h, heq⟩
    · exact .inl h
    · exact .inr ⟨_, _, heq, .claimed tenantID replyID segment owner leaseDuration value h⟩
  | transitionReply t =>
    rcases s.transitionReply_spec now t with h | ⟨value, h, heq⟩
    · exact .inl h
    · exact .inr ⟨_, _, heq, .transitioned t value h⟩

/-- A call fails and leaves the store as it is, or it acts. -/
theorem server_spec (lib : Libraries) (request : Request) (s : Store) :
    (∃ err, (server lib).answer request s = (.error err, s)) ∨
    ∃ v s', (server lib).answer request s = (.ok v, s') ∧
      Acts lib request.now s request.call v s' := by
  have hanswer : (server lib).answer request s =
      match request.call.fault.or (check request.context) with
      | some err => (.error err, s)
      | none => s.perform lib request.now request.call := rfl
  rw [hanswer]
  split
  · exact .inl ⟨_, rfl⟩
  · exact s.perform_spec lib request.now request.call

/-- In a live context it does not show that a fault is found before. -/
theorem answer_live (lib : Libraries) (now : ℤ) (call : Call) (s : Store) :
    (server lib).answer ⟨.live, now, call⟩ s = s.perform lib now call := by
  cases call with
  | enqueueRepliesWithCorrelation correlation =>
    by_cases hempty : correlation.tenantID = "" ∨ correlation.eventID = "" ∨
        correlation.requestID = ""
    · simp only [Call.fault, hempty, perform, enqueueRepliesWithCorrelation, if_true]
      rfl
    · simp [Call.fault, hempty, check]
  | _ => rfl

/-- A call that succeeds has a context that is not done. -/
theorem context_of_answer {request : Request} {s s' : Store} {v : request.call.Val}
    (h : (server lib).answer request s = (.ok v, s')) : request.context = .live := by
  obtain ⟨context, _, call⟩ := request
  cases context with
  | live => rfl
  | nil | done =>
    simp only [server, check] at h
    cases hfault : call.fault <;> simp [hfault] at h

/-- A reply row after a call that acts was there before, was stored as pending, was claimed, or was
moved. -/
theorem Acts.row {now : ℤ} {s s' : Store} {call : Call} {v : call.Val}
    (h : Acts lib now s call v s') {k : String} {row : ReplyOutbox}
    (hrow : s'.replies.lookup k = some row) : s.replies.lookup k = some row ∨
    (∃ value, rowKey value = k ∧ s.EnqueuesReply value ∧ row = pendingRow now value) ∨
    (∃ tenantID replyID segment owner leaseDuration value,
      call = .claimReply tenantID replyID segment owner leaseDuration ∧
      replyKey tenantID replyID segment = k ∧
      s.ClaimsReply now tenantID replyID segment owner leaseDuration value ∧
      row = applyClaim now owner leaseDuration value) ∨
    ∃ t value, call = .transitionReply t ∧ replyKey t.tenantID t.replyID t.segmentIndex = k ∧
      s.MovesReply now t value ∧ row = applyReplyTransition now value t := by
  -- A batch stores each new row as `EnqueueReply` would.
  have hbatch : ∀ {correlation values first}, s.Enqueues correlation values first →
      (s.enqueued now correlation values).replies.lookup k = some row →
      s.replies.lookup k = some row ∨ ∃ value, rowKey value = k ∧ s.EnqueuesReply value ∧
        row = pendingRow now value := by
    intro correlation values first henq hlook
    rcases lookup_enqueued hlook with hold | ⟨hnone, value, hmem, rfl, rfl⟩
    · exact .inl hold
    · exact .inr ⟨value, rfl, henq.enqueuesReply hmem hnone, rfl⟩
  cases h with
  | created | updated | found | recorded | moved | listed | appended | present => exact .inl hrow
  | deleted _ _ _ hdeletes => exact .inl ((hdeletes.replies k row).1 hrow).1
  | stored value henq =>
    rcases Go.lookup_insert_eq_some.1 hrow with ⟨rfl, rfl⟩ | ⟨-, hold⟩
    · exact .inr (.inl ⟨value, rfl, henq, rfl⟩)
    · exact .inl hold
  | enqueued _ _ _ henq =>
    rcases hbatch henq hrow with hold | hnew
    · exact .inl hold
    · exact .inr (.inl hnew)
  | correlated _ _ _ _ _ henq =>
    rcases hbatch henq hrow with hold | hnew
    · exact .inl hold
    · exact .inr (.inl hnew)
  | claimed _ _ _ _ _ value hclaims =>
    rcases Go.lookup_insert_eq_some.1 hrow with ⟨rfl, rfl⟩ | ⟨-, hold⟩
    · exact .inr (.inr (.inl ⟨_, _, _, _, _, value, rfl, rfl, hclaims, rfl⟩))
    · exact .inl hold
  | transitioned t value hmoves =>
    rcases Go.lookup_insert_eq_some.1 hrow with ⟨rfl, rfl⟩ | ⟨-, hold⟩
    · exact .inr (.inr (.inr ⟨t, value, rfl, rfl, hmoves, rfl⟩))
    · exact .inl hold

/-! ## Counters -/

/-- A number of Go's `int64`, and on 64-bit platforms of its `int`. -/
def isInt64 (n : ℤ) : Prop := -9223372036854775808 ≤ n ∧ n ≤ 9223372036854775807

instance (n : ℤ) : Decidable (isInt64 n) := inferInstanceAs (Decidable (_ ∧ _))

/-- The counters of a row are numbers of Go when they have grown by `n`. -/
def ReplyOutbox.Counts (row : ReplyOutbox) (n : ℤ) : Prop :=
  isInt64 (row.attempts + n) ∧ isInt64 (row.fencingToken + n)

instance (row : ReplyOutbox) (n : ℤ) : Decidable (row.Counts n) :=
  inferInstanceAs (Decidable (_ ∧ _))

/-- The counters of a store are numbers of Go. -/
structure Store.Counts (s : Store) : Prop where
  events : ∀ k v, s.events.lookup k = some v → isInt64 v.fencingToken
  replies : ∀ k row, s.replies.lookup k = some row → row.Counts 0

/-- A call with room in the counters that it increments, which Go lets wrap around, and with rows
whose counters are numbers of Go. -/
def HasRoomFor (s : Store) : Call → Prop
  | .transitionMessage t =>
    ∀ v ∈ s.events.lookup (key [t.tenantID, t.eventID]), isInt64 (v.fencingToken + 1)
  | .enqueueReply value => value.Counts 0
  | .enqueueReplies values | .enqueueRepliesWithCorrelation _ values =>
    ∀ value ∈ values, value.Counts 0
  | .claimReply tenantID replyID segment _ _ =>
    ∀ row ∈ s.replies.lookup (replyKey tenantID replyID segment), row.Counts 1
  | .transitionReply t =>
    ∀ row ∈ s.replies.lookup (replyKey t.tenantID t.replyID t.segmentIndex), row.Counts 1
  | _ => True

instance (s : Store) (call : Call) : Decidable (HasRoomFor s call) := by
  cases call <;> simp only [HasRoomFor] <;> infer_instance

/-- A call with room keeps the counters numbers of Go. -/
theorem Acts.counts {now : ℤ} {s s' : Store} {call : Call} {v : call.Val}
    (h : Acts lib now s call v s') (hs : s.Counts) (hroom : HasRoomFor s call) : s'.Counts := by
  have hbatch : ∀ {correlation values}, (∀ value ∈ values, value.Counts 0) →
      (s.enqueued now correlation values).Counts := fun {_ _} hvalues =>
    ⟨hs.events, fun k row hrow => by
      rcases lookup_enqueued hrow with hold | ⟨-, value, hmem, rfl, rfl⟩
      · exact hs.replies k row hold
      · exact hvalues value hmem⟩
  have hreply : ∀ {k row}, row.Counts 0 → (s.setReply k row).Counts := fun {_ _} hrow =>
    ⟨hs.events, Go.forall_lookup_insert hs.replies hrow⟩
  cases h with
  | created | updated | found | listed | appended | present => exact ⟨hs.events, hs.replies⟩
  | deleted _ _ _ hdeletes =>
    exact ⟨fun k v hv => hs.events k v ((hdeletes.events k v).1 hv).1,
      fun k row hrow => hs.replies k row ((hdeletes.replies k row).1 hrow).1⟩
  | recorded =>
    exact ⟨Go.forall_lookup_insert hs.events (by decide : isInt64 0), hs.replies⟩
  | moved _ value hmoves =>
    exact ⟨Go.forall_lookup_insert hs.events (hroom value hmoves.found), hs.replies⟩
  | stored => exact hreply hroom
  | enqueued | correlated => exact hbatch hroom
  | claimed _ _ _ _ _ value hclaims =>
    have hcounts := hroom value hclaims.found
    simp only [ReplyOutbox.Counts, isInt64] at hcounts
    refine hreply ?_
    simp only [ReplyOutbox.Counts, isInt64, applyClaim]
    omega
  | transitioned t value hmoves =>
    have hold := hs.replies _ value hmoves.found
    have hcounts := hroom value hmoves.found
    simp only [ReplyOutbox.Counts, isInt64] at hold hcounts
    refine hreply ?_
    simp only [ReplyOutbox.Counts, isInt64, applyReplyTransition]
    split_ifs <;> omega

/-- So does a request. -/
theorem Store.Counts.step {s : Store} (hs : s.Counts) {request : Request}
    (hroom : HasRoomFor s request.call) : Store.Counts ((server lib).answer request s).2 := by
  rcases server_spec lib request s with ⟨_, heq⟩ | ⟨_, _, heq, hacts⟩ <;> rw [heq]
  · exact hs
  · exact hacts.counts hs hroom

/-! ## A store with one segment -/

/-- Packages that change nothing. -/
def plainLibraries : Libraries := ⟨id, ⟨fun _ => true, fun a b => a = b⟩⟩

/-- A message of one session. -/
def oneMessage : MessageEventInput := ⟨"t", "e", "s", "b", "m", "i", {}⟩

/-- A reply of one segment to it. -/
def oneRow : ReplyOutbox := ⟨"t", "r", "e", 0, 1, "hi", {}, .other "", 0, 0, "", none, "", "", 0, 0⟩

/-- The calls that store the segment. -/
def oneSegment : List Request :=
  [⟨.live, 0, .createSession "t" "s" none⟩, ⟨.live, 0, .recordMessage oneMessage⟩,
    ⟨.live, 0, .enqueueReplies [oneRow]⟩]

/-- A segment that is put into `sending` for a time, and claimed when the time is over. -/
def sentInTime : List Request :=
  oneSegment ++ [⟨.live, 0, .transitionReply ⟨"t", "r", 0, .pending, .sending, "w", 0, 10, "", ""⟩⟩,
    ⟨.live, 10, .claimReply "t" "r" 0 "v" 10⟩]

end AgentService.Storage
