import AgentService.Outbox.Worker

/-!
# The discipline of a worker

What one pass of a worker does, told from its own log: `Issues` says which operation it may issue
after which answers. Whatever other calls do in between, a claim follows the listing, a delivery or
a reconciliation follows a claim (which of the two is decided by the candidate of the listing), a
settlement follows the provider's answer, and the event is advanced after a listing in which all its
rows are sent. `runOnce_obeys` proves it for every pass.
-/

namespace AgentService.Outbox

open Storage Platform Concurrent Program Worker List

variable {x : Externals}

/-- The rows that an operation lists. -/
def listed : Entry x → List ReplyOutbox
  | ⟨.store _ (.listReplyCandidates _), .ok candidates, _, _⟩ => candidates
  | _ => []

/-- The rows that a pass has listed: the answer of its first operation. -/
def listing : List (Entry x) → List ReplyOutbox
  | [] => []
  | e :: _ => listed e

variable {l : List (Entry x)} {w : Worker} {e : Entry x} {pre post : State}

/-- What comes later does not change the listing. -/
theorem listing_append (hl : l ≠ []) (l' : List (Entry x)) : listing (l ++ l') = listing l := by
  obtain ⟨e, l, rfl⟩ := exists_cons_of_ne_nil hl
  rfl

/-! ## Entries of a pass -/

/-- The claim of a candidate that was answered with a row. -/
def claimEntry (w : Worker) (candidate row : ReplyOutbox) (pre post : State) : Entry x :=
  ⟨.store .caller (.claimReply candidate.tenantID candidate.replyID candidate.segmentIndex w.owner
    w.leaseDuration), (.ok row : Except Err ReplyOutbox), pre, post⟩

/-- A reading of the correlation of a row. -/
def correlationEntry (row : ReplyOutbox) (r : Except Err ReplyCorrelation) (pre post : State) :
    Entry x :=
  ⟨.store .caller (.getReplyCorrelation row.tenantID row.eventID), r, pre, post⟩

/-- A delivery. -/
def deliverEntry (row : ReplyOutbox) (r : Except ProviderErr String) (pre post : State) :
    Entry x :=
  ⟨.env (.deliver row), r, pre, post⟩

/-- A reconciliation. -/
def reconcileEntry (row : ReplyOutbox) (r : Except ProviderErr (DeliveryStatus × String))
    (pre post : State) : Entry x :=
  ⟨.env (.reconcile row), r, pre, post⟩

/-- A settlement of a row that was answered with `value`. -/
def settleEntry (t : ReplyTransition) (value : ReplyOutbox) (pre post : State) : Entry x :=
  ⟨.store .caller (.transitionReply t), (.ok value : Except Err ReplyOutbox), pre, post⟩

/-- A reading of the clock. -/
def nowEntry (now : ℤ) (pre post : State) : Entry x := ⟨.now, now, pre, post⟩

/-- A listing. -/
def listEntry (tenantID : String) (rows : List ReplyOutbox) (pre post : State) : Entry x :=
  ⟨.store .caller (.listReplyCandidates tenantID), (.ok rows : Except Err (List ReplyOutbox)), pre,
    post⟩

/-- A reading of an event. -/
def messageEntry (tenantID eventID : String) (event : MessageEvent) (pre post : State) : Entry x :=
  ⟨.store .caller (.getMessage tenantID eventID), (.ok event : Except Err MessageEvent), pre, post⟩

/-- The step from `completed` that was answered with an event. -/
def advanceEntry (w : Worker) (eventID : String) (event : MessageEvent) (pre post : State) :
    Entry x :=
  ⟨.store .caller (.transitionMessage (w.toReplyPending eventID)),
    (.ok event : Except Err MessageEvent), pre, post⟩

/-- The step to `replied`, with its answer. -/
def repliedEntry (w : Worker) (eventID : String) (r : Except Err MessageEvent) (pre post : State) :
    Entry x :=
  ⟨.store .caller (.transitionMessage (w.toReplied eventID)), r, pre, post⟩

/-- An audit append. -/
def appendEntry (writer : String) (event : Audit.Event) (r : Except Audit.Err Audit.AppendResult)
    (pre post : State) : Entry x :=
  ⟨.append .caller writer event, r, pre, post⟩

/-- The settlement of a delivered row after the provider's answer. -/
def settlement (w : Worker) (row : ReplyOutbox) : Except ProviderErr String → ReplyTransition
  | .ok providerID => w.settle row .sent "" providerID
  | .error err => w.settle row (w.rejectedStatus row (classify err).2) (classify err).1 ""

/-- The type of the audit event of a settlement. -/
def deliveryType (t : ReplyTransition) : Audit.EventType :=
  if t.to = .sent then .imDeliverySent
  else if t.to = .deadLetter then .imDeliveryDeadLettered
  else .imDeliveryRetryScheduled

/-- The audit event of a settlement, for a correlation read at `now`. -/
def deliveryEvent (x : Externals) (w : Worker) (row : ReplyOutbox) (t : ReplyTransition)
    (r : Except Err ReplyCorrelation) (now : ℤ) : Audit.Event :=
  let decision : Audit.Decision :=
    if deliveryType t ≠ .imDeliverySent then .rejected else .accepted
  match r with
  | .ok correlation =>
    Audit.complete x.hashing w.tenantID now (Audit.imEvent (deliveryType t) correlation.requestID
      correlation.traceID "" "" decision t.errorClass)
  | .error _ =>
    Audit.complete x.hashing w.tenantID now
      (Audit.imEvent (deliveryType t) row.replyID "" "" "" decision t.errorClass)

/-! ## The discipline -/

/-- The operations that a pass may issue after its log. -/
inductive Issues (w : Worker) (log : List (Entry x)) : Op → Prop
  /-- The rows of the worker's tenant are listed. -/
  | list : Issues w log (.store .caller (.listReplyCandidates w.tenantID))
  /-- The clock is read. -/
  | now : Issues w log .now
  /-- A candidate of the listing is claimed. -/
  | claim (candidate : ReplyOutbox) (hmem : candidate ∈ listing log) :
      Issues w log (.store .caller (.claimReply candidate.tenantID candidate.replyID
        candidate.segmentIndex w.owner w.leaseDuration))
  /-- A correlation is read. -/
  | correlation (tenantID eventID : String) :
      Issues w log (.store .caller (.getReplyCorrelation tenantID eventID))
  /-- A row just claimed is delivered, when its candidate was not in `sending`. -/
  | deliver (candidate row : ReplyOutbox) (l : List (Entry x)) (pre post pre' post' : State)
      (r : Except Err ReplyCorrelation)
      (hlog : log = l ++ [claimEntry w candidate row pre post, correlationEntry row r pre' post'])
      (hmem : candidate ∈ listing log) (hstatus : candidate.status ≠ .sending) :
      Issues w log (.env (.deliver row))
  /-- A row just claimed is reconciled, when its candidate was in `sending`. -/
  | reconcile (candidate row : ReplyOutbox) (l : List (Entry x)) (pre post pre' post' : State)
      (r : Except Err ReplyCorrelation)
      (hlog : log = l ++ [claimEntry w candidate row pre post, correlationEntry row r pre' post'])
      (hmem : candidate ∈ listing log) (hstatus : candidate.status = .sending) :
      Issues w log (.env (.reconcile row))
  /-- A delivery is settled. -/
  | settle (row : ReplyOutbox) (r : Except ProviderErr String) (l : List (Entry x))
      (pre post : State) (hlog : log = l ++ [deliverEntry row r pre post]) :
      Issues w log (.store .caller (.transitionReply (settlement w row r)))
  /-- A reconciliation with a definite answer is settled. -/
  | reconciled (row : ReplyOutbox) (status : DeliveryStatus) (providerID : String)
      (l : List (Entry x)) (pre post : State)
      (hlog : log = l ++ [reconcileEntry row (.ok (status, providerID)) pre post])
      (hstatus : status ≠ .unknown) :
      Issues w log (.store .caller (.transitionReply (w.reconciled row status providerID)))
  /-- A settled delivery is audited. -/
  | append (row value : ReplyOutbox) (answer : Except ProviderErr String) (writer : String)
      (r : Except Err ReplyCorrelation) (now : ℤ) (l : List (Entry x))
      (pre post pre₁ post₁ pre₂ post₂ pre₃ post₃ : State)
      (hlog : log = l ++ [deliverEntry row answer pre post,
        settleEntry (settlement w row answer) value pre₁ post₁,
        correlationEntry row r pre₂ post₂, nowEntry now pre₃ post₃])
      (hwriter : w.auditWriter = some writer)
      (hvalid : (deliveryEvent x w row (settlement w row answer) r now).validate = none) :
      Issues w log
        (.append .caller writer (deliveryEvent x w row (settlement w row answer) r now))
  /-- An event whose rows were all sent in the last listing is read. -/
  | message (eventID : String) (rows : List ReplyOutbox) (l : List (Entry x)) (pre post : State)
      (hlog : log = l ++ [listEntry w.tenantID rows pre post])
      (hsent : Worker.allSent eventID rows = true) :
      Issues w log (.store .caller (.getMessage w.tenantID eventID))
  /-- A completed event whose rows were all sent is moved to `reply_pending`. -/
  | advance (eventID : String) (event : MessageEvent) (rows : List ReplyOutbox)
      (l : List (Entry x)) (pre post pre' post' : State)
      (hlog : log = l ++ [listEntry w.tenantID rows pre post,
        messageEntry w.tenantID eventID event pre' post'])
      (hsent : Worker.allSent eventID rows = true) (hstatus : event.status = .completed) :
      Issues w log (.store .caller (.transitionMessage (w.toReplyPending eventID)))
  /-- An event in `reply_pending` whose rows were all sent is moved to `replied`. -/
  | replied (eventID : String) (event : MessageEvent) (rows : List ReplyOutbox)
      (l : List (Entry x)) (pre post pre' post' : State)
      (hlog : log = l ++ [listEntry w.tenantID rows pre post,
        messageEntry w.tenantID eventID event pre' post'])
      (hsent : Worker.allSent eventID rows = true) (hstatus : event.status = .replyPending) :
      Issues w log (.store .caller (.transitionMessage (w.toReplied eventID)))
  /-- An event just moved to `reply_pending` is moved to `replied`. -/
  | finish (eventID : String) (event moved : MessageEvent) (rows : List ReplyOutbox)
      (l : List (Entry x)) (pre post pre' post' pre'' post'' : State)
      (hlog : log = l ++ [listEntry w.tenantID rows pre post,
        messageEntry w.tenantID eventID event pre' post',
        advanceEntry w eventID moved pre'' post''])
      (hsent : Worker.allSent eventID rows = true) (hstatus : event.status = .completed) :
      Issues w log (.store .caller (.transitionMessage (w.toReplied eventID)))

/-! ## Passes that are over -/

/-- A delivery is followed by its settlement and, where there is an audit writer, a settlement that
was made by its audit event. -/
def Recorded (w : Worker) (row : ReplyOutbox) (answer : Except ProviderErr String)
    (rest : List (Entry x)) : Prop :=
  ∃ e l, rest = e :: l ∧ e.op = .store .caller (.transitionReply (settlement w row answer)) ∧
    ∀ value pre post, e = settleEntry (settlement w row answer) value pre post →
      ∀ writer, w.auditWriter = some writer →
        ∃ r now result, ∃ pre₁ post₁ pre₂ post₂ pre₃ post₃ l', l =
          correlationEntry row r pre₁ post₁ :: nowEntry now pre₂ post₂ ::
            appendEntry writer (deliveryEvent x w row (settlement w row answer) r now)
              (.ok result) pre₃ post₃ :: l'

/-- What follows an entry in a pass that is over: after the reading of a completed event the step to
`reply_pending`, after this step the one to `replied`, and after a delivery its record. -/
structure Owed (w : Worker) (e : Entry x) (rest : List (Entry x)) : Prop where
  /-- A completed event is advanced. -/
  message : ∀ eventID event pre post, e = messageEntry w.tenantID eventID event pre post →
    event.status = .completed → ∃ r pre post l,
      rest = ⟨.store .caller (.transitionMessage (w.toReplyPending eventID)), r, pre, post⟩ :: l
  /-- An advanced event is finished. -/
  advance : ∀ eventID event pre post, e = advanceEntry w eventID event pre post →
    ∃ r pre post l, rest = repliedEntry w eventID r pre post :: l
  /-- A delivery is recorded. -/
  deliver : ∀ row answer pre post, e = deliverEntry row answer pre post →
    Recorded w row answer rest

/-- The other entries need nothing after them. -/
theorem Owed.of_ne (hmessage : ∀ eventID, e.op ≠ .store .caller (.getMessage w.tenantID eventID))
    (hadvance : ∀ eventID, e.op ≠ .store .caller (.transitionMessage (w.toReplyPending eventID)))
    (hdeliver : ∀ row, e.op ≠ .env (.deliver row)) : Owed w e l :=
  ⟨fun E _ _ _ he => absurd (congrArg Machine.Entry.op he) (hmessage E),
    fun E _ _ _ he => absurd (congrArg Machine.Entry.op he) (hadvance E),
    fun row _ _ _ he => absurd (congrArg Machine.Entry.op he) (hdeliver row)⟩

variable {eventID : String}

/-- The reading of an event needs nothing after it unless it finds the event completed. -/
theorem Owed.of_message {r : Except Err MessageEvent}
    (h : ∀ event, r = .ok event → event.status = .completed → ∃ r pre post k, l =
      ⟨.store .caller (.transitionMessage (w.toReplyPending eventID)), r, pre, post⟩ :: k) :
    Owed w (⟨.store .caller (.getMessage w.tenantID eventID), r, pre, post⟩ : Entry x) l := by
  refine ⟨fun E event pre' post' he hs => ?_, fun E event pre' post' he => ?_,
    fun _ _ pre' post' he => ?_⟩
  · cases he
    exact h event rfl hs
  · cases he
  · cases he

/-- The step to `reply_pending` needs the one to `replied` after it when it is made. -/
theorem Owed.of_advance {r : Except Err MessageEvent}
    (h : ∀ event, r = .ok event → ∃ r pre post k, l = repliedEntry w eventID r pre post :: k) :
    Owed w (⟨.store .caller (.transitionMessage (w.toReplyPending eventID)), r, pre, post⟩ :
      Entry x) l := by
  refine ⟨fun E event pre' post' he => ?_, fun E event pre' post' he => ?_,
    fun _ _ pre' post' he => ?_⟩
  · cases he
  · unfold advanceEntry at he
    injection he with hop hres
    obtain rfl : eventID = E := by simpa [toReplyPending] using hop
    exact h event hres
  · cases he

/-- A delivery needs its record. -/
theorem Owed.of_deliver {row : ReplyOutbox} {answer : Except ProviderErr String}
    (h : Recorded w row answer l) : Owed w (deliverEntry row answer pre post) l := by
  refine ⟨fun E event pre' post' he => ?_, fun E event pre' post' he => ?_,
    fun _ _ pre' post' he => ?_⟩
  · cases he
  · cases he
  · cases he
    exact h

/-- Nothing is left to do in a log. -/
def Settled (w : Worker) : List (Entry x) → Prop
  | [] => True
  | e :: l => Owed w e l ∧ Settled w l

/-- What an entry needed is still there when the log goes on. -/
theorem Owed.append (h : Owed w e l) (l' : List (Entry x)) : Owed w e (l ++ l') := by
  refine ⟨fun E event pre post he hs => ?_, fun E event pre post he => ?_,
    fun row answer pre post he => ?_⟩
  · obtain ⟨r, pre, post, k, rfl⟩ := h.message E event pre post he hs
    exact ⟨r, pre, post, k ++ l', rfl⟩
  · obtain ⟨r, pre, post, k, rfl⟩ := h.advance E event pre post he
    exact ⟨r, pre, post, k ++ l', rfl⟩
  · obtain ⟨e', k, rfl, hop, hrec⟩ := h.deliver row answer pre post he
    refine ⟨e', k ++ l', rfl, hop, fun value pre post hv writer hw => ?_⟩
    obtain ⟨r, now, result, p1, q1, p2, q2, p3, q3, m, rfl⟩ := hrec value pre post hv writer hw
    exact ⟨r, now, result, p1, q1, p2, q2, p3, q3, m ++ l', rfl⟩

/-- Two logs with nothing left to do make one. -/
theorem Settled.append {l' : List (Entry x)} (h : Settled w l)
    (h' : Settled w l') : Settled w (l ++ l') := by
  induction l with
  | nil => exact h'
  | cons e l ih => exact ⟨h.1.append l', ih h.2⟩

/-- A log with nothing left to do has what each entry needs. -/
theorem Settled.owed {l1 l2 : List (Entry x)} (h : Settled w (l1 ++ e :: l2)) : Owed w e l2 := by
  induction l1 with
  | nil => exact h.1
  | cons _ _ ih => exact ih h.2

/-- Why a pass ended with an error. -/
def Explains (w : Worker) (log : List (Entry x)) : WorkerErr → Prop
  | .invalid => False
  | .storage err =>
    (∃ pre post, ⟨.store .caller (.listReplyCandidates w.tenantID),
      (.error err : Except Err (List ReplyOutbox)), pre, post⟩ ∈ log) ∨
    (err ≠ .conflict ∧ err ≠ .notFound ∧ ∃ candidate ∈ listing log, ∃ pre post,
      ⟨.store .caller (.claimReply candidate.tenantID candidate.replyID candidate.segmentIndex
        w.owner w.leaseDuration), (.error err : Except Err ReplyOutbox), pre, post⟩ ∈ log) ∨
    (err ≠ .conflict ∧ ∃ candidate ∈ listing log, ∃ row answer pre post pre' post',
      claimEntry w candidate row pre post ∈ log ∧
      ⟨.store .caller (.transitionReply (settlement w row answer)),
        (.error err : Except Err ReplyOutbox), pre', post'⟩ ∈ log)
  | .audit err => ∃ row answer value r now writer, ∃ pre post pre₁ post₁ pre₂ post₂ pre₃ post₃,
    deliverEntry row answer pre post ∈ log ∧
    settleEntry (settlement w row answer) value pre₁ post₁ ∈ log ∧
    correlationEntry row r pre₂ post₂ ∈ log ∧ nowEntry now pre₃ post₃ ∈ log ∧
    w.auditWriter = some writer ∧
    ((deliveryEvent x w row (settlement w row answer) r now).validate = some err ∨
      ∃ pre₄ post₄, appendEntry writer (deliveryEvent x w row (settlement w row answer) r now)
        (.error err) pre₄ post₄ ∈ log)

/-! ## Every pass keeps the discipline -/

section Pass

variable (w : Worker)

/-- The last step of `advanceEvent` is one operation. -/
theorem markReplied_obeys {eventID : String} {log : List (Entry x)}
    (h : Issues w log (.store .caller (.transitionMessage (w.toReplied eventID)))) :
    (w.markReplied eventID).Obeys (Issues w)
      (fun log' _ => ∃ r pre post, log' = log ++ [repliedEntry w eventID r pre post]) log := by
  simp only [markReplied, obeys_bind, obeys_storeOp]
  exact ⟨h, fun pre r post _ => ⟨r, pre, post, rfl⟩⟩

/-- `advanceEvent` adds to the log and leaves nothing to do. -/
theorem advanceEvent_obeys (eventID : String) (log : List (Entry x)) :
    (w.advanceEvent eventID).Obeys (Issues w)
      (fun log' _ => ∃ seg, log' = log ++ seg ∧ Settled w seg) log := by
  have hlist : ∀ r pre post l, Owed w
      (⟨.store .caller (.listReplyCandidates w.tenantID), r, pre, post⟩ : Entry x) l :=
    fun _ _ _ _ => .of_ne (by simp) (by simp) (by simp)
  have hreplied : ∀ r pre post, Settled w [repliedEntry (x := x) w eventID r pre post] :=
    fun _ _ _ => ⟨.of_ne (by simp [repliedEntry])
      (by simp [repliedEntry, toReplied, toReplyPending])
      (by simp [repliedEntry]), trivial⟩
  unfold advanceEvent
  split
  · exact ⟨[], by simp, trivial⟩
  simp only [obeys_bind, obeys_storeOp]
  refine ⟨.list, fun pre r post _ => ?_⟩
  rcases r with err | rows
  · exact ⟨_, rfl, hlist _ _ _ _, trivial⟩
  dsimp only
  split
  · exact ⟨_, rfl, hlist _ _ _ _, trivial⟩
  next hsent =>
  have hsent : allSent eventID rows = true := not_not.1 hsent
  simp only [obeys_bind, obeys_storeOp]
  refine ⟨.message eventID rows log pre post rfl hsent, fun pre' r post' _ => ?_⟩
  rcases r with err | event
  · exact ⟨_, snocs _ [_, _], hlist _ _ _ _, .of_message (by simp), trivial⟩
  dsimp only
  split
  · -- The event is completed: it is moved to `reply_pending` and then to `replied`.
    next hstatus =>
    simp only [obeys_bind, obeys_storeOp]
    refine ⟨.advance eventID event rows log pre post pre' post' (snocs _ [_, _]) hsent hstatus,
      fun pre'' r post'' _ => ?_⟩
    rcases r with err | moved
    · refine ⟨_, snocs _ [_, _, _], hlist _ _ _ _, ?_, ?_⟩
      · exact .of_message fun _ _ _ => ⟨_, _, _, _, rfl⟩
      · exact ⟨.of_advance (by simp), trivial⟩
    · refine (markReplied_obeys w (.finish eventID event moved rows log pre post pre' post' pre''
        post'' (snocs _ [_, _, _]) hsent hstatus)).mono (fun _ _ => id) ?_
      rintro log' - ⟨r, p, q, rfl⟩
      refine ⟨_, snocs _ [_, _, _, _], hlist _ _ _ _, ?_, ?_⟩
      · exact .of_message fun _ _ _ => ⟨_, _, _, _, rfl⟩
      · exact ⟨.of_advance fun _ _ => ⟨_, _, _, _, rfl⟩, hreplied r p q⟩
  · next hcompleted =>
    have howed : ∀ l, Owed w (messageEntry (x := x) w.tenantID eventID event pre' post') l :=
      fun l => .of_message fun _ hv hs => absurd (by cases hv; exact hs) hcompleted
    split
    · next hstatus =>
      refine (markReplied_obeys w (.replied eventID event rows log pre post pre' post'
        (snocs _ [_, _]) hsent hstatus)).mono (fun _ _ => id) ?_
      rintro log' - ⟨r, p, q, rfl⟩
      exact ⟨_, snocs _ [_, _, _], hlist _ _ _ _, howed _, hreplied r p q⟩
    · exact ⟨_, snocs _ [_, _], hlist _ _ _ _, howed _, trivial⟩

/-- What `recordDelivery` leaves: without an error a log with nothing left to do, which holds the
audit event of the settlement where there is an audit writer, and otherwise the reason. -/
def RecordedBy (row : ReplyOutbox) (answer : Except ProviderErr String) (log log' : List (Entry x))
    (err : Option Audit.Err) : Prop :=
  ∃ seg, log' = log ++ seg ∧
    (err = none → Settled w seg ∧ ∀ writer, w.auditWriter = some writer → ∃ r now result,
      ∃ pre₁ post₁ pre₂ post₂ pre₃ post₃, seg =
        [correlationEntry row r pre₁ post₁, nowEntry now pre₂ post₂,
          appendEntry writer (deliveryEvent x w row (settlement w row answer) r now)
            (.ok result) pre₃ post₃]) ∧
    ∀ e, err = some e → Explains w log' (.audit e)

variable {value : ReplyOutbox} {answer : Except ProviderErr String} {l log' : List (Entry x)}
variable {pre1 post1 pre2 post2 : State} {row : ReplyOutbox}

/-- `Recorder.IM` after a settlement and the reading of its correlation. -/
theorem recordIM_obeys
    {requestID traceID : String} {decision : Audit.Decision} {r : Except Err ReplyCorrelation}
    {log : List (Entry x)} {pre post : State}
    (hlog : log = l ++ [deliverEntry row answer pre post,
      settleEntry (settlement w row answer) value pre1 post1])
    (hevent : ∀ now, Audit.complete x.hashing w.tenantID now (Audit.imEvent
        (deliveryType (settlement w row answer)) requestID traceID "" "" decision
        (settlement w row answer).errorClass) =
      deliveryEvent x w row (settlement w row answer) r now) :
    (w.recordIM (deliveryType (settlement w row answer)) requestID traceID decision
      (settlement w row answer).errorClass).Obeys (Issues w) (RecordedBy w row answer log)
      (log ++ [correlationEntry row r pre2 post2]) := by
  have hcorr : ∀ l, Owed w (correlationEntry (x := x) row r pre2 post2) l := fun _ =>
    .of_ne (by simp [correlationEntry]) (by simp [correlationEntry]) (by simp [correlationEntry])
  unfold recordIM
  split
  · next hwriter =>
    exact ⟨_, rfl, fun _ => ⟨⟨hcorr _, trivial⟩, by simp [hwriter]⟩, by simp⟩
  next writer hwriter =>
  simp only [obeys_bind, obeys_timeNow]
  refine ⟨.now, fun pre3 now post3 _ => ?_⟩
  rw [hevent now]
  have hlog3 : ∀ e : Entry x, log ++ [correlationEntry row r pre2 post2] ++ [e] =
      l ++ [deliverEntry row answer pre post, settleEntry (settlement w row answer) value pre1 post1,
        correlationEntry row r pre2 post2, e] := fun e => by simp [hlog]
  split
  · next err hinvalid =>
    refine ⟨_, snocs _ [_, _], by simp, fun e he => ?_⟩
    cases he
    refine ⟨row, answer, value, r, now, writer, pre, post, pre1, post1, pre2, post2, pre3, post3,
      ?_, ?_, ?_, ?_, hwriter, .inl hinvalid⟩ <;> simp [hlog, nowEntry]
  · next hvalid =>
    simp only [obeys_bind, obeys_appendAudit]
    refine ⟨.append row value answer writer r now l pre post pre1 post1 pre2 post2 pre3 post3
      (hlog3 _) hwriter hvalid, fun pre4 result post4 _ => ?_⟩
    rcases result with err | result
    · refine ⟨_, snocs _ [_, _, _], by simp, fun e he => ?_⟩
      cases he
      refine ⟨row, answer, value, r, now, writer, pre, post, pre1, post1, pre2, post2, pre3,
        post3, ?_, ?_, ?_, ?_, hwriter, .inr ⟨pre4, post4, ?_⟩⟩ <;>
        simp [hlog, nowEntry, appendEntry]
    · refine ⟨_, snocs _ [_, _, _], fun _ => ⟨⟨hcorr _, ?_, ?_, trivial⟩, ?_⟩, by simp⟩
      · exact .of_ne (by simp) (by simp) (by simp)
      · exact .of_ne (by simp) (by simp) (by simp)
      · intro _ hwriter'
        rw [hwriter] at hwriter'
        cases hwriter'
        exact ⟨r, now, result, pre2, post2, pre3, post3, pre4, post4, rfl⟩

/-- `recordDelivery` after a settlement. -/
theorem recordDelivery_obeys (answer : Except ProviderErr String)
    {log : List (Entry x)} {pre post : State}
    (hlog : log = l ++ [deliverEntry row answer pre post,
      settleEntry (settlement w row answer) value pre1 post1]) :
    (w.recordDelivery (deliveryType (settlement w row answer)) row
      (settlement w row answer).errorClass).Obeys (Issues w) (RecordedBy w row answer log) log := by
  unfold recordDelivery
  simp only [obeys_bind, obeys_storeOp]
  refine ⟨.correlation _ _, fun _ r _ _ => ?_⟩
  rcases r with _ | correlation
  · exact recordIM_obeys w hlog fun now => rfl
  · exact recordIM_obeys w hlog fun now => rfl

/-- What the processing of a claimed row leaves: a log with nothing left to do, unless the audit
failed, and the reason for an error that ends the pass. -/
def Processed (log log' : List (Entry x)) (err : Option WorkerErr) : Prop :=
  ∃ seg, log' = log ++ seg ∧ ((∀ e, err ≠ some (.audit e)) → Settled w seg) ∧
    ∀ e, err = some e → e.isConflict = false → Explains w log' e

variable {w}

/-- An entry that needs nothing may be put in front. -/
theorem Processed.of_cons {e : Entry x} {log : List (Entry x)} {err : Option WorkerErr}
    (he : ∀ l, Owed w e l) (h : Processed w (log ++ [e]) log' err) : Processed w log log' err := by
  obtain ⟨seg, rfl, hsettled, hexplains⟩ := h
  exact ⟨e :: seg, by simp, fun herr => ⟨he seg, hsettled herr⟩, hexplains⟩

variable {candidate row : ReplyOutbox} {log : List (Entry x)} {pre post : State}

/-- A settlement that fails ends the processing of the row. -/
theorem processed_of_error (hmem : candidate ∈ listing log)
    (hclaim : claimEntry w candidate row pre post ∈ log) (answer : Except ProviderErr String)
    {err : Err} : Processed w log (log ++ [deliverEntry row answer pre1 post1] ++
      [⟨.store .caller (.transitionReply (settlement w row answer)),
        (.error err : Except Err ReplyOutbox), pre2, post2⟩]) (some (.storage err)) := by
  have hne : log ≠ [] := ne_nil_of_mem hclaim
  refine ⟨_, snocs _ [_, _], fun _ => ⟨.of_deliver ?_, .of_ne (by simp) (by simp) (by simp), trivial⟩,
    fun e he hconflict => ?_⟩
  · exact ⟨_, _, rfl, rfl, fun _ p q h => by cases h⟩
  · cases he
    refine .inr (.inr ⟨?_, candidate, ?_, row, answer, pre, post, pre2, post2, ?_, ?_⟩)
    · rintro rfl
      cases hconflict
    · rw [append_assoc, listing_append hne]
      exact hmem
    · simp [hclaim]
    · simp

/-- A settlement that is made and recorded, after which nothing is left to do. -/
theorem processed_of_recorded
    (h : RecordedBy w row answer (log ++ [deliverEntry row answer pre1 post1] ++
      [settleEntry (settlement w row answer) value pre2 post2]) log' none)
    {seg : List (Entry x)} (hseg : Settled w seg) : Processed w log (log' ++ seg) none := by
  obtain ⟨seg', rfl, hsettled, -⟩ := h
  obtain ⟨hsettled, hrecord⟩ := hsettled rfl
  refine ⟨deliverEntry row answer pre1 post1 ::
    settleEntry (settlement w row answer) value pre2 post2 :: (seg' ++ seg), by simp,
    fun _ => ⟨.of_deliver ?_, ?_, hsettled.append hseg⟩, by simp⟩
  · refine ⟨_, _, rfl, rfl, fun _ p q _ writer hwriter => ?_⟩
    obtain ⟨r, now, result, p1, q1, p2, q2, p3, q3, rfl⟩ := hrecord writer hwriter
    exact ⟨r, now, result, p1, q1, p2, q2, p3, q3, seg, rfl⟩
  · exact .of_ne (by simp [settleEntry]) (by simp [settleEntry]) (by simp [settleEntry])

/-- A settlement that is made and whose record fails. -/
theorem processed_of_unrecorded
    {err : Audit.Err}
    (h : RecordedBy w row answer (log ++ [deliverEntry row answer pre1 post1] ++
      [settleEntry (settlement w row answer) value pre2 post2]) log' (some err)) :
    Processed w log log' (some (.audit err)) := by
  obtain ⟨_, rfl, -, hexplains⟩ := h
  refine ⟨_, by rw [append_assoc, append_assoc], fun hne => absurd rfl (hne err), fun e he _ => ?_⟩
  cases he
  exact hexplains err rfl

/-- `acceptDelivery` of a claimed row. -/
theorem acceptDelivery_obeys (hmem : candidate ∈ listing log)
    (hclaim : claimEntry w candidate row pre post ∈ log) {providerID : String} :
    (w.acceptDelivery row providerID).Obeys (Issues w) (Processed w log)
      (log ++ [deliverEntry row (.ok providerID) pre1 post1]) := by
  unfold acceptDelivery
  simp only [obeys_bind, obeys_storeOp]
  refine ⟨.settle row (.ok providerID) log pre1 post1 rfl, fun _ r _ _ => ?_⟩
  rcases r with err | _
  · exact processed_of_error hmem hclaim (.ok providerID)
  dsimp only
  rw [obeys_bind]
  refine (recordDelivery_obeys w (.ok providerID) (snocs _ [_, _])).mono (fun _ _ => id)
    fun log' err hrec => ?_
  cases err with
  | some => exact processed_of_unrecorded hrec
  | none =>
    dsimp only
    refine (advanceEvent_obeys w row.eventID log').bind ?_
    rintro _ - ⟨_, rfl, hseg⟩
    exact processed_of_recorded hrec hseg

/-- The audit event of a failed delivery says whether the row is dead or will be retried. -/
theorem deliveryType_settlement (err : ProviderErr) : deliveryType (settlement w row (.error err)) =
      if w.rejectedStatus row (classify err).2 = .deadLetter then .imDeliveryDeadLettered
      else .imDeliveryRetryScheduled := by
  have hsent : w.rejectedStatus row (classify err).2 ≠ .sent := by
    unfold rejectedStatus
    split_ifs <;> simp
  exact if_neg hsent

/-- `rejectDelivery` of a claimed row. -/
theorem rejectDelivery_obeys (hmem : candidate ∈ listing log)
    (hclaim : claimEntry w candidate row pre post ∈ log) {err : ProviderErr} :
    (w.rejectDelivery row err).Obeys (Issues w) (Processed w log)
      (log ++ [deliverEntry row (.error err) pre1 post1]) := by
  unfold rejectDelivery
  simp only [obeys_bind, obeys_storeOp]
  refine ⟨.settle row (.error err) log pre1 post1 rfl, fun _ r _ _ => ?_⟩
  rcases r with err' | _
  · exact processed_of_error hmem hclaim (.error err)
  dsimp only
  rw [obeys_bind, ← deliveryType_settlement]
  refine (recordDelivery_obeys w (.error err) (snocs _ [_, _])).mono (fun _ _ => id)
    fun _ err' hrec => ?_
  cases err' with
  | some => exact processed_of_unrecorded hrec
  | none =>
    have h := processed_of_recorded hrec (show Settled w [] from trivial)
    rwa [append_nil] at h

/-- `reconcile` of a claimed row, after which nothing is left to do. -/
theorem reconcile_obeys {r : Except Err ReplyCorrelation}
    (hlog : log = l ++ [claimEntry w candidate row pre post, correlationEntry row r pre1 post1])
    (hmem : candidate ∈ listing log) (hstatus : candidate.status = .sending) :
    (w.reconcile row).Obeys (Issues w)
      (fun log' _ => ∃ seg, log' = log ++ seg ∧ Settled w seg) log := by
  have howed : ∀ (r : Except ProviderErr (DeliveryStatus × String)) p q l,
      Owed w (reconcileEntry (x := x) row r p q) l := fun _ _ _ _ =>
    .of_ne (by simp [reconcileEntry]) (by simp [reconcileEntry]) (by simp [reconcileEntry])
  unfold reconcile
  simp only [obeys_bind, obeys_envOp]
  refine ⟨.reconcile candidate row l pre post pre1 post1 r hlog hmem hstatus,
    fun pre2 answer post2 _ => ?_⟩
  rcases answer with err | ⟨status, providerID⟩
  · exact ⟨_, rfl, howed _ _ _ _, trivial⟩
  dsimp only
  split
  · exact ⟨_, rfl, howed _ _ _ _, trivial⟩
  next hknown =>
  simp only [obeys_bind, obeys_storeOp]
  refine ⟨.reconciled row status providerID log pre2 post2 rfl hknown, fun pre3 r post3 _ => ?_⟩
  have hsettled : Settled w [reconcileEntry (x := x) row (.ok (status, providerID)) pre2 post2,
      ⟨.store .caller (.transitionReply (w.reconciled row status providerID)), r, pre3, post3⟩] :=
    ⟨howed _ _ _ _, .of_ne (by simp) (by simp) (by simp), trivial⟩
  rcases r with err | _
  · exact ⟨_, snocs _ [_, _], hsettled⟩
  · exact ⟨_, snocs _ [_, _], hsettled⟩

/-- `processClaimed` of a candidate and the row that was claimed for it. -/
theorem processClaimed_obeys
    (hlog : log = l ++ [claimEntry w candidate row pre post]) (hmem : candidate ∈ listing log) :
    (w.processClaimed candidate row).Obeys (Issues w) (Processed w log) log := by
  have hclaim : claimEntry w candidate row pre post ∈ log := by simp [hlog]
  have hne : log ≠ [] := ne_nil_of_mem hclaim
  unfold processClaimed
  simp only [obeys_bind, obeys_storeOp]
  refine ⟨.correlation _ _, fun pre1 r post1 _ => ?_⟩
  have hcorr : ∀ l, Owed w (correlationEntry (x := x) row r pre1 post1) l := fun _ =>
    .of_ne (by simp [correlationEntry]) (by simp [correlationEntry]) (by simp [correlationEntry])
  have hlog1 : log ++ [correlationEntry row r pre1 post1] =
      l ++ [claimEntry w candidate row pre post, correlationEntry row r pre1 post1] := by
    simp [hlog]
  have hmem1 : candidate ∈ listing (log ++ [correlationEntry row r pre1 post1]) := by
    rw [listing_append hne]
    exact hmem
  have hclaim1 : claimEntry w candidate row pre post ∈
      log ++ [correlationEntry row r pre1 post1] := by simp [hclaim]
  -- The correlation entry needs nothing, so the rest may be judged from the log after it.
  refine Program.Obeys.mono (fun _ _ (h : Issues w _ _) => h) (fun log' err => .of_cons hcorr) ?_
  split
  · next hstatus =>
    refine (reconcile_obeys hlog1 hmem1 hstatus).bind ?_
    rintro log' _ ⟨seg, rfl, hseg⟩
    split
    · rw [obeys_bind]
      refine (advanceEvent_obeys w row.eventID _).mono (fun _ _ => id) ?_
      rintro _ - ⟨seg', rfl, hseg'⟩
      exact ⟨seg ++ seg', append_assoc .., fun _ => hseg.append hseg', by simp⟩
    · exact ⟨seg, rfl, fun _ => hseg, by simp⟩
  · next hstatus =>
    simp only [obeys_bind, obeys_envOp]
    refine ⟨.deliver candidate row l pre post pre1 post1 r hlog1 hmem1 hstatus,
      fun _ answer _ _ => ?_⟩
    rcases answer with err | _
    · exact rejectDelivery_obeys hmem1 hclaim1
    · exact acceptDelivery_obeys hmem1 hclaim1

/-- What `claimCandidate` leaves: no claim, a claim at the end of the log, or an error. -/
def ClaimedBy (w : Worker) (candidate : ReplyOutbox) (log log' : List (Entry x)) :
    Except WorkerErr (Option ReplyOutbox) → Prop
  | .ok none => ∃ seg, log' = log ++ seg ∧ Settled w seg
  | .ok (some row) => ∃ seg pre post, log' = log ++ seg ++ [claimEntry w candidate row pre post] ∧
      Settled w seg
  | .error err => ∃ seg, log' = log ++ seg ∧ Settled w seg ∧ Explains w log' err

/-- `eligible` reads the clock at most. -/
theorem eligible_obeys (candidate : ReplyOutbox) (log : List (Entry x)) :
    (eligible candidate).Obeys (Issues w)
      (fun log' _ => ∃ seg, log' = log ++ seg ∧ Settled w seg) log := by
  have hnil : ∃ seg, log = log ++ seg ∧ Settled w seg := ⟨[], by simp, trivial⟩
  unfold eligible
  split
  · exact hnil
  · split
    · split
      · exact hnil
      · simp only [obeys_bind, obeys_timeNow]
        exact ⟨.now, fun _ now _ _ =>
          ⟨_, rfl, .of_ne (by simp) (by simp) (by simp), trivial⟩⟩
    · exact hnil

/-- `claimCandidate` of a row of the listing. -/
theorem claimCandidate_obeys (hmem : candidate ∈ listing log) (hne : log ≠ []) :
    (w.claimCandidate candidate).Obeys (Issues w) (ClaimedBy w candidate log) log := by
  unfold claimCandidate
  refine (eligible_obeys candidate log).bind ?_
  rintro _ _ ⟨seg, rfl, hseg⟩
  split
  · exact ⟨seg, rfl, hseg⟩
  simp only [obeys_bind, obeys_timeNow]
  refine ⟨.now, fun pre now post _ => ?_⟩
  have hnow : Settled w (seg ++ [nowEntry now pre post]) :=
    hseg.append ⟨.of_ne (by simp [nowEntry]) (by simp [nowEntry]) (by simp [nowEntry]), trivial⟩
  split
  · exact ⟨_, append_assoc .., hnow⟩
  simp only [obeys_bind, obeys_storeOp]
  have hmem' : ∀ l, candidate ∈ listing (log ++ l) := fun l => by
    rw [listing_append hne]
    exact hmem
  refine ⟨.claim candidate (by rw [append_assoc]; exact hmem' _), fun pre1 r post1 _ => ?_⟩
  rcases r with err | _
  · have hsettled : Settled w (seg ++ [nowEntry now pre post] ++ [⟨.store .caller (.claimReply
        candidate.tenantID candidate.replyID candidate.segmentIndex w.owner w.leaseDuration),
        (.error err : Except Err ReplyOutbox), pre1, post1⟩]) :=
      hnow.append ⟨.of_ne (by simp) (by simp) (by simp), trivial⟩
    have hlog : ∀ a b : Entry x, log ++ seg ++ [a] ++ [b] = log ++ (seg ++ [a] ++ [b]) := by simp
    split
    · exact ⟨_, hlog .., hsettled⟩
    · exact ⟨_, hlog .., hsettled⟩
    · next err' hconflict hnotFound herr =>
      cases herr
      refine ⟨_, hlog .., hsettled, .inr (.inl ⟨?_, ?_, candidate, ?_, pre1, post1, ?_⟩)⟩
      · rintro rfl
        exact hconflict rfl
      · rintro rfl
        exact hnotFound rfl
      · rw [hlog]
        exact hmem' _
      · exact mem_append_right _ mem_cons_self
    · next h => cases h
  · exact ⟨_, pre1, post1, by rw [← append_assoc]; rfl, hnow⟩

/-- What the loop of `RunOnce` leaves: a log with nothing left to do, unless the audit failed, and
the reason for an error. -/
def PassedBy (w : Worker) (log log' : List (Entry x)) (err : Option WorkerErr) : Prop :=
  ∃ seg, log' = log ++ seg ∧ ((∀ e, err ≠ some (.audit e)) → Settled w seg) ∧
    ∀ e, err = some e → Explains w log' e

/-- A settled part in front of the rest of the loop. -/
theorem PassedBy.of_append {seg : List (Entry x)} {err : Option WorkerErr}
    (hseg : Settled w seg) (h : PassedBy w (log ++ seg) log' err) : PassedBy w log log' err := by
  obtain ⟨seg', rfl, hsettled, hexplains⟩ := h
  exact ⟨seg ++ seg', append_assoc .., fun herr => hseg.append (hsettled herr), hexplains⟩

/-- The loop of `RunOnce` over rows of the listing. -/
theorem runCandidates_obeys (hne : log ≠ []) {candidates : List ReplyOutbox}
    (hmem : ∀ candidate ∈ candidates, candidate ∈ listing log) (processed : ℕ) :
    (w.runCandidates candidates processed).Obeys (Issues w)
      (fun log' r => PassedBy w log log' r.2) log := by
  -- The log grows from candidate to candidate, and its listing stays.
  induction candidates generalizing log processed with
  | nil => exact ⟨[], by simp, fun _ => trivial, by simp⟩
  | cons candidate candidates ih =>
    unfold runCandidates
    refine (claimCandidate_obeys (hmem candidate mem_cons_self) hne).bind ?_
    have hrest : ∀ seg, Settled w seg → ∀ processed,
        (w.runCandidates candidates processed).Obeys (Issues w)
          (fun log' r => PassedBy w log log' r.2) (log ++ seg) := by
      intro seg hseg processed
      refine (ih (by simp [hne]) (fun c hc => ?_) processed).mono (fun _ _ => id)
        fun log' r => .of_append hseg
      rw [listing_append hne]
      exact hmem c (mem_cons_of_mem _ hc)
    rintro log' (err | _ | row) h
    · obtain ⟨seg, rfl, hseg, hexplains⟩ := h
      exact ⟨seg, rfl, fun _ => hseg, fun e he => by cases he; exact hexplains⟩
    · obtain ⟨seg, rfl, hseg⟩ := h
      exact hrest seg hseg processed
    · obtain ⟨seg, pre, post, rfl, hseg⟩ := h
      dsimp only
      refine (processClaimed_obeys rfl ?_).bind ?_
      · rw [append_assoc, listing_append hne]
        exact hmem candidate mem_cons_self
      · have hclaim : Settled w (seg ++ [claimEntry (x := x) w candidate row pre post]) :=
          hseg.append ⟨.of_ne (by simp [claimEntry]) (by simp [claimEntry]) (by simp [claimEntry]),
            trivial⟩
        rintro log' err ⟨_, rfl, hsettled, hexplains⟩
        rw [append_assoc log, append_assoc log]
        cases err with
        | none => exact hrest _ (hclaim.append (hsettled (by simp))) _
        | some err =>
          dsimp only
          split
          · next hconflict =>
            refine hrest _ (hclaim.append (hsettled fun e he => ?_)) _
            cases he
            cases hconflict
          · next hconflict =>
            refine ⟨_, rfl, fun herr => hclaim.append (hsettled herr), fun e he => ?_⟩
            cases he
            have h := hexplains err rfl (by simpa using hconflict)
            rwa [append_assoc log, append_assoc log] at h

/-- Every pass keeps the discipline; a pass that is over has nothing left to do, unless the audit
failed, and an error has its reason. -/
theorem runOnce_obeys (w : Worker) : w.runOnce.Obeys (Issues w) (fun log r =>
      ((∀ e, r.2 ≠ some (.audit e)) → Settled w log) ∧ ∀ e, r.2 = some e → Explains w log e)
      ([] : List (Entry x)) := by
  have hlist : ∀ (r : Except Err (List ReplyOutbox)) pre post, Settled w
      [(⟨.store .caller (.listReplyCandidates w.tenantID), r, pre, post⟩ : Entry x)] :=
    fun _ _ _ => ⟨.of_ne (by simp) (by simp) (by simp), trivial⟩
  unfold runOnce
  simp only [obeys_bind, obeys_storeOp]
  refine ⟨.list, fun pre r post _ => ?_⟩
  rcases r with _ | (candidates : List ReplyOutbox)
  · refine ⟨fun _ => hlist _ _ _, fun e he => ?_⟩
    cases he
    exact .inl ⟨pre, post, mem_cons_self⟩
  · have hmem : ∀ candidate ∈ candidates, candidate ∈ listing
        [listEntry (x := x) w.tenantID candidates pre post] := fun _ => id
    refine (runCandidates_obeys (cons_ne_nil _ _) hmem 0).mono (fun _ _ => id) ?_
    rintro log r ⟨_, rfl, hsettled, hexplains⟩
    exact ⟨fun herr => (hlist _ _ _).append (hsettled herr), hexplains⟩

end Pass

end AgentService.Outbox
