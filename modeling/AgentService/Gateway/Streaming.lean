import AgentService.Gateway.Finish

/-!
# What `forward` performs

The log of a call of `forward` has three parts. While the stream lasts, the context is tested, the
stream is read, and events are sent (`Streamed`). How the stream ends decides the verdict, which is
written to the audit log and to the handoff (`Closing`); each of these steps may fail, and each
failure changes the terminal error. At last `finalizeForward` hands off once more, writes the audit
if it is still missing, and finishes the event (`Forwarded`). `forward_obeys` proves that every call
has such a log.
-/

namespace AgentService.Gateway

open Storage Platform Outbox Concurrent Program List Dispatcher

variable {x : Externals}

/-! ## Runner events -/

/-- A runner event with an error. -/
def failedEvent (event : Option RunnerEvent) : Bool :=
  match event.bind RunnerEvent.response with
  | none => false
  | some response => response.failed

/-- A runner event after which nothing is read. -/
def finalEvent (event : Option RunnerEvent) : Bool :=
  match event.bind RunnerEvent.response with
  | none => false
  | some response => response.failed || response.done

variable (event : Option RunnerEvent) (requestID traceID : String)

/-- The last event of a stream is marked by `mapRunnerEvent`. -/
theorem mapRunnerEvent_snd : (mapRunnerEvent event requestID traceID).2 = finalEvent event := by
  unfold mapRunnerEvent finalEvent
  cases event.bind RunnerEvent.response with
  | none => rfl
  | some =>
    dsimp only
    split_ifs <;> simp_all

/-- Only a runner event with an error is mapped to an error. -/
theorem mapRunnerEvent_error :
    ((mapRunnerEvent event requestID traceID).1.any fun item => item.type = .error) =
      failedEvent event := by
  unfold mapRunnerEvent failedEvent
  cases event.bind RunnerEvent.response with
  | none => rfl
  | some =>
    dsimp only
    split_ifs <;> simp_all

/-- Only the last event of a stream is mapped to a final event. -/
theorem mapRunnerEvent_done {event : Option RunnerEvent} {requestID traceID : String}
    {item : DispatchEvent} (hitem : item ∈ (mapRunnerEvent event requestID traceID).1)
    (hdone : item.type = .done) : (mapRunnerEvent event requestID traceID).2 = true := by
  unfold mapRunnerEvent at hitem ⊢
  cases hresponse : event.bind RunnerEvent.response with
  | none =>
    rw [hresponse] at hitem
    simp only [mem_singleton] at hitem
    subst hitem
    cases hdone
  | some =>
    rw [hresponse] at hitem
    dsimp only at hitem ⊢
    split_ifs at hitem ⊢ <;> simp_all

/-! ## The steps of an execution -/

/-- The text that a step puts on the output channel. -/
def sentText : Entry x → String
  | ⟨.env (.send item), (none : Option CtxErr), _, _⟩ =>
    if item.type = .message then item.text else ""
  | ⟨.env (.trySend item), (true : Bool), _, _⟩ =>
    if item.type = .message then item.text else ""
  | _ => ""

/-- The texts of the messages that were put on the output channel, in order. -/
def streamed (l : List (Entry x)) : String := String.join (l.map sentText)

@[simp] theorem streamed_nil : streamed ([] : List (Entry x)) = "" := String.join_nil

@[simp] theorem streamed_cons (entry : Entry x) (l : List (Entry x)) :
    streamed (entry :: l) = sentText entry ++ streamed l := String.join_cons

variable (l1 l2 : List (Entry x))

@[simp] theorem streamed_append : streamed (l1 ++ l2) = streamed l1 ++ streamed l2 := by
  rw [streamed, map_append, String.join_append, streamed, streamed]

/-- What a step means for the outcome of an execution. -/
inductive Mark where
  /-- The stream is read. -/
  | received
  /-- The context ends the wait for the runner. -/
  | stopped
  /-- The context cuts off an event that is not the final one. -/
  | cut
  /-- An audit event is appended, or not accepted. -/
  | audit (eventType : Audit.EventType) (accepted : Bool)
  /-- The handoff is finalized, or not accepted. -/
  | handoff (result : Audit.ExecutionResult) (accepted : Bool)
  /-- The rows of the reply are stored, or not accepted. -/
  | batch (accepted : Bool)
  /-- The durable event is moved, or not accepted. -/
  | status (status : EventStatus) (accepted : Bool)
  deriving DecidableEq

/-- The mark of a step, if it has one. -/
def mark : Entry x → Option Mark
  | ⟨.env .select, (none : Option CtxErr), _, _⟩ => some .received
  | ⟨.env .select, some _, _, _⟩ => some .stopped
  | ⟨.env .ctxErr, some _, _, _⟩ => some .stopped
  | ⟨.env (.send item), some _, _, _⟩ => if item.type = .done then none else some .cut
  | ⟨.append _ _ event, r, _, _⟩ => some (.audit event.eventType (Except.isOk r))
  | ⟨.finalize _ value, r, _, _⟩ => some (.handoff value.result (Except.isOk r))
  | ⟨.store _ (.enqueueReplies _), r, _, _⟩ => some (.batch (Except.isOk r))
  | ⟨.store _ (.enqueueRepliesWithCorrelation ..), r, _, _⟩ => some (.batch (Except.isOk r))
  | ⟨.store _ (.transitionMessage t), r, _, _⟩ => some (.status t.to (Except.isOk r))
  | _ => none

/-- The marks of a log. -/
def marks (l : List (Entry x)) : List Mark := l.filterMap mark

@[simp] theorem marks_append : marks (l1 ++ l2) = marks l1 ++ marks l2 :=
  filterMap_append

theorem marks_eq_nil {l : List (Entry x)} (h : ∀ entry ∈ l, mark entry = none) : marks l = [] :=
  filterMap_eq_nil_iff.2 h

/-- An event that was sent. -/
def sentEntry (item : DispatchEvent) (pre post : State) : Entry x :=
  ⟨.env (.send item), (none : Option CtxErr), pre, post⟩

/-- An event whose sending the context cut off. -/
def cutEntry (item : DispatchEvent) (cause : CtxErr) (pre post : State) : Entry x :=
  ⟨.env (.send item), some cause, pre, post⟩

/-- The steps by which events are sent. -/
def Sends (entry : Entry x) : Prop := ∃ item pre post, entry = sentEntry item pre post

/-- Sending leaves no mark. -/
theorem marks_of_sends {k : List (Entry x)} (h : ∀ entry ∈ k, Sends entry) : marks k = [] := by
  refine marks_eq_nil fun entry hentry => ?_
  obtain ⟨_, _, _, rfl⟩ := h entry hentry
  rfl

/-- The steps while a stream lasts. -/
inductive Streams : Entry x → Prop
  /-- The context is not done. -/
  | live (pre post : State) : Streams ⟨.env .ctxErr, (none : Option CtxErr), pre, post⟩
  /-- The stream is read. -/
  | chosen (pre post : State) : Streams ⟨.env .select, (none : Option CtxErr), pre, post⟩
  /-- An event is sent. -/
  | sent (item : DispatchEvent) (pre post : State) : Streams (sentEntry item pre post)

/-- The log of a stream that was read `n` times, with the text that was sent. -/
structure Streamed (n : ℕ) (text : String) (l : List (Entry x)) : Prop where
  /-- Nothing has ended the stream. -/
  streams : ∀ entry ∈ l, Streams entry
  /-- The number of readings. -/
  marks : marks l = List.replicate n .received
  /-- The text of the messages. -/
  text : streamed l = text

/-- What the first loop of `handleForwardRunnerEvent` performs. -/
inductive Sending (flow : Flow) : List (Entry x) → Flow → Bool → Prop
  /-- All events are sent. -/
  | all (k : List (Entry x)) (hk : ∀ entry ∈ k, Sends entry) :
      Sending flow k { flow with reply := flow.reply ++ streamed k } false
  /-- The context cuts off an event that is not the final one. -/
  | cut (k : List (Entry x)) (hk : ∀ entry ∈ k, Sends entry) (item : DispatchEvent)
      (hitem : item.type ≠ .done) (cause : CtxErr) (pre post : State) (reply : String) :
      Sending flow (k ++ [cutEntry item cause pre post])
        { flow with reply := reply, terminalErr := some (.ctx cause) } true

/-- The error of an answer. -/
def failure {ε α : Type} : Except ε α → Option ε
  | .error err => some err
  | .ok _ => none

/-- The steps of one write of `finalizeAudit`. -/
inductive Audits (d : Dispatcher) (e : Execution) (eventType : Audit.EventType)
    (errorType : String) : List (Entry x) → Option Audit.Err → Prop
  /-- There is no audit writer. -/
  | off (h : d.auditWriter = none) : Audits d e eventType errorType [] none
  /-- The event is appended. -/
  | on (writer : String) (h : d.auditWriter = some writer) (now : ℤ)
      (r : Except Audit.Err Audit.AppendResult) (pre post pre' post' : State) :
      Audits d e eventType errorType
        [⟨.now, now, pre, post⟩, ⟨.append .background writer
          (executionEvent x.hashing e eventType errorType none now), r, pre', post'⟩] (failure r)

/-- The steps of `finalizeHandoff`. -/
inductive HandsOff (d : Dispatcher) (e : Execution) (result : Audit.ExecutionResult)
    (errorType : String) : List (Entry x) → Option Audit.Err → Prop
  /-- There is no handoff store. -/
  | off (h : d.handoffStore = false) : HandsOff d e result errorType [] none
  /-- The handoff is finalized. -/
  | on (h : d.handoffStore = true) (r : Except Audit.Err Audit.ExecutionHandoff)
      (pre post : State) :
      HandsOff d e result errorType
        [⟨.finalize .background (finalHandoff x.hashing e result errorType), r, pre, post⟩]
        (failure r)

/-- The steps that tell the consumer about the end; nothing depends on their answers. -/
inductive Notice : Entry x → Prop
  /-- A notice that is dropped when nobody waits for it. -/
  | tried (item : DispatchEvent) (h : item.type ≠ .message) (r : Bool) (pre post : State) :
      Notice ⟨.env (.trySend item), r, pre, post⟩
  /-- The final event. -/
  | final (item : DispatchEvent) (h : item.type = .done) (r : Option CtxErr) (pre post : State) :
      Notice ⟨.env (.send item), r, pre, post⟩

/-! ## The parts of `forward` -/

/-- What `sendItems` performs on events whose errors are in the flow already. -/
theorem sendItems_obeys (done : Bool) (items : List DispatchEvent) (flow : Flow)
    (log : List (Entry x)) (hdone : ∀ item ∈ items, item.type = .done → done = true)
    (herror : ∀ item ∈ items, item.type = .error → flow.terminalErr = some .execution) :
    (sendItems (x := x) done items flow).Obeys Free
      (fun l r => ∃ k, l = log ++ k ∧ Sending flow k r.1 r.2) log := by
  induction items generalizing flow log with
  | nil =>
    refine ⟨[], by simp, ?_⟩
    have h : Sending flow ([] : List (Entry x)) _ _ := .all [] (by simp)
    rw [streamed_nil, String.append_empty] at h
    exact h
  | cons item _ ih =>
    have hdone' := fun i hi => hdone i (mem_cons_of_mem _ hi)
    have herror' := fun i hi => herror i (mem_cons_of_mem _ hi)
    unfold sendItems
    split
    · exact ih flow log hdone' herror'
    · next hskip =>
      have hitem : item.type ≠ .done := fun h => hskip ⟨hdone item (mem_cons_self ..) h, h⟩
      -- The event adds its text to the reply and changes nothing else.
      obtain ⟨text, htext, hflow⟩ : ∃ text, (text = if item.type = .message then item.text else "")
          ∧ (if item.type = .error then
              { (if item.type = .message then { flow with reply := flow.reply ++ item.text }
                else flow) with terminalErr := some .execution }
            else if item.type = .message then { flow with reply := flow.reply ++ item.text }
              else flow) = { flow with reply := flow.reply ++ text } := by
        refine ⟨_, rfl, ?_⟩
        have herr := herror item (mem_cons_self ..)
        cases htype : item.type <;> simp_all
      simp only [obeys_bind, obeys_envOp, hflow]
      refine ⟨trivial, fun pre r post _ => ?_⟩
      cases r with
      | some cause => exact ⟨_, rfl, .cut [] (by simp) item hitem cause pre post _⟩
      | none =>
        refine (ih { flow with reply := flow.reply ++ text } _ hdone' herror').mono
          (fun _ _ => id) ?_
        rintro l ⟨_, cut⟩ ⟨k, rfl, hk⟩
        refine ⟨sentEntry item pre post :: k, by simp [sentEntry], ?_⟩
        have hsends : ∀ k : List (Entry x), (∀ entry ∈ k, Sends entry) →
            ∀ entry ∈ sentEntry item pre post :: k, Sends entry := fun k hk entry h => by
          rcases mem_cons.1 h with rfl | h
          · exact ⟨item, pre, post, rfl⟩
          · exact hk entry h
        have hsent : sentText (sentEntry item pre post : Entry x) = text := htext.symm
        cases hk with
        | all k hk =>
          have h : Sending flow _ _ _ := .all _ (hsends k hk)
          rw [streamed_cons, hsent, ← String.append_assoc] at h
          exact h
        | cut k hk item' hitem' cause pre' post' reply =>
          exact .cut _ (hsends k hk) item' hitem' cause pre' post' reply

section Parts

variable (d : Dispatcher) (e : Execution) (log : List (Entry x))

/-- What `finalizeAudit` performs as long as nothing is written. -/
theorem finalizeAudit_obeys (eventType : Audit.EventType) (errorType : String) :
    (d.finalizeAudit (x := x) e false eventType errorType).Obeys Free
      (fun l r => ∃ k, l = log ++ k ∧ Audits d e eventType errorType k r.1 ∧ r.2 = r.1.isNone)
      log := by
  unfold finalizeAudit writeExecutionAudit
    writeExecutionAuditRevision
  rw [if_neg Bool.false_ne_true, obeys_bind]
  split
  · next h => exact ⟨[], by simp, .off h, rfl⟩
  · next writer h =>
    simp only [obeys_bind, obeys_timeNow, obeys_appendAudit]
    refine ⟨trivial, fun pre now post _ => ⟨trivial, fun pre' r post' _ => ?_⟩⟩
    have haudits : Audits (x := x) d e eventType errorType _ _ :=
      .on writer h now r pre post pre' post'
    cases r with
    | error => exact ⟨_, by simp, haudits, rfl⟩
    | ok => exact ⟨_, by simp, haudits, rfl⟩

/-- What `finalizeHandoff` performs. -/
theorem finalizeHandoff_obeys (result : Audit.ExecutionResult) (errorType : String) :
    (d.finalizeHandoff (x := x) e result errorType).Obeys Free
      (fun l r => ∃ k, l = log ++ k ∧ HandsOff d e result errorType k r) log := by
  unfold finalizeHandoff
  split
  · next h => exact ⟨[], by simp, .off (by simpa using h)⟩
  · next h =>
    simp only [obeys_bind, obeys_finalizeOp]
    refine ⟨trivial, fun pre r post _ => ?_⟩
    have hhandoff : HandsOff (x := x) d e result errorType _ _ := .on (by simpa using h) r pre post
    cases r with
    | error => exact ⟨_, rfl, hhandoff⟩
    | ok => exact ⟨_, rfl, hhandoff⟩

/-- What two notices in a row perform. -/
theorem notices_obeys {item item' : DispatchEvent} (h : item.type ≠ .message)
    (h' : item'.type ≠ .message) :
    (do
      let _ ← envOp (x := x) (.trySend item)
      let _ ← envOp (.trySend item')
      return ()).Obeys Free
      (fun l _ => ∃ k, l = log ++ k ∧ ∀ entry ∈ k, Notice entry) log := by
  simp only [obeys_bind, obeys_envOp]
  refine ⟨trivial, fun pre r post _ => ⟨trivial, fun pre' r' post' _ => ?_⟩⟩
  refine ⟨[⟨.env (.trySend item), r, pre, post⟩, ⟨.env (.trySend item'), r', pre', post'⟩],
    by simp, ?_⟩
  intro entry hentry
  simp only [mem_cons, not_mem_nil, or_false] at hentry
  rcases hentry with rfl | rfl
  · exact .tried item h r pre post
  · exact .tried item' h' r' pre' post'

/-- What `finishAuditFailure` performs. -/
theorem finishAuditFailure_obeys : (finishAuditFailure (x := x) e).Obeys Free
    (fun l _ => ∃ k, l = log ++ k ∧ ∀ entry ∈ k, Notice entry) log :=
  notices_obeys log (by simp [errorEvent]) (by simp [doneEvent])

/-- What `finishCanceled` performs. -/
theorem finishCanceled_obeys (cause : CtxErr) : (finishCanceled (x := x) e cause).Obeys Free
    (fun l _ => ∃ k, l = log ++ k ∧ ∀ entry ∈ k, Notice entry) log :=
  notices_obeys log (by simp [errorEvent]) (by simp [doneEvent])

/-- What `sendDone` performs. -/
theorem sendDone_obeys (items : List DispatchEvent) : (sendDone (x := x) items).Obeys Free
    (fun l _ => ∃ k, l = log ++ k ∧ ∀ entry ∈ k, Notice entry) log := by
  induction items generalizing log with
  | nil => exact ⟨[], by simp, by simp⟩
  | cons item _ ih =>
    unfold sendDone
    split
    · next h =>
      simp only [obeys_bind, obeys_envOp]
      refine ⟨trivial, fun pre r post _ => (ih _).mono (fun _ _ => id) ?_⟩
      rintro l - ⟨k, rfl, hk⟩
      refine ⟨⟨.env (.send item), r, pre, post⟩ :: k, by simp, fun entry hentry => ?_⟩
      rcases mem_cons.1 hentry with rfl | hentry
      · exact .final item h r pre post
      · exact hk entry hentry
    · exact ih log

end Parts

/-! ## The end of a stream -/

/-- What the end of a stream asks for: the audit event, the result of the handoff, and the terminal
error, which is `refusal` when the audit cannot be written. -/
structure Verdict where
  eventType : Audit.EventType
  errorType : String
  result : Audit.ExecutionResult
  refusal : Gateway.Err
  terminalErr : Option Gateway.Err

/-- The verdict on a stream that is closed. -/
def Verdict.closed : Verdict := ⟨.executionCompleted, "", .success, .auditWriteFailed, none⟩

/-- The verdict on a stream whose context is done. -/
def Verdict.canceled (cause : CtxErr) : Verdict :=
  ⟨.executionCanceled, "canceled", .canceled, .auditWriteFailed, some (.ctx cause)⟩

/-- The verdict of the last event of a stream. -/
def Verdict.last : Bool → Verdict
  | true => ⟨.executionFailed, "unavailable", .failure, .execution, some .execution⟩
  | false => ⟨.executionCompleted, "", .success, .execution, none⟩

/-- The variables of `forward` after a verdict. -/
def Verdict.flow (v : Verdict) (reply : String) (terminalErr : Option Gateway.Err)
    (auditFinalized : Bool) : Flow :=
  { terminalErr := terminalErr, reply := reply, terminalEventType := some v.eventType,
    terminalErrorType := v.errorType, auditFinalized := auditFinalized }

/-- The steps by which a verdict is written, and the variables after them. Only the last event of a
stream has something to send (`last`). -/
inductive Closing (d : Dispatcher) (e : Execution) (v : Verdict) (last : Bool) (text : String) :
    List (Entry x) → Flow → Prop
  /-- The audit is not written. -/
  | unaudited (k₁ k₂ : List (Entry x)) (err : Audit.Err)
      (haudit : Audits d e v.eventType v.errorType k₁ (some err))
      (hnotices : ∀ entry ∈ k₂, Notice entry) :
      Closing d e v last text (k₁ ++ k₂) (v.flow text (some v.refusal) false)
  /-- The context cuts off an event. -/
  | cut (k₁ k₂ : List (Entry x)) (haudit : Audits d e v.eventType v.errorType k₁ none)
      (hsends : ∀ entry ∈ k₂, Sends entry) (hlast : last = true) (item : DispatchEvent)
      (hitem : item.type ≠ .done) (cause : CtxErr) (pre post : State) (reply : String) :
      Closing d e v last text (k₁ ++ (k₂ ++ [cutEntry item cause pre post]))
        (v.flow reply (some (.ctx cause)) true)
  /-- The handoff is not finalized. -/
  | unhanded (k₁ k₂ k₃ k₄ : List (Entry x)) (err : Audit.Err)
      (haudit : Audits d e v.eventType v.errorType k₁ none) (hsends : ∀ entry ∈ k₂, Sends entry)
      (hhandoff : HandsOff d e v.result v.errorType k₃ (some err))
      (hnotices : ∀ entry ∈ k₄, Notice entry) :
      Closing d e v last text (k₁ ++ (k₂ ++ (k₃ ++ k₄)))
        (v.flow (text ++ streamed k₂) (some .auditWriteFailed) true)
  /-- Everything is written. -/
  | written (k₁ k₂ k₃ k₄ : List (Entry x)) (haudit : Audits d e v.eventType v.errorType k₁ none)
      (hsends : ∀ entry ∈ k₂, Sends entry)
      (hhandoff : HandsOff d e v.result v.errorType k₃ none)
      (hnotices : ∀ entry ∈ k₄, Notice entry) :
      Closing d e v last text (k₁ ++ (k₂ ++ (k₃ ++ k₄)))
        (v.flow (text ++ streamed k₂) v.terminalErr true)

section Closing

variable {d : Dispatcher} {e : Execution} {v : Verdict} {last : Bool} {text : String}
  {k₁ k₃ k₄ : List (Entry x)}

/-- A handoff that is not finalized after nothing was sent. -/
theorem Closing.unhanded_unsent {err : Audit.Err}
    (haudit : Audits d e v.eventType v.errorType k₁ none)
    (hhandoff : HandsOff d e v.result v.errorType k₃ (some err))
    (hnotices : ∀ entry ∈ k₄, Notice entry) :
    Closing d e v last text (k₁ ++ (k₃ ++ k₄)) (v.flow text (some .auditWriteFailed) true) := by
  have h : Closing d e v last text _ _ :=
    .unhanded k₁ [] k₃ k₄ err haudit (by simp) hhandoff hnotices
  rwa [streamed_nil, String.append_empty, nil_append] at h

/-- A verdict that is written after nothing was sent. -/
theorem Closing.written_unsent (haudit : Audits d e v.eventType v.errorType k₁ none)
    (hhandoff : HandsOff d e v.result v.errorType k₃ none) (hnotices : ∀ entry ∈ k₄, Notice entry) :
    Closing d e v last text (k₁ ++ (k₃ ++ k₄)) (v.flow text v.terminalErr true) := by
  have h : Closing d e v last text _ _ := .written k₁ [] k₃ k₄ haudit (by simp) hhandoff hnotices
  rwa [streamed_nil, String.append_empty, nil_append] at h

end Closing

section Endings

variable (d : Dispatcher) (e : Execution) (text : String) (log : List (Entry x))

/-- What `handleForwardStreamClosed` performs. -/
theorem handleForwardStreamClosed_obeys :
    (d.handleForwardStreamClosed (x := x) e { reply := text }).Obeys Free
      (fun l flow => ∃ k, l = log ++ k ∧ Closing d e .closed false text k flow) log := by
  unfold handleForwardStreamClosed
  refine (finalizeAudit_obeys d e log .executionCompleted "").bind ?_
  rintro l ⟨auditErr, finalized⟩ ⟨k₁, rfl, haudit, hfinalized⟩
  obtain rfl : finalized = auditErr.isNone := hfinalized
  cases auditErr with
  | some err =>
    refine (finishAuditFailure_obeys e _).bind ?_
    rintro l - ⟨k2, rfl, hnotices⟩
    exact ⟨_, append_assoc .., .unaudited k₁ k2 err haudit hnotices⟩
  | none =>
    refine (finalizeHandoff_obeys d e _ .success "").bind ?_
    rintro l r ⟨_, rfl, hhandoff⟩
    cases r with
    | some =>
      refine (finishAuditFailure_obeys e _).bind ?_
      rintro l - ⟨_, rfl, hnotices⟩
      exact ⟨_, by rw [append_assoc, append_assoc], .unhanded_unsent haudit hhandoff hnotices⟩
    | none =>
      simp only [obeys_bind, obeys_envOp]
      refine ⟨trivial, fun pre r post _ => ⟨_, by rw [append_assoc, append_assoc],
        .written_unsent haudit hhandoff ?_⟩⟩
      simpa using .tried (doneEvent e "complete") (by simp [doneEvent]) r pre post

/-- What `handleForwardCancellation` performs. -/
theorem handleForwardCancellation_obeys (cause : CtxErr) :
    (d.handleForwardCancellation (x := x) e cause { reply := text }).Obeys Free
      (fun l flow => ∃ k, l = log ++ k ∧ Closing d e (.canceled cause) false text k flow)
      log := by
  unfold handleForwardCancellation
  refine (finalizeAudit_obeys d e log .executionCanceled "canceled").bind ?_
  rintro l ⟨auditErr, finalized⟩ ⟨k₁, rfl, haudit, hfinalized⟩
  obtain rfl : finalized = auditErr.isNone := hfinalized
  cases auditErr with
  | some err =>
    refine (finishAuditFailure_obeys e _).bind ?_
    rintro l - ⟨k2, rfl, hnotices⟩
    exact ⟨_, append_assoc .., .unaudited k₁ k2 err haudit hnotices⟩
  | none =>
    refine (finalizeHandoff_obeys d e _ .canceled "canceled").bind ?_
    rintro l r ⟨_, rfl, hhandoff⟩
    cases r with
    | some =>
      refine (finishAuditFailure_obeys e _).bind ?_
      rintro l - ⟨k₄, rfl, hnotices⟩
      exact ⟨_, by rw [append_assoc, append_assoc], .unhanded_unsent haudit hhandoff hnotices⟩
    | none =>
      refine (finishCanceled_obeys e _ cause).bind ?_
      rintro l - ⟨k₄, rfl, hnotices⟩
      exact ⟨_, by rw [append_assoc, append_assoc], .written_unsent haudit hhandoff hnotices⟩

/-- What `forwardItems` performs on the last event of a stream, once the audit is written. -/
theorem forwardItems_obeys_last {v : Verdict} {mapped : List DispatchEvent} {k₁ : List (Entry x)}
    (haudit : Audits d e v.eventType v.errorType k₁ none)
    (hresult : (if v.terminalErr ≠ none then .failure else .success) = v.result)
    (herror : ∀ item ∈ mapped, item.type = .error → v.terminalErr = some .execution) :
    (d.forwardItems (x := x) e mapped true (v.flow text v.terminalErr true)).Obeys Free
      (fun l r => r.2 = true ∧ ∃ k, l = log ++ k ∧ Closing d e v true text k r.1)
      (log ++ k₁) := by
  unfold forwardItems
  refine (sendItems_obeys true mapped (v.flow text v.terminalErr true) _ (fun _ _ _ => rfl)
    herror).bind ?_
  rintro l ⟨flow, cut⟩ ⟨k2, rfl, hk2⟩
  cases hk2 with
  | cut k2 hsends item hitem cause pre post reply =>
    exact ⟨rfl, _, append_assoc .., .cut k₁ k2 haudit hsends rfl item hitem cause pre post reply⟩
  | all k2 hsends =>
    refine obeys_bind.2 ?_
    rw [show (if (Verdict.flow v text v.terminalErr true).terminalErr ≠ none then
      Audit.ExecutionResult.failure else .success) = v.result from hresult]
    refine (finalizeHandoff_obeys d e _ v.result v.errorType).mono (fun _ _ => id) ?_
    rintro l r ⟨k₃, rfl, hhandoff⟩
    cases r with
    | some err =>
      refine (finishAuditFailure_obeys e _).bind ?_
      rintro l - ⟨k₄, rfl, hnotices⟩
      exact ⟨rfl, _, by simp only [append_assoc],
        .unhanded k₁ k2 k₃ k₄ err haudit hsends hhandoff hnotices⟩
    | none =>
      refine (sendDone_obeys _ mapped).bind ?_
      rintro l - ⟨k₄, rfl, hnotices⟩
      exact ⟨rfl, _, by simp only [append_assoc],
        .written k₁ k2 k₃ k₄ haudit hsends hhandoff hnotices⟩

variable {event : Option RunnerEvent}

/-- What `handleForwardRunnerEvent` performs on the last event of a stream. -/
theorem handleForwardRunnerEvent_obeys_last (hfinal : finalEvent event = true) :
    (d.handleForwardRunnerEvent (x := x) e event { reply := text }).Obeys Free
      (fun l r => r.2 = true ∧ ∃ k, l = log ++ k ∧
        Closing d e (.last (failedEvent event)) true text k r.1) log := by
  have hdone := mapRunnerEvent_snd event e.requestID e.traceID
  have herror := mapRunnerEvent_error event e.requestID e.traceID
  unfold handleForwardRunnerEvent
  generalize mapRunnerEvent event e.requestID e.traceID = m at hdone herror ⊢
  generalize failedEvent event = failed at herror ⊢
  obtain ⟨_, done⟩ := m
  obtain rfl : done = true := hdone.trans hfinal
  dsimp only at herror ⊢
  -- The assignments before the audit are those of the verdict.
  have htype : (if failed = true then Audit.EventType.executionFailed else .executionCompleted) =
      (Verdict.last failed).eventType := by cases failed <;> rfl
  have herrorType : (if failed = true then "unavailable" else "") =
      (Verdict.last failed).errorType := by cases failed <;> rfl
  have hterminal : (if failed = true then some Gateway.Err.execution else none) =
      (Verdict.last failed).terminalErr := by cases failed <;> rfl
  rw [if_pos rfl, herror, htype, herrorType, hterminal, obeys_bind]
  refine (finalizeAudit_obeys d e log _ _).mono (fun _ _ => id) ?_
  rintro l ⟨auditErr, finalized⟩ ⟨k₁, rfl, haudit, hfinalized⟩
  obtain rfl : finalized = auditErr.isNone := hfinalized
  cases auditErr with
  | some err =>
    refine (finishAuditFailure_obeys e _).bind ?_
    rintro l - ⟨k2, rfl, hnotices⟩
    have h : Closing d e (.last failed) true text _ _ := .unaudited k₁ k2 err haudit hnotices
    refine ⟨rfl, _, append_assoc .., ?_⟩
    cases failed <;> exact h
  | none =>
    refine forwardItems_obeys_last d e text log haudit (by cases failed <;> rfl) ?_
    intro item hitem htype
    have : failed = true := by
      rw [← herror, any_eq_true]
      exact ⟨item, hitem, by simpa using htype⟩
    rw [this]
    rfl

/-- What `handleForwardRunnerEvent` performs on an event before the last one. -/
theorem handleForwardRunnerEvent_obeys (hfinal : finalEvent event = false) :
    (d.handleForwardRunnerEvent (x := x) e event { reply := text }).Obeys Free
      (fun l r => ∃ k, l = log ++ k ∧ Sending { reply := text } k r.1 r.2) log := by
  have hdone := mapRunnerEvent_snd event e.requestID e.traceID
  have herror := mapRunnerEvent_error event e.requestID e.traceID
  have hitems : ∀ item ∈ (mapRunnerEvent event e.requestID e.traceID).1, item.type = .done →
      (mapRunnerEvent event e.requestID e.traceID).2 = true := fun _ => mapRunnerEvent_done
  unfold handleForwardRunnerEvent
  generalize mapRunnerEvent event e.requestID e.traceID = m at hdone herror hitems ⊢
  obtain ⟨mapped, done⟩ := m
  obtain rfl : done = false := hdone.trans hfinal
  have hfailed : failedEvent event = false := by
    unfold finalEvent at hfinal
    unfold failedEvent
    split at hfinal <;> simp_all
  dsimp only at herror hitems ⊢
  rw [if_neg Bool.false_ne_true]
  unfold forwardItems
  refine (sendItems_obeys false mapped { reply := text } log hitems fun item hitem htype => ?_).bind ?_
  · have hany : mapped.any (fun item => item.type = .error) = true := by
      rw [any_eq_true]
      exact ⟨item, hitem, by simpa using htype⟩
    rw [herror, hfailed] at hany
    cases hany
  · rintro l ⟨_, cut⟩ ⟨k, rfl, hk⟩
    cases cut <;> exact ⟨k, rfl, hk⟩

end Endings

/-! ## The loop and the whole call -/

/-- The steps by which the context ends the wait for the runner. -/
inductive Stops (cause : CtxErr) : List (Entry x) → Prop
  /-- The context is done before the select. -/
  | done (pre post : State) : Stops cause [⟨.env .ctxErr, some cause, pre, post⟩]
  /-- The select chooses the context. -/
  | selected (pre post pre' post' : State) :
      Stops cause [⟨.env .ctxErr, (none : Option CtxErr), pre, post⟩,
        ⟨.env .select, some cause, pre', post'⟩]

/-- The steps of the loop of `forward` over the events of a runner, and the variables after it. -/
inductive Looped (d : Dispatcher) (e : Execution) (events : List (Option RunnerEvent)) :
    List (Entry x) → Flow → Prop
  /-- The context ends the wait for the runner. -/
  | canceled (start wait k : List (Entry x)) (text : String) (n : ℕ)
      (hstart : Streamed n text start) (cause : CtxErr) (hwait : Stops cause wait) (flow : Flow)
      (hk : Closing d e (.canceled cause) false text k flow) :
      Looped d e events (start ++ (wait ++ k)) flow
  /-- The stream is closed. -/
  | closed (start k : List (Entry x)) (text : String)
      (hstart : Streamed (events.length + 1) text start) (flow : Flow)
      (hk : Closing d e .closed false text k flow) : Looped d e events (start ++ k) flow
  /-- The last event of the stream arrives. -/
  | last (start k : List (Entry x)) (text : String) (i : ℕ) (event : Option RunnerEvent)
      (hevent : events[i]? = some event) (hfinal : finalEvent event = true)
      (hstart : Streamed (i + 1) text start) (flow : Flow)
      (hk : Closing d e (.last (failedEvent event)) true text k flow) :
      Looped d e events (start ++ k) flow
  /-- The context cuts off an event before the last one. -/
  | cut (start : List (Entry x)) (text : String) (i : ℕ) (event : Option RunnerEvent)
      (hevent : events[i]? = some event) (hfinal : finalEvent event = false)
      (hstart : Streamed (i + 1) text start) (item : DispatchEvent) (hitem : item.type ≠ .done)
      (cause : CtxErr) (pre post : State) (reply : String) :
      Looped d e events (start ++ [cutEntry item cause pre post])
        { reply := reply, terminalErr := some (.ctx cause) }

/-- What `awaitRunner` performs after a stream that lasts. -/
theorem awaitRunner_obeys {n : ℕ} {text : String} {log : List (Entry x)}
    (hlog : Streamed n text log) : (awaitRunner (x := x)).Obeys Free (fun l r => match r with
      | some cause => ∃ wait, l = log ++ wait ∧ Stops cause wait
      | none => Streamed (n + 1) text l) log := by
  unfold awaitRunner
  rw [obeys_bind]
  refine obeys_envOp.2 ⟨trivial, fun pre r post _ => ?_⟩
  cases r with
  | some => exact ⟨_, rfl, .done pre post⟩
  | none =>
    refine obeys_selectRunner.2 ⟨trivial, fun pre' r' post' _ => ?_⟩
    cases r' with
    | some => exact ⟨_, append_assoc .., .selected pre post pre' post'⟩
    | none =>
      refine ⟨fun entry hentry => ?_, ?_, ?_⟩
      · simp only [mem_append, mem_singleton] at hentry
        rcases hentry with (h | rfl) | rfl
        · exact hlog.streams entry h
        · exact .live pre post
        · exact .chosen pre' post'
      · rw [marks_append, marks_append, hlog.marks, append_assoc, replicate_succ']
        rfl
      · simp [hlog.text, sentText]

/-- Sending events prolongs a stream. -/
theorem Streamed.append {n : ℕ} {text : String} {l k : List (Entry x)} (h : Streamed n text l)
    (hk : ∀ entry ∈ k, Sends entry) : Streamed n (text ++ streamed k) (l ++ k) := by
  have hmarks : Gateway.marks k = [] := marks_of_sends hk
  refine ⟨fun entry hentry => ?_, ?_, ?_⟩
  · rcases mem_append.1 hentry with hentry | hentry
    · exact h.streams entry hentry
    · obtain ⟨item, pre, post, rfl⟩ := hk entry hentry
      exact .sent item pre post
  · rw [marks_append, h.marks, hmarks, append_nil]
  · rw [streamed_append, h.text]

variable (d : Dispatcher) (e : Execution)

/-- What the loop of `forward` performs from an event on. -/
theorem forwardLoop_obeys (read rest : List (Option RunnerEvent)) (text : String)
    (log : List (Entry x)) (hlog : Streamed read.length text log) :
    (d.forwardLoop (x := x) e rest { reply := text }).Obeys Free
      (fun l flow => Looped d e (read ++ rest) l flow) log := by
  induction rest generalizing read text log with
  | nil =>
    unfold forwardLoop
    refine (awaitRunner_obeys hlog).bind ?_
    rintro l (- | cause) h
    · refine (handleForwardStreamClosed_obeys d e text l).mono (fun _ _ => id) ?_
      rintro l' flow ⟨k, rfl, hk⟩
      exact .closed l k text (by rw [append_nil]; exact h) flow hk
    · obtain ⟨wait, rfl, hwait⟩ := h
      refine (handleForwardCancellation_obeys d e text _ cause).mono (fun _ _ => id) ?_
      rintro l' flow ⟨k, rfl, hk⟩
      rw [append_assoc]
      exact .canceled log wait k text _ hlog cause hwait flow hk
  | cons event rest ih =>
    unfold forwardLoop
    refine (awaitRunner_obeys hlog).bind ?_
    have hevent : (read ++ event :: rest)[read.length]? = some event := by simp
    rintro l (- | cause) h
    · refine obeys_bind.2 ?_
      cases hfinal : finalEvent event with
      | true =>
        refine (handleForwardRunnerEvent_obeys_last d e text l hfinal).mono (fun _ _ => id) ?_
        rintro l' ⟨flow, finished⟩ ⟨rfl, k, rfl, hk⟩
        exact .last l k text _ event hevent hfinal h flow hk
      | false =>
        refine (handleForwardRunnerEvent_obeys d e text l hfinal).mono (fun _ _ => id) ?_
        rintro l' ⟨flow, finished⟩ ⟨k, rfl, hk⟩
        cases hk with
        | cut k hsends item hitem cause pre post reply =>
          have hlooped : Looped d e (read ++ event :: rest) _ _ :=
            .cut (l ++ k) _ _ event hevent hfinal (h.append hsends) item hitem cause pre post reply
          rw [append_assoc] at hlooped
          exact hlooped
        | all k hsends =>
          have hstream : Streamed (read ++ [event]).length (text ++ streamed k) (l ++ k) := by
            rw [length_append]
            exact h.append hsends
          have hrest := ih (read ++ [event]) _ _ hstream
          rw [append_assoc] at hrest
          exact hrest
    · obtain ⟨wait, rfl, hwait⟩ := h
      refine (handleForwardCancellation_obeys d e text _ cause).mono (fun _ _ => id) ?_
      rintro l' flow ⟨k, rfl, hk⟩
      rw [append_assoc]
      exact .canceled log wait k text _ hlog cause hwait flow hk

/-- The error type that `finalizeForward` writes. -/
def finalErrorType (flow : Flow) : String :=
  if flow.terminalErrorType = "" then terminalAuditError flow.terminalErr
  else flow.terminalErrorType

/-- The terminal error after the second handoff. -/
def errAfterHandoff (terminalErr : Option Gateway.Err) (handoffErr : Option Audit.Err) :
    Option Gateway.Err :=
  if handoffErr ≠ none ∧ terminalErr = none then some .auditWriteFailed else terminalErr

/-- The terminal error after the audit of `finalizeForward`. -/
def errAfterAudit (terminalErr : Option Gateway.Err) (auditErr : Option Audit.Err) :
    Option Gateway.Err :=
  if auditErr ≠ none ∧ terminalErr = none then some .execution else terminalErr

/-- The steps of the audit of `finalizeForward`: it is written if it is missing. -/
def AuditsOnce (d : Dispatcher) (e : Execution) (flow : Flow) (k : List (Entry x))
    (auditErr : Option Audit.Err) : Prop :=
  if flow.auditFinalized then k = [] ∧ auditErr = none
  else Audits d e (Dispatcher.finalEventType flow) (finalErrorType flow) k auditErr

/-- The steps of `forward` for an execution with a durable event, and what it returns. -/
inductive Forwarded (d : Dispatcher) (e : Execution) (durable : DurableExecution)
    (events : List (Option RunnerEvent)) : List (Entry x) → Option Gateway.Err → Prop
  /-- The loop, the second handoff, the audit if it is missing, and the end of the event. -/
  | mk (l k₁ k₂ k₃ : List (Entry x)) (flow : Flow) (hloop : Looped d e events l flow)
      (handoffErr : Option Audit.Err)
      (hhandoff : HandsOff d e (Dispatcher.finalResult flow.terminalErr) (finalErrorType flow) k₁
        handoffErr)
      (auditErr : Option Audit.Err) (haudit : AuditsOnce d e flow k₂ auditErr)
      (hfinished : Finished d e.requestID e.traceID durable flow.reply
        (errAfterAudit (errAfterHandoff flow.terminalErr handoffErr) auditErr) k₃) :
      Forwarded d e durable events (l ++ (k₁ ++ (k₂ ++ k₃)))
        (errAfterAudit (errAfterHandoff flow.terminalErr handoffErr) auditErr)

/-- What the audit of `finalizeForward` performs. -/
theorem finalizeAudit_obeys_once (flow : Flow) (log : List (Entry x)) :
    (d.finalizeAudit (x := x) e flow.auditFinalized (Dispatcher.finalEventType flow)
      (finalErrorType flow)).Obeys Free
      (fun l r => ∃ k, l = log ++ k ∧ AuditsOnce d e flow k r.1) log := by
  unfold AuditsOnce
  cases flow.auditFinalized with
  | true => exact ⟨[], by simp, rfl, rfl⟩
  | false =>
    refine (finalizeAudit_obeys d e log _ _).mono (fun _ _ => id) ?_
    rintro l r ⟨k, rfl, hk, -⟩
    exact ⟨k, rfl, hk⟩

/-- What `forward` performs. -/
theorem forward_obeys {durable : DurableExecution} (hdurable : e.durable = some durable)
    (events : List (Option RunnerEvent)) :
    (d.forward (x := x) e events).Obeys Free (fun l err => Forwarded d e durable events l err)
      [] := by
  unfold forward
  refine (forwardLoop_obeys d e [] events "" [] ⟨by simp, rfl, rfl⟩).bind ?_
  intro l flow hloop
  unfold finalizeForward
  refine (finalizeHandoff_obeys d e l _ (finalErrorType flow)).bind ?_
  rintro l' handoffErr ⟨k₁, rfl, hhandoff⟩
  refine (finalizeAudit_obeys_once d e flow _).bind ?_
  rintro l' ⟨auditErr, _⟩ ⟨k2, rfl, haudit⟩
  rw [hdurable]
  refine (finishDurable_obeys d e.requestID e.traceID durable _ flow.reply
    _).bind ?_
  rintro l' - ⟨k₃, rfl, hfinished⟩
  have h : Forwarded d e durable events _ _ :=
    .mk l k₁ k2 k₃ flow hloop handoffErr hhandoff auditErr haudit hfinished
  rw [← append_assoc, ← append_assoc] at h
  exact h

end AgentService.Gateway
