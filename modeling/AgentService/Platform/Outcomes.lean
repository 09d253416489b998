import AgentService.Platform.Streamed

/-!
# The outcomes of an execution

`forward` writes the outcome of an execution to the audit log, to the handoff, and to the durable
event, and the terminal error can still change between these writes. `outcomesAgree_iff` says when
the three describe the same outcome, by the way in which the stream ended: after a success
everything must be accepted, after an error of the runner the error event must not be cut off once
the audit is written, and after a cancellation the first audit and the first handoff must be
accepted. `completedButFailed` is an execution that is audited as completed and canceled otherwise.
-/

namespace AgentService.Platform

open Storage Concurrent Gateway Outbox List Dispatcher
open Audit (ExecutionResult handoffKey EventType)

variable {x : Externals}

/-! ## What is written -/

/-- The result that a step writes to a handoff: it is accepted, and the handoff was there and not
finalized before. -/
def handedOff : Entry x → Option ExecutionResult
  | ⟨.finalize _ value, r, pre, _⟩ =>
    if Except.isOk r ∧
      (pre.handoffs.lookup (handoffKey value.tenantID value.handoffID)).any
        (fun old => old.state ≠ .finalized) then some value.result else none
  | _ => none

/-- The outcomes that an execution has written: an audit fact, the result of its handoff, and the
status of its durable event. -/
structure Outcomes (l : List (Entry x)) (fact : EventType) (result : ExecutionResult)
    (status : EventStatus) : Prop where
  /-- The audit fact is accepted. -/
  audit : .audit fact true ∈ marks l
  /-- The result is written to the handoff. -/
  handoff : ∃ entry ∈ l, handedOff entry = some result
  /-- The status is accepted. -/
  event : .status status true ∈ marks l

/-- The three outcomes describe the same end. -/
def OutcomesAgree (fact : EventType) (result : ExecutionResult)
    (status : EventStatus) : Prop :=
  (fact = .executionCompleted ∧ result = .success ∧ status = .completed) ∨
  (fact = .executionFailed ∧ result = .failure ∧ status = .failed) ∨
  (fact = .executionCanceled ∧ result = .canceled ∧ status = .failed)

instance (fact : EventType) (result : ExecutionResult) (status : EventStatus) :
    Decidable (OutcomesAgree fact result status) := inferInstanceAs (Decidable (_ ∨ _))

/-! ## When the outcomes agree -/

/-- Whether the first audit was accepted. -/
def firstAudit (ms : List Mark) : Option Bool :=
  ms.findSome? fun
    | .audit _ accepted => some accepted
    | _ => none

/-- Whether the first handoff was accepted. -/
def firstHandoff (ms : List Mark) : Option Bool :=
  ms.findSome? fun
    | .handoff _ accepted => some accepted
    | _ => none

/-- A mark of something that went wrong. -/
def Mark.disturbs : Mark → Bool
  | .cut | .audit _ false | .handoff _ false | .batch false => true
  | _ => false

/-- The condition under which the outcomes agree, by the way in which the stream ended. -/
def Undisturbed (events : List (Option RunnerEvent)) (ms : List Mark) : Prop :=
  if .stopped ∈ ms then firstAudit ms = some true ∧ firstHandoff ms = some true
  else
    match lastRead events ms with
    | none => ms.any Mark.disturbs = false
    | some event =>
      if finalEvent event = false then True
      else if failedEvent event then .cut ∉ ms ∨ firstAudit ms = some false
      else ms.any Mark.disturbs = false

/-! ## The written handoff -/

/-- The first result that was accepted for a handoff. -/
def acceptedHandoff (ms : List Mark) : Option ExecutionResult :=
  ms.findSome? fun
    | .handoff result true => some result
    | _ => none

/-- The step behind the mark of an accepted handoff, or of an audit. -/
def MarkOf (entry : Entry x) : Mark → Prop
  | .handoff _ true => ∃ ctx value handoff pre post, entry = ⟨.finalize ctx value,
      (.ok handoff : Except Audit.Err Audit.ExecutionHandoff), pre, post⟩
  | .audit _ _ => ∃ ctx writer event, entry.op = .append ctx writer event
  | _ => True

/-- A handoff is accepted by a finalization, and an audit is an append. -/
theorem of_mark {entry : Entry x} {m : Mark} (h : mark entry = some m) : MarkOf entry m := by
  obtain ⟨op, r, pre, post⟩ := entry
  cases op with
  | finalize ctx value => cases r <;> cases h <;> [trivial; exact ⟨ctx, value, _, pre, post, rfl⟩]
  | append ctx writer event => cases h; exact ⟨ctx, writer, event, rfl⟩
  | store ctx o => cases o <;> cases h <;> trivial
  | env o =>
    cases o with
    | select | ctxErr => cases r <;> cases h <;> trivial
    | send =>
      cases r with
      | none => cases h
      | some =>
        simp only [mark] at h
        split_ifs at h
        cases h
        trivial
    | _ => cases h
  | _ => cases h

/-- A step that writes the result of a handoff finalizes. -/
theorem finalize_of_handedOff {entry : Entry x} {result : ExecutionResult}
    (h : handedOff entry = some result) : ∃ ctx value, entry.op = .finalize ctx value := by
  obtain ⟨op, r, _, _⟩ := entry
  cases op with
  | finalize ctx value => exact ⟨ctx, value, rfl⟩
  | _ => cases h

/-- After a finalization that is accepted the handoff is finalized. -/
theorem finalized_of_performs {ctx : Ctx} {value handoff : Audit.ExecutionHandoff}
    {pre post : State} (hp : (platform x).Performs (.finalize ctx value) pre
      (.ok handoff : Except Audit.Err Audit.ExecutionHandoff) post) :
    ∃ h, post.handoffs.lookup (handoffKey value.tenantID value.handoffID) = some h ∧
      h.state = .finalized := by
  rcases performs_finalize hp with ⟨-, _, herr⟩ | ⟨hr, rfl⟩
  · cases herr
  · have hvalid : ¬ (value.tenantID = "" ∨ value.handoffID = "" ∨ value.state ≠ .finalized) := by
      intro h
      rw [Audit.finalize, if_pos h] at hr
      cases hr
    rw [Audit.finalize, if_neg hvalid] at hr ⊢
    cases hold : pre.handoffs.lookup (handoffKey value.tenantID value.handoffID) with
    | none =>
      rw [hold] at hr
      cases hr
    | some old =>
      dsimp only
      split_ifs with hfinal
      · exact ⟨old, hold, hfinal⟩
      · refine ⟨_, AList.lookup_insert _, ?_⟩
        simp only [not_or, not_not, ne_eq] at hvalid
        exact hvalid.2.2

/-- The result that is written to a handoff is the first one that is accepted. -/
theorem acceptedHandoff_of_handedOff {l : List (Entry x)}
    (hp : ∀ entry ∈ l, (platform x).Performs entry.op entry.pre entry.res entry.post)
    (hpair : l.Pairwise fun a b => a.post.Evolves b.pre) {k : String}
    (hkey : ∀ entry ∈ l, ∀ ctx value, entry.op = .finalize ctx value →
      handoffKey value.tenantID value.handoffID = k) {entry : Entry x} (hentry : entry ∈ l)
    {result : ExecutionResult} (h : handedOff entry = some result) :
    acceptedHandoff (marks l) = some result := by
  obtain ⟨l1, _, rfl⟩ := append_of_mem hentry
  obtain ⟨op, r, pre, post⟩ := entry
  cases op with
  | finalize ctx value =>
    simp only [handedOff] at h
    split_ifs at h with hwritten
    obtain ⟨hok, hopen⟩ := hwritten
    -- No finalization before this one was accepted.
    have hnone : acceptedHandoff (marks l1) = none := by
      rw [acceptedHandoff, findSome?_eq_none_iff]
      intro m hm
      obtain ⟨_, hentry', hmark⟩ := mem_filterMap.1 hm
      match m with
      | .handoff result' true =>
        obtain ⟨ctx', value', handoff, _, _, rfl⟩ := of_mark hmark
        obtain ⟨h1, hlookup, hfinal⟩ := finalized_of_performs (hp _ (mem_append_left _ hentry'))
        rw [pairwise_append] at hpair
        obtain ⟨_, hlater, hsame⟩ := (hpair.2.2 _ hentry' _ mem_cons_self).handoffs _ h1 hlookup
        rw [hkey _ (mem_append_left _ hentry') ctx' value' rfl, hsame hfinal] at hlater
        rw [hkey _ hentry ctx value rfl] at hopen
        rw [show pre.handoffs.lookup k = some h1 from hlater] at hopen
        simp [hfinal] at hopen
      | .handoff result' false | .received | .stopped | .cut | .audit _ _ | .batch _
      | .status _ _ => rfl
    have hmark : mark (⟨.finalize ctx value, r, pre, post⟩ : Entry x) =
        some (.handoff value.result (Except.isOk r)) := rfl
    rw [marks_append, acceptedHandoff, findSome?_append,
      show findSome? _ (marks l1) = none from hnone, Option.none_or, marks,
      filterMap_cons, hmark, hok]
    exact h
  | _ => cases h

/-! ## The marks of an execution with an audit writer and a handoff store -/

/-- The marks of a verdict, with the terminal error and whether the audit is written. -/
inductive ClosingMarks (v : Verdict) (last : Bool) :
    List Mark → Option Gateway.Err → Bool → Prop
  /-- The audit is not written. -/
  | unaudited : ClosingMarks v last [.audit v.eventType false] (some v.refusal) false
  /-- The context cuts off an event. -/
  | cut (cause : CtxErr) (h : last = true) :
      ClosingMarks v last [.audit v.eventType true, .cut] (some (.ctx cause)) true
  /-- The handoff is not finalized. -/
  | unhanded : ClosingMarks v last [.audit v.eventType true, .handoff v.result false]
      (some .auditWriteFailed) true
  /-- Everything is written. -/
  | written : ClosingMarks v last [.audit v.eventType true, .handoff v.result true] v.terminalErr
      true

/-- The marks of the end of an event whose reply is not refused. -/
inductive FinishMarks : Option Gateway.Err → List Mark → Prop
  /-- The event fails with the execution. -/
  | failed (err : Gateway.Err) (ok : Bool) : FinishMarks (some err) [.status .failed ok]
  /-- The event is completed without a reply. -/
  | silent (ok : Bool) : FinishMarks none [.status .completed ok]
  /-- The reply is not stored. -/
  | rejected (ok : Bool) : FinishMarks none [.batch false, .status .failed ok]
  /-- The reply is stored. -/
  | stored (ok : Bool) : FinishMarks none [.batch true, .status .completed ok]

/-- The marks of `finalizeForward`, for a terminal error and an audit that may still be missing. -/
inductive FinalMarks (terminalErr : Option Gateway.Err) (eventType : EventType) :
    Bool → List Mark → Prop
  /-- The audit is there. -/
  | audited (handoffErr : Option Audit.Err) (ms : List Mark)
      (h : FinishMarks (errAfterHandoff terminalErr handoffErr) ms) :
      FinalMarks terminalErr eventType true
        (.handoff (Dispatcher.finalResult terminalErr) handoffErr.isNone :: ms)
  /-- The audit is written now. -/
  | unaudited (handoffErr auditErr : Option Audit.Err) (ms : List Mark)
      (h : FinishMarks (errAfterAudit (errAfterHandoff terminalErr handoffErr) auditErr) ms) :
      FinalMarks terminalErr eventType false
        (.handoff (Dispatcher.finalResult terminalErr) handoffErr.isNone ::
          .audit eventType auditErr.isNone :: ms)

section Marks

variable {d : Dispatcher} {e : Execution} {k : List (Entry x)} {flow : Flow}

/-- The marks of a verdict. -/
theorem closingMarks_of_closing {v : Verdict} {last : Bool} {text : String}
    (h : Closing d e v last text k flow) (hwriter : d.auditWriter.isSome = true)
    (hstore : d.handoffStore = true) :
    ClosingMarks v last (marks k) flow.terminalErr flow.auditFinalized ∧
      Dispatcher.finalEventType flow = v.eventType := by
  cases h with
  | unaudited _ _ _ haudit hnotices =>
    rw [marks_append, haudit.marks, marks_of_notices hnotices, if_pos hwriter]
    exact ⟨.unaudited, rfl⟩
  | cut _ _ haudit hsends hlast _ hitem cause =>
    rw [marks_append, marks_append, haudit.marks, marks_of_sends hsends, marks_cutEntry hitem,
      if_pos hwriter]
    exact ⟨.cut cause hlast, rfl⟩
  | unhanded _ _ _ _ _ haudit hsends hhandoff hnotices =>
    rw [marks_append, marks_append, marks_append, haudit.marks, marks_of_sends hsends,
      hhandoff.marks, marks_of_notices hnotices, if_pos hwriter, if_pos hstore]
    exact ⟨.unhanded, rfl⟩
  | written _ _ _ _ haudit hsends hhandoff hnotices =>
    rw [marks_append, marks_append, marks_append, haudit.marks, marks_of_sends hsends,
      hhandoff.marks, marks_of_notices hnotices, if_pos hwriter, if_pos hstore]
    exact ⟨.written, rfl⟩

/-- The marks of the end of an event whose handle is good. -/
theorem finishMarks_of_finished {requestID traceID reply : String} {durable : DurableExecution}
    {err : Option Gateway.Err} {s : Store} (hheld : Held s durable)
    (h : Finished d requestID traceID durable reply err k) : FinishMarks err (marks k) := by
  obtain ⟨ok, ⟨herr, hk⟩ | ⟨rfl, -, hk⟩ | ⟨-, ⟨m, -, hreply, hrefused⟩, -⟩ | ⟨rfl, hk⟩ |
    ⟨rfl, hk⟩⟩ := h.marks
  · obtain ⟨err, rfl⟩ := Option.ne_none_iff_exists'.1 herr
    exact hk ▸ .failed err ok
  · exact hk ▸ .silent ok
  · rcases hrefused with hbad | hbad | hbad | hbad
    · exact absurd hbad hheld.tenant_ne
    · exact absurd hbad hheld.event_ne
    · exact absurd hheld.target_valid hbad
    · exact absurd hbad (splitRunes_ne_nil hreply)
  · exact hk ▸ .rejected ok
  · exact hk ▸ .stored ok

end Marks

/-! ## Which marks agree -/

/-- The outcomes that marks tell. -/
structure Wrote (ms : List Mark) (fact : EventType) (result : ExecutionResult)
    (status : EventStatus) : Prop where
  /-- The audit fact is accepted. -/
  audit : .audit fact true ∈ ms
  /-- The result is the first one that is accepted. -/
  handoff : some result = acceptedHandoff ms
  /-- The status is accepted. -/
  event : .status status true ∈ ms

section Agree

variable {v : Verdict} {last : Bool} {ms ms' : List Mark} {terminalErr : Option Gateway.Err}
  {audited : Bool} {fact : EventType} {result : ExecutionResult}
  {status : EventStatus}

variable {err : Gateway.Err}

/-- The status of an event that fails with its execution. -/
theorem FinishMarks.eq_of_some (h : FinishMarks (some err) ms) :
    ∃ ok, ms = [.status .failed ok] := by
  cases h with
  | failed _ ok => exact ⟨ok, rfl⟩

/-- After an error the second handoff does not change the terminal error. -/
theorem FinalMarks.eq_of_some (h : FinalMarks (some err) fact audited ms) :
    ∃ handoffOk auditOk ok, ms = .handoff (Dispatcher.finalResult (some err)) handoffOk ::
        (if audited then [.status .failed ok] else [.audit fact auditOk, .status .failed ok]) := by
  cases h with
  | audited handoffErr ms h =>
    have hfinish : FinishMarks (some err) ms := by simpa [errAfterHandoff] using h
    obtain ⟨ok, rfl⟩ := hfinish.eq_of_some
    exact ⟨handoffErr.isNone, true, ok, rfl⟩
  | unaudited handoffErr auditErr ms h =>
    have hfinish : FinishMarks (some err) ms := by
      simpa [errAfterHandoff, errAfterAudit] using h
    obtain ⟨ok, rfl⟩ := hfinish.eq_of_some
    exact ⟨handoffErr.isNone, auditErr.isNone, ok, rfl⟩

/-- After a cancellation the outcomes agree exactly when the first audit and the first handoff are
accepted. -/
theorem agree_iff_of_canceled {cause : CtxErr}
    (hclosing : ClosingMarks (.canceled cause) false ms terminalErr audited)
    (hfinal : FinalMarks terminalErr .executionCanceled audited ms')
    (h : Wrote (ms ++ ms') fact result status) : OutcomesAgree fact result status ↔
      firstAudit (ms ++ ms') = some true ∧ firstHandoff (ms ++ ms') = some true := by
  obtain ⟨_, _, _⟩ := h
  cases hclosing with
  | cut _ h => cases h
  | unaudited | unhanded =>
    obtain ⟨handoffOk, auditOk, ok, rfl⟩ := hfinal.eq_of_some
    cases handoffOk <;> simp_all [acceptedHandoff, firstAudit, firstHandoff, OutcomesAgree,
      Verdict.canceled, finalResult, isContextCancellation]
  | written =>
    obtain ⟨handoffOk, auditOk, ok, rfl⟩ := FinalMarks.eq_of_some hfinal
    simp_all [acceptedHandoff, firstAudit, firstHandoff, OutcomesAgree, Verdict.canceled]

/-- After an error of the runner the outcomes agree exactly when no event is cut off or the first
audit is not accepted. -/
theorem agree_iff_of_failed (hclosing : ClosingMarks (.last true) last ms terminalErr audited)
    (hfinal : FinalMarks terminalErr .executionFailed audited ms')
    (h : Wrote (ms ++ ms') fact result status) :
    OutcomesAgree fact result status ↔ .cut ∉ ms ++ ms' ∨ firstAudit (ms ++ ms') = some false := by
  obtain ⟨_, _, _⟩ := h
  cases hclosing with
  | cut | unaudited | unhanded =>
    obtain ⟨handoffOk, auditOk, ok, rfl⟩ := hfinal.eq_of_some
    cases handoffOk <;> simp_all [acceptedHandoff, firstAudit, OutcomesAgree, Verdict.last,
      finalResult, isContextCancellation]
  | written =>
    obtain ⟨handoffOk, auditOk, ok, rfl⟩ := FinalMarks.eq_of_some hfinal
    simp_all [acceptedHandoff, firstAudit, OutcomesAgree, Verdict.last]

/-- After a success the outcomes agree exactly when nothing goes wrong. -/
theorem agree_iff_of_succeeded (heventType : v.eventType = .executionCompleted)
    (hresult : v.result = .success) (hterminal : v.terminalErr = none)
    (hrefusal : isContextCancellation v.refusal = false)
    (hclosing : ClosingMarks v last ms terminalErr audited)
    (hfinal : FinalMarks terminalErr .executionCompleted audited ms')
    (h : Wrote (ms ++ ms') fact result status) :
    OutcomesAgree fact result status ↔ (ms ++ ms').any Mark.disturbs = false := by
  obtain ⟨_, _, _⟩ := h
  cases hclosing with
  | cut | unaudited | unhanded =>
    obtain ⟨handoffOk, _, ok, rfl⟩ := hfinal.eq_of_some
    cases handoffOk <;> simp_all [acceptedHandoff, Mark.disturbs, OutcomesAgree,
      finalResult, isContextCancellation]
  | written =>
    rw [hterminal] at hfinal
    cases hfinal with
    | audited handoffErr ms h =>
      cases handoffErr with
      | some =>
        obtain ⟨ok, rfl⟩ := FinishMarks.eq_of_some h
        simp_all [acceptedHandoff, Mark.disturbs, OutcomesAgree]
      | none =>
        generalize hnone : errAfterHandoff none none = err at h
        cases h with
        | failed => cases hnone
        | silent | rejected | stored =>
          simp_all [acceptedHandoff, Mark.disturbs, OutcomesAgree]

/-- Where the context cuts off an event before the last one, the outcomes agree. -/
theorem agree_of_cut {cause : CtxErr}
    (hfinal : FinalMarks (some (.ctx cause)) .executionCanceled false ms')
    (h : Wrote (.cut :: ms') fact result status) : OutcomesAgree fact result status := by
  obtain ⟨_, _, _⟩ := h
  obtain ⟨handoffOk, _, _, rfl⟩ := hfinal.eq_of_some
  cases handoffOk <;> simp_all [acceptedHandoff, OutcomesAgree, finalResult, isContextCancellation]

end Agree

/-! ## Executions -/

/-- The appends of a step need an audit writer, and its finalizations a handoff store; these are
finalizations of the handoff of the execution. -/
def Belongs (d : Dispatcher) (e : Execution) (entry : Entry x) : Prop :=
  (∀ ctx writer event, entry.op = .append ctx writer event → d.auditWriter.isSome = true) ∧
  ∀ ctx value, entry.op = .finalize ctx value → d.handoffStore = true ∧
    handoffKey value.tenantID value.handoffID =
      handoffKey e.principal.tenantID (handoffID x.hashing e)

section Belongs

variable {d : Dispatcher} {e : Execution} {k l : List (Entry x)} {entry : Entry x}

/-- A step that neither appends nor finalizes. -/
theorem belongs_of_ne (happend : ∀ ctx writer event, entry.op ≠ .append ctx writer event)
    (hfinalize : ∀ ctx value, entry.op ≠ .finalize ctx value) : Belongs d e entry :=
  ⟨fun ctx writer event h => absurd h (happend ctx writer event),
    fun ctx value h => absurd h (hfinalize ctx value)⟩

/-- An audit belongs to an execution. -/
theorem belongs_of_audits {eventType : EventType} {errorType : String}
    {err : Option Audit.Err} (h : Audits d e eventType errorType k err) :
    ∀ entry ∈ k, Belongs d e entry := by
  cases h with
  | off => simp
  | on _ h => simp [Belongs, h]

/-- A handoff belongs to an execution. -/
theorem belongs_of_handsOff {result : ExecutionResult} {errorType : String}
    {err : Option Audit.Err} (h : HandsOff d e result errorType k err) :
    ∀ entry ∈ k, Belongs d e entry := by
  cases h with
  | off => simp
  | on h => simp [Belongs, h, finalHandoff]

theorem belongs_of_notice (h : Notice entry) : Belongs d e entry := by
  cases h <;> exact belongs_of_ne (by simp) (by simp)

theorem belongs_of_sends (h : Sends entry) : Belongs d e entry := by
  obtain ⟨_, _, _, rfl⟩ := h
  exact belongs_of_ne (by simp [sentEntry]) (by simp [sentEntry])

theorem belongs_cutEntry (item : DispatchEvent) (cause : CtxErr) (pre post : State) :
    Belongs d e (cutEntry item cause pre post : Entry x) :=
  belongs_of_ne (by simp [cutEntry]) (by simp [cutEntry])

/-- The steps of a verdict belong to an execution. -/
theorem belongs_of_closing {v : Verdict} {last : Bool} {text : String} {flow : Flow}
    (h : Closing d e v last text k flow) : ∀ entry ∈ k, Belongs d e entry := by
  cases h with
  | unaudited _ _ _ haudit hnotices =>
    simp only [forall_mem_append]
    exact ⟨belongs_of_audits haudit, fun entry h => belongs_of_notice (hnotices entry h)⟩
  | cut _ _ haudit hsends _ item _ cause pre post =>
    simp only [forall_mem_append, forall_mem_singleton]
    exact ⟨belongs_of_audits haudit, fun entry h => belongs_of_sends (hsends entry h),
      belongs_cutEntry item cause pre post⟩
  | unhanded _ _ _ _ _ haudit hsends hhandoff hnotices =>
    simp only [forall_mem_append]
    exact ⟨belongs_of_audits haudit, fun entry h => belongs_of_sends (hsends entry h),
      belongs_of_handsOff hhandoff, fun entry h => belongs_of_notice (hnotices entry h)⟩
  | written _ _ _ _ haudit hsends hhandoff hnotices =>
    simp only [forall_mem_append]
    exact ⟨belongs_of_audits haudit, fun entry h => belongs_of_sends (hsends entry h),
      belongs_of_handsOff hhandoff, fun entry h => belongs_of_notice (hnotices entry h)⟩

/-- The steps of a stream belong to an execution. -/
theorem belongs_of_streamed {n : ℕ} {text : String} (h : Streamed n text l) :
    ∀ entry ∈ l, Belongs d e entry := by
  intro entry hentry
  cases h.streams entry hentry <;> exact belongs_of_ne (by simp [sentEntry]) (by simp [sentEntry])

/-- The steps of the loop belong to an execution. -/
theorem belongs_of_looped {events : List (Option RunnerEvent)} {flow : Flow}
    (h : Looped d e events l flow) : ∀ entry ∈ l, Belongs d e entry := by
  cases h with
  | canceled _ _ _ _ _ hstart _ hwait _ hk =>
    simp only [forall_mem_append]
    refine ⟨belongs_of_streamed hstart, ?_, belongs_of_closing hk⟩
    cases hwait <;> simp [Belongs]
  | closed _ _ _ hstart _ hk =>
    exact forall_mem_append.2 ⟨belongs_of_streamed hstart, belongs_of_closing hk⟩
  | last _ _ _ _ _ _ _ hstart _ hk =>
    exact forall_mem_append.2 ⟨belongs_of_streamed hstart, belongs_of_closing hk⟩
  | cut _ _ _ _ _ _ hstart item _ cause pre post =>
    refine forall_mem_append.2 ⟨belongs_of_streamed hstart, ?_⟩
    exact forall_mem_singleton.2 (belongs_cutEntry item cause pre post)

/-- The steps of the end of an event belong to an execution. -/
theorem belongs_of_finished {requestID traceID reply : String} {durable : DurableExecution}
    {err : Option Gateway.Err} (h : Finished d requestID traceID durable reply err k) :
    ∀ entry ∈ k, Belongs d e entry := by
  have hrelease : ∀ status replyID segments r pre post, Belongs d e
      (releaseEntry durable status replyID segments r pre post : Entry x) := fun _ _ _ _ _ _ =>
    belongs_of_ne (by simp [releaseEntry]) (by simp [releaseEntry])
  have htraces : ∀ traces : List (Entry x), Traces traces → ∀ entry ∈ traces, Belongs d e entry := by
    intro traces h entry hentry
    obtain ⟨_, pre, post, rfl⟩ := h entry hentry
    exact belongs_of_ne (by simp [traceEntry]) (by simp [traceEntry])
  have hbatch : ∀ (m : Materializer) given r pre post, Belongs d e
      (enqueueEntry m durable requestID traceID reply given r pre post : Entry x) := by
    intro m given r pre post
    unfold enqueueEntry
    split_ifs <;> exact belongs_of_ne (by simp) (by simp)
  cases h with
  | failed | silent => exact forall_mem_singleton.2 (hrelease ..)
  | refused _ _ _ _ traces ht =>
    exact forall_mem_append.2 ⟨htraces traces ht, forall_mem_singleton.2 (hrelease ..)⟩
  | rejected m hm hreply hvalid traces ht | stored m hm hreply hvalid traces ht =>
    refine forall_mem_append.2 ⟨htraces traces ht, forall_mem_cons.2 ⟨hbatch .., ?_⟩⟩
    exact forall_mem_singleton.2 (hrelease ..)

/-- The steps of `forward` belong to its execution. -/
theorem belongs_of_forwarded {durable : DurableExecution} {events : List (Option RunnerEvent)}
    {err : Option Gateway.Err} (h : Forwarded d e durable events l err) :
    ∀ entry ∈ l, Belongs d e entry := by
  obtain ⟨l, _, _, _, _, hloop, _, hhandoff, _, haudit, hfinished⟩ := h
  simp only [forall_mem_append]
  refine ⟨belongs_of_looped hloop, belongs_of_handsOff hhandoff, ?_, belongs_of_finished hfinished⟩
  unfold AuditsOnce at haudit
  split_ifs at haudit
  · simp [haudit.1]
  · exact belongs_of_audits haudit

end Belongs

/-- The marks of `forward` with an audit writer and a handoff store: those of the loop, and those of
`finalizeForward`. -/
theorem finalMarks_of_forwarded {d : Dispatcher} {e : Execution} {durable : DurableExecution}
    {events : List (Option RunnerEvent)} {l : List (Entry x)} {err : Option Gateway.Err} {s : Store}
    (h : Forwarded d e durable events l err) (hwriter : d.auditWriter.isSome = true)
    (hstore : d.handoffStore = true) (hheld : Held s durable) :
    ∃ (loop : List (Entry x)) (flow : Flow) (ms : List Mark), Looped d e events loop flow ∧
      marks l = marks loop ++ ms ∧
      FinalMarks flow.terminalErr (Dispatcher.finalEventType flow) flow.auditFinalized ms := by
  obtain ⟨l, k1, k2, k3, flow, hloop, handoffErr, hhandoff, auditErr, haudit, hfinished⟩ := h
  refine ⟨l, flow, marks (k1 ++ (k2 ++ k3)), hloop, marks_append .., ?_⟩
  have hfinish := finishMarks_of_finished hheld hfinished
  rw [marks_append, marks_append, hhandoff.marks, haudit.marks, if_pos hstore]
  cases hfinalized : flow.auditFinalized with
  | true =>
    have hnone : auditErr = none := by
      unfold AuditsOnce at haudit
      rw [hfinalized, if_pos rfl] at haudit
      exact haudit.2
    rw [hnone] at hfinish
    rw [if_neg (by simp)]
    refine .audited handoffErr _ ?_
    simpa [errAfterAudit] using hfinish
  | false =>
    rw [if_pos ⟨rfl, hwriter⟩]
    exact .unaudited handoffErr auditErr _ hfinish

/-- The marks of `finalizeForward` tell nothing about the stream. -/
theorem FinalMarks.written {terminalErr : Option Gateway.Err} {eventType : EventType}
    {audited : Bool} {ms : List Mark} (h : FinalMarks terminalErr eventType audited ms) :
    Written ms := by
  have hfinish : ∀ {err ms}, FinishMarks err ms → Written ms := by
    intro err ms h
    cases h <;> simp [Written]
  cases h with
  | audited _ _ h => exact (show Written [_] by simp [Written]).append (hfinish h)
  | unaudited _ _ _ h =>
    exact (show Written [_, _] by simp [Written]).append (hfinish h)

/-- Readings of the stream tell nothing about the outcomes. -/
theorem findSome?_replicate_received {α : Type} (f : Mark → Option α) (hf : f .received = none)
    (n : ℕ) (ms : List Mark) :
    (List.replicate n Mark.received ++ ms).findSome? f = ms.findSome? f := by
  rw [findSome?_append, findSome?_replicate, hf]
  simp

/-- Readings of the stream tell nothing about the outcomes. -/
theorem Wrote.of_replicate {n : ℕ} {ms : List Mark} {fact : EventType}
    {result : ExecutionResult} {status : EventStatus}
    (h : Wrote (List.replicate n Mark.received ++ ms) fact result status) :
    Wrote ms fact result status := by
  obtain ⟨haudit, hhandoff, hevent⟩ := h
  rw [acceptedHandoff, findSome?_replicate_received _ rfl] at hhandoff
  exact ⟨by simpa [mem_replicate] using haudit, hhandoff, by simpa [mem_replicate] using hevent⟩

/-- The end of a wait tells nothing about the outcomes. -/
theorem Wrote.of_stopped {ms : List Mark} {fact : EventType}
    {result : ExecutionResult} {status : EventStatus}
    (h : Wrote (.stopped :: ms) fact result status) : Wrote ms fact result status := by
  obtain ⟨haudit, hhandoff, hevent⟩ := h
  exact ⟨by simpa using haudit, hhandoff, by simpa using hevent⟩

/-- What the last reading of a stream gave, when nothing is read after it. -/
theorem lastRead_replicate {events : List (Option RunnerEvent)} {n : ℕ} {ms : List Mark}
    (h : .received ∉ ms) :
    lastRead events (List.replicate (n + 1) Mark.received ++ ms) = events[n]? := by
  rw [lastRead, count_append, count_replicate_self, count_eq_zero_of_not_mem h]
  rfl

/-- The outcomes that the marks of an execution tell agree exactly when it is undisturbed. -/
theorem agree_iff_of_looped {d : Dispatcher} {e : Execution} {events : List (Option RunnerEvent)}
    {loop : List (Entry x)} {flow : Flow} {ms : List Mark} {fact : EventType}
    {result : ExecutionResult} {status : EventStatus} (hloop : Looped d e events loop flow)
    (hwriter : d.auditWriter.isSome = true) (hstore : d.handoffStore = true)
    (hfinal : FinalMarks flow.terminalErr (Dispatcher.finalEventType flow) flow.auditFinalized ms)
    (h : Wrote (marks loop ++ ms) fact result status) :
    OutcomesAgree fact result status ↔ Undisturbed events (marks loop ++ ms) := by
  obtain ⟨hstopped, -, hreceived⟩ := hfinal.written
  cases hloop with
  | canceled _ _ _ _ _ hstart _ hwait _ hk =>
    obtain ⟨hclosing, htype⟩ := closingMarks_of_closing hk hwriter hstore
    rw [marks_append, marks_append, hstart.marks, hwait.marks, append_assoc] at h ⊢
    rw [htype] at hfinal
    rw [agree_iff_of_canceled hclosing hfinal h.of_replicate.of_stopped, Undisturbed,
      if_pos (by simp)]
    simp only [firstAudit, firstHandoff]
    rw [findSome?_replicate_received _ rfl, findSome?_replicate_received _ rfl]
    rfl
  | closed _ _ _ hstart _ hk =>
    obtain ⟨hclosing, htype⟩ := closingMarks_of_closing hk hwriter hstore
    obtain ⟨hstopped', hreceived', -⟩ := hk.undisturbed
    rw [marks_append, hstart.marks, append_assoc] at h ⊢
    rw [htype] at hfinal
    rw [agree_iff_of_succeeded rfl rfl rfl rfl hclosing hfinal h.of_replicate, Undisturbed,
      if_neg (by simp [hstopped, hstopped', mem_replicate]),
      lastRead_replicate (by simp [hreceived, hreceived']), getElem?_length]
    simp [Mark.disturbs]
  | last _ _ _ _ event hevent hfinalEvent hstart _ hk =>
    obtain ⟨hclosing, htype⟩ := closingMarks_of_closing hk hwriter hstore
    obtain ⟨hstopped', hreceived', -⟩ := hk.undisturbed
    rw [marks_append, hstart.marks, append_assoc] at h ⊢
    rw [Undisturbed, if_neg (by simp [hstopped, hstopped', mem_replicate]),
      lastRead_replicate (by simp [hreceived, hreceived']), hevent]
    simp only [hfinalEvent, Bool.true_eq_false, if_false]
    cases hfailed : failedEvent event with
    | true =>
      rw [hfailed] at hclosing htype
      rw [htype] at hfinal
      rw [agree_iff_of_failed hclosing hfinal h.of_replicate, firstAudit, firstAudit,
        findSome?_replicate_received _ rfl]
      simp [mem_replicate]
    | false =>
      rw [hfailed] at hclosing htype
      rw [htype] at hfinal
      rw [agree_iff_of_succeeded rfl rfl rfl rfl hclosing hfinal h.of_replicate]
      simp [Mark.disturbs]
  | cut _ _ _ _ hevent hfinalEvent hstart _ hitem =>
    rw [marks_append, hstart.marks, marks_cutEntry hitem, append_assoc] at h ⊢
    rw [Undisturbed, if_neg (by simp [hstopped, mem_replicate]),
      lastRead_replicate (by simp [hreceived]), hevent]
    simp only [hfinalEvent, if_true, iff_true]
    exact agree_of_cut hfinal h.of_replicate

section Runs

variable {clock : ℤ} {c : Run x} {t : ℕ} {d : Dispatcher} {e : Execution}
  {events : List (Option RunnerEvent)} {err : Option Gateway.Err} {durable : DurableExecution}
  {fact : EventType} {result : ExecutionResult} {status : EventStatus}

/-- The outcomes that a call of `forward` has written agree exactly when the execution was
undisturbed. -/
theorem outcomesAgree_iff (hc : Reachable Faithful (Run.start (State.initial clock)) c)
    (hr : c.Returned t (.forward d e events) (.forwarded err)) (hdurable : e.durable = some durable)
    (h : Outcomes (log c.history t) fact result status) :
    OutcomesAgree fact result status ↔ Undisturbed events (marks (log c.history t)) := by
  have hforwarded := forwarded_of_returned hc hr hdurable
  have hbelongs := belongs_of_forwarded hforwarded
  have hheld : Held c.state.store durable := handles_held hc Store.Sound.empty hr hdurable
  obtain ⟨entry, hentry, hresult⟩ := h.handoff
  obtain ⟨entry', hentry', hmark⟩ := mem_filterMap.1 h.audit
  obtain ⟨ctx, writer, event, happend⟩ := of_mark hmark
  obtain ⟨ctx', value, hfinalize⟩ := finalize_of_handedOff hresult
  have hwriter := (hbelongs entry' hentry').1 ctx writer event happend
  have hstore := ((hbelongs entry hentry).2 ctx' value hfinalize).1
  have hhandoff := acceptedHandoff_of_handedOff (fun _ => reachable_performs_log hc)
    (reachable_evolves_log hc t) (fun a ha ctx value ho => ((hbelongs a ha).2 ctx value ho).2)
    hentry hresult
  obtain ⟨loop, flow, ms, hloop, hmarks, hfinal⟩ :=
    finalMarks_of_forwarded hforwarded hwriter hstore hheld
  have haudit := h.audit
  have hevent := h.event
  rw [hmarks] at haudit hhandoff hevent ⊢
  exact agree_iff_of_looped hloop hwriter hstore hfinal ⟨haudit, hhandoff.symm, hevent⟩

end Runs

/-! ## Concrete runs -/

/-- The dispatcher with an audit writer and a handoff store besides. -/
def auditedDispatcher : Dispatcher :=
  { sampleDispatcher with auditWriter := some "t", handoffStore := true }

/-- The execution that the dispatch of the message starts. -/
def dispatchedExecution : Execution :=
  { requestID := "req", traceID := "trace", durable := some (sampleHandle "a" 1),
    principal := samplePrincipal, message := sampleMessage, identity := ⟨"u", "s"⟩ }

/-- The dispatch of the message, by the call `0`: the event is claimed, the start is audited, the
handoff is reserved, and the runner is started. -/
def dispatchMessage : List (Action (services plainExternals)) :=
  [.spawn 0 (.dispatch auditedDispatcher samplePrincipal),
    .perform 0 { normalize := .ok (sampleMessage, "req", "trace") }, .perform 0 {},
    .perform 0 { runnerIdentity := .ok ⟨"u", "s"⟩ }, .perform 0 {}, .perform 0 {},
    .perform 0 { uuid := "e" }, .perform 0 {}, .perform 0 { uuid := "a" }, .perform 0 {},
    .perform 0 {}, .perform 0 {}, .perform 0 {}, .perform 0 {}, .perform 0 {}, .perform 0 {}]

/-- The call of `forward` on a stream of one message. -/
def forwardOne : Call := .forward auditedDispatcher dispatchedExecution [textEvent "hi" true]

/-- The context is canceled while the last message is sent, after the audit. -/
def cancelLast : List (Action (services plainExternals)) :=
  [.spawn 1 forwardOne, .perform 1 {}, .perform 1 {}, .perform 1 {}, .perform 1 {},
    .perform 1 { done := some .canceled }, .perform 1 {}, .perform 1 {}]

/-- An execution that is audited as completed, handed off as canceled, and failed. -/
theorem completedButFailed : ∃ c : Run plainExternals,
    Reachable Faithful (Run.start (State.initial 1)) c ∧
      c.Returned 1 forwardOne (.forwarded (some (.ctx .canceled))) ∧
      Outcomes (log c.history 1) .executionCompleted .canceled .failed ∧
      ¬ OutcomesAgree .executionCompleted .canceled .failed := by
  obtain ⟨c, hc, hreturned, hresult, haudit, hhandoff, hevent⟩ :=
    Config.exists_returned_of_run Faithful (Run.start (State.initial 1))
      (dispatchMessage ++ cancelLast)
      (fun c => c.result 1 = some (.forwarded (some (.ctx .canceled))) ∧
        .audit .executionCompleted true ∈ marks (log c.history 1) ∧
        (∃ entry ∈ log c.history 1, handedOff entry = some .canceled) ∧
        .status .failed true ∈ marks (log c.history 1)) (by decide +kernel)
  exact ⟨c, hc, hreturned 1 forwardOne _ (by simp [cancelLast]) hresult,
    ⟨haudit, hhandoff, hevent⟩, by decide⟩

/-- Nothing goes wrong. -/
def completeLast : List (Action (services plainExternals)) :=
  .spawn 1 forwardOne :: List.replicate 12 (.perform 1 {})

/-- An execution that is undisturbed, and whose outcomes agree. -/
theorem outcomesAgree_completed : ∃ c : Run plainExternals,
    Reachable Faithful (Run.start (State.initial 1)) c ∧
      c.Returned 1 forwardOne (.forwarded none) ∧
      Outcomes (log c.history 1) .executionCompleted .success .completed ∧
      Undisturbed [textEvent "hi" true] (marks (log c.history 1)) := by
  obtain ⟨c, hc, hreturned, hresult, haudit, hhandoff, hevent⟩ :=
    Config.exists_returned_of_run Faithful (Run.start (State.initial 1))
      (dispatchMessage ++ completeLast)
      (fun c => c.result 1 = some (.forwarded none) ∧
        .audit .executionCompleted true ∈ marks (log c.history 1) ∧
        (∃ entry ∈ log c.history 1, handedOff entry = some .success) ∧
        .status .completed true ∈ marks (log c.history 1)) (by decide +kernel)
  have hreturned' := hreturned 1 forwardOne _ (by simp [completeLast]) hresult
  have houtcomes : Outcomes (log c.history 1) .executionCompleted .success .completed :=
    ⟨haudit, hhandoff, hevent⟩
  exact ⟨c, hc, hreturned', houtcomes,
    (outcomesAgree_iff hc hreturned' rfl houtcomes).1 (by decide)⟩

end AgentService.Platform
