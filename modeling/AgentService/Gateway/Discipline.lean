import AgentService.Gateway.Dispatch

/-!
# The operations of the gateway

What the gateway asks of the shared state, in all its functions and under every interference
(`Issues`): it never claims or settles a reply row, it moves an event into `running`, or out of it
by a handle of the execution, and the rows that it writes are new segments of the event of such a
handle. The proofs walk through the functions of the gateway, one lemma for each.
-/

namespace AgentService.Gateway

open Storage Platform Outbox Concurrent Dispatcher

variable {x : Externals} {R : String → Prop} {D : DurableExecution → Prop}

/-- A segment of the reply of an execution that has not been claimed yet. The reply carries the name
of its event. -/
structure NewSegment (durable : DurableExecution) (value : ReplyOutbox) : Prop where
  tenantID : value.tenantID = durable.tenantID
  eventID : value.eventID = durable.eventID
  /-- The reply carries the name of the event. -/
  replyID : value.replyID = durable.eventID
  replyTarget : value.replyTarget = durable.replyTarget
  attempts : value.attempts = 0
  fencingToken : value.fencingToken = 0

/-- The operations that the gateway issues for the requests `R` and with the handles `D`. -/
def Issues (R : String → Prop) (D : DurableExecution → Prop) : Op → Prop
  | .env (.deliver _) | .env (.reconcile _) => False
  | .store _ (.claimReply ..) | .store _ (.transitionReply _) => False
  | .store ctx (.transitionMessage t) =>
    t.to = .running ∨ (t.from = .running ∧ t.to = .executionReconciling) ∨
      (ctx = .background ∧ ∃ durable status replyID segments, D durable ∧
        (status = .completed ∨ status = .failed) ∧ t = release durable status replyID segments)
  | .store _ (.enqueueReplies values) =>
    R "" ∧ ∃ durable, D durable ∧ ∀ value ∈ values, NewSegment durable value
  | .store _ (.enqueueRepliesWithCorrelation correlation values) =>
    R correlation.requestID ∧ ∃ durable, D durable ∧ ∀ value ∈ values, NewSegment durable value
  | _ => True

/-- More requests and more handles allow more operations. -/
theorem Issues.mono {R' : String → Prop} {D' : DurableExecution → Prop} (hR : ∀ r, R r → R' r)
    (hD : ∀ d, D d → D' d) {o : Op} (h : Issues R D o) : Issues R' D' o := by
  cases o with
  | store ctx o =>
    cases o with
    | transitionMessage =>
      rcases h with h | h | ⟨hctx, d, status, replyID, segments, hd, hs, ht⟩
      · exact .inl h
      · exact .inr (.inl h)
      · exact .inr (.inr ⟨hctx, d, status, replyID, segments, hD d hd, hs, ht⟩)
    | enqueueReplies =>
      obtain ⟨hr, d, hd, hvalues⟩ := h
      exact ⟨hR _ hr, d, hD d hd, hvalues⟩
    | enqueueRepliesWithCorrelation =>
      obtain ⟨hr, d, hd, hvalues⟩ := h
      exact ⟨hR _ hr, d, hD d hd, hvalues⟩
    | _ => exact h
  | env e => cases e <;> exact h
  | _ => trivial

/-! ## The record of a message -/

/-- `ensureInboundSession` only reads and writes sessions. -/
theorem ensureInboundSession_every (tenantID sessionID : String) :
    (ensureInboundSession (x := x) tenantID sessionID).Every (Issues R D) := by
  refine .bind ⟨trivial, fun _ => trivial⟩ fun r => ?_
  split
  · trivial
  · exact .bind ⟨trivial, fun _ => trivial⟩ fun r => by split <;> trivial
  · trivial

variable (tenantID : String)

/-- `prepareInboundEvent` moves an event from `running` to reconciliation at most. -/
theorem prepareInboundEvent_every (event : MessageEvent) (duplicate : Bool) (owner : String) :
    (prepareInboundEvent (x := x) tenantID event duplicate owner).Every (Issues R D) := by
  unfold prepareInboundEvent
  split
  · trivial
  · split
    · split
      · trivial
      · refine .bind ⟨trivial, fun _ => trivial⟩ fun _ => ?_
        split
        · trivial
        · refine .bind ⟨.inr (.inl ⟨rfl, rfl⟩), fun _ => trivial⟩ fun r => ?_
          split <;> trivial
    · trivial

/-- `claimRecorded` moves the event to `running`. -/
theorem claimRecorded_every (event : MessageEvent) (duplicate : Bool) :
    (claimRecorded (x := x) tenantID event duplicate).Every (Issues R D) := by
  refine .bind ⟨trivial, fun _ => trivial⟩ fun _ => ?_
  refine .bind (prepareInboundEvent_every _ _ _ _) fun r => ?_
  split
  · trivial
  · refine .bind ⟨.inl rfl, fun _ => trivial⟩ fun r => ?_
    split <;> trivial

variable (d : Dispatcher) (e : Execution)

/-- `claimInbound`. -/
theorem claimInbound_every (principal : Principal) (message : InboundMessage)
    (identity : RunnerIdentity) :
    (d.claimInbound (x := x) principal message identity).Every (Issues R D) := by
  unfold claimInbound
  split
  · trivial
  · split
    · trivial
    · split
      · trivial
      · split
        · trivial
        · refine .bind (ensureInboundSession_every _ _) fun r => ?_
          split
          · trivial
          · refine .bind ⟨trivial, fun _ => trivial⟩ fun _ => ?_
            refine .bind ⟨trivial, fun _ => trivial⟩ fun r => ?_
            split
            · trivial
            · exact claimRecorded_every _ _ _

/-- `failDurable` moves the event from `running` to `failed`. -/
theorem failDurable_every (durable : Option DurableExecution) (hD : ∀ d ∈ durable, D d) :
    (failDurable (x := x) durable).Every (Issues R D) := by
  cases durable with
  | none => trivial
  | some durable =>
    exact .bind ⟨.inr (.inr ⟨rfl, durable, .failed, "", 0, hD durable rfl, .inr rfl, rfl⟩),
      fun _ => trivial⟩ fun _ => trivial

/-- The rows of a batch carry the identifiers of the input. -/
theorem mem_batch {input : MaterializeInput} {count index : ℕ} {segments : List String}
    {value : ReplyOutbox} (h : value ∈ batch input count index segments) :
    value.tenantID = input.tenantID ∧ value.replyID = input.replyID ∧
      value.eventID = input.eventID ∧ value.replyTarget = input.replyTarget ∧
      value.attempts = 0 ∧ value.fencingToken = 0 := by
  induction segments generalizing index with
  | nil => simp [batch] at h
  | cons _ _ ih =>
    simp only [batch, List.mem_cons] at h
    rcases h with rfl | h
    · exact ⟨rfl, rfl, rfl, rfl, rfl, rfl⟩
    · exact ih h

/-- `Materialize` writes new segments of its execution. -/
theorem materialize_every (m : Materializer) (durable : DurableExecution)
    (requestID traceID traceParent payload : String) (hR : R requestID) (hD : D durable) :
    (m.materialize (x := x)
      (materializeInput durable requestID traceID traceParent payload)).Every (Issues R D) := by
  unfold Materializer.materialize
  split
  · trivial
  · dsimp only
    split
    · trivial
    · refine .bind ?_ fun r => by split <;> trivial
      have hrows : ∀ value ∈ batch (materializeInput durable requestID traceID traceParent payload)
          (splitRunes payload m.segmentSize).length 0 (splitRunes payload m.segmentSize),
          NewSegment durable value := fun value hv => by
        obtain ⟨ht, hr, he, htarget, ha, hf⟩ := mem_batch hv
        exact ⟨ht, he, hr, htarget, ha, hf⟩
      unfold enqueueBatch
      split
      · refine .bind ?_ fun traceParent => ⟨⟨hR, durable, hD, hrows⟩, fun _ => trivial⟩
        unfold materializeTraceParent
        split
        · exact ⟨trivial, fun _ => trivial⟩
        · trivial
      · next hempty =>
        have hempty : requestID = "" := not_not.1 hempty
        exact ⟨⟨hempty ▸ hR, durable, hD, hrows⟩, fun _ => trivial⟩

/-- `finishDurable` writes the reply of its event and moves the event out of `running`. -/
theorem finishDurable_every (requestID traceID : String) (durable : Option DurableExecution)
    (terminalErr : Option Gateway.Err) (reply : String) (hR : R requestID)
    (hD : ∀ d ∈ durable, D d) :
    (d.finishDurable (x := x) requestID traceID durable terminalErr reply).Every (Issues R D) := by
  unfold finishDurable
  split
  · trivial
  · next durable =>
    have hD := hD durable rfl
    split
    · exact .bind ⟨.inr (.inr ⟨rfl, durable, .failed, "", 0, hD, .inr rfl, rfl⟩),
        fun _ => trivial⟩ fun _ => trivial
    · refine .bind ?_ fun r => .bind ⟨.inr (.inr ⟨rfl, durable, _, r.2.1, r.2.2, hD, ?_, rfl⟩),
        fun _ => trivial⟩ fun _ => trivial
      · unfold materializeReply
        split
        · trivial
        · split
          · trivial
          · refine .bind ⟨trivial, fun _ => trivial⟩ fun _ => ?_
            refine .bind (materialize_every _ _ _ _ _ _ hR hD) fun r => ?_
            split <;> trivial
      · split
        · exact .inl rfl
        · exact .inr rfl

/-! ## The stream -/

/-- The audit of an execution. -/
theorem writeExecutionAuditRevision_every (ctx : Ctx) (e : Execution) (eventType : Audit.EventType)
    (errorType : String) (revision : Option ℤ) :
    (d.writeExecutionAuditRevision (x := x) ctx e eventType errorType revision).Every (Issues R D) := by
  unfold writeExecutionAuditRevision
  split
  · trivial
  · refine .bind ⟨trivial, fun _ => trivial⟩ fun _ => .bind ⟨trivial, fun _ => trivial⟩ fun r => ?_
    split <;> trivial

/-- The closure `finalizeAudit`. -/
theorem finalizeAudit_every (auditFinalized : Bool) (eventType : Audit.EventType)
    (errorType : String) :
    (d.finalizeAudit (x := x) e auditFinalized eventType errorType).Every (Issues R D) := by
  unfold finalizeAudit
  split
  · trivial
  · refine .bind (writeExecutionAuditRevision_every ..) fun r => ?_
    split <;> trivial

/-- The closure `finalizeHandoff`. -/
theorem finalizeHandoff_every (result : Audit.ExecutionResult)
    (errorType : String) : (d.finalizeHandoff (x := x) e result errorType).Every (Issues R D) := by
  unfold finalizeHandoff
  split
  · trivial
  · refine .bind ⟨trivial, fun _ => trivial⟩ fun r => ?_
    split <;> trivial

/-- The events after an audit failure. -/
theorem finishAuditFailure_every : (finishAuditFailure (x := x) e).Every (Issues R D) :=
  .bind ⟨trivial, fun _ => trivial⟩ fun _ => .bind ⟨trivial, fun _ => trivial⟩ fun _ => trivial

/-- The events after a cancellation. -/
theorem finishCanceled_every (cause : CtxErr) :
    (finishCanceled (x := x) e cause).Every (Issues R D) :=
  .bind ⟨trivial, fun _ => trivial⟩ fun _ => .bind ⟨trivial, fun _ => trivial⟩ fun _ => trivial

/-- `handleForwardStreamClosed`. -/
theorem handleForwardStreamClosed_every (flow : Flow) :
    (d.handleForwardStreamClosed (x := x) e flow).Every (Issues R D) := by
  refine .bind (finalizeAudit_every ..) fun r => ?_
  dsimp only
  split
  · exact .bind (finishAuditFailure_every e) fun _ => trivial
  · refine .bind (finalizeHandoff_every ..) fun r => ?_
    split
    · exact .bind (finishAuditFailure_every e) fun _ => trivial
    · exact .bind ⟨trivial, fun _ => trivial⟩ fun _ => trivial

/-- `handleForwardCancellation`. -/
theorem handleForwardCancellation_every (cause : CtxErr)
    (flow : Flow) : (d.handleForwardCancellation (x := x) e cause flow).Every (Issues R D) := by
  refine .bind (finalizeAudit_every ..) fun r => ?_
  dsimp only
  split
  · exact .bind (finishAuditFailure_every e) fun _ => trivial
  · refine .bind (finalizeHandoff_every ..) fun r => ?_
    split
    · exact .bind (finishAuditFailure_every e) fun _ => trivial
    · exact .bind (finishCanceled_every e cause) fun _ => trivial

/-- The first loop over the dispatch events. -/
theorem sendItems_every (done : Bool) (items : List DispatchEvent) (flow : Flow) :
    (sendItems (x := x) done items flow).Every (Issues R D) := by
  induction items generalizing flow with
  | nil => trivial
  | cons _ _ ih =>
    unfold sendItems
    split
    · exact ih flow
    · refine .bind ⟨trivial, fun _ => trivial⟩ fun r => ?_
      split
      · trivial
      · exact ih _

/-- The last loop over the dispatch events. -/
theorem sendDone_every (items : List DispatchEvent) : (sendDone (x := x) items).Every (Issues R D) := by
  induction items with
  | nil => trivial
  | cons _ _ ih =>
    unfold sendDone
    split
    · exact .bind ⟨trivial, fun _ => trivial⟩ fun _ => ih
    · exact ih

/-- `handleForwardRunnerEvent`. -/
theorem handleForwardRunnerEvent_every (event : Option RunnerEvent) (flow : Flow) :
    (d.handleForwardRunnerEvent (x := x) e event flow).Every (Issues R D) := by
  have hitems : ∀ mapped done flow,
      (d.forwardItems (x := x) e mapped done flow).Every (Issues R D) := by
    intro mapped done flow
    refine .bind (sendItems_every _ _ _) fun r => ?_
    dsimp only
    split
    · trivial
    · split
      · trivial
      · refine .bind (finalizeHandoff_every ..) fun r => ?_
        split
        · exact .bind (finishAuditFailure_every e) fun _ => trivial
        · exact .bind (sendDone_every _) fun _ => trivial
  unfold handleForwardRunnerEvent
  dsimp only
  split
  · refine .bind (finalizeAudit_every ..) fun r => ?_
    split
    · exact .bind (finishAuditFailure_every e) fun _ => trivial
    · exact hitems _ _ _
  · exact hitems _ _ _

variable (events : List (Option RunnerEvent))

/-- The loop of `forward`. -/
theorem forwardLoop_every
    (flow : Flow) : (d.forwardLoop (x := x) e events flow).Every (Issues R D) := by
  have hawait : (awaitRunner (x := x)).Every (Issues R D) := by
    refine .bind ⟨trivial, fun _ => trivial⟩ fun r => ?_
    split
    · trivial
    · exact ⟨trivial, fun _ => trivial⟩
  induction events generalizing flow with
  | nil =>
    refine .bind hawait fun r => ?_
    split
    · exact handleForwardCancellation_every ..
    · exact handleForwardStreamClosed_every ..
  | cons _ _ ih =>
    refine .bind hawait fun r => ?_
    split
    · exact handleForwardCancellation_every ..
    · refine .bind (handleForwardRunnerEvent_every ..) fun r => ?_
      dsimp only
      split
      · trivial
      · exact ih _

/-- `forward`. -/
theorem forward_every (hR : R e.requestID) (hD : ∀ d ∈ e.durable, D d) :
    (d.forward (x := x) e events).Every (Issues R D) := by
  refine .bind (forwardLoop_every ..) fun _ => ?_
  refine .bind (finalizeHandoff_every ..) fun r => .bind (finalizeAudit_every ..) fun r => ?_
  exact .bind (finishDurable_every _ _ _ _ _ _ hR hD) fun _ => trivial

/-! ## Dispatch -/

/-- `failExecution`. -/
theorem failExecution_every (eventType : Audit.EventType) (errorType : String) (err : Gateway.Err)
    (hD : ∀ d ∈ e.durable, D d) :
    (d.failExecution (x := x) e eventType errorType err).Every (Issues R D) := by
  refine .bind (failDurable_every _ hD) fun _ =>
    .bind (writeExecutionAuditRevision_every ..) fun r => ?_
  split
  · exact .bind (failDurable_every _ hD) fun _ => trivial
  · trivial

/-- `startRunner`. -/
theorem startRunner_every (hD : ∀ d ∈ e.durable, D d) :
    (d.startRunner (x := x) e).Every (Issues R D) := by
  refine .bind ⟨trivial, fun _ => trivial⟩ fun r => ?_
  split
  · exact failExecution_every _ _ _ _ _ hD
  · refine .bind ⟨trivial, fun _ => trivial⟩ fun r => ?_
    split
    · exact failExecution_every _ _ _ _ _ hD
    · refine .bind ⟨trivial, fun _ => trivial⟩ fun r => ?_
      split
      · split
        · exact failExecution_every _ _ _ _ _ hD
        · exact failExecution_every _ _ _ _ _ hD
      · exact failExecution_every _ _ _ _ _ hD
      · trivial

/-- `Dispatch` after the claim. -/
theorem dispatchClaimed_every (canary : Option ℤ)
    (hD : ∀ d ∈ e.durable, D d) : (d.dispatchClaimed (x := x) e canary).Every (Issues R D) := by
  refine .bind ?_ fun r => ?_
  · unfold writeCanary
    split
    · trivial
    · exact writeExecutionAuditRevision_every ..
  split
  · exact .bind (failDurable_every _ hD) fun _ => trivial
  refine .bind (writeExecutionAuditRevision_every ..) fun r => ?_
  split
  · exact .bind (failDurable_every _ hD) fun _ => trivial
  refine .bind ?_ fun r => ?_
  · unfold reserveHandoff
    split
    · trivial
    · refine .bind ⟨trivial, fun _ => trivial⟩ fun r => ?_
      split <;> trivial
  split
  · trivial
  · exact startRunner_every d _ hD

end AgentService.Gateway
