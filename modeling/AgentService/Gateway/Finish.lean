import AgentService.Gateway.Grants

/-!
# The end of an execution

What `finishDurable` performs (`Finished`): it fails the event, or it completes it without a reply,
or it materializes the reply in one batch and then completes the event when the batch was accepted
and fails it otherwise. The batch comes first, under no fence, and the step of the event carries the
owner and the token.
-/

namespace AgentService.Gateway

open Storage Platform Outbox Concurrent Program

variable {x : Externals}

/-- The step by which an execution gives its event back, with its answer. -/
def releaseEntry (durable : DurableExecution) (status : EventStatus) (replyID : String)
    (segments : ℕ) (r : Except Storage.Err MessageEvent) (pre post : State) : Entry x :=
  ⟨.store .background (.transitionMessage (release durable status replyID segments)), r, pre, post⟩

/-- The segments of a reply. -/
def replySegments (m : Materializer) (reply : String) : List String :=
  splitRunes reply m.segmentSize

/-- The rows of the reply of an execution. -/
def replyRows (m : Materializer) (durable : DurableExecution) (reply : String) : List ReplyOutbox :=
  batch (materializeInput durable "" "" "" reply) (replySegments m reply).length 0
    (replySegments m reply)

/-- A batch depends on the identifiers of its input only. -/
theorem batch_congr {input input' : MaterializeInput} (htenant : input.tenantID = input'.tenantID)
    (hreply : input.replyID = input'.replyID) (hevent : input.eventID = input'.eventID)
    (htarget : input.replyTarget = input'.replyTarget) (count index : ℕ) (segments : List String) :
    batch input count index segments = batch input' count index segments := by
  induction segments generalizing index with
  | nil => rfl
  | cons _ _ ih => simp only [batch, htenant, hreply, hevent, htarget, ih]

/-- The batch by which a reply is materialized, with the trace parent of its correlation. -/
def enqueueEntry (m : Materializer) (durable : DurableExecution) (requestID traceID reply : String)
    (traceParent : String) (r : Except Storage.Err (List ReplyOutbox)) (pre post : State) :
    Entry x :=
  if requestID ≠ "" then
    ⟨.store .background (.enqueueRepliesWithCorrelation
      ⟨durable.tenantID, durable.eventID, requestID, traceID, traceParent⟩
      (replyRows m durable reply)), r, pre, post⟩
  else ⟨.store .background (.enqueueReplies (replyRows m durable reply)), r, pre, post⟩

variable {m : Materializer}

/-- The batch of a request with an identifier. -/
theorem enqueueEntry_of_ne {durable : DurableExecution}
    {requestID traceID reply traceParent : String} {r : Except Storage.Err (List ReplyOutbox)}
    {pre post : State} (h : requestID ≠ "") :
    (enqueueEntry m durable requestID traceID reply traceParent r pre post : Entry x) =
      ⟨.store .background (.enqueueRepliesWithCorrelation
        ⟨durable.tenantID, durable.eventID, requestID, traceID, traceParent⟩
        (replyRows m durable reply)), r, pre, post⟩ := if_pos h

/-- The batch of a request without an identifier. -/
theorem enqueueEntry_of_eq {durable : DurableExecution}
    {requestID traceID reply traceParent : String} {r : Except Storage.Err (List ReplyOutbox)}
    {pre post : State} (h : requestID = "") :
    (enqueueEntry m durable requestID traceID reply traceParent r pre post : Entry x) =
      ⟨.store .background (.enqueueReplies (replyRows m durable reply)), r, pre, post⟩ :=
  if_neg (not_not.2 h)

variable (m : Materializer) (durable : DurableExecution) (requestID traceID reply traceParent : String)

variable (r : Except Storage.Err (List ReplyOutbox))

variable (pre post : State)

/-- The state before a batch. -/
@[simp] theorem enqueueEntry_pre :
    (enqueueEntry m durable requestID traceID reply traceParent r pre post : Entry x).pre =
      pre := by
  unfold enqueueEntry
  split <;> rfl

/-- The state after a batch. -/
@[simp] theorem enqueueEntry_post :
    (enqueueEntry m durable requestID traceID reply traceParent r pre post : Entry x).post =
      post := by
  unfold enqueueEntry
  split <;> rfl

/-- The batch of a reply reaches the store. -/
def isEnqueue : Entry x → Bool
  | ⟨.store _ (.enqueueReplies _), _, _, _⟩ => true
  | ⟨.store _ (.enqueueRepliesWithCorrelation ..), _, _, _⟩ => true
  | _ => false

/-- The batch of a reply is one. -/
theorem isEnqueue_enqueueEntry :
    isEnqueue (enqueueEntry m durable requestID traceID reply traceParent r pre post : Entry x) =
      true := by
  unfold enqueueEntry
  split <;> rfl

/-- A reply that `Materialize` refuses before it reaches the store. -/
def Refused (m : Materializer) (durable : DurableExecution) (reply : String) : Prop :=
  durable.tenantID = "" ∨ durable.eventID = "" ∨ validateReplyTarget durable.replyTarget ≠ none ∨
    replySegments m reply = []

/-- A reading of the trace parent. -/
def traceEntry (traceParent : String) (pre post : State) : Entry x :=
  ⟨.env .traceParentFromContext, traceParent, pre, post⟩

/-- A log of readings of the trace parent. -/
def Traces (l : List (Entry x)) : Prop :=
  ∀ e ∈ l, ∃ traceParent pre post, e = traceEntry traceParent pre post

/-- The operations of `finishDurable`. -/
inductive Finished (d : Dispatcher) (requestID traceID : String) (durable : DurableExecution)
    (reply : String) : Option Gateway.Err → List (Entry x) → Prop
  /-- An execution with an error fails its event. -/
  | failed (err : Gateway.Err) (r : Except Storage.Err MessageEvent) (pre post : State) :
      Finished d requestID traceID durable reply (some err)
        [releaseEntry durable .failed "" 0 r pre post]
  /-- An execution without a reply completes its event. -/
  | silent (h : d.materializer = none ∨ Go.trimSpace reply = "")
      (r : Except Storage.Err MessageEvent) (pre post : State) :
      Finished d requestID traceID durable reply none
        [releaseEntry durable .completed "" 0 r pre post]
  /-- A reply that `Materialize` refuses fails the event. -/
  | refused (m : Materializer) (hm : d.materializer = some m) (hreply : Go.trimSpace reply ≠ "")
      (hrefused : Refused m durable reply) (traces : List (Entry x)) (htraces : Traces traces)
      (r : Except Storage.Err MessageEvent) (pre post : State) :
      Finished d requestID traceID durable reply none
        (traces ++ [releaseEntry durable .failed "" 0 r pre post])
  /-- A reply that the store rejects fails the event. -/
  | rejected (m : Materializer) (hm : d.materializer = some m) (hreply : Go.trimSpace reply ≠ "")
      (hvalid : ¬ Refused m durable reply) (traces : List (Entry x)) (htraces : Traces traces)
      (traceParent : String) (err : Storage.Err) (r : Except Storage.Err MessageEvent)
      (pre post pre' post' : State) :
      Finished d requestID traceID durable reply none
        (traces ++ [enqueueEntry m durable requestID traceID reply traceParent (.error err) pre post,
          releaseEntry durable .failed "" 0 r pre' post'])
  /-- A reply that the store accepts completes the event. -/
  | stored (m : Materializer) (hm : d.materializer = some m) (hreply : Go.trimSpace reply ≠ "")
      (hvalid : ¬ Refused m durable reply) (traces : List (Entry x)) (htraces : Traces traces)
      (traceParent : String) (rows : List ReplyOutbox) (r : Except Storage.Err MessageEvent)
      (pre post pre' post' : State) :
      Finished d requestID traceID durable reply none
        (traces ++ [enqueueEntry m durable requestID traceID reply traceParent (.ok rows) pre post,
          releaseEntry durable .completed durable.eventID (replySegments m reply).length r pre'
            post'])

/-- What `Materialize` performs for a reply, and what it answers. -/
inductive Materialized (m : Materializer) (requestID traceID : String) (durable : DurableExecution)
    (reply : String) : List (Entry x) → Except MaterializeErr ℕ → Prop
  /-- The reply is refused. -/
  | refused (hrefused : Refused m durable reply) :
      Materialized m requestID traceID durable reply [] (.error .invalid)
  /-- The store rejects the batch. -/
  | rejected (hvalid : ¬ Refused m durable reply) (traces : List (Entry x))
      (htraces : Traces traces) (traceParent : String) (err : Storage.Err) (pre post : State) :
      Materialized m requestID traceID durable reply
        (traces ++ [enqueueEntry m durable requestID traceID reply traceParent (.error err) pre post])
        (.error (redactedMaterializationError err))
  /-- The store accepts the batch. -/
  | stored (hvalid : ¬ Refused m durable reply) (traces : List (Entry x))
      (htraces : Traces traces) (traceParent : String) (rows : List ReplyOutbox)
      (pre post : State) :
      Materialized m requestID traceID durable reply
        (traces ++ [enqueueEntry m durable requestID traceID reply traceParent (.ok rows) pre post])
        (.ok (replySegments m reply).length)

variable (requestID traceID traceParent reply : String)

/-- The store operation of `Materialize`. -/
theorem enqueueBatch_obeys (log : List (Entry x)) :
    (enqueueBatch (x := x) (materializeInput durable requestID traceID traceParent reply)
      (replyRows m durable reply)).Obeys Free
      (fun l r => ∃ traces traceParent pre post, Traces traces ∧ l = log ++ (traces ++
        [enqueueEntry m durable requestID traceID reply traceParent r pre post])) log := by
  unfold enqueueBatch
  split
  · next hrequest =>
    have hstore : ∀ (traces : List (Entry x)) traceParent, Traces traces →
        (enqueueCorrelated (x := x)
          ⟨durable.tenantID, durable.eventID, requestID, traceID, traceParent⟩
          (replyRows m durable reply)).Obeys Free
          (fun l r => ∃ traces traceParent pre post, Traces traces ∧ l = log ++ (traces ++
            [enqueueEntry m durable requestID traceID reply traceParent r pre post]))
          (log ++ traces) := fun traces traceParent htraces => by
      refine obeys_storeOp.2 ⟨trivial, fun pre r post _ =>
        ⟨traces, traceParent, pre, post, htraces, ?_⟩⟩
      rw [List.append_assoc]
      exact congrArg (fun e => log ++ (traces ++ [e])) (enqueueEntry_of_ne hrequest).symm
    rw [obeys_bind]
    unfold materializeTraceParent
    split
    · simp only [obeys_traceParentFromContext]
      refine ⟨trivial, fun pre given post _ => hstore [traceEntry given pre post] given ?_⟩
      simp [Traces]
    · have h := hstore [] (x.normalizeTraceParent traceParent) (by simp [Traces])
      rw [List.append_nil] at h
      exact h
  · next hrequest =>
    refine obeys_storeOp.2 ⟨trivial, fun pre r post _ =>
      ⟨[], "", pre, post, by simp [Traces], ?_⟩⟩
    exact congrArg (fun e => log ++ [e]) (enqueueEntry_of_eq (not_not.1 hrequest)).symm

/-- `Materialize` of the reply of an execution. -/
theorem materialize_obeys (log : List (Entry x)) :
    (m.materialize (x := x) (materializeInput durable requestID traceID traceParent reply)).Obeys
      Free (fun l r => ∃ k, l = log ++ k ∧ Materialized m requestID traceID durable reply k r)
      log := by
  have hbatch : batch (materializeInput durable requestID traceID traceParent reply)
      (splitRunes reply m.segmentSize).length 0 (splitRunes reply m.segmentSize) =
        replyRows m durable reply := by apply batch_congr <;> rfl
  unfold Materializer.materialize
  split
  · next hinvalid =>
    refine ⟨[], by simp, .refused ?_⟩
    simp only [materializeInput, ne_eq, validateTenant_eq_none, not_not] at hinvalid
    rcases hinvalid with h | h | h | h
    · exact .inl h
    · exact .inr (.inl h)
    · exact .inr (.inl h)
    · exact .inr (.inr (.inl h))
  · next hinput =>
    dsimp only
    split
    · next hnil => exact ⟨[], by simp, .refused (.inr (.inr (.inr hnil)))⟩
    · next hsegments =>
      have hvalid : ¬ Refused m durable reply := by
        simp only [materializeInput, ne_eq, validateTenant_eq_none, not_not, not_or] at hinput
        rintro (h | h | h | h)
        · exact hinput.1 h
        · exact hinput.2.1 h
        · exact h hinput.2.2.2
        · exact hsegments h
      rw [show (materializeInput durable requestID traceID traceParent reply).payload = reply from
        rfl, hbatch, obeys_bind]
      refine (enqueueBatch_obeys m durable requestID traceID traceParent reply log).mono
        (fun _ _ => id) fun l r h => ?_
      obtain ⟨traces, given, pre, post, htraces, rfl⟩ := h
      cases r with
      | error err => exact ⟨_, rfl, .rejected hvalid traces htraces given err pre post⟩
      | ok rows => exact ⟨_, rfl, .stored hvalid traces htraces given rows pre post⟩

/-- What `finishDurable` performs. -/
theorem finishDurable_obeys (d : Dispatcher) (requestID traceID : String)
    (durable : DurableExecution) (terminalErr : Option Gateway.Err) (reply : String)
    (log : List (Entry x)) :
    (d.finishDurable (x := x) requestID traceID (some durable) terminalErr reply).Obeys Free
      (fun l _ => ∃ k, l = log ++ k ∧ Finished d requestID traceID durable reply terminalErr k)
      log := by
  unfold Dispatcher.finishDurable
  cases terminalErr with
  | some err =>
    simp only [obeys_bind, obeys_storeOp]
    exact ⟨trivial, fun pre r post _ => ⟨_, rfl, .failed err r pre post⟩⟩
  | none =>
    dsimp only
    rw [obeys_bind]
    unfold materializeReply
    split
    · next hm =>
      simp only [pure_eq, obeys_ret, obeys_bind, obeys_storeOp]
      exact ⟨trivial, fun pre r post _ => ⟨_, rfl, .silent (.inl hm) r pre post⟩⟩
    · next m hm =>
      split
      · next hblank =>
        simp only [pure_eq, obeys_ret, obeys_bind, obeys_storeOp]
        exact ⟨trivial, fun pre r post _ => ⟨_, rfl, .silent (.inr hblank) r pre post⟩⟩
      · next hreply =>
        simp only [obeys_bind, obeys_traceParentFromContext]
        refine ⟨trivial, fun pre0 traceParent post0 _ => ?_⟩
        refine (materialize_obeys m durable requestID traceID traceParent reply _).mono
          (fun _ _ => id) fun l r h => ?_
        obtain ⟨k, rfl, hk⟩ := h
        -- The first reading of the trace parent comes before those of `Materialize`.
        have htraces : ∀ traces : List (Entry x), Traces traces →
            Traces (traceEntry traceParent pre0 post0 :: traces) := fun traces h e he => by
          rcases List.mem_cons.1 he with rfl | he
          · exact ⟨traceParent, pre0, post0, rfl⟩
          · exact h e he
        cases hk with
        | refused hrefused =>
          simp only [pure_eq, obeys_ret, obeys_storeOp]
          refine ⟨trivial, fun pre r post _ => ⟨_, ?_, .refused m hm hreply hrefused _
            (htraces [] (by simp [Traces])) r pre post⟩⟩
          simp [traceEntry, releaseEntry]
        | rejected hvalid traces ht given err pre post =>
          simp only [pure_eq, obeys_ret, obeys_storeOp]
          refine ⟨trivial, fun pre' r post' _ => ⟨_, ?_, .rejected m hm hreply hvalid _
            (htraces traces ht) given err r pre post pre' post'⟩⟩
          simp [traceEntry, releaseEntry]
        | stored hvalid traces ht given rows pre post =>
          simp only [pure_eq, obeys_ret, obeys_storeOp]
          refine ⟨trivial, fun pre' r post' _ => ⟨_, ?_, .stored m hm hreply hvalid _
            (htraces traces ht) given rows r pre post pre' post'⟩⟩
          simp [traceEntry, releaseEntry]

end AgentService.Gateway
