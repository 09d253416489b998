import AgentService.Concurrent.Channel
import AgentService.Gateway.Streaming
import AgentService.Platform.System

/-!
# The output channel

The channel that `Dispatch` returns has 32 slots. `forward` writes to it, with writes that wait for
a free slot and writes that give up, and closes it when it returns; the consumer reads at its own
speed. As long as the context is not done, a call of `forward` writes events that are not final, and
at its end exactly one final event (`forward_shows`). Whether the consumer sees the final event
depends on how it was written: the one of a last runner event waits for a slot, but the one after a
closed stream and the one after a refused audit or handoff do not. `terminatedOnce_iff` says that
the consumer sees it exactly if a slot is free at that time, and `unfinishedStream` is a stream
whose consumer does not.
-/

namespace AgentService.Gateway

open Storage Platform Outbox Concurrent List Dispatcher

variable {x : Externals}

/-- The channel of `Dispatch`, of 32 slots: `sendDispatchEvent` waits for a slot,
`trySendDispatchEvent` does not. -/
def output : Port (platform x) DispatchEvent where
  item
    | .env (.send item) => some item
    | .env (.trySend item) => some item
    | _ => none
  waits
    | .env (.send _) => true
    | _ => false
  taken
    | .env (.send _), r => Option.isNone r
    | .env (.trySend _), r => r
    | _, _ => false
  capacity := 32

/-- The context is not done. -/
def Uncanceled : Entry x → Prop
  | ⟨.env .ctxErr, r, _, _⟩ | ⟨.env .select, r, _, _⟩ => Option.isNone r = true
  | _ => True

instance : DecidablePred (Uncanceled (x := x)) := fun e => by
  unfold Uncanceled
  split <;> infer_instance

/-- The consumer has read exactly one final event, as the last one. -/
def TerminatedOnce (received : List DispatchEvent) : Prop :=
  ∃ items last, received = items ++ [last] ∧ last.done = true ∧ ∀ item ∈ items, item.done = false

/-! ## What `forward` writes -/

/-- What can be seen of the output channel. -/
inductive OutMark where
  /-- An event is written with a wait. -/
  | sent (item : DispatchEvent)
  /-- An event is offered without a wait. -/
  | offered (item : DispatchEvent) (accepted : Bool)
  /-- The context is done. -/
  | cut

/-- What an entry shows of the output channel. -/
def outMark : Entry x → Option OutMark
  | ⟨.env (.send item), (none : Option CtxErr), _, _⟩ => some (.sent item)
  | ⟨.env (.send _), some _, _, _⟩ => some .cut
  | ⟨.env (.trySend item), accepted, _, _⟩ => some (.offered item accepted)
  | ⟨.env .ctxErr, some _, _, _⟩ | ⟨.env .select, some _, _, _⟩ => some .cut
  | _ => none

/-- Events that are not final, written with a wait. -/
def Going (m : List OutMark) : Prop :=
  ∀ mark ∈ m, ∃ item : DispatchEvent, mark = .sent item ∧ item.done = false

/-- Events that are not final, and a final event at the end. -/
inductive Ends : List OutMark → Prop
  /-- The last runner event: the final event waits for a slot. -/
  | last (m : List OutMark) (hm : Going m) (item : DispatchEvent) (hitem : item.done = true) :
      Ends (m ++ [.sent item])
  /-- The stream is closed: the final event does not wait. -/
  | closed (m : List OutMark) (hm : Going m) (item : DispatchEvent) (accepted : Bool)
      (hitem : item.done = true) : Ends (m ++ [.offered item accepted])
  /-- An audit or a handoff is refused: neither the error nor the final event waits. -/
  | refused (m : List OutMark) (hm : Going m) (error item : DispatchEvent) (shown accepted : Bool)
      (herror : error.done = false) (hitem : item.done = true) :
      Ends (m ++ [.offered error shown, .offered item accepted])

variable {m1 m2 : List OutMark}

theorem going_append : Going (m1 ++ m2) ↔ Going m1 ∧ Going m2 :=
  forall_mem_append

/-- Events before the end. -/
theorem Going.ends (h1 : Going m1) (h2 : Ends m2) : Ends (m1 ++ m2) := by
  cases h2 with
  | last m hm item hitem =>
    rw [← append_assoc]
    exact .last _ (going_append.2 ⟨h1, hm⟩) item hitem
  | closed m hm item accepted hitem =>
    rw [← append_assoc]
    exact .closed _ (going_append.2 ⟨h1, hm⟩) item accepted hitem
  | refused m hm error item shown accepted herror hitem =>
    rw [← append_assoc]
    exact .refused _ (going_append.2 ⟨h1, hm⟩) error item shown accepted herror hitem

/-- The dispatch events of a runner event: none of them is final, or only the last one is. -/
theorem mapRunnerEvent_split (event : Option RunnerEvent) (requestID traceID : String) :
    ∃ items : List DispatchEvent, (∀ item ∈ items, item.type ≠ .done ∧ item.done = false) ∧
      (mapRunnerEvent event requestID traceID = (items, false) ∨
        ∃ last : DispatchEvent, last.type = .done ∧ last.done = true ∧
          mapRunnerEvent event requestID traceID = (items ++ [last], true)) := by
  unfold mapRunnerEvent
  cases event.bind RunnerEvent.response with
  | none => exact ⟨_, by simp, .inl rfl⟩
  | some response =>
    dsimp only
    by_cases hfailed : response.failed = true
    · rw [if_pos hfailed]
      exact ⟨[_], by simp, .inr ⟨_, rfl, rfl, rfl⟩⟩
    rw [if_neg hfailed]
    -- The message of the response, if it has a text.
    have hmessage : ∀ item ∈ (if responseText response ≠ "" then
        [({ type := .message, requestID, traceID, text := responseText response } : DispatchEvent)]
        else []), item.type ≠ .done ∧ item.done = false := by
      split_ifs <;> simp
    generalize (if responseText response ≠ "" then
        [({ type := .message, requestID, traceID, text := responseText response } : DispatchEvent)]
        else []) = result at hmessage ⊢
    split_ifs with hdone hempty
    · exact ⟨result, hmessage, .inr ⟨_, rfl, rfl, rfl⟩⟩
    · exact ⟨[_], by simp, .inl rfl⟩
    · exact ⟨[_], by simp, .inl rfl⟩
    · exact ⟨result, hmessage, .inl rfl⟩

/-- The wait for the runner shows the context at most. -/
theorem awaitRunner_shows :
    (awaitRunner (x := x)).Shows outMark fun m r => .cut ∉ m → r = none ∧ m = [] := by
  refine .perform fun pre r post _ => ?_
  cases r with
  | some => exact .ret fun h => absurd (by simp [outMark]) h
  | none =>
    refine .call fun pre r post _ => .ret fun h => ?_
    cases r with
    | some => exact absurd (by simp [outMark]) h
    | none => exact ⟨rfl, rfl⟩

/-- The events of the first loop, except for the final ones, are written. -/
theorem sendItems_shows (done : Bool) (items : List DispatchEvent) (flow : Flow) :
    (sendItems (x := x) done items flow).Shows outMark fun m r => .cut ∉ m →
      r.2 = false ∧ m = (items.filter fun item => ¬ (done ∧ item.type = .done)).map .sent := by
  induction items generalizing flow with
  | nil => exact .ret fun _ => ⟨rfl, rfl⟩
  | cons _ _ ih =>
    unfold sendItems
    split
    · next hskip =>
      refine (ih flow).mono fun m r h hcut => ?_
      rw [filter_cons_of_neg (by simpa using hskip)]
      exact h hcut
    · next hsend =>
      refine .perform fun _ r _ _ => ?_
      cases r with
      | some => exact .ret fun h => absurd (by simp [outMark]) h
      | none =>
        refine (ih _).mono fun m r h hcut => ?_
        rw [filter_cons_of_pos (by simp only [decide_eq_true_eq]; exact hsend)]
        obtain ⟨hr, hm⟩ := h fun hmem => hcut (mem_append_right _ hmem)
        exact ⟨hr, by rw [hm]; rfl⟩

/-- The final events are written in the last loop. -/
theorem sendDone_shows (items : List DispatchEvent) :
    (sendDone (x := x) items).Shows outMark fun m _ => .cut ∉ m →
      m = (items.filter fun item => item.type = .done).map .sent := by
  induction items with
  | nil => exact .ret fun _ => rfl
  | cons _ _ ih =>
    unfold sendDone
    split
    · next hdone =>
      refine .perform fun _ r _ _ => ih.mono fun m _ h hcut => ?_
      rw [filter_cons_of_pos (by simpa using hdone)]
      cases r with
      | some => exact absurd (by simp [outMark]) hcut
      | none =>
        rw [h fun hmem => hcut (mem_append_right _ hmem)]
        rfl
    · next hskip =>
      refine ih.mono fun m _ h hcut => ?_
      rw [filter_cons_of_neg (by simpa using hskip)]
      exact h hcut

variable (d : Dispatcher) (e : Execution) (flow : Flow)

/-- The events after a refused audit or handoff do not wait. -/
theorem finishAuditFailure_shows :
    (finishAuditFailure (x := x) e).Shows outMark fun m _ => Ends m :=
  .perform fun _ r _ _ => .perform fun _ r' _ _ => .ret
    (.refused [] (by simp [Going]) _ _ r r' rfl rfl)

/-- An audit does not reach the output channel. -/
theorem finalizeAudit_silent (auditFinalized : Bool) (eventType : Audit.EventType)
    (errorType : String) :
    (d.finalizeAudit (x := x) e auditFinalized eventType errorType).Shows outMark
      fun m _ => m = [] := by
  refine Program.Every.shows_nil ?_
  unfold finalizeAudit
  split
  · trivial
  · refine .bind ?_ fun r => by split <;> trivial
    unfold writeExecutionAudit writeExecutionAuditRevision
    split
    · trivial
    · refine .bind ⟨fun _ _ _ => rfl, fun _ => trivial⟩ fun _ =>
        .bind ⟨fun _ _ _ => rfl, fun _ => trivial⟩ fun r => ?_
      split <;> trivial

/-- A handoff does not reach the output channel. -/
theorem finalizeHandoff_silent (result : Audit.ExecutionResult) (errorType : String) :
    (d.finalizeHandoff (x := x) e result errorType).Shows outMark fun m _ => m = [] := by
  refine Program.Every.shows_nil ?_
  unfold finalizeHandoff
  split
  · trivial
  · exact .bind ⟨fun _ _ _ => rfl, fun _ => trivial⟩ fun r => by split <;> trivial

/-- `handleForwardStreamClosed` ends the stream. -/
theorem handleForwardStreamClosed_shows :
    (d.handleForwardStreamClosed (x := x) e flow).Shows outMark fun m _ => Ends m := by
  have hrefused : ∀ flow : Flow, (do finishAuditFailure e; return flow : Code x Flow).Shows outMark
      fun m _ => Ends m := fun flow =>
    (finishAuditFailure_shows e).bind fun m _ hm => .ret (by simpa using hm)
  refine (finalizeAudit_silent d e flow.auditFinalized .executionCompleted "").bind ?_
  rintro _ ⟨_, _⟩ rfl
  dsimp only
  split
  · exact hrefused _
  refine (finalizeHandoff_silent d e .success "").bind ?_
  rintro _ r rfl
  split
  · exact hrefused _
  · exact .perform fun _ accepted _ _ => .ret
      (.closed [] (by simp [Going]) _ accepted rfl)

/-- `handleForwardRunnerEvent` writes the events of a runner event, and the last one ends the
stream. -/
def Handles (m : List OutMark) (r : Flow × Bool) : Prop := if r.2 then Ends m else Going m

/-- The loops of `handleForwardRunnerEvent` over events without a final one. -/
theorem forwardItems_shows {items : List DispatchEvent}
    (hitems : ∀ item ∈ items, item.type ≠ .done ∧ item.done = false) (flow : Flow) :
    (d.forwardItems (x := x) e items false flow).Shows outMark fun m r => .cut ∉ m →
      Handles m r := by
  refine (sendItems_shows false items flow).bind ?_
  rintro m ⟨flow, _⟩ hm
  dsimp only
  split
  · next h => exact .of_forall (fun _ a hcut => absurd (hm fun hmem =>
      hcut (mem_append_left _ hmem)).1 (by simp [h])) _
  rw [if_pos (by simp)]
  refine .ret fun hcut => ?_
  obtain ⟨-, rfl⟩ := hm fun hmem => hcut (mem_append_left _ hmem)
  show Going _
  intro _ hmark
  simp only [append_nil, mem_map, mem_filter] at hmark
  obtain ⟨item, ⟨hitem, -⟩, rfl⟩ := hmark
  exact ⟨item, rfl, (hitems item hitem).2⟩

/-- The loops of `handleForwardRunnerEvent` over events with a final one. -/
theorem forwardItems_last_shows {items : List DispatchEvent}
    (hitems : ∀ item ∈ items, item.type ≠ .done ∧ item.done = false) {last : DispatchEvent}
    (htype : last.type = .done) (hlast : last.done = true) (flow : Flow) :
    (d.forwardItems (x := x) e (items ++ [last]) true flow).Shows outMark fun m r => .cut ∉ m →
      Handles m r := by
  have hfilter : (items ++ [last]).filter (fun item => item.type = .done) = [last] := by
    rw [filter_append, filter_eq_nil_iff.2 fun item hitem => by
      simpa using (hitems item hitem).1]
    simp [htype]
  have hrest : (items ++ [last]).filter (fun item => ¬ (true = true ∧ item.type = .done)) =
      items := by
    rw [filter_append, filter_eq_self.2 fun item hitem => by
      simpa using (hitems item hitem).1]
    simp [htype]
  have hgoing : Going (items.map .sent) := by
    intro _ hmark
    obtain ⟨item, hitem, rfl⟩ := mem_map.1 hmark
    exact ⟨item, rfl, (hitems item hitem).2⟩
  refine (sendItems_shows true (items ++ [last]) flow).bind ?_
  rintro m ⟨flow, _⟩ hm
  rw [hrest] at hm
  dsimp only
  split
  · next h => exact .of_forall (fun m' a hcut => absurd (hm fun hmem =>
      hcut (mem_append_left _ hmem)).1 (by simp [h])) _
  rw [if_neg (by simp)]
  refine (finalizeHandoff_silent d e _ _).bind ?_
  rintro _ r rfl
  split
  · refine (finishAuditFailure_shows e).bind fun m' _ hm' => .ret fun hcut => ?_
    obtain ⟨-, rfl⟩ := hm fun hmem => hcut (mem_append_left _ hmem)
    show Ends _
    simpa using hgoing.ends hm'
  · refine (sendDone_shows (items ++ [last])).bind fun m' _ hm' => .ret fun hcut => ?_
    obtain ⟨-, rfl⟩ := hm fun hmem => hcut (mem_append_left _ hmem)
    have hm'' := hm' fun hmem => hcut (by simp [hmem])
    rw [hfilter] at hm''
    subst hm''
    show Ends _
    simpa using Ends.last _ hgoing last hlast

/-- `handleForwardRunnerEvent`. -/
theorem handleForwardRunnerEvent_shows (event : Option RunnerEvent) (flow : Flow) :
    (d.handleForwardRunnerEvent (x := x) e event flow).Shows outMark fun m r => .cut ∉ m →
      Handles m r := by
  unfold handleForwardRunnerEvent
  obtain ⟨_, hitems, hmap | ⟨_, htype, hlast, hmap⟩⟩ :=
    mapRunnerEvent_split event e.requestID e.traceID
  · rw [hmap]
    exact forwardItems_shows d e hitems flow
  · rw [hmap]
    dsimp only
    rw [if_pos rfl]
    refine (finalizeAudit_silent d e _ _ _).bind ?_
    rintro _ ⟨_, _⟩ rfl
    dsimp only
    split
    · exact (finishAuditFailure_shows e).bind fun m _ hm => .ret fun _ => by simpa [Handles] using hm
    · exact forwardItems_last_shows d e hitems htype hlast _

variable (events : List (Option RunnerEvent))

/-- The loop of `forward` ends the stream. -/
theorem forwardLoop_shows (flow : Flow) :
    (d.forwardLoop (x := x) e events flow).Shows outMark fun m _ => .cut ∉ m → Ends m := by
  induction events generalizing flow with
  | nil =>
    refine awaitRunner_shows.bind fun m r hm => ?_
    cases r with
    | some =>
      exact .of_forall (fun m' a hcut => absurd (hm fun hmem =>
        hcut (mem_append_left _ hmem)).1 (by simp)) _
    | none =>
      refine (handleForwardStreamClosed_shows d e flow).mono fun m' a hm' hcut => ?_
      rw [(hm fun hmem => hcut (mem_append_left _ hmem)).2]
      exact hm'
  | cons event _ ih =>
    refine awaitRunner_shows.bind fun m r hm => ?_
    cases r with
    | some =>
      exact .of_forall (fun m' a hcut => absurd (hm fun hmem =>
        hcut (mem_append_left _ hmem)).1 (by simp)) _
    | none =>
      refine (handleForwardRunnerEvent_shows d e event flow).bind ?_
      rintro m' ⟨flow, finished⟩ hm'
      cases finished with
      | true =>
        refine .ret fun hcut => ?_
        rw [(hm fun hmem => hcut (mem_append_left _ hmem)).2]
        simpa [Handles] using hm' fun hmem => hcut (by simp [hmem])
      | false =>
        refine (ih flow).mono fun _ a hm'' hcut => ?_
        rw [(hm fun hmem => hcut (mem_append_left _ hmem)).2]
        have hgoing : Going m' := hm' fun hmem => hcut (by simp [hmem])
        exact hgoing.ends (hm'' fun hmem => hcut (by simp [hmem]))

/-- The end of an event does not reach the output channel. -/
theorem Finished.silent_output {d : Dispatcher} {requestID traceID reply : String}
    {durable : DurableExecution} {err : Option Gateway.Err} {k : List (Entry x)}
    (h : Finished d requestID traceID durable reply err k) : k.filterMap outMark = [] := by
  have htraces : ∀ traces : List (Entry x), Traces traces → traces.filterMap outMark = [] := by
    intro traces htraces
    refine filterMap_eq_nil_iff.2 fun entry hentry => ?_
    obtain ⟨traceParent, pre, post, rfl⟩ := htraces entry hentry
    rfl
  have henqueue : ∀ (m : Materializer) traceParent r pre post,
      outMark (enqueueEntry m durable requestID traceID reply traceParent r pre post : Entry x) =
        none := by
    intro m traceParent r pre post
    unfold enqueueEntry
    split_ifs <;> rfl
  cases h with
  | failed | silent => rfl
  | refused _ _ _ _ traces ht =>
    rw [filterMap_append, htraces traces ht]
    rfl
  | rejected m hm hreply hvalid traces ht | stored m hm hreply hvalid traces ht =>
    rw [filterMap_append, htraces traces ht, filterMap_cons_none (henqueue ..)]
    rfl

/-- `finalizeForward` does not reach the output channel. -/
theorem finalizeForward_silent :
    (d.finalizeForward (x := x) e flow).Shows outMark fun m _ => m = [] := by
  refine (finalizeHandoff_silent d e _ _).bind ?_
  rintro _ r rfl
  refine (finalizeAudit_silent d e _ _ _).bind ?_
  rintro _ ⟨_, _⟩ rfl
  have hfinish : ∀ terminalErr : Option Gateway.Err,
      (d.finishDurable (x := x) e.requestID e.traceID e.durable terminalErr flow.reply).Shows outMark
        fun m _ => m = [] := by
    intro terminalErr
    cases e.durable with
    | none => exact .ret rfl
    | some durable =>
      intro log
      refine (finishDurable_obeys d _ _ durable terminalErr _ log).mono (fun _ _ => id) ?_
      rintro l a ⟨k, rfl, hk⟩
      exact ⟨k, rfl, hk.silent_output⟩
  refine (hfinish _).bind ?_
  rintro _ - rfl
  exact .ret rfl

/-- Unless the context is done, `forward` writes events that are not final, and a final one at
the end. -/
theorem forward_shows :
    (d.forward (x := x) e events).Shows outMark fun m _ => .cut ∉ m → Ends m := by
  refine (forwardLoop_shows d e events {}).bind fun m flow hm => ?_
  refine (finalizeForward_silent d e flow).mono ?_
  rintro _ a rfl
  simpa using hm

/-! ## What the consumer reads -/

/-- What an event that shows on the output channel has put into it. -/
def OutMark.item : OutMark → Option DispatchEvent
  | .sent item => some item
  | .offered item accepted => if accepted then some item else none
  | .cut => none

/-- What is put into the channel shows. -/
theorem put_eq (entry : Entry x) : output.put entry = (outMark entry).bind OutMark.item := by
  obtain ⟨o, r, _, _⟩ := entry
  cases o with
  | env o =>
    cases o with
    | send => cases r <;> rfl
    | trySend => rfl
    | ctxErr => cases r <;> rfl
    | select => cases r <;> rfl
    | _ => rfl
  | _ => rfl

variable {m : List OutMark}

/-- The items of events that are not final. -/
theorem Going.items (h : Going m) : ∀ item ∈ m.filterMap OutMark.item, item.done = false := by
  intro item hitem
  obtain ⟨mark, hmark, heq⟩ := mem_filterMap.1 hitem
  obtain ⟨_, rfl, hdone⟩ := h mark hmark
  cases heq
  exact hdone

/-- Only written events come before the end. -/
theorem Going.not_offered (h : Going m) (item : DispatchEvent)
    (accepted : Bool) : .offered item accepted ∉ m := by
  intro hmem
  obtain ⟨_, heq, -⟩ := h _ hmem
  cases heq

/-- Without a final event a stream is not terminated. -/
theorem not_terminatedOnce {items : List DispatchEvent} (h : ∀ item ∈ items, item.done = false) :
    ¬ TerminatedOnce items := by
  rintro ⟨_, last, rfl, hlast, -⟩
  rw [h last (by simp)] at hlast
  cases hlast

/-- A stream with an end is terminated exactly if its final event was accepted, where it was only
offered. -/
theorem Ends.once_iff (h : Ends m) : TerminatedOnce (m.filterMap OutMark.item) ↔
      ∀ item accepted, .offered item accepted ∈ m → item.done = true → accepted = true := by
  cases h with
  | last m hm item hitem =>
    refine iff_of_true ⟨m.filterMap OutMark.item, item, ?_, hitem, hm.items⟩ ?_
    · rw [filterMap_append]
      rfl
    · intro item' accepted hmem
      have hmem' : .offered item' accepted ∈ m := by simpa using hmem
      exact absurd hmem' (hm.not_offered item' accepted)
  | closed m hm item accepted hitem =>
    rw [filterMap_append]
    cases accepted with
    | true =>
      refine iff_of_true ⟨m.filterMap OutMark.item, item, rfl, hitem, hm.items⟩ ?_
      intro item' accepted hmem hdone
      rcases mem_append.1 hmem with hmem | hmem
      · exact absurd hmem (hm.not_offered item' accepted)
      · cases mem_singleton.1 hmem
        rfl
    | false =>
      refine iff_of_false ?_ fun hall => by simpa using hall item false (by simp) hitem
      have hnil : [OutMark.offered item false].filterMap OutMark.item = [] := rfl
      rw [hnil, append_nil]
      exact not_terminatedOnce hm.items
  | refused m hm error item shown accepted herror hitem =>
    -- Whether the error was accepted makes no difference.
    have hfront : ∀ item ∈ (m ++ [OutMark.offered error shown]).filterMap OutMark.item,
        item.done = false := by
      rw [filterMap_append]
      intro item' hmem
      rcases mem_append.1 hmem with hmem | hmem
      · exact hm.items item' hmem
      · cases shown with
        | false => cases hmem
        | true => rwa [mem_singleton.1 hmem]
    have hsplit : m ++ [OutMark.offered error shown, .offered item accepted] =
        (m ++ [.offered error shown]) ++ [.offered item accepted] := by simp
    rw [hsplit, filterMap_append]
    cases accepted with
    | true =>
      refine iff_of_true ⟨_, item, rfl, hitem, hfront⟩ ?_
      intro item' accepted hmem hdone
      rcases mem_append.1 hmem with hmem | hmem
      · rcases mem_append.1 hmem with hmem | hmem
        · exact absurd hmem (hm.not_offered item' accepted)
        · cases mem_singleton.1 hmem
          rw [herror] at hdone
          cases hdone
      · cases mem_singleton.1 hmem
        rfl
    | false =>
      refine iff_of_false ?_ fun hall => by simpa using hall item false (by simp) hitem
      have hnil : [OutMark.offered item false].filterMap OutMark.item = [] := rfl
      rw [hnil, append_nil]
      exact not_terminatedOnce hfront

/-- At most the last event is final. -/
def FinalLast (items : List DispatchEvent) : Prop :=
  items.Pairwise fun item _ => item.done = false

/-- Nothing is shown after a final event. -/
theorem Ends.finalLast (h : Ends m1) : FinalLast (m1.filterMap OutMark.item) := by
  have hfront : ∀ {m last}, Going m → FinalLast (last.filterMap OutMark.item) →
      FinalLast ((m ++ last).filterMap OutMark.item) := fun hm hlast => by
    rw [FinalLast, filterMap_append, pairwise_append]
    exact ⟨pairwise_of_forall_mem_list fun a ha _ _ => hm.items a ha, hlast,
      fun a ha _ _ => hm.items a ha⟩
  cases h with
  | last _ hm => exact hfront hm (pairwise_singleton _ _)
  | closed _ hm _ accepted =>
    exact hfront hm (by cases accepted <;> simp [FinalLast, OutMark.item])
  | refused _ hm _ _ shown accepted herror =>
    exact hfront hm (by cases shown <;> cases accepted <;> simp [FinalLast, OutMark.item, herror])

section Runs

variable {p : Code x (Option Gateway.Err)} {c : Pipe (platform x) (Option Gateway.Err) DispatchEvent}

section

variable (hc : Pipe.Runs output Uncanceled (Pipe.start p) c)

include hc

/-- In a run under a context that is not done nothing is cut off. -/
theorem cut_not_mem : .cut ∉ c.log.filterMap outMark := by
  intro hcut
  obtain ⟨entry, hentry, hmark⟩ := mem_filterMap.1 hcut
  obtain ⟨⟨entry, _⟩, hmem, rfl⟩ := mem_map.1 hentry
  obtain ⟨huncanceled, hanswers⟩ := Pipe.answers_of_mem hc hmem
  dsimp only at hmark
  unfold outMark at hmark
  split at hmark <;> cases hmark
  · exact absurd (hanswers rfl).2 (by simp [output])
  · cases huncanceled
  · cases huncanceled

/-- An event that is offered is accepted exactly if a slot is free. -/
theorem offered_mem_iff {item : DispatchEvent}
    {accepted : Bool} : .offered item accepted ∈ c.log.filterMap outMark ↔
      ∃ st ∈ c.history, st.1.op = .env (.trySend item) ∧ accepted = decide (st.2.length < 32) := by
  constructor
  · intro hmem
    obtain ⟨entry, hentry, hmark⟩ := mem_filterMap.1 hmem
    obtain ⟨⟨entry, buffer⟩, hmem, rfl⟩ := mem_map.1 hentry
    obtain ⟨-, hanswers⟩ := Pipe.answers_of_mem hc hmem
    refine ⟨_, hmem, ?_⟩
    dsimp only at hmark ⊢
    unfold outMark at hmark
    split at hmark <;> cases hmark
    exact ⟨rfl, hanswers rfl⟩
  · rintro ⟨⟨⟨o, r, _, _⟩, buffer⟩, hmem, hop, rfl⟩
    obtain rfl : o = .env (.trySend item) := hop
    obtain ⟨-, hanswers⟩ := Pipe.answers_of_mem hc hmem
    refine mem_filterMap.2 ⟨_, mem_map_of_mem hmem, ?_⟩
    have hr : r = decide (buffer.length < 32) := hanswers rfl
    rw [← hr]
    rfl

end

end Runs

/-- Every operation can be answered under a context that is not done. -/
theorem answerable : Pipe.Answerable (output (x := x)) Uncanceled := by
  intro o buffer hroom
  let choice : Choice := { sent := decide (buffer.length < 32) }
  let pre : State := { clock := 0, store := {} }
  cases o with
  | env o =>
    cases o with
    | send =>
      exact ⟨pre, (none : Option CtxErr), pre, ⟨choice, rfl⟩, trivial, fun _ => ⟨hroom rfl, rfl⟩⟩
    | trySend =>
      exact ⟨pre, decide (buffer.length < 32), pre, ⟨choice, rfl⟩, trivial, fun _ => rfl⟩
    | ctxErr | select =>
      exact ⟨pre, (none : Option CtxErr), pre, ⟨choice, rfl⟩, rfl, Port.answers_of_item_eq_none rfl⟩
    | _ => exact ⟨pre, _, pre, ⟨choice, rfl⟩, trivial, Port.answers_of_item_eq_none rfl⟩
  | store ctx o =>
    have hctx : choice.interrupts ctx = none := by cases ctx <;> rfl
    obtain ⟨⟨r, store⟩, happly⟩ : ∃ r, o.apply x none 0 {} = some r := by
      cases o with
      | listReplyCandidates =>
        simp only [StoreOp.apply]
        split
        · exact ⟨_, rfl⟩
        · exact ⟨_, rfl⟩
      | _ => exact ⟨_, rfl⟩
    refine ⟨pre, r, { pre with store }, ⟨choice, ?_⟩, trivial, Port.answers_of_item_eq_none rfl⟩
    have hperform : perform x (.store ctx o) choice pre =
        (o.apply x none 0 {}).map fun r => (r.1, { pre with store := r.2 }) := by
      simp only [perform, hctx]
      rfl
    exact hperform.trans (congrArg _ happly)
  | now => exact ⟨pre, _, pre, ⟨choice, rfl⟩, trivial, Port.answers_of_item_eq_none rfl⟩
  | append ctx | reserve ctx | finalize ctx =>
    exact ⟨pre, _, _, ⟨choice, by cases ctx <;> rfl⟩, trivial, Port.answers_of_item_eq_none rfl⟩

/-- From each of its points a stream can come to its end, and wherever it ends, its consumer has
read nothing after a final event. -/
theorem forward_ends {d : Dispatcher} {e : Execution} {events : List (Option RunnerEvent)}
    {c : Pipe (platform x) (Option Gateway.Err) DispatchEvent}
    (hc : Pipe.Runs output Uncanceled (Pipe.start (d.forward e events)) c) :
    (∃ c' err, Pipe.Runs output Uncanceled c c' ∧ c'.Finished err) ∧
      ∀ err, c.Finished err → FinalLast c.received := by
  refine ⟨Pipe.completes answerable (Nat.succ_pos 31) c, fun err hfinished => ?_⟩
  have hends := (hfinished.shows (forward_shows d e events) hc (cut_not_mem hc)).finalLast
  rwa [filterMap_filterMap, ← funext put_eq, ← hfinished.received hc] at hends

/-- A consumer that reads the channel until it is closed, under a context that is never done, reads
exactly one final event, as the last one, exactly if a slot is free whenever `forward` offers a
final event without a wait. -/
theorem terminatedOnce_iff {d : Dispatcher} {e : Execution} {events : List (Option RunnerEvent)}
    {c : Pipe (platform x) (Option Gateway.Err) DispatchEvent}
    (hc : Pipe.Runs output Uncanceled (Pipe.start (d.forward e events)) c)
    {err : Option Gateway.Err} (hfinished : c.Finished err) :
    TerminatedOnce c.received ↔ ∀ st ∈ c.history, ∀ item : DispatchEvent,
      st.1.op = .env (.trySend item) → item.done = true → st.2.length < 32 := by
  have hends := hfinished.shows (forward_shows d e events) hc (cut_not_mem hc)
  have hreceived : c.received = (c.log.filterMap outMark).filterMap OutMark.item := by
    rw [hfinished.received hc, filterMap_filterMap]
    exact congrArg (c.log.filterMap ·) (funext put_eq)
  rw [hreceived, hends.once_iff]
  constructor
  · intro h st hst item hop hdone
    have := h item _ ((offered_mem_iff hc).2 ⟨st, hst, hop, rfl⟩) hdone
    simpa using this
  · intro h item accepted hmem hdone
    obtain ⟨st, hst, hop, rfl⟩ := (offered_mem_iff hc).1 hmem
    simpa using h st hst item hop hdone

/-! ## A stream without an end -/

/-- A dispatcher without stores. -/
def bareDispatcher : Dispatcher := { runtimeStore := false, materializer := none }

/-- An execution without an event. -/
def bareExecution : Execution :=
  { requestID := "req", traceID := "trace", durable := none
    principal := { kind := .channel, tenantID := "t", appID := "app", subjectID := "b",
                   target := { bindingID := "b", channel := "c" } }
    message := { content := "hi", externalMessageID := "m", externalUserID := "u",
                 conversationKind := .direct, externalPeerID := "p", externalChatID := "",
                 externalThreadID := "" }
    identity := ⟨"u", "s"⟩ }

/-- The program takes a number of steps; what it offers in them is sent, or not. -/
def produce (sent : Bool) (n : ℕ) : List (Pipe.Action (platform plainExternals)) :=
  List.replicate n (.write { clock := 0, store := {} } { sent := sent })

/-- The consumer takes a number of steps. -/
def consume (n : ℕ) : List (Pipe.Action (platform plainExternals)) := List.replicate n .read

/-- A stream of 32 runner events without a response, which is closed then. -/
def silentStream : List (Option RunnerEvent) := List.replicate 32 none

/-- The stream can come to its end. -/
theorem forward_ends_silentStream : ∃ c' err, Pipe.Runs (output (x := plainExternals)) Uncanceled
    (Pipe.start (bareDispatcher.forward bareExecution silentStream)) c' ∧ c'.Finished err ∧
      FinalLast c'.received := by
  obtain ⟨c', err, hrun, hfinished⟩ := (forward_ends .refl).1
  exact ⟨c', err, hrun, hfinished, (forward_ends hrun).2 err hfinished⟩

/-- The consumer reads nothing until the program has returned: all slots are taken when the stream
is closed, and the final event is lost. -/
theorem unfinishedStream : ∃ c : Pipe (platform plainExternals) (Option Gateway.Err) DispatchEvent,
    Pipe.Runs output Uncanceled (Pipe.start (bareDispatcher.forward bareExecution silentStream)) c ∧
      c.Finished none ∧ c.received.length = 32 ∧ ¬ TerminatedOnce c.received := by
  obtain ⟨c, hc, hresult, hbuffer, hlength, hdone⟩ := Pipe.exists_runs_of_run output Uncanceled
    (Pipe.start (bareDispatcher.forward bareExecution silentStream)) (produce false 99 ++ consume 32)
    (fun c => c.result = some none ∧ c.buffer = [] ∧ c.received.length = 32 ∧
      ∀ item ∈ c.received, item.done = false) (by decide +kernel)
  exact ⟨c, hc, Pipe.finished_of_result hresult hbuffer, hlength, not_terminatedOnce hdone⟩

/-- The consumer reads one event before the stream is closed, and reads the final event too. -/
theorem terminatedOnce_oneRead :
    ∃ c : Pipe (platform plainExternals) (Option Gateway.Err) DispatchEvent,
      Pipe.Runs output Uncanceled
        (Pipe.start (bareDispatcher.forward bareExecution silentStream)) c ∧
      c.Finished none ∧ TerminatedOnce c.received := by
  obtain ⟨c, hc, hresult, hbuffer, hroom⟩ := Pipe.exists_runs_of_run output Uncanceled
    (Pipe.start (bareDispatcher.forward bareExecution silentStream))
    (produce true 98 ++ consume 1 ++ produce true 1 ++ consume 32)
    (fun c => c.result = some none ∧ c.buffer = [] ∧ ∀ st ∈ c.history,
      ∀ item ∈ output.item st.1.op, item.done = true → st.2.length < 32) (by decide +kernel)
  have hfinished := Pipe.finished_of_result hresult hbuffer
  refine ⟨c, hc, hfinished, (terminatedOnce_iff hc hfinished).2 fun st hst item hop hdone => ?_⟩
  exact hroom st hst item (by rw [hop]; rfl) hdone

end AgentService.Gateway
