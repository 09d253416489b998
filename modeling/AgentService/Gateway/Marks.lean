import AgentService.Gateway.Streaming

/-!
# What a call of `forward` streams, stores, and marks

Three readings of the log of `forward`. Only `finishDurable` at its end reaches the store, and where
the call returns no error the reply that it stores is the text which was streamed
(`Forwarded.finished`). The marks of the log tell how the stream ended and which writes of the
outcome were accepted; a stream that ended badly leaves an error (`Forwarded.err_of_endedBadly`).
-/

namespace AgentService.Gateway

open Storage Platform Outbox Concurrent List

variable {x : Externals}

/-! ## What a call streams and what it stores -/

/-- An operation of the runtime store. -/
def IsStore (o : Op) : Prop := ∃ ctx so, o = .store ctx so

/-- Steps that neither reach the store nor send a message. -/
def Quiet (k : List (Entry x)) : Prop :=
  ∀ entry ∈ k, ¬ IsStore entry.op ∧ sentText entry = ""

/-- Nothing is streamed by quiet steps. -/
theorem Quiet.streamed {k : List (Entry x)} (h : Quiet k) : streamed k = "" := by
  induction k with
  | nil => exact streamed_nil
  | cons entry k ih =>
    rw [streamed_cons, (h entry mem_cons_self).2, ih fun e he => h e (mem_cons_of_mem _ he)]
    rfl

section Quiet

variable {d : Dispatcher} {e : Execution} {k : List (Entry x)}

/-- The audit is quiet. -/
theorem Audits.quiet {eventType : Audit.EventType} {errorType : String} {err : Option Audit.Err}
    (h : Audits d e eventType errorType k err) : Quiet k := by
  cases h with
  | off => simp [Quiet]
  | on => simp [Quiet, IsStore, sentText]

/-- The handoff is quiet. -/
theorem HandsOff.quiet {result : Audit.ExecutionResult} {errorType : String}
    {err : Option Audit.Err} (h : HandsOff d e result errorType k err) : Quiet k := by
  cases h with
  | off => simp [Quiet]
  | on => simp [Quiet, IsStore, sentText]

/-- Notices are quiet. -/
theorem quiet_of_notices (h : ∀ entry ∈ k, Notice entry) : Quiet k := by
  intro entry hentry
  refine ⟨?_, ?_⟩
  · rintro ⟨_, o, ho⟩
    cases h entry hentry <;> cases ho
  · cases h entry hentry with
    | tried item hitem r => cases r <;> simp [sentText, hitem]
    | final item hitem r => cases r <;> simp [sentText, hitem]

/-- The audit of `finalizeForward` is quiet. -/
theorem AuditsOnce.quiet {flow : Flow} {err : Option Audit.Err}
    (h : AuditsOnce d e flow k err) : Quiet k := by
  unfold AuditsOnce at h
  split_ifs at h
  · simp [h.1, Quiet]
  · exact h.quiet

/-- The end of a wait is quiet. -/
theorem Stops.quiet {cause : CtxErr} (h : Stops cause k) : Quiet k := by
  cases h with
  | done => simp [Quiet, IsStore, sentText]
  | selected => simp [Quiet, IsStore, sentText]

end Quiet

/-- Steps that do not reach the store. -/
def StoreFree (k : List (Entry x)) : Prop := ∀ entry ∈ k, ¬ IsStore entry.op

theorem Quiet.storeFree {k : List (Entry x)} (h : Quiet k) : StoreFree k :=
  fun entry hentry => (h entry hentry).1

@[simp] theorem storeFree_append {k1 k2 : List (Entry x)} :
    StoreFree (k1 ++ k2) ↔ StoreFree k1 ∧ StoreFree k2 := forall_mem_append

/-- Sending does not reach the store. -/
theorem storeFree_of_sends {k : List (Entry x)} (h : ∀ entry ∈ k, Sends entry) : StoreFree k := by
  rintro entry hentry ⟨_, o, ho⟩
  obtain ⟨_, _, _, rfl⟩ := h entry hentry
  cases ho

theorem storeFree_cutEntry (item : DispatchEvent) (cause : CtxErr) (pre post : State) :
    StoreFree [(cutEntry item cause pre post : Entry x)] := by
  simp [StoreFree, IsStore, cutEntry]

/-- A stream does not reach the store. -/
theorem Streamed.storeFree {n : ℕ} {text : String} {l : List (Entry x)}
    (h : Streamed n text l) : StoreFree l := by
  rintro entry hentry ⟨_, o, ho⟩
  cases h.streams entry hentry <;> cases ho

/-- The end of an event sends nothing. -/
theorem Finished.streamed {d : Dispatcher} {requestID traceID reply : String}
    {durable : DurableExecution} {err : Option Gateway.Err} {k : List (Entry x)}
    (h : Finished d requestID traceID durable reply err k) : streamed k = "" := by
  have htraces : ∀ traces : List (Entry x), Traces traces → Gateway.streamed traces = "" := by
    intro traces htraces
    refine Quiet.streamed fun entry hentry => ?_
    obtain ⟨traceParent, pre, post, rfl⟩ := htraces entry hentry
    exact ⟨by simp [IsStore, traceEntry], rfl⟩
  have hsent : ∀ (m : Materializer) traceParent r pre post,
      sentText (enqueueEntry m durable requestID traceID reply traceParent r pre post : Entry x) =
        "" := by
    intro m traceParent r pre post
    unfold enqueueEntry
    split_ifs <;> rfl
  cases h with
  | failed | silent => rfl
  | refused _ _ _ _ traces ht =>
    rw [streamed_append, htraces traces ht]
    rfl
  | rejected m hm hreply hvalid traces ht | stored m hm hreply hvalid traces ht =>
    rw [streamed_append, htraces traces ht, streamed_cons, hsent]
    rfl

section Loop

variable {d : Dispatcher} {e : Execution} {events : List (Option RunnerEvent)}
  {k l : List (Entry x)} {flow : Flow}

/-- Writing a verdict does not reach the store. -/
theorem Closing.storeFree {v : Verdict} {last : Bool} {text : String}
    (h : Closing d e v last text k flow) : StoreFree k := by
  cases h with
  | unaudited _ _ _ haudit hnotices =>
    exact storeFree_append.2 ⟨haudit.quiet.storeFree, (quiet_of_notices hnotices).storeFree⟩
  | cut _ _ haudit hsends _ item _ cause pre post =>
    simp only [storeFree_append]
    exact ⟨haudit.quiet.storeFree, storeFree_of_sends hsends, storeFree_cutEntry item cause pre post⟩
  | unhanded _ _ _ _ _ haudit hsends hhandoff hnotices =>
    simp only [storeFree_append]
    exact ⟨haudit.quiet.storeFree, storeFree_of_sends hsends, hhandoff.quiet.storeFree,
      (quiet_of_notices hnotices).storeFree⟩
  | written _ _ _ _ haudit hsends hhandoff hnotices =>
    simp only [storeFree_append]
    exact ⟨haudit.quiet.storeFree, storeFree_of_sends hsends, hhandoff.quiet.storeFree,
      (quiet_of_notices hnotices).storeFree⟩

/-- Where a verdict leaves no error, the reply is what was sent. -/
theorem Closing.reply {v : Verdict} {last : Bool} {text : String}
    (h : Closing d e v last text k flow) (hflow : flow.terminalErr = none) :
    flow.reply = text ++ streamed k := by
  cases h with
  | unaudited | cut | unhanded => cases hflow
  | written _ _ _ _ haudit _ hhandoff hnotices =>
    rw [streamed_append, streamed_append, streamed_append, haudit.quiet.streamed,
      hhandoff.quiet.streamed, (quiet_of_notices hnotices).streamed, String.empty_append,
      String.append_empty, String.append_empty]
    rfl

/-- The loop does not reach the store. -/
theorem Looped.storeFree (h : Looped d e events l flow) : StoreFree l := by
  cases h with
  | canceled _ _ _ _ _ hstart _ hwait _ hk =>
    simp only [storeFree_append]
    exact ⟨hstart.storeFree, hwait.quiet.storeFree, hk.storeFree⟩
  | closed _ _ _ hstart _ hk => exact storeFree_append.2 ⟨hstart.storeFree, hk.storeFree⟩
  | last _ _ _ _ _ _ _ hstart _ hk =>
    exact storeFree_append.2 ⟨hstart.storeFree, hk.storeFree⟩
  | cut _ _ _ _ _ _ hstart item _ cause pre post =>
    exact storeFree_append.2 ⟨hstart.storeFree, storeFree_cutEntry item cause pre post⟩

/-- Where the loop ends without an error, the reply is what was streamed. -/
theorem Looped.reply (h : Looped d e events l flow) (hflow : flow.terminalErr = none) :
    flow.reply = streamed l := by
  cases h with
  | canceled _ _ _ _ _ hstart _ hwait _ hk =>
    rw [hk.reply hflow, streamed_append, streamed_append, hstart.text, hwait.quiet.streamed,
      String.empty_append]
  | closed _ _ _ hstart _ hk => rw [hk.reply hflow, streamed_append, hstart.text]
  | last _ _ _ _ _ _ _ hstart _ hk =>
    rw [hk.reply hflow, streamed_append, hstart.text]
  | cut => cases hflow

/-- What `forward` stores is what `finishDurable` stores, and where it returns no error that is the
text which was streamed. -/
theorem Forwarded.finished {durable : DurableExecution} {err : Option Gateway.Err}
    (h : Forwarded d e durable events l err) : ∃ l0 k reply, l = l0 ++ k ∧ StoreFree l0 ∧
      Finished d e.requestID e.traceID durable reply err k ∧ (err = none → streamed l = reply) := by
  obtain ⟨l, k1, k2, k3, flow, hloop, _, hhandoff, _, haudit, hfinished⟩ := h
  refine ⟨l ++ (k1 ++ k2), k3, flow.reply, by simp only [append_assoc], ?_, hfinished, ?_⟩
  · simp only [storeFree_append]
    exact ⟨hloop.storeFree, hhandoff.quiet.storeFree, haudit.quiet.storeFree⟩
  · intro herr
    have hflow : flow.terminalErr = none := by
      unfold errAfterAudit errAfterHandoff at herr
      split_ifs at herr
      exact herr
    rw [hloop.reply hflow, streamed_append, streamed_append, streamed_append,
      hhandoff.quiet.streamed, haudit.quiet.streamed, hfinished.streamed]
    simp only [String.append_empty]

end Loop

/-! ## The marks of a call -/

@[simp] theorem isNone_failure {ε α : Type} (r : Except ε α) :
    (failure r).isNone = Except.isOk r := by
  cases r <;> rfl

section Marks

variable {d : Dispatcher} {e : Execution} {events : List (Option RunnerEvent)}
  {k l : List (Entry x)} {flow : Flow}

/-- The mark of an audit. -/
theorem Audits.marks {eventType : Audit.EventType} {errorType : String} {err : Option Audit.Err}
    (h : Audits d e eventType errorType k err) :
    marks k = if d.auditWriter.isSome then [.audit eventType err.isNone] else [] := by
  cases h with
  | off h => rw [h]; rfl
  | on _ h => rw [h, isNone_failure]; rfl

/-- The mark of a handoff. -/
theorem HandsOff.marks {result : Audit.ExecutionResult} {errorType : String}
    {err : Option Audit.Err} (h : HandsOff d e result errorType k err) :
    marks k = if d.handoffStore then [.handoff result err.isNone] else [] := by
  cases h with
  | off h => rw [h]; rfl
  | on h => rw [h, isNone_failure]; rfl

/-- Notices leave no mark. -/
theorem marks_of_notices (h : ∀ entry ∈ k, Notice entry) : marks k = [] := by
  refine marks_eq_nil fun entry hentry => ?_
  cases h entry hentry with
  | tried => rfl
  | final item hitem r => cases r <;> simp [mark, hitem]

theorem marks_cutEntry {item : DispatchEvent} (hitem : item.type ≠ .done) (cause : CtxErr)
    (pre post : State) : marks [(cutEntry item cause pre post : Entry x)] = [.cut] := by
  simp [Gateway.marks, cutEntry, mark, hitem]

theorem Stops.marks {cause : CtxErr} (h : Stops cause k) : marks k = [.stopped] := by
  cases h <;> rfl

/-- The mark of the audit of `finalizeForward`. -/
theorem AuditsOnce.marks {err : Option Audit.Err} (h : AuditsOnce d e flow k err) :
    marks k = if flow.auditFinalized = false ∧ d.auditWriter.isSome then
      [.audit (Dispatcher.finalEventType flow) err.isNone] else [] := by
  unfold AuditsOnce at h
  cases hfinalized : flow.auditFinalized with
  | true =>
    rw [hfinalized, if_pos rfl] at h
    rw [h.1]
    rfl
  | false =>
    rw [hfinalized, if_neg Bool.false_ne_true] at h
    simpa using h.marks

/-- Readings of the trace parent leave no mark. -/
theorem Traces.marks {traces : List (Entry x)} (h : Traces traces) : marks traces = [] := by
  refine marks_eq_nil fun entry hentry => ?_
  obtain ⟨_, _, _, rfl⟩ := h entry hentry
  rfl

/-- The mark of a batch. -/
@[simp] theorem mark_enqueueEntry (m : Materializer) (durable : DurableExecution)
    (requestID traceID reply traceParent : String) (r : Except Storage.Err (List ReplyOutbox))
    (pre post : State) :
    mark (enqueueEntry m durable requestID traceID reply traceParent r pre post : Entry x) =
      some (.batch (Except.isOk r)) := by
  unfold enqueueEntry
  split_ifs <;> rfl

/-- Writing a verdict neither reads the stream nor waits for it, and an event that is cut off leaves
an error. -/
theorem Closing.undisturbed {v : Verdict} {last : Bool} {text : String}
    (h : Closing d e v last text k flow) :
    .stopped ∉ marks k ∧ .received ∉ marks k ∧ (.cut ∈ marks k → flow.terminalErr ≠ none) := by
  cases h with
  | unaudited _ _ _ haudit hnotices =>
    rw [marks_append, haudit.marks, marks_of_notices hnotices]
    split_ifs <;> simp
  | cut _ _ haudit hsends _ _ hitem =>
    rw [marks_append, marks_append, haudit.marks, marks_of_sends hsends, marks_cutEntry hitem]
    split_ifs <;> simp [Verdict.flow]
  | unhanded _ _ _ _ _ haudit hsends hhandoff hnotices =>
    rw [marks_append, marks_append, marks_append, haudit.marks, marks_of_sends hsends,
      hhandoff.marks, marks_of_notices hnotices]
    split_ifs <;> simp
  | written _ _ _ _ haudit hsends hhandoff hnotices =>
    rw [marks_append, marks_append, marks_append, haudit.marks, marks_of_sends hsends,
      hhandoff.marks, marks_of_notices hnotices]
    split_ifs <;> simp

/-- What the last reading of the stream gave: an event, or `none` when the stream was closed. -/
def lastRead (events : List (Option RunnerEvent)) (ms : List Mark) : Option (Option RunnerEvent) :=
  events[ms.count .received - 1]?

/-- An execution that ended with an error of the runner, or that was canceled. -/
def EndedBadly (events : List (Option RunnerEvent)) (ms : List Mark) : Prop :=
  .stopped ∈ ms ∨ .cut ∈ ms ∨ ∃ event, lastRead events ms = some event ∧ failedEvent event = true

/-- A stream that lasts has neither been stopped nor cut off. -/
theorem Streamed.undisturbed {n : ℕ} {text : String} (h : Streamed n text l) :
    .stopped ∉ Gateway.marks l ∧ .cut ∉ Gateway.marks l ∧
      (Gateway.marks l).count .received = n := by
  rw [h.marks]
  simp [mem_replicate]

/-- A loop over a stream that ended badly leaves an error. -/
theorem Looped.err_of_endedBadly (h : Looped d e events l flow)
    (hbad : EndedBadly events (Gateway.marks l)) : flow.terminalErr ≠ none := by
  have hread : ∀ {start k : List (Entry x)} {n : ℕ} {text : String},
      Streamed n text start → .received ∉ Gateway.marks k →
      lastRead events (Gateway.marks (start ++ k)) = events[n - 1]? := by
    intro start k n text hstart hk
    rw [lastRead, marks_append, count_append, hstart.undisturbed.2.2,
      count_eq_zero_of_not_mem hk, Nat.add_zero]
  cases h with
  | canceled _ _ _ _ _ _ _ _ _ hk =>
    cases hk <;> exact Option.some_ne_none _
  | closed start k _ hstart _ hk =>
    obtain ⟨hstopped, hreceived, hcut⟩ := hk.undisturbed
    obtain ⟨hstopped', hcut', -⟩ := hstart.undisturbed
    rcases hbad with h | h | ⟨_, hevent, -⟩
    · rcases mem_append.1 (marks_append start k ▸ h) with h | h
      · exact absurd h hstopped'
      · exact absurd h hstopped
    · rcases mem_append.1 (marks_append start k ▸ h) with h | h
      · exact absurd h hcut'
      · exact hcut h
    · rw [hread hstart hreceived, Nat.add_sub_cancel, getElem?_length] at hevent
      cases hevent
  | last start k _ _ _ hevent _ hstart _ hk =>
    obtain ⟨hstopped, hreceived, hcut⟩ := hk.undisturbed
    obtain ⟨hstopped', hcut', -⟩ := hstart.undisturbed
    rcases hbad with h | h | ⟨_, hevent', hfailed⟩
    · rcases mem_append.1 (marks_append start k ▸ h) with h | h
      · exact absurd h hstopped'
      · exact absurd h hstopped
    · rcases mem_append.1 (marks_append start k ▸ h) with h | h
      · exact absurd h hcut'
      · exact hcut h
    · rw [hread hstart hreceived, Nat.add_sub_cancel, hevent] at hevent'
      rw [Option.some.inj hevent', hfailed] at hk
      cases hk <;> exact Option.some_ne_none _
  | cut => exact Option.some_ne_none _

/-- Marks that tell nothing about the stream. -/
def Written (ms : List Mark) : Prop := .stopped ∉ ms ∧ .cut ∉ ms ∧ .received ∉ ms

variable {ms ms' : List Mark}

theorem Written.append (h : Written ms) (h' : Written ms') : Written (ms ++ ms') := by
  simp only [Written, mem_append, not_or]
  exact ⟨⟨h.1, h'.1⟩, ⟨h.2.1, h'.2.1⟩, h.2.2, h'.2.2⟩

/-- Later marks that tell nothing about the stream do not make it end badly. -/
theorem EndedBadly.of_append (h : EndedBadly events (ms ++ ms'))
    (h' : Written ms') : EndedBadly events ms := by
  obtain ⟨hstopped, hcut, hreceived⟩ := h'
  rcases h with h | h | h
  · exact .inl ((mem_append.1 h).resolve_right hstopped)
  · exact .inr (.inl ((mem_append.1 h).resolve_right hcut))
  · refine .inr (.inr ?_)
    rw [lastRead, count_append, count_eq_zero_of_not_mem hreceived, Nat.add_zero] at h
    exact h

variable {requestID traceID reply : String}

/-- The marks of the end of an event, by the way it ends. -/
theorem Finished.marks {durable : DurableExecution} {err : Option Gateway.Err}
    (h : Finished d requestID traceID durable reply err k) :
    ∃ ok, (err ≠ none ∧ Gateway.marks k = [.status .failed ok]) ∨
      (err = none ∧ (d.materializer = none ∨ Go.trimSpace reply = "") ∧
        Gateway.marks k = [.status .completed ok]) ∨
      (err = none ∧ (∃ m, d.materializer = some m ∧ Go.trimSpace reply ≠ "" ∧
        Refused m durable reply) ∧ Gateway.marks k = [.status .failed ok]) ∨
      (err = none ∧ Gateway.marks k = [.batch false, .status .failed ok]) ∨
      (err = none ∧ Gateway.marks k = [.batch true, .status .completed ok]) := by
  cases h with
  | failed err r => exact ⟨Except.isOk r, .inl ⟨by simp, rfl⟩⟩
  | silent hreply r => exact ⟨Except.isOk r, .inr (.inl ⟨rfl, hreply, rfl⟩)⟩
  | refused m hm hreply hrefused _ htraces r =>
    refine ⟨Except.isOk r, .inr (.inr (.inl ⟨rfl, ⟨m, hm, hreply, hrefused⟩, ?_⟩))⟩
    rw [marks_append, htraces.marks]
    rfl
  | rejected _ _ _ _ _ htraces _ _ r =>
    refine ⟨Except.isOk r, .inr (.inr (.inr (.inl ⟨rfl, ?_⟩)))⟩
    rw [marks_append, htraces.marks, Gateway.marks, filterMap_cons, mark_enqueueEntry]
    rfl
  | stored _ _ _ _ _ htraces _ _ r =>
    refine ⟨Except.isOk r, .inr (.inr (.inr (.inr ⟨rfl, ?_⟩)))⟩
    rw [marks_append, htraces.marks, Gateway.marks, filterMap_cons, mark_enqueueEntry]
    rfl

/-- The end of an event tells nothing about the stream. -/
theorem Finished.written {durable : DurableExecution} {err : Option Gateway.Err}
    (h : Finished d requestID traceID durable reply err k) : Written (Gateway.marks k) := by
  obtain ⟨_, ⟨-, h⟩ | ⟨-, -, h⟩ | ⟨-, -, h⟩ | ⟨-, h⟩ | ⟨-, h⟩⟩ := h.marks
  all_goals rw [h]; simp [Written]

/-- A call of `forward` on a stream that ended badly returns an error. -/
theorem Forwarded.err_of_endedBadly {durable : DurableExecution} {err : Option Gateway.Err}
    (h : Forwarded d e durable events l err) (hbad : EndedBadly events (Gateway.marks l)) :
    err ≠ none := by
  obtain ⟨l, _, _, _, flow, hloop, _, hhandoff, _, haudit, hfinished⟩ := h
  have hflow : flow.terminalErr ≠ none := by
    rw [marks_append] at hbad
    refine hloop.err_of_endedBadly (hbad.of_append ?_)
    rw [marks_append, marks_append, hhandoff.marks, haudit.marks]
    refine .append ?_ (.append ?_ hfinished.written)
    · split_ifs <;> simp [Written]
    · split_ifs <;> simp [Written]
  unfold errAfterAudit errAfterHandoff
  split_ifs <;> simp_all

end Marks

end AgentService.Gateway
