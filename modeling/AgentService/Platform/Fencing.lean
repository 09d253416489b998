import AgentService.Platform.Exclusion
import AgentService.Platform.Replies

/-!
# Replies of executions that lost their event

`finishDurable` materializes the reply before it gives the event back, and only the second step
carries the owner and the token. An execution whose lease is over, and whose event another execution
has taken, therefore still writes its reply when there is none yet (`lateReply`).
`finishDurable_leavesReplies_iff` says exactly when the rows and the correlation of the event stay
as they are: when the execution has nothing to write, or when a reply of the event was already
stored.
-/

namespace AgentService.Platform

open Storage Concurrent Gateway Outbox

variable {x : Externals}

/-- An entry leaves the rows and the correlation of an event as they are. -/
structure LeavesReply (e : Entry x) (tenantID eventID : String) : Prop where
  /-- The rows of the event stay. -/
  rows : ∀ k r, r.tenantID = tenantID → r.eventID = eventID →
    (e.post.store.replies.lookup k = some r ↔ e.pre.store.replies.lookup k = some r)
  /-- The correlation of the event stays. -/
  correlation : e.post.store.correlations.lookup (key [tenantID, eventID]) =
    e.pre.store.correlations.lookup (key [tenantID, eventID])

/-- A call leaves the rows and the correlation of the event of a handle as they are. -/
def LeavesReplies (history : List (RunStep x)) (t : ℕ) (durable : DurableExecution) : Prop :=
  ∀ st ∈ history, st.tid = t → LeavesReply st.entry durable.tenantID durable.eventID

/-- Another execution has taken the event of a handle: it is running under a later token. -/
def LostFence (s : State) (durable : DurableExecution) : Prop :=
  ∃ v ∈ s.store.events.lookup (key [durable.tenantID, durable.eventID]), v.status = .running ∧
    durable.fencingToken < v.fencingToken ∧ v.leaseOwner ≠ durable.owner

instance (s : State) (durable : DurableExecution) : Decidable (LostFence s durable) :=
  inferInstanceAs (Decidable (∃ v ∈ _, _))

/-- An entry that touches neither rows nor correlations. -/
theorem LeavesReply.of_eq {e : Entry x} {tenantID eventID : String}
    (hrows : ∀ k, e.post.store.replies.lookup k = e.pre.store.replies.lookup k)
    (hcorrelations : ∀ k, e.post.store.correlations.lookup k =
      e.pre.store.correlations.lookup k) : LeavesReply e tenantID eventID :=
  ⟨fun k r _ _ => by rw [hrows], hcorrelations _⟩

/-- A step of an event touches neither rows nor correlations. -/
theorem leavesReply_transition {ctx : Ctx} {t : MessageTransition}
    {r : Except Storage.Err MessageEvent} {pre post : State} {tenantID eventID : String}
    (hp : (platform x).Performs (.store ctx (.transitionMessage t)) pre r post) :
    LeavesReply (⟨.store ctx (.transitionMessage t), r, pre, post⟩ : Entry x) tenantID eventID := by
  rcases performs_transitionMessage hp with ⟨rfl, -⟩ | ⟨_, -, -, rfl⟩
  · exact .of_eq (fun _ => rfl) fun _ => rfl
  · exact .of_eq (fun _ => rfl) fun _ => rfl

section Batch

variable {s s' : State} {durable : DurableExecution} {correlation : ReplyCorrelation}
  {r : Except Storage.Err (List ReplyOutbox)}

/-- A batch for an event that has a reply leaves the reply as it is. -/
theorem leavesReply_of_stored (hsound : s.store.Sound) (hnamed : Named s.store)
    (hcorrelated : Correlated s.store) (hstored : ReplyStored s.store durable) {ctx : Ctx}
    {values : List ReplyOutbox} (hnew : ∀ v ∈ values, NewSegment durable v)
    (hp : (platform x).Performs (.store ctx (.enqueueRepliesWithCorrelation correlation values)) s r
      s') :
    LeavesReply (⟨.store ctx (.enqueueRepliesWithCorrelation correlation values), r, s, s'⟩ :
      Entry x) durable.tenantID durable.eventID := by
  rcases performs_enqueueRepliesWithCorrelation hp with
    ⟨rfl, -⟩ | ⟨given, first, rows, -, henq, -, rfl⟩
  · exact .of_eq (fun _ => rfl) fun _ => rfl
  · obtain ⟨k, row, hrow, htenant, hevent⟩ := hstored
    have hfirst := hnew first henq.batch.first_mem
    refine .of_eq (enqueued_rows_of_stored s.clock hsound henq hrow
      (htenant.trans hfirst.tenantID.symm)
      ((hnamed k row hrow).trans (hevent.trans hfirst.replyID.symm)))
      (enqueued_correlations_of_stored s.clock henq fun hrequest => ?_)
    obtain ⟨hgt, hge⟩ := henq.names hrequest
    rw [hgt, hge, hfirst.tenantID, hfirst.eventID, ← htenant, ← hevent]
    exact hcorrelated.correlation k row hrow

end Batch

section Finish

variable {clock : ℤ} {c : Run x} {t : ℕ} {d : Dispatcher} {requestID traceID reply : String}
  {durable : DurableExecution} {terminalErr : Option Gateway.Err}

/-- A reading of the trace parent leaves every reply as it is. -/
theorem leavesReply_trace {traceParent : String} {pre post : State} {tenantID eventID : String}
    (hp : (platform x).Performs (.env .traceParentFromContext) pre traceParent post) :
    LeavesReply (traceEntry traceParent pre post : Entry x) tenantID eventID := by
  have hstore : post.store = pre.store := (performs_other (fun _ _ => by simp) hp).1
  exact .of_eq (fun k => congrArg (fun s => s.replies.lookup k) hstore)
    fun k => congrArg (fun s => s.correlations.lookup k) hstore

section

variable (hc : Reachable Faithful (Run.start (State.initial clock)) c)

include hc

variable {prog : Code x Result}

/-- The batch of a finishing execution leaves the reply of the event as it is exactly when there was
one. -/
theorem leavesReply_enqueue_iff
    (hth : c.threads t =
      some ⟨.finishDurable d requestID traceID (some durable) terminalErr reply, prog⟩)
    {m : Materializer} (hvalid : ¬ Refused m durable reply) {traceParent : String}
    {r : Except Storage.Err (List ReplyOutbox)} {post : State}
    (hp : (platform x).Performs
      (enqueueEntry (x := x) m durable requestID traceID reply traceParent r c.state post).op c.state
      (enqueueEntry (x := x) m durable requestID traceID reply traceParent r c.state post).res
      post) :
    LeavesReply (enqueueEntry m durable requestID traceID reply traceParent r c.state post :
      Entry x) durable.tenantID durable.eventID ↔ ReplyStored c.state.store durable := by
  have hsound := reachable_sound Store.Sound.empty hc
  have hnamed := reachable_named hc
  have hcorrelated := reachable_correlated hc
  have hrequest : requestID ≠ "" := request_ne hc hth rfl
  have hheld : Held c.state.store durable := handles_held hc Store.Sound.empty hth rfl
  rw [enqueueEntry_of_ne hrequest] at hp ⊢
  constructor
  · intro hleaves
    by_contra hstored
    obtain ⟨-, k, row, hrow, htenant, hevent⟩ := enqueue_of_noReply hsound hheld
      (noReply_of_not_stored hnamed hcorrelated hstored) hvalid rfl rfl hrequest hp
    exact hstored ⟨k, row, (hleaves.rows k row htenant hevent).1 hrow, htenant, hevent⟩
  · intro hstored
    exact leavesReply_of_stored hsound hnamed hcorrelated hstored
      (fun v hv => newSegment_of_mem_replyRows hv) hp

/-- A call that writes one batch leaves the reply of the event as it is exactly when there was one
before the batch. -/
theorem leavesReply_batch_iff
    (hth : c.threads t =
      some ⟨.finishDurable d requestID traceID (some durable) terminalErr reply, prog⟩)
    {m : Materializer} (hvalid : ¬ Refused m durable reply) {traces : List (Entry x)}
    (htraces : Traces traces) {traceParent : String} {r : Except Storage.Err (List ReplyOutbox)}
    {pre post : State} {status : EventStatus} {replyID : String} {segments : ℕ}
    {r' : Except Storage.Err MessageEvent} {pre' post' : State}
    (hlog : log c.history t =
      traces ++ [enqueueEntry m durable requestID traceID reply traceParent r pre post,
        releaseEntry durable status replyID segments r' pre' post']) :
    (∀ e ∈ log c.history t, LeavesReply e durable.tenantID durable.eventID) ↔
      ∃ e ∈ log c.history t, isEnqueue e = true ∧ ReplyStored e.pre.store durable := by
  have hperf : ∀ e ∈ log c.history t, (platform x).Performs e.op e.pre e.res e.post := fun e he => by
    obtain ⟨-, -, -, -, -, -, h⟩ := hc.before_entry hth he
    exact h
  have hbatch : LeavesReply (enqueueEntry m durable requestID traceID reply traceParent r pre post :
      Entry x) durable.tenantID durable.eventID ↔ ReplyStored pre.store durable := by
    have hmem : (enqueueEntry m durable requestID traceID reply traceParent r pre post : Entry x) ∈
        log c.history t := by rw [hlog]; simp
    obtain ⟨_, k, hc', -, hpre, hth', hp⟩ := hc.before_entry hth hmem
    rw [enqueueEntry_pre] at hpre
    subst hpre
    rw [enqueueEntry_pre, enqueueEntry_post] at hp
    exact leavesReply_enqueue_iff hc' hth' hvalid hp
  rw [hlog] at hperf ⊢
  constructor
  · intro hleaves
    refine ⟨_, by simp, isEnqueue_enqueueEntry m durable requestID traceID reply traceParent r pre
      post, ?_⟩
    rw [enqueueEntry_pre]
    exact hbatch.1 (hleaves _ (by simp))
  · rintro ⟨e, he, henqueue, hstored⟩ e' he'
    have hpre : ReplyStored pre.store durable := by
      simp only [List.mem_append, List.mem_cons, List.not_mem_nil, or_false] at he
      rcases he with he | rfl | rfl
      · obtain ⟨traceParent', pre1, post1, rfl⟩ := htraces e he
        cases henqueue
      · rwa [enqueueEntry_pre] at hstored
      · cases henqueue
    have hp := hperf e' he'
    simp only [List.mem_append, List.mem_cons, List.not_mem_nil, or_false] at he'
    rcases he' with he' | rfl | rfl
    · obtain ⟨traceParent', pre1, post1, rfl⟩ := htraces e' he'
      exact leavesReply_trace hp
    · exact hbatch.2 hpre
    · exact leavesReply_transition hp

end

/-- A finishing execution leaves the rows and the correlation of its event as they are exactly when
it ended with an error, or has nothing to materialize, or finds a reply of the event when its batch
reaches the store; whether it still holds the event plays no part. -/
theorem finishDurable_leavesReplies_iff
    (hc : Reachable Faithful (Run.start (State.initial clock)) c)
    (hr : c.Returned t (.finishDurable d requestID traceID (some durable) terminalErr reply)
      .finished) :
    LeavesReplies c.history t durable ↔
      terminalErr ≠ none ∨ d.materializer = none ∨ Go.trimSpace reply = "" ∨
        ∃ st ∈ c.history, st.tid = t ∧ isEnqueue st.entry = true ∧
          ReplyStored st.entry.pre.store durable := by
  have hleaves : LeavesReplies c.history t durable ↔
      ∀ e ∈ log c.history t, LeavesReply e durable.tenantID durable.eventID := by
    simp only [mem_log]
    exact ⟨fun h e ⟨st, hst, htid, he⟩ => he ▸ h st hst htid,
      fun h st hst htid => h _ ⟨st, hst, htid, rfl⟩⟩
  have hbatch : (∃ st ∈ c.history, st.tid = t ∧ isEnqueue st.entry = true ∧
      ReplyStored st.entry.pre.store durable) ↔
      ∃ e ∈ log c.history t, isEnqueue e = true ∧ ReplyStored e.pre.store durable := by
    simp only [mem_log]
    exact ⟨fun ⟨st, hst, htid, h⟩ => ⟨_, ⟨st, hst, htid, rfl⟩, h⟩,
      fun ⟨e, ⟨st, hst, htid, he⟩, h⟩ => ⟨st, hst, htid, he ▸ h⟩⟩
  have hperf : ∀ e ∈ log c.history t, (platform x).Performs e.op e.pre e.res e.post := fun e he => by
    obtain ⟨-, -, -, -, -, -, h⟩ := hc.before_entry hr he
    exact h
  rw [hleaves, hbatch]
  have hfinished := finished_of_returned hc hr
  generalize hlog : log c.history t = l at hfinished
  cases hfinished with
  | failed =>
    rw [hlog] at hperf
    simp only [List.mem_singleton, forall_eq] at hperf ⊢
    exact iff_of_true (leavesReply_transition hperf) (.inl (by simp))
  | silent =>
    rw [hlog] at hperf
    simp only [List.mem_singleton, forall_eq] at hperf ⊢
    exact iff_of_true (leavesReply_transition hperf) (.inr (by tauto))
  | refused m hm hreply hrefused =>
    -- The handle names a stored event with a valid destination, and the reply is not blank.
    have hheld : Held c.state.store durable := handles_held hc Store.Sound.empty hr rfl
    rcases hrefused with h | h | h | h
    · exact absurd h hheld.tenant_ne
    · exact absurd h hheld.event_ne
    · exact absurd hheld.target_valid h
    · exact absurd h (splitRunes_ne_nil hreply)
  | rejected _ hm hreply hvalid _ htraces =>
    rw [← hlog, leavesReply_batch_iff hc hr hvalid htraces hlog]
    simp [hm, hreply]
  | stored _ hm hreply hvalid _ htraces =>
    rw [← hlog, leavesReply_batch_iff hc hr hvalid htraces hlog]
    simp [hm, hreply]

end Finish

/-! ## A concrete run -/

/-- The end of the first execution, as the call `2`. -/
def finishLate : List (Action (services plainExternals)) :=
  [.spawn 2 (sampleFinish "a" 1 "req" "hello"), .perform 2 {}, .perform 2 {}, .perform 2 {},
    .perform 2 {}]

/-- An execution that has lost its event writes a reply. -/
theorem lateReply : ∃ c c' : Run plainExternals,
    Reachable Faithful (Run.start (State.initial 1)) c ∧ c.threads 2 = none ∧
      LostFence c.state (sampleHandle "a" 1) ∧ Reachable Faithful c c' ∧
      c'.Returned 2 (sampleFinish "a" 1 "req" "hello") .finished ∧
      ¬ LeavesReplies c'.history 2 (sampleHandle "a" 1) := by
  obtain ⟨c, hc, hfree, hlost, hrun⟩ := Config.exists_reachable_of_run Faithful
    (Run.start (State.initial 1)) (firstClaim ++ secondClaim)
    (fun c => (c.threads 2).isNone = true ∧ LostFence c.state (sampleHandle "a" 1) ∧
      (c.run Faithful finishLate).any (fun c' => decide (c'.result 2 = some .finished ∧
        ∃ st ∈ c'.history, st.tid = 2 ∧
          st.entry.pre.store.replies.lookup (replyKey "t" "e" 0) = none ∧
          ∃ r ∈ st.entry.post.store.replies.lookup (replyKey "t" "e" 0),
            r.tenantID = "t" ∧ r.eventID = "e")) = true) (by decide +kernel)
  obtain ⟨c', hc', hreturned, hresult, st, hst, htid, hpre, r, hr, htenant, hevent⟩ :=
    Config.exists_returned_of_run Faithful c finishLate _ hrun
  refine ⟨c, c', hc, Option.isNone_iff_eq_none.1 hfree, hlost, hc',
    hreturned 2 (sampleFinish "a" 1 "req" "hello") .finished (by simp [finishLate]) hresult, ?_⟩
  -- a row that was not there belongs to the event
  intro hleaves
  rw [((hleaves st hst htid).rows _ r htenant hevent).1 hr] at hpre
  cases hpre

/-- The second execution stores its reply, and the first one comes too late. -/
def secondReply : List (Action (services plainExternals)) :=
  [.spawn 3 (sampleFinish "b" 3 "again" "hi"), .perform 3 {}, .perform 3 {}, .perform 3 {}]

/-- An execution that comes after the reply of the event leaves it as it is. -/
theorem finishDurable_leavesReplies_secondReply : ∃ c : Run plainExternals,
    Reachable Faithful (Run.start (State.initial 1)) c ∧
      c.Returned 2 (sampleFinish "a" 1 "req" "hello") .finished ∧
      LostFence c.state (sampleHandle "a" 1) ∧
      LeavesReplies c.history 2 (sampleHandle "a" 1) := by
  obtain ⟨c, hc, hreturned, hresult, hlost, st, hst, htid, henqueue, r, hr⟩ :=
    Config.exists_returned_of_run Faithful (Run.start (State.initial 1))
      (firstClaim ++ secondClaim ++ secondReply ++ finishLate)
      (fun c => c.result 2 = some .finished ∧ LostFence c.state (sampleHandle "a" 1) ∧
        ∃ st ∈ c.history, st.tid = 2 ∧ isEnqueue st.entry = true ∧
          ∃ r ∈ st.entry.pre.store.replies.lookup (replyKey "t" "e" 0),
            r.tenantID = "t" ∧ r.eventID = "e") (by decide +kernel)
  have hreturned' :=
    hreturned 2 (sampleFinish "a" 1 "req" "hello") .finished (by simp [finishLate]) hresult
  exact ⟨c, hc, hreturned', hlost, (finishDurable_leavesReplies_iff hc hreturned').2
    (.inr (.inr (.inr ⟨st, hst, htid, henqueue, _, r, hr⟩)))⟩

end AgentService.Platform
