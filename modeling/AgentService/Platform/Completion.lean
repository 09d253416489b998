import AgentService.Platform.Replied

/-!
# Events whose reply is delivered early

`finishDurable` makes the rows of a reply visible before it completes the event, and a worker that
has sent the last row looks at the event once (`advanceEvent`). When it looks while the event is
still running, it leaves the event alone, and nobody comes back: the event stays `completed`
although its reply is delivered (`leftCompleted`). `replied_iff_readAfterRun` says exactly when this
does not happen: the event is replied in the end if and only if some worker looked after the event
had been completed.
-/

namespace AgentService.Platform

open Storage Concurrent Gateway Outbox List Store Worker Option AList

variable {x : Externals}

/-- The passes of workers have no audit writer. -/
def Unaudited (_ : Run x) : Call → Prop
  | .runOnce w => w.auditWriter = none
  | _ => True

instance : (c : Run x) → (call : Call) → Decidable (Unaudited c call)
  | _, .runOnce w => inferInstanceAs (Decidable (w.auditWriter = none))
  | _, .claimInbound .. | _, .failDurable _ | _, .finishDurable .. | _, .forward ..
  | _, .dispatch .. => isTrue trivial

/-- A worker read the event when it was not running any more. -/
def ReadAfterRun (history : List (RunStep x)) (tenantID eventID : String) : Prop :=
  ∃ st ∈ history, st.entry.op = .store .caller (.getMessage tenantID eventID) ∧
    ∀ v ∈ st.entry.pre.store.events.lookup (key [tenantID, eventID]), v.status ≠ .running

instance (history : List (RunStep x)) (tenantID eventID : String) :
    Decidable (ReadAfterRun history tenantID eventID) :=
  inferInstanceAs (Decidable (∃ st ∈ history, _))

/-- An execution holds its event and has not stored a reply. -/
structure Executing (s : State) (durable : DurableExecution) (deadline : ℤ) : Prop where
  /-- The store is well formed. -/
  sound : s.store.Sound
  /-- The handle is good. -/
  held : Held s.store durable
  /-- The token is one of a claim. -/
  token_pos : 0 < durable.fencingToken
  /-- Nothing of a reply is stored. -/
  noReply : NoReply s.store durable.tenantID durable.eventID
  /-- The event is running under the handle. -/
  running : ∃ v, s.store.events.lookup (key [durable.tenantID, durable.eventID]) = some v ∧
    v.status = .running ∧ v.leaseOwner = durable.owner ∧
    v.fencingToken = durable.fencingToken ∧ v.leaseExpiresAt = some deadline

/-! ## The phases of the event -/

/-- Where the event stands that was `v₀` at the start, told from the history: it is as it was, or it
was completed and then advanced by workers that had read it. -/
structure Phase (history : List (RunStep x)) (tenantID eventID : String) (v₀ v : MessageEvent) :
    Prop where
  /-- The states that the event goes through. -/
  status : v = v₀ ∨ v.status = .completed ∨ v.status = .replyPending ∨ v.status = .replied
  /-- An event that has moved was completed. -/
  released : v = v₀ ∨ ∃ st ∈ history, ∃ ctx m,
    st.entry.op = .store ctx (.transitionMessage m) ∧ m.to = .completed
  /-- An event in `reply_pending` was advanced by a worker. -/
  advanced : v.status = .replyPending → ∃ st ∈ history, ∃ w event pre post,
    st.call = .runOnce w ∧ w.tenantID = tenantID ∧ st.entry = advanceEntry w eventID event pre post
  /-- A worker had read it then. -/
  read : v.status = .replyPending ∨ v.status = .replied →
    ReadAfterRun history tenantID eventID

/-- More steps keep the phase of an event that stays. -/
theorem Phase.append {history : List (RunStep x)} {tenantID eventID : String}
    {v₀ v : MessageEvent} (h : Phase history tenantID eventID v₀ v) (st : RunStep x) :
    Phase (history ++ [st]) tenantID eventID v₀ v := by
  have hmem : ∀ u ∈ history, u ∈ history ++ [st] := fun u hu => mem_append_left _ hu
  refine ⟨h.status, h.released.imp_right fun ⟨u, hu, hop⟩ => ⟨u, hmem u hu, hop⟩, fun hs => ?_,
    fun hs => ?_⟩
  · obtain ⟨u, hu, hadvance⟩ := h.advanced hs
    exact ⟨u, hmem u hu, hadvance⟩
  · obtain ⟨u, hu, hread⟩ := h.read hs
    exact ⟨u, hmem u hu, hread⟩

/-- Apart from the passes of workers, events are only moved to `completed`. -/
def OnlyCompletes (history : List (RunStep x)) : Prop :=
  ∀ st ∈ history, (∃ w, st.call = .runOnce w) ∨ ∀ ctx m,
    st.entry.op = .store ctx (.transitionMessage m) → m.to = .completed

section Runs

variable {adm : Run x → Call → Prop} {s₀ : State} {c : Run x} {tenantID eventID : String}
  {v₀ : MessageEvent}

section

variable (hc : Reachable adm (Run.start s₀) c)

include hc

/-- A reading of an event that was answered with a later status is one after the run. -/
theorem readAfterRun_of_message {t : ℕ} {event : MessageEvent} {pre post : State}
    (hmem : (messageEntry tenantID eventID event pre post : Entry x) ∈ log c.history t)
    (hstatus : event.status ≠ .running) : ReadAfterRun c.history tenantID eventID := by
  obtain ⟨st, hst, -, hentry⟩ := mem_log.1 hmem
  have hp := reachable_performs hc hst
  rw [hentry] at hp
  refine ⟨st, hst, by rw [hentry]; rfl, fun v hv => ?_⟩
  rw [hentry] at hv
  obtain ⟨-, ⟨-, _, hcause⟩ | hget⟩ := performs_getMessage hp
  · cases hcause
  · have hfound : pre.store.getMessage tenantID eventID = .ok event := hget.symm
    obtain rfl : v = event := some.inj (hv.symm.trans (getMessage_eq_ok.1 hfound).2.2)
    exact hstatus

/-- A step of the event by a worker, or to `completed`, leads to the next phase. -/
theorem Phase.moved (hv0 : v₀.status = .running) {v : MessageEvent}
    (hphase : Phase c.history tenantID eventID v₀ v) {t : ℕ} {call : Call} {ctx : Ctx}
    {m : MessageTransition} {r : Except Storage.Err MessageEvent} {s' : State}
    (hpre : Call.Pre call (log c.history t) (.store ctx (.transitionMessage m)))
    (hknown : (∃ w, call = .runOnce w) ∨ m.to = .completed)
    (hkey : m.tenantID = tenantID ∧ m.eventID = eventID)
    (hmoves : c.state.store.MovesMessage c.state.clock m v)
    (hr : r = .ok (Store.applyMessageTransition c.state.clock v m)) :
    Phase (c.history ++ [⟨t, call, ⟨.store ctx (.transitionMessage m), r, c.state, s'⟩⟩]) tenantID
      eventID v₀ (Store.applyMessageTransition c.state.clock v m) := by
  have hold := hphase.append ⟨t, call, ⟨.store ctx (.transitionMessage m), r, c.state, s'⟩⟩
  have hreleased : m.from ≠ .running → _ := fun hfrom => hold.released.resolve_left fun hvv => by
    rw [← hmoves.status, hvv] at hfrom
    exact hfrom hv0
  rcases hknown with ⟨w, rfl⟩ | hto
  · cases hpre with
    | advance E event _ _ _ _ pre' post' hlog hsent hcompleted =>
      obtain ⟨rfl, rfl⟩ := hkey
      refine ⟨.inr (.inr (.inl rfl)), .inr (hreleased (by simp [toReplyPending])),
        fun _ => ⟨_, mem_concat_self, w, _, _, _, rfl, rfl, by rw [hr]; rfl⟩, fun _ => ?_⟩
      have hmem : messageEntry w.tenantID E event pre' post' ∈ log c.history t := by
        rw [hlog]; simp
      obtain ⟨st, hst, hread⟩ := readAfterRun_of_message hc hmem (by rw [hcompleted]; decide)
      exact ⟨st, mem_append_left _ hst, hread⟩
    | replied | finish =>
      exact ⟨.inr (.inr (.inr rfl)), .inr (hreleased (by simp [toReplied])),
        fun h => (by cases h), fun _ => hold.read (.inl hmoves.status)⟩
  · have hstatus : (applyMessageTransition c.state.clock v m).status = .completed := hto
    refine ⟨.inr (.inl hto), .inr ⟨_, mem_concat_self, ctx, m,
      rfl, hto⟩, fun h => ?_, fun h => ?_⟩ <;> rw [hstatus] at h <;> simp at h

/-- A run in which the event is moved by workers, and otherwise only to `completed`, leads through
the phases. -/
theorem reachable_phase (h0 : s₀.store.events.lookup (key [tenantID, eventID]) = some v₀)
    (hv0 : v₀.status = .running) (hknown : OnlyCompletes c.history) :
    ∃ v, c.state.store.events.lookup (key [tenantID, eventID]) = some v ∧
      Phase c.history tenantID eventID v₀ v := by
  revert hknown
  refine Reachable.invariant (I := fun (s : State) (history : List (RunStep x)) =>
    OnlyCompletes history → ∃ v, s.store.events.lookup (key [tenantID, eventID]) = some v ∧
      Phase history tenantID eventID v₀ v) ?_ ?_ (fun _ _ _ h => h) hc
  · intro _
    refine ⟨v₀, h0, .inl rfl, .inl rfl, fun h => ?_, fun h => ?_⟩ <;> rw [hv0] at h <;> simp at h
  · intro c t _ o k r _ hc hth hp hI hknown
    obtain ⟨v, hv, hphase⟩ := hI fun st hst => hknown st (mem_append_left _ hst)
    have hstep := hknown _ mem_concat_self
    obtain ⟨-, heq | ⟨hnone, -⟩ | ⟨ctx, m, value, ⟨⟩, hm, hmoves, heq⟩⟩ :=
      performs_event hp tenantID eventID
    · exact ⟨v, heq.trans hv, hphase.append _⟩
    · rw [hnone] at hv
      cases hv
    · obtain ⟨rfl, rfl⟩ := hm
      obtain rfl : value = v := some.inj (hmoves.found.symm.trans hv)
      exact ⟨_, heq, hphase.moved hc hv0 (reachable_pre hc hth)
        (hstep.imp_right fun h => h ctx m rfl) ⟨rfl, rfl⟩ hmoves rfl⟩

end

end Runs

/-! ## The end of the execution -/

variable {w : Worker} {l : List (Entry x)}

/-- A pass of a worker writes no batch. -/
theorem isEnqueue_of_issues {e : Entry x} (h : Outbox.Issues w l e.op) : isEnqueue e = false := by
  obtain ⟨op, r, _, _⟩ := e
  cases h <;> rfl

/-- A change that is not a batch stores nothing of a reply. -/
theorem Change.noReply {now : ℤ} {o : StoreOp} {s s' : Store} {tenantID eventID : String}
    (h : Change x now s o s') (hs : NoReply s tenantID eventID)
    (ho : ∀ correlation values, ¬ o.Batch x correlation values) : NoReply s' tenantID eventID := by
  have hcorrelations : s'.correlations = s.correlations := by
    cases h with
    | enqueue _ correlation values _ hbatch => exact absurd hbatch (ho correlation values)
    | _ => rfl
  refine ⟨fun k r hr ht => ?_, by rw [hcorrelations]; exact hs.correlation⟩
  rcases h.row k with heq | ⟨correlation, values, _, hbatch, -⟩ |
    ⟨_, _, _, _, _, value, -, rfl, hclaims, heq⟩ | ⟨t, value, -, rfl, hmoves, heq⟩
  · exact hs.rows k r (heq.symm.trans hr) ht
  · exact absurd hbatch (ho correlation values)
  · rw [hr] at heq
    cases heq
    exact hs.rows _ value hclaims.found ht
  · rw [hr] at heq
    cases heq
    exact hs.rows _ value hmoves.found ht

/-- Until a batch is written nothing of a reply is stored. -/
theorem reachable_noReply {adm : Run x → Call → Prop} {s₀ : State} {c : Run x}
    {tenantID eventID : String} (hc : Reachable adm (Run.start s₀) c)
    (h0 : NoReply s₀.store tenantID eventID)
    (hnone : ∀ st ∈ c.history, isEnqueue st.entry = false) :
    NoReply c.state.store tenantID eventID := by
  revert hnone
  refine Reachable.invariant (I := fun (s : State) (history : List (RunStep x)) =>
    (∀ st ∈ history, isEnqueue st.entry = false) → NoReply s.store tenantID eventID) (fun _ => h0)
    ?_ (fun _ _ _ h => h) hc
  intro c t _ o k r _ hc _ hp hI hnone
  have hs := hI fun st hst => hnone st (mem_append_left _ hst)
  have hstep := hnone _ mem_concat_self
  cases o with
  | store ctx o =>
    obtain ⟨store, rfl, hchange⟩ := performs_store_change hp
    refine hchange.noReply hs fun _ _ hbatch => ?_
    cases o with
    | enqueueReplies | enqueueRepliesWithCorrelation => cases hstep
    | _ => exact hbatch
  | _ =>
    rw [(performs_other (by simp) hp).1]
    exact hs

/-- One call of `finishDurable` for a reply that is not blank, made under an unexpired lease, and
passes of workers alongside; all of them have returned, and the store served every operation. -/
structure FinishedAlone (c : Run x) (t : ℕ) (d : Dispatcher) (requestID traceID : String)
    (durable : DurableExecution) (reply : String) (deadline : ℤ) : Prop where
  /-- The call has returned. -/
  returned : c.Returned t (.finishDurable d requestID traceID (some durable) none reply) .finished
  /-- There is a materializer. -/
  materializer : d.materializer ≠ none
  /-- The request has an identifier. -/
  request_ne : requestID ≠ ""
  /-- The reply is not blank. -/
  reply_ne : Go.trimSpace reply ≠ ""
  /-- The lease of the execution has not ended. -/
  lease : ∀ st ∈ c.history, st.tid = t → st.entry.pre.clock < deadline
  /-- The other calls are passes of workers. -/
  passes : ∀ st ∈ c.history, st.tid ≠ t → ∃ w, st.call = .runOnce w
  /-- All calls have returned. -/
  results : ∀ st ∈ c.history, (c.result st.tid).isSome = true
  /-- The store has answered. -/
  answered : ∀ st ∈ c.history, interrupted st.entry = false

/-- The log of an execution that has stored its reply and given its event back. -/
def StoredReply (history : List (RunStep x)) (t : ℕ) (durable : DurableExecution) (requestID
    traceID reply : String) : Prop :=
  ∃ m traces traceParent r segments r' pre post pre' post', Traces traces ∧
    log history t = traces ++ [enqueueEntry m durable requestID traceID reply traceParent r pre post,
      releaseEntry durable .completed durable.eventID segments r' pre' post']

section Finish

variable {adm : Run x → Call → Prop} {s₀ : State} {c : Run x} {t : ℕ} {d : Dispatcher}
  {requestID traceID reply : String} {durable : DurableExecution} {deadline : ℤ}

section

variable (h : FinishedAlone c t d requestID traceID durable reply deadline)

include h

/-- Before the batch of the execution no other one is written. -/
theorem FinishedAlone.no_enqueue (hc : Reachable adm (Run.start s₀) c) {h1 h2 : List (RunStep x)}
    {st : RunStep x} (hsplit : c.history = h1 ++ st :: h2) (htraces : Traces (log h1 t)) :
    ∀ u ∈ h1, isEnqueue u.entry = false := by
  intro u hu
  have huc : u ∈ c.history := by rw [hsplit]; exact mem_append_left _ hu
  by_cases htid : u.tid = t
  · obtain ⟨_, _, _, heq⟩ := htraces u.entry (mem_log.2 ⟨u, hu, htid, rfl⟩)
    rw [heq]
    rfl
  · obtain ⟨w, hw⟩ := h.passes u huc htid
    obtain ⟨_, _, hk⟩ := append_of_mem huc
    have hpre := (reachable_issued hc hk).1
    rw [hw] at hpre
    exact isEnqueue_of_issues hpre

/-- The execution stores its reply and completes its event. -/
theorem FinishedAlone.stored (hs : Executing s₀ durable deadline)
    (hc : Reachable adm (Run.start s₀) c) :
    StoredReply c.history t durable requestID traceID reply := by
  have hfinished := finished_of_returned hc h.returned
  generalize hlog : log c.history t = l at hfinished
  have hheld : ∀ {c' : Run x}, Reachable adm (Run.start s₀) c' → Held c'.state.store durable :=
    fun hc' => hs.held.evolves (reachable_later hc').store
  cases hfinished with
  | silent hnone => exact absurd hnone (not_or.2 ⟨h.materializer, h.reply_ne⟩)
  | refused _ _ _ hrefused =>
    rcases hrefused with hbad | hbad | hbad | hbad
    · exact absurd hbad hs.held.tenant_ne
    · exact absurd hbad hs.held.event_ne
    · exact absurd hs.held.target_valid hbad
    · exact absurd hbad (splitRunes_ne_nil h.reply_ne)
  | rejected _ _ _ hvalid _ htraces =>
    -- The store accepts the batch: nothing of a reply is there.
    obtain ⟨_, _, _, hsplit, _, hentry, hlog1, -⟩ := exists_of_log_eq hlog
    obtain ⟨c', k, hc', -, rfl, hpre, -, hp⟩ := hc.before_step hsplit
    have hnone := reachable_noReply hc' hs.noReply
      (h.no_enqueue hc hsplit (by rw [hlog1]; exact htraces))
    rw [hentry, enqueueEntry_pre] at hpre
    rw [hentry, enqueueEntry_of_ne h.request_ne] at hp
    subst hpre
    obtain ⟨⟨rows, hrows⟩, -⟩ := enqueue_of_noReply (reachable_sound hs.sound hc') (hheld hc') hnone
      hvalid rfl rfl h.request_ne hp
    cases hrows
  | stored m _ _ _ traces htraces traceParent rows r pre post pre' post' =>
    exact ⟨m, traces, traceParent, .ok rows, _, r, pre, post, pre', post', htraces, hlog⟩

end

/-- Only the execution completes the event. -/
theorem StoredReply.onlyCompletes (h : StoredReply c.history t durable requestID traceID reply)
    (hpasses : ∀ st ∈ c.history, st.tid ≠ t → ∃ w, st.call = .runOnce w) :
    OnlyCompletes c.history := by
  obtain ⟨m, _, _, r, _, _, _, _, _, _, htraces, hlog⟩ := h
  intro st hst
  by_cases htid : st.tid = t
  · refine .inr fun _ n hop => ?_
    have hmem : st.entry ∈ log c.history t := mem_log.2 ⟨st, hst, htid, rfl⟩
    rw [hlog] at hmem
    simp only [mem_append, mem_cons, not_mem_nil, or_false] at hmem
    rcases hmem with hmem | hmem | hmem
    · obtain ⟨_, _, _, heq⟩ := htraces _ hmem
      rw [heq] at hop
      cases hop
    · rw [hmem] at hop
      unfold enqueueEntry at hop
      split at hop <;> cases hop
    · rw [hmem] at hop
      cases hop
      rfl
  · exact .inl (hpasses st hst htid)

/-- Before the execution gives its event back, nobody has moved it: the execution has not, and
workers do not complete events. -/
theorem FinishedAlone.event_before
    (h : FinishedAlone c t d requestID traceID durable reply deadline)
    (hc : Reachable adm (Run.start s₀) c) (hcompletes : OnlyCompletes c.history) {c' : Run x}
    (hc' : Reachable adm (Run.start s₀) c') (hsub : ∀ u ∈ c'.history, u ∈ c.history)
    (hlog : ∀ e ∈ log c'.history t, ∀ ctx m, e.op ≠ .store ctx (.transitionMessage m))
    {v₀ : MessageEvent} {tenantID eventID : String}
    (hv0 : s₀.store.events.lookup (key [tenantID, eventID]) = some v₀)
    (hrunning : v₀.status = .running) :
    c'.state.store.events.lookup (key [tenantID, eventID]) = some v₀ := by
  obtain ⟨v, hv, hphase⟩ := reachable_phase hc' hv0 hrunning fun u hu => hcompletes u (hsub u hu)
  rcases hphase.released with rfl | ⟨u, hu, ctx, n, hop, hto⟩
  · exact hv
  · exfalso
    by_cases hut : u.tid = t
    · exact hlog u.entry (mem_log.2 ⟨u, hu, hut, rfl⟩) ctx n hop
    · obtain ⟨w, hw⟩ := h.passes u (hsub u hu) hut
      obtain ⟨_, _, hk⟩ := append_of_mem (hsub u hu)
      have hissued := (reachable_issued hc hk).1
      rw [hw, hop] at hissued
      cases hissued <;> simp [toReplyPending, toReplied] at hto

/-- The event is completed by the execution. -/
theorem FinishedAlone.closed (h : FinishedAlone c t d requestID traceID durable reply deadline)
    (hs : Executing s₀ durable deadline) (hc : Reachable adm (Run.start s₀) c) :
    ∃ v, c.state.store.events.lookup (key [durable.tenantID, durable.eventID]) = some v ∧
      v.status.Closed := by
  have hstored := h.stored hs hc
  have hcompletes := hstored.onlyCompletes h.passes
  obtain ⟨v₀, hv0, hrunning, howner, htoken, hdeadline⟩ := hs.running
  obtain ⟨m, _, _, r, segments, r', _, _, pre', post', htraces, hlog⟩ := hstored
  obtain ⟨_, st, _, hsplit, htid, hentry, hlog1, -⟩ :=
    exists_of_log_eq (hlog.trans (append_assoc _ [_] [_]).symm)
  have hst : st ∈ c.history := by rw [hsplit]; simp
  obtain ⟨c', k, hc', -, rfl, hpre, -, hp⟩ := hc.before_step hsplit
  have hv := h.event_before hc hcompletes hc'
    (fun u hu => by rw [hsplit]; exact mem_append_left _ hu) (fun e he ctx n hop => by
      rw [hlog1] at he
      rcases mem_append.1 he with he | he
      · obtain ⟨_, _, _, rfl⟩ := htraces e he
        cases hop
      · rw [mem_singleton.1 he] at hop
        unfold enqueueEntry at hop
        split at hop <;> cases hop) hv0 hrunning
  have hclock := h.lease st hst htid
  have hanswer := h.answered st hst
  have hlater := ((reachable_evolves hc).2.1 st hst).2.2.store
  rw [hentry] at hpre hclock hanswer hlater hp
  obtain rfl : c'.state = pre' := hpre
  have hmoves : c'.state.store.MovesMessage c'.state.clock
      (release durable .completed durable.eventID segments) v₀ := by
    refine ⟨hs.held.tenant_ne, hs.held.event_ne, hs.held.owner_ne, rfl, hv, hrunning, ?_⟩
    refine (validateMessageLease_release rfl (.inl rfl)).2 ⟨howner, ?_, htoken, ?_⟩
    · have := hs.token_pos
      show durable.fencingToken ≠ 0
      omega
    · rw [hdeadline]
      rintro _ ⟨⟩
      exact hclock
  obtain ⟨-, hpost⟩ := performs_transitionMessage_of_moves hmoves (fun cause hr => by
    obtain rfl : r' = .error (.ctx cause) := hr
    cases hanswer) hp
  obtain rfl : post' = _ := hpost
  obtain ⟨v, hv', hevolves⟩ := hlater.events _ _ (lookup_insert _)
  exact ⟨v, hv', hevolves.closed (.inl rfl)⟩

end Finish

/-! ## Passes that are over -/

/-- An event that is in `completed`, or in `reply_pending`, at two times was so in between. -/
theorem status_between {u v w : MessageEvent} {status : EventStatus}
    (hstatus : status = .completed ∨ status = .replyPending) (huv : u.Evolves v)
    (hvw : v.Evolves w) (hu : u.status = status) (hw : w.status = status) : v.status = status := by
  have hfinal : ¬ (v.status = .replied ∨ v.status = .failed) := fun h => by
    rw [hvw.final h] at hw
    rcases hstatus with rfl | rfl <;> rcases h with h | h <;> rw [h] at hw <;> cases hw
  rcases hstatus with rfl | rfl
  · rcases huv.closed (.inl hu) with h | h | h | h
    · exact h
    · rcases hvw.pending h with h' | h' | h' <;> rw [h'] at hw <;> cases hw
    · exact absurd (.inl h) hfinal
    · exact absurd (.inr h) hfinal
  · rcases huv.pending hu with h | h
    · exact h
    · exact absurd h hfinal

/-- The steps of `advanceEvent`. -/
def Advances (w : Worker) (eventID : String) (m : MessageTransition) : Prop :=
  m = w.toReplyPending eventID ∨ m = w.toReplied eventID

/-- A step of `advanceEvent` from the status of the event is made: afterwards the event is not in
this status any more. -/
theorem Advances.moved {eventID : String} {m : MessageTransition} (hm : Advances w eventID m)
    (hevent : eventID ≠ "") {s s' : State} {r : Except Storage.Err MessageEvent}
    (hr : ∀ cause, r ≠ .error (.ctx cause))
    (hp : (platform x).Performs (.store .caller (.transitionMessage m)) s r s') {u v : MessageEvent}
    (hu : s.store.events.lookup (key [w.tenantID, eventID]) = some u) (hstatus : u.status = m.from)
    {s'' : Store} (hlater : s'.store.Evolves s'')
    (hv : s''.events.lookup (key [w.tenantID, eventID]) = some v) : v.status ≠ m.from := by
  have hkey : m.tenantID = w.tenantID ∧ m.eventID = eventID ∧ m.owner = w.owner := by
    rcases hm with rfl | rfl <;> exact ⟨rfl, rfl, rfl⟩
  have hmoves : s.store.MovesMessage s.clock m u := by
    refine ⟨by rw [hkey.1]; exact w.tenantID_ne, by rw [hkey.2.1]; exact hevent,
      by rw [hkey.2.2]; exact w.owner_ne, ?_, by rw [hkey.1, hkey.2.1]; exact hu, hstatus, ?_⟩
    · rcases hm with rfl | rfl <;> rfl
    · rcases hm with rfl | rfl <;> rfl
  obtain ⟨-, rfl⟩ := performs_transitionMessage_of_moves hmoves hr hp
  obtain ⟨v', hv', hevolves⟩ := hlater.events _ _ (lookup_insert _)
  rw [hkey.1, hkey.2.1] at hv'
  obtain rfl : v' = v := some.inj (hv'.symm.trans hv)
  rcases hm with rfl | rfl
  · rcases hevolves.pending rfl with h | h | h <;> rw [h] <;> simp [toReplyPending]
  · rw [hevolves.final (.inl rfl)]
    simp [applyMessageTransition, toReplied]

section Passes

variable {s₀ : State} {c : Run x}

variable {st : RunStep x} {w : Worker} {u v : MessageEvent}

/-- A pass of a worker that has returned has nothing left to do. -/
theorem settled_of_result (hc : Reachable Unaudited (Run.start s₀) c)
    (hst : st ∈ c.history) (hcall : st.call = .runOnce w)
    (hresult : (c.result st.tid).isSome = true) : Settled w (log c.history st.tid) := by
  obtain ⟨_, hth⟩ := hc.owner st hst
  rw [hcall] at hth
  obtain ⟨a, ha⟩ := isSome_iff_exists.1 hresult
  have hpost := reachable_returned hc (Config.returned_of_result hth ha)
  obtain ⟨_, -, -, hadm⟩ := hc.admitted hth
  cases a with
  | processed =>
    obtain ⟨hsettled, hexplains⟩ := hpost
    refine hsettled fun e he => ?_
    obtain ⟨-, -, -, -, -, _, -, -, -, -, -, -, -, -, -, -, -, -, hwriter, -⟩ := hexplains _ he
    rw [show w.auditWriter = none from hadm] at hwriter
    cases hwriter
  | _ => exact hpost.elim

/-- What a step of a returned pass owes is in the rest of the history. -/
theorem owed_of_mem (hc : Reachable Unaudited (Run.start s₀) c) (hst : st ∈ c.history)
    (hcall : st.call = .runOnce w) (hresult : (c.result st.tid).isSome = true) :
    ∃ h1 h2, c.history = h1 ++ st :: h2 ∧ Owed w st.entry (log h2 st.tid) := by
  obtain ⟨h1, h2, hsplit⟩ := append_of_mem hst
  have hsettled := settled_of_result hc hst hcall hresult
  rw [hsplit, log_append, log_cons_self] at hsettled
  exact ⟨h1, h2, hsplit, hsettled.owed⟩

/-- A pass that goes on with a step of `advanceEvent` moves the event on. -/
theorem moved_of_owed {adm : Run x → Call → Prop} (hc : Reachable adm (Run.start s₀) c)
    (hanswered : ∀ st ∈ c.history, interrupted st.entry = false) {h1 h2 : List (RunStep x)}
    (hsplit : c.history = h1 ++ st :: h2) {eventID : String}
    {m : MessageTransition} (hm : Advances w eventID m) (hevent : eventID ≠ "")
    {r : Except Storage.Err MessageEvent} {pre post : State} {l : List (Entry x)}
    (hlog : log h2 st.tid = ⟨.store .caller (.transitionMessage m), r, pre, post⟩ :: l)
    (hu : st.entry.post.store.events.lookup (key [w.tenantID, eventID]) = some u)
    (hstatus : u.status = m.from)
    (hv : c.state.store.events.lookup (key [w.tenantID, eventID]) = some v) :
    v.status ≠ m.from := by
  intro hfinal
  rw [← nil_append (_ :: l)] at hlog
  obtain ⟨_, st', _, rfl, -, hentry, -, -⟩ := exists_of_log_eq hlog
  have hst' : st' ∈ c.history := by rw [hsplit]; simp
  obtain ⟨-, hmem, hpair⟩ := reachable_evolves hc
  have hbetween : st.entry.post.Evolves st'.entry.pre := by
    rw [hsplit, pairwise_append] at hpair
    exact (pairwise_cons.1 hpair.2.1).1 st' (by simp)
  obtain ⟨-, hstep, hlater⟩ := hmem st' hst'
  have hp := reachable_performs hc hst'
  have hanswer := hanswered st' hst'
  rw [hentry] at hbetween hstep hlater hp hanswer
  obtain ⟨u', hu', huu'⟩ := hbetween.store.events _ u hu
  obtain ⟨v', hv', hu'v⟩ := (hstep.trans hlater).store.events _ u' hu'
  obtain rfl : v' = v := some.inj (hv'.symm.trans hv)
  have hfrom : m.from = .completed ∨ m.from = .replyPending :=
    hm.imp (fun h => by rw [h]; rfl) fun h => by rw [h]; rfl
  refine hm.moved hevent (fun cause hr => ?_) hp hu'
    (status_between hfrom huu' hu'v hstatus hfinal) hlater.store hv hfinal
  obtain rfl : r = .error (.ctx cause) := hr
  cases hanswer

/-- A reading of a stored event is answered with it. -/
theorem entry_of_getMessage {e : Entry x} {tenantID eventID : String}
    (hop : e.op = .store .caller (.getMessage tenantID eventID))
    (hp : (platform x).Performs e.op e.pre e.res e.post) (hanswer : interrupted e = false)
    (htenant : tenantID ≠ "") (hevent : eventID ≠ "")
    (hu : e.pre.store.events.lookup (key [tenantID, eventID]) = some u) :
    e = messageEntry tenantID eventID u e.pre e.post ∧ e.post = e.pre := by
  obtain ⟨op, res, pre, post⟩ := e
  obtain rfl : op = _ := hop
  obtain ⟨hpost, ⟨-, cause, hcause⟩ | hget⟩ := performs_getMessage hp
  · obtain rfl : res = .error (.ctx cause) := hcause
    cases hanswer
  · obtain rfl : res = .ok u := hget.trans (getMessage_eq_ok.2 ⟨htenant, hevent, hu⟩)
    exact ⟨rfl, hpost⟩

/-- A worker that has read a completed event does not leave it so. -/
theorem not_completed_of_read (hc : Reachable Unaudited (Run.start s₀) c)
    (hanswered : ∀ st ∈ c.history, interrupted st.entry = false) (hst : st ∈ c.history)
    (hcall : st.call = .runOnce w) (hresult : (c.result st.tid).isSome = true) {eventID : String}
    (hevent : eventID ≠ "") (hop : st.entry.op = .store .caller (.getMessage w.tenantID eventID))
    (hu : st.entry.pre.store.events.lookup (key [w.tenantID, eventID]) = some u)
    (hstatus : u.status = .completed)
    (hv : c.state.store.events.lookup (key [w.tenantID, eventID]) = some v) :
    v.status ≠ .completed := by
  obtain ⟨_, _, hsplit, howed⟩ := owed_of_mem hc hst hcall hresult
  obtain ⟨hentry, hpost⟩ := entry_of_getMessage hop (reachable_performs hc hst)
    (hanswered st hst) w.tenantID_ne hevent hu
  obtain ⟨r, _, _, l, hrest⟩ := howed.message eventID u _ _ hentry hstatus
  exact moved_of_owed hc hanswered hsplit (.inl rfl) hevent hrest (by rw [hpost]; exact hu) hstatus
    hv

/-- A worker that has moved an event to `reply_pending` does not leave it so. -/
theorem not_replyPending_of_advance (hc : Reachable Unaudited (Run.start s₀) c)
    (hanswered : ∀ st ∈ c.history, interrupted st.entry = false) (hst : st ∈ c.history)
    (hcall : st.call = .runOnce w) (hresult : (c.result st.tid).isSome = true) {eventID : String}
    (hevent : eventID ≠ "") {event : MessageEvent} {pre post : State}
    (hentry : st.entry = advanceEntry w eventID event pre post)
    (hv : c.state.store.events.lookup (key [w.tenantID, eventID]) = some v) :
    v.status ≠ .replyPending := by
  obtain ⟨_, _, hsplit, howed⟩ := owed_of_mem hc hst hcall hresult
  obtain ⟨r, _, _, l, hrest⟩ := howed.advance eventID event pre post hentry
  have hp := reachable_performs hc hst
  rw [hentry] at hp
  rcases performs_transitionMessage hp with ⟨-, _, herr⟩ | ⟨value, _, -, hpost⟩
  · cases herr
  · have hmoved : st.entry.post.store.events.lookup (key [w.tenantID, eventID]) =
        some (applyMessageTransition pre.clock value (w.toReplyPending eventID)) := by
      rw [hentry]
      show post.store.events.lookup _ = _
      rw [show post = _ from hpost]
      exact lookup_insert _
    exact moved_of_owed hc hanswered hsplit (.inr rfl) hevent hrest hmoved rfl hv

end Passes

/-! ## When the event is replied -/

section Main

variable {s₀ : State} {c : Run x} {t : ℕ} {d : Dispatcher} {requestID traceID reply : String}
  {durable : DurableExecution} {deadline : ℤ}

/-- A reading of the event is a worker's. -/
theorem FinishedAlone.reader {adm : Run x → Call → Prop}
    (h : FinishedAlone c t d requestID traceID durable reply deadline)
    (hs : Executing s₀ durable deadline) (hc : Reachable adm (Run.start s₀) c) {st : RunStep x}
    (hst : st ∈ c.history) {tenantID eventID : String}
    (hop : st.entry.op = .store .caller (.getMessage tenantID eventID)) :
    ∃ w, st.call = .runOnce w ∧ w.tenantID = tenantID := by
  have htid : st.tid ≠ t := by
    intro htid
    obtain ⟨m, _, _, _, _, _, _, _, _, _, htraces, hlog⟩ := h.stored hs hc
    have hmem : st.entry ∈ log c.history t := mem_log.2 ⟨st, hst, htid, rfl⟩
    rw [hlog] at hmem
    simp only [mem_append, mem_cons, not_mem_nil, or_false] at hmem
    rcases hmem with hmem | hmem | hmem
    · obtain ⟨_, _, _, heq⟩ := htraces _ hmem
      rw [heq] at hop
      cases hop
    · rw [hmem] at hop
      unfold enqueueEntry at hop
      split at hop <;> cases hop
    · rw [hmem] at hop
      cases hop
  obtain ⟨w, hw⟩ := h.passes st hst htid
  obtain ⟨_, _, hk⟩ := append_of_mem hst
  have hissued := (reachable_issued hc hk).1
  rw [hw, hop] at hissued
  cases hissued
  exact ⟨w, hw, rfl⟩

/-- In the end the event of a delivered reply is replied if and only if a worker has read it after
the execution had completed it. -/
theorem replied_iff_readAfterRun (hs : Executing s₀ durable deadline)
    (hc : Reachable Unaudited (Run.start s₀) c)
    (h : FinishedAlone c t d requestID traceID durable reply deadline) :
    (∃ v ∈ c.state.store.events.lookup (key [durable.tenantID, durable.eventID]),
      v.status = .replied) ↔ ReadAfterRun c.history durable.tenantID durable.eventID := by
  have hcompletes := (h.stored hs hc).onlyCompletes h.passes
  obtain ⟨v₀, hv0, hrunning, -⟩ := hs.running
  obtain ⟨v, hv, hphase⟩ := reachable_phase hc hv0 hrunning hcompletes
  constructor
  · rintro ⟨v', hv', hstatus⟩
    obtain rfl : v = v' := Option.some.inj (hv.symm.trans hv')
    exact hphase.read (.inr hstatus)
  · rintro ⟨st, hst, hop, hread⟩
    refine ⟨v, hv, ?_⟩
    rcases hphase.status with rfl | hstatus | hstatus | hstatus
    · -- The execution has completed the event.
      obtain ⟨v', hv', hclosed⟩ := h.closed hs hc
      obtain rfl : v = v' := Option.some.inj (hv.symm.trans hv')
      rw [hrunning] at hclosed
      simp [EventStatus.Closed] at hclosed
    · -- The reader has found the event completed, and would have moved it on.
      obtain ⟨w, hw, htenant⟩ := h.reader hs hc hst hop
      obtain ⟨h1, h2, hsplit⟩ := append_of_mem hst
      obtain ⟨c', k, hc', hlater, rfl, hpre, -, -⟩ := hc.before_step hsplit
      obtain ⟨u, hu, hphase'⟩ := reachable_phase hc' hv0 hrunning fun u hu =>
        hcompletes u (by rw [hsplit]; exact mem_append_left _ hu)
      obtain ⟨v', hv', huv⟩ := (reachable_later hlater).store.events _ u hu
      obtain rfl : v' = v := Option.some.inj (hv'.symm.trans hv)
      rw [hpre] at hu
      have hfound : u.status = .completed := by
        rcases hphase'.status with rfl | hu' | hu' | hu'
        · exact absurd hrunning (hread _ hu)
        · exact hu'
        · rcases huv.pending hu' with h' | h' | h' <;> rw [h'] at hstatus <;> cases hstatus
        · rw [huv.final (.inl hu'), hu'] at hstatus
          cases hstatus
      rw [← htenant] at hop hu hv
      exact absurd hstatus (not_completed_of_read hc h.answered hst hw (h.results st hst)
        hs.held.event_ne hop hu hfound hv)
    · obtain ⟨st', hst', w, event, pre, post, hw, htenant, hentry⟩ := hphase.advanced hstatus
      rw [← htenant] at hv
      exact absurd hstatus (not_replyPending_of_advance hc h.answered hst' hw (h.results st' hst')
        hs.held.event_ne hentry hv)
    · exact hstatus

end Main

/-! ## A concrete run -/

/-- A granted execution whose event is running and without a reply is one to start from. -/
theorem executing_of_granted {clock : ℤ} {c : Run x} {durable : DurableExecution} {deadline : ℤ}
    (hc : Reachable Faithful (Run.start (State.initial clock)) c) (hgranted : Granted c durable)
    (hrunning : ∃ v ∈ c.state.store.events.lookup (key [durable.tenantID, durable.eventID]),
      v.status = .running ∧ v.leaseOwner = durable.owner ∧
      v.fencingToken = durable.fencingToken ∧ v.leaseExpiresAt = some deadline)
    (hreply : ¬ ReplyStored c.state.store durable) : Executing c.state durable deadline := by
  obtain ⟨t, _, hgranting⟩ := hgranted.granting hc
  obtain ⟨_, running, _, grant, hsteps⟩ := granting_steps hgranting
  refine ⟨reachable_sound Store.Sound.empty hc, granting_held hc Store.Sound.empty hgranting, ?_,
    noReply_of_not_stored (reachable_named hc) (reachable_correlated hc) hreply, hrunning⟩
  obtain ⟨status, value, hmoves, hvalue, -⟩ := hsteps.granted hc
  obtain ⟨_, _, _, hsplit⟩ := hsteps.order
  have hmem : grant ∈ c.history := by rw [hsplit]; simp
  have hsound := (reachable_sound_step Store.Sound.empty hc hmem).1.events _ value hmoves.found
  have htoken := hsound.fencingToken
  rw [hsteps.fencingToken, hvalue]
  simp only [applyMessageTransition]
  omega

/-- Rows that are all sent make their events delivered. -/
theorem delivered_of_entries {s : Store} {tenantID eventID : String}
    (hrow : ∃ e ∈ s.replies.entries, e.2.tenantID = tenantID ∧ e.2.eventID = eventID)
    (hsent : ∀ e ∈ s.replies.entries, e.2.status = .sent) : Delivered s tenantID eventID := by
  obtain ⟨⟨k, r⟩, hr, htenant, hevent⟩ := hrow
  exact ⟨⟨k, r, mem_lookup_iff.2 hr, htenant, hevent⟩,
    fun k r hr _ _ => hsent ⟨k, r⟩ (mem_lookup_iff.1 hr)⟩

/-- The worker delivers the reply before the execution completes the event. -/
def deliveredEarly : List (Action (services plainExternals)) :=
  [.spawn 2 (sampleFinish "a" 1 "req" "hello")] ++ List.replicate 3 (.perform 2 {}) ++
    [.spawn 3 (samplePass 'w' 2)] ++ List.replicate 9 (.perform 3 {}) ++ [.perform 2 {}]

/-- The worker delivers the reply after the execution has completed the event. -/
def deliveredLate : List (Action (services plainExternals)) :=
  [.spawn 2 (sampleFinish "a" 1 "req" "hello")] ++ List.replicate 4 (.perform 2 {}) ++
    [.spawn 3 (samplePass 'w' 2)] ++ List.replicate 11 (.perform 3 {})

/-- The first execution of the sample, with a test of what can follow. -/
theorem exists_executing (Q : State → Prop) [DecidablePred Q]
    (hrun : ((Run.start (x := plainExternals) (State.initial 1)).run Faithful firstClaim).any
      (fun c => decide (Granted c (sampleHandle "a" 1) ∧
        (∃ v ∈ c.state.store.events.lookup (key ["t", "e"]), v.status = .running ∧
          v.leaseOwner = "gateway-a" ∧ v.fencingToken = 1 ∧
          v.leaseExpiresAt = some 30000000001) ∧
        c.state.store.replies.entries.isEmpty = true ∧ Q c.state)) = true) :
    ∃ s, Executing s (sampleHandle "a" 1) 30000000001 ∧ Q s := by
  obtain ⟨c, hc, hgranted, hrunning, hempty, hQ⟩ := Config.exists_reachable_of_run Faithful
    (Run.start (State.initial 1)) firstClaim _ hrun
  refine ⟨c.state, executing_of_granted hc hgranted hrunning ?_, hQ⟩
  rintro ⟨k, r, hr, -⟩
  have hmem := mem_lookup_iff.1 hr
  rw [isEmpty_iff.1 hempty] at hmem
  cases hmem

/-- What makes the call `2` of a run of the sample one that finished alone. -/
def SampleFinished (c : Run plainExternals) : Prop :=
  c.result 2 = some .finished ∧
    (∀ st ∈ c.history, st.tid = 2 → st.entry.pre.clock < 30000000001) ∧
    (∀ st ∈ c.history, st.tid ≠ 2 → ∃ w, st.call = .runOnce w) ∧
    (∀ st ∈ c.history, (c.result st.tid).isSome = true) ∧
    ∀ st ∈ c.history, interrupted st.entry = false

instance (c : Run plainExternals) : Decidable (SampleFinished c) :=
  inferInstanceAs (Decidable (_ ∧ _))

/-- Such a run is one of `FinishedAlone`. -/
theorem SampleFinished.finishedAlone {c : Run plainExternals} (h : SampleFinished c)
    (hreturned : c.result 2 = some .finished →
      c.Returned 2 (sampleFinish "a" 1 "req" "hello") .finished) :
    FinishedAlone c 2 sampleDispatcher "req" "" (sampleHandle "a" 1) "hello" 30000000001 :=
  ⟨hreturned h.1, by simp [sampleDispatcher], by decide, by decide +kernel, h.2.1, h.2.2.1, h.2.2.2.1,
    h.2.2.2.2⟩

/-- The whole reply is delivered, every delivery is accepted, no time passes, and the event stays
`completed`. -/
theorem leftCompleted : ∃ (s₀ : State) (c : Run plainExternals),
    Executing s₀ (sampleHandle "a" 1) 30000000001 ∧ Reachable Unaudited (Run.start s₀) c ∧
      FinishedAlone c 2 sampleDispatcher "req" "" (sampleHandle "a" 1) "hello" 30000000001 ∧
      (∀ st ∈ c.history, refuses st.entry = false) ∧ c.state.clock = s₀.clock ∧
      Delivered c.state.store "t" "e" ∧
      ∃ v ∈ c.state.store.events.lookup (key ["t", "e"]), v.status = .completed := by
  obtain ⟨s₀, hs0, hrun⟩ := exists_executing (fun s₀ =>
    ((Run.start s₀).run Unaudited deliveredEarly).any (fun c => decide (SampleFinished c ∧
      (∀ st ∈ c.history, refuses st.entry = false) ∧ c.state.clock = s₀.clock ∧
      (∃ e ∈ c.state.store.replies.entries, e.2.tenantID = "t" ∧ e.2.eventID = "e") ∧
      (∀ e ∈ c.state.store.replies.entries, e.2.status = .sent) ∧
      ∃ v ∈ c.state.store.events.lookup (key ["t", "e"]), v.status = .completed)) = true)
    (by decide +kernel)
  obtain ⟨c, hc, hreturned, hfinished, haccepts, hclock, hrow, hsent, hstatus⟩ :=
    Config.exists_returned_of_run Unaudited (Run.start s₀) deliveredEarly _ hrun
  exact ⟨s₀, c, hs0, hc, hfinished.finishedAlone (hreturned 2 _ _ (by simp [deliveredEarly])),
    haccepts, hclock, delivered_of_entries hrow hsent, hstatus⟩

/-- A worker that comes after the execution finishes the event. -/
theorem replied_deliveredLate : ∃ (s₀ : State) (c : Run plainExternals),
    Executing s₀ (sampleHandle "a" 1) 30000000001 ∧ Reachable Unaudited (Run.start s₀) c ∧
      FinishedAlone c 2 sampleDispatcher "req" "" (sampleHandle "a" 1) "hello" 30000000001 ∧
      ReadAfterRun c.history "t" "e" ∧
      ∃ v ∈ c.state.store.events.lookup (key ["t", "e"]), v.status = .replied := by
  obtain ⟨s₀, hs0, hrun⟩ := exists_executing (fun s₀ =>
    ((Run.start s₀).run Unaudited deliveredLate).any (fun c => decide (SampleFinished c ∧
      ReadAfterRun c.history "t" "e")) = true) (by decide +kernel)
  obtain ⟨c, hc, hreturned, hfinished, hread⟩ :=
    Config.exists_returned_of_run Unaudited (Run.start s₀) deliveredLate _ hrun
  have halone := hfinished.finishedAlone (hreturned 2 _ _ (by simp [deliveredLate]))
  exact ⟨s₀, c, hs0, hc, halone, hread, (replied_iff_readAfterRun hs0 hc halone).2 hread⟩

end AgentService.Platform
