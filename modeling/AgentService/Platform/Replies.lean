import AgentService.Gateway.Finish
import AgentService.Outbox.Segments
import AgentService.Platform.Executions

/-!
# Replies and their correlations

Two more invariants of the store, which come from the gateway and not from the store itself. The
rows of an event form one reply that carries the name of the event (`reachable_named`), and where
all requests have an identifier, an event has reply rows exactly when it has a correlation
(`reachable_correlated`).
-/

namespace AgentService.Platform

open Storage Concurrent Gateway Outbox

variable {x : Externals}

/-- Every reply carries the name of its event. -/
def Named (s : Store) : Prop := ∀ k r, s.replies.lookup k = some r → r.replyID = r.eventID

/-- Reply rows and correlations come together. -/
structure Correlated (s : Store) : Prop where
  /-- The event of a row has a correlation. -/
  correlation : ∀ k r, s.replies.lookup k = some r →
    ∃ stored, s.correlations.lookup (key [r.tenantID, r.eventID]) = some stored
  /-- The event of a correlation has a row. -/
  reply : ∀ k stored, s.correlations.lookup k = some stored →
    ∃ k' r, s.replies.lookup k' = some r ∧ k = key [r.tenantID, r.eventID]

/-- A change keeps the names, when the rows of a batch carry them. -/
theorem Change.named {now : ℤ} {o : StoreOp} {s s' : Store} (h : Change x now s o s')
    (hs : Named s) (hnew : ∀ correlation values, o.Batch x correlation values →
      ∀ v ∈ values, v.replyID = v.eventID) : Named s' := by
  intro k r hr
  rcases h.row k with heq | ⟨correlation, values, v, ho, hv, -, -, heq⟩ |
    ⟨_, _, _, _, _, value, -, rfl, hclaims, heq⟩ | ⟨t, value, -, rfl, hmoves, heq⟩
  · exact hs k r (heq.symm.trans hr)
  · rw [hr] at heq
    cases heq
    exact hnew correlation values ho v hv
  · rw [hr] at heq
    cases heq
    exact hs _ value hclaims.found
  · rw [hr] at heq
    cases heq
    exact hs _ value hmoves.found

variable {s : Store}

/-- A later version of a row keeps rows and correlations together. -/
theorem Correlated.setReply (hs : Correlated s) {k : String} {r r' : ReplyOutbox}
    (hfound : s.replies.lookup k = some r) (hr : r.Evolves r') : Correlated (s.setReply k r') := by
  refine ⟨fun k1 w hw => ?_, fun k1 stored hstored => ?_⟩
  · by_cases hk : k1 = k
    · subst hk
      obtain rfl := Option.some.inj (hw.symm.trans (AList.lookup_insert _))
      rw [hr.tenantID, hr.eventID]
      exact hs.correlation _ r hfound
    · exact hs.correlation k1 w ((AList.lookup_insert_ne hk).symm.trans hw)
  · obtain ⟨k', w, hw, rfl⟩ := hs.reply k1 stored hstored
    obtain ⟨w', hw', hevolves⟩ := (Store.Evolves.setReply hfound hr).replies k' w hw
    exact ⟨k', w', hw', by rw [hevolves.tenantID, hevolves.eventID]⟩

/-- A batch with a correlation keeps rows and correlations together. -/
theorem Correlated.enqueued (hs : Correlated s) (hsound : s.Sound) {now : ℤ}
    {correlation : ReplyCorrelation} {values : List ReplyOutbox} {first : ReplyOutbox}
    (henq : s.Enqueues correlation values first) (hrequest : correlation.requestID ≠ "") :
    Correlated (s.enqueued now correlation values) := by
  have hlater : s.Evolves (s.enqueued now correlation values) := .enqueued henq
  obtain ⟨htenant, hevent⟩ := henq.names hrequest
  refine ⟨fun k r hr => ?_, fun k stored hstored => ?_⟩
  · rcases Store.lookup_enqueued hr with hold | ⟨-, v, hv, -, rfl⟩
    · obtain ⟨stored, hstored⟩ := hs.correlation k r hold
      exact ⟨stored, hlater.correlations _ _ hstored⟩
    · obtain ⟨hvt, -, hve, -⟩ := henq.batch.agrees hv
      refine ⟨correlation, ?_⟩
      show (s.enqueued now correlation values).correlations.lookup (key [v.tenantID, v.eventID]) = _
      rw [hvt, hve, ← htenant, ← hevent]
      simp only [Store.enqueued, hrequest, ne_eq, not_false_eq_true, if_true]
      exact AList.lookup_insert _
  · by_cases hk : k = key [correlation.tenantID, correlation.eventID]
    · obtain ⟨r, hr, -, hre, hrt⟩ := henq.row hsound now henq.batch.first_mem
      exact ⟨_, r, hr, by rw [hk, htenant, hevent, hrt, hre]⟩
    · obtain ⟨k', r, hr, rfl⟩ : ∃ k' r, s.replies.lookup k' = some r ∧
          k = key [r.tenantID, r.eventID] := by
        refine hs.reply k stored ?_
        simp only [Store.enqueued, hrequest, ne_eq, not_false_eq_true, if_true] at hstored
        exact (AList.lookup_insert_ne hk).symm.trans hstored
      obtain ⟨r', hr', hevolves⟩ := hlater.replies k' r hr
      exact ⟨k', r', hr', by rw [hevolves.tenantID, hevolves.eventID]⟩

/-- A change keeps rows and correlations together, when every batch has a correlation. -/
theorem Change.correlated {now : ℤ} {o : StoreOp} {s s' : Store} (h : Change x now s o s')
    (hs : Correlated s) (hsound : s.Sound)
    (hnew : ∀ correlation values, o.Batch x correlation values → correlation.requestID ≠ "") :
    Correlated s' := by
  cases h with
  | none | session | record | message => exact ⟨hs.correlation, hs.reply⟩
  | enqueue _ correlation values _ ho henq =>
    exact hs.enqueued hsound henq (hnew correlation values ho)
  | claim _ _ _ _ _ _ h =>
    exact hs.setReply h.found h.evolves
  | reply _ _ h => exact hs.setReply h.found h.evolves

/-- A reply of the event of a handle is stored. -/
def ReplyStored (s : Store) (durable : DurableExecution) : Prop :=
  ∃ k r, s.replies.lookup k = some r ∧ r.tenantID = durable.tenantID ∧
    r.eventID = durable.eventID

/-- Nothing of a reply of an event is stored. -/
structure NoReply (s : Store) (tenantID eventID : String) : Prop where
  /-- There is no row of the event, and none of a reply with its name. -/
  rows : ∀ k r, s.replies.lookup k = some r → r.tenantID = tenantID →
    r.eventID ≠ eventID ∧ r.replyID ≠ eventID
  /-- There is no correlation of the event. -/
  correlation : s.correlations.lookup (key [tenantID, eventID]) = none

/-- Where no reply of an event is stored, nothing of one is. -/
theorem noReply_of_not_stored {durable : DurableExecution} (hnamed : Named s)
    (hcorrelated : Correlated s) (hstored : ¬ ReplyStored s durable) :
    NoReply s durable.tenantID durable.eventID := by
  have hrow : ∀ k r, s.replies.lookup k = some r → r.tenantID = durable.tenantID →
      r.eventID ≠ durable.eventID := fun k r hr ht he => hstored ⟨k, r, hr, ht, he⟩
  refine ⟨fun k r hr ht => ⟨hrow k r hr ht, hnamed k r hr ▸ hrow k r hr ht⟩, ?_⟩
  rw [Option.eq_none_iff_forall_ne_some]
  intro stored hsome
  obtain ⟨k, r, hr, hkey⟩ := hcorrelated.reply _ stored hsome
  simp only [key_inj, List.cons.injEq, and_true] at hkey
  exact hrow k r hr hkey.1.symm hkey.2.symm

variable {m : Materializer}

/-- The rows of a reply are new segments of its execution. -/
theorem newSegment_of_mem_replyRows {durable : DurableExecution} {reply : String}
    {row : ReplyOutbox} (h : row ∈ replyRows m durable reply) : NewSegment durable row := by
  obtain ⟨ht, hr, he, htarget, ha, hf⟩ := mem_batch h
  exact ⟨ht, he, hr, htarget, ha, hf⟩

section Batch

variable {s s' : State} {durable : DurableExecution} {correlation : ReplyCorrelation}
  {r : Except Storage.Err (List ReplyOutbox)}

/-- A batch for an event of which no reply is stored is written. -/
theorem enqueue_of_noReply (hsound : s.store.Sound) (hheld : Held s.store durable)
    (hnone : NoReply s.store durable.tenantID durable.eventID) {m : Materializer} {reply : String}
    (hvalid : ¬ Refused m durable reply) (ht : correlation.tenantID = durable.tenantID)
    (he : correlation.eventID = durable.eventID) (hrequest : correlation.requestID ≠ "")
    (hp : (platform x).Performs (.store .background (.enqueueRepliesWithCorrelation correlation
      (replyRows m durable reply))) s r s') :
    (∃ rows, r = .ok rows) ∧ ReplyStored s'.store durable := by
  simp only [Refused, not_or, not_not, ne_eq] at hvalid
  have hinput : ValidInput (materializeInput durable "" "" "" reply) :=
    ⟨hvalid.1, hvalid.2.1, hvalid.2.1, hvalid.2.2.1⟩
  have hsegments : replySegments m reply ≠ [] := hvalid.2.2.2
  obtain ⟨first, hbatch, hfirst⟩ := validateReplyBatch_batch hinput hsegments
  obtain ⟨_, hevent, htarget⟩ := hheld.stored
  have hcorrelation : Store.checkCorrelation s.store
      { correlation with traceParent := x.normalizeTraceParent correlation.traceParent } first =
        none := by
    unfold Store.checkCorrelation
    rw [if_neg hrequest, if_neg (by
      rw [hfirst.tenantID, hfirst.eventID]
      exact not_or.2 ⟨not_not.2 ht, not_not.2 he⟩)]
    dsimp only
    rw [ht, he, hnone.correlation]
  have hrows : ∀ v ∈ replyRows m durable reply,
      s.store.replies.lookup (Store.rowKey v) = none := fun v hv => by
    rw [Option.eq_none_iff_forall_ne_some]
    intro row hrow
    have hnew := newSegment_of_mem_replyRows hv
    have hkey := (hsound.rows _ row hrow).key
    simp only [Store.rowKey, replyKey_inj] at hkey
    exact (hnone.rows _ row hrow (hkey.1.symm.trans hnew.tenantID)).2
      (hkey.2.1.symm.trans hnew.replyID)
  obtain ⟨rows, hok⟩ := enqueueReplies_eq_ok s.clock hbatch
    (by rw [hfirst.tenantID, hfirst.eventID]; exact hevent)
    (htarget.trans hfirst.replyTarget.symm) hcorrelation hrows
  have hr : r = .ok rows := by
    rcases performs_store.1 hp with ⟨hctx, -⟩ | ⟨_, store, happly, -⟩
    · cases hctx
    · simp only [StoreOp.apply, Store.enqueueRepliesWithCorrelation] at happly
      rw [if_neg (by
        rw [ht, he]
        exact not_or.2 ⟨hheld.tenant_ne, not_or.2 ⟨hheld.event_ne, hrequest⟩⟩)] at happly
      exact (congrArg Prod.fst ((Option.some.inj happly).symm.trans hok))
  refine ⟨⟨rows, hr⟩, ?_⟩
  rcases performs_enqueueRepliesWithCorrelation hp with
    ⟨-, err, herr⟩ | ⟨given, first', rows', -, henq, -, rfl⟩
  · rw [hr] at herr
    cases herr
  · obtain ⟨row, hrow, -, hre, hrt⟩ := henq.row hsound s.clock henq.batch.first_mem
    have hnew := newSegment_of_mem_replyRows henq.batch.first_mem
    exact ⟨_, row, hrow, hrt.trans hnew.tenantID, hre.trans hnew.eventID⟩

end Batch

section Runs

variable {adm : Run x → Call → Prop} {clock : ℤ} {c : Run x}

/-- What a call of `finishDurable` has performed when it has returned. -/
theorem finished_of_returned {s0 : State} (hc : Reachable adm (Run.start s0) c) {t : ℕ}
    {d : Dispatcher} {requestID traceID reply : String} {durable : DurableExecution}
    {terminalErr : Option Gateway.Err}
    (hr : c.Returned t (.finishDurable d requestID traceID (some durable) terminalErr reply)
      .finished) :
    Finished d requestID traceID durable reply terminalErr (log c.history t) := by
  have hbody : ((services x).body (.finishDurable d requestID traceID (some durable) terminalErr
      reply)).Obeys (fun _ _ => True)
      (fun l _ => Finished d requestID traceID durable reply terminalErr l) [] := by
    show Program.Obeys _ _ (_ >>= _) _
    rw [Program.obeys_bind]
    refine (finishDurable_obeys d requestID traceID durable terminalErr reply []).mono
      (fun _ _ _ => trivial) ?_
    rintro l - ⟨k, rfl, hk⟩
    exact hk
  exact hc.returned hbody hr

/-- Throughout every run the replies carry the names of their events. -/
theorem reachable_named (hc : Reachable adm (Run.start (State.initial clock)) c) :
    Named c.state.store := by
  refine reachable_store (I := Named) (fun k r h => by cases h) ?_ hc
  intro c t _ _ _ o store _ _ hpre hchange hnamed
  refine hchange.named hnamed fun _ _ ho v hv => ?_
  obtain ⟨_, hnew⟩ := hpre.newSegments ho
  rw [(hnew v hv).replyID, (hnew v hv).eventID]

section

variable (hc : Reachable Faithful (Run.start (State.initial clock)) c)

include hc

/-- The requests of a started call have identifiers. -/
theorem request_ne {t : ℕ} {call : Call} {prog : Code x Result}
    (hth : c.threads t = some ⟨call, prog⟩) {r : String} (hr : call.Requests r) : r ≠ "" := by
  obtain ⟨_, -, -, hadm⟩ := hc.admitted hth
  cases call with
  | finishDurable d requestID =>
    obtain rfl : r = requestID := hr
    exact hadm.1
  | forward d e =>
    obtain rfl : r = e.requestID := hr
    exact hadm.1
  | _ => exact hr.elim

/-- Throughout every run rows and correlations come together. -/
theorem reachable_correlated : Correlated c.state.store := by
  refine reachable_store (I := Correlated)
    ⟨fun k r h => (by cases h), fun k r h => (by cases h)⟩ ?_ hc
  intro c t call _ _ o store hc hth hpre hchange hcorrelated
  refine hchange.correlated hcorrelated (reachable_sound Store.Sound.empty hc) ?_
  intro _ _ ho
  cases o with
  | enqueueReplies =>
    cases call with
    | runOnce => cases hpre
    | _ => exact absurd rfl (request_ne hc hth hpre.1)
  | enqueueRepliesWithCorrelation =>
    obtain ⟨rfl, -, -, -, hrequest⟩ := ho
    exact hrequest
  | _ => exact ho.elim

end

end Runs

end AgentService.Platform
