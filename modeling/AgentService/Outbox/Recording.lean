import AgentService.Audit.Validity
import AgentService.Outbox.Delivery
import AgentService.Platform.Exclusion

/-!
# Audit events of deliveries

A worker writes an audit event for each settlement of a delivery. Three things can go wrong although
the audit store is healthy. The identity of the event is derived from its type, the request, and the
trace, so that the second segment of a reply, or the second retry, collides with the first one
(`secondSegmentConflicts`); two of the error classes of the worker are not in the contract of the
audit events; and a reconciliation that is settled is not recorded at all. In every run in which
none of these happens (`recordable`) no pass ends with an error, and each settlement has its own
audit event (`recorded_of_recordable`).
-/

namespace AgentService.Outbox

open Storage Platform Concurrent Option List
open Audit (clean fieldValid Event digest)

variable {x : Externals}

/-- Workers write to the audit store of their tenant, whose name is a valid text. -/
def Audited (_ : Run x) : Call → Prop
  | .runOnce w => w.auditWriter = some w.tenantID ∧ clean w.tenantID = w.tenantID ∧
    fieldValid w.tenantID = true
  | _ => True

instance : (c : Run x) → (call : Call) → Decidable (Audited c call)
  | _, .runOnce w => inferInstanceAs (Decidable (w.auditWriter = some w.tenantID ∧
    clean w.tenantID = w.tenantID ∧ fieldValid w.tenantID = true))
  | _, .claimInbound .. | _, .failDurable _ | _, .finishDurable .. | _, .forward ..
  | _, .dispatch .. => isTrue trivial

/-- The identifiers of the stored rows and correlations are valid texts of audit events. -/
def AuditableStore (s : Store) : Prop :=
  (∀ e ∈ s.correlations.entries,
    fieldValid e.2.requestID = true ∧ fieldValid e.2.traceID = true) ∧
    ∀ e ∈ s.replies.entries, fieldValid e.2.replyID = true

instance (s : Store) : Decidable (AuditableStore s) := inferInstanceAs (Decidable (_ ∧ _))

/-- A step after which the settlement can be recorded: no reconciliation is settled, no delivery
fails with a class outside the audit contract, and no event is stored under the identity of one that
a worker appends. -/
def recordable (st : RunStep x) : Bool :=
  match st.entry with
  | ⟨.env (.reconcile _), .ok (status, _), _, _⟩ => status = .unknown
  | ⟨.env (.deliver _), .error (.delivery errorClass _), _, _⟩ =>
    errorClass ≠ "not_ready" ∧ errorClass ≠ "provider_rejected"
  | ⟨.append _ _ event, _, pre, _⟩ =>
    (∃ w, st.call = .runOnce w) → pre.audits.lookup (event.tenantID, event.eventID) = none
  | _ => true

/-- After its settlement a row has its own audit event: the pass reads the correlation and the
clock, and appends a new event of the type and with the error class of the settlement. -/
def OwnEvent (writer : String) (t : ReplyTransition) (rest : List (Entry x)) : Prop :=
  ∃ e₁ e₂ event result pre post l,
    rest = e₁ :: e₂ :: appendEntry writer event (.ok result) pre post :: l ∧
      event.eventType = deliveryType t ∧ event.errorType = t.errorClass ∧
      result.duplicate = false ∧
      post.audits.lookup (event.tenantID, event.eventID) = some ⟨event, result.digest⟩

/-! ## Errors of the store -/

section Errors

variable {adm : Run x → Call → Prop} {s₀ : State} {c : Run x} {t : ℕ}

/-- A row that an entry lists is in its answer. -/
theorem mem_listed {e : Entry x} {row : ReplyOutbox} (h : row ∈ listed e) :
    ∃ ctx tenantID rows pre post, e = ⟨.store ctx (.listReplyCandidates tenantID),
      (.ok rows : Except Err (List ReplyOutbox)), pre, post⟩ ∧ row ∈ rows := by
  obtain ⟨op, res, pre, post⟩ := e
  cases op with
  | store ctx o =>
    cases o with
    | listReplyCandidates tenantID =>
      cases res with
      | error => exact absurd h not_mem_nil
      | ok rows => exact ⟨ctx, tenantID, rows, pre, post, rfl, h⟩
    | _ => exact absurd h not_mem_nil
  | _ => exact absurd h not_mem_nil

/-- A listed row is well formed. -/
theorem listing_sound (hc : Reachable adm (Run.start s₀) c) (hs : s₀.store.Sound)
    {candidate : ReplyOutbox} (hmem : candidate ∈ listing (log c.history t)) :
    ∃ k, Store.RowSound k candidate := by
  cases hlog : log c.history t with
  | nil =>
    rw [hlog] at hmem
    cases hmem
  | cons =>
    rw [hlog] at hmem
    obtain ⟨_, _, rows, _, _, rfl, hrow⟩ := mem_listed hmem
    obtain ⟨_, hst, -, hentry⟩ := mem_log.1 (hlog ▸ mem_cons_self)
    have hp := reachable_performs hc hst
    have hsound := (reachable_sound_step hs hc hst).1
    rw [hentry] at hp hsound
    obtain ⟨-, ⟨_, herr, -⟩ | ⟨rows', hrows, hiff⟩⟩ := performs_listReplyCandidates hp
    · cases herr
    · obtain rfl : rows = rows' := Except.ok.inj hrows
      obtain ⟨⟨k, hk⟩, -⟩ := (hiff candidate).1 hrow
      exact ⟨k, hsound.rows k candidate hk⟩

/-- A claimed row stays stored. -/
theorem Claimed.stored_later {h g h' : List (RunStep x)} {w : Worker}
    {candidate found row : ReplyOutbox} {st : RunStep x}
    (hcl : Claimed h t w candidate found row g st) (hc : Reachable adm (Run.start s₀) c)
    (hs : s₀.store.Sound) (hh : c.history = h ++ h') :
    ∃ value, c.state.store.replies.lookup (Store.rowKey row) = some value ∧ row.Evolves value := by
  obtain ⟨_, rfl⟩ := hcl.before
  have hmem : st ∈ c.history := by simp [hh]
  have hkey := ((reachable_sound_step hs hc hmem).2.rows _ _ hcl.stored).key
  have hlater := ((reachable_evolves hc).2.1 st hmem).2.2.store
  rw [← hkey]
  exact hlater.replies _ row hcl.stored

/-- A claim of a listed candidate that fails finds the row taken or gone, or the context done. -/
theorem claim_error (hc : Reachable adm (Run.start s₀) c) (hs : s₀.store.Sound) {w : Worker}
    {candidate : ReplyOutbox} (hmem : candidate ∈ listing (log c.history t)) {err : Err}
    {pre post : State} (he : (⟨.store .caller (.claimReply candidate.tenantID candidate.replyID
      candidate.segmentIndex w.owner w.leaseDuration), (.error err : Except Err ReplyOutbox), pre,
        post⟩ : Entry x) ∈ log c.history t) :
    err = .notFound ∨ err = .conflict ∨ ∃ cause, err = .ctx cause := by
  obtain ⟨_, hst, -, hentry⟩ := mem_log.1 he
  have hp := reachable_performs hc hst
  rw [hentry] at hp
  obtain ⟨k, hrow⟩ := listing_sound hc hs hmem
  rcases performs_store.1 hp with ⟨-, -, cause, hcause⟩ | ⟨_, store, happly, -⟩
  · exact .inr (.inr ⟨cause, Except.error.inj hcause⟩)
  · simp only [StoreOp.apply] at happly
    have herr := congrArg Prod.fst (some.inj happly)
    exact (Store.claimReply_error hrow.tenant_ne hrow.reply_ne w.owner_ne w.leaseDuration_pos
      herr).imp_right .inl

/-- A settlement has the parts of the claimed row, and is a legal step. -/
theorem settle_legal (w : Worker) (row : ReplyOutbox) (answer : Except ProviderErr String) :
    ∃ status errorClass providerID,
      settlement w row answer = w.settle row status errorClass providerID ∧
        validateTransition .sending status = true := by
  cases answer with
  | ok providerID => exact ⟨.sent, "", providerID, rfl, rfl⟩
  | error =>
    refine ⟨_, _, _, rfl, ?_⟩
    unfold Worker.rejectedStatus
    split_ifs <;> rfl

/-- So does the settlement of a reconciliation. -/
theorem reconciled_legal (w : Worker) (row : ReplyOutbox) (status : DeliveryStatus)
    (providerID : String) : ∃ status' errorClass,
      w.reconciled row status providerID = w.settle row status' errorClass providerID ∧
        validateTransition .sending status' = true := by
  unfold Worker.reconciled
  split_ifs
  · exact ⟨.retryable, _, rfl, rfl⟩
  · exact ⟨.sent, _, rfl, rfl⟩

/-- A settlement is issued for a stored row. -/
theorem settles_stored (hc : Reachable adm (Run.start s₀) c) (hs : s₀.store.Sound) {w : Worker}
    {ctx : Ctx} {transition : ReplyTransition}
    (hissue : Issues w (log c.history t) (.store ctx (.transitionReply transition))) :
    ∃ row status errorClass providerID value,
      transition = w.settle row status errorClass providerID ∧
      validateTransition .sending status = true ∧
      c.state.store.replies.lookup (Store.rowKey row) = some value ∧ row.Evolves value := by
  have hrow : ∀ row l (e : Entry x), log c.history t = l ++ [e] →
      (e.op = .env (.deliver row) ∨ e.op = .env (.reconcile row)) →
      ∃ value, c.state.store.replies.lookup (Store.rowKey row) = some value ∧
        row.Evolves value := by
    intro row l e hlog hop
    obtain ⟨_, _, _, hsplit, -, hentry, -⟩ := exists_of_log_eq hlog
    rw [← hentry] at hop
    obtain ⟨_, _, _, g, _, -, hcl, -⟩ := handled_claimed hc hsplit hop
    exact hcl.stored_later hc hs hsplit
  cases hissue with
  | settle row answer l _ _ hlog =>
    obtain ⟨status, errorClass, providerID, heq, hlegal⟩ := settle_legal w row answer
    obtain ⟨value, hvalue⟩ := hrow row l _ hlog (.inl rfl)
    exact ⟨row, status, errorClass, providerID, value, heq, hlegal, hvalue⟩
  | reconciled row status providerID l _ _ hlog =>
    obtain ⟨status', errorClass, heq, hlegal⟩ := reconciled_legal w row status providerID
    obtain ⟨value, hvalue⟩ := hrow row l _ hlog (.inr rfl)
    exact ⟨row, status', errorClass, providerID, value, heq, hlegal, hvalue⟩

/-- A settlement that fails finds the row changed, or the context done. -/
theorem settle_error (hc : Reachable adm (Run.start s₀) c) (hs : s₀.store.Sound) {st : RunStep x}
    (hst : st ∈ c.history) {w : Worker} (hcall : st.call = .runOnce w)
    {transition : ReplyTransition} {err : Err} {pre post : State}
    (hentry : st.entry = ⟨.store .caller (.transitionReply transition),
      (.error err : Except Err ReplyOutbox), pre, post⟩) :
    err = .conflict ∨ ∃ cause, err = .ctx cause := by
  obtain ⟨_, _, hsplit⟩ := append_of_mem hst
  obtain ⟨c', k, hc', -, rfl, hpre, hth, hp⟩ := hc.before_step hsplit
  have hissue := reachable_pre hc' hth
  rw [hentry] at hp hpre hissue
  rw [hcall] at hissue
  obtain ⟨row, status, errorClass, providerID, value, rfl, hlegal, hvalue, hevolves⟩ :=
    settles_stored hc' hs hissue
  have hsound := (reachable_sound hs hc').rows _ value hvalue
  obtain rfl : c'.state = pre := hpre
  rcases performs_store.1 hp with ⟨-, -, cause, hcause⟩ | ⟨_, store, happly, -⟩
  · exact .inr ⟨cause, Except.error.inj hcause⟩
  · simp only [StoreOp.apply] at happly
    have herr := congrArg Prod.fst (some.inj happly)
    refine .inl (Store.transitionReply_error (t := w.settle row status errorClass providerID) ?_ ?_
      w.owner_ne hlegal hvalue herr)
    · rw [Worker.settle, ← hevolves.tenantID]
      exact hsound.tenant_ne
    · rw [Worker.settle, ← hevolves.replyID]
      exact hsound.reply_ne

end Errors

/-! ## The audit event of a settlement -/

/-- An answer of the provider whose error class is in the audit contract. -/
def AuditableAnswer (answer : Except ProviderErr String) : Prop :=
  ∀ errorClass retryable, answer = .error (.delivery errorClass retryable) →
    errorClass ≠ "not_ready" ∧ errorClass ≠ "provider_rejected"

/-- The class of such an answer is an error type of the audit contract. -/
theorem AuditableAnswer.validErrorType {answer : Except ProviderErr String}
    (h : AuditableAnswer answer) (w : Worker) (row : ReplyOutbox) :
    (settlement w row answer).errorClass = "" ∨
      Audit.validErrorType (settlement w row answer).errorClass = true := by
  cases answer with
  | ok => exact .inl rfl
  | error err =>
    refine .inr ?_
    show Audit.validErrorType (classify err).1 = true
    cases err with
    | delivery errorClass retryable =>
      obtain ⟨hready, hrejected⟩ := h errorClass retryable rfl
      unfold classify normalizeErrorClass
      dsimp only
      split_ifs with hne hmem
      · simp only [mem_cons, not_mem_nil, or_false, hready, hrejected, false_or] at hmem
        rcases hmem with rfl | rfl | rfl | rfl | rfl | rfl | rfl <;> rfl
      · rfl
      · rfl
    | _ => decide

/-- The audit event of a settlement passes validation when its texts do. -/
theorem deliveryEvent_valid {w : Worker} (hclean : clean w.tenantID = w.tenantID)
    (hvalid : fieldValid w.tenantID = true) {row : ReplyOutbox}
    (hreply : fieldValid row.replyID = true) {answer : Except ProviderErr String}
    (hanswer : AuditableAnswer answer) {r : Except Err ReplyCorrelation}
    (hcorrelation : ∀ correlation, r = .ok correlation →
      fieldValid correlation.requestID = true ∧
        fieldValid correlation.traceID = true) {now : ℤ} (hnow : now ≠ 0) :
    (deliveryEvent x w row (settlement w row answer) r now).validate = none := by
  have htype : ∀ t, Audit.validEventType (deliveryType t) = true ∧
      deliveryType t ≠ .controlPlaneChanged := fun t => by
    unfold deliveryType
    split_ifs <;> exact ⟨rfl, by decide⟩
  have hdecision : ∀ t, Audit.validDecision
      (if deliveryType t ≠ .imDeliverySent then .rejected else .accepted) = true := fun t => by
    split_ifs <;> rfl
  have hempty : fieldValid "" = true := by decide
  unfold deliveryEvent
  cases r with
  | ok correlation =>
    obtain ⟨hrequest, htrace⟩ := hcorrelation correlation rfl
    exact Audit.validate_complete_imEvent x.hashing hclean w.tenantID_ne hvalid hnow hrequest htrace
      (htype _).1 (htype _).2 (hdecision _) (hanswer.validErrorType w row)
  | error =>
    exact Audit.validate_complete_imEvent x.hashing hclean w.tenantID_ne hvalid hnow hreply hempty
      (htype _).1 (htype _).2 (hdecision _) (hanswer.validErrorType w row)

/-- The tenant, the type, and the error class of the audit event of a settlement. -/
theorem deliveryEvent_fields (w : Worker) (hclean : clean w.tenantID = w.tenantID)
    (row : ReplyOutbox) (t : ReplyTransition) (r : Except Err ReplyCorrelation) (now : ℤ) :
    (deliveryEvent x w row t r now).tenantID = w.tenantID ∧
      (deliveryEvent x w row t r now).eventType = deliveryType t ∧
      (deliveryEvent x w row t r now).errorType = t.errorClass := by
  unfold deliveryEvent
  cases r with
  | ok => simp [Audit.complete_imEvent, hclean]
  | error => simp [Audit.complete_imEvent, hclean]

/-- An event that passes validation, under an identity that is not in use, is stored. -/
theorem append_new {H : Audit.Hashing} {writer : String} {backend : Audit.Backend}
    {event : Event} (hwriter : writer ≠ "") (htenant : event.tenantID = writer)
    (hvalid : event.validate = none) (hnew : backend.lookup (event.tenantID, event.eventID) = none) :
    Audit.append H writer backend event = (.ok ⟨false, digest H event⟩,
      backend.insert (event.tenantID, event.eventID) ⟨event, digest H event⟩) := by
  unfold Audit.append
  rw [if_neg (not_or.2 ⟨hwriter, not_not.2 htenant⟩), hvalid]
  simp only [hnew]

section Passes

variable {s₀ : State} {c : Run x} {t : ℕ} {w : Worker}

/-- What a run needs so that its settlements are recorded: the stores answer, the identifiers are
valid texts, and the steps are recordable. -/
structure RecordableRun (s₀ : State) (c : Run x) : Prop where
  /-- The run is one of audited workers and any other calls. -/
  reachable : Reachable Audited (Run.start s₀) c
  /-- The store was well formed. -/
  sound : s₀.store.Sound
  /-- The clock was set. -/
  clock_pos : 0 < s₀.clock
  /-- The runtime store has answered. -/
  answered : ∀ st ∈ c.history, interrupted st.entry = false
  /-- The audit store has answered. -/
  appended : ∀ st ∈ c.history, auditFault st.entry = false
  /-- The identifiers are valid texts. -/
  identifiers : ∀ st ∈ c.history, AuditableStore st.entry.pre.store
  /-- The steps are recordable. -/
  recordable : ∀ st ∈ c.history, recordable st = true

section

variable (h : RecordableRun s₀ c)

include h

/-- A correlation that was read has valid texts. -/
theorem RecordableRun.correlation {row : ReplyOutbox} {r : Except Err ReplyCorrelation}
    {pre post : State} (hmem : (correlationEntry row r pre post : Entry x) ∈ log c.history t) :
    ∀ correlation, r = .ok correlation → fieldValid correlation.requestID = true ∧
      fieldValid correlation.traceID = true := by
  rintro correlation rfl
  obtain ⟨st, hst, -, hentry⟩ := mem_log.1 hmem
  have hp := reachable_performs h.reachable hst
  obtain ⟨hids, -⟩ := h.identifiers st hst
  rw [hentry] at hp hids
  obtain ⟨-, ⟨-, _, hcause⟩ | hget⟩ := performs_getReplyCorrelation hp
  · cases hcause
  · have hget' : pre.store.getReplyCorrelation x.normalizeTraceParent row.tenantID row.eventID =
        .ok correlation := hget.symm
    unfold Store.getReplyCorrelation at hget'
    split_ifs at hget'
    cases hvalue : pre.store.correlations.lookup (key [row.tenantID, row.eventID]) with
    | none => simp [hvalue] at hget'
    | some value =>
      simp only [hvalue, Except.ok.injEq] at hget'
      rw [← hget']
      exact hids ⟨_, value⟩ (AList.mem_lookup_iff.1 hvalue)

/-- A row that was delivered has a valid name, and its answer is in the audit contract. -/
theorem RecordableRun.delivered {row : ReplyOutbox} {answer : Except ProviderErr String}
    {pre post : State} (hmem : (deliverEntry row answer pre post : Entry x) ∈ log c.history t) :
    fieldValid row.replyID = true ∧ AuditableAnswer answer := by
  obtain ⟨st, hst, -, hentry⟩ := mem_log.1 hmem
  constructor
  · obtain ⟨_, _, hsplit⟩ := append_of_mem hst
    obtain ⟨c', k, hc', -, rfl, hpre, -, -⟩ := h.reachable.before_step hsplit
    obtain ⟨_, _, _, g, _, -, hcl, -⟩ := handled_claimed h.reachable hsplit
      (.inl (by rw [hentry]; rfl) : _ ∨ st.entry.op = .env (.reconcile row))
    obtain ⟨_, hvalue, hevolves⟩ := hcl.stored_later hc' h.sound (append_nil c'.history).symm
    rw [← hevolves.replyID]
    obtain ⟨-, hids⟩ := h.identifiers st hst
    rw [← hpre] at hids
    exact hids ⟨_, _⟩ (AList.mem_lookup_iff.1 hvalue)
  · rintro _ _ rfl
    have hrec := h.recordable st hst
    unfold Outbox.recordable at hrec
    rw [hentry] at hrec
    exact of_decide_eq_true hrec

/-- A clock that was read was set. -/
theorem RecordableRun.now {now : ℤ} {pre post : State}
    (hmem : (nowEntry now pre post : Entry x) ∈ log c.history t) : now ≠ 0 := by
  obtain ⟨st, hst, -, hentry⟩ := mem_log.1 hmem
  have hp := reachable_performs h.reachable hst
  have hclock := ((reachable_evolves h.reachable).2.1 st hst).1.clock
  rw [hentry] at hp hclock
  obtain ⟨-, hnow⟩ := performs_now hp
  have hpos := h.clock_pos
  have hnow' : now = pre.clock := hnow
  have hclock' : s₀.clock ≤ pre.clock := hclock
  omega

/-- The workers of the run are audited. -/
theorem RecordableRun.audited {prog : Code x Result} (hth : c.threads t = some ⟨.runOnce w, prog⟩) :
    w.auditWriter = some w.tenantID ∧ clean w.tenantID = w.tenantID ∧
      fieldValid w.tenantID = true := by
  obtain ⟨_, -, -, hadm⟩ := h.reachable.admitted hth
  exact hadm

/-- The audit event of a settlement of a pass is valid. -/
theorem RecordableRun.valid {prog : Code x Result} (hth : c.threads t = some ⟨.runOnce w, prog⟩)
    {row : ReplyOutbox} {answer : Except ProviderErr String} {r : Except Err ReplyCorrelation}
    {now : ℤ} {pre post pre1 post1 pre2 post2 : State}
    (hdeliver : (deliverEntry row answer pre post : Entry x) ∈ log c.history t)
    (hcorrelation : (correlationEntry row r pre1 post1 : Entry x) ∈ log c.history t)
    (hnow : (nowEntry now pre2 post2 : Entry x) ∈ log c.history t) :
    (deliveryEvent x w row (settlement w row answer) r now).validate = none := by
  obtain ⟨-, hclean, hvalid⟩ := h.audited hth
  obtain ⟨hreply, hanswer⟩ := h.delivered hdeliver
  exact deliveryEvent_valid hclean hvalid hreply hanswer (h.correlation hcorrelation) (h.now hnow)

/-- A valid event of a worker that is appended to the store of its tenant is stored as a new one. -/
theorem RecordableRun.append {prog : Code x Result} (hth : c.threads t = some ⟨.runOnce w, prog⟩)
    {event : Event} (htenant : event.tenantID = w.tenantID) (hvalid : event.validate = none)
    {r : Except Audit.Err Audit.AppendResult} {pre post : State}
    (hmem : (appendEntry w.tenantID event r pre post : Entry x) ∈ log c.history t) :
    ∃ result, r = .ok result ∧ result.duplicate = false ∧
      post.audits.lookup (event.tenantID, event.eventID) = some ⟨event, result.digest⟩ := by
  obtain ⟨st, hst, rfl, hentry⟩ := mem_log.1 hmem
  have hp := reachable_performs h.reachable hst
  have hfault := h.appended st hst
  have hrec := h.recordable st hst
  obtain ⟨_, hth'⟩ := h.reachable.owner st hst
  have hcall : st.call = .runOnce w := congrArg Thread.call (some.inj (hth'.symm.trans hth))
  rw [hentry] at hp hfault
  unfold Outbox.recordable at hrec
  rw [hentry] at hrec
  have hnew : pre.audits.lookup (event.tenantID, event.eventID) = none :=
    of_decide_eq_true hrec ⟨w, hcall⟩
  rcases performs_append hp with ⟨-, ⟨cause, -, hcause⟩ | hunavailable⟩ | ⟨hr, hpost⟩
  · obtain rfl : r = .error (.ctx cause) := hcause
    cases hfault
  · obtain rfl : r = .error .unavailable := hunavailable
    cases hfault
  · have happend := append_new (H := x.hashing) w.tenantID_ne htenant hvalid hnew
    have haudits : post.audits = (Audit.append x.hashing w.tenantID pre.audits event).2 :=
      congrArg State.audits hpost
    refine ⟨⟨false, digest x.hashing event⟩, hr.trans (congrArg Prod.fst happend), rfl, ?_⟩
    rw [haudits, happend]
    exact AList.lookup_insert _

/-- A pass of a recordable run ends without an error. -/
theorem RecordableRun.no_error {count : ℕ} {err : Option WorkerErr}
    (hr : c.Returned t (.runOnce w) (.processed count err)) : err = none := by
  rw [eq_none_iff_forall_ne_some]
  intro e he
  have hanswer : ∀ e ∈ log c.history t, interrupted e = false := fun e he => by
    obtain ⟨st, hst, -, rfl⟩ := mem_log.1 he
    exact h.answered st hst
  have hexplains := (reachable_returned h.reachable hr).2 e he
  cases e with
  | invalid => exact hexplains
  | storage err =>
    rcases hexplains with ⟨pre, post, hmem⟩ | ⟨hconflict, hnotFound, candidate, hlisted, pre, post,
      hmem⟩ | ⟨hconflict, candidate, -, row, answer, pre, post, _, _, -, hmem⟩
    · obtain ⟨st, hst, -, hentry⟩ := mem_log.1 hmem
      have hp := reachable_performs h.reachable hst
      rw [hentry] at hp
      obtain ⟨-, ⟨_, herr, hempty | ⟨cause, rfl⟩⟩ | ⟨_, hrows, -⟩⟩ :=
        performs_listReplyCandidates hp
      · exact w.tenantID_ne hempty
      · obtain rfl : err = .ctx cause := Except.error.inj herr
        exact absurd (hanswer _ hmem) (by simp [interrupted])
      · cases hrows
    · rcases claim_error h.reachable h.sound hlisted hmem with rfl | rfl | ⟨cause, rfl⟩
      · exact hnotFound rfl
      · exact hconflict rfl
      · exact absurd (hanswer _ hmem) (by simp [interrupted])
    · obtain ⟨st, hst, rfl, hentry⟩ := mem_log.1 hmem
      obtain ⟨_, hth⟩ := h.reachable.owner st hst
      have hcall := congrArg Thread.call (some.inj (hth.symm.trans hr))
      rcases settle_error h.reachable h.sound hst hcall hentry with rfl | ⟨cause, rfl⟩
      · exact hconflict rfl
      · exact absurd (hanswer _ hmem) (by simp [interrupted])
  | audit =>
    obtain ⟨row, answer, _, r, now, writer, pre, post, _, _, _, _, _, _,
      hdeliver, -, hcorrelation, hnow, hwriter, hfail⟩ := hexplains
    have hvalid := h.valid hr hdeliver hcorrelation hnow
    rcases hfail with hinvalid | ⟨_, _, hmem⟩
    · rw [hvalid] at hinvalid
      cases hinvalid
    · obtain ⟨haudited, hclean, -⟩ := h.audited hr
      obtain rfl : writer = w.tenantID := by
        rw [haudited] at hwriter
        exact (some.inj hwriter).symm
      obtain ⟨_, hok, -⟩ := h.append hr (deliveryEvent_fields w hclean row _ r now).1 hvalid hmem
      cases hok

end

/-- In a recordable run, no pass returns an error, and every settlement of a pass that has returned
has its own audit event. -/
theorem recorded_of_recordable (h : RecordableRun s₀ c) {count : ℕ} {err : Option WorkerErr}
    (hr : c.Returned t (.runOnce w) (.processed count err)) :
    err = none ∧ ∀ h₁ st h₂ transition value pre post, c.history = h₁ ++ st :: h₂ → st.tid = t →
      st.entry = settleEntry transition value pre post →
        OwnEvent w.tenantID transition (log h₂ t) := by
  obtain rfl := h.no_error hr
  refine ⟨rfl, ?_⟩
  rintro h₁ st h₂ transition value pre post hsplit rfl hentry
  have hsettled : Settled w (log c.history st.tid) :=
    (reachable_returned h.reachable hr).1 fun e he => by cases he
  have hst : st ∈ c.history := by rw [hsplit]; simp
  obtain ⟨prog, hth⟩ := h.reachable.owner st hst
  have hcall : st.call = .runOnce w := congrArg Thread.call (Option.some.inj (hth.symm.trans hr))
  have hissue := (reachable_issued h.reachable hsplit).1
  rw [hcall, hentry] at hissue
  change Issues w _ (.store .caller (.transitionReply transition)) at hissue
  cases hissue with
  | reconciled _ _ _ _ _ _ hlog hstatus =>
    -- A reconciliation with a definite answer is not recordable.
    obtain ⟨k1, u, k2, rfl, -, hu, -⟩ := exists_of_log_eq hlog
    have hrec := h.recordable u (by rw [hsplit]; simp)
    unfold Outbox.recordable at hrec
    rw [hu] at hrec
    exact absurd (of_decide_eq_true hrec) hstatus
  | settle row answer l pre' post' hlog =>
    have hwhole : log c.history st.tid = l ++ deliverEntry row answer pre' post' :: st.entry ::
        log h₂ st.tid := by
      rw [hsplit, log_append, log_cons_self, hlog, List.append_assoc]
      rfl
    obtain ⟨haudited, hclean, -⟩ := h.audited hr
    rw [hwhole] at hsettled
    obtain ⟨e, rest, heq, -, hrecord⟩ := hsettled.owed.deliver row answer pre' post' rfl
    obtain ⟨rfl, rfl⟩ := List.cons.inj heq
    obtain ⟨r, now, result, pre1, post1, pre2, post2, pre3, post3, l', hrest⟩ :=
      hrecord value pre post hentry w.tenantID haudited
    have hdeliver : deliverEntry row answer pre' post' ∈ log c.history st.tid := by
      rw [hwhole]; simp
    have hrest' : ∀ e ∈ log h₂ st.tid, e ∈ log c.history st.tid := fun e he => by
      rw [hwhole]; simp [he]
    rw [hrest] at hrest'
    have hvalid := h.valid hr hdeliver (hrest' (correlationEntry row r pre1 post1) (by simp))
      (hrest' (nowEntry now pre2 post2) (by simp))
    obtain ⟨htenant, htype, hclass⟩ :=
      deliveryEvent_fields (x := x) w hclean row (settlement w row answer) r now
    obtain ⟨result', hok, hduplicate, hstored⟩ := h.append hr htenant hvalid
      (hrest' (appendEntry w.tenantID _ (.ok result) pre3 post3) (by simp))
    cases hok
    exact ⟨_, _, _, result, pre3, post3, l', hrest, htype, hclass, hduplicate, hstored⟩

end Passes

/-! ## A concrete run -/

/-- A worker of the tenant `t` with an audit writer. -/
def auditedWorker : Worker :=
  { sampleWorker 'w' 2 with
    leaseDuration := 1000, auditWriter := some "t", leaseDuration_pos := by decide }

/-- A claim, a reply, and `n` operations of a pass of the audited worker, each at its own time. -/
def auditedPass (reply : String) (n : ℕ) : List (Action (services plainExternals)) :=
  firstClaim ++ [.spawn 2 (sampleFinish "a" 1 "req" reply)] ++ List.replicate 4 (.perform 2 {}) ++
    [.spawn 3 (.runOnce auditedWorker)] ++
    (List.replicate n [.move (1 : ℕ), .perform 3 {}]).flatten

/-- Where the stores answer, the identifiers are valid, every delivery is accepted, and no clock
reading repeats, the second segment of a reply ends the pass with a conflict. -/
theorem secondSegmentConflicts : ∃ c : Run plainExternals,
    Reachable Audited (Run.start (State.initial 1)) c ∧
      (∀ st ∈ c.history, interrupted st.entry = false ∧ auditFault st.entry = false ∧
        AuditableStore st.entry.pre.store ∧ refuses st.entry = false) ∧
      c.history.Pairwise (fun a b => a.tid = 3 → b.tid = 3 →
        a.entry.pre.clock < b.entry.pre.clock) ∧
      c.Returned 3 (.runOnce auditedWorker) (.processed 2 (some (.audit .conflict))) := by
  obtain ⟨c, hc, hreturned, hsteps, hclock, hresult⟩ := Config.exists_returned_of_run Audited
    (Run.start (State.initial 1)) (auditedPass "hello!" 18)
    (fun c => (∀ st ∈ c.history, interrupted st.entry = false ∧ auditFault st.entry = false ∧
        AuditableStore st.entry.pre.store ∧ refuses st.entry = false) ∧
      c.history.Pairwise (fun a b => a.tid = 3 → b.tid = 3 →
        a.entry.pre.clock < b.entry.pre.clock) ∧
      c.result 3 = some (.processed 2 (some (.audit .conflict)))) (by decide +kernel)
  exact ⟨c, hc, hsteps, hclock, hreturned 3 _ _ (by simp [auditedPass]) hresult⟩

/-- The status that a settlement was made to. -/
def settledTo : Entry x → Option ReplyStatus
  | ⟨.store .caller (.transitionReply t), .ok _, _, _⟩ => some t.to
  | _ => none

/-- An entry with such a status is a settlement. -/
theorem exists_of_settledTo {e : Entry x} {status : ReplyStatus} (h : settledTo e = some status) :
    ∃ t value pre post, e = settleEntry t value pre post ∧ t.to = status := by
  unfold settledTo at h
  split at h
  · exact ⟨_, _, _, _, rfl, some.inj h⟩
  · cases h

/-- The one segment of a reply is sent, and has its own audit event. -/
theorem recorded_oneSegment : ∃ c : Run plainExternals, RecordableRun (State.initial 1) c ∧
    c.Returned 3 (.runOnce auditedWorker) (.processed 1 none) ∧
      ∃ h₁ st h₂ t, c.history = h₁ ++ st :: h₂ ∧ t.to = .sent ∧
        OwnEvent "t" t (log h₂ st.tid) := by
  obtain ⟨c, hc, hreturned, hsteps, hrec, ⟨st, hst, htid, hsettled⟩, hresult⟩ :=
    Config.exists_returned_of_run Audited (Run.start (State.initial 1)) (auditedPass "hello" 13)
    (fun c => (∀ st ∈ c.history, interrupted st.entry = false ∧ auditFault st.entry = false ∧
        AuditableStore st.entry.pre.store) ∧ (∀ st ∈ c.history, recordable st = true) ∧
      (∃ st ∈ c.history, st.tid = 3 ∧ settledTo st.entry = some .sent) ∧
      c.result 3 = some (.processed 1 none)) (by decide +kernel)
  have hrun : RecordableRun (State.initial 1) c :=
    ⟨hc, Store.Sound.empty, by decide, fun st hst => (hsteps st hst).1,
      fun st hst => (hsteps st hst).2.1, fun st hst => (hsteps st hst).2.2, hrec⟩
  have hreturned' := hreturned 3 (.runOnce auditedWorker) _ (by simp [auditedPass]) hresult
  obtain ⟨h₁, h₂, hsplit⟩ := List.append_of_mem hst
  obtain ⟨t, value, pre, post, hentry, hto⟩ := exists_of_settledTo hsettled
  refine ⟨c, hrun, hreturned', h₁, st, h₂, t, hsplit, hto, ?_⟩
  rw [htid]
  exact (recorded_of_recordable hrun hreturned').2 h₁ st h₂ t value pre post hsplit htid hentry

end AgentService.Outbox
