import AgentService.Outbox.Materializer
import AgentService.Storage.Sound

/-!
# Segments of a reply

A reply that is not blank has segments, and the batch of its rows is one that the store accepts
(`validateReplyBatch_batch`): the rows are numbered from zero, each index occurs once, and they all
carry the same identifiers. `enqueueReplies_eq_ok` adds that the batch is written when nothing of
the reply is there yet, and `enqueued_rows_of_stored` that it adds no row when the reply is there.
-/

namespace AgentService.Outbox

open Storage Platform Store List

/-- A reply that is not blank has segments. -/
theorem splitRunes_ne_nil {value : String} {size : ℕ} (h : Go.trimSpace value ≠ "") :
    splitRunes value size ≠ [] := by
  unfold splitRunes
  rw [if_neg h]
  have hne : Go.runes value ≠ [] := by
    intro hnil
    apply h
    rw [Go.trimSpace_eq_empty_iff]
    intro c hc
    rw [show value.toList = [] from hnil] at hc
    cases hc
  simpa using Go.chunks_ne_nil hne

/-- The segments of a reply in order give the reply back. -/
theorem join_splitRunes {value : String} {size : ℕ} (hsize : 0 < size)
    (h : Go.trimSpace value ≠ "") : String.join (splitRunes value size) = value := by
  unfold splitRunes
  rw [if_neg h, ← String.toList_inj, String.toList_join, flatMap_map]
  simp only [String.toList_ofList]
  rw [flatMap_id', Go.chunks_flatten hsize _ _ (Nat.le_refl _)]
  rfl

/-- Each segment of a reply has between one and `size` code points. -/
theorem runes_of_mem_splitRunes {value payload : String} {size : ℕ} (hsize : 0 < size)
    (h : payload ∈ splitRunes value size) :
    1 ≤ (Go.runes payload).length ∧ (Go.runes payload).length ≤ size := by
  unfold splitRunes at h
  split_ifs at h
  · cases h
  · obtain ⟨piece, hpiece, rfl⟩ := mem_map.1 h
    rw [Go.runes, String.toList_ofList]
    exact Go.chunks_length_mem hsize _ _ piece hpiece

/-! ## The rows of a batch -/

/-- The rows of a batch and their indices. -/
theorem mem_batch_iff {input : MaterializeInput} {count : ℕ} {segments : List String} {index : ℕ}
    {row : ReplyOutbox} : row ∈ batch input count index segments ↔
      ∃ i payload, segments[i]? = some payload ∧ row =
        { tenantID := input.tenantID, replyID := input.replyID, eventID := input.eventID,
          segmentIndex := (index + i : ℕ), segmentCount := count, payload := payload,
          replyTarget := input.replyTarget } := by
  induction segments generalizing index with
  | nil => simp [batch]
  | cons payload _ ih =>
    simp only [batch, mem_cons, ih]
    constructor
    · rintro (rfl | ⟨i, payload', hi, rfl⟩)
      · exact ⟨0, payload, rfl, by simp⟩
      · refine ⟨i + 1, payload', by simpa using hi, ?_⟩
        congr 2
        omega
    · rintro ⟨i, payload', hi, rfl⟩
      cases i with
      | zero =>
        obtain rfl : payload = payload' := by simpa using hi
        exact .inl (by simp)
      | succ i =>
        refine .inr ⟨i, payload', by simpa using hi, ?_⟩
        congr 2
        omega

section Batch

variable {input : MaterializeInput} {count : ℕ} {first : ReplyOutbox}

/-- An input whose rows the store accepts. -/
structure ValidInput (input : MaterializeInput) : Prop where
  tenant_ne : input.tenantID ≠ ""
  reply_ne : input.replyID ≠ ""
  event_ne : input.eventID ≠ ""
  /-- The destination is valid. -/
  target : validateReplyTarget input.replyTarget = none

/-- A row that carries the identifiers of an input and the count of its batch. -/
structure RowOf (input : MaterializeInput) (count : ℕ) (row : ReplyOutbox) : Prop where
  tenantID : row.tenantID = input.tenantID
  replyID : row.replyID = input.replyID
  eventID : row.eventID = input.eventID
  /-- The count is the batch's. -/
  segmentCount : row.segmentCount = count
  replyTarget : row.replyTarget = input.replyTarget

/-- The loop of `validateReplyBatch` accepts the rows of a batch and collects their indices. -/
theorem collectSegments_batch (hinput : ValidInput input) (hfirst : RowOf input count first)
    (segments : List String) (index : ℕ) (seen : List ℤ) (hcount : index + segments.length ≤ count)
    (hseen : ∀ j ∈ seen, j < index) :
    ∃ seen', Store.collectSegments first (batch input count index segments) seen = some seen' ∧
      seen'.length = seen.length + segments.length ∧
      ∀ j, j ∈ seen' ↔ j ∈ seen ∨ ((index : ℤ) ≤ j ∧ j < index + segments.length) := by
  induction segments generalizing index seen with
  | nil =>
    refine ⟨seen, rfl, rfl, fun j => ⟨.inl, ?_⟩⟩
    rintro (h | ⟨h1, h2⟩)
    · exact h
    · simp only [length_nil] at h2
      omega
  | cons payload _ ih =>
    simp only [length_cons] at hcount ⊢
    have hrow : invalidBatchReply first
        { tenantID := input.tenantID, replyID := input.replyID, eventID := input.eventID,
          segmentIndex := index, segmentCount := count, payload := payload,
          replyTarget := input.replyTarget } = false := by
      simp only [invalidBatchReply, decide_eq_false_iff_not, not_or, not_not, ne_eq,
        validateTenant_eq_none, hfirst.tenantID, hfirst.replyID, hfirst.eventID,
        hfirst.segmentCount, hfirst.replyTarget, hinput.target, not_and]
      exact ⟨hinput.tenant_ne, hinput.reply_ne, hinput.event_ne, by omega, by omega,
        fun h => absurd trivial h, trivial, trivial, trivial, trivial, trivial, trivial⟩
    have hnot : ((index : ℕ) : ℤ) ∉ seen := fun h => by
      have := hseen _ h
      omega
    obtain ⟨seen', heq, hlength, hmem⟩ := ih (index + 1) ((index : ℤ) :: seen) (by omega)
      (fun j hj => by
        rcases mem_cons.1 hj with rfl | hj
        · omega
        · have := hseen j hj
          omega)
    refine ⟨seen', ?_, ?_, fun j => ?_⟩
    · simp only [batch, collectSegments, hrow, hnot, if_false, Bool.false_eq_true]
      exact heq
    · rw [hlength, length_cons]
      omega
    · rw [hmem]
      simp only [mem_cons]
      push_cast
      constructor
      · rintro ((rfl | h) | h)
        · exact .inr ⟨by omega, by omega⟩
        · exact .inl h
        · exact .inr ⟨by omega, by omega⟩
      · rintro (h | ⟨h1, h2⟩)
        · exact .inl (.inr h)
        · by_cases hj : j = index
          · exact .inl (.inl hj)
          · exact .inr ⟨by omega, by omega⟩

/-- The store accepts the batch of a reply that has segments. -/
theorem validateReplyBatch_batch (hinput : ValidInput input) {segments : List String}
    (hsegments : segments ≠ []) :
    ∃ first, Store.validateReplyBatch (batch input segments.length 0 segments) = .ok first ∧
      RowOf input segments.length first := by
  obtain ⟨payload, rest, rfl⟩ := exists_cons_of_ne_nil hsegments
  have hfirst : RowOf input (payload :: rest).length
      { tenantID := input.tenantID, replyID := input.replyID, eventID := input.eventID,
        segmentIndex := (0 : ℕ), segmentCount := (payload :: rest).length, payload := payload,
        replyTarget := input.replyTarget } := ⟨rfl, rfl, rfl, rfl, rfl⟩
  obtain ⟨seen, hseen, hlength, hmem⟩ := collectSegments_batch hinput hfirst (payload :: rest) 0 []
    (by omega) (by simp)
  refine ⟨_, ?_, hfirst⟩
  unfold validateReplyBatch
  simp only [batch] at hseen ⊢
  rw [hseen]
  have hall : (range ((payload :: rest).length : ℤ).toNat).all
      (fun index => decide ((index : ℤ) ∈ seen)) = true := by
    rw [all_eq_true]
    intro i hi
    rw [mem_range] at hi
    rw [decide_eq_true_eq, hmem]
    exact .inr ⟨by omega, by omega⟩
  simp only [hlength, length_nil, Nat.zero_add, ne_eq, not_true_eq_false, if_false, hall, if_true]

end Batch

/-! ## The batch in the store -/

section Store

variable {s : Store} {now : ℤ} {correlation : ReplyCorrelation} {values : List ReplyOutbox}
  {first : ReplyOutbox}

variable (now : ℤ)

/-- A batch that passes all checks is written. -/
theorem enqueueReplies_eq_ok {event : MessageEvent}
    (hbatch : Store.validateReplyBatch values = .ok first)
    (hevent : s.events.lookup (key [first.tenantID, first.eventID]) = some event)
    (htarget : event.replyTarget = first.replyTarget)
    (hcorrelation : Store.checkCorrelation s correlation first = none)
    (hexisting : ∀ v ∈ values, s.replies.lookup (Store.rowKey v) = none) :
    ∃ rows, s.enqueueReplies now correlation values =
      (.ok rows, s.enqueued now correlation values) := by
  have hrows : validateExistingReplies s.replies values = none := by
    rw [validateExistingReplies_eq_none]
    intro v hv _ hrow
    rw [hexisting v hv] at hrow
    cases hrow
  refine ⟨(insertReplies now values s.replies).1, ?_⟩
  simp only [enqueueReplies, hbatch, hevent, htarget, ne_eq, not_true_eq_false, if_false,
    hcorrelation, hrows]
  rfl

/-- A batch for a reply that is stored adds no row. -/
theorem enqueued_rows_of_stored (hs : s.Sound) (henq : s.Enqueues correlation values first)
    {k : String} {row : ReplyOutbox} (hrow : s.replies.lookup k = some row)
    (htenant : row.tenantID = first.tenantID) (hreply : row.replyID = first.replyID) (k' : String) :
    (s.enqueued now correlation values).replies.lookup k' = s.replies.lookup k' := by
  -- The count of the stored reply is the one of the batch: both have a first segment.
  have hcount : row.segmentCount = first.segmentCount := by
    obtain ⟨-, -, -, -, -, -, hindex, hlt, -⟩ := henq.batch.agrees henq.batch.first_mem
    obtain ⟨v, hv, hv0⟩ := henq.batch.covers 0 (Int.le_refl 0) (by omega)
    obtain ⟨hvt, hvr, -, hvc, -⟩ := henq.batch.agrees hv
    have hsound := hs.rows k row hrow
    obtain ⟨u, hu, hucount, -⟩ := hs.segments k row hrow 0 (Int.le_refl 0)
      (by have := hsound.index_nonneg; have := hsound.index_lt; omega)
    have hdiffers := henq.existing v hv u (by
      rw [rowKey, hvt, hvr, hv0, ← htenant, ← hreply]
      exact hu)
    simp only [replyDiffers, decide_eq_false_iff_not, not_or, not_not, ne_eq] at hdiffers
    rw [← hucount, hdiffers.2.1, hvc]
  simp only [enqueued, lookup_insertReplies]
  cases hk : s.replies.lookup k' with
  | some => rfl
  | none =>
    rw [Option.none_or, Option.map_eq_none_iff, find?_eq_none]
    intro v hv hkey
    obtain ⟨hvt, hvr, -, hvc, -, -, hindex, hlt, -⟩ := henq.batch.agrees hv
    obtain ⟨u, hu, -⟩ := hs.segments k row hrow v.segmentIndex hindex (by omega)
    rw [htenant, hreply, ← hvt, ← hvr] at hu
    rw [← of_decide_eq_true hkey, rowKey, hu] at hk
    cases hk

/-- A batch under the correlation that is stored leaves all correlations as they are. -/
theorem enqueued_correlations_of_stored (henq : s.Enqueues correlation values first)
    (hcorrelation : correlation.requestID ≠ "" → ∃ stored,
      s.correlations.lookup (key [correlation.tenantID, correlation.eventID]) = some stored)
    (k' : String) :
    (s.enqueued now correlation values).correlations.lookup k' = s.correlations.lookup k' := by
  simp only [enqueued]
  split_ifs with hrequest
  · by_cases hk : k' = key [correlation.tenantID, correlation.eventID]
    · obtain ⟨stored, hstored⟩ := hcorrelation hrequest
      rw [hk, AList.lookup_insert, hstored,
        checkCorrelation_eq_none henq.correlation hrequest hstored]
    · exact AList.lookup_insert_ne hk
  · rfl

end Store

end AgentService.Outbox
