import AgentService.Storage.Calls

/-!
# Reply batches

A batch is materialized as a whole or not at all, and the same batch can be given again at any later
time. Along every run in which no session is deleted and no row is stored by itself, the rows of a
reply form a complete set of segments of one event, with one destination and one count (`Batched`).
A batch that fails leaves the store as it is; one that succeeds leaves its segments complete and
every earlier row as it was; and from then on it succeeds again with the same rows and changes
nothing (`batches_atomic`).
-/

namespace AgentService.Storage

open Concurrent Store

variable {lib : Libraries} {s s' : Store} {now : ℤ}

/-! ## Replies in all their segments -/

/-- The rows of a reply: the segments from zero below `n`, of one event and with one destination.
With `n = 0` there are none. -/
structure CompleteReply (s : Store) (tenantID replyID : String) (n : ℤ) (eventID : String)
    (target : ReplyTarget) : Prop where
  /-- Every row of the reply is one of the segments. -/
  rows : ∀ k row, s.replies.lookup k = some row → row.tenantID = tenantID → row.replyID = replyID →
    k = replyKey tenantID replyID row.segmentIndex ∧ 0 ≤ row.segmentIndex ∧ row.segmentIndex < n ∧
      row.segmentCount = n ∧ row.eventID = eventID ∧ row.replyTarget = target
  /-- Every segment is there. -/
  present : ∀ i, 0 ≤ i → i < n → ∃ row, s.replies.lookup (replyKey tenantID replyID i) = some row ∧
    row.tenantID = tenantID ∧ row.replyID = replyID ∧ row.segmentIndex = i

/-- A store whose replies are complete, seen from each row. -/
structure Batched (s : Store) : Prop where
  /-- Every row stands under its key. -/
  identity : ∀ k row, s.replies.lookup k = some row → Store.rowKey row = k
  /-- Its index lies below its count. -/
  index : ∀ k row, s.replies.lookup k = some row →
    0 ≤ row.segmentIndex ∧ row.segmentIndex < row.segmentCount
  /-- Every other segment is there, of the same event and with the same destination and count. -/
  complete : ∀ k row, s.replies.lookup k = some row → ∀ i, 0 ≤ i → i < row.segmentCount →
    ∃ row', s.replies.lookup (replyKey row.tenantID row.replyID i) = some row' ∧
      row'.eventID = row.eventID ∧ row'.replyTarget = row.replyTarget ∧
      row'.segmentCount = row.segmentCount

section

variable (h : Batched s)

include h

/-- Two rows of one reply have one event, one destination, and one count. -/
theorem Batched.agree {k k' : String} {row row' : ReplyOutbox}
    (hrow : s.replies.lookup k = some row) (hrow' : s.replies.lookup k' = some row')
    (htenant : row.tenantID = row'.tenantID) (hreply : row.replyID = row'.replyID) :
    row.eventID = row'.eventID ∧ row.replyTarget = row'.replyTarget ∧
      row.segmentCount = row'.segmentCount := by
  -- Both agree with the first segment of the reply.
  obtain ⟨_, _⟩ := h.index k row hrow
  obtain ⟨_, _⟩ := h.index k' row' hrow'
  obtain ⟨_, hzero, hevent, htarget, hn⟩ := h.complete k row hrow 0 (by omega) (by omega)
  obtain ⟨_, hzero', hevent', htarget', hn'⟩ := h.complete k' row' hrow' 0 (by omega) (by omega)
  rw [htenant, hreply, hzero'] at hzero
  cases hzero
  exact ⟨hevent.symm.trans hevent', htarget.symm.trans htarget', hn.symm.trans hn'⟩

/-- The rows of the reply of a row are complete. -/
theorem Batched.completeReply_of_row {k : String} {row : ReplyOutbox}
    (hrow : s.replies.lookup k = some row) :
    CompleteReply s row.tenantID row.replyID row.segmentCount row.eventID row.replyTarget := by
  refine ⟨fun k' row' hrow' htenant hreply => ?_, fun i h0 hi => ?_⟩
  · obtain ⟨hevent, htarget, hcount⟩ := h.agree hrow' hrow htenant hreply
    obtain ⟨hindex, hlt⟩ := h.index k' row' hrow'
    refine ⟨?_, hindex, hcount ▸ hlt, hcount, hevent, htarget⟩
    rw [← htenant, ← hreply]
    exact (h.identity k' row' hrow').symm
  · obtain ⟨row', hrow', -⟩ := h.complete k row hrow i h0 hi
    have hkey := h.identity _ row' hrow'
    rw [rowKey, replyKey_inj] at hkey
    exact ⟨row', hrow', hkey.1, hkey.2.1, hkey.2.2⟩

/-- The rows of every reply are complete. -/
theorem Batched.completeReply (tenantID replyID : String) :
    ∃ n eventID target, CompleteReply s tenantID replyID n eventID target := by
  by_cases hany : ∃ k row, s.replies.lookup k = some row ∧ row.tenantID = tenantID ∧
      row.replyID = replyID
  · obtain ⟨k, row, hrow, rfl, rfl⟩ := hany
    exact ⟨_, _, _, h.completeReply_of_row hrow⟩
  · refine ⟨0, "", {}, fun k row hrow htenant hreply => ?_, fun i _ _ => ?_⟩
    · exact absurd ⟨k, row, hrow, htenant, hreply⟩ hany
    · omega

/-- Later versions of the rows, and no others, are complete. -/
theorem Batched.evolves (hlater : s.Evolves s')
    (hback : ∀ k row', s'.replies.lookup k = some row' →
      ∃ row, s.replies.lookup k = some row ∧ row.Evolves row') : Batched s' := by
  refine ⟨fun k row' hrow' => ?_, fun k row' hrow' => ?_, fun k row' hrow' i h0 hi => ?_⟩
  · obtain ⟨row, hrow, hev⟩ := hback k row' hrow'
    rw [← h.identity k row hrow, rowKey, rowKey, hev.tenantID, hev.replyID, hev.segmentIndex]
  · obtain ⟨row, hrow, hev⟩ := hback k row' hrow'
    rw [hev.segmentIndex, hev.segmentCount]
    exact h.index k row hrow
  · obtain ⟨row, hrow, hev⟩ := hback k row' hrow'
    rw [hev.segmentCount] at hi
    obtain ⟨row1, hrow1, hevent, htarget, hcount⟩ := h.complete k row hrow i h0 hi
    obtain ⟨row2, hrow2, hev2⟩ := hlater.replies _ row1 hrow1
    refine ⟨row2, ?_, ?_, ?_, ?_⟩
    · rw [hev.tenantID, hev.replyID]
      exact hrow2
    · rw [hev2.eventID, hevent, hev.eventID]
    · rw [hev2.replyTarget, htarget, hev.replyTarget]
    · rw [hev2.segmentCount, hcount, hev.segmentCount]

end

/-- What two rows that do not differ have in common. -/
theorem Store.replyDiffers_eq_false {existing value : ReplyOutbox} :
    replyDiffers existing value = false ↔ existing.eventID = value.eventID ∧
      existing.segmentCount = value.segmentCount ∧ existing.payload = value.payload ∧
      existing.replyTarget = value.replyTarget := by
  simp only [replyDiffers, decide_eq_false_iff_not, not_or, not_not, ne_eq]

/-- A batch leaves the replies complete. -/
theorem Batched.enqueued (h : Batched s) {correlation : ReplyCorrelation}
    {values : List ReplyOutbox} {first : ReplyOutbox} (henq : s.Enqueues correlation values first) :
    Batched (s.enqueued now correlation values) := by
  refine ⟨fun k row hrow => ?_, fun k row hrow => ?_, fun k row hrow i h0 hi => ?_⟩
  · rcases lookup_enqueued hrow with hold | ⟨-, v, -, hk, rfl⟩
    · exact h.identity k row hold
    · exact hk
  · rcases lookup_enqueued hrow with hold | ⟨-, v, hv, -, rfl⟩
    · exact h.index k row hold
    · obtain ⟨-, -, -, -, -, -, hindex, hlt, -⟩ := henq.batch.agrees hv
      exact ⟨hindex, hlt⟩
  · rcases lookup_enqueued hrow with hold | ⟨-, v, hv, -, rfl⟩
    · obtain ⟨row', hrow', hagree⟩ := h.complete k row hold i h0 hi
      exact ⟨row', lookup_enqueued_of_some hrow', hagree⟩
    -- A new row: the batch has the segment, and its row has the content of the batch.
    · obtain ⟨htenant, hreply, hevent, hcount, -⟩ := henq.batch.agrees hv
      obtain ⟨u, hu, rfl⟩ := henq.batch.covers i h0 (hcount ▸ hi)
      obtain ⟨htenant', hreply', hevent', hcount', -⟩ := henq.batch.agrees hu
      obtain ⟨row', hrow', hsame⟩ := henq.content now hu
      obtain ⟨hsameEvent, hsameCount, -, hsameTarget⟩ := replyDiffers_eq_false.1 hsame
      have hkey : rowKey u = replyKey v.tenantID v.replyID u.segmentIndex := by
        rw [rowKey, htenant, hreply, htenant', hreply']
      rw [hkey] at hrow'
      refine ⟨row', hrow', ?_, ?_, ?_⟩
      · exact (hsameEvent.trans hevent').trans hevent.symm
      · exact (hsameTarget.trans (henq.batch.replyTarget hu)).trans
          (henq.batch.replyTarget hv).symm
      · exact (hsameCount.trans hcount').trans hcount.symm

/-! ## Runs -/

/-- The calls that neither delete a session nor store a row by itself. -/
def Call.Batching : Call → Prop
  | .deleteSession .. | .enqueueReply _ => False
  | _ => True

variable {call : Call}

/-- Such a call only moves the store forward. -/
theorem Acts.evolves {v : call.Val} (h : Acts lib now s call v s')
    (hcall : call.Batching) : s.Evolves s' := by
  cases h with
  | created | updated => exact .sessions s _
  | deleted => exact hcall.elim
  | found | listed => exact .refl s
  | recorded _ _ hrecords => exact .recorded hrecords _ _
  | moved _ _ hmoves => exact .setEvent hmoves.found hmoves.evolves
  | appended => exact .setHistory s _ _
  | present | stored => exact hcall.elim
  | enqueued _ _ _ henq => exact .enqueued henq
  | correlated _ _ _ _ _ henq => exact .enqueued henq
  | claimed _ _ _ _ _ _ hclaims =>
    exact .setReply hclaims.found hclaims.evolves
  | transitioned _ _ hmoves => exact .setReply hmoves.found hmoves.evolves

/-- Such a call keeps the replies complete. -/
theorem Acts.batched {v : call.Val} (h : Acts lib now s call v s') (hcall : call.Batching)
    (hs : Batched s) : Batched s' := by
  have hlater := h.evolves hcall
  cases h with
  | enqueued _ _ _ henq => exact hs.enqueued henq
  | correlated _ _ _ _ _ henq => exact hs.enqueued henq
  | deleted => exact hcall.elim
  | present | stored => exact hcall.elim
  | created | updated | found | listed | recorded | moved | appended =>
    exact hs.evolves hlater fun k row hrow => ⟨row, hrow, .refl row⟩
  | claimed _ _ _ _ _ value hclaims =>
    refine hs.evolves hlater fun k row hrow => ?_
    rcases Go.lookup_insert_eq_some.1 hrow with ⟨rfl, rfl⟩ | ⟨-, hold⟩
    · exact ⟨value, hclaims.found, hclaims.evolves⟩
    · exact ⟨row, hold, .refl row⟩
  | transitioned t value hmoves =>
    refine hs.evolves hlater fun k row hrow => ?_
    rcases Go.lookup_insert_eq_some.1 hrow with ⟨rfl, rfl⟩ | ⟨-, hold⟩
    · exact ⟨value, hmoves.found, hmoves.evolves⟩
    · exact ⟨row, hold, .refl row⟩

/-- Along a run of such calls the store moves forward and its replies stay complete. -/
theorem batched_run (lib : Libraries) {requests : List Request}
    (hcalls : ∀ r ∈ requests, r.call.Batching) (hs : Batched s) :
    s.Evolves ((server lib).after s requests) ∧ Batched ((server lib).after s requests) := by
  refine Server.invariant (S := server lib) (fun _ request => request.call.Batching)
    (I := fun s' => s.Evolves s' ∧ Batched s') ⟨.refl s, hs⟩ (fun s1 request hcall h => ?_)
    (fun _ hst => hcalls _ (Server.call_mem_of_mem_history hst))
  rcases server_spec lib request s1 with ⟨_, heq⟩ | ⟨v, _, heq, hacts⟩
  · rw [heq]
    exact h
  · rw [heq]
    exact ⟨h.1.trans (hacts.evolves hcall), hacts.batched hcall h.2⟩

/-- A call that deletes a session. -/
def Call.deletes : Call → Bool
  | .deleteSession .. => true
  | _ => false

/-- Any other call moves the store forward too. -/
theorem Acts.evolves_of_keeps {v : call.Val} (h : Acts lib now s call v s')
    (hkeeps : call.deletes = false) : s.Evolves s' := by
  cases call with
  | deleteSession => cases hkeeps
  | enqueueReply =>
    cases h with
    | present => exact .refl s
    | stored _ henq =>
      refine ⟨fun _ _ => id, fun _ v h => ⟨v, h, .refl v⟩, fun _ r hr => ⟨r, ?_, .refl r⟩,
        fun _ _ => id⟩
      refine (AList.lookup_insert_ne ?_).trans hr
      rintro rfl
      rw [henq.fresh] at hr
      cases hr
  | _ => exact h.evolves trivial

/-- While no session is deleted and the counters have room, the counters stay numbers of Go, nothing
is lost, and nothing goes back. -/
theorem evolves_run (s : Store) (requests : List Request) (hs : s.Counts)
    (h : ∀ st ∈ (server lib).history s requests,
      st.call.call.deletes = false ∧ HasRoomFor st.pre st.call.call) :
    Store.Counts ((server lib).after s requests) ∧ s.Evolves ((server lib).after s requests) := by
  refine Server.invariant (S := server lib)
    (fun s request => request.call.deletes = false ∧ HasRoomFor s request.call)
    (I := fun s' => Store.Counts s' ∧ s.Evolves s') ⟨hs, .refl s⟩
    (fun s' request hadm hs' => ⟨hs'.1.step hadm.2, hs'.2.trans ?_⟩) h
  rcases server_spec lib request s' with ⟨_, heq⟩ | ⟨_, _, heq, hacts⟩ <;> rw [heq]
  · exact .refl s'
  · exact hacts.evolves_of_keeps hadm.1

/-- The segment is stored, put into `sending`, and claimed after that. -/
theorem evolves_run_sentInTime : Store.Evolves {} ((server plainLibraries).after {} sentInTime) :=
  (evolves_run {} sentInTime ⟨fun _ _ h => (by cases h), fun _ _ h => (by cases h)⟩
    (by decide +kernel)).2

/-! ## A batch that is given again -/

/-- Rows with the same identity and content. -/
structure SameContent (row row' : ReplyOutbox) : Prop where
  tenantID : row'.tenantID = row.tenantID
  replyID : row'.replyID = row.replyID
  eventID : row'.eventID = row.eventID
  segmentIndex : row'.segmentIndex = row.segmentIndex
  segmentCount : row'.segmentCount = row.segmentCount
  payload : row'.payload = row.payload
  replyTarget : row'.replyTarget = row.replyTarget

theorem ReplyOutbox.Evolves.sameContent {row row' : ReplyOutbox} (h : row.Evolves row') :
    SameContent row row' :=
  ⟨h.tenantID, h.replyID, h.eventID, h.segmentIndex, h.segmentCount, h.payload, h.replyTarget⟩

/-- Stores with the same values. A map that is written with what it holds may change its order. -/
structure SameStore (s s' : Store) : Prop where
  sessions : s'.sessions = s.sessions
  events : s'.events = s.events
  messages : s'.messages = s.messages
  replies : s'.replies = s.replies
  histories : s'.histories = s.histories
  /-- The same correlations. -/
  correlations : ∀ k, s'.correlations.lookup k = s.correlations.lookup k

section Again

variable {correlation : ReplyCorrelation} {values : List ReplyOutbox} {first : ReplyOutbox}

/-- The correlation of a batch is stored after it. -/
theorem Store.lookup_enqueued_correlation (s : Store) (now : ℤ) (values : List ReplyOutbox)
    (hrequest : correlation.requestID ≠ "") :
    (s.enqueued now correlation values).correlations.lookup
      (key [correlation.tenantID, correlation.eventID]) = some correlation := by
  simp only [enqueued, if_pos hrequest, AList.lookup_insert]

/-- After a batch, at any later time, its preconditions hold again. -/
theorem Store.Enqueues.again (h : s.Enqueues correlation values first)
    (hlater : (s.enqueued now correlation values).Evolves s') :
    s'.Enqueues correlation values first := by
  refine ⟨h.batch, ?_, ?_, fun v hv _ hrow => ?_⟩
  · obtain ⟨event, hevent, htarget⟩ := h.event
    obtain ⟨event', hevent', hev⟩ := hlater.events _ event hevent
    exact ⟨event', hevent', hev.replyTarget.trans htarget⟩
  · by_cases hrequest : correlation.requestID = ""
    · exact if_pos hrequest
    · have hstored := hlater.correlations _ _ (lookup_enqueued_correlation s now values hrequest)
      obtain ⟨htenant, hevent⟩ := h.names hrequest
      unfold checkCorrelation
      simp [hrequest, htenant, hevent, hstored]
  · obtain ⟨row1, hrow1, hsame⟩ := h.content now hv
    obtain ⟨_, hrow2, hev⟩ := hlater.replies _ row1 hrow1
    rw [hrow] at hrow2
    cases hrow2
    obtain ⟨hevent, hcount, hpayload, htarget⟩ := replyDiffers_eq_false.1 hsame
    exact replyDiffers_eq_false.2 ⟨hev.eventID.trans hevent, hev.segmentCount.trans hcount,
      hev.payload.trans hpayload, hev.replyTarget.trans htarget⟩

/-- After a batch, at any later time, writing it again changes nothing. -/
theorem Store.Enqueues.same (h : s.Enqueues correlation values first) (now' : ℤ)
    (hlater : (s.enqueued now correlation values).Evolves s') :
    SameStore s' (s'.enqueued now' correlation values) := by
  refine ⟨rfl, rfl, rfl, ?_, rfl, fun k => ?_⟩
  · refine insertReplies_of_present (fun v hv => ?_) now'
    obtain ⟨row, hrow, -⟩ := h.content now hv
    obtain ⟨_, hrow', -⟩ := hlater.replies _ row hrow
    rw [hrow']
    exact Option.some_ne_none _
  · by_cases hrequest : correlation.requestID = ""
    · simp [enqueued, hrequest]
    · have hstored := hlater.correlations _ _ (lookup_enqueued_correlation s now values hrequest)
      by_cases hk : k = key [correlation.tenantID, correlation.eventID]
      · rw [hk, hstored]
        exact lookup_enqueued_correlation s' now' values hrequest
      · simp only [enqueued, if_pos hrequest, AList.lookup_insert_ne hk]

end Again

/-- Lists that match one list element by element match each other. -/
theorem forall₂_of_common {α β : Type} {R S : α → β → Prop} {T : β → β → Prop} {l : List α}
    {m m' : List β} (hR : List.Forall₂ R l m) (hS : List.Forall₂ S l m')
    (h : ∀ a b b', R a b → S a b' → T b b') : List.Forall₂ T m m' := by
  induction hR generalizing m' with
  | nil =>
    cases hS
    exact .nil
  | cons hab _ ih =>
    cases hS with
    | cons hab' hS => exact .cons (h _ _ _ hab hab') (ih hS)

/-- The batch of a call. -/
def Call.batch : Call → Option (List ReplyOutbox)
  | .enqueueReplies values | .enqueueRepliesWithCorrelation _ values => some values
  | _ => none

/-- The rows that the call of a batch returns. -/
def Call.rows : (call : Call) → call.Val → List ReplyOutbox
  | .enqueueReplies _, rows | .enqueueRepliesWithCorrelation .., rows => rows
  | _, _ => []

/-- What a successful call of a batch does, with the correlation that it stores. -/
theorem Acts.batch {v : call.Val} (h : Acts lib now s call v s') {values : List ReplyOutbox}
    (hbatch : call.batch = some values) :
    ∃ correlation first, Store.validateReplyBatch values = .ok first ∧
      s.Enqueues correlation values first ∧ s' = s.enqueued now correlation values ∧
      call.rows v = (Store.insertReplies now values s.replies).1 ∧
      ∀ (now' : ℤ) (s2 : Store), s2.Enqueues correlation values first → ∃ v' s2',
        s2.perform lib now' call = (.ok v', s2') ∧ s2' = s2.enqueued now' correlation values ∧
        call.rows v' = (Store.insertReplies now' values s2.replies).1 := by
  cases h with
  | enqueued _ first hvalid henq =>
    cases hbatch
    exact ⟨_, first, hvalid, henq, rfl, rfl, fun now' s2 henq2 =>
      ⟨_, _, henq2.eq hvalid, rfl, rfl⟩⟩
  | correlated _ _ first hgiven hvalid henq =>
    cases hbatch
    exact ⟨_, first, hvalid, henq, rfl, rfl, fun now' s2 henq2 =>
      ⟨_, _, (if_neg hgiven).trans (henq2.eq hvalid), rfl, rfl⟩⟩
  | _ => cases hbatch

/-- What a successful batch leaves: its segments, complete and with its content, and every row that
was there as it was. -/
structure Materialized (s s' : Store) (values : List ReplyOutbox) : Prop where
  /-- There is a segment. -/
  nonempty : values ≠ []
  /-- The segments are complete, with the event, the destination, and the count of the batch. -/
  complete : ∀ v ∈ values,
    CompleteReply s' v.tenantID v.replyID values.length v.eventID v.replyTarget
  /-- The batch has a row for each of them. -/
  covers : ∀ i : ℤ, 0 ≤ i → i < values.length → ∃ v ∈ values, v.segmentIndex = i
  /-- Each has the payload of the batch. -/
  payloads : ∀ v ∈ values, ∃ row, s'.replies.lookup (Store.rowKey v) = some row ∧
    row.payload = v.payload
  /-- The rows that were there stay as they are. -/
  existing : ∀ k row, s.replies.lookup k = some row → s'.replies.lookup k = some row

/-- A batch that is written is materialized. -/
theorem Store.Enqueues.materialized {correlation : ReplyCorrelation} {values : List ReplyOutbox}
    {first : ReplyOutbox} (h : s.Enqueues correlation values first)
    (hvalid : validateReplyBatch values = .ok first) (hs : Batched s) :
    Materialized s (s.enqueued now correlation values) values := by
  have hlength := validateReplyBatch_length hvalid
  refine ⟨List.ne_nil_of_mem h.batch.first_mem, fun v hv => ?_, fun i h0 hi => ?_,
    fun v hv => ?_, fun k row hrow => lookup_enqueued_of_some hrow⟩
  · obtain ⟨row, hrow, hsame⟩ := h.content now hv
    obtain ⟨hevent, hcount, -, htarget⟩ := replyDiffers_eq_false.1 hsame
    obtain ⟨-, -, -, hn, -⟩ := h.batch.agrees hv
    have hbatched : Batched (s.enqueued now correlation values) := hs.enqueued h
    have hkey := hbatched.identity _ row hrow
    rw [rowKey, rowKey, replyKey_inj] at hkey
    have hreply := hbatched.completeReply_of_row hrow
    rw [hkey.1, hkey.2.1, hcount, hn, hlength, hevent, htarget] at hreply
    exact hreply
  · exact h.batch.covers i h0 (hlength ▸ hi)
  · obtain ⟨row, hrow, hsame⟩ := h.content now hv
    exact ⟨row, hrow, (replyDiffers_eq_false.1 hsame).2.2.1⟩

/-- What holds of batches in a state of the store. -/
structure AtomicBatches (lib : Libraries) (s : Store) : Prop where
  /-- The rows of every reply form a complete set. -/
  complete : ∀ tenantID replyID, ∃ n eventID target,
    CompleteReply s tenantID replyID n eventID target
  /-- A batch that fails leaves the store as it is. -/
  unchanged : ∀ request err, request.call.batch ≠ none →
    ((server lib).answer request s).1 = .error err → ((server lib).answer request s).2 = s
  /-- A batch that succeeds is materialized. -/
  materialized : ∀ request values v, request.call.batch = some values →
    ((server lib).answer request s).1 = .ok v →
    Materialized s ((server lib).answer request s).2 values
  /-- From then on, whatever the other calls do, it succeeds again with the same rows and changes
  nothing. -/
  repeated : ∀ request values v, request.call.batch = some values →
    ((server lib).answer request s).1 = .ok v →
    ∀ later : List Request, (∀ r ∈ later, r.call.Batching) → ∀ now', ∃ v' s'',
      (server lib).answer ⟨.live, now', request.call⟩
        ((server lib).after ((server lib).answer request s).2 later) = (.ok v', s'') ∧
      List.Forall₂ SameContent (request.call.rows v) (request.call.rows v') ∧
      SameStore ((server lib).after ((server lib).answer request s).2 later) s''

/-- Along every run in which no session is deleted and no row is stored by itself, batches are
atomic and can be repeated. -/
theorem batches_atomic (lib : Libraries) (requests : List Request)
    (hcalls : ∀ r ∈ requests, r.call.Batching) :
    AtomicBatches lib ((server lib).after {} requests) := by
  have hempty : Batched {} := by
    refine ⟨fun k row hrow => ?_, fun k row hrow => ?_, fun k row hrow => ?_⟩
    · cases hrow
    · cases hrow
    · cases hrow
  obtain ⟨-, hs⟩ := batched_run lib hcalls hempty
  generalize (server lib).after {} requests = s at hs ⊢
  refine ⟨hs.completeReply, fun request err _ herr => ?_, fun request values v hbatch hv => ?_,
    fun request values v hbatch hv later hlater now' => ?_⟩
  · rcases server_spec lib request s with ⟨err', heq⟩ | ⟨v, s', heq, -⟩
    · rw [heq]
    · rw [heq] at herr
      cases herr
  · rcases server_spec lib request s with ⟨err', heq⟩ | ⟨v', s', heq, hacts⟩
    · rw [heq] at hv
      cases hv
    · rw [heq]
      obtain ⟨correlation, first, hvalid, henq, rfl, -⟩ := hacts.batch hbatch
      exact henq.materialized hvalid hs
  · rcases server_spec lib request s with ⟨err', heq⟩ | ⟨v', s', heq, hacts⟩
    · rw [heq] at hv
      cases hv
    · rw [heq] at hv ⊢
      cases hv
      obtain ⟨correlation, first, hvalid, henq, rfl, hrows, hagain⟩ := hacts.batch hbatch
      have hs' : Batched (s.enqueued request.now correlation values) := hs.enqueued henq
      obtain ⟨hev, -⟩ := batched_run lib hlater hs'
      obtain ⟨v2, s2, heq2, rfl, hrows2⟩ := hagain now' _ (henq.again hev)
      refine ⟨v2, _, (answer_live ..).trans heq2, ?_, henq.same now' hev⟩
      rw [hrows, hrows2]
      -- Both answers list the stored rows of the batch, the second ones at a later time.
      refine forall₂_of_common (Store.insertReplies_rows request.now values s.replies)
        (Store.insertReplies_rows now' values _) fun v row row' hrow hrow' => ?_
      have hstored : ((server lib).after (s.enqueued request.now correlation values)
          later).replies.lookup (Store.rowKey v) = some row' := by
        rw [← (henq.same now' hev).replies]
        exact hrow'
      obtain ⟨row2, hrow2, hrowEv⟩ := hev.replies _ row hrow
      rw [hstored] at hrow2
      cases hrow2
      exact hrowEv.sameContent

/-- A reply of two segments, of which the second one is claimed. -/
def twoSegments : List Request :=
  [⟨.live, 0, .createSession "t" "s" none⟩, ⟨.live, 0, .recordMessage oneMessage⟩,
    ⟨.live, 0, .enqueueReplies [{ oneRow with segmentCount := 2 },
      { oneRow with segmentIndex := 1, segmentCount := 2 }]⟩,
    ⟨.live, 0, .claimReply "t" "r" 1 "w" 10⟩]

/-- Both segments are stored, and batches are atomic. -/
theorem batches_atomic_twoSegments :
    ((server plainLibraries).after {} twoSegments).replies.keys =
      [replyKey "t" "r" 1, replyKey "t" "r" 0] ∧
    AtomicBatches plainLibraries ((server plainLibraries).after {} twoSegments) := by
  refine ⟨by decide +kernel, batches_atomic plainLibraries twoSegments fun r hr => ?_⟩
  simp only [twoSegments, List.mem_cons, List.not_mem_nil, or_false] at hr
  rcases hr with rfl | rfl | rfl | rfl <;> trivial

end AgentService.Storage
