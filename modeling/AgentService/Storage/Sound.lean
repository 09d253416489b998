import AgentService.Storage.Evolution

/-!
# Well-formed stores

Every value stands under its own key, the segments of a reply are complete and agree on their count,
a row belongs to a stored event, and a message leads to its event. `Store.Sound` says so. The empty
store is sound, and every write keeps it (`Sound.setEvent`, `Sound.setReply`, `Sound.recorded`,
`Sound.enqueued`).
-/

namespace AgentService.Storage.Store

open Option AList List

/-- A row that stands under its key. -/
structure RowSound (k : String) (r : ReplyOutbox) : Prop where
  /-- The key is the row's. -/
  key : k = rowKey r
  tenant_ne : r.tenantID ≠ ""
  reply_ne : r.replyID ≠ ""
  event_ne : r.eventID ≠ ""
  /-- The index is a natural number. -/
  index_nonneg : 0 ≤ r.segmentIndex
  /-- The index lies below the count. -/
  index_lt : r.segmentIndex < r.segmentCount
  /-- The attempts are counted from zero. -/
  attempts : 0 ≤ r.attempts
  /-- The tokens are counted from zero. -/
  fencingToken : 0 ≤ r.fencingToken

/-- An event that stands under its key. -/
structure EventSound (k : String) (v : MessageEvent) : Prop where
  /-- The key is the event's. -/
  key : k = key [v.tenantID, v.eventID]
  tenant_ne : v.tenantID ≠ ""
  event_ne : v.eventID ≠ ""
  /-- The destination is valid. -/
  replyTarget : validateReplyTarget v.replyTarget = none
  /-- The tokens are counted from zero. -/
  fencingToken : 0 ≤ v.fencingToken

/-- A well-formed store. -/
structure Sound (s : Store) : Prop where
  /-- Every row stands under its key. -/
  rows : ∀ k r, s.replies.lookup k = some r → RowSound k r
  /-- The segments of a reply are complete, of one event, and agree on their count. -/
  segments : ∀ k r, s.replies.lookup k = some r → ∀ i, 0 ≤ i → i < r.segmentCount →
    ∃ r', s.replies.lookup (replyKey r.tenantID r.replyID i) = some r' ∧
      r'.segmentCount = r.segmentCount ∧ r'.eventID = r.eventID
  /-- A row belongs to a stored event. -/
  owners : ∀ k r, s.replies.lookup k = some r →
    ∃ v, s.events.lookup (key [r.tenantID, r.eventID]) = some v
  /-- Every event stands under its key. -/
  events : ∀ k v, s.events.lookup k = some v → EventSound k v
  /-- A message leads to its event. -/
  messages : ∀ u k, s.messages.lookup u = some k →
    ∃ v, s.events.lookup k = some v ∧ u = key [v.tenantID, v.bindingID, v.externalMessageID]

theorem Sound.empty : Sound {} := by
  constructor <;> intro _ _ h <;> simp at h

variable {s : Store} {now : ℤ}

variable {k : String} {r first v : ReplyOutbox} {correlation : ReplyCorrelation}
variable {values : List ReplyOutbox}

/-- A later version of a row stands under the same key. -/
theorem RowSound.evolves {r' : ReplyOutbox} (h : RowSound k r) (hr : r.Evolves r') :
    RowSound k r' where
  key := by rw [h.key, rowKey, rowKey, hr.tenantID, hr.replyID, hr.segmentIndex]
  tenant_ne := by rw [hr.tenantID]; exact h.tenant_ne
  reply_ne := by rw [hr.replyID]; exact h.reply_ne
  event_ne := by rw [hr.eventID]; exact h.event_ne
  index_nonneg := by rw [hr.segmentIndex]; exact h.index_nonneg
  index_lt := by rw [hr.segmentIndex, hr.segmentCount]; exact h.index_lt
  attempts := Int.le_trans h.attempts hr.attempts
  fencingToken := Int.le_trans h.fencingToken hr.fencingToken

/-- A later version of an event stands under the same key. -/
theorem EventSound.evolves {v v' : MessageEvent} (h : EventSound k v)
    (hv : v.Evolves v') : EventSound k v' where
  key := by rw [h.key, hv.tenantID, hv.eventID]
  tenant_ne := by rw [hv.tenantID]; exact h.tenant_ne
  event_ne := by rw [hv.eventID]; exact h.event_ne
  replyTarget := by rw [hv.replyTarget]; exact h.replyTarget
  fencingToken := Int.le_trans h.fencingToken hv.fencingToken

theorem Sound.sessions (h : s.Sound) (sessions : GoMap Session) :
    Sound { s with sessions := sessions } :=
  ⟨h.rows, h.segments, h.owners, h.events, h.messages⟩

/-- Writing a later version of an event. -/
theorem Sound.setEvent (h : s.Sound) {v v' : MessageEvent}
    (hfound : s.events.lookup k = some v) (hv : v.Evolves v') : (s.setEvent k v').Sound := by
  have hlater := Evolves.setEvent hfound hv
  refine ⟨h.rows, h.segments, fun k1 r hr => ?_, fun k1 w hw => ?_, fun u k1 hu => ?_⟩
  · obtain ⟨w, hw⟩ := h.owners k1 r hr
    obtain ⟨w', hw', -⟩ := hlater.events _ w hw
    exact ⟨w', hw'⟩
  · by_cases hk : k1 = k
    · subst hk
      rw [Store.setEvent, lookup_insert] at hw
      cases hw
      exact (h.events _ v hfound).evolves hv
    · exact h.events k1 w ((lookup_insert_ne hk).symm.trans hw)
  · obtain ⟨w, hw, rfl⟩ := h.messages u k1 hu
    obtain ⟨w', hw', hww'⟩ := hlater.events _ w hw
    exact ⟨w', hw', by rw [hww'.tenantID, hww'.bindingID, hww'.externalMessageID]⟩

/-- Writing a later version of a row. -/
theorem Sound.setReply (h : s.Sound) {r' : ReplyOutbox}
    (hfound : s.replies.lookup k = some r) (hr : r.Evolves r') : (s.setReply k r').Sound := by
  have hlater := Evolves.setReply hfound hr
  -- A row of the new store is a later version of a row that was there under the same key.
  have hold : ∀ k1 w, (s.setReply k r').replies.lookup k1 = some w →
      ∃ w0, s.replies.lookup k1 = some w0 ∧ w0.Evolves w := by
    intro k1 w hw
    by_cases hk : k1 = k
    · subst hk
      rw [Store.setReply, lookup_insert] at hw
      cases hw
      exact ⟨r, hfound, hr⟩
    · exact ⟨w, (lookup_insert_ne hk).symm.trans hw, .refl w⟩
  refine ⟨fun k1 w hw => ?_, fun k1 w hw i h0 hi => ?_, fun k1 w hw => ?_, h.events, h.messages⟩
  · obtain ⟨w0, hw0, hevolves⟩ := hold k1 w hw
    exact (h.rows k1 w0 hw0).evolves hevolves
  · obtain ⟨w0, hw0, hevolves⟩ := hold k1 w hw
    rw [hevolves.segmentCount] at hi
    obtain ⟨u, hu, hcount, hevent⟩ := h.segments k1 w0 hw0 i h0 hi
    obtain ⟨u', hu', huu'⟩ := hlater.replies _ u hu
    refine ⟨u', ?_, ?_, ?_⟩
    · rw [hevolves.tenantID, hevolves.replyID, hu']
    · rw [huu'.segmentCount, hcount, hevolves.segmentCount]
    · rw [huu'.eventID, hevent, hevolves.eventID]
  · obtain ⟨w0, hw0, hevolves⟩ := hold k1 w hw
    rw [hevolves.tenantID, hevolves.eventID]
    exact h.owners k1 w0 hw0

/-- Recording a new message. -/
theorem Sound.recorded (h : s.Sound) {input : MessageEventInput} (hrec : s.RecordsMessage input)
    (sessions : GoMap Session) (seq : ℤ) :
    (s.recorded sessions input (newEvent now input seq)).Sound := by
  have hlater := Evolves.recorded hrec sessions (newEvent now input seq)
  have hvalid : input.tenantID ≠ "" ∧ input.eventID ≠ "" ∧
      validateReplyTarget input.replyTarget = none := by
    have := hrec.valid
    simp only [invalidMessageInput, decide_eq_false_iff_not, not_or, not_not, ne_eq,
      validateSession_eq_none] at this
    exact ⟨this.1.1, this.2.2.2.1, this.2.2.2.2.1⟩
  refine ⟨h.rows, h.segments, fun k1 r hr => ?_, fun k1 w hw => ?_, fun u k1 hu => ?_⟩
  · obtain ⟨w, hw⟩ := h.owners k1 r hr
    obtain ⟨w', hw', -⟩ := hlater.events _ w hw
    exact ⟨w', hw'⟩
  · by_cases hk : k1 = key [input.tenantID, input.eventID]
    · subst hk
      rw [Store.recorded, lookup_insert] at hw
      cases hw
      exact ⟨rfl, hvalid.1, hvalid.2.1, hvalid.2.2, Int.le_refl _⟩
    · exact h.events k1 w ((lookup_insert_ne hk).symm.trans hw)
  · by_cases hu' : u = key [input.tenantID, input.bindingID, input.externalMessageID]
    · subst hu'
      rw [Store.recorded, lookup_insert] at hu
      cases hu
      exact ⟨newEvent now input seq, lookup_insert _, rfl⟩
    · obtain ⟨w, hw, rfl⟩ := h.messages u k1 ((lookup_insert_ne hu').symm.trans hu)
      obtain ⟨w', hw', hww'⟩ := hlater.events _ w hw
      exact ⟨w', hw', by rw [hww'.tenantID, hww'.bindingID, hww'.externalMessageID]⟩

/-! ## Batches -/

/-- A row of the store after a batch was there before, or it is new and from the batch. -/
theorem lookup_enqueued (h : (s.enqueued now correlation values).replies.lookup k = some r) :
    s.replies.lookup k = some r ∨
      (s.replies.lookup k = none ∧ ∃ v ∈ values, rowKey v = k ∧ r = pendingRow now v) := by
  simp only [enqueued, lookup_insertReplies] at h
  cases hk : s.replies.lookup k with
  | some =>
    rw [hk, some_or] at h
    exact .inl h
  | none =>
    rw [hk, none_or, map_eq_some_iff] at h
    obtain ⟨v, hv, rfl⟩ := h
    exact .inr ⟨rfl, v, mem_of_find?_eq_some hv, by simpa using find?_some hv, rfl⟩

/-- A row of a valid batch agrees with the first one. -/
theorem ValidBatch.agrees (h : ValidBatch first values) (hv : v ∈ values) :
    v.tenantID = first.tenantID ∧ v.replyID = first.replyID ∧ v.eventID = first.eventID ∧
      v.segmentCount = first.segmentCount ∧ v.tenantID ≠ "" ∧ v.eventID ≠ "" ∧
      0 ≤ v.segmentIndex ∧ v.segmentIndex < v.segmentCount ∧ v.replyID ≠ "" := by
  have hrow := h.rows v hv
  simp only [invalidBatchReply, decide_eq_false_iff_not, not_or, not_not, Int.not_lt, Int.not_le,
    ne_eq, validateTenant_eq_none] at hrow
  obtain ⟨ht, hr, he, h0, hlt, -, -, htenant, hreply, hevent, hcount, -⟩ := hrow
  exact ⟨htenant, hreply, hevent, hcount, ht, he, h0, hlt, hr⟩

/-- The rows of a valid batch have one destination. -/
theorem ValidBatch.replyTarget
    (h : ValidBatch first values) (hv : v ∈ values) : v.replyTarget = first.replyTarget := by
  have hrow := h.rows v hv
  simp only [invalidBatchReply, decide_eq_false_iff_not, not_or, not_not, ne_eq] at hrow
  obtain ⟨-, -, -, -, -, -, -, -, -, -, -, htarget⟩ := hrow
  exact htarget

/-- A row of a valid batch is the one with its key. -/
theorem ValidBatch.eq_of_rowKey {u : ReplyOutbox} (h : ValidBatch first values) (hu : u ∈ values)
    (hv : v ∈ values) (hkey : rowKey u = rowKey v) : u = v := by
  simp only [rowKey, replyKey_inj] at hkey
  exact inj_on_of_nodup_map h.nodup hu hv hkey.2.2

section

variable (h : s.Enqueues correlation values first)

include h

/-- A row of a successful batch that is not there yet could be stored by itself. -/
theorem Enqueues.enqueuesReply (hv : v ∈ values)
    (hfresh : s.replies.lookup (rowKey v) = none) : s.EnqueuesReply v := by
  obtain ⟨htenant, -, hevent, -, htenant_ne, -, hindex, hcount, hreply_ne⟩ := h.batch.agrees hv
  obtain ⟨event, hfound, htarget⟩ := h.event
  refine ⟨htenant_ne, hreply_ne, ⟨hindex, hcount⟩, ⟨event, ?_, ?_⟩, hfresh⟩
  · rw [htenant, hevent]
    exact hfound
  · rw [h.batch.replyTarget hv]
    exact htarget

/-- After a batch, the row of each of its segments has the content of the batch. -/
theorem Enqueues.content (now : ℤ) (hv : v ∈ values) :
    ∃ r, (s.enqueued now correlation values).replies.lookup (rowKey v) = some r ∧
      replyDiffers r v = false := by
  cases hk : s.replies.lookup (rowKey v) with
  | some r0 =>
    exact ⟨r0, by simp only [enqueued, lookup_insertReplies, hk, some_or], h.existing v hv r0 hk⟩
  | none =>
    obtain ⟨u, hu⟩ : ∃ u, values.find? (fun u => rowKey u = rowKey v) = some u := by
      rw [← isSome_iff_exists, find?_isSome]
      exact ⟨v, hv, by simp⟩
    obtain rfl : u = v := h.batch.eq_of_rowKey (mem_of_find?_eq_some hu) hv
      (by simpa using find?_some hu)
    refine ⟨pendingRow now u, ?_, ?_⟩
    · simp only [enqueued, lookup_insertReplies, hk, hu, none_or, map_some]
    · simp [replyDiffers, pendingRow]

/-- After a batch, the store has a row for each segment of it, of its event and with its count. -/
theorem Enqueues.row (hs : s.Sound) (now : ℤ) (hv : v ∈ values) :
    ∃ r, (s.enqueued now correlation values).replies.lookup (rowKey v) = some r ∧
      r.segmentCount = v.segmentCount ∧ r.eventID = v.eventID ∧ r.tenantID = v.tenantID := by
  obtain ⟨htenant, -, hevent, hcount, -⟩ := h.batch.agrees hv
  cases hk : s.replies.lookup (rowKey v) with
  | some r0 =>
    have hdiffers := h.existing v hv r0 hk
    simp only [replyDiffers, decide_eq_false_iff_not, not_or, not_not, ne_eq] at hdiffers
    have hkey := (hs.rows _ r0 hk).key
    simp only [rowKey, replyKey_inj] at hkey
    exact ⟨r0, by simp only [enqueued, lookup_insertReplies, hk, some_or], hdiffers.2.1,
      hdiffers.1, hkey.1.symm⟩
  | none =>
    obtain ⟨u, hu⟩ : ∃ u, values.find? (fun u => rowKey u = rowKey v) = some u := by
      rw [← isSome_iff_exists, find?_isSome]
      exact ⟨v, hv, by simp⟩
    obtain ⟨hutenant, -, huevent, hucount, -⟩ := h.batch.agrees (mem_of_find?_eq_some hu)
    refine ⟨pendingRow now u, ?_, ?_, ?_, ?_⟩
    · simp only [enqueued, lookup_insertReplies, hk, hu, none_or, map_some]
    · exact hucount.trans hcount.symm
    · exact huevent.trans hevent.symm
    · exact hutenant.trans htenant.symm

end

/-- Writing a batch of new rows. -/
theorem Sound.enqueued (h : s.Sound) (henq : s.Enqueues correlation values first)
    (hnew : ∀ v ∈ values, v.attempts = 0 ∧ v.fencingToken = 0) :
    (s.enqueued now correlation values).Sound := by
  have hlater : s.Evolves (s.enqueued now correlation values) := Evolves.enqueued henq
  refine ⟨fun k r hr => ?_, fun k r hr i h0 hi => ?_, fun k r hr => ?_, h.events, h.messages⟩
  · rcases lookup_enqueued hr with hold | ⟨-, v, hv, rfl, rfl⟩
    · exact h.rows k r hold
    · obtain ⟨-, -, -, -, ht, he, hindex, hlt, hreply⟩ := henq.batch.agrees hv
      obtain ⟨hattempts, htoken⟩ := hnew v hv
      exact ⟨rfl, ht, hreply, he, hindex, hlt, Int.le_of_eq hattempts.symm,
        Int.le_of_eq htoken.symm⟩
  · rcases lookup_enqueued hr with hold | ⟨-, v, hv, rfl, rfl⟩
    · obtain ⟨u, hu, hcount, hevent⟩ := h.segments k r hold i h0 hi
      obtain ⟨u', hu', huu'⟩ := hlater.replies _ u hu
      exact ⟨u', hu', by rw [huu'.segmentCount, hcount], by rw [huu'.eventID, hevent]⟩
    · obtain ⟨htenant, hreply, hevent, hcount, -⟩ := henq.batch.agrees hv
      obtain ⟨u, hu, rfl⟩ := henq.batch.covers i h0 (by rw [← hcount]; exact hi)
      obtain ⟨hutenant, hureply, huevent, hucount, -⟩ := henq.batch.agrees hu
      obtain ⟨r, hr, hrcount, hrevent, -⟩ := henq.row h now hu
      refine ⟨r, ?_, ?_, ?_⟩
      · rw [← hr, rowKey, hutenant, hureply]
        show (s.enqueued now correlation values).replies.lookup
          (replyKey v.tenantID v.replyID u.segmentIndex) = _
        rw [htenant, hreply]
      · rw [hrcount, hucount, ← hcount]
        rfl
      · rw [hrevent, huevent, ← hevent]
        rfl
  · rcases lookup_enqueued hr with hold | ⟨-, v, hv, rfl, rfl⟩
    · exact h.owners k r hold
    · obtain ⟨htenant, -, hevent, -⟩ := henq.batch.agrees hv
      obtain ⟨event, hfound, -⟩ := henq.event
      refine ⟨event, ?_⟩
      show s.events.lookup (key [v.tenantID, v.eventID]) = _
      rw [htenant, hevent, hfound]

end AgentService.Storage.Store
