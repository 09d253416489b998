import AgentService.Outbox.Delivery
import AgentService.Platform.Exclusion
import AgentService.Platform.Replies

/-!
# Replied events

An event is moved to `replied` by `advanceEvent` of a worker, which lists the rows, reads the event,
and moves it in separate steps. Nothing can come between them: a reply is written as a whole, it
carries the name of its event, and a batch for an event with a reply adds no row
(`Change.rows_of_delivered`). So once all rows of an event are sent, this stays so
(`delivered_later`), and an event that is `replied` has a reply of which every segment is sent
(`replied_sent`).
-/

namespace AgentService.Platform

open Storage Concurrent Gateway Outbox Store

variable {x : Externals}

/-- An event has reply rows, and all of them are sent. -/
structure Delivered (s : Store) (tenantID eventID : String) : Prop where
  /-- There is a row of the event. -/
  row : ∃ k r, s.replies.lookup k = some r ∧ r.tenantID = tenantID ∧ r.eventID = eventID
  /-- All rows of the event are sent. -/
  sent : ∀ k r, s.replies.lookup k = some r → r.tenantID = tenantID → r.eventID = eventID →
    r.status = .sent

/-- Two stores have the same rows of an event. -/
def SameRows (s s' : Store) (tenantID eventID : String) : Prop :=
  ∀ k r, r.tenantID = tenantID → r.eventID = eventID →
    (s'.replies.lookup k = some r ↔ s.replies.lookup k = some r)

/-- A delivered event stays delivered while its rows stay. -/
theorem Delivered.of_sameRows {s s' : Store} {tenantID eventID : String}
    (h : Delivered s tenantID eventID) (hrows : SameRows s s' tenantID eventID) :
    Delivered s' tenantID eventID := by
  obtain ⟨k, r, hr, htenant, hevent⟩ := h.row
  exact ⟨⟨k, r, (hrows k r htenant hevent).2 hr, htenant, hevent⟩,
    fun k r hr htenant hevent => h.sent k r ((hrows k r htenant hevent).1 hr) htenant hevent⟩

/-- A later version of a row leaves the rows of a delivered event alone: they are final. -/
theorem sameRows_setReply {s : Store} {tenantID eventID k : String} {r0 r1 : ReplyOutbox}
    (h : Delivered s tenantID eventID) (hfound : s.replies.lookup k = some r0)
    (hr : r0.Evolves r1) : SameRows s (s.setReply k r1) tenantID eventID := by
  intro k' r htenant hevent
  by_cases hk : k' = k
  · subst hk
    rw [show (s.setReply k' r1).replies.lookup k' = some r1 from AList.lookup_insert _, hfound,
      Option.some_inj, Option.some_inj]
    constructor
    · rintro rfl
      exact (hr.sent (h.sent k' r0 hfound (hr.tenantID.symm.trans htenant)
        (hr.eventID.symm.trans hevent))).symm
    · rintro rfl
      exact hr.sent (h.sent k' r0 hfound htenant hevent)
  · rw [show (s.setReply k r1).replies.lookup k' = s.replies.lookup k' from
      AList.lookup_insert_ne hk]

/-- No change touches the rows of a delivered event. -/
theorem Change.rows_of_delivered {now : ℤ} {o : StoreOp} {s s' : Store} {tenantID eventID : String}
    (h : Change x now s o s') (hs : s.Sound) (hnamed : Named s)
    (hnew : ∀ correlation values, o.Batch x correlation values →
      ∀ v ∈ values, v.replyID = v.eventID)
    (hd : Delivered s tenantID eventID) : SameRows s s' tenantID eventID := by
  cases h with
  | none | session | record | message => exact fun _ _ _ _ => Iff.rfl
  | enqueue o correlation values first ho henq =>
    intro k r htenant hevent
    by_cases hfirst : first.tenantID = tenantID ∧ first.eventID = eventID
    · -- The batch is for the event itself, whose reply is complete.
      obtain ⟨k0, row, hrow, hrt, hre⟩ := hd.row
      rw [enqueued_rows_of_stored now hs henq hrow (hrt.trans hfirst.1.symm)]
      rw [hnamed k0 row hrow, hre, hnew correlation values ho first henq.batch.first_mem, hfirst.2]
    · constructor
      · intro hr
        rcases lookup_enqueued hr with hold | ⟨-, v, hv, -, rfl⟩
        · exact hold
        · obtain ⟨hvt, -, hve, -⟩ := henq.batch.agrees hv
          exact absurd ⟨hvt.symm.trans htenant, hve.symm.trans hevent⟩ hfirst
      · intro hr
        simp only [enqueued, lookup_insertReplies, hr, Option.some_or]
  | claim _ _ _ _ _ _ h => exact sameRows_setReply hd h.found h.evolves
  | reply _ _ h => exact sameRows_setReply hd h.found h.evolves

/-- The rows of an event are the segments of one reply, numbered from zero, and all are sent. -/
structure SentReply (s : Store) (tenantID eventID replyID : String) (n : ℕ) : Prop where
  /-- There is a segment. -/
  pos : 0 < n
  /-- Each segment is stored and sent. -/
  segments : ∀ i < n, ∃ r, s.replies.lookup (replyKey tenantID replyID i) = some r ∧
    r.tenantID = tenantID ∧ r.eventID = eventID ∧ r.replyID = replyID ∧ r.segmentIndex = i ∧
    r.segmentCount = n ∧ r.status = .sent
  /-- There are no other rows of the event. -/
  only : ∀ k r, s.replies.lookup k = some r → r.tenantID = tenantID → r.eventID = eventID →
    ∃ i < n, k = replyKey tenantID replyID i

/-- The rows of a delivered event are the segments of one reply. -/
theorem Delivered.sentReply {s : Store} {tenantID eventID : String} (hs : s.Sound)
    (hnamed : Named s) (h : Delivered s tenantID eventID) :
    ∃ n, SentReply s tenantID eventID eventID n := by
  obtain ⟨k0, r0, hr0, ht0, he0⟩ := h.row
  have hrow := hs.rows k0 r0 hr0
  have hpos : 0 < r0.segmentCount := Int.lt_of_le_of_lt hrow.index_nonneg hrow.index_lt
  -- Every row of the event has the count of this one: both replies have the same first segment.
  have hcount : ∀ k r, s.replies.lookup k = some r → r.tenantID = tenantID →
      r.eventID = eventID → r.segmentCount = r0.segmentCount := fun k r hr ht he => by
    have hsound := hs.rows k r hr
    obtain ⟨u, hu, hucount, -⟩ := hs.segments k r hr 0 (Int.le_refl 0)
      (Int.lt_of_le_of_lt hsound.index_nonneg hsound.index_lt)
    obtain ⟨_, hu0, hucount0, -⟩ := hs.segments k0 r0 hr0 0 (Int.le_refl 0) hpos
    rw [hnamed k r hr, ht, he] at hu
    rw [hnamed k0 r0 hr0, ht0, he0, hu] at hu0
    rw [← hucount, ← hucount0, Option.some.inj hu0]
  refine ⟨r0.segmentCount.toNat, by omega, fun i _ => ?_, fun k r hr ht he => ?_⟩
  · obtain ⟨u, hu, hucount, huevent⟩ := hs.segments k0 r0 hr0 i (by omega) (by omega)
    rw [hnamed k0 r0 hr0, ht0, he0] at hu
    have hkey := (hs.rows _ u hu).key
    simp only [rowKey, replyKey_inj] at hkey
    have hue : u.eventID = eventID := huevent.trans he0
    exact ⟨u, hu, hkey.1.symm, hue, hkey.2.1.symm, hkey.2.2.symm, by omega,
      h.sent _ u hu hkey.1.symm hue⟩
  · have hsound := hs.rows k r hr
    have hlt := hcount k r hr ht he ▸ hsound.index_lt
    have hnonneg := hsound.index_nonneg
    refine ⟨r.segmentIndex.toNat, by omega, ?_⟩
    rw [hsound.key, rowKey, hnamed k r hr, ht, he, Int.toNat_of_nonneg hnonneg]

section Runs

variable {adm : Run x → Call → Prop} {clock : ℤ} {c : Run x} {tenantID eventID : String}

/-- Once all rows of an event are sent, its rows stay as they are. -/
theorem delivered_later {c' : Run x} (hc' : Reachable adm (Run.start (State.initial clock)) c')
    (hc : Reachable adm c' c) (hd : Delivered c'.state.store tenantID eventID) :
    Delivered c.state.store tenantID eventID ∧
      SameRows c'.state.store c.state.store tenantID eventID := by
  refine reachable_store_from (I := fun s => Delivered s tenantID eventID ∧
    SameRows c'.state.store s tenantID eventID) ?_ hc' hc ⟨hd, fun _ _ _ _ => Iff.rfl⟩
  rintro c t _ _ _ o store hc - hpre hchange ⟨hd, hsame⟩
  have hrows := hchange.rows_of_delivered (reachable_sound Store.Sound.empty hc)
    (reachable_named hc) (fun _ _ ho v hv => by
      obtain ⟨_, hnew⟩ := hpre.newSegments ho
      rw [(hnew v hv).replyID, (hnew v hv).eventID]) hd
  exact ⟨hd.of_sameRows hrows, fun k r htenant hevent =>
    (hrows k r htenant hevent).trans (hsame k r htenant hevent)⟩

/-- A listing in which all rows of an event are sent shows that it is delivered. -/
theorem delivered_of_allSent {s s' : State} {ctx : Ctx} {rows : List ReplyOutbox}
    (hp : (platform x).Performs (.store ctx (.listReplyCandidates tenantID)) s
      (.ok rows : Except Storage.Err (List ReplyOutbox)) s')
    (hsent : Worker.allSent eventID rows = true) : Delivered s.store tenantID eventID := by
  obtain ⟨-, ⟨_, herr, -⟩ | ⟨l, hl, hmem⟩⟩ := performs_listReplyCandidates hp
  · cases herr
  · obtain rfl : rows = l := Except.ok.inj hl
    simp only [Worker.allSent, decide_eq_true_eq, ne_eq, List.all_eq_true, List.mem_filter,
      and_imp] at hsent
    obtain ⟨hne, hall⟩ := hsent
    obtain ⟨r, hr⟩ := List.exists_mem_of_ne_nil _ hne
    obtain ⟨hr, hevent⟩ := List.mem_filter.1 hr
    obtain ⟨⟨k, hk⟩, htenant⟩ := (hmem r).1 hr
    exact ⟨⟨k, r, hk, htenant, of_decide_eq_true hevent⟩, fun k r hk htenant hevent =>
      hall r ((hmem r).2 ⟨⟨k, hk⟩, htenant⟩) hevent⟩

/-- An event whose rows were all sent in a listing of the run is delivered. -/
theorem delivered_of_listing (hc : Reachable adm (Run.start (State.initial clock)) c) {t : ℕ}
    {rows : List ReplyOutbox} {pre post : State}
    (hmem : (listEntry tenantID rows pre post : Entry x) ∈ log c.history t)
    (hsent : Worker.allSent eventID rows = true) : Delivered c.state.store tenantID eventID := by
  obtain ⟨_, hst, -, hentry⟩ := mem_log.1 hmem
  obtain ⟨_, _, hsplit⟩ := List.append_of_mem hst
  obtain ⟨_, k, hc', hlater, -, hpre, -, hp⟩ := hc.before_step hsplit
  rw [hentry] at hp hpre
  exact (delivered_later hc' hlater (hpre ▸ delivered_of_allSent hp hsent)).1

/-- Events that are on their way to `replied`, or there, are delivered. -/
def RepliedDelivered (s : Store) : Prop :=
  ∀ tenantID eventID v, s.events.lookup (key [tenantID, eventID]) = some v →
    v.status = .replyPending ∨ v.status = .replied → Delivered s tenantID eventID

section

variable (hc : Reachable adm (Run.start (State.initial clock)) c)

include hc

/-- A step of an event to `reply_pending` or `replied` is a worker's, and the event is delivered. -/
theorem delivered_of_move {t : ℕ} {call : Call} {ctx : Ctx} {m : MessageTransition}
    {value : MessageEvent}
    (hpre : Call.Pre call (log c.history t) (.store ctx (.transitionMessage m)))
    (hmoves : c.state.store.MovesMessage c.state.clock m value)
    (hstatus : m.to = .replyPending ∨ m.to = .replied) (hI : RepliedDelivered c.state.store) :
    Delivered c.state.store m.tenantID m.eventID := by
  have hfrom : m.from = .replyPending → Delivered c.state.store m.tenantID m.eventID := fun h =>
    hI _ _ value hmoves.found (.inl (hmoves.status.trans h))
  cases call with
  | runOnce w =>
    cases hpre with
    | advance _ _ rows _ pre post _ _ hlog hsent =>
      have hmem : listEntry w.tenantID rows pre post ∈ log c.history t := by rw [hlog]; simp
      exact delivered_of_listing hc hmem hsent
    | replied | finish => exact hfrom rfl
  | _ =>
    rcases hpre with h | ⟨-, h⟩ | ⟨-, d, status, _, _, -, hs, rfl⟩
    · rw [h] at hstatus
      simp at hstatus
    · rw [h] at hstatus
      simp at hstatus
    · rcases hs with rfl | rfl <;> simp [release] at hstatus

/-- Throughout every run, events that are on their way to `replied`, or there, are delivered. -/
theorem reachable_repliedDelivered : RepliedDelivered c.state.store := by
  refine reachable_store (I := RepliedDelivered) (fun _ _ v hv => by cases hv) ?_ hc
  intro c t _ _ _ o store hc _ hpre hchange hI T E v hv hstatus
  have hstep : Delivered c.state.store T E → Delivered store T E := fun hd =>
    hd.of_sameRows (hchange.rows_of_delivered (reachable_sound Store.Sound.empty hc)
      (reachable_named hc) (fun _ _ ho v hv => by
        obtain ⟨_, hnew⟩ := hpre.newSegments ho
        rw [(hnew v hv).replyID, (hnew v hv).eventID]) hd)
  rcases hchange.event (key [T, E]) with heq | ⟨_, _, -, -, -, heq⟩ |
    ⟨m, value, rfl, hkey, hmoves, heq⟩
  · exact hstep (hI T E v (heq.symm.trans hv) hstatus)
  · rw [hv] at heq
    cases heq
    simp [newEvent] at hstatus
  · rw [hv] at heq
    cases heq
    obtain ⟨rfl, rfl⟩ : T = m.tenantID ∧ E = m.eventID := by simpa using hkey
    exact hstep (delivered_of_move hc hpre hmoves hstatus hI)

end

/-- A replied event has a reply of which every segment is sent, and from then on neither its status
nor its rows change. -/
theorem replied_sent (hc : Reachable adm (Run.start (State.initial clock)) c) {v : MessageEvent}
    (hv : c.state.store.events.lookup (key [tenantID, eventID]) = some v)
    (hstatus : v.status = .replied) :
    (∃ replyID n, SentReply c.state.store tenantID eventID replyID n) ∧
      ∀ c', Reachable adm c c' →
        c'.state.store.events.lookup (key [tenantID, eventID]) = some v ∧
        SameRows c.state.store c'.state.store tenantID eventID := by
  have hd := reachable_repliedDelivered hc tenantID eventID v hv (.inr hstatus)
  refine ⟨⟨eventID, hd.sentReply (reachable_sound Store.Sound.empty hc) (reachable_named hc)⟩,
    fun c' hc' => ⟨?_, (delivered_later hc hc' hd).2⟩⟩
  obtain ⟨v', hv', hevolves⟩ := (reachable_later hc').store.events _ v hv
  rw [hv', hevolves.final (.inl hstatus)]

end Runs

/-! ## A concrete run -/

/-- A claim, a reply of two segments, and one pass of a worker that delivers both. -/
def bothDelivered : List (Action (services plainExternals)) :=
  firstClaim ++ [.spawn 2 (sampleFinish "a" 1 "req" "hello!")] ++
    List.replicate 4 (.perform 2 {}) ++ [.spawn 3 (samplePass 'w' 2)] ++
    List.replicate 18 (.perform 3 {})

/-- The event of the run is replied, and both segments of its reply are sent. -/
theorem replied_sent_bothDelivered : ∃ c : Run plainExternals,
    Reachable (fun _ _ => True) (Run.start (State.initial 1)) c ∧
      (∃ v ∈ c.state.store.events.lookup (key ["t", "e"]), v.status = .replied) ∧
      ∃ replyID n, SentReply c.state.store "t" "e" replyID n := by
  obtain ⟨c, hc, v, hv, hstatus⟩ := Config.exists_reachable_of_run (fun _ _ => True)
    (Run.start (State.initial 1)) bothDelivered
    (fun c => ∃ v ∈ c.state.store.events.lookup (key ["t", "e"]), v.status = .replied)
    (by decide +kernel)
  exact ⟨c, hc, ⟨v, hv, hstatus⟩, (replied_sent hc hv hstatus).1⟩

end AgentService.Platform
