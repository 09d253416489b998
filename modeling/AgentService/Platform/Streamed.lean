import AgentService.Gateway.Marks
import AgentService.Platform.Exclusion
import AgentService.Platform.Replies

/-!
# The durable reply is what was streamed

A call of `forward` that completes its event has stored exactly the text that it streamed
(`forward_stores_streamed`): the payloads of the event's rows, in the order of their segments, give
the text back, and a text of white space gives no row. A call that ended with an error or was
canceled stores nothing and does not complete the event.
-/

namespace AgentService.Platform

open Storage Concurrent Gateway Outbox List Store

variable {x : Externals}

/-- The event of a handle has exactly the rows of a reply with these payloads. -/
structure HoldsReply (s : Store) (durable : DurableExecution) (payloads : List String) : Prop where
  /-- Every payload has a row under its index. -/
  rows : ∀ (i : ℕ) payload, payloads[i]? = some payload → ∃ k r, s.replies.lookup k = some r ∧
    r.tenantID = durable.tenantID ∧ r.eventID = durable.eventID ∧ r.segmentIndex = i ∧
    r.payload = payload
  /-- Every row of the event is the one of a payload. -/
  only : ∀ k r, s.replies.lookup k = some r → r.tenantID = durable.tenantID →
    r.eventID = durable.eventID →
    ∃ (i : ℕ) (payload : String), payloads[i]? = some payload ∧ r.segmentIndex = i ∧
      r.payload = payload
  /-- No index has two rows. -/
  unique : ∀ k k' r r', s.replies.lookup k = some r → s.replies.lookup k' = some r' →
    r.tenantID = durable.tenantID → r.eventID = durable.eventID →
    r'.tenantID = durable.tenantID → r'.eventID = durable.eventID →
    r.segmentIndex = r'.segmentIndex → k = k'

/-- The event of a handle as a step moved it to `completed`, if the step did. -/
def completedEvent (durable : DurableExecution) : Entry x → Option MessageEvent
  | ⟨.store _ (.transitionMessage transition), r, _, _⟩ =>
    if transition.tenantID = durable.tenantID ∧ transition.eventID = durable.eventID ∧
      transition.to = .completed then Except.toOption r else none
  | _ => none

/-- A step adds a reply row. -/
def AddsRow (entry : Entry x) : Prop :=
  ∃ k, entry.pre.store.replies.lookup k = none ∧ entry.post.store.replies.lookup k ≠ none

/-! ## The rows of a stored reply -/

section Rows

variable {s : Store} {durable : DurableExecution} {m : Materializer} {reply : String}
  {correlation : ReplyCorrelation} {first : ReplyOutbox}

/-- The rows of a reply stand under their keys. -/
def HasSegments (s : Store) (durable : DurableExecution) (segments : List String) : Prop :=
  ∀ (i : ℕ) payload, segments[i]? = some payload →
    ∃ r, s.replies.lookup (replyKey durable.tenantID durable.eventID i) = some r ∧
      r.eventID = durable.eventID ∧ r.segmentCount = segments.length ∧ r.payload = payload

/-- After the batch of a reply its rows stand under their keys. -/
theorem hasSegments_enqueued (now : ℤ)
    (henq : s.Enqueues correlation (replyRows m durable reply) first) :
    HasSegments (s.enqueued now correlation (replyRows m durable reply)) durable
      (replySegments m reply) := by
  intro i payload hi
  obtain ⟨r, hlookup, hdiffers⟩ := henq.content now (mem_batch_iff.2 ⟨i, payload, hi, rfl⟩)
  simp only [replyDiffers, decide_eq_false_iff_not, not_or, not_not, ne_eq] at hdiffers
  rw [rowKey, Nat.zero_add] at hlookup
  exact ⟨r, hlookup, hdiffers.1, hdiffers.2.1, hdiffers.2.2.1⟩

/-- The rows of a reply stay under their keys. -/
theorem HasSegments.evolves {s' : Store} {segments : List String}
    (h : HasSegments s durable segments) (hs : s.Evolves s') : HasSegments s' durable segments := by
  intro i payload hi
  obtain ⟨r, hr, hevent, hcount, hpayload⟩ := h i payload hi
  obtain ⟨r', hr', hevolves⟩ := hs.replies _ r hr
  exact ⟨r', hr', hevolves.eventID.trans hevent, hevolves.segmentCount.trans hcount,
    hevolves.payload.trans hpayload⟩

/-- Where the rows of a reply stand under their keys, the event has no other rows. -/
theorem HasSegments.holdsReply {segments : List String} (h : HasSegments s durable segments)
    (hs : s.Sound) (hnamed : Named s) (hne : segments ≠ []) : HoldsReply s durable segments := by
  -- A row of the event stands under the key of its index.
  have hkey : ∀ k r, s.replies.lookup k = some r → r.tenantID = durable.tenantID →
      r.eventID = durable.eventID →
      k = replyKey durable.tenantID durable.eventID r.segmentIndex := by
    intro k r hr ht he
    rw [(hs.rows k r hr).key, rowKey, hnamed k r hr, ht, he]
  refine ⟨fun i payload hi => ?_, fun k r hr ht he => ?_, ?_⟩
  · obtain ⟨r, hr, hevent, -, hpayload⟩ := h i payload hi
    have hsound := (hs.rows _ r hr).key
    simp only [rowKey, replyKey_inj] at hsound
    exact ⟨_, r, hr, hsound.1.symm, hevent, hsound.2.2.symm, hpayload⟩
  · have hrow := hs.rows k r hr
    -- The first segment tells the number of segments.
    have hcount : r.segmentCount = segments.length := by
      obtain ⟨payload, hpayload⟩ : ∃ payload, segments[0]? = some payload := by
        obtain ⟨payload, _, rfl⟩ := exists_cons_of_ne_nil hne
        exact ⟨payload, rfl⟩
      obtain ⟨first, hfirst, -, hfirstCount, -⟩ := h 0 payload hpayload
      obtain ⟨r', hr', hr'count, -⟩ := hs.segments k r hr 0 (Int.le_refl 0)
        (by have := hrow.index_nonneg; have := hrow.index_lt; omega)
      rw [ht, hnamed k r hr, he] at hr'
      obtain rfl : first = r' := Option.some.inj (hfirst.symm.trans hr')
      rw [← hr'count, hfirstCount]
    obtain ⟨i, hi⟩ : ∃ i : ℕ, r.segmentIndex = i := Int.eq_ofNat_of_zero_le hrow.index_nonneg
    have hlt : i < segments.length := by
      have := hrow.index_lt
      omega
    obtain ⟨r', hr', -, -, hpayload⟩ := h i segments[i] (getElem?_eq_getElem hlt)
    have hk := hkey k r hr ht he
    rw [hi] at hk
    rw [← hk, hr] at hr'
    rw [← Option.some.inj hr'] at hpayload
    exact ⟨i, segments[i], getElem?_eq_getElem hlt, hi, hpayload⟩
  · intro k k' r r' hr hr' ht he ht' he' hindex
    rw [hkey k r hr ht he, hkey k' r' hr' ht' he', hindex]

end Rows

/-! ## The steps of a call -/

section Steps

variable {entry : Entry x} (hp : (platform x).Performs entry.op entry.pre entry.res entry.post)
include hp

/-- A step outside the store adds no row. -/
theorem not_addsRow_of_not_isStore (h : ¬ IsStore entry.op) : ¬ AddsRow entry := by
  rintro ⟨k, hpre, hpost⟩
  rw [(performs_other (fun ctx o ho => h ⟨ctx, o, ho⟩) hp).1] at hpost
  exact hpost hpre

end Steps

variable {durable : DurableExecution}

/-- The end of an event adds no row. -/
theorem not_addsRow_releaseEntry {status : EventStatus}
    {replyID : String} {segments : ℕ} {r : Except Storage.Err MessageEvent} {pre post : State}
    (hp : (platform x).Performs (releaseEntry (x := x) durable status replyID segments r pre post).op
      pre r post) :
    ¬ AddsRow (releaseEntry durable status replyID segments r pre post : Entry x) := by
  rintro ⟨k, hpre, hpost⟩
  rcases performs_transitionMessage hp with ⟨rfl, -⟩ | ⟨_, -, -, rfl⟩
  · exact hpost hpre
  · exact hpost hpre

/-- The end of an event as a step to `completed`. -/
theorem completedEvent_releaseEntry (durable : DurableExecution) (status : EventStatus)
    (replyID : String) (segments : ℕ) (r : Except Storage.Err MessageEvent) (pre post : State) :
    completedEvent durable (releaseEntry durable status replyID segments r pre post : Entry x) =
      if status = .completed then r.toOption else none := by
  show (if _ then _ else _) = _
  simp only [release, true_and]

/-- A step outside the store moves no event. -/
theorem completedEvent_of_not_isStore {entry : Entry x}
    (h : ¬ IsStore entry.op) : completedEvent durable entry = none := by
  obtain ⟨op, r, _, _⟩ := entry
  cases op with
  | store ctx o => exact absurd ⟨ctx, o, rfl⟩ h
  | _ => rfl

section Runs

variable {adm : Run x → Call → Prop} {clock : ℤ} {c : Run x} {t : ℕ} {d : Dispatcher}
  {e : Execution} {events : List (Option RunnerEvent)} {err : Option Gateway.Err}
  {durable : DurableExecution}

/-- What a call of `forward` has performed when it has returned. -/
theorem forwarded_of_returned {s0 : State} (hc : Reachable adm (Run.start s0) c)
    (hr : c.Returned t (.forward d e events) (.forwarded err)) (hdurable : e.durable = some durable) :
    Forwarded d e durable events (log c.history t) err := by
  have hbody : ((services x).body (.forward d e events)).Obeys (fun _ _ => True)
      (fun l r => ∀ err, r = .forwarded err → Forwarded d e durable events l err) [] := by
    show Program.Obeys _ _ (_ >>= _) _
    rw [Program.obeys_bind]
    refine (forward_obeys d e hdurable events).mono (fun _ _ _ => trivial) ?_
    intro l err h _ heq
    cases heq
    exact h
  exact hc.returned hbody hr err rfl

/-- After an accepted batch the rows of the reply stand under their keys. -/
theorem hasSegments_of_enqueueEntry {m : Materializer}
    {requestID traceID reply traceParent : String} {rows : List ReplyOutbox} {pre post : State}
    {entry : Entry x}
    (hentry : entry = enqueueEntry m durable requestID traceID reply traceParent (.ok rows) pre post)
    (hp : (platform x).Performs entry.op entry.pre entry.res entry.post) :
    HasSegments post.store durable (replySegments m reply) := by
  by_cases hrequest : requestID = ""
  · rw [enqueueEntry_of_eq hrequest] at hentry
    subst hentry
    rcases performs_enqueueReplies hp with ⟨-, err, herr⟩ | ⟨first, rows', henq, -, hpost⟩
    · cases herr
    · rw [show post = _ from hpost]
      exact hasSegments_enqueued _ henq
  · rw [enqueueEntry_of_ne hrequest] at hentry
    subst hentry
    rcases performs_enqueueRepliesWithCorrelation hp with
      ⟨-, err, herr⟩ | ⟨given, first, rows', -, henq, -, hpost⟩
    · cases herr
    · rw [show post = _ from hpost]
      exact hasSegments_enqueued _ henq

/-- The rows of the reply of an execution that has completed its event, and their number. -/
theorem holdsReply_of_stored (hc : Reachable adm (Run.start (State.initial clock)) c)
    {l1 : List (Entry x)} {m : Materializer} {requestID traceID reply traceParent : String}
    {rows : List ReplyOutbox} {v : MessageEvent} {pre post pre' post' : State}
    (hlog : log c.history t = l1 ++
      [enqueueEntry m durable requestID traceID reply traceParent (.ok rows) pre post,
        releaseEntry durable .completed durable.eventID (replySegments m reply).length (.ok v) pre'
          post'])
    (hreply : Go.trimSpace reply ≠ "") :
    HoldsReply post'.store durable (replySegments m reply) ∧
      v.segmentCount = (replySegments m reply).length := by
  have hne : replySegments m reply ≠ [] := splitRunes_ne_nil hreply
  generalize hbatch : (enqueueEntry m durable requestID traceID reply traceParent (.ok rows) pre
    post : Entry x) = batch at hlog
  generalize hrelease : (releaseEntry durable .completed durable.eventID
    (replySegments m reply).length (.ok v) pre' post' : Entry x) = last at hlog
  have hmem : batch ∈ log c.history t ∧ last ∈ log c.history t := by rw [hlog]; simp
  -- The rows of the batch are still there when the event is completed.
  have hbetween : batch.post.Evolves last.pre := by
    have hpair := reachable_evolves_log hc t
    rw [hlog, pairwise_append] at hpair
    exact (pairwise_cons.1 hpair.2.1).1 last (by simp)
  have hsegments : HasSegments post.store durable (replySegments m reply) :=
    hasSegments_of_enqueueEntry hbatch.symm (reachable_performs_log hc hmem.1)
  obtain ⟨c', hc', hstate⟩ := reachable_post_log hc hmem.2
  have hp := reachable_performs_log hc hmem.2
  subst hbatch hrelease
  replace hstate : c'.state = post' := hstate
  rw [enqueueEntry_post] at hbetween
  have hlater : post.store.Evolves post'.store :=
    hbetween.store.trans (performs_evolves _ _ _ _ hp).store
  refine ⟨(hsegments.evolves hlater).holdsReply ?_ ?_ hne, ?_⟩
  · exact hstate ▸ reachable_sound Store.Sound.empty hc'
  · exact hstate ▸ reachable_named hc'
  · rcases performs_transitionMessage hp with ⟨-, _, herr⟩ | ⟨value, -, hr, -⟩
    · cases herr
    · have hv : v = applyMessageTransition pre'.clock value (release durable .completed
        durable.eventID (replySegments m reply).length) := Except.ok.inj hr
      have hpos : ((replySegments m reply).length : ℤ) > 0 := by
        have := length_pos_of_ne_nil hne
        omega
      have hcount : ∀ tr : MessageTransition, tr.segmentCount > 0 →
          (applyMessageTransition pre'.clock value tr).segmentCount = tr.segmentCount :=
        fun _ htr => if_pos htr
      rw [hv]
      exact hcount _ hpos

/-- The step by which an execution completes its event. -/
theorem finished_completes {requestID traceID reply : String} {k : List (Entry x)}
    (h : Finished d requestID traceID durable reply err k) {entry : Entry x} (hentry : entry ∈ k)
    {v : MessageEvent} (hv : completedEvent durable entry = some v) :
    err = none ∧ ((d.materializer = none ∨ Go.trimSpace reply = "") ∧
        (∃ pre post, k = [releaseEntry durable .completed "" 0 (.ok v) pre post]) ∨
      ∃ m traces traceParent rows pre post pre' post', d.materializer = some m ∧
        Go.trimSpace reply ≠ "" ∧ entry.post = post' ∧ k = traces ++
          [enqueueEntry m durable requestID traceID reply traceParent (.ok rows) pre post,
            releaseEntry durable .completed durable.eventID (replySegments m reply).length (.ok v)
              pre' post']) := by
  -- Neither a reading of the trace parent nor a batch moves an event.
  have htrace : ∀ traces : List (Entry x), Traces traces → entry ∉ traces := by
    intro traces htraces hmem
    obtain ⟨traceParent, pre, post, rfl⟩ := htraces entry hmem
    cases hv
  have hbatch : ∀ (m : Materializer) traceParent r pre post,
      entry ≠ enqueueEntry m durable requestID traceID reply traceParent r pre post := by
    rintro m traceParent r pre post rfl
    unfold enqueueEntry at hv
    split_ifs at hv <;> cases hv
  have hfailed : ∀ r pre post, entry ≠ releaseEntry durable .failed "" 0 r pre post := by
    rintro r pre post rfl
    rw [completedEvent_releaseEntry] at hv
    cases hv
  have hcompleted : ∀ replyID segments r pre post,
      entry = releaseEntry durable .completed replyID segments r pre post → r = .ok v := by
    rintro replyID segments r pre post rfl
    rw [completedEvent_releaseEntry, if_pos rfl] at hv
    cases r with
    | error => cases hv
    | ok => rw [Option.some.inj hv]
  cases h with
  | failed err r pre post => exact absurd (mem_singleton.1 hentry) (hfailed r pre post)
  | silent hreply r pre post =>
    obtain rfl := hcompleted _ _ _ _ _ (mem_singleton.1 hentry)
    exact ⟨rfl, .inl ⟨hreply, pre, post, rfl⟩⟩
  | refused _ _ _ _ traces htraces r pre post =>
    rcases mem_append.1 hentry with hentry | hentry
    · exact absurd hentry (htrace traces htraces)
    · exact absurd (mem_singleton.1 hentry) (hfailed r pre post)
  | rejected m _ _ _ traces htraces given err r pre post pre' post' =>
    rcases mem_append.1 hentry with hentry | hentry
    · exact absurd hentry (htrace traces htraces)
    · rcases mem_cons.1 hentry with hentry | hentry
      · exact absurd hentry (hbatch m given (.error err) pre post)
      · exact absurd (mem_singleton.1 hentry) (hfailed r pre' post')
  | stored m hm hreply _ traces htraces given rows _ pre post pre' post' =>
    rcases mem_append.1 hentry with hentry | hentry
    · exact absurd hentry (htrace traces htraces)
    · rcases mem_cons.1 hentry with hentry | hentry
      · exact absurd hentry (hbatch m given (.ok rows) pre post)
      · have hlast := mem_singleton.1 hentry
        obtain rfl := hcompleted _ _ _ _ _ hlast
        exact ⟨rfl, .inr ⟨m, traces, given, rows, pre, post, pre', post', hm, hreply,
          congrArg Machine.Entry.post hlast, rfl⟩⟩

/-- The durable reply of a call of `forward` is what it streamed. If the call completes its event,
the payloads of the event's rows give the streamed text back, each of them has between one and
`segmentSize` code points, and the event counts them; a text of white space adds no row. A call that
ended with an error or was canceled adds no row and does not complete the event. -/
theorem forward_stores_streamed (hc : Reachable adm (Run.start (State.initial clock)) c)
    (hr : c.Returned t (.forward d e events) (.forwarded err)) (hdurable : e.durable = some durable)
    {m : Materializer} (hm : d.materializer = some m) :
    (∀ entry ∈ log c.history t, ∀ v, completedEvent durable entry = some v →
      (Go.trimSpace (streamed (log c.history t)) ≠ "" → ∃ payloads,
        String.join payloads = streamed (log c.history t) ∧
        (∀ p ∈ payloads, 1 ≤ (Go.runes p).length ∧ (Go.runes p).length ≤ m.segmentSize) ∧
        HoldsReply entry.post.store durable payloads ∧ v.segmentCount = payloads.length) ∧
      (Go.trimSpace (streamed (log c.history t)) = "" →
        ∀ entry' ∈ log c.history t, ¬ AddsRow entry')) ∧
    (err ≠ none ∨ EndedBadly events (marks (log c.history t)) →
      ∀ entry ∈ log c.history t, ¬ AddsRow entry ∧ completedEvent durable entry = none) := by
  have hforwarded := forwarded_of_returned hc hr hdurable
  have hbad := hforwarded.err_of_endedBadly
  obtain ⟨l0, k, reply, hlog, hfree, hfinished, hreply⟩ := hforwarded.finished
  have huntouched : ∀ entry ∈ log c.history t, ¬ IsStore entry.op →
      ¬ AddsRow entry ∧ completedEvent durable entry = none :=
    fun entry hentry h => ⟨not_addsRow_of_not_isStore (reachable_performs_log hc hentry) h,
      completedEvent_of_not_isStore h⟩
  have hl0 : ∀ entry ∈ l0, ¬ AddsRow entry ∧ completedEvent durable entry = none :=
    fun entry hentry => huntouched entry (hlog ▸ List.mem_append_left k hentry) (hfree entry hentry)
  refine ⟨fun entry hentry v hv => ?_, fun h => ?_⟩
  · rw [hlog] at hentry
    have hk : entry ∈ k :=
      (List.mem_append.1 hentry).resolve_left fun h => by
        rw [(hl0 entry h).2] at hv
        cases hv
    obtain ⟨rfl, ⟨hsilent, pre, post, rfl⟩ | ⟨m', traces, given, rows, pre, post, pre', post', hm',
      hne, hpost, rfl⟩⟩ := finished_completes hfinished hk hv
    · rw [hreply rfl]
      have hblank := hsilent.resolve_left (by simp [hm])
      refine ⟨fun hne => absurd hblank hne, fun _ entry' hentry' => ?_⟩
      have hp := reachable_performs_log hc hentry'
      rw [hlog] at hentry'
      rcases List.mem_append.1 hentry' with hentry' | hentry'
      · exact (hl0 entry' hentry').1
      · obtain rfl := List.mem_singleton.1 hentry'
        exact not_addsRow_releaseEntry hp
    · obtain rfl : m = m' := Option.some.inj (hm.symm.trans hm')
      rw [hreply rfl]
      refine ⟨fun _ => ?_, fun hblank => absurd hblank hne⟩
      obtain ⟨hholds, hcount⟩ := holdsReply_of_stored hc
        (hlog.trans (List.append_assoc ..).symm) hne
      exact ⟨replySegments m reply, join_splitRunes m.segmentSize_pos hne,
        fun p hp => runes_of_mem_splitRunes m.segmentSize_pos hp, hpost ▸ hholds, hcount⟩
  · have herr : err ≠ none := h.elim id hbad
    intro entry hentry
    have hp := reachable_performs_log hc hentry
    cases hfinished with
    | failed =>
      rw [hlog] at hentry
      rcases List.mem_append.1 hentry with hentry | hentry
      · exact hl0 entry hentry
      · obtain rfl := List.mem_singleton.1 hentry
        exact ⟨not_addsRow_releaseEntry hp, completedEvent_releaseEntry ..⟩
    | _ => exact absurd rfl herr

end Runs

/-! ## A concrete run -/

/-- A runner event with a piece of text. -/
def textEvent (text : String) (done : Bool) : Option RunnerEvent :=
  some ⟨some { failed := false, choices := [⟨text, ""⟩], done := done, isPartial := !done }⟩

/-- An execution of the event `e`. -/
def sampleExecution (owner : String) (fencingToken : ℤ) : Execution :=
  { requestID := "req", traceID := "", durable := some (sampleHandle owner fencingToken),
    principal := samplePrincipal, message := sampleMessage, identity := ⟨"u", "s"⟩ }

/-- A stream of two messages. -/
def sampleStream : List (Option RunnerEvent) := [textEvent "hel" false, textEvent "lo you" true]

/-- The execution of the event `e` streams two messages, by the call `2`. -/
def streamReply : List (Action (services plainExternals)) :=
  .spawn 2 (.forward sampleDispatcher (sampleExecution "a" 1) sampleStream) ::
    List.replicate 11 (.perform 2 {})

/-- The execution completes its event with the two messages as one reply. -/
theorem forward_stores_hello : ∃ c : Run plainExternals,
    Reachable Faithful (Run.start (State.initial 1)) c ∧
      c.Returned 2 (.forward sampleDispatcher (sampleExecution "a" 1) sampleStream)
        (.forwarded none) ∧
      ∃ entry ∈ log c.history 2, ∃ v, completedEvent (sampleHandle "a" 1) entry = some v ∧
        ∃ payloads, String.join payloads = "hello you" ∧
          HoldsReply entry.post.store (sampleHandle "a" 1) payloads ∧
          v.segmentCount = payloads.length := by
  obtain ⟨c, hc, hreturned, hresult, hstreamed, entry, hentry, hsome⟩ :=
    Config.exists_returned_of_run Faithful (Run.start (State.initial 1)) (firstClaim ++ streamReply)
      (fun c => c.result 2 = some (.forwarded none) ∧ streamed (log c.history 2) = "hello you" ∧
        ∃ entry ∈ log c.history 2, (completedEvent (sampleHandle "a" 1) entry).isSome = true)
      (by decide +kernel)
  obtain ⟨v, hv⟩ := Option.isSome_iff_exists.1 hsome
  have hreturned' := hreturned 2
    (.forward sampleDispatcher (sampleExecution "a" 1) sampleStream) (.forwarded none)
    (by simp [streamReply]) hresult
  obtain ⟨payloads, hjoin, -, hholds, hcount⟩ :=
    ((forward_stores_streamed hc hreturned' rfl rfl).1 entry hentry v hv).1
      (by rw [hstreamed]; decide)
  exact ⟨c, hc, hreturned', entry, hentry, v, hv, payloads, hjoin.trans hstreamed, hholds, hcount⟩

end AgentService.Platform
