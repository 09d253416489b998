import AgentService.Storage.Calls

/-!
# Referential integrity

The maps of the in-memory store refer to each other as the foreign keys of the database do: a
message leads to its event and back, an event to its session, a reply row to its event, and a
history entry to its session; the events of a session have distinct numbers between two and the
session's version. `Integrity` says so, and every call keeps it (`integrity_run`).

A correlation refers to its event when it is stored, but `DeleteSession` leaves the correlations of
the events that it deletes. In the runs where it finds none, correlations refer to events as well
(`referential_of_uncorrelated`).
-/

namespace AgentService.Storage

open Concurrent AList Go

variable {lib : Libraries} {s s' : Store} {now : ℤ}

/-- The key under which an event is indexed. -/
def messageKey (event : MessageEvent) : String :=
  key [event.tenantID, event.bindingID, event.externalMessageID]

/-- The key of the session of an event. -/
def sessionKey (event : MessageEvent) : String := key [event.tenantID, event.sessionID]

/-- A store whose maps refer to each other, the correlations apart. -/
structure Integrity (s : Store) : Prop where
  /-- Every event stands under its key and is indexed under its message. -/
  events : ∀ k event, s.events.lookup k = some event →
    k = key [event.tenantID, event.eventID] ∧ s.messages.lookup (messageKey event) = some k
  /-- Every message leads to its event. -/
  messages : ∀ u k, s.messages.lookup u = some k →
    ∃ event, s.events.lookup k = some event ∧ messageKey event = u
  /-- Every session stands under its key, and its versions count from one. -/
  sessions : ∀ k session, s.sessions.lookup k = some session →
    k = key [session.tenantID, session.sessionID] ∧ 1 ≤ session.version
  /-- The session of an event is stored, and the number of the event lies between two and its
  version. -/
  session : ∀ k event, s.events.lookup k = some event →
    ∃ session, s.sessions.lookup (sessionKey event) = some session ∧ 2 ≤ event.eventSeq ∧
      event.eventSeq ≤ session.version
  /-- The events of a session have distinct numbers. -/
  sequence : ∀ k event k' event', s.events.lookup k = some event →
    s.events.lookup k' = some event' → sessionKey event = sessionKey event' →
    event.eventSeq = event'.eventSeq → k = k'
  /-- A reply row belongs to a stored event of its tenant. -/
  replies : ∀ k row, s.replies.lookup k = some row →
    ∃ event, s.events.lookup (key [row.tenantID, row.eventID]) = some event
  /-- A history entry belongs to a stored session of its tenant. -/
  histories : ∀ k entries, s.histories.lookup k = some entries → ∀ entry ∈ entries,
    k = key [entry.tenantID, entry.sessionID] ∧ ∃ session, s.sessions.lookup k = some session

theorem Integrity.empty : Integrity {} := by
  refine ⟨fun k event h => ?_, fun u k h => ?_, fun k _ h => ?_, fun k event h => ?_,
    fun k event _ _ h => ?_, fun k _ h => ?_, fun k _ h => ?_⟩ <;> cases h

/-! ## What the calls keep -/

section

variable (h : Integrity s)

include h

/-- Other reply rows that belong to stored events. -/
theorem Integrity.of_replies (hevents : s'.events = s.events)
    (hmessages : s'.messages = s.messages) (hsessions : s'.sessions = s.sessions)
    (hhistories : s'.histories = s.histories)
    (hreplies : ∀ k row, s'.replies.lookup k = some row →
      ∃ event, s.events.lookup (key [row.tenantID, row.eventID]) = some event) : Integrity s' where
  events := by rw [hevents, hmessages]; exact h.events
  messages := by rw [hevents, hmessages]; exact h.messages
  sessions := by rw [hsessions]; exact h.sessions
  session := by rw [hevents, hsessions]; exact h.session
  sequence := by rw [hevents]; exact h.sequence
  replies := by rw [hevents]; exact hreplies
  histories := by rw [hhistories, hsessions]; exact h.histories

/-- Later versions of a session. -/
theorem Integrity.setSession {tenantID sessionID : String} {value : Session}
    (htenant : value.tenantID = tenantID) (hsession : value.sessionID = sessionID)
    (hone : 1 ≤ value.version)
    (hversion : ∀ old, s.sessions.lookup (key [tenantID, sessionID]) = some old →
      old.version ≤ value.version) :
    Integrity (s.setSession (key [tenantID, sessionID]) value) where
  events := h.events
  messages := h.messages
  sessions k session hk := by
    rcases lookup_insert_eq_some.1 hk with ⟨rfl, rfl⟩ | ⟨-, hold⟩
    · rw [htenant, hsession]
      exact ⟨rfl, hone⟩
    · exact h.sessions k session hold
  session k event hk := by
    obtain ⟨session, hfound, h2, hle⟩ := h.session k event hk
    by_cases hkey : sessionKey event = key [tenantID, sessionID]
    · rw [hkey] at hfound ⊢
      exact ⟨value, lookup_insert _, h2, Int.le_trans hle (hversion session hfound)⟩
    · exact ⟨session, (lookup_insert_ne hkey).trans hfound, h2, hle⟩
  sequence := h.sequence
  replies := h.replies
  histories k entries hk entry hentry := by
    obtain ⟨hkey, session, hfound⟩ := h.histories k entries hk entry hentry
    by_cases hk' : k = key [tenantID, sessionID]
    · subst hk'
      exact ⟨hkey, value, lookup_insert _⟩
    · exact ⟨hkey, session, (lookup_insert_ne hk').trans hfound⟩

/-- A history entry for a stored session. -/
theorem Integrity.setHistory {tenantID sessionID : String} {session : Session}
    {entries : List EventPayload}
    (hfound : s.sessions.lookup (key [tenantID, sessionID]) = some session)
    (hentries : ∀ entry ∈ entries, entry.tenantID = tenantID ∧ entry.sessionID = sessionID) :
    Integrity (s.setHistory (key [tenantID, sessionID]) entries) where
  events := h.events
  messages := h.messages
  sessions := h.sessions
  session := h.session
  sequence := h.sequence
  replies := h.replies
  histories k entries' hk entry hentry := by
    rcases lookup_insert_eq_some.1 hk with ⟨rfl, rfl⟩ | ⟨-, hold⟩
    · obtain ⟨rfl, rfl⟩ := hentries entry hentry
      exact ⟨rfl, session, hfound⟩
    · exact h.histories k entries' hold entry hentry

/-- A step of an event, which keeps its identity, its session, and its number. -/
theorem Integrity.setEvent {t : MessageTransition} {value : MessageEvent}
    (hmoves : s.MovesMessage now t value) : Integrity (s.setEvent (key [t.tenantID, t.eventID])
      (Store.applyMessageTransition now value t)) := by
  -- Every event of the new store is one of the old store, up to what the step changes.
  have hback : ∀ k event, (s.setEvent (key [t.tenantID, t.eventID])
      (Store.applyMessageTransition now value t)).events.lookup k = some event →
      ∃ old, s.events.lookup k = some old ∧ event.tenantID = old.tenantID ∧
        event.eventID = old.eventID ∧ messageKey event = messageKey old ∧
        sessionKey event = sessionKey old ∧ event.eventSeq = old.eventSeq := by
    intro k event hk
    rcases lookup_insert_eq_some.1 hk with ⟨rfl, rfl⟩ | ⟨-, hold⟩
    · exact ⟨value, hmoves.found, rfl, rfl, rfl, rfl, rfl⟩
    · exact ⟨event, hold, rfl, rfl, rfl, rfl, rfl⟩
  -- And every event of the old store is still there.
  have hkept : ∀ k event, s.events.lookup k = some event →
      ∃ event', (s.setEvent (key [t.tenantID, t.eventID])
        (Store.applyMessageTransition now value t)).events.lookup k = some event' ∧
        messageKey event' = messageKey event := by
    intro k event hk
    by_cases hkey : k = key [t.tenantID, t.eventID]
    · subst hkey
      rw [hmoves.found] at hk
      cases hk
      exact ⟨_, lookup_insert _, rfl⟩
    · exact ⟨event, (lookup_insert_ne hkey).trans hk, rfl⟩
  refine ⟨fun k event hk => ?_, fun u k hu => ?_, h.sessions, fun k event hk => ?_,
    fun k event k' event' hk hk' hsession hseq => ?_, fun k row hrow => ?_, h.histories⟩
  · obtain ⟨old, hold, htenant, hevent, hmessage, -, -⟩ := hback k event hk
    rw [htenant, hevent, hmessage]
    exact h.events k old hold
  · obtain ⟨event, hevent, hmessage⟩ := h.messages u k hu
    obtain ⟨event', hevent', hsame⟩ := hkept k event hevent
    exact ⟨event', hevent', hsame.trans hmessage⟩
  · obtain ⟨old, hold, -, -, -, hsession, hseq⟩ := hback k event hk
    rw [hsession, hseq]
    exact h.session k old hold
  · obtain ⟨old, hold, -, -, -, hs, hq⟩ := hback k event hk
    obtain ⟨old', hold', -, -, -, hs', hq'⟩ := hback k' event' hk'
    refine h.sequence k old k' old' hold hold' ?_ ?_
    · rw [← hs, ← hs', hsession]
    · rw [← hq, ← hq', hseq]
  · obtain ⟨event, hevent⟩ := h.replies k row hrow
    obtain ⟨event', hevent', -⟩ := hkept _ event hevent
    exact ⟨event', hevent'⟩

/-- A new message of a stored session, with the next number. -/
theorem Integrity.recorded {input : MessageEventInput} {session : Session}
    (hrec : s.RecordsMessage input)
    (hsession : s.sessions.lookup (key [input.tenantID, input.sessionID]) = some session) :
    Integrity (s.recorded (s.sessions.insert (key [input.tenantID, input.sessionID])
      { session with version := session.version + 1, updatedAt := now }) input
      (Store.newEvent now input (session.version + 1))) := by
  obtain ⟨hsessionKey, _⟩ := h.sessions _ session hsession
  -- The events that were there have another key and another message.
  have hkept : ∀ k event, s.events.lookup k = some event →
      (s.events.insert (key [input.tenantID, input.eventID])
        (Store.newEvent now input (session.version + 1))).lookup k = some event := by
    intro k event hk
    have hne : k ≠ key [input.tenantID, input.eventID] := by
      rintro rfl
      rw [hrec.unused] at hk
      cases hk
    exact (lookup_insert_ne hne).trans hk
  have hindexed : ∀ k event, s.events.lookup k = some event →
      messageKey event ≠ key [input.tenantID, input.bindingID, input.externalMessageID] := by
    intro k event hk heq
    have hmessage := (h.events k event hk).2
    rw [heq, hrec.fresh] at hmessage
    cases hmessage
  -- A session that was there is still there, in a later version.
  have hsessions : ∀ k old, s.sessions.lookup k = some old → ∃ new,
      (s.sessions.insert (key [input.tenantID, input.sessionID])
        { session with version := session.version + 1, updatedAt := now }).lookup k = some new ∧
      old.version ≤ new.version := by
    intro k old hold
    by_cases hk : k = key [input.tenantID, input.sessionID]
    · subst hk
      rw [hsession] at hold
      cases hold
      exact ⟨_, lookup_insert _, by dsimp only; omega⟩
    · exact ⟨old, (lookup_insert_ne hk).trans hold, Int.le_refl _⟩
  refine ⟨fun k event hk => ?_, fun u k hu => ?_, fun k value hk => ?_, fun k event hk => ?_,
    fun k event k' event' hk hk' hsame hseq => ?_, fun k row hrow => ?_,
    fun k entries hk entry hentry => ?_⟩
  · rcases lookup_insert_eq_some.1 hk with ⟨rfl, rfl⟩ | ⟨-, hold⟩
    · exact ⟨rfl, lookup_insert _⟩
    · obtain ⟨hkey, hmessage⟩ := h.events k event hold
      exact ⟨hkey, (lookup_insert_ne (hindexed k event hold)).trans hmessage⟩
  · rcases lookup_insert_eq_some.1 hu with ⟨rfl, rfl⟩ | ⟨-, hold⟩
    · exact ⟨_, lookup_insert _, rfl⟩
    · obtain ⟨event, hevent, hkey⟩ := h.messages u k hold
      exact ⟨event, hkept k event hevent, hkey⟩
  · rcases lookup_insert_eq_some.1 hk with ⟨rfl, rfl⟩ | ⟨-, hold⟩
    · exact ⟨hsessionKey, by dsimp only; omega⟩
    · exact h.sessions k value hold
  · rcases lookup_insert_eq_some.1 hk with ⟨rfl, rfl⟩ | ⟨-, hold⟩
    · refine ⟨_, lookup_insert _, ?_, Int.le_refl _⟩
      change 2 ≤ session.version + 1
      omega
    · obtain ⟨old, hfound, h2, hle⟩ := h.session k event hold
      obtain ⟨new, hnew, hversion⟩ := hsessions _ old hfound
      exact ⟨new, hnew, h2, Int.le_trans hle hversion⟩
  -- An old event of the session has a number up to the version before, so not the new one.
  · have hbelow : ∀ k event, s.events.lookup k = some event →
        sessionKey event = key [input.tenantID, input.sessionID] →
        event.eventSeq ≠ session.version + 1 := by
      intro k event hold hkey
      obtain ⟨old, hfound, -, hle⟩ := h.session k event hold
      rw [hkey, hsession] at hfound
      cases hfound
      omega
    rcases lookup_insert_eq_some.1 hk with ⟨rfl, rfl⟩ | ⟨-, hold⟩
    · rcases lookup_insert_eq_some.1 hk' with ⟨rfl, rfl⟩ | ⟨-, hold'⟩
      · rfl
      · exact absurd hseq.symm (hbelow k' event' hold' hsame.symm)
    · rcases lookup_insert_eq_some.1 hk' with ⟨rfl, rfl⟩ | ⟨-, hold'⟩
      · exact absurd hseq (hbelow k event hold hsame)
      · exact h.sequence k event k' event' hold hold' hsame hseq
  · obtain ⟨event, hevent⟩ := h.replies k row hrow
    exact ⟨event, hkept _ event hevent⟩
  · obtain ⟨hkey, old, hold⟩ := h.histories k entries hk entry hentry
    obtain ⟨new, hnew, -⟩ := hsessions k old hold
    exact ⟨hkey, new, hnew⟩

/-- A session is deleted with everything that refers to it, the correlations apart. -/
theorem Integrity.deletes {tenantID sessionID : String}
    (hdel : s.Deletes s' tenantID sessionID) : Integrity s' := by
  -- An event of another session has another session key.
  have hother : ∀ event, ¬ Store.OfSession tenantID sessionID event →
      sessionKey event ≠ key [tenantID, sessionID] := by
    intro event hnot heq
    simp only [sessionKey, key_inj, List.cons.injEq, and_true] at heq
    exact hnot heq
  refine ⟨fun k event hk => ?_, fun u k hu => ?_, fun k session hk => ?_, fun k event hk => ?_,
    fun k event k' event' hk hk' => ?_, fun k row hrow => ?_, fun k entries hk entry hentry => ?_⟩
  · obtain ⟨hold, hnot⟩ := (hdel.events k event).1 hk
    obtain ⟨hkey, hmessage⟩ := h.events k event hold
    refine ⟨hkey, (hdel.messages _ k).2 ⟨hmessage, fun k' event' hk' hof heq => ?_⟩⟩
    -- A deleted event with the same message would be this one.
    have hmessage' := (h.events k' event' hk').2
    have hsame : messageKey event' = messageKey event := by
      rw [← heq, messageKey, hof.1]
    rw [hsame, hmessage] at hmessage'
    cases hmessage'
    rw [hold] at hk'
    cases hk'
    exact hnot hof
  · obtain ⟨hold, hnot⟩ := (hdel.messages u k).1 hu
    obtain ⟨event, hevent, hkey⟩ := h.messages u k hold
    refine ⟨event, (hdel.events k event).2 ⟨hevent, fun hof => ?_⟩, hkey⟩
    refine hnot k event hevent hof ?_
    rw [← hkey, messageKey, hof.1]
  · rw [hdel.sessions] at hk
    exact h.sessions k session (lookup_erase_eq_some.1 hk).1
  · obtain ⟨hold, hnot⟩ := (hdel.events k event).1 hk
    obtain ⟨session, hfound, hseq⟩ := h.session k event hold
    rw [hdel.sessions]
    exact ⟨session, lookup_erase_eq_some.2 ⟨hfound, (hother event hnot).symm⟩, hseq⟩
  · exact h.sequence k event k' event' ((hdel.events k event).1 hk).1
      ((hdel.events k' event').1 hk').1
  · obtain ⟨hold, hnot⟩ := (hdel.replies k row).1 hrow
    obtain ⟨event, hevent⟩ := h.replies k row hold
    have hkey := (h.events _ event hevent).1
    simp only [key_inj, List.cons.injEq, and_true] at hkey
    refine ⟨event, (hdel.events _ event).2 ⟨hevent, fun hof => ?_⟩⟩
    exact hnot _ event hevent hof ⟨hkey.1.trans hof.1, hkey.2⟩
  · rw [hdel.histories] at hk
    obtain ⟨hold, hne⟩ := lookup_erase_eq_some.1 hk
    obtain ⟨hkey, session, hfound⟩ := h.histories k entries hold entry hentry
    rw [hdel.sessions]
    exact ⟨hkey, session, lookup_erase_eq_some.2 ⟨hfound, hne⟩⟩

end

variable {call : Call}

/-- The event of a reply row after a call that leaves the events. -/
theorem Acts.row_event {v : call.Val} (h : Acts lib now s call v s') (hs : Integrity s) {k : String}
    {row : ReplyOutbox} (hrow : s'.replies.lookup k = some row) :
    ∃ event, s.events.lookup (key [row.tenantID, row.eventID]) = some event := by
  rcases h.row hrow with hold | ⟨value, -, hstores, rfl⟩ |
    ⟨tenantID, replyID, segment, owner, leaseDuration, value, -, -, hclaims, rfl⟩ |
    ⟨t, value, -, -, hmoves, rfl⟩
  · exact hs.replies k row hold
  · obtain ⟨event, hevent, -⟩ := hstores.event
    exact ⟨event, hevent⟩
  · exact hs.replies _ value hclaims.found
  · exact hs.replies _ value hmoves.found

/-- A call keeps the integrity of the store. -/
theorem Acts.integrity {v : call.Val} (h : Acts lib now s call v s')
    (hs : Integrity s) : Integrity s' := by
  have hreplies : ∀ k row, s'.replies.lookup k = some row →
      ∃ event, s.events.lookup (key [row.tenantID, row.eventID]) = some event :=
    fun k row hrow => h.row_event hs hrow
  cases h with
  | created _ _ _ hnew =>
    refine hs.setSession rfl rfl (Int.le_refl 1) fun old hold => ?_
    rw [hnew] at hold
    cases hold
  | updated _ _ _ _ value hfound =>
    obtain ⟨hkey, _⟩ := hs.sessions _ value hfound
    simp only [key_inj, List.cons.injEq, and_true] at hkey
    refine hs.setSession hkey.1.symm hkey.2.symm ?_ fun old hold => ?_
    · change 1 ≤ value.version + 1
      omega
    · rw [hfound] at hold
      cases hold
      change value.version ≤ value.version + 1
      omega
  | deleted _ _ _ hdel => exact hs.deletes hdel
  | found | listed | present => exact hs
  | recorded _ _ hrec hsession => exact hs.recorded hrec hsession
  | moved _ _ hmoves => exact hs.setEvent hmoves
  | appended payload _ _ hsession hentries =>
    refine hs.setHistory hsession fun entry hentry => ?_
    rcases List.mem_append.1 hentry with hold | hnew
    · rw [hentries] at hold
      cases hlist : s.histories.lookup (key [payload.tenantID, payload.sessionID]) with
      | none =>
        rw [hlist] at hold
        cases hold
      | some list =>
        rw [hlist] at hold
        obtain ⟨hkey, -⟩ := hs.histories _ list hlist entry hold
        simp only [key_inj, List.cons.injEq, and_true] at hkey
        exact ⟨hkey.1.symm, hkey.2.symm⟩
    · rw [List.mem_singleton.1 hnew]
      exact ⟨rfl, rfl⟩
  | stored | enqueued | correlated | claimed | transitioned =>
    exact hs.of_replies rfl rfl rfl rfl hreplies

/-- Along every run, the maps of the store refer to each other, the correlations apart. -/
theorem integrity_run (lib : Libraries) (requests : List Request) :
    Integrity ((server lib).after {} requests) := by
  refine Server.history_always (S := server lib) (J := fun _ s => Integrity s) .empty
    (fun _ s request hs => ?_) requests
  rcases server_spec lib request s with ⟨_, heq⟩ | ⟨v, _, heq, hacts⟩
  · rw [heq]
    exact hs
  · rw [heq]
    exact hacts.integrity hs

/-! ## Correlations -/

/-- A store whose maps refer to each other, the correlations included. -/
structure Referential (s : Store) : Prop extends Integrity s where
  /-- A correlation belongs to a stored event of its tenant. -/
  correlations : ∀ k correlation, s.correlations.lookup k = some correlation →
    k = key [correlation.tenantID, correlation.eventID] ∧ ∃ event, s.events.lookup k = some event

/-- A call that deletes no event with a correlation. -/
def Uncorrelated (s : Store) (request : Request) : Prop :=
  ∀ tenantID sessionID, request.call = .deleteSession tenantID sessionID →
    ∀ k correlation event, s.correlations.lookup k = some correlation →
      s.events.lookup k = some event → ¬ Store.OfSession tenantID sessionID event

/-- A correlation after a call was there before, or it belongs to a stored event. -/
theorem Acts.correlation {v : call.Val} (h : Acts lib now s call v s') {k : String}
    {correlation : ReplyCorrelation} (hk : s'.correlations.lookup k = some correlation) :
    s.correlations.lookup k = some correlation ∨
      (s'.events = s.events ∧ k = key [correlation.tenantID, correlation.eventID] ∧
        ∃ event, s.events.lookup k = some event) := by
  cases h with
  | correlated given _ _ hgiven _ henq =>
    have hrequest : given.requestID ≠ "" := fun hempty => hgiven (.inr (.inr hempty))
    simp only [Store.enqueued, ne_eq, hrequest, not_false_eq_true, if_true] at hk
    rcases lookup_insert_eq_some.1 hk with ⟨rfl, rfl⟩ | ⟨-, hold⟩
    · obtain ⟨event, hevent, -⟩ := henq.event
      obtain ⟨htenant, heventID⟩ := henq.names hrequest
      refine .inr ⟨rfl, rfl, event, ?_⟩
      rw [htenant, heventID]
      exact hevent
    · exact .inl hold
  | deleted _ _ _ hdel =>
    rw [hdel.correlations] at hk
    exact .inl hk
  | _ => exact .inl hk

/-- An event that is not deleted by a call is still there after it. -/
theorem Acts.event_kept {v : call.Val} (h : Acts lib now s call v s') {k : String}
    {event : MessageEvent} (hk : s.events.lookup k = some event)
    (hnot : ∀ tenantID sessionID, call = .deleteSession tenantID sessionID →
      ¬ Store.OfSession tenantID sessionID event) :
    ∃ event', s'.events.lookup k = some event' := by
  cases h with
  | deleted tenantID sessionID _ hdel =>
    exact ⟨event, (hdel.events k event).2 ⟨hk, hnot tenantID sessionID rfl⟩⟩
  | recorded input _ hrec =>
    have hne : k ≠ key [input.tenantID, input.eventID] := by
      rintro rfl
      rw [hrec.unused] at hk
      cases hk
    exact ⟨event, (lookup_insert_ne hne).trans hk⟩
  | moved t =>
    by_cases hkey : k = key [t.tenantID, t.eventID]
    · subst hkey
      exact ⟨_, lookup_insert _⟩
    · exact ⟨event, (lookup_insert_ne hkey).trans hk⟩
  | _ => exact ⟨event, hk⟩

/-- A call that deletes no event with a correlation keeps the correlations. -/
theorem Referential.step (h : Referential s) {request : Request}
    (hcall : Uncorrelated s request) : Referential ((server lib).answer request s).2 := by
  rcases server_spec lib request s with ⟨_, heq⟩ | ⟨v, _, heq, hacts⟩
  · rw [heq]
    exact h
  · rw [heq]
    refine ⟨hacts.integrity h.toIntegrity, fun k correlation hk => ?_⟩
    rcases hacts.correlation hk with hold | ⟨hevents, hkey, hevent⟩
    · obtain ⟨hkey, event, hevent⟩ := h.correlations k correlation hold
      exact ⟨hkey, hacts.event_kept hevent fun tenantID sessionID hdelete =>
        hcall tenantID sessionID hdelete k correlation event hold hevent⟩
    · rw [hevents]
      exact ⟨hkey, hevent⟩

/-- In every run in which no event with a correlation is deleted, the maps of the store refer to
each other. -/
theorem referential_of_uncorrelated (lib : Libraries) (requests : List Request)
    (h : ∀ st ∈ (server lib).history {} requests, Uncorrelated st.pre st.call) :
    Referential ((server lib).after {} requests) := by
  refine Server.invariant (S := server lib) Uncorrelated (I := Referential)
    ⟨.empty, fun k correlation hk => ?_⟩ (fun s request hcall hs => hs.step hcall) h
  cases hk

/-- The calls that delete the session of a message whose reply has no correlation. -/
def deletedUncorrelated : List Request := oneSegment ++ [⟨.live, 0, .deleteSession "t" "s"⟩]

/-- The session, its event, and the reply are gone, and the maps refer to each other. -/
theorem referential_deletedUncorrelated :
    Referential ((server plainLibraries).after {} deletedUncorrelated) := by
  have hnone : ∀ st ∈ (server plainLibraries).history {} deletedUncorrelated,
      st.pre.correlations.entries = [] := by decide +kernel
  refine referential_of_uncorrelated plainLibraries deletedUncorrelated
    fun st hst _ _ _ _ _ _ hk => ?_
  rw [lookup, hnone st hst] at hk
  cases hk

/-- The calls that delete the session of a message whose reply has a correlation. -/
def deletedWithCorrelation : List Request :=
  [⟨.live, 0, .createSession "t" "s" none⟩, ⟨.live, 0, .recordMessage oneMessage⟩,
    ⟨.live, 0, .enqueueRepliesWithCorrelation ⟨"t", "e", "q", "", ""⟩ [oneRow]⟩,
    ⟨.live, 0, .deleteSession "t" "s"⟩]

/-- The correlation is still there, and its event is not. -/
theorem deletedWithCorrelation_dangles :
    ¬ Referential ((server plainLibraries).after {} deletedWithCorrelation) := by
  intro h
  have hcorrelation : ((server plainLibraries).after {} deletedWithCorrelation).correlations.lookup
      (key ["t", "e"]) = some ⟨"t", "e", "q", "", ""⟩ := by decide +kernel
  have hevent : ((server plainLibraries).after {} deletedWithCorrelation).events.lookup
      (key ["t", "e"]) = none := by decide +kernel
  obtain ⟨-, event, hfound⟩ := h.correlations _ _ hcorrelation
  rw [hevent] at hfound
  cases hfound

end AgentService.Storage
