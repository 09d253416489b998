import AgentService.Sessions.Rules

/-!
# Whose events a session holds

The store has the history of a session under its tenant and its session ID; the user does not go
into it. So a session that `GetSession` returns holds the events that were appended under any key
with the same session ID, and no others (`returned_appended`). This takes a delegate that keeps
sessions with different keys apart (`Apart`), and is proved over all runs of any number of
instances, with any interleaving of their operations.
-/

namespace AgentService.Sessions

open Concurrent Program List
open Storage (EventPayload)

/-! ## Delegates that keep sessions apart -/

/-- A session service that keeps sessions with different keys apart: it holds under a key only what
was appended under the key, and hands out nothing else. Events are told apart by their IDs. -/
structure Apart (U : Upstream) where
  /-- A delegate holds an event with an ID under a key. -/
  held : U.State → Key → String → Prop
  /-- What `CreateSession` hands out. -/
  created : ∀ {key state ch d v d'},
    U.perform (.createSession key state) ch d = some (.ok v, d') →
      v.key = key ∧ ∀ e ∈ v.events, held d key e.id
  /-- What `GetSession` hands out. -/
  got : ∀ {key limit ch d v d'},
    U.perform (.getSession key limit) ch d = some (.ok (some v), d') →
      v.key = key ∧ ∀ e ∈ v.events, held d key e.id
  /-- What `AppendEvent` makes of the session that it is given. -/
  appended : ∀ {v e limit ch d v' d'},
    U.perform (.appendEvent v e limit) ch d = some (.ok v', d') →
      v'.key = v.key ∧ ∀ e' ∈ v'.events, (∃ old ∈ v.events, old.id = e'.id) ∨ e.id = e'.id
  /-- `AppendEvent` adds its event under the key of the session. -/
  held_append : ∀ {v e limit ch d r d'}, U.perform (.appendEvent v e limit) ch d = some (r, d') →
    ∀ key id, held d' key id → held d key id ∨ (key = v.key ∧ id = e.id)
  /-- The other methods add nothing. -/
  held_other : ∀ {o ch d r d'}, U.perform o ch d = some (r, d') →
    (∀ v e limit, o ≠ .appendEvent v e limit) → ∀ key id, held d' key id → held d key id

variable {U : Upstream}

/-! ## What `GetSession` hands out -/

/-- The history of a session, as it was listed, has an event with an ID. -/
def Listed (log : List (Entry U)) (sessionID id : String) : Prop :=
  ∃ tenantID history pre post,
    (⟨.store (.listEventPayloads tenantID sessionID), .ok history, pre, post⟩ : Entry U) ∈ log ∧
      ∃ item ∈ history, ∃ e, U.unmarshal item.payload = some e ∧ e.id = id

/-- The delegate has handed out an event with an ID under a key. -/
def HandedOut (log : List (Entry U)) (key : Key) (id : String) : Prop :=
  (∃ i limit v pre post,
    (⟨.delegate i (.getSession key limit), .ok (some v), pre, post⟩ : Entry U) ∈ log ∧
      ∃ e ∈ v.events, e.id = id) ∨
  ∃ i state v pre post,
    (⟨.delegate i (.createSession key state), .ok v, pre, post⟩ : Entry U) ∈ log ∧
      ∃ e ∈ v.events, e.id = id

/-- Where an event of a session comes from. -/
def Sourced (log : List (Entry U)) (key : Key) (id : String) : Prop :=
  Listed log key.sessionID id ∨ HandedOut log key id

/-- A longer log has listed more. -/
theorem Listed.mono {log log' : List (Entry U)} (hsub : log ⊆ log') {sessionID id : String}
    (h : Listed log sessionID id) : Listed log' sessionID id := by
  obtain ⟨tenantID, history, pre, post, hmem, hitem⟩ := h
  exact ⟨tenantID, history, pre, post, hsub hmem, hitem⟩

/-- A longer log has more sources. -/
theorem Sourced.mono {log log' : List (Entry U)} (hsub : log ⊆ log') {key : Key} {id : String}
    (h : Sourced log key id) : Sourced log' key id := by
  rcases h with h | ⟨i, limit, v, pre, post, hmem, he⟩ | ⟨i, state, v, pre, post, hmem, he⟩
  · exact .inl (h.mono hsub)
  · exact .inr (.inl ⟨i, limit, v, pre, post, hsub hmem, he⟩)
  · exact .inr (.inr ⟨i, state, v, pre, post, hsub hmem, he⟩)

/-- The discipline of `GetSession`: it appends nothing to the store, and to the delegate only events
of the listed history, under its own key. -/
def GetPre (key : Key) (log : List (Entry U)) : Op → Prop
  | .delegate _ (.appendEvent v e _) => v.key = key ∧ Listed log key.sessionID e.id
  | .store (.appendEventPayload _) => False
  | _ => True

/-- A session of a key all of whose events have a source. -/
def OfKey (key : Key) (log : List (Entry U)) (v : Value) : Prop :=
  v.key = key ∧ ∀ e ∈ v.events, Sourced log key e.id

theorem OfKey.mono {key : Key} {log log' : List (Entry U)} (hsub : log ⊆ log') {v : Value}
    (h : OfKey key log v) : OfKey key log' v :=
  ⟨h.1, fun e he => (h.2 e he).mono hsub⟩

/-- The loop of `restoreHistory`. -/
theorem restoreItems_obeys (A : Apart U) (s : Service) (limit : Option ℕ) (existing : List String)
    {key : Key} {items : List EventPayload} {value : Value} {log : List (Entry U)}
    (hvalue : OfKey key log value)
    (hitems : ∀ item ∈ items, ∀ e, U.unmarshal item.payload = some e →
      Listed log key.sessionID e.id) :
    (s.restoreItems limit existing items value).Obeys (GetPre key)
      (fun log r => ∀ v, r = .ok v → OfKey key log v) log := by
  induction items generalizing value log with
  | nil =>
    rw [Service.restoreItems, pure_eq, obeys_ret]
    rintro v ⟨⟩
    exact hvalue
  | cons item items ih =>
    have hrest : ∀ item' ∈ items, ∀ e, U.unmarshal item'.payload = some e →
        Listed log key.sessionID e.id :=
      fun item' hitem' => hitems item' (mem_cons_of_mem _ hitem')
    rw [Service.restoreItems]
    split_ifs
    · exact ih hvalue hrest
    · cases hdecode : U.unmarshal item.payload with
      | none => exact fun v h => by cases h
      | some historical =>
        have hlisted := hitems item mem_cons_self historical hdecode
        rw [obeys_bind]
        refine ⟨⟨hvalue.1, hlisted⟩, fun pre r post hperf => ?_⟩
        have hsub : log ⊆ log ++ [(⟨.delegate s.instanceID
            (.appendEvent value historical limit), r, pre, post⟩ : Entry U)] :=
          subset_append_left _ _
        cases r with
        | error => exact fun v h => by cases h
        | ok =>
          obtain ⟨_, d, hd, -⟩ := performs_delegate hperf
          obtain ⟨hkey, hevents⟩ := A.appended hd
          refine ih ⟨hkey.trans hvalue.1, fun e he => ?_⟩
            fun item' hitem' e he => (hrest item' hitem' e he).mono hsub
          rcases hevents e he with ⟨old, hold, hid⟩ | hid
          · rw [← hid]
            exact (hvalue.2 old hold).mono hsub
          · rw [← hid]
            exact .inl (hlisted.mono hsub)

/-- `restoreHistory`. -/
theorem restoreHistory_obeys (A : Apart U) (s : Service) {key : Key} (limit : Option ℕ)
    {value : Value} {log : List (Entry U)} (hvalue : OfKey key log value) :
    (s.restoreHistory value key.sessionID limit).Obeys (GetPre key)
      (fun log r => ∀ v, r = .ok v → OfKey key log v) log := by
  unfold Service.restoreHistory
  rw [obeys_bind]
  refine ⟨trivial, fun pre r post _ => ?_⟩
  have hsub : log ⊆ log ++ [(⟨.store (.listEventPayloads s.tenantID key.sessionID), r, pre, post⟩ :
      Entry U)] := subset_append_left _ _
  cases r with
  | error => exact fun v h => absurd h nofun
  | ok history =>
    refine restoreItems_obeys A s limit _ (hvalue.mono hsub) fun item hitem e he => ?_
    exact ⟨_, history, pre, post, mem_append_right _ mem_cons_self, item, hitem, e, he, rfl⟩

/-- The sessions of a call of `GetSession` are sessions of its key. -/
theorem getRule_ofKey (A : Apart U) (s : Service) (key : Key) (limit : Option ℕ) :
    GetRule (U := U) s key limit (GetPre key) (OfKey key) (OfKey key) where
  allowed _ o ho := by
    cases o with
    | store o => cases o <;> first | exact trivial | exact ho.elim
    | delegate i o => cases o <;> first | exact trivial | exact ho.elim
    | setVersion => exact trivial
    | dropVersion => exact ho.elim
  got {log pre post v} hperf := by
    obtain ⟨ch, d, hd, -⟩ := performs_delegate hperf
    refine ⟨(A.got hd).1, fun e he => .inr (.inl ?_)⟩
    exact ⟨_, _, v, pre, post, mem_append_right _ mem_cons_self, e, he, rfl⟩
  created {log state pre post v} hperf := by
    obtain ⟨ch, d, hd, -⟩ := performs_delegate hperf
    refine ⟨(A.created hd).1, fun e he => .inr (.inr ?_)⟩
    exact ⟨_, _, v, pre, post, mem_append_right _ mem_cons_self, e, he, rfl⟩
  kept _ _ h := (h.mono (subset_append_left _ _)).mono (subset_append_left _ _)
  taken_state _ h := h
  unstored _ _ h := h
  restored h := restoreHistory_obeys A s limit h
  done_snoc _ h := h.mono (subset_append_left _ _)
  done_state _ h := h

/-! ## What the other methods append -/

/-- The store has taken an event. -/
def Stored (log : List (Entry U)) : Prop :=
  ∃ payload stored pre post,
    (⟨.store (.appendEventPayload payload), .ok stored, pre, post⟩ : Entry U) ∈ log

/-- The discipline of `AppendEvent`: it appends its event under the key of its session, to the
delegate after the store. -/
def AppendPre (sess : Option Value) (event : Option Event) (log : List (Entry U)) : Op → Prop
  | .delegate _ (.appendEvent v e _) => sess = some v ∧ event = some e ∧ Stored log
  | .store (.appendEventPayload payload) => ∃ v e, sess = some v ∧ event = some e ∧
    payload.sessionID = v.key.sessionID ∧ U.marshal e = some payload.payload
  | _ => True

/-- An operation that appends nothing. -/
def NoAppend : Op → Prop
  | .delegate _ (.appendEvent ..) | .store (.appendEventPayload _) => False
  | _ => True

/-- The discipline of a call. -/
def Call.Pre (call : Call) (log : List (Entry U)) (o : Op) : Prop :=
  match call with
  | .getSession _ key _ => GetPre key log o
  | .appendEvent _ sess event _ => AppendPre sess event log o
  | .createSession .. | .updateSessionState .. | .deleteSession .. => NoAppend o

/-- What a call hands out. -/
def Call.Post (call : Call) (log : List (Entry U)) (r : Result) : Prop :=
  match call with
  | .getSession _ key _ => ∀ v, r = .session (.ok (some v)) → OfKey key log v
  | _ => True

/-- `AppendEvent`. -/
theorem appendEvent_obeys (s : Service) (sess : Option Value) (event : Option Event)
    (limit : Option ℕ) :
    (s.appendEvent sess event limit).Obeys (AppendPre (U := U) sess event) (fun _ _ => True) [] := by
  unfold Service.appendEvent
  cases sess with
  | none => exact trivial
  | some v =>
    cases event with
    | none => exact trivial
    | some e =>
      dsimp only
      split_ifs
      · exact trivial
      · cases hpayload : U.marshal e with
        | none => exact trivial
        | some payload =>
          rw [obeys_bind]
          refine ⟨⟨v, e, rfl, rfl, rfl, hpayload⟩, fun pre r post _ => ?_⟩
          cases r with
          | error => exact trivial
          | ok stored =>
            have hstored : Stored ([] ++ [(⟨.store (.appendEventPayload
                { tenantID := s.tenantID, sessionID := v.key.sessionID, eventID := e.id,
                  payload := payload }), .ok stored, pre, post⟩ : Entry U)]) :=
              ⟨_, stored, pre, post, mem_append_right _ mem_cons_self⟩
            simp only [obeys_ret, obeys_bind]
            refine ⟨⟨rfl, rfl, hstored⟩, fun _ r _ _ => ?_⟩
            cases r <;> exact trivial

/-- The other methods append nothing. -/
theorem Call.Uses.noAppend {call : Call} {o : Op} (h : call.Uses o)
    (hget : ∀ s key limit, call ≠ .getSession s key limit)
    (happend : ∀ s sess event limit, call ≠ .appendEvent s sess event limit) : NoAppend o := by
  cases call with
  | getSession => exact absurd rfl (hget _ _ _)
  | appendEvent => exact absurd rfl (happend _ _ _ _)
  | createSession | updateSessionState | deleteSession =>
    cases o with
    | store o => cases o <;> first | exact trivial | exact h.elim
    | delegate i o => cases o <;> first | exact trivial | exact h.elim
    | setVersion | dropVersion => exact trivial

/-- Every call keeps its discipline. -/
theorem body_obeys (A : Apart U) (call : Call) :
    (call.body (U := U)).Obeys (Call.Pre call) (Call.Post call) [] := by
  cases call with
  | getSession s key limit =>
    refine (getRule_ofKey A s key limit).getSession.bind ?_
    rintro _ r hr v ⟨⟩
    exact hr v rfl
  | appendEvent s sess event limit =>
    exact (appendEvent_obeys s sess event limit).bind fun _ _ _ => trivial
  | createSession =>
    exact (body_uses _).mono (fun _ o ho => ho.noAppend nofun nofun) fun _ _ _ => trivial
  | updateSessionState =>
    exact (body_uses _).mono (fun _ o ho => ho.noAppend nofun nofun) fun _ _ _ => trivial
  | deleteSession =>
    exact (body_uses _).mono (fun _ o ho => ho.noAppend nofun nofun) fun _ _ _ => trivial

/-! ## Where the events of a session come from -/

/-- `AppendEvent` under a key has stored an event with an ID. -/
def AppendedUnder (history : List (RunStep U)) (key : Key) (id : String) : Prop :=
  ∃ st ∈ history, ∃ s v e limit, st.call = Call.appendEvent s (some v) (some e) limit ∧
    v.key = key ∧ e.id = id ∧ Stored [st.entry]

/-- `AppendEvent` under a key with a session ID has stored an event with an ID. -/
def AppendedIn (history : List (RunStep U)) (sessionID id : String) : Prop :=
  ∃ key : Key, key.sessionID = sessionID ∧ AppendedUnder history key id

/-- A longer run has appended more. -/
theorem AppendedIn.snoc {history : List (RunStep U)} {sessionID id : String}
    (h : AppendedIn history sessionID id) (st : RunStep U) :
    AppendedIn (history ++ [st]) sessionID id := by
  obtain ⟨key, hkey, st', hst', happ⟩ := h
  exact ⟨key, hkey, st', mem_append_left _ hst', happ⟩

/-- Every event in the histories, in the delegates, and in what they have handed out was appended
under a key with the session ID. -/
structure Provenance (A : Apart U) (s : State U) (history : List (RunStep U)) : Prop where
  histories : ∀ {tenantID sessionID items item e},
    s.store.histories.lookup (Storage.key [tenantID, sessionID]) = some items → item ∈ items →
    U.unmarshal item.payload = some e → AppendedIn history sessionID e.id
  /-- The delegates. -/
  held : ∀ {i key id}, A.held (s.delegates i) key id → AppendedIn history key.sessionID id
  /-- What was listed and what was handed out. -/
  sourced : ∀ {key id}, Sourced (history.map Step.entry) key id →
    AppendedIn history key.sessionID id

/-- A state in which no event is kept. -/
structure Fresh (A : Apart U) (s : State U) : Prop where
  /-- No history has an entry. -/
  histories : ∀ k items, s.store.histories.lookup k = some items → items = []
  /-- No delegate holds an event. -/
  held : ∀ i key id, ¬ A.held (s.delegates i) key id

section Steps

variable {A : Apart U} {s s' : State U} {history : List (RunStep U)} {t : ℕ} {call : Call}

/-- What `AppendEvent` stores is an event appended under its key. -/
theorem appendedIn_of_stored (hkeeps : KeepsIDs U) {payload stored : EventPayload}
    {log : List (Entry U)} (hpre : Call.Pre call log (.store (.appendEventPayload payload)))
    {e : Event} (he : U.unmarshal payload.payload = some e) :
    AppendedIn (history ++ [⟨t, call, ⟨.store (.appendEventPayload payload), .ok stored, s, s'⟩⟩])
      payload.sessionID e.id := by
  cases call with
  | getSession | createSession | updateSessionState | deleteSession => exact hpre.elim
  | appendEvent svc _ _ limit =>
    obtain ⟨v, e', rfl, rfl, hsession, hmarshal⟩ := hpre
    refine ⟨v.key, hsession.symm, _, mem_append_right _ mem_cons_self, svc, v, e', limit,
      rfl, rfl, (hkeeps e' _ e hmarshal he).symm, ?_⟩
    exact ⟨payload, stored, s, s', mem_cons_self⟩

/-- The histories after a step. -/
theorem Provenance.histories_step (hkeeps : KeepsIDs U) (h : Provenance A s history) {o : Op}
    {log : List (Entry U)} (hpre : Call.Pre call log o) {r : o.Res}
    (hperf : (machine U).Performs o s r s') {tenantID sessionID : String}
    {items : List EventPayload} {item : EventPayload} {e : Event}
    (hlookup : s'.store.histories.lookup (Storage.key [tenantID, sessionID]) = some items)
    (hitem : item ∈ items) (he : U.unmarshal item.payload = some e) :
    AppendedIn (history ++ [⟨t, call, ⟨o, r, s, s'⟩⟩]) sessionID e.id := by
  rcases performs_acts hperf with heq | ⟨_, _, _, ⟨⟩, hacts⟩
  · rw [heq] at hlookup
    exact (h.histories hlookup hitem he).snoc _
  generalize s'.store = store at hlookup hacts
  cases hacts with
  | got | created | updated | present | listed => exact (h.histories hlookup hitem he).snoc _
  | deleted hdeletes =>
    rw [hdeletes.histories, Go.lookup_erase_eq_some] at hlookup
    exact (h.histories hlookup.1 hitem he).snoc _
  | @appended payload _ entries _ hentries =>
    rcases Go.lookup_insert_eq_some.1 hlookup with ⟨hk, rfl⟩ | ⟨-, hold⟩
    · -- the history of the event: the entries before it, and the event
      rw [Storage.key_inj, cons.injEq, cons.injEq] at hk
      obtain ⟨rfl, rfl, -⟩ := hk
      rcases mem_append.1 hitem with hmem | hmem
      · cases hfound : s.store.histories.lookup
            (Storage.key [payload.tenantID, payload.sessionID]) with
        | none =>
          rw [hentries, hfound] at hmem
          exact absurd hmem not_mem_nil
        | some =>
          rw [hentries, hfound] at hmem
          exact (h.histories hfound hmem he).snoc _
      · rw [mem_singleton.1 hmem] at he
        exact appendedIn_of_stored hkeeps hpre he
    · exact (h.histories hold hitem he).snoc _

section

variable (h : Provenance A s history)

include h

section

variable (howner : ∀ st ∈ history, st.tid = t → st.call = call)

include howner

/-- An event that is appended to a delegate was appended under a key with the session ID. -/
theorem Provenance.appended {i : ℕ} {v : Value} {e : Event} {limit : Option ℕ}
    (hpre : Call.Pre call (log history t) (.delegate i (.appendEvent v e limit))) :
    AppendedIn history v.key.sessionID e.id := by
  cases call with
  | createSession | updateSessionState | deleteSession => exact hpre.elim
  | getSession =>
    obtain ⟨rfl, hlisted⟩ := hpre
    exact h.sourced (.inl (hlisted.mono (log_subset history t)))
  | appendEvent svc _ _ limit =>
    obtain ⟨rfl, rfl, payload, stored, pre, post, hmem⟩ := hpre
    obtain ⟨st, hst, htid, hentry⟩ := mem_log.1 hmem
    refine ⟨v.key, rfl, st, hst, svc, v, e, limit, howner st hst htid, rfl, rfl, ?_⟩
    rw [hentry]
    exact ⟨payload, stored, pre, post, mem_cons_self⟩

/-- The delegates after a step. -/
theorem Provenance.held_step {o : Op} (hpre : Call.Pre call (log history t) o) {r : o.Res}
    (hperf : (machine U).Performs o s r s') {i : ℕ} {key : Key} {id : String}
    (hheld : A.held (s'.delegates i) key id) :
    AppendedIn (history ++ [⟨t, call, ⟨o, r, s, s'⟩⟩]) key.sessionID id := by
  refine AppendedIn.snoc ?_ _
  rcases performs_delegates hperf with heq | ⟨i', o, _, _, d, rfl, hd, heq⟩
  · rw [heq] at hheld
    exact h.held hheld
  rw [heq] at hheld
  by_cases hi : i = i'
  · subst hi
    rw [Function.update_self] at hheld
    by_cases happend : ∃ v e limit, o = .appendEvent v e limit
    · obtain ⟨v, e, limit, rfl⟩ := happend
      rcases A.held_append hd key id hheld with hold | ⟨rfl, rfl⟩
      · exact h.held hold
      · exact h.appended howner hpre
    · exact h.held (A.held_other hd (fun v e limit ho => happend ⟨v, e, limit, ho⟩) key id hheld)
  · rw [Function.update_of_ne hi] at hheld
    exact h.held hheld

end

/-- What was listed and handed out after a step. -/
theorem Provenance.sourced_step {o : Op} {r : o.Res}
    (hperf : (machine U).Performs o s r s') {key : Key} {id : String}
    (hsourced : Sourced (List.map Step.entry
      (history ++ [(⟨t, call, ⟨o, r, s, s'⟩⟩ : RunStep U)])) key id) :
    AppendedIn (history ++ [⟨t, call, ⟨o, r, s, s'⟩⟩]) key.sessionID id := by
  refine AppendedIn.snoc ?_ _
  rw [map_append] at hsourced
  rcases hsourced with ⟨tenantID, items, pre, post, hmem, item, hitem, e, he, rfl⟩ |
    ⟨i, limit, v, pre, post, hmem, e, he, rfl⟩ | ⟨i, state, v, pre, post, hmem, e, he, rfl⟩
  · rcases mem_append.1 hmem with hold | hnew
    · exact h.sourced (.inl ⟨tenantID, items, pre, post, hold, item, hitem, e, he, rfl⟩)
    · -- the history was just listed
      cases mem_singleton.1 hnew
      rcases performs_store hperf with ⟨-, _, herr⟩ | ⟨_, v, store, hv, rfl, hacts⟩
      · cases herr
      · cases hv
        cases hacts with
        | listed hlist =>
          rw [Storage.Store.listEventPayloads_eq_ok hlist] at hitem
          cases hfound : s.store.histories.lookup (Storage.key [tenantID, key.sessionID]) with
          | none =>
            rw [hfound] at hitem
            exact absurd hitem not_mem_nil
          | some =>
            rw [hfound] at hitem
            exact h.histories hfound hitem he
  · rcases mem_append.1 hmem with hold | hnew
    · exact h.sourced (.inr (.inl ⟨i, limit, v, pre, post, hold, e, he, rfl⟩))
    · cases mem_singleton.1 hnew
      obtain ⟨ch, d, hd, -⟩ := performs_delegate hperf
      exact h.held ((A.got hd).2 e he)
  · rcases mem_append.1 hmem with hold | hnew
    · exact h.sourced (.inr (.inr ⟨i, state, v, pre, post, hold, e, he, rfl⟩))
    · cases mem_singleton.1 hnew
      obtain ⟨ch, d, hd, -⟩ := performs_delegate hperf
      exact h.held ((A.created hd).2 e he)

end

end Steps

/-- In every run from a state without events, every event was appended under a key with the session
ID. -/
theorem reachable_provenance {A : Apart U} (hkeeps : KeepsIDs U)
    {adm : Run U → Call → Prop} {s0 : State U} (hfresh : Fresh A s0) {c : Run U}
    (hc : Reachable adm (Config.start s0) c) : Provenance A c.state c.history := by
  refine Reachable.invariant (I := Provenance A) ?_ ?_ nofun hc
  · refine ⟨fun hlookup hitem _ => ?_, fun hheld => absurd hheld (hfresh.held _ _ _), ?_⟩
    · rw [hfresh.histories _ _ hlookup] at hitem
      exact absurd hitem not_mem_nil
    · rintro _ _ (⟨_, _, _, _, hmem, _⟩ | ⟨_, _, _, _, _, hmem, _⟩ | ⟨_, _, _, _, _, hmem, _⟩) <;>
        exact absurd hmem not_mem_nil
  · intro c t call o k r _ hc hth hperf h
    have hpre : Call.Pre call (log c.history t) o :=
      ((Reachable.lawful (fun _ call _ => body_obeys A call) hc).threads t _ hth).1
    have howner : ∀ st ∈ c.history, st.tid = t → st.call = call := by
      rintro st hst rfl
      exact hc.call_eq hst hth
    exact ⟨h.histories_step hkeeps hpre hperf, h.held_step howner hpre hperf, h.sourced_step hperf⟩

/-- Every event of a session that `GetSession` returns was appended under a key with the session
ID. -/
theorem returned_appended {A : Apart U} (hkeeps : KeepsIDs U) {adm : Run U → Call → Prop}
    {s0 : State U} (hfresh : Fresh A s0) {c : Run U} (hc : Reachable adm (Config.start s0) c)
    {t : ℕ} {svc : Service} {key : Key} {limit : Option ℕ} {v : Value}
    (hret : c.Returned t (.getSession svc key limit) (.session (.ok (some v)))) :
    ∀ e ∈ v.events, AppendedIn c.history key.sessionID e.id := by
  intro e he
  have hpost := (Reachable.lawful (fun _ call _ => body_obeys A call) hc).returned hret v rfl
  exact (reachable_provenance hkeeps hfresh hc).sourced ((hpost.2 e he).mono (log_subset _ t))

end AgentService.Sessions
