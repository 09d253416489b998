import Mathlib.Data.List.Chain
import AgentService.Sessions.Memory
import AgentService.Sessions.Rules

/-!
# The order of a session's history

`GetSession` takes the events that its delegate holds and appends those of the stored history that
it does not find among them, by their IDs. So the session that it returns is the history exactly as
far as the delegate holds the beginning of it (`InStep`).

Nothing keeps it so. An instance that appends an event while it lacks one that another instance has
stored holds the two in the wrong order from then on (`staleAppend_reorders`). The delegates stay in
step when an instance holds every stored event of the session as a call of `AppendEvent` begins, no
limit cuts off what its delegate holds (`UpToDate`), and the calls for one session of one instance
take turns (`InTurn`). Then every session that `GetSession` returns without a limit is the stored
history, event by event (`history_replayed`), over all runs of any number of instances, with any
interleaving of the operations of different instances.

The proof follows a call through its own operations (`Good`): from one to the next, the other calls
leave its session of the delegate alone, and the history only grows.
-/

namespace AgentService.Sessions

open Concurrent Program List Storage.Store
open Storage (EventPayload)
open Function (update_self update_of_ne)
open Storage (Store key)

/-! ## Delegates that append in order -/

/-- The key that a method of the delegate is called with. -/
def DelegateOp.key : DelegateOp → Key
  | .createSession key _ | .getSession key _ | .updateSessionState key _ | .deleteSession key => key
  | .appendEvent v _ _ => v.key

/-- A session service that appends events in the order of the calls and hands out the last events of
a session. Its methods may fail, and `CreateSession` may start a session anew. -/
structure InOrder (U : Upstream) where
  /-- The events that a delegate holds under a key. -/
  events : U.State → Key → List Event
  /-- `CreateSession` hands out what is held then: nothing, or what was held before. -/
  created : ∀ {key state ch d r d'}, U.perform (.createSession key state) ch d = some (r, d') →
    (events d' key = events d key ∨ events d' key = []) ∧
      ∀ v, r = .ok v → v.key = key ∧ v.events = events d' key
  /-- `GetSession` hands out the last events. -/
  got : ∀ {key limit ch d r d'}, U.perform (.getSession key limit) ch d = some (r, d') →
    events d' key = events d key ∧
      ∀ v, r = .ok (some v) → v.key = key ∧ v.events = lastEvents limit (events d key)
  /-- `UpdateSessionState` leaves the events. -/
  updated : ∀ {key state ch d r d'},
    U.perform (.updateSessionState key state) ch d = some (r, d') → events d' key = events d key
  /-- `AppendEvent` adds its event at the end, of what is held and of what it is given. -/
  appended : ∀ {v e limit ch d r d'}, U.perform (.appendEvent v e limit) ch d = some (r, d') →
    (events d' v.key = events d v.key ∨ events d' v.key = events d v.key ++ [e]) ∧
      ∀ v', r = .ok v' → v'.key = v.key ∧ v'.events = v.events ++ [e] ∧
        events d' v.key = events d v.key ++ [e]
  /-- A method leaves the other sessions. -/
  others : ∀ {o ch d r d' key}, U.perform o ch d = some (r, d') → key ≠ o.key →
    events d' key = events d key

variable {U : Upstream}

/-- The events that an instance holds under a key. -/
def held (D : InOrder U) (spot : ℕ × Key) (s : State U) : List Event :=
  D.events (s.delegates spot.1) spot.2

/-! ## Histories and delegates in step -/

/-- The event of a history entry. -/
def decode (U : Upstream) (item : EventPayload) : Option Event := U.unmarshal item.payload

/-- The stored history of a session. -/
def storedHistory (store : Store) (tenantID sessionID : String) : List EventPayload :=
  (store.histories.lookup (key [tenantID, sessionID])).getD []

/-- A history as the store keeps it: numbered in order, each event once, and under its own ID. -/
structure WellKept (items : List EventPayload) : Prop where
  /-- The numbers increase. -/
  increasing : items.Pairwise fun a b => a.historySeq < b.historySeq
  /-- The numbers go up to the length. -/
  bounded : ∀ item ∈ items, item.historySeq ≤ items.length
  /-- Each event is there once. -/
  distinct : (items.map EventPayload.eventID).Nodup
  /-- The ID of an entry is the one of its event. -/
  decodes : ∀ item ∈ items, ∀ e, decode U item = some e → e.id = item.eventID

/-- Every delegate holds the beginning of the stored history of its sessions. -/
structure InStep (D : InOrder U) (tenantID : String) (s : State U) : Prop where
  /-- The histories are well kept. -/
  kept : ∀ sessionID, WellKept (U := U) (storedHistory s.store tenantID sessionID)
  /-- A session that is not stored has no history. -/
  unstored : ∀ sessionID, s.store.sessions.lookup (key [tenantID, sessionID]) = none →
    storedHistory s.store tenantID sessionID = []
  /-- The delegates hold the beginnings. -/
  beginning : ∀ spot, (held D spot s).map some <+:
    (storedHistory s.store tenantID spot.2.sessionID).map (decode U)

/-- An event that comes next: with it, a delegate still holds the beginning of the history. -/
def Fits (D : InOrder U) (tenantID : String) (spot : ℕ × Key) (s : State U) (e : Event) : Prop :=
  (held D spot s ++ [e]).map some <+:
    (storedHistory s.store tenantID spot.2.sessionID).map (decode U)

/-- The stored histories of a tenant only grow, and no session of it is created. -/
def Grows (tenantID : String) (s s' : State U) : Prop :=
  ∀ sessionID, storedHistory s.store tenantID sessionID <+:
      storedHistory s'.store tenantID sessionID ∧
    (s.store.sessions.lookup (key [tenantID, sessionID]) = none →
      s'.store.sessions.lookup (key [tenantID, sessionID]) = none)

/-- What comes next stays so while the history grows and the delegate stays. -/
theorem Fits.mono {D : InOrder U} {tenantID : String} {spot : ℕ × Key} {s s' : State U} {e : Event}
    (h : Fits D tenantID spot s e) (hheld : held D spot s = held D spot s')
    (hgrows : Grows tenantID s s') : Fits D tenantID spot s' e := by
  unfold Fits at h ⊢
  rw [← hheld]
  exact h.trans ((hgrows spot.2.sessionID).1.map (decode U))

/-! ## The condition -/

/-- The session of an instance that a call works on. -/
def Call.spot : Call → ℕ × Key
  | .createSession s key _ | .getSession s key _ | .updateSessionState s key _
  | .deleteSession s key => (s.instanceID, key)
  | .appendEvent s sess _ _ => (s.instanceID, (sess.map Value.key).getD ⟨"", "", ""⟩)

/-- A call goes on only while no other call has worked on its session of the instance since its last
operation. -/
def InTurn (before : List (RunStep U)) (st : RunStep U) : Prop :=
  log before st.tid = [] ∨ ∀ last ∈ (before.filter fun st' => st'.call.spot = st.call.spot).getLast?,
    last.tid = st.tid

/-- When `AppendEvent` begins, its instance holds as many events as are stored, and the event is
new; and a limit is not below what the delegate holds. -/
def UpToDate (D : InOrder U) (spot : ℕ × Key) (entry : Entry U) : Prop :=
  match entry.op with
  | .store (.appendEventPayload payload) =>
    (held D spot entry.pre).length =
      (storedHistory entry.pre.store payload.tenantID payload.sessionID).length ∧
    ∀ item ∈ storedHistory entry.pre.store payload.tenantID payload.sessionID,
      item.eventID ≠ payload.eventID
  | .delegate _ (.getSession _ (some n)) => (held D spot entry.pre).length ≤ n
  | _ => True

/-- The history after an event was appended to one. -/
theorem storedHistory_setHistory (store : Store) (tenantID sessionID tenantID' sessionID' :
    String) (items : List EventPayload) :
    storedHistory (store.setHistory (key [tenantID', sessionID']) items) tenantID sessionID =
      if tenantID = tenantID' ∧ sessionID = sessionID' then items
      else storedHistory store tenantID sessionID := by
  unfold storedHistory setHistory
  split_ifs with h
  · obtain ⟨rfl, rfl⟩ := h
    rw [AList.lookup_insert, Option.getD_some]
  · rw [AList.lookup_insert_ne]
    rw [Ne, Storage.key_inj]
    simpa using h

/-! ## One call -/

section Calls

variable {D : InOrder U} {tenantID : String} {spot : ℕ × Key} {log log' : List (Entry U)}
  {entry last : Entry U}

/-- The operations of a call so far: each one found histories and delegates in step and met the
condition, and from each to the next the session of the instance stayed and the history grew. -/
structure Good (D : InOrder U) (tenantID : String) (spot : ℕ × Key) (log : List (Entry U)) :
    Prop where
  each : ∀ entry ∈ log, InStep D tenantID entry.pre ∧ UpToDate D spot entry
  linked : log.IsChain fun a b =>
    held D spot a.post = held D spot b.pre ∧ Grows tenantID a.post b.pre

/-- The first operations were good. -/
theorem Good.of_prefix (h : Good D tenantID spot log') (hlog : log <+: log') :
    Good D tenantID spot log := by
  obtain ⟨_, rfl⟩ := hlog
  exact ⟨fun entry hentry => h.each entry (mem_append_left _ hentry), h.linked.left_of_append⟩

/-- One more operation. -/
theorem Good.snoc (h : Good D tenantID spot log)
    (hentry : InStep D tenantID entry.pre ∧ UpToDate D spot entry)
    (hlink : ∀ last ∈ log.getLast?,
      held D spot last.post = held D spot entry.pre ∧ Grows tenantID last.post entry.pre) :
    Good D tenantID spot (log ++ [entry]) := by
  refine ⟨fun e he => ?_, isChain_append.2 ⟨h.linked, .singleton _, ?_⟩⟩
  · rcases mem_append.1 he with he | he
    · exact h.each e he
    · rw [mem_singleton.1 he]
      exact hentry
  · rintro last hlast _ ⟨⟩
    exact hlink last hlast

/-- Nothing has changed between the last two operations. -/
theorem Good.link (h : Good D tenantID spot (log ++ [entry])) (hlast : last ∈ log.getLast?) :
    held D spot last.post = held D spot entry.pre ∧ Grows tenantID last.post entry.pre :=
  (isChain_append.1 h.linked).2.2 last hlast entry rfl

/-- The discipline of the calls: they create and delete no stored session, they work on their own
session of the delegate, what they append to the store is an event under its own ID, and what they
append to the delegate comes next, if all was good. -/
def HistoryPre (D : InOrder U) (tenantID : String) (spot : ℕ × Key) (log : List (Entry U)) :
    Op → Prop
  | .store (.deleteSession ..) | .store (.createSession ..) | .delegate _ (.deleteSession _) => False
  | .store (.appendEventPayload payload) =>
    ∃ e, U.marshal e = some payload.payload ∧ e.id = payload.eventID
  | .delegate i (.appendEvent v e _) => (i, v.key) = spot ∧
    (Good D tenantID spot log → ∃ last ∈ log.getLast?, Fits D tenantID spot last.post e)
  | .delegate i o => (i, o.key) = spot
  | _ => True

/-- What an instance holds after a method of its delegate. -/
theorem performs_held (D : InOrder U) {i : ℕ} {o : DelegateOp} {s s' : State U} {r : o.Res}
    (h : (machine U).Performs (.delegate i o) s r s') :
    ∃ ch d, U.perform o ch (s.delegates i) = some (r, d) ∧ s'.store = s.store ∧
      ∀ key, held D (i, key) s' = D.events d key := by
  obtain ⟨ch, d, hd, rfl⟩ := performs_delegate h
  refine ⟨ch, d, hd, rfl, fun key => ?_⟩
  simp only [held, update_self]

/-- What a call of `GetSession` read of the stored history: what it listed, or nothing when the
store did not have the session. -/
def historyRead (tenantID sessionID : String) : Entry U → Option (List EventPayload)
  | ⟨.store (.listEventPayloads tenantID' sessionID'), .ok items, _, _⟩ =>
    if tenantID' = tenantID ∧ sessionID' = sessionID then some items else none
  | ⟨.store (.getSession tenantID' sessionID'), .error .notFound, _, _⟩ =>
    if tenantID' = tenantID ∧ sessionID' = sessionID then some [] else none
  | _ => none

/-- The events of a session are those of the history that the call read, with their IDs, in
increasing order, each once. -/
def ReplaysHistory (tenantID sessionID : String) (log : List (Entry U)) (v : Value) : Prop :=
  ∃ items ∈ log.filterMap (historyRead tenantID sessionID),
    v.events.map some = items.map (decode U) ∧
    v.events.map Event.id = items.map EventPayload.eventID ∧
    items.Pairwise (fun a b => a.historySeq < b.historySeq) ∧
    (items.map EventPayload.eventID).Nodup

/-- Events have the IDs of the entries that they are decoded from. -/
theorem ids_of_decoded {events : List Event} {items : List EventPayload}
    (h : events.map some = items.map (decode U))
    (hids : ∀ item ∈ items, ∀ e, decode U item = some e → e.id = item.eventID) :
    events.map Event.id = items.map EventPayload.eventID := by
  induction items generalizing events with
  | nil => rw [map_eq_nil_iff.1 h, map_nil, map_nil]
  | cons item items ih =>
    cases events with
    | nil => cases h
    | cons e events =>
      obtain ⟨he, hrest⟩ := cons_eq_cons.1 h
      rw [map_cons, map_cons, hids item mem_cons_self e he.symm,
        ih hrest fun item' hitem' => hids item' (mem_cons_of_mem _ hitem')]

/-- The beginning of a history and the entries that it lacks are the history. -/
theorem WellKept.append_missing {events : List Event} {items : List EventPayload}
    (h : WellKept (U := U) items) (hevents : events.map some <+: items.map (decode U)) :
    events.map some ++ (items.filter fun item => item.eventID ∉ events.map Event.id).map (decode U) =
      items.map (decode U) := by
  obtain ⟨_, hrest⟩ := hevents
  obtain ⟨first, second, rfl, hfirst, -⟩ := map_eq_append_iff.1 hrest.symm
  have hids := ids_of_decoded hfirst.symm fun item hitem =>
    h.decodes item (mem_append_left _ hitem)
  have hdistinct := h.distinct
  rw [map_append, nodup_append] at hdistinct
  have hnone : first.filter (fun item => item.eventID ∉ events.map Event.id) = [] :=
    filter_eq_nil_iff.2 fun item hitem => by
      rw [hids]
      simpa using ⟨item, hitem, rfl⟩
  have hall : second.filter (fun item => item.eventID ∉ events.map Event.id) = second :=
    filter_eq_self.2 fun item hitem => by
      rw [hids]
      exact decide_eq_true fun hmem => hdistinct.2.2 _ hmem _ (mem_map_of_mem hitem) rfl
  rw [filter_append, hnone, hall, nil_append, ← hfirst, map_append]

section Get

variable {s : Service} {key : Key} {limit : Option ℕ} {v value : Value}

/-- The delegate has handed out all that it holds of a session. -/
def Taken (D : InOrder U) (s : Service) (key : Key) (log : List (Entry U)) (v : Value) : Prop :=
  v.key = key ∧ (Good D s.tenantID (s.instanceID, key) log →
    ∃ last ∈ log.getLast?, held D (s.instanceID, key) last.post = v.events)

/-- A limit that is met cuts off nothing. -/
theorem UpToDate.lastEvents {i : ℕ} {r : Except Err (Option Value)} {pre post : State U}
    (h : UpToDate D (i, key) ⟨.delegate i (.getSession key limit), r, pre, post⟩) :
    lastEvents limit (held D (i, key) pre) = held D (i, key) pre := by
  cases limit with
  | none => rfl
  | some n =>
    have hle : (held D (i, key) pre).length ≤ n := h
    rw [Sessions.lastEvents, Nat.sub_eq_zero_of_le hle, drop_zero]

/-- The loop of `restoreHistory`: as long as all is good, the session is what the instance holds,
and with the missing events it is the history. -/
theorem restoreItems_replays (existing : List String) (all : List EventPayload)
    {items : List EventPayload} (hkey : value.key = key)
    (h : Good D s.tenantID (s.instanceID, key) log → ∃ last ∈ log.getLast?,
      held D (s.instanceID, key) last.post = value.events ∧
      all <+: storedHistory last.post.store s.tenantID key.sessionID ∧
      value.events.map some ++ (items.filter fun item => item.eventID ∉ existing).map (decode U) =
        all.map (decode U)) :
    (s.restoreItems limit existing items value).Obeys
      (HistoryPre D s.tenantID (s.instanceID, key)) (fun log r => ∀ v, r = .ok v →
        Good D s.tenantID (s.instanceID, key) log → v.events.map some = all.map (decode U)) log := by
  induction items generalizing value log with
  | nil =>
    rw [Service.restoreItems, pure_eq, obeys_ret]
    rintro v ⟨⟩ hgood
    obtain ⟨_, -, -, -, hall⟩ := h hgood
    rwa [filter_nil, map_nil, append_nil] at hall
  | cons item items ih =>
    rw [Service.restoreItems]
    split_ifs with hmem
    · rw [filter_cons_of_neg (by simpa using hmem)] at h
      exact ih hkey h
    · rw [filter_cons_of_pos (by simpa using hmem)] at h
      cases hdecode : U.unmarshal item.payload with
      | none => exact fun v h => by cases h
      | some e =>
        have hitem : decode U item = some e := hdecode
        rw [map_cons, hitem] at h
        rw [obeys_bind]
        refine ⟨⟨by rw [hkey], fun hgood => ?_⟩, fun pre r post hperf => ?_⟩
        · obtain ⟨last, hlast, hheld, hstored, hall⟩ := h hgood
          refine ⟨last, hlast, ?_⟩
          unfold Fits
          rw [hheld, map_append]
          refine IsPrefix.trans ?_ (hstored.map (decode U))
          rw [← hall]
          exact (prefix_append_right_inj _).2 ⟨_, rfl⟩
        · cases r with
          | error => exact fun v h => by cases h
          | ok value' =>
            obtain ⟨_, d, hd, hstore, hpost⟩ := performs_held D hperf
            obtain ⟨hkey', hevents, hd'⟩ := (D.appended hd).2 value' rfl
            refine ih (hkey'.trans hkey) fun hgood => ⟨_, getLast?_concat, ?_⟩
            obtain ⟨last, hlast, hheld, hstored, hall⟩ := h (hgood.of_prefix (prefix_append _ _))
            obtain ⟨hlink, hgrows⟩ := hgood.link hlast
            have hpre : D.events (pre.delegates s.instanceID) key = value.events :=
              hlink.symm.trans hheld
            refine ⟨?_, ?_, ?_⟩
            · rw [hpost, ← hkey, hd', hkey, hpre, hevents]
            · dsimp only
              rw [hstore]
              exact hstored.trans (hgrows key.sessionID).1
            · rw [hevents, map_append, append_assoc]
              exact hall

/-- `restoreHistory`: the session after it is the history that was listed. -/
theorem restoreHistory_replays (hvalue : Taken D s key log value) :
    (s.restoreHistory value key.sessionID limit).Obeys (HistoryPre D s.tenantID (s.instanceID, key))
      (fun log r => ∀ v, r = .ok v → Good D s.tenantID (s.instanceID, key) log →
        ReplaysHistory s.tenantID key.sessionID log v) log := by
  unfold Service.restoreHistory
  rw [obeys_bind]
  refine ⟨trivial, fun pre r post hperf => ?_⟩
  cases r with
  | error => exact fun v h => absurd h nofun
  | ok items =>
    -- what was listed is the stored history, and the listing changes nothing
    obtain ⟨rfl, rfl⟩ : post = pre ∧ items = storedHistory pre.store s.tenantID key.sessionID := by
      rcases performs_store hperf with ⟨-, _, herr⟩ | ⟨_, listed, store, hlisted, rfl, hacts⟩
      · cases herr
      · cases hlisted
        cases hacts with
        | listed hlist => exact ⟨rfl, listEventPayloads_eq_ok hlist⟩
    refine ((restoreItems_replays _ (storedHistory post.store s.tenantID key.sessionID) hvalue.1
      fun hgood => ⟨_, getLast?_concat, ?_⟩).and (obeys_extends _ (prefix_refl _))).mono
        (fun _ _ h => h.1) ?_
    · obtain ⟨last, hlast, hheld⟩ := hvalue.2 (hgood.of_prefix (prefix_append _ _))
      have hpost := (hgood.link hlast).1.symm.trans hheld
      have hstep := (hgood.each _ mem_concat_self).1
      have hbeginning := hstep.beginning (s.instanceID, key)
      dsimp only at hpost hbeginning
      rw [hpost] at hbeginning
      exact ⟨hpost, prefix_refl _, (hstep.kept key.sessionID).append_missing hbeginning⟩
    · rintro log' r ⟨hr, hlog⟩ v hv hgood
      have hkept := ((hgood.of_prefix hlog).each _ mem_concat_self).1.kept key.sessionID
      have hevents := hr v hv hgood
      exact ⟨_, mem_filterMap.2 ⟨_, hlog.subset mem_concat_self, if_pos ⟨rfl, rfl⟩⟩, hevents,
        ids_of_decoded hevents hkept.decodes, hkept.increasing, hkept.distinct⟩

/-- The sessions of a call of `GetSession`. -/
theorem getRule_replays (D : InOrder U) (s : Service) (key : Key) (limit : Option ℕ) :
    GetRule s key limit (HistoryPre D s.tenantID (s.instanceID, key)) (Taken D s key)
      (fun log v => Good D s.tenantID (s.instanceID, key) log →
        ReplaysHistory s.tenantID key.sessionID log v) where
  allowed _ o ho := by
    cases o with
    | store o => cases o <;> first | exact trivial | exact ho.elim
    | delegate i o => cases o <;> first | exact ho | exact ho.elim
    | setVersion => exact trivial
    | dropVersion => exact ho.elim
  got hperf := by
    obtain ⟨_, d, hd, -, hpost⟩ := performs_held D hperf
    obtain ⟨hsame, hv⟩ := D.got hd
    obtain ⟨hkey, hevents⟩ := hv _ rfl
    refine ⟨hkey, fun hgood => ⟨_, getLast?_concat, ?_⟩⟩
    rw [hpost, hsame, hevents]
    exact (hgood.each _ mem_concat_self).2.lastEvents.symm
  created hperf := by
    obtain ⟨_, d, hd, -, hpost⟩ := performs_held D hperf
    obtain ⟨hkey, hevents⟩ := (D.created hd).2 _ rfl
    exact ⟨hkey, fun _ => ⟨_, getLast?_concat, (hpost key).trans hevents.symm⟩⟩
  kept hupdate hget h := by
    obtain ⟨_, _, hd, -, hpost⟩ := performs_held D hupdate
    obtain ⟨_, _, hd', -, hpost'⟩ := performs_held D hget
    refine ⟨h.1, fun hgood => ⟨_, getLast?_concat, ?_⟩⟩
    have hgood' := hgood.of_prefix (prefix_append _ _)
    obtain ⟨last, hlast, hheld⟩ := h.2 (hgood'.of_prefix (prefix_append _ _))
    calc _ = held D (s.instanceID, key) _ := (hpost' key).trans (D.got hd').1
      _ = _ := (hgood.link getLast?_concat).1.symm
      _ = held D (s.instanceID, key) _ := (hpost key).trans (D.updated hd)
      _ = _ := (hgood'.link hlast).1.symm.trans hheld
  taken_state _ h := h
  unstored hmissing hget h hgood := by
    obtain ⟨_, d, hd, -, hpost⟩ := performs_held D hget
    obtain ⟨last, hlast, hheld⟩ := h.2 hgood
    cases hlast
    have hnone := lookup_of_notFound hmissing
    rcases performs_store hmissing with ⟨rfl, -⟩ | ⟨_, _, _, hok, -⟩
    · have hstep := (hgood.each _ mem_concat_self).1
      have hnil := hstep.unstored key.sessionID
        (((isChain_pair.1 hgood.linked).2 key.sessionID).2 hnone)
      have hprefix := hstep.beginning (s.instanceID, key)
      rw [hnil, map_nil, prefix_nil, map_eq_nil_iff] at hprefix
      have hevents := hheld.symm.trans (((hpost key).trans (D.got hd).1).trans hprefix)
      exact ⟨[], mem_filterMap.2 ⟨_, mem_cons_self, if_pos ⟨rfl, rfl⟩⟩, by rw [hevents]; rfl,
        by rw [hevents]; rfl, .nil, nodup_nil⟩
    · cases hok
  restored h := restoreHistory_replays h
  done_snoc _ h hgood := by
    obtain ⟨items, hitems, hreplays⟩ := h (hgood.of_prefix (prefix_append _ _))
    exact ⟨items, by rw [filterMap_append]; exact mem_append_left _ hitems, hreplays⟩
  done_state _ h := h

end Get

/-- An event that the store has taken from an instance that was up to date comes next. -/
theorem fits_of_stored (hround : RoundTrips U) {payload stored : EventPayload} {pre post : State U}
    (hperf : (machine U).Performs (.store (.appendEventPayload payload)) pre (.ok stored) post)
    {e : Event} (hmarshal : U.marshal e = some payload.payload)
    (hsession : payload.sessionID = spot.2.sessionID) (hstep : InStep D payload.tenantID pre)
    (hdate : UpToDate D spot ⟨.store (.appendEventPayload payload), .ok stored, pre, post⟩) :
    Fits D payload.tenantID spot post e := by
  obtain ⟨hlength, hnew⟩ := hdate
  rcases performs_store hperf with ⟨-, _, herr⟩ | ⟨_, _, _, -, rfl, hacts⟩
  · cases herr
  cases hacts with
  | present hmem hid => exact absurd hid (hnew _ hmem)
  | appended _ hentries _ =>
    have hall := (hstep.beginning spot).eq_of_length (by
      rw [length_map, length_map, hlength, hsession])
    rw [Fits, ← hsession, storedHistory_setHistory, if_pos ⟨rfl, rfl⟩, map_append, map_append,
      hentries]
    rw [← hsession] at hall
    refine ⟨[], ?_⟩
    rw [append_nil]
    exact congrArg₂ _ hall (congrArg (fun e => [e]) (hround e _ hmarshal).symm)

/-- `AppendEvent`. -/
theorem appendEvent_fits (hround : RoundTrips U) (s : Service) (sess : Option Value)
    (event : Option Event) (limit : Option ℕ) : (s.appendEvent sess event limit).Obeys
      (HistoryPre D s.tenantID (Call.appendEvent s sess event limit).spot) (fun _ _ => True) [] := by
  unfold Service.appendEvent
  cases sess with
  | none => exact trivial
  | some =>
    cases event with
    | none => exact trivial
    | some e =>
      dsimp only
      split_ifs
      · exact trivial
      · cases hpayload : U.marshal e with
        | none => exact trivial
        | some =>
          simp only [obeys_bind]
          refine ⟨⟨e, hpayload, rfl⟩, fun _ r _ hperf => ?_⟩
          cases r with
          | error => exact trivial
          | ok =>
            simp only [obeys_ret, obeys_bind]
            refine ⟨⟨rfl, fun hgood => ⟨_, rfl, ?_⟩⟩, fun _ r _ _ => by cases r <;> exact trivial⟩
            obtain ⟨hstep, hdate⟩ := hgood.each _ mem_cons_self
            exact fits_of_stored hround hperf hpayload rfl hstep hdate

/-! ## The calls of one tenant -/

/-- The calls of `AppendEvent` and `GetSession` of the instances of a tenant. -/
def HistoryCalls (tenantID : String) (_ : Run U) : Call → Prop
  | .getSession s .. | .appendEvent s .. => s.tenantID = tenantID
  | .createSession .. | .updateSessionState .. | .deleteSession .. => False

/-- What a call returns. -/
def Call.Replays (D : InOrder U) (tenantID : String) (call : Call) (log : List (Entry U))
    (r : Result) : Prop :=
  match call with
  | .getSession _ key _ => ∀ v, r = .session (.ok (some v)) → Good D tenantID call.spot log →
    ReplaysHistory tenantID key.sessionID log v
  | _ => True

/-- Every call keeps the discipline. -/
theorem body_historyPre (D : InOrder U) (hround : RoundTrips U) {c : Run U} {call : Call}
    (hadm : HistoryCalls tenantID c call) : (call.body (U := U)).Obeys
      (HistoryPre D tenantID call.spot) (call.Replays D tenantID) [] := by
  cases call with
  | getSession s key limit =>
    obtain rfl : s.tenantID = tenantID := hadm
    refine (getRule_replays D s key limit).getSession.bind ?_
    rintro _ r hr v ⟨⟩
    exact hr v rfl
  | appendEvent s sess event limit =>
    obtain rfl : s.tenantID = tenantID := hadm
    exact (appendEvent_fits hround s sess event limit).bind fun _ _ _ => trivial
  | createSession | updateSessionState | deleteSession => exact hadm.elim

end Calls

/-- A new entry keeps a history well kept. -/
theorem WellKept.append (hround : RoundTrips U) {items : List EventPayload}
    (h : WellKept (U := U) items) {payload : EventPayload} {now : ℤ} {e : Event}
    (hmarshal : U.marshal e = some payload.payload) (hid : e.id = payload.eventID)
    (hfresh : ∀ existing ∈ items, existing.eventID ≠ payload.eventID) :
    WellKept (U := U) (items ++ [Store.appended now items payload]) := by
  refine ⟨?_, ?_, ?_, ?_⟩
  · refine pairwise_append.2 ⟨h.increasing, pairwise_singleton _ _, ?_⟩
    intro a ha b hb
    rw [mem_singleton.1 hb]
    have hbound := h.bounded a ha
    simp only [appended]
    omega
  · intro item hitem
    rw [length_append, length_singleton]
    rcases mem_append.1 hitem with hold | hnew
    · have hbound := h.bounded item hold
      omega
    · rw [mem_singleton.1 hnew]
      simp [appended]
  · rw [map_append, nodup_append]
    refine ⟨h.distinct, nodup_singleton _, ?_⟩
    intro a ha b hb
    obtain ⟨existing, hexisting, rfl⟩ := mem_map.1 ha
    rw [mem_singleton.1 hb]
    exact hfresh existing hexisting
  · intro item hitem e' he'
    rcases mem_append.1 hitem with hold | hnew
    · exact h.decodes item hold e' he'
    · rw [mem_singleton.1 hnew] at he' ⊢
      obtain rfl : e = e' := Option.some.inj ((hround e _ hmarshal).symm.trans he')
      exact hid

/-! ## One step -/

section Steps

variable {D : InOrder U} {tenantID : String} {spot : ℕ × Key} {log : List (Entry U)}
  {s s' : State U} {o : Op} {r : o.Res} (hpre : HistoryPre D tenantID spot log o)
  (hperf : (machine U).Performs o s r s')

include hpre hperf

/-- The calls create and delete no stored session. -/
theorem performs_sessions (k : String) :
    s'.store.sessions.lookup k = none ↔ s.store.sessions.lookup k = none := by
  rcases performs_acts hperf with heq | ⟨_, _, _, ⟨⟩, hacts⟩
  · rw [heq]
  generalize s'.store = store at hacts ⊢
  cases hacts with
  | got | present | appended | listed => exact Iff.rfl
  | created | deleted => exact hpre.elim
  | @updated tenantID sessionID _ _ _ hfound =>
    by_cases hk : k = key [tenantID, sessionID]
    · subst hk
      simp [setSession, hfound]
    · simp only [setSession, AList.lookup_insert_ne hk]

/-- A step leaves the history of a session or appends an event with a new ID to it. -/
theorem performs_history (sessionID : String) :
    storedHistory s'.store tenantID sessionID = storedHistory s.store tenantID sessionID ∨
    ∃ now payload e, s.store.sessions.lookup (key [tenantID, sessionID]) ≠ none ∧
      U.marshal e = some payload.payload ∧ e.id = payload.eventID ∧
      (∀ existing ∈ storedHistory s.store tenantID sessionID, existing.eventID ≠ payload.eventID) ∧
      storedHistory s'.store tenantID sessionID = storedHistory s.store tenantID sessionID ++
        [Store.appended now (storedHistory s.store tenantID sessionID) payload] := by
  rcases performs_acts hperf with heq | ⟨_, now, _, ⟨⟩, hacts⟩
  · rw [heq]
    exact .inl rfl
  generalize s'.store = store at hacts ⊢
  cases hacts with
  | got | updated | present | listed => exact .inl rfl
  | created | deleted => exact hpre.elim
  | @appended payload _ _ hsession hentries hfresh =>
    obtain ⟨e, hmarshal, hid⟩ := hpre
    rw [storedHistory_setHistory]
    split_ifs with h
    · obtain ⟨rfl, rfl⟩ := h
      subst hentries
      refine .inr ⟨now, payload, e, ?_, hmarshal, hid, hfresh, rfl⟩
      rw [hsession]
      exact Option.some_ne_none _
    · exact .inl rfl

/-- The histories only grow. -/
theorem performs_grows : Grows tenantID s s' := by
  refine fun sessionID => ⟨?_, (performs_sessions hpre hperf _).2⟩
  rcases performs_history hpre hperf sessionID with heq | ⟨_, _, _, -, -, -, -, heq⟩
  · exact ⟨[], (append_nil _).trans heq.symm⟩
  · rw [heq]
    exact prefix_append _ _

/-- A step changes what is held in its own session only: it leaves it, starts it anew, or adds the
event that it was given. -/
theorem performs_events : (∀ spot', spot' ≠ spot → held D spot' s' = held D spot' s) ∧
    (held D spot s' = held D spot s ∨ held D spot s' = [] ∨ ∃ i v e limit,
      o = .delegate i (.appendEvent v e limit) ∧ held D spot s' = held D spot s ++ [e]) := by
  unfold held
  rcases performs_delegates hperf with heq | ⟨i, o, _, _, d, rfl, hd, heq⟩
  · rw [heq]
    exact ⟨fun _ _ => rfl, .inl rfl⟩
  have hspot : (i, o.key) = spot := by
    cases o <;> first | exact hpre | exact hpre.1 | exact hpre.elim
  subst hspot
  rw [heq]
  refine ⟨fun spot' hne => ?_, ?_⟩
  · obtain ⟨i', key⟩ := spot'
    by_cases hi : i' = i
    · subst hi
      rw [update_self]
      exact D.others hd fun hkey => hne (congrArg (Prod.mk i') hkey)
    · rw [update_of_ne hi]
  · rw [update_self]
    cases o with
    | createSession => exact (D.created hd).1.imp_right .inl
    | getSession => exact .inl (D.got hd).1
    | updateSessionState => exact .inl (D.updated hd)
    | appendEvent v e limit =>
      exact (D.appended hd).1.imp_right fun h => .inr ⟨i, v, e, limit, rfl, h⟩
    | deleteSession => exact hpre.elim

/-- A step that gives a delegate nothing but the next event keeps histories and delegates in step.
-/
theorem InStep.step (h : InStep D tenantID s) (hround : RoundTrips U)
    (hfits : ∀ i v e limit, o = .delegate i (.appendEvent v e limit) → Fits D tenantID spot s e) :
    InStep D tenantID s' := by
  refine ⟨fun sessionID => ?_, fun sessionID hnone => ?_, fun spot' => ?_⟩
  · rcases performs_history hpre hperf sessionID with
      heq | ⟨_, _, _, -, hmarshal, hid, hfresh, heq⟩
    · rw [heq]
      exact h.kept sessionID
    · rw [heq]
      exact (h.kept sessionID).append hround hmarshal hid hfresh
  · rw [performs_sessions hpre hperf] at hnone
    rcases performs_history hpre hperf sessionID with heq | ⟨_, _, _, hsome, -⟩
    · rw [heq]
      exact h.unstored sessionID hnone
    · exact absurd hnone hsome
  · have hmap := (performs_grows hpre hperf spot'.2.sessionID).1.map (decode U)
    obtain ⟨hothers, hown⟩ := performs_events hpre hperf
    by_cases hspot : spot' = spot
    · subst hspot
      rcases hown with heq | heq | ⟨i, v, e, limit, ho, heq⟩
      · rw [heq]
        exact (h.beginning spot').trans hmap
      · rw [heq]
        exact nil_prefix
      · rw [heq]
        exact IsPrefix.trans (hfits i v e limit ho) hmap
    · rw [hothers spot' hspot]
      exact (h.beginning spot').trans hmap

end Steps

/-! ## Runs -/

section Runs

variable {D : InOrder U} {tenantID : String} {s₀ : State U} {c : Run U}

/-- The histories only grow after each operation. -/
theorem reachable_grows (D : InOrder U) (hround : RoundTrips U)
    (hc : Reachable (HistoryCalls tenantID) (Config.start s₀) c) :
    ∀ st ∈ c.history, Grows tenantID st.entry.post c.state := by
  obtain ⟨-, hmem, -⟩ := hc.ordered_of (R := Grows tenantID)
    (fun s sessionID => ⟨prefix_refl _, id⟩)
    (fun a b c hab hbc sessionID => ⟨(hab sessionID).1.trans (hbc sessionID).1,
      fun h => (hbc sessionID).2 ((hab sessionID).2 h)⟩)
    (fun c t _ o k r _ hc hth hperf => performs_grows
      ((Reachable.lawful (fun _ _ => body_historyPre D hround) hc).threads t _ hth).1 hperf)
    nofun
  exact fun st hst => (hmem st hst).2.2

/-- The last operation of a call that is in turn is the last one on its session. -/
theorem InTurn.last_eq {t : ℕ} {call : Call} {entry last : Entry U} {history : List (RunStep U)}
    (h : InTurn history ⟨t, call, entry⟩) (hcalls : ∀ st ∈ history, st.tid = t → st.call = call)
    (hlast : last ∈ (log history t).getLast?) :
    ∃ st ∈ (history.filter fun st => st.call.spot = call.spot).getLast?, st.entry = last := by
  have hlog : log history t = ((history.filter fun st => st.call.spot = call.spot).filter
      fun st => st.tid = t).map Step.entry := by
    rw [log, filter_filter]
    refine congrArg _ (filter_congr fun st hst => ?_)
    by_cases htid : st.tid = t
    · simp [htid, hcalls st hst htid]
    · simp [htid]
  rcases h with hnil | hlastAt
  · rw [show log history t = [] from hnil] at hlast
    cases hlast
  rcases eq_nil_or_concat (history.filter fun st => st.call.spot = call.spot) with
    hnil | ⟨rest, st, hrest⟩
  · rw [hlog, hnil] at hlast
    cases hlast
  · rw [concat_eq_append] at hrest
    have hst : st ∈ (history.filter fun st => st.call.spot = call.spot).getLast? := by
      rw [hrest]
      exact getLast?_concat
    have htid : st.tid = t := hlastAt st hst
    rw [hlog, hrest, filter_append, filter_cons_of_pos (by simpa using htid), filter_nil,
      map_append, map_singleton, getLast?_concat] at hlast
    exact ⟨st, hst, Option.some.inj hlast⟩

/-- What holds along a run whose calls take turns and are up to date. -/
structure Orderly (D : InOrder U) (tenantID : String) (s : State U) (history : List (RunStep U)) :
    Prop where
  /-- Histories and delegates are in step. -/
  inStep : InStep D tenantID s
  /-- Every call goes well. -/
  good : ∀ st ∈ history, Good D tenantID st.call.spot (log history st.tid)
  /-- What is held in a session is what the last operation on it has left. -/
  last : ∀ spot, ∀ st ∈ (history.filter fun st => st.call.spot = spot).getLast?,
    held D spot s = held D spot st.entry.post

/-- A call has gone well, whether it has begun or not. -/
theorem Orderly.log_good {s : State U} {history : List (RunStep U)}
    (h : Orderly D tenantID s history) {t : ℕ} {call : Call}
    (hcalls : ∀ st ∈ history, st.tid = t → st.call = call) :
    Good D tenantID call.spot (log history t) := by
  by_cases hsome : ∃ st ∈ history, st.tid = t
  · obtain ⟨st, hst, rfl⟩ := hsome
    have hgood := h.good st hst
    rwa [hcalls st hst rfl] at hgood
  · have hnil : log history t = [] := eq_nil_iff_forall_not_mem.2 fun e he => by
      obtain ⟨st, hst, htid, -⟩ := mem_log.1 he
      exact hsome ⟨st, hst, htid⟩
    rw [hnil]
    exact ⟨fun _ h => (by cases h), .nil⟩

/-- A run whose calls take turns and are up to date is orderly. -/
theorem reachable_orderly (hround : RoundTrips U) (hstart : InStep D tenantID s₀)
    (hc : Reachable (HistoryCalls tenantID) (Config.start s₀) c)
    (hturn : Throughout InTurn c.history)
    (hdate : ∀ st ∈ c.history, UpToDate D st.call.spot st.entry) :
    Orderly D tenantID c.state c.history := by
  refine Reachable.invariant (I := fun s history => Throughout InTurn history →
    (∀ st ∈ history, UpToDate D st.call.spot st.entry) → Orderly D tenantID s history)
    (fun _ _ => ⟨hstart, fun _ h => (by cases h), fun _ _ h => (by cases h)⟩) ?_ nofun hc hturn hdate
  intro c t call o k r s' hc hth hperf ih hturn hdate
  obtain ⟨hturn, hnew⟩ := throughout_snoc.1 hturn
  have h := ih hturn fun st hst => hdate st (mem_append_left _ hst)
  have hpre := ((Reachable.lawful (fun _ _ => body_historyPre D hround) hc).threads t _
    hth).1
  have hcalls : ∀ st ∈ c.history, st.tid = t → st.call = call := by
    rintro st hst rfl
    exact hc.call_eq hst hth
  -- the call has gone well so far, and no other call has come in between
  have hmine := h.log_good hcalls
  have hlink : ∀ last ∈ (log c.history t).getLast?,
      held D call.spot last.post = held D call.spot c.state ∧ Grows tenantID last.post c.state := by
    intro last hlast
    obtain ⟨st, hst, rfl⟩ := hnew.last_eq hcalls hlast
    exact ⟨(h.last _ st hst).symm, reachable_grows D hround hc st
      (mem_of_mem_filter (mem_of_getLast? hst))⟩
  refine ⟨h.inStep.step hpre hperf hround ?_, fun st hst => ?_, fun spot st hst => ?_⟩
  · rintro i v e limit rfl
    obtain ⟨last, hlast, hfits⟩ := hpre.2 hmine
    exact hfits.mono (hlink last hlast).1 (hlink last hlast).2
  · by_cases htid : st.tid = t
    · have hcall : st.call = call := by
        rcases mem_append.1 hst with hst | hst
        · exact hcalls st hst htid
        · rw [mem_singleton.1 hst]
      rw [htid, hcall, log_snoc_self c.history ⟨t, call, _⟩]
      exact hmine.snoc ⟨h.inStep, hdate _ mem_concat_self⟩ hlink
    · rcases mem_append.1 hst with hst | hst
      · rw [log_snoc_ne _ _ fun heq => htid heq.symm]
        exact h.good st hst
      · exact absurd (congrArg Step.tid (mem_singleton.1 hst)) htid
  · rw [filter_append] at hst
    by_cases hspot : call.spot = spot
    · rw [filter_cons_of_pos (by simpa using hspot), filter_nil, getLast?_concat] at hst
      cases hst
      rfl
    · rw [filter_cons_of_neg (by simpa using hspot), filter_nil, append_nil] at hst
      rw [(performs_events hpre hperf).1 spot fun heq => hspot heq.symm]
      exact h.last spot st hst

/-- In a run whose calls take turns and are up to date, the session that `GetSession` returns
without a limit has exactly the events of the stored history, in increasing order, each once. -/
theorem history_replayed (hround : RoundTrips U) (hstart : InStep D tenantID s₀)
    (hc : Reachable (HistoryCalls tenantID) (Config.start s₀) c)
    (hturn : Throughout InTurn c.history)
    (hdate : ∀ st ∈ c.history, UpToDate D st.call.spot st.entry) {t : ℕ} {s : Service} {key : Key}
    {v : Value} (hret : c.Returned t (.getSession s key none) (.session (.ok (some v)))) :
    ReplaysHistory tenantID key.sessionID (log c.history t) v := by
  refine (Reachable.lawful (fun _ _ => body_historyPre D hround) hc).returned hret v rfl ?_
  refine (reachable_orderly hround hstart hc hturn hdate).log_good ?_
  rintro st hst rfl
  exact hc.call_eq hst hret

end Runs

/-! ## Two instances -/

instance (before : List (RunStep U)) (st : RunStep U) : Decidable (InTurn before st) :=
  inferInstanceAs (Decidable (_ ∨ _))

instance (D : InOrder U) (spot : ℕ × Key) (entry : Entry U) :
    Decidable (UpToDate D spot entry) := by
  unfold UpToDate
  split <;> infer_instance

instance (tenantID sessionID : String) (log : List (Entry U)) (v : Value) :
    Decidable (ReplaysHistory tenantID sessionID log v) := by
  unfold ReplaysHistory
  infer_instance

instance (tenantID : String) (c : Run U) (call : Call) :
    Decidable (HistoryCalls tenantID c call) := by
  unfold HistoryCalls
  split <;> infer_instance

/-- The delegate in memory appends in order. -/
def memoryInOrder : InOrder memory where
  events d key := ((d key).map Memory.Record.events).getD []
  created := by
    intro key state ch d r d' h
    cases h
    rw [update_self]
    exact ⟨.inr rfl, fun v hv => by cases hv; exact ⟨rfl, rfl⟩⟩
  got := by
    intro key limit ch d r d' h
    cases h
    refine ⟨rfl, fun v hv => ?_⟩
    obtain ⟨record, hrecord, rfl⟩ := Option.map_eq_some_iff.1 (Except.ok.inj hv)
    rw [hrecord]
    exact ⟨rfl, rfl⟩
  updated := by
    intro key state ch d r d' h
    simp only [Memory.perform] at h
    split at h
    · cases h
      rfl
    · next hrecord =>
      cases h
      rw [update_self, hrecord]
      rfl
  appended := by
    intro v e limit ch d r d' h
    simp only [Memory.perform] at h
    split at h
    · cases h
      exact ⟨.inl rfl, nofun⟩
    · next hrecord =>
      cases h
      rw [update_self, hrecord]
      exact ⟨.inr rfl, fun v' hv' => by cases hv'; exact ⟨rfl, rfl, rfl⟩⟩
  others := by
    intro o ch d r d' key h hkey
    cases o with
    | getSession =>
      cases h
      rfl
    | createSession | deleteSession =>
      cases h
      exact congrArg (fun held => (held.map Memory.Record.events).getD [])
        (update_of_ne hkey _ d)
    | updateSessionState | appendEvent =>
      simp only [Memory.perform] at h
      split at h <;> cases h
      · rfl
      · exact congrArg (fun held => (held.map Memory.Record.events).getD [])
          (update_of_ne hkey _ d)

/-- A state without events is in step. -/
theorem oneSession_inStep : InStep memoryInOrder "t" oneSession :=
  ⟨fun _ => ⟨.nil, nofun, nodup_nil, nofun⟩, fun _ _ => rfl, fun _ => nil_prefix⟩

/-- An instance appends an event. -/
def appendOn (instanceID : ℕ) (e : Event) : Call :=
  .appendEvent ⟨instanceID, "t"⟩ (some { key := oneKey }) (some e) none

/-- The calls perform an operation each, in this order. -/
def interleaved (calls : List ℕ) : List (Action (services memory)) :=
  calls.map fun t => .perform t { upstream := () }

/-- The first instance appends while the second one gets the session. Then the second one appends,
and the first one gets the session. -/
def inTurns : List (Action (services memory)) :=
  alone 0 (getOn 0) 5 ++ [.spawn 1 (appendOn 0 hello), .spawn 2 (getOn 1)] ++
    interleaved [2, 1, 2, 2, 1, 2, 2, 2] ++ alone 3 (appendOn 1 answer) 2 ++ alone 4 (getOn 0) 7

/-- The first instance appends again without getting the session. -/
def staleAppend : List (Action (services memory)) :=
  alone 0 (getOn 0) 5 ++ alone 1 (appendOn 0 hello) 2 ++ alone 2 (getOn 1) 6 ++
    alone 3 (appendOn 1 answer) 2 ++ alone 4 (appendOn 0 thanks) 2 ++ alone 5 (getOn 0) 7

/-- In turns, the session is the history. -/
theorem history_replayed_inTurns : ∃ c : Run memory,
    Reachable (HistoryCalls "t") (Config.start oneSession) c ∧
    c.Returned 4 (getOn 0) (.session (.ok (some { key := oneKey, events := [hello, answer] }))) ∧
    ReplaysHistory "t" "s" (log c.history 4) { key := oneKey, events := [hello, answer] } := by
  obtain ⟨c, hc, hreturned, hresult, hturn, hdate⟩ :=
    Config.exists_returned_of_run (HistoryCalls "t") (Config.start oneSession) inTurns
      (fun c => c.result 4 = some (.session (.ok (some
        { key := oneKey, events := [hello, answer] }))) ∧ Throughout InTurn c.history ∧
        ∀ st ∈ c.history, UpToDate memoryInOrder st.call.spot st.entry) (by decide +kernel)
  have hret := hreturned 4 (getOn 0) _ (mem_append_right _ mem_cons_self) hresult
  exact ⟨c, hc, hret, history_replayed memory_roundTrips oneSession_inStep hc hturn hdate hret⟩

/-- An instance that appends without the event that another instance has stored has the events in
the wrong order from then on. -/
theorem staleAppend_reorders : ∃ c : Run memory,
    InStep memoryInOrder "t" oneSession ∧
    Reachable (HistoryCalls "t") (Config.start oneSession) c ∧
    c.Returned 5 (getOn 0)
      (.session (.ok (some { key := oneKey, events := [hello, thanks, answer] }))) ∧
    ¬ ReplaysHistory "t" "s" (log c.history 5)
      { key := oneKey, events := [hello, thanks, answer] } := by
  obtain ⟨c, hc, hreturned, hresult, hnot⟩ :=
    Config.exists_returned_of_run (HistoryCalls "t") (Config.start oneSession) staleAppend
      (fun c => c.result 5 = some (.session (.ok (some
        { key := oneKey, events := [hello, thanks, answer] }))) ∧
        ¬ ReplaysHistory "t" "s" (log c.history 5)
          { key := oneKey, events := [hello, thanks, answer] }) (by decide +kernel)
  have hret := hreturned 5 (getOn 0) _ (mem_append_right _ mem_cons_self) hresult
  exact ⟨c, oneSession_inStep, hc, hret, hnot⟩

end AgentService.Sessions
