import AgentService.Concurrent.Pool
import AgentService.Storage.Calls

/-!
# The durable session service

`Service` of `trpcservice/runtime/sessionpostgres/service.go` keeps the sessions of the agent
library in the runtime store. It passes every call on to the session service of the library (its
delegate), and takes the state and the history of a session from the store. Any number of instances,
each with its own delegate, share one store.

The delegate and the JSON form of events come from outside (`Upstream`). What a method does is a
program over atomic operations: those of the store, which are the ones of the in-memory store, those
of the delegate, and the writes to the map of versions. An operation of the store may find its
context done. A session that is handed out is a value: the methods of the code that change it give
it back.

The map `versions` is written by the methods and never read by them.
-/

namespace AgentService.Sessions

open Concurrent
open Storage (Context EventPayload)
open Storage (Json Session Store key check)

/-! ## Sessions and events -/

/-- `session.Key`. -/
structure Key where
  appName : String
  userID : String
  sessionID : String
  deriving DecidableEq

/-- An event of the agent library: its ID, and the rest of it. -/
structure Event where
  id : String
  body : String := ""
  deriving DecidableEq

/-- A session as the library hands it out. A state is the text of its JSON form. -/
structure Value where
  key : Key
  state : Option String := none
  events : List Event := []
  deriving DecidableEq

/-- The errors of the service. -/
inductive Err where
  /-- `session.ErrAppNameRequired`. -/
  | appNameRequired
  /-- `session.ErrUserIDRequired`. -/
  | userIDRequired
  /-- `session.ErrSessionIDRequired`. -/
  | sessionIDRequired
  /-- `session.ErrNilSession`. -/
  | nilSession
  /-- An error of the runtime store. -/
  | storage (cause : Storage.Err)
  /-- An error of the delegate. -/
  | upstream
  deriving DecidableEq

/-- `validateKey`. -/
def validateKey (key : Key) : Option Err :=
  if key.appName = "" then some .appNameRequired
  else if key.userID = "" then some .userIDRequired
  else if key.sessionID = "" then some .sessionIDRequired
  else none

/-! ## The library -/

/-- The methods of the delegate that the service calls. The options of a call are its limit on the
number of events. -/
inductive DelegateOp where
  | createSession (key : Key) (state : Option String)
  | getSession (key : Key) (limit : Option ℕ)
  | updateSessionState (key : Key) (state : Option String)
  | appendEvent (value : Value) (event : Event) (limit : Option ℕ)
  | deleteSession (key : Key)
  deriving DecidableEq

/-- What a method of the delegate returns. `AppendEvent` also changes the session that it is given,
which is its result here. -/
abbrev DelegateOp.Res : DelegateOp → Type
  | .createSession .. | .appendEvent .. => Except Err Value
  | .getSession .. => Except Err (Option Value)
  | .updateSessionState .. | .deleteSession _ => Option Err

/-- What the service takes from outside. -/
structure Upstream where
  /-- Go's JSON package, as the store uses it. -/
  json : Json
  /-- `json.Marshal` of an event. -/
  marshal : Event → Option String
  /-- `json.Unmarshal` into an event. -/
  unmarshal : String → Option Event
  /-- The state of a delegate. -/
  State : Type
  /-- What a delegate leaves open. -/
  Choice : Type
  /-- The methods of a delegate. -/
  perform : (o : DelegateOp) → Choice → State → Option (o.Res × State)

/-- An event is in its JSON form. -/
def RoundTrips (U : Upstream) : Prop :=
  ∀ e payload, U.marshal e = some payload → U.unmarshal payload = some e

/-- The ID of an event is in its JSON form. -/
def KeepsIDs (U : Upstream) : Prop :=
  ∀ e payload e', U.marshal e = some payload → U.unmarshal payload = some e' → e'.id = e.id

/-- The ID is in the form that the event is in. -/
theorem RoundTrips.keepsIDs {U : Upstream} (h : RoundTrips U) : KeepsIDs U := by
  intro e _ e' hmarshal hunmarshal
  rw [h e _ hmarshal] at hunmarshal
  cases hunmarshal
  rfl

/-! ## Operations -/

/-- The operations of the runtime store. -/
inductive StoreOp where
  | getSession (tenantID sessionID : String)
  | createSession (tenantID sessionID : String) (state : Option String)
  | updateSessionState (tenantID sessionID : String) (expectedVersion : ℤ) (state : Option String)
  | deleteSession (tenantID sessionID : String)
  | appendEventPayload (payload : EventPayload)
  | listEventPayloads (tenantID sessionID : String)
  deriving DecidableEq

/-- What an operation of the runtime store returns besides an error. -/
abbrev StoreOp.Val : StoreOp → Type
  | .getSession .. | .createSession .. | .updateSessionState .. => Session
  | .deleteSession .. => Unit
  | .appendEventPayload _ => EventPayload
  | .listEventPayloads .. => List EventPayload

/-- An operation of the runtime store at `now`. -/
def StoreOp.apply (json : Json) (now : ℤ) (s : Store) :
    (o : StoreOp) → Except Storage.Err o.Val × Store
  | .getSession tenantID sessionID => (s.getSession tenantID sessionID, s)
  | .createSession tenantID sessionID state => s.createSession now tenantID sessionID state
  | .updateSessionState tenantID sessionID expectedVersion state =>
    s.updateSessionState now tenantID sessionID expectedVersion state
  | .deleteSession tenantID sessionID =>
    match s.deleteSession tenantID sessionID with
    | (some err, s) => (.error err, s)
    | (none, s) => (.ok (), s)
  | .appendEventPayload payload => s.appendEventPayload json now payload
  | .listEventPayloads tenantID sessionID => (s.listEventPayloads tenantID sessionID, s)

/-- The effect of an operation of the runtime store that succeeds. -/
inductive StoreOp.Acts (json : Json) (now : ℤ) (s : Store) :
    (o : StoreOp) → o.Val → Store → Prop
  /-- A session is read. -/
  | got {tenantID sessionID : String} {value : Session}
      (h : s.getSession tenantID sessionID = .ok value) :
      Acts json now s (.getSession tenantID sessionID) value s
  /-- A new session. -/
  | created {tenantID sessionID : String} {state : Option String}
      (hnew : s.sessions.lookup (key [tenantID, sessionID]) = none) :
      Acts json now s (.createSession tenantID sessionID state)
        (⟨tenantID, sessionID, 1, state, now, now⟩ : Session)
        (s.setSession (key [tenantID, sessionID]) ⟨tenantID, sessionID, 1, state, now, now⟩)
  /-- The next version of a session. -/
  | updated {tenantID sessionID : String} {expectedVersion : ℤ} {state : Option String}
      {value : Session}
      (hfound : s.sessions.lookup (key [tenantID, sessionID]) = some value)
      (hversion : value.version = expectedVersion) :
      Acts json now s (.updateSessionState tenantID sessionID expectedVersion state)
        (Store.updatedSession now state value)
        (s.setSession (key [tenantID, sessionID])
          (Store.updatedSession now state value))
  /-- A session is gone. -/
  | deleted {tenantID sessionID : String} {s' : Store}
      (h : s.Deletes s' tenantID sessionID) :
      Acts json now s (.deleteSession tenantID sessionID) () s'
  /-- A history entry that was there. -/
  | present {payload existing : EventPayload} (hmem : existing ∈
        (s.histories.lookup (key [payload.tenantID, payload.sessionID])).getD [])
      (hid : existing.eventID = payload.eventID) :
      Acts json now s (.appendEventPayload payload) existing s
  /-- A history entry with a new event ID. -/
  | appended {payload : EventPayload} {session : Session} {entries : List EventPayload}
      (hsession :
        s.sessions.lookup (key [payload.tenantID, payload.sessionID]) = some session)
      (hentries : entries =
        (s.histories.lookup (key [payload.tenantID, payload.sessionID])).getD [])
      (hfresh : ∀ existing ∈ entries, existing.eventID ≠ payload.eventID) :
      Acts json now s (.appendEventPayload payload) (Store.appended now entries payload)
        (s.setHistory (key [payload.tenantID, payload.sessionID])
          (entries ++ [Store.appended now entries payload]))
  /-- A history is read. -/
  | listed {tenantID sessionID : String} {history : List EventPayload}
      (h : s.listEventPayloads tenantID sessionID = .ok history) :
      Acts json now s (.listEventPayloads tenantID sessionID) history s

/-- An operation of the runtime store fails and changes nothing, or it acts. -/
theorem StoreOp.apply_spec (json : Json) (now : ℤ) (s : Store) (o : StoreOp) :
    (∃ err, o.apply json now s = (.error err, s)) ∨
    ∃ v s', o.apply json now s = (.ok v, s') ∧ StoreOp.Acts json now s o v s' := by
  cases o with
  | getSession tenantID sessionID =>
    dsimp only [apply]
    cases h : s.getSession tenantID sessionID with
    | error err => exact .inl ⟨err, rfl⟩
    | ok value => exact .inr ⟨value, s, rfl, .got h⟩
  | createSession tenantID sessionID state =>
    rcases s.createSession_spec now tenantID sessionID state with h | ⟨hnew, heq⟩
    · exact .inl h
    · exact .inr ⟨_, _, heq, .created hnew⟩
  | updateSessionState tenantID sessionID expectedVersion state =>
    rcases s.updateSessionState_spec now tenantID sessionID expectedVersion state with
      h | ⟨value, hfound, hversion, heq⟩
    · exact .inl h
    · exact .inr ⟨_, _, heq, .updated hfound hversion⟩
  | deleteSession tenantID sessionID =>
    rcases s.deleteSession_spec tenantID sessionID with ⟨err, heq⟩ | ⟨s', heq, hdeletes⟩
    · exact .inl ⟨err, by simp only [apply, heq]⟩
    · exact .inr ⟨(), s', by simp only [apply, heq], .deleted hdeletes⟩
  | appendEventPayload payload =>
    rcases s.appendEventPayload_spec json now payload with
      h | ⟨existing, hmem, hid, heq⟩ | ⟨session, entries, hsession, hentries, hfresh, heq⟩
    · exact .inl h
    · exact .inr ⟨_, _, heq, .present hmem hid⟩
    · exact .inr ⟨_, _, heq, .appended hsession hentries hfresh⟩
  | listEventPayloads tenantID sessionID =>
    dsimp only [apply]
    cases h : s.listEventPayloads tenantID sessionID with
    | error err => exact .inl ⟨err, rfl⟩
    | ok history => exact .inr ⟨history, s, rfl, .listed h⟩

/-- What the instances share, and what each of them has of its own. -/
structure State (U : Upstream) where
  /-- The runtime store. -/
  store : Store
  /-- The delegates, by instance. -/
  delegates : ℕ → U.State
  /-- The maps `versions`, by instance. -/
  versions : ℕ → Go.Map ℤ := fun _ => ∅

/-- The atomic operations. -/
inductive Op where
  /-- An operation of the runtime store. -/
  | store (o : StoreOp)
  /-- A method of the delegate of an instance. -/
  | delegate (instanceID : ℕ) (o : DelegateOp)
  | setVersion (instanceID : ℕ) (id : String) (version : ℤ)
  /-- `delete(s.versions, id)`. -/
  | dropVersion (instanceID : ℕ) (id : String)
  deriving DecidableEq

/-- What an operation answers. -/
abbrev Op.Res : Op → Type
  | .store o => Except Storage.Err o.Val
  | .delegate _ o => o.Res
  | .setVersion .. | .dropVersion .. => Unit

/-- What an operation leaves to the environment. -/
structure Choice (U : Upstream) where
  /-- The context of an operation of the store. -/
  context : Context := .live
  /-- The clock of the store. -/
  now : ℤ := 0
  /-- The choice of the delegate. -/
  upstream : U.Choice

/-- One operation. -/
def perform (U : Upstream) (o : Op) (ch : Choice U) (s : State U) : Option (o.Res × State U) :=
  match o with
  | .store o =>
    match check ch.context with
    | some err => some (.error err, s)
    | none =>
      let (r, store) := o.apply U.json ch.now s.store
      some (r, { s with store })
  | .delegate i o =>
    (U.perform o ch.upstream (s.delegates i)).map fun (r, d) =>
      (r, { s with delegates := Function.update s.delegates i d })
  | .setVersion i id version =>
    some ((), { s with versions := Function.update s.versions i ((s.versions i).insert id version) })
  | .dropVersion i id =>
    some ((), { s with versions := Function.update s.versions i ((s.versions i).erase id) })

/-- The machine of the services. -/
abbrev machine (U : Upstream) : Machine where
  State := State U
  Op := Op
  Res := Op.Res
  Choice := Choice U
  perform := perform U
  Move := Empty
  advance := nofun

/-- A program of the services. -/
abbrev Code (U : Upstream) (α : Type) := Program (machine U) α

/-- One performed operation. -/
abbrev Entry (U : Upstream) := (machine U).Entry

variable {U : Upstream}

/-- Perform an operation of the runtime store. -/
def storeOp (o : StoreOp) : Code U (Except Storage.Err o.Val) :=
  Program.perform (M := machine U) (.store o)

/-- Call the delegate of an instance. -/
def delegateOp (i : ℕ) (o : DelegateOp) : Code U o.Res :=
  Program.perform (M := machine U) (.delegate i o)

/-- `setVersion`. -/
def setVersion (i : ℕ) (id : String) (version : ℤ) : Code U Unit :=
  Program.perform (M := machine U) (.setVersion i id version)

/-- `delete(s.versions, id)`. -/
def dropVersion (i : ℕ) (id : String) : Code U Unit :=
  Program.perform (M := machine U) (.dropVersion i id)

/-- An operation of the store fails and changes nothing, or it acts. -/
theorem performs_store {o : StoreOp} {s s' : State U} {r : Except Storage.Err o.Val}
    (h : (machine U).Performs (.store o) s r s') : (s' = s ∧ ∃ err, r = .error err) ∨
      ∃ now v store, r = .ok v ∧ s' = { s with store } ∧
        StoreOp.Acts U.json now s.store o v store := by
  obtain ⟨ch, h⟩ := h
  simp only [machine, perform] at h
  cases hcheck : check ch.context with
  | some err =>
    rw [hcheck] at h
    cases h
    exact .inl ⟨rfl, err, rfl⟩
  | none =>
    rw [hcheck] at h
    rcases StoreOp.apply_spec U.json ch.now s.store o with ⟨err, heq⟩ | ⟨v, store, heq, hacts⟩
    · rw [heq] at h
      cases h
      exact .inl ⟨rfl, err, rfl⟩
    · rw [heq] at h
      cases h
      exact .inr ⟨ch.now, v, store, rfl, rfl, hacts⟩

/-- A session that the store does not find is not there. -/
theorem lookup_of_notFound {tenantID sessionID : String} {s s' : State U}
    (h : (machine U).Performs (.store (.getSession tenantID sessionID)) s (.error .notFound) s') :
    s.store.sessions.lookup (key [tenantID, sessionID]) = none := by
  obtain ⟨⟨context, _, _⟩, h⟩ := h
  simp only [machine, perform] at h
  cases context with
  | nil => cases h
  | done => cases h
  | live =>
    simp only [check, StoreOp.apply, Store.getSession, Option.some.injEq,
      Prod.mk.injEq] at h
    have hget := h.1
    split at hget
    · next err herr =>
      unfold Storage.validateSession at herr
      split_ifs at herr
      cases herr
      cases hget
    · split at hget
      · next hnone => exact hnone
      · cases hget

/-- A call of the delegate of an instance changes that delegate only. -/
theorem performs_delegate {i : ℕ} {o : DelegateOp} {s s' : State U} {r : o.Res}
    (h : (machine U).Performs (.delegate i o) s r s') :
    ∃ ch d, U.perform o ch (s.delegates i) = some (r, d) ∧
      s' = { s with delegates := Function.update s.delegates i d } := by
  obtain ⟨ch, h⟩ := h
  simp only [machine, perform, Option.map_eq_some_iff] at h
  obtain ⟨⟨_, d⟩, hperform, heq⟩ := h
  cases heq
  exact ⟨ch.upstream, d, hperform, rfl⟩

/-- The store stays, unless the operation is one of the runtime store and acts. -/
theorem performs_acts {o : Op} {s s' : State U} {r : o.Res} (h : (machine U).Performs o s r s') :
    s'.store = s.store ∨ ∃ o' now v, (⟨o, r⟩ : Sigma Op.Res) = ⟨.store o', .ok v⟩ ∧
      StoreOp.Acts U.json now s.store o' v s'.store := by
  cases o with
  | store =>
    rcases performs_store h with ⟨rfl, -⟩ | ⟨now, v, store, rfl, rfl, hacts⟩
    · exact .inl rfl
    · exact .inr ⟨_, now, v, rfl, hacts⟩
  | delegate =>
    obtain ⟨_, _, -, rfl⟩ := performs_delegate h
    exact .inl rfl
  | setVersion | dropVersion =>
    obtain ⟨_, h⟩ := h
    cases h
    exact .inl rfl

/-- The delegates stay, unless the operation is a method of one of them. -/
theorem performs_delegates {o : Op} {s s' : State U} {r : o.Res}
    (h : (machine U).Performs o s r s') : s'.delegates = s.delegates ∨
      ∃ i o' ch r' d, o = .delegate i o' ∧ U.perform o' ch (s.delegates i) = some (r', d) ∧
        s'.delegates = Function.update s.delegates i d := by
  cases o with
  | store =>
    rcases performs_store h with ⟨rfl, -⟩ | ⟨_, _, _, -, rfl, -⟩ <;> exact .inl rfl
  | delegate i o' =>
    obtain ⟨ch, d, hd, rfl⟩ := performs_delegate h
    exact .inr ⟨i, o', ch, r, d, rfl, hd, rfl⟩
  | setVersion | dropVersion =>
    obtain ⟨_, h⟩ := h
    cases h
    exact .inl rfl

/-! ## The methods -/

/-- An instance of `Service`. -/
structure Service where
  instanceID : ℕ
  tenantID : String
  deriving DecidableEq

namespace Service

variable (s : Service)

/-- `CreateSession`. -/
def createSession (key : Key) (state : Option String) : Code U (Except Err (Option Value)) := do
  match validateKey key with
  | some err => return .error err
  | none =>
    match ← delegateOp s.instanceID (.createSession key state) with
    | .error err => return .error err
    | .ok created =>
      match ← storeOp (.createSession s.tenantID key.sessionID created.state) with
      | .ok _ | .error .duplicate =>
        setVersion s.instanceID key.sessionID 1
        return .ok (some created)
      | .error err =>
        let _ ← delegateOp s.instanceID (.deleteSession key)
        return .error (.storage err)

/-- The loop of `restoreHistory`. -/
def restoreItems (limit : Option ℕ) (existing : List String) :
    List EventPayload → Value → Code U (Except Err Value)
  | [], value => return .ok value
  | item :: items, value =>
    if item.eventID ∈ existing then restoreItems limit existing items value
    else
      match U.unmarshal item.payload with
      | none => return .error (.storage .storage)
      | some historical => do
        match ← delegateOp s.instanceID (.appendEvent value historical limit) with
        | .error err => return .error err
        | .ok value => restoreItems limit existing items value

/-- `restoreHistory`: the session after it. -/
def restoreHistory (value : Value) (sessionID : String) (limit : Option ℕ) :
    Code U (Except Err Value) := do
  match ← storeOp (.listEventPayloads s.tenantID sessionID) with
  | .error err => return .error (.storage err)
  | .ok history => s.restoreItems limit (value.events.map Event.id) history value

/-- The end of `GetSession`: the history, the state, and the version of the stored session. -/
def restore (key : Key) (limit : Option ℕ) (persisted : Session) (value : Value) :
    Code U (Except Err (Option Value)) := do
  match ← s.restoreHistory value key.sessionID limit with
  | .error err => return .error err
  | .ok value =>
    setVersion s.instanceID key.sessionID persisted.version
    return .ok (some { value with state := persisted.state })

/-- `GetSession` of a session that the delegate has. -/
def refresh (key : Key) (limit : Option ℕ) (persisted : Session) (value : Value) :
    Code U (Except Err (Option Value)) := do
  match ← delegateOp s.instanceID (.updateSessionState key persisted.state) with
  | some err => return .error err
  | none =>
    match ← delegateOp s.instanceID (.getSession key limit) with
    | .ok (some refreshed) =>
      s.restore key limit persisted { refreshed with state := persisted.state }
    | _ => s.restore key limit persisted { value with state := persisted.state }

/-- `GetSession` of a session that the delegate does not have. -/
def recreate (key : Key) (limit : Option ℕ) (persisted : Session) :
    Code U (Except Err (Option Value)) := do
  match ← delegateOp s.instanceID (.createSession key persisted.state) with
  | .error err => return .error err
  | .ok value => s.restore key limit persisted value

/-- `GetSession`. -/
def getSession (key : Key) (limit : Option ℕ) : Code U (Except Err (Option Value)) := do
  match validateKey key with
  | some err => return .error err
  | none =>
    match ← storeOp (.getSession s.tenantID key.sessionID) with
    | .error .notFound => delegateOp s.instanceID (.getSession key limit)
    | .error err => return .error (.storage err)
    | .ok persisted =>
      match ← delegateOp s.instanceID (.getSession key limit) with
      | .ok (some value) => s.refresh key limit persisted value
      | _ => s.recreate key limit persisted

/-- `UpdateSessionState`. -/
def updateSessionState (key : Key) (state : Option String) : Code U (Option Err) := do
  match validateKey key with
  | some err => return some err
  | none =>
    match ← storeOp (.getSession s.tenantID key.sessionID) with
    | .error err => return some (.storage err)
    | .ok persisted =>
      match ← storeOp (.updateSessionState s.tenantID key.sessionID persisted.version state) with
      | .error err => return some (.storage err)
      | .ok updated =>
        setVersion s.instanceID key.sessionID updated.version
        delegateOp s.instanceID (.updateSessionState key state)

/-- `AppendEvent`. -/
def appendEvent (sess : Option Value) (event : Option Event) (limit : Option ℕ) :
    Code U (Option Err) := do
  match sess, event with
  | some sess, some event =>
    if event.id = "" then return some (.storage .invalid)
    else
      match U.marshal event with
      | none => return some (.storage .invalid)
      | some payload =>
        match ← storeOp (.appendEventPayload
            { tenantID := s.tenantID, sessionID := sess.key.sessionID, eventID := event.id,
              payload := payload }) with
        | .error err => return some (.storage err)
        | .ok _ =>
          match ← delegateOp s.instanceID (.appendEvent sess event limit) with
          | .error err => return some err
          | .ok _ => return none
  | _, _ => return some .nilSession

/-- `DeleteSession`. -/
def deleteSession (key : Key) : Code U (Option Err) := do
  match validateKey key with
  | some err => return some err
  | none =>
    match ← storeOp (.deleteSession s.tenantID key.sessionID) with
    | .ok _ | .error .notFound =>
      match ← delegateOp s.instanceID (.deleteSession key) with
      | some err => return some err
      | none =>
        dropVersion s.instanceID key.sessionID
        return none
    | .error err => return some (.storage err)

end Service

/-! ## The services as a system of calls -/

/-- A call of a method of an instance. -/
inductive Call where
  | createSession (s : Service) (key : Key) (state : Option String)
  | getSession (s : Service) (key : Key) (limit : Option ℕ)
  | updateSessionState (s : Service) (key : Key) (state : Option String)
  | appendEvent (s : Service) (sess : Option Value) (event : Option Event) (limit : Option ℕ)
  | deleteSession (s : Service) (key : Key)
  deriving DecidableEq

/-- What a call returns. -/
inductive Result where
  | session (r : Except Err (Option Value))
  | finished (err : Option Err)
  deriving DecidableEq

/-- The program of a call. -/
def Call.body : Call → Code U Result
  | .createSession s key state => do return .session (← s.createSession key state)
  | .getSession s key limit => do return .session (← s.getSession key limit)
  | .updateSessionState s key state => do return .finished (← s.updateSessionState key state)
  | .appendEvent s sess event limit => do return .finished (← s.appendEvent sess event limit)
  | .deleteSession s key => do return .finished (← s.deleteSession key)

/-- The calls over the machine. -/
abbrev services (U : Upstream) : Pool (machine U) where
  Call := Call
  Result := Result
  body := Call.body

/-- One step of a run of the services. -/
abbrev RunStep (U : Upstream) := Step (services U)

/-- A configuration of a run of the services. -/
abbrev Run (U : Upstream) := Config (services U)

end AgentService.Sessions
