import AgentService.Sessions.Service

/-!
# A session service in memory

A delegate as the session service is used with: it keeps its sessions in a map by their keys,
appends events in the order of the calls, and hands out the last events of a session when it is
asked for a number of them. The runs on concrete inputs take it (`memory`).
-/

namespace AgentService.Sessions

open Concurrent

/-- The last events of a session, at most as many as a limit says. -/
def lastEvents (limit : Option ℕ) (events : List Event) : List Event :=
  match limit with
  | none => events
  | some n => events.drop (events.length - n)

namespace Memory

/-- A session as it is held. -/
structure Record where
  state : Option String := none
  events : List Event := []
  deriving DecidableEq

/-- The sessions of a delegate. -/
abbrev Held := Key → Option Record

/-- The methods of the delegate. -/
def perform : (o : DelegateOp) → Unit → Held → Option (o.Res × Held)
  | .createSession key state, _, d =>
    some (.ok { key, state }, Function.update d key (some { state }))
  | .getSession key limit, _, d =>
    some (.ok ((d key).map fun held =>
      { key, state := held.state, events := lastEvents limit held.events }), d)
  | .updateSessionState key state, _, d =>
    match d key with
    | none => some (some .upstream, d)
    | some held => some (none, Function.update d key (some { held with state }))
  | .appendEvent value event _, _, d =>
    match d value.key with
    | none => some (.error .upstream, d)
    | some held =>
      some (.ok { value with events := value.events ++ [event] },
        Function.update d value.key (some { held with events := held.events ++ [event] }))
  | .deleteSession key, _, d => some (none, Function.update d key none)

/-- What the delegate in memory holds after a session was written. -/
theorem update_eq_some {d : Held} {key key' : Key} {new : Option Record}
    {record : Record} (h : Function.update d key' new key = some record) :
    (key = key' ∧ new = some record) ∨ d key = some record := by
  by_cases hkey : key = key'
  · subst hkey
    rw [Function.update_self] at h
    exact .inl ⟨rfl, h⟩
  · rw [Function.update_of_ne hkey] at h
    exact .inr h

end Memory

/-- Three events of a conversation. -/
def hello : Event := ⟨"e1", "hello"⟩

@[inherit_doc hello] def answer : Event := ⟨"e2", "hi"⟩

@[inherit_doc hello] def thanks : Event := ⟨"e3", "thanks"⟩

/-- Some events with their JSON forms. -/
def texts : List (String × Event) :=
  [("e", { id := "e" }), ("e1:hello", hello), ("e2:hi", answer), ("e3:thanks", thanks)]

/-- The delegate, with these events. -/
abbrev memory : Upstream where
  json := ⟨fun _ => true, fun a b => a = b⟩
  marshal e := (texts.find? fun text => text.2 = e).map Prod.fst
  unmarshal payload := (texts.find? fun text => text.1 = payload).map Prod.snd
  State := Memory.Held
  Choice := Unit
  perform := Memory.perform

/-- The events are in their forms. -/
theorem memory_roundTrips : RoundTrips memory := by
  intro e payload h
  obtain ⟨text, htext, rfl⟩ := Option.map_eq_some_iff.1 h
  obtain rfl : text.2 = e := by simpa using List.find?_some htext
  exact (by decide : ∀ text ∈ texts, (texts.find? fun text' => text'.1 = text.1).map Prod.snd =
    some text.2) text (List.mem_of_find?_eq_some htext)

/-! ## One session -/

/-- A stored session without events, which no delegate has. -/
def oneSession : State memory where
  store :=
    { sessions := (∅ : Storage.GoMap Storage.Session).insert (Storage.key ["t", "s"])
        ⟨"t", "s", 1, none, 0, 0⟩ }
  delegates _ _ := none

/-- The key of the session. -/
def oneKey : Key := ⟨"app", "u", "s"⟩

/-- A call that runs alone, with its number of operations. -/
def alone (t : ℕ) (call : Call) (operations : ℕ) : List (Action (services memory)) :=
  .spawn t call :: List.replicate operations (.perform t { upstream := () })

/-- An instance gets the session. -/
def getOn (instanceID : ℕ) : Call := .getSession ⟨instanceID, "t"⟩ oneKey none

end AgentService.Sessions
