import AgentService.Gateway.Identity
import AgentService.Sessions.Memory
import AgentService.Sessions.Privacy

/-!
# The conversations of two subjects

The session ID of a direct conversation from the API has the peer and the thread, which the client
chooses, and not the subject. Two subjects of one application who choose the same peer and thread
share a session (`sharedSession_leaks`). Their conversations are private exactly when they choose
different ones (`conversations_private_iff`).
-/

namespace AgentService.Sessions

open Concurrent Storage.Store Gateway List Storage
open Gateway (InboundMessage Principal RunnerIdentity apiIdentity dispatchRunnerIdentity)
open Idempotency (Caller apiCaller directMessage)

/-- An event with an ID was appended under one key only. -/
def OnlyUnder {U : Upstream} (history : List (RunStep U)) (key : Key) (id : String) : Prop :=
  AppendedUnder history key id ∧ ∀ key', AppendedUnder history key' id → key' = key

/-- The key of the session of an identity. -/
def sessionKey (appName : String) (identity : RunnerIdentity) : Key :=
  ⟨appName, identity.userID, identity.sessionID⟩

/-- With every delegate that keeps sessions apart, in every run: no session that `GetSession` of
an instance of the tenant returns for one identity has an event that was appended under the other
identity only. -/
def PrivateTo (tenantID : String) (identity other : RunnerIdentity) : Prop :=
  ∀ (U : Upstream) (A : Apart U), KeepsIDs U → ∀ s₀, Fresh A s₀ →
  ∀ c : Run U, Reachable (fun _ _ => True) (Config.start s₀) c →
  ∀ appName appName' t instanceID limit v,
    c.Returned t (.getSession ⟨instanceID, tenantID⟩ (sessionKey appName identity) limit)
      (.session (.ok (some v))) →
    ∀ e ∈ v.events, ¬ OnlyUnder c.history (sessionKey appName' other) e.id

/-- Identities with different sessions are private. -/
theorem privateTo_of_ne {tenantID : String} {identity other : RunnerIdentity}
    (hne : identity.sessionID ≠ other.sessionID) : PrivateTo tenantID identity other := by
  intro U A hkeeps _ hfresh c hc _ _ t _ _ v hret e he honly
  obtain ⟨key, hkey, happended⟩ := returned_appended hkeeps hfresh hc hret e he
  rw [honly.2 key happended] at hkey
  exact hne hkey.symm

/-! ## A session of two users -/

/-- The delegate in memory keeps sessions apart. -/
def memoryApart : Apart memory where
  held d key id := ∃ record, d key = some record ∧ ∃ e ∈ record.events, e.id = id
  created := by
    intro key state ch d v d' h
    cases h
    exact ⟨rfl, nofun⟩
  got := by
    intro key limit ch d v d' h
    simp only [Memory.perform, Option.some.injEq, Prod.mk.injEq, Except.ok.injEq,
      Option.map_eq_some_iff] at h
    obtain ⟨⟨record, hrecord, rfl⟩, rfl⟩ := h
    refine ⟨rfl, fun e he => ⟨record, hrecord, e, ?_, rfl⟩⟩
    cases limit with
    | none => exact he
    | some n => exact List.mem_of_mem_drop he
  appended := by
    intro v e limit ch d v' d' h
    simp only [Memory.perform] at h
    split at h
    · cases h
    · cases h
      refine ⟨rfl, fun e' he' => ?_⟩
      rcases List.mem_append.1 he' with hold | hnew
      · exact .inl ⟨e', hold, rfl⟩
      · exact .inr (congrArg Event.id (List.mem_singleton.1 hnew)).symm
  held_append := by
    intro v e limit ch d r d' h key id hheld
    simp only [Memory.perform] at h
    split at h
    · cases h
      exact .inl hheld
    · next record hrecord =>
      cases h
      obtain ⟨record', hrecord', e', he', rfl⟩ := hheld
      rcases Memory.update_eq_some hrecord' with ⟨rfl, hnew⟩ | hold
      · cases hnew
        rcases List.mem_append.1 he' with hold | hnew
        · exact .inl ⟨record, hrecord, e', hold, rfl⟩
        · exact .inr ⟨rfl, congrArg Event.id (List.mem_singleton.1 hnew)⟩
      · exact .inl ⟨record', hold, e', he', rfl⟩
  held_other := by
    intro o ch d r d' h hne key id hheld
    obtain ⟨record, hrecord, e, he, rfl⟩ := hheld
    cases o with
    | appendEvent v e limit => exact absurd rfl (hne v e limit)
    | getSession key' limit =>
      cases h
      exact ⟨record, hrecord, e, he, rfl⟩
    | createSession key' state =>
      cases h
      rcases Memory.update_eq_some hrecord with ⟨-, hnew⟩ | hold
      · cases hnew
        exact absurd he List.not_mem_nil
      · exact ⟨record, hold, e, he, rfl⟩
    | updateSessionState key' state =>
      simp only [Memory.perform] at h
      split at h
      · cases h
        exact ⟨record, hrecord, e, he, rfl⟩
      · next record' hrecord' =>
        cases h
        rcases Memory.update_eq_some hrecord with ⟨rfl, hnew⟩ | hold
        · cases hnew
          exact ⟨record', hrecord', e, he, rfl⟩
        · exact ⟨record, hold, e, he, rfl⟩
    | deleteSession key' =>
      cases h
      rcases Memory.update_eq_some hrecord with ⟨-, hnew⟩ | hold
      · cases hnew
      · exact ⟨record, hold, e, he, rfl⟩

section Shared

variable (tenantID sessionID reader writer : String)

/-- The key of a user for the session. -/
def sharedKey (user : String) : Key := ⟨"app", user, sessionID⟩

/-- A store with one session, which the delegates have for the writer. -/
def sharedStart : State memory where
  store :=
    { sessions := (∅ : Storage.GoMap Storage.Session).insert (Storage.key [tenantID, sessionID])
        ⟨tenantID, sessionID, 1, none, 0, 0⟩ }
  delegates _ := Function.update (fun _ => none) (sharedKey sessionID writer) (some {})

/-- The call with which the writer appends an event. -/
def sharedAppend : Call :=
  .appendEvent ⟨0, tenantID⟩ (some { key := sharedKey sessionID writer }) (some { id := "e" }) none

/-- The call with which the reader gets the session. -/
def sharedGet : Call := .getSession ⟨0, tenantID⟩ (sharedKey sessionID reader) none

/-- The entry of the event. -/
def sharedPayload : Storage.EventPayload :=
  { tenantID, sessionID, eventID := "e", payload := "e", historySeq := 1 }

/-- The state after the event was stored. -/
def sharedStored : State memory :=
  { sharedStart tenantID sessionID writer with
    store := (sharedStart tenantID sessionID writer).store.setHistory
      (Storage.key [tenantID, sessionID]) [sharedPayload tenantID sessionID] }

/-- The state after the event was appended. -/
def sharedAppended : State memory :=
  { sharedStored tenantID sessionID writer with
    delegates := Function.update (sharedStored tenantID sessionID writer).delegates 0
      (Function.update (fun _ => none) (sharedKey sessionID writer)
        (some { events := [{ id := "e" }] })) }

/-- The state after the session was created for the reader. -/
def sharedCreated : State memory :=
  { sharedAppended tenantID sessionID writer with
    delegates := Function.update (sharedAppended tenantID sessionID writer).delegates 0
      (Function.update ((sharedAppended tenantID sessionID writer).delegates 0)
        (sharedKey sessionID reader) (some {})) }

variable {tenantID sessionID reader}

/-- The writer appends its event. -/
theorem sharedAppend_executes (htenant : tenantID ≠ "") (hsession : sessionID ≠ "") :
    ∃ l, ((services memory).body (sharedAppend tenantID sessionID writer)).Executes
      (sharedStart tenantID sessionID writer) l (.finished none)
      (sharedAppended tenantID sessionID writer) ∧ ∃ e ∈ l, Stored [e] := by
  have hstored : (machine memory).Performs
      (.store (.appendEventPayload { tenantID, sessionID, eventID := "e", payload := "e" }))
      (sharedStart tenantID sessionID writer) (.ok (sharedPayload tenantID sessionID))
      (sharedStored tenantID sessionID writer) := by
    refine ⟨{ upstream := () }, ?_⟩
    simp [perform, StoreOp.apply, check, appendEventPayload,
      validatePayload, sharedStored, sharedStart, sharedPayload, htenant, hsession,
      setHistory, -AList.insert_empty]
  have happended : (machine memory).Performs
      (.delegate 0 (.appendEvent { key := sharedKey sessionID writer } { id := "e" } none))
      (sharedStored tenantID sessionID writer)
      (.ok { key := sharedKey sessionID writer, events := [{ id := "e" }] })
      (sharedAppended tenantID sessionID writer) := by
    refine ⟨{ upstream := () }, ?_⟩
    simp [perform, Memory.perform, sharedStart, sharedStored, sharedAppended]
  refine ⟨_, .call hstored (.call happended (.ret _ _)), _, mem_cons_self, ?_⟩
  exact ⟨_, _, _, _, mem_cons_self⟩

variable {writer}

/-- The reader gets the event. -/
theorem sharedGet_executes (htenant : tenantID ≠ "") (hsession : sessionID ≠ "")
    (hreader : reader ≠ "") (hne : reader ≠ writer) :
    ∃ l s', ((services memory).body (sharedGet tenantID sessionID reader)).Executes
      (sharedAppended tenantID sessionID writer) l
      (.session (.ok (some { key := sharedKey sessionID reader, events := [{ id := "e" }] }))) s' := by
  have hkey : validateKey (sharedKey sessionID reader) = none := by
    simp [validateKey, sharedKey, hreader, hsession]
  have hfound : (machine memory).Performs (.store (.getSession tenantID sessionID))
      (sharedAppended tenantID sessionID writer) (.ok ⟨tenantID, sessionID, 1, none, 0, 0⟩)
      (sharedAppended tenantID sessionID writer) := by
    refine ⟨{ upstream := () }, ?_⟩
    simp [perform, StoreOp.apply, check, getSession, sharedAppended,
      sharedStored, sharedStart, validateSession_eq_none.2 ⟨htenant, hsession⟩,
      setHistory, -AList.insert_empty]
  have hnone : (machine memory).Performs
      (.delegate 0 (.getSession (sharedKey sessionID reader) none))
      (sharedAppended tenantID sessionID writer) (.ok none)
      (sharedAppended tenantID sessionID writer) := by
    refine ⟨{ upstream := () }, ?_⟩
    simp [perform, Memory.perform, sharedAppended, sharedKey, hne]
  have hcreated : (machine memory).Performs
      (.delegate 0 (.createSession (sharedKey sessionID reader) none))
      (sharedAppended tenantID sessionID writer) (.ok { key := sharedKey sessionID reader })
      (sharedCreated tenantID sessionID reader writer) := ⟨{ upstream := () }, rfl⟩
  have hlisted : (machine memory).Performs (.store (.listEventPayloads tenantID sessionID))
      (sharedCreated tenantID sessionID reader writer) (.ok [sharedPayload tenantID sessionID])
      (sharedCreated tenantID sessionID reader writer) := by
    refine ⟨{ upstream := () }, ?_⟩
    simp [perform, StoreOp.apply, check, listEventPayloads, sharedCreated,
      sharedAppended, sharedStored, sharedStart,
      validateSession_eq_none.2 ⟨htenant, hsession⟩, setHistory,
      -AList.insert_empty]
  have hrestored : ∃ s', (machine memory).Performs
      (.delegate 0 (.appendEvent { key := sharedKey sessionID reader } { id := "e" } none))
      (sharedCreated tenantID sessionID reader writer)
      (.ok { key := sharedKey sessionID reader, events := [{ id := "e" }] }) s' := by
    simp only [Machine.Performs, machine, perform, Memory.perform, sharedCreated,
      Function.update_self]
    exact ⟨_, { upstream := () }, rfl⟩
  obtain ⟨s', hrestored⟩ := hrestored
  have hversion : (machine memory).Performs (.setVersion 0 sessionID 1) s' () _ :=
    ⟨{ upstream := () }, rfl⟩
  simp only [services, Call.body, sharedGet, Service.getSession, hkey]
  exact ⟨_, _, .call hfound (.call hnone (.call hcreated (.call hlisted (.call hrestored
    (.call hversion (.ret _ _))))))⟩

/-- The writer appends its event and the reader gets it. -/
theorem shared_run (htenant : tenantID ≠ "") (hsession : sessionID ≠ "") (hreader : reader ≠ "")
    (hne : reader ≠ writer) : ∃ c : Run memory, Reachable (fun _ _ => True)
      (Config.start (sharedStart tenantID sessionID writer)) c ∧
      c.Returned 1 (sharedGet tenantID sessionID reader)
        (.session (.ok (some { key := sharedKey sessionID reader, events := [{ id := "e" }] }))) ∧
      (∃ st ∈ c.history, st.call = sharedAppend tenantID sessionID writer ∧ Stored [st.entry]) ∧
      ∀ st ∈ c.history, st.call = sharedAppend tenantID sessionID writer ∨
        st.call = sharedGet tenantID sessionID reader := by
  obtain ⟨l, happend, e, he, hstored⟩ := sharedAppend_executes writer htenant hsession
  obtain ⟨_, _, hget⟩ := sharedGet_executes htenant hsession hreader hne
  have h1 : Reachable (P := services memory) (fun _ _ => True)
      (Config.start (sharedStart tenantID sessionID writer)) _ :=
    Reachable.execute (t := 0) .refl rfl trivial happend
  refine ⟨_, h1.execute (t := 1) rfl trivial hget, rfl, ?_, ?_⟩
  · refine ⟨⟨0, sharedAppend tenantID sessionID writer, e⟩, ?_, rfl, hstored⟩
    exact mem_append_left _ (mem_map_of_mem he)
  · intro st hst
    rcases mem_append.1 hst with hst | hst
    · obtain ⟨e, -, rfl⟩ := mem_map.1 hst
      exact .inl rfl
    · obtain ⟨e, -, rfl⟩ := mem_map.1 hst
      exact .inr rfl

/-- Two users of one session are not private to each other. -/
theorem not_privateTo_of_eq {identity other : RunnerIdentity} (htenant : tenantID ≠ "")
    (hsession : identity.sessionID ≠ "") (hshared : identity.sessionID = other.sessionID)
    (huser : identity.userID ≠ "") (hne : identity.userID ≠ other.userID) :
    ¬ PrivateTo tenantID identity other := by
  intro hprivate
  obtain ⟨c, hc, hret, ⟨st, hst, hcall, hstored⟩, hcalls⟩ := shared_run htenant hsession huser hne
  have hfresh : Fresh memoryApart (sharedStart tenantID identity.sessionID other.userID) := by
    refine ⟨fun k _ hlookup => ?_, fun i key id hheld => ?_⟩
    · cases hlookup
    · obtain ⟨_, hrecord, e, he, -⟩ := hheld
      dsimp only [sharedStart] at hrecord
      rcases Memory.update_eq_some hrecord with ⟨-, hnew⟩ | hold
      · cases hnew
        exact absurd he not_mem_nil
      · cases hold
  have hwriter : sharedKey identity.sessionID other.userID = sessionKey "app" other := by
    rw [hshared]
    rfl
  refine hprivate memory memoryApart memory_roundTrips.keepsIDs _ hfresh c hc "app" "app" 1 0 none _ hret
    { id := "e" } mem_cons_self ⟨?_, ?_⟩
  · exact ⟨st, hst, _, _, _, _, hcall, hwriter, rfl, hstored⟩
  · rintro key ⟨st', hst', _, v, e, _, hcall', rfl, -⟩
    rcases hcalls st' hst' with h | h
    · rw [h] at hcall'
      cases hcall'
      exact hwriter
    · rw [h] at hcall'
      cases hcall'

end Shared

/-! ## Direct conversations from the API -/

/-- Two subjects of an application who write to the same peer in the same thread are not private to
each other. -/
theorem not_privateTo_of_same {principal principal' : Principal} {message message' : InboundMessage}
    {identity identity' : RunnerIdentity} (htenant : principal.tenantID = principal'.tenantID)
    (happ : principal.appID = principal'.appID)
    (hsubject : principal.subjectID ≠ principal'.subjectID)
    (hdirect : message.conversationKind = .direct) (hdirect' : message'.conversationKind = .direct)
    (hpeer : message.externalPeerID = message'.externalPeerID)
    (hthread : message.externalThreadID = message'.externalThreadID)
    (hid : apiIdentity principal message = .ok identity)
    (hid' : apiIdentity principal' message' = .ok identity') :
    ¬ PrivateTo principal.tenantID identity identity' := by
  obtain ⟨htenantID, huser, hsession⟩ := apiIdentity_ne_empty hid
  exact not_privateTo_of_eq htenantID hsession
    (apiIdentity_sessionID_eq htenant happ hdirect hdirect' hpeer hthread hid hid') huser
    (apiIdentity_userID_ne htenant hsubject hid hid')

/-- The direct conversations of two subjects of an application are private exactly when they are
with different peers or in different threads. -/
theorem conversations_private_iff {caller caller' : Caller} {message message' : InboundMessage}
    {identity identity' : RunnerIdentity} (hapi : caller.principal.kind = .api)
    (hapi' : caller'.principal.kind = .api)
    (htenant : caller.principal.tenantID = caller'.principal.tenantID)
    (happ : caller.principal.appID = caller'.principal.appID)
    (hsubject : caller.principal.subjectID ≠ caller'.principal.subjectID)
    (hdirect : message.conversationKind = .direct) (hdirect' : message'.conversationKind = .direct)
    (hid : dispatchRunnerIdentity caller message = .ok identity)
    (hid' : dispatchRunnerIdentity caller' message' = .ok identity') :
    PrivateTo caller.principal.tenantID identity identity' ↔
      message.externalPeerID ≠ message'.externalPeerID ∨
        message.externalThreadID ≠ message'.externalThreadID := by
  unfold dispatchRunnerIdentity at hid hid'
  rw [hapi] at hid
  rw [hapi'] at hid'
  constructor
  · intro hprivate
    by_contra hsame
    simp only [not_or, not_not] at hsame
    exact not_privateTo_of_same htenant happ hsubject hdirect hdirect' hsame.1 hsame.2 hid hid'
      hprivate
  · intro hdiffer
    refine privateTo_of_ne fun heq => ?_
    obtain ⟨hpeer, hthread⟩ :=
      Gateway.apiIdentity_sessionID_inj htenant hdirect hdirect' hid hid' heq
    exact hdiffer.elim (fun h => h hpeer) fun h => h hthread

/-- Every direct message of a caller has an identity. -/
theorem directMessage_identity (subjectID peer thread : String) :
    ∃ identity, apiIdentity (apiCaller subjectID).principal (directMessage peer thread) =
      .ok identity := by
  have htenant : validateTenantID "t_00000000000000000000000000" = none := by
    decide +kernel
  have hparts : ∀ part parts, encodeDispatchIdentity (part :: parts) ≠ "" := by
    intro part parts hempty
    have hnil : part :: parts = [] := Go.lengthPrefixed_inj.1 hempty
    cases hnil
  simp only [apiCaller, apiIdentity, directMessage, newRunnerIdentity, htenant,
    namespacedID, hparts, if_false]
  exact ⟨_, rfl⟩

/-- In different threads, two subjects with the same peer are private to each other. -/
theorem conversations_private_threads : ∃ identity identity',
    dispatchRunnerIdentity (apiCaller "alice") (directMessage "bot" "1") = .ok identity ∧
    dispatchRunnerIdentity (apiCaller "bob") (directMessage "bot" "2") = .ok identity' ∧
    PrivateTo "t_00000000000000000000000000" identity identity' := by
  obtain ⟨identity, hid⟩ := directMessage_identity "alice" "bot" "1"
  obtain ⟨identity', hid'⟩ := directMessage_identity "bob" "bot" "2"
  have htenant : (apiCaller "alice").principal.tenantID = (apiCaller "bob").principal.tenantID := rfl
  refine ⟨identity, identity', hid, hid', ?_⟩
  exact (conversations_private_iff rfl rfl htenant rfl (by decide) rfl rfl hid hid').2
    (.inr (by decide))

/-- Two subjects with the same peer and no thread share their events. -/
theorem sharedSession_leaks : ∃ identity identity',
    dispatchRunnerIdentity (apiCaller "alice") (directMessage "bot" "") = .ok identity ∧
    dispatchRunnerIdentity (apiCaller "bob") (directMessage "bot" "") = .ok identity' ∧
    ¬ PrivateTo "t_00000000000000000000000000" identity identity' := by
  obtain ⟨identity, hid⟩ := directMessage_identity "alice" "bot" ""
  obtain ⟨identity', hid'⟩ := directMessage_identity "bob" "bot" ""
  have htenant : (apiCaller "alice").principal.tenantID = (apiCaller "bob").principal.tenantID := rfl
  refine ⟨identity, identity', hid, hid', ?_⟩
  exact not_privateTo_of_same htenant rfl (by decide) rfl rfl rfl rfl hid hid'

end AgentService.Sessions
