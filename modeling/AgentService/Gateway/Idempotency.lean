import AgentService.Concurrent.Server
import AgentService.Gateway.Message
import AgentService.Go.Encoding
import AgentService.Go.Maps
import Mathlib.Logic.Function.Basic

/-!
# The idempotency store

`IdempotencyStore` of `trpcservice/gateway/idempotency.go`: `Begin`, `Complete`, `Fail`, and
`Close`, each of which runs under the mutex of the store, and the checks that `Begin` makes before
(`normalize` is `InboundMessage.Normalize` of `gateway.go`). The clock is an argument of the calls.
A store is a `Server` that answers these calls in any order (`store`).

A claim is a number. An entry of the store also has the number of the claim that `Begin` returned
when it made the entry, and a claim has what its `Complete` has stored; the code does not read these
two, but the properties of the store are about them.
-/

namespace AgentService.Idempotency

open Concurrent
open Gateway (DispatchEvent InboundMessage Principal PrincipalKind)
open Storage (Context CtxErr)

/-! ## Messages and keys -/

/-- The errors of the store. -/
inductive Err where
  /-- `ErrInvalid`. -/
  | invalid
  /-- `ErrUnauthenticated`. -/
  | unauthenticated
  /-- `ErrClosed`. -/
  | closed
  /-- `ErrDuplicateMessage`. -/
  | duplicateMessage
  /-- `ErrIdempotencyCapacity`. -/
  | capacity
  /-- `ctx.Err()`. -/
  | ctx (cause : CtxErr)
  deriving DecidableEq

/-- A `Principal` as `Begin` sees it. -/
structure Caller where
  principal : Principal
  /-- `BindingVersion` of its routing target. -/
  bindingVersion : ℤ := 0
  /-- Whether `Validate` accepts it. -/
  valid : Bool := true
  deriving DecidableEq

/-- A subject of the API, with IDs that `validateScopedID` takes. -/
def apiCaller (subjectID : String) : Caller where
  principal :=
    { kind := .api, tenantID := "t_00000000000000000000000000",
      appID := "app_00000000000000000000000000", subjectID, target := ⟨"", ""⟩ }

/-- A direct message to a peer, in a thread. -/
def directMessage (peer thread : String) : InboundMessage :=
  ⟨"hello", "m", "u", .direct, peer, "", thread⟩

/-- An `InboundMessage` with its content type. -/
structure Inbound where
  message : InboundMessage
  contentType : String := ""
  deriving DecidableEq

/-- `hasControl`. -/
def hasControl (value : String) : Bool := value.toList.any fun c => c.toNat < 0x20 || c.toNat = 0x7f

/-- `validateExternalID` accepts a value. -/
def validExternalID (value : String) : Bool :=
  Go.trimSpace value ≠ "" && !hasControl value && (Go.runes value).length ≤ 1024

/-- The identifiers of a message, as `Normalize` checks them. -/
def validIDs (message : InboundMessage) : Bool :=
  (message.externalMessageID = "" || validExternalID message.externalMessageID) &&
    validExternalID message.externalUserID &&
    (match message.conversationKind with
      | .direct => validExternalID message.externalPeerID
      | .group => validExternalID message.externalChatID
      | .other _ => false) &&
    (message.externalThreadID = "" || validExternalID message.externalThreadID)

/-- `InboundMessage.Normalize`. -/
def normalize (inbound : Inbound) : Except Err Inbound :=
  let content := Go.trimSpace inbound.message.content
  let contentType := if inbound.contentType = "" then "text" else inbound.contentType
  if contentType ∉ ["text", "media", "rich"] then .error .invalid
  else if (Go.runes content).length < 1 ∨ 64 * 1024 < (Go.runes content).length then .error .invalid
  else if validIDs inbound.message = false then .error .invalid
  else .ok { message := { inbound.message with content := content }, contentType := contentType }

/-- The parts of a key that all principals have. -/
def keyParts (principal : Principal) (message : InboundMessage) : List String :=
  [principal.kind.text, principal.tenantID, principal.appID, principal.subjectID,
    message.conversationKind.text, message.externalUserID, message.externalPeerID,
    message.externalChatID, message.externalThreadID, message.externalMessageID]

/-- `makeIdempotencyKey` of a valid principal. -/
def makeIdempotencyKey (caller : Caller) (message : InboundMessage) : String :=
  let parts := keyParts caller.principal message
  Go.lengthPrefixed <|
    match caller.principal.routingTarget with
    | none => parts
    | some target => parts ++ [target.channel, target.bindingID, Go.itoa caller.bindingVersion]

/-- The checks of `Begin` before it takes the mutex, and its key. -/
def beginKey (context : Context) (caller : Caller) (inbound : Inbound) : Except Err String :=
  match context with
  | .nil => .error .invalid
  | .done cause => .error (.ctx cause)
  | .live =>
    if caller.valid = false then .error .unauthenticated
    else
      match normalize inbound with
      | .error err => .error err
      | .ok normalized =>
        if normalized.message.externalMessageID = "" then .error .invalid
        else .ok (makeIdempotencyKey caller normalized.message)

/-! ## The store -/

/-- `IdempotencyState`. -/
inductive State where
  | pending
  | completed
  | failed
  deriving DecidableEq

/-- `idempotencyEntry`. -/
structure Entry where
  state : State
  events : List DispatchEvent
  expiresAt : ℤ
  /-- The claim that `Begin` returned when it made the entry. -/
  owner : ℕ
  deriving DecidableEq

/-- `IdempotencyClaim`. -/
structure Claim where
  key : String := ""
  /-- Whether `once` has run. -/
  once : Bool := false
  /-- The events that were passed to `Complete`, if it was `Complete` that ran. -/
  completed : Option (List DispatchEvent) := none
  deriving DecidableEq

/-- `IdempotencyStore`, with the claims that there have ever been. -/
structure Store where
  ttl : ℤ
  maxEntries : ℕ
  entries : Go.Map Entry := ∅
  closed : Bool := false
  /-- The claims by their numbers. -/
  claim : ℕ → Claim := fun _ => {}
  claimCount : ℕ := 0

/-- `NewIdempotencyStore`. -/
def Store.new (ttl maxEntries : ℤ) : Except Err Store :=
  let ttl := if ttl = 0 then 600000000000 else ttl
  let maxEntries := if maxEntries = 0 then 4096 else maxEntries
  if ttl < 0 then .error .invalid
  else if maxEntries < 1 then .error .invalid
  else .ok { ttl := ttl, maxEntries := maxEntries.toNat }

/-- What `Begin` returns without an error. -/
inductive Begun where
  /-- A new claim. -/
  | claimed (claim : ℕ)
  /-- The stored events of a completed duplicate. -/
  | replayed (events : List DispatchEvent)
  deriving DecidableEq

namespace Store

/-- `pruneLocked`. -/
def pruneLocked (s : Store) (now : ℤ) : Store :=
  { s with entries := Go.deleteWhere (fun _ entry => entry.expiresAt ≤ now) s.entries }

/-- `Begin` makes a new entry, where there is room. -/
def reserve (s : Store) (now : ℤ) (key : String) : Except Err Begun × Store :=
  if s.maxEntries ≤ s.entries.entries.length then (.error .capacity, s)
  else
    (.ok (.claimed s.claimCount),
      { s with
        entries := s.entries.insert key
          { state := .pending, events := [], expiresAt := now + s.ttl, owner := s.claimCount }
        claim := Function.update s.claim s.claimCount { key := key }
        claimCount := s.claimCount + 1 })

/-- `Begin` under the mutex, after the expired entries have been deleted. -/
def claimKey (s : Store) (now : ℤ) (key : String) : Except Err Begun × Store :=
  match s.entries.lookup key with
  | none => s.reserve now key
  | some entry =>
    match entry.state with
    | .pending => (.error .duplicateMessage, s)
    | .completed => (.ok (.replayed entry.events), s)
    | .failed => ({ s with entries := s.entries.erase key } : Store).reserve now key

/-- `Begin` under the mutex. -/
def beginLocked (s : Store) (now : ℤ) (key : String) : Except Err Begun × Store :=
  if s.closed then (.error .closed, s) else (s.pruneLocked now).claimKey now key

/-- How a claim ends. -/
inductive End where
  /-- `Complete`. -/
  | completed (events : List DispatchEvent)
  /-- `Fail`. -/
  | failed
  deriving DecidableEq

/-- The state that the entry gets. -/
def End.state : End → State
  | .completed _ => .completed
  | .failed => .failed

/-- The events that the entry gets. -/
def End.events : End → List DispatchEvent
  | .completed events => events
  | .failed => []

/-- The events that were passed to `Complete`. -/
def End.completed? : End → Option (List DispatchEvent)
  | .completed events => some events
  | .failed => none

/-- What `Complete` and `Fail` do to the entry of their key. -/
def settle (s : Store) (key : String) (now : ℤ) (fin : End) : Store :=
  match s.entries.lookup key with
  | some entry =>
    if entry.state = .pending then
      { s with
        entries := s.entries.insert key
          { entry with state := fin.state, events := fin.events, expiresAt := now + s.ttl } }
    else s
  | none => s

/-- `Complete` and `Fail` of a claim, of which the first one runs. -/
def finish (s : Store) (c : ℕ) (now : ℤ) (fin : End) : Store :=
  if s.claimCount ≤ c ∨ (s.claim c).once = true then s
  else
    { s.settle (s.claim c).key now fin with
      claim := Function.update s.claim c
        { s.claim c with once := true, completed := fin.completed? } }

/-- `Complete`. -/
def complete (s : Store) (c : ℕ) (now : ℤ) (events : List DispatchEvent) : Store :=
  s.finish c now (.completed events)

/-- `Fail`. -/
def fail (s : Store) (c : ℕ) (now : ℤ) : Store := s.finish c now .failed

/-- `Close`. -/
def close (s : Store) : Store := { s with closed := true, entries := ∅ }

end Store

/-- A call of the store. -/
inductive Call where
  | «begin» (now : ℤ) (context : Context) (caller : Caller) (inbound : Inbound)
  /-- `Complete` of a claim. -/
  | complete (claim : ℕ) (now : ℤ) (events : List DispatchEvent)
  /-- `Fail` of a claim. -/
  | fail (claim : ℕ) (now : ℤ)
  | close
  deriving DecidableEq

/-- What a call is answered. -/
abbrev Call.Res : Call → Type
  | .begin .. => Except Err Begun
  | .complete .. | .fail .. | .close => Unit

/-- `Begin`. -/
def Store.begin (s : Store) (now : ℤ) (context : Context) (caller : Caller) (inbound : Inbound) :
    Except Err Begun × Store :=
  match beginKey context caller inbound with
  | .error err => (.error err, s)
  | .ok key => s.beginLocked now key

/-- The store, which answers calls one at a time. -/
abbrev store : Server Call where
  State := Store
  Res := Call.Res
  answer
    | .begin now context caller inbound, s => s.begin now context caller inbound
    | .complete c now events, s => ((), s.complete c now events)
    | .fail c now, s => ((), s.fail c now)
    | .close, s => ((), s.close)

/-! ## A claim from its beginning to its end -/

namespace Store

variable {s : Store} {now : ℤ}

/-- What pruning leaves. -/
theorem lookup_pruneLocked {key : String} {entry : Entry} :
    (s.pruneLocked now).entries.lookup key = some entry ↔
      s.entries.lookup key = some entry ∧ now < entry.expiresAt := by
  have hlookup : (s.pruneLocked now).entries.lookup key =
      (s.entries.lookup key).filter fun entry => ¬ entry.expiresAt ≤ now := by
    have h := Go.lookup_deleteWhere (fun _ (entry : Entry) => decide (entry.expiresAt ≤ now))
      s.entries key
    simpa [pruneLocked] using h
  rw [hlookup, Option.filter_eq_some_iff]
  simp

/-- The store after `Begin` returned a claim, where `entries` are the other entries. -/
def claimed (s : Store) (entries : Go.Map Entry) (now : ℤ) (key : String) : Store :=
  { s with
    entries := entries.insert key
      { state := .pending, events := [], expiresAt := now + s.ttl, owner := s.claimCount }
    claim := Function.update s.claim s.claimCount { key := key }
    claimCount := s.claimCount + 1 }

/-- `Begin` makes a new entry only if there is room. -/
theorem reserve_claimed {key : String} {c : ℕ} (h : (s.reserve now key).1 = .ok (.claimed c)) :
    s.entries.entries.length < s.maxEntries ∧ c = s.claimCount ∧
      (s.reserve now key).2 = s.claimed s.entries now key := by
  unfold reserve at h ⊢
  by_cases hfull : s.maxEntries ≤ s.entries.entries.length
  · rw [if_pos hfull] at h
    cases h
  · rw [if_neg hfull] at h ⊢
    cases h
    exact ⟨Nat.lt_of_not_le hfull, rfl, rfl⟩

/-- A claim of `Begin` is new, and so is its entry. -/
theorem beginLocked_claimed {key : String} {c : ℕ}
    (h : (s.beginLocked now key).1 = .ok (.claimed c)) :
    s.closed = false ∧ c = s.claimCount ∧ ∃ entries : Go.Map Entry,
      entries.entries.length < s.maxEntries ∧
        (s.beginLocked now key).2 = s.claimed entries now key := by
  unfold beginLocked at h ⊢
  by_cases hclosed : s.closed = true
  · rw [if_pos hclosed] at h
    cases h
  rw [if_neg hclosed] at h ⊢
  refine ⟨by simpa using hclosed, ?_⟩
  unfold claimKey at h ⊢
  cases hkey : (s.pruneLocked now).entries.lookup key with
  | none =>
    simp only [hkey] at h ⊢
    obtain ⟨hroom, hc, hpost⟩ := reserve_claimed h
    exact ⟨hc, _, hroom, hpost⟩
  | some entry =>
    simp only [hkey] at h ⊢
    cases hstate : entry.state with
    | pending =>
      rw [hstate] at h
      cases h
    | completed =>
      rw [hstate] at h
      cases h
    | failed =>
      simp only [hstate] at h ⊢
      obtain ⟨hroom, hc, hpost⟩ := reserve_claimed h
      exact ⟨hc, _, hroom, hpost⟩

/-- The claim that was just returned finds its entry. -/
theorem finish_claimed (s : Store) (entries : Go.Map Entry) (now now' : ℤ) (key : String)
    (fin : End) : ∃ claim, (s.claimed entries now key).finish s.claimCount now' fin = { s with
        entries := (s.claimed entries now key).entries.insert key
          { state := fin.state, events := fin.events, expiresAt := now' + s.ttl,
            owner := s.claimCount }
        claim := claim
        claimCount := s.claimCount + 1 } := by
  have hself : (s.claimed entries now key).claim s.claimCount = { key := key } :=
    Function.update_self _ _ _
  have hentry : (s.claimed entries now key).entries.lookup key =
      some { state := .pending, events := [], expiresAt := now + s.ttl, owner := s.claimCount } :=
    AList.lookup_insert _
  have hnot : ¬ ((s.claimed entries now key).claimCount ≤ s.claimCount ∨
      ((s.claimed entries now key).claim s.claimCount).once = true) := by
    rw [hself]
    simp [claimed]
  unfold finish
  rw [if_neg hnot, hself]
  unfold settle
  simp only [hentry, if_true]
  exact ⟨_, rfl⟩

/-- After the entry of a key has failed, `Begin` returns a new claim for the key, if there was room
for the entry. -/
theorem beginLocked_of_failed {key : String} {entry : Entry} (hopen : s.closed = false)
    (hentry : s.entries.lookup key = some entry) (hstate : entry.state = .failed)
    {entries : Go.Map Entry} (hroom : entries.entries.length < s.maxEntries)
    (hothers : ∀ key' ≠ key, s.entries.lookup key' = entries.lookup key') (now : ℤ) :
    (s.beginLocked now key).1 = .ok (.claimed s.claimCount) := by
  -- without the entry of the key, the store has no more entries than there was room for
  have hlen : ∀ m : Go.Map Entry, m.lookup key = none →
      (∀ key' e, m.lookup key' = some e → s.entries.lookup key' = some e) →
        m.entries.length < s.maxEntries := by
    intro m hkey hsub
    refine Nat.lt_of_le_of_lt (Go.length_le_of_lookup fun key' e he => ⟨e, ?_⟩) hroom
    have hne : key' ≠ key := by
      rintro rfl
      rw [hkey] at he
      cases he
    rw [← hothers key' hne]
    exact hsub key' e he
  have hreserve : ∀ m : Go.Map Entry, m.lookup key = none →
      (∀ key' e, m.lookup key' = some e → s.entries.lookup key' = some e) →
        (reserve { s with entries := m } now key).1 = .ok (.claimed s.claimCount) := by
    intro m hkey hsub
    unfold reserve
    rw [if_neg (Nat.not_le.2 (hlen m hkey hsub))]
  have hpruned : ∀ key' e, (s.pruneLocked now).entries.lookup key' = some e →
      s.entries.lookup key' = some e := fun _ _ he => (lookup_pruneLocked.1 he).1
  unfold beginLocked claimKey
  rw [hopen]
  cases hkey : (s.pruneLocked now).entries.lookup key with
  | none => exact hreserve _ hkey hpruned
  | some e =>
    have he : e = entry := Option.some.inj ((hpruned key e hkey).symm.trans hentry)
    subst he
    simp only [hstate]
    refine hreserve _ (AList.lookup_erase _ _) fun key' e he => ?_
    exact hpruned key' e (Go.lookup_erase_eq_some.1 he).1

end Store

end AgentService.Idempotency
