import AgentService.Gateway.Idempotency
import Mathlib.Data.String.Basic
import Mathlib.Order.Fin.Basic

/-!
# Runner identities

The user and the session under which a message is executed: `dispatchRunnerIdentity` of
`trpcservice/gateway/dispatch.go`, `RoutingTarget.RunnerIdentity` of `channels/routing.go`, and
`NewRunnerIdentity` of `tenant/runtime.go`. The parts of an identity are encoded with their lengths,
so that different parts give different identities (`apiIdentity_sessionID_inj`).

The session of a message from the API has the application, the conversation, and the thread, but
not the subject, which only the user has.
-/

namespace AgentService.Gateway

open String

open Idempotency (Caller)

/-- The errors of an identity. -/
inductive IdentityErr where
  /-- `ErrUnauthenticated`. -/
  | unauthenticated
  /-- `tenant.ErrInvalid`, with its text. -/
  | tenant (message : String)
  /-- `channels.ErrInvalid`, with its text. -/
  | channel (message : String)
  /-- An error of `RoutingTarget.Validate`. -/
  | target
  deriving DecidableEq

/-! ## Tenants -/

/-- The characters of Crockford's base 32. -/
def crockford : List Char := "0123456789ABCDEFGHJKMNPQRSTVWXYZ".toList

/-- `validateTenantID`. -/
def validateTenantID (id : String) : Option IdentityErr :=
  if id.utf8ByteSize ≠ 28 ∨ "t_".toList.isPrefixOf id.toList = false then
    some (.tenant "tenant id must be t_ followed by 26 Crockford characters")
  else if (id.toList.drop 2).head?.any (fun c => '7' < c) then
    some (.tenant "tenant id has invalid ULID padding bits")
  else if (id.toList.drop 2).any (fun c => c ∉ crockford) then some (.tenant "invalid tenant id")
  else none

/-- `namespacedID`. -/
def namespacedID (tenantID externalID : String) : Except IdentityErr String :=
  if externalID = "" then .error (.tenant "external identity is required")
  else
    .ok (Go.itoa tenantID.utf8ByteSize ++ ":" ++ tenantID ++ ":" ++
      Go.itoa externalID.utf8ByteSize ++ ":" ++ externalID)

/-- `NewRunnerIdentity`. -/
def newRunnerIdentity (tenantID externalUserID externalSessionID : String) :
    Except IdentityErr RunnerIdentity := do
  match validateTenantID tenantID with
  | some err => .error err
  | none =>
    let userID ← namespacedID tenantID externalUserID
    let sessionID ← namespacedID tenantID externalSessionID
    return ⟨userID, sessionID⟩

/-! ## Channels -/

/-- `requiredExternalID`. -/
def requiredExternalID (value label : String) : Except IdentityErr String :=
  if value = "" ∨ Audit.hasControl value = true ∨ 1024 < (Go.runes value).length then
    .error (.channel (label ++ " is invalid"))
  else .ok value

/-- `encodeIdentityParts`. -/
def encodeIdentityParts (parts : List String) : String := Go.lengthPrefixed parts

/-- The conversation of a message, as `RoutingTarget.RunnerIdentity` reads it. -/
def conversationID (message : InboundMessage) : Except IdentityErr String :=
  match message.conversationKind with
  | .direct => requiredExternalID message.externalPeerID "external peer id"
  | .group => requiredExternalID message.externalChatID "external chat id"
  | .other _ => .error (.channel "unknown conversation kind")

/-- `RoutingTarget.RunnerIdentity`, of a target of the caller's tenant. -/
def channelIdentity (caller : Caller) (target : RoutingTarget) (message : InboundMessage) :
    Except IdentityErr RunnerIdentity := do
  if caller.valid = false then .error .target
  else
    let userID ← requiredExternalID message.externalUserID "external user id"
    let conversation ← conversationID message
    if message.externalThreadID ≠ "" ∧ Audit.hasControl message.externalThreadID = true then
      .error (.channel "external thread id is invalid")
    else
      newRunnerIdentity caller.principal.tenantID
        (encodeIdentityParts [target.channel, target.bindingID, userID])
        (encodeIdentityParts [target.channel, target.bindingID, message.conversationKind.text,
          conversation, message.externalThreadID])

/-! ## Messages -/

/-- `encodeDispatchIdentity`. -/
def encodeDispatchIdentity (parts : List String) : String := Go.lengthPrefixed parts

/-- The identity of a message from the API. -/
def apiIdentity (principal : Principal) (message : InboundMessage) :
    Except IdentityErr RunnerIdentity :=
  let conversation :=
    match message.conversationKind with
    | .group => message.externalChatID
    | .direct | .other _ => message.externalPeerID
  newRunnerIdentity principal.tenantID
    (encodeDispatchIdentity ["api", principal.appID, principal.subjectID])
    (encodeDispatchIdentity ["api", principal.appID, message.conversationKind.text, conversation,
      message.externalThreadID])

/-- `dispatchRunnerIdentity`. -/
def dispatchRunnerIdentity (caller : Caller) (message : InboundMessage) :
    Except IdentityErr RunnerIdentity :=
  match caller.principal.kind with
  | .channel =>
    match caller.principal.routingTarget with
    | none => .error .unauthenticated
    | some target => channelIdentity caller target message
  | .api => apiIdentity caller.principal message

variable {tenantID userID sessionID : String} {identity identity' : RunnerIdentity}
variable {principal principal' : Principal} {message message' : InboundMessage}

variable {externalID id : String}

/-- A namespaced ID is the tenant and the encoded external ID. -/
theorem namespacedID_eq_ok (h : namespacedID tenantID externalID = .ok id) :
    id = Go.itoa tenantID.utf8ByteSize ++ ":" ++ tenantID ++ ":" ++
      Go.lengthPrefixed [externalID] := by
  unfold namespacedID at h
  split_ifs at h
  cases h
  simp [Go.lengthPrefixed, append_assoc]

/-- The IDs of an identity are the namespaced external IDs. -/
theorem newRunnerIdentity_eq_ok (h : newRunnerIdentity tenantID userID sessionID = .ok identity) :
    namespacedID tenantID userID = .ok identity.userID ∧
      namespacedID tenantID sessionID = .ok identity.sessionID := by
  unfold newRunnerIdentity at h
  cases hvalid : validateTenantID tenantID with
  | some =>
    rw [hvalid] at h
    cases h
  | none =>
    simp only [hvalid] at h
    cases huser : namespacedID tenantID userID with
    | error =>
      rw [huser] at h
      cases h
    | ok =>
      rw [huser] at h
      cases hsession : namespacedID tenantID sessionID with
      | error =>
        rw [hsession] at h
        cases h
      | ok =>
        rw [hsession] at h
        cases h
        exact ⟨rfl, rfl⟩

theorem namespacedID_ne_empty (h : namespacedID tenantID externalID = .ok id) : id ≠ "" := by
  rw [namespacedID_eq_ok h]
  simp

/-- The tenant of an identity is not empty. -/
theorem tenantID_ne_empty_of_newRunnerIdentity
    (h : newRunnerIdentity tenantID userID sessionID = .ok identity) : tenantID ≠ "" := by
  rintro rfl
  have hinvalid : (validateTenantID "").isSome = true := by decide +kernel
  obtain ⟨_, herr⟩ := Option.isSome_iff_exists.1 hinvalid
  rw [newRunnerIdentity, herr] at h
  cases h

/-- Within a tenant, different external identifiers have different identifiers. -/
theorem namespacedID_inj {externalID externalID' id id' : String}
    (h : namespacedID tenantID externalID = .ok id) (h' : namespacedID tenantID externalID' = .ok id')
    (heq : id = id') : externalID = externalID' := by
  rw [namespacedID_eq_ok h, namespacedID_eq_ok h', append_right_inj, Go.lengthPrefixed_inj] at heq
  exact List.head_eq_of_cons_eq heq

variable {userID' sessionID' : String}

section

variable (h : newRunnerIdentity tenantID userID sessionID = .ok identity)
  (h' : newRunnerIdentity tenantID userID' sessionID' = .ok identity')

include h h'

/-- Within a tenant, different external users have different users. -/
theorem newRunnerIdentity_userID_inj
    (heq : identity.userID = identity'.userID) : userID = userID' :=
  namespacedID_inj (newRunnerIdentity_eq_ok h).1 (newRunnerIdentity_eq_ok h').1 heq

/-- Within a tenant, different external sessions have different sessions. -/
theorem newRunnerIdentity_sessionID_inj
    (heq : identity.sessionID = identity'.sessionID) : sessionID = sessionID' :=
  namespacedID_inj (newRunnerIdentity_eq_ok h).2 (newRunnerIdentity_eq_ok h').2 heq

end

/-- The direct conversations of an application that have the same session are with the same peer in
the same thread. -/
theorem apiIdentity_sessionID_inj (htenant : principal.tenantID = principal'.tenantID)
    (hdirect : message.conversationKind = .direct) (hdirect' : message'.conversationKind = .direct)
    (h : apiIdentity principal message = .ok identity)
    (h' : apiIdentity principal' message' = .ok identity')
    (heq : identity.sessionID = identity'.sessionID) :
    message.externalPeerID = message'.externalPeerID ∧
      message.externalThreadID = message'.externalThreadID := by
  unfold apiIdentity at h h'
  rw [← htenant] at h'
  have hparts := newRunnerIdentity_sessionID_inj h h' heq
  simp only [encodeDispatchIdentity, Go.lengthPrefixed_inj, List.cons.injEq, hdirect, hdirect']
    at hparts
  exact ⟨hparts.2.2.2.1, hparts.2.2.2.2.1⟩

/-- No part of an identity is empty. -/
theorem apiIdentity_ne_empty (h : apiIdentity principal message = .ok identity) :
    principal.tenantID ≠ "" ∧ identity.userID ≠ "" ∧ identity.sessionID ≠ "" := by
  unfold apiIdentity at h
  obtain ⟨huser, hsession⟩ := newRunnerIdentity_eq_ok h
  exact ⟨tenantID_ne_empty_of_newRunnerIdentity h, namespacedID_ne_empty huser,
    namespacedID_ne_empty hsession⟩

section

variable (htenant : principal.tenantID = principal'.tenantID)

include htenant

/-- Different subjects of an application have different users. -/
theorem apiIdentity_userID_ne (hsubject : principal.subjectID ≠ principal'.subjectID)
    (h : apiIdentity principal message = .ok identity)
    (h' : apiIdentity principal' message' = .ok identity') :
    identity.userID ≠ identity'.userID := by
  unfold apiIdentity at h h'
  rw [← htenant] at h'
  intro heq
  have hparts := newRunnerIdentity_userID_inj h h' heq
  simp only [encodeDispatchIdentity, Go.lengthPrefixed_inj, List.cons.injEq] at hparts
  exact hsubject hparts.2.2.1

/-- The direct conversations of an application with the same peer in the same thread have the same
session, whoever the subjects are. -/
theorem apiIdentity_sessionID_eq (happ : principal.appID = principal'.appID)
    (hdirect : message.conversationKind = .direct) (hdirect' : message'.conversationKind = .direct)
    (hpeer : message.externalPeerID = message'.externalPeerID)
    (hthread : message.externalThreadID = message'.externalThreadID)
    (h : apiIdentity principal message = .ok identity)
    (h' : apiIdentity principal' message' = .ok identity') :
    identity.sessionID = identity'.sessionID := by
  unfold apiIdentity at h h'
  rw [← htenant, ← happ, hdirect', ← hpeer, ← hthread] at h'
  rw [hdirect] at h
  have hid := (newRunnerIdentity_eq_ok h).2
  have hid' := (newRunnerIdentity_eq_ok h').2
  exact Except.ok.inj (hid.symm.trans hid')

end

/-! ## Identifiers of tenants -/

/-- A digit of Crockford's base 32. -/
def crockfordDigit (d : ℕ) : Char := crockford.getD d '0'

/-- The identifier of 16 bytes, as one number: `value.Uint64()&31` is the digit of the lowest place,
and `value.Rsh(value, 5)` drops it. -/
def tenantIDOf (data : BitVec 128) : String :=
  "t_" ++ String.ofList (Go.digits 32 crockfordDigit 26 data.toNat)

/-- `newTenantID`: the low 48 bits of the milliseconds, and 80 bits unless `rand.Read` fails. -/
def newTenantID {Err : Type} (ms : ℤ) (random : Except Err (BitVec 80)) : Except Err String :=
  random.map fun bits => tenantIDOf (BitVec.ofInt 48 ms ++ bits)

/-- The digits are characters of the alphabet, of one byte each. -/
theorem digits_crockford (n value : ℕ) :
    (∀ c ∈ Go.digits 32 crockfordDigit n value, c ∈ crockford) ∧
      (String.ofList (Go.digits 32 crockfordDigit n value)).utf8ByteSize = n := by
  have hdigit : ∀ d < 32, crockfordDigit d ∈ crockford ∧ (crockfordDigit d).utf8Size = 1 := by
    decide +kernel
  induction n with
  | zero => exact ⟨nofun, rfl⟩
  | succ n ih =>
    obtain ⟨hmem, hsize⟩ := hdigit (value / 32 ^ n % 32) (Nat.mod_lt _ (by decide))
    rw [Go.digits_succ, ofList_cons, utf8ByteSize_append, ih.2,
      utf8ByteSize_singleton, hsize, Nat.add_comm]
    exact ⟨List.forall_mem_cons.2 ⟨hmem, ih.1⟩, rfl⟩

variable (data : BitVec 128)

theorem toList_tenantIDOf :
    (tenantIDOf data).toList = 't' :: '_' :: Go.digits 32 crockfordDigit 26 data.toNat := by
  simp [tenantIDOf]

/-- What is made of 16 bytes is an identifier. -/
theorem validateTenantID_tenantIDOf : validateTenantID (tenantIDOf data) = none := by
  obtain ⟨hall, hdigits⟩ := digits_crockford 26 data.toNat
  have hsize : (tenantIDOf data).utf8ByteSize = 28 := by
    rw [tenantIDOf, utf8ByteSize_append, hdigits]
    decide
  -- The first of the 26 digits has only three bits.
  have hfirst : ¬ '7' < crockfordDigit (data.toNat / 32 ^ 25 % 32) := by
    have hsmall : ∀ d < 8, ¬ '7' < crockfordDigit d := by decide +kernel
    have hbound := data.isLt
    exact hsmall _ (by omega)
  rw [validateTenantID, toList_tenantIDOf, if_neg (by simp [hsize]), if_neg, if_neg]
  · simpa using hall
  · rw [Go.digits_succ]
    simpa using hfirst

/-- Identifiers are in the order of the numbers. -/
theorem tenantIDOf_strictMono : StrictMono fun n : Fin (2 ^ 128) => tenantIDOf (.ofFin n) := by
  intro v w h
  have hbound : ∀ u : Fin (2 ^ 128), u.val % 32 ^ 26 = u.val := fun u => by
    have hu := u.isLt
    exact Nat.mod_eq_of_lt (by omega)
  have hdigits : Go.digits 32 crockfordDigit 26 v.val < Go.digits 32 crockfordDigit 26 w.val :=
    Go.digits_lt (by decide +kernel) (by decide) (by rw [hbound, hbound]; exact h)
  rw [lt_iff_toList_lt, toList_tenantIDOf, toList_tenantIDOf]
  simpa [List.cons_lt_cons_iff] using hdigits

/-- The number of a time of 48 bits and random bits. -/
theorem toNat_stamp {ms : ℤ} (hms : 0 ≤ ms) (hlt : ms < 2 ^ 48) (bits : BitVec 80) :
    (BitVec.ofInt 48 ms ++ bits).toNat = ms.toNat * 2 ^ 80 + bits.toNat := by
  have hstamp : (BitVec.ofInt 48 ms).toNat = ms.toNat := by
    rw [BitVec.toNat_ofInt]
    omega
  rw [BitVec.toNat_append, hstamp, ← Nat.shiftLeft_add_eq_or_of_lt bits.isLt, Nat.shiftLeft_eq]

/-- For all 16-byte values the identifier passes `validateTenantID`, determines the value, and is in
the order of the values; so one of a later millisecond is greater, whatever bits are drawn. -/
theorem tenantIDs_ordered (Err : Type) :
    (∀ data, validateTenantID (tenantIDOf data) = none) ∧ Function.Injective tenantIDOf ∧
      (∀ v w, tenantIDOf v < tenantIDOf w ↔ v.toNat < w.toNat) ∧
      ∀ (ms ms' : ℤ) (random random' : Except Err (BitVec 80)) (id id' : String),
        0 ≤ ms → ms < ms' → ms' < 2 ^ 48 → newTenantID ms random = .ok id →
        newTenantID ms' random' = .ok id' → id < id' := by
  have hiff : ∀ v w, tenantIDOf v < tenantIDOf w ↔ v.toNat < w.toNat := fun v w =>
    tenantIDOf_strictMono.lt_iff_lt (a := v.toFin) (b := w.toFin)
  refine ⟨validateTenantID_tenantIDOf, fun v w h => ?_, hiff, ?_⟩
  · exact BitVec.toFin_inj.1 (tenantIDOf_strictMono.injective h)
  · intro ms ms' random random' id id' hms hlt hms' hid hid'
    cases random with
    | error => cases hid
    | ok bits =>
      cases random' with
      | error => cases hid'
      | ok =>
        cases hid
        cases hid'
        have hbits := bits.isLt
        rw [hiff, toNat_stamp hms (by omega), toNat_stamp (by omega) hms']
        omega

/-- Two milliseconds in a row, with the greatest and the least bits. -/
theorem tenantIDs_ordered_nextMillisecond :
    "t_0000000001ZZZZZZZZZZZZZZZZ" < "t_00000000020000000000000000" :=
  (tenantIDs_ordered Empty).2.2.2 1 2 (.ok (BitVec.allOnes 80)) (.ok 0) _ _ (by decide) (by decide)
    (by decide) (by decide +kernel) (by decide +kernel)

end AgentService.Gateway
