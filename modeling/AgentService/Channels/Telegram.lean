import AgentService.Concurrent.Pool
import AgentService.Go.Encoding
import AgentService.Go.Maps
import AgentService.Storage.Contract

/-!
# Deliveries of the Telegram provider

`Provider.Deliver` of `trpcservice/channels/telegram/provider.go`. It looks for a receipt under the
mutex, sends the message without it, and stores the receipt under the mutex again. Other calls may
run in between, so two calls for one segment that both find no receipt both send
(`deliver_sends_twice`). `deliver_idempotent` is about the runs in which a call looks for a receipt
only while no other one is between its look and its store.
-/

namespace AgentService.Channels.Telegram

open Concurrent Storage List Option

/-! ## The provider -/

/-- `bot.SendMessageParams`, with the fields that the provider sets. -/
structure SendMessageParams where
  chatID : ℤ
  messageThreadID : ℤ
  text : String
  deriving DecidableEq

/-- An error of the client, as far as `errors.Is(err, context.Canceled)` tells. -/
inductive ClientErr where
  | canceled
  | other
  deriving DecidableEq

/-- `outbox.DeliveryError`. -/
structure DeliveryError where
  /-- `Class`. -/
  errClass : String
  retryable : Bool
  deriving DecidableEq

/-- The atomic steps of a delivery: the two sections under the mutex, and the call of the client. -/
inductive Op where
  | check (key : String)
  | send (params : SendMessageParams)
  | store (key receipt : String)

/-- What a step answers. A message of the client is its identifier, or `nil`. -/
abbrev Op.Res : Op → Type
  | .check _ => String
  | .send _ => Except ClientErr (Option ℤ)
  | .store _ _ => Unit

/-- The client returns an error, or a message with a positive identifier. -/
def proper : Except ClientErr (Option ℤ) → Bool
  | .error _ => true
  | .ok message => message.any fun id => 0 < id

/-- The receipts of a provider, and its steps. The answer of the client is free but for `proper`. -/
abbrev provider : Machine where
  State := Go.Map String
  Op := Op
  Res := Op.Res
  Choice := Except ClientErr (Option ℤ)
  perform
    | .check key, _, receipts => some ((receipts.lookup key).getD "", receipts)
    | .send _, answer, receipts => if proper answer then some (answer, receipts) else none
    | .store key receipt, _, receipts => some ((), receipts.insert key receipt)
  Move := Empty
  advance := fun move _ => nomatch move

/-- The look for a receipt. -/
def check (key : String) : Program provider String :=
  Program.perform (M := provider) (Op.check key)

/-- `SendMessage`. -/
def send (params : SendMessageParams) : Program provider (Except ClientErr (Option ℤ)) :=
  Program.perform (M := provider) (Op.send params)

/-- The store of a receipt. -/
def store (key receipt : String) : Program provider Unit :=
  Program.perform (M := provider) (Op.store key receipt)

/-- `deliveryKey`. -/
def deliveryKey (value : ReplyOutbox) : String :=
  value.tenantID ++ "\x00" ++ value.replyID ++ "\x00" ++ Go.itoa value.segmentIndex

/-- A call of `Deliver` of a provider for a chat. -/
structure Deliver where
  chatID : ℤ
  threadID : ℤ
  /-- `ctx != nil`. -/
  ctx : Bool
  value : ReplyOutbox

/-- `Deliver`. -/
def deliver (call : Deliver) : Program provider (Except DeliveryError String) :=
  if call.ctx = false then return .error ⟨"invalid", false⟩
  else do
    let receipt ← check (deliveryKey call.value)
    if receipt ≠ "" then return .ok receipt
    let answer ← send ⟨call.chatID, call.threadID, call.value.payload⟩
    match answer with
    | .error .canceled => return .error ⟨"canceled", true⟩
    | .error .other => return .error ⟨"provider_error", true⟩
    | .ok none => return .error ⟨"provider_invalid_receipt", false⟩
    | .ok (some id) =>
      if id ≤ 0 then return .error ⟨"provider_invalid_receipt", false⟩
      else do
        store (deliveryKey call.value) (Go.itoa id)
        return .ok (Go.itoa id)

/-- Any number of calls of one provider. -/
abbrev deliveries : Pool provider where
  Call := Deliver
  Result := Except DeliveryError String
  body := deliver

/-- The calls for one segment of one reply of one tenant. -/
def forSegment (tenantID replyID : String) (segmentIndex : ℤ) (_ : Config deliveries)
    (call : Deliver) : Prop :=
  call.value.tenantID = tenantID ∧ call.value.replyID = replyID ∧
    call.value.segmentIndex = segmentIndex

/-- Their key. -/
def segmentKey (tenantID replyID : String) (segmentIndex : ℤ) : String :=
  tenantID ++ "\x00" ++ replyID ++ "\x00" ++ Go.itoa segmentIndex

instance (tenantID replyID : String) (segmentIndex : ℤ) (c : Config deliveries) (call : Deliver) :
    Decidable (forSegment tenantID replyID segmentIndex c call) :=
  inferInstanceAs (Decidable (_ ∧ _ ∧ _))

/-! ## What a run has sent -/

/-- The message that a step has sent. -/
def sent : provider.Entry → Option ℤ
  | ⟨.send _, .ok message, _, _⟩ => message
  | _ => none

/-- The messages that a run has sent. -/
def sentIDs (history : List (Step deliveries)) : List ℤ := history.filterMap fun st => sent st.entry

/-- The step has found no receipt. -/
def missed : provider.Entry → Bool
  | ⟨.check _, receipt, _, _⟩ => receipt = ""
  | _ => false

/-- After these steps a call is between its look for a receipt and its store. -/
def inFlight (log : List provider.Entry) : Bool :=
  log.getLast?.any fun e => missed e || (sent e).isSome

/-- A call looks for a receipt only while no other one is between its look and its store. -/
def Alone (history : List (Step deliveries)) (st : Step deliveries) : Prop :=
  match st.entry.op with
  | .check _ => ∀ other ∈ history, inFlight (log history other.tid) = false
  | _ => True

instance (history : List (Step deliveries)) (st : Step deliveries) : Decidable (Alone history st) :=
  match h : st.entry.op with
  | .check _ => decidable_of_iff (∀ other ∈ history, inFlight (log history other.tid) = false)
      (by unfold Alone; rw [h])
  | .send _ => .isTrue (by unfold Alone; rw [h]; trivial)
  | .store _ _ => .isTrue (by unfold Alone; rw [h]; trivial)

/-- At most one message was sent, and all calls that succeed return the same identifier. -/
structure Idempotent (c : Config deliveries) : Prop where
  /-- `SendMessage` succeeds at most once. -/
  once : (sentIDs c.history).length ≤ 1
  /-- The identifiers are the same. -/
  same : ∀ t t' call call' receipt receipt', c.Returned t call (.ok receipt) →
    c.Returned t' call' (.ok receipt') → receipt = receipt'

/-! ## One call -/

/-- The receipt that a step has found or stored. -/
def receiptOf : provider.Entry → Option String
  | ⟨.check _, receipt, _, _⟩ => if receipt = "" then none else some receipt
  | ⟨.store _ receipt, _, _, _⟩ => some receipt
  | _ => none

/-- The order of the steps of a call: it sends after it has found no receipt, and stores the
identifier that it has got. -/
def Orderly (key : String) (log : List provider.Entry) : Op → Prop
  | .check key' => key' = key ∧ log = []
  | .send _ => ∃ e, log = [e] ∧ missed e = true
  | .store key' receipt => key' = key ∧
      ∃ e e' id, log = [e, e'] ∧ sent e' = some id ∧ receipt = Go.itoa id

/-- A call keeps to this order, and returns a receipt that it has found or stored. -/
theorem deliver_obeys (call : Deliver) : (deliver call).Obeys (Orderly (deliveryKey call.value))
      (fun log result => ∀ receipt, result = .ok receipt → ∃ e ∈ log, receiptOf e = some receipt)
      [] := by
  have herror : ∀ (log : List provider.Entry) (err : DeliveryError) (receipt : String),
      (Except.error err : Except DeliveryError String) = .ok receipt →
      ∃ e ∈ log, receiptOf e = some receipt := fun _ _ _ h => by cases h
  unfold deliver
  by_cases hctx : call.ctx = false
  · rw [if_pos hctx]
    exact herror _ _
  rw [if_neg hctx]
  refine ⟨⟨rfl, rfl⟩, fun _ found _ _ => ?_⟩
  show (ite ((found : String) ≠ "") _ _ : Program provider (Except DeliveryError String)).Obeys
    _ _ _
  by_cases hfound : (found : String) = ""
  · rw [if_neg (not_not.2 hfound)]
    refine ⟨⟨_, rfl, decide_eq_true hfound⟩, fun _ answer _ _ => ?_⟩
    match answer with
    | .error .canceled => exact herror _ _
    | .error .other => exact herror _ _
    | .ok none => exact herror _ _
    | .ok (some id) =>
      by_cases hid : id ≤ 0
      · show (ite (id ≤ 0) _ _ : Program provider (Except DeliveryError String)).Obeys _ _ _
        rw [if_pos hid]
        exact herror _ _
      · show (ite (id ≤ 0) _ _ : Program provider (Except DeliveryError String)).Obeys _ _ _
        rw [if_neg hid]
        refine ⟨⟨rfl, _, _, id, rfl, rfl, rfl⟩, fun _ _ _ _ receipt hreceipt => ?_⟩
        cases hreceipt
        exact ⟨_, mem_concat_self, rfl⟩
  · rw [if_pos hfound]
    intro receipt hreceipt
    cases hreceipt
    exact ⟨_, mem_singleton_self _, if_neg hfound⟩

/-! ## Runs -/

/-- One more step may have sent a message. -/
theorem sentIDs_snoc (history : List (Step deliveries)) (st : Step deliveries) :
    sentIDs (history ++ [st]) = sentIDs history ++ (sent st.entry).toList := by
  unfold sentIDs
  rw [filterMap_append]
  cases h : sent st.entry <;> simp [h]

/-- A call that is under way has performed a step. -/
theorem exists_of_inFlight {history : List (Step deliveries)} {t : ℕ}
    (h : inFlight (log history t) = true) : ∃ st ∈ history, st.tid = t := by
  cases hlog : log history t with
  | nil =>
    rw [hlog] at h
    cases h
  | cons e =>
    have hmem : e ∈ log history t := hlog ▸ mem_cons_self
    obtain ⟨st, hst, htid, -⟩ := mem_log.1 hmem
    exact ⟨st, hst, htid⟩

/-- Every receipt is the identifier of a message that was sent. -/
structure Told (key : String) (receipts : Go.Map String) (history : List (Step deliveries)) :
    Prop where
  /-- The one that is stored. -/
  stored : ∀ receipt, receipts.lookup key = some receipt →
    ∃ id ∈ sentIDs history, receipt = Go.itoa id
  /-- Those that the calls have found and stored. -/
  found : ∀ st ∈ history, ∀ receipt, receiptOf st.entry = some receipt →
    ∃ id ∈ sentIDs history, receipt = Go.itoa id

/-- What holds while the calls look for a receipt one after the other. -/
structure Once (key : String) (receipts : Go.Map String) (history : List (Step deliveries)) :
    Prop where
  /-- At most one message was sent. -/
  once : (sentIDs history).length ≤ 1
  /-- When one was, its receipt is stored, or the call that has sent it is about to. -/
  kept : sentIDs history ≠ [] →
    (∃ receipt, receipts.lookup key = some receipt ∧ receipt ≠ "") ∨
      ∃ t, inFlight (log history t) = true
  /-- When a call is about to send, none was. -/
  waiting : ∀ t, (log history t).getLast?.any missed = true → sentIDs history = []
  /-- One call at most is under way. -/
  alone : ∀ t t', inFlight (log history t) = true → inFlight (log history t') = true → t = t'

section Steps

variable {key : String} {receipts : Go.Map String} {history : List (Step deliveries)} {t : ℕ}
  {call : Deliver}

/-- A call that is about to send is under way. -/
theorem inFlight_of_missed {l : List provider.Entry} (h : l.getLast?.any missed = true) :
    inFlight l = true := by
  unfold inFlight
  cases hlast : l.getLast? with
  | none =>
    rw [hlast] at h
    cases h
  | some =>
    rw [hlast] at h
    simp only [any_some] at h ⊢
    rw [h, Bool.true_or]

/-- A look for a receipt while nobody is under way. -/
theorem Once.check (h : Once key receipts history) (hidle : ∀ t, inFlight (log history t) = false) :
    Once key receipts (history ++
      [⟨t, call, ⟨.check key, (receipts.lookup key).getD "", receipts, receipts⟩⟩]) := by
  have hothers : ∀ {t'}, t' ≠ t → inFlight (log (history ++
      [⟨t, call, ⟨.check key, (receipts.lookup key).getD "", receipts, receipts⟩⟩]) t') =
        false := by
    intro t' ht'
    rw [log_snoc_ne _ _ (Ne.symm ht')]
    exact hidle t'
  -- A message that was sent has left its receipt, for nobody is about to store it.
  have hreceipt : sentIDs history ≠ [] → ∃ receipt, receipts.lookup key = some receipt ∧
      receipt ≠ "" := by
    intro hsent
    refine (h.kept hsent).resolve_right ?_
    rintro ⟨t', ht'⟩
    rw [hidle t'] at ht'
    cases ht'
  refine ⟨?_, fun hsent => ?_, fun t' ht' => ?_, fun _ _ h1 h2 => ?_⟩
  · rw [sentIDs_snoc]
    exact (append_nil _).symm ▸ h.once
  · rw [sentIDs_snoc] at hsent
    exact .inl (hreceipt ((append_nil (sentIDs history)).symm ▸ hsent))
  · by_cases heq : t' = t
    · rw [heq, log_snoc_self, getLast?_concat] at ht'
      have hempty : (receipts.lookup key).getD "" = "" := of_decide_eq_true ht'
      rw [sentIDs_snoc]
      by_contra hsent
      obtain ⟨receipt, hlookup, hne⟩ := hreceipt ((append_nil (sentIDs history)).symm ▸ hsent)
      rw [hlookup] at hempty
      exact hne hempty
    · have hbusy := inFlight_of_missed ht'
      rw [hothers heq] at hbusy
      cases hbusy
  · have hself : ∀ {t'}, inFlight (log (history ++
        [⟨t, call, ⟨.check key, (receipts.lookup key).getD "", receipts, receipts⟩⟩]) t') =
          true → t' = t := by
      intro t' ht'
      by_contra hne
      rw [hothers hne] at ht'
      cases ht'
    rw [hself h1, hself h2]

/-- A step of the call that is under way, which is not a look for a receipt. -/
theorem Once.goOn (h : Once key receipts history) (hbusy : inFlight (log history t) = true)
    {e : provider.Entry} {receipts' : Go.Map String} (hmissed : missed e = false)
    (honce : (sentIDs history ++ (sent e).toList).length ≤ 1)
    (hkept : sentIDs history ++ (sent e).toList ≠ [] →
      (∃ receipt, receipts'.lookup key = some receipt ∧ receipt ≠ "") ∨ (sent e).isSome = true) :
    Once key receipts' (history ++ [⟨t, call, e⟩]) := by
  have hself : ∀ {t'}, inFlight (log (history ++ [⟨t, call, e⟩]) t') = true → t' = t := by
    intro t' ht'
    by_contra hne
    rw [log_snoc_ne _ _ (Ne.symm hne)] at ht'
    exact hne (h.alone t' t ht' hbusy)
  refine ⟨?_, fun hsent => ?_, fun t' ht' => ?_, fun _ _ h1 h2 => ?_⟩
  · rw [sentIDs_snoc]
    exact honce
  · rw [sentIDs_snoc] at hsent
    refine (hkept hsent).imp id fun hsome => ⟨t, ?_⟩
    rw [log_snoc_self]
    unfold inFlight
    rw [getLast?_concat, any_some, hsome, Bool.or_true]
  · rw [hself (inFlight_of_missed ht'), log_snoc_self, getLast?_concat, any_some, hmissed] at ht'
    cases ht'
  · rw [hself h1, hself h2]

end Steps

section Runs

variable {tenantID replyID : String} {segmentIndex : ℤ} {c : Config deliveries}

/-- Every call of a run keeps to the order of its steps. -/
theorem lawful_deliveries
    (hc : Reachable (forSegment tenantID replyID segmentIndex) (Config.start ∅) c) :
    Lawful (P := deliveries) (fun _ => Orderly (segmentKey tenantID replyID segmentIndex))
      (fun _ log (result : Except DeliveryError String) => ∀ receipt, result = .ok receipt →
        ∃ e ∈ log, receiptOf e = some receipt) c := by
  refine Reachable.lawful (fun _ call hcall => ?_) hc
  have hkey : deliveryKey call.value = segmentKey tenantID replyID segmentIndex := by
    rw [deliveryKey, segmentKey, hcall.1, hcall.2.1, hcall.2.2]
  exact hkey ▸ deliver_obeys call

/-- A message that a call has sent is one that the run has sent. -/
theorem mem_sentIDs {history : List (Step deliveries)} {t : ℕ} {e : provider.Entry} {id : ℤ}
    (he : e ∈ log history t) (hid : sent e = some id) : id ∈ sentIDs history := by
  obtain ⟨st, hst, -, rfl⟩ := mem_log.1 he
  exact mem_filterMap.2 ⟨st, hst, hid⟩

/-- What the calls know stays true, and what they find and store is the same. -/
theorem Told.snoc {key : String} {receipts receipts' : Go.Map String}
    {history : List (Step deliveries)} (h : Told key receipts history) (st : Step deliveries)
    (hstored : ∀ receipt, receipts'.lookup key = some receipt →
      receipts.lookup key = some receipt ∨ ∃ id ∈ sentIDs history, receipt = Go.itoa id)
    (hfound : ∀ receipt, receiptOf st.entry = some receipt →
      ∃ id ∈ sentIDs history, receipt = Go.itoa id) :
    Told key receipts' (history ++ [st]) := by
  have hgrow : ∀ {receipt : String}, (∃ id ∈ sentIDs history, receipt = Go.itoa id) →
      ∃ id ∈ sentIDs (history ++ [st]), receipt = Go.itoa id := by
    rintro receipt ⟨id, hid, heq⟩
    refine ⟨id, ?_, heq⟩
    rw [sentIDs_snoc]
    exact mem_append_left _ hid
  constructor
  · intro receipt hreceipt
    exact hgrow ((hstored receipt hreceipt).elim (h.stored receipt) id)
  · intro st' hst' receipt hreceipt
    rcases mem_append.1 hst' with hold | hnew
    · exact hgrow (h.found st' hold receipt hreceipt)
    · rw [mem_singleton.1 hnew] at hreceipt
      exact hgrow (hfound receipt hreceipt)

/-- The invariant of a run. -/
theorem told_and_once
    (hc : Reachable (forSegment tenantID replyID segmentIndex) (Config.start ∅) c) :
    Told (segmentKey tenantID replyID segmentIndex) c.state c.history ∧
      (Throughout Alone c.history →
        Once (segmentKey tenantID replyID segmentIndex) c.state c.history) := by
  refine Reachable.invariant (I := fun receipts history =>
    Told (segmentKey tenantID replyID segmentIndex) receipts history ∧ (Throughout Alone history →
      Once (segmentKey tenantID replyID segmentIndex) receipts history)) ?_ ?_ (nomatch ·, ·) hc
  · refine ⟨⟨fun _ h => ?_, forall_mem_nil _⟩, fun _ => ⟨Nat.zero_le 1, ?_, ?_, ?_⟩⟩
    · cases h
    · exact fun h => absurd rfl h
    · exact fun _ _ => rfl
    · intro t t' h
      cases h
  · intro c t _ o k r receipts' hc hth hperf ⟨htold, honce⟩
    have horderly := ((lawful_deliveries hc).threads t _ hth).1
    obtain ⟨_, hperf⟩ := hperf
    cases o with
    | check =>
      obtain ⟨rfl, -⟩ := horderly
      cases hperf
      refine ⟨htold.snoc _ (fun _ => .inl) fun receipt hreceipt => ?_, fun hall => ?_⟩
      · have hsome : c.state.lookup (segmentKey tenantID replyID segmentIndex) = some receipt := by
          unfold receiptOf at hreceipt
          cases hlookup : c.state.lookup (segmentKey tenantID replyID segmentIndex) with
          | none => simp [hlookup] at hreceipt
          | some =>
            simp only [hlookup, getD_some] at hreceipt
            split_ifs at hreceipt
            exact hreceipt
        exact htold.stored receipt hsome
      · obtain ⟨hbefore, halone⟩ := throughout_snoc.1 hall
        refine (honce hbefore).check fun t' => ?_
        by_contra hbusy
        obtain ⟨other, hother, rfl⟩ := exists_of_inFlight (Bool.not_eq_false _ ▸ hbusy)
        exact hbusy (halone other hother)
    | send =>
      obtain ⟨e, hlog, hmissed⟩ := horderly
      have hlast : (log c.history t).getLast?.any missed = true := by
        rw [hlog]
        exact hmissed
      have hstate : receipts' = c.state := by
        simp only [provider] at hperf
        split_ifs at hperf
        cases hperf
        rfl
      rw [hstate]
      refine ⟨htold.snoc _ (fun _ => .inl) fun _ h => (by cases h), fun hall => ?_⟩
      have hbefore := honce (throughout_snoc.1 hall).1
      have hnone := hbefore.waiting t hlast
      refine hbefore.goOn (inFlight_of_missed hlast) rfl ?_ fun hsent => .inr ?_
      · rw [hnone, nil_append]
        exact length_toList_le
      · rw [hnone, nil_append] at hsent
        exact isSome_iff_ne_none.2 fun h => hsent (by rw [h]; rfl)
    | store key' receipt =>
      obtain ⟨rfl, e, _, id, hlog, hid, rfl⟩ := horderly
      cases hperf
      have hmem : id ∈ sentIDs c.history :=
        mem_sentIDs (t := t) (hlog ▸ mem_cons_of_mem _ mem_cons_self) hid
      refine ⟨htold.snoc _ (fun receipt hreceipt => .inr ?_) fun receipt hreceipt => ?_,
        fun hall => ?_⟩
      · rw [AList.lookup_insert] at hreceipt
        exact ⟨id, hmem, (some.inj hreceipt).symm⟩
      · exact ⟨id, hmem, (some.inj hreceipt).symm⟩
      · have hbefore := honce (throughout_snoc.1 hall).1
        have hbusy : inFlight (log c.history t) = true := by
          rw [hlog]
          unfold inFlight
          simp [hid]
        refine hbefore.goOn hbusy rfl ?_ fun _ => .inl ⟨_, AList.lookup_insert _, ?_⟩
        · exact (append_nil (sentIDs c.history)).symm ▸ hbefore.once
        · exact Go.itoa_ne_empty id

/-- When the calls for a segment look for its receipt one after the other, at most one message is
sent, and all calls that succeed return its identifier. -/
theorem deliver_idempotent (tenantID replyID : String) (segmentIndex : ℤ) (c : Config deliveries)
    (hc : Reachable (forSegment tenantID replyID segmentIndex) (Config.start ∅) c)
    (hall : Throughout Alone c.history) : Idempotent c := by
  obtain ⟨htold, honce⟩ := told_and_once hc
  have hlength := (honce hall).once
  -- A call that succeeds returns the identifier of a message that was sent.
  have hreturned : ∀ {t call receipt}, c.Returned t call (.ok receipt) →
      ∃ id ∈ sentIDs c.history, receipt = Go.itoa id := by
    intro t call receipt hreturned
    obtain ⟨e, he, hreceipt⟩ := (lawful_deliveries hc).returned hreturned receipt rfl
    obtain ⟨st, hst, -, rfl⟩ := mem_log.1 he
    exact htold.found st hst receipt hreceipt
  refine ⟨hlength, fun t t' call call' receipt receipt' h h' => ?_⟩
  obtain ⟨id, hid, rfl⟩ := hreturned h
  obtain ⟨id', hid', rfl⟩ := hreturned h'
  obtain ⟨only, honly⟩ := List.length_eq_one_iff.1
    (Nat.le_antisymm hlength (List.length_pos_of_mem hid))
  rw [honly, List.mem_singleton] at hid hid'
  rw [hid, hid']

end Runs

/-- A call for the first segment of a reply. -/
def firstSegment : Deliver :=
  ⟨1, 0, true,
    { tenantID := "t", replyID := "r", eventID := "e", segmentIndex := 0, segmentCount := 1,
      payload := "text", replyTarget := {} }⟩

/-- Two calls one after the other: the second one finds the receipt of the first. -/
theorem deliver_idempotent_twice : ∃ c, Reachable (forSegment "t" "r" 0) (Config.start ∅) c ∧
    Throughout Alone c.history ∧ c.result 0 = some (.ok "7") ∧ c.result 1 = some (.ok "7") ∧
    Idempotent c := by
  obtain ⟨c, hc, hall, h0, h1⟩ := Config.exists_reachable_of_run (forSegment "t" "r" 0)
    (Config.start ∅) [.spawn 0 firstSegment, .perform 0 (.ok (some 7)),
      .perform 0 (.ok (some 7)), .perform 0 (.ok (some 7)), .spawn 1 firstSegment,
      .perform 1 (.ok (some 8))]
    (fun c => Throughout Alone c.history ∧ c.result 0 = some (.ok "7") ∧
      c.result 1 = some (.ok "7")) (by decide +kernel)
  exact ⟨c, hc, hall, h0, h1, deliver_idempotent "t" "r" 0 c hc hall⟩

/-- Two calls that both look for a receipt before one of them has stored it: both send, and they
return different identifiers. -/
theorem deliver_sends_twice : ∃ c, Reachable (forSegment "t" "r" 0) (Config.start ∅) c ∧
    (sentIDs c.history).length = 2 ∧ c.result 0 = some (.ok "7") ∧
    c.result 1 = some (.ok "8") :=
  Config.exists_reachable_of_run (forSegment "t" "r" 0)
    (Config.start ∅) [.spawn 0 firstSegment, .spawn 1 firstSegment, .perform 0 (.ok (some 7)),
      .perform 1 (.ok (some 8)), .perform 0 (.ok (some 7)), .perform 1 (.ok (some 8)),
      .perform 0 (.ok (some 7)), .perform 1 (.ok (some 8))]
    (fun c => (sentIDs c.history).length = 2 ∧ c.result 0 = some (.ok "7") ∧
      c.result 1 = some (.ok "8")) (by decide +kernel)

end AgentService.Channels.Telegram
