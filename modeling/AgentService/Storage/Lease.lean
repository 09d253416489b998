import AgentService.Storage.Calls

/-!
# Leases of reply segments

A segment is in `sending` under a lease: the owner, the token, and the deadline of the row that
`ClaimReply` or `TransitionReply` returned when it put the segment there. Along every run of the
store, a row in `sending` is the one that was returned last (`held_invariant`). A step out of
`sending` is therefore fenced by that lease, except where the store does not look: it accepts a zero
token for any token, and a lease without a deadline never ends (`fenced_iff`).

`TransitionReply` enters `sending` without a deadline when it is given no duration. No one can claim
such a segment again. In the runs where that does not happen and no counter wraps around, every
segment in `sending` can be taken over once its deadline has passed (`recoverable_of_timed`).
-/

namespace AgentService.Storage

open Concurrent Option

variable {lib : Libraries}

/-! ## The latest lease -/

/-- The row that a call put into `sending` under a key. -/
def putsSending (k : String) : (server lib).Step → Option ReplyOutbox
  | ⟨⟨_, _, .claimReply tenantID replyID segment _ _⟩, (.ok row : Except Err ReplyOutbox), _, _⟩ =>
    if replyKey tenantID replyID segment = k then some row else none
  | ⟨⟨_, _, .transitionReply t⟩, (.ok row : Except Err ReplyOutbox), _, _⟩ =>
    if replyKey t.tenantID t.replyID t.segmentIndex = k ∧ t.to = .sending then some row else none
  | _ => none

/-- The row returned by the latest call that put a segment into `sending`. -/
def lastSending (history : List (server lib).Step) (k : String) : Option ReplyOutbox :=
  (history.filterMap (putsSending k)).getLast?

/-- The latest lease after one more call. -/
theorem lastSending_snoc (history : List (server lib).Step) (st : (server lib).Step) (k : String) :
    lastSending (history ++ [st]) k = (putsSending k st).or (lastSending history k) := by
  unfold lastSending
  rw [List.filterMap_append]
  cases hst : putsSending k st with
  | none => simp [hst]
  | some => simp [hst]

variable {now : ℤ}

/-- What a call put into `sending` stands in the store. -/
theorem Acts.lookup_putsSending {s s' : Store} {call : Call} {v : call.Val}
    (h : Acts lib now s call v s') {context : Context} {k : String} {row : ReplyOutbox}
    (hputs : putsSending k (⟨⟨context, now, call⟩, .ok v, s, s'⟩ : (server lib).Step) = some row) :
    s'.replies.lookup k = some row := by
  cases h with
  | claimed =>
    simp only [putsSending] at hputs
    split_ifs at hputs with hk
    cases hputs
    rw [← hk]
    exact AList.lookup_insert _
  | transitioned =>
    simp only [putsSending] at hputs
    split_ifs at hputs with hk
    cases hputs
    rw [← hk.1]
    exact AList.lookup_insert _
  | _ => cases hputs

/-- A row in `sending` after a call was put there by the call, or it was there before. -/
theorem Acts.sending {s s' : Store} {call : Call} {v : call.Val} (h : Acts lib now s call v s')
    (context : Context) {k : String} {row : ReplyOutbox} (hrow : s'.replies.lookup k = some row)
    (hsending : row.status = .sending) :
    putsSending k (⟨⟨context, now, call⟩, .ok v, s, s'⟩ : (server lib).Step) = some row ∨
    (putsSending k (⟨⟨context, now, call⟩, .ok v, s, s'⟩ : (server lib).Step) = none ∧
      s.replies.lookup k = some row) := by
  cases hputs : putsSending k (⟨⟨context, now, call⟩, .ok v, s, s'⟩ : (server lib).Step) with
  | some => exact .inl ((h.lookup_putsSending hputs).symm.trans hrow)
  | none =>
    refine .inr ⟨rfl, ?_⟩
    rcases h.row hrow with hold | ⟨value, -, -, rfl⟩ |
      ⟨tenantID, replyID, segment, owner, leaseDuration, value, rfl, hk, -, rfl⟩ |
      ⟨t, value, rfl, hk, -, rfl⟩
    · exact hold
    · cases hsending
    -- A claim and a step into `sending` would have been the call that put the row there.
    · cases v
      simp [putsSending, hk] at hputs
    · have hto : t.to = .sending := hsending
      simp [putsSending, hk, hto] at hputs

/-- Every row in `sending` has an owner. -/
def Owned (s : Store) : Prop :=
  ∀ k row, s.replies.lookup k = some row → row.status = .sending → row.leaseOwner ≠ ""

/-- A call keeps the owners of the rows in `sending`. -/
theorem Acts.owned {s s' : Store} {call : Call} {v : call.Val} (h : Acts lib now s call v s')
    (hs : Owned s) : Owned s' := by
  intro k row hrow hsending
  rcases h.row hrow with hold | ⟨value, -, -, rfl⟩ |
    ⟨tenantID, replyID, segment, owner, leaseDuration, value, -, -, hclaims, rfl⟩ |
    ⟨t, value, -, -, hmoves, rfl⟩
  · exact hs k row hold hsending
  · cases hsending
  · exact hclaims.owner_ne
  · exact hmoves.owner_ne

/-- Every row in `sending` has an owner and is what the latest call that put it there returned. -/
structure Held (history : List (server lib).Step) (s : Store) : Prop where
  /-- The rows have owners. -/
  owned : Owned s
  /-- They are the latest leases. -/
  latest : ∀ k row, s.replies.lookup k = some row → row.status = .sending →
    lastSending history k = some row

/-- One call keeps the latest leases. -/
theorem Held.step {history : List (server lib).Step} {s : Store} (h : Held history s)
    (request : Request) : Held (history ++ [(server lib).stepOf s request])
      ((server lib).answer request s).2 := by
  rcases server_spec lib request s with ⟨_, heq⟩ | ⟨v, _, heq, hacts⟩
  · rw [Server.stepOf_eq heq, heq]
    refine ⟨h.owned, fun k row hrow hsending => ?_⟩
    rw [lastSending_snoc]
    -- a call that fails puts nothing into `sending`
    obtain ⟨_, _, call⟩ := request
    cases call <;> exact h.latest k row hrow hsending
  · rw [Server.stepOf_eq heq, heq]
    refine ⟨hacts.owned h.owned, fun k row hrow hsending => ?_⟩
    rw [lastSending_snoc]
    rcases hacts.sending request.context hrow hsending with hputs | ⟨hputs, hold⟩
    · rw [hputs, some_or]
    · rw [hputs, none_or]
      exact h.latest k row hold hsending

/-- Along every run, every row in `sending` has an owner and is what the latest call that put it
there returned. -/
theorem held_invariant (lib : Libraries) (requests : List Request) :
    Held ((server lib).history {} requests) ((server lib).after {} requests) := by
  refine Server.history_always (J := Held) ?_ (fun _ _ request h => h.step request) requests
  refine ⟨fun k row hrow => ?_, fun k row hrow => ?_⟩
  · cases hrow
  · cases hrow

/-! ## Steps out of `sending` -/

/-- A step that is fenced: it fails and leaves the store as it is, or the segment was not in
`sending`, or the step carries the owner and the token of the latest lease before its deadline. -/
structure Fenced (history : List (server lib).Step) (s : Store) (request : Request)
    (t : ReplyTransition) : Prop where
  /-- A step that fails leaves the store. -/
  unchanged : ∀ err, ((server lib).answer request s).1 = .error err →
    ((server lib).answer request s).2 = s
  /-- A step out of `sending` that succeeds is made under the latest lease. -/
  lease : ∀ row, s.replies.lookup (replyKey t.tenantID t.replyID t.segmentIndex) = some row →
    row.status = .sending → (∃ v, ((server lib).answer request s).1 = .ok v) →
    ∃ held deadline,
      lastSending history (replyKey t.tenantID t.replyID t.segmentIndex) = some held ∧
      t.owner = held.leaseOwner ∧ t.fencingToken = held.fencingToken ∧
      held.leaseExpiresAt = some deadline ∧ request.now < deadline

/-- A step that the store can check: when it is a legal and complete step of a segment in `sending`,
made by its owner before any deadline and not under another token, it carries a token, or the
segment's is zero, and the segment has a deadline. -/
def Checked (s : Store) (request : Request) (t : ReplyTransition) : Prop :=
  request.context = .live → ∀ row, s.MovesReply request.now t row → row.status = .sending →
    (t.fencingToken ≠ 0 ∨ row.fencingToken = 0) ∧ row.leaseExpiresAt ≠ none

/-- Along every run, a step is fenced exactly when the store can check it. -/
theorem fenced_iff (lib : Libraries) (requests : List Request) (context : Context) (now : ℤ)
    (t : ReplyTransition) :
    Fenced ((server lib).history {} requests) ((server lib).after {} requests)
        ⟨context, now, .transitionReply t⟩ t ↔
      Checked ((server lib).after {} requests) ⟨context, now, .transitionReply t⟩ t := by
  have hheld := held_invariant lib requests
  generalize (server lib).history {} requests = history at hheld ⊢
  generalize (server lib).after {} requests = s at hheld ⊢
  constructor
  · rintro hfenced (rfl : context = .live) row hmoves hsending
    obtain ⟨held, deadline, hlast, howner, htoken, hdeadline, -⟩ :=
      hfenced.lease row hmoves.found hsending ⟨_, congrArg Prod.fst hmoves.eq⟩
    obtain rfl : held = row :=
      Option.some.inj (hlast.symm.trans (hheld.latest _ row hmoves.found hsending))
    refine ⟨?_, by simp [hdeadline]⟩
    by_cases hzero : t.fencingToken = 0
    · exact .inr (htoken.symm.trans hzero)
    · exact .inl hzero
  · intro hchecked
    rcases server_spec lib ⟨context, now, .transitionReply t⟩ s with
      ⟨err, heq⟩ | ⟨v, s', heq, hacts⟩
    · refine ⟨fun _ _ => congrArg Prod.snd heq, fun row _ _ hok => ?_⟩
      obtain ⟨v, hv⟩ := hok
      rw [heq] at hv
      cases hv
    · refine ⟨fun err herr => ?_, fun row hrow hsending _ => ?_⟩
      · rw [heq] at herr
        cases herr
      · have hlive : context = .live := context_of_answer heq
        cases hacts with
        | transitioned _ value hmoves =>
          obtain rfl : value = row := Option.some.inj (hmoves.found.symm.trans hrow)
          obtain ⟨htoken, hdeadline⟩ := hchecked hlive value hmoves hsending
          obtain ⟨deadline, hdeadline⟩ := Option.ne_none_iff_exists'.1 hdeadline
          refine ⟨value, deadline, hheld.latest _ value hrow hsending, ?_, ?_, hdeadline, ?_⟩
          · exact (hmoves.holder.resolve_left (hheld.owned _ value hrow hsending)).symm
          · rcases hmoves.token with hzero | heq
            · rw [hzero, htoken.resolve_left (not_not.2 hzero)]
            · exact heq.symm
          · have hend := hmoves.live
            simp only [Store.leaseExpired, hsending, hdeadline, Option.mem_def, Option.some.injEq,
              exists_eq_left', true_and, decide_eq_false_iff_not, not_not] at hend
            exact hend

/-- A segment that is claimed twice under one name, the second time after the first lease is over.
-/
def claimedTwice : List Request :=
  oneSegment ++ [⟨.live, 0, .claimReply "t" "r" 0 "w" 10⟩, ⟨.live, 10, .claimReply "t" "r" 0 "w" 10⟩]

/-- The row after the second claim. -/
def secondClaim : ReplyOutbox :=
  { oneRow with
    status := .sending, attempts := 2, fencingToken := 2, leaseOwner := "w",
    leaseExpiresAt := some 20, updatedAt := 10 }

/-- The holder of the first claim reports the segment as sent, without a token. -/
def staleSent : ReplyTransition := ⟨"t", "r", 0, .sending, .sent, "w", 0, 0, "", ""⟩

/-- The store accepts it: the step is not fenced by the second lease. -/
theorem sentWithoutToken :
    ¬ Fenced ((server plainLibraries).history {} claimedTwice)
      ((server plainLibraries).after {} claimedTwice)
      ⟨.live, 11, .transitionReply staleSent⟩ staleSent := by
  intro hfenced
  have hrow : ((server plainLibraries).after {} claimedTwice).replies.lookup
      (replyKey "t" "r" 0) = some secondClaim := by decide +kernel
  have hlast : lastSending ((server plainLibraries).history {} claimedTwice)
      (replyKey "t" "r" 0) = some secondClaim := by decide +kernel
  obtain ⟨held, deadline, hheld, -, htoken, -⟩ :=
    hfenced.lease secondClaim hrow rfl ⟨_, by rfl⟩
  obtain rfl : held = secondClaim := Option.some.inj (hheld.symm.trans hlast)
  revert htoken
  decide

/-! ## Segments that can be taken over -/

/-- Every segment in `sending` has an owner and a deadline, and once the deadline has passed another
owner can claim it, under a larger token where the counters have room. -/
def Recoverable (s : Store) : Prop :=
  ∀ k row, s.replies.lookup k = some row → row.status = .sending →
    row.leaseOwner ≠ "" ∧ ∃ deadline, row.leaseExpiresAt = some deadline ∧
      ∀ now owner leaseDuration, deadline ≤ now → owner ≠ "" → owner ≠ row.leaseOwner →
        0 < leaseDuration → row.Counts 1 → ∃ row' s',
          s.claimReply now row.tenantID row.replyID row.segmentIndex owner leaseDuration =
            (.ok row', s') ∧
          s'.replies.lookup k = some row' ∧ row'.Counts 0 ∧ row.fencingToken < row'.fencingToken

/-- A call that gives every lease a deadline: a step into `sending` has a duration, or the segment
has a deadline already. -/
def Timed (s : Store) : Call → Prop
  | .transitionReply t => t.to = .sending → 0 < t.leaseDuration ∨
    ∀ row ∈ s.replies.lookup (replyKey t.tenantID t.replyID t.segmentIndex),
      row.leaseExpiresAt ≠ none
  | _ => True

instance (s : Store) (call : Call) : Decidable (Timed s call) := by
  induction call using Call.casesOn <;> unfold Timed <;> infer_instance

/-- A store whose rows stand under their keys and whose leases have owners and deadlines. -/
structure Leased (s : Store) : Prop where
  /-- Every row stands under its key. -/
  identity : ∀ k row, s.replies.lookup k = some row →
    Store.rowKey row = k ∧ row.tenantID ≠ "" ∧ row.replyID ≠ ""
  /-- Every row in `sending` has an owner. -/
  owned : Owned s
  /-- Every row in `sending` has a deadline. -/
  timed : ∀ k row, s.replies.lookup k = some row → row.status = .sending →
    row.leaseExpiresAt ≠ none

/-- A call keeps the keys of the rows. -/
theorem Acts.identity {s s' : Store} {call : Call} {v : call.Val}
    (h : Acts lib now s call v s') (hs : ∀ k row, s.replies.lookup k = some row →
      Store.rowKey row = k ∧ row.tenantID ≠ "" ∧ row.replyID ≠ "") :
    ∀ k row, s'.replies.lookup k = some row →
      Store.rowKey row = k ∧ row.tenantID ≠ "" ∧ row.replyID ≠ "" := by
  intro k row hrow
  rcases h.row hrow with hold | ⟨value, hk, hstores, rfl⟩ |
    ⟨tenantID, replyID, segment, owner, leaseDuration, value, -, hk, hclaims, rfl⟩ |
    ⟨t, value, -, hk, hmoves, rfl⟩
  · exact hs k row hold
  · exact ⟨hk, hstores.tenant_ne, hstores.reply_ne⟩
  -- A claim and a step change neither the tenant, nor the reply, nor the index.
  · exact hs k value (hk ▸ hclaims.found)
  · exact hs k value (hk ▸ hmoves.found)

/-- A call that gives every lease a deadline keeps the leases timed. -/
theorem Leased.step {s : Store} (h : Leased s) {request : Request}
    (htimed : Timed s request.call) : Leased ((server lib).answer request s).2 := by
  rcases server_spec lib request s with ⟨_, heq⟩ | ⟨v, _, heq, hacts⟩
  · rw [heq]
    exact h
  · rw [heq]
    refine ⟨hacts.identity h.identity, hacts.owned h.owned, fun k row hrow hsending => ?_⟩
    rcases hacts.row hrow with hold | ⟨value, -, -, rfl⟩ |
      ⟨tenantID, replyID, segment, owner, leaseDuration, value, -, -, -, rfl⟩ |
      ⟨t, value, hcall, -, hmoves, rfl⟩
    · exact h.timed k row hold hsending
    · cases hsending
    · exact some_ne_none _
    · have hto : t.to = .sending := hsending
      rw [hcall] at htimed
      rcases htimed hto with hpos | hdeadline
      · simp [Store.applyReplyTransition, hto, hpos]
      · have hvalue := hdeadline value hmoves.found
        simp only [Store.applyReplyTransition]
        split_ifs
        · exact some_ne_none _
        · exact hvalue

/-- Where every lease has a deadline, every segment in `sending` can be taken over. -/
theorem Leased.recoverable {s : Store} (h : Leased s) : Recoverable s := by
  intro k row hrow hsending
  obtain ⟨hk, htenant, hreply⟩ := h.identity k row hrow
  obtain ⟨deadline, hdeadline⟩ := ne_none_iff_exists'.1 (h.timed k row hrow hsending)
  refine ⟨h.owned k row hrow hsending, deadline, hdeadline, ?_⟩
  intro now owner leaseDuration hnow howner _ hpos hroom
  have hexpired : Store.leaseExpired now row = true := by
    simp [Store.leaseExpired, hsending, hdeadline, hnow]
  have hclaims : s.ClaimsReply now row.tenantID row.replyID row.segmentIndex owner leaseDuration
      row := ⟨htenant, hreply, howner, hpos, by rw [← hk] at hrow; exact hrow, .inr (.inr hexpired)⟩
  refine ⟨_, _, hclaims.eq, ?_, ?_, Int.lt_succ _⟩
  · rw [← hk]
    exact AList.lookup_insert _
  · simpa only [ReplyOutbox.Counts, Store.applyClaim, Int.add_zero] using hroom

/-- In every run whose calls give every lease a deadline and have room in the counters, the counters
are numbers of Go, and every segment in `sending` can be taken over. -/
theorem recoverable_of_timed (lib : Libraries) (requests : List Request)
    (h : ∀ st ∈ (server lib).history {} requests,
      Timed st.pre st.call.call ∧ HasRoomFor st.pre st.call.call) :
    Store.Counts ((server lib).after {} requests) ∧
      Recoverable ((server lib).after {} requests) := by
  have hleased : Store.Counts ((server lib).after {} requests) ∧
      Leased ((server lib).after {} requests) := by
    refine Server.invariant (S := server lib)
      (fun s request => Timed s request.call ∧ HasRoomFor s request.call)
      (I := fun s => Store.Counts s ∧ Leased s) ?_
      (fun s request hadm hs => ⟨hs.1.step hadm.2, hs.2.step hadm.1⟩) h
    refine ⟨⟨fun _ _ h => ?_, fun _ _ h => ?_⟩, fun _ _ h => ?_, fun _ _ h => ?_, fun _ _ h => ?_⟩ <;>
      cases h
  exact ⟨hleased.1, hleased.2.recoverable⟩

/-- The segment is in `sending`, and can be taken over again. -/
theorem recoverable_sentInTime :
    let s := (server plainLibraries).after {} sentInTime
    (∃ row ∈ s.replies.lookup (replyKey "t" "r" 0), row.status = .sending ∧ row.fencingToken = 2) ∧
      Store.Counts s ∧ Recoverable s := by
  exact ⟨by decide +kernel, recoverable_of_timed plainLibraries sentInTime (by decide +kernel)⟩

/-- The calls that put the segment into `sending` without a duration. -/
def sentWithoutDuration : List Request :=
  oneSegment ++ [⟨.live, 0, .transitionReply ⟨"t", "r", 0, .pending, .sending, "w", 0, 0, "", ""⟩⟩]

/-- The segment has no deadline: no one can take it over. -/
theorem sentWithoutDuration_stuck :
    ¬ Recoverable ((server plainLibraries).after {} sentWithoutDuration) := by
  intro h
  have hrow : ((server plainLibraries).after {} sentWithoutDuration).replies.lookup
      (replyKey "t" "r" 0) = some { oneRow with
        status := .sending, attempts := 1, fencingToken := 1, leaseOwner := "w" } := by
    decide +kernel
  obtain ⟨-, deadline, hdeadline, -⟩ := h _ _ hrow rfl
  cases hdeadline

end AgentService.Storage
