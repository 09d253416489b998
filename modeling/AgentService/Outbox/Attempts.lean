import AgentService.Concurrent.Count
import AgentService.Outbox.Delivery

/-!
# Attempts

A claim counts an attempt, and `rejectDelivery` gives a row up when its attempts have reached the
limit of the worker. A reconciliation that the provider answers with a rejection sends the row back
to its next delivery without this test, and a claim that finds a row in `sending` may deliver it
once more (`Delivery.lean`). So the limit bounds the deliveries of a segment in the runs in which
the claims find what was listed and no rejection meets a row at the limit
(`deliveries_le_maxAttempts`), and `oneTooMany` is a run without the second condition that delivers
once more.

The proof counts the claims that find the segment waiting for its delivery. Each delivery has one of
its own, and `Attempted` is the invariant that bounds them.
-/

namespace AgentService.Outbox

open Storage Platform Concurrent Store AList

variable {x : Externals}

/-- A row that waits for its delivery. -/
def Waiting (row : ReplyOutbox) : Prop := row.status = .pending ∨ row.status = .retryable

instance (row : ReplyOutbox) : Decidable (Waiting row) := inferInstanceAs (Decidable (_ ∨ _))

/-- Whether an entry delivers a segment. -/
def delivers (segment : String × String × ℤ) (e : Entry x) : Bool :=
  (delivered e).any fun row => segmentOf row = segment

/-- The number of deliveries of a segment. -/
def deliveries (segment : String × String × ℤ) (history : List (RunStep x)) : ℕ :=
  occurrences (delivers segment) history

/-- Whether an entry claims a segment that was waiting. -/
def takes (segment : String × String × ℤ) (e : Entry x) : Bool :=
  (claimFound e).any fun found => segmentOf found = segment ∧ Waiting found

/-- The row that the provider, asked to reconcile it, has rejected. -/
def rejected : Entry x → Option ReplyOutbox
  | ⟨.env (.reconcile row), .ok (.rejected, _), _, _⟩ => some row
  | _ => none

/-- A claim takes a segment when it finds it waiting. -/
theorem takes_claim {segment : String × String × ℤ} {ctx : Ctx} {tenantID replyID owner : String}
    {index leaseDuration : ℤ} {row found : ReplyOutbox} {pre post : State}
    (hfound : pre.store.replies.lookup (replyKey tenantID replyID index) = some found) :
    takes segment (⟨.store ctx (.claimReply tenantID replyID index owner leaseDuration),
      (.ok row : Except Err ReplyOutbox), pre, post⟩ : Entry x) =
      decide (segmentOf found = segment ∧ Waiting found) := by
  simp only [takes, claimFound, hfound, Option.any_some]

/-- Whenever the provider answers a reconciliation with a rejection, the row has attempts left. -/
def RejectionsBelow (m : ℕ) (history : List (RunStep x)) : Prop :=
  Throughout (fun _ st => ∀ row ∈ rejected st.entry, row.attempts < m) history

instance (m : ℕ) (history : List (RunStep x)) : Decidable (RejectionsBelow m history) :=
  inferInstanceAs (Decidable (Throughout _ _))

/-- All workers have the same limit. -/
def SameLimit (m : ℕ) (_ : Run x) : Call → Prop
  | .runOnce w => w.maxAttempts = m
  | _ => True

instance (m : ℕ) : (c : Run x) → (call : Call) → Decidable (SameLimit m c call)
  | _, .runOnce w => inferInstanceAs (Decidable (w.maxAttempts = m))
  | _, .claimInbound .. | _, .failDurable _ | _, .finishDurable .. | _, .forward ..
  | _, .dispatch .. => isTrue trivial

/-! ## The invariant -/

/-- A segment that was taken `n` times under the limit `m`: its attempts count every one of them,
and it only waits again while attempts are left. -/
def Attempted (m n : ℕ) : Option ReplyOutbox → Prop
  | none => n = 0
  | some row => (n : ℤ) ≤ row.attempts ∧ n ≤ m ∧ (Waiting row → n = 0 ∨ row.attempts < m)

variable {m n : ℕ}

/-- A segment is not taken more often than the limit. -/
theorem Attempted.le {row : Option ReplyOutbox} (h : Attempted m n row) : n ≤ m := by
  cases row with
  | none => exact h ▸ Nat.zero_le m
  | some => exact h.2.1

variable {row : ReplyOutbox}

/-- A claim counts. -/
theorem Attempted.claim (h : Attempted m n (some row)) (hm : 0 < m) (now : ℤ) (owner : String)
    (leaseDuration : ℤ) : Attempted m (n + if Waiting row then 1 else 0)
      (some (Store.applyClaim now owner leaseDuration row)) := by
  obtain ⟨_, _, hwait⟩ := h
  have hsending : ¬ Waiting (applyClaim now owner leaseDuration row) := by
    simp [Waiting, applyClaim]
  refine ⟨?_, ?_, fun hw => absurd hw hsending⟩
  · simp only [applyClaim]
    split_ifs <;> omega
  · split_ifs with hw
    · rcases hwait hw with rfl | _ <;> omega
    · omega

/-- A settlement keeps the attempts, and lets the row wait again when attempts are left. -/
theorem Attempted.settle (h : Attempted m n (some row)) (now : ℤ) {t : ReplyTransition}
    (hsending : t.to ≠ .sending) (hpending : t.to ≠ .pending)
    (hretry : t.to = .retryable → row.attempts < m) :
    Attempted m n (some (Store.applyReplyTransition now row t)) := by
  obtain ⟨hle, hlimit, -⟩ := h
  refine ⟨?_, hlimit, fun hw => .inr ?_⟩
  · simp only [applyReplyTransition, hsending, if_false]
    exact hle
  · simp only [applyReplyTransition, hsending, if_false]
    rcases hw with hw | hw
    · exact absurd hw hpending
    · exact hretry hw

/-- Where the settlement of a delivery leads. -/
theorem settlement_to (w : Worker) (row : ReplyOutbox) (answer : Except ProviderErr String) :
    (settlement w row answer).to = .sent ∨ (settlement w row answer).to = .deadLetter ∨
      ((settlement w row answer).to = .retryable ∧ row.attempts < w.maxAttempts) := by
  cases answer with
  | ok => exact .inl rfl
  | error =>
    simp only [settlement, Worker.settle, Worker.rejectedStatus]
    split_ifs with h
    · exact .inr (.inl rfl)
    · simp only [not_or] at h
      exact .inr (.inr ⟨rfl, by omega⟩)

/-- Where the settlement of a reconciliation leads. -/
theorem reconciled_to (w : Worker) (row : ReplyOutbox) (status : DeliveryStatus)
    (providerID : String) : (w.reconciled row status providerID).to = .sent ∨
      ((w.reconciled row status providerID).to = .retryable ∧ status = .rejected) := by
  unfold Worker.reconciled
  split_ifs with h
  · exact .inr ⟨rfl, h⟩
  · exact .inl rfl

section Runs

variable {m : ℕ} {s₀ : State} {c : Run x} {segment : String × String × ℤ}

/-- The key of a segment. -/
def segmentKey (segment : String × String × ℤ) : String :=
  replyKey segment.1 segment.2.1 segment.2.2

/-- The limit of a worker of the run. -/
theorem maxAttempts_eq (hc : Reachable (SameLimit m) (Run.start s₀) c) {t : ℕ} {w : Worker}
    {prog : Code x Result} (hth : c.threads t = some ⟨.runOnce w, prog⟩) : w.maxAttempts = m := by
  obtain ⟨_, -, -, hadm⟩ := hc.admitted hth
  exact hadm

/-- A key belongs to one segment. -/
theorem segmentKey_eq_iff {row : ReplyOutbox} :
    segmentKey segment = Store.rowKey row ↔ segmentOf row = segment := by
  obtain ⟨_, _, _⟩ := segment
  simp only [segmentKey, rowKey, replyKey_inj, segmentOf, Prod.mk.injEq]
  constructor <;> rintro ⟨rfl, rfl, rfl⟩ <;> exact ⟨rfl, rfl, rfl⟩

/-- The invariant survives a claim, of this segment or of another one. -/
theorem Attempted.claimReply {s : Store} (hs : s.Sound) {now : ℤ} {tenantID replyID owner : String}
    {index leaseDuration : ℤ} {found : ReplyOutbox}
    (hclaims : s.ClaimsReply now tenantID replyID index owner leaseDuration found) (hm : 0 < m)
    {n : ℕ} (h : Attempted m n (s.replies.lookup (segmentKey segment))) :
    Attempted m (n + if segmentOf found = segment ∧ Waiting found then 1 else 0)
      ((s.setReply (replyKey tenantID replyID index)
        (Store.applyClaim now owner leaseDuration found)).replies.lookup (segmentKey segment)) := by
  have hkey := (hs.rows _ _ hclaims.found).key
  by_cases hseg : segmentOf found = segment
  · have hk : segmentKey segment = replyKey tenantID replyID index := by
      rw [hkey, segmentKey_eq_iff, hseg]
    rw [hk, hclaims.found] at h
    rw [hk, setReply, lookup_insert]
    simp only [hseg, true_and]
    exact h.claim hm now owner leaseDuration
  · have hk : segmentKey segment ≠ replyKey tenantID replyID index := by
      rw [hkey]
      exact fun h => hseg (segmentKey_eq_iff.1 h)
    rw [setReply, lookup_insert_ne hk]
    simpa only [hseg, false_and, if_false, Nat.add_zero] using h

/-- The invariant survives the operations that neither claim nor settle a row. -/
theorem Attempted.other {s s' : Store} {now : ℤ} {o : StoreOp} (hchange : Change x now s o s')
    (hclaim : ∀ tenantID replyID index owner leaseDuration,
      o ≠ .claimReply tenantID replyID index owner leaseDuration)
    (hsettle : ∀ transition, o ≠ .transitionReply transition)
    (hnew : ∀ correlation values, o.Batch x correlation values →
      ∃ durable, ∀ v ∈ values, Gateway.NewSegment durable v)
    {n : ℕ} {k : String} (h : Attempted m n (s.replies.lookup k)) :
    Attempted m n (s'.replies.lookup k) := by
  rcases hchange.row k with hrow | ⟨correlation, values, v, ho, hv, -, hnone, hrow⟩ |
    ⟨_, _, _, _, _, _, ho, -⟩ | ⟨_, _, ho, -⟩
  · rw [hrow]
    exact h
  · -- A new segment was never taken.
    rw [hnone] at h
    obtain rfl : n = 0 := h
    obtain ⟨durable, hnew⟩ := hnew correlation values ho
    rw [hrow]
    exact ⟨(hnew v hv).attempts.symm.le, Nat.zero_le m, fun _ => .inl rfl⟩
  · exact absurd ho (hclaim _ _ _ _ _)
  · exact absurd ho (hsettle _)

section

variable (hc : Reachable (SameLimit m) (Run.start s₀) c)

include hc

/-- The invariant survives a settlement. -/
theorem attempted_settle (hs : s₀.store.Sound) (hbelow : RejectionsBelow m c.history) {n t : ℕ}
    {w : Worker} (hlimit : w.maxAttempts = m) {ctx : Ctx} {transition : ReplyTransition}
    {value : ReplyOutbox}
    (hissue : Issues w (log c.history t) (.store ctx (.transitionReply transition)))
    (hmoves : c.state.store.MovesReply c.state.clock transition value)
    (h : Attempted m n (some value)) :
    Attempted m n (some (Store.applyReplyTransition c.state.clock value transition)) := by
  rcases settled_row hc hs hissue hmoves with
    ⟨l, answer, pre, post, -, rfl⟩ | ⟨l, status, providerID, pre, post, hlog, -, rfl⟩
  · rcases settlement_to w value answer with hto | hto | ⟨hto, _⟩
    · exact h.settle _ (by simp [hto]) (by simp [hto]) (by simp [hto])
    · exact h.settle _ (by simp [hto]) (by simp [hto]) (by simp [hto])
    · exact h.settle _ (by simp [hto]) (by simp [hto]) fun _ => by omega
  · rcases reconciled_to w value status providerID with hto | ⟨hto, rfl⟩
    · exact h.settle _ (by simp [hto]) (by simp [hto]) (by simp [hto])
    · -- The rejection is in the history, so the row has attempts left.
      obtain ⟨h1, st, h2, hsplit, -, hentry, -⟩ := exists_of_log_eq hlog
      refine h.settle _ (by simp [hto]) (by simp [hto]) fun _ => hbelow h1 st h2 hsplit value ?_
      rw [hentry]
      rfl

/-- Throughout a run without rejections at the limit, a segment is taken within its limit. -/
theorem reachable_attempted (hs : s₀.store.Sound) (segment : String × String × ℤ)
    (hbelow : RejectionsBelow m c.history) : Attempted m (occurrences (takes segment) c.history)
      (c.state.store.replies.lookup (segmentKey segment)) := by
  revert hbelow
  refine Reachable.invariant (I := fun (s : State) h => RejectionsBelow m h →
    Attempted m (occurrences (takes segment) h) (s.store.replies.lookup (segmentKey segment)))
    ?_ ?_ (fun _ _ _ h => h) hc
  · intro _
    cases hrow : s₀.store.replies.lookup (segmentKey segment) with
    | none => rfl
    | some row => exact ⟨(hs.rows _ row hrow).attempts, Nat.zero_le m, fun _ => .inl rfl⟩
  · intro c t call o k r _ hc hth hp ih hbelow
    obtain ⟨hbelow', -⟩ := throughout_snoc.1 hbelow
    have ih := ih hbelow'
    have hsound := reachable_sound hs hc
    have hpre := reachable_pre hc hth
    rw [occurrences_snoc]
    cases o with
    | store ctx o =>
      cases o with
      | claimReply =>
        rcases performs_claimReply hp with ⟨rfl, err, rfl⟩ | ⟨found, hclaims, rfl, rfl⟩
        · exact ih
        · have hm : 0 < m := by
            cases call with
            | runOnce w =>
              have := maxAttempts_eq hc hth
              have := w.maxAttempts_pos
              omega
            | _ => exact hpre.elim
          simp only [takes_claim hclaims.found, decide_eq_true_eq]
          exact Attempted.claimReply hsound hclaims hm ih
      | transitionReply transition =>
        rcases performs_transitionReply hp with ⟨rfl, err, rfl⟩ | ⟨_, hmoves, rfl, rfl⟩
        · exact ih
        · cases call with
          | runOnce =>
            have hkey := (hsound.rows _ _ hmoves.found).key
            by_cases hk : segmentKey segment = replyKey transition.tenantID transition.replyID
                transition.segmentIndex
            · rw [hk, hmoves.found] at ih
              rw [hk]
              show Attempted m _ ((setReply _ _ _).replies.lookup _)
              rw [setReply, lookup_insert]
              exact attempted_settle hc hs hbelow' (maxAttempts_eq hc hth) hpre hmoves ih
            · show Attempted m _ ((setReply _ _ _).replies.lookup _)
              rw [setReply, lookup_insert_ne hk]
              exact ih
          | _ => exact hpre.elim
      | _ =>
        obtain ⟨store, rfl, hchange⟩ := performs_store_change hp
        exact Attempted.other hchange (by simp) (by simp) (fun _ _ => hpre.newSegments) ih
    | _ =>
      dsimp only
      rw [(performs_other (by simp) hp).1]
      exact ih

end

/-! ## The bound -/

/-- Each delivery has a claim of its own, which found the segment waiting when the claims find what
was listed. -/
theorem deliveries_le_takes (hc : Reachable (SameLimit m) (Run.start s₀) c)
    (hlisted : ClaimsAsListed c.history) (segment : String × String × ℤ) :
    deliveries segment c.history ≤ occurrences (takes segment) c.history := by
  refine occurrences_le_of_preceded fun t _ e _ hlog hdelivers => ?_
  obtain ⟨_, st, _, hsplit, rfl, rfl, hl1, -⟩ := exists_of_log_eq hlog
  obtain ⟨row, hrow, hsegment⟩ : ∃ row, delivered st.entry = some row ∧ segmentOf row = segment := by
    simpa [delivers, Option.any_eq_true] using hdelivers
  obtain ⟨w, _, found, g, st', hcl, hwaiting⟩ := waiting_of_claimsAsListed hc hlisted hsplit hrow
  obtain ⟨r, pre, post, hlog'⟩ := hcl.log_eq
  refine ⟨log g st.tid, st'.entry, correlationEntry row r pre post, ?_, ?_, ?_, rfl⟩
  · rw [← hl1, hlog']
  · rw [hcl.entry, claimEntry, takes_claim hcl.claims.found]
    simp only [← hsegment, hcl.row_eq, decide_eq_true_eq]
    exact ⟨rfl, hwaiting⟩
  · rw [hcl.entry]
    rfl

/-- Deliveries of a segment are bounded by the limit of the workers, in the runs whose claims find
what was listed and in which no rejection meets a row at the limit. -/
theorem deliveries_le_maxAttempts (hc : Reachable (SameLimit m) (Run.start s₀) c)
    (hs : s₀.store.Sound) (hlisted : ClaimsAsListed c.history)
    (hbelow : RejectionsBelow m c.history) (segment : String × String × ℤ) :
    deliveries segment c.history ≤ m :=
  (deliveries_le_takes hc hlisted segment).trans (reachable_attempted hc hs segment hbelow).le

end Runs

/-! ## Concrete runs -/

/-- The store with the one reply is well formed. -/
theorem sampleState_sound : sampleState.store.Sound := by
  -- The only row and the only event.
  have hrow : ∀ k r, sampleState.store.replies.lookup k = some r →
      k = rowKey sampleRow ∧ r = sampleRow := by
    intro k r h
    by_cases hk : k = rowKey sampleRow
    · subst hk
      rw [show sampleState.store.replies.lookup (rowKey sampleRow) = some sampleRow from
        lookup_insert _] at h
      exact ⟨rfl, (Option.some.inj h).symm⟩
    · have h' : ({} : Store).replies.lookup k = some r := (lookup_insert_ne hk).symm.trans h
      cases h'
  have hevent : ∀ k v, sampleState.store.events.lookup k = some v →
      k = key ["t", "r"] ∧ v = sampleEvent := by
    intro k v h
    by_cases hk : k = key ["t", "r"]
    · subst hk
      rw [show sampleState.store.events.lookup (key ["t", "r"]) = some sampleEvent from
        lookup_insert _] at h
      exact ⟨rfl, (Option.some.inj h).symm⟩
    · have h' : ({} : Store).events.lookup k = some v := (lookup_insert_ne hk).symm.trans h
      cases h'
  refine ⟨fun k r h => ?_, fun k r h i _ hi => ?_, fun k r h => ?_, fun k v h => ?_, fun u k h => ?_⟩
  · obtain ⟨rfl, rfl⟩ := hrow k r h
    exact ⟨rfl, by decide, by decide, by decide, by decide, by decide, by decide, by decide⟩
  · obtain ⟨rfl, rfl⟩ := hrow k r h
    obtain rfl : i = 0 := by
      simp only [sampleRow] at hi
      omega
    exact ⟨sampleRow, h, rfl, rfl⟩
  · obtain ⟨rfl, rfl⟩ := hrow k r h
    exact ⟨sampleEvent, lookup_insert _⟩
  · obtain ⟨rfl, rfl⟩ := hevent k v h
    exact ⟨rfl, by decide, by decide, by decide, by decide⟩
  · cases h

/-- The first worker delivers and is interrupted. The second one takes the row over, and the
provider rejects it; then a third one claims it and delivers it again. -/
def rejectedOnce (retries : ℕ) : List (Action (services plainExternals)) :=
  [.spawn 0 (samplePass 'a' retries), .perform 0 {}, .perform 0 {}, .perform 0 {}, .perform 0 {},
    .perform 0 {}, .move (10 : ℕ), .spawn 1 (samplePass 'b' retries), .perform 1 {},
    .perform 1 {}, .perform 1 {}, .perform 1 {}, .perform 1 {},
    .perform 1 { reconcile := .ok (.rejected, "") }, .perform 1 {},
    .spawn 2 (samplePass 'c' retries), .perform 2 {}, .perform 2 {}, .perform 2 {}, .perform 2 {},
    .perform 2 {}]

/-- The conditions hold of runs with a rejection and with several deliveries. -/
theorem deliveries_le_maxAttempts_rejectedOnce : ∃ c : Run plainExternals,
    Reachable (SameLimit 3) (Run.start sampleState) c ∧ ClaimsAsListed c.history ∧
      RejectionsBelow 3 c.history ∧ deliveries (segmentOf sampleRow) c.history = 2 ∧
      deliveries (segmentOf sampleRow) c.history ≤ 3 := by
  obtain ⟨c, hc, hlisted, hbelow, hcount⟩ := Config.exists_reachable_of_run (SameLimit 3)
    (Run.start sampleState) (rejectedOnce 2)
    (fun c => ClaimsAsListed c.history ∧ RejectionsBelow 3 c.history ∧
      deliveries (segmentOf sampleRow) c.history = 2) (by decide +kernel)
  exact ⟨c, hc, hlisted, hbelow, hcount,
    deliveries_le_maxAttempts hc sampleState_sound hlisted hbelow _⟩

/-- A segment is delivered twice by workers that make one attempt. -/
theorem oneTooMany : ∃ c : Run plainExternals,
    Reachable (SameLimit 1) (Run.start sampleState) c ∧ ClaimsAsListed c.history ∧
      deliveries (segmentOf sampleRow) c.history = 2 :=
  Config.exists_reachable_of_run (SameLimit 1) (Run.start sampleState)
    (rejectedOnce 0)
    (fun c => ClaimsAsListed c.history ∧ deliveries (segmentOf sampleRow) c.history = 2)
    (by decide +kernel)

end AgentService.Outbox
