import AgentService.Platform.Discipline

/-!
# Deliveries and claims

A worker decides between delivery and reconciliation from the row that it listed, and it claims the
row afterwards. Between the two another worker may claim the row, reach the provider, and lose its
lease. `NoBlindRedelivery` is what the outbox promises: a row is delivered under a claim that took
it while it was waiting, and a claim that took over an interrupted delivery is reconciled.

The promise is kept in every run in which the claims find what was listed (`ClaimsAsListed`,
`noBlindRedelivery_of_claimsAsListed`), and only then: `blindRedelivery` is a run of two workers in
which the second one claims a row that it listed as pending, after the first one was interrupted in
its delivery, and delivers it again.
-/

namespace AgentService.Outbox

open Storage Platform Concurrent

variable {x : Externals}

/-! ## Reading a log -/

/-- Whether an entry is a call of `ClaimReply`. -/
def isClaim : Entry x → Bool
  | ⟨.store _ (.claimReply ..), _, _, _⟩ => true
  | _ => false

/-- The segment that an entry claims: tenant, reply, and index. -/
def claimTarget : Entry x → Option (String × String × ℤ)
  | ⟨.store _ (.claimReply tenantID replyID segment _ _), _, _, _⟩ => some (tenantID, replyID, segment)
  | _ => none

/-- The row that a successful claim found. -/
def claimFound : Entry x → Option ReplyOutbox
  | ⟨.store _ (.claimReply tenantID replyID segment _ _), .ok _, pre, _⟩ =>
    pre.store.replies.lookup (replyKey tenantID replyID segment)
  | _ => none

/-- The row that a successful claim answered. -/
def claimGave : Entry x → Option ReplyOutbox
  | ⟨.store _ (.claimReply ..), .ok row, _, _⟩ => some row
  | _ => none

/-- The row that an entry delivers. -/
def delivered : Entry x → Option ReplyOutbox
  | ⟨.env (.deliver row), _, _, _⟩ => some row
  | _ => none

/-- The latest claim of a log. -/
def lastClaim (l : List (Entry x)) : Option (Entry x) := (l.filter isClaim).getLast?

/-- The segment of a row: tenant, reply, and index. -/
def segmentOf (row : ReplyOutbox) : String × String × ℤ :=
  (row.tenantID, row.replyID, row.segmentIndex)

/-! ## The claim of a delivery -/

/-- What a pass did before it reached the provider with `row`: the step `st`, after the history `g`,
claimed the row of a listed candidate, and found it as `found`. -/
structure Claimed (h : List (RunStep x)) (t : ℕ) (w : Worker) (candidate found row : ReplyOutbox)
    (g : List (RunStep x)) (st : RunStep x) : Prop where
  /-- The claim lies in the history. -/
  before : ∃ g', h = g ++ st :: g'
  /-- It belongs to the pass. -/
  tid : st.tid = t
  /-- It was answered with the row. -/
  entry : st.entry = claimEntry w candidate row st.entry.pre st.entry.post
  /-- After it the pass has only read the correlation of the row. -/
  log_eq : ∃ r pre post, log h t = log g t ++ [st.entry, correlationEntry row r pre post]
  /-- The candidate was listed. -/
  listed : candidate ∈ listing (log g t)
  /-- The row could be claimed. -/
  claims : st.entry.pre.store.ClaimsReply st.entry.pre.clock candidate.tenantID candidate.replyID
    candidate.segmentIndex w.owner w.leaseDuration found
  /-- The row is the one found, claimed. -/
  row_eq : row = Store.applyClaim st.entry.pre.clock w.owner w.leaseDuration found
  /-- The claim stored it. -/
  stored : st.entry.post.store.replies.lookup
    (replyKey candidate.tenantID candidate.replyID candidate.segmentIndex) = some row

section Claimed

variable {h g : List (RunStep x)} {t : ℕ} {w : Worker} {candidate found row : ReplyOutbox}
  {st : RunStep x}

section

variable (hcl : Claimed h t w candidate found row g st)

include hcl

/-- The claim of a row is the latest one of its pass. -/
theorem Claimed.last : lastClaim (log h t) = some st.entry := by
  obtain ⟨r, _, _, hlog⟩ := hcl.log_eq
  rw [hlog, hcl.entry]
  simp [lastClaim, isClaim, claimEntry, correlationEntry]

/-- What the claim of a row found. -/
theorem Claimed.claimFound_eq : claimFound st.entry = some found := by
  rw [hcl.entry]
  exact hcl.claims.found

/-- A claim finds a row waiting, or in `sending`. -/
theorem Claimed.status :
    found.status = .pending ∨ found.status = .retryable ∨ found.status = .sending := by
  rcases hcl.claims.claimable with h | h | h
  · exact .inl h
  · exact .inr (.inl h)
  · simp only [Store.leaseExpired, decide_eq_true_eq] at h
    exact .inr (.inr h.1)

end

end Claimed

variable {adm : Run x → Call → Prop} {s₀ : State} {c : Run x}

/-- A pass reaches the provider right after a claim: it reconciles when the candidate was in
`sending`, and delivers when it was not. -/
theorem handled_claimed (hc : Reachable adm (Run.start s₀) c) {h1 h2 : List (RunStep x)}
    {st : RunStep x} {row : ReplyOutbox} (hsplit : c.history = h1 ++ st :: h2)
    (hop : st.entry.op = .env (.deliver row) ∨ st.entry.op = .env (.reconcile row)) :
    ∃ w candidate found g st', st.call = .runOnce w ∧
      Claimed h1 st.tid w candidate found row g st' ∧
      (candidate.status = .sending ↔ st.entry.op = .env (.reconcile row)) := by
  obtain ⟨hpre, -⟩ := reachable_issued hc hsplit
  -- The discipline of a pass gives the claim in its log; it is turned into a step of the history.
  have hclaimed : ∀ w candidate l r pre post pre' post',
      log h1 st.tid = l ++ [claimEntry w candidate row pre post, correlationEntry row r pre' post'] →
      candidate ∈ listing (log h1 st.tid) →
      ∃ found g st', Claimed h1 st.tid w candidate found row g st' := by
    intro w candidate l r pre post pre' post' hlog hmem
    obtain ⟨g, st', g', rfl, htid, hentry, hl, -⟩ := exists_of_log_eq hlog
    have hne : l ≠ [] := by
      rintro rfl
      rw [hlog] at hmem
      cases hmem
    rw [hlog, listing_append hne] at hmem
    have hsplit' : c.history = g ++ st' :: (g' ++ st :: h2) := by simp [hsplit]
    obtain ⟨-, hperf⟩ := reachable_issued hc hsplit'
    obtain ⟨_, _, _⟩ := st'
    dsimp only at htid hentry hperf
    subst hentry
    rcases performs_claimReply hperf with ⟨-, _, herr⟩ | ⟨found, hclaims, hrow, hpost⟩
    · cases herr
    · have hrow : row = Store.applyClaim pre.clock w.owner w.leaseDuration found :=
        Except.ok.inj hrow
      refine ⟨found, g, _, ⟨g', rfl⟩, htid, rfl, ⟨r, pre', post', ?_⟩, ?_, hclaims, hrow, ?_⟩
      · rw [hlog, hl]
      · rw [hl]
        exact hmem
      · show post.store.replies.lookup _ = _
        rw [show post = _ from hpost, hrow]
        exact AList.lookup_insert _
  cases hcall : st.call with
  | runOnce w =>
    rw [hcall] at hpre
    rcases hop with hop | hop
    · rw [hop] at hpre
      cases hpre with
      | deliver candidate _ l pre post pre' post' r hlog hmem hstatus =>
        obtain ⟨found, g, st', hcl⟩ := hclaimed w candidate l r pre post pre' post' hlog hmem
        exact ⟨w, candidate, found, g, st', rfl, hcl, by simp [hop, hstatus]⟩
    · rw [hop] at hpre
      cases hpre with
      | reconcile candidate _ l pre post pre' post' r hlog hmem hstatus =>
        obtain ⟨found, g, st', hcl⟩ := hclaimed w candidate l r pre post pre' post' hlog hmem
        exact ⟨w, candidate, found, g, st', rfl, hcl, by simp [hop, hstatus]⟩
  | _ =>
    rw [hcall] at hpre
    rcases hop with hop | hop <;> rw [hop] at hpre <;> exact hpre.elim

/-! ## The settlement of a delivery -/

section Settlement

variable {h g h' : List (RunStep x)} {t : ℕ} {w : Worker} {candidate found row : ReplyOutbox}
  {st : RunStep x}

/-- A claimed row has a token, and it stands under its key until its token changes. -/
theorem Claimed.current (hcl : Claimed h t w candidate found row g st)
    (hc : Reachable adm (Run.start s₀) c) (hs : s₀.store.Sound) (hh : c.history = h ++ h') :
    row.fencingToken ≠ 0 ∧ ∀ value, c.state.store.replies.lookup (Store.rowKey row) = some value →
      value.fencingToken = row.fencingToken → value = row := by
  obtain ⟨_, rfl⟩ := hcl.before
  have hmem : st ∈ c.history := by simp [hh]
  obtain ⟨hpre, hpost⟩ := reachable_sound_step hs hc hmem
  refine ⟨?_, fun value hvalue htoken => ?_⟩
  · have htoken := (hpre.rows _ _ hcl.claims.found).fencingToken
    rw [hcl.row_eq]
    simp only [Store.applyClaim]
    omega
  · have hkey := (hpost.rows _ _ hcl.stored).key
    have hlater := ((reachable_evolves hc).2.1 st hmem).2.2.store
    obtain ⟨_, hvalue', hevolves⟩ := hlater.replies _ row hcl.stored
    rw [hkey, hvalue] at hvalue'
    cases hvalue'
    exact hevolves.eq_of_token htoken

/-- A settlement that is made moves the row that was claimed, and nothing has touched it since. -/
theorem settled_row (hc : Reachable adm (Run.start s₀) c) (hs : s₀.store.Sound) {ctx : Ctx}
    {transition : ReplyTransition} {value : ReplyOutbox}
    (hissue : Issues w (log c.history t) (.store ctx (.transitionReply transition)))
    (hmoves : c.state.store.MovesReply c.state.clock transition value) :
    (∃ l answer pre post, log c.history t = l ++ [deliverEntry value answer pre post] ∧
      transition = settlement w value answer) ∨
    ∃ l status providerID pre post,
      log c.history t = l ++ [reconcileEntry value (.ok (status, providerID)) pre post] ∧
      status ≠ .unknown ∧ transition = w.reconciled value status providerID := by
  -- Both kinds of settlement carry the token of the claimed row.
  have hrow : ∀ row l (e : Entry x), log c.history t = l ++ [e] →
      (e.op = .env (.deliver row) ∨ e.op = .env (.reconcile row)) →
      transition.tenantID = row.tenantID → transition.replyID = row.replyID →
      transition.segmentIndex = row.segmentIndex →
      transition.fencingToken = row.fencingToken → row = value := by
    intro row l e hlog hop htenant hreply hindex htoken
    obtain ⟨_, _, _, hsplit, -, hentry, -⟩ := exists_of_log_eq hlog
    rw [← hentry] at hop
    obtain ⟨_, _, found, g, _, -, hcl, -⟩ := handled_claimed hc hsplit hop
    obtain ⟨hne, hcurrent⟩ := hcl.current hc hs hsplit
    refine (hcurrent value ?_ ?_).symm
    · have hfound := hmoves.found
      rwa [htenant, hreply, hindex] at hfound
    · rcases hmoves.token with hzero | heq
      · exact absurd (htoken.symm.trans hzero) hne
      · exact heq.trans htoken
  cases hissue with
  | settle row answer l pre post hlog =>
    obtain rfl : row = value := by
      refine hrow row l _ hlog (.inl rfl) ?_ ?_ ?_ ?_ <;> cases answer <;> rfl
    exact .inl ⟨l, answer, pre, post, hlog, rfl⟩
  | reconciled row status providerID l pre post hlog hstatus =>
    obtain rfl : row = value := by
      refine hrow row l _ hlog (.inr rfl) ?_ ?_ ?_ ?_ <;> unfold Worker.reconciled <;> split <;> rfl
    exact .inr ⟨l, status, providerID, pre, post, hlog, hstatus, rfl⟩

end Settlement

/-! ## The promise -/

/-- Every delivery of a run is made under a claim that found the row pending or retryable, and never
under a claim that took over an interrupted delivery. -/
structure NoBlindRedelivery (history : List (RunStep x)) : Prop where
  /-- The latest claim before a delivery answered its row and found it waiting. -/
  fresh : Throughout (fun before st => ∀ row ∈ delivered st.entry,
    ∃ e ∈ lastClaim (log before st.tid), claimGave e = some row ∧
      ∃ found ∈ claimFound e, found.status = .pending ∨ found.status = .retryable) history
  /-- The latest claim before a delivery did not find the row in `sending`. -/
  takeover : Throughout (fun before st => ∀ _row ∈ delivered st.entry,
    ∀ e ∈ lastClaim (log before st.tid), ∀ found ∈ claimFound e, found.status ≠ .sending) history

instance (history : List (RunStep x)) : Decidable (NoBlindRedelivery history) :=
  decidable_of_iff (Throughout _ history ∧ Throughout _ history)
    ⟨fun h => ⟨h.1, h.2⟩, fun h => ⟨h.1, h.2⟩⟩

/-- Whenever a claim finds a row in `sending`, the worker had listed this row in `sending`. -/
def ClaimsAsListed (history : List (RunStep x)) : Prop :=
  Throughout (fun before st => ∀ found ∈ claimFound st.entry, found.status = .sending →
    ∀ candidate ∈ listing (log before st.tid),
      claimTarget st.entry = some (segmentOf candidate) → candidate.status = .sending) history

instance (history : List (RunStep x)) : Decidable (ClaimsAsListed history) :=
  inferInstanceAs (Decidable (Throughout _ _))

/-- An entry that delivers a row is the delivery of this row. -/
theorem op_of_delivered {e : Entry x} {row : ReplyOutbox} (h : delivered e = some row) :
    e.op = .env (.deliver row) := by
  unfold delivered at h
  split at h
  · cases h
    rfl
  · cases h

/-- When the claims find what was listed, a delivery is made under a claim that found the row
waiting. -/
theorem waiting_of_claimsAsListed (hc : Reachable adm (Run.start s₀) c)
    (hlisted : ClaimsAsListed c.history) {h1 h2 : List (RunStep x)} {st : RunStep x}
    {row : ReplyOutbox} (hsplit : c.history = h1 ++ st :: h2)
    (hrow : delivered st.entry = some row) :
    ∃ w candidate found g st', Claimed h1 st.tid w candidate found row g st' ∧
      (found.status = .pending ∨ found.status = .retryable) := by
  have hop := op_of_delivered hrow
  obtain ⟨w, candidate, found, g, st', -, hcl, hstatus⟩ := handled_claimed hc hsplit (.inl hop)
  refine ⟨w, candidate, found, g, st', hcl, ?_⟩
  rcases hcl.status with h | h | h
  · exact .inl h
  · exact .inr h
  · -- The claim found the row in `sending`, so the worker had listed it so.
    obtain ⟨g', rfl⟩ := hcl.before
    have hsplit' : c.history = g ++ st' :: (g' ++ st :: h2) := by simp [hsplit]
    have hsending := hlisted g st' _ hsplit' found hcl.claimFound_eq h candidate
      (by rw [hcl.tid]; exact hcl.listed) (by rw [hcl.entry]; rfl)
    have hrec := hstatus.1 hsending
    rw [hop] at hrec
    cases hrec

/-- The outbox never redelivers blindly in the runs whose claims find what was listed. -/
theorem noBlindRedelivery_of_claimsAsListed (hc : Reachable adm (Run.start s₀) c)
    (hlisted : ClaimsAsListed c.history) : NoBlindRedelivery c.history := by
  constructor
  · intro h1 st h2 hsplit row hrow
    obtain ⟨w, candidate, found, g, st', hcl, hstatus⟩ :=
      waiting_of_claimsAsListed hc hlisted hsplit hrow
    refine ⟨st'.entry, hcl.last, ?_, found, hcl.claimFound_eq, hstatus⟩
    rw [hcl.entry]
    rfl
  · intro h1 st h2 hsplit row hrow e he found hf
    obtain ⟨w, candidate, found', g, st', hcl, hstatus⟩ :=
      waiting_of_claimsAsListed hc hlisted hsplit hrow
    rw [hcl.last] at he
    cases he
    rw [hcl.claimFound_eq] at hf
    cases hf
    rcases hstatus with h | h <;> simp [h]

/-! ## Concrete runs -/

/-- A worker of the tenant `t` with a name of one letter, a lease of ten nanoseconds, and without
an audit writer. -/
def sampleWorker (owner : Char) (retries : ℕ) : Worker where
  tenantID := "t"
  owner := String.singleton owner
  leaseDuration := 10
  maxAttempts := retries + 1
  backoffBase := 1
  retryDelay := fun _ => 0
  auditWriter := none
  tenantID_ne := by decide
  owner_ne := by simp
  leaseDuration_pos := by decide
  maxAttempts_pos := by omega
  backoffBase_pos := by decide

/-- A message whose execution is over. -/
def sampleEvent : MessageEvent :=
  { tenantID := "t", eventID := "r", sessionID := "s", bindingID := "b", externalMessageID := "m",
    idempotencyKey := "m", eventSeq := 2, status := .completed, fencingToken := 2, replyTarget := {},
    replyID := "r", segmentCount := 1, createdAt := 1, updatedAt := 1 }

/-- The only segment of its reply, waiting for its delivery. -/
def sampleRow : ReplyOutbox :=
  { tenantID := "t", replyID := "r", eventID := "r", segmentIndex := 0, segmentCount := 1,
    payload := "hi", replyTarget := {}, status := .pending }

/-- A store with one reply of one segment. -/
def sampleState : State where
  clock := 1
  store := (({} : Store).setEvent (key ["t", "r"]) sampleEvent).setReply
    (Store.rowKey sampleRow) sampleRow

/-- A pass of the worker `owner`. -/
def samplePass (owner : Char) (retries : ℕ) : Call := .runOnce (sampleWorker owner retries)

/-- The first worker delivers and is interrupted. The second one lists the row in `sending`, claims
it after the end of the lease, and reconciles it. -/
def takenOver : List (Action (services plainExternals)) :=
  [.spawn 0 (samplePass 'a' 0), .perform 0 {}, .perform 0 {}, .perform 0 {},
    .perform 0 {}, .perform 0 {}, .move (10 : ℕ), .spawn 1 (samplePass 'b' 0),
    .perform 1 {}, .perform 1 {}, .perform 1 {}, .perform 1 {}, .perform 1 {}, .perform 1 {}]

/-- The condition holds of runs with deliveries and takeovers. -/
theorem noBlindRedelivery_takenOver : ∃ c : Run plainExternals,
    Reachable WorkersOnly (Run.start sampleState) c ∧ c.history.length = 11 ∧
      ClaimsAsListed c.history ∧ NoBlindRedelivery c.history := by
  obtain ⟨c, hc, hlength, hlisted⟩ := Config.exists_reachable_of_run WorkersOnly
    (Run.start sampleState) takenOver
    (fun c => c.history.length = 11 ∧ ClaimsAsListed c.history) (by decide +kernel)
  exact ⟨c, hc, hlength, hlisted, noBlindRedelivery_of_claimsAsListed hc hlisted⟩

/-- The second worker lists the row as pending. The first one claims it, and its lease ends; then
the second one claims the row, which is in `sending`, and delivers it. -/
def overtaken : List (Action (services plainExternals)) :=
  [.spawn 0 (samplePass 'a' 0), .spawn 1 (samplePass 'b' 0), .perform 1 {},
    .perform 0 {}, .perform 0 {}, .perform 0 {}, .perform 0 {}, .perform 0 {}, .move (10 : ℕ),
    .perform 1 {}, .perform 1 {}, .perform 1 {}, .perform 1 {}]

/-- A row that was claimed and delivered once is delivered again without reconciliation. -/
theorem blindRedelivery : ∃ c : Run plainExternals,
    Reachable WorkersOnly (Run.start sampleState) c ∧ ¬ NoBlindRedelivery c.history :=
  Config.exists_reachable_of_run WorkersOnly (Run.start sampleState) overtaken
    (fun c => ¬ NoBlindRedelivery c.history) (by decide +kernel)

end AgentService.Outbox
