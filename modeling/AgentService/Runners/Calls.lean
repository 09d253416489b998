import AgentService.Concurrent.Server
import AgentService.Runners.Registry

/-!
# Calls on the runner registry

Any number of calls of `Acquire`, `Release`, `Invalidate`, `InvalidateMatching`, and `Close` on one
registry. A call goes through the phases of `Phase`, with one step for each section under the mutex
and one for each thing that it does outside of it: a `Close` of a runner, the factory, a `select`.
An event is the start of a call, or a step of a call together with what is not up to the registry. A
run of the registry is a list of events in any order (`registry`).

What a step can do is said once, by `Act`, and `next_spec` says that a step does nothing else. A
call owns three kinds of things, which the invariants speak about: the entries that it is going to
close (`toClose`), the build for which it is going to take the mutex again (`token`), and the
closing of the registry (`closer`).
-/

namespace AgentService.Runners

open Concurrent List

variable {K : Type} [DecidableEq K]

/-! ## What a call owns -/

/-- The entries that a call is going to close. -/
def Phase.toClose : Phase K → List ℕ
  | .evicting _ toClose _ | .closingAll toClose | .closingIdle toClose .. => toClose
  | .rejecting _ e _ | .closingLease _ e | .closingOne e => [e]
  | .called .. | .acquiring .. | .awaiting .. | .building .. | .built .. | .leased .. | .releasing ..
  | .released .. | .invalidating .. | .matching .. | .closing | .awaitingBuilds ..
  | .awaitingLeases .. | .finishing .. | .awaitingClose | .returned .. => []

/-- The build that a call is going to finish, with its key. -/
def Phase.token : Phase K → Option (K × ℕ)
  | .evicting key _ (some b) | .building key b | .built key b _ => some (key, b)
  | .evicting _ _ none | .called .. | .acquiring .. | .awaiting .. | .rejecting .. | .leased ..
  | .releasing .. | .closingLease .. | .released .. | .invalidating .. | .closingOne ..
  | .matching .. | .closingAll .. | .closing | .closingIdle .. | .awaitingBuilds ..
  | .awaitingLeases .. | .finishing .. | .awaitingClose | .returned .. => none

/-- Whether a call is the one that closes the registry. -/
def Phase.closer : Phase K → Bool
  | .closingIdle .. | .awaitingBuilds .. | .awaitingLeases .. | .finishing .. => true
  | .called .. | .acquiring .. | .awaiting .. | .evicting .. | .building .. | .built ..
  | .rejecting .. | .leased .. | .releasing .. | .closingLease .. | .released .. | .invalidating ..
  | .closingOne .. | .matching .. | .closingAll .. | .closing | .awaitingClose
  | .returned .. => false

/-- The lease that a call of `Release` is for. -/
def Phase.releases : Phase K → Option ℕ
  | .releasing l => some l
  | _ => none

/-- The lease that `Acquire` has returned, with its key. -/
def Phase.lease : Phase K → Option (K × ℕ)
  | .leased key l => some (key, l)
  | _ => none

/-- The build whose factory call has returned to a call. -/
def Phase.made : Phase K → Option ℕ
  | .built _ b _ => some b
  | _ => none

/-- Whether a call has returned. -/
def Phase.isReturned : Phase K → Bool
  | .leased .. | .returned .. => true
  | _ => false

/-! ## Steps -/

namespace Registry

/-- The checks of `Acquire` before its loop. -/
def checkAcquire (choice : Choice K) (key : Option K) : Phase K :=
  match choice.context with
  | .nil => .returned (some .invalid)
  | .done cause => .returned (some (.ctx cause))
  | .live =>
    match key with
    | none => .returned (some .invalid)
    | some key => .acquiring key

/-- `waitForRunnerBuild`, where `late` says which case a `select` takes that could take both. -/
def waitForRunnerBuild (r : Registry K) (choice : Choice K) (key : K) (b : ℕ) : Phase K :=
  match r.chanClosed (.done b) && !choice.late, contextErr choice.context with
  | true, none => .acquiring key
  | false, none => .awaiting key b
  | _, some err => .returned (some err)

/-- Whether the channel `zero` of an entry is closed. -/
def zeroClosed (r : Registry K) (e : ℕ) : Bool :=
  (r.entry e).zero.any fun generation => r.chanClosed (.zero e generation)

/-- How `InvalidateMatching` goes on after it has closed an entry. -/
def afterClose (rest : List ℕ) : Option Err → Phase K
  | some err => .returned (some err)
  | none => .closingAll rest

/-- One step of a call. -/
def next (r : Registry K) (choice : Choice K) : Phase K → Phase K × Registry K
  | .called key => (checkAcquire choice key, r)
  | .acquiring key => r.acquireOnce choice key
  | .awaiting key b => (r.waitForRunnerBuild choice key b, r)
  | .evicting key (e :: toClose) build =>
    (.evicting key toClose build, r.closeEntry choice.closeErr e)
  | .evicting _ [] none => (.returned (some .capacity), r)
  | .evicting key [] (some b) => (.building key b, r)
  | .building key b => r.factory choice key b
  | .built key b err => r.finishRunnerBuild choice key b err
  | .rejecting key e err => (retry choice key err, r.closeEntry choice.closeErr e)
  | .leased key l => (.leased key l, r)
  | .releasing l => r.release choice.now l
  | .closingLease l e =>
    (.released l ((r.closeEntry choice.closeErr e).closeResult e), r.closeEntry choice.closeErr e)
  | .released l err =>
    (.returned err, { r with leaseErr := Function.update r.leaseErr l (some err) })
  | .invalidating key => r.invalidate key
  | .closingOne e =>
    (.returned ((r.closeEntry choice.closeErr e).closeResult e), r.closeEntry choice.closeErr e)
  | .matching predicate => r.invalidateMatching choice predicate
  | .closingAll [] => (.returned none, r)
  | .closingAll (e :: rest) =>
    (afterClose rest ((r.closeEntry choice.closeErr e).closeResult e),
      r.closeEntry choice.closeErr e)
  | .closing => r.startClose choice
  | .closingIdle (e :: rest) pending waitEntries err =>
    (.closingIdle rest pending waitEntries
        (err || ((r.closeEntry choice.closeErr e).closeResult e).isSome),
      r.closeEntry choice.closeErr e)
  | .closingIdle [] pending waitEntries err => (.awaitingBuilds pending waitEntries err, r)
  | .awaitingBuilds [] waitEntries err => (.awaitingLeases waitEntries err, r)
  | .awaitingBuilds (b :: pending) waitEntries err =>
    if choice.late then (.finishing true err, r)
    else if r.chanClosed (.done b) then (.awaitingBuilds pending waitEntries err, r)
    else (.awaitingBuilds (b :: pending) waitEntries err, r)
  | .awaitingLeases [] err => (.finishing false err, r)
  | .awaitingLeases (e :: waitEntries) err =>
    if choice.late then (.finishing true err, r)
    else if r.zeroClosed e then
      (.awaitingLeases waitEntries
          (err || ((r.closeEntry choice.closeErr e).closeResult e).isSome),
        r.closeEntry choice.closeErr e)
    else (.awaitingLeases (e :: waitEntries) err, r)
  | .finishing timedOut err =>
    (.returned (r.finishClose timedOut err).closeErr, r.finishClose timedOut err)
  | .awaitingClose =>
    (if r.chanClosed .closeDone then .returned r.closeErr else .awaitingClose, r)
  | .returned err => (.returned err, r)

end Registry

/-- A call that can be made. -/
inductive Op (K : Type) where
  /-- `Acquire`, with what `plan.CacheKey()` returns. -/
  | acquire (key : Option K)
  /-- `Release` of a lease. -/
  | release (lease : ℕ)
  | invalidate (key : K)
  /-- `InvalidateMatching`, also without a predicate. -/
  | invalidateMatching (predicate : Option (K → Bool))
  | close

/-- Where a call starts. -/
def Op.start : Op K → Phase K
  | .acquire key => .called key
  | .release l => .releasing l
  | .invalidate key => .invalidating key
  | .invalidateMatching (some predicate) => .matching predicate
  | .invalidateMatching none => .returned (some .invalid)
  | .close => .closing

/-- A registry and the calls on it. -/
structure System (K : Type) where
  registry : Registry K
  /-- The calls by their numbers. -/
  phase : ℕ → Phase K := fun _ => .returned none
  callCount : ℕ := 0

/-- What can happen. -/
inductive Event (K : Type) where
  /-- A call starts. -/
  | call (op : Op K)
  /-- A call goes on. -/
  | step (i : ℕ) (choice : Choice K)

namespace System

/-- A call can be made of a lease that `Acquire` has returned. -/
def canCall (s : System K) : Op K → Bool
  | .release l => l < s.registry.leaseCount
  | _ => true

/-- A call goes on to a phase, and leaves a registry. -/
def goes (s : System K) (i : ℕ) (phase : Phase K) (registry : Registry K) : System K :=
  { s with registry := registry, phase := Function.update s.phase i phase }

/-- What an event does. -/
def next (s : System K) : Event K → System K
  | .call op =>
    if s.canCall op then
      { s with
        phase := Function.update s.phase s.callCount op.start
        callCount := s.callCount + 1 }
    else s
  | .step i choice =>
    s.goes i (s.registry.next choice (s.phase i)).1 (s.registry.next choice (s.phase i)).2

/-- The start of a call leaves the registry alone. -/
theorem registry_next_call (s : System K) (op : Op K) :
    (s.next (.call op)).registry = s.registry := by
  rw [next]
  split_ifs <;> rfl

end System

/-- A new registry, with the limits that `NewRunnerRegistry` has checked or filled in. -/
def initial (K : Type) (maxEntries : ℕ) (idleTTL : ℤ) : System K :=
  { registry := { maxEntries := maxEntries, idleTTL := idleTTL } }

/-- The registry with its calls. -/
abbrev registry (K : Type) [DecidableEq K] : Server (Event K) where
  State := System K
  Res _ := Unit
  answer event s := ((), s.next event)

/-! ## What a step does -/

/-- A phase in which a call owns nothing. -/
structure Phase.Quiet (phase : Phase K) : Prop where
  toClose : phase.toClose = []
  token : phase.token = none
  closer : phase.closer = false
  releases : phase.releases = none
  lease : phase.lease = none
  made : phase.made = none

/-- What a call owns beyond the entries that it is going to close stays its own. -/
structure Phase.Keeps (phase phase' : Phase K) : Prop where
  token : phase'.token = phase.token
  closer : phase'.closer = phase.closer
  releases : ∀ l, phase'.releases = some l → phase.releases = some l
  lease : phase'.lease = phase.lease
  made : phase'.made = phase.made

/-- What evictions do: they take idle entries out of the map, and collect what they take. -/
inductive Evicts : Registry K → List ℕ → Registry K → Prop
  /-- Nothing is evicted. -/
  | nothing {r} : Evicts r [] r
  /-- A loop evicts some entries, and then more are evicted. -/
  | more {r toClose rest r'} (gone : K → ℕ → Bool)
    (htoClose : ∀ e, e ∈ toClose ↔ ∃ key, r.entries.lookup key = some e ∧ gone key e = true)
    (hidle : ∀ key e, r.entries.lookup key = some e → gone key e = true → (r.entry e).refs = 0)
    (hrest : Evicts (r.retire gone) rest r') :
    Evicts r (toClose ++ rest) r'

/-- Everything that a step of a call can do. -/
inductive Act : Registry K → Phase K → Phase K → Registry K → Prop
  /-- The call goes on and changes nothing. -/
  | stays {r phase phase'} (hkeeps : phase.Keeps phase') (htoClose : phase'.toClose = phase.toClose) :
    Act r phase phase' r
  /-- The call sets `lease.err`. -/
  | stored {r l err leaseErr} :
    Act r (.released l err) (.returned err) { r with leaseErr := leaseErr }
  /-- The call closes an entry: one that it is going to close, or one that has been released. Only
  `InvalidateMatching` does not go on when that fails. -/
  | closes {r phase phase'} (closeErr : Bool) (e : ℕ) (hkeeps : phase.Keeps phase')
    (hclosable : e ∈ phase.toClose ∨ r.zeroClosed e = true)
    (hsub : ∀ e' ∈ phase'.toClose, e' ∈ phase.toClose)
    (hrest : ∀ e' ∈ phase.toClose, e' = e ∨ e' ∈ phase'.toClose ∨
      ∃ rest, phase = .closingAll (e :: rest) ∧ e' ∈ rest ∧
        (r.closeEntry closeErr e).closeResult e ≠ none) :
    Act r phase phase' (r.closeEntry closeErr e)
  /-- `acquireOnce` lends an entry. -/
  | retained {r key e} (now : ℤ) (hclosed : r.closed = false)
    (hentry : r.entries.lookup key = some e) :
    Act r (.acquiring key) (.leased key r.leaseCount) ((r.retainLocked now e).lend e)
  /-- `acquireOnce` finds no room. -/
  | evicted {r r' key toClose} (hevicts : Evicts r toClose r') :
    Act r (.acquiring key) (.evicting key toClose none) r'
  /-- `acquireOnce` starts a build. -/
  | registered {r r' key toClose} (hevicts : Evicts r toClose r')
    (hentry : ∀ e, r.entries.lookup key = some e → (r.entry e).invalidated = true)
    (hpending : r.pending.lookup key = none) (hroom : r'.slotCountLocked < r'.maxEntries) :
    Act r (.acquiring key) (.evicting key toClose (some r'.buildCount)) (r'.register key)
  /-- The factory returns. -/
  | made {r key b err} (returned : Bool) :
    Act r (.building key b) (.built key b err)
      { r with build := Function.update r.build b { r.build b with returned := returned } }
  /-- `finishRunnerBuild` keeps the runner. -/
  | published {r key b err} (now : ℤ) (hclosed : r.closed = false)
    (hbuild : (r.build b).invalidated = false) :
    Act r (.built key b err) (.leased key r.leaseCount) (r.publish now key b)
  /-- `finishRunnerBuild` does not keep the runner. -/
  | rejected {r key b err err'} :
    Act r (.built key b err) (.rejecting key r.entryCount err')
      ((r.abandon key b).allocate { runner := b })
  /-- `finishRunnerBuild` has no runner. -/
  | abandoned {r key b err phase'} (hbuild : (r.build b).returned = false) (hquiet : phase'.Quiet) :
    Act r (.built key b err) phase' (r.abandon key b)
  /-- `Invalidate` finds no entry. -/
  | flagged {r key} (hentry : r.entries.lookup key = none) :
    Act r (.invalidating key) (.returned none) (r.flag fun waiting => waiting = key)
  /-- `Invalidate` and `InvalidateMatching` take entries out of the map. -/
  | invalidated {r phase phase'} (which : K → Bool)
    (hphase : phase = .matching which ∨
      ∃ key, phase = .invalidating key ∧ which = fun stored => decide (stored = key))
    (htoken : phase'.token = none) (hcloser : phase'.closer = false)
    (hreleases : phase'.releases = none) (hlease : phase'.lease = none)
    (htoClose : ∀ e, e ∈ phase'.toClose ↔
      (r.entry e).refs = 0 ∧ ∃ key, r.entries.lookup key = some e ∧ which key = true) :
    Act r phase phase' ((r.flag which).retire fun key _ => which key)
  /-- `Close` takes all entries out of the map. -/
  | closeStarted {r toClose pending waitEntries err} (hstarted : r.closeStarted = false)
    (htoClose : ∀ e, e ∈ toClose ↔ (r.entry e).refs = 0 ∧ ∃ key, r.entries.lookup key = some e) :
    Act r .closing (.closingIdle toClose pending waitEntries err)
      ((Registry.flag { r with closeStarted := true, closed := true } fun _ => true).retire
        fun _ _ => true)
  /-- `Release` runs. -/
  | released {r l} (now : ℤ) (honce : (r.lease l).once = false) :
    Act r (.releasing l) ((r.takeOnce l).releaseEntry now l (r.lease l).entry).1
      ((r.takeOnce l).releaseEntry now l (r.lease l).entry).2
  /-- `Close` is done. -/
  | closeFinished {r timedOut err} :
    Act r (.finishing timedOut err) (.returned (r.finishClose timedOut err).closeErr)
      (r.finishClose timedOut err)

/-- A call that owns nothing goes on. -/
theorem Act.of_quiet {r : Registry K} {phase phase' : Phase K} (h : phase.Quiet)
    (h' : phase'.Quiet) : Act r phase phase' r := by
  refine .stays ⟨?_, ?_, ?_, ?_, ?_⟩ ?_
  · rw [h.token, h'.token]
  · rw [h.closer, h'.closer]
  · intro l hl
    rw [h'.releases] at hl
    cases hl
  · rw [h.lease, h'.lease]
  · rw [h.made, h'.made]
  · rw [h.toClose, h'.toClose]

namespace Registry

/-- What a loop over the entries collects. -/
theorem mem_collect {r : Registry K} {order : List K} {which : K → ℕ → Bool} {e : ℕ} :
    e ∈ r.collect order which ↔ ∃ key, r.entries.lookup key = some e ∧ which key e = true := by
  simp only [collect, mem_map, mem_filter, Sigma.exists]
  constructor
  · rintro ⟨key, _, ⟨hmem, hwhich⟩, rfl⟩
    exact ⟨key, Go.mem_visit.1 hmem, hwhich⟩
  · rintro ⟨key, hkey, hwhich⟩
    exact ⟨key, e, ⟨Go.mem_visit.2 hkey, hwhich⟩, rfl⟩

variable (r : Registry K) (choice : Choice K) (key : K)

omit [DecidableEq K] in
/-- Before its loop, `Acquire` owns nothing. -/
theorem checkAcquire_quiet (key : Option K) : (checkAcquire choice key).Quiet := by
  unfold checkAcquire
  cases choice.context with
  | nil => exact ⟨rfl, rfl, rfl, rfl, rfl, rfl⟩
  | done => exact ⟨rfl, rfl, rfl, rfl, rfl, rfl⟩
  | live => cases key <;> exact ⟨rfl, rfl, rfl, rfl, rfl, rfl⟩

omit [DecidableEq K] in
/-- While it waits for a build of another call, `Acquire` owns nothing. -/
theorem waitForRunnerBuild_quiet (b : ℕ) : (r.waitForRunnerBuild choice key b).Quiet := by
  unfold waitForRunnerBuild
  split <;> exact ⟨rfl, rfl, rfl, rfl, rfl, rfl⟩

omit [DecidableEq K] in
/-- After an error of a build, a call owns nothing. -/
theorem retry_quiet (err : Err) : (retry choice key err).Quiet := by
  unfold retry
  split_ifs
  · cases contextErr choice.context with
    | none => exact ⟨rfl, rfl, rfl, rfl, rfl, rfl⟩
    | some => exact ⟨rfl, rfl, rfl, rfl, rfl, rfl⟩
  · exact ⟨rfl, rfl, rfl, rfl, rfl, rfl⟩

omit [DecidableEq K] in
/-- The loop of `evictCapacityLocked` finds an idle entry. -/
theorem foldl_older (l : List (Sigma fun _ : K => ℕ)) (first : Option (Sigma fun _ : K => ℕ))
    {found : Sigma fun _ : K => ℕ} (h : l.foldl r.older first = some found) :
    first = some found ∨ found ∈ l ∧ (r.entry found.2).refs = 0 := by
  induction l generalizing first with
  | nil => exact .inl h
  | cons next l ih =>
    rw [foldl_cons] at h
    rcases ih _ h with hnext | ⟨hmem, hrefs⟩
    · unfold older at hnext
      split_ifs at hnext with hrefs
      · exact .inl hnext
      · have hidle : (r.entry next.2).refs = 0 := by simpa using hrefs
        cases first with
        | none =>
          cases hnext
          exact .inr ⟨mem_cons_self, hidle⟩
        | some =>
          dsimp only at hnext
          split_ifs at hnext with holder
          · cases hnext
            exact .inr ⟨mem_cons_self, hidle⟩
          · exact .inl hnext
    · exact .inr ⟨mem_cons_of_mem _ hmem, hrefs⟩

/-- `evictCapacityLocked`. -/
theorem evictCapacityLocked_spec (order : List K) :
    Evicts r (r.evictCapacityLocked order).1 (r.evictCapacityLocked order).2 := by
  unfold evictCapacityLocked
  cases hfound : r.oldest order with
  | none => exact .nothing
  | some found =>
    obtain ⟨key, e⟩ := found
    have hfound' := (r.foldl_older _ _ hfound).resolve_left nofun
    have hkey := Go.mem_visit.1 hfound'.1
    have honly : ∀ e', r.entries.lookup key = some e' ↔ e' = e := by
      intro e'
      rw [hkey, Option.some.injEq]
      exact eq_comm
    have hone : Evicts r ([e] ++ []) (r.retire fun stored _ => decide (stored = key)) := by
      refine .more _ ?_ ?_ .nothing
      · intro e'
        simp only [mem_singleton, decide_eq_true_eq, exists_eq_right, honly]
      · intro _ e' hkey' hgone
        rw [of_decide_eq_true hgone] at hkey'
        rw [(honly e').1 hkey']
        exact hfound'.2
    exact hone

/-- The evictions of `acquireOnce`. -/
theorem evict_spec : Evicts r (r.evict choice).1 (r.evict choice).2 := by
  have hidle : ∀ {rest r'}, Evicts (r.evictIdleLocked choice.now) rest r' →
      Evicts r (r.idleEntries choice.order choice.now ++ rest) r' := by
    intro rest r' hrest
    refine .more _ (fun e => mem_collect) (fun _ e _ hgone => ?_) hrest
    simp only [isIdle, Bool.and_eq_true, decide_eq_true_eq] at hgone
    exact hgone.1.2
  unfold evict
  dsimp only
  split_ifs
  · exact hidle (evictCapacityLocked_spec _ _)
  · have hnone := hidle .nothing
    rwa [append_nil] at hnone

/-- `acquireOnce`, when there is no entry. -/
theorem acquireMissing_spec
    (hentry : ∀ e, r.entries.lookup key = some e → (r.entry e).invalidated = true) :
    Act r (.acquiring key) (r.acquireMissing choice key).1 (r.acquireMissing choice key).2 := by
  unfold acquireMissing
  cases hpending : r.pending.lookup key with
  | some => exact .of_quiet ⟨rfl, rfl, rfl, rfl, rfl, rfl⟩ ⟨rfl, rfl, rfl, rfl, rfl, rfl⟩
  | none =>
    unfold startBuild
    by_cases hfull : (r.evict choice).2.maxEntries ≤ (r.evict choice).2.slotCountLocked
    · simp only [if_pos hfull]
      exact .evicted (r.evict_spec choice)
    · simp only [if_neg hfull]
      exact .registered (r.evict_spec choice) hentry hpending (Nat.lt_of_not_le hfull)

/-- `acquireOnce`. -/
theorem acquireOnce_spec :
    Act r (.acquiring key) (r.acquireOnce choice key).1 (r.acquireOnce choice key).2 := by
  unfold acquireOnce
  split_ifs with hclosed
  · exact .of_quiet ⟨rfl, rfl, rfl, rfl, rfl, rfl⟩ ⟨rfl, rfl, rfl, rfl, rfl, rfl⟩
  have hopen : r.closed = false := by simpa using hclosed
  cases hentry : r.entries.lookup key with
  | none =>
    refine r.acquireMissing_spec choice key fun e he => ?_
    rw [hentry] at he
    cases he
  | some e =>
    by_cases hinvalid : (r.entry e).invalidated = true
    · simp only [if_pos hinvalid]
      refine r.acquireMissing_spec choice key fun _ he' => ?_
      rw [hentry] at he'
      cases he'
      exact hinvalid
    · simp only [if_neg hinvalid]
      exact .retained choice.now hopen hentry

omit [DecidableEq K] in
/-- `finishRunnerBuild` keeps the runner of a build that is not invalidated. -/
theorem buildErr_eq_none {r : Registry K} {choice : Choice K} {b : ℕ} {factoryErr : Option Err}
    (h : r.buildErr choice b factoryErr = none) :
    r.closed = false ∧ (r.build b).invalidated = false := by
  unfold buildErr at h
  cases factoryErr with
  | some => cases h
  | none =>
    cases hctx : contextErr choice.context with
    | some => simp [hctx] at h
    | none =>
      simp only [hctx] at h
      split_ifs at h with hclosed hbuild
      exact ⟨by simpa using hclosed, by simpa using hbuild⟩

/-- `finishRunnerBuild`. -/
theorem finishRunnerBuild_spec (b : ℕ) (factoryErr : Option Err) :
    Act r (.built key b factoryErr) (r.finishRunnerBuild choice key b factoryErr).1
      (r.finishRunnerBuild choice key b factoryErr).2 := by
  unfold finishRunnerBuild
  cases herr : r.buildErr choice b factoryErr with
  | none =>
    obtain ⟨hclosed, hbuild⟩ := buildErr_eq_none herr
    exact .published choice.now hclosed hbuild
  | some err =>
    by_cases hreturned : (r.build b).returned = true
    · simp only [if_pos hreturned]
      exact .rejected
    · simp only [if_neg hreturned]
      exact .abandoned (by simpa using hreturned) (retry_quiet choice key err)

/-- `Invalidate`. -/
theorem invalidate_spec : Act r (.invalidating key) (r.invalidate key).1 (r.invalidate key).2 := by
  unfold invalidate
  split_ifs with hclosed
  · exact .of_quiet ⟨rfl, rfl, rfl, rfl, rfl, rfl⟩ ⟨rfl, rfl, rfl, rfl, rfl, rfl⟩
  have hflag : (r.flag fun waiting => decide (waiting = key)).entries = r.entries := rfl
  cases hentry : r.entries.lookup key with
  | none =>
    simp only [hflag, hentry]
    exact .flagged hentry
  | some e =>
    have hrefs : (r.flag fun waiting => decide (waiting = key)).entry e = r.entry e := rfl
    simp only [hflag, hentry, hrefs]
    have honly : ∀ e', (∃ key', r.entries.lookup key' = some e' ∧ decide (key' = key) = true) ↔
        e' = e := by
      intro e'
      simp only [decide_eq_true_eq, exists_eq_right, hentry, Option.some.injEq]
      exact eq_comm
    refine .invalidated _ (.inr ⟨key, rfl, rfl⟩) ?_ ?_ ?_ ?_ ?_
    · split_ifs <;> rfl
    · split_ifs <;> rfl
    · split_ifs <;> rfl
    · split_ifs <;> rfl
    · intro e'
      rw [honly e']
      split_ifs with hzero
      · simp only [Phase.toClose, mem_singleton]
        refine ⟨fun he' => ⟨he' ▸ hzero, he'⟩, fun h => h.2⟩
      · simp only [Phase.toClose, not_mem_nil, false_iff]
        rintro ⟨hrefs', rfl⟩
        exact hzero hrefs'

/-- `InvalidateMatching`. -/
theorem invalidateMatching_spec (predicate : K → Bool) :
    Act r (.matching predicate) (r.invalidateMatching choice predicate).1
      (r.invalidateMatching choice predicate).2 := by
  unfold invalidateMatching
  split_ifs with hclosed
  · exact .of_quiet ⟨rfl, rfl, rfl, rfl, rfl, rfl⟩ ⟨rfl, rfl, rfl, rfl, rfl, rfl⟩
  refine .invalidated predicate (.inl rfl) rfl rfl rfl rfl fun e => ?_
  simp only [Phase.toClose]
  rw [mem_collect]
  simp only [flag, Bool.and_eq_true, decide_eq_true_eq]
  constructor
  · rintro ⟨key, hkey, hpredicate, hrefs⟩
    exact ⟨hrefs, key, hkey, hpredicate⟩
  · rintro ⟨hrefs, key, hkey, hpredicate⟩
    exact ⟨key, hkey, hpredicate, hrefs⟩

/-- `Close`, under the mutex for the first time. -/
theorem startClose_spec : Act r .closing (r.startClose choice).1 (r.startClose choice).2 := by
  unfold startClose
  split_ifs with hstarted
  · exact .of_quiet ⟨rfl, rfl, rfl, rfl, rfl, rfl⟩ ⟨rfl, rfl, rfl, rfl, rfl, rfl⟩
  refine .closeStarted (by simpa using hstarted) fun e => ?_
  rw [mem_collect]
  simp only [flag, decide_eq_true_eq]
  constructor
  · rintro ⟨key, hkey, hrefs⟩
    exact ⟨hrefs, key, hkey⟩
  · rintro ⟨hrefs, key, hkey⟩
    exact ⟨key, hkey, hrefs⟩

variable (now : ℤ)

/-- `Release`. -/
theorem release_spec (l : ℕ) : Act r (.releasing l) (r.release now l).1 (r.release now l).2 := by
  unfold release
  split_ifs with honce
  · cases r.leaseErr l with
    | none => exact .stays ⟨rfl, rfl, fun _ h => h, rfl, rfl⟩ rfl
    | some => exact .stays ⟨rfl, rfl, fun _ h => (nomatch h), rfl, rfl⟩ rfl
  · exact .released now (by simpa using honce)

/-- A step of a call does nothing else. -/
theorem next_spec (phase : Phase K) :
    Act r phase (r.next choice phase).1 (r.next choice phase).2 := by
  -- most closings are of the first of several entries, and go on with the others
  have hclose : ∀ {phase phase' : Phase K} (e : ℕ), phase.Keeps phase' →
      phase.toClose = e :: phase'.toClose →
      Act r phase phase' (r.closeEntry choice.closeErr e) := by
    intro phase phase' e hkeeps htoClose
    refine .closes choice.closeErr e hkeeps (.inl (by simp [htoClose])) ?_ ?_
    · intro e' he'
      simp [htoClose, he']
    · intro e' he'
      rw [htoClose, mem_cons] at he'
      exact he'.imp id .inl
  cases phase with
  | called key => exact .of_quiet ⟨rfl, rfl, rfl, rfl, rfl, rfl⟩ (checkAcquire_quiet choice key)
  | acquiring key => exact r.acquireOnce_spec choice key
  | awaiting key b =>
    exact .of_quiet ⟨rfl, rfl, rfl, rfl, rfl, rfl⟩ (waitForRunnerBuild_quiet r choice key b)
  | evicting key toClose build =>
    cases toClose with
    | cons e =>
      refine hclose e ⟨?_, rfl, fun _ h => (nomatch h), rfl, rfl⟩ rfl
      cases build <;> rfl
    | nil =>
      cases build with
      | none => exact .of_quiet ⟨rfl, rfl, rfl, rfl, rfl, rfl⟩ ⟨rfl, rfl, rfl, rfl, rfl, rfl⟩
      | some => exact .stays ⟨rfl, rfl, fun _ h => (nomatch h), rfl, rfl⟩ rfl
  | building => exact .made choice.runner
  | built key b err => exact r.finishRunnerBuild_spec choice key b err
  | rejecting key e err =>
    have hquiet := retry_quiet choice key err
    have hnext : r.next choice (.rejecting key e err) =
        (retry choice key err, r.closeEntry choice.closeErr e) := rfl
    rw [hnext]
    refine hclose e ⟨hquiet.token, hquiet.closer, ?_, hquiet.lease, hquiet.made⟩ ?_
    · intro l hl
      rw [hquiet.releases] at hl
      cases hl
    · rw [hquiet.toClose]
      rfl
  | leased => exact .stays ⟨rfl, rfl, fun _ h => h, rfl, rfl⟩ rfl
  | releasing l => exact r.release_spec choice.now l
  | closingLease l e => exact hclose e ⟨rfl, rfl, fun _ h => (nomatch h), rfl, rfl⟩ rfl
  | released => exact .stored
  | invalidating key => exact r.invalidate_spec key
  | closingOne e => exact hclose e ⟨rfl, rfl, fun _ h => (nomatch h), rfl, rfl⟩ rfl
  | matching predicate => exact r.invalidateMatching_spec choice predicate
  | closingAll toClose =>
    cases toClose with
    | nil => exact .of_quiet ⟨rfl, rfl, rfl, rfl, rfl, rfl⟩ ⟨rfl, rfl, rfl, rfl, rfl, rfl⟩
    | cons e rest =>
      have hnext : r.next choice (.closingAll (e :: rest)) =
          (afterClose rest ((r.closeEntry choice.closeErr e).closeResult e),
            r.closeEntry choice.closeErr e) := rfl
      rw [hnext]
      cases hresult : (r.closeEntry choice.closeErr e).closeResult e with
      | none => exact hclose e ⟨rfl, rfl, fun _ h => (nomatch h), rfl, rfl⟩ rfl
      | some err =>
        refine .closes choice.closeErr e ⟨rfl, rfl, fun _ h => (nomatch h), rfl, rfl⟩
          (.inl mem_cons_self) (fun e' he' => nomatch he') fun e' he' => ?_
        refine (mem_cons.1 he').imp id fun hrest => .inr ⟨rest, rfl, hrest, ?_⟩
        rw [hresult]
        exact Option.some_ne_none err
  | closing => exact r.startClose_spec choice
  | closingIdle toClose =>
    cases toClose with
    | nil => exact .stays ⟨rfl, rfl, fun _ h => (nomatch h), rfl, rfl⟩ rfl
    | cons e => exact hclose e ⟨rfl, rfl, fun _ h => (nomatch h), rfl, rfl⟩ rfl
  | awaitingBuilds pending =>
    cases pending with
    | nil => exact .stays ⟨rfl, rfl, fun _ h => (nomatch h), rfl, rfl⟩ rfl
    | cons =>
      rw [next]
      split_ifs <;> exact .stays ⟨rfl, rfl, fun _ h => (nomatch h), rfl, rfl⟩ rfl
  | awaitingLeases waitEntries =>
    cases waitEntries with
    | nil => exact .stays ⟨rfl, rfl, fun _ h => (nomatch h), rfl, rfl⟩ rfl
    | cons e =>
      rw [next]
      split_ifs with hlate hzero
      · exact .stays ⟨rfl, rfl, fun _ h => (nomatch h), rfl, rfl⟩ rfl
      · exact .closes choice.closeErr e ⟨rfl, rfl, fun _ h => (nomatch h), rfl, rfl⟩ (.inr hzero)
          (fun e' he' => nomatch he') (fun e' he' => nomatch he')
      · exact .stays ⟨rfl, rfl, fun _ h => (nomatch h), rfl, rfl⟩ rfl
  | finishing => exact .closeFinished
  | awaitingClose =>
    have hnext : r.next choice .awaitingClose =
        (if r.chanClosed .closeDone then .returned r.closeErr else .awaitingClose, r) := rfl
    rw [hnext]
    split_ifs <;> exact .of_quiet ⟨rfl, rfl, rfl, rfl, rfl, rfl⟩ ⟨rfl, rfl, rfl, rfl, rfl, rfl⟩
  | returned => exact .of_quiet ⟨rfl, rfl, rfl, rfl, rfl, rfl⟩ ⟨rfl, rfl, rfl, rfl, rfl, rfl⟩

/-! ## What the parts of a step leave alone -/

variable (closeErr : Bool)

omit [DecidableEq K]

/-- `entry.close()` changes entries and counts. -/
theorem closeEntry_rest (e : ℕ) : r.closeEntry closeErr e = { r with
        entry := (r.closeEntry closeErr e).entry
        build := (r.closeEntry closeErr e).build } := by
  unfold closeEntry
  dsimp only
  split_ifs <;> rfl

/-- `entry.close()` changes `closeOnce` and `closeErr` of an entry. -/
theorem closeEntry_entry (e e' : ℕ) : (r.closeEntry closeErr e).entry e' = { r.entry e' with
        closeOnce := ((r.closeEntry closeErr e).entry e').closeOnce
        closeErr := ((r.closeEntry closeErr e).entry e').closeErr } := by
  unfold closeEntry
  dsimp only
  split_ifs
  · rfl
  · by_cases he' : e' = e
    · subst he'
      simp
    · simp [he']

/-- `entry.close()` changes the counts of builds. -/
theorem closeEntry_build (e b : ℕ) : (r.closeEntry closeErr e).build b =
      { r.build b with closes := ((r.closeEntry closeErr e).build b).closes } := by
  unfold closeEntry
  dsimp only
  split_ifs
  · rfl
  · by_cases hb : b = (r.entry e).runner
    · subst hb
      simp
    · simp [hb]

/-- `release` changes an entry and closes channels. -/
theorem releaseEntry_rest (l e : ℕ) : (r.releaseEntry now l e).2 = { r with
        entry := (r.releaseEntry now l e).2.entry
        closings := (r.releaseEntry now l e).2.closings } := by
  unfold releaseEntry closeZero
  split_ifs
  · rfl
  · rfl
  · dsimp only
    split <;> rfl
  · rfl

/-- `release` changes the count and the time of an entry. -/
theorem releaseEntry_entry (l e e' : ℕ) : (r.releaseEntry now l e).2.entry e' = { r.entry e' with
        refs := ((r.releaseEntry now l e).2.entry e').refs
        lastUsed := ((r.releaseEntry now l e).2.entry e').lastUsed } := by
  have hdrop : ∀ lastUsed, (r.dropRef e lastUsed).entry e' = { r.entry e' with
        refs := ((r.dropRef e lastUsed).entry e').refs
        lastUsed := ((r.dropRef e lastUsed).entry e').lastUsed } := by
    intro lastUsed
    by_cases he' : e' = e
    · subst he'
      simp [dropRef]
    · simp [dropRef, he']
  have hclose : ∀ lastUsed, ((r.dropRef e lastUsed).closeZero e).entry =
      (r.dropRef e lastUsed).entry := by
    intro lastUsed
    unfold closeZero
    split <;> rfl
  unfold releaseEntry
  split_ifs
  · rfl
  · exact hdrop _
  · rw [hclose]
    exact hdrop _
  · exact hdrop _

/-- `release` closes only channels of entries. -/
theorem releaseEntry_closings (l e : ℕ) {c : Chan} (hc : ∀ e generation, c ≠ .zero e generation) :
    (r.releaseEntry now l e).2.closings c = r.closings c := by
  unfold releaseEntry closeZero
  split_ifs
  · rfl
  · rfl
  · dsimp only
    split
    · exact Function.update_of_ne (hc _ _) _ _
    · rfl
  · rfl

end Registry

end AgentService.Runners
