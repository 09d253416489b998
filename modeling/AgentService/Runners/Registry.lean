import AgentService.Go.Maps
import AgentService.Storage.Contract
import Mathlib.Logic.Function.Basic

/-!
# The runner registry

The data of `RunnerRegistry` in `trpcservice/gateway/registry.go`, and what its methods do to them
while they hold the mutex: `acquireOnce`, the second half of `finishRunnerBuild`, `Invalidate`,
`InvalidateMatching`, the two halves of `Close`, and `release`. `closeEntry` is `entry.close()`,
which runs outside the mutex.

Pointers are numbers. A `*runnerEntry` is the number of an entry, a `*RunnerLease` that of a lease,
and a `*runnerBuild` that of a build. Each build calls the factory once and the factory makes a new
runner each time, so a runner has the number of the build that made it. A channel is named by the
place it is made for. The keys are any type `K` with decidable equality, as Go requires of the keys
of a map.
-/

namespace AgentService.Runners

open Storage (Context CtxErr)
open Function (update)

/-- The errors of the registry. -/
inductive Err where
  /-- `ErrInvalid`. -/
  | invalid
  /-- `ErrClosed`. -/
  | closed
  /-- `ErrRunnerCapacity`. -/
  | capacity
  /-- `ErrRunnerUnavailable`. -/
  | unavailable
  /-- `ErrRunnerClose`. -/
  | runnerClose
  /-- The error of a context. -/
  | ctx (cause : CtxErr)
  /-- `errRunnerInvalidated`, which no caller sees. -/
  | invalidated
  /-- The error of `Close`: whether it joins `ErrRegistryCloseTimeout`, and whether it joins an
  `ErrRunnerClose`. -/
  | closing (timedOut runnerClose : Bool)
  deriving DecidableEq

/-- The notification channels. -/
inductive Chan where
  /-- The channel `done` of a build. -/
  | done (build : ℕ)
  /-- A channel `zero` of an entry, which makes a new one each time it is lent again. -/
  | zero (entry generation : ℕ)
  /-- The channel `closeDone` of the registry. -/
  | closeDone
  deriving DecidableEq

/-- `runnerEntry`. -/
structure Entry where
  runner : ℕ := 0
  /-- The number of leases that have not been released. -/
  refs : ℕ := 0
  lastUsed : ℤ := 0
  invalidated : Bool := false
  /-- The channel `zero`, by its generation. -/
  zero : Option ℕ := none
  /-- Whether `closeOnce` has run. -/
  closeOnce : Bool := false
  /-- Whether `closeErr` is set, to `ErrRunnerClose`. -/
  closeErr : Bool := false
  deriving DecidableEq

/-- `runnerBuild`, with what became of the runner that its factory call made. -/
structure Build where
  invalidated : Bool := false
  /-- Whether the factory has returned a runner. -/
  returned : Bool := false
  /-- How often `Close` of that runner has been called. -/
  closes : ℕ := 0
  deriving DecidableEq

/-- `RunnerLease`. -/
structure Lease where
  entry : ℕ := 0
  /-- Whether `once` has run. -/
  once : Bool := false
  deriving DecidableEq

/-- `RunnerRegistry`, with the entries, builds, leases, and channels that there have ever been. -/
structure Registry (K : Type) where
  maxEntries : ℕ
  idleTTL : ℤ
  entries : AList fun _ : K => ℕ := ∅
  pending : AList fun _ : K => ℕ := ∅
  closed : Bool := false
  closeStarted : Bool := false
  closeErr : Option Err := none
  /-- The entries by their numbers. -/
  entry : ℕ → Entry := fun _ => {}
  entryCount : ℕ := 0
  /-- The builds by their numbers. -/
  build : ℕ → Build := fun _ => {}
  buildCount : ℕ := 0
  /-- The leases by their numbers. -/
  lease : ℕ → Lease := fun _ => {}
  leaseCount : ℕ := 0
  /-- The field `err` of a lease, once `Release` has set it. -/
  leaseErr : ℕ → Option (Option Err) := fun _ => none
  /-- How often a channel has been closed. -/
  closings : Chan → ℕ := fun _ => 0

/-- A nanosecond count of one second. -/
def second : ℤ := 1000000000

/-- What is not up to the registry when a call goes on. -/
structure Choice (K : Type) where
  /-- The clock. -/
  now : ℤ := 0
  /-- The context of the call. -/
  context : Context := .live
  /-- The order in which `range` visits the keys of `entries`. -/
  order : List K := []
  /-- The order in which the loop of `evictCapacityLocked` visits them. -/
  capacityOrder : List K := []
  /-- Whether the factory returns a runner. -/
  runner : Bool := true
  /-- The error that the factory returns: that of a context, or another one. -/
  factoryErr : Option (Option CtxErr) := none
  /-- Whether the runner's `Close` returns an error. -/
  closeErr : Bool := false
  /-- Whether a `select` takes its second case: the end of the context, or of the deadline. -/
  late : Bool := false

/-- `ctx.Err()`. -/
def contextErr : Context → Option Err
  | .done cause => some (.ctx cause)
  | .nil | .live => none

/-- `normalizeRunnerFactoryError`. -/
def normalizeRunnerFactoryError : Option (Option CtxErr) → Option Err
  | none => none
  | some (some cause) => some (.ctx cause)
  | some none => some .unavailable

/-- Where a call on the registry stands. -/
inductive Phase (K : Type) where
  /-- `Acquire` has been called, with what `plan.CacheKey()` returns. -/
  | called (key : Option K)
  /-- The loop of `Acquire` is about to lock. -/
  | acquiring (key : K)
  /-- `waitForRunnerBuild`. -/
  | awaiting (key : K) (build : ℕ)
  /-- `acquireOnce` closes what it has evicted, and then builds or returns `ErrRunnerCapacity`. -/
  | evicting (key : K) (toClose : List ℕ) (build : Option ℕ)
  /-- The factory runs. -/
  | building (key : K) (build : ℕ)
  /-- The factory has returned. -/
  | built (key : K) (build : ℕ) (err : Option Err)
  /-- `finishRunnerBuild` closes the runner that it does not keep. -/
  | rejecting (key : K) (entry : ℕ) (err : Err)
  /-- `Acquire` has returned a lease. -/
  | leased (key : K) (lease : ℕ)
  /-- `Release` has been called. -/
  | releasing (lease : ℕ)
  /-- `release` closes the entry. -/
  | closingLease (lease entry : ℕ)
  /-- `release` has returned. -/
  | released (lease : ℕ) (err : Option Err)
  /-- `Invalidate` has been called. -/
  | invalidating (key : K)
  /-- `Invalidate` closes the entry. -/
  | closingOne (entry : ℕ)
  /-- `InvalidateMatching` has been called. -/
  | matching (predicate : K → Bool)
  /-- `InvalidateMatching` closes the entries that it has collected. -/
  | closingAll (toClose : List ℕ)
  /-- `Close` has been called. -/
  | closing
  /-- `Close` closes the idle entries. -/
  | closingIdle (closeImmediately pending waitEntries : List ℕ) (err : Bool)
  /-- `Close` waits for the builds. -/
  | awaitingBuilds (pending waitEntries : List ℕ) (err : Bool)
  /-- `Close` waits for the leases. -/
  | awaitingLeases (waitEntries : List ℕ) (err : Bool)
  /-- `Close` is about to lock again. -/
  | finishing (timedOut err : Bool)
  /-- `Close` waits for another `Close`. -/
  | awaitingClose
  /-- The call has returned, for `Acquire` without a lease. -/
  | returned (err : Option Err)

variable {K : Type} [DecidableEq K]

/-! ## Entries and leases -/

namespace Registry

/-- `close` of a channel. -/
def closeChan (r : Registry K) (c : Chan) : Registry K :=
  { r with closings := update r.closings c (r.closings c + 1) }

/-- Whether a receive from a channel goes on. -/
def chanClosed (r : Registry K) (c : Chan) : Bool := r.closings c ≠ 0

/-- `retainLocked`. -/
def retainLocked (r : Registry K) (now : ℤ) (e : ℕ) : Registry K :=
  let entry := r.entry e
  -- a new channel has a name that no channel had before it
  let zero := if entry.refs = 0 then some (entry.zero.elim 0 (· + 1)) else entry.zero
  { r with
    entry := update r.entry e
      { entry with refs := entry.refs + 1, lastUsed := now, zero := zero } }

/-- `&RunnerLease{registry: registry, entry: entry}`. -/
def lend (r : Registry K) (e : ℕ) : Registry K :=
  { r with
    lease := update r.lease r.leaseCount { entry := e }
    leaseCount := r.leaseCount + 1 }

/-- `&runnerEntry{…}`. -/
def allocate (r : Registry K) (entry : Entry) : Registry K :=
  { r with
    entry := update r.entry r.entryCount entry
    entryCount := r.entryCount + 1 }

/-- Whether an entry is in the map under a key that is about to be deleted. -/
def isGone (r : Registry K) (gone : K → ℕ → Bool) (e : ℕ) : Bool :=
  r.entries.entries.any fun stored => stored.2 = e && gone stored.1 stored.2

/-- The loops that delete from `entries` and set `invalidated` of what they delete. -/
def retire (r : Registry K) (gone : K → ℕ → Bool) : Registry K :=
  { r with
    entries := Go.deleteWhere gone r.entries
    entry := fun e =>
      if r.isGone gone e then { r.entry e with invalidated := true } else r.entry e }

/-- The entries that such a loop collects. -/
def collect (r : Registry K) (order : List K) (which : K → ℕ → Bool) : List ℕ :=
  ((Go.visit order r.entries).filter fun stored => which stored.1 stored.2).map (·.2)

/-- The loops that set `invalidated` of pending builds. -/
def flag (r : Registry K) (which : K → Bool) : Registry K :=
  { r with
    build := fun b =>
      if r.pending.entries.any fun waiting => waiting.2 = b && which waiting.1 then
        { r.build b with invalidated := true }
      else r.build b }

/-- `entry.close()`, when the runner's `Close` answers as given. -/
def closeEntry (r : Registry K) (closeErr : Bool) (e : ℕ) : Registry K :=
  let entry := r.entry e
  if entry.closeOnce then r
  else
    { r with
      entry := update r.entry e { entry with closeOnce := true, closeErr := closeErr }
      build := update r.build entry.runner
        { r.build entry.runner with closes := (r.build entry.runner).closes + 1 } }

/-- What `entry.close()` returns. -/
def closeResult (r : Registry K) (e : ℕ) : Option Err :=
  if (r.entry e).closeErr then some .runnerClose else none

/-! ## `Acquire` -/

/-- `slotCountLocked`. -/
def slotCountLocked (r : Registry K) : ℕ := r.entries.entries.length + r.pending.entries.length

/-- Whether `evictIdleLocked` takes an entry. -/
def isIdle (r : Registry K) (now : ℤ) (e : ℕ) : Bool :=
  0 < r.idleTTL && (r.entry e).refs = 0 && (r.entry e).lastUsed + r.idleTTL ≤ now

/-- What `evictIdleLocked` returns. -/
def idleEntries (r : Registry K) (order : List K) (now : ℤ) : List ℕ :=
  r.collect order fun _ e => r.isIdle now e

/-- What `evictIdleLocked` leaves. -/
def evictIdleLocked (r : Registry K) (now : ℤ) : Registry K :=
  r.retire fun _ e => r.isIdle now e

/-- One round of the loop of `evictCapacityLocked`. -/
def older (r : Registry K) (oldest : Option (Sigma fun _ : K => ℕ)) (next : Sigma fun _ : K => ℕ) :
    Option (Sigma fun _ : K => ℕ) :=
  if (r.entry next.2).refs ≠ 0 then oldest
  else
    match oldest with
    | none => some next
    | some found =>
      if (r.entry next.2).lastUsed < (r.entry found.2).lastUsed then some next else some found

/-- What the loop of `evictCapacityLocked` finds. -/
def oldest (r : Registry K) (order : List K) : Option (Sigma fun _ : K => ℕ) :=
  (Go.visit order r.entries).foldl r.older none

/-- What `evictCapacityLocked` returns, and what it leaves. -/
def evictCapacityLocked (r : Registry K) (order : List K) : List ℕ × Registry K :=
  match r.oldest order with
  | none => ([], r)
  | some found => ([found.2], r.retire fun key _ => key = found.1)

/-- `registry.pending[key] = &runnerBuild{…}`. -/
def register (r : Registry K) (key : K) : Registry K :=
  { r with
    pending := r.pending.insert key r.buildCount
    build := update r.build r.buildCount {}
    buildCount := r.buildCount + 1 }

/-- The evictions of `acquireOnce`: what it collects, and what it leaves. -/
def evict (r : Registry K) (choice : Choice K) : List ℕ × Registry K :=
  let idle := r.idleEntries choice.order choice.now
  let r := r.evictIdleLocked choice.now
  if r.maxEntries ≤ r.slotCountLocked then
    let (oldest, r) := r.evictCapacityLocked choice.capacityOrder
    (idle ++ oldest, r)
  else (idle, r)

/-- `acquireOnce` when there is neither an entry nor a build. -/
def startBuild (r : Registry K) (choice : Choice K) (key : K) : Phase K × Registry K :=
  let (toClose, r) := r.evict choice
  if r.maxEntries ≤ r.slotCountLocked then (.evicting key toClose none, r)
  else (.evicting key toClose (some r.buildCount), r.register key)

/-- `acquireOnce` when there is no entry. -/
def acquireMissing (r : Registry K) (choice : Choice K) (key : K) : Phase K × Registry K :=
  match r.pending.lookup key with
  | some b => (.awaiting key b, r)
  | none => r.startBuild choice key

/-- `acquireOnce`. -/
def acquireOnce (r : Registry K) (choice : Choice K) (key : K) : Phase K × Registry K :=
  if r.closed then (.returned (some .closed), r)
  else
    match r.entries.lookup key with
    | none => r.acquireMissing choice key
    | some e =>
      if (r.entry e).invalidated then r.acquireMissing choice key
      else (.leased key r.leaseCount, (r.retainLocked choice.now e).lend e)

/-- How `finishRunnerBuild` goes on after an error. -/
def retry (choice : Choice K) (key : K) (err : Err) : Phase K :=
  if err = .invalidated then
    match contextErr choice.context with
    | some err => .returned (some err)
    | none => .acquiring key
  else .returned (some err)

/-- The error with which `finishRunnerBuild` goes on, under the mutex. -/
def buildErr (r : Registry K) (choice : Choice K) (b : ℕ) (factoryErr : Option Err) : Option Err :=
  match factoryErr with
  | some err => some err
  | none =>
    match contextErr choice.context with
    | some err => some err
    | none =>
      if r.closed then some .closed
      else if (r.build b).invalidated then some .invalidated
      else none

/-- `finishRunnerBuild` under the mutex, when it keeps the runner. -/
def publish (r : Registry K) (now : ℤ) (key : K) (b : ℕ) : Registry K :=
  let e := r.entryCount
  let r := r.allocate { runner := b, refs := 1, lastUsed := now, zero := some 0 }
  let r : Registry K :=
    { r with pending := r.pending.erase key, entries := r.entries.insert key e }
  (r.closeChan (.done b)).lend e

/-- `finishRunnerBuild` under the mutex, when it does not. -/
def abandon (r : Registry K) (key : K) (b : ℕ) : Registry K :=
  closeChan { r with pending := r.pending.erase key } (.done b)

/-- `finishRunnerBuild`, after the factory. -/
def finishRunnerBuild (r : Registry K) (choice : Choice K) (key : K) (b : ℕ)
    (factoryErr : Option Err) : Phase K × Registry K :=
  match r.buildErr choice b factoryErr with
  | none => (.leased key r.leaseCount, r.publish choice.now key b)
  | some err =>
    if (r.build b).returned then
      (.rejecting key r.entryCount err, (r.abandon key b).allocate { runner := b })
    else (retry choice key err, r.abandon key b)

/-- The factory returns. -/
def factory (r : Registry K) (choice : Choice K) (key : K) (b : ℕ) : Phase K × Registry K :=
  let err := normalizeRunnerFactoryError choice.factoryErr
  let err := if choice.runner = false ∧ err = none then some .unavailable else err
  (.built key b err,
    { r with build := update r.build b { r.build b with returned := choice.runner } })

/-! ## `Invalidate` and `InvalidateMatching` -/

/-- `Invalidate`, under the mutex. -/
def invalidate (r : Registry K) (key : K) : Phase K × Registry K :=
  if r.closed then (.returned (some .closed), r)
  else
    let r := r.flag fun waiting => waiting = key
    match r.entries.lookup key with
    | none => (.returned none, r)
    | some e =>
      (if (r.entry e).refs = 0 then .closingOne e else .returned none,
        r.retire fun stored _ => stored = key)

/-- `InvalidateMatching`, under the mutex. -/
def invalidateMatching (r : Registry K) (choice : Choice K) (predicate : K → Bool) :
    Phase K × Registry K :=
  if r.closed then (.returned (some .closed), r)
  else
    let r := r.flag predicate
    (.closingAll (r.collect choice.order fun key e => predicate key && (r.entry e).refs = 0),
      r.retire fun key _ => predicate key)

/-! ## `Close` -/

/-- `Close`, under the mutex for the first time. -/
def startClose (r : Registry K) (choice : Choice K) : Phase K × Registry K :=
  if r.closeStarted then (.awaitingClose, r)
  else
    let pending := (Go.visit choice.capacityOrder r.pending).map (·.2)
    let r : Registry K := { r with closeStarted := true, closed := true }
    let r := r.flag fun _ => true
    (.closingIdle (r.collect choice.order fun _ e => (r.entry e).refs = 0) pending
        (r.collect choice.order fun _ e => 0 < (r.entry e).refs) false,
      r.retire fun _ _ => true)

/-- `Close`, under the mutex for the second time. -/
def finishClose (r : Registry K) (timedOut err : Bool) : Registry K :=
  let closeErr := if timedOut || err then some (.closing timedOut err) else none
  closeChan { r with closeErr := closeErr } .closeDone

/-! ## `Release` -/

/-- The entry without one of its references. -/
def dropRef (r : Registry K) (e : ℕ) (lastUsed : ℤ) : Registry K :=
  { r with
    entry := update r.entry e
      { r.entry e with refs := (r.entry e).refs - 1, lastUsed := lastUsed } }

/-- `lease.once.Do`, which runs its function now. -/
def takeOnce (r : Registry K) (l : ℕ) : Registry K :=
  { r with lease := update r.lease l { r.lease l with once := true } }

/-- `close(entry.zero)`. -/
def closeZero (r : Registry K) (e : ℕ) : Registry K :=
  match (r.entry e).zero with
  | some generation => r.closeChan (.zero e generation)
  | none => r

/-- `release` of an entry, under the mutex. -/
def releaseEntry (r : Registry K) (now : ℤ) (l e : ℕ) : Phase K × Registry K :=
  if (r.entry e).refs < 1 then (.released l none, r)
  else if (r.entry e).refs ≠ 1 then (.released l none, r.dropRef e (r.entry e).lastUsed)
  else if (r.entry e).invalidated || r.closed then
    (.closingLease l e, (r.dropRef e now).closeZero e)
  else (.released l none, r.dropRef e now)

/-- `Release`, up to the end of the mutex: the first call goes on to `release`, and the others wait
for it and return what it has returned. -/
def release (r : Registry K) (now : ℤ) (l : ℕ) : Phase K × Registry K :=
  if (r.lease l).once then
    match r.leaseErr l with
    | some err => (.returned err, r)
    | none => (.releasing l, r)
  else (r.takeOnce l).releaseEntry now l (r.lease l).entry

end Registry

end AgentService.Runners
