import AgentService.Concurrent.Server
import AgentService.Go.Maps
import AgentService.Go.Sort
import AgentService.Storage.Contract
import Mathlib.Data.Prod.Lex
import Mathlib.Data.String.Basic

/-!
# The in-memory execution queue

The tasks and the in-memory store of `trpcservice/runtime/queue/queue.go`. All views of a backend
share its tasks under one lock, so the backend answers calls one at a time (`memory`), each at one
reading of its clock. What a call can do is said once, by `Acts`: it fails and leaves the backend as
it is, or it does what its constructor of `Acts` says (`memory_spec`). What holds along every run of
the queue is proved from these cases.
-/

namespace AgentService.Queue

open Concurrent
open Storage (Context CtxErr)

/-- `time.Millisecond`. -/
def millisecond : ℤ := 1000000

/-! ## Tasks -/

/-- `Status`. -/
inductive Status where
  | queued
  | leased
  | retryable
  | completed
  | failed
  deriving DecidableEq

/-- `Task`. -/
structure Task where
  tenantID : String
  taskID : String
  kind : String
  payload : List UInt8
  status : Status
  attempts : ℤ := 0
  fencingToken : ℤ := 0
  leaseOwner : String := ""
  leaseExpiresAt : Option ℤ := none
  nextAttemptAt : ℤ
  lastErrorClass : String := ""
  createdAt : ℤ
  updatedAt : ℤ
  deriving DecidableEq

/-- `TaskInput`. -/
structure TaskInput where
  tenantID : String
  taskID : String
  kind : String
  payload : List UInt8
  deriving DecidableEq

/-- The errors of a queue. -/
inductive Err where
  | invalid
  | notFound
  | conflict
  | closed
  | ctx (cause : CtxErr)
  deriving DecidableEq

/-- `validateInput`. -/
def validateInput (value : TaskInput) : Option Err :=
  if value.tenantID = "" ∨ value.taskID = "" ∨ value.kind = "" ∨ value.payload.length = 0 then
    some .invalid
  else none

variable {input : TaskInput}

/-- An input that is accepted has a tenant, a name, and a payload. -/
theorem validateInput_eq_none (h : validateInput input = none) :
    input.tenantID ≠ "" ∧ input.taskID ≠ "" ∧ 0 < input.payload.length := by
  unfold validateInput at h
  split_ifs at h with hempty
  simp only [not_or] at hempty
  exact ⟨hempty.1, hempty.2.1, Nat.pos_of_ne_zero hempty.2.2.2⟩

/-- Every error of `validateInput` is `ErrInvalid`. -/
theorem validateInput_eq_some {err : Err} (h : validateInput input = some err) :
    err = .invalid := by
  unfold validateInput at h
  split_ifs at h
  exact (Option.some.inj h).symm

/-- `contextErr`. -/
def contextErr : Context → Option Err
  | .nil => some .invalid
  | .live => none
  | .done cause => some (.ctx cause)

/-- A new task. -/
def TaskInput.task (now : ℤ) (input : TaskInput) : Task where
  tenantID := input.tenantID
  taskID := input.taskID
  kind := input.kind
  payload := input.payload
  status := .queued
  nextAttemptAt := now
  createdAt := now
  updatedAt := now

/-- A deadline that is set and not after the clock. -/
def expired (now : ℤ) : Option ℤ → Bool
  | none => false
  | some deadline => deadline ≤ now

/-- Whether `Claim` may take a task. -/
def Task.eligible (now : ℤ) (tenantID : String) (task : Task) : Bool :=
  (tenantID = "" ∨ task.tenantID = tenantID) ∧
    (((task.status = .queued ∨ task.status = .retryable) ∧ task.nextAttemptAt ≤ now) ∨
      (task.status = .leased ∧ expired now task.leaseExpiresAt))

/-- A task under a new lease. -/
def Task.lease (now : ℤ) (owner : String) (leaseDuration : ℤ) (task : Task) : Task :=
  { task with
    status := .leased
    attempts := task.attempts + 1
    fencingToken := task.fencingToken + 1
    leaseOwner := owner
    leaseExpiresAt := some (now + leaseDuration)
    updatedAt := now }

/-- A task whose lease has ended. -/
def Task.settle (now : ℤ) (status : Status) (errorClass : String) (next : ℤ) (task : Task) : Task :=
  { task with
    status := status
    lastErrorClass := errorClass
    updatedAt := now
    nextAttemptAt := next
    leaseOwner := ""
    leaseExpiresAt := none }

/-! ## The backend -/

/-- The key of a task. -/
def taskKey (tenantID taskID : String) : String := tenantID ++ "\x00" ++ taskID

/-- A text free of NUL. -/
def NulFree (value : String) : Prop := '\x00' ∉ value.toList

instance (value : String) : Decidable (NulFree value) := inferInstanceAs (Decidable (_ ∉ _))

/-- The key of a task whose identity is free of NUL is the key of no other task. -/
theorem taskKey_inj {tenantID taskID tenantID' taskID' : String} (htenant : NulFree tenantID)
    (htask : NulFree taskID) : taskKey tenantID taskID = taskKey tenantID' taskID' ↔
      tenantID = tenantID' ∧ taskID = taskID' := by
  refine ⟨fun h => ?_, fun h => by rw [h.1, h.2]⟩
  have hlist : tenantID.toList ++ '\x00' :: taskID.toList =
      tenantID'.toList ++ '\x00' :: taskID'.toList := by
    simpa [taskKey, String.toList_append] using congrArg String.toList h
  obtain ⟨ht, -, hid⟩ := (List.append_cons_inj_of_notMem htenant htask).1 hlist
  exact ⟨String.toList_inj.1 ht, String.toList_inj.1 hid⟩

/-- `Backend`. -/
structure Backend where
  tasks : Go.Map Task := ∅
  refs : ℤ := 1
  closed : Bool := false

namespace Backend

/-- A backend after a write. -/
def setTask (b : Backend) (k : String) (task : Task) : Backend :=
  { b with tasks := b.tasks.insert k task }

/-- `NewMemoryWithBackend`. -/
def newView (b : Backend) : Backend := if b.closed then b else { b with refs := b.refs + 1 }

/-- `Enqueue`. -/
def enqueue (b : Backend) (now : ℤ) (input : TaskInput) : Except Err (Task × Bool) × Backend :=
  match validateInput input with
  | some err => (.error err, b)
  | none =>
    if b.closed then (.error .closed, b)
    else
      match b.tasks.lookup (taskKey input.tenantID input.taskID) with
      | some existing =>
        if existing.kind ≠ input.kind ∨ existing.payload ≠ input.payload then (.error .conflict, b)
        else (.ok (existing, true), b)
      | none =>
        (.ok (input.task now, false),
          b.setTask (taskKey input.tenantID input.taskID) (input.task now))

/-- `Get`. -/
def get (b : Backend) (tenantID taskID : String) : Except Err Task × Backend :=
  if tenantID = "" ∨ taskID = "" then (.error .invalid, b)
  else
    match b.tasks.lookup (taskKey tenantID taskID) with
    | none => (.error .notFound, b)
    | some task => (.ok task, b)

/-- The order in which `Claim` takes tasks: by their creation, then by their keys. -/
def before (x y : Sigma fun _ : String => Task) : Bool :=
  if x.2.createdAt = y.2.createdAt then x.1 < y.1 else x.2.createdAt < y.2.createdAt

/-- The task that `Claim` takes, with its key. -/
def oldest (b : Backend) (now : ℤ) (tenantID : String) : Option (Sigma fun _ : String => Task) :=
  (Go.sortSlice before (b.tasks.entries.filter fun entry => entry.2.eligible now tenantID)).head?

/-- `Claim`. -/
def claim (b : Backend) (now : ℤ) (tenantID owner : String) (leaseDuration : ℤ) :
    Except Err Task × Backend :=
  if owner = "" ∨ leaseDuration ≤ 0 then (.error .invalid, b)
  else if b.closed then (.error .closed, b)
  else
    match b.oldest now tenantID with
    | none => (.error .notFound, b)
    | some ⟨k, task⟩ =>
      (.ok (task.lease now owner leaseDuration), b.setTask k (task.lease now owner leaseDuration))

/-- `transition`. -/
def transition (b : Backend) (now : ℤ) (tenantID taskID owner : String) (fence : ℤ)
    (status : Status) (errorClass : String) (next : ℤ) : Except Err Task × Backend :=
  if tenantID = "" ∨ taskID = "" ∨ owner = "" ∨ fence ≤ 0 then (.error .invalid, b)
  else
    match b.tasks.lookup (taskKey tenantID taskID) with
    | none => (.error .notFound, b)
    | some task =>
      if task.status ≠ .leased ∨ task.leaseOwner ≠ owner ∨ task.fencingToken ≠ fence ∨
          expired now task.leaseExpiresAt then (.error .conflict, b)
      else
        (.ok (task.settle now status errorClass next),
          b.setTask (taskKey tenantID taskID) (task.settle now status errorClass next))

/-- `Complete`. -/
def complete (b : Backend) (now : ℤ) (tenantID taskID owner : String) (fence : ℤ) :
    Except Err Task × Backend :=
  b.transition now tenantID taskID owner fence .completed "" 0

/-- `Retry`. -/
def retry (b : Backend) (now : ℤ) (tenantID taskID owner : String) (fence next : ℤ)
    (errorClass : String) : Except Err Task × Backend :=
  b.transition now tenantID taskID owner fence .retryable errorClass next

/-- `Fail`. -/
def fail (b : Backend) (now : ℤ) (tenantID taskID owner : String) (fence : ℤ)
    (errorClass : String) : Except Err Task × Backend :=
  b.transition now tenantID taskID owner fence .failed errorClass 0

/-- `Close`, the first time a view is closed. -/
def close (b : Backend) : Backend :=
  let refs := if 0 < b.refs then b.refs - 1 else b.refs
  { b with refs := refs, closed := b.closed || refs = 0 }

end Backend

/-- A new view changes no task. -/
@[simp] theorem Backend.tasks_newView (b : Backend) : b.newView.tasks = b.tasks := by
  unfold newView
  split_ifs <;> rfl

/-! ## Calls -/

/-- The calls that end a lease, with the arguments in which they differ. -/
inductive Settlement where
  | complete
  | retry (next : ℤ) (errorClass : String)
  | fail (errorClass : String)
  deriving DecidableEq

/-- The calls of a queue. -/
inductive Call where
  | newView
  | enqueue (input : TaskInput)
  | get (tenantID taskID : String)
  | claim (tenantID owner : String) (leaseDuration : ℤ)
  | settle (tenantID taskID owner : String) (fence : ℤ) (settlement : Settlement)
  | close
  deriving DecidableEq

/-- What a call returns when it succeeds. -/
def Call.Val : Call → Type
  | .newView | .close => Unit
  | .enqueue _ => Task × Bool
  | .get .. | .claim .. | .settle .. => Task

/-- A call with its context and the clock at its execution. -/
structure Request where
  context : Context := .live
  /-- The clock. -/
  now : ℤ
  call : Call
  deriving DecidableEq

/-- The effect of a call that ends a lease. -/
def Backend.settle (b : Backend) (now : ℤ) (tenantID taskID owner : String) (fence : ℤ) :
    Settlement → Except Err Task × Backend
  | .complete => b.complete now tenantID taskID owner fence
  | .retry next errorClass => b.retry now tenantID taskID owner fence next errorClass
  | .fail errorClass => b.fail now tenantID taskID owner fence errorClass

/-- A call whose context is looked at first. -/
def Backend.withContext {α : Type} (context : Context) (b : Backend)
    (body : Except Err α × Backend) : Except Err α × Backend :=
  match contextErr context with
  | some err => (.error err, b)
  | none => body

/-- The effect of a call. Creating and closing a view take no context. -/
def Backend.perform (context : Context) (now : ℤ) (b : Backend) :
    (call : Call) → Except Err call.Val × Backend
  | .newView => (.ok (), b.newView)
  | .enqueue input => b.withContext context (b.enqueue now input)
  | .get tenantID taskID => b.withContext context (b.get tenantID taskID)
  | .claim tenantID owner leaseDuration =>
    b.withContext context (b.claim now tenantID owner leaseDuration)
  | .settle tenantID taskID owner fence settlement =>
    b.withContext context (b.settle now tenantID taskID owner fence settlement)
  | .close => (.ok (), b.close)

/-- The in-memory queue. -/
def memory : Server Request where
  State := Backend
  Res request := Except Err request.call.Val
  answer request b := b.perform request.context request.now request.call

/-! ## What a call can do -/

/-- The status that a call passes to `transition`. -/
def Settlement.status : Settlement → Status
  | .complete => .completed
  | .retry .. => .retryable
  | .fail _ => .failed

/-- The error class that a call passes to `transition`. -/
def Settlement.errorClass : Settlement → String
  | .complete => ""
  | .retry _ errorClass => errorClass
  | .fail errorClass => errorClass

/-- The next attempt that a call passes to `transition`: the zero time if there is none. -/
def Settlement.next : Settlement → ℤ
  | .retry next _ => next
  | .complete | .fail _ => 0

/-- The task that a call leaves. -/
def Settlement.apply (settlement : Settlement) (now : ℤ) (task : Task) : Task :=
  task.settle now settlement.status settlement.errorClass settlement.next

/-- The calls that end a lease go through `transition`. -/
theorem Backend.settle_eq (b : Backend) (now : ℤ) (tenantID taskID owner : String) (fence : ℤ)
    (settlement : Settlement) : b.settle now tenantID taskID owner fence settlement =
      b.transition now tenantID taskID owner fence settlement.status settlement.errorClass
        settlement.next := by
  cases settlement <;> rfl

/-- The task that `Claim` takes may be taken, and nothing that may be taken is older. -/
structure Backend.Oldest (b : Backend) (now : ℤ) (tenantID k : String) (task : Task) : Prop where
  /-- The task is there. -/
  found : b.tasks.lookup k = some task
  /-- It may be taken. -/
  eligible : task.eligible now tenantID = true
  /-- No task that may be taken is older. -/
  least : ∀ k' other, b.tasks.lookup k' = some other → other.eligible now tenantID = true →
    task.createdAt ≤ other.createdAt

/-- What `transition` needs of the lease that it ends. -/
structure Backend.Holds (b : Backend) (now : ℤ) (tenantID taskID owner : String) (fence : ℤ)
    (task : Task) : Prop where
  /-- The task is there. -/
  found : b.tasks.lookup (taskKey tenantID taskID) = some task
  /-- It is leased. -/
  leased : task.status = .leased
  /-- The owner is the caller. -/
  owner : task.leaseOwner = owner
  /-- The token is the caller's. -/
  fence : task.fencingToken = fence
  /-- The lease has not ended. -/
  unexpired : expired now task.leaseExpiresAt = false

/-- The effect of a successful call. -/
inductive Acts (now : ℤ) (b : Backend) : (call : Call) → call.Val → Backend → Prop
  /-- A new view. -/
  | viewed : Acts now b .newView () b.newView
  /-- A task that was there. -/
  | present (input : TaskInput) (existing : Task)
      (hfound : b.tasks.lookup (taskKey input.tenantID input.taskID) = some existing) :
      Acts now b (.enqueue input) (existing, true) b
  /-- A new task. -/
  | enqueued (input : TaskInput) (hvalid : validateInput input = none)
      (hnew : b.tasks.lookup (taskKey input.tenantID input.taskID) = none) :
      Acts now b (.enqueue input) (input.task now, false)
        (b.setTask (taskKey input.tenantID input.taskID) (input.task now))
  /-- A task is read. -/
  | read (tenantID taskID : String) (task : Task)
      (hfound : b.tasks.lookup (taskKey tenantID taskID) = some task) :
      Acts now b (.get tenantID taskID) task b
  /-- A task is leased. -/
  | claimed (tenantID owner : String) (leaseDuration : ℤ) (k : String) (task : Task)
      (howner : owner ≠ "") (h : b.oldest now tenantID = some ⟨k, task⟩) :
      Acts now b (.claim tenantID owner leaseDuration) (task.lease now owner leaseDuration)
        (b.setTask k (task.lease now owner leaseDuration))
  /-- A lease ends. -/
  | settled (tenantID taskID owner : String) (fence : ℤ) (settlement : Settlement) (task : Task)
      (h : b.Holds now tenantID taskID owner fence task) :
      Acts now b (.settle tenantID taskID owner fence settlement) (settlement.apply now task)
        (b.setTask (taskKey tenantID taskID) (settlement.apply now task))
  /-- A view is closed. -/
  | closed : Acts now b .close () b.close

namespace Backend

variable {b : Backend}

/-- `before` is the order by creation, then by key. -/
theorem before_iff (x y : Sigma fun _ : String => Task) :
    before x y = true ↔ toLex (x.2.createdAt, x.1) < toLex (y.2.createdAt, y.1) := by
  unfold before
  rw [Prod.Lex.toLex_lt_toLex]
  split_ifs with heq
  · simp [heq]
  · simp [heq]

variable {now : ℤ}

/-- The task that `Claim` takes. -/
theorem oldest_spec {tenantID : String} {entry : Sigma fun _ : String => Task}
    (h : b.oldest now tenantID = some entry) : b.Oldest now tenantID entry.1 entry.2 := by
  obtain ⟨hmem, hleast⟩ := Go.head_sortSlice before_iff h
  obtain ⟨hmem, heligible⟩ := List.mem_filter.1 hmem
  refine ⟨AList.mem_lookup_iff.2 hmem, heligible, fun k' other hother hel => ?_⟩
  have hle := hleast ⟨k', other⟩ (List.mem_filter.2 ⟨AList.mem_lookup_iff.1 hother, hel⟩)
  rcases Prod.Lex.toLex_le_toLex.1 hle with hlt | ⟨heq, -⟩
  · exact le_of_lt hlt
  · exact le_of_eq heq

/-- `Enqueue` fails, finds the task, or stores it. -/
theorem enqueue_spec (b : Backend) (now : ℤ) (input : TaskInput) :
    (∃ err, b.enqueue now input = (.error err, b)) ∨
    ∃ v b', b.enqueue now input = (.ok v, b') ∧ Acts now b (.enqueue input) v b' := by
  unfold enqueue
  cases hvalid : validateInput input with
  | some err => exact .inl ⟨err, rfl⟩
  | none =>
    dsimp only
    by_cases hclosed : b.closed = true
    · exact .inl ⟨.closed, if_pos hclosed⟩
    rw [if_neg hclosed]
    cases hlook : b.tasks.lookup (taskKey input.tenantID input.taskID) with
    | none => exact .inr ⟨_, _, rfl, .enqueued input hvalid hlook⟩
    | some existing =>
      dsimp only
      split_ifs
      · exact .inl ⟨.conflict, rfl⟩
      · exact .inr ⟨_, _, rfl, .present input existing hlook⟩

/-- `Get` fails or reads the task. -/
theorem get_spec (b : Backend) (now : ℤ) (tenantID taskID : String) :
    (∃ err, b.get tenantID taskID = (.error err, b)) ∨
    ∃ v b', b.get tenantID taskID = (.ok v, b') ∧ Acts now b (.get tenantID taskID) v b' := by
  unfold get
  split_ifs
  · exact .inl ⟨.invalid, rfl⟩
  · cases hlook : b.tasks.lookup (taskKey tenantID taskID) with
    | none => exact .inl ⟨.notFound, rfl⟩
    | some task => exact .inr ⟨_, _, rfl, .read tenantID taskID task hlook⟩

/-- `Claim` fails or leases the oldest task. -/
theorem claim_spec (b : Backend) (now : ℤ) (tenantID owner : String) (leaseDuration : ℤ) :
    (∃ err, b.claim now tenantID owner leaseDuration = (.error err, b)) ∨
    ∃ v b', b.claim now tenantID owner leaseDuration = (.ok v, b') ∧
      Acts now b (.claim tenantID owner leaseDuration) v b' := by
  unfold claim
  split_ifs with hinvalid
  · exact .inl ⟨.invalid, rfl⟩
  · exact .inl ⟨.closed, rfl⟩
  · cases holdest : b.oldest now tenantID with
    | none => exact .inl ⟨.notFound, rfl⟩
    | some =>
      obtain ⟨howner, -⟩ := not_or.1 hinvalid
      exact .inr ⟨_, _, rfl, .claimed tenantID owner leaseDuration _ _ howner holdest⟩

/-- `transition` refuses a task exactly when its caller does not hold the lease. -/
theorem stale_iff {tenantID taskID owner : String} {fence : ℤ} {task : Task}
    (hfound : b.tasks.lookup (taskKey tenantID taskID) = some task) :
    (task.status ≠ .leased ∨ task.leaseOwner ≠ owner ∨ task.fencingToken ≠ fence ∨
      expired now task.leaseExpiresAt = true) ↔ ¬ b.Holds now tenantID taskID owner fence task := by
  constructor
  · rintro hstale ⟨-, hleased, howner, hfence, hunexpired⟩
    simp [hleased, howner, hfence, hunexpired] at hstale
  · intro hfree
    by_contra hheld
    simp only [not_or, not_not, Bool.not_eq_true] at hheld
    obtain ⟨hleased, howner, hfence, hunexpired⟩ := hheld
    exact hfree ⟨hfound, hleased, howner, hfence, hunexpired⟩

/-- The holder of a lease ends it. -/
theorem Holds.settle_eq {tenantID taskID owner : String} {fence : ℤ} {task : Task}
    (h : b.Holds now tenantID taskID owner fence task) (htenant : tenantID ≠ "")
    (htask : taskID ≠ "") (howner : owner ≠ "") (hfence : 0 < fence) (settlement : Settlement) :
    b.settle now tenantID taskID owner fence settlement = (.ok (settlement.apply now task),
        b.setTask (taskKey tenantID taskID) (settlement.apply now task)) := by
  rw [Backend.settle_eq, transition, if_neg (by simp [htenant, htask, howner, hfence]), h.found]
  exact if_neg (mt (stale_iff h.found).1 (not_not.2 h))

/-- A call that ends a lease fails, or its caller holds the lease. -/
theorem settle_spec (b : Backend) (now : ℤ) (tenantID taskID owner : String) (fence : ℤ)
    (settlement : Settlement) :
    (∃ err, b.settle now tenantID taskID owner fence settlement = (.error err, b)) ∨
    ∃ v b', b.settle now tenantID taskID owner fence settlement = (.ok v, b') ∧
      Acts now b (.settle tenantID taskID owner fence settlement) v b' := by
  rw [settle_eq, transition]
  split_ifs
  · exact .inl ⟨.invalid, rfl⟩
  · cases hlook : b.tasks.lookup (taskKey tenantID taskID) with
    | none => exact .inl ⟨.notFound, rfl⟩
    | some task =>
      dsimp only
      split_ifs with hstale
      · exact .inl ⟨.conflict, rfl⟩
      · rw [stale_iff hlook, not_not] at hstale
        exact .inr ⟨_, _, rfl, .settled tenantID taskID owner fence settlement task hstale⟩

end Backend

/-- A call fails and leaves the backend as it is, or it acts. -/
theorem memory_spec (request : Request) (b : Backend) :
    (∃ err, memory.answer request b = (.error err, b)) ∨
    ∃ v b', memory.answer request b = (.ok v, b') ∧ Acts request.now b request.call v b' := by
  obtain ⟨context, now, call⟩ := request
  -- A context that is done, or none at all, ends a call before it does anything.
  have hcontext : ∀ {α : Type} {body : Except Err α × Backend} {acts : α → Backend → Prop},
      ((∃ err, body = (.error err, b)) ∨ ∃ v b', body = (.ok v, b') ∧ acts v b') →
      (∃ err, b.withContext context body = (.error err, b)) ∨
      ∃ v b', b.withContext context body = (.ok v, b') ∧ acts v b' := by
    intro α body acts hbody
    unfold Backend.withContext
    cases contextErr context with
    | some err => exact .inl ⟨err, rfl⟩
    | none => exact hbody
  cases call with
  | newView => exact .inr ⟨_, _, rfl, .viewed⟩
  | enqueue input => exact hcontext (b.enqueue_spec now input)
  | get tenantID taskID => exact hcontext (b.get_spec now tenantID taskID)
  | claim tenantID owner leaseDuration =>
    exact hcontext (b.claim_spec now tenantID owner leaseDuration)
  | settle tenantID taskID owner fence settlement =>
    exact hcontext (b.settle_spec now tenantID taskID owner fence settlement)
  | close => exact .inr ⟨_, _, rfl, .closed⟩

/-- A task after a call was there before, or it is new, or it was leased, or its lease ended. -/
theorem Acts.task {now : ℤ} {b b' : Backend} {call : Call} {v : call.Val}
    (h : Acts now b call v b') {k : String} {task : Task} (htask : b'.tasks.lookup k = some task) :
    b.tasks.lookup k = some task ∨
    (∃ input, call = .enqueue input ∧ taskKey input.tenantID input.taskID = k ∧
      validateInput input = none ∧ task = input.task now) ∨
    (∃ tenantID owner leaseDuration old, call = .claim tenantID owner leaseDuration ∧ owner ≠ "" ∧
      b.oldest now tenantID = some ⟨k, old⟩ ∧ task = old.lease now owner leaseDuration) ∨
    ∃ tenantID taskID owner fence settlement old,
      call = .settle tenantID taskID owner fence settlement ∧ taskKey tenantID taskID = k ∧
      b.Holds now tenantID taskID owner fence old ∧ task = settlement.apply now old := by
  cases h with
  | viewed =>
    rw [Backend.tasks_newView] at htask
    exact .inl htask
  | present | read | closed => exact .inl htask
  | enqueued input hvalid =>
    rcases Go.lookup_insert_eq_some.1 htask with ⟨rfl, rfl⟩ | ⟨-, hold⟩
    · exact .inr (.inl ⟨input, rfl, rfl, hvalid, rfl⟩)
    · exact .inl hold
  | claimed tenantID owner leaseDuration k' old howner holdest =>
    rcases Go.lookup_insert_eq_some.1 htask with ⟨rfl, rfl⟩ | ⟨-, hold⟩
    · exact .inr (.inr (.inl ⟨tenantID, owner, leaseDuration, old, rfl, howner, holdest, rfl⟩))
    · exact .inl hold
  | settled _ _ _ _ settlement old hholds =>
    rcases Go.lookup_insert_eq_some.1 htask with ⟨rfl, rfl⟩ | ⟨-, hold⟩
    · exact .inr (.inr (.inr ⟨_, _, _, _, settlement, old, rfl, rfl, hholds, rfl⟩))
    · exact .inl hold

end AgentService.Queue
