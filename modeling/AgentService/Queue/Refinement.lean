import AgentService.Queue.Postgres

/-!
# Two queues

The in-memory queue and the Postgres queue are given the same calls at the same readings of the
clock. They do not always answer alike: the database reports no duplicate, does not take the `NULL`
that `Complete` and `Fail` write, keeps an error class that is not replaced, refuses values that its
columns do not take, and PostgreSQL refuses the `RETURNING` of `Claim` altogether. Where the calls
avoid this (`Alike`), every call is answered alike (`queues_agree`): the tables of the two queues
stay equal (`Mirrors`).
-/

namespace AgentService.Queue

open Concurrent Sql
open Postgres (rowFault selectRow enqueue before claim claimSet writeRow timestamp settleRow withContext)
open Postgres (Engine Failure Table)
open Sql (isText isName)
open Postgres (rowFault satisfiesChecks leaseMilliseconds settleGuard)

/-! ## Answers that are alike -/

/-- What is compared of two tasks. -/
structure SameTask (task task' : Task) : Prop where
  status : task'.status = task.status
  attempts : task'.attempts = task.attempts
  fencingToken : task'.fencingToken = task.fencingToken
  leaseOwner : task'.leaseOwner = task.leaseOwner
  leaseExpiresAt : task'.leaseExpiresAt = task.leaseExpiresAt
  lastErrorClass : task'.lastErrorClass = task.lastErrorClass

theorem SameTask.refl (task : Task) : SameTask task task := ⟨rfl, rfl, rfl, rfl, rfl, rfl⟩

/-- What is compared of two values: the flag of `Enqueue`, and the tasks. -/
def SameVal : (call : Call) → call.Val → call.Val → Prop
  | .newView, _, _ | .close, _, _ => True
  | .enqueue _, (task, duplicate), (task', duplicate') =>
    duplicate' = duplicate ∧ SameTask task task'
  | .get .., task, task' | .claim .., task, task' | .settle .., task, task' => SameTask task task'

/-- A value is like itself. -/
theorem SameVal.refl (call : Call) (v : call.Val) : SameVal call v v := by
  cases call with
  | newView | close => trivial
  | enqueue => exact ⟨rfl, SameTask.refl v.1⟩
  | get | claim | settle => exact SameTask.refl v

/-- Both calls succeed with values that are alike, or both fail with the same error of the queue. -/
def SameAnswer (call : Call) : Except Err call.Val → Except Failure call.Val → Prop
  | .ok v, .ok v' => SameVal call v v'
  | .error err, .error failure => failure = .queue err
  | _, _ => False

/-! ## Calls that avoid the differences -/

/-- An input of `Enqueue` that the columns take, of a tenant that is there, and that is new. -/
structure FitsEnqueue (engine : Engine) (b : Backend) (input : TaskInput) : Prop where
  /-- The database takes the tenant. -/
  tenant : isText input.tenantID = true
  /-- The database takes the name. -/
  task : isText input.taskID = true
  /-- The database takes the kind. -/
  kind : isText input.kind = true
  /-- The name is not too long, and not only spaces. -/
  taskName : isName input.taskID 256 = true
  /-- The kind is not too long, and not only spaces. -/
  kindName : isName input.kind 128 = true
  /-- The tenant is there. -/
  found : b.tasks.lookup (taskKey input.tenantID input.taskID) = none →
    engine.tenants input.tenantID = true
  /-- The same task was not enqueued before. -/
  fresh : ∀ existing, b.tasks.lookup (taskKey input.tenantID input.taskID) = some existing →
    existing.kind ≠ input.kind ∨ existing.payload ≠ input.payload

/-- A claim that the database takes, and that picks the same task. -/
structure FitsClaim (engine : Engine) (b : Backend) (now : ℤ) (tenantID owner : String) : Prop where
  /-- The database takes the statement. -/
  accepted : engine.ambiguous = none
  /-- The database takes the tenant. -/
  tenant : isText tenantID = true
  /-- The database takes the owner. -/
  owner : isText owner = true
  /-- The database orders the tasks that were created at the same time as their keys are ordered. -/
  collation : ∀ x ∈ b.tasks.entries, ∀ y ∈ b.tasks.entries,
    x.2.eligible now tenantID = true → y.2.eligible now tenantID = true →
    x.2.createdAt = y.2.createdAt → engine.collation x.2.taskID y.2.taskID = decide (x.1 < y.1)
  /-- The columns take one more attempt. -/
  room : ∀ entry, b.oldest now tenantID = some entry →
    Sql.isInt4 (entry.2.attempts + 1) = true ∧ Sql.isInt8 (entry.2.fencingToken + 1) = true

/-- The end of a lease that the database takes. -/
structure FitsSettle (b : Backend) (now : ℤ) (tenantID taskID owner : String) (fence : ℤ)
    (settlement : Settlement) : Prop where
  /-- The database takes the tenant. -/
  tenant : isText tenantID = true
  /-- The database takes the name. -/
  task : isText taskID = true
  /-- The database takes the owner. -/
  holder : isText owner = true
  /-- The database takes the error class. -/
  errorClass : isText settlement.errorClass = true
  /-- A lease that is held is not completed or failed: the task is retried at a whole microsecond,
  with an error class that fits its column and replaces the one before. -/
  retried : ∀ task, b.Holds now tenantID taskID owner fence task →
    ∃ next errorClass, settlement = .retry next errorClass ∧ next % 1000 = 0 ∧
      errorClass.length ≤ 128 ∧ (errorClass ≠ "" ∨ task.lastErrorClass = "")

/-- A call that both queues answer alike. Only calls with a context that is not done and with
complete arguments reach the database. -/
def Alike (engine : Engine) (b : Backend) (request : Request) : Prop :=
  request.context = .live → match request.call with
    | .newView | .close => True
    | .enqueue input => validateInput input = none → FitsEnqueue engine b input
    | .get tenantID taskID => tenantID ≠ "" → taskID ≠ "" →
      isText tenantID = true ∧ isText taskID = true
    | .claim tenantID owner leaseDuration => owner ≠ "" → 0 < leaseDuration →
      FitsClaim engine b request.now tenantID owner
    | .settle tenantID taskID owner fence settlement =>
      tenantID ≠ "" → taskID ≠ "" → owner ≠ "" → 0 < fence →
      FitsSettle b request.now tenantID taskID owner fence settlement

/-- A call that is compared: one on tasks, where a claim is scoped to one tenant and its lease is of
whole milliseconds. -/
def Call.Compared : Call → Prop
  | .newView | .close => False
  | .enqueue _ | .get .. | .settle .. => True
  | .claim tenantID _ leaseDuration => tenantID ≠ "" ∧ leaseDuration % millisecond = 0

/-! ## The simulation -/

/-- The table of the database is that of the backend, which is open, whose leases have deadlines,
and whose tasks fit the columns. -/
structure Mirrors (b : Backend) (table : Table) : Prop where
  /-- The tables are equal. -/
  tasks : table = b.tasks
  /-- The backend is open. -/
  opened : b.closed = false
  /-- A lease has a deadline. -/
  timed : ∀ k task, b.tasks.lookup k = some task → task.status = .leased →
    task.leaseExpiresAt ≠ none
  /-- A task fits the columns. -/
  fits : ∀ k task, b.tasks.lookup k = some task → rowFault task = none

/-- The two answers to a call, with the states after it. -/
inductive Agrees {α : Type} : Except Err α × Backend → Except Failure α × Table → Prop
  /-- Both succeed. -/
  | ok (v : α) {b : Backend} {table : Table} (h : Mirrors b table) : Agrees (.ok v, b) (.ok v, table)
  /-- Both fail. -/
  | error (err : Err) {b : Backend} {table : Table} (h : Mirrors b table) :
      Agrees (.error err, b) (.error (.queue err), table)

section Calls

variable {engine : Engine} {b : Backend} {table : Table} {now : ℤ}

/-- Both queues write the same task. -/
theorem Mirrors.setTask (h : Mirrors b table) {k : String} {task : Task}
    (htimed : task.status = .leased → task.leaseExpiresAt ≠ none)
    (hfits : rowFault task = none) : Mirrors (b.setTask k task) (table.insert k task) where
  tasks := congrArg (AList.insert k task) h.tasks
  opened := h.opened
  timed k' task' htask' := by
    rcases Go.lookup_insert_eq_some.1 htask' with ⟨-, rfl⟩ | ⟨-, hold⟩
    · exact htimed
    · exact h.timed k' task' hold
  fits k' task' htask' := by
    rcases Go.lookup_insert_eq_some.1 htask' with ⟨-, rfl⟩ | ⟨-, hold⟩
    · exact hfits
    · exact h.fits k' task' hold

/-- A row fits the columns. -/
theorem rowFault_eq_none {row : Task} : rowFault row = none ↔
    (Sql.isInt4 row.attempts = true ∧ Sql.isInt8 row.fencingToken = true) ∧
      satisfiesChecks row = true := by
  unfold rowFault
  by_cases hints : isInt4 row.attempts = true ∧ isInt8 row.fencingToken = true
  · by_cases hchecks : satisfiesChecks row = true
    · simp [hints, hchecks]
    · simp [hints, hchecks]
  · simp [hints]

/-- A row satisfies the CHECK constraints. -/
theorem satisfiesChecks_iff {row : Task} : satisfiesChecks row = true ↔
    isName row.taskID 256 = true ∧ isName row.kind 128 = true ∧ 0 < row.payload.length ∧
      0 ≤ row.attempts ∧ 0 ≤ row.fencingToken ∧ row.lastErrorClass.length ≤ 128 :=
  decide_eq_true_iff

/-- A new task fits the columns. -/
theorem FitsEnqueue.rowFault {input : TaskInput} (h : FitsEnqueue engine b input)
    (hvalid : validateInput input = none) : rowFault (input.task now) = none := by
  obtain ⟨-, -, hpayload⟩ := validateInput_eq_none hvalid
  exact rowFault_eq_none.2 ⟨⟨rfl, rfl⟩, satisfiesChecks_iff.2
    ⟨h.taskName, h.kindName, hpayload, le_refl _, le_refl _, Nat.zero_le _⟩⟩

theorem texts_taken {texts : List String} (h : ∀ value ∈ texts, isText value = true) :
    Sql.parameterFault texts [] = none :=
  parameterFault_eq_none h (by simp)

/-- `Get` on both queues. -/
theorem Mirrors.get (h : Mirrors b table) {tenantID taskID : String}
    (htexts : tenantID ≠ "" → taskID ≠ "" → isText tenantID = true ∧ isText taskID = true) :
    Agrees (b.get tenantID taskID) (Postgres.get table tenantID taskID, table) := by
  obtain rfl := h.tasks
  unfold Backend.get Postgres.get
  by_cases hempty : tenantID = "" ∨ taskID = ""
  · rw [if_pos hempty, if_pos hempty]
    exact .error .invalid h
  · rw [if_neg hempty, if_neg hempty]
    obtain ⟨htenant, htask⟩ := not_or.1 hempty
    obtain ⟨htenant, htask⟩ := htexts htenant htask
    have hparameters : parameterFault [tenantID, taskID] [] = none :=
      texts_taken (by simp [htenant, htask])
    unfold selectRow
    rw [hparameters]
    dsimp only
    cases b.tasks.lookup (taskKey tenantID taskID) with
    | none => exact .error .notFound h
    | some task => exact .ok task h

/-- `Enqueue` on both queues. -/
theorem Mirrors.enqueue (h : Mirrors b table) {input : TaskInput}
    (hfits : validateInput input = none → FitsEnqueue engine b input) :
    Agrees (b.enqueue now input) (Postgres.enqueue engine now table input) := by
  obtain rfl := h.tasks
  unfold Backend.enqueue enqueue
  cases hvalid : validateInput input with
  | some err => exact .error err h
  | none =>
    have hfits := hfits hvalid
    have hparameters : parameterFault [input.tenantID, input.taskID, input.kind] [] = none :=
      texts_taken (by simp [hfits.tenant, hfits.task, hfits.kind])
    have hrow : rowFault (input.task now) = none := hfits.rowFault hvalid
    unfold Postgres.insertRow
    simp only [hparameters, hrow, h.opened, Bool.false_eq_true, if_false]
    cases hlook : b.tasks.lookup (taskKey input.tenantID input.taskID) with
    | none =>
      rw [if_neg (not_not.2 (hfits.found hlook))]
      exact .ok _ (h.setTask (by simp [TaskInput.task]) hrow)
    | some existing =>
      -- A task that differs is found by the second statement.
      have hdiffers := hfits.fresh existing hlook
      have hget : Postgres.get b.tasks input.tenantID input.taskID = .ok existing := by
        obtain ⟨htenant, htask, -⟩ := validateInput_eq_none hvalid
        have htexts : parameterFault [input.tenantID, input.taskID] [] = none :=
          texts_taken (by simp [hfits.tenant, hfits.task])
        simp [Postgres.get, selectRow, htenant, htask, htexts, hlook]
      have hsame : ¬ (existing.kind = input.kind ∧ existing.payload = input.payload) := by
        rw [not_and_or]
        exact hdiffers
      simp only [if_neg hsame, hget, if_pos hdiffers]
      exact .error .conflict h

/-- The database picks the task that `Claim` takes. -/
theorem FitsClaim.candidate {tenantID owner : String} (h : FitsClaim engine b now tenantID owner) :
    Postgres.candidate engine now b.tasks tenantID = b.oldest now tenantID := by
  unfold Postgres.candidate Backend.oldest
  rw [Go.sortSlice_congr]
  intro x hx y hy
  obtain ⟨hx, hxel⟩ := List.mem_filter.1 hx
  obtain ⟨hy, hyel⟩ := List.mem_filter.1 hy
  unfold before Backend.before
  split_ifs with hcreated
  · exact h.collation x hx y hy hxel hyel hcreated
  · rfl

/-- A lease of whole milliseconds is kept. -/
theorem leaseMilliseconds_mul {lease : ℤ} (hpos : 0 < lease) (hwhole : lease % millisecond = 0) :
    leaseMilliseconds lease * millisecond = lease := by
  have hdiv : lease / millisecond * millisecond = lease := by
    have hsplit := Int.ediv_mul_add_emod lease millisecond
    omega
  have hne : lease / millisecond ≠ 0 := by
    intro hzero
    rw [hzero] at hdiv
    omega
  unfold leaseMilliseconds
  simp only [hwhole, ne_eq, not_true_eq_false, if_false, hne, hdiv]

/-- `Claim` on both queues. -/
theorem Mirrors.claim (h : Mirrors b table) {tenantID owner : String} {lease : ℤ}
    (hwhole : lease % millisecond = 0)
    (hfits : owner ≠ "" → 0 < lease → FitsClaim engine b now tenantID owner) :
    Agrees (b.claim now tenantID owner lease)
      (Postgres.claim engine now table tenantID owner lease) := by
  obtain rfl := h.tasks
  unfold Backend.claim claim
  by_cases hinvalid : owner = "" ∨ lease ≤ 0
  · rw [if_pos hinvalid, if_pos hinvalid]
    exact .error .invalid h
  · rw [if_neg hinvalid, if_neg hinvalid, h.opened, if_neg Bool.false_ne_true]
    obtain ⟨howner, hpos⟩ := not_or.1 hinvalid
    rw [not_le] at hpos
    have hfits := hfits howner hpos
    have hparameters : parameterFault [tenantID, owner] [] = none :=
      texts_taken (by simp [hfits.tenant, hfits.owner])
    unfold Postgres.claimRow
    rw [hfits.accepted, hparameters, hfits.candidate]
    dsimp only
    cases holdest : b.oldest now tenantID with
    | none => exact .error .notFound h
    | some entry =>
      obtain ⟨k, task⟩ := entry
      dsimp only
      have hfound := (Backend.oldest_spec holdest).found
      obtain ⟨hroom4, hroom8⟩ := hfits.room _ holdest
      have hset : claimSet now owner (leaseMilliseconds lease) task =
          task.lease now owner lease := by
        rw [claimSet, leaseMilliseconds_mul hpos hwhole, Task.lease]
      have hrow : rowFault (task.lease now owner lease) = none := by
        obtain ⟨-, hchecks⟩ := rowFault_eq_none.1 (h.fits k task hfound)
        obtain ⟨htask, hkind, hpayload, hattempts, htoken, hclass⟩ := satisfiesChecks_iff.1 hchecks
        exact rowFault_eq_none.2 ⟨⟨hroom4, hroom8⟩, satisfiesChecks_iff.2
          ⟨htask, hkind, hpayload, Int.le_add_one hattempts, Int.le_add_one htoken, hclass⟩⟩
      unfold writeRow
      rw [hset, hrow]
      exact .ok _ (h.setTask (by simp [Task.lease]) hrow)

/-- The database ends a lease exactly when its caller holds it. -/
theorem settleGuard_iff (h : Mirrors b table) {tenantID taskID owner : String} {fence : ℤ}
    {task : Task} (hlook : b.tasks.lookup (taskKey tenantID taskID) = some task) :
    settleGuard now owner fence task = true ↔
      b.Holds now tenantID taskID owner fence task := by
  simp only [settleGuard, decide_eq_true_eq]
  constructor
  · rintro ⟨hleased, howner, hfence, deadline, hdeadline, _⟩
    refine ⟨hlook, hleased, howner, hfence, ?_⟩
    rw [Option.mem_def.1 hdeadline, expired, decide_eq_false_iff_not]
    omega
  · intro hholds
    obtain ⟨deadline, hdeadline⟩ :=
      Option.ne_none_iff_exists'.1 (h.timed _ task hlook hholds.leased)
    have hunexpired := hholds.unexpired
    rw [hdeadline, expired, decide_eq_false_iff_not] at hunexpired
    exact ⟨hholds.leased, hholds.owner, hholds.fence, deadline, hdeadline, by omega⟩

/-- The next attempt that a call passes to `transition` of the database. -/
def Settlement.nextExpr : Settlement → Option ℤ
  | .retry next _ => some next
  | .complete | .fail _ => none

/-- The calls that end a lease go through `transition` of the database. -/
theorem Postgres.settle_eq (now : ℤ) (table : Table) (tenantID taskID owner : String) (fence : ℤ)
    (settlement : Settlement) : Postgres.settle now table tenantID taskID owner fence settlement =
      Postgres.transition now table tenantID taskID owner fence settlement.status
        settlement.errorClass settlement.nextExpr := by
  cases settlement <;> rfl

/-- The end of a lease on both queues. -/
theorem Mirrors.settle (h : Mirrors b table) {tenantID taskID owner : String} {fence : ℤ}
    {settlement : Settlement} (hfits : tenantID ≠ "" → taskID ≠ "" → owner ≠ "" → 0 < fence →
      FitsSettle b now tenantID taskID owner fence settlement) :
    Agrees (b.settle now tenantID taskID owner fence settlement)
      (Postgres.settle now table tenantID taskID owner fence settlement) := by
  obtain rfl := h.tasks
  rw [Backend.settle_eq, Postgres.settle_eq, Backend.transition, Postgres.transition]
  by_cases hinvalid : tenantID = "" ∨ taskID = "" ∨ owner = "" ∨ fence ≤ 0
  · rw [if_pos hinvalid, if_pos hinvalid]
    exact .error .invalid h
  rw [if_neg hinvalid, if_neg hinvalid]
  simp only [not_or, not_le] at hinvalid
  obtain ⟨htenant, htask, howner, hfence⟩ := hinvalid
  have hfits := hfits htenant htask howner hfence
  have hparameters : parameterFault [tenantID, taskID, owner, settlement.errorClass] [] = none :=
    texts_taken (by simp [hfits.tenant, hfits.task, hfits.holder, hfits.errorClass])
  have hkey : parameterFault [tenantID, taskID] [] = none :=
    texts_taken (by simp [hfits.tenant, hfits.task])
  cases hlook : b.tasks.lookup (taskKey tenantID taskID) with
  | none =>
    simp only [settleRow, Postgres.get, selectRow, hparameters, hkey, hlook, htenant,
      htask, or_self, if_false]
    exact .error .notFound h
  | some task =>
    by_cases hholds : b.Holds now tenantID taskID owner fence task
    · obtain ⟨next, errorClass, rfl, hwhole, hlength, hclass⟩ := hfits.retried task hholds
      have hrow : rowFault ((Settlement.retry next errorClass).apply now task) = none := by
        obtain ⟨hints, hchecks⟩ := rowFault_eq_none.1 (h.fits _ task hlook)
        obtain ⟨htaskID, hkind, hpayload, hattempts, htoken, -⟩ := satisfiesChecks_iff.1 hchecks
        exact rowFault_eq_none.2 ⟨hints, satisfiesChecks_iff.2
          ⟨htaskID, hkind, hpayload, hattempts, htoken, hlength⟩⟩
      have hguard := (settleGuard_iff h hlook).2 hholds
      have hstale := mt (Backend.stale_iff hlook).1 (not_not.2 hholds)
      have hstatement : settleRow now b.tasks tenantID taskID owner fence .retryable
          errorClass (some next) = (.ok ((Settlement.retry next errorClass).apply now task),
            b.tasks.insert (taskKey tenantID taskID)
              ((Settlement.retry next errorClass).apply now task)) := by
        have htexts : parameterFault [tenantID, taskID, owner, errorClass] [] = none := hparameters
        have htimestamp : timestamp next = next := by
          unfold timestamp
          omega
        simp only [settleRow, htexts, hlook, hguard, not_true_eq_false, if_false]
        rw [htimestamp, coalesce_nullif hclass]
        change writeRow b.tasks _ ((Settlement.retry next errorClass).apply now task) = _
        rw [writeRow, hrow]
      dsimp only
      rw [if_neg hstale]
      simp only [Settlement.status, Settlement.errorClass, Settlement.nextExpr, hstatement]
      exact .ok _ (h.setTask (by simp [Task.settle]) hrow)
    · have hguard := mt (settleGuard_iff h hlook).1 hholds
      have hstale := (Backend.stale_iff hlook).2 hholds
      have hstatement : settleRow now b.tasks tenantID taskID owner fence settlement.status
          settlement.errorClass settlement.nextExpr = (.error .noRows, b.tasks) := by
        simp only [settleRow, hparameters, hlook]
        exact if_pos hguard
      have hget : Postgres.get b.tasks tenantID taskID = .ok task := by
        simp [Postgres.get, selectRow, hkey, hlook, htenant, htask]
      dsimp only
      rw [if_pos hstale, hstatement]
      dsimp only
      rw [hget]
      exact .error .conflict h

end Calls

/-- Where a call is alike, both queues answer it alike, and their tables stay equal. -/
theorem Mirrors.answer {engine : Engine} {b : Backend} {table : Table} (h : Mirrors b table)
    {request : Request} (hcompared : request.call.Compared) (halike : Alike engine b request) :
    SameAnswer request.call (memory.answer request b).1
        ((Postgres.server engine).answer request table).1 ∧
      Mirrors (memory.answer request b).2 ((Postgres.server engine).answer request table).2 := by
  obtain ⟨context, _, call⟩ := request
  -- A context that is done ends the call on both sides.
  have hcontext : ∀ {call : Call} {body : Except Err call.Val × Backend}
      {body' : Except Failure call.Val × Table}, (context = .live → Agrees body body') →
      SameAnswer call (b.withContext context body).1 (withContext context table body').1 ∧
        Mirrors (b.withContext context body).2 (withContext context table body').2 := by
    intro call body body' hbody
    cases context with
    | nil => exact ⟨rfl, h⟩
    | done => exact ⟨rfl, h⟩
    | live =>
      cases hbody rfl with
      | ok v hafter => exact ⟨SameVal.refl call v, hafter⟩
      | error err hafter => exact ⟨rfl, hafter⟩
  cases call with
  | newView | close => cases hcompared
  | enqueue => exact hcontext fun hlive => h.enqueue (halike hlive)
  | get => exact hcontext fun hlive => h.get (halike hlive)
  | claim => exact hcontext fun hlive => h.claim hcompared.2 (halike hlive)
  | settle =>
    exact hcontext fun hlive => h.settle (halike hlive)

end AgentService.Queue
