import AgentService.Queue.Memory
import AgentService.Sql.Values

/-!
# The Postgres execution queue

`trpcservice/runtime/queue/postgres/postgres.go` over the table `runtime_execution_queue` of the
migrations. Each SQL statement is one function from the table to its row, or its fault, and the
table after it; `now()` is the clock reading of the call. A row is a `Task`, column by column, and
stands under the key of its tenant and its name: the texts of a row have no NUL character, so that
the key is as good as the pair that is the primary key.
-/

namespace AgentService.Queue.Postgres

open Concurrent
open Storage (Context)

/-- What the queue meets in a database. -/
structure Engine where
  /-- The tenants of the table `tenant`. -/
  tenants : String → Bool
  /-- The order of texts. -/
  collation : String → String → Bool
  /-- What a statement ends with whose `RETURNING` names a column that two of its tables have.
  PostgreSQL refuses it (42702). -/
  ambiguous : Option Sql.Fault

/-- What a call fails with: an error of the queue, or a fault that is passed on as it is. -/
inductive Failure where
  | queue (err : Err)
  | database (fault : Sql.Fault)
  deriving DecidableEq

/-- The table. -/
abbrev Table := Go.Map Task

/-! ## Constraints -/

/-- The CHECK constraints. -/
def satisfiesChecks (row : Task) : Bool :=
  Sql.isName row.taskID 256 ∧ Sql.isName row.kind 128 ∧ 0 < row.payload.length ∧
    0 ≤ row.attempts ∧ 0 ≤ row.fencingToken ∧ row.lastErrorClass.length ≤ 128

/-- What writing a row fails with: a number out of the range of its column (22003), or a CHECK
constraint (23514). -/
def rowFault (row : Task) : Option Sql.Fault :=
  if ¬ (Sql.isInt4 row.attempts ∧ Sql.isInt8 row.fencingToken) then some (.state "22003")
  else if ¬ satisfiesChecks row then some (.state "23514")
  else none

/-- What a `TIMESTAMPTZ` parameter keeps of an instant: whole microseconds. -/
def timestamp (instant : ℤ) : ℤ := instant / 1000 * 1000

/-! ## Statements -/

/-- The INSERT of `Enqueue`. A row that is there is returned as it is, when it has the same
content. -/
def insertRow (engine : Engine) (now : ℤ) (table : Table) (input : TaskInput) :
    Except Sql.Fault Task × Table :=
  match Sql.parameterFault [input.tenantID, input.taskID, input.kind] [] with
  | some fault => (.error fault, table)
  | none =>
    match rowFault (input.task now) with
    | some fault => (.error fault, table)
    | none =>
      let k := taskKey input.tenantID input.taskID
      match table.lookup k with
      | some existing =>
        if existing.kind = input.kind ∧ existing.payload = input.payload then (.ok existing, table)
        else (.error .noRows, table)
      | none =>
        if ¬ engine.tenants input.tenantID then (.error (.state "23503"), table)
        else (.ok (input.task now), table.insert k (input.task now))

/-- The SELECT of `Get`. -/
def selectRow (table : Table) (tenantID taskID : String) : Except Sql.Fault Task :=
  match Sql.parameterFault [tenantID, taskID] [] with
  | some fault => .error fault
  | none =>
    match table.lookup (taskKey tenantID taskID) with
    | none => .error .noRows
    | some row => .ok row

/-- `ORDER BY created_at,task_id`. -/
def before (engine : Engine) (x y : Sigma fun _ : String => Task) : Bool :=
  if x.2.createdAt = y.2.createdAt then engine.collation x.2.taskID y.2.taskID
  else x.2.createdAt < y.2.createdAt

/-- The row that the UPDATE of `Claim` picks, with its key. The condition on a row is that of the
in-memory queue; a null deadline has not passed. -/
def candidate (engine : Engine) (now : ℤ) (table : Table) (tenantID : String) :
    Option (Sigma fun _ : String => Task) :=
  (Go.sortSlice (before engine)
    (table.entries.filter fun entry => entry.2.eligible now tenantID)).head?

/-- What the UPDATE of `Claim` sets. -/
def claimSet (now : ℤ) (owner : String) (milliseconds : ℤ) (row : Task) : Task :=
  { row with
    status := .leased
    attempts := row.attempts + 1
    fencingToken := row.fencingToken + 1
    leaseOwner := owner
    leaseExpiresAt := some (now + milliseconds * millisecond)
    updatedAt := now }

/-- A row is written, if its constraints hold. -/
def writeRow (table : Table) (k : String) (row : Task) : Except Sql.Fault Task × Table :=
  match rowFault row with
  | some fault => (.error fault, table)
  | none => (.ok row, table.insert k row)

/-- The UPDATE of `Claim`. Its `RETURNING` names the columns `tenant_id` and `task_id`, which the
table and the candidate both have. -/
def claimRow (engine : Engine) (now : ℤ) (table : Table) (tenantID owner : String)
    (milliseconds : ℤ) : Except Sql.Fault Task × Table :=
  match engine.ambiguous with
  | some fault => (.error fault, table)
  | none =>
    match Sql.parameterFault [tenantID, owner] [] with
    | some fault => (.error fault, table)
    | none =>
      match candidate engine now table tenantID with
      | none => (.error .noRows, table)
      | some ⟨k, row⟩ => writeRow table k (claimSet now owner milliseconds row)

/-- The condition of the UPDATE of `transition`. -/
def settleGuard (now : ℤ) (owner : String) (fence : ℤ) (row : Task) : Bool :=
  row.status = .leased ∧ row.leaseOwner = owner ∧ row.fencingToken = fence ∧
    ∃ deadline ∈ row.leaseExpiresAt, deadline > now

/-- The UPDATE of `transition`. The next attempt is an expression: `none` for `NULL`, which the
column does not take (23502). -/
def settleRow (now : ℤ) (table : Table) (tenantID taskID owner : String) (fence : ℤ)
    (status : Status) (errorClass : String) (next : Option ℤ) : Except Sql.Fault Task × Table :=
  match Sql.parameterFault [tenantID, taskID, owner, errorClass] [] with
  | some fault => (.error fault, table)
  | none =>
    match table.lookup (taskKey tenantID taskID) with
    | none => (.error .noRows, table)
    | some row =>
      if ¬ settleGuard now owner fence row then (.error .noRows, table)
      else
        match next with
        | none => (.error (.state "23502"), table)
        | some next =>
          writeRow table (taskKey tenantID taskID)
            { row with
              status := status
              leaseOwner := ""
              leaseExpiresAt := none
              nextAttemptAt := timestamp next
              lastErrorClass := Sql.coalesce (Sql.nullif errorClass "") row.lastErrorClass
              updatedAt := now }

/-! ## The store -/

/-- `Get`. -/
def get (table : Table) (tenantID taskID : String) : Except Failure Task :=
  if tenantID = "" ∨ taskID = "" then .error (.queue .invalid)
  else
    match selectRow table tenantID taskID with
    | .ok row => .ok row
    | .error .noRows => .error (.queue .notFound)
    | .error fault => .error (.database fault)

/-- `Enqueue`. -/
def enqueue (engine : Engine) (now : ℤ) (table : Table) (input : TaskInput) :
    Except Failure (Task × Bool) × Table :=
  match validateInput input with
  | some err => (.error (.queue err), table)
  | none =>
    match insertRow engine now table input with
    | (.ok row, table) => (.ok (row, false), table)
    | (.error .noRows, table) =>
      match get table input.tenantID input.taskID with
      | .error failure => (.error failure, table)
      | .ok row =>
        if row.kind ≠ input.kind ∨ row.payload ≠ input.payload then
          (.error (.queue .conflict), table)
        else (.ok (row, true), table)
    | (.error fault, table) => (.error (.database fault), table)

/-- The number of milliseconds that a positive lease is given. -/
def leaseMilliseconds (lease : ℤ) : ℤ :=
  let milliseconds :=
    if lease % millisecond ≠ 0 then lease / millisecond + 1 else lease / millisecond
  if milliseconds = 0 then 1 else milliseconds

/-- `Claim`. -/
def claim (engine : Engine) (now : ℤ) (table : Table) (tenantID owner : String) (lease : ℤ) :
    Except Failure Task × Table :=
  if owner = "" ∨ lease ≤ 0 then (.error (.queue .invalid), table)
  else
    match claimRow engine now table tenantID owner (leaseMilliseconds lease) with
    | (.ok row, table) => (.ok row, table)
    | (.error .noRows, table) => (.error (.queue .notFound), table)
    | (.error fault, table) => (.error (.database fault), table)

/-- `transition`. -/
def transition (now : ℤ) (table : Table) (tenantID taskID owner : String) (fence : ℤ)
    (status : Status) (errorClass : String) (next : Option ℤ) : Except Failure Task × Table :=
  if tenantID = "" ∨ taskID = "" ∨ owner = "" ∨ fence ≤ 0 then (.error (.queue .invalid), table)
  else
    match settleRow now table tenantID taskID owner fence status errorClass next with
    | (.ok row, table) => (.ok row, table)
    | (.error .noRows, table) =>
      match get table tenantID taskID with
      | .error failure => (.error failure, table)
      | .ok _ => (.error (.queue .conflict), table)
    | (.error fault, table) => (.error (.database fault), table)

/-- `Complete`. -/
def complete (now : ℤ) (table : Table) (tenantID taskID owner : String) (fence : ℤ) :
    Except Failure Task × Table :=
  transition now table tenantID taskID owner fence .completed "" none

/-- `Retry`. -/
def retry (now : ℤ) (table : Table) (tenantID taskID owner : String) (fence next : ℤ)
    (errorClass : String) : Except Failure Task × Table :=
  transition now table tenantID taskID owner fence .retryable errorClass (some next)

/-- `Fail`. -/
def fail (now : ℤ) (table : Table) (tenantID taskID owner : String) (fence : ℤ)
    (errorClass : String) : Except Failure Task × Table :=
  transition now table tenantID taskID owner fence .failed errorClass none

/-- The effect of a call that ends a lease. -/
def settle (now : ℤ) (table : Table) (tenantID taskID owner : String) (fence : ℤ) :
    Settlement → Except Failure Task × Table
  | .complete => complete now table tenantID taskID owner fence
  | .retry next errorClass => retry now table tenantID taskID owner fence next errorClass
  | .fail errorClass => fail now table tenantID taskID owner fence errorClass

/-- A call whose context is looked at first (`check`). -/
def withContext {α : Type} (context : Context) (table : Table)
    (body : Except Failure α × Table) : Except Failure α × Table :=
  match contextErr context with
  | some err => (.error (.queue err), table)
  | none => body

/-- The effect of a call. Stores share the database, and closing one does nothing. -/
def perform (engine : Engine) (context : Context) (now : ℤ) (table : Table) :
    (call : Call) → Except Failure call.Val × Table
  | .newView => (.ok (), table)
  | .enqueue input => withContext context table (enqueue engine now table input)
  | .get tenantID taskID => withContext context table (get table tenantID taskID, table)
  | .claim tenantID owner leaseDuration =>
    withContext context table (claim engine now table tenantID owner leaseDuration)
  | .settle tenantID taskID owner fence settlement =>
    withContext context table (settle now table tenantID taskID owner fence settlement)
  | .close => (.ok (), table)

/-- The Postgres queue. -/
abbrev server (engine : Engine) : Server Request where
  State := Table
  Res request := Except Failure request.call.Val
  answer request table := perform engine request.context request.now table request.call

end AgentService.Queue.Postgres
