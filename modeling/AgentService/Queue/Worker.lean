import AgentService.Queue.Leases

/-!
# Queue workers

The `Worker` of `trpcservice/runtime/queue/queue.go`: `New`, `Start` with its loop, `RunOnce`, and
`Close`. A pool is any number of workers over one in-memory queue. Everything that can happen next
is an `Event`: the clock moves, someone enqueues a task, a context ends, a worker is created,
started, or closed, `RunOnce` is called, a call of `RunOnce` goes on to its next step, its handler
returns, or it crashes. A run of the pool is a list of events in any order (`pool`).

`RunOnce` goes through the phases of `Phase`, with one step for each thing that others can observe
or interfere with: the look at `closed`, the look at the context, the claim, the start of the
handler, its return, and the last call of the store. What an event can do to the tasks and the
phases is said once, by `Moves`.
-/

namespace AgentService.Queue

open Concurrent
open Storage (Context CtxErr)

/-! ## Workers -/

/-- `Config`, up to the store, the handler, and the poll interval. -/
structure Config where
  tenantID : String := ""
  owner : String
  leaseDuration : ℤ
  maxAttempts : ℤ := 0
  backoffBase : ℤ := 0
  backoffMax : ℤ := 0
  deriving DecidableEq

/-- The fields of a `Worker` that never change. -/
structure Worker where
  tenantID : String
  owner : String
  leaseDuration : ℤ
  maxAttempts : ℤ
  backoffBase : ℤ
  backoffMax : ℤ
  deriving DecidableEq

/-- A setting, or its default. -/
def orDefault (value default : ℤ) : ℤ := if value ≤ 0 then default else value

/-- `New`. -/
def Worker.new (config : Config) : Except Err Worker :=
  if config.owner = "" ∨ config.leaseDuration ≤ 0 then .error .invalid
  else
    let maxAttempts := orDefault config.maxAttempts 3
    let backoffBase := orDefault config.backoffBase (100 * millisecond)
    let backoffMax := orDefault config.backoffMax (10000 * millisecond)
    if backoffMax < backoffBase then .error .invalid
    else .ok ⟨config.tenantID, config.owner, config.leaseDuration, maxAttempts, backoffBase,
      backoffMax⟩

/-- The loop of `backoff`, with the number of rounds that are left. -/
def backoffLoop (backoffMax : ℤ) : ℕ → ℤ → ℤ
  | 0, d => if d > backoffMax then backoffMax else d
  | rounds + 1, d =>
    if d ≥ backoffMax.tdiv 2 then backoffMax else backoffLoop backoffMax rounds (d * 2)

/-- `backoff`. -/
def Worker.backoff (w : Worker) (attempt : ℤ) : ℤ :=
  backoffLoop w.backoffMax (attempt - 1).toNat w.backoffBase

/-- The error of a handler: what `errors.Is` and `errors.As` find in it. -/
structure HandlerErr where
  /-- It is `context.Canceled`. -/
  canceled : Bool := false
  /-- It is `context.DeadlineExceeded`. -/
  deadlineExceeded : Bool := false
  /-- It is a `RetryableError`. -/
  retryable : Bool := false
  deriving DecidableEq

/-- `errorClass`. -/
def HandlerErr.errorClass (err : HandlerErr) : String :=
  if err.canceled then "canceled"
  else if err.deadlineExceeded then "deadline_exceeded"
  else "handler_error"

/-- What `RunOnce` asks of the store when the handler has returned. The delay of a retry counts from
`now`, when `RunOnce` looks at the clock, which is before the store does. -/
def Worker.settlement (w : Worker) (now : ℤ) (task : Task) : Option HandlerErr → Settlement
  | none => .complete
  | some err =>
    if (err.canceled ∨ err.deadlineExceeded ∨ err.retryable) ∧ task.attempts < w.maxAttempts then
      .retry (now + w.backoff task.attempts) err.errorClass
    else .fail err.errorClass

/-- The context in which `RunOnce` asks it: its own for a success, and `context.Background()`
for an error. -/
def settlementContext (context : Context) : Option HandlerErr → Context
  | none => context
  | some _ => .live

/-! ## The pool -/

/-- A context that a caller passes: whether it is done, and the tenant that `WithTenant` put into
it. -/
structure Ctx where
  state : Context := .live
  tenantID : String := ""
  deriving DecidableEq

/-- Where a call of `RunOnce` stands. -/
inductive Phase where
  /-- It has been called. -/
  | called
  /-- It has seen that the worker is not closed. -/
  | opened
  /-- It has seen that its context is not done. -/
  | claiming
  /-- It has claimed a task. -/
  | claimed (task : Task)
  /-- The handler runs. -/
  | handling (task : Task)
  /-- The handler has returned, at this time. -/
  | finished (task : Task) (err : Option HandlerErr) (since : ℤ)
  /-- `RunOnce` has returned. -/
  | returned (worked : Bool) (err : Option Err)
  /-- The process has crashed. -/
  | crashed
  deriving DecidableEq

/-- Whether `RunOnce` has returned. -/
def Phase.isReturned : Phase → Bool
  | .returned .. => true
  | _ => false

/-- The task that `RunOnce` works on. -/
def Phase.held : Phase → Option Task
  | .claimed task | .handling task | .finished task _ _ => some task
  | .called | .opened | .claiming | .returned .. | .crashed => none

/-- A call of `RunOnce`. -/
structure Run where
  /-- The number of its worker. -/
  member : ℕ
  /-- The fields of the worker that never change. -/
  worker : Worker
  /-- The number of its context. -/
  ctx : ℕ
  /-- Where it stands. -/
  phase : Phase := .called
  deriving DecidableEq

/-- A worker of a pool. -/
structure Member where
  /-- The fields that never change. -/
  worker : Worker
  /-- Whether it is closed. -/
  closed : Bool := false
  /-- The number of the context of its loop, once it is started. -/
  loop : Option ℕ := none
  deriving DecidableEq

/-- Workers over one queue. -/
structure Pool where
  clock : ℤ := 0
  /-- The queue. -/
  backend : Backend := {}
  contexts : List Ctx := []
  /-- The workers. -/
  members : List Member := []
  /-- The calls of `RunOnce`. -/
  runs : List Run := []

/-- What can happen next. -/
inductive Event where
  /-- Time passes. -/
  | advance (d : ℕ)
  /-- A client calls `Enqueue`. -/
  | enqueue (context : Context) (input : TaskInput)
  /-- Someone creates a view of the queue. -/
  | newView
  /-- Someone closes a view of the queue. -/
  | closeView
  /-- `New` is called. -/
  | create (config : Config)
  /-- `Start` is called. -/
  | start (member : ℕ) (ctx : Ctx)
  /-- The loop of a worker calls `RunOnce`. -/
  | poll (member : ℕ)
  /-- Someone else calls `RunOnce`. -/
  | runOnce (member : ℕ) (ctx : Ctx)
  /-- A context is done. -/
  | contextDone (ctx : ℕ) (cause : CtxErr)
  /-- `Close` is called. -/
  | close (member : ℕ)
  /-- A call of `RunOnce` takes its next step. -/
  | step (run : ℕ)
  /-- The handler of a call of `RunOnce` returns. -/
  | handlerReturns (run : ℕ) (err : Option HandlerErr)
  /-- The process of a call of `RunOnce` crashes. -/
  | crash (run : ℕ)
  deriving DecidableEq

/-- A context that is done stays as it is. -/
def Ctx.cancel (cause : CtxErr) (ctx : Ctx) : Ctx :=
  if ctx.state = .live then { ctx with state := .done cause } else ctx

namespace Pool

/-- The end of a context. -/
def cancel (p : Pool) (ctx : ℕ) (cause : CtxErr) : Pool :=
  { p with contexts := p.contexts.modify ctx (Ctx.cancel cause) }

/-- A new worker, if `New` accepts its configuration. -/
def create (p : Pool) (config : Config) : Pool :=
  match Worker.new config with
  | .error _ => p
  | .ok worker => { p with members := p.members ++ [⟨worker, false, none⟩] }

/-- `Start`. Its loop gets a context of its own, which ends with the one that `Start` was given. -/
def start (p : Pool) (i : ℕ) (member : Member) (ctx : Ctx) : Pool :=
  if ctx.state = .nil ∨ member.closed ∨ member.loop ≠ none then p
  else
    { p with
      contexts := p.contexts ++ [ctx]
      members := p.members.set i { member with loop := some p.contexts.length } }

/-- A round of the loop. It calls `RunOnce` after the last call has returned. -/
def poll (p : Pool) (i : ℕ) (member : Member) : Pool :=
  match member.loop with
  | none => p
  | some ctx =>
    if p.runs.any fun run => run.ctx = ctx ∧ ¬ run.phase.isReturned then p
    else { p with runs := p.runs ++ [⟨i, member.worker, ctx, .called⟩] }

/-- A call of `RunOnce` with a context of its own. -/
def runOnce (p : Pool) (i : ℕ) (member : Member) (ctx : Ctx) : Pool :=
  { p with
    contexts := p.contexts ++ [ctx]
    runs := p.runs ++ [⟨i, member.worker, p.contexts.length, .called⟩] }

/-- `Close`, up to the wait for the loop. -/
def close (p : Pool) (i : ℕ) (member : Member) : Pool :=
  let p' := { p with members := p.members.set i { member with closed := true } }
  match member.loop with
  | none => p'
  | some ctx => p'.cancel ctx .canceled

/-- The error of an answer. -/
def errorOf {α : Type} : Except Err α → Option Err
  | .ok _ => none
  | .error err => some err

/-- What `RunOnce` asks of the store when the handler has returned. -/
def settleRequest (now : ℤ) (w : Worker) (ctx : Ctx) (task : Task) (err : Option HandlerErr)
    (since : ℤ) : Request :=
  ⟨settlementContext ctx.state err, now,
    .settle task.tenantID task.taskID w.owner task.fencingToken (w.settlement since task err)⟩

/-- The tenant whose tasks `RunOnce` claims. -/
def tenantHint (w : Worker) (ctx : Ctx) : String :=
  if w.tenantID = "" then ctx.tenantID else w.tenantID

/-- `RunOnce`, from one phase to the next. -/
def nextPhase (now : ℤ) (b : Backend) (closed : Bool) (w : Worker) (ctx : Ctx) :
    Phase → Phase × Backend
  | .called =>
    if ctx.state = .nil then (.returned false (some .invalid), b)
    else if closed then (.returned false (some .closed), b)
    else (.opened, b)
  | .opened =>
    match contextErr ctx.state with
    | some err => (.returned false (some err), b)
    | none => (.claiming, b)
  | .claiming =>
    match b.withContext ctx.state (b.claim now (tenantHint w ctx) w.owner w.leaseDuration) with
    | (.error .notFound, b) => (.returned false none, b)
    | (.error err, b) => (.returned false (some err), b)
    | (.ok task, b) => (.claimed task, b)
  | .claimed task => (.handling task, b)
  | .finished task err since =>
    let answer := memory.answer (settleRequest now w ctx task err since) b
    (.returned true (errorOf answer.1), answer.2)
  -- The handler has to return first, or there is nothing left to do.
  | .handling task => (.handling task, b)
  | .returned worked err => (.returned worked err, b)
  | .crashed => (.crashed, b)

/-- A call of `RunOnce` in another phase. -/
def setPhase (p : Pool) (i : ℕ) (run : Run) (phase : Phase) : Pool :=
  { p with runs := p.runs.set i { run with phase := phase } }

/-- What is done with a worker of the pool, or with a call of `RunOnce`. -/
def on {α : Type} (p : Pool) (found : Option α) (act : α → Pool) : Pool :=
  match found with
  | none => p
  | some a => act a

/-- The next step of a call of `RunOnce`, with its worker and its context. -/
def goOn (p : Pool) (i : ℕ) (run : Run) (member : Member) (ctx : Ctx) : Pool :=
  let next := nextPhase p.clock p.backend member.closed run.worker ctx run.phase
  { p with backend := next.2 }.setPhase i run next.1

/-- The next step of a call of `RunOnce`. -/
def step (p : Pool) (i : ℕ) : Pool :=
  p.on p.runs[i]? fun run => p.on p.members[run.member]? fun member =>
    p.on p.contexts[run.ctx]? fun ctx => p.goOn i run member ctx

/-- The return of a handler. -/
def handlerReturns (p : Pool) (i : ℕ) (run : Run) (err : Option HandlerErr) : Pool :=
  match run.phase with
  | .handling task => p.setPhase i run (.finished task err p.clock)
  | _ => p

/-- What an event does. -/
def next (p : Pool) : Event → Pool
  | .advance d => { p with clock := p.clock + d }
  | .enqueue context input =>
    { p with backend := (memory.answer ⟨context, p.clock, .enqueue input⟩ p.backend).2 }
  | .newView => { p with backend := p.backend.newView }
  | .closeView => { p with backend := p.backend.close }
  | .create config => p.create config
  | .start i ctx => p.on p.members[i]? fun member => p.start i member ctx
  | .poll i => p.on p.members[i]? fun member => p.poll i member
  | .runOnce i ctx => p.on p.members[i]? fun member => p.runOnce i member ctx
  | .contextDone ctx cause => p.cancel ctx cause
  | .close i => p.on p.members[i]? fun member => p.close i member
  | .step i => p.step i
  | .handlerReturns i err => p.on p.runs[i]? fun run => p.handlerReturns i run err
  | .crash i => p.on p.runs[i]? fun run => p.setPhase i run .crashed

end Pool

/-- The runs of a pool. -/
abbrev pool : Server Event where
  State := Pool
  Res _ := Unit
  answer event p := ((), p.next event)

/-! ## What an event can do -/

/-- The effect of an event on the queue and on the calls of `RunOnce`. -/
inductive Moves (p : Pool) (event : Event) (p' : Pool) : Prop
  /-- Neither changes. -/
  | quiet (hbackend : p'.backend = p.backend) (hruns : p'.runs = p.runs)
  /-- `RunOnce` is called. -/
  | called (run : Run) (hphase : run.phase = .called)
      (hworker : ∃ member ∈ p.members, run.worker = member.worker)
      (hbackend : p'.backend = p.backend) (hruns : p'.runs = p.runs ++ [run])
  /-- A client of the queue makes a call. -/
  | client (call : Call) (v : call.Val)
      (hcall : call = .newView ∨ call = .close ∨ ∃ input, call = .enqueue input)
      (hacts : Acts p.clock p.backend call v p'.backend) (hruns : p'.runs = p.runs)
  /-- A call of `RunOnce` goes on without a task. -/
  | idle (i : ℕ) (run : Run) (phase : Phase) (hrun : p.runs[i]? = some run)
      (hheld : phase.held = none) (hfrom : run.phase.held = none ∨ phase = .crashed)
      (hbackend : p'.backend = p.backend) (hruns : p'.runs = p.runs.set i { run with phase := phase })
  /-- It claims a task. -/
  | claimed (i : ℕ) (run : Run) (ctx : Ctx) (task : Task) (hevent : event = .step i)
      (hrun : p.runs[i]? = some run) (hphase : run.phase = .claiming)
      (hctx : p.contexts[run.ctx]? = some ctx)
      (hacts : Acts p.clock p.backend
        (.claim (Pool.tenantHint run.worker ctx) run.worker.owner run.worker.leaseDuration) task
        p'.backend)
      (hruns : p'.runs = p.runs.set i { run with phase := .claimed task })
  /-- It starts the handler. -/
  | started (i : ℕ) (run : Run) (task : Task) (hevent : event = .step i)
      (hrun : p.runs[i]? = some run) (hphase : run.phase = .claimed task)
      (hbackend : p'.backend = p.backend)
      (hruns : p'.runs = p.runs.set i { run with phase := .handling task })
  /-- The handler returns. -/
  | finished (i : ℕ) (run : Run) (task : Task) (err : Option HandlerErr)
      (hrun : p.runs[i]? = some run) (hphase : run.phase = .handling task)
      (hbackend : p'.backend = p.backend)
      (hruns : p'.runs = p.runs.set i { run with phase := .finished task err p.clock })
  /-- The last call of the store succeeds. -/
  | settled (i : ℕ) (run : Run) (task : Task) (err : Option HandlerErr) {since : ℤ} (v : Task)
      (hevent : event = .step i) (hrun : p.runs[i]? = some run)
      (hphase : run.phase = .finished task err since)
      (hacts : Acts p.clock p.backend (.settle task.tenantID task.taskID run.worker.owner
        task.fencingToken (run.worker.settlement since task err)) v p'.backend)
      (hruns : p'.runs = p.runs.set i { run with phase := .returned true none })
  /-- The last call of the store fails. -/
  | refused (i : ℕ) (run : Run) (ctx : Ctx) (task : Task) (err : Option HandlerErr) {since : ℤ}
      (reason : Err) (hevent : event = .step i) (hrun : p.runs[i]? = some run)
      (hphase : run.phase = .finished task err since) (hctx : p.contexts[run.ctx]? = some ctx)
      (hanswer : memory.answer (Pool.settleRequest p.clock run.worker ctx task err since) p.backend =
        (.error reason, p.backend)) (hbackend : p'.backend = p.backend)
      (hruns : p'.runs = p.runs.set i { run with phase := .returned true (some reason) })

namespace Pool

variable {p : Pool}

/-- What holds if nothing is done, and of what is done, holds. -/
theorem on_cases {α : Type} {P : Pool → Prop} {found : Option α} {act : α → Pool} (hnone : P p)
    (hsome : ∀ a, found = some a → P (act a)) : P (p.on found act) := by
  cases found with
  | none => exact hnone
  | some a => exact hsome a rfl

/-- What is done with a worker that is there. -/
theorem moves_on {α : Type} {event : Event} {found : Option α} {act : α → Pool}
    (h : ∀ a, found = some a → Moves p event (act a)) : Moves p event (p.on found act) :=
  on_cases (P := Moves p event) (.quiet rfl rfl) h

variable {i : ℕ}

/-- The step of a call of `RunOnce` that claims. -/
theorem moves_claim {run : Run} {ctx : Ctx} (hrun : p.runs[i]? = some run)
    (hphase : run.phase = .claiming) (hctx : p.contexts[run.ctx]? = some ctx) (closed : Bool) :
    Moves p (.step i) ({ p with
      backend := (nextPhase p.clock p.backend closed run.worker ctx .claiming).2 }.setPhase i run
        (nextPhase p.clock p.backend closed run.worker ctx .claiming).1) := by
  have hspec := memory_spec ⟨ctx.state, p.clock,
    .claim (tenantHint run.worker ctx) run.worker.owner run.worker.leaseDuration⟩ p.backend
  have hanswer : memory.answer ⟨ctx.state, p.clock,
      .claim (tenantHint run.worker ctx) run.worker.owner run.worker.leaseDuration⟩ p.backend =
      p.backend.withContext ctx.state (p.backend.claim p.clock (tenantHint run.worker ctx)
        run.worker.owner run.worker.leaseDuration) := rfl
  rw [hanswer] at hspec
  have hheld : run.phase.held = none := by rw [hphase]; rfl
  unfold nextPhase
  rcases hspec with ⟨err, heq⟩ | ⟨task, _, heq, hacts⟩
  · rw [heq]
    cases err with
    | notFound => exact .idle i run _ hrun rfl (.inl hheld) rfl rfl
    | invalid | conflict | closed | ctx => exact .idle i run _ hrun rfl (.inl hheld) rfl rfl
  · rw [heq]
    exact .claimed i run ctx task rfl hrun hphase hctx hacts rfl

/-- The step of a call of `RunOnce` that makes the last call of the store. -/
theorem moves_settle {run : Run} {ctx : Ctx} {task : Task} {err : Option HandlerErr} {since : ℤ}
    (hrun : p.runs[i]? = some run) (hphase : run.phase = .finished task err since)
    (hctx : p.contexts[run.ctx]? = some ctx) (closed : Bool) : Moves p (.step i) ({ p with
      backend := (nextPhase p.clock p.backend closed run.worker ctx (.finished task err since)).2
      }.setPhase i run
        (nextPhase p.clock p.backend closed run.worker ctx (.finished task err since)).1) := by
  have hnext : nextPhase p.clock p.backend closed run.worker ctx (.finished task err since) =
      (.returned true
        (errorOf (memory.answer (settleRequest p.clock run.worker ctx task err since) p.backend).1),
        (memory.answer (settleRequest p.clock run.worker ctx task err since) p.backend).2) := rfl
  rw [hnext]
  rcases memory_spec (settleRequest p.clock run.worker ctx task err since) p.backend with
    ⟨reason, heq⟩ | ⟨v, b', heq, hacts⟩
  · rw [heq]
    exact .refused i run ctx task err reason rfl hrun hphase hctx heq rfl rfl
  · rw [heq]
    exact .settled i run task err v rfl hrun hphase hacts rfl

/-- The next step of a call of `RunOnce`, with its worker and its context. -/
theorem moves_goOn {run : Run} {ctx : Ctx} (hrun : p.runs[i]? = some run)
    (hctx : p.contexts[run.ctx]? = some ctx) (member : Member) :
    Moves p (.step i) (p.goOn i run member ctx) := by
  have hidle : ∀ phase, phase.held = none → run.phase.held = none →
      Moves p (.step i) (p.setPhase i run phase) :=
    fun phase hheld hfrom => .idle i run phase hrun hheld (.inl hfrom) rfl rfl
  unfold goOn
  dsimp only
  cases hphase : run.phase with
  | called =>
    rw [hphase] at hidle
    dsimp only [nextPhase]
    split_ifs
    · exact hidle _ rfl rfl
    · exact hidle _ rfl rfl
    · exact hidle _ rfl rfl
  | opened =>
    rw [hphase] at hidle
    dsimp only [nextPhase]
    cases contextErr ctx.state with
    | some => exact hidle _ rfl rfl
    | none => exact hidle _ rfl rfl
  | claiming => exact moves_claim hrun hphase hctx member.closed
  | claimed task => exact .started i run task rfl hrun hphase rfl rfl
  | finished => exact moves_settle hrun hphase hctx member.closed
  | handling task =>
    refine .quiet rfl ?_
    obtain ⟨hi, hget⟩ := List.getElem?_eq_some_iff.1 hrun
    have hself : ({ run with phase := .handling task } : Run) = p.runs[i] := by
      rw [hget, ← hphase]
    have hsame : p.runs.set i { run with phase := .handling task } = p.runs := by
      rw [hself]
      exact List.set_getElem_self hi
    exact hsame
  | returned =>
    rw [hphase] at hidle
    exact hidle _ rfl rfl
  | crashed =>
    rw [hphase] at hidle
    exact hidle _ rfl rfl

/-- The next step of a call of `RunOnce`. -/
theorem moves_step (p : Pool) (i : ℕ) : Moves p (.step i) (p.step i) :=
  moves_on fun _ hrun => moves_on fun member _ => moves_on fun _ hctx =>
    moves_goOn hrun hctx member

/-- What an event does to the queue and to the calls of `RunOnce`. -/
theorem moves (p : Pool) (event : Event) : Moves p event (p.next event) := by
  cases event with
  | advance => exact .quiet rfl rfl
  | enqueue context input =>
    have hbackend : (p.next (.enqueue context input)).backend =
      (memory.answer ⟨context, p.clock, .enqueue input⟩ p.backend).2 := rfl
    rcases memory_spec ⟨context, p.clock, .enqueue input⟩ p.backend with
      ⟨err, heq⟩ | ⟨v, b', heq, hacts⟩
    · rw [heq] at hbackend
      exact .quiet hbackend rfl
    · rw [heq] at hbackend
      refine .client (.enqueue input) v (.inr (.inr ⟨input, rfl⟩)) ?_ rfl
      rw [hbackend]
      exact hacts
  | newView => exact .client .newView () (.inl rfl) .viewed rfl
  | closeView => exact .client .close () (.inr (.inl rfl)) .closed rfl
  | create config =>
    have hnext : p.next (.create config) = p.create config := rfl
    rw [hnext, create]
    split
    · exact .quiet rfl rfl
    · exact .quiet rfl rfl
  | start =>
    refine moves_on fun member _ => ?_
    unfold start
    split_ifs
    · exact .quiet rfl rfl
    · exact .quiet rfl rfl
  | poll =>
    refine moves_on fun member hmember => ?_
    unfold poll
    split
    · exact .quiet rfl rfl
    · split_ifs
      · exact .quiet rfl rfl
      · exact .called _ rfl ⟨member, List.mem_of_getElem? hmember, rfl⟩ rfl rfl
  | runOnce =>
    refine moves_on fun member hmember => ?_
    exact .called _ rfl ⟨member, List.mem_of_getElem? hmember, rfl⟩ rfl rfl
  | contextDone ctx cause => exact .quiet rfl rfl
  | close =>
    refine moves_on fun member _ => ?_
    unfold close
    split
    · exact .quiet rfl rfl
    · exact .quiet rfl rfl
  | step i => exact p.moves_step i
  | handlerReturns i err =>
    refine moves_on fun run hrun => ?_
    unfold handlerReturns
    split
    · exact .finished i run _ err hrun (by assumption) rfl rfl
    · exact .quiet rfl rfl
  | crash i =>
    refine moves_on fun run hrun => ?_
    exact .idle i run .crashed hrun rfl (.inr rfl) rfl rfl

end Pool

/-! ## What every event keeps -/

variable {p : Pool}

/-- What every event keeps of the clock and of the workers. -/
structure Pool.Keeps (p : Pool) (event : Event) (p' : Pool) : Prop where
  /-- The clock never goes back. -/
  clock : p.clock ≤ p'.clock
  /-- A worker was there, or it is new. -/
  members : ∀ member ∈ p'.members, (∃ old ∈ p.members, old.worker = member.worker) ∨
    ∃ config, event = .create config ∧ Worker.new config = .ok member.worker

namespace Pool

/-- A pool with the same clock and the same workers. -/
theorem Keeps.same {event : Event} {p' : Pool} (hclock : p'.clock = p.clock)
    (hmembers : p'.members = p.members) : p.Keeps event p' where
  clock := le_of_eq hclock.symm
  members member hmember := .inl ⟨member, hmembers ▸ hmember, rfl⟩

/-- A pool in which one worker was closed or started. -/
theorem Keeps.setMember {event : Event} {p' : Pool} {i : ℕ} {member : Member} (member' : Member)
    (hmember : p.members[i]? = some member) (hworker : member'.worker = member.worker)
    (hclock : p'.clock = p.clock) (hmembers : p'.members = p.members.set i member') :
    p.Keeps event p' where
  clock := le_of_eq hclock.symm
  members m hm := by
    rw [hmembers] at hm
    rcases List.mem_or_eq_of_mem_set hm with hold | rfl
    · exact .inl ⟨m, hold, rfl⟩
    · exact .inl ⟨member, List.mem_of_getElem? hmember, hworker.symm⟩

/-- The clock and the workers after an event. -/
theorem keeps (p : Pool) (event : Event) : p.Keeps event (p.next event) := by
  have hon : ∀ {α : Type} {found : Option α} {act : α → Pool},
      (∀ a, found = some a → p.Keeps event (act a)) → p.Keeps event (p.on found act) :=
    fun h => on_cases (P := p.Keeps event) (.same rfl rfl) h
  cases event with
  | advance d =>
    exact ⟨Int.le_add_of_nonneg_right (Int.natCast_nonneg d), fun member h => .inl ⟨member, h, rfl⟩⟩
  | enqueue | newView | closeView | contextDone => exact .same rfl rfl
  | create config =>
    have hnext : p.next (.create config) = p.create config := rfl
    rw [hnext, create]
    split
    · exact .same rfl rfl
    · rename_i worker hnew
      refine ⟨le_refl _, fun member hmember => ?_⟩
      rcases List.mem_append.1 hmember with hold | hnew'
      · exact .inl ⟨member, hold, rfl⟩
      · rw [List.mem_singleton.1 hnew']
        exact .inr ⟨config, rfl, hnew⟩
  | start =>
    refine hon fun member hmember => ?_
    unfold start
    split_ifs
    · exact .same rfl rfl
    · exact .setMember { member with loop := some p.contexts.length } hmember rfl rfl rfl
  | poll =>
    refine hon fun member _ => ?_
    unfold poll
    split
    · exact .same rfl rfl
    · split_ifs
      · exact .same rfl rfl
      · exact .same rfl rfl
  | runOnce => exact hon fun member _ => .same rfl rfl
  | close =>
    refine hon fun member hmember => ?_
    unfold close
    split
    · exact .setMember { member with closed := true } hmember rfl rfl rfl
    · exact .setMember { member with closed := true } hmember rfl rfl rfl
  | step => exact hon fun run _ => hon fun member _ => hon fun _ _ => .same rfl rfl
  | handlerReturns =>
    refine hon fun run _ => ?_
    unfold handlerReturns
    split
    · exact .same rfl rfl
    · exact .same rfl rfl
  | crash => exact hon fun run _ => .same rfl rfl

end Pool

/-- A worker that `New` makes has an owner, a lease, and attempts. -/
structure Worker.Valid (w : Worker) : Prop where
  owner : w.owner ≠ ""
  attempts : 0 < w.maxAttempts

/-- `New` makes valid workers. -/
theorem Worker.new_valid {config : Config} {w : Worker} (h : Worker.new config = .ok w) :
    w.Valid := by
  unfold new at h
  split_ifs at h with hinvalid
  dsimp only at h
  split_ifs at h
  cases h
  refine ⟨fun howner => hinvalid (.inl howner), ?_⟩
  unfold orDefault
  dsimp only
  split_ifs with hpos
  · decide
  · exact not_le.1 hpos

/-- A property of all workers, and so of those whose calls of `RunOnce` are going on. -/
structure Pool.Staffed (P : Worker → Prop) (p : Pool) : Prop where
  /-- The workers have it. -/
  members : ∀ member ∈ p.members, P member.worker
  /-- The calls of `RunOnce` are calls of such workers. -/
  runs : ∀ run ∈ p.runs, P run.worker

variable {event : Event} {p' : Pool}

/-- A call of `RunOnce` after an event is one of before in another phase, or a new one. -/
theorem Moves.run (h : Moves p event p') {run : Run} (hrun : run ∈ p'.runs) :
    (∃ old ∈ p.runs, old.worker = run.worker) ∨ ∃ member ∈ p.members, run.worker = member.worker := by
  have hset : ∀ {i : ℕ} {old : Run} {phase : Phase}, p.runs[i]? = some old →
      p'.runs = p.runs.set i { old with phase := phase } →
      ∃ old ∈ p.runs, old.worker = run.worker := by
    intro i old phase hold hruns
    rw [hruns] at hrun
    rcases List.mem_or_eq_of_mem_set hrun with hmem | rfl
    · exact ⟨run, hmem, rfl⟩
    · exact ⟨old, List.mem_of_getElem? hold, rfl⟩
  cases h with
  | quiet _ hruns => exact .inl ⟨run, hruns ▸ hrun, rfl⟩
  | client _ _ _ _ hruns => exact .inl ⟨run, hruns ▸ hrun, rfl⟩
  | called run' _ hworker _ hruns =>
    rw [hruns] at hrun
    rcases List.mem_append.1 hrun with hmem | hnew
    · exact .inl ⟨run, hmem, rfl⟩
    · rw [List.mem_singleton.1 hnew]
      exact .inr hworker
  | idle _ _ _ hold _ _ _ hruns => exact .inl (hset hold hruns)
  | claimed _ _ _ _ _ hold _ _ _ hruns => exact .inl (hset hold hruns)
  | started _ _ _ _ hold _ _ hruns => exact .inl (hset hold hruns)
  | finished _ _ _ _ hold _ _ hruns => exact .inl (hset hold hruns)
  | settled _ _ _ _ _ _ hold _ _ hruns => exact .inl (hset hold hruns)
  | refused _ _ _ _ _ _ _ hold _ _ _ _ hruns => exact .inl (hset hold hruns)

/-- An event keeps what all workers have, if every new worker has it. -/
theorem Pool.Staffed.next {P : Worker → Prop} (h : p.Staffed P) (event : Event)
    (hnew : ∀ config w, event = .create config → Worker.new config = .ok w → P w) :
    (p.next event).Staffed P := by
  refine ⟨fun member hmember => ?_, fun run hrun => ?_⟩
  · rcases (p.keeps event).members member hmember with ⟨old, hold, heq⟩ | ⟨config, hevent, hok⟩
    · exact heq ▸ h.members old hold
    · exact hnew config _ hevent hok
  · rcases (p.moves event).run hrun with ⟨old, hold, heq⟩ | ⟨member, hmember, heq⟩
    · exact heq ▸ h.runs old hold
    · exact heq ▸ h.members member hmember

/-- Who makes a call of the store: only `RunOnce` claims tasks and ends leases. -/
structure Made (p : Pool) (event : Event) (p' : Pool) (call : Call) : Prop where
  /-- A claim is made by a call of `RunOnce` that is about to claim. -/
  claim : ∀ tenantID owner leaseDuration, call = .claim tenantID owner leaseDuration →
    ∃ i run ctx, event = .step i ∧ p.runs[i]? = some run ∧ run.phase = .claiming ∧
      p.contexts[run.ctx]? = some ctx ∧ tenantID = Pool.tenantHint run.worker ctx
  /-- A lease is ended by a call of `RunOnce` whose handler has returned. -/
  settle : ∀ tenantID taskID owner fence settlement,
    call = .settle tenantID taskID owner fence settlement →
    ∃ i run task err since, p.runs[i]? = some run ∧ run.phase = .finished task err since ∧
      tenantID = task.tenantID ∧ taskID = task.taskID ∧ fence = task.fencingToken ∧
      settlement = run.worker.settlement since task err ∧
      p'.runs = p.runs.set i { run with phase := .returned true none }

/-- An event leaves the queue as it is, or makes one call that succeeds. -/
theorem Moves.backend (h : Moves p event p') : p'.backend = p.backend ∨
    ∃ call v, Acts p.clock p.backend call v p'.backend ∧ Made p event p' call := by
  cases h with
  | quiet hbackend => exact .inl hbackend
  | called _ _ _ hbackend => exact .inl hbackend
  | idle _ _ _ _ _ _ hbackend => exact .inl hbackend
  | started _ _ _ _ _ _ hbackend => exact .inl hbackend
  | finished _ _ _ _ _ _ hbackend => exact .inl hbackend
  | refused _ _ _ _ _ _ _ _ _ _ _ hbackend => exact .inl hbackend
  | client call v hcall hacts =>
    refine .inr ⟨call, v, hacts, fun _ _ _ hclaim => ?_, fun _ _ _ _ _ hsettle => ?_⟩
    · simp [hclaim] at hcall
    · simp [hsettle] at hcall
  | claimed i run ctx task hevent hrun hphase hctx hacts =>
    refine .inr ⟨_, _, hacts, fun _ _ _ hclaim => ?_, fun _ _ _ _ _ hsettle => ?_⟩
    · cases hclaim
      exact ⟨i, run, ctx, hevent, hrun, hphase, hctx, rfl⟩
    · cases hsettle
  | settled i run task err v _ hrun hphase hacts hruns =>
    refine .inr ⟨_, _, hacts, fun _ _ _ hclaim => ?_, fun _ _ _ _ _ hsettle => ?_⟩
    · cases hclaim
    · cases hsettle
      exact ⟨i, run, task, err, _, hrun, hphase, rfl, rfl, rfl, rfl, hruns⟩

/-- An event keeps the tasks. -/
theorem Moves.evolves (h : Moves p event p') : p.backend.Evolves p'.backend := by
  rcases h.backend with hbackend | ⟨_, v, hacts, -⟩
  · rw [hbackend]
    exact .refl _
  · exact hacts.evolves

/-- A task that a call of `RunOnce` works on after an event is the one that it worked on before, or
the event claimed it. -/
theorem Moves.held (h : Moves p event p') {i : ℕ} {run : Run} {task : Task}
    (hrun : p'.runs[i]? = some run) (hheld : run.phase.held = some task) :
    (∃ old, p.runs[i]? = some old ∧ old.phase.held = some task ∧ old.worker = run.worker) ∨
    ∃ old ctx, p.runs[i]? = some old ∧ old.worker = run.worker ∧
      p'.runs = p.runs.set i { old with phase := .claimed task } ∧
      Acts p.clock p.backend (.claim (Pool.tenantHint run.worker ctx) run.worker.owner
        run.worker.leaseDuration) task p'.backend := by
  -- A step that keeps the task of the call, or drops it.
  have hset : ∀ {j : ℕ} {old : Run} {phase : Phase}, p.runs[j]? = some old →
      (phase.held = none ∨ phase.held = old.phase.held) →
      p'.runs = p.runs.set j { old with phase := phase } →
      ∃ old, p.runs[i]? = some old ∧ old.phase.held = some task ∧ old.worker = run.worker := by
    intro j old phase hold hphase hruns
    rw [hruns, List.getElem?_set] at hrun
    split_ifs at hrun with hij
    · cases hrun
      have hsome : phase.held = some task := hheld
      rcases hphase with hnone | hsame
      · rw [hnone] at hsome
        cases hsome
      · exact ⟨old, hij ▸ hold, hsame.symm.trans hsome, rfl⟩
    · exact ⟨run, hrun, hheld, rfl⟩
  cases h with
  | quiet _ hruns => exact .inl ⟨run, hruns ▸ hrun, hheld, rfl⟩
  | client _ _ _ _ hruns => exact .inl ⟨run, hruns ▸ hrun, hheld, rfl⟩
  | called run' hphase _ _ hruns =>
    rw [hruns, List.getElem?_append] at hrun
    split_ifs at hrun
    · exact .inl ⟨run, hrun, hheld, rfl⟩
    · rw [List.getElem?_singleton] at hrun
      split_ifs at hrun
      cases hrun
      rw [hphase] at hheld
      cases hheld
  | idle _ _ _ hold hnone _ _ hruns => exact .inl (hset hold (.inl hnone) hruns)
  | started _ old t _ hold hphase _ hruns =>
    exact .inl (hset hold (.inr (by rw [hphase]; rfl)) hruns)
  | finished _ _ _ _ hold hphase _ hruns =>
    exact .inl (hset hold (.inr (by rw [hphase]; rfl)) hruns)
  | settled _ _ _ _ _ _ hold _ _ hruns => exact .inl (hset hold (.inl rfl) hruns)
  | refused _ _ _ _ _ _ _ hold _ _ _ _ hruns => exact .inl (hset hold (.inl rfl) hruns)
  | claimed j old ctx t _ hold _ _ hacts hruns =>
    have hrun' := hrun
    rw [hruns, List.getElem?_set] at hrun'
    split_ifs at hrun' with hij
    · cases hrun'
      cases hheld
      subst hij
      exact .inr ⟨old, ctx, hold, rfl, hruns, hacts⟩
    · exact .inl ⟨run, hrun', hheld, rfl⟩

end AgentService.Queue
