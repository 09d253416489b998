import AgentService.Queue.Worker
import Mathlib.Algebra.Order.Ring.Int

/-!
# The number of attempts

A worker stops retrying a task after `MaxAttempts` attempts, but it looks at the number of attempts
only when the handler returns an error. A task whose lease has run out goes back to `Claim`, which
does not look. Where every claim that takes over a lease that has run out comes before the last
attempt, no handler is started more than `MaxAttempts` times for one task (`starts_le`): every start
uses up one claim, and the number of claims is the number of attempts of the task.

How long a retry waits is `backoff`, which doubles with every attempt up to a cap (`backoff_spec`).
-/

namespace AgentService.Queue

open Concurrent Option

/-! ## Starts of the handler -/

/-- The task whose handler a step starts. -/
def starts : pool.Step → Option Task
  | ⟨.step i, _, (pre : Pool), (post : Pool)⟩ =>
    match pre.runs[i]?.map Run.phase, post.runs[i]?.map Run.phase with
    | some (.claimed task), some (.handling _) => some task
    | _, _ => none
  | _ => none

/-- The name of a task. -/
def Task.named (tenantID taskID : String) (task : Task) : Bool :=
  task.tenantID = tenantID ∧ task.taskID = taskID

/-- A task has a name exactly when its tenant and its identity are those. -/
theorem Task.named_iff {tenantID taskID : String} {task : Task} :
    task.named tenantID taskID = true ↔ task.tenantID = tenantID ∧ task.taskID = taskID :=
  decide_eq_true_iff

/-- How often the handler was started for a task. -/
def startsOf (history : List pool.Step) (tenantID taskID : String) : ℕ :=
  history.countP fun st => (starts st).any (Task.named tenantID taskID)

/-- A phase in which the handler is still to be started. -/
def Phase.waits (tenantID taskID : String) : Phase → Bool
  | .claimed task => task.named tenantID taskID
  | _ => false

/-- The starts that are still to come of the claims so far. -/
def waiting (runs : List Run) (tenantID taskID : String) : ℕ :=
  runs.countP fun run => run.phase.waits tenantID taskID

/-- How many elements have a property after a write. -/
theorem countP_set_add {α : Type} {l : List α} {i : ℕ} {a b : α} (h : l[i]? = some a)
    (p : α → Bool) :
    (l.set i b).countP p + (p a).toNat = l.countP p + (p b).toNat := by
  obtain ⟨hi, rfl⟩ := List.getElem?_eq_some_iff.1 h
  rw [List.countP_set hi]
  have hnew : (if p b = true then 1 else 0) = (p b).toNat := by cases p b <;> rfl
  rw [hnew]
  cases hold : p l[i] with
  | false => rw [if_neg Bool.false_ne_true, Bool.toNat_false, Nat.sub_zero, Nat.add_zero]
  | true =>
    have hpos : 0 < l.countP p := List.countP_pos_iff.2 ⟨_, List.getElem_mem hi, hold⟩
    rw [if_pos rfl, Bool.toNat_true]
    omega

/-- A handler that runs after an event was running before, or the event started it. -/
theorem Moves.handling {p p' : Pool} {event : Event} (h : Moves p event p') {i : ℕ} {task : Task}
    (hpost : p'.runs[i]?.map Run.phase = some (.handling task)) :
    p.runs[i]?.map Run.phase = some (.handling task) ∨
    (event = .step i ∧ ∃ run, p.runs[i]? = some run ∧ run.phase = .claimed task ∧
      p'.backend = p.backend ∧ p'.runs = p.runs.set i { run with phase := .handling task }) := by
  -- Only the start of a handler leaves a phase in which the handler runs.
  have hset : ∀ {j : ℕ} {run : Run} {phase : Phase}, (∀ t, phase ≠ .handling t) →
      p'.runs = p.runs.set j { run with phase := phase } →
      p.runs[i]?.map Run.phase = some (.handling task) := by
    intro j run phase hphase hruns
    rw [hruns, List.getElem?_set] at hpost
    split_ifs at hpost
    · exact absurd (some.inj hpost) (hphase task)
    · cases hpost
    · exact hpost
  cases h with
  | quiet _ hruns => exact .inl (hruns ▸ hpost)
  | client _ _ _ _ hruns => exact .inl (hruns ▸ hpost)
  | called run hphase _ _ hruns =>
    rw [hruns, List.getElem?_append] at hpost
    split_ifs at hpost
    · exact .inl hpost
    · rw [List.getElem?_singleton] at hpost
      split_ifs at hpost
      · rw [map_some, hphase] at hpost
        cases hpost
      · cases hpost
  | idle _ _ _ _ hheld _ _ hruns =>
    refine .inl (hset (fun t ht => ?_) hruns)
    rw [ht] at hheld
    cases hheld
  | claimed _ _ _ _ _ _ _ _ _ hruns => exact .inl (hset (fun _ => by simp) hruns)
  | finished _ _ _ _ _ _ _ hruns => exact .inl (hset (fun _ => by simp) hruns)
  | settled _ _ _ _ _ _ _ _ _ hruns => exact .inl (hset (fun _ => by simp) hruns)
  | refused _ _ _ _ _ _ _ _ _ _ _ _ hruns => exact .inl (hset (fun _ => by simp) hruns)
  | started j run t hevent hrun hphase hbackend hruns =>
    by_cases hij : j = i
    · subst hij
      obtain ⟨hj, -⟩ := List.getElem?_eq_some_iff.1 hrun
      have hpost' := hpost
      rw [hruns, List.getElem?_set, if_pos rfl, if_pos hj] at hpost'
      obtain rfl : t = task := by simpa using hpost'
      exact .inr ⟨hevent, run, hrun, hphase, hbackend, hruns⟩
    · rw [hruns, List.getElem?_set, if_neg hij] at hpost
      exact .inl hpost

/-- What a step that starts a handler does. -/
theorem Moves.of_starts {p p' : Pool} {event : Event} (h : Moves p event p') {task : Task}
    (hstarts : starts (⟨event, (), p, p'⟩ : pool.Step) = some task) :
    ∃ i run, event = .step i ∧ p.runs[i]? = some run ∧ run.phase = .claimed task ∧
      p'.backend = p.backend ∧ p'.runs = p.runs.set i { run with phase := .handling task } := by
  cases event with
  | step i =>
    simp only [starts] at hstarts
    split at hstarts
    · rename_i t t' hpre hpost
      cases hstarts
      rcases h.handling hpost with hsame | ⟨-, run, hrun, hphase, hbackend, hruns⟩
      · rw [hpre] at hsame
        cases hsame
      · rw [hrun, map_some, hphase] at hpre
        cases hpre
        exact ⟨i, run, rfl, hrun, hphase, hbackend, hruns⟩
    · cases hstarts
  | _ => cases hstarts

/-! ## The bound -/

/-- What bounds the attempts of the tasks of a queue by `m`. -/
structure Backend.Limited (m : ℤ) (b : Backend) : Prop where
  /-- Every task stands under its key. -/
  keyed : ∀ k task, b.tasks.lookup k = some task → taskKey task.tenantID task.taskID = k
  /-- The attempts are the token. -/
  attempts : ∀ k task, b.tasks.lookup k = some task → task.attempts = task.fencingToken
  /-- They start at zero. -/
  nonneg : ∀ k task, b.tasks.lookup k = some task → 0 ≤ task.attempts
  /-- No task has more than `m` attempts. -/
  limit : ∀ k task, b.tasks.lookup k = some task → task.attempts ≤ m
  /-- A task that is queued has none. -/
  queued : ∀ k task, b.tasks.lookup k = some task → task.status = .queued → task.attempts = 0
  /-- A task that is to be retried has fewer. -/
  retryable : ∀ k task, b.tasks.lookup k = some task → task.status = .retryable →
    task.attempts < m

/-- A call keeps the bound, if it claims and retries only tasks with fewer attempts. -/
theorem Backend.Limited.acts {m now : ℤ} {b b' : Backend} {call : Call} {v : call.Val}
    (h : b.Limited m) (hm : 0 ≤ m) (hacts : Acts now b call v b')
    (hclaim : ∀ tenantID owner leaseDuration k task, call = .claim tenantID owner leaseDuration →
      b.oldest now tenantID = some ⟨k, task⟩ → task.attempts < m)
    (hretry : ∀ tenantID taskID owner fence settlement task,
      call = .settle tenantID taskID owner fence settlement → settlement.status = .retryable →
      b.Holds now tenantID taskID owner fence task → task.attempts < m) : b'.Limited m := by
  refine ⟨fun k task htask => ?_, fun k task htask => ?_, fun k task htask => ?_,
    fun k task htask => ?_, fun k task htask hstatus => ?_, fun k task htask hstatus => ?_⟩
  all_goals
    rcases hacts.task htask with hold | ⟨_, -, hk, -, rfl⟩ |
      ⟨tenantID, owner, leaseDuration, old, hcall, -, holdest, rfl⟩ |
      ⟨tenantID, taskID, owner, fence, settlement, old, hcall, rfl, hholds, rfl⟩
  · exact h.keyed k task hold
  · exact hk
  · exact h.keyed k old (oldest_spec holdest).found
  · exact h.keyed _ old hholds.found
  · exact h.attempts k task hold
  · rfl
  · exact congrArg (· + 1) (h.attempts k old (oldest_spec holdest).found)
  · exact h.attempts _ old hholds.found
  · exact h.nonneg k task hold
  · exact le_refl _
  · exact Int.le_add_one (h.nonneg k old (oldest_spec holdest).found)
  · exact h.nonneg _ old hholds.found
  · exact h.limit k task hold
  · exact hm
  · exact hclaim tenantID owner leaseDuration k old hcall holdest
  · exact h.limit _ old hholds.found
  · exact h.queued k task hold hstatus
  · rfl
  · cases hstatus
  · cases settlement <;> cases hstatus
  · exact h.retryable k task hold hstatus
  · cases hstatus
  · cases hstatus
  · exact hretry tenantID taskID owner fence settlement old hcall hstatus hholds

/-- The number of starts and of claims that wait for one is at most the number of attempts. -/
def Counted (count : ℕ) (tenantID taskID : String) (b : Backend) : Prop :=
  count = 0 ∨ ∃ task, b.tasks.lookup (taskKey tenantID taskID) = some task ∧
    task.named tenantID taskID = true ∧ (count : ℤ) ≤ task.attempts

/-- The count stays below the attempts when the tasks evolve. -/
theorem Counted.mono {count count' : ℕ} {tenantID taskID : String} {b b' : Backend}
    (h : Counted count tenantID taskID b) (hb : b.Evolves b') (hcount : count' ≤ count) :
    Counted count' tenantID taskID b' := by
  rcases h with _ | ⟨task, htask, hnamed, _⟩
  · exact .inl (by omega)
  · obtain ⟨task', htask', hevolves⟩ := hb _ task htask
    refine .inr ⟨task', htask', ?_, ?_⟩
    · rw [Task.named_iff, hevolves.tenantID, hevolves.taskID]
      exact Task.named_iff.1 hnamed
    · have hattempts := hevolves.attempts
      omega

/-- What bounds the starts of the handler by `m`. -/
structure Bounded (m : ℕ) (history : List pool.Step) (p : Pool) : Prop where
  /-- All workers have `m` attempts. -/
  staffed : p.Staffed fun w => w.Valid ∧ w.maxAttempts = m
  /-- The tasks have at most `m`. -/
  limited : p.backend.Limited m
  /-- A task that `RunOnce` works on had as many as its token says. -/
  held : ∀ run ∈ p.runs, ∀ task, run.phase.held = some task → task.attempts = task.fencingToken
  /-- Every start used up an attempt. -/
  counted : ∀ tenantID taskID, Counted
    (startsOf history tenantID taskID + waiting p.runs tenantID taskID) tenantID taskID p.backend

/-- A claim that takes over a lease that has run out comes before the last attempt. -/
def Early (m : ℤ) (p : Pool) : Event → Prop
  | .step i =>
    ∀ run ∈ p.runs[i]?, run.phase = .claiming → ∀ ctx ∈ p.contexts[run.ctx]?,
      ∀ entry ∈ p.backend.oldest p.clock (Pool.tenantHint run.worker ctx),
        entry.2.status = .leased → entry.2.attempts < m
  | _ => True

instance (m : ℤ) (p : Pool) (event : Event) : Decidable (Early m p event) := by
  cases event <;> unfold Early <;> infer_instance

/-- A worker retries before the last attempt only. -/
theorem Worker.attempts_of_settlement {w : Worker} {now : ℤ} {task : Task} {err : Option HandlerErr}
    (h : (w.settlement now task err).status = .retryable) : task.attempts < w.maxAttempts := by
  unfold settlement at h
  cases err with
  | none => cases h
  | some =>
    dsimp only at h
    split_ifs at h with hagain
    · exact hagain.2
    · cases h

section Step

variable {m : ℕ} {history : List pool.Step} {p : Pool}

/-- The tasks after an event have at most `m` attempts. -/
theorem Bounded.limited_next (h : Bounded m history p) {event : Event} (hearly : Early m p event) :
    (p.next event).backend.Limited m := by
  rcases (p.moves event).backend with hbackend | ⟨_, v, hacts, hmade⟩
  · rw [hbackend]
    exact h.limited
  refine h.limited.acts (Int.natCast_nonneg m) hacts
    (fun tenantID owner _ k old hcall holdest => ?_)
    (fun tenantID _ owner fence _ old hcall hretry hholds => ?_)
  · obtain ⟨i, run, ctx, rfl, hrun, hphase, hctx, rfl⟩ := hmade.claim _ _ _ hcall
    have hold := Backend.oldest_spec holdest
    obtain ⟨hvalid, hmax⟩ := h.staffed.runs run (List.mem_of_getElem? hrun)
    -- A task is claimed for the first time, again after an error, or after its lease ran out.
    have heligible := hold.eligible
    simp only [Task.eligible, decide_eq_true_eq] at heligible
    rcases heligible.2 with ⟨hqueued | hretryable, -⟩ | ⟨hleased, -⟩
    · rw [h.limited.queued k old hold.found hqueued, ← hmax]
      exact hvalid.attempts
    · exact h.limited.retryable k old hold.found hretryable
    · exact hearly run hrun hphase ctx hctx ⟨k, old⟩ holdest hleased
  · obtain ⟨i, run, task, _, _, hrun, hphase, -, -, rfl, rfl, -⟩ := hmade.settle _ _ _ _ _ hcall
    obtain ⟨-, hmax⟩ := h.staffed.runs run (List.mem_of_getElem? hrun)
    have hheld := h.held run (List.mem_of_getElem? hrun) task (by rw [hphase]; rfl)
    calc old.attempts = old.fencingToken := h.limited.attempts _ old hholds.found
      _ = task.fencingToken := hholds.fence
      _ = task.attempts := hheld.symm
      _ < run.worker.maxAttempts := Worker.attempts_of_settlement hretry
      _ = m := hmax

/-- The starts so far after one more event. -/
theorem startsOf_snoc (history : List pool.Step) (st : pool.Step) (tenantID taskID : String) :
    startsOf (history ++ [st]) tenantID taskID =
      startsOf history tenantID taskID + ((starts st).any (Task.named tenantID taskID)).toNat := by
  rw [startsOf, List.countP_append, List.countP_singleton]
  cases (starts st).any (Task.named tenantID taskID) <;> rfl

/-- The waiting claims after one call of `RunOnce` went on. -/
theorem waiting_set {runs : List Run} {i : ℕ} {run : Run} (h : runs[i]? = some run) (phase : Phase)
    (tenantID taskID : String) : waiting (runs.set i { run with phase := phase }) tenantID taskID +
        (run.phase.waits tenantID taskID).toNat =
      waiting runs tenantID taskID + (phase.waits tenantID taskID).toNat :=
  countP_set_add h _

/-- An event that is no claim leaves no more claims waiting. -/
theorem Moves.waiting {p' : Pool} {event : Event} (h : Moves p event p')
    (tenantID taskID : String) :
    waiting p'.runs tenantID taskID ≤ waiting p.runs tenantID taskID ∨
    ∃ i run ctx task, p.runs[i]? = some run ∧ run.phase = .claiming ∧
      Acts p.clock p.backend (.claim (Pool.tenantHint run.worker ctx) run.worker.owner
        run.worker.leaseDuration) task p'.backend ∧
      p'.runs = p.runs.set i { run with phase := .claimed task } := by
  have hset : ∀ {i : ℕ} {run : Run} {phase : Phase}, p.runs[i]? = some run →
      phase.waits tenantID taskID = false → p'.runs = p.runs.set i { run with phase := phase } →
      Queue.waiting p'.runs tenantID taskID ≤ Queue.waiting p.runs tenantID taskID := by
    intro i run phase hrun hphase hruns
    have hcount := waiting_set hrun phase tenantID taskID
    rw [hphase, Bool.toNat_false, ← hruns] at hcount
    omega
  cases h with
  | quiet _ hruns => exact .inl (le_of_eq (by rw [hruns]))
  | client _ _ _ _ hruns => exact .inl (le_of_eq (by rw [hruns]))
  | called run hphase _ _ hruns =>
    refine .inl (le_of_eq ?_)
    rw [hruns, Queue.waiting, List.countP_append, List.countP_singleton, hphase]
    rfl
  | idle _ _ phase hrun hheld _ _ hruns =>
    refine .inl (hset hrun ?_ hruns)
    cases phase with
    | claimed => cases hheld
    | _ => rfl
  | started _ _ _ _ hrun _ _ hruns => exact .inl (hset hrun rfl hruns)
  | finished _ _ _ _ hrun _ _ hruns => exact .inl (hset hrun rfl hruns)
  | settled _ _ _ _ _ _ hrun _ _ hruns => exact .inl (hset hrun rfl hruns)
  | refused _ _ _ _ _ _ _ hrun _ _ _ _ hruns => exact .inl (hset hrun rfl hruns)
  | claimed i run ctx task _ hrun hphase _ hacts hruns =>
    exact .inr ⟨i, run, ctx, task, hrun, hphase, hacts, hruns⟩

section

variable (h : Bounded m history p)

include h

/-- A claim of a task adds an attempt to it. -/
theorem Bounded.counted_claim {tenantID taskID tenantID' owner : String} {leaseDuration : ℤ}
    {task : Task} {b' : Backend}
    (hacts : Acts p.clock p.backend (.claim tenantID' owner leaseDuration) task b')
    (hnamed : task.named tenantID taskID = true) :
    Counted (startsOf history tenantID taskID + (waiting p.runs tenantID taskID + 1)) tenantID
      taskID b' := by
  cases hacts with
  | claimed _ _ _ k old _ holdest =>
    have hfound := (Backend.oldest_spec holdest).found
    have hname : old.tenantID = tenantID ∧ old.taskID = taskID := Task.named_iff.1 hnamed
    obtain rfl : taskKey tenantID taskID = k := by
      rw [← h.limited.keyed k old hfound, hname.1, hname.2]
    refine .inr ⟨_, AList.lookup_insert _, hnamed, ?_⟩
    have hle : ((startsOf history tenantID taskID + waiting p.runs tenantID taskID : ℕ) : ℤ) ≤
        old.attempts := by
      rcases h.counted tenantID taskID with hzero | ⟨task, htask, -, hle⟩
      · rw [hzero]
        exact h.limited.nonneg _ old hfound
      · obtain rfl : task = old := some.inj (htask.symm.trans hfound)
        exact hle
    simp only [Task.lease]
    omega

/-- Every start after an event used up an attempt. -/
theorem Bounded.counted_next (event : Event) (tenantID taskID : String) :
    Counted (startsOf (history ++ [(⟨event, (), p, p.next event⟩ : pool.Step)]) tenantID taskID +
      waiting (p.next event).runs tenantID taskID) tenantID taskID (p.next event).backend := by
  have hmoves := p.moves event
  have hcounted := h.counted tenantID taskID
  rw [startsOf_snoc]
  cases hstarts : starts (⟨event, (), p, p.next event⟩ : pool.Step) with
  | some task =>
    -- A start is no longer waiting.
    obtain ⟨i, run, -, hrun, hphase, -, hruns⟩ := hmoves.of_starts hstarts
    have hcount : waiting (p.next event).runs tenantID taskID +
        (task.named tenantID taskID).toNat = waiting p.runs tenantID taskID + 0 := by
      have hset := waiting_set hrun (.handling task) tenantID taskID
      rw [hphase, ← hruns] at hset
      exact hset
    refine hcounted.mono hmoves.evolves (le_of_eq ?_)
    rw [any_some]
    omega
  | none =>
    rw [any_none, Bool.toNat_false, Nat.add_zero]
    rcases hmoves.waiting tenantID taskID with _ | ⟨i, run, _, task, hrun, hphase, hacts, hruns⟩
    · exact hcounted.mono hmoves.evolves (by omega)
    · have hcount : waiting (p.next event).runs tenantID taskID + 0 =
          waiting p.runs tenantID taskID + (task.named tenantID taskID).toNat := by
        have hset := waiting_set hrun (.claimed task) tenantID taskID
        rw [hphase, ← hruns] at hset
        exact hset
      cases hnamed : task.named tenantID taskID with
      | false =>
        rw [hnamed] at hcount
        exact hcounted.mono hmoves.evolves (by simp only [Bool.toNat_false] at hcount; omega)
      | true =>
        rw [hnamed, Bool.toNat_true, Nat.add_zero] at hcount
        rw [hcount]
        exact h.counted_claim hacts hnamed

/-- The tasks that are worked on after an event have as many attempts as their tokens say. -/
theorem Bounded.held_next (event : Event) :
    ∀ run ∈ (p.next event).runs, ∀ task, run.phase.held = some task →
      task.attempts = task.fencingToken := by
  intro run hrun task hheld
  obtain ⟨i, hi⟩ := List.mem_iff_getElem?.1 hrun
  rcases (p.moves event).held hi hheld with
    ⟨old, hold, hheld', -⟩ | ⟨old, ctx, -, -, -, hacts⟩
  · exact h.held old (List.mem_of_getElem? hold) task hheld'
  · generalize (p.next event).backend = b' at hacts
    cases hacts with
    | claimed _ _ _ k old _ holdest =>
      exact congrArg (· + 1) (h.limited.attempts k old (Backend.oldest_spec holdest).found)

/-- One event keeps the bound. -/
theorem Bounded.step {event : Event} (hearly : Early m p event)
    (hnew : ∀ config w, event = .create config → Worker.new config = .ok w → w.maxAttempts = m) :
    Bounded m (history ++ [pool.stepOf p event]) (p.next event) where
  staffed := h.staffed.next event fun config w hevent hok =>
    ⟨Worker.new_valid hok, hnew config w hevent hok⟩
  limited := h.limited_next hearly
  held := h.held_next event
  counted := h.counted_next event

end

end Step

/-- In every run of workers with the same `MaxAttempts` in which every claim that takes over a lease
that has run out comes before the last attempt, the handler is started at most `MaxAttempts` times
for each task. -/
theorem starts_le (m : ℕ) (events : List Event)
    (hsame : ∀ config w, .create config ∈ events → Worker.new config = .ok w → w.maxAttempts = m)
    (hearly : ∀ st ∈ pool.history {} events, Early m st.pre st.call) (tenantID taskID : String) :
    startsOf (pool.history {} events) tenantID taskID ≤ m := by
  have hbounded : Bounded m (pool.history {} events) (pool.after {} events) := by
    refine Server.history_invariant (S := pool)
      (fun (p : Pool) event => Early m p event ∧ ∀ config w, event = .create config →
        Worker.new config = .ok w → w.maxAttempts = m) (J := Bounded m) ?_
      (fun _ _ _ hadm hl => hl.step hadm.1 hadm.2) fun st hst => ⟨hearly st hst, ?_⟩
    · refine ⟨⟨by simp, by simp⟩, ⟨?_, ?_, ?_, ?_, ?_, ?_⟩, by simp, fun _ _ => .inl rfl⟩
      all_goals
        intro k task htask
        cases htask
    · intro config w hevent
      exact hsame config w (hevent ▸ Server.call_mem_of_mem_history hst)
  rcases hbounded.counted tenantID taskID with hzero | ⟨task, htask, -, hle⟩
  · omega
  · have hlimit := hbounded.limited.limit _ task htask
    omega

/-- One task and one worker, which handles it. -/
def handledOnce (maxAttempts : ℤ) : List Event :=
  [.enqueue .live ⟨"t", "a", "k", [1]⟩, .create ⟨"t", "w", 10, maxAttempts, 0, 0⟩, .runOnce 0 {},
    .step 0, .step 0, .step 0, .step 0]

/-- The handler fails and the task is retried after the delay; then the worker crashes, and the task
is taken over when its lease has run out. -/
def handledThrice : List Event :=
  handledOnce 3 ++ [.handlerReturns 0 (some { retryable := true }), .step 0, .advance 100000000,
    .runOnce 0 {}, .step 1, .step 1, .step 1, .step 1, .crash 1, .advance 10, .runOnce 0 {}, .step 2,
    .step 2, .step 2, .step 2]

/-- The handler is started three times, and not more often. -/
theorem starts_le_handledThrice : 3 ≤ startsOf (pool.history {} handledThrice) "t" "a" ∧
    startsOf (pool.history {} handledThrice) "t" "a" ≤ 3 := by
  have hall : ∀ st ∈ pool.history {} handledThrice, Early (3 : ℕ) st.pre st.call := by
    decide +kernel
  refine ⟨by decide +kernel, starts_le 3 handledThrice ?_ hall "t" "a"⟩
  intro config w hmem hnew
  simp only [handledThrice, handledOnce, List.cons_append, List.nil_append, List.mem_cons,
    List.not_mem_nil, or_false, Event.create.injEq, reduceCtorEq, false_or] at hmem
  subst hmem
  cases hnew
  rfl

/-- The worker crashes while it handles its only attempt, and the task is taken over when its lease
has run out. -/
def takenOver : List Event :=
  handledOnce 1 ++ [.crash 0, .advance 10, .runOnce 0 {}, .step 1, .step 1, .step 1, .step 1]

/-- All workers have one attempt, and the handler is started twice. -/
theorem takenOver_starts :
    (∀ config w, .create config ∈ takenOver → Worker.new config = .ok w → w.maxAttempts = 1) ∧
    startsOf (pool.history {} takenOver) "t" "a" = 2 := by
  refine ⟨?_, by decide +kernel⟩
  intro config w hmem hnew
  simp only [takenOver, handledOnce, List.cons_append, List.nil_append, List.mem_cons,
    List.not_mem_nil, or_false, Event.create.injEq, reduceCtorEq, false_or] at hmem
  subst hmem
  cases hnew
  rfl

/-! ## Backoff -/

/-- The loop of `backoff` with its arithmetic checked: there is no value once `d *= 2` does not fit
an `int64`. -/
def backoffLoop64 (backoffMax : ℤ) : ℕ → ℤ → Option ℤ
  | 0, d => some (if d > backoffMax then backoffMax else d)
  | rounds + 1, d =>
    if d ≥ backoffMax.tdiv 2 then some backoffMax
    else if -2 ^ 63 ≤ d * 2 ∧ d * 2 < 2 ^ 63 then backoffLoop64 backoffMax rounds (d * 2)
    else none

/-- `backoff`, checked. -/
def Worker.backoff64 (w : Worker) (attempt : ℤ) : Option ℤ :=
  backoffLoop64 w.backoffMax (attempt - 1).toNat w.backoffBase

/-- The loop does not overflow, and it answers with the capped product, or with the cap when the
product is one below it: the half of an odd cap is rounded down. -/
theorem backoffLoop_exact {m : ℤ} (hfits : m < 2 ^ 63) (rounds : ℕ) {d : ℤ} (hd : 0 < d)
    (hm : d ≤ m) : backoffLoop64 m rounds d = some (backoffLoop m rounds d) ∧
      (backoffLoop m rounds d = min (d * 2 ^ rounds) m ∨
        backoffLoop m rounds d = m ∧ d * 2 ^ rounds = m - 1) := by
  -- Induction on the rounds that are left; every round that goes on has `2 * d ≤ m`.
  induction rounds generalizing d with
  | zero =>
    rw [backoffLoop64, backoffLoop, if_neg (by omega)]
    exact ⟨rfl, .inl (by omega)⟩
  | succ rounds ih =>
    have hhalf : m.tdiv 2 = m / 2 := Int.tdiv_eq_ediv_of_nonneg (by omega)
    have hproduct : d * 2 ^ (rounds + 1) = d * 2 * 2 ^ rounds := by
      rw [pow_succ', mul_assoc]
    rw [backoffLoop64, backoffLoop, hhalf, hproduct]
    by_cases hlast : d ≥ m / 2
    · have hgrows : d * 2 * 1 ≤ d * 2 * 2 ^ rounds :=
        mul_le_mul_of_nonneg_left (one_le_pow₀ (by omega)) (by omega)
      rw [if_pos hlast, if_pos hlast]
      exact ⟨rfl, by omega⟩
    · rw [if_neg hlast, if_neg hlast, if_pos (by omega)]
      exact ih (by omega) (by omega)

/-- For every base and cap, `backoff` never overflows, stays between the two, does not decrease from
one attempt to a later one, and is the capped product, except that it may be the cap when the
product is one nanosecond below it. -/
theorem backoff_spec (w : Worker) (hbase : 0 < w.backoffBase) (hmax : w.backoffBase ≤ w.backoffMax)
    (hfits : w.backoffMax < 2 ^ 63) (a : ℤ) :
    w.backoff64 a = some (w.backoff a) ∧ w.backoffBase ≤ w.backoff a ∧
      w.backoff a ≤ w.backoffMax ∧ (∀ b, a ≤ b → w.backoff a ≤ w.backoff b) ∧
      (w.backoff a = min (w.backoffBase * 2 ^ (a - 1).toNat) w.backoffMax ∨
        w.backoff a = w.backoffMax ∧
          w.backoffBase * 2 ^ (a - 1).toNat = w.backoffMax - 1) := by
  obtain ⟨hchecked, hexact⟩ := backoffLoop_exact hfits (a - 1).toNat hbase hmax
  have hgrows : w.backoffBase * 1 ≤ w.backoffBase * 2 ^ (a - 1).toNat :=
    mul_le_mul_of_nonneg_left (one_le_pow₀ (by omega)) hbase.le
  refine ⟨hchecked, ?_, ?_, fun b hb => ?_, hexact⟩
  · rw [Worker.backoff]
    omega
  · rw [Worker.backoff]
    omega
  · obtain ⟨-, hlater⟩ := backoffLoop_exact hfits (b - 1).toNat hbase hmax
    have hexp : (a - 1).toNat ≤ (b - 1).toNat := by omega
    rcases Nat.eq_or_lt_of_le hexp with heq | hlt
    · rw [Worker.backoff, Worker.backoff, heq]
    · -- A later product is at least twice as large, so the exception does not matter.
      have hpow : (2 : ℤ) ^ ((a - 1).toNat + 1) ≤ 2 ^ (b - 1).toNat :=
        pow_le_pow_right₀ (by omega) hlt
      have hdouble := mul_le_mul_of_nonneg_left hpow hbase.le
      rw [pow_succ, ← mul_assoc] at hdouble
      rw [Worker.backoff, Worker.backoff]
      omega

/-- The half of an odd cap is rounded down, and the second attempt waits for the whole cap. -/
theorem backoff_spec_oddCap : ∃ w, w.backoff 2 = 7 ∧ w.backoff64 2 = some (w.backoff 2) ∧
    Worker.new { owner := "w", leaseDuration := 1, backoffBase := 3, backoffMax := 7 } = .ok w :=
  ⟨⟨"", "w", 1, 3, 3, 7⟩, by decide, (backoff_spec _ (by decide) (by decide) (by decide) 2).1, rfl⟩

end AgentService.Queue
