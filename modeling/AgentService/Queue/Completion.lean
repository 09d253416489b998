import AgentService.Queue.Retries

/-!
# Finished work

When a handler returns nil, `RunOnce` reports its task as completed in its own context. If `Close`
has ended that context while the handler ran, the report is refused, the task stays leased, and the
work is done again after the lease has run out. Another way to do work again is to be slow between
the claim and the start of the handler: the task may have been completed under a later lease by
then.

In the runs without these two, work that is finished under an unexpired lease is reported, and the
handler is never started again for its task (`finished_once`). What carries the proof is `Sound`: a
task that `RunOnce` works on stands in the queue as it was claimed, or its lease has run out and a
later claim took it over; and no two calls of `RunOnce` work under the same lease.
-/

namespace AgentService.Queue

open Concurrent Option

/-! ## Tasks that are worked on -/

/-- A task that was claimed stands in the queue as it was claimed, or its lease has run out and it
was claimed again. -/
def Stored (b : Backend) (now : ℤ) (task : Task) : Prop :=
  ∃ stored, b.tasks.lookup (taskKey task.tenantID task.taskID) = some stored ∧
    (stored = task ∨
      (task.fencingToken < stored.fencingToken ∧ expired now task.leaseExpiresAt = true))

/-- A lease that has run out stays so. -/
theorem expired_mono {now now' : ℤ} (hle : now ≤ now') {deadline : Option ℤ}
    (h : expired now deadline = true) : expired now' deadline = true := by
  cases deadline with
  | none => cases h
  | some =>
    simp only [expired, decide_eq_true_eq] at h ⊢
    omega

namespace Stored

variable {b b' : Backend} {now now' : ℤ} {task : Task}

section

variable (h : Stored b now task)

include h

/-- Time passes. -/
theorem mono (hle : now ≤ now') : Stored b now' task := by
  obtain ⟨stored, hstored, heq | ⟨hlt, hexpired⟩⟩ := h
  · exact ⟨stored, hstored, .inl heq⟩
  · exact ⟨stored, hstored, .inr ⟨hlt, expired_mono hle hexpired⟩⟩

/-- The token of a task that was claimed is at most the one in the queue. -/
theorem token_le {stored : Task}
    (hstored : b.tasks.lookup (taskKey task.tenantID task.taskID) = some stored) :
    task.fencingToken ≤ stored.fencingToken := by
  obtain ⟨stored', hstored', hcases⟩ := h
  obtain rfl : stored' = stored := some.inj (hstored'.symm.trans hstored)
  rcases hcases with rfl | ⟨hlt, -⟩
  · exact le_refl _
  · exact le_of_lt hlt

/-- Before its lease has run out, a task that was claimed stands in the queue as it was claimed. -/
theorem eq_of_unexpired (hunexpired : expired now task.leaseExpiresAt = false) :
    b.tasks.lookup (taskKey task.tenantID task.taskID) = some task := by
  obtain ⟨_, hstored, rfl | ⟨-, hexpired⟩⟩ := h
  · exact hstored
  · rw [hunexpired] at hexpired
    cases hexpired

/-- A write of another task. -/
theorem setTask_ne {k : String} (value : Task)
    (hk : taskKey task.tenantID task.taskID ≠ k) : Stored (b.setTask k value) now task := by
  obtain ⟨stored, hstored, hcases⟩ := h
  exact ⟨stored, (AList.lookup_insert_ne hk).trans hstored, hcases⟩

/-- A task that was claimed stays in the queue until its lease runs out, unless a call ends this
very lease. -/
theorem acts (hleased : task.status = .leased) {call : Call} {v : call.Val}
    (hacts : Acts now b call v b')
    (hother : ∀ tenantID taskID owner fence settlement,
      call = .settle tenantID taskID owner fence settlement →
      taskKey tenantID taskID = taskKey task.tenantID task.taskID → fence ≠ task.fencingToken) :
    Stored b' now task := by
  cases hacts with
  | viewed =>
    unfold Stored
    rw [Backend.tasks_newView]
    exact h
  | present | read | closed => exact h
  | enqueued _ _ hnew =>
    refine h.setTask_ne _ fun hk => ?_
    obtain ⟨stored, hstored, -⟩ := h
    rw [hk, hnew] at hstored
    cases hstored
  | claimed _ _ _ k old _ holdest =>
    by_cases hk : taskKey task.tenantID task.taskID = k
    · subst hk
      have hold := Backend.oldest_spec holdest
      have hle := h.token_le hold.found
      refine ⟨_, AList.lookup_insert _, .inr ⟨Int.lt_add_one_of_le hle, ?_⟩⟩
      obtain ⟨stored, hstored, hcases⟩ := h
      obtain rfl : stored = old := some.inj (hstored.symm.trans hold.found)
      rcases hcases with rfl | ⟨-, hexpired⟩
      -- A leased task may be claimed only after its lease has run out.
      · have heligible := hold.eligible
        simp only [Task.eligible, hleased, decide_eq_true_eq, reduceCtorEq, false_and, or_false,
          false_or, true_and] at heligible
        exact heligible.2
      · exact hexpired
    · exact h.setTask_ne _ hk
  | settled tenantID taskID owner fence settlement old hholds =>
    by_cases hk : taskKey task.tenantID task.taskID = taskKey tenantID taskID
    · obtain ⟨stored, hstored, hcases⟩ := h
      rw [hk] at hstored
      obtain rfl : stored = old := some.inj (hstored.symm.trans hholds.found)
      refine ⟨_, by rw [hk]; exact AList.lookup_insert _, .inr ?_⟩
      rcases hcases with rfl | hlater
      · exact absurd hholds.fence.symm (hother tenantID taskID owner fence settlement rfl hk.symm)
      · exact hlater
    · exact h.setTask_ne _ hk

end

end Stored

/-! ## The invariant -/

/-- Every task stands under its key, and has a tenant, a name, and a token. -/
structure Backend.Sound (b : Backend) : Prop where
  /-- The key. -/
  keyed : ∀ k task, b.tasks.lookup k = some task → taskKey task.tenantID task.taskID = k
  tenant : ∀ k task, b.tasks.lookup k = some task → task.tenantID ≠ ""
  name : ∀ k task, b.tasks.lookup k = some task → task.taskID ≠ ""
  token : ∀ k task, b.tasks.lookup k = some task → 0 ≤ task.fencingToken

variable {b b' : Backend}

/-- A call keeps the keys, the names, and the tokens. -/
theorem Backend.Sound.acts (h : b.Sound) {now : ℤ} {call : Call} {v : call.Val}
    (hacts : Acts now b call v b') : b'.Sound := by
  refine ⟨fun k task htask => ?_, fun k task htask => ?_, fun k task htask => ?_,
    fun k task htask => ?_⟩
  all_goals
    rcases hacts.task htask with hold | ⟨_, -, hk, hvalid, rfl⟩ |
      ⟨tenantID, owner, leaseDuration, old, -, -, holdest, rfl⟩ |
      ⟨tenantID, taskID, owner, fence, settlement, old, -, rfl, hholds, rfl⟩
  · exact h.keyed k task hold
  · exact hk
  · exact h.keyed k old (oldest_spec holdest).found
  · exact h.keyed _ old hholds.found
  · exact h.tenant k task hold
  · exact (validateInput_eq_none hvalid).1
  · exact h.tenant k old (oldest_spec holdest).found
  · exact h.tenant _ old hholds.found
  · exact h.name k task hold
  · exact (validateInput_eq_none hvalid).2.1
  · exact h.name k old (oldest_spec holdest).found
  · exact h.name _ old hholds.found
  · exact h.token k task hold
  · exact le_refl _
  · exact Int.le_add_one (h.token k old (oldest_spec holdest).found)
  · exact h.token _ old hholds.found

/-- What a worker knows of the task that it works on. -/
structure WorksOn (b : Backend) (now : ℤ) (w : Worker) (task : Task) : Prop where
  /-- It was leased. -/
  leased : task.status = .leased
  /-- The lease was the worker's. -/
  owner : task.leaseOwner = w.owner
  /-- It has a token. -/
  token : 0 < task.fencingToken
  /-- It has a tenant. -/
  tenant : task.tenantID ≠ ""
  /-- It has a name. -/
  name : task.taskID ≠ ""
  /-- It stands in the queue as it was claimed, or its lease has run out. -/
  stored : Stored b now task

/-- A worker works on the task that it has claimed. -/
theorem Backend.Sound.worksOn (h : b.Sound) {now : ℤ} {tenantID : String} {w : Worker} {task : Task}
    (hacts : Acts now b (.claim tenantID w.owner w.leaseDuration) task b') :
    WorksOn b' now w task := by
  cases hacts with
  | claimed _ _ _ k old _ holdest =>
    have hfound := (oldest_spec holdest).found
    refine ⟨rfl, rfl, Int.lt_add_one_of_le (h.token k old hfound), h.tenant k old hfound,
      h.name k old hfound, _, ?_, .inl rfl⟩
    have hk : taskKey (old.lease now w.owner w.leaseDuration).tenantID
        (old.lease now w.owner w.leaseDuration).taskID = k := h.keyed k old hfound
    rw [hk]
    exact AList.lookup_insert _

/-- Tasks that are worked on, each under its own lease. -/
structure Pool.Sound (p : Pool) : Prop where
  /-- The workers are valid. -/
  staffed : p.Staffed Worker.Valid
  /-- The queue is sound. -/
  backend : p.backend.Sound
  /-- Every call of `RunOnce` works on a task of the queue. -/
  works : ∀ (i : ℕ) (run : Run) (task : Task), p.runs[i]? = some run → run.phase.held = some task →
    WorksOn p.backend p.clock run.worker task
  /-- No two of them work under the same lease. -/
  distinct : ∀ (i j : ℕ) (run run' : Run) (task task' : Task), i ≠ j →
    p.runs[i]? = some run → p.runs[j]? = some run' → run.phase.held = some task → run'.phase.held = some task' →
    taskKey task.tenantID task.taskID = taskKey task'.tenantID task'.taskID →
    task.fencingToken ≠ task'.fencingToken

namespace Pool.Sound

variable {p : Pool}

/-- The queue after an event. -/
theorem backend_next (h : p.Sound) (event : Event) : (p.next event).backend.Sound := by
  rcases (p.moves event).backend with hbackend | ⟨_, v, hacts, -⟩
  · rw [hbackend]
    exact h.backend
  · exact h.backend.acts hacts

/-- A task that is worked on before and after an event. -/
theorem stored_next (h : p.Sound) (event : Event) {i : ℕ} {old run : Run} {task : Task}
    (hold : p.runs[i]? = some old) (hheld : old.phase.held = some task)
    (hrun : (p.next event).runs[i]? = some run) (hheld' : run.phase.held = some task) :
    Stored (p.next event).backend p.clock task := by
  have hworks := h.works i old task hold hheld
  rcases (p.moves event).backend with hbackend | ⟨call, v, hacts, hmade⟩
  · rw [hbackend]
    exact hworks.stored
  refine hworks.stored.acts hworks.leased hacts fun tenantID taskID owner fence settlement hcall
    hk => ?_
  obtain ⟨j, runj, taskj, _, _, hrunj, hphase, rfl, rfl, rfl, -, hruns⟩ :=
    hmade.settle _ _ _ _ _ hcall
  -- The call that ends its lease works on nothing afterwards.
  have hij : j ≠ i := by
    rintro rfl
    obtain ⟨hj, -⟩ := List.getElem?_eq_some_iff.1 hrunj
    rw [hruns, List.getElem?_set, if_pos rfl, if_pos hj] at hrun
    cases hrun
    cases hheld'
  exact h.distinct j i runj old taskj task hij hrunj hold (by rw [hphase]; rfl) hheld hk

/-- A claim has a later token than the tasks that are worked on. -/
theorem token_lt_of_claim (h : p.Sound) {tenantID owner : String} {leaseDuration : ℤ}
    {task task' : Task} {b' : Backend}
    (hacts : Acts p.clock p.backend (.claim tenantID owner leaseDuration) task b') {j : ℕ} {run : Run}
    (hrun : p.runs[j]? = some run) (hheld : run.phase.held = some task')
    (hk : taskKey task'.tenantID task'.taskID = taskKey task.tenantID task.taskID) :
    task'.fencingToken < task.fencingToken := by
  cases hacts with
  | claimed _ _ _ k old _ holdest =>
    have hfound := (Backend.oldest_spec holdest).found
    have hold : taskKey task'.tenantID task'.taskID = k := hk.trans (h.backend.keyed k old hfound)
    rw [← hold] at hfound
    exact Int.lt_add_one_of_le ((h.works j run task' hrun hheld).stored.token_le hfound)

/-- One event keeps the invariant. -/
theorem next (h : p.Sound) (event : Event) : (p.next event).Sound where
  staffed := h.staffed.next event fun _ _ _ hok => Worker.new_valid hok
  backend := h.backend_next event
  works := by
    intro i run task hrun hheld
    have hclock := (p.keeps event).clock
    rcases (p.moves event).held hrun hheld with
      ⟨old, hold, hheld', hworker⟩ | ⟨old, ctx, -, -, -, hacts⟩
    · have hworks := h.works i old task hold hheld'
      exact { hworks with
        owner := hworker ▸ hworks.owner
        stored := (h.stored_next event hold hheld' hrun hheld).mono hclock }
    · have hworks := h.backend.worksOn hacts
      exact { hworks with stored := hworks.stored.mono hclock }
  distinct := by
    -- A new claim has a later token; otherwise both worked on their tasks before.
    have hnew : ∀ {i j : ℕ} {old run run' : Run} {ctx : Ctx} {task task' : Task}, i ≠ j →
        (p.next event).runs = p.runs.set i { old with phase := .claimed task } →
        Acts p.clock p.backend (.claim (Pool.tenantHint run.worker ctx) run.worker.owner
          run.worker.leaseDuration) task (p.next event).backend →
        (p.next event).runs[j]? = some run' → run'.phase.held = some task' →
        taskKey task'.tenantID task'.taskID = taskKey task.tenantID task.taskID →
        task'.fencingToken < task.fencingToken := by
      intro i j old run run' ctx task task' hij hruns hacts hrun' hheld' hk
      rw [hruns, List.getElem?_set_ne hij] at hrun'
      exact h.token_lt_of_claim hacts hrun' hheld' hk
    intro i j run run' task task' hij hrun hrun' hheld hheld' hk
    rcases (p.moves event).held hrun hheld with
      ⟨old, hold, hheld1, -⟩ | ⟨old, ctx, -, -, hruns, hacts⟩
    · rcases (p.moves event).held hrun' hheld' with
        ⟨old', hold', hheld2, -⟩ | ⟨old', ctx, -, -, hruns, hacts⟩
      · exact h.distinct i j old old' task task' hij hold hold' hheld1 hheld2 hk
      · exact ne_of_lt (hnew hij.symm hruns hacts hrun hheld hk)
    · exact ne_of_gt (hnew hij hruns hacts hrun' hheld' hk.symm)

end Pool.Sound

/-! ## Work that is finished -/

/-- The task that `RunOnce` reports in a step as completed, where its lease has not run out. -/
def finishes : pool.Step → Option Task
  | ⟨.step i, _, (pre : Pool), (post : Pool)⟩ =>
    match pre.runs[i]?.map Run.phase, post.runs[i]?.map Run.phase with
    | some (.finished task none _), some (.returned ..) =>
      if expired pre.clock task.leaseExpiresAt then none else some task
    | _, _ => none
  | _ => none

/-- A task is completed. -/
def Backend.Completed (b : Backend) (task : Task) : Prop :=
  ∃ done, b.tasks.lookup (taskKey task.tenantID task.taskID) = some done ∧
    done.named task.tenantID task.taskID = true ∧ done.status = .completed

/-- Finished work is reported, and not done again. -/
structure FinishedOnce (history : List pool.Step) : Prop where
  /-- A task whose handler returned nil before its lease ran out is completed. -/
  completes : ∀ st ∈ history, ∀ task, finishes st = some task → st.post.backend.Completed task
  /-- The handler is never started again for it. -/
  once : history.Pairwise fun st later => ∀ task task', finishes st = some task →
    starts later = some task' → task'.named task.tenantID task.taskID = false

/-- A call of `RunOnce` that is in time: it starts the handler before the lease of its claim has run
out, and reports work that is finished before then in a context that is not done. -/
def Run.InTime (p : Pool) (run : Run) : Prop :=
  match run.phase with
  | .claimed task => expired p.clock task.leaseExpiresAt = false
  | .finished task none _ => expired p.clock task.leaseExpiresAt = false →
    ∀ ctx ∈ p.contexts[run.ctx]?, ctx.state = .live
  | _ => True

instance (p : Pool) (run : Run) : Decidable (run.InTime p) := by
  unfold Run.InTime
  split <;> infer_instance

/-- The call of `RunOnce` that takes a step in an event. -/
def Event.steps : Event → Option ℕ
  | .step i => some i
  | _ => none

/-- An event in which the call of `RunOnce` that takes a step, if any, is in time. -/
def InTime (p : Pool) : Event → Prop
  | .step i => ∀ run ∈ p.runs[i]?, run.InTime p
  | _ => True

/-- The events that are in time, decided. -/
theorem inTime_iff (p : Pool) (event : Event) : InTime p event ↔
    (event.steps.bind (p.runs[·]?)).all (fun run => decide (run.InTime p)) = true := by
  cases event with
  | step => simp [InTime, Event.steps, all_eq_true]
  | _ => simp [InTime, Event.steps]

instance (p : Pool) (event : Event) : Decidable (InTime p event) :=
  decidable_of_iff' _ (inTime_iff p event)

/-- A completed task stays completed. -/
theorem Backend.Completed.mono {task : Task} (h : b.Completed task)
    (hb : b.Evolves b') : b'.Completed task := by
  obtain ⟨done, hdone, hnamed, hstatus⟩ := h
  obtain ⟨done', hdone', hevolves⟩ := hb _ done hdone
  obtain rfl := hevolves.final (.inl hstatus)
  exact ⟨done', hdone', hnamed, hstatus⟩

namespace Pool.Sound

variable {p : Pool}

/-- A worker whose lease has not run out holds it. -/
theorem holds (h : p.Sound) {i : ℕ} {run : Run} {task : Task} (hrun : p.runs[i]? = some run)
    (hheld : run.phase.held = some task)
    (hunexpired : expired p.clock task.leaseExpiresAt = false) :
    p.backend.Holds p.clock task.tenantID task.taskID run.worker.owner task.fencingToken task :=
  have hworks := h.works i run task hrun hheld
  ⟨hworks.stored.eq_of_unexpired hunexpired, hworks.leased, hworks.owner, rfl, hunexpired⟩

/-- What a step that reports finished work starts from. -/
theorem of_finishes {p' : Pool} {event : Event} {task : Task}
    (h : finishes (⟨event, (), p, p'⟩ : pool.Step) = some task) :
    ∃ i run since, event = .step i ∧ p.runs[i]? = some run ∧ run.phase = .finished task none since ∧
      expired p.clock task.leaseExpiresAt = false ∧
      ∃ worked err, p'.runs[i]?.map Run.phase = some (.returned worked err) := by
  cases event with
  | step i =>
    simp only [finishes] at h
    split at h
    · rename_i t worked err hpre hpost
      split_ifs at h with hexpired
      cases h
      obtain ⟨run, hrun, hphase⟩ := map_eq_some_iff.1 hpre
      exact ⟨i, run, _, rfl, hrun, hphase, Bool.eq_false_iff.2 hexpired, worked, err, hpost⟩
    · cases h
  | _ => cases h

/-- A call of `RunOnce` that returns in a step has a worker and a context. -/
theorem step_of_returned {i : ℕ} {run : Run} {task : Task} {since : ℤ}
    (hrun : p.runs[i]? = some run) (hphase : run.phase = .finished task none since)
    (hpost : ∃ worked err,
      (p.next (.step i)).runs[i]?.map Run.phase = some (.returned worked err)) :
    ∃ member ctx, p.contexts[run.ctx]? = some ctx ∧ p.next (.step i) = p.goOn i run member ctx := by
  obtain ⟨worked, err, hpost⟩ := hpost
  have hnext : p.next (.step i) = p.on p.members[run.member]? fun member =>
      p.on p.contexts[run.ctx]? fun ctx => p.goOn i run member ctx := by
    simp only [Pool.next, step, hrun, on]
  -- Otherwise nothing happens, and the phase stays.
  have hstays : p.next (.step i) ≠ p := by
    intro hsame
    rw [hsame, hrun, map_some, hphase] at hpost
    cases hpost
  cases hmember : p.members[run.member]? with
  | none =>
    rw [hmember] at hnext
    exact absurd hnext hstays
  | some member =>
    cases hctx : p.contexts[run.ctx]? with
    | none =>
      rw [hmember, hctx] at hnext
      exact absurd hnext hstays
    | some ctx =>
      rw [hmember, hctx] at hnext
      exact ⟨member, ctx, rfl, hnext⟩

/-- Work that is finished in time is completed. -/
theorem completed_of_finishes (h : p.Sound) {event : Event} (hintime : InTime p event) {task : Task}
    (hfinishes : finishes (⟨event, (), p, p.next event⟩ : pool.Step) = some task) :
    (p.next event).backend.Completed task := by
  obtain ⟨i, run, since, rfl, hrun, hphase, hunexpired, hpost⟩ := of_finishes hfinishes
  have hvalid := h.staffed.runs run (List.mem_of_getElem? hrun)
  have hworks := h.works i run task hrun (by rw [hphase]; rfl)
  have hholds := h.holds hrun (by rw [hphase]; rfl) hunexpired
  obtain ⟨_, ctx, hctx, hstep⟩ := step_of_returned hrun hphase hpost
  have hlive : ctx.state = .live := by
    have hin := hintime run hrun
    rw [Run.InTime, hphase] at hin
    exact hin hunexpired ctx hctx
  -- The report is made in a context that is not done, by the holder of the lease.
  have hanswer : memory.answer (settleRequest p.clock run.worker ctx task none since) p.backend =
      p.backend.settle p.clock task.tenantID task.taskID run.worker.owner task.fencingToken
        .complete := by
    have hrequest : memory.answer (settleRequest p.clock run.worker ctx task none since) p.backend =
        p.backend.withContext ctx.state (p.backend.settle p.clock task.tenantID task.taskID
          run.worker.owner task.fencingToken .complete) := rfl
    rw [hrequest, hlive]
    rfl
  rw [hholds.settle_eq hworks.tenant hworks.name hvalid.owner hworks.token] at hanswer
  have hbackend : (p.next (.step i)).backend = p.backend.setTask (taskKey task.tenantID task.taskID)
      (Settlement.complete.apply p.clock task) := by
    have hnext : (p.next (.step i)).backend =
        (memory.answer (settleRequest p.clock run.worker ctx task none since) p.backend).2 := by
      rw [hstep, goOn, hphase]
      rfl
    rw [hnext, hanswer]
  rw [hbackend]
  exact ⟨_, AList.lookup_insert _, Task.named_iff.2 ⟨rfl, rfl⟩, rfl⟩

/-- A handler that is started in time works on a task that is not completed. -/
theorem not_completed_of_starts (h : p.Sound) {event : Event} (hintime : InTime p event)
    {task task' : Task} (hstarts : starts (⟨event, (), p, p.next event⟩ : pool.Step) = some task')
    (hcompleted : p.backend.Completed task) : task'.named task.tenantID task.taskID = false := by
  obtain ⟨i, run, rfl, hrun, hphase, -, -⟩ := (p.moves event).of_starts hstarts
  have hunexpired := hintime run hrun
  rw [Run.InTime, hphase] at hunexpired
  have hholds := h.holds hrun (by rw [hphase]; rfl) hunexpired
  by_contra hnamed
  rw [Bool.not_eq_false, Task.named_iff] at hnamed
  obtain ⟨_, hdone, -, hstatus⟩ := hcompleted
  have hfound := hholds.found
  rw [hnamed.1, hnamed.2, hdone] at hfound
  cases hfound
  rw [hholds.leased] at hstatus
  cases hstatus

end Pool.Sound

/-- Finished work along a history, and what it left in the queue. -/
structure Reported (history : List pool.Step) (p : Pool) : Prop where
  /-- The tasks that are worked on. -/
  sound : p.Sound
  /-- Finished work is reported, and not done again. -/
  once : FinishedOnce history
  /-- What was reported is still completed. -/
  completed : ∀ st ∈ history, ∀ task, finishes st = some task → p.backend.Completed task

/-- One event in time keeps finished work. -/
theorem Reported.step {history : List pool.Step} {p : Pool} (h : Reported history p) {event : Event}
    (hintime : InTime p event) : Reported (history ++ [pool.stepOf p event]) (p.next event) := by
  have hnew : ∀ task, finishes (pool.stepOf p event) = some task →
      (p.next event).backend.Completed task :=
    fun task hfinishes => h.sound.completed_of_finishes hintime hfinishes
  refine ⟨h.sound.next event, ⟨fun st hst task hfinishes => ?_, ?_⟩, fun st hst task hfinishes => ?_⟩
  · rcases List.mem_append.1 hst with hold | hlast
    · exact h.once.completes st hold task hfinishes
    · rw [List.mem_singleton.1 hlast] at hfinishes ⊢
      exact hnew task hfinishes
  · refine List.pairwise_append.2 ⟨h.once.once, List.pairwise_singleton _ _, ?_⟩
    intro st hst _ hlater task _ hfinishes hstarts
    rw [List.mem_singleton.1 hlater] at hstarts
    exact h.sound.not_completed_of_starts hintime hstarts (h.completed st hst task hfinishes)
  · rcases List.mem_append.1 hst with hold | hlast
    · exact (h.completed st hold task hfinishes).mono (p.moves event).evolves
    · rw [List.mem_singleton.1 hlast] at hfinishes
      exact hnew task hfinishes

/-- In every run whose steps are in time, finished work is reported, and not done again. -/
theorem finished_once (events : List Event)
    (h : ∀ st ∈ pool.history {} events, InTime st.pre st.call) :
    FinishedOnce (pool.history {} events) := by
  have hreported : Reported (pool.history {} events) (pool.after {} events) := by
    refine Server.history_invariant (S := pool) InTime (J := Reported) ?_
      (fun _ _ _ hintime hl => hl.step hintime) h
    refine ⟨⟨⟨by simp, by simp⟩, ⟨?_, ?_, ?_, ?_⟩, by simp, by simp⟩, ⟨by simp, .nil⟩, by simp⟩
    all_goals
      intro k task htask
      cases htask
  exact hreported.once

/-- A started worker finishes a task. -/
def finishedInTime : List Event :=
  [.enqueue .live ⟨"t", "a", "k", [1]⟩, .create ⟨"t", "w", 10, 3, 0, 0⟩, .start 0 {}, .poll 0, .step 0,
    .step 0, .step 0, .step 0, .handlerReturns 0 none, .step 0]

/-- It is reported, and not done again. -/
theorem finished_once_inTime : FinishedOnce (pool.history {} finishedInTime) :=
  finished_once finishedInTime (by decide +kernel)

/-- A worker is closed while it handles a task. The handler returns nil long before the lease runs
out, and another worker takes the task over after that. -/
def closedWhileHandling : List Event :=
  [.enqueue .live ⟨"t", "a", "k", [1]⟩, .create ⟨"t", "w", 10, 3, 0, 0⟩, .start 0 {}, .poll 0, .step 0,
    .step 0, .step 0, .step 0, .close 0, .handlerReturns 0 none, .step 0,
    .create ⟨"t", "v", 10, 3, 0, 0⟩, .advance 10, .runOnce 1 {}, .step 1, .step 1, .step 1, .step 1]

/-- A step in which finished work is reported and its task is not completed. -/
def refuses (st : pool.Step) : Bool :=
  (finishes st).any fun task =>
    (st.post.backend.tasks.lookup (taskKey task.tenantID task.taskID)).all fun done =>
      done.status ≠ .completed

/-- The task is not completed, and the handler is started again for it. -/
theorem closedWhileHandling_repeats :
    startsOf (pool.history {} closedWhileHandling) "t" "a" = 2 ∧
    ¬ FinishedOnce (pool.history {} closedWhileHandling) := by
  refine ⟨by decide +kernel, fun h => ?_⟩
  have hrefused : (pool.history {} closedWhileHandling).any refuses = true := by decide +kernel
  obtain ⟨st, hst, hst'⟩ := List.any_eq_true.1 hrefused
  obtain ⟨task, hfinishes, hdone⟩ := (Option.any_eq_true ..).1 hst'
  obtain ⟨done, hlook, -, hstatus⟩ := h.completes st hst task hfinishes
  simp [hlook, hstatus] at hdone

end AgentService.Queue
