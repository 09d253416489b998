import AgentService.Queue.Memory

/-!
# Leases of tasks

Along every run of the in-memory queue, a task that is leased is the one that the latest `Claim` of
it returned (`Lawful`), so that the calls that end a lease are fenced by that claim. Tasks are never
removed: what was stored of a task stays, its counters grow, and a completed or failed task never
changes again (`Task.Evolves`). `lease_safety` puts these together.
-/

namespace AgentService.Queue

open Concurrent Backend Option
open Storage (Context)

/-! ## How tasks evolve -/

/-- What every call keeps of a task. -/
structure Task.Evolves (task task' : Task) : Prop where
  tenantID : task'.tenantID = task.tenantID
  taskID : task'.taskID = task.taskID
  kind : task'.kind = task.kind
  payload : task'.payload = task.payload
  /-- The attempts never decrease. -/
  attempts : task.attempts ≤ task'.attempts
  /-- The token never decreases. -/
  fencingToken : task.fencingToken ≤ task'.fencingToken
  /-- A completed or failed task never changes. -/
  final : task.status = .completed ∨ task.status = .failed → task' = task

namespace Task.Evolves

variable {task task' task'' : Task}

theorem refl (task : Task) : task.Evolves task :=
  ⟨rfl, rfl, rfl, rfl, le_refl _, le_refl _, fun _ => rfl⟩

/-- Two steps in a row. -/
theorem trans (h : task.Evolves task') (h' : task'.Evolves task'') : task.Evolves task'' where
  tenantID := h'.tenantID.trans h.tenantID
  taskID := h'.taskID.trans h.taskID
  kind := h'.kind.trans h.kind
  payload := h'.payload.trans h.payload
  attempts := h.attempts.trans h'.attempts
  fencingToken := h.fencingToken.trans h'.fencingToken
  final hfinal := by
    have heq := h.final hfinal
    rw [h'.final (heq ▸ hfinal), heq]

end Task.Evolves

variable {now : ℤ} {tenantID : String}

/-- A task that may be claimed is not completed or failed. -/
theorem Task.not_final_of_eligible {task : Task} (h : task.eligible now tenantID = true) :
    ¬ (task.status = .completed ∨ task.status = .failed) := by
  simp only [eligible, decide_eq_true_eq] at h
  rintro (hfinal | hfinal) <;> simp [hfinal] at h

/-- A new lease keeps what was stored of a task. -/
theorem Task.evolves_lease {task : Task} (h : task.eligible now tenantID = true) (owner : String)
    (leaseDuration : ℤ) : task.Evolves (task.lease now owner leaseDuration) where
  tenantID := rfl
  taskID := rfl
  kind := rfl
  payload := rfl
  attempts := Int.le_add_one (le_refl _)
  fencingToken := Int.le_add_one (le_refl _)
  final hfinal := absurd hfinal (not_final_of_eligible h)

/-- The end of a lease keeps what was stored of a task. -/
theorem Task.evolves_settle {task : Task} (h : task.status = .leased)
    (settlement : Settlement) : task.Evolves (settlement.apply now task) where
  tenantID := rfl
  taskID := rfl
  kind := rfl
  payload := rfl
  attempts := le_refl _
  fencingToken := le_refl _
  final := by simp [h]

/-- Every task is still there, and evolved. -/
def Backend.Evolves (b b' : Backend) : Prop :=
  ∀ k task, b.tasks.lookup k = some task → ∃ task', b'.tasks.lookup k = some task' ∧
    task.Evolves task'

namespace Backend.Evolves

variable {b b' b'' : Backend}

theorem refl (b : Backend) : b.Evolves b := fun _ task h => ⟨task, h, .refl task⟩

/-- Two steps in a row. -/
theorem trans (h : b.Evolves b') (h' : b'.Evolves b'') : b.Evolves b'' := by
  intro k task htask
  obtain ⟨task', htask', hevolves⟩ := h k task htask
  obtain ⟨task'', htask'', hevolves'⟩ := h' k task' htask'
  exact ⟨task'', htask'', hevolves.trans hevolves'⟩

/-- A write of a task that is new or evolved. -/
theorem setTask {k : String} {task : Task}
    (h : ∀ old, b.tasks.lookup k = some old → old.Evolves task) : b.Evolves (b.setTask k task) := by
  intro k' old hold
  by_cases hk : k' = k
  · subst hk
    exact ⟨task, AList.lookup_insert _, h old hold⟩
  · exact ⟨old, (AList.lookup_insert_ne hk).trans hold, .refl old⟩

end Backend.Evolves

variable {b b' : Backend} {call : Call}

/-- A call that acts keeps the tasks. -/
theorem Acts.evolves {v : call.Val} (h : Acts now b call v b') : b.Evolves b' := by
  cases h with
  | viewed =>
    intro k task _
    exact ⟨task, by rwa [tasks_newView], .refl task⟩
  | present | read | closed => exact .refl b
  | enqueued _ _ hnew =>
    refine .setTask fun old hold => ?_
    rw [hnew] at hold
    cases hold
  | claimed _ owner leaseDuration _ task _ htaken =>
    have holdest := oldest_spec htaken
    refine .setTask fun old hold => ?_
    obtain rfl : task = old := some.inj (holdest.found.symm.trans hold)
    exact Task.evolves_lease holdest.eligible owner leaseDuration
  | settled _ _ _ _ settlement task hholds =>
    refine .setTask fun old hold => ?_
    obtain rfl : task = old := some.inj (hholds.found.symm.trans hold)
    exact Task.evolves_settle hholds.leased settlement

/-- One call keeps the tasks. -/
theorem Backend.evolves_answer (b : Backend) (request : Request) :
    b.Evolves (memory.answer request b).2 := by
  rcases memory_spec request b with ⟨_, heq⟩ | ⟨v, _, heq, hacts⟩
  · rw [heq]
    exact .refl b
  · rw [heq]
    exact hacts.evolves

/-- Calls keep the tasks. -/
theorem Backend.evolves_after (b : Backend) (requests : List Request) :
    b.Evolves (memory.after b requests) := by
  induction requests generalizing b with
  | nil => exact .refl b
  | cons request _ ih => exact (b.evolves_answer request).trans (ih _)

/-! ## The latest claim -/

/-- The lease that a call made of a task. -/
def leases (tenantID taskID : String) : memory.Step → Option Task
  | ⟨⟨_, _, .claim ..⟩, (.ok task : Except Err Task), _, _⟩ =>
    if task.tenantID = tenantID ∧ task.taskID = taskID then some task else none
  | _ => none

/-- What the latest `Claim` of a task returned. -/
def lastClaim (history : List memory.Step) (tenantID taskID : String) : Option Task :=
  (history.filterMap (leases tenantID taskID)).getLast?

/-- The latest claim after one more call. -/
theorem lastClaim_snoc (history : List memory.Step) (st : memory.Step) (tenantID taskID : String) :
    lastClaim (history ++ [st]) tenantID taskID =
      (leases tenantID taskID st).or (lastClaim history tenantID taskID) := by
  unfold lastClaim
  rw [List.filterMap_append]
  cases hst : leases tenantID taskID st with
  | none => simp [hst]
  | some => simp [hst]

/-- The identifiers of a call are free of NUL. -/
def Call.NulFree : Call → Prop
  | .newView | .close => True
  | .enqueue input => Queue.NulFree input.tenantID ∧ Queue.NulFree input.taskID
  | .get tenantID taskID | .settle tenantID taskID _ _ _ =>
    Queue.NulFree tenantID ∧ Queue.NulFree taskID
  | .claim tenantID _ _ => Queue.NulFree tenantID

instance (call : Call) : Decidable call.NulFree := by
  cases call <;> unfold Call.NulFree <;> infer_instance

/-- Every task stands under its key. -/
def Backend.Keyed (b : Backend) : Prop :=
  ∀ k task, b.tasks.lookup k = some task → taskKey task.tenantID task.taskID = k

/-- A call keeps the keys. -/
theorem Acts.keyed {v : call.Val} (h : Acts now b call v b') (hb : b.Keyed) : b'.Keyed := by
  intro k task htask
  rcases h.task htask with hold | ⟨_, -, hk, -, rfl⟩ |
    ⟨tenantID, owner, leaseDuration, old, -, -, holdest, rfl⟩ |
    ⟨tenantID, taskID, owner, fence, settlement, old, -, rfl, hholds, rfl⟩
  · exact hb k task hold
  · exact hk
  -- A claim and the end of a lease keep the identity.
  · exact hb k old (oldest_spec holdest).found
  · exact hb _ old hholds.found

/-- Along every run, every task stands under its key. -/
theorem keyed_after (requests : List Request) : Backend.Keyed (memory.after {} requests) := by
  refine Server.history_always (S := memory) (J := fun _ b => Backend.Keyed b) ?_
    (fun _ b request hb => ?_) requests
  · intro k _ htask
    cases htask
  · rcases memory_spec request b with ⟨_, heq⟩ | ⟨v, _, heq, hacts⟩
    · rw [heq]
      exact hb
    · rw [heq]
      exact hacts.keyed hb

/-- Every task stands under its key, and its identity is free of NUL. -/
def Backend.Named (b : Backend) : Prop :=
  ∀ k task, b.tasks.lookup k = some task →
    taskKey task.tenantID task.taskID = k ∧ NulFree task.tenantID ∧ NulFree task.taskID

/-- The task under the key of an identity has that identity. -/
theorem Backend.Named.identity {b : Backend} (h : b.Named) {tenantID taskID : String} {task : Task}
    (htask : b.tasks.lookup (taskKey tenantID taskID) = some task) :
    task.tenantID = tenantID ∧ task.taskID = taskID := by
  obtain ⟨hk, htenant, hid⟩ := h _ task htask
  exact (taskKey_inj htenant hid).1 hk

/-- A call whose identifiers are free of NUL keeps the keys. -/
theorem Acts.named {v : call.Val} (h : Acts now b call v b') (hfree : call.NulFree)
    (hb : b.Named) : b'.Named := by
  intro k task htask
  rcases h.task htask with hold | ⟨_, rfl, hk, -, rfl⟩ |
    ⟨tenantID, owner, leaseDuration, old, -, -, holdest, rfl⟩ |
    ⟨tenantID, taskID, owner, fence, settlement, old, -, rfl, hholds, rfl⟩
  · exact hb k task hold
  · exact ⟨hk, hfree.1, hfree.2⟩
  -- A claim and the end of a lease keep the identity.
  · exact hb k old (oldest_spec holdest).found
  · exact hb _ old hholds.found

/-- What a call leased stands in the backend. -/
theorem Acts.lookup_leases {v : call.Val}
    (h : Acts now b call v b') (hb : b.Named) {context : Context} {tenantID taskID : String}
    {task : Task}
    (hleases : leases tenantID taskID (⟨⟨context, now, call⟩, .ok v, b, b'⟩ : memory.Step) =
      some task) : b'.tasks.lookup (taskKey tenantID taskID) = some task := by
  cases h with
  | claimed _ owner leaseDuration k old _ holdest =>
    simp only [leases] at hleases
    split_ifs at hleases with hid
    cases hleases
    obtain ⟨hk, -⟩ := hb k old (oldest_spec holdest).found
    obtain ⟨rfl, rfl⟩ := hid
    rw [show taskKey (old.lease now owner leaseDuration).tenantID
      (old.lease now owner leaseDuration).taskID = k from hk]
    exact AList.lookup_insert _
  | _ => cases hleases

/-! ## The invariant -/

/-- What holds of the tasks of a queue after some calls. -/
structure Lawful (history : List memory.Step) (b : Backend) : Prop where
  /-- Every task stands under its key. -/
  named : b.Named
  /-- A task is leased if and only if it has an owner and a deadline. -/
  leased : ∀ k task, b.tasks.lookup k = some task →
    (task.status = .leased ↔ task.leaseOwner ≠ "" ∧ task.leaseExpiresAt ≠ none)
  /-- The attempts are the token. -/
  attempts : ∀ k task, b.tasks.lookup k = some task → task.attempts = task.fencingToken
  /-- A leased task is what the latest claim of it returned. -/
  latest : ∀ k task, b.tasks.lookup k = some task → task.status = .leased →
    lastClaim history task.tenantID task.taskID = some task

/-- The end of a lease leaves no lease. -/
theorem Settlement.status_ne_leased (settlement : Settlement) : settlement.status ≠ .leased := by
  cases settlement <;> simp [Settlement.status]

/-- A leased task after a call was leased by it, or it was there before. -/
theorem Acts.leased {v : call.Val} (h : Acts now b call v b') (context : Context) (hb : b.Named)
    (hb' : b'.Named) {k : String} {task : Task} (htask : b'.tasks.lookup k = some task)
    (hleased : task.status = .leased) :
    leases task.tenantID task.taskID (⟨⟨context, now, call⟩, .ok v, b, b'⟩ : memory.Step) =
        some task ∨
    (leases task.tenantID task.taskID (⟨⟨context, now, call⟩, .ok v, b, b'⟩ : memory.Step) = none ∧
      b.tasks.lookup k = some task) := by
  cases hleases : leases task.tenantID task.taskID
      (⟨⟨context, now, call⟩, .ok v, b, b'⟩ : memory.Step) with
  | some task' =>
    have hlook := h.lookup_leases hb hleases
    rw [(hb' k task htask).1] at hlook
    exact .inl (hlook.symm.trans htask)
  | none =>
    refine .inr ⟨rfl, ?_⟩
    cases h with
    | viewed => rwa [tasks_newView] at htask
    | present | read | closed => exact htask
    | enqueued =>
      rcases Go.lookup_insert_eq_some.1 htask with ⟨-, rfl⟩ | ⟨-, hold⟩
      · cases hleased
      · exact hold
    | claimed =>
      rcases Go.lookup_insert_eq_some.1 htask with ⟨-, rfl⟩ | ⟨-, hold⟩
      · simp [leases] at hleases
      · exact hold
    | settled _ _ _ _ settlement =>
      rcases Go.lookup_insert_eq_some.1 htask with ⟨-, rfl⟩ | ⟨-, hold⟩
      · exact absurd hleased settlement.status_ne_leased
      · exact hold

/-- One call keeps the invariant. -/
theorem Lawful.step {history : List memory.Step} {b : Backend} (h : Lawful history b)
    {request : Request} (hfree : request.call.NulFree) :
    Lawful (history ++ [memory.stepOf b request]) (memory.answer request b).2 := by
  rcases memory_spec request b with ⟨_, heq⟩ | ⟨v, _, heq, hacts⟩
  · rw [Server.stepOf_eq heq, heq]
    refine ⟨h.named, h.leased, h.attempts, fun k task htask hleased => ?_⟩
    rw [lastClaim_snoc]
    -- a call that fails leases nothing
    obtain ⟨_, _, call⟩ := request
    cases call <;> exact h.latest k task htask hleased
  · rw [Server.stepOf_eq heq, heq]
    have hnamed := hacts.named hfree h.named
    refine ⟨hnamed, fun k task htask => ?_, fun k task htask => ?_, fun k task htask hleased => ?_⟩
    · rcases hacts.task htask with hold | ⟨input, -, -, -, rfl⟩ |
        ⟨tenantID, owner, leaseDuration, old, -, howner, -, rfl⟩ |
        ⟨tenantID, taskID, owner, fence, settlement, old, -, -, -, rfl⟩
      · exact h.leased k task hold
      · simp [TaskInput.task]
      · simp [Task.lease, howner]
      · simp [Settlement.apply, Task.settle, settlement.status_ne_leased]
    · rcases hacts.task htask with hold | ⟨input, -, -, -, rfl⟩ |
        ⟨tenantID, owner, leaseDuration, old, -, -, holdest, rfl⟩ |
        ⟨tenantID, taskID, owner, fence, settlement, old, -, -, hholds, rfl⟩
      · exact h.attempts k task hold
      · rfl
      · exact congrArg (· + 1) (h.attempts k old (oldest_spec holdest).found)
      · exact h.attempts _ old hholds.found
    · rw [lastClaim_snoc]
      rcases hacts.leased request.context h.named hnamed htask hleased with hnew | ⟨hnone, hold⟩
      · rw [hnew, some_or]
      · rw [hnone, none_or]
        exact h.latest k task hold hleased

/-- The invariant along every run. -/
theorem lawful_after (requests : List Request) (h : ∀ r ∈ requests, r.call.NulFree) :
    Lawful (memory.history {} requests) (memory.after {} requests) := by
  refine Server.history_invariant (S := memory) (fun _ r => r.call.NulFree) (J := Lawful) ?_
    (fun _ _ _ hfree hl => hl.step hfree) fun _ hst => h _ (Server.call_mem_of_mem_history hst)
  refine ⟨fun k task htask => ?_, fun k task htask => ?_, fun k task htask => ?_,
    fun k task htask => ?_⟩
  · cases htask
  · cases htask
  · cases htask
  · cases htask

/-! ## Lease safety -/

/-- What a queue guarantees of its next call. -/
structure LeaseSafe (history : List memory.Step) (b : Backend) : Prop where
  /-- A task is leased if and only if it has an owner and a deadline. -/
  leased : ∀ k task, b.tasks.lookup k = some task →
    (task.status = .leased ↔ task.leaseOwner ≠ "" ∧ task.leaseExpiresAt ≠ none)
  /-- The attempts are the token. -/
  attempts : ∀ k task, b.tasks.lookup k = some task → task.attempts = task.fencingToken
  /-- `Claim` leases the oldest task that may be taken. -/
  claim : ∀ context now tenantID owner leaseDuration (task : Task) (b' : Backend),
    memory.answer ⟨context, now, .claim tenantID owner leaseDuration⟩ b =
        ((.ok task : Except Err Task), b') →
      ∃ k old, b.Oldest now tenantID k old ∧ task = old.lease now owner leaseDuration ∧
        b' = b.setTask k task
  /-- `Complete`, `Retry`, and `Fail` fail and leave the backend as it is, or they carry the owner
  and the token of the latest claim of the task before its deadline. -/
  settle : ∀ context now tenantID taskID owner fence settlement,
    (∃ err, memory.answer ⟨context, now, .settle tenantID taskID owner fence settlement⟩ b =
      (.error err, b)) ∨
    (∃ task b', memory.answer ⟨context, now, .settle tenantID taskID owner fence settlement⟩ b =
      (.ok task, b')) ∧
    ∃ held deadline, lastClaim history tenantID taskID = some held ∧ held.leaseOwner = owner ∧
      held.fencingToken = fence ∧ held.leaseExpiresAt = some deadline ∧ now < deadline

/-- The guarantees follow from the invariant. -/
theorem Lawful.leaseSafe {history : List memory.Step} {b : Backend} (h : Lawful history b) :
    LeaseSafe history b where
  leased := h.leased
  attempts := h.attempts
  claim := by
    intro context now tenantID owner leaseDuration task b' hok
    rcases memory_spec ⟨context, now, .claim tenantID owner leaseDuration⟩ b with
      ⟨err, heq⟩ | ⟨v, b'', heq, hacts⟩
    · rw [heq] at hok
      cases hok
    · rw [heq] at hok
      cases hok
      cases hacts with
      | claimed _ _ _ k old _ holdest =>
        exact ⟨k, old, oldest_spec holdest, rfl, rfl⟩
  settle := by
    intro context now tenantID taskID owner fence settlement
    rcases memory_spec ⟨context, now, .settle tenantID taskID owner fence settlement⟩ b with
      herr | ⟨v, b', heq, hacts⟩
    · exact .inl herr
    · cases hacts with
      | settled _ _ _ _ _ task hholds =>
        obtain ⟨rfl, rfl⟩ := h.named.identity hholds.found
        -- The lease that ends has a deadline, which the clock has not reached.
        obtain ⟨-, hdeadline⟩ := (h.leased _ task hholds.found).1 hholds.leased
        obtain ⟨deadline, hdeadline⟩ := ne_none_iff_exists'.1 hdeadline
        have hunexpired := hholds.unexpired
        simp only [hdeadline, expired, decide_eq_false_iff_not, not_le] at hunexpired
        exact .inr ⟨⟨_, _, heq⟩, task, deadline, h.latest _ task hholds.found hholds.leased,
          hholds.owner, hholds.fence, hdeadline, hunexpired⟩

/-- Leases are safe along every run whose identifiers are free of NUL, and the tasks only evolve. -/
theorem lease_safety (requests : List Request) (h : ∀ r ∈ requests, r.call.NulFree) :
    LeaseSafe (memory.history {} requests) (memory.after {} requests) ∧
    ∀ earlier later, requests = earlier ++ later →
      (memory.after {} earlier).Evolves (memory.after {} requests) := by
  refine ⟨(lawful_after requests h).leaseSafe, fun earlier later hsplit => ?_⟩
  subst hsplit
  have happend : memory.after {} (earlier ++ later) = memory.after (memory.after {} earlier) later :=
    Server.after_append _ earlier later
  exact happend ▸ evolves_after _ later

/-- A task that is claimed twice, the second time after the first lease is over. -/
def reclaimed : List Request :=
  [⟨.live, 0, .enqueue ⟨"t", "a", "k", [1]⟩⟩, ⟨.live, 0, .claim "t" "w" 10⟩,
    ⟨.live, 10, .claim "t" "v" 10⟩]

/-- Its leases are safe. -/
theorem lease_safety_reclaimed :
    LeaseSafe (memory.history {} reclaimed) (memory.after {} reclaimed) :=
  (lease_safety reclaimed (by decide)).1

end AgentService.Queue
