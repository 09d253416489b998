import AgentService.Queue.Leases

/-!
# Tenants of the queue

The in-memory queue keeps the tasks of all tenants in one map, under the tenant and the name with a
NUL between them. Where neither has a NUL the key says whose task it is; otherwise two tenants can
have tasks under one key. A call of one tenant leaves the tasks of the others alone exactly when no
other tenant has a task under the key of the call, or the call is refused before it looks
(`isolated_iff`).
-/

namespace AgentService.Queue

open Concurrent
open Backend (enqueue settle_eq transition)
open Storage (Context)

/-! ## Isolation -/

/-- The tenant and the name that a call is made with. -/
def Call.address : Call → Option (String × String)
  | .enqueue input => some (input.tenantID, input.taskID)
  | .get tenantID taskID | .settle tenantID taskID _ _ _ => some (tenantID, taskID)
  | .newView | .claim .. | .close => none

/-- The task that a call returns. -/
def Call.task : (call : Call) → call.Val → Option Task
  | .enqueue _, (task, _) => some task
  | .get .., task | .claim .., task | .settle .., task => some task
  | .newView, _ | .close, _ => none

/-- A call that leaves the tasks of other tenants alone. -/
structure Isolated (tenantID taskID : String) (b : Backend) (request : Request) : Prop where
  /-- It returns no task of another tenant. -/
  returns : ∀ v task, (memory.answer request b).1 = .ok v → request.call.task v = some task →
    task.tenantID = tenantID
  /-- It conflicts with no task of another tenant. -/
  conflicts : (memory.answer request b).1 = .error .conflict →
    ∃ own, b.tasks.lookup (taskKey tenantID taskID) = some own ∧ own.tenantID = tenantID
  /-- It changes no task of another tenant. -/
  changes : ∀ k other, b.tasks.lookup k = some other → other.tenantID ≠ tenantID →
    (memory.answer request b).2.tasks.lookup k = some other

/-- A task was enqueued under a tenant and a name. -/
def Backend.Enqueued (b : Backend) (tenantID taskID : String) : Prop :=
  ∃ k task, b.tasks.lookup k = some task ∧ task.tenantID = tenantID ∧ task.taskID = taskID

/-- A call that is not refused before it looks for its task. -/
def Looks (b : Backend) (request : Request) : Prop :=
  request.context = .live ∧ match request.call with
    | .enqueue input => validateInput input = none ∧ b.closed = false
    | .settle _ _ owner fence _ => owner ≠ "" ∧ 0 < fence
    | .newView | .get .. | .claim .. | .close => True

section Cases

variable {b : Backend} {request : Request} {tenantID taskID : String}

section

variable (haddress : request.call.address = some (tenantID, taskID))

include haddress

/-- A call that looks for its task and finds one returns it, or conflicts with it. -/
theorem found_of_looks (htenant : tenantID ≠ "") (htask : taskID ≠ "") (hlooks : Looks b request)
    {other : Task} (hother : b.tasks.lookup (taskKey tenantID taskID) = some other) :
    (memory.answer request b).1 = .error .conflict ∨
    ∃ v task, (memory.answer request b).1 = .ok v ∧ request.call.task v = some task ∧
      task.tenantID = other.tenantID := by
  obtain ⟨context, now, call⟩ := request
  obtain ⟨rfl : context = .live, hlooks⟩ := hlooks
  cases call with
  | newView | claim | close => cases haddress
  | get =>
    cases haddress
    have hget : b.get tenantID taskID = (.ok other, b) := by
      simp [Backend.get, htenant, htask, hother]
    exact .inr ⟨other, other, congrArg Prod.fst hget, rfl, rfl⟩
  | enqueue input =>
    cases haddress
    obtain ⟨hvalid, hopen⟩ := hlooks
    by_cases hdiffers : other.kind ≠ input.kind ∨ other.payload ≠ input.payload
    · have henqueue : b.enqueue now input = (.error .conflict, b) := by
        simp [enqueue, hvalid, hopen, hother, hdiffers]
      exact .inl (congrArg Prod.fst henqueue)
    · have henqueue : b.enqueue now input = (.ok (other, true), b) := by
        simp [enqueue, hvalid, hopen, hother, hdiffers]
      exact .inr ⟨(other, true), other, congrArg Prod.fst henqueue, rfl, rfl⟩
  | settle _ _ owner fence settlement =>
    cases haddress
    obtain ⟨howner, hfence⟩ := hlooks
    by_cases hholds : b.Holds now tenantID taskID owner fence other
    · exact .inr ⟨_, _, congrArg Prod.fst (hholds.settle_eq htenant htask howner hfence settlement),
        rfl, rfl⟩
    · have hconflict : b.settle now tenantID taskID owner fence settlement =
          (.error .conflict, b) := by
        rw [settle_eq, transition, if_neg (by simp [htenant, htask, howner, hfence]), hother]
        exact if_pos ((Backend.stale_iff hother).2 hholds)
      exact .inl (congrArg Prod.fst hconflict)

/-- A call that succeeds or conflicts has looked for its task. -/
theorem looks_of_answer
    (h : (memory.answer request b).1 = .error .conflict ∨ ∃ v, (memory.answer request b).1 = .ok v) :
    Looks b request := by
  obtain ⟨context, _, call⟩ := request
  have hcontext : ∀ {α : Type} {body : Except Err α × Backend},
      ((b.withContext context body).1 = .error .conflict ∨
        ∃ v, (b.withContext context body).1 = .ok v) →
      context = .live ∧ (body.1 = .error .conflict ∨ ∃ v, body.1 = .ok v) := by
    intro α body hbody
    cases context with
    | live => exact ⟨rfl, hbody⟩
    | nil =>
      rcases hbody with hbody | ⟨v, hbody⟩
      · cases hbody
      · cases hbody
    | done =>
      rcases hbody with hbody | ⟨v, hbody⟩
      · cases hbody
      · cases hbody
  cases call with
  | newView | claim | close => cases haddress
  | get => exact ⟨(hcontext h).1, trivial⟩
  | enqueue input =>
    obtain ⟨hlive, hbody⟩ := hcontext h
    refine ⟨hlive, ?_⟩
    cases hvalid : validateInput input with
    | some =>
      rw [validateInput_eq_some hvalid] at hvalid
      simp [enqueue, hvalid] at hbody
      cases hbody
    | none =>
      refine ⟨hvalid, ?_⟩
      by_contra hclosed
      rw [Bool.not_eq_false] at hclosed
      simp [enqueue, hvalid, hclosed] at hbody
      cases hbody
  | settle _ _ owner fence =>
    obtain ⟨hlive, hbody⟩ := hcontext h
    refine ⟨hlive, ?_⟩
    by_contra hinvalid
    have hempty : tenantID = "" ∨ taskID = "" ∨ owner = "" ∨ fence ≤ 0 := by
      rw [not_and_or, not_not, not_lt] at hinvalid
      exact .inr (.inr hinvalid)
    cases haddress
    rw [settle_eq, transition, if_pos hempty] at hbody
    rcases hbody with hbody | ⟨v, hbody⟩
    · cases hbody
    · cases hbody

/-- A call that conflicts has found a task. -/
theorem found_of_conflict (h : (memory.answer request b).1 = .error .conflict) :
    ∃ other, b.tasks.lookup (taskKey tenantID taskID) = some other := by
  have hlooks := looks_of_answer haddress (.inl h)
  obtain ⟨context, now, call⟩ := request
  obtain ⟨rfl : context = .live, hlooks⟩ := hlooks
  cases hlook : b.tasks.lookup (taskKey tenantID taskID) with
  | some other => exact ⟨other, rfl⟩
  | none =>
    -- Without a task there is nothing to conflict with.
    cases call with
    | newView | claim | close => cases haddress
    | get =>
      cases haddress
      have hbody : (b.get tenantID taskID).1 = .error .conflict := h
      unfold Backend.get at hbody
      rw [hlook] at hbody
      split_ifs at hbody
      · cases hbody
      · cases hbody
    | enqueue input =>
      cases haddress
      have hbody : (b.enqueue now input).1 = .error .conflict := h
      simp [enqueue, hlooks.1, hlooks.2, hlook] at hbody
    | settle _ _ owner fence settlement =>
      cases haddress
      have hbody : (b.settle now tenantID taskID owner fence settlement).1 = .error .conflict := h
      rw [settle_eq, transition, hlook] at hbody
      split_ifs at hbody
      · cases hbody
      · cases hbody

end

/-- No other tenant has a task under the key of a call. -/
def Backend.Apart (b : Backend) (tenantID taskID : String) : Prop :=
  ∀ tenantID' taskID', tenantID' ≠ tenantID → taskKey tenantID' taskID' = taskKey tenantID taskID →
    ¬ b.Enqueued tenantID' taskID'

/-- Then the task under the key of the call is the tenant's own. -/
theorem Backend.Apart.own (h : b.Apart tenantID taskID) (hb : b.Keyed) {other : Task}
    (hother : b.tasks.lookup (taskKey tenantID taskID) = some other) :
    other.tenantID = tenantID := by
  by_contra hne
  exact h other.tenantID other.taskID hne (hb _ other hother) ⟨_, other, hother, rfl, rfl⟩

/-- A call of a tenant that is alone under its key leaves the tasks of other tenants alone. -/
theorem Backend.Apart.isolated (hb : b.Keyed)
    (haddress : request.call.address = some (tenantID, taskID))
    (h : Looks b request → b.Apart tenantID taskID) : Isolated tenantID taskID b request := by
  refine ⟨fun v _ hok htask => ?_, fun hconflict => ?_, fun k _ hother hne => ?_⟩
  · have happart := h (looks_of_answer haddress (.inr ⟨v, hok⟩))
    rcases memory_spec request b with ⟨err, heq⟩ | ⟨_, b', heq, hacts⟩
    · rw [heq] at hok
      cases hok
    · rw [heq] at hok
      cases hok
      obtain ⟨context, now, call⟩ := request
      cases hacts with
      | viewed | closed | claimed => cases haddress
      | present _ _ hfound =>
        cases haddress
        cases htask
        exact happart.own hb hfound
      | enqueued =>
        cases haddress
        cases htask
        rfl
      | read _ _ _ hfound =>
        cases haddress
        cases htask
        exact happart.own hb hfound
      | settled _ _ _ _ _ old hholds =>
        cases haddress
        cases htask
        have hown : old.tenantID = tenantID := happart.own hb hholds.found
        exact hown
  · obtain ⟨own, hown⟩ := found_of_conflict haddress hconflict
    have happart := h (looks_of_answer haddress (.inl hconflict))
    exact ⟨own, hown, happart.own hb hown⟩
  · rcases memory_spec request b with ⟨err, heq⟩ | ⟨v, b', heq, hacts⟩
    · rw [heq]
      exact hother
    · have happart := h (looks_of_answer haddress (.inr ⟨v, congrArg Prod.fst heq⟩))
      rw [heq]
      obtain ⟨context, now, call⟩ := request
      cases hacts with
      | viewed | closed | claimed => cases haddress
      | present | read => exact hother
      | enqueued _ _ hnew =>
        refine (AList.lookup_insert_ne ?_).trans hother
        rintro rfl
        rw [hnew] at hother
        cases hother
      | settled =>
        cases haddress
        refine (AList.lookup_insert_ne ?_).trans hother
        rintro rfl
        exact hne (happart.own hb hother)

/-- A call that leaves the tasks of other tenants alone is alone under its key, if it looks. -/
theorem Isolated.apart (hb : b.Keyed) (haddress : request.call.address = some (tenantID, taskID))
    (htenant : tenantID ≠ "") (htask : taskID ≠ "") (h : Isolated tenantID taskID b request)
    (hlooks : Looks b request) : b.Apart tenantID taskID := by
  rintro _ _ hne hkey ⟨k, other, hother, rfl, rfl⟩
  rw [← hb k other hother, hkey] at hother
  rcases found_of_looks haddress htenant htask hlooks hother with
    hconflict | ⟨v, task, hok, htask, heq⟩
  · obtain ⟨_, hown, htenant'⟩ := h.conflicts hconflict
    rw [hother] at hown
    cases hown
    exact hne htenant'
  · exact hne (heq.symm.trans (h.returns v task hok htask))

end Cases

/-- In every reachable state, a call with a tenant and a name leaves the tasks of other tenants
alone exactly when no other tenant has a task under its key, or it is refused before it looks. -/
theorem isolated_iff (requests : List Request) (request : Request) (tenantID taskID : String)
    (haddress : request.call.address = some (tenantID, taskID)) (htenant : tenantID ≠ "")
    (htask : taskID ≠ "") :
    Isolated tenantID taskID (memory.after {} requests) request ↔
      (Looks (memory.after {} requests) request →
        Backend.Apart (memory.after {} requests) tenantID taskID) := by
  have hkeyed := keyed_after requests
  exact ⟨fun h hlooks => h.apart hkeyed haddress htenant htask hlooks,
    fun h => Backend.Apart.isolated hkeyed haddress h⟩

/-- A tenant whose name has a NUL enqueues a task. -/
def nulTenant : List Request := [⟨.live, 0, .enqueue ⟨"a\x00b", "c", "k", [1]⟩⟩]

/-- Another tenant reads a task of the same name. -/
theorem isolated_iff_nulTenant :
    Isolated "b" "c" (memory.after {} nulTenant) ⟨.live, 1, .get "b" "c"⟩ ↔
      (Looks (memory.after {} nulTenant) ⟨.live, 1, .get "b" "c"⟩ →
        Backend.Apart (memory.after {} nulTenant) "b" "c") :=
  isolated_iff nulTenant ⟨.live, 1, .get "b" "c"⟩ "b" "c" rfl (by decide) (by decide)

/-- A third tenant reads the task itself, under a name with a NUL. -/
theorem nulTenant_read :
    ¬ Isolated "a" "b\x00c" (memory.after {} nulTenant) ⟨.live, 1, .get "a" "b\x00c"⟩ := by
  intro h
  have htenant := h.returns (TaskInput.task 0 ⟨"a\x00b", "c", "k", [1]⟩) _ (by rfl) rfl
  revert htenant
  decide

end AgentService.Queue
