import Mathlib.Logic.Function.Basic

/-!
# Programs over atomic operations

A `Machine` is a shared state with a set of atomic operations. An operation may leave something to
the environment (the answer of a remote party, the order in which a map is walked, a clock that has
moved), which is why it takes a choice besides the state; it may also be disabled under a choice. A
`Program` is sequential code that reaches the shared state through these operations only: it either
returns or performs one operation and continues with the answer.

`Program.Obeys` is the logic of a single program. It looks at one program alone, with arbitrary
interference from outside: whatever the operations answered before, the program only issues the
operations that its discipline allows, and when it returns, its own log of operations satisfies the
postcondition. What a program has learnt is in that log, entry by entry, each with the states
before and after it; `Pool.lean` carries it to the runs of any number of programs.
-/

namespace AgentService.Concurrent

/-- A shared state with atomic operations. -/
structure Machine where
  /-- The shared state. -/
  State : Type
  /-- The atomic operations. -/
  Op : Type
  /-- What an operation answers. -/
  Res : Op → Type
  /-- What an operation leaves to the environment. -/
  Choice : Type
  /-- One operation under one choice: its answer and the state after it, or `none` when the
  environment cannot choose so. -/
  perform : (o : Op) → Choice → State → Option (Res o × State)
  /-- The moves of the environment between two operations. -/
  Move : Type
  /-- The state after a move of the environment. -/
  advance : Move → State → State

/-- Sequential code over the operations of a machine, with a result in `α`. -/
inductive Program (M : Machine) (α : Type) : Type where
  /-- Return a value. -/
  | ret (a : α)
  /-- Perform one operation and continue with its answer. -/
  | call (o : M.Op) (k : M.Res o → Program M α)

namespace Program

variable {M : Machine} {α β : Type}

/-- Sequencing. -/
def bind : Program M α → (α → Program M β) → Program M β
  | ret a, f => f a
  | call o k, f => call o fun r => (k r).bind f

instance : Monad (Program M) where
  pure := ret
  bind := bind

/-- The program that performs one operation and returns its answer. -/
def perform (o : M.Op) : Program M (M.Res o) := call o ret

@[simp] theorem pure_eq (a : α) : (pure a : Program M α) = ret a := rfl

@[simp] theorem call_bind (o : M.Op) (k : M.Res o → Program M α) (f : α → Program M β) :
    call o k >>= f = call o fun r => k r >>= f := rfl

end Program

namespace Machine

variable (M : Machine)

/-- `o` can answer `r` in `pre` and leave `post`. -/
def Performs (o : M.Op) (pre : M.State) (r : M.Res o) (post : M.State) : Prop :=
  ∃ ch, M.perform o ch pre = some (r, post)

/-- One performed operation, with its answer and the states around it. -/
structure Entry where
  /-- The operation. -/
  op : M.Op
  /-- Its answer. -/
  res : M.Res op
  /-- The state in which it was performed. -/
  pre : M.State
  /-- The state that it left. -/
  post : M.State

end Machine

/-- A log that is extended entry by entry. -/
theorem snocs {α : Type} (l l' : List α) : l'.foldl (fun l a => l ++ [a]) l = l ++ l' := by
  induction l' generalizing l with
  | nil => exact (List.append_nil l).symm
  | cons a l' ih => rw [List.foldl_cons, ih, List.append_assoc, List.singleton_append]

namespace Program

variable {M : Machine} {α β : Type}

/-- The discipline of a program. After the operations of `log`, every operation that it issues
satisfies `Pre`, whatever the earlier ones answered, and when it returns, `Post` holds of its log
and its result. The states of the log are arbitrary up to the meaning of each operation, so that a
program is judged under every interference. -/
def Obeys (Pre : List M.Entry → M.Op → Prop) (Post : List M.Entry → α → Prop) :
    Program M α → List M.Entry → Prop
  | ret a, log => Post log a
  | call o k, log => Pre log o ∧ ∀ pre r post, M.Performs o pre r post →
      (k r).Obeys Pre Post (log ++ [⟨o, r, pre, post⟩])

variable {Pre Pre' : List M.Entry → M.Op → Prop} {Post : List M.Entry → α → Prop}

/-- A returned value obeys the discipline when it satisfies the postcondition. -/
@[simp] theorem obeys_ret {a : α} {log : List M.Entry} :
    (ret a : Program M α).Obeys Pre Post log ↔ Post log a := Iff.rfl

/-- An operation obeys the discipline when it is allowed and the rest obeys it on every answer. -/
@[simp] theorem obeys_call {o : M.Op} {k : M.Res o → Program M α} {log : List M.Entry} :
    (call o k).Obeys Pre Post log ↔ Pre log o ∧ ∀ pre r post, M.Performs o pre r post →
      (k r).Obeys Pre Post (log ++ [⟨o, r, pre, post⟩]) := Iff.rfl

/-- Sequencing: the rest obeys the discipline from every log and result of the first part. -/
@[simp] theorem obeys_bind {Post : List M.Entry → β → Prop} {p : Program M α}
    {f : α → Program M β} {log : List M.Entry} :
    (p >>= f).Obeys Pre Post log ↔ p.Obeys Pre (fun log a => (f a).Obeys Pre Post log) log := by
  induction p generalizing log with
  | ret => rfl
  | call o k ih =>
    simp only [call_bind, obeys_call]
    constructor
    · rintro ⟨h, hk⟩
      exact ⟨h, fun pre r post hp => (ih r).1 (hk pre r post hp)⟩
    · rintro ⟨h, hk⟩
      exact ⟨h, fun pre r post hp => (ih r).2 (hk pre r post hp)⟩

variable {Post Post' : List M.Entry → α → Prop}

/-- Weakening of both conditions. -/
theorem Obeys.mono (hpre : ∀ log o, Pre log o → Pre' log o)
    (hpost : ∀ log a, Post log a → Post' log a) {p : Program M α} {log : List M.Entry}
    (h : p.Obeys Pre Post log) : p.Obeys Pre' Post' log := by
  induction p generalizing log with
  | ret => exact hpost _ _ h
  | call o k ih =>
    obtain ⟨ho, hk⟩ := h
    exact ⟨hpre _ _ ho, fun pre r post hp => ih r (hk pre r post hp)⟩

/-- Sequencing, with what is known after the first part. -/
theorem Obeys.bind {Q : List M.Entry → β → Prop} {p : Program M α} {f : α → Program M β}
    {log : List M.Entry} (h : p.Obeys Pre Post log)
    (hf : ∀ log a, Post log a → (f a).Obeys Pre Q log) : (p >>= f).Obeys Pre Q log :=
  obeys_bind.2 (h.mono (fun _ _ => id) hf)

/-- Two disciplines of one program. -/
theorem Obeys.and {p : Program M α} {log : List M.Entry} (h : p.Obeys Pre Post log)
    (h' : p.Obeys Pre' Post' log) :
    p.Obeys (fun l o => Pre l o ∧ Pre' l o) (fun l a => Post l a ∧ Post' l a) log := by
  induction p generalizing log with
  | ret => exact ⟨h, h'⟩
  | call o k ih =>
    exact ⟨⟨h.1, h'.1⟩, fun pre r post hp => ih r (h.2 pre r post hp) (h'.2 pre r post hp)⟩

/-- The empty discipline. -/
theorem obeys_trivial (p : Program M α) (log : List M.Entry) :
    p.Obeys (fun _ _ => True) (fun _ _ => True) log := by
  induction p generalizing log with
  | ret => trivial
  | call o k ih => exact ⟨trivial, fun _ r _ _ => ih r _⟩

/-- A program only adds to its log. -/
theorem obeys_extends (p : Program M α) {start log : List M.Entry} (h : start <+: log) :
    p.Obeys (fun l _ => start <+: l) (fun l _ => start <+: l) log := by
  induction p generalizing log with
  | ret => exact h
  | call o k ih => exact ⟨h, fun _ r _ _ => ih r (h.trans (List.prefix_append _ _))⟩

/-! ## Disciplines without a log -/

/-- Every operation that a program can issue satisfies `P`. -/
def Every (P : M.Op → Prop) : Program M α → Prop
  | ret _ => True
  | call o k => P o ∧ ∀ r, (k r).Every P

variable {P : M.Op → Prop}

/-- Sequencing. -/
theorem Every.bind {p : Program M α} {f : α → Program M β} (hp : p.Every P)
    (hf : ∀ a, (f a).Every P) : (p >>= f).Every P := by
  induction p with
  | ret a => exact hf a
  | call o k ih => exact ⟨hp.1, fun r => ih r (hp.2 r)⟩

/-- What holds of all operations holds of those of a program. -/
theorem Every.of_forall (h : ∀ o, P o) (p : Program M α) : p.Every P := by
  induction p with
  | ret => trivial
  | call o k ih => exact ⟨h o, ih⟩

/-- Weakening. -/
theorem Every.mono {Q : M.Op → Prop} {p : Program M α} (h : p.Every P) (hQ : ∀ o, P o → Q o) :
    p.Every Q := by
  induction p with
  | ret => trivial
  | call o k ih => exact ⟨hQ o h.1, fun r => ih r (h.2 r)⟩

/-- A program whose operations all satisfy `P` keeps this as its discipline. -/
theorem Every.obeys {p : Program M α} (h : p.Every P) (log : List M.Entry) :
    p.Obeys (fun _ o => P o) (fun _ _ => True) log := by
  induction p generalizing log with
  | ret => trivial
  | call o k ih => exact ⟨h.1, fun _ r _ _ => ih r (h.2 r) _⟩

/-! ## Logs through a view -/

variable {μ : Type} {view : M.Entry → Option μ}

/-- Whatever its operations are answered, what a program adds to its log looks through `view` as `Q`
says. -/
def Shows (view : M.Entry → Option μ) (Q : List μ → α → Prop) (p : Program M α) : Prop :=
  ∀ log, p.Obeys (fun _ _ => True) (fun l a => ∃ k, l = log ++ k ∧ Q (k.filterMap view) a) log

variable {Q : List μ → α → Prop}

theorem Shows.ret {a : α} (h : Q [] a) :
    (ret a : Program M α).Shows view Q := fun log => ⟨[], (List.append_nil log).symm, h⟩

theorem Shows.mono {Q Q' : List μ → α → Prop} {p : Program M α} (h : p.Shows view Q)
    (hQ : ∀ m a, Q m a → Q' m a) : p.Shows view Q' := fun log =>
  (h log).mono (fun _ _ => id) fun _ a ⟨k, hl, hk⟩ => ⟨k, hl, hQ _ a hk⟩

/-- What holds of everything is shown by every program. -/
theorem Shows.of_forall (h : ∀ m a, Q m a) (p : Program M α) : p.Shows view Q := fun log =>
  (obeys_extends p (List.prefix_refl log)).mono (fun _ _ _ => trivial) fun _ a ⟨k, hk⟩ =>
    ⟨k, hk.symm, h _ a⟩

/-- One operation. -/
theorem Shows.call {o : M.Op} {k : M.Res o → Program M α}
    (h : ∀ pre r post, M.Performs o pre r post →
      (k r).Shows view fun m a => Q ((view ⟨o, r, pre, post⟩).toList ++ m) a) :
    (call o k).Shows view Q := by
  refine fun _ => ⟨trivial, fun pre r post hp => ?_⟩
  refine (h pre r post hp _).mono (fun _ _ => id) ?_
  rintro l a ⟨k', rfl, hk'⟩
  refine ⟨⟨o, r, pre, post⟩ :: k', by simp, ?_⟩
  cases hview : view ⟨o, r, pre, post⟩ <;> simpa [List.filterMap_cons, hview] using hk'

/-- One operation and what follows it. -/
theorem Shows.perform {Q : List μ → β → Prop} {o : M.Op} {f : M.Res o → Program M β}
    (h : ∀ pre r post, M.Performs o pre r post →
      (f r).Shows view fun m b => Q ((view ⟨o, r, pre, post⟩).toList ++ m) b) :
    (perform o >>= f).Shows view Q := .call h

/-- Sequencing: the views follow one another. -/
theorem Shows.bind {Q' : List μ → β → Prop} {p : Program M α} {f : α → Program M β}
    (hp : p.Shows view Q) (hf : ∀ m a, Q m a → (f a).Shows view fun m' b => Q' (m ++ m') b) :
    (p >>= f).Shows view Q' := by
  intro log
  rw [obeys_bind]
  refine (hp log).mono (fun _ _ => id) ?_
  rintro l a ⟨k, rfl, hk⟩
  refine (hf _ a hk _).mono (fun _ _ => id) ?_
  rintro l b ⟨k', rfl, hk'⟩
  exact ⟨k ++ k', by simp, by simpa using hk'⟩

/-- Operations that cannot be seen leave nothing to see. -/
theorem Every.shows_nil {p : Program M α}
    (h : p.Every fun o => ∀ r pre post, view ⟨o, r, pre, post⟩ = none) :
    p.Shows view fun m _ => m = [] := by
  induction p with
  | ret => exact .ret rfl
  | call o k ih =>
    refine .call fun pre r post _ => (ih r (h.2 r)).mono ?_
    rintro m a rfl
    rw [h.1 r pre post]
    rfl

end Program

end AgentService.Concurrent
