import Mathlib.Logic.Relation
import AgentService.Concurrent.Program

/-!
# One program and what others do meanwhile

`Program.Runs` looks at a single program while the others are known by a relation only: between two
of its operations the state may change as this relation says. A run need not be complete; it ends
with the rest of the program. The operations performed so far are listed with the states around
them.

A run of a sequence is a run of its first part or a complete run of it, followed by a run of the
second part (`Runs.bind_cases`).
`Runs.every` and `Runs.related` carry what is known of single operations to a run, and
`Runs.exists_complete` says that a program whose operations can always be answered can be run to
its end. `Sequence` is about calls that are made one after the other.
-/

namespace AgentService.Concurrent

variable {M : Machine} {α β : Type}

/-- The changes of the state that the environment can make on its own. -/
def Machine.Moves (M : Machine) : M.State → M.State → Prop :=
  Relation.ReflTransGen fun s s' => ∃ m, s' = M.advance m s

instance : IsTrans M.State M.Moves := ⟨fun _ _ _ => .trans⟩

namespace Program

/-- From `s`, the program performs the operations of the list, and has the second program left to
do in the second state; meanwhile others change the state as `R` says. -/
inductive Runs (R : M.State → M.State → Prop) :
    Program M α → M.State → List M.Entry → Program M α → M.State → Prop
  /-- Nothing is performed. -/
  | rest {p : Program M α} {s s' : M.State} (hR : R s s') : Runs R p s [] p s'
  /-- The next operation is performed. -/
  | step {o : M.Op} {k : M.Res o → Program M α} {s s₁ s₂ s' : M.State} {r : M.Res o}
      {l : List M.Entry} {q : Program M α} (hR : R s s₁) (hp : M.Performs o s₁ r s₂)
      (h : Runs R (k r) s₂ l q s') : Runs R (.call o k) s (⟨o, r, s₁, s₂⟩ :: l) q s'

variable {R : M.State → M.State → Prop} {s s' : M.State} {l : List M.Entry}

/-- A program that has returned performs nothing. -/
theorem Runs.ret_cases {a : α} {q : Program M α} (h : (ret a).Runs R s l q s') :
    l = [] ∧ q = ret a ∧ R s s' := by
  cases h with
  | rest hR => exact ⟨rfl, rfl, hR⟩

variable {o : M.Op} {k : M.Res o → Program M α}

/-- A program that is about to perform an operation has not, or has performed it first. -/
theorem Runs.call_cases {q : Program M α} (h : (call o k).Runs R s l q s') :
    (l = [] ∧ q = call o k ∧ R s s') ∨ ∃ s1 r s2 l', R s s1 ∧ M.Performs o s1 r s2 ∧
      l = ⟨o, r, s1, s2⟩ :: l' ∧ (k r).Runs R s2 l' q s' := by
  cases h with
  | rest hR => exact .inl ⟨rfl, rfl, hR⟩
  | step hR hp h => exact .inr ⟨_, _, _, _, hR, hp, rfl, h⟩

/-- A complete run of a program that is about to perform an operation starts with it. -/
theorem Runs.call_complete {a : α}
    (h : (call o k).Runs R s l (ret a) s') : ∃ s1 r s2 l', R s s1 ∧ M.Performs o s1 r s2 ∧
      l = ⟨o, r, s1, s2⟩ :: l' ∧ (k r).Runs R s2 l' (ret a) s' := by
  rcases h.call_cases with ⟨-, hq, -⟩ | h
  · cases hq
  · exact h

variable {f : M.Res o → Program M β}

/-- A run of an operation and what follows it. -/
theorem Runs.perform_cases {q : Program M β} (h : (perform o >>= f).Runs R s l q s') :
    ((∀ b, q ≠ ret b) ∧ R s s') ∨ ∃ s1 r s2 l', R s s1 ∧ M.Performs o s1 r s2 ∧
      l = ⟨o, r, s1, s2⟩ :: l' ∧ (f r).Runs R s2 l' q s' := by
  rcases Runs.call_cases h with ⟨-, rfl, hR⟩ | h
  · exact .inl ⟨fun b hq => (by cases hq), hR⟩
  · exact .inr h

/-- A complete run of an operation and what follows it. -/
theorem Runs.perform_complete {b : β}
    (h : (perform o >>= f).Runs R s l (ret b) s') : ∃ s1 r s2 l', R s s1 ∧ M.Performs o s1 r s2 ∧
      l = ⟨o, r, s1, s2⟩ :: l' ∧ (f r).Runs R s2 l' (ret b) s' := h.call_complete

/-- A run of a sequence is an incomplete run of its first part, or a complete one and a run of the
second. -/
theorem Runs.bind_cases [Std.Refl R] {p : Program M α} {f : α → Program M β} {q : Program M β}
    (h : (p >>= f).Runs R s l q s') : ((∀ b, q ≠ ret b) ∧ ∃ p', p.Runs R s l p' s') ∨
      ∃ a l1 l2 s1, l = l1 ++ l2 ∧ p.Runs R s l1 (ret a) s1 ∧ (f a).Runs R s1 l2 q s' := by
  induction p generalizing s l with
  | ret a => exact .inr ⟨a, [], l, s, rfl, .rest (Std.Refl.refl s), h⟩
  | call o k ih =>
    rw [call_bind] at h
    rcases h.call_cases with ⟨rfl, rfl, hR⟩ | ⟨s1, r, s2, _, hR, hp, rfl, hrest⟩
    · exact .inl ⟨fun b hq => (by cases hq), call o k, .rest hR⟩
    · rcases ih r hrest with ⟨hq, p', h'⟩ | ⟨a, l1, l2, s3, rfl, h1, h2⟩
      · exact .inl ⟨hq, p', .step hR hp h'⟩
      · exact .inr ⟨a, ⟨o, r, s1, s2⟩ :: l1, l2, s3, rfl, .step hR hp h1, h2⟩

/-- A complete run of a sequence is made of complete runs of its parts. -/
theorem Runs.bind_complete [Std.Refl R] {p : Program M α} {f : α → Program M β} {b : β}
    (h : (p >>= f).Runs R s l (ret b) s') :
    ∃ a l1 l2 s1, l = l1 ++ l2 ∧ p.Runs R s l1 (ret a) s1 ∧ (f a).Runs R s1 l2 (ret b) s' := by
  rcases h.bind_cases with ⟨hq, -⟩ | h
  · exact absurd rfl (hq b)
  · exact h

/-- What holds of every operation of a program holds of those of a run and of the rest. -/
theorem Runs.every {P : M.Op → Prop} {p q : Program M α} (h : p.Runs R s l q s')
    (hp : p.Every P) : (∀ e ∈ l, P e.op) ∧ q.Every P := by
  induction h with
  | rest => exact ⟨fun e he => absurd he List.not_mem_nil, hp⟩
  | step _ _ _ ih =>
    obtain ⟨hl, hq⟩ := ih (hp.2 _)
    exact ⟨List.forall_mem_cons.2 ⟨hp.1, hl⟩, hq⟩

/-- A preorder that the operations of a program and the others respect relates the states of a
run. -/
theorem Runs.related {T : M.State → M.State → Prop} [IsTrans M.State T] (hR : ∀ a b, R a b → T a b)
    {p q : Program M α} (h : p.Runs R s l q s')
    (hp : p.Every fun o => ∀ pre r post, M.Performs o pre r post → T pre post) : T s s' := by
  induction h with
  | rest h => exact hR _ _ h
  | step h hperf _ ih =>
    exact IsTrans.trans _ _ _ (IsTrans.trans _ _ _ (hR _ _ h) (hp.1 _ _ _ hperf)) (ih (hp.2 _))

/-- A part of the state that the operations of a program and the others keep stays as it is. -/
theorem Runs.keeps {γ : Type} (f : M.State → γ) (hR : ∀ a b, R a b → f b = f a)
    {p q : Program M α} (h : p.Runs R s l q s')
    (hp : p.Every fun o => ∀ pre r post, M.Performs o pre r post → f post = f pre) :
    f s' = f s := by
  have htrans : IsTrans M.State fun a b => f b = f a := ⟨fun _ _ _ h h' => h'.trans h⟩
  exact Runs.related (T := fun a b => f b = f a) hR h hp

/-- A program whose operations can be answered, in entries with `Q`, can be run to its end. -/
theorem Runs.exists_complete [Std.Refl R] {Q : M.Entry → Prop}
    (hanswer : ∀ o s, ∃ r s', M.Performs o s r s' ∧ Q ⟨o, r, s, s'⟩) (p : Program M α)
    (s : M.State) : ∃ l a s', p.Runs R s l (ret a) s' ∧ ∀ e ∈ l, Q e := by
  induction p generalizing s with
  | ret a => exact ⟨[], a, s, .rest (Std.Refl.refl s), fun e he => absurd he List.not_mem_nil⟩
  | call o k ih =>
    obtain ⟨r, s1, hp, hQ⟩ := hanswer o s
    obtain ⟨l, a, s', h, hl⟩ := ih r s1
    exact ⟨⟨o, r, s, s1⟩ :: l, a, s', .step (Std.Refl.refl s) hp h, List.forall_mem_cons.2 ⟨hQ, hl⟩⟩

/-! ## Calls one after the other -/

section Sequence

variable {ι : Type}

/-- A call that has returned, with the states around it. -/
structure Finished (M : Machine) (ι α : Type) where
  call : ι
  /-- What it has returned. -/
  out : α
  /-- The state in which it was made. -/
  pre : M.State
  /-- The state in which it has returned. -/
  post : M.State

/-- From `s`, calls are made one after the other, and the last one has returned before the second
state. -/
inductive Sequence (R : M.State → M.State → Prop) (body : ι → Program M α) :
    M.State → List (Finished M ι α) → M.State → Prop
  /-- No call is made. -/
  | nil {s s' : M.State} (hR : R s s') : Sequence R body s [] s'
  /-- A call is made, and returns. -/
  | cons {d : Finished M ι α} {ds : List (Finished M ι α)} {s s' : M.State} {l : List M.Entry}
      (hR : R s d.pre) (hrun : (body d.call).Runs R d.pre l (ret d.out) d.post)
      (rest : Sequence R body d.post ds s') : Sequence R body s (d :: ds) s'

variable {body : ι → Program M α} {ds ds₁ ds₂ : List (Finished M ι α)}

/-- What every call keeps is kept by a sequence of calls. -/
theorem Sequence.keeps {P : M.State → Prop} (hR : ∀ a b, R a b → P a → P b)
    (h : Sequence R body s ds s') (hrun : ∀ d ∈ ds, ∀ l,
      (body d.call).Runs R d.pre l (ret d.out) d.post → P d.pre → P d.post) (hs : P s) : P s' := by
  induction h with
  | nil hmoves => exact hR _ _ hmoves hs
  | cons hmoves hdone rest ih =>
    obtain ⟨hfirst, hrest⟩ := List.forall_mem_cons.1 hrun
    exact ih hrest (hfirst _ hdone (hR _ _ hmoves hs))

/-- A sequence of calls can be cut around each of them. -/
theorem Sequence.split {d : Finished M ι α} (h : Sequence R body s (ds₁ ++ d :: ds₂) s') :
    Sequence R body s ds₁ d.pre ∧ (∃ l, (body d.call).Runs R d.pre l (ret d.out) d.post) ∧
      Sequence R body d.post ds₂ s' := by
  induction ds₁ generalizing s with
  | nil =>
    cases h with
    | cons hR hrun rest => exact ⟨.nil hR, ⟨_, hrun⟩, rest⟩
  | cons _ _ ih =>
    cases h with
    | cons hR hrun rest =>
      obtain ⟨hbefore, hd, hafter⟩ := ih rest
      exact ⟨.cons hR hrun hbefore, hd, hafter⟩

end Sequence

/-! ## Schedules -/

/-- One entry of a schedule: an operation of the program, or a move of the environment. -/
inductive Turn (M : Machine) where
  /-- The program performs its next operation under this choice. -/
  | own (ch : M.Choice)
  /-- The environment moves. -/
  | others (m : M.Move)

/-- The program along a schedule: what it performs, what is left of it, and the state. -/
def follow : Program M α → M.State → List (Turn M) →
    Option (List M.Entry × Program M α × M.State)
  | p, s, [] => some ([], p, s)
  | p, s, .others m :: turns => p.follow (M.advance m s) turns
  | .call o k, s, .own ch :: turns =>
    match M.perform o ch s with
    | some (r, s') =>
      ((k r).follow s' turns).map fun (l, q, s'') => (⟨o, r, s, s'⟩ :: l, q, s'')
    | none => none
  | .ret _, _, .own _ :: _ => none

/-- A run that follows what others have done. -/
theorem Runs.of_rely [IsTrans M.State R] {p q : Program M α} {s0 : M.State} (hR : R s0 s)
    (h : p.Runs R s l q s') : p.Runs R s0 l q s' := by
  cases h with
  | rest h => exact .rest (IsTrans.trans _ _ _ hR h)
  | step h hp hrest => exact .step (IsTrans.trans _ _ _ hR h) hp hrest

/-- A schedule gives a run. -/
theorem runs_of_follow {turns : List (Turn M)} {p q : Program M α}
    (h : p.follow s turns = some (l, q, s')) : p.Runs M.Moves s l q s' := by
  induction turns generalizing p s l with
  | nil =>
    rw [follow, Option.some.injEq, Prod.mk.injEq, Prod.mk.injEq] at h
    obtain ⟨rfl, rfl, rfl⟩ := h
    exact .rest .refl
  | cons turn _ ih =>
    cases turn with
    | others m =>
      rw [follow] at h
      exact Runs.of_rely (.single ⟨m, rfl⟩) (ih h)
    | own ch =>
      cases p with
      | ret => cases h
      | call =>
        rw [follow] at h
        split at h
        · next r s1 hperform =>
          obtain ⟨⟨_, _, _⟩, hrest, heq⟩ := Option.map_eq_some_iff.1 h
          cases heq
          exact .step .refl ⟨ch, hperform⟩ (ih hrest)
        · cases h

/-- A schedule along which the program returns, with a test that the run passes. -/
def completes (p : Program M α) (s : M.State) (turns : List (Turn M))
    (test : List M.Entry → α → M.State → Bool) : Bool :=
  match p.follow s turns with
  | some (l, .ret a, s') => test l a s'
  | _ => false

/-- A test that a schedule passes is passed by a complete run. -/
theorem exists_runs_of_completes (p : Program M α) (s : M.State) (turns : List (Turn M))
    (Q : List M.Entry → α → M.State → Prop) [∀ l a s', Decidable (Q l a s')]
    (h : p.completes s turns (fun l a s' => decide (Q l a s')) = true) :
    ∃ l a s', p.Runs M.Moves s l (ret a) s' ∧ Q l a s' := by
  unfold completes at h
  split at h
  · next l a s' hfollow => exact ⟨l, a, s', runs_of_follow hfollow, of_decide_eq_true h⟩
  · cases h

/-- Calls along schedules, one for each. -/
def followCalls {ι : Type} (body : ι → Program M α) :
    M.State → List (ι × List (Turn M)) → Option (List (Finished M ι α) × M.State)
  | s, [] => some ([], s)
  | s, (c, turns) :: calls =>
    match (body c).follow s turns with
    | some (_, .ret a, s₁) =>
      (followCalls body s₁ calls).map fun (ds, s') => (⟨c, a, s, s₁⟩ :: ds, s')
    | _ => none

/-- Schedules for the calls give a sequence of calls. -/
theorem sequence_of_followCalls {ι : Type} {body : ι → Program M α}
    {calls : List (ι × List (Turn M))} {ds : List (Finished M ι α)}
    (h : followCalls body s calls = some (ds, s')) : Sequence M.Moves body s ds s' := by
  induction calls generalizing s ds with
  | nil =>
    rw [followCalls, Option.some.injEq, Prod.mk.injEq] at h
    obtain ⟨rfl, rfl⟩ := h
    exact .nil .refl
  | cons call _ ih =>
    rw [followCalls] at h
    split at h
    · next l a s1 hfollow =>
      obtain ⟨⟨_, _⟩, hrest, heq⟩ := Option.map_eq_some_iff.1 h
      cases heq
      exact .cons (d := ⟨call.1, a, s, s1⟩) .refl (runs_of_follow hfollow) (ih hrest)
    · cases h

/-- A test that schedules for calls pass is passed by a sequence of calls. -/
theorem exists_sequence_of_followCalls {ι : Type} (body : ι → Program M α) (s : M.State)
    (calls : List (ι × List (Turn M))) (Q : List (Finished M ι α) → M.State → Prop)
    [∀ ds s', Decidable (Q ds s')]
    (h : (followCalls body s calls).any (fun r => decide (Q r.1 r.2)) = true) :
    ∃ ds s', Sequence M.Moves body s ds s' ∧ Q ds s' := by
  obtain ⟨⟨ds, s'⟩, hfollow, htest⟩ := (Option.any_eq_true _ _).1 h
  exact ⟨ds, s', sequence_of_followCalls hfollow, of_decide_eq_true htest⟩

end Program

end AgentService.Concurrent
