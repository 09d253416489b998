import AgentService.Concurrent.Program
import Mathlib.Data.Nat.Notation
import Mathlib.Logic.Relation
import Mathlib.Tactic.SplitIfs

/-!
# A program and its output channel

A program that writes to a channel with finitely many slots, and a consumer that reads the channel
at its own speed. A write either waits for a free slot or gives up when there is none; everything
else that the program asks of its machine is answered under arbitrary interference. What the
consumer has read and what is still in the slots is, in this order, what was written
(`received_append_buffer`). No run goes on for ever (`acc`), and as long as operations are answered
none gets stuck (`completes`), so that a consumer that keeps reading sees the end of the channel.
-/

namespace AgentService.Concurrent

/-- How the operations of a machine use a channel. -/
structure Port (M : Machine) (β : Type) where
  /-- The item that an operation writes, if it writes one. -/
  item : M.Op → Option β
  /-- Whether the operation waits for a free slot. -/
  waits : M.Op → Bool
  /-- Whether the answer says that the item was taken. -/
  taken : (o : M.Op) → M.Res o → Bool
  /-- The number of slots. -/
  capacity : ℕ

namespace Port

variable {M : Machine} {β : Type}

/-- What a performed operation has put into the channel. -/
def put (P : Port M β) (e : M.Entry) : Option β := if P.taken e.op e.res then P.item e.op else none

/-- The answer of a performed operation is the one of a channel whose slots hold `buffer`. -/
def Answers (P : Port M β) (buffer : List β) (e : M.Entry) : Prop :=
  (P.item e.op).isSome = true →
    if P.waits e.op then buffer.length < P.capacity ∧ P.taken e.op e.res = true
    else P.taken e.op e.res = decide (buffer.length < P.capacity)

instance (P : Port M β) (buffer : List β) (e : M.Entry) : Decidable (P.Answers buffer e) := by
  unfold Answers
  infer_instance

/-- An operation that sends nothing may be answered in any way. -/
theorem answers_of_item_eq_none {P : Port M β} {buffer : List β} {e : M.Entry}
    (h : P.item e.op = none) : P.Answers buffer e := by
  intro hsome
  rw [h] at hsome
  cases hsome

end Port

/-- A program, its channel, and the consumer. -/
structure Pipe (M : Machine) (α β : Type) where
  /-- What is left of the program; the channel is closed when it has returned. -/
  rest : Program M α
  /-- The performed operations, each with the slots before it. -/
  history : List (M.Entry × List β)
  /-- The slots. -/
  buffer : List β
  /-- What the consumer has read. -/
  received : List β

namespace Pipe

variable {M : Machine} {α β : Type}

/-- The start of a program, with an empty channel. -/
def start (p : Program M α) : Pipe M α β := ⟨p, [], [], []⟩

/-- The operations of the program. -/
def log (c : Pipe M α β) : List M.Entry := c.history.map Prod.fst

/-- The program has returned and the consumer has read everything. -/
def Finished (c : Pipe M α β) (a : α) : Prop := c.rest = .ret a ∧ c.buffer = []

/-- What the program has returned, if it has. -/
def result (c : Pipe M α β) : Option α :=
  match c.rest with
  | .ret a => some a
  | .call _ _ => none

/-- A run in which the program has returned and the slots are empty is finished. -/
theorem finished_of_result {c : Pipe M α β} {a : α} (h : c.result = some a)
    (hbuffer : c.buffer = []) : c.Finished a := by
  refine ⟨?_, hbuffer⟩
  unfold result at h
  split at h
  · next hrest =>
    cases h
    exact hrest
  · cases h

/-- One operation of the program has been performed. -/
def written (P : Port M β) (c : Pipe M α β) (e : M.Entry) (rest : Program M α) : Pipe M α β :=
  { rest := rest, history := c.history ++ [(e, c.buffer)],
    buffer := c.buffer ++ (P.put e).toList, received := c.received }

/-- The steps of the program, whose operations satisfy `adm`, and of the consumer. -/
inductive Step (P : Port M β) (adm : M.Entry → Prop) : Pipe M α β → Pipe M α β → Prop
  /-- The program performs its next operation. -/
  | write {c : Pipe M α β} {o : M.Op} {k : M.Res o → Program M α} {pre post : M.State}
      {r : M.Res o} (hrest : c.rest = .call o k) (hp : M.Performs o pre r post)
      (hadm : adm ⟨o, r, pre, post⟩) (hanswers : P.Answers c.buffer ⟨o, r, pre, post⟩) :
      Step P adm c (c.written P ⟨o, r, pre, post⟩ (k r))
  /-- The consumer reads the oldest item. -/
  | read {c : Pipe M α β} {item : β} {buffer : List β} (hbuffer : c.buffer = item :: buffer) :
      Step P adm c { c with buffer := buffer, received := c.received ++ [item] }

/-- The runs of the program and its consumer. -/
abbrev Runs (P : Port M β) (adm : M.Entry → Prop) : Pipe M α β → Pipe M α β → Prop :=
  Relation.ReflTransGen (Step P adm)

variable {P : Port M β} {adm : M.Entry → Prop} {p : Program M α} {c : Pipe M α β}

/-! ## What holds in every run -/

/-- What was read and what is in the slots is what was written, in order. -/
theorem received_append_buffer (h : Runs P adm (start p) c) :
    c.received ++ c.buffer = c.log.filterMap P.put := by
  induction h with
  | refl => rfl
  | @tail c _ _ hstep ih =>
    cases hstep with
    | @write o k pre post r hrest hp hadm hanswers =>
      have hput : [(⟨o, r, pre, post⟩ : M.Entry)].filterMap P.put =
          (P.put ⟨o, r, pre, post⟩).toList := by
        cases hput : P.put ⟨o, r, pre, post⟩ <;> simp [hput]
      calc c.received ++ (c.buffer ++ (P.put ⟨o, r, pre, post⟩).toList)
          = c.log.filterMap P.put ++ (P.put ⟨o, r, pre, post⟩).toList := by
            rw [← List.append_assoc, ih]
        _ = (c.written P ⟨o, r, pre, post⟩ (k r)).log.filterMap P.put := by
            rw [← hput, ← List.filterMap_append]
            simp [log, written]
    | read hbuffer =>
      rw [hbuffer] at ih
      simpa [log] using ih

/-- Every operation of a run was answered by the channel as its slots were, and is admissible. -/
theorem answers_of_mem (h : Runs P adm (start p) c) {e : M.Entry} {buffer : List β}
    (hmem : (e, buffer) ∈ c.history) : adm e ∧ P.Answers buffer e := by
  induction h with
  | refl => cases hmem
  | tail _ hstep ih =>
    cases hstep with
    | write _ _ hadm hanswers =>
      rcases List.mem_append.1 hmem with hmem | hmem
      · exact ih hmem
      · cases List.mem_singleton.1 hmem
        exact ⟨hadm, hanswers⟩
    | read => exact ih hmem

/-- What is left of the program obeys its discipline after the operations of the run. -/
theorem obeys_rest {Pre : List M.Entry → M.Op → Prop} {Post : List M.Entry → α → Prop}
    (hobeys : p.Obeys Pre Post []) (h : Runs P adm (start p) c) : c.rest.Obeys Pre Post c.log := by
  induction h with
  | refl => exact hobeys
  | tail _ hstep ih =>
    cases hstep with
    | write hrest hp =>
      rw [hrest] at ih
      simpa [log, written] using ih.2 _ _ _ hp
    | read => exact ih

/-- What a finished run shows. -/
theorem Finished.shows {μ : Type} {view : M.Entry → Option μ} {Q : List μ → α → Prop}
    (hshows : p.Shows view Q) (h : Runs P adm (start p) c) {a : α} (hfinished : c.Finished a) :
    Q (c.log.filterMap view) a := by
  have hrest := obeys_rest (hshows []) h
  rw [hfinished.1] at hrest
  obtain ⟨k, hlog, hk⟩ := hrest
  rw [hlog]
  exact hk

/-- The consumer of a finished run has read what was written. -/
theorem Finished.received (h : Runs P adm (start p) c) {a : α} (hfinished : c.Finished a) :
    c.received = c.log.filterMap P.put := by
  have hall := received_append_buffer h
  rwa [hfinished.2, List.append_nil] at hall

/-! ## Every run ends -/

/-- No run goes on for ever: each step takes an operation off the program or an item out of a
slot. -/
theorem acc (c : Pipe M α β) : Acc (fun c' c => Step P adm c c') c := by
  obtain ⟨p, history, buffer, received⟩ := c
  -- The program first, and while it stands still, the slots.
  induction p generalizing history buffer received with
  | ret =>
    induction buffer generalizing received with
    | nil =>
      refine ⟨_, fun c' hstep => ?_⟩
      cases hstep with
      | write hrest => cases hrest
      | read hbuffer => cases hbuffer
    | cons _ _ ih =>
      refine ⟨_, fun c' hstep => ?_⟩
      cases hstep with
      | write hrest => cases hrest
      | read hbuffer =>
        cases hbuffer
        exact ih _
  | call o k ihk =>
    have hwrite : ∀ {c c' : Pipe M α β}, c.rest = .call o k → Step P adm c c' →
        (∃ r history buffer received, c' = ⟨k r, history, buffer, received⟩) ∨
          ∃ item buffer, c.buffer = item :: buffer ∧
            c' = { c with buffer := buffer, received := c.received ++ [item] } := by
      intro c c' hrest hstep
      cases hstep with
      | write hrest' =>
        rw [hrest] at hrest'
        cases hrest'
        exact .inl ⟨_, _, _, _, rfl⟩
      | read hbuffer => exact .inr ⟨_, _, hbuffer, rfl⟩
    induction buffer generalizing received with
    | nil =>
      refine ⟨_, fun c' hstep => ?_⟩
      rcases hwrite rfl hstep with ⟨r, history, buffer, received, rfl⟩ | ⟨item, buffer, h, -⟩
      · exact ihk r _ _ _
      · cases h
    | cons item buffer ih =>
      refine ⟨_, fun c' hstep => ?_⟩
      rcases hwrite rfl hstep with ⟨r, history, buffer, received, rfl⟩ | ⟨item, buffer, h, rfl⟩
      · exact ihk r _ _ _
      · cases h
        exact ih _

/-- Every operation can be answered, unless it waits for a free slot. -/
def Answerable (P : Port M β) (adm : M.Entry → Prop) : Prop :=
  ∀ (o : M.Op) (buffer : List β),
    (P.waits o = true → buffer.length < P.capacity) →
    ∃ pre r post, M.Performs o pre r post ∧ adm ⟨o, r, pre, post⟩ ∧
      P.Answers buffer ⟨o, r, pre, post⟩

/-- As long as operations are answered and the consumer reads, a run goes on until it is
finished. -/
theorem progress (hanswerable : Answerable P adm) (hcapacity : 0 < P.capacity) (c : Pipe M α β) :
    (∃ a, c.Finished a) ∨ ∃ c', Step P adm c c' := by
  cases hbuffer : c.buffer with
  | cons => exact .inr ⟨_, .read hbuffer⟩
  | nil =>
    cases hrest : c.rest with
    | ret a => exact .inl ⟨a, hrest, hbuffer⟩
    | call o =>
      obtain ⟨_, r, _, hp, hadm, hanswers⟩ :=
        hanswerable o c.buffer fun _ => by rw [hbuffer]; exact hcapacity
      exact .inr ⟨_, .write hrest hp hadm hanswers⟩

/-- Every run can be carried on to its end. -/
theorem completes (hanswerable : Answerable P adm) (hcapacity : 0 < P.capacity)
    (c : Pipe M α β) : ∃ c' a, Runs P adm c c' ∧ c'.Finished a := by
  have hacc : Acc (fun c' c => Step P adm c c') c := acc c
  induction hacc with
  | intro c _ ih =>
    rcases progress hanswerable hcapacity c with ⟨a, ha⟩ | ⟨c', hstep⟩
    · exact ⟨c, a, .refl, ha⟩
    · obtain ⟨c'', a, hruns, ha⟩ := ih c' hstep
      exact ⟨c'', a, .head hstep hruns, ha⟩

/-! ## Running a schedule -/

/-- What is scheduled next. -/
inductive Action (M : Machine) where
  /-- The program performs its next operation in a state, with a choice of the environment. -/
  | write (pre : M.State) (choice : M.Choice)
  /-- The consumer reads. -/
  | read

variable (P adm) [DecidablePred adm]

/-- One scheduled step, if it is possible. -/
def step (c : Pipe M α β) : Action M → Option (Pipe M α β)
  | .write pre choice =>
    match c.rest with
    | .ret _ => none
    | .call o k =>
      match M.perform o choice pre with
      | none => none
      | some (r, post) =>
        if adm ⟨o, r, pre, post⟩ ∧ P.Answers c.buffer ⟨o, r, pre, post⟩ then
          some (c.written P ⟨o, r, pre, post⟩ (k r))
        else none
  | .read =>
    match c.buffer with
    | [] => none
    | item :: buffer => some { c with buffer := buffer, received := c.received ++ [item] }

/-- A schedule, if all its steps are possible. -/
def run (c : Pipe M α β) : List (Action M) → Option (Pipe M α β)
  | [] => some c
  | a :: as => (c.step P adm a).bind fun c => run c as

variable {P adm} {c c' : Pipe M α β}

/-- A scheduled step is a step. -/
theorem step_of_eq_some {a : Action M} (h : c.step P adm a = some c') : Step P adm c c' := by
  cases a with
  | write pre choice =>
    simp only [step] at h
    split at h
    · cases h
    · next o k hrest =>
      split at h
      · cases h
      · next r post hperform =>
        split_ifs at h with hcond
        cases h
        exact .write hrest ⟨choice, hperform⟩ hcond.1 hcond.2
  | read =>
    simp only [step] at h
    split at h
    · cases h
    · next item buffer hbuffer =>
      cases h
      exact .read hbuffer

/-- What a schedule leads to is reached by a run. -/
theorem runs_of_run {as : List (Action M)} (h : c.run P adm as = some c') : Runs P adm c c' := by
  induction as generalizing c with
  | nil =>
    cases h
    exact .refl
  | cons a as ih =>
    obtain ⟨_, hstep, hrun⟩ := Option.bind_eq_some_iff.1 h
    exact .head (step_of_eq_some hstep) (ih hrun)

variable (P adm) in
/-- A schedule that leads to `Q` gives a run that does. -/
theorem exists_runs_of_run (c : Pipe M α β) (as : List (Action M)) (Q : Pipe M α β → Prop)
    [DecidablePred Q] (h : (c.run P adm as).any (fun c' => decide (Q c')) = true) :
    ∃ c', Runs P adm c c' ∧ Q c' := by
  cases hrun : c.run P adm as with
  | none =>
    rw [hrun] at h
    cases h
  | some c' =>
    rw [hrun] at h
    exact ⟨c', runs_of_run hrun, of_decide_eq_true h⟩

end Pipe

end AgentService.Concurrent
