import Mathlib.Data.List.Basic
import Mathlib.Logic.Relation
import AgentService.Concurrent.Program

/-!
# Runs of any number of programs

A `Pool` is a set of calls, each with the program that it runs. A configuration has the shared
state, the calls started so far, and the history of every operation performed, in order. One step
starts a call, lets one call perform its next operation, or lets the environment move; a call that
is never scheduled again models a crash at that point. `Reachable` collects the configurations of
all finite runs.

Three rules turn facts about programs and operations into facts about runs. `Reachable.lawful`: when
every program keeps its discipline (`Program.Obeys`), then in every reachable configuration the rest
of each program does, and every call that returned satisfies its postcondition.
`Reachable.invariant`: a property of the state and the history that holds at the start, and that
every operation and every move keeps, holds in every reachable configuration.
`Reachable.before_step`: before each step of the history the run was in a reachable configuration,
so that whatever holds of these held there.

A call may run to its end alone (`Reachable.execute`), and `Config.run` executes a schedule, for
runs on concrete inputs.
-/

namespace AgentService.Concurrent

open Function List Option
open Function (update)

/-- Calls over a machine, each with its program. -/
structure Pool (M : Machine) where
  /-- The calls, with their arguments. -/
  Call : Type
  /-- What a call returns. -/
  Result : Type
  /-- The program of a call. -/
  body : Call → Program M Result

variable {M : Machine} {P : Pool M}

/-- A started call: what was called, and what is left of its program. -/
structure Thread (P : Pool M) where
  call : P.Call
  /-- The rest of its program. -/
  prog : Program M P.Result

/-- One performed operation of a run: the call that performed it, and the entry. -/
structure Step (P : Pool M) where
  /-- The identifier of the started call. -/
  tid : ℕ
  call : P.Call
  /-- What was performed. -/
  entry : M.Entry

/-- The operations of one call in a history, in order. -/
def log (history : List (Step P)) (t : ℕ) : List M.Entry :=
  (history.filter fun s => s.tid = t).map Step.entry

@[simp] theorem log_append (h h' : List (Step P)) (t : ℕ) :
    log (h ++ h') t = log h t ++ log h' t := by
  simp [log]

theorem log_snoc_self (h : List (Step P)) (s : Step P) :
    log (h ++ [s]) s.tid = log h s.tid ++ [s.entry] := by
  simp [log]

theorem log_cons_self (s : Step P) (h : List (Step P)) :
    log (s :: h) s.tid = s.entry :: log h s.tid := by
  simp [log]

theorem log_snoc_ne (h : List (Step P)) (s : Step P) {t : ℕ} (ht : s.tid ≠ t) :
    log (h ++ [s]) t = log h t := by
  simp [log, ht]

theorem mem_log {h : List (Step P)} {t : ℕ} {e : M.Entry} :
    e ∈ log h t ↔ ∃ s ∈ h, s.tid = t ∧ s.entry = e := by
  simp [log, and_assoc]

/-- The log of a call is part of the history. -/
theorem log_subset (h : List (Step P)) (t : ℕ) : log h t ⊆ h.map Step.entry := by
  intro e he
  obtain ⟨s, hs, -, rfl⟩ := mem_log.1 he
  exact mem_map_of_mem hs

/-- A split of a log is a split of the history. -/
theorem exists_of_log_eq {h : List (Step P)} {t : ℕ} {l1 l2 : List M.Entry} {e : M.Entry}
    (hl : log h t = l1 ++ e :: l2) :
    ∃ h1 s h2, h = h1 ++ s :: h2 ∧ s.tid = t ∧ s.entry = e ∧ log h1 t = l1 ∧ log h2 t = l2 := by
  unfold log at hl
  obtain ⟨_, _, hf, hf1, hf2⟩ := map_eq_append_iff.1 hl
  obtain ⟨s, _, hs, hse, hf3⟩ := map_eq_cons_iff.1 hf2
  obtain ⟨h1, h2, rfl, hh1, hh2⟩ := filter_eq_append_iff.1 hf
  rw [hs] at hh2
  obtain ⟨g1, g2, rfl, hg1, hst, hg2⟩ := filter_eq_cons_iff.1 hh2
  refine ⟨h1 ++ g1, s, g2, by simp, by simpa using hst, hse, ?_, ?_⟩
  · have hnil : g1.filter (fun s => decide (s.tid = t)) = [] := by
      rw [filter_eq_nil_iff]; exact hg1
    rw [log_append, log, log, hh1, hf1, hnil]
    simp
  · rw [log, hg2, hf3]

/-- `Q` holds of every step of a history and what came before it. -/
def Throughout (Q : List (Step P) → Step P → Prop) (history : List (Step P)) : Prop :=
  ∀ h₁ st h₂, history = h₁ ++ st :: h₂ → Q h₁ st

/-- The last step of a history and the ones before it. -/
@[simp] theorem throughout_snoc {Q : List (Step P) → Step P → Prop} {h : List (Step P)}
    {st : Step P} : Throughout Q (h ++ [st]) ↔ Throughout Q h ∧ Q h st := by
  constructor
  · intro hQ
    refine ⟨fun h1 st' h2 hsplit => hQ h1 st' (h2 ++ [st]) ?_, hQ h st [] rfl⟩
    rw [hsplit]
    simp
  · rintro ⟨hQ, hlast⟩ h1 st' h2 hsplit
    rcases eq_nil_or_concat h2 with rfl | ⟨h2, _, rfl⟩
    · obtain ⟨rfl, hst⟩ := append_inj' hsplit rfl
      cases hst
      exact hlast
    · rw [concat_eq_append, ← cons_append, ← append_assoc] at hsplit
      exact hQ h1 st' h2 (append_inj' hsplit rfl).1

/-- Testing a history step by step, for what came before already tested. -/
def throughoutFrom (Q : List (Step P) → Step P → Bool) : List (Step P) → List (Step P) → Bool
  | _, [] => true
  | before, st :: rest => Q before st && throughoutFrom Q (before ++ [st]) rest

/-- The test of a history step by step. -/
theorem throughoutFrom_iff {Q : List (Step P) → Step P → Bool} {before rest : List (Step P)} :
    throughoutFrom Q before rest = true ↔
      ∀ h1 st h2, rest = h1 ++ st :: h2 → Q (before ++ h1) st = true := by
  induction rest generalizing before with
  | nil => simp [throughoutFrom]
  | cons st rest ih =>
    simp only [throughoutFrom, Bool.and_eq_true, ih, append_assoc]
    constructor
    · rintro ⟨hst, hrest⟩ h1 st' h2 hsplit
      rcases h1 with _ | ⟨a, h1⟩
      · cases hsplit
        simpa using hst
      · cases hsplit
        exact hrest h1 st' h2 rfl
    · intro h
      refine ⟨by simpa using h [] st rest rfl, fun h1 st' h2 hsplit => ?_⟩
      subst hsplit
      exact h (st :: h1) st' h2 rfl

instance {Q : List (Step P) → Step P → Prop} [∀ h st, Decidable (Q h st)]
    (history : List (Step P)) : Decidable (Throughout Q history) :=
  decidable_of_iff (throughoutFrom (fun h st => decide (Q h st)) [] history = true) <| by
    simp [throughoutFrom_iff, Throughout]

/-- The shared state, the started calls, and everything performed so far. -/
structure Config (P : Pool M) where
  /-- The shared state. -/
  state : M.State
  /-- The started calls. -/
  threads : ℕ → Option (Thread P)
  /-- Every operation performed, the latest at the end. -/
  history : List (Step P)

/-- No call has started. -/
def Config.start (s : M.State) : Config P := ⟨s, fun _ => none, []⟩

/-- Call `t` was started as `call` and has returned `a`. -/
def Config.Returned (c : Config P) (t : ℕ) (call : P.Call) (a : P.Result) : Prop :=
  c.threads t = some ⟨call, .ret a⟩

/-- What call `t` has returned. -/
def Config.result (c : Config P) (t : ℕ) : Option P.Result :=
  match c.threads t with
  | some ⟨_, .ret a⟩ => some a
  | _ => none

/-- A started call with a result has returned it. -/
theorem Config.returned_of_result {c : Config P} {t : ℕ} {call : P.Call}
    {prog : Program M P.Result} (hth : c.threads t = some ⟨call, prog⟩) {a : P.Result}
    (ha : c.result t = some a) : c.Returned t call a := by
  unfold result at ha
  rw [hth] at ha
  cases prog with
  | ret => cases ha; exact hth
  | call => cases ha

/-- One step of a pool in which the calls that `adm` admits may be started. -/
inductive Next (adm : Config P → P.Call → Prop) : Config P → Config P → Prop
  /-- A call starts under an identifier not used before. -/
  | spawn {c : Config P} {t : ℕ} {call : P.Call} (hfree : c.threads t = none)
      (hadm : adm c call) :
      Next adm c ⟨c.state, update c.threads t (some ⟨call, P.body call⟩), c.history⟩
  /-- A call performs its next operation. -/
  | perform {c : Config P} {t : ℕ} {call : P.Call} {o : M.Op} {k : M.Res o → Program M P.Result}
      {r : M.Res o} {s : M.State} (hth : c.threads t = some ⟨call, .call o k⟩)
      (hp : M.Performs o c.state r s) :
      Next adm c ⟨s, update c.threads t (some ⟨call, k r⟩),
        c.history ++ [⟨t, call, ⟨o, r, c.state, s⟩⟩]⟩
  /-- The environment moves. -/
  | move {c : Config P} (m : M.Move) :
      Next adm c ⟨M.advance m c.state, c.threads, c.history⟩

/-- The configurations of the finite runs from `c₀`. -/
def Reachable (adm : Config P → P.Call → Prop) (c₀ c : Config P) : Prop :=
  Relation.ReflTransGen (Next adm) c₀ c

section Rules

variable {adm : Config P → P.Call → Prop} {Pre : P.Call → List M.Entry → M.Op → Prop}
  {Post : P.Call → List M.Entry → P.Result → Prop}

/-- Every started call keeps its discipline from here on, and a call that has not started has
performed nothing. -/
structure Lawful (Pre : P.Call → List M.Entry → M.Op → Prop)
    (Post : P.Call → List M.Entry → P.Result → Prop) (c : Config P) : Prop where
  /-- The rest of each program obeys its discipline from its own log. -/
  threads : ∀ t th, c.threads t = some th →
    th.prog.Obeys (Pre th.call) (Post th.call) (log c.history t)
  /-- An identifier that is not in use has an empty log. -/
  fresh : ∀ t, c.threads t = none → log c.history t = []
  /-- Each step of the history belongs to the call started under its identifier. -/
  owner : ∀ s ∈ c.history, ∃ prog, c.threads s.tid = some ⟨s.call, prog⟩

variable {c : Config P} {t : ℕ} {call : P.Call} {s₀ : M.State}

/-- Starting a call whose program keeps its discipline. -/
theorem Lawful.spawn (h : Lawful Pre Post c) (hfree : c.threads t = none)
    (hbody : (P.body call).Obeys (Pre call) (Post call) []) : Lawful Pre Post
      ⟨c.state, update c.threads t (some ⟨call, P.body call⟩), c.history⟩ := by
  refine ⟨fun u th hu => ?_, fun u hu => ?_, fun s hs => ?_⟩ <;> dsimp only at *
  · by_cases hut : u = t
    · subst hut
      simp only [update_self, some.injEq] at hu
      subst hu
      rw [h.fresh u hfree]
      exact hbody
    · rw [update_of_ne hut] at hu
      exact h.threads u th hu
  · have hut : u ≠ t := fun hut => by subst hut; simp at hu
    rw [update_of_ne hut] at hu
    exact h.fresh u hu
  · obtain ⟨prog, hprog⟩ := h.owner s hs
    have hne : s.tid ≠ t := fun hst => by rw [hst, hfree] at hprog; cases hprog
    rw [update_of_ne hne]
    exact ⟨prog, hprog⟩

/-- Performing an operation. -/
theorem Lawful.perform (h : Lawful Pre Post c) {o : M.Op}
    {k : M.Res o → Program M P.Result} {r : M.Res o} {s : M.State}
    (hth : c.threads t = some ⟨call, .call o k⟩) (hp : M.Performs o c.state r s) :
    Lawful Pre Post ⟨s, update c.threads t (some ⟨call, k r⟩),
      c.history ++ [⟨t, call, ⟨o, r, c.state, s⟩⟩]⟩ := by
  obtain ⟨-, hk⟩ := h.threads t _ hth
  refine ⟨fun u th hu => ?_, fun u hu => ?_, fun s' hs' => ?_⟩ <;> dsimp only at *
  · by_cases hut : u = t
    · subst hut
      simp only [update_self, some.injEq] at hu
      subst hu
      rw [log_snoc_self]
      exact hk _ _ _ hp
    · rw [update_of_ne hut] at hu
      rw [log_snoc_ne _ _ fun hut' => hut hut'.symm]
      exact h.threads u th hu
  · have hut : u ≠ t := fun hut => by subst hut; simp at hu
    rw [update_of_ne hut] at hu
    rw [log_snoc_ne _ _ hut.symm]
    exact h.fresh u hu
  · rcases mem_append.1 hs' with hs' | hs'
    · obtain ⟨prog, hprog⟩ := h.owner s' hs'
      by_cases hst : s'.tid = t
      · rw [hst, hth] at hprog
        cases hprog
        exact ⟨k r, by rw [hst, update_self]⟩
      · rw [update_of_ne hst]
        exact ⟨prog, hprog⟩
    · rw [mem_singleton.1 hs']
      exact ⟨k r, update_self ..⟩

/-- When the programs of all admitted calls keep their discipline, every run does. -/
theorem Reachable.lawful
    (hbody : ∀ c call, adm c call → (P.body call).Obeys (Pre call) (Post call) [])
    (hc : Reachable adm (Config.start s₀) c) : Lawful Pre Post c := by
  induction hc with
  | refl =>
    refine ⟨fun t _ h => ?_, fun t h => rfl, fun s h => ?_⟩
    · simp [Config.start] at h
    · simp [Config.start] at h
  | tail _ hstep ih =>
    cases hstep with
    | spawn hfree hadm => exact ih.spawn hfree (hbody _ _ hadm)
    | perform hth hp => exact ih.perform hth hp
    | move => exact ⟨ih.threads, ih.fresh, ih.owner⟩

/-- The postcondition of a call that has returned. -/
theorem Lawful.returned (h : Lawful Pre Post c)
    {a : P.Result} (hr : c.Returned t call a) : Post call (log c.history t) a :=
  h.threads t _ hr

/-- What the program of one call ends with holds of the log of this call when it has returned. -/
theorem Reachable.returned {Post : List M.Entry → P.Result → Prop}
    (hbody : (P.body call).Obeys (fun _ _ => True) Post []) (hc : Reachable adm (Config.start s₀) c)
    {a : P.Result} (hr : c.Returned t call a) : Post (log c.history t) a := by
  have hlawful : Lawful (fun _ _ _ => True) (fun call' l a => call' = call → Post l a) c := by
    refine Reachable.lawful (fun _ call' _ => ?_) hc
    by_cases hcall : call' = call
    · subst hcall
      exact hbody.mono (fun _ _ => id) fun _ _ h _ => h
    · exact (Program.obeys_trivial _ []).mono (fun _ _ => id) fun _ _ _ h => absurd h hcall
  exact hlawful.returned hr rfl

/-- Each step of a run belongs to the call started under its identifier. -/
theorem Reachable.owner (hc : Reachable adm (Config.start s₀) c) :
    ∀ s ∈ c.history, ∃ prog, c.threads s.tid = some ⟨s.call, prog⟩ := by
  have hlawful : Lawful (fun _ _ _ => True) (fun _ _ _ => True) c :=
    Reachable.lawful (fun _ _ _ => Program.obeys_trivial _ _) hc
  exact hlawful.owner

end Rules

section Order

variable {adm : Config P → P.Call → Prop} {s₀ : M.State} {c : Config P}

variable {I : M.State → List (Step P) → Prop}

/-- A property of the state and the history that every operation of a started call and every move of
the environment keeps in a reachable configuration stays, once it holds. -/
theorem Reachable.invariant_from
    (hstep : ∀ (c : Config P) t call o k r s', Reachable adm (Config.start s₀) c →
      c.threads t = some ⟨call, .call o k⟩ → M.Performs o c.state r s' → I c.state c.history →
      I s' (c.history ++ [⟨t, call, ⟨o, r, c.state, s'⟩⟩]))
    (hmove : ∀ (c : Config P) m, Reachable adm (Config.start s₀) c → I c.state c.history →
      I (M.advance m c.state) c.history)
    {c' : Config P} (hc' : Reachable adm (Config.start s₀) c') (hc : Reachable adm c' c)
    (h : I c'.state c'.history) : I c.state c.history := by
  induction hc with
  | refl => exact h
  | tail hd hnext ih =>
    have hd' := Relation.ReflTransGen.trans hc' hd
    cases hnext with
    | spawn => exact ih
    | perform hth hp => exact hstep _ _ _ _ _ _ _ hd' hth hp ih
    | move m => exact hmove _ m hd' ih

/-- A property of the state and the history that holds at the start, and that every operation of a
started call and every move of the environment keeps in a reachable configuration, holds in all of
them. -/
theorem Reachable.invariant (hinit : I s₀ [])
    (hstep : ∀ (c : Config P) t call o k r s', Reachable adm (Config.start s₀) c →
      c.threads t = some ⟨call, .call o k⟩ → M.Performs o c.state r s' → I c.state c.history →
      I s' (c.history ++ [⟨t, call, ⟨o, r, c.state, s'⟩⟩]))
    (hmove : ∀ (c : Config P) m, Reachable adm (Config.start s₀) c → I c.state c.history →
      I (M.advance m c.state) c.history)
    (hc : Reachable adm (Config.start s₀) c) : I c.state c.history :=
  Reachable.invariant_from hstep hmove .refl hc hinit

section

variable (hc : Reachable adm (Config.start s₀) c)

include hc

/-- The configuration before a step of the history: it is reachable, and the call that performs the
step is about to. -/
theorem Reachable.before_step {h1 h2 : List (Step P)} {st : Step P}
    (hsplit : c.history = h1 ++ st :: h2) :
    ∃ c' k, Reachable adm (Config.start s₀) c' ∧ Reachable adm c' c ∧ c'.history = h1 ∧
      c'.state = st.entry.pre ∧ c'.threads st.tid = some ⟨st.call, .call st.entry.op k⟩ ∧
      M.Performs st.entry.op st.entry.pre st.entry.res st.entry.post := by
  induction hc generalizing h2 with
  | refl => simp [Config.start] at hsplit
  | tail hc' hnext ih =>
    cases hnext with
    | spawn hfree hadm =>
      obtain ⟨d, k, hd, hd', h⟩ := ih hsplit
      exact ⟨d, k, hd, hd'.tail (.spawn hfree hadm), h⟩
    | @perform t call o k r s hth hp =>
      rcases eq_nil_or_concat h2 with rfl | ⟨h2, _, rfl⟩
      · -- The step is the one just performed.
        obtain ⟨rfl, hst⟩ := append_inj' hsplit rfl
        cases cons_eq_cons.1 hst |>.1
        exact ⟨_, k, hc', .single (.perform hth hp), rfl, rfl, hth, hp⟩
      · rw [concat_eq_append, ← cons_append, ← append_assoc] at hsplit
        obtain ⟨d, k', hd, hd', h⟩ := ih (append_inj' hsplit rfl).1
        exact ⟨d, k', hd, hd'.tail (.perform hth hp), h⟩
    | move m =>
      obtain ⟨d, k, hd, hd', h⟩ := ih hsplit
      exact ⟨d, k, hd, hd'.tail (.move m), h⟩

/-- Each step of a run was performed. -/
theorem Reachable.performs {st : Step P} (hst : st ∈ c.history) :
    M.Performs st.entry.op st.entry.pre st.entry.res st.entry.post := by
  obtain ⟨_, _, hsplit⟩ := append_of_mem hst
  obtain ⟨_, _, -, -, -, -, -, hperf⟩ := hc.before_step hsplit
  exact hperf

/-- The steps of one identifier are steps of one call. -/
theorem Reachable.call_eq {st : Step P} (hst : st ∈ c.history) {th : Thread P}
    (hth : c.threads st.tid = some th) : st.call = th.call := by
  obtain ⟨_, hprog⟩ := hc.owner st hst
  rw [hth] at hprog
  cases hprog
  rfl

/-- The configuration before an entry of a call. -/
theorem Reachable.before_entry {t : ℕ} {th : Thread P} (hth : c.threads t = some th) {e : M.Entry}
    (he : e ∈ log c.history t) :
    ∃ c' k, Reachable adm (Config.start s₀) c' ∧ Reachable adm c' c ∧ c'.state = e.pre ∧
      c'.threads t = some ⟨th.call, .call e.op k⟩ ∧ M.Performs e.op e.pre e.res e.post := by
  obtain ⟨st, hst, rfl, rfl⟩ := mem_log.1 he
  obtain ⟨_, _, hsplit⟩ := append_of_mem hst
  obtain ⟨c', k, hc', hlater, -, hpre, hth', hperf⟩ := hc.before_step hsplit
  obtain ⟨prog, hprog⟩ := hc.owner st hst
  obtain rfl : th = ⟨st.call, prog⟩ := some.inj (hth.symm.trans hprog)
  exact ⟨c', k, hc', hlater, hpre, hth', hperf⟩

end

/-- A run only adds to its history. -/
theorem Reachable.history_extends {c c' : Config P} (h : Reachable adm c c') :
    c.history <+: c'.history := by
  induction h with
  | refl => exact prefix_refl _
  | tail _ hnext ih =>
    cases hnext with
    | spawn => exact ih
    | perform => exact ih.trans (prefix_append _ _)
    | move => exact ih

/-- A call that has returned stays as it is. -/
theorem Reachable.returned_later {c c' : Config P} (h : Reachable adm c c') {t : ℕ}
    {call : P.Call} {a : P.Result} (hr : c.Returned t call a) : c'.Returned t call a := by
  induction h with
  | refl => exact hr
  | tail _ hnext ih =>
    cases hnext with
    | @spawn t' call' hfree hadm =>
      have hne : t ≠ t' := by
        rintro rfl
        rw [ih] at hfree
        cases hfree
      exact (update_of_ne hne _ _).trans ih
    | @perform t' call' o k r s hth hp =>
      have hne : t ≠ t' := by
        rintro rfl
        rw [ih] at hth
        cases hth
      exact (update_of_ne hne _ _).trans ih
    | move => exact ih

/-- A started call was admitted in an earlier configuration. -/
theorem Reachable.admitted (hc : Reachable adm (Config.start s₀) c) {t : ℕ} {th : Thread P}
    (hth : c.threads t = some th) :
    ∃ c', Reachable adm (Config.start s₀) c' ∧ Reachable adm c' c ∧ adm c' th.call := by
  induction hc generalizing th with
  | refl => simp [Config.start] at hth
  | @tail d _ hd hnext ih =>
    have hstep := Relation.ReflTransGen.single hnext
    cases hnext with
    | @spawn t' _ _ hadm =>
      dsimp only at hth
      by_cases ht : t = t'
      · subst ht
        simp only [update_self, some.injEq] at hth
        subst hth
        exact ⟨d, hd, hstep, hadm⟩
      · rw [update_of_ne ht] at hth
        obtain ⟨c', h1, h2, h3⟩ := ih hth
        exact ⟨c', h1, h2.trans hstep, h3⟩
    | @perform t' call o k r s hth' hp =>
      dsimp only at hth
      by_cases ht : t = t'
      · subst ht
        simp only [update_self, some.injEq] at hth
        subst hth
        obtain ⟨c', h1, h2, h3⟩ := ih hth'
        exact ⟨c', h1, h2.trans hstep, h3⟩
      · rw [update_of_ne ht] at hth
        obtain ⟨c', h1, h2, h3⟩ := ih hth
        exact ⟨c', h1, h2.trans hstep, h3⟩
    | move =>
      obtain ⟨c', h1, h2, h3⟩ := ih hth
      exact ⟨c', h1, h2.trans hstep, h3⟩

variable {R : M.State → M.State → Prop}

/-- A preorder that every operation and every move respects relates the states of a run. -/
theorem Reachable.related (hrefl : ∀ s, R s s) (htrans : ∀ a b c, R a b → R b c → R a c)
    (hperform : ∀ o s r s', M.Performs o s r s' → R s s') (hmove : ∀ m s, R s (M.advance m s))
    {c₀ : Config P} (hc : Reachable adm c₀ c) : R c₀.state c.state := by
  induction hc with
  | refl => exact hrefl _
  | tail _ hnext ih =>
    cases hnext with
    | spawn => exact ih
    | perform hth hp => exact htrans _ _ _ ih (hperform _ _ _ _ hp)
    | move m => exact htrans _ _ _ ih (hmove m _)

/-- A preorder that every operation of a started call and every move respects orders the states of a
run: the start lies before every state, and each step before the later ones and before the present
state. -/
theorem Reachable.ordered_of (hrefl : ∀ s, R s s)
    (htrans : ∀ a b c, R a b → R b c → R a c)
    (hperform : ∀ (c : Config P) t call o k r s', Reachable adm (Config.start s₀) c →
      c.threads t = some ⟨call, .call o k⟩ → M.Performs o c.state r s' → R c.state s')
    (hmove : ∀ m s, R s (M.advance m s))
    (hc : Reachable adm (Config.start s₀) c) :
    R s₀ c.state ∧ (∀ a ∈ c.history, R s₀ a.entry.pre ∧ R a.entry.pre a.entry.post ∧
      R a.entry.post c.state) ∧
      c.history.Pairwise fun a b => R a.entry.post b.entry.pre := by
  induction hc with
  | refl => exact ⟨hrefl _, by simp [Config.start], by simp [Config.start]⟩
  | tail hd hnext ih =>
    obtain ⟨h0, hmem, hpair⟩ := ih
    cases hnext with
    | spawn => exact ⟨h0, hmem, hpair⟩
    | perform hth hp =>
      have hR := hperform _ _ _ _ _ _ _ hd hth hp
      refine ⟨htrans _ _ _ h0 hR, ?_, ?_⟩
      · intro a ha
        rcases mem_append.1 ha with ha | ha
        · obtain ⟨h1, h2, h3⟩ := hmem a ha
          exact ⟨h1, h2, htrans _ _ _ h3 hR⟩
        · rw [mem_singleton.1 ha]
          exact ⟨h0, hR, hrefl _⟩
      · rw [pairwise_append]
        refine ⟨hpair, pairwise_singleton _ _, fun a ha b hb => ?_⟩
        rw [mem_singleton.1 hb]
        exact (hmem a ha).2.2
    | move m =>
      refine ⟨htrans _ _ _ h0 (hmove m _), fun a ha => ?_, hpair⟩
      obtain ⟨h1, h2, h3⟩ := hmem a ha
      exact ⟨h1, h2, htrans _ _ _ h3 (hmove m _)⟩

/-- A preorder that every operation and every move respects orders the states of a run. -/
theorem Reachable.ordered (hrefl : ∀ s, R s s) (htrans : ∀ a b c, R a b → R b c → R a c)
    (hperform : ∀ o s r s', M.Performs o s r s' → R s s') (hmove : ∀ m s, R s (M.advance m s))
    (hc : Reachable adm (Config.start s₀) c) :
    R s₀ c.state ∧ (∀ a ∈ c.history, R s₀ a.entry.pre ∧ R a.entry.pre a.entry.post ∧
      R a.entry.post c.state) ∧
      c.history.Pairwise fun a b => R a.entry.post b.entry.pre :=
  hc.ordered_of hrefl htrans (fun c _ _ o _ r s' _ _ hp => hperform o c.state r s' hp) hmove

theorem pairwise_log {R : M.Entry → M.Entry → Prop} {history : List (Step P)}
    (h : history.Pairwise fun a b => R a.entry b.entry) (t : ℕ) : (log history t).Pairwise R :=
  pairwise_map.2 (h.sublist filter_sublist)

end Order

/-! ## Calls that run alone -/

/-- A program that runs alone: from a state, it performs these operations, returns a result, and
leaves a state. -/
inductive Program.Executes {α : Type} : Program M α → M.State → List M.Entry → α → M.State → Prop
  /-- A value is returned. -/
  | ret (a : α) (s : M.State) : Executes (.ret a) s [] a s
  /-- One operation, and the rest. -/
  | call {o : M.Op} {k : M.Res o → Program M α} {s s₁ s₂ : M.State} {r : M.Res o}
      {l : List M.Entry} {a : α} (hp : M.Performs o s r s₁) (h : Executes (k r) s₁ l a s₂) :
      Executes (.call o k) s (⟨o, r, s, s₁⟩ :: l) a s₂

section Alone

variable {adm : Config P → P.Call → Prop} {c₀ c : Config P} {t : ℕ} {call : P.Call}

/-- A started call may run to its end alone. -/
theorem Reachable.finish (hc : Reachable adm c₀ c) {prog : Program M P.Result}
    (hth : c.threads t = some ⟨call, prog⟩) {l : List M.Entry} {a : P.Result} {s : M.State}
    (h : prog.Executes c.state l a s) : Reachable adm c₀
      ⟨s, update c.threads t (some ⟨call, .ret a⟩), c.history ++ l.map (Step.mk t call)⟩ := by
  generalize hs : c.state = s1 at h
  induction h generalizing c with
  | ret =>
    subst hs
    rw [← hth, update_eq_self, map_nil, append_nil]
    exact hc
  | call hp _ ih =>
    subst hs
    have hnext := ih (hc.tail (.perform hth hp)) (update_self ..) rfl
    rw [update_idem, append_assoc] at hnext
    exact hnext

/-- A call may start and run to its end alone. -/
theorem Reachable.execute (hc : Reachable adm c₀ c) (hfree : c.threads t = none) (hadm : adm c call)
    {l : List M.Entry} {a : P.Result} {s : M.State} (h : (P.body call).Executes c.state l a s) :
    Reachable adm c₀
      ⟨s, update c.threads t (some ⟨call, .ret a⟩), c.history ++ l.map (Step.mk t call)⟩ := by
  have hend := Reachable.finish (hc.tail (.spawn hfree hadm)) (update_self ..) h
  rw [update_idem] at hend
  exact hend

end Alone

/-! ## Schedules -/

/-- One entry of a schedule. -/
inductive Action (P : Pool M) where
  /-- Start a call. -/
  | spawn (t : ℕ) (call : P.Call)
  /-- Let a call perform its next operation. -/
  | perform (t : ℕ) (ch : M.Choice)
  /-- Let the environment move. -/
  | move (m : M.Move)

section Schedules

variable (adm : Config P → P.Call → Prop) [∀ c call, Decidable (adm c call)]

/-- The configuration after one entry of a schedule, if it is enabled. -/
def Config.act (c : Config P) : Action P → Option (Config P)
  | .spawn t call =>
    match c.threads t with
    | none =>
      if adm c call then
        some ⟨c.state, update c.threads t (some ⟨call, P.body call⟩), c.history⟩
      else none
    | some _ => none
  | .perform t ch =>
    match c.threads t with
    | some ⟨call, .call o k⟩ =>
      match M.perform o ch c.state with
      | some (r, s) => some ⟨s, update c.threads t (some ⟨call, k r⟩),
          c.history ++ [⟨t, call, ⟨o, r, c.state, s⟩⟩]⟩
      | none => none
    | _ => none
  | .move m => some ⟨M.advance m c.state, c.threads, c.history⟩

/-- The configuration after a schedule. -/
def Config.run (c : Config P) : List (Action P) → Option (Config P)
  | [] => some c
  | a :: as => (c.act adm a).bind fun c' => c'.run as

/-- An entry of a schedule is a step. -/
theorem Config.next_of_act {adm : Config P → P.Call → Prop} [∀ c call, Decidable (adm c call)]
    {c c' : Config P} {a : Action P} (h : c.act adm a = some c') : Next adm c c' := by
  cases a with
  | spawn =>
    simp only [act] at h
    split at h
    · next hfree =>
      split_ifs at h with hadm
      cases h
      exact .spawn hfree hadm
    · cases h
  | perform t ch =>
    simp only [act] at h
    split at h
    · next call o k hth =>
      split at h
      · next r s hp =>
        cases h
        exact .perform hth ⟨ch, hp⟩
      · cases h
    · cases h
  | move m => cases h; exact .move m

variable {as : List (Action P)}

/-- A schedule gives a run. -/
theorem Config.reachable_of_run {c₀ c c' : Config P} (h0 : Reachable adm c₀ c)
    (hrun : c.run adm as = some c') : Reachable adm c₀ c' := by
  induction as generalizing c with
  | nil => cases hrun; exact h0
  | cons a as ih =>
    simp only [run, bind_eq_some_iff] at hrun
    obtain ⟨d, hd, hrun⟩ := hrun
    exact ih (h0.tail (next_of_act hd)) hrun

/-- An entry of a schedule keeps the calls that were started. -/
theorem Config.started_of_act {adm : Config P → P.Call → Prop} [∀ c call, Decidable (adm c call)]
    {c c' : Config P} {a : Action P} (h : c.act adm a = some c') {t : ℕ} {call : P.Call}
    (hth : a = .spawn t call ∨ ∃ prog, c.threads t = some ⟨call, prog⟩) :
    ∃ prog, c'.threads t = some ⟨call, prog⟩ := by
  have hnext := next_of_act h
  rcases hth with rfl | ⟨prog, hprog⟩
  · simp only [act] at h
    split at h
    · split_ifs at h with hadm
      cases h
      exact ⟨_, update_self ..⟩
    · cases h
  · cases hnext with
    | @spawn u _ hfree _ =>
      have hu : t ≠ u := fun hu => by rw [hu, hfree] at hprog; cases hprog
      exact ⟨prog, by simp only [update_of_ne hu, hprog]⟩
    | @perform u call' o k r s hu _ =>
      by_cases htu : t = u
      · subst htu
        rw [hprog] at hu
        cases hu
        exact ⟨_, update_self ..⟩
      · exact ⟨prog, by simp only [update_of_ne htu, hprog]⟩
    | move => exact ⟨prog, hprog⟩

/-- A call that a schedule starts is started after it. -/
theorem Config.started_of_run {c c' : Config P} (hrun : c.run adm as = some c') {t : ℕ}
    {call : P.Call} (h : .spawn t call ∈ as ∨ ∃ prog, c.threads t = some ⟨call, prog⟩) :
    ∃ prog, c'.threads t = some ⟨call, prog⟩ := by
  induction as generalizing c with
  | nil =>
    cases hrun
    exact h.resolve_left not_mem_nil
  | cons a as ih =>
    simp only [run, bind_eq_some_iff] at hrun
    obtain ⟨d, hd, hrun⟩ := hrun
    refine ih hrun ?_
    rcases h with h | h
    · rcases mem_cons.1 h with h | h
      · exact .inr (started_of_act hd (.inl h.symm))
      · exact .inl h
    · exact .inr (started_of_act hd (.inr h))

/-- A test that the configuration after a schedule passes is passed in some run. -/
theorem Config.exists_reachable_of_run (c₀ : Config P) (as : List (Action P)) (Q : Config P → Prop)
    [DecidablePred Q] (hrun : (c₀.run adm as).any (fun c => decide (Q c)) = true) :
    ∃ c, Reachable adm c₀ c ∧ Q c := by
  cases hc : c₀.run adm as with
  | none => simp [hc] at hrun
  | some c =>
    rw [hc] at hrun
    exact ⟨c, reachable_of_run adm .refl hc, of_decide_eq_true hrun⟩

/-- The same with the calls of the schedule, and what they have returned. -/
theorem Config.exists_returned_of_run (c₀ : Config P) (as : List (Action P)) (Q : Config P → Prop)
    [DecidablePred Q] (hrun : (c₀.run adm as).any (fun c => decide (Q c)) = true) :
    ∃ c, Reachable adm c₀ c ∧ (∀ t call a, .spawn t call ∈ as → c.result t = some a →
      c.Returned t call a) ∧ Q c := by
  cases hc : c₀.run adm as with
  | none => simp [hc] at hrun
  | some c =>
    rw [hc] at hrun
    refine ⟨c, reachable_of_run adm .refl hc, fun t call a hspawn ha => ?_, of_decide_eq_true hrun⟩
    obtain ⟨_, hth⟩ := started_of_run adm hc (.inl hspawn)
    exact returned_of_result hth ha

end Schedules

end AgentService.Concurrent
