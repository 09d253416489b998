import AgentService.Concurrent.Pool

/-!
# Debts of calls

A call that changes the shared state may have to perform something else before it may return, such
as the update of a copy of what it has changed. `Owing` says of the log of a call that an operation
has opened such a debt and that no later one has closed it, and `Owed` that some call of a run is in
that situation. An operation that does not close a debt leaves it (`Owed.snoc`). When no program
returns while it owes, nothing is owed once all calls have returned (`Reachable.not_owed`).
-/

namespace AgentService.Concurrent

open List

variable {M : Machine} {P : Pool M} {opens closes : M.Entry → Prop}

/-- An operation of the log has opened a debt, and no later one has closed it. -/
def Owing (opens closes : M.Entry → Prop) (l : List M.Entry) : Prop :=
  ∃ l₁ e l₂, l = l₁ ++ e :: l₂ ∧ opens e ∧ ∀ e' ∈ l₂, ¬ closes e'

@[simp] theorem not_owing_nil : ¬ Owing opens closes [] := by
  rintro ⟨_, e, _, hl, -⟩
  simp at hl

/-- One more operation. -/
@[simp] theorem owing_snoc {l : List M.Entry} {e : M.Entry} :
    Owing opens closes (l ++ [e]) ↔ opens e ∨ Owing opens closes l ∧ ¬ closes e := by
  constructor
  · rintro ⟨l1, e', l2, hl, hopens, hcloses⟩
    rcases eq_nil_or_concat l2 with rfl | ⟨l2, _, rfl⟩
    · obtain ⟨-, he⟩ := append_inj' hl rfl
      cases he
      exact .inl hopens
    · rw [concat_eq_append, ← cons_append, ← append_assoc] at hl
      obtain ⟨rfl, he⟩ := append_inj' hl rfl
      cases he
      rw [concat_eq_append, forall_mem_append] at hcloses
      exact .inr ⟨⟨l1, e', l2, rfl, hopens, hcloses.1⟩, hcloses.2 e (mem_singleton_self e)⟩
  · rintro (hopens | ⟨⟨l1, e', l2, rfl, hopens, hcloses⟩, he⟩)
    · exact ⟨l, e, [], rfl, hopens, fun d hd => absurd hd not_mem_nil⟩
    · refine ⟨l1, e', l2 ++ [e], by simp, hopens, fun d hd => ?_⟩
      rcases mem_append.1 hd with hd | hd
      · exact hcloses d hd
      · rw [mem_singleton.1 hd]
        exact he

/-- A call of the run owes. -/
def Owed (opens closes : M.Entry → Prop) (history : List (Step P)) : Prop :=
  ∃ t, Owing opens closes (log history t)

/-- An operation that opens a debt. -/
theorem owed_of_opens (history : List (Step P)) {st : Step P} (h : opens st.entry) :
    Owed opens closes (history ++ [st]) := by
  refine ⟨st.tid, ?_⟩
  rw [log_snoc_self, owing_snoc]
  exact .inl h

/-- An operation that does not close the debt. -/
theorem Owed.snoc {history : List (Step P)} (h : Owed opens closes history) {st : Step P}
    (hst : ¬ closes st.entry) : Owed opens closes (history ++ [st]) := by
  obtain ⟨t, ht⟩ := h
  refine ⟨t, ?_⟩
  by_cases hself : st.tid = t
  · subst hself
    rw [log_snoc_self, owing_snoc]
    exact .inr ⟨ht, hst⟩
  · rw [log_snoc_ne _ _ hself]
    exact ht

/-- Where no program returns well while it owes, nothing is owed once all calls have returned
well. -/
theorem Reachable.not_owed {adm : Config P → P.Call → Prop} {s0 : M.State} {c : Config P}
    {good : P.Result → Prop} (hbody : ∀ call, (P.body call).Obeys (fun _ _ => True)
      (fun l a => good a → ¬ Owing opens closes l) [])
    (hc : Reachable adm (Config.start s0) c)
    (hall : ∀ t th, c.threads t = some th → ∃ a, c.Returned t th.call a ∧ good a) :
    ¬ Owed opens closes c.history := by
  rintro ⟨t, ht⟩
  cases hth : c.threads t with
  | none =>
    have hlawful : Lawful (fun _ _ _ => True) (fun _ _ _ => True) c :=
      Reachable.lawful (fun _ _ _ => Program.obeys_trivial _ _) hc
    rw [hlawful.fresh t hth] at ht
    exact not_owing_nil ht
  | some th =>
    obtain ⟨a, hreturned, hgood⟩ := hall t th hth
    exact hc.returned (hbody th.call) hreturned hgood ht

/-! ## Schedules after which all calls have returned -/

/-- The identifier that an entry of a schedule uses for a new call. -/
def Action.spawned : Action P → Option ℕ
  | .spawn t _ => some t
  | _ => none

section Schedules

variable (adm : Config P → P.Call → Prop) [∀ c call, Decidable (adm c call)]

/-- A call that is started after a schedule was started before it or by it. -/
theorem Config.spawned_of_run {as : List (Action P)} {c c' : Config P}
    (hrun : c.run adm as = some c') {t : ℕ} {th : Thread P} (hth : c'.threads t = some th) :
    (∃ call, .spawn t call ∈ as) ∨ ∃ th, c.threads t = some th := by
  induction as generalizing c with
  | nil =>
    cases hrun
    exact .inr ⟨th, hth⟩
  | cons a as ih =>
    simp only [run, Option.bind_eq_some_iff] at hrun
    obtain ⟨d, hd, hrun⟩ := hrun
    rcases ih hrun with ⟨call, hcall⟩ | ⟨th', hth'⟩
    · exact .inl ⟨call, mem_cons_of_mem _ hcall⟩
    · cases a with
      | spawn u call =>
        by_cases htu : t = u
        · subst htu
          exact .inl ⟨call, mem_cons_self⟩
        · simp only [act] at hd
          split at hd
          · split_ifs at hd
            cases hd
            dsimp only at hth'
            rw [Function.update_of_ne htu] at hth'
            exact .inr ⟨th', hth'⟩
          · cases hd
      | perform u =>
        simp only [act] at hd
        split at hd
        · next call o k hu =>
          split at hd
          · cases hd
            by_cases htu : t = u
            · subst htu
              exact .inr ⟨_, hu⟩
            · dsimp only at hth'
              rw [Function.update_of_ne htu] at hth'
              exact .inr ⟨th', hth'⟩
          · cases hd
        · cases hd
      | move =>
        cases hd
        exact .inr ⟨th', hth'⟩

/-- A schedule after which the calls that it has started have all returned well. -/
theorem Config.exists_finished_of_run (s0 : M.State) (as : List (Action P)) (good : P.Result → Bool)
    (Q : Config P → Prop) [DecidablePred Q]
    (hrun : ((Config.start s0).run adm as).any (fun c => decide (Q c) &&
      (as.filterMap Action.spawned).all fun t => (c.result t).any good) = true) :
    ∃ c, Reachable adm (Config.start s0) c ∧
      (∀ t th, c.threads t = some th → ∃ a, c.Returned t th.call a ∧ good a = true) ∧ Q c := by
  obtain ⟨c, hc, htest⟩ := (Option.any_eq_true _ _).1 hrun
  rw [Bool.and_eq_true, all_eq_true] at htest
  refine ⟨c, reachable_of_run adm .refl hc, fun t th hth => ?_, of_decide_eq_true htest.1⟩
  rcases spawned_of_run adm hc hth with ⟨call, hcall⟩ | ⟨_, hth'⟩
  · have hspawned : t ∈ as.filterMap Action.spawned := mem_filterMap.2 ⟨_, hcall, rfl⟩
    obtain ⟨a, ha, hgood⟩ := (Option.any_eq_true _ _).1 (htest.2 t hspawned)
    exact ⟨a, returned_of_result hth ha, hgood⟩
  · cases hth'

end Schedules

end AgentService.Concurrent
