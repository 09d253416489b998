import AgentService.Platform.Replied

/-!
# Where deliveries come from

Two facts about every run of dispatchers and workers: what a worker hands to the provider was
written by an execution and goes where the message came from (`handled_written`), and a row is
marked as sent only after the provider has taken it (`sent_taken`). Both are read off one invariant
of the rows (`Traced`).
-/

namespace AgentService.Platform

open Storage Concurrent Outbox Store List

variable {x : Externals} {st : RunStep x} {row : ReplyOutbox}

/-- A step writes a row that has become `row` since. -/
def Writes (row : ReplyOutbox) (st : RunStep x) : Prop :=
  ∃ ctx o correlation values, st.entry.op = .store ctx o ∧ o.Batch x correlation values ∧
    ∃ v ∈ values, (pendingRow st.entry.pre.clock v).Evolves row ∧
      st.entry.post.store.replies.lookup (rowKey v) = some (pendingRow st.entry.pre.clock v)

/-- The provider delivers a row, or its answer to a reconciliation is neither unknown nor
rejected. -/
def Takes (row : ReplyOutbox) (st : RunStep x) : Prop :=
  ∃ claimed pre post, claimed.Evolves row ∧
    (st.entry = deliverEntry claimed (.ok row.providerMessageID) pre post ∨
      ∃ status, status ≠ .unknown ∧ status ≠ .rejected ∧
        st.entry = reconcileEntry claimed (.ok (status, row.providerMessageID)) pre post)

/-- A written row stays written. -/
theorem Writes.evolves {row' : ReplyOutbox} (h : Writes row st) (hrow : row.Evolves row') :
    Writes row' st := by
  obtain ⟨ctx, o, correlation, values, hop, hbatch, v, hv, hevolves, hpost⟩ := h
  exact ⟨ctx, o, correlation, values, hop, hbatch, v, hv, hevolves.trans hrow, hpost⟩

/-- What a history says of a row. -/
structure Traced (h : List (RunStep x)) (row : ReplyOutbox) : Prop where
  written : ∃ st ∈ h, Writes row st
  taken : row.status = .sent → ∃ st ∈ h, Takes row st

/-- What was done stays done. -/
theorem exists_mem_snoc {P : RunStep x → Prop} {h : List (RunStep x)} (hP : ∃ st ∈ h, P st) :
    ∃ st' ∈ h ++ [st], P st' := by
  obtain ⟨st', hst', hP⟩ := hP
  exact ⟨st', mem_append_left _ hst', hP⟩

theorem Traced.snoc {h : List (RunStep x)} (hrow : Traced h row) : Traced (h ++ [st]) row :=
  ⟨exists_mem_snoc hrow.written, fun hsent => exists_mem_snoc (hrow.taken hsent)⟩

/-- Every row has the destination of its event. -/
def Addressed (s : Store) : Prop :=
  ∀ k row, s.replies.lookup k = some row → ∃ event, event.replyTarget = row.replyTarget ∧
    s.events.lookup (key [row.tenantID, row.eventID]) = some event

/-- Operations keep the destinations. -/
theorem Change.addressed {now : ℤ} {o : StoreOp} {s s' : Store} (h : Change x now s o s')
    (hs : Addressed s) : Addressed s' := by
  intro k row hrow
  -- Events keep their destination, so the event is looked for before the operation.
  suffices hbefore : ∃ event, event.replyTarget = row.replyTarget ∧
      s.events.lookup (key [row.tenantID, row.eventID]) = some event by
    obtain ⟨event, htarget, hevent⟩ := hbefore
    obtain ⟨event', hevent', hevolves⟩ := h.evolves.events _ event hevent
    exact ⟨event', hevolves.replyTarget.trans htarget, hevent'⟩
  cases h with
  | none | session | record | message => exact hs k row hrow
  | enqueue _ _ _ _ _ henq =>
    rcases lookup_enqueued hrow with hold | ⟨hnone, v, hv, rfl, rfl⟩
    · exact hs k row hold
    · obtain ⟨event, hevent, htarget⟩ := (henq.enqueuesReply hv hnone).event
      exact ⟨event, htarget, hevent⟩
  | claim _ _ _ _ _ value h | reply _ value h =>
    rcases Go.lookup_insert_eq_some.1 hrow with ⟨-, rfl⟩ | ⟨-, hold⟩
    · exact hs _ value h.found
    · exact hs k row hold

section Runs

variable {adm : Run x → Call → Prop} {clock : ℤ} {c : Run x} {h1 h2 : List (RunStep x)}
  (hc : Reachable adm (Run.start (State.initial clock)) c)

include hc

/-- A row that becomes sent was taken before. -/
theorem taken_of_moves {t : ℕ} {call : Call} {ctx : Ctx} {tr : ReplyTransition}
    (hpre : Call.Pre call (log c.history t) (.store ctx (.transitionReply tr)))
    (hmoves : c.state.store.MovesReply c.state.clock tr row) (hsent : tr.to = .sent) :
    ∃ st ∈ c.history, Takes (applyReplyTransition c.state.clock row tr) st := by
  cases call with
  | runOnce w =>
    rcases settled_row hc Sound.empty hpre hmoves with ⟨l, answer, pre, post, hlog, rfl⟩ |
      ⟨l, status, providerID, pre, post, hlog, hstatus, rfl⟩ <;>
      obtain ⟨st, hst, -, hentry⟩ := mem_log.1 (hlog ▸ mem_concat_self)
    · cases answer with
      | ok => exact ⟨st, hst, row, pre, post, hmoves.evolves, .inl hentry⟩
      | error =>
        simp only [settlement, Worker.settle, Worker.rejectedStatus] at hsent
        split_ifs at hsent
    · have hnot : status ≠ .rejected := by
        rintro rfl
        cases hsent
      refine ⟨st, hst, row, pre, post, hmoves.evolves, .inr ⟨status, hstatus, hnot, ?_⟩⟩
      rw [hentry, Worker.reconciled, if_neg hnot]
      rfl
  | _ => exact hpre.elim

/-- Every row was written, and was taken if it is sent. -/
theorem reachable_traced : ∀ k row, c.state.store.replies.lookup k = some row →
    Traced c.history row := by
  refine Reachable.invariant (I := fun (s : State) h =>
    ∀ k row, s.store.replies.lookup k = some row → Traced h row) (fun _ _ h => by cases h) ?_
    (fun _ _ _ h => h) hc
  intro c t call o _ r s' hc hth hp ih k row hrow
  cases o with
  | store ctx o =>
    obtain ⟨store, rfl, hchange⟩ := performs_store_change hp
    rcases hchange.row k with heq | ⟨correlation, values, v, hbatch, hv, rfl, -, heq⟩ |
      ⟨_, _, _, _, _, value, -, rfl, hclaims, heq⟩ | ⟨tr, value, rfl, rfl, hmoves, heq⟩ <;>
      rw [hrow] at heq
    · exact (ih k row heq.symm).snoc
    all_goals cases heq
    · exact ⟨⟨_, mem_concat_self, ctx, o, correlation, values, rfl, hbatch, v, hv, .refl _, hrow⟩,
        nofun⟩
    · obtain ⟨st, hst, hwrites⟩ := (ih _ value hclaims.found).written
      exact ⟨exists_mem_snoc ⟨st, hst, hwrites.evolves hclaims.evolves⟩, nofun⟩
    · obtain ⟨st, hst, hwrites⟩ := (ih _ value hmoves.found).written
      exact ⟨exists_mem_snoc ⟨st, hst, hwrites.evolves hmoves.evolves⟩, fun hsent =>
        exists_mem_snoc (taken_of_moves hc (reachable_pre hc hth) hmoves hsent)⟩
  | _ =>
    rw [(performs_other (by simp) hp).1] at hrow
    exact (ih k row hrow).snoc

variable (hsplit : c.history = h1 ++ st :: h2)
  (hop : st.entry.op = .env (.deliver row) ∨ st.entry.op = .env (.reconcile row))

include hsplit hop

/-- The row that a worker hands to the provider was written before. -/
theorem written_before : ∃ st' ∈ h1, Writes row st' := by
  obtain ⟨_, _, found, g, st', -, hcl, -⟩ := handled_claimed hc hsplit hop
  obtain ⟨g', rfl⟩ := hcl.before
  -- The row is traced from the state in which it was claimed.
  have hclaim : c.history = g ++ st' :: (g' ++ st :: h2) := by simp [hsplit]
  obtain ⟨c', _, hc', -, rfl, hpre, -, -⟩ := hc.before_step hclaim
  obtain ⟨st0, hst0, hwrites⟩ := (reachable_traced hc' _ found (hpre ▸ hcl.claims.found)).written
  exact ⟨st0, mem_append_left _ hst0, hcl.row_eq ▸ hwrites.evolves hcl.claims.evolves⟩

/-- A worker hands to the provider only what an execution has written before, and it goes to the
destination that is stored with the event. -/
theorem handled_written :
    (∃ st' ∈ h1, Writes row st') ∧ ∃ event, event.replyTarget = row.replyTarget ∧
      st.entry.pre.store.events.lookup (key [row.tenantID, row.eventID]) = some event := by
  refine ⟨written_before hc hsplit hop, ?_⟩
  obtain ⟨_, _, _, _, st', -, hcl, -⟩ := handled_claimed hc hsplit hop
  obtain ⟨g', hg⟩ := hcl.before
  obtain ⟨c', _, hc', -, hh, hpre, -, -⟩ := hc.before_step hsplit
  -- A later version of the row is still stored, and has its destination.
  obtain ⟨-, -, hlater⟩ := (reachable_evolves hc').2.1 st' (by simp [hh, hg])
  obtain ⟨value, hvalue, hevolves⟩ := hlater.store.replies _ row hcl.stored
  have haddressed : Addressed c'.state.store := reachable_store (I := Addressed)
    (fun _ _ h => by cases h) (fun _ _ _ _ _ _ _ _ _ _ hchange h => hchange.addressed h) hc'
  rw [← hpre, ← hevolves.replyTarget, ← hevolves.tenantID, ← hevolves.eventID]
  exact haddressed _ value hvalue

omit hsplit hop

/-- A row is marked as sent only after the provider has taken it, which it did after the row was
written. -/
theorem sent_taken {k : String} (hrow : c.state.store.replies.lookup k = some row)
    (hsent : row.status = .sent) :
    ∃ h1 st h2, c.history = h1 ++ st :: h2 ∧ Takes row st ∧ ∃ st' ∈ h1, Writes row st' := by
  obtain ⟨st, hst, claimed, pre, post, hevolves, hentry⟩ :=
    (reachable_traced hc k row hrow).taken hsent
  obtain ⟨h1, h2, hsplit⟩ := append_of_mem hst
  have hop : st.entry.op = .env (.deliver claimed) ∨ st.entry.op = .env (.reconcile claimed) := by
    rcases hentry with h | ⟨_, -, -, h⟩ <;> rw [h]
    · exact .inl rfl
    · exact .inr rfl
  obtain ⟨st', hst', hwrites⟩ := written_before hc hsplit hop
  exact ⟨h1, st, h2, hsplit, ⟨claimed, pre, post, hevolves, hentry⟩, st', hst',
    hwrites.evolves hevolves⟩

end Runs

/-- The first segment of the reply was written, and then taken by the provider. -/
theorem sent_taken_bothDelivered : ∃ (c : Run plainExternals) (row : ReplyOutbox),
    Reachable (fun _ _ => True) (Run.start (State.initial 1)) c ∧ row.status = .sent ∧
      ∃ h1 st h2, c.history = h1 ++ st :: h2 ∧ Takes row st ∧ ∃ st' ∈ h1, Writes row st' := by
  obtain ⟨c, hc, row, hrow, hsent⟩ := Config.exists_reachable_of_run (fun _ _ => True)
    (Run.start (State.initial 1)) bothDelivered
    (fun c => ∃ row ∈ c.state.store.replies.lookup (replyKey "t" "e" 0), row.status = .sent)
    (by decide +kernel)
  exact ⟨c, row, hc, hsent, sent_taken hc hrow hsent⟩

/-- A segment that is delivered was written before. -/
theorem handled_written_bothDelivered : ∃ (c : Run plainExternals) (h1 h2 : _) (st : _) (row : _),
    Reachable (fun _ _ => True) (Run.start (State.initial 1)) c ∧ c.history = h1 ++ st :: h2 ∧
      st.entry.op = .env (.deliver row) ∧ ∃ st' ∈ h1, Writes row st' := by
  obtain ⟨c, hc, st, hst, hrow⟩ := Config.exists_reachable_of_run (fun _ _ => True)
    (Run.start (State.initial 1)) bothDelivered
    (fun c => ∃ st ∈ c.history, (delivered st.entry).isSome) (by decide +kernel)
  obtain ⟨h1, h2, hsplit⟩ := append_of_mem hst
  obtain ⟨row, hrow⟩ := Option.isSome_iff_exists.1 hrow
  have hop := op_of_delivered hrow
  exact ⟨c, h1, h2, st, row, hc, hsplit, hop, (handled_written hc hsplit (.inl hop)).1⟩

end AgentService.Platform
