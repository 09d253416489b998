import AgentService.Gateway.Idempotency

/-!
# A claim owns its key until it ends

An entry is found by its key only, and `Begin` deletes the entries that have expired, also those
whose claim still runs. Then another `Begin` gets a claim for the same key, and what the first claim
does in the end is done to the entry of the second one: `expiredClaim_shares` is such a history.

As long as no pending entry has expired when `Begin` runs, claims and pending entries correspond
(`Paired`). Then a key has at most one claim that has not ended, `Complete` and `Fail` change only
the entry of their own claim, and a replay is what the claim of the replayed entry has stored
(`claims_owned`).
-/

namespace AgentService.Idempotency

open Concurrent Function AList
open Gateway (DispatchEvent)
open Storage (Context)

/-! ## The property -/

/-- A claim that has been returned and has neither been completed nor failed. -/
def Store.Outstanding (s : Store) (c : ℕ) : Prop := c < s.claimCount ∧ (s.claim c).once = false

instance (s : Store) (c : ℕ) : Decidable (s.Outstanding c) := by
  unfold Store.Outstanding
  infer_instance

/-- The claim that a call ends. -/
def Call.ends : Call → Option ℕ
  | .complete c _ _ | .fail c _ => some c
  | .begin .. | .close => none

/-- A replay is what was passed to `Complete` of the claim that made the entry of the key. -/
def Call.Replays : (call : Call) → call.Res → Store → Prop
  | .begin _ context caller inbound, res, s =>
    ∀ events, res = .ok (.replayed events) → ∃ key entry, beginKey context caller inbound = .ok key ∧
      s.entries.lookup key = some entry ∧ (s.claim entry.owner).completed = some events
  | .complete .., _, _ | .fail .., _, _ | .close, _, _ => True

/-- Claims own their keys, before and after a call. -/
structure Owned (st : Server.Step store) : Prop where
  /-- A key has at most one claim that is outstanding. -/
  unique : ∀ c c', st.post.Outstanding c → st.post.Outstanding c' →
    (st.post.claim c).key = (st.post.claim c').key → c = c'
  /-- `Complete` and `Fail` change only the entry of their claim. -/
  own : ∀ c, st.call.ends = some c → ∀ key,
    st.post.entries.lookup key ≠ st.pre.entries.lookup key →
      ∃ entry, st.pre.entries.lookup key = some entry ∧ entry.owner = c
  /-- A replay is what the claim of the entry has stored. -/
  replay : st.call.Replays st.res st.pre

/-- When `Begin` runs, no pending entry has expired. -/
def Store.InTime (s : Store) : Call → Prop
  | .begin now .. => ∀ stored ∈ s.entries.entries, stored.2.state = .pending →
    now < stored.2.expiresAt
  | .complete .. | .fail .. | .close => True

instance (s : Store) (call : Call) : Decidable (s.InTime call) := by
  cases call <;> unfold Store.InTime <;> infer_instance

/-! ## Claims and entries -/

namespace Store

/-- Claims that have not ended and entries that are pending correspond. -/
structure Paired (s : Store) : Prop where
  /-- An outstanding claim has a pending entry, until the store is closed. -/
  pending : ∀ c, s.Outstanding c → s.closed = false →
    ∃ entry, s.entries.lookup (s.claim c).key = some entry ∧ entry.state = .pending ∧
      entry.owner = c
  /-- A key has at most one outstanding claim. -/
  unique : ∀ c c', s.Outstanding c → s.Outstanding c' → (s.claim c).key = (s.claim c').key → c = c'
  /-- An entry has a claim, which has not ended or has stored its events. -/
  entry : ∀ key entry, s.entries.lookup key = some entry →
    entry.owner < s.claimCount ∧ (s.claim entry.owner).key = key ∧
      (entry.state = .completed → (s.claim entry.owner).completed = some entry.events)
  /-- A closed store is empty. -/
  closed : s.closed = true → ∀ key, s.entries.lookup key = none

namespace Paired

variable {s : Store}

/-- A new store has neither claims nor entries. -/
theorem initial (ttl : ℤ) (maxEntries : ℕ) : Paired { ttl := ttl, maxEntries := maxEntries } := by
  refine ⟨fun c hc => absurd hc.1 (Nat.not_lt_zero c),
    fun c _ hc => absurd hc.1 (Nat.not_lt_zero c), fun key _ he => ?_, fun _ key => ?_⟩
  · rw [lookup_empty] at he
    cases he
  · exact lookup_empty key

variable (h : s.Paired)
include h

/-- Entries that are not pending go away. -/
theorem sub {entries : Go.Map Entry}
    (hsub : ∀ key entry, entries.lookup key = some entry → s.entries.lookup key = some entry)
    (hpending : ∀ key entry, s.entries.lookup key = some entry → entry.state = .pending →
      entries.lookup key = some entry) : Paired { s with entries := entries } := by
  refine ⟨fun c hc hopen => ?_, h.unique, fun key entry he => h.entry key entry (hsub key entry he),
    fun hclosed key => ?_⟩
  · obtain ⟨entry, hentry, hstate, howner⟩ := h.pending c hc hopen
    exact ⟨entry, hpending _ entry hentry hstate, hstate, howner⟩
  · rw [Option.eq_none_iff_forall_ne_some]
    intro entry he
    exact absurd ((h.closed hclosed key).symm.trans (hsub key entry he)) nofun

/-- `pruneLocked`, when no pending entry has expired. -/
theorem pruneLocked {now : ℤ}
    (hintime : ∀ key entry, s.entries.lookup key = some entry → entry.state = .pending →
      now < entry.expiresAt) : (s.pruneLocked now).Paired :=
  h.sub (fun _ _ he => (lookup_pruneLocked.1 he).1)
    fun key entry he hstate => lookup_pruneLocked.2 ⟨he, hintime key entry he hstate⟩

/-- `Begin` makes a new entry under a key without one. -/
theorem reserve (hopen : s.closed = false) {key : String} (hkey : s.entries.lookup key = none)
    (now : ℤ) : (s.reserve now key).2.Paired := by
  unfold Store.reserve
  split_ifs
  · exact h
  have hold : ∀ c, c < s.claimCount → update s.claim s.claimCount { key := key } c = s.claim c :=
    fun c hc => update_of_ne (Nat.ne_of_lt hc) _ _
  have hself : update s.claim s.claimCount { key := key } s.claimCount =
      { key := key } := update_self _ _ _
  -- an outstanding claim has a pending entry, so that it is for another key
  have hother : ∀ c, s.Outstanding c → (s.claim c).key ≠ key := by
    intro c hc heq
    obtain ⟨entry, hentry, -⟩ := h.pending c hc hopen
    rw [heq, hkey] at hentry
    cases hentry
  have hcases : ∀ c, c < s.claimCount + 1 ∧
      (update s.claim s.claimCount { key := key } c).once = false →
      c = s.claimCount ∨ s.Outstanding c := by
    rintro c ⟨hlt, honce⟩
    rcases Nat.lt_succ_iff_lt_or_eq.1 hlt with hlt | rfl
    · rw [hold c hlt] at honce
      exact .inr ⟨hlt, honce⟩
    · exact .inl rfl
  refine ⟨fun c hc _ => ?_, fun c c' hc hc' heq => ?_, fun key' entry he => ?_, fun hclosed => ?_⟩
  · dsimp only
    rcases hcases c hc with rfl | hc
    · rw [hself]
      exact ⟨_, lookup_insert _, rfl, rfl⟩
    · rw [hold c hc.1, lookup_insert_ne (hother c hc)]
      exact h.pending c hc hopen
  · dsimp only at heq
    rcases hcases c hc with rfl | hc
    · rcases hcases c' hc' with rfl | hc'
      · rfl
      · rw [hself, hold c' hc'.1] at heq
        exact absurd heq.symm (hother c' hc')
    · rcases hcases c' hc' with rfl | hc'
      · rw [hself, hold c hc.1] at heq
        exact absurd heq (hother c hc)
      · rw [hold c hc.1, hold c' hc'.1] at heq
        exact h.unique c c' hc hc' heq
  · dsimp only
    rcases Go.lookup_insert_eq_some.1 he with ⟨rfl, rfl⟩ | ⟨-, he⟩
    · rw [hself]
      exact ⟨Nat.lt_succ_self _, rfl, nofun⟩
    · obtain ⟨hlt, hkey', hevents⟩ := h.entry key' entry he
      rw [hold _ hlt]
      exact ⟨Nat.lt_succ_of_lt hlt, hkey', hevents⟩
  · exact absurd (hopen.symm.trans hclosed) nofun

/-- `Begin`, when no pending entry has expired. -/
theorem beginLocked {now : ℤ}
    (hintime : ∀ key entry, s.entries.lookup key = some entry → entry.state = .pending →
      now < entry.expiresAt) (key : String) : (s.beginLocked now key).2.Paired := by
  unfold Store.beginLocked
  split_ifs with hclosed
  · exact h
  have hopen : (s.pruneLocked now).closed = false := by simpa [Store.pruneLocked] using hclosed
  have hpruned := h.pruneLocked hintime
  unfold Store.claimKey
  cases hkey : (s.pruneLocked now).entries.lookup key with
  | none => exact hpruned.reserve hopen hkey now
  | some entry =>
    dsimp only
    cases hstate : entry.state with
    | pending => exact hpruned
    | completed => exact hpruned
    | failed =>
      have herased : Paired { s.pruneLocked now with
          entries := (s.pruneLocked now).entries.erase key } := by
        refine hpruned.sub (fun key' entry' he' => (Go.lookup_erase_eq_some.1 he').1)
          fun key' entry' he' hstate' => Go.lookup_erase_eq_some.2 ⟨he', ?_⟩
        rintro rfl
        rw [hkey] at he'
        cases he'
        rw [hstate] at hstate'
        cases hstate'
      exact herased.reserve hopen (lookup_erase _ _) now

/-- `Complete` and `Fail` of an outstanding claim change its entry, if the store is open. -/
theorem settle {c : ℕ} (hc : s.Outstanding c) (now : ℤ) (fin : End) :
    (s.closed = true ∧ s.settle (s.claim c).key now fin = s) ∨
      ∃ entry, s.entries.lookup (s.claim c).key = some entry ∧ entry.owner = c ∧
        s.settle (s.claim c).key now fin = { s with
            entries := s.entries.insert (s.claim c).key
              { entry with state := fin.state, events := fin.events, expiresAt := now + s.ttl } } := by
  unfold Store.settle
  by_cases hclosed : s.closed = true
  · rw [h.closed hclosed]
    exact .inl ⟨hclosed, rfl⟩
  · obtain ⟨entry, hentry, hstate, howner⟩ := h.pending c hc (by simpa using hclosed)
    rw [hentry]
    exact .inr ⟨entry, rfl, howner, if_pos hstate⟩

/-- `Complete` and `Fail`. -/
theorem finish (c : ℕ) (now : ℤ) (fin : End) : (s.finish c now fin).Paired := by
  unfold Store.finish
  split_ifs with hnot
  · exact h
  have hc : s.Outstanding c := by
    rw [not_or, Nat.not_le, Bool.not_eq_true] at hnot
    exact hnot
  have hself : update s.claim c
      { s.claim c with once := true, completed := fin.completed? } c =
        { s.claim c with once := true, completed := fin.completed? } := update_self _ _ _
  have hother : ∀ {c'}, c' ≠ c → update s.claim c
      { s.claim c with once := true, completed := fin.completed? } c' = s.claim c' :=
    fun hne => update_of_ne hne _ _
  -- the claims that are still outstanding are others, for other keys
  have hout : ∀ c', c' < s.claimCount ∧ (update s.claim c
      { s.claim c with once := true, completed := fin.completed? } c').once = false →
      c' ≠ c ∧ s.Outstanding c' := by
    rintro c' ⟨hlt, honce⟩
    have hne : c' ≠ c := by
      rintro rfl
      rw [hself] at honce
      cases honce
    rw [hother hne] at honce
    exact ⟨hne, hlt, honce⟩
  have hunique : ∀ c1 c2, (c1 ≠ c ∧ s.Outstanding c1) → (c2 ≠ c ∧ s.Outstanding c2) →
      (update s.claim c { s.claim c with once := true, completed := fin.completed? }
        c1).key = (update s.claim c
          { s.claim c with once := true, completed := fin.completed? } c2).key → c1 = c2 := by
    intro c1 c2 h1 h2 heq
    rw [hother h1.1, hother h2.1] at heq
    exact h.unique c1 c2 h1.2 h2.2 heq
  rcases h.settle hc now fin with ⟨hclosed, hsettle⟩ | ⟨entry, hentry, howner, hsettle⟩
  · rw [hsettle]
    refine ⟨fun c' _ hopen => absurd (hopen.symm.trans hclosed) nofun,
      fun c1 c2 h1 h2 => hunique c1 c2 (hout c1 h1) (hout c2 h2), fun key entry he => ?_, h.closed⟩
    exact absurd ((h.closed hclosed key).symm.trans he) nofun
  · rw [hsettle]
    refine ⟨fun c' hc' hopen => ?_, fun c1 c2 h1 h2 => hunique c1 c2 (hout c1 h1) (hout c2 h2),
      fun key' entry' he' => ?_, fun hclosed => ?_⟩
    · obtain ⟨hne, hc'⟩ := hout c' hc'
      have hkey : (s.claim c').key ≠ (s.claim c).key := fun heq => hne (h.unique c' c hc' hc heq)
      dsimp only
      rw [hother hne, lookup_insert_ne hkey]
      exact h.pending c' hc' hopen
    · dsimp only
      rcases Go.lookup_insert_eq_some.1 he' with ⟨rfl, rfl⟩ | ⟨hne, he'⟩
      · dsimp only
        rw [howner, hself]
        refine ⟨hc.1, rfl, ?_⟩
        cases fin with
        | completed => exact fun _ => rfl
        | failed => exact nofun
      · obtain ⟨hlt, hkey', hevents⟩ := h.entry key' entry' he'
        have hne' : entry'.owner ≠ c := by
          intro heq
          rw [heq] at hkey'
          exact hne hkey'.symm
        rw [hother hne']
        exact ⟨hlt, hkey', hevents⟩
    · exact absurd ((h.closed hclosed _).symm.trans hentry) nofun

/-- `Close`. -/
theorem close : s.close.Paired :=
  ⟨fun _ _ hopen => absurd hopen nofun, h.unique, fun _ _ he => absurd he nofun, fun _ _ => rfl⟩

end Paired

/-- What `Complete` and `Fail` change is the entry of their claim. -/
theorem Paired.own {s : Store} (h : s.Paired) {c : ℕ} {now : ℤ} {fin : End} {key : String}
    (hne : (s.finish c now fin).entries.lookup key ≠ s.entries.lookup key) :
    ∃ entry, s.entries.lookup key = some entry ∧ entry.owner = c := by
  unfold Store.finish at hne
  split_ifs at hne with hnot
  · exact absurd rfl hne
  have hc : s.Outstanding c := by
    rw [not_or, Nat.not_le, Bool.not_eq_true] at hnot
    exact hnot
  rcases h.settle hc now fin with ⟨-, hsettle⟩ | ⟨entry, hentry, howner, hsettle⟩
  · rw [hsettle] at hne
    exact absurd rfl hne
  · rw [hsettle] at hne
    by_cases hkey : key = (s.claim c).key
    · exact ⟨entry, hkey ▸ hentry, howner⟩
    · exact absurd (lookup_insert_ne hkey) hne

/-- A replay is from a completed entry of the store. -/
theorem Paired.replay {s : Store} (h : s.Paired) {now : ℤ} {key : String}
    {events : List DispatchEvent} (hres : (s.beginLocked now key).1 = .ok (.replayed events)) :
    ∃ entry, s.entries.lookup key = some entry ∧ (s.claim entry.owner).completed = some events := by
  have hreserve : ∀ (s : Store), (s.reserve now key).1 ≠ .ok (.replayed events) := by
    intro s
    unfold Store.reserve
    split_ifs <;> exact nofun
  unfold Store.beginLocked at hres
  split_ifs at hres
  unfold Store.claimKey at hres
  cases hkey : (s.pruneLocked now).entries.lookup key with
  | none =>
    rw [hkey] at hres
    exact absurd hres (hreserve _)
  | some entry =>
    have hold := (lookup_pruneLocked.1 hkey).1
    simp only [hkey] at hres
    cases hstate : entry.state with
    | pending =>
      rw [hstate] at hres
      cases hres
    | completed =>
      rw [hstate] at hres
      cases hres
      exact ⟨entry, hold, (h.entry key entry hold).2.2 hstate⟩
    | failed =>
      rw [hstate] at hres
      exact absurd hres (hreserve _)

end Store

/-! ## Histories -/

/-- A call that is made in time keeps claims and entries together, and claims own their keys. -/
theorem owned_of_paired {s : Store} (h : s.Paired) {call : Call} (hintime : s.InTime call) :
    Owned (store.stepOf s call) ∧ (store.answer call s).2.Paired := by
  have hpaired : (store.answer call s).2.Paired := by
    cases call with
    | «begin» now context caller inbound =>
      change (s.begin now context caller inbound).2.Paired
      unfold Store.begin
      cases beginKey context caller inbound with
      | error => exact h
      | ok key =>
        refine h.beginLocked (fun key' entry he hstate => ?_) key
        exact hintime ⟨key', entry⟩ (mem_lookup_iff.1 he) hstate
    | complete c now events => exact h.finish c now (.completed events)
    | fail c now => exact h.finish c now .failed
    | close => exact h.close
  refine ⟨⟨hpaired.unique, fun c hends key hne => ?_, ?_⟩, hpaired⟩
  · cases call with
    | complete =>
      cases hends
      exact h.own hne
    | fail =>
      cases hends
      exact h.own hne
    | «begin» now context caller inbound => cases hends
    | close => cases hends
  · cases call with
    | «begin» now context caller inbound =>
      intro events hres
      change (s.begin now context caller inbound).1 = .ok (.replayed events) at hres
      unfold Store.begin at hres
      cases hkey : beginKey context caller inbound with
      | error =>
        rw [hkey] at hres
        cases hres
      | ok key =>
        rw [hkey] at hres
        obtain ⟨entry, hentry, hcompleted⟩ := h.replay hres
        exact ⟨key, entry, rfl, hentry, hcompleted⟩
    | complete | fail | close => trivial

/-- A claim owns its key until it ends: in every history of a new store in which no pending entry
has expired when `Begin` runs. -/
theorem claims_owned (ttl : ℤ) (maxEntries : ℕ) (calls : List Call)
    (hintime : ∀ st ∈ store.history { ttl := ttl, maxEntries := maxEntries } calls,
      st.pre.InTime st.call) :
    ∀ st ∈ store.history { ttl := ttl, maxEntries := maxEntries } calls, Owned st := by
  have hall : (∀ st ∈ store.history { ttl := ttl, maxEntries := maxEntries } calls, Owned st) ∧
      (store.after { ttl := ttl, maxEntries := maxEntries } calls).Paired := by
    refine Server.history_invariant (S := store) Store.InTime
      (J := fun steps s => (∀ st ∈ steps, Owned st) ∧ s.Paired) ?_
      (fun steps s call hcall h => ?_) hintime
    · exact ⟨fun st hst => absurd hst List.not_mem_nil, .initial ttl maxEntries⟩
    · obtain ⟨howned, hpaired⟩ := owned_of_paired h.2 hcall
      refine ⟨fun st hst => ?_, hpaired⟩
      rcases List.mem_append.1 hst with hst | hst
      · exact h.1 st hst
      · rw [List.mem_singleton.1 hst]
        exact howned
  exact hall.1

/-- `Begin` of the same message, at any time. -/
abbrev beginHello (now : ℤ) : Call :=
  .begin now .live (apiCaller "alice") { message := directMessage "bot" "" }

/-- The last event of an answer. -/
def answered : DispatchEvent :=
  { type := .done, requestID := "request", traceID := "trace", status := "complete", done := true }

/-- A claim that is completed in time is replayed to the next request. -/
theorem claims_owned_replayed :
    (store.answer (beginHello 2) (store.after { ttl := 10, maxEntries := 4 }
        [beginHello 0, .complete 0 1 [answered]])).1 = .ok (.replayed [answered]) ∧
      ∀ st ∈ store.history { ttl := 10, maxEntries := 4 }
        [beginHello 0, .complete 0 1 [answered], beginHello 2], Owned st :=
  ⟨by decide +kernel, claims_owned 10 4 [beginHello 0, .complete 0 1 [answered], beginHello 2]
    (by decide +kernel)⟩

/-- The entry of the first claim expires while its request is served. The second request gets a
claim for the same key, and `Complete` of the first claim completes the entry of the second one. -/
theorem expiredClaim_shares :
    ¬ ∀ st ∈ store.history { ttl := 10, maxEntries := 4 }
      [beginHello 0, beginHello 10, .complete 0 11 [answered]], Owned st := by
  intro h
  -- the step of the second `Begin`, after which both claims are outstanding
  have hmem : store.stepOf (store.after { ttl := 10, maxEntries := 4 } [beginHello 0])
      (beginHello 10) ∈ store.history { ttl := 10, maxEntries := 4 }
        [beginHello 0, beginHello 10, .complete 0 11 [answered]] :=
    List.mem_cons_of_mem _ List.mem_cons_self
  have hunique := (h _ hmem).unique 0 1 (by decide +kernel) (by decide +kernel) (by decide +kernel)
  exact absurd hunique nofun

end AgentService.Idempotency
