import AgentService.Sessions.Service

/-!
# Rules for the methods

`Call.Uses` lists the operations that each method performs (`body_uses`).

`GetSession` takes a session from the delegate, in one of three ways, and restores its history. A
`GetRule` says what is known of a session that the delegate has handed out and of one whose history
was restored; `GetRule.getSession` is then what is known of the session that `GetSession` returns,
under every interference.
-/

namespace AgentService.Sessions

open Concurrent Program

variable {U : Upstream}

/-- The operations of `GetSession` besides those of `restoreHistory`. -/
def GetOp (s : Service) (key : Key) : Op → Prop
  | .store (.getSession ..) | .setVersion .. => True
  | .delegate i (.getSession key' _) | .delegate i (.createSession key' _)
  | .delegate i (.updateSessionState key' _) => (i, key') = (s.instanceID, key)
  | _ => False

/-- What is known of the sessions of a call of `GetSession`: `Taken` of one that the delegate has
handed out, and `Done` of one that may be returned. -/
structure GetRule (s : Service) (key : Key) (limit : Option ℕ) (Pre : List (Entry U) → Op → Prop)
    (Taken Done : List (Entry U) → Value → Prop) : Prop where
  /-- The operations are allowed. -/
  allowed : ∀ log o, GetOp s key o → Pre log o
  /-- A session that the delegate had. -/
  got : ∀ {log pre post v},
    (machine U).Performs (.delegate s.instanceID (.getSession key limit)) pre (.ok (some v)) post →
    Taken (log ++ [⟨.delegate s.instanceID (.getSession key limit), .ok (some v), pre, post⟩]) v
  /-- A session that the delegate has created. -/
  created : ∀ {log state pre post v},
    (machine U).Performs (.delegate s.instanceID (.createSession key state)) pre (.ok v) post →
    Taken (log ++ [⟨.delegate s.instanceID (.createSession key state), .ok v, pre, post⟩]) v
  /-- A refresh that fails changes nothing about a session that was taken. -/
  kept : ∀ {log v state pre post r pre' post'},
    (machine U).Performs (.delegate s.instanceID (.updateSessionState key state)) pre none post →
    (machine U).Performs (.delegate s.instanceID (.getSession key limit)) pre' r post' →
    Taken log v → Taken (log ++
      [⟨.delegate s.instanceID (.updateSessionState key state), none, pre, post⟩] ++
      [⟨.delegate s.instanceID (.getSession key limit), r, pre', post'⟩]) v
  /-- Nor does its state. -/
  taken_state : ∀ {log v} (state : Option String), Taken log v → Taken log { v with state }
  /-- A session that the store does not have. -/
  unstored : ∀ {pre post pre' post' v},
    (machine U).Performs (.store (.getSession s.tenantID key.sessionID)) pre (.error .notFound)
      post →
    (machine U).Performs (.delegate s.instanceID (.getSession key limit)) pre' (.ok (some v))
      post' → Taken ([⟨.store (.getSession s.tenantID key.sessionID), .error .notFound, pre, post⟩] ++
      [⟨.delegate s.instanceID (.getSession key limit), .ok (some v), pre', post'⟩]) v →
    Done ([⟨.store (.getSession s.tenantID key.sessionID), .error .notFound, pre, post⟩] ++
      [⟨.delegate s.instanceID (.getSession key limit), .ok (some v), pre', post'⟩]) v
  /-- A session whose history was restored. -/
  restored : ∀ {log v}, Taken log v → (s.restoreHistory v key.sessionID limit).Obeys Pre
    (fun log r => ∀ v, r = .ok v → Done log v) log
  /-- Later operations change nothing about a session whose history was restored. -/
  done_snoc : ∀ {log v} (e : Entry U), Done log v → Done (log ++ [e]) v
  /-- Nor does its state. -/
  done_state : ∀ {log v} (state : Option String), Done log v → Done log { v with state }

namespace GetRule

variable {s : Service} {key : Key} {limit : Option ℕ} {Pre : List (Entry U) → Op → Prop}
  {Taken Done : List (Entry U) → Value → Prop}

/-- The end of `GetSession`. -/
theorem restore (R : GetRule s key limit Pre Taken Done) (persisted : Storage.Session)
    {value : Value} {log : List (Entry U)} (hvalue : Taken log value) :
    (s.restore key limit persisted value).Obeys Pre
      (fun log r => ∀ v, r = .ok (some v) → Done log v) log := by
  unfold Service.restore
  refine (R.restored hvalue).bind fun _ r hr => ?_
  cases r with
  | error => exact fun v h => absurd h nofun
  | ok value' =>
    rw [obeys_bind]
    refine ⟨R.allowed _ _ trivial, fun _ _ _ _ v hv => ?_⟩
    cases hv
    exact R.done_state _ (R.done_snoc _ (hr value' rfl))

/-- `GetSession` of a session that the delegate does not have. -/
theorem recreate (R : GetRule s key limit Pre Taken Done) (persisted : Storage.Session)
    (log : List (Entry U)) : (s.recreate key limit persisted).Obeys Pre
      (fun log r => ∀ v, r = .ok (some v) → Done log v) log := by
  unfold Service.recreate
  rw [obeys_bind]
  refine ⟨R.allowed _ _ rfl, fun _ r _ hperf => ?_⟩
  cases r with
  | error => exact fun v h => absurd h nofun
  | ok => exact R.restore persisted (R.created hperf)

/-- `GetSession` of a session that the delegate has. -/
theorem refresh (R : GetRule s key limit Pre Taken Done) (persisted : Storage.Session)
    {value : Value} {log : List (Entry U)} (hvalue : Taken log value) :
    (s.refresh key limit persisted value).Obeys Pre
      (fun log r => ∀ v, r = .ok (some v) → Done log v) log := by
  unfold Service.refresh
  rw [obeys_bind]
  refine ⟨R.allowed _ _ rfl, fun _ r _ hupdate => ?_⟩
  cases r with
  | some => exact fun v h => absurd h nofun
  | none =>
    simp only [obeys_ret, obeys_bind]
    refine ⟨R.allowed _ _ rfl, fun _ r _ hperf => ?_⟩
    -- without a refreshed session, the first one is used
    have hold := R.kept hupdate hperf hvalue
    cases r with
    | error => exact R.restore persisted (R.taken_state _ hold)
    | ok got =>
      cases got with
      | none => exact R.restore persisted (R.taken_state _ hold)
      | some => exact R.restore persisted (R.taken_state _ (R.got hperf))

/-- What is known of the session that `GetSession` returns. -/
theorem getSession (R : GetRule s key limit Pre Taken Done) :
    (s.getSession key limit).Obeys Pre (fun log r => ∀ v, r = .ok (some v) → Done log v) [] := by
  unfold Service.getSession
  cases validateKey key with
  | some => exact fun v h => absurd h nofun
  | none =>
    rw [obeys_bind]
    refine ⟨R.allowed _ _ trivial, fun _ r _ hmissing => ?_⟩
    cases r with
    | error err =>
      cases err with
      | notFound =>
        refine ⟨R.allowed _ _ rfl, fun pre' r post' hperf v hv => ?_⟩
        subst hv
        exact R.unstored hmissing hperf (R.got hperf)
      | _ => exact fun v h => absurd h nofun
    | ok persisted =>
      simp only [obeys_ret, obeys_bind]
      refine ⟨R.allowed _ _ rfl, fun pre' r post' hperf => ?_⟩
      cases r with
      | error => exact R.recreate persisted _
      | ok got =>
        cases got with
        | none => exact R.recreate persisted _
        | some => exact R.refresh persisted (R.got hperf)

end GetRule

/-! ## The operations of the methods -/

/-- The operations that a call performs. -/
def Call.Uses : Call → Op → Prop
  | .createSession .., .delegate _ (.createSession ..) => True
  | .createSession .., .store (.createSession ..) => True
  | .createSession .., .delegate _ (.deleteSession _) => True
  | .createSession .., .setVersion .. => True
  | .getSession .., .store (.getSession ..) => True
  | .getSession .., .store (.listEventPayloads ..) => True
  | .getSession .., .delegate _ (.getSession ..) => True
  | .getSession .., .delegate _ (.createSession ..) => True
  | .getSession .., .delegate _ (.updateSessionState ..) => True
  | .getSession .., .delegate _ (.appendEvent ..) => True
  | .getSession .., .setVersion .. => True
  | .updateSessionState .., .store (.getSession ..) => True
  | .updateSessionState .., .store (.updateSessionState ..) => True
  | .updateSessionState .., .setVersion .. => True
  | .updateSessionState .., .delegate _ (.updateSessionState ..) => True
  | .appendEvent .., .store (.appendEventPayload _) => True
  | .appendEvent .., .delegate _ (.appendEvent ..) => True
  | .deleteSession .., .store (.deleteSession ..) => True
  | .deleteSession .., .delegate _ (.deleteSession _) => True
  | .deleteSession .., .dropVersion .. => True
  | _, _ => False

variable (s : Service) (key : Key)

/-- `GetSession`. -/
theorem getRule_uses (limit : Option ℕ) :
    GetRule (U := U) s key limit (fun _ => (Call.getSession s key limit).Uses) (fun _ _ => True)
      (fun _ _ => True) where
  allowed _ o ho := by
    cases o with
    | store o => cases o <;> first | exact trivial | exact ho.elim
    | delegate i o => cases o <;> first | exact trivial | exact ho.elim
    | setVersion => exact trivial
    | dropVersion => exact ho.elim
  got _ := trivial
  created _ := trivial
  kept _ _ _ := trivial
  taken_state _ _ := trivial
  unstored _ _ _ := trivial
  restored {log v} _ := by
    have hitems : ∀ existing items value, (s.restoreItems (U := U) limit existing items value).Every
          (Call.getSession s key limit).Uses := by
      intro existing items
      induction items with
      | nil => exact fun _ => trivial
      | cons item _ ih =>
        intro value
        rw [Service.restoreItems]
        split_ifs
        · exact ih value
        · cases U.unmarshal item.payload with
          | none => exact trivial
          | some =>
            refine .bind ⟨trivial, fun _ => trivial⟩ fun r => ?_
            cases r with
            | error => exact trivial
            | ok value' => exact ih value'
    have hrestore : (s.restoreHistory (U := U) v key.sessionID limit).Every
        (Call.getSession s key limit).Uses := by
      refine .bind ⟨trivial, fun _ => trivial⟩ fun r => ?_
      cases r with
      | error => exact trivial
      | ok history => exact hitems _ history v
    exact (hrestore.obeys log).mono (fun _ _ => id) fun _ _ _ _ _ => trivial
  done_snoc _ _ := trivial
  done_state _ _ := trivial

/-- `AppendEvent`. -/
theorem appendEvent_uses (sess : Option Value) (event : Option Event)
    (limit : Option ℕ) : (s.appendEvent (U := U) sess event limit).Every
      (Call.appendEvent s sess event limit).Uses := by
  unfold Service.appendEvent
  cases sess with
  | none => exact trivial
  | some =>
    cases event with
    | none => exact trivial
    | some e =>
      dsimp only
      split_ifs
      · exact trivial
      · cases U.marshal e with
        | none => exact trivial
        | some =>
          refine .bind ⟨trivial, fun _ => trivial⟩ fun r => ?_
          cases r with
          | error => exact trivial
          | ok =>
            refine .bind ⟨trivial, fun _ => trivial⟩ fun r => ?_
            cases r <;> exact trivial

variable (state : Option String)

/-- `CreateSession`. -/
theorem createSession_uses :
    (s.createSession (U := U) key state).Every (Call.createSession s key state).Uses := by
  unfold Service.createSession
  cases validateKey key with
  | some => exact trivial
  | none =>
    refine .bind ⟨trivial, fun _ => trivial⟩ fun r => ?_
    cases r with
    | error => exact trivial
    | ok =>
      refine .bind ⟨trivial, fun _ => trivial⟩ fun r => ?_
      rcases r with err | _
      · cases err <;> exact ⟨trivial, fun _ => trivial⟩
      · exact ⟨trivial, fun _ => trivial⟩

/-- `UpdateSessionState`. -/
theorem updateSessionState_uses :
    (s.updateSessionState (U := U) key state).Every (Call.updateSessionState s key state).Uses := by
  unfold Service.updateSessionState
  cases validateKey key with
  | some => exact trivial
  | none =>
    refine .bind ⟨trivial, fun _ => trivial⟩ fun r => ?_
    cases r with
    | error => exact trivial
    | ok =>
      refine .bind ⟨trivial, fun _ => trivial⟩ fun r => ?_
      cases r with
      | error => exact trivial
      | ok => exact ⟨trivial, fun _ => ⟨trivial, fun _ => trivial⟩⟩

/-- `DeleteSession`. -/
theorem deleteSession_uses :
    (s.deleteSession (U := U) key).Every (Call.deleteSession s key).Uses := by
  unfold Service.deleteSession
  cases validateKey key with
  | some => exact trivial
  | none =>
    refine .bind ⟨trivial, fun _ => trivial⟩ fun r => ?_
    rcases r with err | _
    · cases err with
      | notFound =>
        refine .bind ⟨trivial, fun _ => trivial⟩ fun r => ?_
        cases r with
        | some => exact trivial
        | none => exact ⟨trivial, fun _ => trivial⟩
      | _ => exact trivial
    · refine .bind ⟨trivial, fun _ => trivial⟩ fun r => ?_
      cases r with
      | some => exact trivial
      | none => exact ⟨trivial, fun _ => trivial⟩

/-- A call that returns what a method returns. -/
theorem obeys_of_every {α : Type} {P : Op → Prop} {p : Code U α} (h : p.Every P) (f : α → Result) :
    (p >>= fun a => pure (f a)).Obeys (fun _ o => P o) (fun _ _ => True) [] := by
  refine Program.Every.obeys (h.bind fun a => ?_) []
  exact trivial

/-- A call performs its operations only. -/
theorem body_uses (call : Call) :
    (call.body (U := U)).Obeys (fun _ => call.Uses) (fun _ _ => True) [] := by
  cases call with
  | getSession s key limit =>
    exact (getRule_uses s key limit).getSession.bind fun _ _ _ => trivial
  | appendEvent s sess event limit =>
    exact obeys_of_every (appendEvent_uses s sess event limit) .finished
  | createSession s key state => exact obeys_of_every (createSession_uses s key state) .session
  | updateSessionState s key state =>
    exact obeys_of_every (updateSessionState_uses s key state) .finished
  | deleteSession s key => exact obeys_of_every (deleteSession_uses s key) .finished

end AgentService.Sessions
