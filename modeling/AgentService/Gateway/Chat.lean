import AgentService.Gateway.Idempotency

/-!
# The chat endpoints

`HTTPHandler.chat` of `trpcservice/gateway/http.go`, with and without streaming. A request that
gets a claim is dispatched, and its claim ends with what the request did with the events of the
dispatch: `Complete` with the events that were collected, or `Fail`.

What the handler gets from outside is a `Request` and a `Run`: what authentication, decoding, and
the limiter answer, the events that `Dispatch` sends before it closes its channel, and in which
rounds of the loop that waits for events the context is done or a write to the client fails. A
response is what is written, so that a round also says what the client has seen.

A request is to be replayed only if it succeeded. The handler does not look at the events before it
calls `Complete`: `chat_replays_iff` says for which requests the rule holds, and
`failedAnswer_replayed` has one that failed and is replayed.
-/

namespace AgentService.Chat

open Gateway (DispatchEvent)
open Idempotency (Caller Inbound Store Begun beginKey apiCaller directMessage)
open Storage (Context CtxErr)

/-! ## Errors and responses -/

/-- An error as `mapHTTPError` classifies it: the first of the listed errors that it wraps. -/
inductive Failure where
  | canceled
  | deadlineExceeded
  | unauthenticated
  | invalid
  | rateLimited
  | duplicateMessage
  | notReady
  | closed
  | idempotencyCapacity
  | auditWriteFailed
  | execution
  | planUnavailable
  | runnerUnavailable
  | other
  deriving DecidableEq

/-- `ctx.Err()` as an error of the handler. -/
def Failure.ofCtx : CtxErr → Failure
  | .canceled => .canceled
  | .deadlineExceeded => .deadlineExceeded

/-- An error of `Begin` as an error of the handler. -/
def Failure.ofBegin : Idempotency.Err → Failure
  | .invalid => .invalid
  | .unauthenticated => .unauthenticated
  | .closed => .closed
  | .duplicateMessage => .duplicateMessage
  | .capacity => .idempotencyCapacity
  | .ctx cause => .ofCtx cause

/-- `mapHTTPError`: the status and the text for an error. -/
def mapHTTPError : Failure → ℕ × String
  | .canceled => (408, "request canceled")
  | .deadlineExceeded => (504, "request deadline exceeded")
  | .unauthenticated => (401, "unauthenticated")
  | .invalid => (400, "invalid request")
  | .rateLimited => (429, "rate limited")
  | .duplicateMessage => (409, "duplicate message")
  | .notReady | .closed => (503, "not ready")
  | .idempotencyCapacity => (503, "gateway capacity unavailable")
  | .auditWriteFailed => (502, "audit_write_failed")
  | .execution | .planUnavailable | .runnerUnavailable => (502, "execution failed")
  | .other => (500, "gateway error")

/-- `chatResponse`. -/
structure ChatResponse where
  requestID : String
  traceID : String
  text : String := ""
  status : String
  error : String := ""
  done : Bool
  deriving DecidableEq

/-- What the handler writes. -/
inductive Response where
  /-- `httpErrorResponse`, with its status. -/
  | error (status : ℕ) (message requestID traceID : String)
  /-- The final response, with status 200. -/
  | final (response : ChatResponse)
  /-- Server-sent events, with status 200. -/
  | stream (written : List DispatchEvent)
  deriving DecidableEq

/-- `writeMappedError`. -/
def writeMappedError (requestID traceID : String) (err : Failure) : Response :=
  .error (mapHTTPError err).1 (mapHTTPError err).2 requestID traceID

/-- `finalChatResponse`. -/
def finalChatResponse (requestID traceID : String) (events : List DispatchEvent) : ChatResponse :=
  events.foldl (fun response event =>
    match event.type with
    | .message => { response with text := response.text ++ event.text }
    | .status => if event.status ≠ "" then { response with status := event.status } else response
    | .error => { response with error := event.error, status := "error" }
    | .done =>
      let response := { response with done := event.done }
      if event.status ≠ "" then { response with status := event.status } else response)
    { requestID := requestID, traceID := traceID, status := "complete", done := true }

/-- `rebindDispatchEvents`. -/
def rebindDispatchEvents (events : List DispatchEvent) (requestID traceID : String) :
    List DispatchEvent :=
  events.map fun event => { event with requestID := requestID, traceID := traceID }

/-! ## The handler -/

/-- A request, with what the handler is told about it before `Begin`. -/
structure Request where
  /-- Whether the request is for the streaming endpoint. -/
  stream : Bool
  /-- Whether the method is `POST`. -/
  post : Bool := true
  /-- What `requestCorrelation` returns. -/
  requestID : String
  traceID : String
  validCorrelation : Bool := true
  /-- `Ready`. -/
  ready : Bool := true
  /-- The principal that authentication gives. -/
  authenticated : Except Failure Caller
  /-- `decodeMessage`. -/
  decoded : Except Failure Inbound
  /-- Why the limiter refuses the tenant. -/
  limited : Option Failure := none
  /-- The context of the request, with its timeout, when `Begin` looks at it. -/
  context : Context := .live

/-- What happens while a request with a claim is served. -/
structure Run where
  /-- The time that `Begin` reads. -/
  beginAt : ℤ
  /-- The time that `Complete` or `Fail` reads. -/
  endAt : ℤ
  /-- An error of `Dispatch`, no channel, or the events of its channel up to its end. -/
  dispatched : Except Failure (Option (List DispatchEvent))
  /-- `supportsFlush`. -/
  supportsFlush : Bool := true
  /-- In which rounds the loop that waits for events takes `ctx.Done()`. -/
  ctxDone : ℕ → Option CtxErr := fun _ => none
  /-- In which rounds `writeSSEEvent` fails. -/
  writeFails : ℕ → Bool := fun _ => false

/-- The checks before `Begin`, and what `Begin` is given. -/
def Request.admit (request : Request) : Except Response (Caller × Inbound) :=
  let refuse := fun err => .error (writeMappedError request.requestID request.traceID err)
  if request.post = false then .error (.error 405 "method not allowed" "" "")
  else if request.validCorrelation = false then
    .error (.error 400 "invalid request correlation" request.requestID request.traceID)
  else if request.ready = false then
    .error (.error 503 "not ready" request.requestID request.traceID)
  else
    match request.authenticated, request.decoded, request.limited with
    | .error err, _, _ => refuse err
    | .ok _, .error err, _ => refuse err
    | .ok _, .ok _, some err => refuse err
    | .ok caller, .ok inbound, none =>
      let message := inbound.message
      if message.externalMessageID = "" then
        .ok (caller, { inbound with message := { message with
          externalMessageID := request.requestID } })
      else .ok (caller, inbound)

/-- `collectHTTPEvents`, in round `i`, with the events that are still to come. -/
def collectHTTPEvents (ctxDone : ℕ → Option CtxErr) :
    List DispatchEvent → ℕ → List DispatchEvent → Except CtxErr (List DispatchEvent)
  | [], i, collected =>
    match ctxDone i with
    | some cause => .error cause
    | none => .ok collected
  | event :: events, i, collected =>
    match ctxDone i with
    | some cause => .error cause
    | none => collectHTTPEvents ctxDone events (i + 1) (collected ++ [event])

/-- The loop of `writeStream`, in round `i`, with the events that are still to come: the events that
have been written, and those that are passed to `Complete`. -/
def writeStream (ctxDone : ℕ → Option CtxErr) (writeFails : ℕ → Bool) :
    List DispatchEvent → ℕ → List DispatchEvent →
      List DispatchEvent × Option (List DispatchEvent)
  | [], i, collected =>
    if (ctxDone i).isSome then (collected, none)
    else if collected = [] then (collected, none)
    else (collected, some collected)
  | event :: events, i, collected =>
    if (ctxDone i).isSome then (collected, none)
    else if writeFails i then (collected, none)
    else if event.done then (collected ++ [event], some (collected ++ [event]))
    else writeStream ctxDone writeFails events (i + 1) (collected ++ [event])

/-- What the handler does with a claim: the response, and the events for `Complete`, without which
it calls `Fail`. -/
def serve (request : Request) (run : Run) : Response × Option (List DispatchEvent) :=
  match run.dispatched with
  | .error err => (writeMappedError request.requestID request.traceID err, none)
  | .ok none => (.error 502 "execution failed" request.requestID request.traceID, none)
  | .ok (some events) =>
    if request.stream then
      if run.supportsFlush = false then
        (.error 500 "streaming unavailable" request.requestID request.traceID, none)
      else
        let (written, completed) := writeStream run.ctxDone run.writeFails events 0 []
        (.stream written, completed)
    else
      match collectHTTPEvents run.ctxDone events 0 [] with
      | .error cause =>
        (writeMappedError request.requestID request.traceID (.ofCtx cause), none)
      | .ok events =>
        (.final (finalChatResponse request.requestID request.traceID events), some events)

/-- `writeReplayStream`, until a write fails. -/
def writeReplayStream (run : Run) (events : List DispatchEvent) : Response :=
  if run.supportsFlush = false then .error 500 "gateway error" "" ""
  else .stream (((events.zipIdx).takeWhile fun entry => !run.writeFails entry.2).map Prod.fst)

/-- The end of a claim: `Complete` with the events that were collected, or the deferred `Fail`. -/
def finishClaim (s : Store) (claim : ℕ) (now : ℤ) : Option (List DispatchEvent) → Store
  | some events => s.complete claim now events
  | none => s.fail claim now

/-- `HTTPHandler.chat`. -/
def chat (request : Request) (run : Run) (s : Store) : Response × Store :=
  match request.admit with
  | .error response => (response, s)
  | .ok (caller, inbound) =>
    match s.begin run.beginAt request.context caller inbound with
    | (.error err, s) => (writeMappedError request.requestID request.traceID (.ofBegin err), s)
    | (.ok (.replayed events), s) =>
      let replay := rebindDispatchEvents events request.requestID request.traceID
      if request.stream then (writeReplayStream run replay, s)
      else (.final (finalChatResponse request.requestID request.traceID replay), s)
    | (.ok (.claimed claim), s) =>
      let (response, completed) := serve request run
      (response, finishClaim s claim run.endAt completed)

/-! ## Which requests are replayed -/

/-- No error event, and a last event that says that the answer is complete. -/
def Success (events : List DispatchEvent) : Prop :=
  (∀ event ∈ events, event.type ≠ .error) ∧
    ∃ last, events.getLast? = some last ∧ last.type = .done ∧ last.status = "complete"

/-- The dispatch sent the events of a success. -/
def Run.Succeeds (run : Run) : Prop :=
  ∃ events, run.dispatched = .ok (some events) ∧ Success events

/-- The loop of `writeStream` reaches round `j`, and there the context is done or a write fails. -/
def StreamCut (run : Run) (events : List DispatchEvent) : Prop :=
  ∃ j, (∀ event ∈ events.take j, event.done = false) ∧
    ((j ≤ events.length ∧ run.ctxDone j ≠ none) ∨ (j < events.length ∧ run.writeFails j = true))

/-- The dispatch gave no events, or the request ended before its answer did. -/
def Cut (request : Request) (run : Run) : Prop :=
  match run.dispatched with
  | .error _ | .ok none => True
  | .ok (some events) =>
    if request.stream then run.supportsFlush = false ∨ events = [] ∨ StreamCut run events
    else ∃ j ≤ events.length, run.ctxDone j ≠ none

/-- The entry of a key is completed. -/
def Completed (s : Store) (key : String) : Prop :=
  ∃ entry, s.entries.lookup key = some entry ∧ entry.state = .completed

/-- Only successes are replayed: the entry of the request is completed only after a success, and
otherwise every later request with the same key gets a new claim. -/
def ReplaysOnlySuccess (request : Request) (run : Run) (s : Store) (key : String) : Prop :=
  (Completed (chat request run s).2 key → run.Succeeds) ∧
    (¬ Completed (chat request run s).2 key → ∀ now caller inbound,
      beginKey .live caller inbound = .ok key →
        ((chat request run s).2.begin now .live caller inbound).1 =
          .ok (.claimed (chat request run s).2.claimCount))

variable (ctxDone : ℕ → Option CtxErr)

/-- `collectHTTPEvents` collects all events, unless the context is done in one of its rounds. -/
theorem collectHTTPEvents_eq_error (events : List DispatchEvent) (i : ℕ)
    (collected : List DispatchEvent) :
    (∃ cause, collectHTTPEvents ctxDone events i collected = .error cause) ↔
      ∃ j ≤ events.length, ctxDone (i + j) ≠ none := by
  induction events generalizing i collected with
  | nil =>
    unfold collectHTTPEvents
    cases hdone : ctxDone i with
    | none => simp [hdone]
    | some => simp [hdone]
  | cons event _ ih =>
    unfold collectHTTPEvents
    cases hdone : ctxDone i with
    | some cause => exact iff_of_true ⟨cause, rfl⟩ ⟨0, Nat.zero_le _, by simp [hdone]⟩
    | none =>
      refine (ih (i + 1) (collected ++ [event])).trans ⟨?_, ?_⟩
      · rintro ⟨j, hj, hctx⟩
        exact ⟨j + 1, Nat.succ_le_succ hj, by rwa [← Nat.add_assoc, Nat.add_right_comm]⟩
      · rintro ⟨j, hj, hctx⟩
        -- round `i` was not the one
        cases j with
        | zero => exact absurd hdone hctx
        | succ j =>
          exact ⟨j, Nat.le_of_succ_le_succ hj, by rwa [Nat.add_assoc, Nat.add_comm 1]⟩

/-- `writeStream` completes the claim unless a round that it reaches goes wrong, or there is nothing
to store. -/
theorem writeStream_eq_none (writeFails : ℕ → Bool) (events : List DispatchEvent) (i : ℕ)
    (collected : List DispatchEvent) :
    (writeStream ctxDone writeFails events i collected).2 = none ↔
      (collected = [] ∧ events = []) ∨ ∃ j, (∀ event ∈ events.take j, event.done = false) ∧
        ((j ≤ events.length ∧ ctxDone (i + j) ≠ none) ∨
          (j < events.length ∧ writeFails (i + j) = true)) := by
  induction events generalizing i collected with
  | nil =>
    unfold writeStream
    cases hdone : ctxDone i <;> by_cases hempty : collected = [] <;> simp [hdone, hempty]
  | cons event events ih =>
    unfold writeStream
    by_cases hctx : (ctxDone i).isSome = true
    · rw [if_pos hctx]
      refine iff_of_true rfl (.inr ⟨0, by simp, .inl ⟨Nat.zero_le _, ?_⟩⟩)
      exact Option.isSome_iff_ne_none.1 hctx
    rw [if_neg hctx]
    by_cases hwrite : writeFails i = true
    · rw [if_pos hwrite]
      exact iff_of_true rfl (.inr ⟨0, by simp, .inr ⟨Nat.succ_pos _, hwrite⟩⟩)
    rw [if_neg hwrite]
    -- the rounds after this one, if there are any
    have hlater : ∀ j, ((j ≤ (event :: events).length ∧ ctxDone (i + j) ≠ none) ∨
        (j < (event :: events).length ∧ writeFails (i + j) = true)) →
          ∃ k, j = k + 1 ∧ ((k ≤ events.length ∧ ctxDone (i + 1 + k) ≠ none) ∨
            (k < events.length ∧ writeFails (i + 1 + k) = true)) := by
      intro j hj
      cases j with
      | zero =>
        rcases hj with ⟨-, hj⟩ | ⟨-, hj⟩
        · exact absurd (Option.isSome_iff_ne_none.2 hj) hctx
        · exact absurd hj hwrite
      | succ k =>
        rw [show i + (k + 1) = i + 1 + k by omega] at hj
        refine ⟨k, rfl, hj.imp (fun h => ⟨?_, h.2⟩) fun h => ⟨?_, h.2⟩⟩
        · exact Nat.le_of_succ_le_succ h.1
        · exact Nat.lt_of_succ_lt_succ h.1
    by_cases hdone : event.done = true
    · rw [if_pos hdone]
      refine iff_of_false nofun ?_
      rintro (⟨-, h⟩ | ⟨j, hopen, hj⟩)
      · cases h
      · obtain ⟨k, rfl, -⟩ := hlater j hj
        exact absurd (hopen event List.mem_cons_self) (by simp [hdone])
    · rw [if_neg hdone, ih]
      constructor
      · rintro (⟨h, -⟩ | ⟨k, hopen, hk⟩)
        · simp at h
        · refine .inr ⟨k + 1, fun e he => ?_, ?_⟩
          · rcases List.mem_cons.1 he with rfl | he
            · simpa using hdone
            · exact hopen e he
          · rw [show i + (k + 1) = i + 1 + k by omega]
            exact hk.imp (fun h => ⟨Nat.succ_le_succ h.1, h.2⟩) fun h => ⟨Nat.succ_lt_succ h.1, h.2⟩
      · rintro (⟨-, h⟩ | ⟨j, hopen, hj⟩)
        · cases h
        · obtain ⟨k, rfl, hk⟩ := hlater j hj
          exact .inr ⟨k, fun e he => hopen e (List.mem_cons_of_mem _ he), hk⟩

/-- The claim of a request is failed exactly if the request was cut. -/
theorem serve_eq_none (request : Request) (run : Run) :
    (serve request run).2 = none ↔ Cut request run := by
  unfold serve Cut
  cases run.dispatched with
  | error => exact iff_of_true rfl trivial
  | ok channel =>
    cases channel with
    | none => exact iff_of_true rfl trivial
    | some events =>
      dsimp only
      by_cases hstream : request.stream = true
      · rw [if_pos hstream, if_pos hstream]
        by_cases hflush : run.supportsFlush = false
        · rw [if_pos hflush]
          exact iff_of_true rfl (.inl hflush)
        · rw [if_neg hflush]
          have hloop := writeStream_eq_none run.ctxDone run.writeFails events 0 []
          simp only [Nat.zero_add, true_and] at hloop
          rw [or_iff_right hflush]
          exact hloop
      · rw [if_neg hstream, if_neg hstream]
        have hloop := collectHTTPEvents_eq_error run.ctxDone events 0 []
        simp only [Nat.zero_add] at hloop
        rw [← hloop]
        cases collectHTTPEvents run.ctxDone events 0 [] with
        | error cause => exact iff_of_true rfl ⟨cause, rfl⟩
        | ok => exact iff_of_false nofun nofun

/-- A request that got a claim leaves an entry that says how the claim ended, and the other entries
are those of a store with room for one more. -/
theorem chat_of_claimed {request : Request} {run : Run} {s : Store} {caller : Caller}
    {inbound : Inbound} {key : String} {c : ℕ} (hstarts : request.admit = .ok (caller, inbound))
    (hkey : beginKey request.context caller inbound = .ok key)
    (hclaim : (s.begin run.beginAt request.context caller inbound).1 = .ok (.claimed c)) :
    ∃ (fin : Store.End) (entry : Idempotency.Entry) (entries : Go.Map Idempotency.Entry),
      (fin = .failed ↔ (serve request run).2 = none) ∧
        (chat request run s).2.entries.lookup key = some entry ∧ entry.state = fin.state ∧
        (chat request run s).2.closed = false ∧
        entries.entries.length < (chat request run s).2.maxEntries ∧
        ∀ key' ≠ key, (chat request run s).2.entries.lookup key' = entries.lookup key' := by
  have hbegin : s.begin run.beginAt request.context caller inbound =
      s.beginLocked run.beginAt key := by
    unfold Store.begin
    rw [hkey]
  rw [hbegin] at hclaim
  obtain ⟨hopen, rfl, entries, hroom, hpost⟩ := Store.beginLocked_claimed hclaim
  have hpair : s.begin run.beginAt request.context caller inbound =
      (.ok (.claimed s.claimCount), s.claimed entries run.beginAt key) :=
    hbegin.trans (Prod.ext hclaim hpost)
  have hchat : (chat request run s).2 =
      finishClaim (s.claimed entries run.beginAt key) s.claimCount run.endAt
        (serve request run).2 := by
    unfold chat
    rw [hstarts]
    simp only [hpair]
  -- how the claim ends
  obtain ⟨fin, hfin, hfinish⟩ : ∃ fin : Store.End, (fin = .failed ↔ (serve request run).2 = none) ∧
      finishClaim (s.claimed entries run.beginAt key) s.claimCount run.endAt
        (serve request run).2 =
          (s.claimed entries run.beginAt key).finish s.claimCount run.endAt fin := by
    cases (serve request run).2 with
    | none => exact ⟨.failed, iff_of_true rfl rfl, rfl⟩
    | some events => exact ⟨.completed events, iff_of_false nofun nofun, rfl⟩
  obtain ⟨claim, hentries⟩ := Store.finish_claimed s entries run.beginAt run.endAt key fin
  rw [hchat, hfinish, hentries]
  refine ⟨fin, _, entries, hfin, AList.lookup_insert _, rfl, hopen, hroom, fun key' hne => ?_⟩
  dsimp only
  rw [AList.lookup_insert_ne hne]
  exact AList.lookup_insert_ne hne

/-- For every request that gets a claim, and whatever its dispatch sends: only successes are
replayed exactly if the request was cut or succeeded. -/
theorem chat_replays_iff (request : Request) (run : Run) (s : Store) {caller : Caller}
    {inbound : Inbound} {key : String} {c : ℕ} (hstarts : request.admit = .ok (caller, inbound))
    (hkey : beginKey request.context caller inbound = .ok key)
    (hclaim : (s.begin run.beginAt request.context caller inbound).1 = .ok (.claimed c)) :
    ReplaysOnlySuccess request run s key ↔ Cut request run ∨ run.Succeeds := by
  obtain ⟨fin, entry, entries, hfin, hentry, hstate, hopen, hroom, hothers⟩ :=
    chat_of_claimed hstarts hkey hclaim
  rw [serve_eq_none] at hfin
  have hcompleted : Completed (chat request run s).2 key ↔ ¬ Cut request run := by
    rw [← hfin]
    unfold Completed
    rw [hentry]
    cases fin with
    | completed => exact iff_of_true ⟨entry, rfl, hstate⟩ nofun
    | failed =>
      refine iff_of_false ?_ (not_not.2 rfl)
      rintro ⟨e, he, hcompleted⟩
      cases he
      rw [hstate] at hcompleted
      cases hcompleted
  unfold ReplaysOnlySuccess
  rw [hcompleted, not_not, ← or_iff_not_imp_left]
  refine and_iff_left fun hcut now caller' inbound' hkey' => ?_
  -- the claim was failed, so that the next request gets a new one
  have hfailed : entry.state = .failed := by
    rw [hstate, hfin.2 hcut]
    rfl
  unfold Store.begin
  rw [hkey']
  exact Store.beginLocked_of_failed hopen hentry hfailed hroom hothers now

/-- A request of a subject for the endpoint without streaming. -/
def helloRequest : Request :=
  { stream := false, requestID := "request", traceID := "trace"
    authenticated := .ok (apiCaller "alice")
    decoded := .ok { message := directMessage "bot" "" } }

/-- A dispatch that sends the events of one runner event. -/
def oneEvent (response : Gateway.Response) : Run :=
  { beginAt := 0, endAt := 1
    dispatched :=
      .ok (some (Gateway.mapRunnerEvent (some ⟨some response⟩) "request" "trace").1) }

/-- The key of the request. -/
def helloKey : String :=
  "3:api28:t_0000000000000000000000000030:app_000000000000000000000000005:alice" ++
    "6:direct1:u3:bot0:0:1:m"

/-- An answer that is complete is stored, as a success. -/
theorem chat_replays_answered :
    Completed (chat helloRequest (oneEvent ⟨false, [⟨"", "hi"⟩], true, false⟩)
        { ttl := 10, maxEntries := 4 }).2 helloKey ∧
      ReplaysOnlySuccess helloRequest (oneEvent ⟨false, [⟨"", "hi"⟩], true, false⟩)
        { ttl := 10, maxEntries := 4 } helloKey := by
  refine ⟨⟨_, rfl, by decide +kernel⟩, ?_⟩
  refine (chat_replays_iff helloRequest _ { ttl := 10, maxEntries := 4 } (c := 0) rfl
    (by decide +kernel) (by decide +kernel)).2 (.inr ⟨_, rfl, ?_, ?_⟩)
  · decide
  · exact ⟨_, rfl, rfl, rfl⟩

/-- An execution that failed is stored as completed, and the next request with the same key is
answered with its error. -/
theorem failedAnswer_replayed :
    ¬ ReplaysOnlySuccess helloRequest (oneEvent ⟨true, [], false, false⟩)
        { ttl := 10, maxEntries := 4 } helloKey ∧
      (chat helloRequest (oneEvent ⟨false, [⟨"", "hi"⟩], true, false⟩)
        (chat helloRequest (oneEvent ⟨true, [], false, false⟩)
          { ttl := 10, maxEntries := 4 }).2).1 =
        .final { requestID := "request", traceID := "trace", status := "error",
                 error := "execution failed", done := true } := by
  refine ⟨?_, by decide +kernel⟩
  rintro ⟨hsuccess, -⟩
  obtain ⟨events, hevents, herror, -⟩ := hsuccess ⟨_, rfl, by decide +kernel⟩
  cases hevents
  exact absurd rfl (herror _ List.mem_cons_self)

end AgentService.Chat
