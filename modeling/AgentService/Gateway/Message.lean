import AgentService.Audit.Store

/-!
# Requests, runner events, and dispatch events

The data of `trpcservice/gateway/dispatch.go` and `gateway.go` that the execution path reads, and
its pure functions: the durable destination of a reply and the translation of runner events into
dispatch events. A runner event comes from the agent library; the fields here are the ones that
`mapRunnerEvent` and `responseText` read.
-/

namespace AgentService.Gateway

open Storage (ReplyTarget CtxErr validateReplyTarget)

/-- The errors of the gateway. -/
inductive Err where
  | invalid
  | unauthenticated
  | planUnavailable
  | notReady
  | duplicateMessage
  | runnerUnavailable
  | execution
  | executionCanceled
  /-- `auditWriteFailure()`: `ErrExecution` joined with `ErrAuditWriteFailed`. -/
  | auditWriteFailed
  /-- A failure of the runtime store, passed on as it is. -/
  | storage (cause : Storage.Err)
  /-- A failure of the audit writer, passed on as it is. -/
  | audit (cause : Audit.Err)
  /-- `ErrMaterialization`, joined with the stable class of its cause. -/
  | materialization (cause : Option Storage.Err)
  /-- `ctx.Err()`. -/
  | ctx (cause : CtxErr)
  deriving DecidableEq

/-- `IsContextCancellation`. -/
def isContextCancellation : Err → Bool
  | .ctx _ | .storage (.ctx _) | .audit (.ctx _) | .materialization (some (.ctx _)) => true
  | _ => false

/-- `PrincipalKind`. -/
inductive PrincipalKind where
  | api
  | channel
  deriving DecidableEq

/-- The text of a principal kind. -/
def PrincipalKind.text : PrincipalKind → String
  | .api => "api"
  | .channel => "channel"

/-- The parts of `channels.RoutingTarget` that the dispatcher reads. -/
structure RoutingTarget where
  bindingID : String
  channel : String
  deriving DecidableEq

/-- `Principal`. -/
structure Principal where
  kind : PrincipalKind
  tenantID : String
  appID : String
  subjectID : String
  target : RoutingTarget
  deriving DecidableEq

/-- `Principal.RoutingTarget`. -/
def Principal.routingTarget (p : Principal) : Option RoutingTarget :=
  if p.kind = .channel then some p.target else none

/-- `channels.ConversationKind`, with `other` for a string outside the contract. -/
inductive ConversationKind where
  | direct
  | group
  | other (value : String)
  deriving DecidableEq

/-- The text of a conversation kind. -/
def ConversationKind.text : ConversationKind → String
  | .direct => "direct"
  | .group => "group"
  | .other value => value

/-- The parts of a normalized `InboundMessage` that the dispatcher reads after the runner identity
is known. -/
structure InboundMessage where
  content : String
  externalMessageID : String
  externalUserID : String
  conversationKind : ConversationKind
  externalPeerID : String
  externalChatID : String
  externalThreadID : String
  deriving DecidableEq

/-- `tenant.RunnerIdentity`. -/
structure RunnerIdentity where
  userID : String
  sessionID : String
  deriving DecidableEq

/-- `replyTarget`: where the reply to a message goes. -/
def replyTarget (target : RoutingTarget) (message : InboundMessage) : Except Err ReplyTarget :=
  let reply : ReplyTarget :=
    { bindingID := target.bindingID, conversationKind := message.conversationKind.text,
      threadID := message.externalThreadID }
  let receiver : Except Err String :=
    match message.conversationKind with
    | .direct => .ok message.externalPeerID
    | .group => .ok message.externalChatID
    | .other _ => .error .invalid
  match receiver with
  | .error err => .error err
  | .ok receiverID =>
    let reply := { reply with receiverID := receiverID }
    if validateReplyTarget reply ≠ none then .error .invalid else .ok reply

/-! ## Runner events -/

/-- One choice of a model response: the streamed piece and the whole message. -/
structure ResponseChoice where
  deltaContent : String
  messageContent : String
  deriving DecidableEq

/-- The parts of a model response that the dispatcher reads. -/
structure Response where
  /-- Whether the response carries an error. -/
  failed : Bool
  choices : List ResponseChoice
  done : Bool
  isPartial : Bool
  deriving DecidableEq

/-- A runner event, whose response may be missing. -/
structure RunnerEvent where
  response : Option Response
  deriving DecidableEq

/-- `DispatchEventType`. -/
inductive DispatchEventType where
  | message
  | status
  | error
  | done
  deriving DecidableEq

/-- `DispatchEvent`. -/
structure DispatchEvent where
  type : DispatchEventType
  requestID : String
  traceID : String
  text : String := ""
  status : String := ""
  error : String := ""
  done : Bool := false
  deriving DecidableEq

/-- `responseText`: the texts of the choices, in order. -/
def responseText (response : Response) : String :=
  response.choices.foldl (fun builder choice =>
    let text := if choice.deltaContent = "" then choice.messageContent else choice.deltaContent
    if text ≠ "" then builder ++ text else builder) ""

/-- `mapRunnerEvent`: the dispatch events of a runner event, and whether it is the last one. -/
def mapRunnerEvent (event : Option RunnerEvent) (requestID traceID : String) :
    List DispatchEvent × Bool :=
  match event.bind RunnerEvent.response with
  | none => ([{ type := .status, requestID, traceID, status := "progress" }], false)
  | some response =>
    if response.failed then
      ([{ type := .error, requestID, traceID, error := "execution failed" },
        { type := .done, requestID, traceID, status := "error", done := true }], true)
    else
      let text := responseText response
      let result : List DispatchEvent :=
        if text ≠ "" then [{ type := .message, requestID, traceID, text := text }] else []
      if response.done then
        (result ++ [{ type := .done, requestID, traceID, status := "complete", done := true }],
          true)
      else if result = [] then
        let status := if response.isPartial then "partial" else "progress"
        ([{ type := .status, requestID, traceID, status := status }], false)
      else (result, false)

end AgentService.Gateway
