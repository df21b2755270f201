import AieClaw.ExecApprovalManager
import AieClaw.TransitionSystem

/-!
# Forwarding `system.run` to a node

A caller of `node.invoke` may ask that an approval overrides the node's own rules. The
control fields of the call are dropped, and set again only on the strength of a record
that names the node, the requester and the very command.
-/

namespace SystemRunApprovals

/-- A call of `node.invoke` with the command `system.run`. -/
structure ForwardingCall where
  nodeId : Option String
  rawParams : JsonValue
  client : Option ApprovalClient
  nowMs : ℚ

structure Refusal where
  message : String
  details : List (String × JsonValue)

def systemRunApprovalGuardError (code : RefusalCode) (message : String)
    (details : List (String × JsonValue)) : Refusal where
  message := message
  details := ("code", .string code.text) :: details

def runIdDetail (runId : String) : String × JsonValue := ("runId", .string runId)

def systemRunApprovalRequired (runId : String) : Refusal :=
  systemRunApprovalGuardError .approvalRequired "approval required" [runIdDetail runId]

def toSystemRunApprovalMismatchError (runId : String) (mismatch : Mismatch) : Refusal where
  message := mismatch.message
  details :=
    mismatch.details.foldl (fun details entry => JsonValue.setMember entry.1 entry.2 details)
      [("code", .string mismatch.code.text), runIdDetail runId]

def ExecApprovalDecision.text : ExecApprovalDecision → String
  | .allowOnce => "allow-once"
  | .allowAlways => "allow-always"
  | .deny => "deny"

def normalizeApprovalDecision (value : Option JsonValue) : Option ExecApprovalDecision :=
  (normalizeNonEmptyString value).bind fun text =>
    if text = "allow-once" then some .allowOnce
    else if text = "allow-always" then some .allowAlways
    else none

def clientHasApprovals (client : Option ApprovalClient) : Bool :=
  let scopes := client.elim [] ApprovalClient.scopes
  scopes.contains "operator.admin" || scopes.contains "operator.approvals"

def isTrustedBackendApprovalClient (client : Option ApprovalClient) : Bool :=
  clientHasApprovals client &&
    client.any fun client =>
      client.clientId = some "gateway-client" && client.mode = some "backend" &&
        !client.isDeviceTokenAuth

def backendBridgeableNoDeviceRequestClientIds : List String :=
  ["openclaw-control-ui", "webchat-ui", "webchat", "gateway-client"]

variable (host : SystemRunHost)

def normalizeComparableString (value : Option JsonValue) (lowercase : Bool) :
    Option String :=
  let normalized :=
    match value.bind JsonValue.asFinite? with
    | some number => some (host.numberText number)
    | none => normalizeNonEmptyString value
  (normalized.filter (· ≠ "")).map fun text => if lowercase then host.toLowerCase text else text

def textValue (text : Option String) : Option JsonValue := text.map JsonValue.string

def matchesRequiredString (expected actual : Option JsonValue)
    (lowercase : Bool) : Bool :=
  match (normalizeComparableString host expected lowercase).filter (· ≠ "") with
  | none => false
  | some expected => normalizeComparableString host actual lowercase = some expected

def matchesOptionalString (expected actual : Option JsonValue)
    (lowercase : Bool) : Bool :=
  match (normalizeComparableString host expected lowercase).filter (· ≠ "") with
  | none => true
  | some expected => normalizeComparableString host actual lowercase = some expected

def hasChatApprovalReplayBinding (request : ExecApprovalRequestPayload) :
    Bool :=
  (normalizeComparableString host (textValue request.turnSourceChannel) true).isSome ||
    (normalizeComparableString host (textValue request.turnSourceTo) false).isSome ||
    (normalizeComparableString host (textValue request.turnSourceAccountId) false).isSome ||
    (normalizeComparableString host request.turnSourceThreadId false).isSome

def canBridgeNoDeviceApprovalFromBackend
    (snapshot : ExecApprovalRecord) (client : Option ApprovalClient) : Bool :=
  snapshot.requestedByDeviceId.isNone && !snapshot.requestedByDeviceTokenAuth &&
    !hasChatApprovalReplayBinding host snapshot.request &&
    ((snapshot.requestedByClientId.bind SessionKeys.normalizeOptionalString).any
      backendBridgeableNoDeviceRequestClientIds.contains) &&
    isTrustedBackendApprovalClient client

def canBridgeNoDeviceChatApprovalFromBackend (snapshot : ExecApprovalRecord)
    (rawParams : JsonRecord) (client : Option ApprovalClient) : Bool :=
  if snapshot.requestedByDeviceId.isSome || snapshot.requestedByDeviceTokenAuth ||
      !isTrustedBackendApprovalClient client then
    false
  else
    let request := snapshot.request
    let plan := request.systemRunPlan
    matchesRequiredString host (textValue request.turnSourceChannel)
        (rawParams.get? "turnSourceChannel") true &&
      matchesOptionalString host (textValue request.turnSourceTo)
        (rawParams.get? "turnSourceTo") false &&
      matchesRequiredString host
        (textValue
          ((plan.bind SystemRunApprovalPlan.sessionKey).orElse fun _ => request.sessionKey))
        (rawParams.get? "sessionKey") false &&
      matchesOptionalString host
        (textValue ((plan.bind SystemRunApprovalPlan.agentId).orElse fun _ => request.agentId))
        (rawParams.get? "agentId") false &&
      matchesOptionalString host (textValue request.turnSourceAccountId)
        (rawParams.get? "turnSourceAccountId") false &&
      matchesOptionalString host request.turnSourceThreadId
        (rawParams.get? "turnSourceThreadId") false

def forwardedKeys : List String :=
  ["command", "rawCommand", "systemRunPlan", "cwd", "env", "timeoutMs",
    "needsScreenRecording", "agentId", "sessionKey", "runId", "suppressNotifyOnExit"]

def pickSystemRunParams (raw : JsonRecord) : JsonRecord :=
  forwardedKeys.foldl
    (fun next key => (raw.get? key).elim next fun value => next.set key value)
    .empty

/-- Set a member to a text, or remove it when there is none. -/
def putText (next : JsonRecord) (key : String) (text : Option String) : JsonRecord :=
  match text with
  | some text => next.set key (.string text)
  | none => next.delete key

/-- The fields of a call replaced by those of the approved plan. -/
def applyPlan (next : JsonRecord) (plan : SystemRunApprovalPlan) : JsonRecord :=
  let planned :=
    (next.set "command" (.array (plan.argv.map JsonValue.string))).set "systemRunPlan" plan.toJson
  let texted := putText planned "rawCommand" (some plan.commandText)
  putText (putText (putText texted "cwd" plan.cwd) "agentId" plan.agentId) "sessionKey"
    plan.sessionKey

def approve (next : JsonRecord) (decision : ExecApprovalDecision) : JsonRecord :=
  (next.set "approved" (.bool true)).set "approvalDecision" (.string decision.text)

def isTrue (value : Option JsonValue) : Bool :=
  match value with
  | some (.bool true) => true
  | _ => false

def evaluateSystemRunApprovalMatch
    (request : ExecApprovalRequestPayload) (context : ApprovalRuntimeContext)
    (env : Option JsonValue) : Option Mismatch :=
  if request.host ≠ some "node" then some (requestMismatch [])
  else
    let actual :=
      buildSystemRunApprovalBinding host context.argv context.cwd context.agentId
        context.sessionKey env
    match request.systemRunBinding with
    | none => some (requestMismatch [envKeysDetail actual.2])
    | some expected => matchSystemRunApprovalBinding expected actual.1 actual.2

/-- A text that is there and not empty. -/
def truthyText (text : Option String) : Option String := text.filter (· ≠ "")

/-- Whether the record was requested by the device or connection that calls, or bridged. -/
def refuseRequester (snapshot : ExecApprovalRecord)
    (raw : JsonRecord) (client : Option ApprovalClient) (runId : String) : Option Refusal :=
  match truthyText snapshot.requestedByDeviceId with
  | some deviceId =>
    if client.bind ApprovalClient.deviceId ≠ some deviceId then
      some
        (systemRunApprovalGuardError .approvalDeviceMismatch
          "approval id not valid for this device" [runIdDetail runId])
    else none
  | none =>
    match truthyText snapshot.requestedByConnId with
    | none => none
    | some connId =>
      if client.bind ApprovalClient.connId ≠ some connId ∧
          !canBridgeNoDeviceApprovalFromBackend host snapshot client ∧
          !canBridgeNoDeviceChatApprovalFromBackend host snapshot raw client then
        some
          (systemRunApprovalGuardError .approvalClientMismatch
            "approval id not valid for this client" [runIdDetail runId])
      else none

/-- The checks of a record before the command is looked at. -/
def refuseRecord (snapshot : ExecApprovalRecord)
    (call : ForwardingCall) (raw : JsonRecord) (runId : String) : Option Refusal :=
  if snapshot.expiresAtMs < call.nowMs then
    some (systemRunApprovalGuardError .approvalExpired "approval expired" [runIdDetail runId])
  else
    match call.nodeId.bind SessionKeys.normalizeOptionalString with
    | none =>
      some
        (systemRunApprovalGuardError .missingNodeId "node.invoke requires nodeId"
          [runIdDetail runId])
    | some targetNodeId =>
      match snapshot.request.nodeId.bind SessionKeys.normalizeOptionalString with
      | none =>
        some
          (systemRunApprovalGuardError .approvalNodeBindingMissing
            "approval id missing node binding" [runIdDetail runId])
      | some approvalNodeId =>
        if approvalNodeId ≠ targetNodeId then
          some
            (systemRunApprovalGuardError .approvalNodeMismatch
              "approval id not valid for this node" [runIdDetail runId])
        else refuseRequester host snapshot raw call.client runId

/-- The decision of the gateway, or the fallback after a request that timed out. -/
def releaseOnDecision (snapshot : ExecApprovalRecord) (manager : ExecApprovalManager)
    (client : Option ApprovalClient) (raw next : JsonRecord) (runId : String) :
    Except Refusal JsonValue × ExecApprovalManager :=
  if snapshot.decision = some .allowOnce then
    let consumed := manager.consumeAllowOnce runId
    if consumed.1 then (.ok (approve next .allowOnce).toJson, consumed.2)
    else (.error (systemRunApprovalRequired runId), consumed.2)
  else if snapshot.decision = some .allowAlways then
    (.ok (approve next .allowAlways).toJson, manager)
  else if snapshot.resolvedAtMs.isSome ∧ snapshot.decision.isNone ∧
      snapshot.resolvedBy.isNone ∧ isTrue (raw.get? "approved") ∧
      normalizeApprovalDecision (raw.get? "approvalDecision") = some .allowOnce ∧
      clientHasApprovals client then
    (.ok (approve next .allowOnce).toJson, manager)
  else (.error (systemRunApprovalRequired runId), manager)

/-- Whether the caller asks that an approval overrides the rules of the node. -/
def wantsApprovalOverride (raw : JsonRecord) : Bool :=
  isTrue (raw.get? "approved") || (normalizeApprovalDecision (raw.get? "approvalDecision")).isSome

/-- The part of `sanitizeSystemRunParamsForForwarding` for a record that was found. -/
def forwardOnRecord (snapshot : ExecApprovalRecord)
    (manager : ExecApprovalManager) (call : ForwardingCall) (raw : JsonRecord) (runId : String) :
    Except Refusal JsonValue × ExecApprovalManager :=
  match refuseRecord host snapshot call raw runId with
  | some refusal => (.error refusal, manager)
  | none =>
    match
      resolveSystemRunApprovalRuntimeContext host
        (snapshot.request.systemRunPlan.map SystemRunApprovalPlan.toJson)
        (raw.get? "command") (raw.get? "rawCommand") (raw.get? "cwd") (raw.get? "agentId")
        (raw.get? "sessionKey")
    with
    | .error (message, details) => (.error { message, details }, manager)
    | .ok context =>
      let next := context.plan.elim (pickSystemRunParams raw) (applyPlan (pickSystemRunParams raw))
      match evaluateSystemRunApprovalMatch host snapshot.request context (raw.get? "env")
      with
      | some mismatch => (.error (toSystemRunApprovalMismatchError runId mismatch), manager)
      | none => releaseOnDecision snapshot manager call.client raw next runId

def sanitizeSystemRunParamsForForwarding
    (manager : Option ExecApprovalManager) (call : ForwardingCall) :
    Except Refusal JsonValue × Option ExecApprovalManager :=
  match JsonRecord.ofJson? call.rawParams with
  | none => (.ok call.rawParams, manager)
  | some raw =>
    if !wantsApprovalOverride raw then
      match resolveSystemRunCommandRequest host (raw.get? "command") (raw.get? "rawCommand")
      with
      | .error (message, details) => (.error { message, details }, manager)
      | .ok _ => (.ok (pickSystemRunParams raw).toJson, manager)
    else
      match normalizeNonEmptyString (raw.get? "runId") with
      | none =>
        (.error
          (systemRunApprovalGuardError .missingRunId
            "approval override requires params.runId" []), manager)
      | some runId =>
        match manager with
        | none =>
          (.error
            (systemRunApprovalGuardError .approvalsUnavailable
              "exec approvals unavailable" []), none)
        | some manager =>
          match manager.getSnapshot runId with
          | none =>
            (.error
              (systemRunApprovalGuardError .unknownApprovalId
                "unknown or expired approval id" [runIdDetail runId]), some manager)
          | some snapshot =>
            let forwarded := forwardOnRecord host snapshot manager call raw runId
            (forwarded.1, some forwarded.2)

end SystemRunApprovals
