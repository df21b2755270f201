import AieClaw.JsonRecord
import AieClaw.SessionKeys
import AieClaw.SystemRunCommand

/-!
# What an approval of `system.run` is bound to

An approval names a plan: the arguments, the text shown for them, the working directory,
the agent and the session. The plan is normalized when the approval is requested and
again when a run asks for the approval; a hash over the normalized environment entries
stands for the environment.
-/

namespace SystemRunApprovals

open SessionKeys

/-- A hash text, which is never empty. -/
abbrev Digest := { text : String // text ≠ "" }

/-- What the host and other parts of the program provide. -/
structure SystemRunHost where
  /-- `String(value)` of a value that is no string. -/
  otherText : JsonValue → String
  numberText : ℚ → String
  toLowerCase : String → String
  /-- Whether `left.localeCompare(right)` is not positive. -/
  localeAtMost : String → String → Bool
  /-- The hash over the JSON text of a list of environment entries. -/
  sha256 : List (String × String) → Digest
  commandExceedsDisplay : String → Bool
  /-- How the arguments of a shell and of its wrappers are read. -/
  shellReader : SystemRunCommand.ShellReader

namespace SystemRunHost

def stringOf (host : SystemRunHost) : JsonValue → String
  | .string text => text
  | other => host.otherText other

end SystemRunHost

/-- The codes of refusals. -/
inductive RefusalCode where
  | missingRunId
  | approvalsUnavailable
  | unknownApprovalId
  | approvalExpired
  | missingNodeId
  | approvalNodeBindingMissing
  | approvalNodeMismatch
  | approvalDeviceMismatch
  | approvalClientMismatch
  | approvalRequired
  | approvalRequestMismatch
  | approvalEnvBindingMissing
  | approvalEnvMismatch
  deriving DecidableEq

def RefusalCode.text : RefusalCode → String
  | .missingRunId => "MISSING_RUN_ID"
  | .approvalsUnavailable => "APPROVALS_UNAVAILABLE"
  | .unknownApprovalId => "UNKNOWN_APPROVAL_ID"
  | .approvalExpired => "APPROVAL_EXPIRED"
  | .missingNodeId => "MISSING_NODE_ID"
  | .approvalNodeBindingMissing => "APPROVAL_NODE_BINDING_MISSING"
  | .approvalNodeMismatch => "APPROVAL_NODE_MISMATCH"
  | .approvalDeviceMismatch => "APPROVAL_DEVICE_MISMATCH"
  | .approvalClientMismatch => "APPROVAL_CLIENT_MISMATCH"
  | .approvalRequired => "APPROVAL_REQUIRED"
  | .approvalRequestMismatch => "APPROVAL_REQUEST_MISMATCH"
  | .approvalEnvBindingMissing => "APPROVAL_ENV_BINDING_MISSING"
  | .approvalEnvMismatch => "APPROVAL_ENV_MISMATCH"

structure SystemRunApprovalFileOperand where
  argvIndex : ℕ
  path : String
  sha256 : String
  deriving DecidableEq

structure SystemRunApprovalPlan where
  argv : List String
  cwd : Option String
  commandText : String
  commandPreview : Option String
  agentId : Option String
  sessionKey : Option String
  mutableFileOperand : Option SystemRunApprovalFileOperand

def normalizeNonEmptyString (value : Option JsonValue) : Option String :=
  (value.bind JsonValue.asString?).bind normalizeOptionalString

variable (host : SystemRunHost)

def normalizeStringArray : Option JsonValue → List String
  | some (.array items) => items.map host.stringOf
  | _ => []

/-- A whole number that is not negative. -/
def asIndex? (value : Option JsonValue) : Option ℕ :=
  (value.bind JsonValue.asFinite?).bind fun number =>
    if number.den = 1 ∧ 0 ≤ number then some number.num.toNat else none

/-- The operand that a value describes; a malformed one is `some none`. -/
def normalizeSystemRunApprovalFileOperand (value : Option JsonValue) :
    Option (Option SystemRunApprovalFileOperand) :=
  value.map fun candidate =>
    if candidate.isRecord then
      (asIndex? (candidate.member? "argvIndex")).bind fun argvIndex =>
        (normalizeNonEmptyString (candidate.member? "path")).bind fun path =>
          (normalizeNonEmptyString (candidate.member? "sha256")).map fun sha256 =>
            { argvIndex, path, sha256 }
    else none

def normalizeSystemRunApprovalPlan (value : Option JsonValue) :
    Option SystemRunApprovalPlan :=
  value.bind fun candidate =>
    if candidate.isRecord then
      let argv := normalizeStringArray host (candidate.member? "argv")
      if argv = [] then none
      else
        let mutableFileOperand :=
          normalizeSystemRunApprovalFileOperand (candidate.member? "mutableFileOperand")
        if mutableFileOperand = some none then none
        else
          ((normalizeNonEmptyString (candidate.member? "commandText")).orElse fun _ =>
              normalizeNonEmptyString (candidate.member? "rawCommand")).map fun commandText =>
            { argv
              cwd := normalizeNonEmptyString (candidate.member? "cwd")
              commandText
              commandPreview := normalizeNonEmptyString (candidate.member? "commandPreview")
              agentId := normalizeNonEmptyString (candidate.member? "agentId")
              sessionKey := normalizeNonEmptyString (candidate.member? "sessionKey")
              mutableFileOperand := mutableFileOperand.join }
    else none

def nullable (text : Option String) : JsonValue := text.elim .null JsonValue.string

def SystemRunApprovalFileOperand.toJson (operand : SystemRunApprovalFileOperand) : JsonValue :=
  .object
    [("argvIndex", .number (.finite operand.argvIndex)), ("path", .string operand.path),
      ("sha256", .string operand.sha256)]

/-- A plan as the object that is stored and forwarded. -/
def SystemRunApprovalPlan.toJson (plan : SystemRunApprovalPlan) : JsonValue :=
  .object
    ([("argv", .array (plan.argv.map JsonValue.string)), ("cwd", nullable plan.cwd),
        ("commandText", .string plan.commandText),
        ("commandPreview", nullable plan.commandPreview),
        ("agentId", nullable plan.agentId), ("sessionKey", nullable plan.sessionKey)] ++
      (plan.mutableFileOperand.map fun operand => ("mutableFileOperand", operand.toJson)).toList)

def isAsciiLetter (character : Char) : Bool :=
  ('a' ≤ character && character ≤ 'z') || ('A' ≤ character && character ≤ 'Z')

/-- A letter or `_`, then letters, digits, `_` and what `also` admits. -/
def isEnvVarKey (also : Char → Bool) (key : String) : Bool :=
  match key.toList with
  | [] => false
  | first :: rest =>
    (isAsciiLetter first || first = '_') &&
      rest.all fun character =>
        isAsciiLetter character || ('0' ≤ character && character ≤ '9') ||
          character = '_' || also character

def portableEnvVarKey (key : String) : Bool := isEnvVarKey (fun _ => false) key

def windowsCompatOverrideEnvVarKey (key : String) : Bool :=
  isEnvVarKey (fun character => character = '(' || character = ')') key

def normalizeHostOverrideEnvVarKey (rawKey : String) : Option String :=
  (normalizeOptionalString rawKey).filter fun key =>
    portableEnvVarKey key || windowsCompatOverrideEnvVarKey key

/-- The entries with a text value and a valid name, sorted by name. -/
def normalizeSystemRunEnvEntries : Option JsonValue → List (String × String)
  | some (.object members) =>
    (members.filterMap fun entry =>
      entry.2.asString?.bind fun value =>
        (normalizeHostOverrideEnvVarKey entry.1).map fun key => (key, value)).insertionSort
      fun left right => host.localeAtMost left.1 right.1
  | _ => []

def hashSystemRunEnvEntries (entries : List (String × String)) :
    Option Digest :=
  if entries = [] then none else some (host.sha256 entries)

structure SystemRunApprovalBinding where
  argv : List String
  cwd : Option String
  agentId : Option String
  sessionKey : Option String
  envHash : Option Digest

structure EnvBinding where
  envHash : Option Digest
  envKeys : List String

def buildSystemRunApprovalEnvBinding (env : Option JsonValue) : EnvBinding :=
  let entries := normalizeSystemRunEnvEntries host env
  { envHash := hashSystemRunEnvEntries host entries, envKeys := entries.map Prod.fst }

def buildSystemRunApprovalBinding (argv : List String)
    (cwd agentId sessionKey : Option String) (env : Option JsonValue) :
    SystemRunApprovalBinding × List String :=
  let envBinding := buildSystemRunApprovalEnvBinding host env
  ({ argv
     cwd := cwd.bind normalizeOptionalString
     agentId := agentId.bind normalizeOptionalString
     sessionKey := sessionKey.bind normalizeOptionalString
     envHash := envBinding.envHash },
    envBinding.envKeys)

def argvMatches (expectedArgv actualArgv : List String) : Bool :=
  if expectedArgv.length = 0 || expectedArgv.length ≠ actualArgv.length then false
  else (expectedArgv.zip actualArgv).all fun pair => pair.1 = pair.2

/-- Why a binding does not match; a match has no mismatch. -/
structure Mismatch where
  code : RefusalCode
  message : String
  details : List (String × JsonValue)

def requestMismatch (details : List (String × JsonValue)) : Mismatch where
  code := .approvalRequestMismatch
  message := "approval id does not match request"
  details := details

def envKeysDetail (envKeys : List String) : String × JsonValue :=
  ("envKeys", .array (envKeys.map JsonValue.string))

def digestText (digest : Option Digest) : JsonValue := nullable (digest.map Subtype.val)

def matchSystemRunApprovalEnvHash (expectedEnvHash actualEnvHash : Option Digest)
    (actualEnvKeys : List String) : Option Mismatch :=
  let bindingMissing : Mismatch :=
    { code := .approvalEnvBindingMissing
      message := "approval id missing env binding for requested env overrides"
      details := [envKeysDetail actualEnvKeys] }
  if expectedEnvHash.isNone && actualEnvHash.isNone && 0 < actualEnvKeys.length then
    some bindingMissing
  else if expectedEnvHash.isNone && actualEnvHash.isNone then none
  else if expectedEnvHash.isNone && actualEnvHash.isSome then some bindingMissing
  else if expectedEnvHash ≠ actualEnvHash then
    some
      { code := .approvalEnvMismatch
        message := "approval id env binding mismatch"
        details :=
          [envKeysDetail actualEnvKeys, ("expectedEnvHash", digestText expectedEnvHash),
            ("actualEnvHash", digestText actualEnvHash)] }
  else none

def matchSystemRunApprovalBinding (expected actual : SystemRunApprovalBinding)
    (actualEnvKeys : List String) : Option Mismatch :=
  if !argvMatches expected.argv actual.argv then some (requestMismatch [])
  else if expected.cwd ≠ actual.cwd then some (requestMismatch [])
  else if expected.agentId ≠ actual.agentId then some (requestMismatch [])
  else if expected.sessionKey ≠ actual.sessionKey then some (requestMismatch [])
  else matchSystemRunApprovalEnvHash expected.envHash actual.envHash actualEnvKeys

/-- What a request of an approval says about the command. -/
structure ApprovalRequestContext where
  plan : Option SystemRunApprovalPlan
  commandArgv : Option (List String)
  commandText : String
  commandPreview : Option String
  cwd : Option String
  agentId : Option String
  sessionKey : Option String

def normalizeCommandPreview (value : Option String) (authoritative : String) : Option String :=
  (value.bind normalizeOptionalString).filter (· ≠ authoritative)

def resolveSystemRunApprovalRequestContext (hostName : String)
    (command : Option String) (commandArgv : List String) (systemRunPlan : Option JsonValue)
    (cwd agentId sessionKey : Option String) : ApprovalRequestContext :=
  let normalizedPlan :=
    if hostName = "node" then normalizeSystemRunApprovalPlan host systemRunPlan else none
  let fallbackCommand := command.getD ""
  let commandText := normalizedPlan.elim fallbackCommand SystemRunApprovalPlan.commandText
  let commandPreview :=
    normalizedPlan.bind fun plan =>
      normalizeCommandPreview (plan.commandPreview.orElse fun _ => some fallbackCommand) commandText
  let plan := normalizedPlan.map fun plan => { plan with commandPreview }
  { plan
    commandArgv :=
      (plan.map SystemRunApprovalPlan.argv).orElse fun _ =>
        if commandArgv = [] then none else some commandArgv
    commandText
    commandPreview
    cwd :=
      (plan.bind SystemRunApprovalPlan.cwd).orElse fun _ =>
        cwd.bind normalizeOptionalString
    agentId :=
      (plan.bind SystemRunApprovalPlan.agentId).orElse fun _ =>
        agentId.bind normalizeOptionalString
    sessionKey :=
      (plan.bind SystemRunApprovalPlan.sessionKey).orElse fun _ =>
        sessionKey.bind normalizeOptionalString }

structure ResolvedSystemRunCommand extends SystemRunCommand.SystemRunCommandDisplay where
  argv : List String

def rawCommandMismatchDetails (mismatch : SystemRunCommand.RawCommandMismatch) :
    List (String × JsonValue) :=
  [("code", .string mismatch.code), ("rawCommand", .string mismatch.rawCommand),
    ("inferred", .string mismatch.inferred), ("formattedArgv", .string mismatch.formattedArgv)]

/-- The arguments of a request without a plan, which the raw text may also spell as a preview. -/
def resolveSystemRunCommandRequest (command rawCommand : Option JsonValue) :
    Except (String × List (String × JsonValue)) ResolvedSystemRunCommand :=
  let raw := SystemRunCommand.normalizeRawCommandText <|
    match rawCommand with
    | some (.string text) => some text
    | _ => none
  let argv := normalizeStringArray host command
  if argv = [] then
    if raw.isSome then
      .error ("rawCommand requires params.command", [("code", .string "MISSING_COMMAND")])
    else .ok { argv := [], commandText := "", shellPayload := none, previewText := none }
  else
    match
      SystemRunCommand.validateSystemRunCommandConsistency host.shellReader argv raw true
    with
    | .error mismatch => .error (mismatch.message, rawCommandMismatchDetails mismatch)
    | .ok display => .ok { display with argv }

/-- What a run that asks for an approval is held to. -/
structure ApprovalRuntimeContext where
  plan : Option SystemRunApprovalPlan
  argv : List String
  cwd : Option String
  agentId : Option String
  sessionKey : Option String
  commandText : String

def resolveSystemRunApprovalRuntimeContext
    (plan command rawCommand cwd agentId sessionKey : Option JsonValue) :
    Except (String × List (String × JsonValue)) ApprovalRuntimeContext :=
  match normalizeSystemRunApprovalPlan host plan with
  | some normalizedPlan =>
    .ok
      { plan := some normalizedPlan
        argv := normalizedPlan.argv
        cwd := normalizedPlan.cwd
        agentId := normalizedPlan.agentId
        sessionKey := normalizedPlan.sessionKey
        commandText := normalizedPlan.commandText }
  | none =>
    (resolveSystemRunCommandRequest host command rawCommand).map fun resolved =>
      { plan := none
        argv := resolved.argv
        cwd := normalizeNonEmptyString cwd
        agentId := normalizeNonEmptyString agentId
        sessionKey := normalizeNonEmptyString sessionKey
        commandText := resolved.commandText }

end SystemRunApprovals
