import AieClaw.ExecApprovalsPolicy
import AieClaw.JsonRecord

/-!
# The exec approvals file as it is parsed

Anything may stand in a member of the parsed file: a setting outside its enumeration, a listed
entry that is a plain pattern, or something that is no entry at all. The file is put into a
normal form whenever it is loaded and once more before it is saved, and the policy of an agent
is resolved from what was parsed and from its normal form together.
-/

namespace ApprovalsFile

open ExecApprovals (ExecSecurity ExecAsk)
open JsonValue (isNullish orNullish)

/-- A member of a parsed object, which may be missing. -/
abbrev Field := Option JsonValue

structure ExecApprovalsDefaults where
  security : Field
  ask : Field
  askFallback : Field
  autoAllowSkills : Field

structure ExecApprovalsAgent extends ExecApprovalsDefaults where
  allowlist : Field

structure ExecApprovalsFile where
  socketPath : Option String
  token : Option String
  defaults : ExecApprovalsDefaults
  agents : OrderedMap String ExecApprovalsAgent

/-- An object with a pattern. -/
abbrev ExecAllowlistEntry := JsonRecord

def emptyPolicy : ExecApprovalsDefaults where
  security := none
  ask := none
  askFallback := none
  autoAllowSkills := none

def emptyAgent : ExecApprovalsAgent where
  toExecApprovalsDefaults := emptyPolicy
  allowlist := none

def emptyFile : ExecApprovalsFile where
  socketPath := none
  token := none
  defaults := emptyPolicy
  agents := OrderedMap.empty

def defaultAgentId : String := "main"

/-- What the file needs from its surroundings. -/
structure ApprovalsHost where
  toLowerCase : String → String
  toLowerCase_ne_empty : ∀ text, text ≠ "" → toLowerCase text ≠ ""
  randomUUID : String → ℕ → String
  randomUUID_ne_empty : ∀ agentId index, randomUUID agentId index ≠ ""
  generateToken : String
  resolveExecApprovalsPath : String
  resolveExecApprovalsSocketPath : String
  expandHomePrefix : String → String

section Fields

def readStringValue (value : Field) : Option String := value.bind JsonValue.asString?

def normalizeOptionalString (value : Field) : Option String :=
  ExecApprovals.normalizeOptionalString (readStringValue value)

/-- `isExecSecurity`, with the value that it lets through. -/
def execSecurity? (value : Field) : Option ExecSecurity :=
  match readStringValue value with
  | some "deny" => some .deny
  | some "allowlist" => some .allowlist
  | some "full" => some .full
  | _ => none

/-- `isExecAsk`, with the value that it lets through. -/
def execAsk? (value : Field) : Option ExecAsk :=
  match readStringValue value with
  | some "off" => some .off
  | some "on-miss" => some .onMiss
  | some "always" => some .always
  | _ => none

/-- A text without the white space around it. -/
def trimmed (value : Field) : Field :=
  (readStringValue value).map fun text => .string (JsString.trim text)

def sanitizeExecApprovalPolicy (policy : ExecApprovalsDefaults) : ExecApprovalsDefaults where
  security := (execSecurity? (trimmed policy.security)).map fun value => .string value.name
  ask := (execAsk? (trimmed policy.ask)).map fun value => .string value.name
  askFallback := (execSecurity? (trimmed policy.askFallback)).map fun value => .string value.name
  autoAllowSkills := policy.autoAllowSkills

end Fields

section Normal

variable (host : ApprovalsHost)

def normalizeLowercaseStringOrEmpty (value : Field) : String :=
  ((normalizeOptionalString value).map host.toLowerCase).getD ""

def normalizeAllowlistPattern (value : Field) : Option String :=
  (normalizeOptionalString value).map fun trimmed =>
    normalizeLowercaseStringOrEmpty host (some (.string trimmed))

/-- The key that the merge knows an item by, if it has a pattern; `none` when reading it throws. -/
def mergeKey (item : JsonValue) : Option (Option String) :=
  match item with
  | .null => none
  | item =>
    match (normalizeAllowlistPattern host (item.member? "pattern")).filter (· ≠ "") with
    | none => some none
    | some patternKey =>
      match item.member? "argPattern" with
      | none => some (some (patternKey ++ "\x00"))
      | some .null => some (some (patternKey ++ "\x00"))
      | some (.string argPattern) =>
        some (some (patternKey ++ "\x00" ++ JsString.trim argPattern))
      | some _ => none

/-- The items with a pattern, each key once; `none` when one throws. -/
def pushEntries : List String → List JsonValue → Option (List JsonValue)
  | _, [] => some []
  | seen, item :: rest =>
    (mergeKey host item).bind fun key =>
      match key with
      | none => pushEntries seen rest
      | some key =>
        if key ∈ seen then pushEntries seen rest
        else (pushEntries (key :: seen) rest).map fun pushed => item :: pushed

/-- What a loop over an allowlist runs through; `none` when it is not iterable. -/
def iterated (allowlist : Field) : Option (List JsonValue) :=
  match allowlist with
  | none => some []
  | some .null => some []
  | some (.array items) => some items
  | some (.string text) =>
    some (text.toList.map fun character => .string (String.singleton character))
  | some _ => none

/-- The merge of the legacy agent into the current one; `none` when it throws. -/
def mergeLegacyAgent (current legacy : ExecApprovalsAgent) : Option ExecApprovalsAgent :=
  (iterated current.allowlist).bind fun own =>
    (iterated legacy.allowlist).bind fun inherited =>
      (pushEntries host [] (own ++ inherited)).map fun allowlist =>
        { security := orNullish current.security legacy.security
          ask := orNullish current.ask legacy.ask
          askFallback := orNullish current.askFallback legacy.askFallback
          autoAllowSkills := orNullish current.autoAllowSkills legacy.autoAllowSkills
          allowlist := if allowlist.isEmpty then none else some (.array allowlist) }

def patternOf (entry : ExecAllowlistEntry) : Option String :=
  readStringValue (entry.get? "pattern")

/-- An item of an allowlist as an entry, unless it is dropped. -/
def coerceItem (item : JsonValue) : Option ExecAllowlistEntry :=
  match item with
  | .string text =>
    if JsString.trim text = "" then none
    else some (OrderedMap.empty.set "pattern" (.string (JsString.trim text)))
  | .object members =>
    (some (JsonRecord.ofMembers members)).filter fun entry =>
      (patternOf entry).any fun pattern => decide (JsString.trim pattern ≠ "")
  | _ => none

/-- The entries of an allowlist, which is no list any more when all of its items are dropped. -/
def coerceAllowlistEntries (allowlist : Field) : Option (List ExecAllowlistEntry) :=
  match allowlist with
  | some (.array items) =>
    let result := items.filterMap coerceItem
    if result.isEmpty && !items.isEmpty then none else some result
  | _ => none

def ensureAllowlistIds (agentId : String) (entries : List ExecAllowlistEntry) :
    List ExecAllowlistEntry :=
  entries.mapIdx fun index entry =>
    if (entry.get? "id").any JsonValue.isTruthy then entry
    else entry.set "id" (.string (host.randomUUID agentId index))

def stripAllowlistCommandText (entries : List ExecAllowlistEntry) : List ExecAllowlistEntry :=
  entries.map fun entry =>
    if (readStringValue (entry.get? "commandText")).isSome then entry.delete "commandText"
    else entry

def normalizeAgent (agentId : String) (agent : ExecApprovalsAgent) : ExecApprovalsAgent where
  toExecApprovalsDefaults := sanitizeExecApprovalPolicy agent.toExecApprovalsDefaults
  allowlist := (coerceAllowlistEntries agent.allowlist).map fun entries =>
    .array ((stripAllowlistCommandText (ensureAllowlistIds host agentId entries)).map
      JsonRecord.toJson)

/-- The legacy agent `default` moves to the main agent. -/
def moveLegacyAgent (agents : OrderedMap String ExecApprovalsAgent) :
    Option (OrderedMap String ExecApprovalsAgent) :=
  match agents.get? "default" with
  | none => some agents
  | some legacyDefault =>
    ((agents.get? defaultAgentId).elim (some legacyDefault) fun main =>
      mergeLegacyAgent host main legacyDefault).map fun merged =>
        (agents.set defaultAgentId merged).delete "default"

/-- The normal form of a file; `none` when the merge of the legacy agent throws. -/
def normalizeExecApprovals (file : ExecApprovalsFile) : Option ExecApprovalsFile :=
  (moveLegacyAgent host file.agents).map fun agents =>
    { socketPath := ExecApprovals.normalizeOptionalString file.socketPath
      token := ExecApprovals.normalizeOptionalString file.token
      defaults := sanitizeExecApprovalPolicy file.defaults
      agents := agents.mapEntries (normalizeAgent host) }

/-- A file that is missing or that throws counts as empty. -/
def loadExecApprovals (disk : Option ExecApprovalsFile) : ExecApprovalsFile :=
  (disk.bind (normalizeExecApprovals host)).getD emptyFile

/-- The file that is saved and handed out whenever the approvals are read. -/
def ensureExecApprovals (disk : Option ExecApprovalsFile) : Option ExecApprovalsFile :=
  (normalizeExecApprovals host (loadExecApprovals host disk)).map fun next =>
    { next with
      socketPath := some ((ExecApprovals.normalizeOptionalString next.socketPath).getD
        host.resolveExecApprovalsSocketPath)
      token := some ((ExecApprovals.normalizeOptionalString next.token).getD host.generateToken) }

end Normal

section Resolution

structure ExecApprovalsDefaultOverrides where
  security : Option ExecSecurity
  ask : Option ExecAsk
  askFallback : Option ExecSecurity
  autoAllowSkills : Option Bool

structure ResolvedExecPolicyField (Value : Type) where
  value : Value
  source : Option String
  deriving DecidableEq, Repr

structure ResolvedPolicy where
  security : ExecSecurity
  ask : ExecAsk
  askFallback : ExecSecurity
  autoAllowSkills : Field

structure PolicySources where
  security : Option String
  ask : Option String
  askFallback : Option String
  deriving DecidableEq, Repr

structure ExecApprovalsResolved where
  path : String
  socketPath : String
  token : String
  defaults : ResolvedPolicy
  agent : ResolvedPolicy
  agentSources : PolicySources
  allowlist : List JsonValue
  file : ExecApprovalsFile

/-- The agents that a resolution reads: of the normal form and as they were parsed. -/
structure ResolvedAgents where
  agent : ExecApprovalsAgent
  rawAgent : ExecApprovalsAgent
  wildcard : ExecApprovalsAgent
  rawWildcard : ExecApprovalsAgent
  agentKey : String

section Generic

variable {Value : Type} (read : Field → Option Value) (field : String)

/-- The value of the file's defaults for a field, or what stands in for it. -/
def resolveDefaultField (value : Field) (fallback : Value) : ResolvedExecPolicyField Value :=
  (read value).elim ⟨fallback, none⟩ fun value => ⟨value, some ("defaults." ++ field)⟩

/--
The value of an agent for a field: its own if it was given one, else that of the agent `*` if
that was given one. A value that was given but does not count falls back to the defaults.
-/
def resolveAgentField (of : ExecApprovalsDefaults → Field) (defaults : ExecApprovalsDefaults)
    (agents : ResolvedAgents) (fallback : Value) : ResolvedExecPolicyField Value :=
  let fallbackField := resolveDefaultField read field (of defaults) fallback
  if isNullish (of agents.rawAgent.toExecApprovalsDefaults) = false then
    (read (of agents.agent.toExecApprovalsDefaults)).elim fallbackField fun value =>
      ⟨value, some ("agents." ++ agents.agentKey ++ "." ++ field)⟩
  else if isNullish (of agents.rawWildcard.toExecApprovalsDefaults) = false then
    (read (of agents.wildcard.toExecApprovalsDefaults)).elim fallbackField fun value =>
      ⟨value, some ("agents.*." ++ field)⟩
  else fallbackField

end Generic

/-- The fields of one kind that the resolution reads alike. -/
inductive SecurityField where
  | security
  | askFallback
  deriving DecidableEq, Repr

def SecurityField.name : SecurityField → String
  | .security => "security"
  | .askFallback => "askFallback"

def SecurityField.of : SecurityField → ExecApprovalsDefaults → Field
  | .security => ExecApprovalsDefaults.security
  | .askFallback => ExecApprovalsDefaults.askFallback

def resolveAgentSecurityField (field : SecurityField) (defaults : ExecApprovalsDefaults)
    (agents : ResolvedAgents) (fallback : ExecSecurity) : ResolvedExecPolicyField ExecSecurity :=
  resolveAgentField execSecurity? field.name field.of defaults agents fallback

def resolveAgentAskField (defaults : ExecApprovalsDefaults) (agents : ResolvedAgents)
    (fallback : ExecAsk) : ResolvedExecPolicyField ExecAsk :=
  resolveAgentField execAsk? "ask" ExecApprovalsDefaults.ask defaults agents fallback

def agentOf (file : ExecApprovalsFile) (agentKey : String) : ExecApprovalsAgent :=
  (file.agents.get? agentKey).getD emptyAgent

/-- The items of a value that is an array. -/
def arrayItems (allowlist : Field) : List JsonValue :=
  match allowlist with
  | some (.array items) => items
  | _ => []

/-- The policy of the file's defaults and of what the caller asked for. -/
def resolveDefaults (defaults : ExecApprovalsDefaults) (overrides : ExecApprovalsDefaultOverrides) :
    ResolvedPolicy :=
  let fallbackAskFallback := overrides.askFallback.getD .full
  { security := (execSecurity? defaults.security).getD (overrides.security.getD .full)
    ask := (execAsk? defaults.ask).getD (overrides.ask.getD .off)
    askFallback :=
      (execSecurity? (orNullish defaults.askFallback
        (some (.string fallbackAskFallback.name)))).getD fallbackAskFallback
    autoAllowSkills :=
      orNullish defaults.autoAllowSkills
        (some (.bool (overrides.autoAllowSkills.getD false))) }

variable (host : ApprovalsHost)

def resolveExecApprovalsFromFile (rawFile : ExecApprovalsFile) (agentId : Option String)
    (overrides : ExecApprovalsDefaultOverrides) (path socketPath token : Option String) :
    Option ExecApprovalsResolved :=
  (normalizeExecApprovals host rawFile).map fun file =>
    let agentKey := agentId.getD defaultAgentId
    let agents : ResolvedAgents :=
      { agent := agentOf file agentKey
        rawAgent := agentOf rawFile agentKey
        wildcard := agentOf file "*"
        rawWildcard := agentOf rawFile "*"
        agentKey := agentKey }
    let defaults := resolveDefaults file.defaults overrides
    let security := resolveAgentSecurityField .security file.defaults agents defaults.security
    let ask := resolveAgentAskField file.defaults agents defaults.ask
    let askFallback :=
      resolveAgentSecurityField .askFallback file.defaults agents defaults.askFallback
    { path := path.getD host.resolveExecApprovalsPath
      socketPath := host.expandHomePrefix
        ((socketPath <|> file.socketPath).getD host.resolveExecApprovalsSocketPath)
      token := (token <|> file.token).getD ""
      defaults := defaults
      agent :=
        { security := security.value
          ask := ask.value
          askFallback := askFallback.value
          autoAllowSkills :=
            orNullish agents.agent.autoAllowSkills
              (orNullish agents.wildcard.autoAllowSkills defaults.autoAllowSkills) }
      agentSources :=
        { security := security.source
          ask := ask.source
          askFallback := askFallback.source }
      allowlist := arrayItems agents.wildcard.allowlist ++ arrayItems agents.agent.allowlist
      file := file }

end Resolution

section Purpose

variable (host : ApprovalsHost)

/-- The pattern that an item of an allowlist writes, as a text or in an entry. -/
def writtenPattern (item : JsonValue) : Option String :=
  (match item with
  | .string text => some text
  | item => readStringValue (item.member? "pattern")).filter fun pattern =>
    decide (JsString.trim pattern ≠ "")

def writtenPatterns (allowlist : Field) : List String :=
  (arrayItems allowlist).filterMap writtenPattern

/-- Patterns that differ in the case of letters and in white space around them at most. -/
def SamePattern (left right : String) : Prop :=
  normalizeAllowlistPattern host (some (.string left)) =
    normalizeAllowlistPattern host (some (.string right))

/-- The patterns of an agent; those of the legacy agent are the main agent's. -/
def listedFor (file : ExecApprovalsFile) (agentKey : String) : List String :=
  writtenPatterns (agentOf file agentKey).allowlist ++
    if agentKey = defaultAgentId then writtenPatterns (agentOf file "default").allowlist else []

/--
A file and its normal form give an agent the same policy: the normal form is its own normal
form, whatever ids are handed out; both resolve alike; and what was listed is still listed.
-/
def KeepsPolicy (file : ExecApprovalsFile) (agentId : Option String)
    (overrides : ExecApprovalsDefaultOverrides) (path socketPath token : Option String) : Prop :=
  ∃ normal resolved again,
    normalizeExecApprovals host file = some normal ∧
    (∀ other : ApprovalsHost, normalizeExecApprovals other normal = some normal) ∧
    resolveExecApprovalsFromFile host file agentId overrides path socketPath token =
      some resolved ∧
    resolveExecApprovalsFromFile host normal agentId overrides path socketPath token =
      some again ∧
    again.agent = resolved.agent ∧
    again.allowlist.map (JsonValue.member? "pattern") =
      resolved.allowlist.map (JsonValue.member? "pattern") ∧
    ∀ pattern ∈ listedFor file (agentId.getD defaultAgentId),
      ∃ kept ∈ resolved.allowlist.filterMap writtenPattern, SamePattern host pattern kept

/-- The main agent and the legacy one are both in the file, so that they are merged. -/
def Merges (file : ExecApprovalsFile) : Prop :=
  (file.agents.get? defaultAgentId).isSome = true ∧ (file.agents.get? "default").isSome = true

/-- What the merge runs through. -/
def mergedItems (file : ExecApprovalsFile) : List JsonValue :=
  (iterated (agentOf file defaultAgentId).allowlist).getD [] ++
    (iterated (agentOf file "default").allowlist).getD []

/-- Reading an item in the merge does not throw. -/
def Mergeable (item : JsonValue) : Prop :=
  isNullish (some item) = false ∧
    ((normalizeOptionalString (item.member? "pattern")).isSome = true →
      isNullish (item.member? "argPattern") = true ∨
        (readStringValue (item.member? "argPattern")).isSome = true)

/-- An entry with a pattern, the first one that the merge gives its key. -/
def FirstOfKey (items : List JsonValue) (item : JsonValue) : Prop :=
  ∃ before after key, items = before ++ item :: after ∧ mergeKey host item = some (some key) ∧
    ∀ earlier ∈ before, mergeKey host earlier ≠ some (some key)

/-- What an agent is given for a setting; the legacy agent's settings are the main agent's. -/
def givenTo (file : ExecApprovalsFile) (of : ExecApprovalsDefaults → Field) (agentKey : String) :
    Field :=
  if agentKey = "default" then none
  else
    orNullish (of (agentOf file agentKey).toExecApprovalsDefaults)
      (if agentKey = defaultAgentId then of (agentOf file "default").toExecApprovalsDefaults
       else none)

/--
A setting counts alike before and after. If the agent itself has it and it does not count, it
hides no other value of the agent `*`; if the agent only has it from the legacy agent, it is
what the agent would have without it.
-/
def SettingKept {Value : Type} (read : Field → Option Value)
    (of : ExecApprovalsDefaults → Field) (file : ExecApprovalsFile) (agentKey : String)
    (fallback : Value) : Prop :=
  let given := read (trimmed (givenTo file of agentKey))
  let wildcard := read (trimmed (of (agentOf file "*").toExecApprovalsDefaults))
  if isNullish (of (agentOf file agentKey).toExecApprovalsDefaults) then
    ∀ value, given = some value → value = wildcard.getD fallback
  else given = none → wildcard.getD fallback = fallback

/-- What a file must be like for its normal form to give an agent the same policy. -/
structure Unambiguous (file : ExecApprovalsFile) (agentKey : String)
    (overrides : ExecApprovalsDefaultOverrides) : Prop where
  /-- The merge of the legacy agent does not throw. -/
  mergeable : Merges file →
    (iterated (agentOf file defaultAgentId).allowlist).isSome = true ∧
      (iterated (agentOf file "default").allowlist).isSome = true ∧
        ∀ item ∈ mergedItems file, Mergeable item
  security : SettingKept execSecurity? ExecApprovalsDefaults.security file agentKey
    (resolveDefaults (sanitizeExecApprovalPolicy file.defaults) overrides).security
  ask : SettingKept execAsk? ExecApprovalsDefaults.ask file agentKey
    (resolveDefaults (sanitizeExecApprovalPolicy file.defaults) overrides).ask
  askFallback : SettingKept execSecurity? ExecApprovalsDefaults.askFallback file agentKey
    (resolveDefaults (sanitizeExecApprovalPolicy file.defaults) overrides).askFallback
  /-- The patterns of an agent under the legacy name are those of the agent `*` as well. -/
  legacyPatterns : agentKey = "default" →
    ∀ pattern ∈ writtenPatterns (agentOf file "default").allowlist,
      ∃ kept ∈ writtenPatterns (agentOf file "*").allowlist, SamePattern host pattern kept
  /-- A pattern that the merge leaves out, such as a plain text, is in an entry that it keeps
  or a pattern of the agent `*`. -/
  mergedPatterns : agentKey = defaultAgentId → Merges file →
    ∀ item ∈ arrayItems (agentOf file defaultAgentId).allowlist ++
        arrayItems (agentOf file "default").allowlist,
      ∀ pattern, writtenPattern item = some pattern → ¬ FirstOfKey host (mergedItems file) item →
        (∃ kept ∈ writtenPatterns (agentOf file "*").allowlist, SamePattern host pattern kept) ∨
          ∃ other kept, FirstOfKey host (mergedItems file) other ∧
            writtenPattern other = some kept ∧ SamePattern host pattern kept

end Purpose

end ApprovalsFile
