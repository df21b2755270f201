import AieClaw.JsString
import AieClaw.OrderedMap

/-!
# The exec approvals file

The file says, for each agent, which commands may run and whether somebody is asked
first. A run reads it, and saves it again when an approver allows a command for good
or when an entry was used.
-/

namespace ExecApprovals

inductive ExecSecurity where
  | deny
  | allowlist
  | full
  deriving DecidableEq

inductive ExecAsk where
  | off
  | onMiss
  | always
  deriving DecidableEq

structure ExecAllowlistEntry where
  id : Option String
  pattern : String
  /-- The only source there is: `allow-always`. -/
  allowAlways : Bool
  commandText : Option String
  argPattern : Option String
  lastUsedAt : Option ℕ
  lastUsedCommand : Option String
  lastResolvedPath : Option String

structure ExecApprovalsDefaults where
  security : Option ExecSecurity
  ask : Option ExecAsk
  askFallback : Option ExecSecurity
  autoAllowSkills : Option Bool

structure ExecApprovalsAgent where
  policy : ExecApprovalsDefaults
  allowlist : Option (List ExecAllowlistEntry)

structure ExecApprovalsFile where
  socketPath : Option String
  token : Option String
  defaults : ExecApprovalsDefaults
  agents : OrderedMap String ExecApprovalsAgent

def emptyPolicy : ExecApprovalsDefaults where
  security := none
  ask := none
  askFallback := none
  autoAllowSkills := none

def emptyAgent : ExecApprovalsAgent where
  policy := emptyPolicy
  allowlist := none

def emptyFile : ExecApprovalsFile where
  socketPath := none
  token := none
  defaults := emptyPolicy
  agents := OrderedMap.empty

def defaultAgentId : String := "main"

/-- What the file needs from its surroundings: hashes, new ids and the clock. -/
structure ApprovalsHost where
  toLowerCase : String → String
  /-- The first digits of the SHA-256 hash of a text. -/
  digest : String → String
  newId : String → ℕ → String
  socketPath : String
  newToken : String
  now : ℕ

section File

variable (host : ApprovalsHost)

def normalizeOptionalString (value : Option String) : Option String :=
  (value.map JsString.trim).filter (· ≠ "")

def normalizeAllowlistPattern (value : String) : Option String :=
  (normalizeOptionalString (some value)).map fun trimmed =>
    JsString.trim (host.toLowerCase trimmed)

def mergeKey (entry : ExecAllowlistEntry) : Option String :=
  (normalizeAllowlistPattern host entry.pattern).map fun patternKey =>
    patternKey ++ "\x00" ++ JsString.trim (entry.argPattern.getD "")

/-- The entries with a pattern, each key once. -/
def dedupeEntries : List String → List ExecAllowlistEntry → List ExecAllowlistEntry
  | _, [] => []
  | seen, entry :: rest =>
    (mergeKey host entry).elim (dedupeEntries seen rest) fun key =>
      if key ∈ seen then dedupeEntries seen rest
      else entry :: dedupeEntries (key :: seen) rest

def mergeLegacyAgent (current legacy : ExecApprovalsAgent) : ExecApprovalsAgent where
  policy :=
    { security := current.policy.security <|> legacy.policy.security
      ask := current.policy.ask <|> legacy.policy.ask
      askFallback := current.policy.askFallback <|> legacy.policy.askFallback
      autoAllowSkills := current.policy.autoAllowSkills <|> legacy.policy.autoAllowSkills }
  allowlist :=
    (some (dedupeEntries host []
      (current.allowlist.getD [] ++ legacy.allowlist.getD []))).filter (· ≠ [])

/-- Entries without a pattern are dropped. -/
def coerceAllowlistEntries (allowlist : Option (List ExecAllowlistEntry)) :
    Option (List ExecAllowlistEntry) :=
  allowlist.bind fun entries =>
    let kept := entries.filter fun entry => decide (JsString.trim entry.pattern ≠ "")
    if kept.length = entries.length then some entries
    else (some kept).filter (· ≠ [])

def ensureAllowlistIds (agentId : String) (entries : List ExecAllowlistEntry) :
    List ExecAllowlistEntry :=
  entries.mapIdx fun index entry =>
    if entry.id.getD "" = "" then { entry with id := some (host.newId agentId index) }
    else entry

def stripAllowlistCommandText (entries : List ExecAllowlistEntry) : List ExecAllowlistEntry :=
  entries.map fun entry => { entry with commandText := none }

def normalizeAgent (agentId : String) (agent : ExecApprovalsAgent) : ExecApprovalsAgent where
  policy := agent.policy
  allowlist := (coerceAllowlistEntries agent.allowlist).map fun entries =>
    stripAllowlistCommandText (ensureAllowlistIds host agentId entries)

/-- The entries of the legacy agent `default` move to the main agent. -/
def moveLegacyAgent (agents : OrderedMap String ExecApprovalsAgent) :
    OrderedMap String ExecApprovalsAgent :=
  (agents.get? "default").elim agents fun legacyDefault =>
    (agents.set defaultAgentId
      ((agents.get? defaultAgentId).elim legacyDefault fun main =>
        mergeLegacyAgent host main legacyDefault)).delete "default"

def normalizeExecApprovals (file : ExecApprovalsFile) : ExecApprovalsFile where
  socketPath := normalizeOptionalString file.socketPath
  token := normalizeOptionalString file.token
  defaults := file.defaults
  agents := (moveLegacyAgent host file.agents).mapEntries (normalizeAgent host)

/-- A missing or unreadable file counts as an empty one. -/
def loadExecApprovals (disk : Option ExecApprovalsFile) : ExecApprovalsFile :=
  normalizeExecApprovals host (disk.getD emptyFile)

/-- The file that is saved, and handed out, whenever the approvals are read. -/
def ensureExecApprovals (disk : Option ExecApprovalsFile) : ExecApprovalsFile :=
  let next := normalizeExecApprovals host (loadExecApprovals host disk)
  { next with
    socketPath := some (next.socketPath.getD host.socketPath)
    token := some (next.token.getD host.newToken) }

/-- A file that a run holds, and whether it was saved since. -/
structure Held where
  file : ExecApprovalsFile
  saved : Bool

def agentOf (file : ExecApprovalsFile) (agentId : Option String) : ExecApprovalsAgent :=
  (file.agents.get? (agentId.getD defaultAgentId)).getD emptyAgent

/-- Save the file with another allowlist of an agent. -/
def saveAllowlist (file : ExecApprovalsFile) (agentId : Option String)
    (allowlist : List ExecAllowlistEntry) : Held where
  file :=
    { file with
      agents := file.agents.set (agentId.getD defaultAgentId)
        { policy := (agentOf file agentId).policy
          allowlist := some allowlist } }
  saved := true

def markUsed (agentId : Option String) (command : String) (resolvedPath : Option String)
    (index : ℕ) (entry : ExecAllowlistEntry) : ExecAllowlistEntry :=
  { entry with
    id := entry.id <|> some (host.newId (agentId.getD defaultAgentId) index)
    lastUsedAt := some host.now
    lastUsedCommand := some command
    lastResolvedPath := resolvedPath }

def recordAllowlistUse (held : Held) (agentId : Option String) (used : ExecAllowlistEntry)
    (command : String) (resolvedPath : Option String) : Held :=
  saveAllowlist held.file agentId
    (((agentOf held.file agentId).allowlist.getD []).mapIdx fun index item =>
      if item.pattern = used.pattern ∧ item.argPattern = used.argPattern then
        markUsed host agentId command resolvedPath index item
      else item)

def buildAllowlistEntryMatchKey (entry : ExecAllowlistEntry) : String :=
  entry.pattern ++ "\x00" ++ JsString.trim (entry.argPattern.getD "")

/-- Record each matched entry once. -/
def recordAllowlistMatchesUse (agentId : Option String) (command : String)
    (resolvedPath : Option String) : List String → List ExecAllowlistEntry → Held → Held
  | _, [], held => held
  | seen, used :: rest, held =>
    if used.pattern = "" ∨ buildAllowlistEntryMatchKey used ∈ seen then
      recordAllowlistMatchesUse agentId command resolvedPath seen rest held
    else
      recordAllowlistMatchesUse agentId command resolvedPath
        (buildAllowlistEntryMatchKey used :: seen) rest
        (recordAllowlistUse host held agentId used command resolvedPath)

/-- Add an entry that an approver allowed for good. -/
def addAllowlistEntry (held : Held) (agentId : Option String) (pattern : String)
    (argPattern : Option String) : Held :=
  let trimmed := JsString.trim pattern
  let trimmedArgPattern := normalizeOptionalString argPattern
  let allowlist := (agentOf held.file agentId).allowlist.getD []
  if trimmed = "" then held
  else
    match allowlist.find? fun entry =>
        decide (entry.pattern = trimmed ∧ entry.argPattern = trimmedArgPattern) with
    | some existing =>
      if existing.allowAlways then held
      else
        -- Every entry of the pattern is rewritten, whatever its arguments.
        saveAllowlist held.file agentId (allowlist.map fun entry =>
          if entry.pattern = trimmed then
            { entry with
              argPattern := trimmedArgPattern
              allowAlways := true
              lastUsedAt := some host.now }
          else entry)
    | none =>
      saveAllowlist held.file agentId (allowlist ++
        [{ id := some (host.newId (agentId.getD defaultAgentId) allowlist.length)
           pattern := trimmed
           allowAlways := true
           commandText := none
           argPattern := trimmedArgPattern
           lastUsedAt := some host.now
           lastUsedCommand := none
           lastResolvedPath := none }])

def buildDurableCommandApprovalPattern (commandText : String) : String :=
  "=command:" ++ host.digest commandText

def addDurableCommandApproval (held : Held) (agentId : Option String) (commandText : String) :
    Held :=
  if JsString.trim commandText = "" then held
  else
    addAllowlistEntry host held agentId
      (buildDurableCommandApprovalPattern host (JsString.trim commandText)) none

/-- Add the patterns that were worked out for a command, with their arguments. -/
def persistAllowAlwaysPatterns (held : Held) (agentId : Option String)
    (patterns : List (String × Option String)) : Held :=
  (patterns.filter fun pattern => decide (pattern.1 ≠ "")).foldl
    (fun held pattern => addAllowlistEntry host held agentId pattern.1 pattern.2) held

/-- An approver allowed a command for good. -/
def persistAllowAlways (held : Held) (agentId : Option String)
    (patterns : List (String × Option String)) (command : String) : Held :=
  if patterns = [] then addDurableCommandApproval host held agentId command
  else persistAllowAlwaysPatterns host held agentId patterns

end File

end ExecApprovals
