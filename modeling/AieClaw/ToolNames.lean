import AieClaw.AsciiLowercase
import AieClaw.GlobPatterns
import AieClaw.PermissionChecker

/-!
# Tool names, tool groups and patterns

Names of tools are compared after `normalizeToolName` of
`src/agents/tool-policy-shared.ts`. Aliases are looked up in an object literal, so a name
such as `constructor` is answered with an inherited member in place of a text, and that
value is no name when it is normalized again. Groups come from
`src/agents/tool-catalog.ts`, patterns from `src/agents/glob-pattern.ts`.
-/

namespace ToolPolicies

/--
The `toLowerCase` of the host with the facts that names rely on: it leaves white space
where it is, changes nothing the second time, and keeps ASCII text without capitals.
-/
structure LowerCase where
  toLowerCase : String → String
  trim_toLowerCase : ∀ text, JsString.trim (toLowerCase text) = toLowerCase (JsString.trim text)
  toLowerCase_toLowerCase : ∀ text, toLowerCase (toLowerCase text) = toLowerCase text
  toLowerCase_of_small : ∀ text, JsString.isSmallAscii text = true → toLowerCase text = text

/-- The host's `toLowerCase` on ASCII texts. -/
def LowerCase.ascii : LowerCase where
  toLowerCase := JsString.asciiLower
  trim_toLowerCase := JsString.trim_asciiLower
  toLowerCase_toLowerCase := JsString.asciiLower_asciiLower
  toLowerCase_of_small := fun _ => JsString.asciiLower_of_isSmallAscii

structure CoreToolDefinition where
  id : String
  sectionId : String
  includeInOpenClawGroup : Bool

def CORE_TOOL_DEFINITIONS : List CoreToolDefinition :=
  [⟨"read", "fs", false⟩, ⟨"write", "fs", false⟩, ⟨"edit", "fs", false⟩,
    ⟨"apply_patch", "fs", false⟩, ⟨"exec", "runtime", false⟩,
    ⟨"process", "runtime", false⟩, ⟨"code_execution", "runtime", true⟩,
    ⟨"web_search", "web", true⟩, ⟨"web_fetch", "web", true⟩, ⟨"x_search", "web", true⟩,
    ⟨"memory_search", "memory", true⟩, ⟨"memory_get", "memory", true⟩,
    ⟨"sessions_list", "sessions", true⟩, ⟨"sessions_history", "sessions", true⟩,
    ⟨"sessions_send", "sessions", true⟩, ⟨"sessions_spawn", "sessions", true⟩,
    ⟨"sessions_yield", "sessions", true⟩, ⟨"subagents", "sessions", true⟩,
    ⟨"session_status", "sessions", true⟩, ⟨"browser", "ui", true⟩, ⟨"canvas", "ui", false⟩,
    ⟨"message", "messaging", true⟩, ⟨"heartbeat_respond", "automation", true⟩,
    ⟨"cron", "automation", true⟩, ⟨"gateway", "automation", true⟩, ⟨"nodes", "nodes", true⟩,
    ⟨"agents_list", "agents", true⟩, ⟨"update_plan", "agents", true⟩,
    ⟨"image", "media", true⟩, ⟨"image_generate", "media", true⟩,
    ⟨"music_generate", "media", true⟩, ⟨"video_generate", "media", true⟩,
    ⟨"tts", "media", true⟩]

def addToSection (sectionToolMap : OrderedMap String (List String)) (tool : CoreToolDefinition) :
    OrderedMap String (List String) :=
  let groupId := "group:" ++ tool.sectionId
  sectionToolMap.set groupId ((sectionToolMap.get? groupId).getD [] ++ [tool.id])

def buildCoreToolGroupMap : OrderedMap String (List String) :=
  let sectionToolMap := CORE_TOOL_DEFINITIONS.foldl addToSection OrderedMap.empty
  let openclawTools :=
    (CORE_TOOL_DEFINITIONS.filter fun tool => tool.includeInOpenClawGroup).map fun tool => tool.id
  sectionToolMap.entries.foldl (fun groups entry => groups.set entry.1 entry.2)
    (OrderedMap.empty.set "group:openclaw" openclawTools)

def CORE_TOOL_GROUPS : OrderedMap String (List String) := buildCoreToolGroupMap

def TOOL_GROUPS : OrderedMap String (List String) := CORE_TOOL_GROUPS

inductive ToolName where
  | text (value : String)
  | inherited (member : String)
  deriving DecidableEq

/-- The value as a text, as a regular expression is tested on it. -/
def ToolName.shown : ToolName → String
  | .text value => value
  | .inherited member =>
    if member = "__proto__" then "[object Object]"
    else
      let name := if member = "constructor" then "Object" else member
      "function " ++ name ++ "() \x7b [native code] \x7d"

/-- Whether looking a name up in an object without such an entry finds a member. -/
def isInheritedMember (name : String) : Bool := PermissionChecker.inheritedMembers.contains name

def TOOL_NAME_ALIASES : List (String × String) :=
  [("bash", "exec"), ("apply-patch", "apply_patch")]

section Names

variable (lower : LowerCase)

def normalizeLowercaseStringOrEmpty (value : String) : String :=
  SessionKeys.normalizeLowercaseStringOrEmpty lower.toLowerCase value

def normalizeToolName (name : String) : ToolName :=
  let normalized := normalizeLowercaseStringOrEmpty lower name
  match TOOL_NAME_ALIASES.lookup normalized with
  | some canonical => .text canonical
  | none =>
    if isInheritedMember normalized then .inherited normalized
    else .text normalized

/-- `normalizeToolName` of a normalized value; what is no text reads as the empty one. -/
def ToolName.normalize : ToolName → ToolName
  | .text value => normalizeToolName lower value
  | .inherited _ => .text ""

/-- The test by which normalized names are kept; only the empty text fails it. -/
def ToolName.isTruthy (name : ToolName) : Bool := name ≠ .text ""

def normalizeToolList (list : List ToolName) : List ToolName :=
  (list.map fun name => name.normalize lower).filter fun name => name.isTruthy

/-- The tools of the group with a name, or the name itself. -/
def expandToolGroup : ToolName → List ToolName
  | .text value =>
    match TOOL_GROUPS.get? value with
    | some group => group.map ToolName.text
    | none => [.text value]
  -- The member is shown as a text for the lookup, and no group has such a name.
  | .inherited member => [.inherited member]

def expandToolGroups (list : List ToolName) : List ToolName :=
  ((normalizeToolList lower list).flatMap expandToolGroup).eraseDups

inductive CompiledGlobPattern where
  | all
  | exact (value : ToolName)
  | regex (source : String)
  deriving DecidableEq

def compileGlobPattern (raw : ToolName) : CompiledGlobPattern :=
  match raw.normalize lower with
  | .text normalized =>
    if normalized = "" then .exact (.text "")
    else if normalized = "*" then .all
    else if !JsString.includes normalized '*' then .exact (.text normalized)
    else .regex normalized
  -- Lists that are compiled hold normalized names, whose normal form is a text.
  | .inherited member => .exact (.inherited member)

def compileGlobPatterns (raw : List ToolName) : List CompiledGlobPattern :=
  (raw.map (compileGlobPattern lower)).filter fun pattern => pattern ≠ .exact (.text "")

/-- A `.` of a regular expression matches every character but a line terminator. -/
def matchesDot (character : Char) : Bool := !JsString.isLineTerminator character

def CompiledGlobPattern.matches (value : ToolName) : CompiledGlobPattern → Bool
  | .all => true
  | .exact expected => value = expected
  | .regex source => GlobPatterns.test '*' matchesDot source.toList value.shown.toList

def matchesAnyGlobPattern (value : ToolName) (patterns : List CompiledGlobPattern) : Bool :=
  patterns.any fun pattern => pattern.matches value

end Names

end ToolPolicies
