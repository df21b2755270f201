import AieClaw.ToolNames

/-!
# The tool policy pipeline

Policies of `src/agents/tool-policy.ts`, the matcher of `tool-policy-match.ts` and the
pipeline of `tool-policy-pipeline.ts`. A step of the pipeline replaces the plugin entries
of its policy by the tools of the plugins and then filters the tools; the groups of plugin
tools are built once, from all tools that enter the pipeline.
-/

namespace ToolPolicies

/-- A tool by its name, with the plugin it belongs to. -/
structure Tool where
  name : String
  pluginId : Option String
  deriving DecidableEq

/-- A policy whose entries are configured texts or normalized names. -/
structure ToolPolicyLike (Entry : Type) where
  allow : Option (List Entry)
  deny : Option (List Entry)
  deriving DecidableEq

structure PluginToolGroups where
  all : List ToolName
  byPlugin : OrderedMap String (List ToolName)

def DEFAULT_PLUGIN_TOOLS_ALLOWLIST_ENTRY : String := "__openclaw_default_plugin_tools__"

section Pipeline

variable (lower : LowerCase)

def hasRestrictiveAllowPolicy (policy : Option (ToolPolicyLike String)) : Bool :=
  ((policy.bind fun given => given.allow).getD []).any fun entry =>
    let normalized := normalizeToolName lower entry
    normalized.isTruthy && decide (normalized ≠ .text "*") &&
      decide (normalized ≠ .text DEFAULT_PLUGIN_TOOLS_ALLOWLIST_ENTRY)

def addPluginTool (groups : PluginToolGroups) (tool : Tool) : PluginToolGroups :=
  match tool.pluginId with
  | none => groups
  | some id =>
    let name := normalizeToolName lower tool.name
    let all := groups.all ++ [name]
    let pluginId := normalizeLowercaseStringOrEmpty lower id
    if pluginId = "" then { groups with all := all }
    else
      let list := (groups.byPlugin.get? pluginId).getD []
      { all := all, byPlugin := groups.byPlugin.set pluginId (list ++ [name]) }

def buildPluginToolGroups (tools : List Tool) : PluginToolGroups :=
  tools.foldl (addPluginTool lower) { all := [], byPlugin := OrderedMap.empty }

/-- The tools listed under a plugin id; an inherited member is no id. -/
def PluginToolGroups.toolsOf (groups : PluginToolGroups) : ToolName → List ToolName
  | .text id => (groups.byPlugin.get? id).getD []
  | .inherited _ => []

def expandPluginGroup (groups : PluginToolGroups) (entry : String) : List ToolName :=
  let normalized := normalizeToolName lower entry
  if normalized = .text "group:plugins" then if groups.all ≠ [] then groups.all else [normalized]
  else
    let tools := groups.toolsOf normalized
    if tools ≠ [] then tools else [normalized]

def expandPluginGroups (list : Option (List String)) (groups : PluginToolGroups) :
    Option (List ToolName) :=
  list.map fun entries => (entries.flatMap (expandPluginGroup lower groups)).eraseDups

def expandPolicyWithPluginGroups (policy : ToolPolicyLike String) (groups : PluginToolGroups) :
    ToolPolicyLike ToolName where
  allow := expandPluginGroups lower policy.allow groups
  deny := expandPluginGroups lower policy.deny groups

structure AllowlistResolution where
  policy : ToolPolicyLike String
  unknownAllowlist : List ToolName
  pluginOnlyAllowlist : Bool

def isPluginEntry (groups : PluginToolGroups) (entry : ToolName) : Bool :=
  decide (entry = .text "group:plugins") ||
    groups.byPlugin.keys.any (fun id => decide (entry = .text id)) || groups.all.contains entry

def analyzeAllowlistByToolType (policy : ToolPolicyLike String) (groups : PluginToolGroups)
    (coreTools : List ToolName) : AllowlistResolution :=
  let normalized := normalizeToolList lower ((policy.allow.getD []).map ToolName.text)
  if normalized = [] then
    { policy := policy, unknownAllowlist := [], pluginOnlyAllowlist := false }
  else
    let isCoreEntry := fun entry =>
      (expandToolGroups lower [entry]).any fun tool => coreTools.contains tool
    { policy := policy
      unknownAllowlist :=
        (normalized.filter fun entry =>
          decide (entry ≠ .text "*") && !isCoreEntry entry && !isPluginEntry groups entry).eraseDups
      pluginOnlyAllowlist :=
        normalized.all fun entry => decide (entry ≠ .text "*") && isPluginEntry groups entry }

def mergeAlsoAllowPolicy (policy : Option (ToolPolicyLike String)) (alsoAllow : List String) :
    Option (ToolPolicyLike String) :=
  policy.map fun given =>
    if alsoAllow = [] then given
    else
      { given with
        allow := given.allow.map fun allow => (allow ++ alsoAllow).eraseDups }

def isToolAllowedByPolicyName (name : String) (policy : ToolPolicyLike ToolName) : Bool :=
  let deny := compileGlobPatterns lower (expandToolGroups lower (policy.deny.getD []))
  let allow := compileGlobPatterns lower (expandToolGroups lower (policy.allow.getD []))
  let normalized := normalizeToolName lower name
  if matchesAnyGlobPattern normalized deny then false
  else if allow = [] then true
  else if matchesAnyGlobPattern normalized allow then true
  else decide (normalized = .text "apply_patch") && matchesAnyGlobPattern (.text "write") allow

def filterToolsByPolicy (tools : List Tool) (policy : ToolPolicyLike ToolName) : List Tool :=
  tools.filter fun tool => isToolAllowedByPolicyName lower tool.name policy

structure ToolPolicyPipelineStep where
  policy : Option (ToolPolicyLike String)
  stripPluginOnlyAllowlist : Bool

/-- The names of the tools that belong to no plugin. -/
def coreToolNames (tools : List Tool) : List ToolName :=
  ((tools.filter fun tool => tool.pluginId.isNone).map fun tool =>
    normalizeToolName lower tool.name).filter fun name => name.isTruthy

/-- One step of the pipeline; its analysis of the allow list serves warnings only. -/
def applyStep (pluginGroups : PluginToolGroups) (coreTools : List ToolName)
    (filtered : List Tool) (step : ToolPolicyPipelineStep) : List Tool :=
  match step.policy with
  | none => filtered
  | some given =>
    let policy :=
      if step.stripPluginOnlyAllowlist then
        (analyzeAllowlistByToolType lower given pluginGroups coreTools).policy
      else given
    filterToolsByPolicy lower filtered (expandPolicyWithPluginGroups lower policy pluginGroups)

def applyToolPolicyPipeline (tools : List Tool) (steps : List ToolPolicyPipelineStep) : List Tool :=
  steps.foldl
    (applyStep lower (buildPluginToolGroups lower tools) (coreToolNames lower tools)) tools

end Pipeline

end ToolPolicies
