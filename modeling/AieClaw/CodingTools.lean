import AieClaw.ToolPolicyPipeline

/-!
# The tools of a run

The filters, the policy pipeline and the injection of `createOpenClawCodingTools` in
`src/agents/pi-tools.ts`. The tools that were built for the run, the policies that were
resolved for it and the tools that the AIEMAS integration injects are given. What happens
to the returned tools afterwards (schemas, hooks, abort signals, descriptions) keeps their
names.
-/

namespace ToolPolicies

/-- The policies resolved for a run. -/
structure RunPolicies where
  profilePolicy : Option (ToolPolicyLike String)
  providerProfilePolicy : Option (ToolPolicyLike String)
  globalPolicy : Option (ToolPolicyLike String)
  globalProviderPolicy : Option (ToolPolicyLike String)
  agentPolicy : Option (ToolPolicyLike String)
  agentProviderPolicy : Option (ToolPolicyLike String)
  groupPolicy : Option (ToolPolicyLike String)
  senderPolicy : Option (ToolPolicyLike String)
  sandboxToolPolicy : Option (ToolPolicyLike String)
  subagentPolicy : Option (ToolPolicyLike String)
  inheritedToolPolicy : Option (ToolPolicyLike String)
  profileAlsoAllow : List String
  providerProfileAlsoAllow : List String

/-- The options of a run that decide about its tools. -/
structure RunOptions where
  forceMessageTool : Bool
  /-- The replies to the source are sent by the message tool only. -/
  messageToolOnly : Bool
  enableHeartbeatTool : Bool
  forceHeartbeatTool : Bool
  /-- A heartbeat started the run and visible replies go through the message tool. -/
  heartbeatReplies : Bool
  toolSearchControlsEnabled : Bool
  runtimeToolAllowlist : Option (List String)
  /-- The run flushes memory to a path, and has a path. -/
  memoryFlush : Bool
  messageProvider : Option String
  localModelLean : Bool
  suppressManagedWebSearch : Bool

/-- What a run is given. -/
structure ToolRun where
  policies : RunPolicies
  options : RunOptions
  /-- The base, shell, channel, plugin and search tools that were built. -/
  tools : List Tool
  /-- What the AIEMAS integration returns; nothing when it is absent or fails. -/
  injected : List Tool

def MEMORY_FLUSH_ALLOWED_TOOL_NAMES : List String := ["read", "write"]

def TOOL_DENY_BY_MESSAGE_PROVIDER : List (String × List String) :=
  [("discord-voice", ["tts"]), ("voice", ["tts"])]

def TOOL_ALLOW_BY_MESSAGE_PROVIDER : List (String × List String) :=
  [("node", ["canvas", "image", "pdf", "tts", "web_fetch", "web_search"])]

def LOCAL_MODEL_LEAN_DENY_TOOL_NAMES : List String := ["browser", "cron", "message"]

def TOOL_SEARCH_CONTROLS : List String :=
  ["tool_search_code", "tool_search", "tool_describe", "tool_call"]

section Tools

variable (lower : LowerCase)

/-- Whether the message provider leaves a tool of the given name. -/
def keepsForMessageProvider (messageProvider : Option String) (toolName : String) : Bool :=
  let normalizedProvider := normalizeLowercaseStringOrEmpty lower (messageProvider.getD "")
  match TOOL_ALLOW_BY_MESSAGE_PROVIDER.lookup normalizedProvider with
  | some allowedTools => allowedTools.contains toolName
  | none =>
    match TOOL_DENY_BY_MESSAGE_PROVIDER.lookup normalizedProvider with
    | some deniedTools => !deniedTools.contains toolName
    | none => true

def filterToolsByMessageProvider (tools : List Tool) (messageProvider : Option String) :
    List Tool :=
  tools.filter fun tool => keepsForMessageProvider lower messageProvider tool.name

def applyModelProviderToolPolicy (tools : List Tool) (options : RunOptions) : List Tool :=
  let tools :=
    if options.localModelLean then
      tools.filter fun tool => !LOCAL_MODEL_LEAN_DENY_TOOL_NAMES.contains tool.name
    else tools
  if options.suppressManagedWebSearch then tools.filter fun tool => tool.name ≠ "web_search"
  else tools

def toolsForMemoryFlush (tools : List Tool) (options : RunOptions) : List Tool :=
  if options.memoryFlush then
    tools.filter fun tool => MEMORY_FLUSH_ALLOWED_TOOL_NAMES.contains tool.name
  else tools

/-- The tools that enter the policy pipeline. -/
def ToolRun.toolsForModelProvider (run : ToolRun) : List Tool :=
  applyModelProviderToolPolicy
    (filterToolsByMessageProvider lower (toolsForMemoryFlush run.tools run.options)
      run.options.messageProvider)
    run.options

def RunOptions.toolSearchControlAllowlist (options : RunOptions) : List String :=
  if options.toolSearchControlsEnabled then TOOL_SEARCH_CONTROLS else []

def RunOptions.runtimeToolAllowlistIncludesMessage (options : RunOptions) : Bool :=
  (expandToolGroups lower ((options.runtimeToolAllowlist.getD []).map ToolName.text)).any
    fun toolName =>
      let normalized := toolName.normalize lower
      decide (normalized = .text "*") || decide (normalized = .text "message")

def RunOptions.runtimeProfileAlsoAllow (options : RunOptions) : List String :=
  (if options.forceMessageTool || options.messageToolOnly then ["message"] else []) ++
    (if options.runtimeToolAllowlistIncludesMessage lower then ["message"] else []) ++
    (if options.forceHeartbeatTool || options.enableHeartbeatTool || options.heartbeatReplies
      then ["heartbeat_respond"] else []) ++
    options.toolSearchControlAllowlist

/-- A policy with the tool-search controls added to its allow list. -/
def ToolRun.withToolSearchControls (run : ToolRun) (policy : Option (ToolPolicyLike String)) :
    Option (ToolPolicyLike String) :=
  mergeAlsoAllowPolicy policy run.options.toolSearchControlAllowlist

def buildDefaultToolPolicyPipelineSteps (policies : List (Option (ToolPolicyLike String))) :
    List ToolPolicyPipelineStep :=
  policies.map fun policy => { policy := policy, stripPluginOnlyAllowlist := true }

def ToolRun.steps (run : ToolRun) : List ToolPolicyPipelineStep :=
  buildDefaultToolPolicyPipelineSteps
      [mergeAlsoAllowPolicy run.policies.profilePolicy
          (run.policies.profileAlsoAllow ++ run.options.runtimeProfileAlsoAllow lower),
        mergeAlsoAllowPolicy run.policies.providerProfilePolicy
          (run.policies.providerProfileAlsoAllow ++ run.options.runtimeProfileAlsoAllow lower),
        run.withToolSearchControls run.policies.globalPolicy,
        run.withToolSearchControls run.policies.globalProviderPolicy,
        run.withToolSearchControls run.policies.agentPolicy,
        run.withToolSearchControls run.policies.agentProviderPolicy,
        run.withToolSearchControls run.policies.groupPolicy,
        run.withToolSearchControls run.policies.senderPolicy] ++
    [{ policy := run.withToolSearchControls run.policies.sandboxToolPolicy
       stripPluginOnlyAllowlist := false },
      { policy := run.withToolSearchControls run.policies.subagentPolicy
        stripPluginOnlyAllowlist := false },
      { policy := run.policies.inheritedToolPolicy, stripPluginOnlyAllowlist := false }]

/-- The tools that pass the pipeline. -/
def ToolRun.subagentFiltered (run : ToolRun) : List Tool :=
  applyToolPolicyPipeline lower (run.toolsForModelProvider lower) (run.steps lower)

/-- The returned tools: the injected ones, then those that passed the pipeline. -/
def createOpenClawCodingTools (run : ToolRun) : List Tool :=
  run.injected ++ run.subagentFiltered lower

end Tools

end ToolPolicies
