import AieClaw.ConfigPersist

/-!
# Agent parameters and model names in a written configuration

Authored parameters of agents survive a write that does not mention them, and the
names of models are written in their normal form.
-/

namespace ConfigWrite

open JsonValue

/-- How the names of models are normalized. -/
structure ModelNames where
  normalizeAgentModelRefForConfig : String → String
  normalizeConfiguredProviderCatalogModelId : String → String → String

/-- The arguments of a write, next to the patch it makes. -/
structure PersistParams where
  runtimeConfig : JsonValue
  sourceConfig : JsonValue
  nextConfig : JsonValue
  rootAuthoredConfig : Option JsonValue
  unsetPaths : List (List String)
  explicitSetPaths : List (List String)
  explicitSetValueSource : Option JsonValue

/-- The authored file, or the source when none is given; `null` is none. -/
def PersistParams.rootAuthored (params : PersistParams) : JsonValue :=
  (orNullish params.rootAuthoredConfig (some params.sourceConfig)).getD params.sourceConfig

def preserveSourceValueAtPath (params : PersistParams) (persistedCandidate : JsonValue)
    (path : List String) (sourceValue : JsonValue) : JsonValue :=
  if pathOverlapsAny path params.unsetPaths then persistedCandidate
  else if isIncludeOwnedPath params.rootAuthored path then persistedCandidate
  else if (getPathValue params.nextConfig path).isSome then persistedCandidate
  else if (getPathValue persistedCandidate path).isSome then persistedCandidate
  else
    ((orNullish (some sourceValue) (getPathValue params.sourceConfig path)).bind
      (setPathValueCreatingParents (some persistedCandidate) path)).getD persistedCandidate

section Models

variable (names : ModelNames)

/-- Keep the parameters of one authored model, under its normal name. -/
def preserveModelEntry (params : PersistParams) (next : JsonValue) (entry : String × JsonValue) :
    JsonValue :=
  (entry.2.membersOf.lookup "params").elim next fun modelParams =>
    let normalized := JsString.orElse (names.normalizeAgentModelRefForConfig entry.1) entry.1
    let modelPath := ["agents", "defaults", "models", normalized]
    let renamed :=
      if normalized = entry.1 then next
      else deletePathValue next ["agents", "defaults", "models", entry.1]
    if (getPathValue renamed modelPath).isSome then
      preserveSourceValueAtPath params renamed (modelPath ++ ["params"]) modelParams
    else preserveSourceValueAtPath params renamed modelPath entry.2

def preserveAuthoredAgentParams (params : PersistParams) (persistedCandidate : JsonValue) :
    JsonValue :=
  match getPathValue params.sourceConfig ["agents", "defaults"] with
  | some (.object defaults) =>
    let withParams :=
      (defaults.lookup "params").elim persistedCandidate fun authored =>
        preserveSourceValueAtPath params persistedCandidate
          ["agents", "defaults", "params"] authored
    match defaults.lookup "models" with
    | some (.object models) => models.foldl (preserveModelEntry names params) withParams
    | _ => withParams
  | _ => persistedCandidate

def normalizeModelText (value : JsonValue) : JsonValue :=
  match value with
  | .string text => .string (names.normalizeAgentModelRefForConfig text)
  | other => other

/-- Rewrite a member of an object, when it is there. -/
def mapMember (key : String) (rewrite : JsonValue → JsonValue)
    (members : List (String × JsonValue)) : List (String × JsonValue) :=
  (members.lookup key).elim members fun value => setMember key (rewrite value) members

def normalizeFallbacks (value : JsonValue) : JsonValue :=
  match value with
  | .array fallbacks => .array (fallbacks.map (normalizeModelText names))
  | other => other

def normalizeAgentModelConfigForWrite (value : JsonValue) : JsonValue :=
  match value with
  | .object members =>
    .object (mapMember "fallbacks" (normalizeFallbacks names)
      (mapMember "primary" (normalizeModelText names) members))
  | other => normalizeModelText names other

/-- Rewrite what stands at a path, when something does. -/
def mapPath (rewrite : JsonValue → JsonValue) (config : JsonValue) (path : List String) :
    JsonValue :=
  (getPathValue config path).elim config fun value =>
    (setPathValue (some config) path (rewrite value)).getD config

section

variable (config : JsonValue)

def normalizeModelConfigPathForWrite (path : List String) : JsonValue :=
  mapPath (normalizeAgentModelConfigForWrite names) config path

def normalizeModelStringPathForWrite (path : List String) : JsonValue :=
  mapPath (normalizeModelText names) config path

def agentModelConfigKeys : List String :=
  ["model", "imageModel", "imageGenerationModel", "videoGenerationModel",
    "musicGenerationModel", "pdfModel"]

/-- Two entries of one model: the later one wins, their parameters are joined. -/
def mergeAgentModelEntryForConfig (existing : Option JsonValue) (incoming : JsonValue) :
    JsonValue :=
  match existing, incoming with
  | some (.object old), .object new =>
    let spread := fun (first second : List (String × JsonValue)) =>
      second.foldl (fun members entry => setMember entry.1 entry.2 members) first
    let merged := spread old new
    let oldParams := old.lookup "params"
    let newParams := new.lookup "params"
    if (oldParams.any isRecord || newParams.any isRecord) then
      .object (setMember "params"
        (.object (spread (oldParams.elim [] membersOf) (newParams.elim [] membersOf)))
        merged)
    else .object merged
  | _, incoming => incoming

def normalizeAgentModelMapForConfig (models : List (String × JsonValue)) :
    List (String × JsonValue) :=
  models.foldl
    (fun next entry =>
      let normalizedKey := names.normalizeAgentModelRefForConfig entry.1
      setMember normalizedKey
        (mergeAgentModelEntryForConfig (next.lookup normalizedKey) entry.2) next)
    []

def normalizeModelMap (value : JsonValue) : JsonValue :=
  match value with
  | .object models => .object (normalizeAgentModelMapForConfig names models)
  | other => other

def normalizeAgentModelRefsAtPathForWrite (path : List String) : JsonValue :=
  match getPathValue config path with
  | some (.object _) =>
    let withKeys := agentModelConfigKeys.foldl
      (fun next key => normalizeModelConfigPathForWrite names next (path ++ [key])) config
    let withHeartbeat :=
      normalizeModelStringPathForWrite names withKeys (path ++ ["heartbeat", "model"])
    let withSubagents :=
      normalizeModelConfigPathForWrite names withHeartbeat (path ++ ["subagents", "model"])
    let withCompaction :=
      normalizeModelStringPathForWrite names withSubagents (path ++ ["compaction", "model"])
    let withFlush :=
      normalizeModelStringPathForWrite names withCompaction
        (path ++ ["compaction", "memoryFlush", "model"])
    mapPath (normalizeModelMap names) withFlush (path ++ ["models"])
  | _ => config

def normalizeAgentEntry (agent : JsonValue) : JsonValue :=
  if agent.isRecord then
    (getPathValue
      (normalizeAgentModelRefsAtPathForWrite names (.object [("agent", agent)]) ["agent"])
      ["agent"]).getD agent
  else agent

def normalizeAgentList (value : JsonValue) : JsonValue :=
  match value with
  | .array list => .array (list.map (normalizeAgentEntry names))
  | other => other

def normalizeAgentListModelRefsForWrite : JsonValue :=
  mapPath (normalizeAgentList names) config ["agents", "list"]

def normalizeToolsModelRefsForWrite : JsonValue :=
  normalizeModelConfigPathForWrite names config ["tools", "subagents", "model"]

def normalizeCatalogModel (provider : String) (model : JsonValue) : JsonValue :=
  match model with
  | .object members =>
    match members.lookup "id" with
    | some (.string id) =>
      if JsString.trim id = "" then model
      else
        .object (setMember "id"
          (.string (names.normalizeConfiguredProviderCatalogModelId provider (JsString.trim id)))
          members)
    | _ => model
  | other => other

def normalizeCatalog (provider : String) (value : JsonValue) : JsonValue :=
  match value with
  | .array models => .array (models.map (normalizeCatalogModel names provider))
  | other => other

def normalizeProvider (entry : String × JsonValue) : String × JsonValue :=
  match entry.2 with
  | .object members =>
    (entry.1, .object (mapMember "models" (normalizeCatalog names entry.1) members))
  | _ => entry

def normalizeProviders (value : JsonValue) : JsonValue :=
  match value with
  | .object providers => .object (providers.map (normalizeProvider names))
  | other => other

def normalizeModelProviderCatalogRefsForWrite : JsonValue :=
  mapPath (normalizeProviders names) config ["models", "providers"]

def normalizeModelRefsForWrite : JsonValue :=
  normalizeModelProviderCatalogRefsForWrite names
    (normalizeToolsModelRefsForWrite names
      (normalizeAgentListModelRefsForWrite names
        (normalizeAgentModelRefsAtPathForWrite names config ["agents", "defaults"])))

end

def resolvePersistCandidateForWrite (params : PersistParams) : Except WriteError JsonValue := do
  let patch ← createMergePatch params.runtimeConfig params.nextConfig
  let projectedSource := projectSourceOntoRuntimeShape params.sourceConfig params.runtimeConfig
  let persistedBase ← preserveUntouchedIncludes patch params.rootAuthored
    (applyMergePatch projectedSource patch)
    (collectIncludeOwnedPaths params.rootAuthored [])
  let persisted ← injectExplicitlySetPaths
    ((orNullish params.explicitSetValueSource (some params.nextConfig)).getD params.nextConfig)
    params.rootAuthored persistedBase params.explicitSetPaths
  let withSchema := preserveRootSchemaUri params.rootAuthored params.nextConfig persisted
  let withAuthoredParams := preserveAuthoredAgentParams names params withSchema
  .ok (normalizeModelRefsForWrite names withAuthoredParams)

end Models

end ConfigWrite
