import AieClaw.ConfigUnset

/-!
# Reading, checking and replacing the configuration file

A snapshot of the configuration carries the hash of the text it was read from, not
of the files that it includes. The methods of the gateway check the hash before they
work out what to write; a replacement checks the hash that its caller passes, if any.
-/

namespace ConfigWrite

open JsonValue

/-- The configuration file and the files that it may include. -/
structure ConfigDisk where
  root : Option String
  included : OrderedMap String String

structure ConfigFileSnapshot where
  fileExists : Bool
  raw : Option String
  parsed : JsonValue
  sourceConfig : JsonValue
  /-- With the defaults of the runtime. -/
  config : JsonValue
  valid : Bool
  hash : String

structure ResolvedSource where
  sourceConfig : JsonValue
  runtimeConfig : JsonValue
  valid : Bool

/-- What a write needs from the rest of the program. -/
structure ConfigMutationHost where
  hashConfigRaw : Option String → String
  parseConfigJson5 : String → Except String JsonValue
  /-- Includes and variables resolved, and validated. -/
  resolveConfigForRead : OrderedMap String String → JsonValue → Except String ResolvedSource
  validateConfigObjectWithPlugins : JsonValue → Except String JsonValue
  restoreRedactedValues : JsonValue → JsonValue → Except String JsonValue
  applyMergePatchById : JsonValue → JsonValue → JsonValue
  diffConfigPaths : JsonValue → JsonValue → List String
  /-- The file of an include, if it lies in the directory of the configuration. -/
  resolveInsideRoot : String → Option String
  stringify : JsonValue → String
  /-- The text that a write of the whole file composes. -/
  composeRoot : ConfigFileSnapshot → JsonValue → Except String String

def coerceConfig (value : JsonValue) : JsonValue := if value.isRecord then value else .object []

def resolveConfigSnapshotHash (hashConfigRaw : Option String → String)
    (snapshot : ConfigFileSnapshot) : Option String :=
  if JsString.trim snapshot.hash ≠ "" then some (JsString.trim snapshot.hash)
  else snapshot.raw.map fun raw => hashConfigRaw (some raw)

def resolveBaseHashParam (baseHash : Option String) : Option String :=
  (baseHash.map JsString.trim).filter (· ≠ "")

/-- A missing file needs no hash. -/
def requireConfigBaseHash (baseHash : Option String) (fileExists : Bool)
    (snapshotHash : Option String) : Except String Unit :=
  if !fileExists then .ok ()
  else
    match snapshotHash, resolveBaseHashParam baseHash with
    | none, _ => .error "config base hash unavailable; re-run config.get and retry"
    | some _, none => .error "config base hash required; re-run config.get and retry"
    | some snapshotHash, some baseHash =>
      if baseHash ≠ snapshotHash then
        .error "config changed since last load; re-run config.get and retry"
      else .ok ()

/-- Without an expected hash every snapshot matches. -/
def assertBaseHashMatches (currentHash expectedHash : Option String) : Except String Unit :=
  if expectedHash.isSome ∧ expectedHash ≠ currentHash then .error "config changed since last load"
  else .ok ()

def getChangedTopLevelKeys (base next : JsonValue) : List String :=
  match base, next with
  | .object baseMembers, .object nextMembers =>
    ((baseMembers.map Prod.fst ++ nextMembers.map Prod.fst).dedup).filter fun key =>
      !(match baseMembers.lookup key, nextMembers.lookup key with
        | some left, some right => isDeepStrictEqual left right
        | none, none => true
        | _, _ => false)
  | _, _ => if isDeepStrictEqual base next then [] else ["<root>"]

inductive ConfigWriteTarget where
  | root (text : String)
  | includeFile (path text : String)

section Host

variable (host : ConfigMutationHost)

def readConfigFileSnapshot (disk : ConfigDisk) : ConfigFileSnapshot :=
  match disk.root with
  | none =>
    { fileExists := false
      raw := none
      parsed := .object []
      sourceConfig := .object []
      config := .object []
      valid := true
      hash := host.hashConfigRaw none }
  | some raw =>
    match host.parseConfigJson5 raw with
    | .error _ =>
      { fileExists := true
        raw := some raw
        parsed := .object []
        sourceConfig := .object []
        config := .object []
        valid := false
        hash := host.hashConfigRaw (some raw) }
    | .ok parsed =>
      match host.resolveConfigForRead disk.included parsed with
      | .error _ =>
        { fileExists := true
          raw := some raw
          parsed := parsed
          sourceConfig := coerceConfig parsed
          config := coerceConfig parsed
          valid := false
          hash := host.hashConfigRaw (some raw) }
      | .ok resolved =>
        { fileExists := true
          raw := some raw
          parsed := parsed
          sourceConfig := resolved.sourceConfig
          config := resolved.runtimeConfig
          valid := resolved.valid
          hash := host.hashConfigRaw (some raw) }

/-- The hash of the configuration file on the disk. -/
def diskHash (disk : ConfigDisk) : Option String :=
  resolveConfigSnapshotHash host.hashConfigRaw (readConfigFileSnapshot host disk)

/-- The file of a section that is nothing but one include. -/
def getSingleTopLevelIncludeTarget (parsed : JsonValue) (key : String) : Option String :=
  match parsed with
  | .object members =>
    match members.lookup key with
    | some (.object [(includeMember, .string path)]) =>
      if includeMember = includeKey then host.resolveInsideRoot path else none
    | _ => none
  | _ => none

/-- Where only one section changes, and it is an include, its file is written. -/
def tryWriteSingleTopLevelIncludeMutation (snapshot : ConfigFileSnapshot) (next : JsonValue)
    (unsetPaths : List (List String)) : Except String (Option ConfigWriteTarget) :=
  let nextConfig := applyUnsetPathsForWrite next (resolveManagedUnsetPathsForWrite unsetPaths)
  match getChangedTopLevelKeys snapshot.sourceConfig nextConfig, nextConfig with
  | [key], .object members =>
    match getSingleTopLevelIncludeTarget host snapshot.parsed key, members.lookup key with
    | some path, some section_ =>
      (host.validateConfigObjectWithPlugins nextConfig).map fun _ =>
        some (.includeFile path (host.stringify section_))
    | _, _ => .ok none
  | _, _ => .ok none

def replaceTarget (snapshot : ConfigFileSnapshot) (next : JsonValue)
    (unsetPaths : List (List String)) : Except String ConfigWriteTarget :=
  match tryWriteSingleTopLevelIncludeMutation host snapshot next unsetPaths with
  | .error message => .error message
  | .ok (some target) => .ok target
  | .ok none => (host.composeRoot snapshot next).map .root

inductive GatewayConfigMethod where
  | set
  | patch
  | apply
  deriving DecidableEq

def parseValidateConfigFromRaw (raw : String) (snapshot : ConfigFileSnapshot) :
    Except String JsonValue := do
  let parsed ← host.parseConfigJson5 raw
  let restored ← host.restoreRedactedValues parsed snapshot.config
  host.validateConfigObjectWithPlugins restored

/-- What a patch comes to; nothing when it changes nothing. -/
def patchedConfig (raw : String) (snapshot : ConfigFileSnapshot) :
    Except String (Option JsonValue) := do
  if !snapshot.valid then .error "invalid config; fix before patching"
  else
    let parsed ← host.parseConfigJson5 raw
    if !parsed.isRecord then .error "config.patch raw must be an object"
    else
      let restored ← host.restoreRedactedValues (host.applyMergePatchById snapshot.config parsed)
        snapshot.config
      if (host.diffConfigPaths snapshot.config restored).isEmpty then .ok none
      else
        let validated ← host.validateConfigObjectWithPlugins restored
        .ok (some validated)

/-- The configuration that a request works out from the snapshot it checked. -/
def plannedConfig (method : GatewayConfigMethod) (raw : String) (snapshot : ConfigFileSnapshot) :
    Except String (Option JsonValue) :=
  match method with
  | .set => (parseValidateConfigFromRaw host raw snapshot).map some
  | .patch => patchedConfig host raw snapshot
  | .apply => (parseValidateConfigFromRaw host raw snapshot).map some

/-- A patch that validation turns into no change is not written either. -/
def isNoop (method : GatewayConfigMethod) (snapshot : ConfigFileSnapshot) (next : JsonValue) :
    Bool :=
  method = .patch && (host.diffConfigPaths snapshot.config next).isEmpty

end Host

/-- Write the file of a target. -/
def ConfigDisk.write (disk : ConfigDisk) : ConfigWriteTarget → ConfigDisk
  | .root text => { disk with root := some text }
  | .includeFile path text => { disk with included := disk.included.set path text }

end ConfigWrite
