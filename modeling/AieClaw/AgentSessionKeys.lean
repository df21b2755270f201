import AieClaw.SessionKeys

/-!
# Session keys of agents and their peers

The session of an inbound message is named by its agent, its channel and its
peer, joined with colons. Direct messages have layouts of their own, one for each
scope, and a direct peer may be renamed by the identity links.
-/

namespace SessionRouting

open SessionKeys JsString

def defaultAccountId : String := "default"

def defaultMainKey : String := "main"

def isBlockedObjectKey (key : String) : Bool :=
  key = "__proto__" || key = "prototype" || key = "constructor"

section AccountIds

variable (toLowerCase : String → String)

def canonicalizeAccountId (value : String) : String :=
  let normalized := normalizeLowercaseStringOrEmpty toLowerCase value
  if isValidId value then normalized
  else
    let collapsed := collapseInvalid normalized.toList
    let leading := collapsed.dropWhile (· == '-')
    let trailing := (leading.reverse.dropWhile (· == '-')).reverse
    String.ofList (trailing.take 64)

def normalizeCanonicalAccountId (value : String) : Option String :=
  let canonical := canonicalizeAccountId toLowerCase value
  if canonical = "" ∨ isBlockedObjectKey canonical then none else some canonical

def normalizeAccountId (value : Option String) : String :=
  let trimmed := trim (value.getD "")
  if trimmed = "" then defaultAccountId
  else (normalizeCanonicalAccountId toLowerCase trimmed).getD defaultAccountId

end AccountIds

inductive ChatType where
  | direct
  | group
  | channel
  deriving DecidableEq

def ChatType.name : ChatType → String
  | .direct => "direct"
  | .group => "group"
  | .channel => "channel"

structure RoutePeer where
  kind : ChatType
  id : String

inductive DmScope where
  | main
  | perPeer
  | perChannelPeer
  | perAccountChannelPeer
  deriving DecidableEq

/-- Canonical names with the ids that are linked under them, in source order. -/
abbrev IdentityLinks := List (String × List String)

section Keys

variable (toLowerCase : String → String)

def normalizeMainKey (value : Option String) : String :=
  orElse (normalizeLowercaseStringOrEmpty toLowerCase (value.getD "")) defaultMainKey

def buildAgentMainSessionKey (agentId : String) (mainKey : Option String) : String :=
  "agent:" ++ normalizeAgentId toLowerCase agentId ++ ":" ++ normalizeMainKey toLowerCase mainKey

/-- Ids of Signal groups keep their case. -/
def normalizeSessionPeerId (channel : String) (peerKind : ChatType) (peerId : String) : String :=
  let trimmed := trim peerId
  if trimmed = "" then ""
  else if normalizeLowercaseStringOrEmpty toLowerCase channel = "signal" ∧ peerKind = .group then
    trimmed
  else normalizeLowercaseStringOrEmpty toLowerCase trimmed

def linkCandidates (channel peerId : String) : List String :=
  let normalizedChannel := normalizeLowercaseStringOrEmpty toLowerCase channel
  ([normalizeLowercaseStringOrEmpty toLowerCase peerId] ++
    (if normalizedChannel = "" then []
    else
      [normalizeLowercaseStringOrEmpty toLowerCase
        (normalizedChannel ++ ":" ++ peerId)])).filter (· ≠ "")

/-- The canonical name of an entry that lists one of the candidates. -/
def linkedName (candidates : List String) (entry : String × List String) : Option String :=
  let canonicalName := trim entry.1
  if canonicalName = "" then none
  else if entry.2.any (fun id =>
      candidates.contains (normalizeLowercaseStringOrEmpty toLowerCase id)) then
    some canonicalName
  else none

def resolveLinkedPeerId (identityLinks : Option IdentityLinks) (channel peerId : String) :
    Option String :=
  let trimmed := trim peerId
  if trimmed = "" then none
  else
    (identityLinks.getD []).findSome?
      (linkedName toLowerCase (linkCandidates toLowerCase channel trimmed))

def buildAgentPeerSessionKey (agentId : String) (mainKey : Option String) (channel : String)
    (accountId : Option String) (peerKind : ChatType) (peerId : Option String)
    (identityLinks : Option IdentityLinks) (dmScope : DmScope) : String :=
  let agent := "agent:" ++ normalizeAgentId toLowerCase agentId
  let channelName :=
    orElse (normalizeLowercaseStringOrEmpty toLowerCase channel) "unknown"
  if peerKind = .direct then
    let given := trim (peerId.getD "")
    let linkedPeerId :=
      if dmScope = .main then none
      else resolveLinkedPeerId toLowerCase identityLinks channel given
    let name := normalizeLowercaseStringOrEmpty toLowerCase (linkedPeerId.getD given)
    if dmScope = .perAccountChannelPeer ∧ name ≠ "" then
      agent ++ ":" ++ channelName ++ ":" ++ normalizeAccountId toLowerCase accountId ++
        ":direct:" ++ name
    else if dmScope = .perChannelPeer ∧ name ≠ "" then
      agent ++ ":" ++ channelName ++ ":direct:" ++ name
    else if dmScope = .perPeer ∧ name ≠ "" then agent ++ ":direct:" ++ name
    else buildAgentMainSessionKey toLowerCase agentId mainKey
  else
    let name :=
      orElse (normalizeSessionPeerId toLowerCase channel peerKind (peerId.getD "")) "unknown"
    agent ++ ":" ++ channelName ++ ":" ++ peerKind.name ++ ":" ++ name

/-- A message without a peer goes to the agent's main session. -/
def buildAgentSessionKey (agentId channel : String) (accountId : Option String)
    (peer : Option RoutePeer) (dmScope : DmScope) (identityLinks : Option IdentityLinks) : String :=
  buildAgentPeerSessionKey toLowerCase agentId (some defaultMainKey)
    (orElse (normalizeLowercaseStringOrEmpty toLowerCase channel) "unknown")
    accountId
    ((peer.map RoutePeer.kind).getD .direct)
    (peer.map fun peer => orElse (trim peer.id) "unknown")
    identityLinks dmScope

end Keys

end SessionRouting
