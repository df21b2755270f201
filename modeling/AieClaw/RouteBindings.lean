import AieClaw.AgentSessionKeys
import AieClaw.TieredMatch
import AieClaw.OrderedMap

/-!
# Route bindings

A configuration binds agents to channels, accounts, peers, guilds, teams and
roles. The bindings are normalized, put into buckets by channel and account, merged
back into source order, and indexed by what they ask for.
-/

namespace SessionRouting

open SessionKeys TieredMatch

structure BindingPeer where
  kind : Option String
  id : Option String
  deriving DecidableEq

structure AgentBindingMatch where
  channel : Option String
  accountId : Option String
  peer : Option BindingPeer
  guildId : Option String
  teamId : Option String
  roles : Option (List String)
  deriving DecidableEq

inductive BindingType where
  | route
  | acp
  deriving DecidableEq

structure AgentBinding where
  type : BindingType
  agentId : String
  «match» : AgentBindingMatch
  /-- `session.dmScope` of a route binding. -/
  sessionDmScope : Option DmScope
  deriving DecidableEq

structure AgentEntry where
  id : Option String
  default : Bool

structure RoutingConfig where
  bindings : List AgentBinding
  agents : List AgentEntry
  dmScope : Option DmScope
  identityLinks : Option IdentityLinks

def listBindings (cfg : RoutingConfig) : List AgentBinding :=
  cfg.bindings.filter fun binding => decide (binding.type = .route)

inductive NormalizedPeerConstraint where
  | none
  | invalid
  | wildcardKind (kind : ChatType)
  | valid (kind : ChatType) (id : String)
  deriving DecidableEq

structure NormalizedBindingMatch where
  accountPattern : String
  peer : NormalizedPeerConstraint
  guildId : Option String
  teamId : Option String
  roles : Option (List String)
  deriving DecidableEq

structure EvaluatedBinding where
  binding : AgentBinding
  «match» : NormalizedBindingMatch
  order : ℕ
  deriving DecidableEq

def normalizeRouteBindingId (value : Option String) : String := JsString.trim (value.getD "")

/-- An empty list of roles asks for none. -/
def normalizeRouteBindingRoles (value : Option (List String)) : Option (List String) :=
  value.filter fun roles => decide (roles ≠ [])

section Normalization

variable (toLowerCase : String → String)

def normalizeToken (value : Option String) : String :=
  normalizeLowercaseStringOrEmpty toLowerCase (value.getD "")

def normalizeChatType (raw : Option String) : Option ChatType :=
  let value := normalizeToken toLowerCase raw
  if value = "direct" ∨ value = "dm" then some .direct
  else if value = "group" then some .group
  else if value = "channel" then some .channel
  else none

def normalizePeerConstraint (peer : Option BindingPeer) : NormalizedPeerConstraint :=
  peer.elim .none fun peer =>
    let id := normalizeRouteBindingId peer.id
    (normalizeChatType toLowerCase peer.kind).elim .invalid fun kind =>
      if id = "" then .invalid
      else if id = "*" then .wildcardKind kind
      else .valid kind id

def normalizeBindingMatch (given : AgentBindingMatch) : NormalizedBindingMatch where
  accountPattern := JsString.trim (given.accountId.getD "")
  peer := normalizePeerConstraint toLowerCase given.peer
  guildId := (some (normalizeRouteBindingId given.guildId)).filter (· ≠ "")
  teamId := (some (normalizeRouteBindingId given.teamId)).filter (· ≠ "")
  roles := normalizeRouteBindingRoles given.roles

/-- A blank account pattern asks for the default account. -/
def resolveAccountPatternKey (accountPattern : String) : String :=
  if JsString.trim accountPattern = "" then defaultAccountId
  else normalizeAccountId toLowerCase (some accountPattern)

/-- The bindings that name a channel, each with its channel, numbered in source order. -/
def evaluateBindings : ℕ → List AgentBinding → List (String × EvaluatedBinding)
  | _, [] => []
  | order, binding :: rest =>
    let channel := normalizeToken toLowerCase binding.match.channel
    if channel = "" then evaluateBindings order rest
    else
      (channel,
        { binding := binding
          «match» := normalizeBindingMatch toLowerCase binding.match
          order := order }) ::
        evaluateBindings (order + 1) rest

structure EvaluatedBindingsByChannel where
  byAccount : OrderedMap String (List EvaluatedBinding)
  byAnyAccount : List EvaluatedBinding

def emptyBucket : EvaluatedBindingsByChannel where
  byAccount := OrderedMap.empty
  byAnyAccount := []

/-- `pushToIndexMap`: add a binding to the list under a key. -/
def pushTo (map : OrderedMap String (List EvaluatedBinding)) (key : String)
    (binding : EvaluatedBinding) : OrderedMap String (List EvaluatedBinding) :=
  map.set key ((map.get? key).getD [] ++ [binding])

def addToBucket (bucket : EvaluatedBindingsByChannel) (evaluated : EvaluatedBinding) :
    EvaluatedBindingsByChannel :=
  if evaluated.match.accountPattern = "*" then
    { bucket with byAnyAccount := bucket.byAnyAccount ++ [evaluated] }
  else
    { bucket with
      byAccount := pushTo bucket.byAccount
        (resolveAccountPatternKey toLowerCase evaluated.match.accountPattern) evaluated }

def addToChannel (byChannel : OrderedMap String EvaluatedBindingsByChannel)
    (entry : String × EvaluatedBinding) : OrderedMap String EvaluatedBindingsByChannel :=
  byChannel.set entry.1
    (addToBucket toLowerCase ((byChannel.get? entry.1).getD emptyBucket) entry.2)

def buildEvaluatedBindingsByChannel (cfg : RoutingConfig) :
    OrderedMap String EvaluatedBindingsByChannel :=
  (evaluateBindings toLowerCase 0 (listBindings cfg)).foldl (addToChannel toLowerCase)
    OrderedMap.empty

def mergeEvaluatedBindingsInSourceOrder (accountScoped anyAccount : List EvaluatedBinding) :
    List EvaluatedBinding :=
  if accountScoped = [] then anyAccount
  else if anyAccount = [] then accountScoped
  else List.merge accountScoped anyAccount fun a b => decide (a.order ≤ b.order)

/-- The bindings of a channel for an account, without the cache. -/
def evaluatedBindingsFor (cfg : RoutingConfig) (channel accountId : String) :
    List EvaluatedBinding :=
  let bucket := ((buildEvaluatedBindingsByChannel toLowerCase cfg).get? channel).getD emptyBucket
  mergeEvaluatedBindingsInSourceOrder ((bucket.byAccount.get? accountId).getD [])
    bucket.byAnyAccount

end Normalization

structure EvaluatedBindingsIndex where
  byPeer : OrderedMap String (List EvaluatedBinding)
  byPeerWildcard : List EvaluatedBinding
  byGuildWithRoles : OrderedMap String (List EvaluatedBinding)
  byGuild : OrderedMap String (List EvaluatedBinding)
  byTeam : OrderedMap String (List EvaluatedBinding)
  byAccount : List EvaluatedBinding
  byChannel : List EvaluatedBinding

def emptyIndex : EvaluatedBindingsIndex where
  byPeer := OrderedMap.empty
  byPeerWildcard := []
  byGuildWithRoles := OrderedMap.empty
  byGuild := OrderedMap.empty
  byTeam := OrderedMap.empty
  byAccount := []
  byChannel := []

/-- Groups and channels are looked up under either kind. -/
def peerLookupKeys (kind : ChatType) (id : String) : List String :=
  match kind with
  | .group => ["group:" ++ id, "channel:" ++ id]
  | .channel => ["channel:" ++ id, "group:" ++ id]
  | .direct => ["direct:" ++ id]

/-- An id that is present and not empty. -/
def isGiven (id : Option String) : Bool := decide (id.getD "" ≠ "")

def addToIndex (index : EvaluatedBindingsIndex) (binding : EvaluatedBinding) :
    EvaluatedBindingsIndex :=
  match binding.match.peer with
  | .valid kind id =>
    { index with
      byPeer := (peerLookupKeys kind id).foldl (fun map key => pushTo map key binding)
        index.byPeer }
  | .wildcardKind _ => { index with byPeerWildcard := index.byPeerWildcard ++ [binding] }
  | _ =>
    if isGiven binding.match.guildId && binding.match.roles.isSome then
      { index with
        byGuildWithRoles := pushTo index.byGuildWithRoles (binding.match.guildId.getD "") binding }
    else if isGiven binding.match.guildId then
      { index with byGuild := pushTo index.byGuild (binding.match.guildId.getD "") binding }
    else if isGiven binding.match.teamId then
      { index with byTeam := pushTo index.byTeam (binding.match.teamId.getD "") binding }
    else if binding.match.accountPattern ≠ "*" then
      { index with byAccount := index.byAccount ++ [binding] }
    else { index with byChannel := index.byChannel ++ [binding] }

def buildEvaluatedBindingsIndex (bindings : List EvaluatedBinding) : EvaluatedBindingsIndex :=
  bindings.foldl addToIndex emptyIndex

/-- The bindings under the keys of a peer, each one once. -/
def collectPeerIndexedBindings (index : EvaluatedBindingsIndex) (peer : Option RoutePeer) :
    List EvaluatedBinding :=
  peer.elim [] fun peer =>
    ((peerLookupKeys peer.kind peer.id).flatMap fun key =>
      (index.byPeer.get? key).getD []).foldl
        (fun out binding => if binding ∈ out then out else out ++ [binding]) []

structure BindingScope where
  peer : Option RoutePeer
  guildId : String
  teamId : String
  memberRoleIds : List String

def peerKindMatches (bindingKind scopeKind : ChatType) : Bool :=
  bindingKind = scopeKind || (bindingKind = .group && scopeKind = .channel) ||
    (bindingKind = .channel && scopeKind = .group)

/-- Here no group space is given, so it is the empty text. -/
def scopeIdMatches (constraint : Option String) (exact groupSpace : String) : Bool :=
  !isGiven constraint || constraint = some exact || constraint = some groupSpace

def routeBindingScopeMatches (constraint : NormalizedBindingMatch) (scope : BindingScope) : Bool :=
  scopeIdMatches constraint.guildId (JsString.trim scope.guildId) "" &&
    scopeIdMatches constraint.teamId (JsString.trim scope.teamId) "" &&
      (normalizeRouteBindingRoles constraint.roles).elim true fun roles =>
        roles.any fun role => scope.memberRoleIds.contains role

def matchesBindingScope (given : NormalizedBindingMatch) (scope : BindingScope) : Bool :=
  (match given.peer with
    | .invalid => false
    | .valid kind id =>
      scope.peer.elim false fun peer => peerKindMatches kind peer.kind && peer.id = id
    | .wildcardKind kind => scope.peer.elim false fun peer => peerKindMatches kind peer.kind
    | .none => true) &&
    routeBindingScopeMatches given scope

end SessionRouting
