import AieClaw.BoundedCache
import AieClaw.RouteIndex

/-!
# Resolving the route of a message

A message is routed to the agent of the first binding that matches, tier after
tier, and to the default agent otherwise. The bindings in scope, their index and
the finished routes are cached under joined texts.
-/

namespace SessionRouting

open SessionKeys TieredMatch

structure ResolveAgentRouteInput where
  channel : String
  accountId : Option String
  peer : Option RoutePeer
  parentPeer : Option RoutePeer
  guildId : Option String
  teamId : Option String
  memberRoleIds : Option (List String)

/-- What is left of a request once its ids are normalized. -/
structure RouteQuery where
  channel : String
  accountId : String
  peer : Option RoutePeer
  parentPeer : Option RoutePeer
  guildId : String
  teamId : String
  memberRoleIds : List String

inductive MatchedBy where
  | bindingPeer
  | bindingPeerParent
  | bindingPeerWildcard
  | bindingGuildRoles
  | bindingGuild
  | bindingTeam
  | bindingAccount
  | bindingChannel
  | default
  deriving DecidableEq

inductive LastRoutePolicy where
  | main
  | session
  deriving DecidableEq

structure ResolvedAgentRoute where
  agentId : String
  channel : String
  accountId : String
  sessionKey : String
  mainSessionKey : String
  lastRoutePolicy : LastRoutePolicy
  matchedBy : MatchedBy
  deriving DecidableEq

def deriveLastRoutePolicy (sessionKey mainSessionKey : String) : LastRoutePolicy :=
  if sessionKey = mainSessionKey then .main else .session

section Resolution

variable (toLowerCase : String → String)

def normalizePeer (peer : RoutePeer) : RoutePeer :=
  { kind := peer.kind, id := normalizeRouteBindingId (some peer.id) }

def ResolveAgentRouteInput.query (input : ResolveAgentRouteInput) : RouteQuery where
  channel := normalizeToken toLowerCase (some input.channel)
  accountId := normalizeAccountId toLowerCase input.accountId
  peer := input.peer.map normalizePeer
  parentPeer := input.parentPeer.map normalizePeer
  guildId := normalizeRouteBindingId input.guildId
  teamId := normalizeRouteBindingId input.teamId
  memberRoleIds := input.memberRoleIds.getD []

variable (cfg : RoutingConfig)

def resolveDefaultAgentId : String :=
  if cfg.agents = [] then defaultAgentId
  else
    let chosen := ((cfg.agents.filter AgentEntry.default).head? <|> cfg.agents.head?).bind
      AgentEntry.id
    normalizeAgentId toLowerCase (JsString.orElse (JsString.trim (chosen.getD "")) defaultAgentId)

/-- The configured agents under their normalized ids. -/
def agentsByNormalizedId : OrderedMap String String :=
  cfg.agents.foldl
    (fun byNormalizedId agent =>
      let rawId := JsString.trim (agent.id.getD "")
      if rawId = "" then byNormalizedId
      else
        byNormalizedId.set (normalizeAgentId toLowerCase rawId)
          (normalizeAgentId toLowerCase rawId))
    OrderedMap.empty

def pickFirstExistingAgentId (agentId : String) : String :=
  let fallbackDefaultAgentId :=
    normalizeAgentId toLowerCase (resolveDefaultAgentId toLowerCase cfg)
  let byNormalizedId := agentsByNormalizedId toLowerCase cfg
  let trimmed := JsString.trim agentId
  if trimmed = "" then fallbackDefaultAgentId
  else if byNormalizedId.entries = [] then normalizeAgentId toLowerCase trimmed
  else
    JsString.orElse
      ((byNormalizedId.get? (normalizeAgentId toLowerCase trimmed)).getD "")
      fallbackDefaultAgentId

/-- The route to an agent, without the cache that keeps it. -/
def choose (query : RouteQuery) (agentId : String)
    (matchedBy : MatchedBy) (sessionDmScope : Option DmScope) : ResolvedAgentRoute :=
  let resolvedAgentId := pickFirstExistingAgentId toLowerCase cfg agentId
  let sessionKey := buildAgentSessionKey toLowerCase resolvedAgentId query.channel
    (some query.accountId) query.peer
    (sessionDmScope.getD (cfg.dmScope.getD .main)) cfg.identityLinks
  let mainSessionKey := normalizeLowercaseStringOrEmpty toLowerCase
    (buildAgentMainSessionKey toLowerCase resolvedAgentId (some defaultMainKey))
  { agentId := resolvedAgentId
    channel := query.channel
    accountId := query.accountId
    sessionKey := sessionKey
    mainSessionKey := mainSessionKey
    lastRoutePolicy := deriveLastRoutePolicy sessionKey mainSessionKey
    matchedBy := matchedBy }

/-- The parent counts only with an id. -/
def RouteQuery.parentScope (query : RouteQuery) : Option RoutePeer :=
  query.parentPeer.filter fun peer => decide (peer.id ≠ "")

def RouteQuery.scope (query : RouteQuery) (scopePeer : Option RoutePeer) : BindingScope where
  peer := scopePeer
  guildId := query.guildId
  teamId := query.teamId
  memberRoleIds := query.memberRoleIds

/-- A tier of the search: a predicate, within the scope of some peer. -/
def RouteQuery.tier (query : RouteQuery) (matchedBy : MatchedBy)
    (scopePeer : Option RoutePeer) (predicate : EvaluatedBinding → Bool) :
    Tier MatchedBy EvaluatedBinding where
  tag := matchedBy
  condition := fun candidate =>
    predicate candidate && matchesBindingScope candidate.match (query.scope scopePeer)

/-- The tiers in their order, as they are read without an index. -/
def plainTiers (query : RouteQuery) : List (Tier MatchedBy EvaluatedBinding) :=
  [query.tier .bindingPeer query.peer isValidPeer,
    query.tier .bindingPeerParent query.parentScope isValidPeer,
    query.tier .bindingPeerWildcard query.peer isWildcard,
    query.tier .bindingGuildRoles query.peer fun candidate =>
      asksForGuild candidate && asksForRoles candidate,
    query.tier .bindingGuild query.peer fun candidate =>
      asksForGuild candidate && !asksForRoles candidate,
    query.tier .bindingTeam query.peer asksForTeam,
    query.tier .bindingAccount query.peer fun candidate =>
      decide (candidate.match.accountPattern ≠ "*"),
    query.tier .bindingChannel query.peer fun candidate =>
      decide (candidate.match.accountPattern = "*")]

def indexedTiers (query : RouteQuery) (index : EvaluatedBindingsIndex) :
    List (IndexedTier MatchedBy EvaluatedBinding) :=
  [{ query.tier .bindingPeer query.peer isValidPeer with
      enabled := query.peer.isSome
      candidates := collectPeerIndexedBindings index query.peer },
    { query.tier .bindingPeerParent query.parentScope isValidPeer with
      enabled := query.parentScope.isSome
      candidates := collectPeerIndexedBindings index query.parentPeer },
    { query.tier .bindingPeerWildcard query.peer isWildcard with
      enabled := query.peer.isSome
      candidates := index.byPeerWildcard },
    { query.tier .bindingGuildRoles query.peer (fun candidate =>
        asksForGuild candidate && asksForRoles candidate) with
      enabled := decide (query.guildId ≠ "" ∧ query.memberRoleIds ≠ [])
      candidates :=
        if query.guildId = "" then []
        else (index.byGuildWithRoles.get? query.guildId).getD [] },
    { query.tier .bindingGuild query.peer (fun candidate =>
        asksForGuild candidate && !asksForRoles candidate) with
      enabled := decide (query.guildId ≠ "")
      candidates :=
        if query.guildId = "" then [] else (index.byGuild.get? query.guildId).getD [] },
    { query.tier .bindingTeam query.peer asksForTeam with
      enabled := decide (query.teamId ≠ "")
      candidates := if query.teamId = "" then [] else (index.byTeam.get? query.teamId).getD [] },
    { query.tier .bindingAccount query.peer (fun candidate =>
        decide (candidate.match.accountPattern ≠ "*")) with
      enabled := true
      candidates := index.byAccount },
    { query.tier .bindingChannel query.peer (fun candidate =>
        decide (candidate.match.accountPattern = "*")) with
      enabled := true
      candidates := index.byChannel }]

/-- The route of the binding that was found, or of the default agent. -/
def routeOf (query : RouteQuery)
    (found : Option (MatchedBy × EvaluatedBinding)) : ResolvedAgentRoute :=
  found.elim
    (choose toLowerCase cfg query (resolveDefaultAgentId toLowerCase cfg) .default none)
    fun hit =>
      choose toLowerCase cfg query hit.2.binding.agentId hit.1 hit.2.binding.sessionDmScope

/--
The plain reading: tier after tier, the first binding in scope that meets the
tier's condition.
-/
def plainRoute (query : RouteQuery) : ResolvedAgentRoute :=
  routeOf toLowerCase cfg query
    (firstInTiers (scopedBindings toLowerCase cfg query.channel query.accountId) (plainTiers query))

end Resolution

end SessionRouting
