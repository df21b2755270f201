import AieClaw.RouteTiers
import AieClaw.AgentSessionNames

/-!
# Runs of the router

Every call may use what the calls before it kept. The bindings and their index are
kept under the channel and the account, which no two pairs of them share. A route
is kept under a text in which different requests may look alike, and as the object
that the caller was given, into which the caller may write.
-/

namespace SessionRouting

open TieredMatch JsString BoundedCache List

/--
The caches of one configuration, and the route objects that callers were given.
The route cache refers to some of these objects by their place in the list.
-/
structure RouterState where
  objects : List ResolvedAgentRoute
  routes : OrderedMap String ℕ
  byChannelAccount : OrderedMap String (List EvaluatedBinding)
  byChannelAccountIndex : OrderedMap String EvaluatedBindingsIndex

/-- Nothing was asked so far. -/
def RouterState.initial : RouterState where
  objects := []
  routes := OrderedMap.empty
  byChannelAccount := OrderedMap.empty
  byChannelAccountIndex := OrderedMap.empty

/-- A route, and the object that the caller gets it in. -/
structure ReturnedRoute where
  object : ℕ
  route : ResolvedAgentRoute

/-- A new object holds the route. -/
def RouterState.create (state : RouterState) (route : ResolvedAgentRoute) :
    ReturnedRoute × RouterState :=
  ({ object := state.objects.length, route := route },
    { state with objects := state.objects ++ [route] })

/-- A caller writes into a route that it was given. -/
def RouterState.write (state : RouterState) (object : ℕ) (route : ResolvedAgentRoute) :
    RouterState :=
  { state with objects := state.objects.set object route }

/-- The route that the object under a key holds by now. -/
def RouterState.cachedRoute? (state : RouterState) (key : String) : Option ResolvedAgentRoute :=
  (state.routes.get? key).bind fun object => state.objects[object]?

/-- The object is the one that the route cache gives out copies of. -/
def RouterState.Caches (state : RouterState) (object : ℕ) : Prop :=
  object ∈ state.routes.entries.map Prod.snd

instance (state : RouterState) (object : ℕ) : Decidable (state.Caches object) :=
  inferInstanceAs (Decidable (object ∈ state.routes.entries.map Prod.snd))

def maxEvaluatedBindingsCacheKeys : ℕ := 2000

def maxResolvedRouteCacheKeys : ℕ := 4000

def channelAccountKey (channel accountId : String) : String := channel ++ "\t" ++ accountId

/-- A blank id stands in the key like no peer at all. -/
def formatRouteCachePeer (peer : Option RoutePeer) : String :=
  peer.elim "-" fun peer => if peer.id = "" then "-" else peer.kind.name ++ ":" ++ peer.id

def formatRoleIdsCacheKey : List String → String
  | [] => "-"
  | [role] => role
  | [first, second] =>
    if isAtMost first second then first ++ "," ++ second
    else second ++ "," ++ first
  | roleIds => ",".intercalate (toSorted roleIds)

def DmScope.name : DmScope → String
  | .main => "main"
  | .perPeer => "per-peer"
  | .perChannelPeer => "per-channel-peer"
  | .perAccountChannelPeer => "per-account-channel-peer"

def buildResolvedRouteCacheKey (cfg : RoutingConfig) (query : RouteQuery) : String :=
  "\t".intercalate
    [query.channel, query.accountId, formatRouteCachePeer query.peer,
      formatRouteCachePeer query.parentPeer, orElse query.guildId "-",
      orElse query.teamId "-", formatRoleIdsCacheKey query.memberRoleIds,
      (cfg.dmScope.getD .main).name]

section Resolution

variable (toLowerCase : String → String) (cfg : RoutingConfig)

/-- Keep bindings with their index; too many keys clear both caches. -/
def RouterState.keepBindings (state : RouterState) (cacheKey : String)
    (evaluated : List EvaluatedBinding) : RouterState :=
  let index := buildEvaluatedBindingsIndex evaluated
  let grown := state.byChannelAccount.set cacheKey evaluated
  if maxEvaluatedBindingsCacheKeys < grown.entries.length then
    { state with
      byChannelAccount := OrderedMap.empty.set cacheKey evaluated
      byChannelAccountIndex := OrderedMap.empty.set cacheKey index }
  else
    { state with
      byChannelAccount := grown
      byChannelAccountIndex := state.byChannelAccountIndex.set cacheKey index }

def getEvaluatedBindingsForChannelAccount (channel accountId : String) (state : RouterState) :
    List EvaluatedBinding × RouterState :=
  let cacheKey := channelAccountKey channel accountId
  let evaluated := evaluatedBindingsFor toLowerCase cfg channel accountId
  (state.byChannelAccount.get? cacheKey).elim
    (evaluated, state.keepBindings cacheKey evaluated)
    fun hit => (hit, state)

def getEvaluatedBindingIndexForChannelAccount (channel accountId : String) (state : RouterState) :
    EvaluatedBindingsIndex × RouterState :=
  let fetched := getEvaluatedBindingsForChannelAccount toLowerCase cfg channel accountId state
  let cacheKey := channelAccountKey channel accountId
  let built := buildEvaluatedBindingsIndex fetched.1
  (fetched.2.byChannelAccountIndex.get? cacheKey).elim
    (built,
      { fetched.2 with
        byChannelAccountIndex := fetched.2.byChannelAccountIndex.set cacheKey built })
    fun indexed => (indexed, fetched.2)

/-- The route through the index, before it is kept. -/
def findRoute (query : RouteQuery) (state : RouterState) : ResolvedAgentRoute × RouterState :=
  let fetched :=
    getEvaluatedBindingsForChannelAccount toLowerCase cfg query.channel query.accountId state
  let indexed :=
    getEvaluatedBindingIndexForChannelAccount toLowerCase cfg query.channel query.accountId
      fetched.2
  (routeOf toLowerCase cfg query (firstIndexed (indexedTiers query indexed.1)), indexed.2)

/-- A request, and whether the log is verbose when it comes. -/
structure RouteRequest where
  verbose : Bool
  input : ResolveAgentRouteInput

/--
Routes are kept only without identity links and without a verbose log. A kept
route is copied; otherwise the object that is kept is the one that is returned.
-/
def resolveAgentRoute (request : RouteRequest) (state : RouterState) :
    ReturnedRoute × RouterState :=
  let query := request.input.query toLowerCase
  let found := findRoute toLowerCase cfg query state
  let created := found.2.create found.1
  if request.verbose = false ∧ cfg.identityLinks = none then
    let routeCacheKey := buildResolvedRouteCacheKey cfg query
    (state.cachedRoute? routeCacheKey).elim
      (created.1,
        { created.2 with
          routes :=
            store maxResolvedRouteCacheKeys created.2.routes routeCacheKey created.1.object })
      fun cachedRoute => state.create cachedRoute
  else created

/-- What happens to a router: it is asked, or a caller changes a route object. -/
inductive RouterAction where
  | request (request : RouteRequest)
  | write (object : ℕ) (route : ResolvedAgentRoute)

def RouterAction.request? : RouterAction → Option RouteRequest
  | .request asked => some asked
  | .write _ _ => none

/-- The routes of the requests of a run, as they are returned. -/
def answers : RouterState → List RouterAction → List ResolvedAgentRoute
  | _, [] => []
  | state, .request request :: rest =>
    let resolved := resolveAgentRoute toLowerCase cfg request state
    resolved.1.route :: answers resolved.2 rest
  | state, .write object route :: rest => answers (state.write object route) rest

/-- No caller writes into an object while the route cache refers to it. -/
def SparesCached : RouterState → List RouterAction → Prop
  | _, [] => True
  | state, .request request :: rest =>
    SparesCached (resolveAgentRoute toLowerCase cfg request state).2 rest
  | state, .write object route :: rest =>
    ¬ state.Caches object ∧ SparesCached (state.write object route) rest

end Resolution

/-- Two queries ask for the same: what the plain reading looks at agrees. -/
structure Alike (first second : RouteQuery) : Prop where
  channel : first.channel = second.channel
  accountId : first.accountId = second.accountId
  peer : first.peer = second.peer
  parent : first.parentScope = second.parentScope
  guildId : first.guildId = second.guildId
  teamId : first.teamId = second.teamId
  roles : ∀ role, role ∈ first.memberRoleIds ↔ role ∈ second.memberRoleIds

section Alike

variable {toLowerCase : String → String} {cfg : RoutingConfig} {first second : RouteQuery}

section

variable (alike : Alike first second)
include alike

theorem Alike.matchesBindingScope_eq
    (given : NormalizedBindingMatch) (scopePeer : Option RoutePeer) :
    matchesBindingScope given (first.scope scopePeer) =
      matchesBindingScope given (second.scope scopePeer) := by
  have sameRoles : ∀ role,
      first.memberRoleIds.contains role = second.memberRoleIds.contains role := by
    intro role
    rw [Bool.eq_iff_iff, contains_iff_mem, contains_iff_mem]
    exact alike.roles role
  unfold matchesBindingScope routeBindingScopeMatches
  dsimp only [RouteQuery.scope]
  rw [alike.guildId, alike.teamId, funext sameRoles]

theorem Alike.tier_eq (matchedBy : MatchedBy)
    (scopePeer : Option RoutePeer) (predicate : EvaluatedBinding → Bool) :
    first.tier matchedBy scopePeer predicate = second.tier matchedBy scopePeer predicate := by
  unfold RouteQuery.tier
  congr 1
  funext candidate
  rw [alike.matchesBindingScope_eq]

theorem Alike.plainTiers_eq : plainTiers first = plainTiers second := by
  unfold plainTiers
  simp only [alike.tier_eq, alike.peer, alike.parent]

theorem Alike.routeOf_eq (found : Option (MatchedBy × EvaluatedBinding)) :
    routeOf toLowerCase cfg first found = routeOf toLowerCase cfg second found := by
  unfold routeOf choose
  rw [alike.channel, alike.accountId, alike.peer]

theorem Alike.plainRoute_eq :
    plainRoute toLowerCase cfg first = plainRoute toLowerCase cfg second := by
  rw [plainRoute, plainRoute, alike.plainTiers_eq, alike.channel, alike.accountId, alike.routeOf_eq]

end

end Alike

section Invariant

variable {toLowerCase : String → String} {cfg : RoutingConfig}

def KeptFor {Kept : Type} (compute : String → String → Kept) (key : String) (value : Kept) : Prop :=
  ∀ channel accountId,
    '\t' ∉ accountId.toList → channelAccountKey channel accountId = key →
      value = compute channel accountId

variable {state : RouterState} {accountId : String}

theorem channelAccountKey_inj {channel otherChannel otherAccountId : String}
    (plain : '\t' ∉ accountId.toList) (otherPlain : '\t' ∉ otherAccountId.toList)
    (same : channelAccountKey channel accountId = channelAccountKey otherChannel otherAccountId) :
    channel = otherChannel ∧ accountId = otherAccountId := by
  have lists := congrArg (fun text => text.toList.reverse) same
  simp only [channelAccountKey, String.toList_append, reverse_append] at lists
  have isTab : "\t".toList.reverse = ['\t'] := by decide
  rw [isTab] at lists
  obtain ⟨sameAccount, sameChannel⟩ := append_separator_inj
    (fun member => plain (mem_reverse.mp member))
    (fun member => otherPlain (mem_reverse.mp member)) lists
  exact ⟨String.toList_injective (reverse_injective sameChannel),
    String.toList_injective (reverse_injective sameAccount)⟩

theorem keptFor_compute {Kept : Type} (compute : String → String → Kept) (channel : String)
    (plain : '\t' ∉ accountId.toList) :
    KeptFor compute (channelAccountKey channel accountId) (compute channel accountId) := by
  intro otherChannel otherAccountId otherPlain same
  obtain ⟨sameChannel, sameAccount⟩ := channelAccountKey_inj plain otherPlain same.symm
  rw [sameChannel, sameAccount]

/-- The bindings and the indexes that are kept are the right ones. -/
structure KeepsBindings (toLowerCase : String → String) (cfg : RoutingConfig)
    (state : RouterState) : Prop where
  bindings : Holds (KeptFor (evaluatedBindingsFor toLowerCase cfg)) state.byChannelAccount
  index : Holds
    (KeptFor fun channel accountId =>
      buildEvaluatedBindingsIndex (evaluatedBindingsFor toLowerCase cfg channel accountId))
    state.byChannelAccountIndex

/-- Nothing but the caches of bindings changed. -/
structure SameRoutes (before after : RouterState) : Prop where
  objects : after.objects = before.objects
  routes : after.routes = before.routes

theorem SameRoutes.trans {first second third : RouterState} (left : SameRoutes first second)
    (right : SameRoutes second third) : SameRoutes first third :=
  ⟨right.objects.trans left.objects, right.routes.trans left.routes⟩

theorem sameRoutes_keepBindings (state : RouterState) (cacheKey : String)
    (evaluated : List EvaluatedBinding) :
    SameRoutes state (state.keepBindings cacheKey evaluated) := by
  unfold RouterState.keepBindings
  dsimp only
  split
  · exact ⟨rfl, rfl⟩
  · exact ⟨rfl, rfl⟩

section

variable (keeps : KeepsBindings toLowerCase cfg state)
include keeps

theorem KeepsBindings.keepBindings (channel : String)
    (plain : '\t' ∉ accountId.toList) : KeepsBindings toLowerCase cfg
      (state.keepBindings (channelAccountKey channel accountId)
        (evaluatedBindingsFor toLowerCase cfg channel accountId)) := by
  have bindings := keptFor_compute (evaluatedBindingsFor toLowerCase cfg) channel plain
  have index := keptFor_compute (fun channel accountId =>
      buildEvaluatedBindingsIndex (evaluatedBindingsFor toLowerCase cfg channel accountId))
    channel plain
  unfold RouterState.keepBindings
  dsimp only
  split
  · exact ⟨(holds_empty _).set bindings, (holds_empty _).set index⟩
  · exact ⟨keeps.bindings.set bindings, keeps.index.set index⟩

theorem getEvaluatedBindingsForChannelAccount_spec
    (channel : String) (plain : '\t' ∉ accountId.toList) :
    let fetched :=
      getEvaluatedBindingsForChannelAccount toLowerCase cfg channel accountId state
    fetched.1 = evaluatedBindingsFor toLowerCase cfg channel accountId ∧
      KeepsBindings toLowerCase cfg fetched.2 ∧ SameRoutes state fetched.2 := by
  unfold getEvaluatedBindingsForChannelAccount
  dsimp only
  cases isKept : state.byChannelAccount.get? (channelAccountKey channel accountId) with
  | some hit => exact ⟨keeps.bindings _ hit isKept channel accountId plain rfl, keeps, rfl, rfl⟩
  | none => exact ⟨rfl, keeps.keepBindings channel plain, sameRoutes_keepBindings state _ _⟩

theorem getEvaluatedBindingIndexForChannelAccount_spec (channel : String)
    (plain : '\t' ∉ accountId.toList) :
    let indexed :=
      getEvaluatedBindingIndexForChannelAccount toLowerCase cfg channel accountId state
    indexed.1 =
        buildEvaluatedBindingsIndex (evaluatedBindingsFor toLowerCase cfg channel accountId) ∧
      KeepsBindings toLowerCase cfg indexed.2 ∧ SameRoutes state indexed.2 := by
  obtain ⟨isFetched, keepsFetched, sameRoutes⟩ :=
    getEvaluatedBindingsForChannelAccount_spec keeps channel plain
  unfold getEvaluatedBindingIndexForChannelAccount
  dsimp only
  rw [isFetched]
  cases isKept : (getEvaluatedBindingsForChannelAccount toLowerCase cfg channel accountId
      state).2.byChannelAccountIndex.get? (channelAccountKey channel accountId) with
  | some indexed =>
    exact ⟨keepsFetched.index _ indexed isKept channel accountId plain rfl, keepsFetched,
      sameRoutes⟩
  | none =>
    exact ⟨rfl, ⟨keepsFetched.bindings, keepsFetched.index.set (keptFor_compute
        (fun channel accountId =>
          buildEvaluatedBindingsIndex (evaluatedBindingsFor toLowerCase cfg channel accountId))
        channel plain)⟩, sameRoutes.objects, sameRoutes.routes⟩

theorem findRoute_spec {query : RouteQuery}
    (normalized : query.Normalized) (plain : '\t' ∉ query.accountId.toList) :
    let found := findRoute toLowerCase cfg query state
    found.1 = plainRoute toLowerCase cfg query ∧
      KeepsBindings toLowerCase cfg found.2 ∧ SameRoutes state found.2 := by
  obtain ⟨_, keepsFetched, sameRoutes⟩ :=
    getEvaluatedBindingsForChannelAccount_spec keeps query.channel plain
  obtain ⟨isIndex, keepsIndexed, sameIndexedRoutes⟩ :=
    getEvaluatedBindingIndexForChannelAccount_spec keepsFetched query.channel plain
  unfold findRoute
  dsimp only
  rw [isIndex]
  exact ⟨routeOf_indexed_eq_plainRoute toLowerCase cfg normalized, keepsIndexed,
    sameRoutes.trans sameIndexedRoutes⟩

end

end Invariant

/-- Two requests whose routes are kept under one key ask for the same. -/
def Distinguished (toLowerCase : String → String) (cfg : RoutingConfig)
    (earlier later : RouteRequest) : Prop :=
  earlier.verbose = false → later.verbose = false →
    buildResolvedRouteCacheKey cfg (earlier.input.query toLowerCase) =
        buildResolvedRouteCacheKey cfg (later.input.query toLowerCase) →
      Alike (earlier.input.query toLowerCase) (later.input.query toLowerCase)

section Runs

variable {toLowerCase : String → String} {cfg : RoutingConfig}

/-- The object holds the plain route of an earlier request with the key. -/
def RouteOfEarlier (toLowerCase : String → String) (cfg : RoutingConfig)
    (earlier : List RouteRequest) (objects : List ResolvedAgentRoute) (key : String)
    (object : ℕ) : Prop :=
  ∃ request ∈ earlier, request.verbose = false ∧
    buildResolvedRouteCacheKey cfg (request.input.query toLowerCase) = key ∧
      objects[object]? = some (plainRoute toLowerCase cfg (request.input.query toLowerCase))

structure Sound (toLowerCase : String → String) (cfg : RoutingConfig)
    (earlier : List RouteRequest) (state : RouterState) : Prop where
  keeps : KeepsBindings toLowerCase cfg state
  routes : Holds (RouteOfEarlier toLowerCase cfg earlier state.objects) state.routes

variable {earlier : List RouteRequest}

theorem sound_initial : Sound toLowerCase cfg [] RouterState.initial where
  keeps := ⟨holds_empty _, holds_empty _⟩
  routes := holds_empty _

theorem RouteOfEarlier.append {objects : List ResolvedAgentRoute} (later : List RouteRequest)
    (created : List ResolvedAgentRoute) (key : String) (object : ℕ)
    (isEarlier : RouteOfEarlier toLowerCase cfg earlier objects key object) :
    RouteOfEarlier toLowerCase cfg (earlier ++ later) (objects ++ created) key object := by
  obtain ⟨request, member, notVerbose, sameKey, held⟩ := isEarlier
  refine ⟨request, mem_append_left later member, notVerbose, sameKey, ?_⟩
  rw [getElem?_append_left (List.getElem?_eq_some_iff.mp held).1, held]

variable {state : RouterState}

/-- What the cache gives out is the plain route of an earlier request. -/
theorem Sound.cachedRoute? (sound : Sound toLowerCase cfg earlier state) {key : String}
    {route : ResolvedAgentRoute} (cached : state.cachedRoute? key = some route) :
    ∃ request ∈ earlier, request.verbose = false ∧
      buildResolvedRouteCacheKey cfg (request.input.query toLowerCase) = key ∧
        route = plainRoute toLowerCase cfg (request.input.query toLowerCase) := by
  obtain ⟨object, isKept, held⟩ := Option.bind_eq_some_iff.mp cached
  obtain ⟨request, member, notVerbose, sameKey, isPlain⟩ := sound.routes key object isKept
  exact ⟨request, member, notVerbose, sameKey, Option.some.inj (held.symm.trans isPlain)⟩

theorem resolveAgentRoute_spec
    (tabs : ∀ text, '\t' ∈ (toLowerCase text).toList → '\t' ∈ text.toList)
    (sound : Sound toLowerCase cfg earlier state) {request : RouteRequest}
    (distinguished : ∀ other ∈ earlier, Distinguished toLowerCase cfg other request) :
    let resolved := resolveAgentRoute toLowerCase cfg request state
    resolved.1.route = plainRoute toLowerCase cfg (request.input.query toLowerCase) ∧
      Sound toLowerCase cfg (earlier ++ [request]) resolved.2 := by
  have plain : '\t' ∉ (request.input.query toLowerCase).accountId.toList :=
    not_mem_normalizeAccountId tabs ⟨by decide, by decide⟩ _
  obtain ⟨isPlain, keeps, sameRoutes⟩ := findRoute_spec sound.keeps
    (normalized_query toLowerCase request.input) plain
  have routes : ∀ created, Holds
      (RouteOfEarlier toLowerCase cfg (earlier ++ [request]) (state.objects ++ [created]))
      state.routes :=
    fun created => sound.routes.mono (RouteOfEarlier.append [request] [created])
  have atNew : ∀ created : ResolvedAgentRoute,
      (state.objects ++ [created])[state.objects.length]? = some created :=
    fun created => getElem?_concat_length
  unfold resolveAgentRoute RouterState.create
  dsimp only
  rw [sameRoutes.objects, sameRoutes.routes, isPlain]
  split
  · rename_i caching
    cases cached : state.cachedRoute?
        (buildResolvedRouteCacheKey cfg (request.input.query toLowerCase)) with
    | some cachedRoute =>
      obtain ⟨other, member, notVerbose, sameKey, isRoute⟩ := sound.cachedRoute? cached
      have alike := distinguished other member notVerbose caching.1 sameKey
      refine ⟨isRoute.trans alike.plainRoute_eq, ⟨sound.keeps.bindings, sound.keeps.index⟩, ?_⟩
      exact routes cachedRoute
    | none =>
      refine ⟨rfl, ⟨keeps.bindings, keeps.index⟩, ?_⟩
      exact (routes _).store _
        ⟨request, mem_append_right _ mem_cons_self, caching.1, rfl, atNew _⟩
  · exact ⟨rfl, ⟨keeps.bindings, keeps.index⟩, routes _⟩

/-- Writing into an object that the cache does not refer to leaves what it gives out. -/
theorem Sound.write (sound : Sound toLowerCase cfg earlier state) {object : ℕ}
    (spared : ¬ state.Caches object) (route : ResolvedAgentRoute) :
    Sound toLowerCase cfg earlier (state.write object route) where
  keeps := ⟨sound.keeps.bindings, sound.keeps.index⟩
  routes key kept isKept := by
    obtain ⟨request, member, notVerbose, sameKey, isPlain⟩ := sound.routes key kept isKept
    refine ⟨request, member, notVerbose, sameKey, ?_⟩
    have other : object ≠ kept := by
      rintro rfl
      exact spared (mem_map.mpr ⟨(key, object), OrderedMap.get?_eq_some_iff.mp isKept, rfl⟩)
    rw [RouterState.write, getElem?_set_ne other, isPlain]

theorem answers_of_sound (tabs : ∀ text, '\t' ∈ (toLowerCase text).toList → '\t' ∈ text.toList)
    {actions : List RouterAction} (sound : Sound toLowerCase cfg earlier state)
    (distinguished :
      (earlier ++ actions.filterMap RouterAction.request?).Pairwise
        (Distinguished toLowerCase cfg))
    (spared : SparesCached toLowerCase cfg state actions) :
    answers toLowerCase cfg state actions =
      (actions.filterMap RouterAction.request?).map fun request =>
        plainRoute toLowerCase cfg (request.input.query toLowerCase) := by
  induction actions generalizing earlier state with
  | nil => rfl
  | cons action rest inductionHypothesis =>
    cases action with
    | request request =>
      have isRequest : (RouterAction.request request :: rest).filterMap RouterAction.request? =
          request :: rest.filterMap RouterAction.request? := rfl
      rw [isRequest] at distinguished ⊢
      have fromEarlier : ∀ other ∈ earlier, Distinguished toLowerCase cfg other request :=
        fun other member =>
          (pairwise_append.mp distinguished).2.2 other member request mem_cons_self
      obtain ⟨isPlain, soundAfter⟩ := resolveAgentRoute_spec tabs sound fromEarlier
      have later := inductionHypothesis soundAfter
        (by rwa [append_assoc, singleton_append]) spared
      rw [answers, map_cons, isPlain, later]
    | write object route =>
      exact inductionHypothesis (sound.write spared.1 route) distinguished spared.2

/--
Whatever came before, every request gets the route of the plain reading, provided
that requests whose routes are kept under one key ask for the same, and that no
caller writes into a route that is kept.
-/
theorem answers_eq_plainRoutes
    (tabs : ∀ text, '\t' ∈ (toLowerCase text).toList → '\t' ∈ text.toList)
    {actions : List RouterAction}
    (distinguished :
      (actions.filterMap RouterAction.request?).Pairwise (Distinguished toLowerCase cfg))
    (spared : SparesCached toLowerCase cfg RouterState.initial actions) :
    answers toLowerCase cfg RouterState.initial actions =
      (actions.filterMap RouterAction.request?).map fun request =>
        plainRoute toLowerCase cfg (request.input.query toLowerCase) :=
  answers_of_sound tabs sound_initial distinguished spared

end Runs

/-- Groups of any id go to the support agent. -/
def groupConfig : RoutingConfig where
  bindings :=
    [{ type := .route
       agentId := "support"
       «match» :=
        { channel := some "discord"
          accountId := some "*"
          peer := some { kind := some "group", id := some "*" }
          guildId := none
          teamId := none
          roles := none }
       sessionDmScope := none }]
  agents := [{ id := some "main", default := true }, { id := some "support", default := false }]
  dmScope := none
  identityLinks := none

def requestOf (peer : Option RoutePeer) : RouteRequest where
  verbose := false
  input :=
    { channel := "discord"
      accountId := none
      peer := peer
      parentPeer := none
      guildId := none
      teamId := none
      memberRoleIds := none }

theorem distinguished_of_key_ne {toLowerCase : String → String} {cfg : RoutingConfig}
    {earlier later : RouteRequest}
    (differ : buildResolvedRouteCacheKey cfg (earlier.input.query toLowerCase) ≠
      buildResolvedRouteCacheKey cfg (later.input.query toLowerCase)) :
    Distinguished toLowerCase cfg earlier later :=
  fun _ _ same => absurd same differ

theorem distinguished_self (toLowerCase : String → String) (cfg : RoutingConfig)
    (request : RouteRequest) : Distinguished toLowerCase cfg request request :=
  fun _ _ _ => ⟨rfl, rfl, rfl, rfl, rfl, rfl, fun _ => Iff.rfl⟩

/-- A route to another session, as a caller of the router makes it. -/
def threadRoute : ResolvedAgentRoute where
  agentId := "main"
  channel := "discord"
  accountId := "default"
  sessionKey := "agent:main:main:thread:1"
  mainSessionKey := "agent:main:main"
  lastRoutePolicy := .session
  matchedBy := .default

/--
A request without a peer and one of a group have keys of their own; the third route
is a copy of the first, into which the caller may write.
-/
theorem answers_eq_plainRoutes_groupConfig :
    answers asciiLower groupConfig RouterState.initial
        [.request (requestOf none), .request (requestOf (some ⟨.group, "7"⟩)),
          .request (requestOf none), .write 2 threadRoute, .request (requestOf none)] =
      [requestOf none, requestOf (some ⟨.group, "7"⟩), requestOf none, requestOf none].map
        fun request => plainRoute asciiLower groupConfig (request.input.query asciiLower) :=
  answers_eq_plainRoutes (fun _ => mem_of_mem_asciiLower (by decide))
    (by
      have apart : buildResolvedRouteCacheKey groupConfig
          ((requestOf none).input.query asciiLower) ≠ buildResolvedRouteCacheKey groupConfig
              ((requestOf (some ⟨.group, "7"⟩)).input.query asciiLower) := by
        decide +kernel
      have requests : filterMap RouterAction.request?
          [.request (requestOf none), .request (requestOf (some ⟨.group, "7"⟩)),
            .request (requestOf none), .write 2 threadRoute, .request (requestOf none)] =
          [requestOf none, requestOf (some ⟨.group, "7"⟩), requestOf none, requestOf none] := rfl
      have alike := distinguished_self asciiLower groupConfig (requestOf none)
      have differ := distinguished_of_key_ne apart
      have differBack := distinguished_of_key_ne apart.symm
      rw [requests]
      simp only [pairwise_cons, forall_mem_cons, not_mem_nil, false_implies, implies_true,
        and_true, Pairwise.nil]
      exact ⟨⟨differ, alike, alike⟩, ⟨differBack, differBack⟩, alike⟩)
    ⟨by decide +kernel, trivial⟩

/-- A caller that writes into the first route changes the answer to the next request. -/
example : (answers asciiLower groupConfig RouterState.initial
    [.request (requestOf none), .write 0 threadRoute, .request (requestOf none)]).getLast? =
      some threadRoute := by
  decide +kernel

/--
A group with a blank id is kept like no peer at all: it gets the default agent of
the request before it, where the plain reading finds the binding of all groups.
-/
theorem answers_ne_plainRoutes :
    answers asciiLower groupConfig RouterState.initial
        [.request (requestOf none), .request (requestOf (some ⟨.group, " "⟩))] ≠
      [requestOf none, requestOf (some ⟨.group, " "⟩)].map fun request =>
        plainRoute asciiLower groupConfig (request.input.query asciiLower) := by
  decide +kernel

end SessionRouting
