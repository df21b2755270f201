import AieClaw.RouteResolution

/-!
# The index finds what a scan finds

Each tier of the search looks at a part of the bindings only. The part holds every
binding that meets the tier's condition, unless the binding was found by a tier
before it, so the search through the index and the plain reading agree.
-/

namespace SessionRouting

open TieredMatch List Option

section Matching

variable {binding : EvaluatedBinding} {query : RouteQuery} {scopePeer : Option RoutePeer}

/-- The ids of a query have no white space around them. -/
structure RouteQuery.Normalized (query : RouteQuery) : Prop where
  guildId : JsString.trim query.guildId = query.guildId
  teamId : JsString.trim query.teamId = query.teamId

theorem normalized_query (toLowerCase : String → String) (input : ResolveAgentRouteInput) :
    (input.query toLowerCase).Normalized where
  guildId := JsString.trim_trim _
  teamId := JsString.trim_trim _

theorem getD_eq_of_scopeIdMatches {constraint : Option String} {exact : String}
    (given : isGiven constraint = true) (matched : scopeIdMatches constraint exact "" = true) :
    constraint.getD "" = exact := by
  cases constraint with
  | none => exact absurd given (by decide)
  | some id =>
    have nonempty : id ≠ "" := of_decide_eq_true given
    simpa [scopeIdMatches, given, nonempty] using matched

theorem routeBindingScopeMatches_of_matches {scope : BindingScope}
    (matched : matchesBindingScope binding.match scope = true) :
    routeBindingScopeMatches binding.match scope = true :=
  (Bool.and_eq_true_iff.mp matched).2

theorem ids_eq_of_matches (normalized : query.Normalized)
    (matched : matchesBindingScope binding.match (query.scope scopePeer) = true) :
    (asksForGuild binding = true → binding.match.guildId.getD "" = query.guildId) ∧
      (asksForTeam binding = true → binding.match.teamId.getD "" = query.teamId) := by
  have inScope := routeBindingScopeMatches_of_matches matched
  simp only [routeBindingScopeMatches, Bool.and_eq_true] at inScope
  refine ⟨fun asks => ?_, fun asks => ?_⟩
  · have exact := getD_eq_of_scopeIdMatches asks inScope.1.1
    rwa [RouteQuery.scope, normalized.guildId] at exact
  · have exact := getD_eq_of_scopeIdMatches asks inScope.1.2
    rwa [RouteQuery.scope, normalized.teamId] at exact

theorem memberRoleIds_ne_nil_of_matches (someRoles : binding.match.roles ≠ some [])
    (asks : asksForRoles binding = true)
    (matched : matchesBindingScope binding.match (query.scope scopePeer) = true) :
    query.memberRoleIds ≠ [] := by
  have inScope := routeBindingScopeMatches_of_matches matched
  simp only [routeBindingScopeMatches, Bool.and_eq_true] at inScope
  obtain ⟨roles, isRoles⟩ := isSome_iff_exists.mp asks
  have nonempty : roles ≠ [] := by
    rintro rfl
    exact someRoles isRoles
  have member := inScope.2
  rw [isRoles, normalizeRouteBindingRoles, filter_some,
    if_pos (decide_eq_true nonempty), elim_some] at member
  obtain ⟨role, -, isMember⟩ := any_eq_true.mp member
  intro empty
  rw [RouteQuery.scope, empty] at isMember
  exact absurd isMember (by simp)

theorem not_matches_without_peer (asks : isValidPeer binding = true ∨ isWildcard binding = true) :
    matchesBindingScope binding.match (query.scope none) = false := by
  cases isPeer : binding.match.peer with
  | valid kind id => simp [matchesBindingScope, isPeer, RouteQuery.scope]
  | wildcardKind kind => simp [matchesBindingScope, isPeer, RouteQuery.scope]
  | none => simp [isValidPeer, isWildcard, isPeer] at asks
  | invalid => simp [isValidPeer, isWildcard, isPeer] at asks

theorem mem_peerLookupKeys_of_kinds {kind other : ChatType}
    (kinds : peerKindMatches kind other = true) (id : String) {key : String}
    (member : key ∈ peerLookupKeys other id) : key ∈ peerLookupKeys kind id := by
  cases kind <;> cases other <;> simp_all [peerKindMatches, peerLookupKeys, or_comm]

theorem isUnderPeerKey_of_matches {peer : RoutePeer} (valid : isValidPeer binding = true)
    (matched : matchesBindingScope binding.match (query.scope (some peer)) = true)
    {key : String} (member : key ∈ peerLookupKeys peer.kind peer.id) :
    isUnderPeerKey key binding = true := by
  cases isPeer : binding.match.peer with
  | valid kind id =>
    simp only [matchesBindingScope, isPeer, RouteQuery.scope, elim_some,
      Bool.and_eq_true, decide_eq_true_eq] at matched
    obtain ⟨⟨kinds, isId⟩, -⟩ := matched
    rw [isUnderPeerKey, isPeer]
    exact contains_iff_mem.mpr (mem_peerLookupKeys_of_kinds kinds id (isId ▸ member))
  | none => simp [isValidPeer, isPeer] at valid
  | invalid => simp [isValidPeer, isPeer] at valid
  | wildcardKind kind => simp [isValidPeer, isPeer] at valid

end Matching

section Peers

theorem find?_foldl_distinct (condition : EvaluatedBinding → Bool)
    (bindings out : List EvaluatedBinding) :
    (bindings.foldl (fun out binding => if binding ∈ out then out else out ++ [binding])
        out).find? condition = (out ++ bindings).find? condition := by
  induction bindings generalizing out with
  | nil => rw [foldl_nil, append_nil]
  | cons binding rest inductionHypothesis =>
    rw [foldl_cons, inductionHypothesis]
    split
    · rename_i member
      rw [find?_append, find?_append, find?_cons]
      cases meets : condition binding with
      | false => rfl
      | true =>
        have found : (out.find? condition).isSome := find?_isSome.mpr ⟨binding, member, meets⟩
        obtain ⟨first, isFirst⟩ := isSome_iff_exists.mp found
        rw [isFirst]
        rfl
    · rw [append_assoc, singleton_append]

theorem find?_flatMap_of_all {keys : List String} {lists : String → List EvaluatedBinding}
    {condition : EvaluatedBinding → Bool} {found : Option EvaluatedBinding}
    (nonempty : keys ≠ []) (all : ∀ key ∈ keys, (lists key).find? condition = found) :
    (keys.flatMap lists).find? condition = found := by
  induction keys with
  | nil => exact absurd rfl nonempty
  | cons key rest inductionHypothesis =>
    rw [flatMap_cons, find?_append, all key mem_cons_self]
    cases rest with
    | nil => rw [flatMap_nil, find?_nil, or_none]
    | cons other later =>
      rw [inductionHypothesis (cons_ne_nil _ _)
        fun another member => all another (.tail key member)]
      exact or_self

theorem peerLookupKeys_ne_nil (kind : ChatType) (id : String) : peerLookupKeys kind id ≠ [] := by
  cases kind with
  | direct => exact cons_ne_nil _ _
  | group => exact cons_ne_nil _ _
  | channel => exact cons_ne_nil _ _

theorem Indexes.find?_collect {bindings : List EvaluatedBinding}
    {index : EvaluatedBindingsIndex} (indexes : Indexes bindings index) {peer : RoutePeer}
    {condition : EvaluatedBinding → Bool}
    (isUnder : ∀ binding ∈ bindings, condition binding = true →
      ∀ key ∈ peerLookupKeys peer.kind peer.id, isUnderPeerKey key binding = true) :
    (collectPeerIndexedBindings index (some peer)).find? condition = bindings.find? condition := by
  rw [collectPeerIndexedBindings, elim_some, find?_foldl_distinct, nil_append]
  refine find?_flatMap_of_all (peerLookupKeys_ne_nil _ _) ?_
  intro key member
  rw [indexes.byPeer key]
  exact find?_filter_of_imp fun binding inBindings meets =>
    isUnder binding inBindings meets key member

end Peers

section Tiers

variable {bindings : List EvaluatedBinding} {index : EvaluatedBindingsIndex}
  {query : RouteQuery}

theorem condition_eq_false {tier : Tier MatchedBy EvaluatedBinding}
    (nothing : bindings.find? tier.condition = none) {binding : EvaluatedBinding}
    (member : binding ∈ bindings) : tier.condition binding = false :=
  Bool.eq_false_iff.mpr (find?_eq_none.mp nothing binding member)

theorem find?_eq_none_of_forall {condition : EvaluatedBinding → Bool}
    (never : ∀ binding ∈ bindings, condition binding = false) : bindings.find? condition = none :=
  find?_eq_none.mpr fun binding member => by simp [never binding member]

theorem isOpen_of_matches
    (noPeer : bindings.find? (query.tier .bindingPeer query.peer isValidPeer).condition = none)
    (noWildcard :
      bindings.find? (query.tier .bindingPeerWildcard query.peer isWildcard).condition = none)
    {binding : EvaluatedBinding} (member : binding ∈ bindings)
    (matched : matchesBindingScope binding.match (query.scope query.peer) = true) :
    isOpen binding = true := by
  have notPeer := condition_eq_false noPeer member
  have notWildcard := condition_eq_false noWildcard member
  dsimp only [RouteQuery.tier] at notPeer notWildcard
  rw [matched, Bool.and_true] at notPeer notWildcard
  rw [isOpen, notPeer, notWildcard]
  rfl

theorem find?_peerTier (indexes : Indexes bindings index) (matchedBy : MatchedBy)
    (peer : Option RoutePeer) : (if peer.isSome then
        (collectPeerIndexedBindings index peer).find?
          (query.tier matchedBy peer isValidPeer).condition
      else none) = bindings.find? (query.tier matchedBy peer isValidPeer).condition := by
  cases peer with
  | none =>
    refine (find?_eq_none_of_forall ?_).symm
    intro binding _
    cases valid : isValidPeer binding with
    | false => simp [RouteQuery.tier, valid]
    | true => simp [RouteQuery.tier, not_matches_without_peer (.inl valid)]
  | some peer =>
    rw [if_pos (by rfl)]
    refine indexes.find?_collect ?_
    intro binding _ meets key inKeys
    obtain ⟨valid, matched⟩ := Bool.and_eq_true_iff.mp meets
    exact isUnderPeerKey_of_matches valid matched inKeys

theorem find?_parentTier (indexes : Indexes bindings index) : (if query.parentScope.isSome then
        (collectPeerIndexedBindings index query.parentPeer).find?
          (query.tier .bindingPeerParent query.parentScope isValidPeer).condition
      else none) = bindings.find?
        (query.tier .bindingPeerParent query.parentScope isValidPeer).condition := by
  have atParent : (if query.parentScope.isSome then
          (collectPeerIndexedBindings index query.parentScope).find?
            (query.tier .bindingPeerParent query.parentScope isValidPeer).condition
        else none) =
        bindings.find? (query.tier .bindingPeerParent query.parentScope isValidPeer).condition :=
    find?_peerTier indexes .bindingPeerParent query.parentScope
  cases isParent : query.parentScope with
  | none => rw [← isParent, ← atParent, isParent]; rfl
  | some parent =>
    have sameParent := (filter_eq_some_iff.mp isParent).1
    rw [isParent] at atParent
    rw [sameParent]
    exact atParent

theorem find?_wildcardTier (indexes : Indexes bindings index) : (if query.peer.isSome then
        index.byPeerWildcard.find? (query.tier .bindingPeerWildcard query.peer isWildcard).condition
      else none) =
      bindings.find? (query.tier .bindingPeerWildcard query.peer isWildcard).condition := by
  rw [indexes.byPeerWildcard]
  cases query.peer with
  | none =>
    refine (find?_eq_none_of_forall ?_).symm
    intro binding _
    cases wildcard : isWildcard binding with
    | false => simp [RouteQuery.tier, wildcard]
    | true => simp [RouteQuery.tier, not_matches_without_peer (.inr wildcard)]
  | some peer =>
    rw [if_pos (by rfl)]
    exact find?_filter_of_imp fun binding _ meets => (Bool.and_eq_true_iff.mp meets).1

theorem find?_part_of_imp {enabled : Prop} [Decidable enabled]
    {candidates : List EvaluatedBinding} {keep condition : EvaluatedBinding → Bool}
    (isPart : enabled → candidates = bindings.filter keep)
    (keeps : ∀ binding ∈ bindings, condition binding = true → enabled ∧ keep binding = true) :
    (if decide enabled then candidates.find? condition else none) = bindings.find? condition := by
  by_cases holds : enabled
  · rw [if_pos (decide_eq_true holds), isPart holds]
    exact find?_filter_of_imp fun binding member meets => (keeps binding member meets).2
  · rw [if_neg (by simpa using holds)]
    refine (find?_eq_none_of_forall ?_).symm
    intro binding member
    exact Bool.eq_false_iff.mpr fun meets => holds (keeps binding member meets).1

theorem ne_empty_of_isGiven {constraint : Option String} {id : String}
    (given : isGiven constraint = true) (isId : constraint.getD "" = id) : id ≠ "" :=
  isId ▸ of_decide_eq_true given

/-- Every tier of the index finds what a scan finds, given the tiers before it. -/
theorem indexedTiers_covered (indexes : Indexes bindings index)
    (someRoles : ∀ binding ∈ bindings, binding.match.roles ≠ some [])
    (normalized : query.Normalized) : Covered bindings (indexedTiers query index) := by
  refine ⟨find?_peerTier indexes .bindingPeer query.peer, fun noPeer =>
    ⟨find?_parentTier indexes, fun _ => ⟨find?_wildcardTier indexes, fun noWildcard => ?_⟩⟩⟩
  have opened : ∀ binding ∈ bindings,
      matchesBindingScope binding.match (query.scope query.peer) = true → isOpen binding = true :=
    fun binding member matched => isOpen_of_matches noPeer noWildcard member matched
  refine ⟨find?_part_of_imp
    (fun enabled => (if_neg enabled.1).trans (indexes.byGuildWithRoles query.guildId)) ?_,
    fun noGuildRoles => ⟨find?_part_of_imp
      (fun enabled => (if_neg enabled).trans (indexes.byGuild query.guildId)) ?_,
      fun noGuild => ?_⟩⟩
  · intro binding member meets
    obtain ⟨asks, matched⟩ := Bool.and_eq_true_iff.mp meets
    obtain ⟨asksGuild, asksRoles⟩ := Bool.and_eq_true_iff.mp asks
    have isGuild := (ids_eq_of_matches normalized matched).1 asksGuild
    refine ⟨⟨ne_empty_of_isGiven asksGuild isGuild,
      memberRoleIds_ne_nil_of_matches (someRoles binding member) asksRoles matched⟩, ?_⟩
    simp [opened binding member matched, asksGuild, asksRoles, isGuild]
  · intro binding member meets
    obtain ⟨asks, matched⟩ := Bool.and_eq_true_iff.mp meets
    obtain ⟨asksGuild, noRoles⟩ := Bool.and_eq_true_iff.mp asks
    have isGuild := (ids_eq_of_matches normalized matched).1 asksGuild
    refine ⟨ne_empty_of_isGiven asksGuild isGuild, ?_⟩
    rw [opened binding member matched, asksGuild, noRoles, isGuild]
    simp
  have asksNoGuild : ∀ binding ∈ bindings,
      matchesBindingScope binding.match (query.scope query.peer) = true →
        asksForGuild binding = false := by
    intro binding member matched
    have withRoles := condition_eq_false noGuildRoles member
    have withoutRoles := condition_eq_false noGuild member
    dsimp only [RouteQuery.tier] at withRoles withoutRoles
    rw [matched, Bool.and_true] at withRoles withoutRoles
    cases roles : asksForRoles binding with
    | true => simpa [roles] using withRoles
    | false => simpa [roles] using withoutRoles
  refine ⟨find?_part_of_imp
    (fun enabled => (if_neg enabled).trans (indexes.byTeam query.teamId)) ?_, fun noTeam => ?_⟩
  · intro binding member meets
    obtain ⟨asksTeam, matched⟩ := Bool.and_eq_true_iff.mp meets
    have isTeam := (ids_eq_of_matches normalized matched).2 asksTeam
    refine ⟨ne_empty_of_isGiven asksTeam isTeam, ?_⟩
    simp [opened binding member matched, asksNoGuild binding member matched, asksTeam, isTeam]
  have asksNoTeam : ∀ binding ∈ bindings,
      matchesBindingScope binding.match (query.scope query.peer) = true →
        asksForTeam binding = false := by
    intro binding member matched
    have asks := condition_eq_false noTeam member
    dsimp only [RouteQuery.tier] at asks
    rwa [matched, Bool.and_true] at asks
  have part : ∀ {candidates : List EvaluatedBinding} {keep condition : EvaluatedBinding → Bool},
      candidates = bindings.filter keep →
        (∀ binding ∈ bindings, condition binding = true → keep binding = true) →
          candidates.find? condition = bindings.find? condition := by
    rintro _ keep condition rfl keeps
    exact find?_filter_of_imp keeps
  refine ⟨part indexes.byAccount ?_, fun _ => ⟨part indexes.byChannel ?_, fun _ => trivial⟩⟩
  · intro binding member meets
    obtain ⟨isAccount, matched⟩ := Bool.and_eq_true_iff.mp meets
    rw [opened binding member matched, asksNoGuild binding member matched,
      asksNoTeam binding member matched]
    exact isAccount
  · intro binding member meets
    obtain ⟨isAny, matched⟩ := Bool.and_eq_true_iff.mp meets
    rw [opened binding member matched, asksNoGuild binding member matched,
      asksNoTeam binding member matched]
    exact isAny

theorem routeOf_indexed_eq_plainRoute (toLowerCase : String → String) (cfg : RoutingConfig)
    (normalized : query.Normalized) : routeOf toLowerCase cfg query
        (firstIndexed (indexedTiers query (buildEvaluatedBindingsIndex
          (evaluatedBindingsFor toLowerCase cfg query.channel query.accountId)))) =
      plainRoute toLowerCase cfg query := by
  rw [evaluatedBindingsFor_eq]
  have covered := indexedTiers_covered (indexes_buildEvaluatedBindingsIndex
      (scopedBindings toLowerCase cfg query.channel query.accountId))
    (fun binding member => roles_ne_nil_of_mem_scopedBindings member) normalized
  rw [firstIndexed_eq covered]
  rfl

end Tiers

end SessionRouting
