import AieClaw.RouteBindings

/-!
# What the buckets and the index hold

The buckets of a channel hold its bindings by account in source order, and merging
two of them gives the bindings of the channel that are for an account or for all.
The index holds, under each key, the bindings that ask for it.
-/

namespace SessionRouting

open TieredMatch List

section Buckets

variable {toLowerCase : String → String} {bindings : List AgentBinding}
  {entry : String × EvaluatedBinding}

theorem le_order_of_mem_evaluateBindings {start : ℕ}
    (member : entry ∈ evaluateBindings toLowerCase start bindings) : start ≤ entry.2.order := by
  induction bindings generalizing start with
  | nil => exact absurd member not_mem_nil
  | cons binding rest inductionHypothesis =>
    unfold evaluateBindings at member
    dsimp only at member
    split at member
    · exact inductionHypothesis member
    · rcases mem_cons.mp member with rfl | later
      · exact le_refl _
      · exact Nat.le_of_succ_le (inductionHypothesis later)

theorem evaluateBindings_ordered (start : ℕ) (bindings : List AgentBinding) :
    (evaluateBindings toLowerCase start bindings).Pairwise fun a b => a.2.order < b.2.order := by
  induction bindings generalizing start with
  | nil => exact List.Pairwise.nil
  | cons binding rest inductionHypothesis =>
    unfold evaluateBindings
    dsimp only
    split
    · exact inductionHypothesis start
    · refine pairwise_cons.mpr ⟨?_, inductionHypothesis (start + 1)⟩
      intro entry member
      exact le_order_of_mem_evaluateBindings member

theorem roles_ne_nil_of_mem_evaluateBindings {start : ℕ}
    (member : entry ∈ evaluateBindings toLowerCase start bindings) :
    entry.2.match.roles ≠ some [] := by
  induction bindings generalizing start with
  | nil => exact absurd member not_mem_nil
  | cons binding rest inductionHypothesis =>
    unfold evaluateBindings at member
    dsimp only at member
    split at member
    · exact inductionHypothesis member
    · rcases mem_cons.mp member with rfl | later
      · intro empty
        have kept := (Option.filter_eq_some_iff.mp empty).2
        exact of_decide_eq_true kept rfl
      · exact inductionHypothesis later

@[simp] theorem getD_get?_pushTo (map : OrderedMap String (List EvaluatedBinding))
    (key other : String) (binding : EvaluatedBinding) :
    ((pushTo map key binding).get? other).getD [] =
      (map.get? other).getD [] ++ if other = key then [binding] else [] := by
  rw [pushTo, OrderedMap.get?_set]
  split
  · rename_i same
    rw [same, Option.getD_some]
  · rw [append_nil]

/-- The bindings of a channel, in source order. -/
def channelBindings (channel : String) (entries : List (String × EvaluatedBinding)) :
    List EvaluatedBinding :=
  (entries.filter fun entry => decide (entry.1 = channel)).map Prod.snd

def isForAccount (toLowerCase : String → String) (accountId : String)
    (binding : EvaluatedBinding) : Bool :=
  decide (binding.match.accountPattern ≠ "*" ∧
    resolveAccountPatternKey toLowerCase binding.match.accountPattern = accountId)

def isForAnyAccount (binding : EvaluatedBinding) : Bool :=
  decide (binding.match.accountPattern = "*")

/-- A bucket holds some bindings by account, in their order. -/
structure HoldsBindings (toLowerCase : String → String)
    (bucket : EvaluatedBindingsByChannel) (bindings : List EvaluatedBinding) : Prop where
  byAccount : ∀ accountId,
    (bucket.byAccount.get? accountId).getD [] = bindings.filter (isForAccount toLowerCase accountId)
  byAnyAccount : bucket.byAnyAccount = bindings.filter isForAnyAccount

theorem holdsBindings_empty : HoldsBindings toLowerCase emptyBucket [] where
  byAccount := fun _ => rfl
  byAnyAccount := rfl

theorem HoldsBindings.add {bucket : EvaluatedBindingsByChannel}
    {bindings : List EvaluatedBinding} (holds : HoldsBindings toLowerCase bucket bindings)
    (evaluated : EvaluatedBinding) :
    HoldsBindings toLowerCase (addToBucket toLowerCase bucket evaluated)
      (bindings ++ [evaluated]) := by
  unfold addToBucket
  by_cases isAny : evaluated.match.accountPattern = "*"
  · rw [if_pos isAny]
    constructor
    · intro accountId
      have notFor : isForAccount toLowerCase accountId evaluated = false :=
        decide_eq_false fun both => both.1 isAny
      rw [filter_append, filter_cons_of_neg (by simp [notFor]), filter_nil, append_nil]
      exact holds.byAccount accountId
    · have isFor : isForAnyAccount evaluated = true := decide_eq_true isAny
      rw [filter_append, filter_cons_of_pos isFor, filter_nil, ← holds.byAnyAccount]
  · rw [if_neg isAny]
    constructor
    · intro accountId
      dsimp only
      rw [getD_get?_pushTo, holds.byAccount, filter_append]
      refine congrArg (List.filter _ bindings ++ ·) ?_
      by_cases same : accountId =
          resolveAccountPatternKey toLowerCase evaluated.match.accountPattern
      · have isFor : isForAccount toLowerCase accountId evaluated = true :=
          decide_eq_true ⟨isAny, same.symm⟩
        rw [if_pos same, filter_cons_of_pos isFor, filter_nil]
      · have notFor : isForAccount toLowerCase accountId evaluated = false :=
          decide_eq_false fun both => same both.2.symm
        rw [if_neg same, filter_cons_of_neg (by simp [notFor]), filter_nil]
    · have notFor : isForAnyAccount evaluated = false := decide_eq_false isAny
      dsimp only
      rw [filter_append, filter_cons_of_neg (by simp [notFor]), filter_nil,
        append_nil, holds.byAnyAccount]

theorem foldl_addToChannel_holds (entries : List (String × EvaluatedBinding)) (channel : String) :
    HoldsBindings toLowerCase
      (((entries.foldl (addToChannel toLowerCase) OrderedMap.empty).get? channel).getD emptyBucket)
      (channelBindings channel entries) := by
  induction entries using List.reverseRecOn with
  | nil => exact holdsBindings_empty
  | append_singleton entries entry inductionHypothesis =>
    rw [foldl_append, foldl_cons, foldl_nil, addToChannel, OrderedMap.get?_set]
    unfold channelBindings at inductionHypothesis ⊢
    rw [filter_append, map_append]
    by_cases same : channel = entry.1
    · subst same
      rw [if_pos rfl, Option.getD_some, filter_cons_of_pos (by simp), filter_nil]
      exact inductionHypothesis.add entry.2
    · rw [if_neg same, filter_cons_of_neg (by simpa using Ne.symm same),
        filter_nil, map_nil, append_nil]
      exact inductionHypothesis

theorem mergeEvaluatedBindingsInSourceOrder_eq_merge
    (accountScoped anyAccount : List EvaluatedBinding) :
    mergeEvaluatedBindingsInSourceOrder accountScoped anyAccount =
      List.merge accountScoped anyAccount fun a b => decide (a.order ≤ b.order) := by
  unfold mergeEvaluatedBindingsInSourceOrder
  split
  · rename_i empty
    rw [empty, nil_merge]
  · split
    · rename_i empty
      rw [empty, merge_right]
    · rfl

def scopedBindings (toLowerCase : String → String) (cfg : RoutingConfig)
    (channel accountId : String) : List EvaluatedBinding :=
  (channelBindings channel (evaluateBindings toLowerCase 0 (listBindings cfg))).filter
    fun binding => decide (binding.match.accountPattern = "*" ∨
      resolveAccountPatternKey toLowerCase binding.match.accountPattern = accountId)

theorem channelBindings_ordered (channel : String) {entries : List (String × EvaluatedBinding)}
    (ordered : entries.Pairwise fun a b => a.2.order < b.2.order) :
    (channelBindings channel entries).Pairwise fun a b => a.order < b.order :=
  pairwise_map.mpr (ordered.sublist filter_sublist)

theorem evaluatedBindingsFor_eq (cfg : RoutingConfig) (channel accountId : String) :
    evaluatedBindingsFor toLowerCase cfg channel accountId =
      scopedBindings toLowerCase cfg channel accountId := by
  have holds : HoldsBindings toLowerCase
      (((buildEvaluatedBindingsByChannel toLowerCase cfg).get? channel).getD emptyBucket)
      (channelBindings channel (evaluateBindings toLowerCase 0 (listBindings cfg))) :=
    foldl_addToChannel_holds _ channel
  have ordered : (channelBindings channel
      (evaluateBindings toLowerCase 0 (listBindings cfg))).Pairwise fun a b => a.order < b.order :=
    channelBindings_ordered channel (evaluateBindings_ordered 0 (listBindings cfg))
  unfold evaluatedBindingsFor scopedBindings
  dsimp only
  rw [mergeEvaluatedBindingsInSourceOrder_eq_merge, holds.byAccount, holds.byAnyAccount,
    merge_filter ordered]
  · refine filter_congr ?_
    intro binding _
    by_cases isAny : binding.match.accountPattern = "*"
    · simp [isForAccount, isForAnyAccount, isAny]
    · simp [isForAccount, isForAnyAccount, isAny]
  · intro binding _ isFor
    exact decide_eq_false (of_decide_eq_true isFor).1

theorem roles_ne_nil_of_mem_scopedBindings {cfg : RoutingConfig}
    {channel accountId : String} {binding : EvaluatedBinding}
    (member : binding ∈ scopedBindings toLowerCase cfg channel accountId) :
    binding.match.roles ≠ some [] := by
  obtain ⟨entry, inChannel, rfl⟩ := mem_map.mp (mem_of_mem_filter member)
  exact roles_ne_nil_of_mem_evaluateBindings (mem_of_mem_filter inChannel)

end Buckets

section Index

/-- The binding asks for a peer that is looked up under a key. -/
def isUnderPeerKey (key : String) (binding : EvaluatedBinding) : Bool :=
  match binding.match.peer with
  | .valid kind id => (peerLookupKeys kind id).contains key
  | _ => false

section

variable (binding : EvaluatedBinding)

def isValidPeer : Bool :=
  match binding.match.peer with
  | .valid _ _ => true
  | _ => false

def isWildcard : Bool :=
  match binding.match.peer with
  | .wildcardKind _ => true
  | _ => false

/-- The binding is not indexed by its peer. -/
def isOpen : Bool := !isValidPeer binding && !isWildcard binding

def asksForGuild : Bool := isGiven binding.match.guildId

def asksForTeam : Bool := isGiven binding.match.teamId

def asksForRoles : Bool := binding.match.roles.isSome

end

/-- An index holds, under each key, the bindings that ask for it, in their order. -/
structure Indexes (bindings : List EvaluatedBinding) (index : EvaluatedBindingsIndex) : Prop where
  byPeer : ∀ key, (index.byPeer.get? key).getD [] = bindings.filter (isUnderPeerKey key)
  byPeerWildcard : index.byPeerWildcard = bindings.filter isWildcard
  byGuildWithRoles : ∀ guildId, (index.byGuildWithRoles.get? guildId).getD [] =
    bindings.filter fun binding => isOpen binding && asksForGuild binding &&
      asksForRoles binding && decide (binding.match.guildId.getD "" = guildId)
  byGuild : ∀ guildId, (index.byGuild.get? guildId).getD [] =
    bindings.filter fun binding => isOpen binding && asksForGuild binding &&
      !asksForRoles binding && decide (binding.match.guildId.getD "" = guildId)
  byTeam : ∀ teamId, (index.byTeam.get? teamId).getD [] =
    bindings.filter fun binding => isOpen binding && !asksForGuild binding &&
      asksForTeam binding && decide (binding.match.teamId.getD "" = teamId)
  byAccount : index.byAccount =
    bindings.filter fun binding => isOpen binding && !asksForGuild binding &&
      !asksForTeam binding && decide (binding.match.accountPattern ≠ "*")
  byChannel : index.byChannel =
    bindings.filter fun binding => isOpen binding && !asksForGuild binding &&
      !asksForTeam binding && decide (binding.match.accountPattern = "*")

variable {bindings : List EvaluatedBinding} {index : EvaluatedBindingsIndex}
  {binding : EvaluatedBinding}

theorem indexes_empty : Indexes [] emptyIndex where
  byPeer := fun _ => rfl
  byPeerWildcard := rfl
  byGuildWithRoles := fun _ => rfl
  byGuild := fun _ => rfl
  byTeam := fun _ => rfl
  byAccount := rfl
  byChannel := rfl

theorem filter_append_singleton (keep : EvaluatedBinding → Bool)
    (bindings : List EvaluatedBinding) (binding : EvaluatedBinding) :
    (bindings ++ [binding]).filter keep =
      bindings.filter keep ++ if keep binding then [binding] else [] := by
  rw [filter_append, filter_cons, filter_nil]

/-- A binding is added to the parts of an index whose condition it meets. -/
theorem Indexes.extend {later : EvaluatedBindingsIndex} (indexes : Indexes bindings index)
    (binding : EvaluatedBinding) (byPeer : ∀ key, (later.byPeer.get? key).getD [] =
      (index.byPeer.get? key).getD [] ++ if isUnderPeerKey key binding then [binding] else [])
    (byPeerWildcard : later.byPeerWildcard =
      index.byPeerWildcard ++ if isWildcard binding then [binding] else [])
    (byGuildWithRoles : ∀ guildId, (later.byGuildWithRoles.get? guildId).getD [] =
      (index.byGuildWithRoles.get? guildId).getD [] ++
        if isOpen binding && asksForGuild binding && asksForRoles binding &&
          decide (binding.match.guildId.getD "" = guildId) then [binding] else [])
    (byGuild : ∀ guildId, (later.byGuild.get? guildId).getD [] =
      (index.byGuild.get? guildId).getD [] ++
        if isOpen binding && asksForGuild binding && !asksForRoles binding &&
          decide (binding.match.guildId.getD "" = guildId) then [binding] else [])
    (byTeam : ∀ teamId, (later.byTeam.get? teamId).getD [] = (index.byTeam.get? teamId).getD [] ++
        if isOpen binding && !asksForGuild binding && asksForTeam binding &&
          decide (binding.match.teamId.getD "" = teamId) then [binding] else [])
    (byAccount : later.byAccount = index.byAccount ++
        if isOpen binding && !asksForGuild binding && !asksForTeam binding &&
          decide (binding.match.accountPattern ≠ "*") then [binding] else [])
    (byChannel : later.byChannel = index.byChannel ++
        if isOpen binding && !asksForGuild binding && !asksForTeam binding &&
          decide (binding.match.accountPattern = "*") then [binding] else []) :
    Indexes (bindings ++ [binding]) later where
  byPeer := fun key => by
    rw [byPeer, indexes.byPeer, filter_append_singleton]
  byPeerWildcard := by
    rw [byPeerWildcard, indexes.byPeerWildcard, filter_append_singleton]
  byGuildWithRoles := fun guildId => by
    rw [byGuildWithRoles, indexes.byGuildWithRoles, filter_append_singleton]
  byGuild := fun guildId => by
    rw [byGuild, indexes.byGuild, filter_append_singleton]
  byTeam := fun teamId => by
    rw [byTeam, indexes.byTeam, filter_append_singleton]
  byAccount := by
    rw [byAccount, indexes.byAccount, filter_append_singleton]
  byChannel := by
    rw [byChannel, indexes.byChannel, filter_append_singleton]

theorem foldl_pushTo_get? {keys : List String} (distinct : keys.Nodup)
    (map : OrderedMap String (List EvaluatedBinding)) (binding : EvaluatedBinding)
    (other : String) :
    ((keys.foldl (fun map key => pushTo map key binding) map).get? other).getD [] =
      (map.get? other).getD [] ++ if keys.contains other then [binding] else [] := by
  induction keys generalizing map with
  | nil => simp
  | cons key rest inductionHypothesis =>
    have later := inductionHypothesis (nodup_cons.mp distinct).2 (pushTo map key binding)
    have absent := (nodup_cons.mp distinct).1
    rw [foldl_cons, later, getD_get?_pushTo]
    by_cases same : other = key
    · subst same
      simp [absent]
    · simp [same]

theorem peerLookupKeys_nodup (kind : ChatType) (id : String) : (peerLookupKeys kind id).Nodup := by
  cases kind with
  | direct => exact nodup_singleton _
  | group => exact nodup_cons.mpr ⟨by simp, nodup_singleton _⟩
  | channel => exact nodup_cons.mpr ⟨by simp, nodup_singleton _⟩

theorem addToIndex_of_isOpen (index : EvaluatedBindingsIndex)
    (opened : isOpen binding = true) : addToIndex index binding =
      if isGiven binding.match.guildId && binding.match.roles.isSome then
        { index with
          byGuildWithRoles :=
            pushTo index.byGuildWithRoles (binding.match.guildId.getD "") binding }
      else if isGiven binding.match.guildId then
        { index with byGuild := pushTo index.byGuild (binding.match.guildId.getD "") binding }
      else if isGiven binding.match.teamId then
        { index with byTeam := pushTo index.byTeam (binding.match.teamId.getD "") binding }
      else if binding.match.accountPattern ≠ "*" then
        { index with byAccount := index.byAccount ++ [binding] }
      else
        { index with byChannel := index.byChannel ++ [binding] } := by
  cases isPeer : binding.match.peer with
  | none => rw [addToIndex, isPeer]
  | invalid => rw [addToIndex, isPeer]
  | wildcardKind kind => simp [isOpen, isWildcard, isPeer] at opened
  | valid kind id => simp [isOpen, isValidPeer, isPeer] at opened

theorem Indexes.add_of_isOpen (indexes : Indexes bindings index) (opened : isOpen binding = true)
    (notUnder : ∀ key, isUnderPeerKey key binding = false)
    (notWildcard : isWildcard binding = false) :
    Indexes (bindings ++ [binding]) (addToIndex index binding) := by
  rw [addToIndex_of_isOpen index opened]
  cases guild : isGiven binding.match.guildId with
  | true =>
    cases roles : binding.match.roles.isSome with
    | true =>
      refine indexes.extend binding ?_ ?_ ?_ ?_ ?_ ?_ ?_ <;>
        simp [notUnder, notWildcard, opened, asksForGuild, asksForRoles, guild, roles, eq_comm]
    | false =>
      refine indexes.extend binding ?_ ?_ ?_ ?_ ?_ ?_ ?_ <;>
        simp [notUnder, notWildcard, opened, asksForGuild, asksForRoles, guild, roles, eq_comm]
  | false =>
    cases team : isGiven binding.match.teamId with
    | true =>
      refine indexes.extend binding ?_ ?_ ?_ ?_ ?_ ?_ ?_ <;>
        simp [notUnder, notWildcard, opened, asksForGuild, asksForTeam, guild, team, eq_comm]
    | false =>
      by_cases isAny : binding.match.accountPattern = "*"
      · refine indexes.extend binding ?_ ?_ ?_ ?_ ?_ ?_ ?_ <;>
          simp [notUnder, notWildcard, opened, asksForGuild, asksForTeam, guild, team, isAny]
      · refine indexes.extend binding ?_ ?_ ?_ ?_ ?_ ?_ ?_ <;>
          simp [notUnder, notWildcard, opened, asksForGuild, asksForTeam, guild, team, isAny]

theorem Indexes.add (indexes : Indexes bindings index) (binding : EvaluatedBinding) :
    Indexes (bindings ++ [binding]) (addToIndex index binding) := by
  cases isPeer : binding.match.peer with
  | valid kind id =>
    have notOpen : isOpen binding = false := by simp [isOpen, isValidPeer, isPeer]
    have notWildcard : isWildcard binding = false := by rw [isWildcard, isPeer]
    refine indexes.extend binding ?_ ?_ ?_ ?_ ?_ ?_ ?_
    · intro key
      have isUnder : isUnderPeerKey key binding = (peerLookupKeys kind id).contains key := by
        rw [isUnderPeerKey, isPeer]
      rw [isUnder, addToIndex, isPeer]
      exact foldl_pushTo_get? (peerLookupKeys_nodup kind id) index.byPeer binding key
    all_goals simp [addToIndex, isPeer, notOpen, notWildcard]
  | wildcardKind kind =>
    have notOpen : isOpen binding = false := by simp [isOpen, isWildcard, isPeer]
    have wildcard : isWildcard binding = true := by rw [isWildcard, isPeer]
    have notUnder : ∀ key, isUnderPeerKey key binding = false := by
      intro key
      rw [isUnderPeerKey, isPeer]
    refine indexes.extend binding ?_ ?_ ?_ ?_ ?_ ?_ ?_ <;>
      simp [addToIndex, isPeer, notOpen, wildcard, notUnder]
  | none =>
    exact indexes.add_of_isOpen (by simp [isOpen, isValidPeer, isWildcard, isPeer])
      (fun key => by rw [isUnderPeerKey, isPeer]) (by rw [isWildcard, isPeer])
  | invalid =>
    exact indexes.add_of_isOpen (by simp [isOpen, isValidPeer, isWildcard, isPeer])
      (fun key => by rw [isUnderPeerKey, isPeer]) (by rw [isWildcard, isPeer])

theorem indexes_buildEvaluatedBindingsIndex (bindings : List EvaluatedBinding) :
    Indexes bindings (buildEvaluatedBindingsIndex bindings) := by
  induction bindings using List.reverseRecOn with
  | nil => exact indexes_empty
  | append_singleton bindings binding inductionHypothesis =>
    rw [buildEvaluatedBindingsIndex, foldl_append]
    exact inductionHypothesis.add binding

end Index

end SessionRouting
