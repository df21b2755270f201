import AieClaw.JsString
import AieClaw.JsonTree

/-!
# Reload plans

`diffConfigPaths` of `src/gateway/config-diff.ts` names the places where two configurations
part, and `buildGatewayReloadPlan` of `config-reload-plan.ts` looks up one rule for each name.
A section that appears as a whole has one name, so the rules for what is in it are passed over.
-/

namespace ConfigReload

open JsonValue List

/-- A tree that assignments built: no object has a key twice, or the key `__proto__`. -/
inductive Assigned : JsonValue → Prop where
  | leaf {value : JsonValue} (leaf : value.isRecord = false) : Assigned value
  | object
      {members : List (String × JsonValue)} (nodup : (members.map Prod.fst).Nodup)
      (noPrototype : "__proto__" ∉ members.map Prod.fst)
      (each : ∀ entry ∈ members, Assigned entry.2) : Assigned (.object members)

structure Config where
  root : JsonValue
  assigned : Assigned root

inductive ReloadKind where
  | restart
  | hot
  | none
  deriving DecidableEq

inductive ReloadAction where
  | reloadHooks
  | restartGmailWatcher
  | restartCron
  | restartHeartbeat
  | restartHealthMonitor
  | reloadPlugins
  | disposeMcpRuntimes
  | restartChannel (channel : String)
  deriving DecidableEq

structure ReloadRule where
  rulePrefix : String
  kind : ReloadKind
  actions : List ReloadAction := []

def baseReloadRules : List ReloadRule := [
  ⟨"gateway.remote", .none, []⟩,
  ⟨"gateway.reload", .none, []⟩,
  ⟨"gateway.channelHealthCheckMinutes", .hot, [.restartHealthMonitor]⟩,
  ⟨"gateway.channelStaleEventThresholdMinutes", .hot, [.restartHealthMonitor]⟩,
  ⟨"gateway.channelMaxRestartsPerHour", .hot, [.restartHealthMonitor]⟩,
  ⟨"diagnostics.stuckSessionWarnMs", .none, []⟩,
  ⟨"diagnostics.stuckSessionAbortMs", .none, []⟩,
  ⟨"diagnostics.memoryPressureSnapshot", .hot, []⟩,
  ⟨"hooks.gmail", .hot, [.restartGmailWatcher]⟩,
  ⟨"hooks", .hot, [.reloadHooks]⟩,
  ⟨"agents.defaults.heartbeat", .hot, [.restartHeartbeat]⟩,
  ⟨"agents.defaults.models", .hot, [.restartHeartbeat]⟩,
  ⟨"agents.defaults.model", .hot, [.restartHeartbeat]⟩,
  ⟨"models.pricing", .restart, []⟩,
  ⟨"models", .hot, [.restartHeartbeat]⟩,
  ⟨"agents.list", .hot, [.restartHeartbeat]⟩,
  ⟨"agent.heartbeat", .hot, [.restartHeartbeat]⟩,
  ⟨"cron", .hot, [.restartCron]⟩,
  ⟨"mcp", .hot, [.disposeMcpRuntimes]⟩,
  ⟨"plugins.load", .restart, []⟩,
  ⟨"plugins.installs", .restart, []⟩]

def baseReloadRulesTail : List ReloadRule :=
  ["meta", "identity", "wizard", "logging", "agents", "tools", "bindings", "audio", "agent",
    "routing", "messages", "session", "talk", "skills", "secrets"].map (⟨·, .none, []⟩) ++
  [⟨"plugins", .hot, [.reloadPlugins, .disposeMcpRuntimes]⟩,
    ⟨"ui", .none, []⟩,
    ⟨"gateway", .restart, []⟩,
    ⟨"discovery", .restart, []⟩]

/-- The rules of plugins and channels stand between the base rules. -/
def listReloadRules (registered : List ReloadRule) : List ReloadRule :=
  baseReloadRules ++ registered ++ baseReloadRulesTail

structure GatewayReloadPlanOptions where
  noopPaths : List String := []
  forceChangedPaths : List String := []

structure GatewayReloadPlan where
  changedPaths : List String
  restartGateway : Bool := false
  restartReasons : List String := []
  hotReasons : List String := []
  reloadHooks : Bool := false
  restartGmailWatcher : Bool := false
  restartCron : Bool := false
  restartHeartbeat : Bool := false
  restartHealthMonitor : Bool := false
  reloadPlugins : Bool := false
  restartChannels : List String := []
  disposeMcpRuntimes : Bool := false
  noopPaths : List String := []

section Diff

def childPrefix (front key : String) : String := if front = "" then key else front ++ "." ++ key

def reportedPath (front : String) : String := if front = "" then "<root>" else front

mutual

def diffConfigPaths : JsonValue → JsonValue → String → List String
  | .object prev, .object next, front =>
    diffMembers prev next front ++
      (next.filter fun entry => (prev.lookup entry.1).isNone).map fun entry =>
        reportedPath (childPrefix front entry.1)
  | prev, next, front => if isDeepStrictEqual prev next then [] else [reportedPath front]

/-- The paths below the keys of the first object; a key that one side lacks is reported itself. -/
def diffMembers : List (String × JsonValue) → List (String × JsonValue) → String → List String
  | [], _, _ => []
  | (key, value) :: rest, next, front =>
    (match next.lookup key with
      | none => [reportedPath (childPrefix front key)]
      | some other => diffConfigPaths value other (childPrefix front key)) ++
      diffMembers rest next front

end

def fullPath (front : String) (place : List String) : String :=
  reportedPath (place.foldl childPrefix front)

/-- Both sides are objects up to the place, where they differ and are not both objects. -/
def PartsAt : Option JsonValue → Option JsonValue → List String → Prop
  | prev, next, [] =>
    ¬(prev.any isRecord = true ∧ next.any isRecord = true) ∧ ¬DeepEqualAt prev next
  | some (.object prev), some (.object next), key :: rest =>
    PartsAt (prev.lookup key) (next.lookup key) rest
  | _, _, _ :: _ => False

/-- One side has a leaf at the place, and the other side has not the same there. -/
def DiffersAt (prev next : JsonValue) (place : List String) : Prop :=
  (((at? place prev).any fun value => !value.isRecord) = true ∨
      ((at? place next).any fun value => !value.isRecord) = true) ∧
    ¬DeepEqualAt (at? place prev) (at? place next)

end Diff

section Plan

/-- `/^plugins\.installs\..+\.(installedAt|resolvedAt)$/` -/
def isPluginInstallTimestampPath (path : String) : Bool :=
  (JsString.behind "plugins.installs." path).any fun rest =>
    [".installedAt", ".resolvedAt"].any fun ending =>
      let id := rest.toList.take (rest.toList.length - ending.toList.length)
      decide (rest = String.ofList id ++ ending) && !id.isEmpty &&
        id.all fun character => !JsString.isLineTerminator character

def applyAction (plan : GatewayReloadPlan) : ReloadAction → GatewayReloadPlan
  | .restartChannel channel =>
    if plan.restartChannels.contains channel then plan
    else { plan with restartChannels := plan.restartChannels ++ [channel] }
  | .reloadHooks => { plan with reloadHooks := true }
  | .restartGmailWatcher => { plan with restartGmailWatcher := true }
  | .restartCron => { plan with restartCron := true }
  | .restartHeartbeat => { plan with restartHeartbeat := true }
  | .restartHealthMonitor => { plan with restartHealthMonitor := true }
  | .reloadPlugins => { plan with reloadPlugins := true }
  | .disposeMcpRuntimes => { plan with disposeMcpRuntimes := true }

variable (rules : List ReloadRule) (options : GatewayReloadPlanOptions)

def matchRule (path : String) : Option ReloadRule :=
  rules.find? fun rule =>
    decide (path = rule.rulePrefix) || JsString.startsWith path (rule.rulePrefix ++ ".")

def isTimestampNoop (path : String) : Bool :=
  !options.forceChangedPaths.contains path &&
    if options.noopPaths = [] then isPluginInstallTimestampPath path
    else options.noopPaths.contains path

/-- The turn of the loop for one path. -/
def applyPath (plan : GatewayReloadPlan) (path : String) : GatewayReloadPlan :=
  if isTimestampNoop options path then { plan with noopPaths := plan.noopPaths ++ [path] }
  else
    match matchRule rules path with
    | none =>
      { plan with restartGateway := true, restartReasons := plan.restartReasons ++ [path] }
    | some rule =>
      match rule.kind with
      | .restart =>
        { plan with restartGateway := true, restartReasons := plan.restartReasons ++ [path] }
      | .none => { plan with noopPaths := plan.noopPaths ++ [path] }
      | .hot =>
        rule.actions.foldl applyAction { plan with hotReasons := plan.hotReasons ++ [path] }

def buildGatewayReloadPlan (changedPaths : List String) : GatewayReloadPlan :=
  let plan := changedPaths.foldl (applyPath rules options) { changedPaths := changedPaths }
  if plan.restartGmailWatcher then { plan with reloadHooks := true } else plan

/-- What a rule can ask of a plan. -/
inductive Demand where
  | restart
  | action (action : ReloadAction)
  deriving DecidableEq

def GatewayReloadPlan.meets (plan : GatewayReloadPlan) : Demand → Bool
  | .restart => plan.restartGateway
  | .action .reloadHooks => plan.reloadHooks
  | .action .restartGmailWatcher => plan.restartGmailWatcher
  | .action .restartCron => plan.restartCron
  | .action .restartHeartbeat => plan.restartHeartbeat
  | .action .restartHealthMonitor => plan.restartHealthMonitor
  | .action .reloadPlugins => plan.reloadPlugins
  | .action .disposeMcpRuntimes => plan.disposeMcpRuntimes
  | .action (.restartChannel channel) => plan.restartChannels.contains channel

def demandsOf (path : String) : List Demand :=
  match matchRule rules path with
  | none => [.restart]
  | some rule =>
    match rule.kind with
    | .restart => [.restart]
    | .none => []
    | .hot => rule.actions.map .action

/-- What a reported path adds to a plan. -/
def plannedFor (path : String) : List Demand :=
  if isTimestampNoop options path then [] else demandsOf rules path

def Demand.impliedBy (demand made : Demand) : Prop :=
  demand = made ∨ (demand = .action .reloadHooks ∧ made = .action .restartGmailWatcher)

/-- The plan meets what the rules ask for at every leaf that differs. -/
def CoversChanges (prev next : Config) : Prop :=
  ∀ place, DiffersAt prev.root next.root place →
    isPluginInstallTimestampPath (fullPath "" place) = false →
      ∀ demand ∈ demandsOf rules (fullPath "" place),
        (buildGatewayReloadPlan rules options
          (diffConfigPaths prev.root next.root "")).meets demand = true

def AskedWhereParted (prev next : Config) : Prop :=
  ∀ place, DiffersAt prev.root next.root place →
    isPluginInstallTimestampPath (fullPath "" place) = false →
      ∀ demand ∈ demandsOf rules (fullPath "" place),
        ∃ parting, PartsAt (some prev.root) (some next.root) parting ∧
          ∃ made ∈ plannedFor rules options (fullPath "" parting), demand.impliedBy made

end Plan

section Differences

variable {text front : String} {prev next : JsonValue}

theorem partsAt_none_iff {next : Option JsonValue} {place : List String} :
    PartsAt none next place ↔ place = [] ∧ next ≠ none := by
  cases place with
  | nil => simp [PartsAt, deepEqualAt_none_left_iff]
  | cons key rest => simp [PartsAt]

theorem partsAt_missing_iff {value : JsonValue} {place : List String} :
    PartsAt (some value) none place ↔ place = [] := by
  cases place with
  | nil => simp [PartsAt, deepEqualAt_some_none]
  | cons key rest => simp [PartsAt]

theorem mem_diffMembers_iff {members others : List (String × JsonValue)}
    (each : ∀ entry ∈ members, ∀ other front, text ∈ diffConfigPaths entry.2 other front ↔
      ∃ place, PartsAt (some entry.2) (some other) place ∧ text = fullPath front place) :
    text ∈ diffMembers members others front ↔ ∃ entry ∈ members, ∃ place,
      PartsAt (some entry.2) (others.lookup entry.1) place ∧
        text = fullPath front (entry.1 :: place) := by
  induction members with
  | nil => simp [diffMembers]
  | cons entry rest inductionHypothesis =>
    obtain ⟨key, value⟩ := entry
    obtain ⟨ofValue, ofRest⟩ := forall_mem_cons.mp each
    rw [diffMembers, mem_append, inductionHypothesis ofRest, exists_mem_cons_iff]
    refine or_congr_left ?_
    cases found : others.lookup key with
    | some other => exact ofValue other _
    | none =>
      simp only [mem_singleton, partsAt_missing_iff]
      constructor
      · exact fun isText => ⟨[], rfl, isText⟩
      · rintro ⟨_, rfl, isText⟩
        exact isText

theorem mem_diffLeaves_iff (notBoth : ¬(prev.isRecord = true ∧ next.isRecord = true)) :
    text ∈ (if isDeepStrictEqual prev next then [] else [reportedPath front]) ↔
      ∃ place, PartsAt (some prev) (some next) place ∧ text = fullPath front place := by
  have onlyHere : ∀ place, PartsAt (some prev) (some next) place ↔
      place = [] ∧ isDeepStrictEqual prev next = false := by
    intro place
    cases place with
    | nil => simp [PartsAt, notBoth, deepEqualAt_some_some_iff]
    | cons key rest =>
      refine iff_of_false (fun parts => notBoth ?_) (by simp)
      cases prev with
      | object _ =>
        cases next with
        | object _ => exact ⟨rfl, rfl⟩
        | _ => exact parts.elim
      | _ => exact parts.elim
  simp only [onlyHere]
  cases isDeepStrictEqual prev next with
  | true => simp
  | false => simp [fullPath]

/-- The comparison reports the places where two configurations part, and no others. -/
theorem mem_diffConfigPaths_iff (assigned : Assigned prev) :
    text ∈ diffConfigPaths prev next front ↔
      ∃ place, PartsAt (some prev) (some next) place ∧ text = fullPath front place := by
  induction assigned generalizing next front with
  | @leaf prev leaf =>
    have notBoth : ¬(prev.isRecord = true ∧ next.isRecord = true) := by simp [leaf]
    rw [← mem_diffLeaves_iff notBoth]
    cases prev with
    | object _ => cases leaf
    | _ =>
      rw [diffConfigPaths]
      simp
  | @object members nodup _ _ inductionHypothesis =>
    cases next with
    | object others =>
      rw [diffConfigPaths, mem_append,
        mem_diffMembers_iff fun entry member other front => inductionHypothesis entry member]
      constructor
      · rintro (⟨entry, member, place, parts, isText⟩ | added)
        · refine ⟨entry.1 :: place, ?_, isText⟩
          rw [PartsAt, lookup_of_mem nodup member]
          exact parts
        · obtain ⟨entry, member, rfl⟩ := mem_map.mp added
          obtain ⟨ofNext, absent⟩ := mem_filter.mp member
          have present : others.lookup entry.1 ≠ none := fun missing =>
            lookup_eq_none_iff_not_mem_keys.mp missing (mem_map_of_mem ofNext)
          refine ⟨[entry.1], ?_, rfl⟩
          rw [PartsAt, Option.isNone_iff_eq_none.mp absent, partsAt_none_iff]
          exact ⟨rfl, present⟩
      · rintro ⟨place, parts, isText⟩
        cases place with
        | nil => exact absurd ⟨rfl, rfl⟩ parts.1
        | cons key rest =>
          rw [PartsAt] at parts
          cases found : members.lookup key with
          | some value =>
            exact .inl ⟨(key, value), mem_of_lookup found, rest, found ▸ parts, isText⟩
          | none =>
            rw [found, partsAt_none_iff] at parts
            obtain ⟨rfl, present⟩ := parts
            obtain ⟨other, isOther⟩ := Option.ne_none_iff_exists'.mp present
            have isAdded : (key, other) ∈
                others.filter fun entry => (members.lookup entry.1).isNone :=
              mem_filter.mpr ⟨mem_of_lookup isOther, by simp [found]⟩
            exact .inr (mem_map.mpr ⟨_, isAdded, isText.symm⟩)
    | _ =>
      rw [← mem_diffLeaves_iff (by simp [isRecord]), diffConfigPaths]
      simp

end Differences

section Demands

variable {rules : List ReloadRule} {options : GatewayReloadPlanOptions}
  {plan : GatewayReloadPlan} {demand : Demand}

theorem meets_applyAction (action : ReloadAction) :
    (applyAction plan action).meets demand = true ↔
      plan.meets demand = true ∨ demand = .action action := by
  cases action with
  | restartChannel channel =>
    rw [applyAction]
    split
    · rename_i listed
      refine ⟨.inl, ?_⟩
      rintro (met | rfl)
      · exact met
      · exact listed
    · rcases demand with _ | (_ | _ | _ | _ | _ | _ | _ | other) <;>
        simp [GatewayReloadPlan.meets]
  | _ =>
    rcases demand with _ | (_ | _ | _ | _ | _ | _ | _ | other) <;>
      simp [GatewayReloadPlan.meets, applyAction]

theorem meets_applyActions (actions : List ReloadAction) :
    (actions.foldl applyAction plan).meets demand = true ↔
      plan.meets demand = true ∨ demand ∈ actions.map .action := by
  induction actions generalizing plan with
  | nil => simp
  | cons action rest inductionHypothesis =>
    rw [foldl_cons, inductionHypothesis, meets_applyAction, map_cons, mem_cons, or_assoc]

theorem meets_restart (path : String) :
    GatewayReloadPlan.meets
        { plan with restartGateway := true, restartReasons := plan.restartReasons ++ [path] }
        demand = true ↔ plan.meets demand = true ∨ demand ∈ [Demand.restart] := by
  rcases demand with _ | action
  · simp [GatewayReloadPlan.meets]
  · cases action <;> simp [GatewayReloadPlan.meets]

theorem meets_applyPath (path : String) :
    (applyPath rules options plan path).meets demand = true ↔
      plan.meets demand = true ∨ demand ∈ plannedFor rules options path := by
  rw [applyPath, plannedFor, demandsOf]
  split
  · simp [GatewayReloadPlan.meets]
  · cases matchRule rules path with
    | none => exact meets_restart path
    | some rule =>
      cases kind : rule.kind with
      | restart => simpa only [kind] using meets_restart path
      | none => simp [kind, GatewayReloadPlan.meets]
      | hot =>
        simp only [kind, meets_applyActions]
        simp [GatewayReloadPlan.meets]

theorem meets_applyPaths (paths : List String) :
    (paths.foldl (applyPath rules options) plan).meets demand = true ↔
      plan.meets demand = true ∨ ∃ path ∈ paths, demand ∈ plannedFor rules options path := by
  induction paths generalizing plan with
  | nil => simp
  | cons path rest inductionHypothesis =>
    rw [foldl_cons, inductionHypothesis, meets_applyPath, exists_mem_cons_iff, or_assoc]

theorem meets_reloadHooks_iff :
    (if plan.restartGmailWatcher then { plan with reloadHooks := true } else plan).meets demand =
        true ↔
      plan.meets demand = true ∨ demand = .action .reloadHooks ∧
        plan.meets (.action .restartGmailWatcher) = true := by
  have byGmail : plan.meets (.action .restartGmailWatcher) = plan.restartGmailWatcher := rfl
  rw [byGmail]
  cases watched : plan.restartGmailWatcher with
  | false => simp
  | true =>
    rcases demand with _ | (_ | _ | _ | _ | _ | _ | _ | channel) <;>
      simp [GatewayReloadPlan.meets, watched]

/-- A plan does what is asked for at the reported paths, and nothing else. -/
theorem meets_buildGatewayReloadPlan_iff (changedPaths : List String) :
    (buildGatewayReloadPlan rules options changedPaths).meets demand = true ↔
      ∃ path ∈ changedPaths, ∃ made ∈ plannedFor rules options path, demand.impliedBy made := by
  have gathered (demand : Demand) :
      (changedPaths.foldl (applyPath rules options) { changedPaths := changedPaths }).meets
          demand = true ↔ ∃ path ∈ changedPaths, demand ∈ plannedFor rules options path := by
    have atFirst : GatewayReloadPlan.meets { changedPaths := changedPaths } demand = false := by
      rcases demand with _ | (_ | _ | _ | _ | _ | _ | _ | channel) <;> rfl
    rw [meets_applyPaths, atFirst, or_iff_right Bool.false_ne_true]
  rw [buildGatewayReloadPlan, meets_reloadHooks_iff, gathered, gathered]
  constructor
  · rintro (⟨path, reported, asked⟩ | ⟨isHooks, path, reported, asked⟩)
    · exact ⟨path, reported, demand, asked, .inl rfl⟩
    · exact ⟨path, reported, _, asked, .inr ⟨isHooks, rfl⟩⟩
  · rintro ⟨path, reported, made, asked, rfl | ⟨isHooks, rfl⟩⟩
    · exact .inl ⟨path, reported, asked⟩
    · exact .inr ⟨isHooks, path, reported, asked⟩

end Demands

/-- The plan covers a change when what the rules ask for at each leaf that differs is asked for
at a place where the configurations part. -/
theorem coversChanges_iff (rules : List ReloadRule) (options : GatewayReloadPlanOptions)
    (prev next : Config) :
    CoversChanges rules options prev next ↔ AskedWhereParted rules options prev next := by
  refine forall_congr' fun place => imp_congr_right fun _ => imp_congr_right fun _ =>
    forall_congr' fun demand => imp_congr_right fun _ => ?_
  rw [meets_buildGatewayReloadPlan_iff]
  constructor
  · rintro ⟨path, reported, asked⟩
    obtain ⟨parting, parts, rfl⟩ := (mem_diffConfigPaths_iff prev.assigned).mp reported
    exact ⟨parting, parts, asked⟩
  · rintro ⟨parting, parts, asked⟩
    exact ⟨_, (mem_diffConfigPaths_iff prev.assigned).mpr ⟨parting, parts, rfl⟩, asked⟩

def withoutPlugins : Config := ⟨.object [], .object .nil (by simp) (by simp)⟩

def withLoadPaths : Config where
  root := .object [("plugins", .object [("load", .object [("paths", .array [.string "/x"])])])]
  assigned := by
    refine .object (nodup_singleton _) (by simp) (forall_mem_singleton.mpr ?_)
    refine .object (nodup_singleton _) (by simp) (forall_mem_singleton.mpr ?_)
    exact .object (nodup_singleton _) (by simp) (forall_mem_singleton.mpr (.leaf rfl))

/-- The new section is reported as `plugins`, and the rule for `plugins.load` is not looked up. -/
theorem not_coversChanges_withLoadPaths :
    ¬CoversChanges (listReloadRules []) {} withoutPlugins withLoadPaths := by
  intro covers
  have differs : DiffersAt withoutPlugins.root withLoadPaths.root ["plugins", "load", "paths"] :=
    ⟨.inr rfl, fun equal => Option.some_ne_none _ (deepEqualAt_none_left_iff.mp equal)⟩
  have missed := covers _ differs (by decide +kernel) .restart (by decide +kernel)
  exact absurd missed (by decide +kernel)

section Unchanged

variable {prev next : JsonValue}

theorem exists_partsAt_leaf_iff (notBoth : ¬(prev.isRecord = true ∧ next.isRecord = true)) :
    (∃ place, PartsAt (some prev) (some next) place) ↔ ¬DeepEqualAt (some prev) (some next) := by
  have reported (text : String) := @mem_diffLeaves_iff text "" prev next notBoth
  rw [deepEqualAt_some_some_iff]
  constructor
  · rintro ⟨place, parts⟩ equal
    simpa [equal] using (reported (fullPath "" place)).mpr ⟨place, parts, rfl⟩
  · intro differ
    obtain ⟨place, parts, -⟩ := (reported (reportedPath "")).mp (by simp [differ])
    exact ⟨place, parts⟩

theorem exists_partsAt_iff (assigned : Assigned prev) (assignedNext : Assigned next) :
    (∃ place, PartsAt (some prev) (some next) place) ↔ ¬DeepEqualAt (some prev) (some next) := by
  induction assigned generalizing next with
  | leaf leaf => exact exists_partsAt_leaf_iff (by simp [leaf])
  | @object members nodup _ _ inductionHypothesis =>
    cases assignedNext with
    | leaf leaf => exact exists_partsAt_leaf_iff (by simp [leaf])
    | @object others nodupOthers _ eachOther =>
      have below (key : String) :
          (∃ place, PartsAt (members.lookup key) (others.lookup key) place) ↔
            ¬DeepEqualAt (members.lookup key) (others.lookup key) := by
        cases found : members.lookup key with
        | none => simp [partsAt_none_iff, deepEqualAt_none_left_iff]
        | some value =>
          cases foundOther : others.lookup key with
          | none => simp [partsAt_missing_iff, deepEqualAt_some_none]
          | some other =>
            exact inductionHypothesis (key, value) (mem_of_lookup found)
              (eachOther (key, other) (mem_of_lookup foundOther))
      rw [deepEqualAt_some_some_iff, isDeepStrictEqual_object_iff nodup nodupOthers, not_forall]
      constructor
      · rintro ⟨place, parts⟩
        cases place with
        | nil => exact absurd ⟨rfl, rfl⟩ parts.1
        | cons key rest => exact ⟨key, (below key).mp ⟨rest, parts⟩⟩
      · rintro ⟨key, differ⟩
        obtain ⟨rest, parts⟩ := (below key).mpr differ
        exact ⟨key :: rest, parts⟩

end Unchanged

/-- No path is reported exactly when the two configurations are deeply equal. -/
theorem diffConfigPaths_eq_nil_iff (prev next : Config) :
    diffConfigPaths prev.root next.root "" = [] ↔
      isDeepStrictEqual prev.root next.root = true := by
  rw [eq_nil_iff_forall_not_mem, ← deepEqualAt_some_some_iff, ← not_iff_not, not_forall,
    ← exists_partsAt_iff prev.assigned next.assigned]
  simp only [not_not, mem_diffConfigPaths_iff prev.assigned]
  constructor
  · rintro ⟨_, place, parts, -⟩
    exact ⟨place, parts⟩
  · rintro ⟨place, parts⟩
    exact ⟨_, place, parts, rfl⟩

end ConfigReload
