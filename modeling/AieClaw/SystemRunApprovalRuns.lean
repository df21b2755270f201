import AieClaw.SystemRunPlans

/-!
# Approvals in every run

The manager's entries go from pending to decided or expired, and from a decision to
allow once to a consumed one. A consumed record that names no resolver cannot be told
from one that timed out, and a record without a requesting device or connection is open
to everyone: the condition on the steps of a run excludes both.
-/

namespace SystemRunApprovals

open List

inductive ApprovalAction where
  | request
      (params : ExecApprovalRequestParams) (client : Option ApprovalClient) (now : ℚ)
      (randomUuid : String)
  | resolve
      (recordId : String) (decision : ExecApprovalDecision) (resolvedBy : Option String) (now : ℚ)
  | expire (recordId : String) (resolvedBy : Option String) (now : ℚ)
  | cleanup (recordId : String) (index : ℕ)
  | forward (call : ForwardingCall)

def isApproved (forwarded : JsonValue) : Bool := isTrue (forwarded.member? "approved")

/-- The id that a call names. -/
def ForwardingCall.runId (call : ForwardingCall) : Option String :=
  (JsonRecord.ofJson? call.rawParams).bind fun raw => normalizeNonEmptyString (raw.get? "runId")

/-- Keep approved parameters with the entry that the call names. -/
def recordForward (manager : ExecApprovalManager) (call : ForwardingCall)
    (result : Except Refusal JsonValue) : ExecApprovalManager :=
  match result, call.runId.bind manager.storedEntry with
  | .ok forwarded, some (index, _) =>
    if isApproved forwarded then
      manager.modifyEntry index fun entry =>
        { entry with forwards := entry.forwards ++ [forwarded] }
    else manager
  | _, _ => manager

def approvalStep (host : SystemRunHost) (manager : ExecApprovalManager) :
    ApprovalAction → Option ExecApprovalManager
  | .request params client now randomUuid =>
    some
      (match execApprovalRequest host manager params client now randomUuid with
      | .ok registered => registered
      | .error _ => manager)
  | .resolve recordId decision resolvedBy now =>
    some (manager.resolve recordId decision resolvedBy now)
  | .expire recordId resolvedBy now => some (manager.expire recordId resolvedBy now)
  | .cleanup recordId index => manager.cleanup recordId index
  | .forward call =>
    let forwarded := sanitizeSystemRunParamsForForwarding host (some manager) call
    forwarded.2.map fun after => recordForward after call forwarded.1

def ApprovalSteps (host : SystemRunHost) (source : ExecApprovalManager)
    (action : ApprovalAction) (target : ExecApprovalManager) : Prop :=
  approvalStep host source action = some target

def SameRequester (host : SystemRunHost) (record : ExecApprovalRecord) (raw : JsonRecord)
    (client : Option ApprovalClient) : Prop :=
  (∃ deviceId, record.requestedByDeviceId = some deviceId ∧
      client.bind ApprovalClient.deviceId = some deviceId) ∨
    (∃ connId, record.requestedByConnId = some connId ∧
      client.bind ApprovalClient.connId = some connId) ∨
    canBridgeNoDeviceApprovalFromBackend host record client ∨
    canBridgeNoDeviceChatApprovalFromBackend host record raw client

/-- The entry was decided in favour, or timed out undecided and the caller may approve. -/
def PendingEntry.Allows (entry : PendingEntry) (client : Option ApprovalClient) : Prop :=
  (∃ resolvedBy, .decided .allowOnce resolvedBy ∈ entry.outcomes) ∨
    (∃ resolvedBy, .decided .allowAlways resolvedBy ∈ entry.outcomes) ∨
    ((∀ decision resolvedBy, .decided decision resolvedBy ∉ entry.outcomes) ∧
      .expired none ∈ entry.outcomes ∧ clientHasApprovals client)

/-- What has to hold of a call whose parameters are forwarded as approved. -/
structure BoundTo (host : SystemRunHost) (manager : ExecApprovalManager)
    (call : ForwardingCall) (forwarded : JsonValue) (raw : JsonRecord) (runId : String)
    (index : ℕ) (entry : PendingEntry) (plan : SystemRunApprovalPlan) : Prop where
  asked : JsonRecord.ofJson? call.rawParams = some raw ∧ wantsApprovalOverride raw
  named : normalizeNonEmptyString (raw.get? "runId") = some runId
  stored : manager.storedEntry runId = some (index, entry) ∧ entry.record.id = runId
  unexpired : call.nowMs ≤ entry.record.expiresAtMs
  node :
    ∃ nodeId, call.nodeId.bind SessionKeys.normalizeOptionalString = some nodeId ∧
      entry.record.request.nodeId = some nodeId
  requester : SameRequester host entry.record raw call.client
  allowed : entry.Allows call.client
  planned : entry.record.request.systemRunPlan = some plan
  command : forwarded.member? "command" = some (.array (plan.argv.map JsonValue.string))
  rawCommand : forwarded.member? "rawCommand" = some (.string plan.commandText)
  cwd : forwarded.member? "cwd" = plan.cwd.map JsonValue.string
  agentId : forwarded.member? "agentId" = plan.agentId.map JsonValue.string
  sessionKey : forwarded.member? "sessionKey" = plan.sessionKey.map JsonValue.string
  env :
    normalizeSystemRunEnvEntries host (forwarded.member? "env") =
      normalizeSystemRunEnvEntries host entry.env

/-- One decision to allow once lets at most one call through. -/
def UsedOnce (manager : ExecApprovalManager) : Prop :=
  ∀ entry ∈ manager.entries, ∀ resolvedBy,
    .decided .allowOnce resolvedBy ∈ entry.outcomes → entry.forwards.length ≤ 1

/-- Whatever the call gets back as approved is bound to its record. -/
def BoundCall (host : SystemRunHost) (manager : ExecApprovalManager) (call : ForwardingCall) :
    Prop :=
  ∀ forwarded,
    (sanitizeSystemRunParamsForForwarding host (some manager) call).1 = .ok forwarded →
    isApproved forwarded →
      ∃ raw runId index entry plan, BoundTo host manager call forwarded raw runId index entry plan

/-- A call that takes a consumed decision without a resolver's name for a time-out. -/
def Replays (record : ExecApprovalRecord) (raw : JsonRecord) (client : Option ApprovalClient) :
    Bool :=
  record.consumedDecision.isSome && record.resolvedBy.isNone &&
    isTrue (raw.get? "approved") &&
    normalizeApprovalDecision (raw.get? "approvalDecision") = some .allowOnce &&
    clientHasApprovals client

/-- The record says who requested it, or the backend may use it anyway. -/
def HasRequester (host : SystemRunHost) (record : ExecApprovalRecord) (raw : JsonRecord)
    (client : Option ApprovalClient) : Bool :=
  (truthyText record.requestedByDeviceId).isSome ||
    (truthyText record.requestedByConnId).isSome ||
    canBridgeNoDeviceApprovalFromBackend host record client ||
    canBridgeNoDeviceChatApprovalFromBackend host record raw client

/-- Whether the record that a call names can be told apart and has a requester. -/
def meets (host : SystemRunHost) (manager : ExecApprovalManager) (call : ForwardingCall) : Bool :=
  match JsonRecord.ofJson? call.rawParams, call.runId.bind manager.getSnapshot with
  | some raw, some record =>
    !wantsApprovalOverride raw ||
      (!Replays record raw call.client && HasRequester host record raw call.client)
  | _, _ => true

/-- The condition on a step of a run. -/
def stepMeets (host : SystemRunHost) (manager : ExecApprovalManager) : ApprovalAction → Bool
  | .forward call => meets host manager call
  | _ => true

def LooksTimedOut (record : ExecApprovalRecord) (raw : JsonRecord)
    (client : Option ApprovalClient) : Prop :=
  record.resolvedAtMs.isSome ∧ record.decision.isNone ∧ record.resolvedBy.isNone ∧
    isTrue (raw.get? "approved") ∧
    normalizeApprovalDecision (raw.get? "approvalDecision") = some .allowOnce ∧
    clientHasApprovals client

/-- What a call went through when it comes back approved. -/
structure Released (host : SystemRunHost) (manager : ExecApprovalManager)
    (call : ForwardingCall) (forwarded : JsonValue) (after : ExecApprovalManager)
    (raw : JsonRecord) (runId : String) (index : ℕ) (entry : PendingEntry)
    (context : ApprovalRuntimeContext) (decision : ExecApprovalDecision) : Prop where
  asked : JsonRecord.ofJson? call.rawParams = some raw ∧ wantsApprovalOverride raw
  named : normalizeNonEmptyString (raw.get? "runId") = some runId
  found : manager.storedEntry runId = some (index, entry)
  admitted : refuseRecord host entry.record call raw runId = none
  resolved :
    resolveSystemRunApprovalRuntimeContext host
        (entry.record.request.systemRunPlan.map SystemRunApprovalPlan.toJson)
        (raw.get? "command") (raw.get? "rawCommand") (raw.get? "cwd") (raw.get? "agentId")
        (raw.get? "sessionKey") =
      .ok context
  matched : evaluateSystemRunApprovalMatch host entry.record.request context (raw.get? "env") = none
  result :
    forwarded =
      (approve
        (context.plan.elim (pickSystemRunParams raw) (applyPlan (pickSystemRunParams raw)))
        decision).toJson
  decided :
    (entry.record.decision = some .allowOnce ∧
        after = manager.modifyEntry index PendingEntry.consume) ∨
      (entry.record.decision = some .allowAlways ∧ after = manager) ∨
      (LooksTimedOut entry.record raw call.client ∧ after = manager)

theorem isApproved_pickSystemRunParams (raw : JsonRecord) :
    isApproved (pickSystemRunParams raw).toJson = false := by
  have dropped : "approved" ∉ forwardedKeys := by decide
  rw [isApproved, JsonRecord.member?_toJson, get?_pickSystemRunParams, if_neg dropped]
  rfl

theorem releaseOnDecision_cases {manager after : ExecApprovalManager} {runId : String}
    {index : ℕ} {entry : PendingEntry} (found : manager.storedEntry runId = some (index, entry))
    {client : Option ApprovalClient} {raw next : JsonRecord} {result : Except Refusal JsonValue}
    (released : releaseOnDecision entry.record manager client raw next runId = (result, after)) :
    (after = manager ∧ ∃ refusal, result = .error refusal) ∨
      ∃ decision, result = .ok (approve next decision).toJson ∧
        ((entry.record.decision = some .allowOnce ∧
            after = manager.modifyEntry index PendingEntry.consume) ∨
          (entry.record.decision = some .allowAlways ∧ after = manager) ∨
          (LooksTimedOut entry.record raw client ∧ after = manager)) := by
  unfold releaseOnDecision at released
  split at released
  next once =>
    have consumed : manager.consumeAllowOnce runId =
          (true, manager.modifyEntry index PendingEntry.consume) := by
      simp [ExecApprovalManager.consumeAllowOnce, found, once]
    simp only [consumed, if_true] at released
    obtain ⟨rfl, rfl⟩ := Prod.mk.inj released
    exact .inr ⟨.allowOnce, rfl, .inl ⟨once, rfl⟩⟩
  · split at released
    next always =>
      obtain ⟨rfl, rfl⟩ := Prod.mk.inj released
      exact .inr ⟨.allowAlways, rfl, .inr (.inl ⟨always, rfl⟩)⟩
    · split at released
      next timedOut =>
        obtain ⟨rfl, rfl⟩ := Prod.mk.inj released
        exact .inr ⟨.allowOnce, rfl, .inr (.inr ⟨timedOut, rfl⟩)⟩
      · obtain ⟨rfl, rfl⟩ := Prod.mk.inj released
        exact .inl ⟨rfl, _, rfl⟩

/-- A call leaves the manager alone and gets nothing approved, or it was released. -/
theorem sanitize_cases (host : SystemRunHost) (manager : ExecApprovalManager)
    (call : ForwardingCall) :
    ((sanitizeSystemRunParamsForForwarding host (some manager) call).2 = some manager ∧
        ∀ forwarded,
          (sanitizeSystemRunParamsForForwarding host (some manager) call).1 = .ok forwarded →
          isApproved forwarded = false) ∨
      ∃ forwarded after raw runId index entry context decision,
        sanitizeSystemRunParamsForForwarding host (some manager) call =
            (.ok forwarded, some after) ∧
          Released host manager call forwarded after raw runId index entry context
            decision := by
  unfold sanitizeSystemRunParamsForForwarding
  cases object : JsonRecord.ofJson? call.rawParams with
  | none =>
    refine .inl ⟨rfl, ?_⟩
    intro forwarded same
    obtain rfl := Except.ok.inj same
    cases shape : call.rawParams with
    | object members =>
      rw [shape] at object
      exact absurd object (by simp [JsonRecord.ofJson?])
    | _ => rfl
  | some raw =>
    dsimp only
    split
    next notAsked =>
      left
      split
      · exact ⟨rfl, fun forwarded same => absurd same (by simp)⟩
      · refine ⟨rfl, ?_⟩
        intro forwarded same
        obtain rfl := Except.ok.inj same
        exact isApproved_pickSystemRunParams raw
    next asked =>
      cases named : normalizeNonEmptyString (raw.get? "runId") with
      | none => exact .inl ⟨rfl, fun forwarded same => absurd same (by simp)⟩
      | some runId =>
        dsimp only
        cases found : manager.storedEntry runId with
        | none =>
          left
          simp [ExecApprovalManager.getSnapshot, found]
        | some place =>
          obtain ⟨index, entry⟩ := place
          simp only [ExecApprovalManager.getSnapshot, found, Option.map_some]
          unfold forwardOnRecord
          cases admitted : refuseRecord host entry.record call raw runId with
          | some refusal => exact .inl ⟨rfl, fun forwarded same => absurd same (by simp)⟩
          | none =>
            dsimp only
            split
            · exact .inl ⟨rfl, fun forwarded same => absurd same (by simp)⟩
            next context resolved =>
              split
              · exact .inl ⟨rfl, fun forwarded same => absurd same (by simp)⟩
              next matched =>
                cases released : releaseOnDecision entry.record manager call.client raw
                    (context.plan.elim (pickSystemRunParams raw)
                      (applyPlan (pickSystemRunParams raw))) runId with
                | mk result after =>
                  rcases releaseOnDecision_cases found released with
                    ⟨rfl, refusal, rfl⟩ | ⟨decision, rfl, decided⟩
                  · exact .inl ⟨rfl, fun forwarded same => absurd same (by simp)⟩
                  · exact .inr ⟨_, after, raw, runId, index, entry, context, decision, rfl,
                      ⟨object, by simpa using asked⟩, named, found, admitted, resolved,
                      matched, rfl, decided⟩

/-- The situations of an entry. -/
inductive PendingEntry.Phased (entry : PendingEntry) : Prop where
  | pending
      (unresolved : entry.record.resolvedAtMs = none) (undecided : entry.record.decision = none)
      (unconsumed : entry.record.consumedDecision = none) (noOutcome : entry.outcomes = [])
      (unused : entry.forwards = [])
  | decided
      (decision : ExecApprovalDecision) (resolvedBy : Option String)
      (resolved : entry.record.resolvedAtMs.isSome)
      (isDecided : entry.record.decision = some decision)
      (outcome : entry.outcomes = [.decided decision resolvedBy])
      (unused : decision = .allowOnce → entry.forwards = [])
  | consumed
      (resolvedBy : Option String) (resolved : entry.record.resolvedAtMs.isSome)
      (taken : entry.record.decision = none)
      (isConsumed : entry.record.consumedDecision = some .allowOnce)
      (outcome : entry.outcomes = [.decided .allowOnce resolvedBy])
      (usedOnce : entry.forwards.length = 1)
  | expired
      (resolvedBy : Option String) (resolved : entry.record.resolvedAtMs.isSome)
      (undecided : entry.record.decision = none) (byWhom : entry.record.resolvedBy = resolvedBy)
      (outcome : entry.outcomes = [.expired resolvedBy])

/-- What the request of an entry for a node holds: a normal plan and its binding. -/
structure PendingEntry.Requested (host : SystemRunHost) (entry : PendingEntry) : Prop where
  node : IsNormalText entry.record.request.nodeId
  planned :
    entry.record.request.host = some "node" →
      ∃ plan, entry.record.request.systemRunPlan = some plan ∧ plan.Normal
  bound :
    ∀ binding, entry.record.request.systemRunBinding = some binding →
      binding.envHash = hashSystemRunEnvEntries host (normalizeSystemRunEnvEntries host entry.env)

namespace PendingEntry

variable {host : SystemRunHost}

theorem Requested.of_same {before after : PendingEntry} (requested : before.Requested host)
    (request : after.record.request = before.record.request) (env : after.env = before.env) :
    after.Requested host := by
  constructor
  · rw [request]
    exact requested.node
  · rw [request]
    exact requested.planned
  · rw [request, env]
    exact requested.bound

theorem Phased.not_decided {entry : PendingEntry} (phased : entry.Phased)
    (unconsumed : entry.record.consumedDecision = none ∨ entry.record.resolvedBy.isSome)
    (looksTimedOut : entry.record.resolvedAtMs.isSome ∧ entry.record.decision.isNone ∧
        entry.record.resolvedBy.isNone) : entry.outcomes = [.expired none] := by
  obtain ⟨resolved, undecided, unnamed⟩ := looksTimedOut
  cases phased with
  | pending unresolved => simp [unresolved] at resolved
  | decided decision resolvedBy _ isDecided => simp [isDecided] at undecided
  | consumed resolvedBy _ _ isConsumed =>
    rcases unconsumed with never | named
    · simp [never] at isConsumed
    · simp [Option.isNone_iff_eq_none.mp unnamed] at named
  | expired resolvedBy _ _ byWhom outcome =>
    rw [outcome, ← byWhom, Option.isNone_iff_eq_none.mp unnamed]

end PendingEntry

structure ExecApprovalManager.WellFormed (host : SystemRunHost) (manager : ExecApprovalManager) :
    Prop where
  phased : ∀ entry ∈ manager.entries, entry.Phased
  requested : ∀ entry ∈ manager.entries, entry.Requested host
  stored :
    ∀ recordId index, manager.pending.get? recordId = some index →
      ∃ entry, manager.entries[index]? = some entry ∧ entry.record.id = recordId

namespace ExecApprovalManager

variable {host : SystemRunHost} {manager : ExecApprovalManager}

theorem storedEntry_eq_some {recordId : String} {index : ℕ} {entry : PendingEntry}
    (found : manager.storedEntry recordId = some (index, entry)) :
    manager.pending.get? recordId = some index ∧ manager.entries[index]? = some entry := by
  obtain ⟨place, isPlace, found⟩ := Option.bind_eq_some_iff.mp found
  obtain ⟨stored, isStored, same⟩ := Option.map_eq_some_iff.mp found
  obtain ⟨rfl, rfl⟩ := Prod.mk.inj same
  exact ⟨isPlace, isStored⟩

namespace WellFormed

variable {index : ℕ} {after : ExecApprovalManager}

theorem initial : ExecApprovalManager.initial.WellFormed host where
  phased := by simp [ExecApprovalManager.initial]
  requested := by simp [ExecApprovalManager.initial]
  stored := by simp [ExecApprovalManager.initial]

section

variable (wellFormed : manager.WellFormed host)
include wellFormed

theorem id_of_storedEntry {recordId : String} {entry : PendingEntry}
    (found : manager.storedEntry recordId = some (index, entry)) : entry.record.id = recordId := by
  obtain ⟨isPlace, isStored⟩ := storedEntry_eq_some found
  obtain ⟨other, isOther, named⟩ := wellFormed.stored recordId index isPlace
  rw [isStored] at isOther
  rwa [Option.some.inj isOther]

/-- A change of one entry that keeps its request and leads to a situation again. -/
theorem modifyEntry {change : PendingEntry → PendingEntry}
    (keeps : ∀ entry, (change entry).record.id = entry.record.id ∧
      (change entry).record.request = entry.record.request ∧ (change entry).env = entry.env)
    (phased : ∀ entry, manager.entries[index]? = some entry → (change entry).Phased) :
    (manager.modifyEntry index change).WellFormed host := by
  have origin : ∀ {place : ℕ} {after : PendingEntry},
        (manager.entries.modify index change)[place]? = some after →
        ∃ before, manager.entries[place]? = some before ∧
          ((after = before) ∨ (place = index ∧ after = change before)) := by
    intro place after found
    rw [getElem?_modify] at found
    obtain ⟨before, isBefore, rfl⟩ := Option.map_eq_some_iff.mp found
    refine ⟨before, isBefore, ?_⟩
    by_cases same : index = place
    · exact .inr ⟨same.symm, by simp [same]⟩
    · exact .inl (by simp [same])
  constructor
  · intro after member
    obtain ⟨place, found⟩ := mem_iff_getElem?.mp member
    obtain ⟨before, isBefore, rfl | ⟨rfl, rfl⟩⟩ := origin found
    · exact wellFormed.phased after (mem_of_getElem? isBefore)
    · exact phased before isBefore
  · intro after member
    obtain ⟨place, found⟩ := mem_iff_getElem?.mp member
    obtain ⟨before, isBefore, rfl | ⟨rfl, rfl⟩⟩ := origin found
    · exact wellFormed.requested after (mem_of_getElem? isBefore)
    · exact (wellFormed.requested before (mem_of_getElem? isBefore)).of_same
        (keeps before).2.1 (keeps before).2.2
  · intro id place isPlace
    obtain ⟨entry, isEntry, named⟩ := wellFormed.stored id place isPlace
    refine ⟨if index = place then change entry else entry, ?_, ?_⟩
    · simp [ExecApprovalManager.modifyEntry, getElem?_modify, isEntry]
    · split
      · rw [(keeps entry).1, named]
      · exact named

theorem finish (recordId : String)
    {change : ExecApprovalRecord → ExecApprovalRecord} {outcome : Outcome}
    (sameId : ∀ record, (change record).id = record.id)
    (sameRequest : ∀ record, (change record).request = record.request)
    (phased : ∀ entry : PendingEntry, entry.Phased → entry.record.resolvedAtMs = none →
        PendingEntry.Phased { entry with
            record := change entry.record, outcomes := entry.outcomes ++ [outcome] }) :
    (manager.finish recordId change outcome).WellFormed host := by
  unfold ExecApprovalManager.finish
  cases found : manager.storedEntry recordId with
  | none => exact wellFormed
  | some place =>
    obtain ⟨index, entry⟩ := place
    dsimp only
    split
    · exact wellFormed
    next unresolved =>
      obtain ⟨_, isEntry⟩ := storedEntry_eq_some found
      have changed : (manager.modifyEntry index fun entry => { entry with
              record := change entry.record
              outcomes := entry.outcomes ++ [outcome] }).WellFormed host := by
        apply wellFormed.modifyEntry
        · intro entry
          exact ⟨sameId entry.record, sameRequest entry.record, rfl⟩
        · intro other isOther
          rw [isEntry] at isOther
          cases isOther
          exact phased entry (wellFormed.phased entry (mem_of_getElem? isEntry))
            (by simpa using unresolved)
      exact ⟨changed.phased, changed.requested, changed.stored⟩

theorem resolve (recordId : String)
    (decision : ExecApprovalDecision) (resolvedBy : Option String) (now : ℚ) :
    (manager.resolve recordId decision resolvedBy now).WellFormed host := by
  apply wellFormed.finish
  · intro record
    rfl
  · intro record
    rfl
  · intro entry phased unresolved
    cases phased with
    | pending _ _ _ noOutcome unused =>
      exact .decided decision resolvedBy rfl rfl (by simp [noOutcome]) fun _ => unused
    | decided _ _ resolved => simp [unresolved] at resolved
    | consumed _ resolved => simp [unresolved] at resolved
    | expired _ resolved => simp [unresolved] at resolved

theorem expire (recordId : String) (resolvedBy : Option String) (now : ℚ) :
    (manager.expire recordId resolvedBy now).WellFormed host := by
  apply wellFormed.finish
  · intro record
    rfl
  · intro record
    rfl
  · intro entry phased unresolved
    cases phased with
    | pending _ _ _ noOutcome _ => exact .expired resolvedBy rfl rfl rfl (by simp [noOutcome])
    | decided _ _ resolved => simp [unresolved] at resolved
    | consumed _ resolved => simp [unresolved] at resolved
    | expired _ resolved => simp [unresolved] at resolved

theorem cleanup {recordId : String} (cleaned : manager.cleanup recordId index = some after) :
    after.WellFormed host := by
  unfold ExecApprovalManager.cleanup at cleaned
  split at cleaned
  · cases cleaned
    refine ⟨wellFormed.phased, wellFormed.requested, ?_⟩
    intro id place isPlace
    apply wellFormed.stored id place
    dsimp only at isPlace
    split at isPlace
    · rw [OrderedMap.get?_delete] at isPlace
      split at isPlace
      · exact absurd isPlace (by simp)
      · exact isPlace
    · exact isPlace
  · exact absurd cleaned (by simp)

theorem register {record : ExecApprovalRecord}
    {env : Option JsonValue} (registered : manager.register record env = some after)
    (phased : PendingEntry.Phased { record, env })
    (requested : PendingEntry.Requested host { record, env }) : after.WellFormed host := by
  unfold ExecApprovalManager.register at registered
  cases found : manager.storedEntry record.id with
  | some place =>
    simp only [found] at registered
    split at registered
    · cases registered
      exact wellFormed
    · exact absurd registered (by simp)
  | none =>
    simp only [found, Option.some.injEq] at registered
    subst registered
    constructor
    · intro entry member
      rcases mem_append.mp member with old | new
      · exact wellFormed.phased entry old
      · obtain rfl := mem_singleton.mp new
        exact phased
    · intro entry member
      rcases mem_append.mp member with old | new
      · exact wellFormed.requested entry old
      · obtain rfl := mem_singleton.mp new
        exact requested
    · intro id place isPlace
      rw [OrderedMap.get?_set] at isPlace
      split at isPlace
      next same =>
        cases isPlace
        exact ⟨{ record, env }, by simp, same.symm⟩
      · obtain ⟨entry, isEntry, named⟩ := wellFormed.stored id place isPlace
        refine ⟨entry, ?_, named⟩
        rw [getElem?_append_left (List.getElem?_eq_some_iff.mp isEntry).1]
        exact isEntry

end

end WellFormed

end ExecApprovalManager

end SystemRunApprovals
