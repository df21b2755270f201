import AieClaw.AiemasSessionEffects
import AieClaw.TransitionSystem

/-!
# Cascade records and the gateway

A cascade record should list exactly the descendants whose gateway session the
cascade has created and not deleted since. A delete call that fails inside
`cascadeDelete` is only logged, and the record is dropped all the same; a root
call that fails after descendants were deleted leaves them in the record.

In runs whose steps avoid this, every record mirrors the gateway.
-/

namespace AiemasSession

open TransitionSystem List

/-- The uuids that successive creations draw. -/
structure UuidSupply where
  uuid : ℕ → String
  injective : Function.Injective uuid

/-- The state of the cascade, and how many uuids were drawn. -/
structure CascadeRun extends CascadeState where
  drawn : ℕ

def CascadeRun.initial : CascadeRun where
  store := .empty
  backend := {
    tables := .initial
    gatewaySessions := [] }
  drawn := 0

/-- A call of one of the operations, with what it finds outside the cascade. -/
inductive CascadeAction where
  | cascadeCreate
      (context : CascadeContext) (topology : Option TopologyTree) (replies : GatewayReplies)
      (params : CascadeCreateParams)
  | cascadeDelete (replies : GatewayReplies) (sessionKey : String)
  | syncTopologyChanges
      (context : CascadeContext) (replies : GatewayReplies) (params : SyncParams)

def CascadeRun.perform (supply : UuidSupply) (state : CascadeRun) : CascadeAction → CascadeRun
  | .cascadeCreate context topology replies params => {
      toCascadeState :=
        (cascadeCreate context (supply.uuid state.drawn) topology replies
          params state.toCascadeState).2
      drawn := state.drawn + 1 }
  | .cascadeDelete replies sessionKey => {
      toCascadeState := (cascadeDelete replies sessionKey state.toCascadeState).2
      drawn := state.drawn }
  | .syncTopologyChanges context replies params => {
      toCascadeState := syncTopologyChanges context replies params state.toCascadeState
      drawn := state.drawn }

/-- One operation as a step. -/
def CascadeStep (supply : UuidSupply) : StepRelation CascadeRun CascadeAction :=
  fun source action target => source.perform supply action = target

/-- The gateway sessions that a record claims to be alive. -/
def RootSessionRecord.gatewaySessions (record : RootSessionRecord) : List GatewaySession :=
  record.descendantSessions.map (gatewaySession record.sessionUuid)

/--
The record lists, each once, exactly the agents with a session of its uuid
alive in the gateway.
-/
structure MirrorsGateway (backend : Backend) (record : RootSessionRecord) : Prop where
  distinct : record.descendantAgentIds.Nodup
  listsAlive :
    ∀ agentId,
      agentId ∈ record.descendantAgentIds ↔
        ∃ session ∈ backend.gatewaySessions,
          session.sessionUuid = record.sessionUuid ∧ session.agentId = agentId

/-- A record that the step removes leaves no listed session behind. -/
def RemovesCleanly (source target : CascadeState) : Prop :=
  ∀ record ∈ source.store.rows,
    record.sessionKey ∉ target.store.rows.map RootSessionRecord.sessionKey →
    ∀ session ∈ target.backend.gatewaySessions,
      session.sessionUuid = record.sessionUuid →
      session.agentId ∉ record.descendantAgentIds

/-- No record lists a session under one of the keys. -/
def SparesListed (records : List RootSessionRecord) (keys : List String) : Prop :=
  ∀ record ∈ records, ∀ session ∈ record.descendantSessions, session.sessionKey ∉ keys

/-- The sessions of a record while the added agents are listed as well. -/
def candidates (context : CascadeContext) (replies : GatewayReplies) (params : SyncParams)
    (record : RootSessionRecord) : List DescendantSession :=
  if record.agentId = params.rootAgentId then
    record.descendantSessions ++ addedSessions context replies params record
  else record.descendantSessions

/--
The calls of the step keep records and gateway together. A `cascadeDelete` of
a recorded root deletes every listed session with the root and no session of
another record, or deletes nothing; without a record it hits no listed session.
A sync deletes under the key of a removed agent no session of another one.
-/
def KeepsMirror (state : CascadeRun) : CascadeAction → Prop
  | .cascadeCreate _ _ _ _ => True
  | .cascadeDelete replies sessionKey =>
    match state.store.loadRootSession sessionKey with
    | none =>
      replies.delete .root sessionKey = true →
      SparesListed state.store.rows [sessionKey]
    | some record =>
      if replies.delete .root sessionKey then
        (∀ session ∈ record.descendantSessions, session.sessionKey ∈ deletedKeys replies record) ∧
          SparesListed
            (state.store.deleteRootSession sessionKey).rows
            (deletedKeys replies record ++ [sessionKey])
      else deletedKeys replies record = []
  | .syncTopologyChanges context replies params =>
    ∀ record ∈ state.store.rows,
      ∀ session ∈ candidates context replies params record,
        session.sessionKey ∈
          (activeSessions state.store params.rootAgentId).flatMap (removals replies params) →
        record.agentId = params.rootAgentId ∧ RemovesAgent replies params record session.agentId

/-- What every step of a run that keeps the mirror carries across. -/
structure CascadeInvariant (supply : UuidSupply) (state : CascadeRun) : Prop where
  distinct : ∀ record ∈ state.store.rows, record.descendantAgentIds.Nodup
  alive :
    ∀ record ∈ state.store.rows,
      ∀ session,
        session.sessionUuid = record.sessionUuid →
        (session ∈ state.backend.gatewaySessions ↔ session ∈ record.gatewaySessions)
  recordsDrawn :
    ∀ record ∈ state.store.rows, ∃ count < state.drawn, record.sessionUuid = supply.uuid count
  sessionsDrawn :
    ∀ session ∈ state.backend.gatewaySessions,
      ∃ count < state.drawn, session.sessionUuid = supply.uuid count

variable {supply : UuidSupply} {state : CascadeRun} {record : RootSessionRecord}

theorem agentId_mem_descendantAgentIds_iff {agentId : String} :
    agentId ∈ record.descendantAgentIds ↔
      ∃ session ∈ record.gatewaySessions, session.agentId = agentId := by
  simp [RootSessionRecord.descendantAgentIds, RootSessionRecord.gatewaySessions, gatewaySession]

theorem sessionUuid_of_mem_gatewaySessions
    {session : GatewaySession} (member : session ∈ record.gatewaySessions) :
    session.sessionUuid = record.sessionUuid := by
  obtain ⟨listed, _, rfl⟩ := mem_map.mp member
  rfl

theorem CascadeInvariant.mirrors (invariant : CascadeInvariant supply state)
    (stored : record ∈ state.store.rows) : MirrorsGateway state.backend record where
  distinct := invariant.distinct record stored
  listsAlive := by
    intro agentId
    rw [agentId_mem_descendantAgentIds_iff]
    constructor
    · rintro ⟨session, listed, same⟩
      have sameUuid := sessionUuid_of_mem_gatewaySessions listed
      exact ⟨session, (invariant.alive record stored session sameUuid).mpr listed, sameUuid, same⟩
    · rintro ⟨session, isAlive, sameUuid, same⟩
      exact ⟨session, (invariant.alive record stored session sameUuid).mp isAlive, same⟩

theorem cascadeInvariant_initial : CascadeInvariant supply .initial where
  distinct := by
    rintro _ ⟨⟩
  alive := by
    rintro _ ⟨⟩
  recordsDrawn := by
    rintro _ ⟨⟩
  sessionsDrawn := by
    rintro _ ⟨⟩

theorem CascadeInvariant.deleteKeys (invariant : CascadeInvariant supply state)
    {after : CascadeRun} (keys : List String)
    (remaining : ∀ record ∈ after.store.rows, record ∈ state.store.rows)
    (deleted : after.backend.gatewaySessions =
        state.backend.gatewaySessions.filter fun session => session.key ∉ keys)
    (spared : SparesListed after.store.rows keys) (sameDrawn : after.drawn = state.drawn) :
    CascadeInvariant supply after where
  distinct := fun record stored => invariant.distinct record (remaining record stored)
  alive := by
    intro record stored session sameUuid
    have before := invariant.alive record (remaining record stored) session sameUuid
    rw [deleted, mem_filter, before]
    constructor
    · exact And.left
    · intro listed
      obtain ⟨entry, isListed, rfl⟩ := mem_map.mp listed
      exact ⟨listed, decide_eq_true (spared record stored entry isListed)⟩
  recordsDrawn := by
    rw [sameDrawn]
    exact fun record stored => invariant.recordsDrawn record (remaining record stored)
  sessionsDrawn := by
    rw [sameDrawn, deleted]
    exact fun session isAlive => invariant.sessionsDrawn session (mem_filter.mp isAlive).1

theorem CascadeInvariant.fresh (invariant : CascadeInvariant supply state) :
    (∀ record ∈ state.store.rows, record.sessionUuid ≠ supply.uuid state.drawn) ∧
      ∀ session ∈ state.backend.gatewaySessions, session.sessionUuid ≠ supply.uuid state.drawn := by
  constructor
  · intro record stored same
    obtain ⟨count, isDrawn, drawnAs⟩ := invariant.recordsDrawn record stored
    have sameCount := supply.injective (drawnAs.symm.trans same)
    exact absurd sameCount (Nat.ne_of_lt isDrawn)
  · intro session isAlive same
    obtain ⟨count, isDrawn, drawnAs⟩ := invariant.sessionsDrawn session isAlive
    have sameCount := supply.injective (drawnAs.symm.trans same)
    exact absurd sameCount (Nat.ne_of_lt isDrawn)

/-- What a creation does to the records and the gateway. -/
theorem cascadeCreate_cases (context : CascadeContext) (sessionUuid : String)
    (topology : Option TopologyTree) (replies : GatewayReplies)
    (params : CascadeCreateParams) (before : CascadeState) :
    let after := (cascadeCreate context sessionUuid topology replies params before).2
    after = before ∨
      ∃ created : List DescendantSession,
        (created.map DescendantSession.agentId).Nodup ∧
          after.backend.gatewaySessions =
            before.backend.gatewaySessions ++ created.map (gatewaySession sessionUuid) ∧
          (after.store = before.store ∨
            ∃ record : RootSessionRecord,
              record.sessionUuid = sessionUuid ∧
                record.descendantSessions = created ∧
                after.store.rows = before.store.rows ++ [record]) := by
  intro after
  simp only [after, cascadeCreate]
  split
  · exact Or.inl rfl
  next root _ =>
    split
    · exact Or.inl rfl
    next userId _ =>
      right
      rw [createDescendants_eq]
      refine ⟨createdSessions context replies sessionUuid (fun reply => some reply.sessionId)
        ((topology.map fun tree => extractDescendantAgentIds tree.edges params.agentId).getD []),
        ?_, ?_⟩
      · have distinct : ((topology.map fun tree => extractDescendantAgentIds tree.edges
                params.agentId).getD []).Nodup := by
          cases topology with
          | none => exact nodup_nil
          | some tree => exact nodup_extractDescendantAgentIds _ _
        exact distinct.sublist (sublist_agentId_createdSessions context replies _ _ _)
      · split
        next => exact ⟨rfl, Or.inl rfl⟩
        next store saved =>
          have rows := AiemasSessionsStore.rows_of_saveRootSession saved
          refine ⟨rfl, Or.inr ⟨_, ?_, ?_, rows⟩⟩ <;> rfl

theorem CascadeInvariant.cascadeCreate (invariant : CascadeInvariant supply state)
    (context : CascadeContext) (topology : Option TopologyTree) (replies : GatewayReplies)
    (params : CascadeCreateParams) : CascadeInvariant supply (state.perform supply
        (.cascadeCreate context topology replies params)) := by
  have laterDrawn {uuid : String} (isDrawn : ∃ count < state.drawn, uuid = supply.uuid count) :
      ∃ count < state.drawn + 1, uuid = supply.uuid count := by
    obtain ⟨count, earlier, same⟩ := isDrawn
    exact ⟨count, Nat.lt_succ_of_lt earlier, same⟩
  obtain ⟨freshRecords, freshSessions⟩ := invariant.fresh
  rcases cascadeCreate_cases context (supply.uuid state.drawn) topology
      replies params state.toCascadeState with
    unchanged | ⟨created, distinct, gateway, records⟩
  · rw [CascadeRun.perform, unchanged]
    exact {
      distinct := invariant.distinct
      alive := invariant.alive
      recordsDrawn := fun record stored => laterDrawn (invariant.recordsDrawn record stored)
      sessionsDrawn := fun session isAlive =>
        laterDrawn (invariant.sessionsDrawn session isAlive) }
  have newUuid {session : GatewaySession}
      (isNew : session ∈ created.map (gatewaySession (supply.uuid state.drawn))) :
      session.sessionUuid = supply.uuid state.drawn := by
    obtain ⟨entry, _, rfl⟩ := mem_map.mp isNew
    rfl
  have oldAlive : ∀ record ∈ state.store.rows, ∀ session, session.sessionUuid = record.sessionUuid →
          (session ∈ state.backend.gatewaySessions ++
              created.map (gatewaySession (supply.uuid state.drawn)) ↔
            session ∈ record.gatewaySessions) := by
    intro record stored session sameUuid
    rw [mem_append, invariant.alive record stored session sameUuid]
    refine ⟨fun either => either.resolve_right ?_, Or.inl⟩
    intro isNew
    exact freshRecords record stored (sameUuid.symm.trans (newUuid isNew))
  have sessionsDrawn : ∀ session ∈ state.backend.gatewaySessions ++
          created.map (gatewaySession (supply.uuid state.drawn)), ∃ count < state.drawn + 1,
          session.sessionUuid = supply.uuid count := by
    intro session isAlive
    rcases mem_append.mp isAlive with isOld | isNew
    · exact laterDrawn (invariant.sessionsDrawn session isOld)
    · exact ⟨state.drawn, Nat.lt_succ_self _, newUuid isNew⟩
  rcases records with sameStore | ⟨added, addedUuid, addedSessions, rows⟩
  · exact {
      distinct := by
        rw [CascadeRun.perform, sameStore]
        exact invariant.distinct
      alive := by
        rw [CascadeRun.perform, sameStore, gateway]
        exact oldAlive
      recordsDrawn := by
        rw [CascadeRun.perform, sameStore]
        exact fun record stored => laterDrawn (invariant.recordsDrawn record stored)
      sessionsDrawn := by
        rw [CascadeRun.perform, gateway]
        exact sessionsDrawn }
  have addedAlive : ∀ session, session.sessionUuid = added.sessionUuid →
        (session ∈ state.backend.gatewaySessions ++
            created.map (gatewaySession (supply.uuid state.drawn)) ↔
          session ∈ added.gatewaySessions) := by
    intro session sameUuid
    rw [RootSessionRecord.gatewaySessions, addedSessions, addedUuid, mem_append]
    refine ⟨fun either => either.resolve_left ?_, Or.inr⟩
    intro isOld
    exact freshSessions session isOld (sameUuid.trans addedUuid)
  have split {holds : RootSessionRecord → Prop} (old : ∀ record ∈ state.store.rows, holds record)
      (new : holds added) : ∀ record ∈ state.store.rows ++ [added], holds record := by
    intro record stored
    rcases mem_append.mp stored with isOld | isNew
    · exact old record isOld
    · exact mem_singleton.mp isNew ▸ new
  exact {
    distinct := by
      rw [CascadeRun.perform, rows]
      refine split invariant.distinct ?_
      rw [RootSessionRecord.descendantAgentIds, addedSessions]
      exact distinct
    alive := by
      rw [CascadeRun.perform, rows, gateway]
      exact split oldAlive addedAlive
    recordsDrawn := by
      rw [CascadeRun.perform, rows]
      exact split (fun record stored => laterDrawn (invariant.recordsDrawn record stored))
        ⟨state.drawn, Nat.lt_succ_self _, addedUuid⟩
    sessionsDrawn := by
      rw [CascadeRun.perform, gateway]
      exact sessionsDrawn }

/-- What a deletion does, by whether it finds a record and the root call. -/
theorem cascadeDelete_cases (replies : GatewayReplies) (sessionKey : String)
    (before : CascadeState) : let after := (cascadeDelete replies sessionKey before).2
    (before.store.loadRootSession sessionKey = none ∧
        ((replies.delete .root sessionKey = false ∧ after = before) ∨
          (replies.delete .root sessionKey = true ∧
            after.store = before.store ∧
            after.backend.gatewaySessions =
              before.backend.gatewaySessions.filter fun session => session.key ∉ [sessionKey]))) ∨
      ∃ record,
        before.store.loadRootSession sessionKey = some record ∧
          ((replies.delete .root sessionKey = false ∧
              after.store = before.store ∧
              after.backend = before.backend.deleteKeys (deletedKeys replies record)) ∨
            (replies.delete .root sessionKey = true ∧
              after.store = before.store.deleteRootSession sessionKey ∧
              after.backend.gatewaySessions =
                before.backend.gatewaySessions.filter fun session =>
                  session.key ∉ deletedKeys replies record ++ [sessionKey])) := by
  intro after
  simp only [after, cascadeDelete]
  cases loaded : before.store.loadRootSession sessionKey with
  | none =>
    left
    cases deleted : replies.delete .root sessionKey with
    | false => simp
    | true => simp [Backend.removeGatewaySession]
  | some record =>
    right
    refine ⟨record, rfl, ?_⟩
    simp only [foldl_deleteDescendant_eq]
    cases deleted : replies.delete .root sessionKey with
    | false => simp
    | true =>
      right
      refine ⟨rfl, rfl, ?_⟩
      have combined :=
        Backend.deleteKeys_deleteKeys (deletedKeys replies record) [sessionKey] before.backend
      rw [Backend.deleteKeys_singleton] at combined
      exact congrArg Backend.gatewaySessions combined

theorem CascadeInvariant.cascadeDelete (invariant : CascadeInvariant supply state)
    {replies : GatewayReplies} {sessionKey : String}
    (keeps : KeepsMirror state (.cascadeDelete replies sessionKey)) : CascadeInvariant supply
      (state.perform supply (.cascadeDelete replies sessionKey)) := by
  rw [KeepsMirror] at keeps
  rcases cascadeDelete_cases replies sessionKey state.toCascadeState with
    ⟨loaded, ⟨_, unchanged⟩ | ⟨deleted, sameStore, gateway⟩⟩ |
      ⟨record, loaded, ⟨failed, sameStore, backend⟩ | ⟨deleted, store, gateway⟩⟩
  · rw [CascadeRun.perform, unchanged]
    exact invariant
  · simp only [loaded] at keeps
    refine invariant.deleteKeys _ ?_ gateway ?_ rfl
    · rw [CascadeRun.perform, sameStore]
      exact fun _ stored => stored
    · rw [CascadeRun.perform, sameStore]
      exact keeps deleted
  · simp only [loaded, failed, Bool.false_eq_true, if_false] at keeps
    rw [keeps, Backend.deleteKeys_nil] at backend
    refine invariant.deleteKeys [] ?_ ?_ ?_ rfl
    · rw [CascadeRun.perform, sameStore]
      exact fun _ stored => stored
    · rw [CascadeRun.perform, backend]
      simp
    · exact fun _ _ _ _ => not_mem_nil
  · simp only [loaded, deleted, if_true] at keeps
    refine invariant.deleteKeys _ ?_ gateway ?_ rfl
    · rw [CascadeRun.perform, store]
      exact fun _ stored => (mem_filter.mp stored).1
    · rw [CascadeRun.perform, store]
      exact keeps.2

section Sync

variable (context : CascadeContext) (replies : GatewayReplies) (params : SyncParams)
  {record : RootSessionRecord} {session : DescendantSession}

theorem gatewaySessions_foldl_createAll (records : List RootSessionRecord) (backend : Backend) :
    (records.foldl (fun backend record => backend.createAll context (params.ownerOf record)
            (addedSessions context replies params record)) backend).gatewaySessions =
      backend.gatewaySessions ++ records.flatMap fun record =>
          (addedSessions context replies params record).map
            (gatewaySession record.sessionUuid) := by
  induction records generalizing backend with
  | nil => simp
  | cons record rest inductionHypothesis =>
    rw [foldl_cons, inductionHypothesis, flatMap_cons, ← append_assoc]
    rfl

theorem descendantSessions_syncedRecord (record : RootSessionRecord) :
    (syncedRecord context replies params record).descendantSessions =
      (candidates context replies params record).filter fun session =>
        ¬ (record.agentId = params.rootAgentId ∧
          RemovesAgent replies params record session.agentId) := by
  by_cases isRoot : record.agentId = params.rootAgentId
  · simp [syncedRecord, candidates, isRoot, syncedSessions]
  · simp [syncedRecord, candidates, isRoot]

theorem nodup_candidates (distinct : record.descendantAgentIds.Nodup) :
    ((candidates context replies params record).map DescendantSession.agentId).Nodup := by
  rw [candidates]
  split
  · rw [map_append, nodup_append]
    have asked :=
      sublist_agentId_createdSessions context replies CreateReply.id
        record.sessionUuid
        (params.addedAgentIds.filter (· ∉ record.descendantAgentIds))
    refine ⟨distinct, ((nodup_addedAgentIds params).filter _).sublist asked, ?_⟩
    rintro listed isListed _ isAdded rfl
    have notListed := (mem_filter.mp (asked.subset isAdded)).2
    simp only [decide_eq_true_eq] at notListed
    exact notListed isListed
  · exact distinct

theorem mem_removals_of_removesAgent (distinct : record.descendantAgentIds.Nodup)
    (isRoot : record.agentId = params.rootAgentId)
    (isCandidate : session ∈ candidates context replies params record)
    (removed : RemovesAgent replies params record session.agentId) :
    session.sessionKey ∈ removals replies params record := by
  rw [candidates, if_pos isRoot] at isCandidate
  have isListed : session ∈ record.descendantSessions := by
    refine (mem_append.mp isCandidate).resolve_right ?_
    intro isAdded
    exact not_mem_addedSessions_of_removed context replies params record
      removed.1 (mem_map_of_mem isAdded)
  obtain ⟨key, deletes⟩ := Option.isSome_iff_exists.mp removed.2
  have found := deletes
  rw [removal, Option.bind_eq_some_iff] at found
  obtain ⟨entry, isFirst, returns⟩ := found
  have sameAgent : entry.agentId = session.agentId := by
    simpa using find?_some isFirst
  obtain rfl := inj_on_of_nodup_map distinct (mem_of_find?_eq_some isFirst) isListed sameAgent
  have sameKey : entry.sessionKey = key := by
    split at returns
    · exact Option.some.inj returns
    · cases returns
  rw [sameKey]
  exact mem_filterMap.mpr ⟨entry.agentId, removed.1, deletes⟩

section

variable (invariant : CascadeInvariant supply state)
include invariant

/-- What is alive under a record's uuid before the deletions of a sync. -/
theorem CascadeInvariant.mem_alive_iff_candidate (stored : record ∈ state.store.rows)
    {session : GatewaySession} (sameUuid : session.sessionUuid = record.sessionUuid) :
    session ∈ state.backend.gatewaySessions ++
        (activeSessions state.store params.rootAgentId).flatMap (fun record =>
            (addedSessions context replies params record).map (gatewaySession record.sessionUuid)) ↔
      session ∈ (candidates context replies params record).map
        (gatewaySession record.sessionUuid) := by
  have added : session ∈ (activeSessions state.store params.rootAgentId).flatMap (fun record =>
            (addedSessions context replies params record).map (gatewaySession record.sessionUuid)) ↔
        record.agentId = params.rootAgentId ∧
          session ∈ (addedSessions context replies params record).map
            (gatewaySession record.sessionUuid) := by
    rw [mem_flatMap]
    constructor
    · rintro ⟨other, isActive, isAdded⟩
      obtain ⟨otherStored, otherRoot⟩ := (mem_activeSessions_iff params).mp isActive
      have otherUuid : session.sessionUuid = other.sessionUuid := by
        obtain ⟨_, _, rfl⟩ := mem_map.mp isAdded
        rfl
      obtain rfl := inj_on_of_nodup_map state.store.primaryKey
        otherStored stored (otherUuid.symm.trans sameUuid)
      exact ⟨otherRoot, isAdded⟩
    · rintro ⟨isRoot, isAdded⟩
      exact ⟨record, (mem_activeSessions_iff params).mpr ⟨stored, isRoot⟩, isAdded⟩
  rw [mem_append, added, invariant.alive record stored session sameUuid,
    RootSessionRecord.gatewaySessions, candidates]
  by_cases isRoot : record.agentId = params.rootAgentId
  · rw [if_pos isRoot, map_append, mem_append]
    simp [isRoot]
  · rw [if_neg isRoot]
    simp [isRoot]

theorem CascadeInvariant.key_deleted_iff
    (keeps : KeepsMirror state (.syncTopologyChanges context replies params))
    (stored : record ∈ state.store.rows)
    (isCandidate : session ∈ candidates context replies params record) : session.sessionKey ∈
        (activeSessions state.store params.rootAgentId).flatMap (removals replies params) ↔
      record.agentId = params.rootAgentId ∧ RemovesAgent replies params record session.agentId := by
  refine ⟨keeps record stored session isCandidate, ?_⟩
  rintro ⟨isRoot, removed⟩
  exact mem_flatMap.mpr ⟨record, (mem_activeSessions_iff params).mpr ⟨stored, isRoot⟩,
    mem_removals_of_removesAgent context replies params
      (invariant.distinct record stored) isRoot isCandidate removed⟩

/-- Syncs that meet the condition keep the invariant. -/
theorem CascadeInvariant.syncTopologyChanges
    (keeps : KeepsMirror state (.syncTopologyChanges context replies params)) :
    CascadeInvariant supply (state.perform supply
        (.syncTopologyChanges context replies params)) := by
  obtain ⟨rows, backend⟩ := syncTopologyChanges_eq context replies params state.toCascadeState
  have gateway := congrArg Backend.gatewaySessions backend
  rw [Backend.deleteKeys, gatewaySessions_foldl_createAll] at gateway
  exact {
    distinct := by
      rw [CascadeRun.perform, rows, forall_mem_map]
      intro record stored
      rw [RootSessionRecord.descendantAgentIds, descendantSessions_syncedRecord]
      exact (nodup_candidates context replies params
        (invariant.distinct record stored)).sublist (filter_sublist.map _)
    alive := by
      rw [CascadeRun.perform, rows, gateway, forall_mem_map]
      intro record stored session sameUuid
      rw [sessionUuid_syncedRecord] at sameUuid
      rw [mem_filter, invariant.mem_alive_iff_candidate context replies params stored sameUuid,
        RootSessionRecord.gatewaySessions, sessionUuid_syncedRecord,
        descendantSessions_syncedRecord]
      constructor
      · rintro ⟨isCandidate, notDeleted⟩
        obtain ⟨entry, member, rfl⟩ := mem_map.mp isCandidate
        refine mem_map_of_mem (mem_filter.mpr ⟨member, ?_⟩)
        rw [decide_eq_true_eq,
          ← invariant.key_deleted_iff context replies params keeps stored member]
        exact of_decide_eq_true notDeleted
      · intro listed
        obtain ⟨entry, kept, rfl⟩ := mem_map.mp listed
        obtain ⟨member, notRemoved⟩ := mem_filter.mp kept
        rw [decide_eq_true_eq,
          ← invariant.key_deleted_iff context replies params keeps stored member] at notRemoved
        exact ⟨mem_map_of_mem member, decide_eq_true notRemoved⟩
    recordsDrawn := by
      rw [CascadeRun.perform, rows, forall_mem_map]
      intro record stored
      rw [sessionUuid_syncedRecord]
      exact invariant.recordsDrawn record stored
    sessionsDrawn := by
      rw [CascadeRun.perform, gateway]
      intro session isAlive
      rcases mem_append.mp (mem_filter.mp isAlive).1 with isOld | isAdded
      · exact invariant.sessionsDrawn session isOld
      · obtain ⟨record, isActive, added⟩ := mem_flatMap.mp isAdded
        obtain ⟨_, _, rfl⟩ := mem_map.mp added
        exact invariant.recordsDrawn record ((mem_activeSessions_iff params).mp isActive).1 }

end

def AddsAgent (record : RootSessionRecord) (agentId : String) : Prop :=
  agentId ∈ params.addedAgentIds ∧ agentId ∉ record.descendantAgentIds ∧
    (replies.create (.descendant record.sessionUuid agentId)
      (descendantRequest context agentId record.sessionUuid)).isSome

/-- The agents after a sync: the old and the added without the removed ones. -/
theorem descendantAgentIds_syncedRecord_iff
    (isRoot : record.agentId = params.rootAgentId) (agentId : String) :
    agentId ∈ (syncedRecord context replies params record).descendantAgentIds ↔
      (agentId ∈ record.descendantAgentIds ∨ AddsAgent context replies params record agentId) ∧
        ¬ RemovesAgent replies params record agentId := by
  have added :
      agentId ∈ (addedSessions context replies params record).map DescendantSession.agentId ↔
        AddsAgent context replies params record agentId := by
    rw [mem_map, AddsAgent, Option.isSome_iff_exists]
    constructor
    · rintro ⟨session, isAdded, rfl⟩
      obtain ⟨asked, isAsked, reply, answered, rfl⟩ :=
        (mem_createdSessions_iff context replies CreateReply.id).mp isAdded
      obtain ⟨isNew, notListed⟩ := mem_filter.mp isAsked
      exact ⟨isNew, of_decide_eq_true notListed, reply, answered⟩
    · rintro ⟨isNew, notListed, reply, answered⟩
      refine ⟨⟨agentId, reply.key, reply.id⟩, ?_, rfl⟩
      refine (mem_createdSessions_iff context replies CreateReply.id).mpr
        ⟨agentId, ?_, reply, answered, rfl⟩
      exact mem_filter.mpr ⟨isNew, decide_eq_true notListed⟩
  rw [RootSessionRecord.descendantAgentIds, mem_map,
    descendantSessions_syncedRecord, candidates, if_pos isRoot, ← added,
    RootSessionRecord.descendantAgentIds, ← mem_append, ← map_append]
  constructor
  · rintro ⟨session, kept, rfl⟩
    obtain ⟨member, notRemoved⟩ := mem_filter.mp kept
    refine ⟨mem_map_of_mem member, fun removed => ?_⟩
    exact of_decide_eq_true notRemoved ⟨isRoot, removed⟩
  · rintro ⟨listed, notRemoved⟩
    obtain ⟨session, member, rfl⟩ := mem_map.mp listed
    refine ⟨session, mem_filter.mpr ⟨member, ?_⟩, rfl⟩
    exact decide_eq_true fun both => notRemoved both.2

end Sync

theorem cascadeInvariant_preserved : Preserves (Restricted (CascadeStep supply) KeepsMirror)
      (CascadeInvariant supply) := by
  rintro source action _ ⟨keeps, rfl⟩ invariant
  cases action with
  | cascadeCreate context topology replies params =>
    exact invariant.cascadeCreate context topology replies params
  | cascadeDelete replies sessionKey => exact invariant.cascadeDelete keeps
  | syncTopologyChanges context replies params =>
    exact invariant.syncTopologyChanges context replies params keeps

/-- A record that a step removes was deleted together with what it lists. -/
theorem cascadeDelete_of_removed {action : CascadeAction} (keeps : KeepsMirror state action)
    {record : RootSessionRecord} (stored : record ∈ state.store.rows) (removed : record.sessionKey ∉
        (state.perform supply action).store.rows.map RootSessionRecord.sessionKey) :
    ∃ keys : List String, (∀ session ∈ record.descendantSessions, session.sessionKey ∈ keys) ∧
        (state.perform supply action).backend.gatewaySessions = state.backend.gatewaySessions.filter
            fun session => session.key ∉ keys := by
  have isKept {rows : List RootSessionRecord} (kept : record ∈ rows) :
      record.sessionKey ∈ rows.map RootSessionRecord.sessionKey :=
    mem_map_of_mem kept
  cases action with
  | cascadeCreate context topology replies params =>
    rcases cascadeCreate_cases context (supply.uuid state.drawn) topology
        replies params state.toCascadeState with
      unchanged | ⟨_, _, _, sameStore | ⟨_, _, _, rows⟩⟩
    · rw [CascadeRun.perform, unchanged] at removed
      exact absurd (isKept stored) removed
    · rw [CascadeRun.perform, sameStore] at removed
      exact absurd (isKept stored) removed
    · rw [CascadeRun.perform, rows] at removed
      exact absurd (isKept (mem_append_left _ stored)) removed
  | syncTopologyChanges context replies params =>
    have rows := (syncTopologyChanges_eq context replies params state.toCascadeState).1
    rw [CascadeRun.perform, rows, map_map] at removed
    refine absurd (mem_map.mpr ⟨record, stored, ?_⟩) removed
    exact sessionKey_syncedRecord context replies params record
  | cascadeDelete replies sessionKey =>
    rw [KeepsMirror] at keeps
    rcases cascadeDelete_cases replies sessionKey state.toCascadeState with
      ⟨_, ⟨_, unchanged⟩ | ⟨_, sameStore, _⟩⟩ |
        ⟨found, loaded, ⟨_, sameStore, _⟩ | ⟨deleted, store, gateway⟩⟩
    · rw [CascadeRun.perform, unchanged] at removed
      exact absurd (isKept stored) removed
    · rw [CascadeRun.perform, sameStore] at removed
      exact absurd (isKept stored) removed
    · rw [CascadeRun.perform, sameStore] at removed
      exact absurd (isKept stored) removed
    · simp only [loaded, deleted, if_true] at keeps
      have isRoot : record.sessionKey = sessionKey := by
        by_contra differs
        rw [CascadeRun.perform, store] at removed
        exact removed (isKept (mem_filter.mpr ⟨stored, decide_eq_true differs⟩))
      have foundKey : found.sessionKey = sessionKey := by
        simpa using find?_some loaded
      obtain rfl := inj_on_of_nodup_map state.store.uniqueKey stored
        (mem_of_find?_eq_some loaded) (isRoot.trans foundKey.symm)
      exact ⟨_, fun session listed => mem_append_left _ (keeps.1 session listed), gateway⟩

theorem CascadeInvariant.removesCleanly (invariant : CascadeInvariant supply state)
    {action : CascadeAction} (keeps : KeepsMirror state action) :
    RemovesCleanly state.toCascadeState (state.perform supply action).toCascadeState := by
  intro record stored removed session isAlive sameUuid _
  obtain ⟨keys, deletes, gateway⟩ := cascadeDelete_of_removed keeps stored removed
  rw [gateway] at isAlive
  obtain ⟨wasAlive, notDeleted⟩ := mem_filter.mp isAlive
  have listed := (invariant.alive record stored session sameUuid).mp wasAlive
  obtain ⟨entry, member, rfl⟩ := mem_map.mp listed
  exact of_decide_eq_true notDeleted (deletes entry member)

/--
In every run whose steps keep records and gateway together, each record lists
exactly the agents whose session is alive, a record that a further such step
removes leaves no listed session behind, and a sync leaves the old and the
added agents without the removed ones.
-/
theorem cascadeRecords_of_run {supply : UuidSupply} {actions : List CascadeAction}
    {finish : CascadeRun}
    (run : Run (Restricted (CascadeStep supply) KeepsMirror) .initial actions finish) :
    (∀ record ∈ finish.store.rows, MirrorsGateway finish.backend record) ∧
      (∀ action, KeepsMirror finish action →
        RemovesCleanly finish.toCascadeState (finish.perform supply action).toCascadeState) ∧
      ∀ context replies params,
        ∀ record ∈ finish.store.rows,
          record.agentId = params.rootAgentId →
          ∃ after ∈ (finish.perform supply
              (.syncTopologyChanges context replies params)).store.rows,
            after.sessionKey = record.sessionKey ∧
              ∀ agentId,
                agentId ∈ after.descendantAgentIds ↔
                  (agentId ∈ record.descendantAgentIds ∨
                      AddsAgent context replies params record agentId) ∧
                    ¬ RemovesAgent replies params record agentId := by
  have invariant := run.invariant cascadeInvariant_preserved cascadeInvariant_initial
  refine ⟨fun record => invariant.mirrors, fun action => invariant.removesCleanly, ?_⟩
  intro context replies params record stored isRoot
  have rows := (syncTopologyChanges_eq context replies params finish.toCascadeState).1
  refine ⟨syncedRecord context replies params record, ?_,
    sessionKey_syncedRecord context replies params record,
    descendantAgentIds_syncedRecord_iff context replies params isRoot⟩
  rw [CascadeRun.perform, rows]
  exact mem_map_of_mem stored

/-- Uuids told apart by their length. -/
def unarySupply : UuidSupply where
  uuid := fun count => String.ofList (List.replicate (count + 1) 'u')
  injective := by
    intro first second same
    have sameLength := congrArg List.length (String.ofList_injective same)
    simpa using sameLength

/-- The creation of a root session with one descendant. -/
def rootCreation : CascadeAction :=
  .cascadeCreate
    { accounts := {
        displayNames := OrderedMap.empty.set "alice" "Alice"
        tenants := {"tenant"} }
      toLowerCase := id
      now := 1 }
    (some ⟨[⟨"root", "child"⟩]⟩) willingGateway
    ⟨"root", some "alice", "tenant", none⟩

def createdRoot : CascadeRun := CascadeRun.initial.perform unarySupply rootCreation

/-- The record that the creation stores. -/
def createdRecord : RootSessionRecord where
  sessionKey := "agent:root:group:u"
  sessionId := "root"
  agentId := "root"
  sessionUuid := "u"
  label := none
  currentAgentId := some "root"
  userId := "alice"
  tenantId := "tenant"
  descendantSessions := [⟨"child", "agent:child:group:u", some "child"⟩]
  createdAt := 1
  updatedAt := 1

/-- A creation and a deletion whose calls all return leave no session. -/
theorem cascadeRecords_of_run_deleted :
    createdRoot.store.rows ≠ [] ∧
      RemovesCleanly createdRoot.toCascadeState
        (createdRoot.perform unarySupply
          (.cascadeDelete willingGateway "agent:root:group:u")).toCascadeState := by
  have run :
      Run (Restricted (CascadeStep unarySupply) KeepsMirror) .initial [rootCreation] createdRoot :=
    Run.single ⟨trivial, rfl⟩
  refine ⟨by decide +kernel, (cascadeRecords_of_run run).2.1 _ ?_⟩
  have loaded : createdRoot.store.loadRootSession "agent:root:group:u" = some createdRecord := by
    decide +kernel
  have others : (createdRoot.store.deleteRootSession "agent:root:group:u").rows = [] := by
    decide +kernel
  simp only [KeepsMirror, loaded, others]
  exact ⟨by decide +kernel, fun _ stored => by cases stored⟩

/-- A failed delete of a descendant leaves its session without a record. -/
theorem not_removesCleanly_of_failedDelete :
    ¬ RemovesCleanly createdRoot.toCascadeState
      (createdRoot.perform unarySupply
        (.cascadeDelete
          { willingGateway with
            delete := fun site _ => decide (site = .root) }
          "agent:root:group:u")).toCascadeState := by
  intro cleanly
  refine cleanly createdRecord (by decide +kernel) (by decide +kernel)
    ⟨"agent:child:group:u", "u", "child"⟩ (by decide +kernel) rfl ?_
  decide

end AiemasSession
