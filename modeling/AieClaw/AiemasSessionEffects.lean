import AieClaw.AiemasSession
import AieClaw.SessionManagerRows

/-!
# The effects of the cascade

Each loop of the cascade has a closed form: the sessions it creates and the
keys it deletes are read off the agents and the outcomes of the calls, and the
tables, the gateway and the lists change by just these.
-/

namespace AiemasSession

open SessionKeys SessionManager AiemasSessionsStore List

/-- The gateway's view of a listed session. -/
def gatewaySession (sessionUuid : String) (session : DescendantSession) : GatewaySession where
  key := session.sessionKey
  sessionUuid := sessionUuid
  agentId := session.agentId

/-- The recordings of created sessions. -/
def SessionOwner.recordings (owner : SessionOwner) (sessions : List DescendantSession) :
    List Recording :=
  sessions.map fun session => {
    sessionKey := session.sessionKey
    userId := owner.userId
    tenantId := owner.tenantId }

namespace Backend

/-- All create calls of one record have returned. -/
def createAll (context : CascadeContext) (owner : SessionOwner)
    (sessions : List DescendantSession) (backend : Backend) : Backend where
  tables := recordAll context.accounts context.now (owner.recordings sessions) backend.tables
  gatewaySessions := backend.gatewaySessions ++ sessions.map (gatewaySession owner.sessionUuid)

def deleteKeys (keys : List String) (backend : Backend) : Backend where
  tables := deleteAll keys backend.tables
  gatewaySessions := backend.gatewaySessions.filter fun session => session.key ∉ keys

@[simp] theorem createAll_nil (context : CascadeContext) (owner : SessionOwner)
    (backend : Backend) : backend.createAll context owner [] = backend := by
  simp [createAll, SessionOwner.recordings, recordAll]

@[simp] theorem createAll_createAll (context : CascadeContext) (owner : SessionOwner)
    (earlier later : List DescendantSession) (backend : Backend) :
    (backend.createAll context owner earlier).createAll context owner later =
      backend.createAll context owner (earlier ++ later) := by
  simp [createAll, SessionOwner.recordings, recordAll]

@[simp] theorem deleteKeys_nil (backend : Backend) : backend.deleteKeys [] = backend := by
  simp [deleteKeys, deleteAll]

@[simp] theorem deleteKeys_deleteKeys (earlier later : List String) (backend : Backend) :
    (backend.deleteKeys earlier).deleteKeys later = backend.deleteKeys (earlier ++ later) := by
  simp only [deleteKeys, deleteAll, foldl_append, filter_filter,
    mem_append, not_or, Bool.decide_and]
  congr 2
  funext session
  exact Bool.and_comm _ _

theorem deleteKeys_singleton (key : String) (backend : Backend) : backend.deleteKeys [key] =
      (backend.removeGatewaySession key).deleteRecords key := by
  simp [deleteKeys, deleteAll, removeGatewaySession, deleteRecords]

end Backend

/-- The sessions of the agents whose create calls return. -/
def createdSessions (context : CascadeContext) (replies : GatewayReplies)
    (sessionUuid : String) (idOf : CreateReply → Option String) (agentIds : List String) :
    List DescendantSession :=
  agentIds.filterMap fun agentId =>
    (replies.create (.descendant sessionUuid agentId)
        (descendantRequest context agentId sessionUuid)).map
      fun reply => {
        agentId := agentId
        sessionKey := reply.key
        sessionId := idOf reply }

/-- The key of a listed session when its delete call returns. -/
def removal (replies : GatewayReplies) (sessionUuid : String)
    (listed : List DescendantSession) (agentId : String) : Option String :=
  (listed.find? fun session => session.agentId = agentId).bind
    fun session =>
      if replies.delete (.descendant sessionUuid agentId) session.sessionKey then
        some session.sessionKey
      else none

section Loops

variable (context : CascadeContext) (replies : GatewayReplies) (owner : SessionOwner)
  (idOf : CreateReply → Option String) {agentIds : List String}

theorem createDescendant_eq (agentId : String) (listed : List DescendantSession)
    (backend : Backend) : createDescendant context replies owner idOf agentId listed backend =
      (listed ++ createdSessions context replies owner.sessionUuid idOf [agentId],
        backend.createAll context owner (createdSessions context replies owner.sessionUuid idOf
            [agentId])) := by
  cases answered : replies.create (.descendant owner.sessionUuid agentId)
        (descendantRequest context agentId owner.sessionUuid) with
  | none => simp [createDescendant, createdSessions, answered]
  | some reply =>
    simp [createDescendant, createdSessions, answered, Backend.createAll,
      Backend.addGatewaySession, Backend.recordSession, gatewaySession,
      SessionOwner.recordings, recordAll]

theorem createdSessions_cons (sessionUuid agentId : String) (rest : List String) :
    createdSessions context replies sessionUuid idOf (agentId :: rest) =
      createdSessions context replies sessionUuid idOf [agentId] ++
        createdSessions context replies sessionUuid idOf rest := by
  rw [createdSessions, createdSessions, createdSessions, ← filterMap_append, singleton_append]

theorem mem_createdSessions_iff {sessionUuid : String} {session : DescendantSession} :
    session ∈ createdSessions context replies sessionUuid idOf agentIds ↔
      ∃ agentId ∈ agentIds, ∃ reply, replies.create (.descendant sessionUuid agentId)
            (descendantRequest context agentId sessionUuid) = some reply ∧
          session = ⟨agentId, reply.key, idOf reply⟩ := by
  simp [createdSessions, eq_comm (a := session)]

section

variable (sessionUuid : String)

theorem sublist_agentId_createdSessions (agentIds : List String) :
    ((createdSessions context replies sessionUuid idOf agentIds).map
        DescendantSession.agentId).Sublist agentIds := by
  induction agentIds with
  | nil => exact .refl _
  | cons agentId rest inductionHypothesis =>
    rw [createdSessions_cons, map_append]
    cases answered : replies.create (.descendant sessionUuid agentId)
          (descendantRequest context agentId sessionUuid) with
    | none => simpa [createdSessions, answered] using inductionHypothesis.cons agentId
    | some reply => simpa [createdSessions, answered] using inductionHypothesis.cons_cons agentId

theorem createDescendants_eq (agentIds : List String) (backend : Backend) :
    createDescendants context replies owner agentIds backend =
      (createdSessions context replies owner.sessionUuid
          (fun reply => some reply.sessionId) agentIds, backend.createAll context owner
          (createdSessions context replies owner.sessionUuid
            (fun reply => some reply.sessionId) agentIds)) := by
  have general (listed : List DescendantSession) (backend : Backend) : agentIds.foldl
          (fun created agentId => createDescendant context replies owner
              (fun reply => some reply.sessionId) agentId created.1 created.2) (listed, backend) =
        (listed ++ createdSessions context replies owner.sessionUuid
              (fun reply => some reply.sessionId) agentIds, backend.createAll context owner
            (createdSessions context replies owner.sessionUuid
              (fun reply => some reply.sessionId) agentIds)) := by
    induction agentIds generalizing listed backend with
    | nil => simp [createdSessions]
    | cons agentId rest inductionHypothesis =>
      rw [foldl_cons, createDescendant_eq, inductionHypothesis,
        createdSessions_cons context replies _ owner.sessionUuid agentId rest,
        Backend.createAll_createAll, append_assoc]
  exact general [] backend

/-- The added agents of one record, except for those that it lists. -/
theorem foldl_addDescendant_eq (distinct : agentIds.Nodup)
    (listed : List DescendantSession) (backend : Backend) :
    agentIds.foldl (addDescendant context replies owner) (listed, backend) = (listed ++
          createdSessions context replies owner.sessionUuid CreateReply.id
            (agentIds.filter (· ∉ listed.map DescendantSession.agentId)),
        backend.createAll context owner
          (createdSessions context replies owner.sessionUuid CreateReply.id (agentIds.filter
              (· ∉ listed.map DescendantSession.agentId)))) := by
  induction agentIds generalizing listed backend with
  | nil => simp [createdSessions]
  | cons agentId rest inductionHypothesis =>
    obtain ⟨notLater, restDistinct⟩ := nodup_cons.mp distinct
    rw [foldl_cons]
    by_cases isListed : agentId ∈ listed.map DescendantSession.agentId
    · have found : (listed.any fun session => session.agentId = agentId) =
            true := by
        simpa using isListed
      rw [addDescendant, if_pos found, inductionHypothesis restDistinct,
        filter_cons_of_neg (by simpa using isListed)]
    · have notFound : (listed.any fun session => session.agentId = agentId) ≠
            true := by
        simpa using isListed
      -- What the call appends has the agent's id, which is not in the rest.
      have sameRest : rest.filter (· ∉ (listed ++ createdSessions context replies owner.sessionUuid
                  CreateReply.id [agentId]).map DescendantSession.agentId) = rest.filter
              (· ∉ listed.map DescendantSession.agentId) := by
        apply filter_congr
        intro other member
        have differs : other ≠ agentId := by
          rintro rfl
          exact notLater member
        have notCreated : other ∉ (createdSessions context replies owner.sessionUuid
              CreateReply.id [agentId]).map
                DescendantSession.agentId := by
          intro created
          have only :=
            (sublist_agentId_createdSessions context replies
              CreateReply.id owner.sessionUuid [agentId]).subset created
          exact differs (mem_singleton.mp only)
        simp [notCreated]
      rw [addDescendant, if_neg notFound, createDescendant_eq,
        inductionHypothesis restDistinct, sameRest, filter_cons_of_pos (by simpa using isListed),
        createdSessions_cons context replies CreateReply.id
          owner.sessionUuid agentId (rest.filter _), Backend.createAll_createAll, append_assoc]

theorem removeDescendant_cases (listed : List DescendantSession)
    (backend : Backend) (agentId : String) : (removal replies sessionUuid listed agentId = none ∧
        removeDescendant replies sessionUuid (listed, backend) agentId = (listed, backend)) ∨
      ∃ key, removal replies sessionUuid listed agentId = some key ∧
          removeDescendant replies sessionUuid (listed, backend) agentId =
            (listed.filter fun session => session.agentId ≠ agentId, backend.deleteKeys [key]) := by
  cases found : listed.find? fun session => session.agentId = agentId with
  | none =>
    left
    simp [removal, removeDescendant, found]
  | some session =>
    by_cases deleted : replies.delete (.descendant sessionUuid agentId) session.sessionKey = true
    · right
      refine ⟨session.sessionKey, ?_, ?_⟩
      · simp [removal, found, deleted]
      · simp [removeDescendant, found, deleted, Backend.deleteKeys_singleton]
    · left
      simp [removal, removeDescendant, found, deleted]

theorem removal_filter_of_ne (listed : List DescendantSession)
    {agentId other : String} (differs : other ≠ agentId) :
    removal replies sessionUuid (listed.filter fun session => session.agentId ≠ agentId) other =
      removal replies sessionUuid listed other := by
  have sameEntry : (listed.filter fun session => session.agentId ≠ agentId).find?
          (fun session => session.agentId = other) =
        listed.find? fun session => session.agentId = other := by
    rw [find?_filter]
    congr 1
    funext session
    by_cases isOther : session.agentId = other <;> simp [isOther, differs]
  rw [removal, removal, sameEntry]

theorem removal_append_of_not_mem (listed : List DescendantSession)
    {later : List DescendantSession} {agentId : String}
    (absent : agentId ∉ later.map DescendantSession.agentId) :
    removal replies sessionUuid (listed ++ later) agentId =
      removal replies sessionUuid listed agentId := by
  have noneLater : later.find? (fun session => session.agentId = agentId) = none := by
    simpa using absent
  have sameEntry : (listed ++ later).find? (fun session => session.agentId = agentId) =
        listed.find? fun session => session.agentId = agentId := by
    rw [find?_append, noneLater, Option.or_none]
  rw [removal, removal, sameEntry]

theorem foldl_removeDescendant_eq (distinct : agentIds.Nodup)
    (listed : List DescendantSession) (backend : Backend) :
    agentIds.foldl (removeDescendant replies sessionUuid) (listed, backend) =
      (listed.filter fun session => ¬ (session.agentId ∈ agentIds ∧
            (removal replies sessionUuid listed session.agentId).isSome), backend.deleteKeys
          (agentIds.filterMap (removal replies sessionUuid listed))) := by
  induction agentIds generalizing listed backend with
  | nil => simp
  | cons agentId rest inductionHypothesis =>
    obtain ⟨notLater, restDistinct⟩ := nodup_cons.mp distinct
    rw [foldl_cons, filterMap_cons]
    rcases removeDescendant_cases replies sessionUuid listed backend agentId with
      ⟨nothing, skipped⟩ | ⟨key, deletes, removed⟩
    · rw [skipped, inductionHypothesis restDistinct, nothing]
      have sameList : (listed.filter fun session => ¬ (session.agentId ∈ rest ∧
                (removal replies sessionUuid listed session.agentId).isSome)) =
            listed.filter fun session => ¬ (session.agentId ∈ agentId :: rest ∧
                (removal replies sessionUuid listed session.agentId).isSome) := by
        apply filter_congr
        intro session _
        by_cases isAgent : session.agentId = agentId
        · simp [isAgent, nothing]
        · simp [isAgent]
      rw [sameList]
    · rw [removed, inductionHypothesis restDistinct, deletes,
        Backend.deleteKeys_deleteKeys, singleton_append]
      have sameKeys : rest.filterMap (removal replies sessionUuid
              (listed.filter fun session => session.agentId ≠ agentId)) =
            rest.filterMap (removal replies sessionUuid listed) := by
        apply filterMap_congr
        intro other member
        apply removal_filter_of_ne
        rintro rfl
        exact notLater member
      have sameList : ((listed.filter fun session =>
              session.agentId ≠ agentId).filter fun session => ¬ (session.agentId ∈ rest ∧
                  (removal replies sessionUuid
                    (listed.filter fun session => session.agentId ≠ agentId)
                    session.agentId).isSome)) = listed.filter fun session =>
              ¬ (session.agentId ∈ agentId :: rest ∧
                (removal replies sessionUuid listed session.agentId).isSome) := by
        rw [filter_filter]
        apply filter_congr
        intro session _
        by_cases isAgent : session.agentId = agentId
        · simp [isAgent, deletes]
        · rw [removal_filter_of_ne replies sessionUuid listed isAgent]
          simp [isAgent]
      rw [sameKeys, sameList]

end

/-- The keys of the listed sessions whose delete calls return. -/
def deletedKeys (record : RootSessionRecord) : List String :=
  (record.descendantSessions.filter fun session =>
      replies.delete (.descendant record.sessionUuid session.agentId) session.sessionKey).map
    DescendantSession.sessionKey

theorem foldl_deleteDescendant_eq (record : RootSessionRecord) (backend : Backend) :
    record.descendantSessions.foldl (deleteDescendant replies record.sessionUuid) backend =
      backend.deleteKeys (deletedKeys replies record) := by
  rw [deletedKeys]
  induction record.descendantSessions generalizing backend with
  | nil => simp
  | cons session rest inductionHypothesis =>
    rw [foldl_cons, inductionHypothesis]
    by_cases deleted :
        replies.delete (.descendant record.sessionUuid session.agentId) session.sessionKey = true
    · simp only [deleteDescendant, filter_cons, deleted, if_true, map_cons]
      rw [← Backend.deleteKeys_singleton, Backend.deleteKeys_deleteKeys, singleton_append]
    · simp [deleteDescendant, deleted]

end Loops

theorem forEachSession_eq {change : RootSessionRecord → Backend → List DescendantSession × Backend}
    {listOf : RootSessionRecord → List DescendantSession}
    {effect : Backend → RootSessionRecord → Backend}
    (changes : ∀ session backend, change session backend = (listOf session, effect backend session))
    (sessions : List RootSessionRecord) (backend : Backend) :
    forEachSession change sessions backend =
      (sessions.map fun session => session.relist (listOf session),
        sessions.foldl effect backend) := by
  induction sessions generalizing backend with
  | nil => rfl
  | cons session rest inductionHypothesis =>
    rw [forEachSession, changes]
    simp [inductionHypothesis]

section Sync

variable
  (context : CascadeContext) (replies : GatewayReplies) (params : SyncParams)

/-- The sessions that a sync adds to a record. -/
def addedSessions (record : RootSessionRecord) : List DescendantSession :=
  createdSessions context replies record.sessionUuid CreateReply.id
    (params.addedAgentIds.filter (· ∉ record.descendantAgentIds))

/-- The keys of one record whose sessions the sync deletes. -/
def removals (record : RootSessionRecord) : List String :=
  params.removedAgentIds.filterMap (removal replies record.sessionUuid record.descendantSessions)

/-- The sync removes an agent that the record lists. -/
def RemovesAgent (record : RootSessionRecord) (agentId : String) : Prop :=
  agentId ∈ params.removedAgentIds ∧
    (removal replies record.sessionUuid record.descendantSessions agentId).isSome

instance (record : RootSessionRecord) (agentId : String) :
    Decidable (RemovesAgent replies params record agentId) :=
  inferInstanceAs (Decidable (_ ∧ _))

/-- The list that a sync leaves in a record. -/
def syncedSessions (record : RootSessionRecord) : List DescendantSession :=
  (record.descendantSessions ++ addedSessions context replies params record).filter fun session =>
    ¬ RemovesAgent replies params record session.agentId

/-- A record after a sync. -/
def syncedRecord (record : RootSessionRecord) : RootSessionRecord :=
  if record.agentId = params.rootAgentId then
    record.relist (syncedSessions context replies params record)
  else record

variable {agentId : String} {written : List RootSessionRecord} {record : RootSessionRecord}

section

variable (record : RootSessionRecord)

@[simp] theorem sessionKey_syncedRecord :
    (syncedRecord context replies params record).sessionKey =
      record.sessionKey := by
  rw [syncedRecord]
  split <;> rfl

@[simp] theorem sessionUuid_syncedRecord :
    (syncedRecord context replies params record).sessionUuid =
      record.sessionUuid := by
  rw [syncedRecord]
  split <;> rfl

theorem nodup_extractDescendantAgentIds (edges : List TopologyEdge) (rootAgentId : String) :
    (extractDescendantAgentIds edges rootAgentId).Nodup :=
  (perm_insertionSort _ _).nodup_iff.mpr (nodup_dedup _)

theorem nodup_addedAgentIds : params.addedAgentIds.Nodup :=
  (nodup_extractDescendantAgentIds _ _).filter _

theorem nodup_removedAgentIds : params.removedAgentIds.Nodup :=
  (nodup_extractDescendantAgentIds _ _).filter _

theorem not_mem_added_of_removed {params : SyncParams}
    (isRemoved : agentId ∈ params.removedAgentIds) : agentId ∉ params.addedAgentIds := by
  intro isAdded
  have isNew := (mem_filter.mp isAdded).1
  have notNew := (mem_filter.mp isRemoved).2
  simp [isNew] at notNew

theorem not_mem_addedSessions_of_removed (isRemoved : agentId ∈ params.removedAgentIds) :
    agentId ∉ (addedSessions context replies params record).map
      DescendantSession.agentId := by
  intro isAdded
  have asked :=
    (sublist_agentId_createdSessions context replies CreateReply.id
      record.sessionUuid _).subset isAdded
  exact not_mem_added_of_removed isRemoved (mem_filter.mp asked).1

theorem addDescendants_eq (backend : Backend) :
    addDescendants context replies params record backend =
      (record.descendantSessions ++ addedSessions context replies params record,
        backend.createAll context (params.ownerOf record)
          (addedSessions context replies params record)) :=
  foldl_addDescendant_eq context replies (params.ownerOf record)
    (nodup_addedAgentIds params) record.descendantSessions backend

theorem removal_addedSessions (isRemoved : agentId ∈ params.removedAgentIds) :
    removal replies record.sessionUuid
        (record.descendantSessions ++ addedSessions context replies params record) agentId =
      removal replies record.sessionUuid record.descendantSessions agentId :=
  removal_append_of_not_mem replies record.sessionUuid _
    (not_mem_addedSessions_of_removed context replies params record isRemoved)

theorem removeDescendants_eq (backend : Backend) :
    removeDescendants replies params
        (record.relist (record.descendantSessions ++ addedSessions context replies params record))
        backend = (syncedSessions context replies params record,
        backend.deleteKeys (removals replies params record)) := by
  have sameKeys : params.removedAgentIds.filterMap (removal replies record.sessionUuid
            (record.descendantSessions ++ addedSessions context replies params record)) =
        removals replies params record := by
    apply filterMap_congr
    intro agentId isRemoved
    exact removal_addedSessions context replies params record isRemoved
  have sameList : (record.descendantSessions ++ addedSessions context replies params record).filter
            (fun session => ¬ (session.agentId ∈ params.removedAgentIds ∧
                (removal replies record.sessionUuid
                  (record.descendantSessions ++ addedSessions context replies params record)
                  session.agentId).isSome)) =
        syncedSessions context replies params record := by
    apply filter_congr
    intro session _
    by_cases isRemoved : session.agentId ∈ params.removedAgentIds
    · rw [removal_addedSessions context replies params record isRemoved]
      rfl
    · simp [RemovesAgent, isRemoved]
  rw [removeDescendants, foldl_removeDescendant_eq replies _ (nodup_removedAgentIds params)]
  simp only [RootSessionRecord.relist_descendantSessions,
    RootSessionRecord.relist_sessionUuid, sameKeys]
  exact Prod.ext sameList rfl

end

theorem forEachSession_removeDescendants_eq (records : List RootSessionRecord) (backend : Backend) :
    forEachSession (removeDescendants replies params) (records.map fun record =>
          record.relist (record.descendantSessions ++ addedSessions context replies params record))
        backend =
      (records.map fun record => record.relist (syncedSessions context replies params record),
        backend.deleteKeys (records.flatMap (removals replies params))) := by
  induction records generalizing backend with
  | nil => simp [forEachSession]
  | cons record rest inductionHypothesis =>
    rw [map_cons, forEachSession, removeDescendants_eq]
    simp [inductionHypothesis, Backend.deleteKeys_deleteKeys, RootSessionRecord.relist_relist]

theorem rows_foldl_updateDescendantSessions (written : List RootSessionRecord)
    (store : AiemasSessionsStore) : (written.foldl (fun store session =>
          store.updateDescendantSessions session.sessionKey session.descendantSessions)
        store).rows = store.rows.map fun record => written.foldl (fun record session =>
            withDescendants session.sessionKey session.descendantSessions record)
          record := by
  induction written generalizing store with
  | nil => simp
  | cons session rest inductionHypothesis =>
    rw [foldl_cons, inductionHypothesis, updateDescendantSessions, map_map]
    rfl

theorem foldl_withDescendants_of_not_mem
    (absent : record.sessionKey ∉ written.map RootSessionRecord.sessionKey) : written.foldl
        (fun record session =>
          withDescendants session.sessionKey session.descendantSessions record)
        record = record := by
  induction written with
  | nil => rfl
  | cons session rest inductionHypothesis =>
    obtain ⟨differs, notLater⟩ := not_or.mp (mt mem_cons.mpr absent)
    rw [foldl_cons, withDescendants, if_neg differs]
    exact inductionHypothesis notLater

theorem foldl_withDescendants_of_mem (distinct : (written.map RootSessionRecord.sessionKey).Nodup)
    (record : RootSessionRecord) {session : RootSessionRecord}
    (isWritten : session ∈ written) (sameKey : record.sessionKey = session.sessionKey) :
    written.foldl (fun record session =>
          withDescendants session.sessionKey session.descendantSessions record)
        record = record.relist session.descendantSessions := by
  induction written with
  | nil => cases isWritten
  | cons first rest inductionHypothesis =>
    obtain ⟨notLater, restDistinct⟩ := nodup_cons.mp distinct
    rw [foldl_cons]
    rcases mem_cons.mp isWritten with rfl | later
    · rw [withDescendants, if_pos sameKey]
      exact foldl_withDescendants_of_not_mem (sameKey ▸ notLater)
    · have differs : record.sessionKey ≠ first.sessionKey := by
        rw [sameKey]
        intro same
        exact notLater (same ▸ mem_map_of_mem later)
      rw [withDescendants, if_neg differs]
      exact inductionHypothesis restDistinct later

theorem mem_activeSessions_iff {store : AiemasSessionsStore} :
    record ∈ activeSessions store params.rootAgentId ↔
      record ∈ store.rows ∧ record.agentId = params.rootAgentId := by
  rw [activeSessions, mem_filter, listRootSessions, mem_insertionSort]
  simp

theorem nodup_sessionKey_activeSessions (store : AiemasSessionsStore) :
    ((activeSessions store params.rootAgentId).map RootSessionRecord.sessionKey).Nodup := by
  have sorted : (store.listRootSessions.map RootSessionRecord.sessionKey).Nodup :=
    ((perm_insertionSort _ _).map _).nodup_iff.mpr store.uniqueKey
  exact sorted.sublist (filter_sublist.map _)

theorem rows_foldl_syncedSessions (store : AiemasSessionsStore) :
    (((activeSessions store params.rootAgentId).map fun record =>
          record.relist (syncedSessions context replies params record)).foldl (fun store session =>
          store.updateDescendantSessions session.sessionKey session.descendantSessions)
        store).rows = store.rows.map (syncedRecord context replies params) := by
  rw [rows_foldl_updateDescendantSessions]
  apply map_congr_left
  intro record stored
  have sameKeys : ((activeSessions store params.rootAgentId).map fun record =>
          record.relist (syncedSessions context replies params record)).map
          RootSessionRecord.sessionKey = (activeSessions store params.rootAgentId).map
          RootSessionRecord.sessionKey := by
    simp [Function.comp_def]
  have distinct := nodup_sessionKey_activeSessions params store
  rw [← sameKeys] at distinct
  by_cases isRoot : record.agentId = params.rootAgentId
  · have isActive := (mem_activeSessions_iff params).mpr ⟨stored, isRoot⟩
    rw [syncedRecord, if_pos isRoot]
    exact foldl_withDescendants_of_mem distinct record (mem_map_of_mem isActive) rfl
  · rw [syncedRecord, if_neg isRoot]
    apply foldl_withDescendants_of_not_mem
    rw [sameKeys]
    intro found
    obtain ⟨other, isActive, sameKey⟩ := mem_map.mp found
    obtain ⟨otherStored, otherRoot⟩ := (mem_activeSessions_iff params).mp isActive
    obtain rfl := inj_on_of_nodup_map store.uniqueKey otherStored stored sameKey
    exact isRoot otherRoot

theorem syncTopologyChanges_eq (state : CascadeState) :
    (syncTopologyChanges context replies params state).store.rows =
        state.store.rows.map (syncedRecord context replies params) ∧
      (syncTopologyChanges context replies params state).backend =
        ((activeSessions state.store params.rootAgentId).foldl (fun backend record =>
              backend.createAll context (params.ownerOf record)
                (addedSessions context replies params record)) state.backend).deleteKeys
          ((activeSessions state.store params.rootAgentId).flatMap (removals replies params)) := by
  have written := rows_foldl_syncedSessions context replies params state.store
  rw [syncTopologyChanges]
  by_cases noneActive : (activeSessions state.store params.rootAgentId).isEmpty = true
  · have empty := isEmpty_iff.mp noneActive
    rw [empty] at written
    simp only [noneActive, if_true]
    exact ⟨written, by simp [empty]⟩
  · simp only [noneActive, Bool.false_eq_true, if_false,
      forEachSession_eq (addDescendants_eq context replies params),
      forEachSession_removeDescendants_eq, and_true]
    exact written

end Sync

end AiemasSession
