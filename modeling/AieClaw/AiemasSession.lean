import AieClaw.SessionManager

/-!
# Cascaded sessions

The session cascade of `src/gateway-bridge/aiemas-session.ts` over the table
`aiemas_sessions`. A root session and the sessions of the agents below it share
one session uuid; the record of the root lists the sessions of its descendants.

Each operation calls the gateway once for the root and at most once for each
descendant of each record, so the outcomes of its calls are a function of the
place of the call and of what it asks for.
-/

namespace AiemasSession

open SessionKeys SessionManager

structure TopologyEdge where
  fromId : String
  toId : String

structure TopologyTree where
  edges : List TopologyEdge

/-- The agents of the edges other than the root, each once, in order. -/
def extractDescendantAgentIds (edges : List TopologyEdge) (rootAgentId : String) : List String :=
  let agentIds :=
    (edges.flatMap fun edge => [edge.fromId, edge.toId]).filter
      fun agentId => agentId ≠ "" && agentId ≠ rootAgentId
  JsString.toSorted agentIds.dedup

structure DescendantSession where
  agentId : String
  sessionKey : String
  sessionId : Option String
  deriving DecidableEq

structure RootSessionRecord where
  sessionKey : String
  sessionId : String
  agentId : String
  sessionUuid : String
  label : Option String
  currentAgentId : Option String
  userId : String
  tenantId : String
  descendantSessions : List DescendantSession
  createdAt : ℤ
  updatedAt : ℤ
  deriving DecidableEq

/-- The agents that a record lists. -/
def RootSessionRecord.descendantAgentIds (record : RootSessionRecord) : List String :=
  record.descendantSessions.map DescendantSession.agentId

/-- The record with another list of descendants. -/
def RootSessionRecord.relist (record : RootSessionRecord)
    (descendantSessions : List DescendantSession) : RootSessionRecord :=
  { record with descendantSessions := descendantSessions }

variable (record : RootSessionRecord) (descendantSessions : List DescendantSession)

attribute [simps sessionKey sessionUuid descendantSessions] RootSessionRecord.relist

@[simp] theorem RootSessionRecord.relist_relist (earlier later : List DescendantSession) :
    (record.relist earlier).relist later = record.relist later :=
  rfl

/-- The rows of `aiemas_sessions`, in order of insertion. -/
structure AiemasSessionsStore where
  rows : List RootSessionRecord
  primaryKey : (rows.map RootSessionRecord.sessionUuid).Nodup
  uniqueKey : (rows.map RootSessionRecord.sessionKey).Nodup

namespace AiemasSessionsStore

def empty : AiemasSessionsStore where
  rows := []
  primaryKey := List.nodup_nil
  uniqueKey := List.nodup_nil

/-- `INSERT INTO aiemas_sessions`; `none` when a constraint fails. -/
def saveRootSession (store : AiemasSessionsStore) (record : RootSessionRecord) :
    Option AiemasSessionsStore :=
  if constraints :
      record.sessionUuid ∉ store.rows.map RootSessionRecord.sessionUuid ∧
        record.sessionKey ∉ store.rows.map RootSessionRecord.sessionKey then
    some {
      rows := store.rows ++ [record]
      primaryKey := by
        simpa [List.nodup_append, store.primaryKey] using constraints.1
      uniqueKey := by
        simpa [List.nodup_append, store.uniqueKey] using constraints.2 }
  else none

theorem rows_of_saveRootSession {store after : AiemasSessionsStore}
    {record : RootSessionRecord} (saved : store.saveRootSession record = some after) :
    after.rows = store.rows ++ [record] := by
  rw [saveRootSession] at saved
  split at saved
  · cases saved
    rfl
  · cases saved

variable (store : AiemasSessionsStore)

def loadRootSession (sessionKey : String) :
    Option RootSessionRecord :=
  store.rows.find? fun record => record.sessionKey = sessionKey

/-- The rows, the latest creation first. -/
def listRootSessions : List RootSessionRecord :=
  store.rows.insertionSort fun left right => right.createdAt ≤ left.createdAt

def deleteRootSession (sessionKey : String) :
    AiemasSessionsStore where
  rows := store.rows.filter fun record => record.sessionKey ≠ sessionKey
  primaryKey := store.primaryKey.sublist (List.filter_sublist.map _)
  uniqueKey := store.uniqueKey.sublist (List.filter_sublist.map _)

/-- The row with its list replaced when it has the given key. -/
def withDescendants (sessionKey : String) (descendantSessions : List DescendantSession)
    (record : RootSessionRecord) : RootSessionRecord :=
  if record.sessionKey = sessionKey then record.relist descendantSessions
  else record

@[simp] theorem sessionUuid_withDescendants (sessionKey : String)
    (descendantSessions : List DescendantSession) (record : RootSessionRecord) :
    (withDescendants sessionKey descendantSessions record).sessionUuid =
      record.sessionUuid := by
  rw [withDescendants]
  split <;> rfl

@[simp] theorem sessionKey_withDescendants (sessionKey : String)
    (descendantSessions : List DescendantSession) (record : RootSessionRecord) :
    (withDescendants sessionKey descendantSessions record).sessionKey =
      record.sessionKey := by
  rw [withDescendants]
  split <;> rfl

def updateDescendantSessions (sessionKey : String)
    (descendantSessions : List DescendantSession) : AiemasSessionsStore where
  rows := store.rows.map (withDescendants sessionKey descendantSessions)
  primaryKey := by
    simpa [Function.comp_def] using store.primaryKey
  uniqueKey := by
    simpa [Function.comp_def] using store.uniqueKey

end AiemasSessionsStore

/-- The place of a gateway call within one operation. -/
inductive CallSite where
  | root
  | descendant (sessionUuid agentId : String)
  deriving DecidableEq

/-- The parameters of `sessions.create`. -/
structure CreateRequest where
  agentId : String
  label : Option String
  key : Option String

structure CreateReply where
  key : String
  sessionId : String
  id : Option String

/-- What the gateway calls of one operation give; `none` and `false` throw. -/
structure GatewayReplies where
  create : CallSite → CreateRequest → Option CreateReply
  delete : CallSite → String → Bool

/-- A gateway that grants every request under the requested key. -/
def willingGateway : GatewayReplies where
  create := fun _ request => some {
    key := request.key.getD request.agentId
    sessionId := request.agentId
    id := none }
  delete := fun _ _ => true

/-- A descendant session that a create call of the cascade has made. -/
structure GatewaySession where
  key : String
  sessionUuid : String
  agentId : String
  deriving DecidableEq

structure Backend where
  tables : SessionTables
  gatewaySessions : List GatewaySession

structure CascadeState where
  store : AiemasSessionsStore
  backend : Backend

/-- The clock reading of an operation, and the accounts it sees. -/
structure CascadeContext where
  accounts : Accounts
  toLowerCase : String → String
  now : ℤ

namespace Backend

/-- `recordSessionCreated` with its error caught. -/
def recordSession (context : CascadeContext) (backend : Backend)
    (sessionKey userId tenantId : String) : Backend :=
  { backend with
    tables :=
      (recordSessionCreated context.accounts context.now backend.tables
        sessionKey userId tenantId).2 }

def deleteRecords (backend : Backend) (sessionKey : String) : Backend :=
  { backend with tables := deleteSessionRecords backend.tables sessionKey }

/-- A create call for a descendant has returned. -/
def addGatewaySession (backend : Backend) (session : GatewaySession) : Backend :=
  { backend with
    gatewaySessions := backend.gatewaySessions ++ [session] }

/-- A delete call has returned. -/
def removeGatewaySession (backend : Backend) (key : String) : Backend :=
  { backend with
    gatewaySessions := backend.gatewaySessions.filter fun session => session.key ≠ key }

end Backend

section

variable (context : CascadeContext)

def buildDescendantSessionKey (agentId sessionUuid : String) :
    Option String :=
  if sessionUuid = "" then none
  else some (constructKeyFromUuid context.toLowerCase agentId sessionUuid)

def descendantRequest (agentId sessionUuid : String) :
    CreateRequest where
  agentId := agentId
  label := none
  key := buildDescendantSessionKey context agentId sessionUuid

/-- The owner that the sessions of one record get. -/
structure SessionOwner where
  sessionUuid : String
  userId : String
  tenantId : String

/--
Create the session of one descendant and record its ownership. The entry takes
its id from the field of the reply that the operation reads.
-/
def createDescendant (replies : GatewayReplies)
    (owner : SessionOwner) (idOf : CreateReply → Option String) (agentId : String)
    (listed : List DescendantSession) (backend : Backend) : List DescendantSession × Backend :=
  match replies.create (.descendant owner.sessionUuid agentId)
      (descendantRequest context agentId owner.sessionUuid) with
  | none => (listed, backend)
  | some reply =>
    let backend :=
      (backend.addGatewaySession {
        key := reply.key
        sessionUuid := owner.sessionUuid
        agentId := agentId }).recordSession context reply.key owner.userId owner.tenantId
    (listed ++ [{
      agentId := agentId
      sessionKey := reply.key
      sessionId := idOf reply }], backend)

structure CascadeCreateParams where
  agentId : String
  userId : Option String
  tenantId : String
  label : Option String

structure CascadeCreateResult where
  sessionKey : String
  sessionId : String
  sessionUuid : String

/-- The descendants of step 5, each created in turn. -/
def createDescendants (replies : GatewayReplies)
    (owner : SessionOwner) (agentIds : List String) (backend : Backend) :
    List DescendantSession × Backend :=
  agentIds.foldl
    (fun created agentId =>
      createDescendant context replies owner
        (fun reply => some reply.sessionId) agentId created.1 created.2)
    ([], backend)

/--
`cascadeCreate` with the uuid that it draws and the topology that the cache
holds for the agent; no result when it throws.
-/
def cascadeCreate (sessionUuid : String)
    (topology : Option TopologyTree) (replies : GatewayReplies)
    (params : CascadeCreateParams) (state : CascadeState) :
    Option CascadeCreateResult × CascadeState :=
  match replies.create .root {
      agentId := params.agentId
      label := params.label
      key := some (constructKeyFromUuid context.toLowerCase params.agentId sessionUuid) } with
  | none => (none, state)
  | some root =>
    let result : CascadeCreateResult := {
      sessionKey := root.key
      sessionId := root.sessionId
      sessionUuid := sessionUuid }
    match params.userId with
    | none => (some result, state)
    | some userId =>
      let descendantAgentIds :=
        (topology.map fun tree => extractDescendantAgentIds tree.edges params.agentId).getD []
      let owner : SessionOwner := {
        sessionUuid := sessionUuid
        userId := userId
        tenantId := params.tenantId }
      let (descendantSessions, backend) :=
        createDescendants context replies owner descendantAgentIds state.backend
      match state.store.saveRootSession {
          sessionKey := root.key
          sessionId := root.sessionId
          agentId := params.agentId
          sessionUuid := sessionUuid
          label := params.label
          currentAgentId := some params.agentId
          userId := userId
          tenantId := params.tenantId
          descendantSessions := descendantSessions
          createdAt := context.now
          updatedAt := context.now } with
      | none => (none, { state with backend := backend })
      | some store =>
        (some result, {
          store := store
          backend := backend.recordSession context root.key userId params.tenantId })

end

def deleteDescendant (replies : GatewayReplies) (sessionUuid : String) (backend : Backend)
    (session : DescendantSession) : Backend :=
  if replies.delete (.descendant sessionUuid session.agentId) session.sessionKey then
    (backend.removeGatewaySession session.sessionKey).deleteRecords session.sessionKey
  else backend

/-- `cascadeDelete`; `false` when it throws. -/
def cascadeDelete (replies : GatewayReplies) (sessionKey : String) (state : CascadeState) :
    Bool × CascadeState :=
  match state.store.loadRootSession sessionKey with
  | none =>
    if replies.delete .root sessionKey then
      (true, { state with backend := state.backend.removeGatewaySession sessionKey })
    else (false, state)
  | some record =>
    let backend :=
      record.descendantSessions.foldl (deleteDescendant replies record.sessionUuid) state.backend
    if replies.delete .root sessionKey then
      (true, {
        store := state.store.deleteRootSession sessionKey
        backend := (backend.removeGatewaySession sessionKey).deleteRecords sessionKey })
    else (false, { state with backend := backend })

structure SyncParams where
  rootAgentId : String
  oldTopology : Option TopologyTree
  newTopology : TopologyTree
  tenantId : String

namespace SyncParams

variable (params : SyncParams)

def oldDescendantIds : List String :=
  extractDescendantAgentIds ((params.oldTopology.map TopologyTree.edges).getD []) params.rootAgentId

def newDescendantIds : List String :=
  extractDescendantAgentIds params.newTopology.edges params.rootAgentId

def addedAgentIds : List String :=
  params.newDescendantIds.filter fun agentId => !params.oldDescendantIds.contains agentId

def removedAgentIds : List String :=
  params.oldDescendantIds.filter fun agentId => !params.newDescendantIds.contains agentId

/-- The owner of what a sync adds to a record. -/
def ownerOf (record : RootSessionRecord) : SessionOwner where
  sessionUuid := record.sessionUuid
  userId := record.userId
  tenantId := params.tenantId

end SyncParams

def addDescendant (context : CascadeContext) (replies : GatewayReplies) (owner : SessionOwner) :
    List DescendantSession × Backend →
    String →
    List DescendantSession × Backend
  | (listed, backend), addedAgentId =>
    if listed.any fun session => session.agentId = addedAgentId then (listed, backend)
    else createDescendant context replies owner CreateReply.id addedAgentId listed backend

/-- Delete the session of one agent of a record, if it is listed. -/
def removeDescendant (replies : GatewayReplies) (sessionUuid : String) :
    List DescendantSession × Backend →
    String →
    List DescendantSession × Backend
  | (listed, backend), removedAgentId =>
    match listed.find? fun session => session.agentId = removedAgentId with
    | none => (listed, backend)
    | some session =>
      if replies.delete (.descendant sessionUuid removedAgentId) session.sessionKey then
        (listed.filter fun session => session.agentId ≠ removedAgentId,
          (backend.removeGatewaySession session.sessionKey).deleteRecords session.sessionKey)
      else (listed, backend)

/-- Rewrite the list of each record in turn, threading the backend. -/
def forEachSession (change : RootSessionRecord → Backend → List DescendantSession × Backend) :
    List RootSessionRecord →
    Backend →
    List RootSessionRecord × Backend
  | [], backend => ([], backend)
  | session :: rest, backend =>
    let (listed, backend) := change session backend
    let (later, backend) := forEachSession change rest backend
    (session.relist listed :: later, backend)

/-- Step 4: create the sessions of the added agents. -/
def addDescendants (context : CascadeContext) (replies : GatewayReplies)
    (params : SyncParams) (session : RootSessionRecord) (backend : Backend) :
    List DescendantSession × Backend :=
  params.addedAgentIds.foldl
    (addDescendant context replies (params.ownerOf session))
    (session.descendantSessions, backend)

/-- Step 5: delete the sessions of the removed agents. -/
def removeDescendants (replies : GatewayReplies) (params : SyncParams)
    (session : RootSessionRecord) (backend : Backend) : List DescendantSession × Backend :=
  params.removedAgentIds.foldl
    (removeDescendant replies session.sessionUuid)
    (session.descendantSessions, backend)

/-- The records that a sync works on. -/
def activeSessions (store : AiemasSessionsStore) (rootAgentId : String) : List RootSessionRecord :=
  store.listRootSessions.filter fun record => record.agentId = rootAgentId

def syncTopologyChanges (context : CascadeContext) (replies : GatewayReplies)
    (params : SyncParams) (state : CascadeState) : CascadeState :=
  let active := activeSessions state.store params.rootAgentId
  if active.isEmpty then state
  else
    let (added, backend) :=
      forEachSession (addDescendants context replies params) active state.backend
    let (synced, backend) := forEachSession (removeDescendants replies params) added backend
    { store :=
        synced.foldl
          (fun store session =>
            store.updateDescendantSessions session.sessionKey session.descendantSessions)
          state.store
      backend := backend }

end AiemasSession
