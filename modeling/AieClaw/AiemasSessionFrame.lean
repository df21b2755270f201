import AieClaw.AiemasSessionEffects

/-!
# What a topology sync does to session rows

The rows of a session are stored under the uuid at the end of its key, and the
descendants of a root share that uuid. Deleting the records of one removed
descendant therefore deletes the rows of the root.
-/

namespace AiemasSession

open SessionKeys SessionManager

section

variable
  (context : CascadeContext) (replies : GatewayReplies) (params : SyncParams)

/-- The recordings that the added agents of one record cause. -/
def additions (record : RootSessionRecord) : List Recording :=
  (params.ownerOf record).recordings (addedSessions context replies params record)

/-- Some descendant session that the sync deletes has the session uuid. -/
def RemovesUuid (state : CascadeState) (uuid : String) : Prop :=
  ∃ record ∈ activeSessions state.store params.rootAgentId,
    ∃ key ∈ removals replies params record, uuidOfIdentifier key = uuid

instance (state : CascadeState) (uuid : String) :
    Decidable (RemovesUuid replies params state uuid) :=
  inferInstanceAs (Decidable (∃ _ ∈ _, ∃ _ ∈ _, _))

variable (state : CascadeState)

/--
The sync spares the rows of a session uuid: it deletes no descendant session
of that uuid and adds none whose recording inserts a row, or it deletes one
while the uuid has no rows.
-/
def SparesUuid (uuid : String) : Prop :=
  if RemovesUuid replies params state uuid then NoRows state.backend.tables uuid
  else
    ∀ record ∈ activeSessions state.store params.rootAgentId,
      ∀ recording ∈ additions context replies params record,
        extractUuidFromKey recording.sessionKey = uuid →
        RecordsNothing context.accounts state.backend.tables uuid
          recording.userId recording.tenantId

theorem tables_foldl_createAll (records : List RootSessionRecord) (backend : Backend) :
    (records.foldl (fun backend record => backend.createAll context (params.ownerOf record)
            (addedSessions context replies params record)) backend).tables =
      recordAll context.accounts context.now (records.flatMap (additions context replies params))
        backend.tables := by
  rw [recordAll_flatMap]
  induction records generalizing backend with
  | nil => rfl
  | cons record rest inductionHypothesis => exact inductionHypothesis _

theorem tables_syncTopologyChanges :
    (syncTopologyChanges context replies params state).backend.tables = deleteAll
        ((activeSessions state.store params.rootAgentId).flatMap (removals replies params))
        (recordAll context.accounts context.now
          ((activeSessions state.store params.rootAgentId).flatMap
            (additions context replies params)) state.backend.tables) := by
  rw [(syncTopologyChanges_eq context replies params state).2,
    Backend.deleteKeys, tables_foldl_createAll]

theorem rowsAgree_syncTopologyChanges_iff (uuid : String) : RowsAgree uuid
        (syncTopologyChanges context replies params state).backend.tables state.backend.tables ↔
      SparesUuid context replies params state uuid := by
  have hits : (∃ key ∈ (activeSessions state.store params.rootAgentId).flatMap
          (removals replies params), uuidOfIdentifier key = uuid) ↔
        RemovesUuid replies params state uuid := by
    simp only [List.mem_flatMap, RemovesUuid]
    constructor
    · rintro ⟨key, ⟨record, isActive, removed⟩, same⟩
      exact ⟨record, isActive, key, removed, same⟩
    · rintro ⟨record, isActive, key, removed, same⟩
      exact ⟨key, ⟨record, isActive, removed⟩, same⟩
  rw [tables_syncTopologyChanges, rowsAgree_deleteAll_recordAll_iff, SparesUuid]
  by_cases removes : RemovesUuid replies params state uuid
  · rw [if_pos (hits.mpr removes), if_pos removes]
  · rw [if_neg (mt hits.mp removes), if_neg removes]
    simp only [List.mem_flatMap]
    constructor
    · intro nothing record isActive recording recorded
      exact nothing recording ⟨record, isActive, recorded⟩
    · rintro nothing recording ⟨record, isActive, recorded⟩
      exact nothing record isActive recording recorded

/--
A sync leaves the session rows of every root whose record remains exactly as
they were if and only if it spares the uuid of each of these sessions.
-/
theorem syncTopologyChanges_keepsRows_iff :
    (∀ record ∈
        (syncTopologyChanges context replies params state).store.rows,
        RowsAgree (extractUuidFromKey record.sessionKey)
          (syncTopologyChanges context replies params state).backend.tables
          state.backend.tables) ↔
      ∀ record ∈ state.store.rows,
        SparesUuid context replies params state (extractUuidFromKey record.sessionKey) := by
  rw [(syncTopologyChanges_eq context replies params state).1, List.forall_mem_map]
  simp only [sessionKey_syncedRecord, rowsAgree_syncTopologyChanges_iff]

end

/-- Removing the only descendant deletes the rows of the root session. -/
theorem not_syncTopologyChanges_keepsRows :
    let context : CascadeContext := {
      accounts := {
        displayNames := OrderedMap.empty.set "alice" "Alice"
        tenants := {"tenant"} }
      toLowerCase := id
      now := 1 }
    let topology : TopologyTree := ⟨[⟨"root", "child"⟩]⟩
    let created :=
      (cascadeCreate context "u1" (some topology) willingGateway
        ⟨"root", some "alice", "tenant", none⟩
        ⟨.empty, ⟨.initial, []⟩⟩).2
    let synced :=
      syncTopologyChanges context willingGateway ⟨"root", some topology, ⟨[]⟩, "tenant"⟩ created
    ¬ ∀ record ∈ synced.store.rows,
        RowsAgree (extractUuidFromKey record.sessionKey)
          synced.backend.tables created.backend.tables := by
  intro context topology created synced keepsRows
  let record : RootSessionRecord := {
    sessionKey := "agent:root:group:u1"
    sessionId := "root"
    agentId := "root"
    sessionUuid := "u1"
    label := none
    currentAgentId := some "root"
    userId := "alice"
    tenantId := "tenant"
    descendantSessions := []
    createdAt := 1
    updatedAt := 1 }
  have remains : record ∈ synced.store.rows := by
    decide +kernel
  have agree := (keepsRows record remains).ownership
  have owned : (created.backend.tables.ownership.get?
        (extractUuidFromKey record.sessionKey)).isSome = true := by
    decide +kernel
  have deleted : (synced.backend.tables.ownership.get?
        (extractUuidFromKey record.sessionKey)).isSome = false := by
    decide +kernel
  rw [agree, owned] at deleted
  exact Bool.noConfusion deleted

end AiemasSession
