import AieClaw.SessionManager

/-!
# One owner for each session

Every ownership row should have exactly one membership with the role of owner,
held by the user of the row. All operations but one keep this. The exception is
`recordSessionCreated` on a session that exists already: the ownership insert
is ignored, while the membership insert still makes the caller an owner.
-/

namespace SessionManager

open SessionKeys OrderedMap SessionTables List

def SoleOwner (tables : SessionTables) : Prop :=
  ∀ ⦃uuid row⦄,
    tables.ownership.get? uuid = some row →
    ∀ userId, tables.memberRole? uuid userId = some .owner ↔ userId = row.userId

/-- Members belong to sessions that have an ownership row. -/
def MembersOwned (tables : SessionTables) : Prop :=
  ∀ ⦃uuid userId role⦄,
    tables.memberRole? uuid userId = some role →
    ∃ row, tables.ownership.get? uuid = some row

/-- The two together are kept by the operations. -/
structure SessionInvariant (tables : SessionTables) : Prop where
  soleOwner : SoleOwner tables
  membersOwned : MembersOwned tables

/--
A call does not record an existing session for a known user outside it. Every
other call meets this.
-/
def RecordsOwnSession (accounts : Accounts) (tables : SessionTables) : SessionCall → Prop
  | .recordSessionCreated _ sessionKey userId _ =>
    let uuid := extractUuidFromKey sessionKey
    tables.ownership.get? uuid = none ∨
      (tables.memberRole? uuid userId).isSome ∨
      accounts.displayNames.get? userId = none
  | _ => True

namespace SessionTables

variable {tables : SessionTables} {uuid userId : String}

theorem has_memberships_iff : tables.memberships.has (uuid, userId) =
      (tables.memberRole? uuid userId).isSome := by
  simp [has, memberRole?]

@[simp] theorem memberRole?_setArchivedAt (uuid other userId : String) (archivedAt : Option ℤ) :
    (tables.setArchivedAt uuid archivedAt).memberRole? other userId =
      tables.memberRole? other userId :=
  rfl

theorem get?_ownership_setArchivedAt {other : String} {archivedAt : Option ℤ} {row : OwnershipRow}
    (found : (tables.setArchivedAt uuid archivedAt).ownership.get? other = some row) : ∃ before,
      tables.ownership.get? other = some before ∧ before.userId = row.userId := by
  rw [setArchivedAt, get?_modify] at found
  split at found
  next same =>
    obtain ⟨before, present, rfl⟩ := Option.map_eq_some_iff.mp found
    exact ⟨before, same ▸ present, rfl⟩
  next => exact ⟨row, found, rfl⟩

theorem memberRole?_deleteMembership (uuid userId otherUuid otherUserId : String) :
    (tables.deleteMembership uuid userId).memberRole? otherUuid otherUserId =
      if otherUuid = uuid ∧ otherUserId = userId then none
      else
        tables.memberRole? otherUuid otherUserId := by
  simp only [memberRole?, deleteMembership, get?_delete, Prod.mk.injEq]
  split <;> rfl

theorem memberRole?_set (uuid userId otherUuid otherUserId : String) (row : MembershipRow) :
    memberRole? { tables with
          memberships := tables.memberships.set (uuid, userId) row }
        otherUuid otherUserId =
      if otherUuid = uuid ∧ otherUserId = userId then some row.role
      else
        tables.memberRole? otherUuid otherUserId := by
  simp only [memberRole?, get?_set, Prod.mk.injEq]
  split <;> rfl

theorem memberRole?_deleteSession (uuid otherUuid userId : String) :
    (tables.deleteSession uuid).memberRole? otherUuid userId =
      if otherUuid = uuid then none
      else
        tables.memberRole? otherUuid userId := by
  have filtered : (tables.deleteSession uuid).memberships.get? (otherUuid, userId) =
        if otherUuid = uuid then none
        else
          tables.memberships.get? (otherUuid, userId) := by
    apply Option.ext
    intro row
    rw [deleteSession, get?_filter_eq_some_iff]
    by_cases same : otherUuid = uuid <;> simp [same]
  unfold memberRole?
  rw [filtered]
  split <;> rfl

theorem get?_ownership_deleteSession (uuid other : String) :
    (tables.deleteSession uuid).ownership.get? other =
      if other = uuid then none else tables.ownership.get? other :=
  get?_delete tables.ownership uuid other

theorem insertOwnershipOrIgnore_cases (tables : SessionTables) (accounts : Accounts)
    (uuid : String) (row : OwnershipRow) : (tables.ownership.has uuid = true ∧
        tables.insertOwnershipOrIgnore accounts uuid row = .ok tables) ∨
      (tables.ownership.get? uuid = none ∧
        (accounts.displayNames.get? row.userId).isSome ∧
        row.tenantId ∈ accounts.tenants ∧
        tables.insertOwnershipOrIgnore accounts uuid row =
          .ok { tables with ownership := tables.ownership.set uuid row }) ∨
      (tables.ownership.get? uuid = none ∧
        (accounts.displayNames.get? row.userId = none ∨ row.tenantId ∉ accounts.tenants) ∧
        tables.insertOwnershipOrIgnore accounts uuid row = .error foreignKeyFailed) := by
  unfold insertOwnershipOrIgnore
  cases present : tables.ownership.has uuid with
  | true => simp
  | false =>
    have absent : tables.ownership.get? uuid = none := by
      simpa [has] using present
    by_cases known : accounts.displayNames.has row.userId = true
    · by_cases tenant : row.tenantId ∈ accounts.tenants
      · have isKnown := known
        unfold has at isKnown
        simp [absent, known, tenant, isKnown]
      · simp [absent, tenant]
    · have unknown : accounts.displayNames.get? row.userId = none := by
        simpa [has] using known
      simp [absent, known, unknown]

theorem insertMembership_cases (accounts : Accounts)
    (row : MembershipRow) (absent : tables.memberRole? uuid userId = none) :
    (accounts.displayNames.get? userId = none ∧
        tables.insertMembership accounts uuid userId row = .error foreignKeyFailed) ∨
      ((accounts.displayNames.get? userId).isSome ∧
        tables.insertMembership accounts uuid userId row = .ok { tables with
            memberships := tables.memberships.set (uuid, userId) row }) := by
  have notMember : tables.memberships.has (uuid, userId) = false := by
    rw [has_memberships_iff, absent]
    rfl
  by_cases known : accounts.displayNames.has userId = true
  · right
    refine ⟨known, ?_⟩
    simp [insertMembership, notMember, known]
  · left
    refine ⟨has_eq_false_iff.mp (by simpa using known), ?_⟩
    simp [insertMembership, notMember, known]

theorem insertMembershipOrIgnore_of_member {accounts : Accounts}
    {row : MembershipRow} (member : (tables.memberRole? uuid userId).isSome) :
    tables.insertMembershipOrIgnore accounts uuid userId row = .ok tables := by
  simp [insertMembershipOrIgnore, has_memberships_iff, member]

theorem insertMembershipOrIgnore_of_absent {accounts : Accounts}
    {row : MembershipRow} (absent : tables.memberRole? uuid userId = none) :
    tables.insertMembershipOrIgnore accounts uuid userId row =
      tables.insertMembership accounts uuid userId row := by
  simp [insertMembershipOrIgnore, has_memberships_iff, absent]

end SessionTables

variable {tables : SessionTables} {uuid userId : String}

theorem MembersOwned.noMember (owned : MembersOwned tables)
    (absent : tables.ownership.get? uuid = none) (userId : String) :
    tables.memberRole? uuid userId = none := by
  cases role : tables.memberRole? uuid userId with
  | none => rfl
  | some isMember =>
    obtain ⟨row, found⟩ := owned role
    rw [absent] at found
    cases found

theorem sessionInvariant_initial : SessionInvariant .initial where
  soleOwner := by
    intro uuid row found
    simp [initial] at found
  membersOwned := by
    intro uuid userId role found
    simp [initial, memberRole?] at found

/--
What recording a session can do: change nothing, create the session with the
caller as its owner, or add the caller as an owner of an existing session.
-/
theorem recordSessionCreated_cases (accounts : Accounts)
    (invariant : SessionInvariant tables) (now : ℤ) (sessionKey userId tenantId : String) :
    ((recordSessionCreated accounts now tables sessionKey userId tenantId).2 = tables ∧
        RecordsOwnSession accounts tables (.recordSessionCreated now sessionKey userId tenantId)) ∨
      (tables.ownership.get? (extractUuidFromKey sessionKey) = none ∧
        recordSessionCreated accounts now tables sessionKey userId tenantId = (.ok (), {
            ownership :=
              tables.ownership.set (extractUuidFromKey sessionKey) ⟨userId, tenantId, now, none⟩
            memberships :=
              tables.memberships.set
                (extractUuidFromKey sessionKey, userId)
                ⟨.owner, now⟩ })) ∨
      ((∃ row, tables.ownership.get? (extractUuidFromKey sessionKey) = some row) ∧
        tables.memberRole? (extractUuidFromKey sessionKey) userId = none ∧
        (accounts.displayNames.get? userId).isSome ∧
        recordSessionCreated accounts now tables sessionKey userId tenantId =
          (.ok (), { tables with
            memberships :=
              tables.memberships.set
                (extractUuidFromKey sessionKey, userId)
                ⟨.owner, now⟩ })) := by
  rcases tables.insertOwnershipOrIgnore_cases accounts
      (extractUuidFromKey sessionKey) ⟨userId, tenantId, now, none⟩ with
    ⟨present, ignored⟩ | ⟨absent, known, _, inserted⟩ | ⟨absent, _, failed⟩
  · cases role : tables.memberRole? (extractUuidFromKey sessionKey) userId with
    | some isMember =>
      have member : (tables.memberRole? (extractUuidFromKey sessionKey) userId).isSome := by
        rw [role]
        rfl
      left
      refine ⟨?_, Or.inr (Or.inl member)⟩
      simp only [recordSessionCreated, ignored, insertMembershipOrIgnore_of_member member]
    | none =>
      rcases insertMembership_cases accounts ⟨.owner, now⟩ role with
        ⟨unknown, rejected⟩ | ⟨known, added⟩
      · left
        refine ⟨?_, Or.inr (Or.inr unknown)⟩
        simp only [recordSessionCreated, ignored, rejected, insertMembershipOrIgnore_of_absent role]
      · right
        right
        refine ⟨Option.isSome_iff_exists.mp present, rfl, known, ?_⟩
        simp only [recordSessionCreated, ignored, added, insertMembershipOrIgnore_of_absent role]
  · have notMember : memberRole? { tables with
            ownership :=
              tables.ownership.set (extractUuidFromKey sessionKey) ⟨userId, tenantId, now, none⟩ }
          (extractUuidFromKey sessionKey) userId = none :=
      invariant.membersOwned.noMember absent userId
    rcases insertMembership_cases accounts ⟨.owner, now⟩ notMember with
      ⟨unknown, _⟩ | ⟨_, added⟩
    · rw [unknown] at known
      cases known
    · right
      left
      refine ⟨absent, ?_⟩
      simp only [recordSessionCreated, inserted, added,
        insertMembershipOrIgnore_of_absent notMember]
  · left
    refine ⟨?_, Or.inl absent⟩
    simp only [recordSessionCreated, failed]

section

variable (invariant : SessionInvariant tables)
include invariant

/-- A new session has its creator as the only owner. -/
theorem SessionInvariant.create
    (absent : tables.ownership.get? uuid = none) (ownership : OwnershipRow) (now : ℤ) :
    SessionInvariant {
      ownership := tables.ownership.set uuid ownership
      memberships :=
        tables.memberships.set (uuid, ownership.userId) ⟨.owner, now⟩ } := by
  constructor
  · intro other row found userId
    have roles := tables.memberRole?_set uuid ownership.userId other userId ⟨.owner, now⟩
    change memberRole? { tables with
      memberships := tables.memberships.set (uuid, ownership.userId)
        ⟨.owner, now⟩ } other userId = _ ↔ _
    rw [roles]
    by_cases same : other = uuid
    · subst same
      rw [get?_set_self] at found
      cases found
      by_cases isOwner : userId = ownership.userId
      · simp [isOwner]
      · simp [isOwner, invariant.membersOwned.noMember absent]
    · rw [get?_set_of_ne same] at found
      simpa [same] using invariant.soleOwner found userId
  · intro other userId role found
    by_cases same : other = uuid
    · subst same
      exact ⟨ownership, get?_set_self _ _ _⟩
    · have roles := tables.memberRole?_set uuid ownership.userId other userId ⟨.owner, now⟩
      simp only [same, false_and, if_false] at roles
      obtain ⟨row, present⟩ := invariant.membersOwned (roles.symm.trans found)
      exact ⟨row, by
        rw [get?_set_of_ne same]
        exact present⟩

theorem SessionInvariant.join (owned : ∃ row, tables.ownership.get? uuid = some row)
    (absent : tables.memberRole? uuid userId = none) (now : ℤ) : SessionInvariant { tables with
      memberships :=
        tables.memberships.set (uuid, userId) ⟨.participant, now⟩ } := by
  have roles := fun other otherUserId =>
    tables.memberRole?_set uuid userId other otherUserId ⟨.participant, now⟩
  constructor
  · intro other row found otherUserId
    rw [roles]
    by_cases same : other = uuid ∧ otherUserId = userId
    · obtain ⟨rfl, rfl⟩ := same
      have notOwner : otherUserId ≠ row.userId := by
        intro isOwner
        have role := (invariant.soleOwner found otherUserId).mpr isOwner
        rw [absent] at role
        cases role
      simp [notOwner]
    · simpa [same] using invariant.soleOwner found otherUserId
  · intro other otherUserId role found
    rw [roles] at found
    by_cases same : other = uuid ∧ otherUserId = userId
    · obtain ⟨rfl, rfl⟩ := same
      exact owned
    · simp only [same, if_false] at found
      exact invariant.membersOwned found

theorem SessionInvariant.deleteMembership
    (notOwner : tables.memberRole? uuid userId ≠ some .owner) :
    SessionInvariant (tables.deleteMembership uuid userId) := by
  constructor
  · intro other row found otherUserId
    rw [memberRole?_deleteMembership]
    by_cases same : other = uuid ∧ otherUserId = userId
    · obtain ⟨rfl, rfl⟩ := same
      have differs : otherUserId ≠ row.userId := by
        intro isOwner
        exact notOwner ((invariant.soleOwner found otherUserId).mpr isOwner)
      simp [differs]
    · simpa [same] using invariant.soleOwner found otherUserId
  · intro other otherUserId role found
    rw [memberRole?_deleteMembership] at found
    split at found
    · cases found
    · exact invariant.membersOwned found

theorem SessionInvariant.setArchivedAt (uuid : String) (archivedAt : Option ℤ) :
    SessionInvariant (tables.setArchivedAt uuid archivedAt) := by
  constructor
  · intro other row found userId
    obtain ⟨before, present, sameUser⟩ := get?_ownership_setArchivedAt found
    rw [memberRole?_setArchivedAt, ← sameUser]
    exact invariant.soleOwner present userId
  · intro other userId role found
    obtain ⟨row, present⟩ := invariant.membersOwned
      ((tables.memberRole?_setArchivedAt uuid other userId archivedAt).symm.trans found)
    by_cases same : other = uuid
    · subst same
      refine ⟨{ row with archivedAt := archivedAt }, ?_⟩
      rw [SessionTables.setArchivedAt, get?_modify_self, present, Option.map_some]
    · refine ⟨row, ?_⟩
      rw [SessionTables.setArchivedAt, get?_modify_of_ne same, present]

theorem SessionInvariant.deleteSession (uuid : String) :
    SessionInvariant (tables.deleteSession uuid) := by
  constructor
  · intro other row found userId
    rw [get?_ownership_deleteSession] at found
    rw [memberRole?_deleteSession]
    split at found
    · cases found
    next differs => simpa [differs] using invariant.soleOwner found userId
  · intro other userId role found
    rw [memberRole?_deleteSession] at found
    split at found
    · cases found
    next differs =>
      obtain ⟨row, present⟩ := invariant.membersOwned found
      exact ⟨row, by
        rw [get?_ownership_deleteSession, if_neg differs, present]⟩

theorem not_soleOwner_of_secondOwner (owned : ∃ row, tables.ownership.get? uuid = some row)
    (absent : tables.memberRole? uuid userId = none) (now : ℤ) : ¬ SoleOwner { tables with
      memberships :=
        tables.memberships.set (uuid, userId) ⟨.owner, now⟩ } := by
  intro soleOwner
  obtain ⟨row, found⟩ := owned
  have isOwner : userId = row.userId := by
    refine (soleOwner found userId).mp ?_
    rw [memberRole?_set]
    simp
  have wasOwner := (invariant.soleOwner found userId).mpr isOwner
  rw [absent] at wasOwner
  cases wasOwner

end

variable {accounts : Accounts} {call : SessionCall} {tables : SessionTables}

theorem recordSessionCreated_unchanged_of_error {now : ℤ}
    {sessionKey userId tenantId : String} {error : SessionError}
    (failed :
      (recordSessionCreated accounts now tables sessionKey userId tenantId).1 = .error error) :
    (recordSessionCreated accounts now tables sessionKey userId tenantId).2 = tables := by
  rcases tables.insertOwnershipOrIgnore_cases accounts
      (extractUuidFromKey sessionKey) ⟨userId, tenantId, now, none⟩ with
    ⟨_, ignored⟩ | ⟨_, known, _, inserted⟩ | ⟨_, _, rejected⟩
  · simp only [recordSessionCreated, ignored] at failed ⊢
    split at failed
    · simp only
    · cases failed
  · have added : ∃ after, insertMembershipOrIgnore { tables with
              ownership :=
                tables.ownership.set (extractUuidFromKey sessionKey) ⟨userId, tenantId, now, none⟩ }
            accounts (extractUuidFromKey sessionKey) userId
            ⟨.owner, now⟩ = .ok after := by
      unfold insertMembershipOrIgnore insertMembership
      simp only [has, known, if_true]
      split <;> exact ⟨_, rfl⟩
    obtain ⟨after, added⟩ := added
    simp only [recordSessionCreated, inserted, added] at failed
    cases failed
  · simp only [recordSessionCreated, rejected]

/-- What a call writes when it goes through. -/
inductive Writes (accounts : Accounts) (tables : SessionTables) :
    SessionCall → SessionTables → Prop where
  | record (now : ℤ) (sessionKey userId tenantId : String) :
    Writes accounts tables (.recordSessionCreated now sessionKey userId tenantId)
      (recordSessionCreated accounts now tables sessionKey userId tenantId).2
  | join (now : ℤ) (sessionKey targetUserId callerUserId : String)
      (caller : (tables.memberRole? (extractUuidFromKey sessionKey) callerUserId).isSome)
      (absent : tables.memberRole? (extractUuidFromKey sessionKey) targetUserId = none) :
    Writes accounts tables (.inviteToSession now sessionKey targetUserId callerUserId) { tables with
      memberships :=
        tables.memberships.set (extractUuidFromKey sessionKey, targetUserId) ⟨.participant, now⟩ }
  | drop (sessionKey targetUserId callerUserId : String)
      (owner : tables.memberRole? (extractUuidFromKey sessionKey) callerUserId = some .owner)
      (differs : targetUserId ≠ callerUserId) :
    Writes accounts tables (.removeMember sessionKey targetUserId callerUserId)
      (tables.deleteMembership (extractUuidFromKey sessionKey) targetUserId)
  | leave (sessionKey callerUserId : String) (participates :
        tables.memberRole? (extractUuidFromKey sessionKey) callerUserId = some .participant) :
    Writes accounts tables (.leaveSession sessionKey callerUserId)
      (tables.deleteMembership (extractUuidFromKey sessionKey) callerUserId)
  | archive (call : SessionCall) (uuid : String) (archivedAt : Option ℤ) :
    Writes accounts tables call (tables.setArchivedAt uuid archivedAt)
  | delete (identifier : String) :
    Writes accounts tables (.deleteSessionRecords identifier)
      (tables.deleteSession (uuidOfIdentifier identifier))

/-- A call changes nothing, or goes through and writes. -/
theorem perform_cases (accounts : Accounts) (tables : SessionTables) (call : SessionCall) :
    (perform accounts tables call).2 = tables ∨
      (perform accounts tables call).1 = .ok () ∧
        Writes accounts tables call (perform accounts tables call).2 := by
  cases call with
  | recordSessionCreated now sessionKey userId tenantId =>
    cases result : (recordSessionCreated accounts now tables sessionKey userId tenantId).1 with
    | error error => exact Or.inl (recordSessionCreated_unchanged_of_error result)
    | ok => exact Or.inr ⟨result, .record now sessionKey userId tenantId⟩
  | inviteToSession now sessionKey targetUserId callerUserId =>
    simp only [perform, inviteToSession, checkSessionAccess, uuidOfIdentifier_extractUuidFromKey,
      has_memberships_iff]
    cases caller : (tables.memberRole? (extractUuidFromKey sessionKey) callerUserId).isSome with
    | false => exact Or.inl rfl
    | true =>
      cases target : tables.memberRole? (extractUuidFromKey sessionKey) targetUserId with
      | some role => exact Or.inl rfl
      | none =>
        rcases insertMembership_cases accounts ⟨.participant, now⟩ target with
          ⟨_, rejected⟩ | ⟨_, added⟩
        · simp [rejected, Outcome.forget]
        · simp only [added]
          exact Or.inr ⟨rfl, .join now sessionKey targetUserId callerUserId caller target⟩
  | removeMember sessionKey targetUserId callerUserId =>
    simp only [perform, removeMember]
    split_ifs with notOwner sameUser notMember
    · exact Or.inl rfl
    · exact Or.inl rfl
    · exact Or.inl rfl
    · exact Or.inr ⟨rfl, .drop _ _ _ (not_not.mp notOwner) sameUser⟩
  | leaveSession sessionKey callerUserId =>
    simp only [perform, leaveSession]
    split
    · exact Or.inl rfl
    · exact Or.inl rfl
    next participates => exact Or.inr ⟨rfl, .leave _ _ participates⟩
  | archiveSession now sessionKey callerUserId =>
    simp only [perform, archiveSession]
    split
    · exact Or.inl rfl
    · split
      · exact Or.inl rfl
      · exact Or.inr ⟨rfl, .archive _ _ _⟩
  | unarchiveSession sessionKey callerUserId =>
    simp only [perform, unarchiveSession]
    split
    · exact Or.inl rfl
    · exact Or.inr ⟨rfl, .archive _ _ _⟩
  | deleteSessionRecords identifier => exact Or.inr ⟨rfl, .delete identifier⟩

theorem perform_unchanged_of_error {error : SessionError}
    (failed : (perform accounts tables call).1 = .error error) :
    (perform accounts tables call).2 = tables := by
  rcases perform_cases accounts tables call with unchanged | ⟨succeeded, -⟩
  · exact unchanged
  · rw [succeeded] at failed
    cases failed

/-- Every call but a foreign recording keeps the invariant. -/
theorem SessionInvariant.perform (invariant : SessionInvariant tables)
    (recordsOwn : RecordsOwnSession accounts tables call) :
    SessionInvariant (perform accounts tables call).2 := by
  rcases perform_cases accounts tables call with unchanged | ⟨-, writes⟩
  · rwa [unchanged]
  generalize (SessionManager.perform accounts tables call).2 = next at writes ⊢
  cases writes with
  | record now sessionKey userId tenantId =>
    rcases recordSessionCreated_cases accounts invariant now sessionKey userId tenantId with
      ⟨unchanged, _⟩ | ⟨absent, created⟩ | ⟨⟨row, owned⟩, absent, known, _⟩
    · rwa [unchanged]
    · rw [created]
      exact invariant.create absent ⟨userId, tenantId, now, none⟩ now
    · rcases recordsOwn with notOwned | isMember | unknown
      · rw [owned] at notOwned
        cases notOwned
      · rw [absent] at isMember
        cases isMember
      · rw [unknown] at known
        cases known
  | join now sessionKey targetUserId callerUserId caller absent =>
    obtain ⟨role, isMember⟩ := Option.isSome_iff_exists.mp caller
    exact invariant.join (invariant.membersOwned isMember) absent now
  | drop sessionKey targetUserId callerUserId owner differs =>
    apply invariant.deleteMembership
    intro targetOwns
    obtain ⟨row, owned⟩ := invariant.membersOwned owner
    have isCaller := (invariant.soleOwner owned _).mp owner
    have isTarget := (invariant.soleOwner owned _).mp targetOwns
    exact differs (isTarget.trans isCaller.symm)
  | leave sessionKey callerUserId participates =>
    apply invariant.deleteMembership
    simp [participates]
  | archive => exact invariant.setArchivedAt _ _
  | delete identifier => exact invariant.deleteSession _

theorem SessionInvariant.recordsOwnSession_of_soleOwner (invariant : SessionInvariant tables)
    (soleOwner : SoleOwner (SessionManager.perform accounts tables call).2) :
    RecordsOwnSession accounts tables call := by
  cases call with
  | recordSessionCreated now sessionKey userId tenantId =>
    rcases recordSessionCreated_cases accounts invariant now sessionKey userId tenantId with
      ⟨_, recordsOwn⟩ | ⟨absent, _⟩ | ⟨owned, absent, _, joined⟩
    · exact recordsOwn
    · exact Or.inl absent
    · simp only [SessionManager.perform, joined] at soleOwner
      exact absurd soleOwner (not_soleOwner_of_secondOwner invariant owned absent now)
  | _ => trivial

theorem tablesAfter_concat (accounts : Accounts) (calls : List SessionCall) (call : SessionCall) :
    tablesAfter accounts (calls ++ [call]) =
      (perform accounts (tablesAfter accounts calls) call).2 := by
  simp [tablesAfter]

theorem sessionInvariant_tablesAfter {calls : List SessionCall} (recordsOwn : ∀ before call,
        before ++ [call] <+: calls →
        RecordsOwnSession accounts (tablesAfter accounts before) call) :
    SessionInvariant (tablesAfter accounts calls) := by
  induction calls using List.reverseRecOn with
  | nil => exact sessionInvariant_initial
  | append_singleton calls call inductionHypothesis =>
    rw [tablesAfter_concat]
    refine SessionInvariant.perform (inductionHypothesis ?_) (recordsOwn calls call prefix_rfl)
    intro before earlier isEarlier
    exact recordsOwn before earlier (isEarlier.trans (prefix_append calls [call]))

/--
Along any sequence of calls, every session keeps exactly one owner if and only
if no call records an existing session for a known user outside it; and a call
that fails changes neither table.
-/
theorem soleOwner_along_iff (accounts : Accounts) (calls : List SessionCall) :
    ((∀ before, before <+: calls → SoleOwner (tablesAfter accounts before)) ↔
        ∀ before call,
          before ++ [call] <+: calls →
          RecordsOwnSession accounts (tablesAfter accounts before) call) ∧
      ∀ tables call error,
        (perform accounts tables call).1 = .error error →
        (perform accounts tables call).2 = tables := by
  refine ⟨⟨?_, ?_⟩, fun _ _ _ failed => perform_unchanged_of_error failed⟩
  · intro soleOwner
    induction calls using List.reverseRecOn with
    | nil =>
      intro before call isEarlier
      exact absurd (prefix_nil.mp isEarlier) (by simp)
    | append_singleton calls last inductionHypothesis =>
      have earlier := inductionHypothesis fun before isEarlier =>
        soleOwner before (isEarlier.trans (prefix_append _ _))
      intro before call isEarlier
      rcases prefix_concat_iff.mp isEarlier with whole | inside
      · obtain ⟨rfl, same⟩ := append_inj' whole rfl
        obtain rfl := singleton_injective same
        have after := soleOwner _ (prefix_refl (before ++ [call]))
        rw [tablesAfter_concat] at after
        exact (sessionInvariant_tablesAfter earlier).recordsOwnSession_of_soleOwner after
      · exact earlier before call inside
  · intro recordsOwn before isEarlier
    have invariant : SessionInvariant (tablesAfter accounts before) :=
      sessionInvariant_tablesAfter fun earlier call inside =>
        recordsOwn earlier call (inside.trans isEarlier)
    exact invariant.soleOwner

/-- Two users who record keys with one uuid both become its owners. -/
theorem not_soleOwner_of_sharedUuid :
    ¬ SoleOwner (tablesAfter
      { displayNames := (empty.set "alice" "Alice").set "bob" "Bob"
        tenants := {"tenant"} }
      [.recordSessionCreated 1 "agent:main:group:u1" "alice" "tenant",
        .recordSessionCreated 2 "agent:other:group:u1" "bob" "tenant"]) := by
  intro soleOwner
  have owned : (tablesAfter
        { displayNames := (empty.set "alice" "Alice").set "bob" "Bob"
          tenants := {"tenant"} }
        [.recordSessionCreated 1 "agent:main:group:u1" "alice" "tenant",
          .recordSessionCreated 2 "agent:other:group:u1" "bob" "tenant"]).ownership.get? "u1" =
        some ⟨"alice", "tenant", 1, none⟩ := by
    decide
  have sameUser := (soleOwner owned "bob").mp (by decide)
  exact absurd sameUser (by decide)

end SessionManager
