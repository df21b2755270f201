import AieClaw.SessionManagerInvariant

/-!
# The rows of one session

Recording only inserts rows and deleting only removes them, so a sequence of
recordings followed by deletions leaves the rows of a session as they were in
two cases only: some deletion hits a session without rows, or none hits it and
each recording of it inserts nothing.
-/

namespace SessionManager

open SessionKeys OrderedMap

/-- Two pairs of tables hold the same rows of a session uuid. -/
structure RowsAgree (uuid : String) (left right : SessionTables) : Prop where
  ownership : left.ownership.get? uuid = right.ownership.get? uuid
  memberships :
    ∀ userId, left.memberships.get? (uuid, userId) = right.memberships.get? (uuid, userId)

/-- Every row of a session on the left is also on the right. -/
structure RowsGrow (uuid : String) (left right : SessionTables) : Prop where
  ownership :
    ∀ ⦃row⦄,
      left.ownership.get? uuid = some row →
      right.ownership.get? uuid = some row
  memberships :
    ∀ ⦃userId row⦄,
      left.memberships.get? (uuid, userId) = some row →
      right.memberships.get? (uuid, userId) = some row

/-- The tables hold no row of a session uuid. -/
structure NoRows (tables : SessionTables) (uuid : String) : Prop where
  ownership : tables.ownership.get? uuid = none
  memberships : ∀ userId, tables.memberships.get? (uuid, userId) = none

/-- Recording the session for the user inserts no row. -/
def RecordsNothing (accounts : Accounts) (tables : SessionTables)
    (uuid userId tenantId : String) : Prop :=
  if (tables.ownership.get? uuid).isSome then
    (tables.memberships.get? (uuid, userId)).isSome ∨ accounts.displayNames.get? userId = none
  else accounts.displayNames.get? userId = none ∨ tenantId ∉ accounts.tenants

namespace RowsAgree

variable {uuid : String} {first second third : SessionTables}

theorem refl (uuid : String) (tables : SessionTables) : RowsAgree uuid tables tables :=
  ⟨rfl, fun _ => rfl⟩

theorem symm (agree : RowsAgree uuid first second) : RowsAgree uuid second first :=
  ⟨agree.ownership.symm, fun userId => (agree.memberships userId).symm⟩

theorem trans (earlier : RowsAgree uuid first second) (later : RowsAgree uuid second third) :
    RowsAgree uuid first third :=
  ⟨earlier.ownership.trans later.ownership,
    fun userId => (earlier.memberships userId).trans (later.memberships userId)⟩

theorem recordsNothing_iff {accounts : Accounts} {userId tenantId : String}
    (agree : RowsAgree uuid first second) : RecordsNothing accounts first uuid userId tenantId ↔
      RecordsNothing accounts second uuid userId tenantId := by
  simp only [RecordsNothing, agree.ownership, agree.memberships userId]

theorem noRows_iff (agree : RowsAgree uuid first second) :
    NoRows first uuid ↔ NoRows second uuid := by
  constructor
  · intro noRows
    exact ⟨agree.ownership ▸ noRows.ownership, fun userId =>
      agree.memberships userId ▸ noRows.memberships userId⟩
  · intro noRows
    exact ⟨agree.ownership.trans noRows.ownership, fun userId =>
      (agree.memberships userId).trans (noRows.memberships userId)⟩

end RowsAgree

namespace RowsGrow

variable {uuid : String} {first second third : SessionTables}

theorem refl (uuid : String) (tables : SessionTables) : RowsGrow uuid tables tables :=
  ⟨fun _ found => found, fun _ _ found => found⟩

theorem trans (earlier : RowsGrow uuid first second) (later : RowsGrow uuid second third) :
    RowsGrow uuid first third :=
  ⟨fun _ found => later.ownership (earlier.ownership found),
    fun _ _ found => later.memberships (earlier.memberships found)⟩

theorem agree_of_between (earlier : RowsGrow uuid first second)
    (later : RowsGrow uuid second third) (agree : RowsAgree uuid third first) :
    RowsAgree uuid second first := by
  have between {Row : Type} {left middle right : Option Row}
      (before : ∀ ⦃row⦄, left = some row → middle = some row)
      (after : ∀ ⦃row⦄, middle = some row → right = some row) (same : right = left) :
      middle = left := by
    cases found : middle with
    | none =>
      cases present : left with
      | none => rfl
      | some row => exact absurd (before present) (by simp [found])
    | some row => exact (after found).symm.trans same
  exact ⟨between earlier.ownership later.ownership agree.ownership, fun userId => between
      (fun _ found => earlier.memberships found) (fun _ found => later.memberships found)
      (agree.memberships userId)⟩

end RowsGrow

variable (accounts : Accounts) (now : ℤ) {other : String} (recordings : List Recording)
  {uuid : String} {tables : SessionTables}

theorem rowsAgree_set_ownership_of_ne (tables : SessionTables) (row : OwnershipRow)
    (differs : other ≠ uuid) :
    RowsAgree other { tables with ownership := tables.ownership.set uuid row } tables :=
  ⟨get?_set_of_ne differs, fun _ => rfl⟩

theorem rowsAgree_set_memberships_of_ne (tables : SessionTables) (userId : String)
    (row : MembershipRow) (differs : other ≠ uuid) : RowsAgree other { tables with
        memberships := tables.memberships.set (uuid, userId) row }
      tables := by
  refine ⟨rfl, fun member => get?_set_of_ne ?_⟩
  intro same
  exact differs (Prod.mk.inj same).1

theorem rowsGrow_set_ownership
    (absent : tables.ownership.get? uuid = none) (row : OwnershipRow) (other : String) :
    RowsGrow other tables { tables with ownership := tables.ownership.set uuid row } := by
  refine ⟨fun stored found => ?_, fun _ _ found => found⟩
  have differs : other ≠ uuid := by
    rintro rfl
    rw [absent] at found
    cases found
  exact (get?_set_of_ne differs).trans found

theorem rowsGrow_set_memberships {userId : String}
    (absent : tables.memberships.get? (uuid, userId) = none) (row : MembershipRow)
    (other : String) : RowsGrow other tables { tables with
        memberships := tables.memberships.set (uuid, userId) row } := by
  refine ⟨fun _ found => found, fun member stored found => ?_⟩
  have differs : (other, member) ≠ (uuid, userId) := by
    intro same
    rw [same, absent] at found
    cases found
  exact (get?_set_of_ne differs).trans found

theorem insertMembershipOrIgnore_rows (tables : SessionTables) (uuid userId : String)
    (row : MembershipRow) : (tables.insertMembershipOrIgnore accounts uuid userId row = .ok tables ∧
        (tables.memberships.get? (uuid, userId)).isSome) ∨
      (tables.insertMembershipOrIgnore accounts uuid userId row = .error foreignKeyFailed ∧
        accounts.displayNames.get? userId = none) ∨
      (tables.insertMembershipOrIgnore accounts uuid userId row =
          .ok { tables with memberships := tables.memberships.set (uuid, userId) row } ∧
        tables.memberships.get? (uuid, userId) = none ∧
        (accounts.displayNames.get? userId).isSome) := by
  cases found : tables.memberships.get? (uuid, userId) with
  | some stored =>
    have member : (tables.memberRole? uuid userId).isSome := by
      simp [SessionTables.memberRole?, found]
    exact Or.inl ⟨SessionTables.insertMembershipOrIgnore_of_member member, rfl⟩
  | none =>
    have notMember : tables.memberRole? uuid userId = none := by
      simp [SessionTables.memberRole?, found]
    have same : tables.insertMembershipOrIgnore accounts uuid userId row =
          tables.insertMembership accounts uuid userId row :=
      SessionTables.insertMembershipOrIgnore_of_absent notMember
    rcases SessionTables.insertMembership_cases accounts row notMember with
      ⟨unknown, rejected⟩ | ⟨known, added⟩
    · exact Or.inr (Or.inl ⟨same.trans rejected, unknown⟩)
    · exact Or.inr (Or.inr ⟨same.trans added, rfl, known⟩)

/--
What a recording does: it inserts nothing, or it changes the rows of its own
session, which only grow, and no others.
-/
theorem recordSessionCreated_rows (tables : SessionTables) (sessionKey userId tenantId : String) :
    ((recordSessionCreated accounts now tables sessionKey userId tenantId).2 = tables ∧
        RecordsNothing accounts tables (extractUuidFromKey sessionKey) userId tenantId) ∨
      ((∀ uuid, RowsGrow uuid tables
          (recordSessionCreated accounts now tables sessionKey userId tenantId).2) ∧
        (∀ uuid, uuid ≠ extractUuidFromKey sessionKey →
          RowsAgree uuid
            (recordSessionCreated accounts now tables sessionKey userId tenantId).2 tables) ∧
        ¬ RowsAgree (extractUuidFromKey sessionKey)
            (recordSessionCreated accounts now tables sessionKey userId tenantId).2 tables ∧
        ¬ RecordsNothing accounts tables (extractUuidFromKey sessionKey) userId tenantId) := by
  rcases tables.insertOwnershipOrIgnore_cases accounts
      (extractUuidFromKey sessionKey) ⟨userId, tenantId, now, none⟩ with
    ⟨present, ignored⟩ | ⟨absent, known, tenant, inserted⟩ | ⟨absent, refused, rejected⟩
  · have owned : (tables.ownership.get? (extractUuidFromKey sessionKey)).isSome := present
    rcases insertMembershipOrIgnore_rows accounts tables
        (extractUuidFromKey sessionKey) userId ⟨.owner, now⟩ with
      ⟨kept, member⟩ | ⟨rejected, unknown⟩ | ⟨added, notMember, known⟩
    · left
      refine ⟨by simp only [recordSessionCreated, ignored, kept], ?_⟩
      rw [RecordsNothing, if_pos owned]
      exact Or.inl member
    · left
      refine ⟨by simp only [recordSessionCreated, ignored, rejected], ?_⟩
      rw [RecordsNothing, if_pos owned]
      exact Or.inr unknown
    · right
      simp only [recordSessionCreated, ignored, added]
      refine ⟨rowsGrow_set_memberships notMember _,
        fun uuid differs => rowsAgree_set_memberships_of_ne tables userId _ differs, ?_, ?_⟩
      · intro agree
        have same := agree.memberships userId
        rw [get?_set_self, notMember] at same
        cases same
      · rw [RecordsNothing, if_pos owned]
        simp [notMember, Option.isSome_iff_ne_none.mp known]
  · right
    have insertedRow (memberships) : ¬ RowsAgree (extractUuidFromKey sessionKey)
          { ownership :=
              tables.ownership.set (extractUuidFromKey sessionKey) ⟨userId, tenantId, now, none⟩
            memberships := memberships } tables := by
      intro agree
      have same := agree.ownership
      rw [get?_set_self, absent] at same
      cases same
    have recordsSomething : ¬ RecordsNothing accounts tables (extractUuidFromKey sessionKey)
          userId tenantId := by
      simp [RecordsNothing, absent, tenant, Option.isSome_iff_ne_none.mp known]
    rcases insertMembershipOrIgnore_rows accounts
        { tables with
          ownership :=
            tables.ownership.set (extractUuidFromKey sessionKey) ⟨userId, tenantId, now, none⟩ }
        (extractUuidFromKey sessionKey) userId ⟨.owner, now⟩ with
      ⟨kept, _⟩ | ⟨_, unknown⟩ | ⟨added, notMember, _⟩
    · simp only [recordSessionCreated, inserted, kept]
      exact ⟨rowsGrow_set_ownership absent _,
        fun uuid differs => rowsAgree_set_ownership_of_ne tables _ differs,
        insertedRow _, recordsSomething⟩
    · rw [unknown] at known
      cases known
    · simp only [recordSessionCreated, inserted, added]
      exact ⟨fun uuid => (rowsGrow_set_ownership absent _ uuid).trans
          (rowsGrow_set_memberships notMember _ uuid), fun uuid differs =>
          (rowsAgree_set_memberships_of_ne _ userId _ differs).trans
            (rowsAgree_set_ownership_of_ne tables _ differs),
        insertedRow _, recordsSomething⟩
  · left
    refine ⟨by simp only [recordSessionCreated, rejected], ?_⟩
    rw [RecordsNothing, if_neg (by simp [absent])]
    exact refused

theorem rowsAgree_recordSessionCreated_iff (tables : SessionTables)
    (sessionKey userId tenantId uuid : String) :
    RowsAgree uuid (recordSessionCreated accounts now tables sessionKey userId tenantId).2 tables ↔
      (extractUuidFromKey sessionKey = uuid →
        RecordsNothing accounts tables uuid userId tenantId) := by
  rcases recordSessionCreated_rows accounts now tables sessionKey userId tenantId with
    ⟨unchanged, nothing⟩ | ⟨_, others, changed, something⟩
  · rw [unchanged]
    refine ⟨fun _ same => same ▸ nothing, fun _ => RowsAgree.refl _ _⟩
  · constructor
    · rintro agree rfl
      exact absurd agree changed
    · intro nothing
      exact others uuid fun same => something (same ▸ nothing same.symm)

theorem rowsGrow_recordSessionCreated (tables : SessionTables)
    (sessionKey userId tenantId uuid : String) : RowsGrow uuid tables
      (recordSessionCreated accounts now tables sessionKey userId tenantId).2 := by
  rcases recordSessionCreated_rows accounts now tables sessionKey userId tenantId with
    ⟨unchanged, _⟩ | ⟨grows, _⟩
  · rw [unchanged]
    exact RowsGrow.refl _ _
  · exact grows uuid

/-- One recording to make. -/
structure Recording where
  sessionKey : String
  userId : String
  tenantId : String

/-- Make recordings in order, with their errors caught. -/
def recordAll (accounts : Accounts) (now : ℤ) (recordings : List Recording)
    (tables : SessionTables) : SessionTables :=
  recordings.foldl
    (fun tables recording =>
      (recordSessionCreated accounts now tables recording.sessionKey
        recording.userId recording.tenantId).2)
    tables

/-- Delete the records of the sessions of several keys. -/
def deleteAll (identifiers : List String) (tables : SessionTables) : SessionTables :=
  identifiers.foldl deleteSessionRecords tables

theorem recordAll_flatMap {Item : Type} (recordingsOf : Item → List Recording) (items : List Item)
    (tables : SessionTables) : recordAll accounts now (items.flatMap recordingsOf) tables =
      items.foldl (fun tables item => recordAll accounts now (recordingsOf item) tables)
        tables :=
  List.foldl_flatMap

theorem rowsGrow_recordAll (tables : SessionTables) (uuid : String) :
    RowsGrow uuid tables (recordAll accounts now recordings tables) := by
  induction recordings generalizing tables with
  | nil => exact RowsGrow.refl _ _
  | cons recording rest inductionHypothesis =>
    exact (rowsGrow_recordSessionCreated accounts now tables _ _ _
      uuid).trans (inductionHypothesis _)

theorem rowsAgree_recordAll_iff (tables : SessionTables) (uuid : String) :
    RowsAgree uuid (recordAll accounts now recordings tables) tables ↔ ∀ recording ∈ recordings,
        extractUuidFromKey recording.sessionKey = uuid →
        RecordsNothing accounts tables uuid recording.userId
          recording.tenantId := by
  induction recordings generalizing tables with
  | nil => simp [recordAll, RowsAgree.refl]
  | cons recording rest inductionHypothesis =>
    rw [List.forall_mem_cons]
    have first := rowsAgree_recordSessionCreated_iff accounts now tables
      recording.sessionKey recording.userId recording.tenantId uuid
    have later := inductionHypothesis (recordSessionCreated accounts now tables recording.sessionKey
        recording.userId recording.tenantId).2
    constructor
    · intro agree
      have afterFirst :=
        (rowsGrow_recordSessionCreated accounts now tables
          recording.sessionKey recording.userId recording.tenantId
          uuid).agree_of_between (rowsGrow_recordAll accounts now rest _ uuid) agree
      refine ⟨first.mp afterFirst, fun other member same => ?_⟩
      exact afterFirst.recordsNothing_iff.mp
        (later.mp (agree.trans afterFirst.symm) other member same)
    · rintro ⟨nothing, restNothing⟩
      have afterFirst := first.mpr nothing
      refine (later.mpr fun other member same => ?_).trans afterFirst
      exact afterFirst.recordsNothing_iff.mpr (restNothing other member same)

theorem noRows_deleteSession (tables : SessionTables) (uuid : String) :
    NoRows (tables.deleteSession uuid) uuid := by
  refine ⟨get?_delete_self _ _, fun userId => ?_⟩
  apply Option.eq_none_iff_forall_not_mem.mpr
  intro row found
  have kept := (get?_filter_eq_some_iff.mp found).2
  simp at kept

theorem rowsAgree_deleteSession_of_ne (tables : SessionTables)
    (differs : other ≠ uuid) : RowsAgree other (tables.deleteSession uuid) tables := by
  refine ⟨get?_delete_of_ne differs, fun userId => ?_⟩
  apply Option.ext
  intro row
  rw [SessionTables.deleteSession, get?_filter_eq_some_iff]
  simp [differs]

theorem deleteAll_rows (identifiers : List String) (tables : SessionTables) (uuid : String) :
    ((∃ identifier ∈ identifiers, uuidOfIdentifier identifier = uuid) ∧
        NoRows (deleteAll identifiers tables) uuid) ∨
      ((∀ identifier ∈ identifiers, uuidOfIdentifier identifier ≠ uuid) ∧
        RowsAgree uuid (deleteAll identifiers tables) tables) := by
  induction identifiers generalizing tables with
  | nil => exact Or.inr ⟨by simp, RowsAgree.refl _ _⟩
  | cons identifier rest inductionHypothesis =>
    rcases inductionHypothesis (deleteSessionRecords tables identifier) with
      ⟨⟨other, member, hits⟩, empty⟩ | ⟨misses, agree⟩
    · exact Or.inl ⟨⟨other, .tail _ member, hits⟩, empty⟩
    · by_cases hits : uuidOfIdentifier identifier = uuid
      · refine Or.inl ⟨⟨identifier, .head _, hits⟩, ?_⟩
        refine agree.noRows_iff.mpr ?_
        rw [deleteSessionRecords, hits]
        exact noRows_deleteSession tables uuid
      · refine Or.inr ⟨List.forall_mem_cons.mpr ⟨hits, misses⟩, ?_⟩
        exact agree.trans (rowsAgree_deleteSession_of_ne tables (Ne.symm hits))

theorem NoRows.agree {left right : SessionTables}
    (leftEmpty : NoRows left uuid) (rightEmpty : NoRows right uuid) : RowsAgree uuid left right :=
  ⟨leftEmpty.ownership.trans rightEmpty.ownership.symm, fun userId =>
    (leftEmpty.memberships userId).trans (rightEmpty.memberships userId).symm⟩

/--
Recordings and then deletions leave the rows of a session as they were exactly
when a deletion hits it and it had no row, or none hits it and each recording
of it inserts nothing.
-/
theorem rowsAgree_deleteAll_recordAll_iff (identifiers : List String) (tables : SessionTables)
    (uuid : String) : RowsAgree uuid
        (deleteAll identifiers (recordAll accounts now recordings tables)) tables ↔
      if ∃ identifier ∈ identifiers, uuidOfIdentifier identifier = uuid then NoRows tables uuid
      else
        ∀ recording ∈ recordings, extractUuidFromKey recording.sessionKey = uuid →
          RecordsNothing accounts tables uuid recording.userId
            recording.tenantId := by
  rcases deleteAll_rows identifiers (recordAll accounts now recordings tables) uuid with
    ⟨hits, empty⟩ | ⟨misses, agree⟩
  · rw [if_pos hits]
    exact ⟨fun same => same.noRows_iff.mp empty, empty.agree⟩
  · rw [if_neg (by simpa using misses),
      ← rowsAgree_recordAll_iff accounts now recordings tables uuid]
    exact ⟨agree.symm.trans, agree.trans⟩

end SessionManager
