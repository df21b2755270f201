import AieClaw.OrderedMap
import AieClaw.SessionKeys
import Mathlib.Data.Finset.Basic

/-!
# Session ownership and membership

The operations of `src/gateway-bridge/session-manager.ts` on the two session
tables of `src/store/database.ts`. A statement either changes the tables or
fails on a constraint; an operation runs its statements one after the other
without a transaction, so the tables keep what earlier statements wrote.
-/

namespace SessionManager

open SessionKeys

inductive SessionRole where
  | owner
  | participant
  deriving DecidableEq

structure OwnershipRow where
  userId : String
  tenantId : String
  createdAt : ℤ
  archivedAt : Option ℤ
  deriving DecidableEq

structure MembershipRow where
  role : SessionRole
  joinedAt : ℤ

/-- The rows that the foreign keys of the session tables refer to. -/
structure Accounts where
  displayNames : OrderedMap String String
  tenants : Finset String

/-- `session_ownership` and `session_memberships`, by primary key. -/
structure SessionTables where
  ownership : OrderedMap String OwnershipRow
  memberships : OrderedMap (String × String) MembershipRow

/-- The tables of a new database. -/
def SessionTables.initial : SessionTables where
  ownership := .empty
  memberships := .empty

inductive SessionError where
  | tenantService (code message : String)
  | constraint (message : String)

structure SessionMember where
  userId : String
  displayName : String
  role : SessionRole
  joinedAt : ℤ

/-- What an operation returns or throws, and the tables it leaves. -/
abbrev Outcome (Result : Type) : Type := Except SessionError Result × SessionTables

def foreignKeyFailed : SessionError := .constraint "FOREIGN KEY constraint failed"

def uniqueMembershipFailed : SessionError :=
  .constraint
    "UNIQUE constraint failed: session_memberships.sessionUuid, session_memberships.userId"

def sessionAccessDenied (message : String) : SessionError :=
  .tenantService "SESSION_ACCESS_DENIED" message

def ownerCannotLeave (message : String) : SessionError :=
  .tenantService "OWNER_CANNOT_LEAVE" message

namespace SessionTables

variable (tables : SessionTables)

/-- `INSERT OR IGNORE INTO session_ownership`. -/
def insertOwnershipOrIgnore (accounts : Accounts) (uuid : String)
    (row : OwnershipRow) : Except SessionError SessionTables :=
  if tables.ownership.has uuid then .ok tables
  else if accounts.displayNames.has row.userId && decide (row.tenantId ∈ accounts.tenants) then
    .ok { tables with ownership := tables.ownership.set uuid row }
  else .error foreignKeyFailed

/-- `INSERT INTO session_memberships`. -/
def insertMembership (accounts : Accounts) (uuid userId : String)
    (row : MembershipRow) : Except SessionError SessionTables :=
  if tables.memberships.has (uuid, userId) then .error uniqueMembershipFailed
  else if accounts.displayNames.has userId then
    .ok { tables with memberships := tables.memberships.set (uuid, userId) row }
  else .error foreignKeyFailed

/-- `INSERT OR IGNORE INTO session_memberships`. -/
def insertMembershipOrIgnore (accounts : Accounts)
    (uuid userId : String) (row : MembershipRow) : Except SessionError SessionTables :=
  if tables.memberships.has (uuid, userId) then .ok tables
  else tables.insertMembership accounts uuid userId row

/-- `DELETE FROM session_memberships` for one user of a session. -/
def deleteMembership (uuid userId : String) : SessionTables :=
  { tables with memberships := tables.memberships.delete (uuid, userId) }

/-- `UPDATE session_ownership SET archivedAt`. -/
def setArchivedAt (uuid : String) (archivedAt : Option ℤ) :
    SessionTables :=
  { tables with
    ownership := tables.ownership.modify uuid fun row => { row with archivedAt := archivedAt } }

def memberRole? (uuid userId : String) : Option SessionRole :=
  (tables.memberships.get? (uuid, userId)).map MembershipRow.role

end SessionTables

variable (accounts : Accounts)

def recordSessionCreated (now : ℤ) (tables : SessionTables)
    (sessionKey userId tenantId : String) : Outcome Unit :=
  let uuid := extractUuidFromKey sessionKey
  match tables.insertOwnershipOrIgnore accounts uuid {
      userId := userId
      tenantId := tenantId
      createdAt := now
      archivedAt := none } with
  | .error error => (.error error, tables)
  | .ok tables =>
    match tables.insertMembershipOrIgnore accounts uuid userId {
        role := .owner
        joinedAt := now } with
    | .error error => (.error error, tables)
    | .ok tables => (.ok (), tables)

/-- The session uuids in which a user has a membership. -/
def listSessionsForUser (tables : SessionTables) (userId : String) : List String :=
  (tables.memberships.keys.filter fun key => key.2 = userId).map Prod.fst

def checkSessionAccess (tables : SessionTables) (identifier userId : String) : Bool :=
  tables.memberships.has (uuidOfIdentifier identifier, userId)

def inviteToSession (now : ℤ) (tables : SessionTables)
    (sessionKey targetUserId callerUserId : String) : Outcome SessionMember :=
  let uuid := extractUuidFromKey sessionKey
  if !checkSessionAccess tables uuid callerUserId then
    (.error (sessionAccessDenied "You are not a member of this session"), tables)
  else if checkSessionAccess tables uuid targetUserId then
    (.error (.tenantService "ALREADY_MEMBER" "User is already a member of this session"), tables)
  else
    match tables.insertMembership accounts uuid targetUserId {
        role := .participant
        joinedAt := now } with
    | .error error => (.error error, tables)
    | .ok tables =>
      (.ok {
        userId := targetUserId
        displayName := (accounts.displayNames.get? targetUserId).getD targetUserId
        role := .participant
        joinedAt := now }, tables)

def removeMember (tables : SessionTables) (sessionKey targetUserId callerUserId : String) :
    Outcome Unit :=
  let uuid := extractUuidFromKey sessionKey
  if tables.memberRole? uuid callerUserId ≠ some .owner then
    (.error (sessionAccessDenied "Only the session owner can remove members"), tables)
  else if targetUserId = callerUserId then
    (.error (ownerCannotLeave "Owner cannot remove themselves from the session"), tables)
  else if !checkSessionAccess tables uuid targetUserId then
    (.error (.tenantService "NOT_A_MEMBER" "Target user is not a member of this session"), tables)
  else (.ok (), tables.deleteMembership uuid targetUserId)

def leaveSession (tables : SessionTables) (sessionKey callerUserId : String) : Outcome Unit :=
  let uuid := extractUuidFromKey sessionKey
  match tables.memberRole? uuid callerUserId with
  | none => (.error (sessionAccessDenied "You are not a member of this session"), tables)
  | some .owner => (.error (ownerCannotLeave "Owner cannot leave the session"), tables)
  | some .participant => (.ok (), tables.deleteMembership uuid callerUserId)

def archiveSession (now : ℤ) (tables : SessionTables) (sessionKey callerUserId : String) :
    Outcome ℤ :=
  let uuid := extractUuidFromKey sessionKey
  if tables.memberRole? uuid callerUserId ≠ some .owner then
    (.error (sessionAccessDenied "Only the session owner can archive the session"), tables)
  else
    match (tables.ownership.get? uuid).bind OwnershipRow.archivedAt with
    | some archivedAt => (.ok archivedAt, tables)
    | none => (.ok now, tables.setArchivedAt uuid (some now))

def isSessionArchived (tables : SessionTables) (identifier : String) : Bool :=
  ((tables.ownership.get? (uuidOfIdentifier identifier)).bind OwnershipRow.archivedAt).isSome

def unarchiveSession (tables : SessionTables) (sessionKey callerUserId : String) : Outcome Unit :=
  let uuid := extractUuidFromKey sessionKey
  if tables.memberRole? uuid callerUserId ≠ some .owner then
    (.error (sessionAccessDenied "Only the session owner can unarchive the session"), tables)
  else (.ok (), tables.setArchivedAt uuid none)

/-- Delete the ownership row and every membership of a session uuid. -/
def SessionTables.deleteSession (tables : SessionTables) (uuid : String) : SessionTables where
  memberships := tables.memberships.filter fun entry => entry.1.1 ≠ uuid
  ownership := tables.ownership.delete uuid

def deleteSessionRecords (tables : SessionTables) (identifier : String) : SessionTables :=
  tables.deleteSession (uuidOfIdentifier identifier)

/-- A call of one of the operations, with its arguments. -/
inductive SessionCall where
  | recordSessionCreated (now : ℤ) (sessionKey userId tenantId : String)
  | inviteToSession (now : ℤ) (sessionKey targetUserId callerUserId : String)
  | removeMember (sessionKey targetUserId callerUserId : String)
  | leaveSession (sessionKey callerUserId : String)
  | archiveSession (now : ℤ) (sessionKey callerUserId : String)
  | unarchiveSession (sessionKey callerUserId : String)
  | deleteSessionRecords (identifier : String)

/-- Forget the result of an operation and keep whether it failed. -/
def Outcome.forget {Result : Type} (outcome : Outcome Result) : Outcome Unit :=
  (outcome.1.map fun _ => (), outcome.2)

/-- Run one call. -/
def perform (tables : SessionTables) : SessionCall → Outcome Unit
  | .recordSessionCreated now sessionKey userId tenantId =>
    recordSessionCreated accounts now tables sessionKey userId tenantId
  | .inviteToSession now sessionKey targetUserId callerUserId =>
    (inviteToSession accounts now tables sessionKey targetUserId callerUserId).forget
  | .removeMember sessionKey targetUserId callerUserId =>
    removeMember tables sessionKey targetUserId callerUserId
  | .leaveSession sessionKey callerUserId => leaveSession tables sessionKey callerUserId
  | .archiveSession now sessionKey callerUserId =>
    (archiveSession now tables sessionKey callerUserId).forget
  | .unarchiveSession sessionKey callerUserId => unarchiveSession tables sessionKey callerUserId
  | .deleteSessionRecords identifier => (.ok (), deleteSessionRecords tables identifier)

/-- The tables after a sequence of calls on a new database. -/
def tablesAfter (calls : List SessionCall) : SessionTables :=
  calls.foldl (fun tables call => (perform accounts tables call).2) .initial

end SessionManager
