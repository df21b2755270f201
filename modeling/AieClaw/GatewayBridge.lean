import AieClaw.JsonValue
import AieClaw.PermissionChecker

/-!
# Method interception

`interceptMethod` of `src/gateway-bridge/bridge.ts`: the gate that every
gateway method passes. It looks for a session key in the parameters, checks the
roles of the caller, and for the methods it lists also checks membership.

The gate protects a session that the parameters name exactly when the key it
finds names that session and the method is one it treats as accessing a
session, by the list or by the session role table.
-/

namespace GatewayBridge

open SessionKeys SessionManager PermissionChecker Option

structure MasAuthContext where
  userId : Option String
  tenantId : Option String
  masRole : Option GlobalRole
  displayName : Option String

inductive Interception where
  | allowed
  | denied (code message : String)
  | threw (message : String)
  deriving DecidableEq

def Interception.isDenied : Interception → Bool
  | .denied _ _ => true
  | _ => false

def extractSessionKey (params : JsonValue) : Option String :=
  (JsonValue.orNullish
    (JsonValue.orNullish (params.member? "sessionKey") (params.member? "key"))
    (params.member? "session")).bind JsonValue.asString?

/-- The methods that `_isSessionAccessMethod` lists. -/
def sessionAccessMethods : List String :=
  ["sessions.resolve", "chat.send", "session.invite",
    "session.removeMember", "session.members", "session.leave",
    "exec.approval.resolve", "session.archive", "session.summary.generate",
    "session.summary.get", "session.unarchive"]

def isSessionAccessMethod (method : String) : Bool := sessionAccessMethods.contains method

section

variable (tables : SessionTables)

/-- `checkSessionAccess` of the bridge, with its override for admins. -/
def checkSessionAccess (sessionKey : String) (auth : MasAuthContext) :
    Interception :=
  match auth.userId with
  | none => .allowed
  | some userId =>
    if auth.masRole = some .admin then .allowed
    else if SessionManager.checkSessionAccess tables sessionKey userId then .allowed
    else .denied "SESSION_ACCESS_DENIED" "You do not have access to this session"

/-- The checks of a key that the parameters carry. -/
def interceptSessionKey (method sessionKey : String)
    (auth : MasAuthContext) : Interception :=
  let access :=
    if isSessionAccessMethod method then checkSessionAccess tables sessionKey auth
    else .allowed
  if access ≠ .allowed then access
  else if method = "chat.send" && isSessionArchived tables sessionKey then
    .denied "SESSION_ARCHIVED" "Session is archived"
  else .allowed

def interceptMethod (method : String) (params : JsonValue)
    (auth : MasAuthContext) : Interception :=
  match auth.userId with
  | none => .allowed
  | some userId =>
    let sessionKey := (extractSessionKey params).filter (· ≠ "")
    let context := sessionKey.map fun key => {
      sessionKey := key
      sessionRole := tables.memberRole? (extractUuidFromKey key) userId }
    match checkPermission (some userId) auth.masRole method context with
    | .denied code reason => .denied code reason
    | .threw message => .threw message
    | .allowed =>
      match sessionKey with
      | none => .allowed
      | some key => interceptSessionKey tables method key auth

def NamesSession (params : JsonValue) (uuid : String) : Prop :=
  ∃ field value, params.member? field = some (.string value) ∧ extractUuidFromKey value = uuid

/-- An endpoint that needs no authentication. -/
def IsPublic (method : String) : Prop := readTable GLOBAL_ROLE_PERMISSIONS method = .roles []

/-- The role tables let the role call the method. -/
def RoleAllows (role : Option GlobalRole) (method : String) : Prop :=
  IsPublic method ∨
    ∃ isRole allowed,
      role = some isRole ∧ isRole ∈ allowed ∧
        (readTable GLOBAL_ROLE_PERMISSIONS method = .roles allowed ∨
          (readTable GLOBAL_ROLE_PERMISSIONS method = .undefined ∧
            deriveAllowedRoles method = some allowed))

/-- The session-level checks refuse a user on the session of a key. -/
def RefusesSession (userId method uuid : String) : Prop :=
  (∃ allowed,
      readTable SESSION_ROLE_PERMISSIONS method = .roles allowed ∧
        ∀ role,
          tables.memberRole? uuid userId = some role →
          role ∉ allowed) ∨
    (isSessionAccessMethod method = true ∧ tables.memberRole? uuid userId = none) ∨
    (method = "chat.send" ∧ isSessionArchived tables uuid = true)

/-- The method is one for which the gate looks at membership. -/
def GuardsSessions (method : String) : Prop :=
  (∃ allowed, readTable SESSION_ROLE_PERMISSIONS method = .roles allowed) ∨
    isSessionAccessMethod method = true

/--
The key that the gate finds in the parameters protects the session: it names
the session and the method is guarded, or it names another session on which
the gate refuses the user anyway.
-/
def KeyProtects (userId method uuid : String)
    (params : JsonValue) : Prop :=
  ∃ key,
    extractSessionKey params = some key ∧ key ≠ "" ∧
      ((extractUuidFromKey key = uuid ∧ GuardsSessions method) ∨
        (extractUuidFromKey key ≠ uuid ∧
          RefusesSession tables userId method (extractUuidFromKey key)))

end

variable {tables : SessionTables} {method userId : String} {auth : MasAuthContext}

theorem not_isPublic_of_isSessionAccessMethod (accesses : isSessionAccessMethod method = true) :
    ¬ IsPublic method := by
  have listed : method ∈ sessionAccessMethods := List.contains_iff_mem.mp accesses
  have noneListed : ∀ listed ∈ sessionAccessMethods,
        readTable GLOBAL_ROLE_PERMISSIONS listed ≠ .roles [] := by
    decide
  exact noneListed method listed

theorem checkPermission_of_roleAllows (userId : String) {role : Option GlobalRole}
    (context : Option SessionPermissionContext) (notPublic : ¬ IsPublic method)
    (allows : RoleAllows role method) : ∃ isRole, role = some isRole ∧
        checkPermission (some userId) role method context =
          checkSessionRole isRole method context := by
  rcases allows with isPublic | ⟨isRole, allowed, rfl, member, tables⟩
  · exact absurd isPublic notPublic
  · refine ⟨isRole, rfl, ?_⟩
    have contains : allowed.contains isRole = true := List.contains_iff_mem.mpr member
    have gate : readTable GLOBAL_ROLE_PERMISSIONS method ≠ .roles [] := notPublic
    rcases tables with explicit | ⟨absent, derived⟩
    · rw [explicit] at gate
      simp only [checkPermission, explicit, gate, reduceCtorEq, if_false, contains, if_true]
    · simp only [checkPermission, absent, reduceCtorEq, if_false, derived,
        any_some, contains, if_true]

theorem global_inherited_of_session_inherited
    (inherits : readTable SESSION_ROLE_PERMISSIONS method = .inherited) :
    readTable GLOBAL_ROLE_PERMISSIONS method = .inherited := by
  have isMember : method ∈ inheritedMembers := by
    unfold readTable at inherits
    split at inherits
    · cases inherits
    · split at inherits
      next contains => exact List.contains_iff_mem.mp contains
      next => cases inherits
  have allInherited : ∀ name ∈ inheritedMembers,
        readTable GLOBAL_ROLE_PERMISSIONS name = .inherited := by
    decide
  exact allInherited method isMember

theorem not_session_inherited_of_roleAllows {role : Option GlobalRole}
    (allows : RoleAllows role method) : readTable SESSION_ROLE_PERMISSIONS method ≠ .inherited := by
  intro inherits
  have globally := global_inherited_of_session_inherited inherits
  rcases allows with isPublic | ⟨_, _, _, _, explicit | ⟨absent, _⟩⟩
  · rw [IsPublic, globally] at isPublic
    cases isPublic
  · rw [globally] at explicit
    cases explicit
  · rw [globally] at absent
    cases absent

theorem interceptSessionKey_isDenied_iff (tables : SessionTables) (method key : String)
    (isUser : auth.userId = some userId) (notAdmin : auth.masRole ≠ some .admin) :
    (interceptSessionKey tables method key auth).isDenied = true ↔
      (isSessionAccessMethod method = true ∧
          tables.memberRole? (extractUuidFromKey key) userId = none) ∨
        (method = "chat.send" ∧ isSessionArchived tables (extractUuidFromKey key) = true) := by
  have archivedSame : isSessionArchived tables key =
        isSessionArchived tables (extractUuidFromKey key) := by
    unfold isSessionArchived
    rw [uuidOfIdentifier_eq, uuidOfIdentifier_extractUuidFromKey]
  have memberSame : SessionManager.checkSessionAccess tables key userId =
        (tables.memberRole? (extractUuidFromKey key) userId).isSome := by
    unfold SessionManager.checkSessionAccess
    rw [uuidOfIdentifier_eq]
    simp [OrderedMap.has, SessionTables.memberRole?]
  unfold interceptSessionKey GatewayBridge.checkSessionAccess
  simp only [isUser, notAdmin, if_false, memberSame, archivedSame]
  cases isSessionAccessMethod method <;>
    cases tables.memberRole? (extractUuidFromKey key) userId <;>
    by_cases isSend : method = "chat.send" <;>
    cases isSessionArchived tables (extractUuidFromKey key) <;>
    simp [isSend, Interception.isDenied]

/-- The session role check, for a user who is not an admin. -/
theorem checkSessionRole_cases {role : GlobalRole} (context : SessionPermissionContext)
    (notAdmin : role ≠ .admin)
    (notInherited : readTable SESSION_ROLE_PERMISSIONS method ≠ .inherited) :
    (checkSessionRole role method (some context) = .allowed ∧
        ∀ allowed, readTable SESSION_ROLE_PERMISSIONS method = .roles allowed →
          ∃ isRole, context.sessionRole = some isRole ∧ isRole ∈ allowed) ∨
      (checkSessionRole role method (some context) = sessionDenied context method ∧
        ∃ allowed, readTable SESSION_ROLE_PERMISSIONS method = .roles allowed ∧
            ∀ isRole, context.sessionRole = some isRole → isRole ∉ allowed) := by
  cases entry : readTable SESSION_ROLE_PERMISSIONS method with
  | undefined =>
    left
    refine ⟨?_, fun allowed isRoles => by cases isRoles⟩
    simp [checkSessionRole, notAdmin, entry]
  | inherited => exact absurd entry notInherited
  | roles allowed =>
    cases permitted : context.sessionRole.any fun sessionRole =>
        allowed.contains sessionRole with
    | true =>
      left
      refine ⟨?_, ?_⟩
      · simp only [checkSessionRole, notAdmin, if_false, entry, permitted, if_true]
      · intro other same
        obtain rfl := TableEntry.roles.inj same
        obtain ⟨isRole, isSome, contains⟩ := (any_eq_true _ _).mp permitted
        exact ⟨isRole, isSome, List.contains_iff_mem.mp contains⟩
    | false =>
      right
      refine ⟨?_, allowed, rfl, ?_⟩
      · simp only [checkSessionRole, notAdmin, if_false, entry, permitted, Bool.false_eq_true]
      · intro isRole isSome member
        rw [isSome, any_some, List.contains_iff_mem.mpr member] at permitted
        cases permitted

theorem interceptMethod_of_no_key {params : JsonValue} (isUser : auth.userId = some userId)
    (allows : RoleAllows auth.masRole method)
    (noKey : (extractSessionKey params).filter (· ≠ "") = none) :
    interceptMethod tables method params auth = .allowed := by
  unfold interceptMethod
  simp only [isUser, noKey, map_none]
  by_cases isPublic : IsPublic method
  · have gate : readTable GLOBAL_ROLE_PERMISSIONS method = .roles [] := isPublic
    simp [checkPermission, gate]
  · obtain ⟨isRole, _, reached⟩ := checkPermission_of_roleAllows userId none isPublic allows
    simp only [reached, checkSessionRole]

theorem interceptMethod_of_isPublic (tables : SessionTables) (params : JsonValue)
    (isUser : auth.userId = some userId) (notAdmin : auth.masRole ≠ some .admin)
    (isPublic : IsPublic method) :
    (interceptMethod tables method params auth).isDenied = false := by
  have notListed : isSessionAccessMethod method ≠ true := fun listed =>
    not_isPublic_of_isSessionAccessMethod listed isPublic
  have notSend : method ≠ "chat.send" := by
    rintro rfl
    exact notListed (by decide)
  have gate : readTable GLOBAL_ROLE_PERMISSIONS method = .roles [] := isPublic
  cases found : (extractSessionKey params).filter (· ≠ "") with
  | none =>
    rw [interceptMethod_of_no_key isUser (Or.inl isPublic) found]
    rfl
  | some key =>
    have notDenied : (interceptSessionKey tables method key auth).isDenied ≠ true := by
      rw [ne_eq, interceptSessionKey_isDenied_iff _ _ _ isUser notAdmin]
      rintro (⟨listed, _⟩ | ⟨isSend, _⟩)
      · exact notListed listed
      · exact notSend isSend
    simp only [interceptMethod, isUser, found, map_some, checkPermission, gate, if_true]
    exact Bool.eq_false_iff.mpr notDenied

/-- With a session key, an allowed method is denied as its session refuses it. -/
theorem interceptMethod_isDenied_iff_of_key {key : String} {params : JsonValue}
    (isUser : auth.userId = some userId) (notAdmin : auth.masRole ≠ some .admin)
    (allows : RoleAllows auth.masRole method) (notPublic : ¬ IsPublic method)
    (found : extractSessionKey params = some key) (notEmpty : key ≠ "") :
    (interceptMethod tables method params auth).isDenied = true ↔
      RefusesSession tables userId method (extractUuidFromKey key) := by
  have kept : (extractSessionKey params).filter (· ≠ "") = some key := by
    rw [found, filter_some, if_pos (decide_eq_true notEmpty)]
  let context : SessionPermissionContext := {
    sessionKey := key
    sessionRole := tables.memberRole? (extractUuidFromKey key) userId }
  obtain ⟨role, isRole, reached⟩ :=
    checkPermission_of_roleAllows userId (some context) notPublic allows
  have roleNotAdmin : role ≠ .admin := by
    rintro rfl
    exact notAdmin isRole
  have afterKey := interceptSessionKey_isDenied_iff tables method key isUser notAdmin
  simp only [interceptMethod, isUser, kept, map_some]
  rcases checkSessionRole_cases context roleNotAdmin
      (not_session_inherited_of_roleAllows allows) with
    ⟨passes, entryAllows⟩ | ⟨refuses, entryRefuses⟩
  · rw [show checkPermission (some userId) auth.masRole method
        (some context) = .allowed from reached.trans passes]
    refine afterKey.trans ⟨Or.inr, ?_⟩
    rintro (⟨allowed, entry, excluded⟩ | later)
    · obtain ⟨held, isHeld, member⟩ := entryAllows allowed entry
      exact absurd member (excluded held isHeld)
    · exact later
  · rw [show checkPermission (some userId) auth.masRole method
        (some context) = sessionDenied context method from reached.trans refuses]
    exact ⟨fun _ => Or.inl entryRefuses, fun _ => rfl⟩

theorem refusesSession_iff_guardsSessions {uuid : String}
    (notMember : tables.memberRole? uuid userId = none) :
    RefusesSession tables userId method uuid ↔ GuardsSessions method := by
  constructor
  · rintro (⟨allowed, entry, _⟩ | ⟨listed, _⟩ | ⟨rfl, _⟩)
    · exact Or.inl ⟨allowed, entry⟩
    · exact Or.inr listed
    · exact Or.inr (by decide)
  · rintro (⟨allowed, entry⟩ | listed)
    · refine Or.inl ⟨allowed, entry, ?_⟩
      intro role isRole
      rw [notMember] at isRole
      cases isRole
    · exact Or.inr (Or.inl ⟨listed, notMember⟩)

/--
A call that names a session without the user is denied exactly when the method
is not public and the key that the gate finds protects the session.
-/
theorem interceptMethod_isDenied_iff {tables : SessionTables} {method userId uuid : String}
    {params : JsonValue} {auth : MasAuthContext} {row : OwnershipRow}
    (isUser : auth.userId = some userId) (notAdmin : auth.masRole ≠ some .admin)
    (allows : RoleAllows auth.masRole method) (_names : NamesSession params uuid)
    (_exists : tables.ownership.get? uuid = some row)
    (notMember : tables.memberRole? uuid userId = none) :
    (interceptMethod tables method params auth).isDenied = true ↔
      ¬ IsPublic method ∧ KeyProtects tables userId method uuid params := by
  by_cases isPublic : IsPublic method
  · have passes := interceptMethod_of_isPublic tables params isUser notAdmin isPublic
    rw [passes]
    exact ⟨fun denied => absurd denied Bool.false_ne_true, fun both => absurd isPublic both.1⟩
  cases found : (extractSessionKey params).filter (· ≠ "") with
  | none =>
    rw [interceptMethod_of_no_key isUser allows found]
    refine ⟨fun denied => absurd denied Bool.false_ne_true, ?_⟩
    rintro ⟨_, key, extracted, notEmpty, _⟩
    rw [extracted, filter_some, if_pos (decide_eq_true notEmpty)] at found
    cases found
  | some key =>
    obtain ⟨extracted, nonempty⟩ := filter_eq_some_iff.mp found
    have notEmpty : key ≠ "" := of_decide_eq_true nonempty
    rw [interceptMethod_isDenied_iff_of_key isUser notAdmin allows isPublic extracted notEmpty]
    constructor
    · intro refuses
      refine ⟨isPublic, key, extracted, notEmpty, ?_⟩
      by_cases same : extractUuidFromKey key = uuid
      · rw [same] at refuses
        exact Or.inl ⟨same, (refusesSession_iff_guardsSessions notMember).mp refuses⟩
      · exact Or.inr ⟨same, refuses⟩
    · rintro ⟨_, other, otherExtracted, _, protects⟩
      obtain rfl := Option.some.inj (extracted.symm.trans otherExtracted)
      rcases protects with ⟨same, guarded⟩ | ⟨_, refuses⟩
      · rw [same]
        exact (refusesSession_iff_guardsSessions notMember).mpr guarded
      · exact refuses

/-- A listed method on a session key is denied to a member of another session. -/
theorem interceptMethod_isDenied_iff_members :
    let tables := tablesAfter
      { displayNames := (OrderedMap.empty.set "alice" "Alice").set "bob" "Bob"
        tenants := {"tenant"} }
      [.recordSessionCreated 1 "agent:main:group:u1" "alice" "tenant"]
    (interceptMethod tables "session.members"
        (.object [("sessionKey", .string "agent:main:group:u1")])
        ⟨some "bob", some "tenant", some .viewer, none⟩).isDenied = true := by
  intro tables
  have row : tables.ownership.get? "u1" = some ⟨"alice", "tenant", 1, none⟩ := by
    decide
  have outside : tables.memberRole? "u1" "bob" = none := by
    decide
  refine (interceptMethod_isDenied_iff rfl (by decide) ?_ ?_ row outside).mpr ?_
  · exact Or.inr ⟨.viewer, [.admin, .member, .viewer], rfl, by decide, Or.inl (by decide)⟩
  · exact ⟨"sessionKey", "agent:main:group:u1", rfl, by decide⟩
  · exact ⟨by unfold IsPublic; decide, "agent:main:group:u1", rfl,
      by decide, Or.inl ⟨by decide, Or.inr (by decide)⟩⟩

/-- A viewer outside a session reads its history through `chat.history`. -/
theorem interceptMethod_not_isDenied_history :
    ¬ ∀ (tables : SessionTables) (method : String) (params : JsonValue)
        (auth : MasAuthContext) (userId uuid : String) (row : OwnershipRow),
      auth.userId = some userId →
      auth.masRole ≠ some .admin →
      RoleAllows auth.masRole method →
      NamesSession params uuid →
      tables.ownership.get? uuid = some row →
      tables.memberRole? uuid userId = none →
      (interceptMethod tables method params auth).isDenied = true := by
  intro denies
  have denied := denies (tablesAfter
      { displayNames := (OrderedMap.empty.set "alice" "Alice").set "bob" "Bob"
        tenants := {"tenant"} }
      [.recordSessionCreated 1 "agent:main:group:u1" "alice" "tenant"]) "chat.history"
    (.object [("sessionKey", .string "agent:main:group:u1")])
    ⟨some "bob", some "tenant", some .viewer, none⟩ "bob" "u1"
    ⟨"alice", "tenant", 1, none⟩ rfl (by decide)
    (Or.inr ⟨.viewer, [.admin, .member, .viewer], rfl, by decide, Or.inl (by decide)⟩)
    ⟨"sessionKey", "agent:main:group:u1", rfl, by decide⟩ (by decide) (by decide)
  exact absurd denied (by decide)

end GatewayBridge
