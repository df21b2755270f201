import AieClaw.JsString
import AieClaw.OrderedMap
import AieClaw.TransitionSystem

/-!
# Approval cards in the panels of agents

A request for approval is shown as a card, its decision as a message of the user. Both
stand in the panel of the agent that asked and in the panel of the root agent of the
team. The session of the message comes from the request, the root agent from the session
that is active in the window.
-/

namespace ApprovalCards

open OrderedMap TransitionSystem List Option

structure MasSession where
  key : String
  sessionUuid : Option String

def extractUuidFromKey (sessionKey : String) : String := JsString.lastPiece sessionKey ':'

def extractAgentNameFromKey (sessionKey : String) : String :=
  match JsString.split sessionKey ':' with
  | "agent" :: agentId :: _ => agentId
  | _ => "Agent"

structure Request where
  command : String
  commandPreview : Option String
  sessionKey : Option String

structure ApprovalRequest where
  id : String
  request : Request
  createdAtMs : ℤ
  expiresAtMs : ℤ

structure ApprovalResolved where
  id : String
  decision : String
  resolvedBy : Option String
  ts : ℤ
  request : Option Request

structure ApprovalRecord where
  approval : ApprovalRequest
  resolved : ApprovalResolved

inductive Role where
  | user
  | assistant
  deriving DecidableEq

inductive SubType where
  | pending
  deriving DecidableEq

/-- A message; its content is a list of texts. -/
structure ChatMessage where
  id : String
  role : Role
  subType : Option SubType
  content : List String
  timestamp : ℤ
  senderLabel : Option String

def ApprovalRequest.pendingMsg (req : ApprovalRequest) : ChatMessage where
  id := req.id
  role := .assistant
  subType := some .pending
  content := []
  timestamp := req.createdAtMs
  senderLabel := none

def actionId (id : String) : String := "approval-action-" ++ id

def ApprovalRecord.actionMsg (record : ApprovalRecord) (id : String) : ChatMessage :=
  let decisionText :=
    if record.resolved.decision = "deny" then "拒绝"
    else if record.resolved.decision = "allow-always" then "始终允许"
    else "允许一次"
  let command := record.approval.request.commandPreview.getD record.approval.request.command
  { id := actionId id
    role := .user
    subType := none
    content := [decisionText ++ "：" ++ command]
    timestamp := record.resolved.ts
    senderLabel := record.resolved.resolvedBy }

/-- The session key of a request, when it names a session. -/
def Request.key (request : Request) : Option String :=
  request.sessionKey.filter fun key => key ≠ ""

def Request.msgAgentId (request : Request) : String :=
  (request.key.map extractAgentNameFromKey).getD "Agent"

structure AppStore where
  sessions : List MasSession
  activeSessionUuid : Option String
  pendingApprovals : List ApprovalRequest
  resolvedApprovals : OrderedMap String ApprovalRecord
  messagesBySession : OrderedMap String (List ChatMessage)
  messagesByAgent : OrderedMap String (OrderedMap String (List ChatMessage))

/-- The store of a window in which nothing was shown yet. -/
def AppStore.opened (sessions : List MasSession) (activeSessionUuid : Option String) :
    AppStore where
  sessions := sessions
  activeSessionUuid := activeSessionUuid
  pendingApprovals := []
  resolvedApprovals := empty
  messagesBySession := empty
  messagesByAgent := empty

/-- Add a message to a list unless one of its id is there. -/
def addOnce (lists : OrderedMap String (List ChatMessage)) (name : String) (message : ChatMessage) :
    OrderedMap String (List ChatMessage) :=
  let msgs := (lists.get? name).getD []
  if msgs.any fun other => other.id = message.id then lists
  else lists.set name (msgs ++ [message])

namespace AppStore

variable (store : AppStore)

def sessionOf (sessionUuid : String) : Option MasSession :=
  store.sessions.find? fun session =>
    session.sessionUuid = some sessionUuid || extractUuidFromKey session.key = sessionUuid

def activeSession : Option MasSession :=
  store.activeSessionUuid.bind store.sessionOf

/-- The root agent of the team of a session. -/
def rootAgentId (sessionUuid : String) : Option String :=
  (store.sessionOf sessionUuid).map fun session => extractAgentNameFromKey session.key

/-- The root agent of the session that is active. -/
def activeRootAgentId : Option String :=
  store.activeSession.map fun session => extractAgentNameFromKey session.key

/-- The session into which the messages of a request go. -/
def targetSessionUuid (request : Request) : Option String :=
  (match request.key with
    | some key => some (JsString.lastPiece key ':')
    | none => store.activeSessionUuid).filter fun sessionUuid => sessionUuid ≠ ""

def getAgentMessages (sessionUuid agentId : String) : List ChatMessage :=
  ((store.messagesByAgent.get? sessionUuid).bind fun agentMap => agentMap.get? agentId).getD []

def isRootAgent (sessionUuid : String) (request : Request) : Bool :=
  request.key = none || some request.msgAgentId = store.rootAgentId sessionUuid

/-- Show a message in the main panel, when the root agent asked, and in those of agents. -/
def showMessage (sessionUuid : String) (request : Request)
    (message : ChatMessage) : AppStore :=
  let messagesBySession :=
    if store.isRootAgent sessionUuid request then
      addOnce store.messagesBySession sessionUuid message
    else store.messagesBySession
  let msgAgentId := request.msgAgentId
  let agentMap :=
    addOnce ((store.messagesByAgent.get? sessionUuid).getD empty) msgAgentId message
  -- the root agent is that of the active session, whatever the session of the message is
  let agentMap :=
    match store.activeRootAgentId with
    | some rootAgentId =>
      if rootAgentId ≠ msgAgentId then addOnce agentMap rootAgentId message else agentMap
    | none => agentMap
  { store with
    messagesBySession := messagesBySession
    messagesByAgent := store.messagesByAgent.set sessionUuid agentMap }

def addApproval (req : ApprovalRequest) : AppStore :=
  if store.pendingApprovals.any fun approval => approval.id = req.id then store
  else
    let store := { store with pendingApprovals := store.pendingApprovals ++ [req] }
    match store.targetSessionUuid req.request with
    | some sessionUuid => store.showMessage sessionUuid req.request req.pendingMsg
    | none => store

/-- What is recorded of a decision: for an unknown approval, when it carries the request. -/
def approvalRecord (id : String) (resolved : ApprovalResolved) :
    Option ApprovalRecord :=
  match store.pendingApprovals.find? fun approval => approval.id = id with
  | some found => some ⟨found, resolved⟩
  | none =>
    match store.resolvedApprovals.get? id with
    | some existing => some ⟨existing.approval, resolved⟩
    | none =>
      resolved.request.map fun request => ⟨⟨id, request, resolved.ts, resolved.ts⟩, resolved⟩

/-- Without a session key, the complete data of a later decision replaces the message. -/
def refreshAction (sessionUuid : String) (request : Request)
    (message : ChatMessage) : AppStore :=
  if request.key = none then
    let msgs := (store.messagesBySession.get? sessionUuid).getD []
    { store with
      messagesBySession := store.messagesBySession.set sessionUuid
        (msgs.map fun other => if other.id = message.id then message else other) }
  else store

def resolveApproval (id : String) (resolved : Option ApprovalResolved)
    (now : ℤ) : AppStore :=
  let resolvedData := resolved.getD ⟨id, "allow-once", none, now, none⟩
  let record := store.approvalRecord id resolvedData
  let store :=
    { store with
      resolvedApprovals :=
        match record with
        | some record => store.resolvedApprovals.set id record
        | none => store.resolvedApprovals
      pendingApprovals := store.pendingApprovals.filter fun approval => approval.id ≠ id }
  match record with
  | some record =>
    let request := record.approval.request
    match store.targetSessionUuid request with
    | some sessionUuid =>
      (store.showMessage sessionUuid request (record.actionMsg id)).refreshAction
        sessionUuid request (record.actionMsg id)
    | none => store
  | none => store

end AppStore

/-- The calls, and that the window loads sessions or turns to another one. -/
inductive Event where
  | addApproval (req : ApprovalRequest)
  | resolveApproval (id : String) (resolved : Option ApprovalResolved) (now : ℤ)
  | view (sessions : List MasSession) (activeSessionUuid : Option String)

def AppStore.handle (store : AppStore) : Event → AppStore
  | .addApproval req => store.addApproval req
  | .resolveApproval id resolved now => store.resolveApproval id resolved now
  | .view sessions activeSessionUuid =>
    { store with sessions := sessions, activeSessionUuid := activeSessionUuid }

inductive Kind where
  | card
  | action
  deriving DecidableEq

/-- The message is the card, or the action message, of the approval. -/
def ChatMessage.isOf (message : ChatMessage) (id : String) : Kind → Bool
  | .card => message.id = id && message.subType = some .pending
  | .action => message.id = actionId id && message.subType = none

def Kind.messageId (id : String) : Kind → String
  | .card => id
  | .action => actionId id

/-- A message that was to be shown, and the agents whose panels it belongs to. -/
structure Showing where
  kind : Kind
  id : String
  sessionUuid : String
  agents : List String

def AppStore.shows (store : AppStore) : Event → Option (Kind × ApprovalRequest)
  | .addApproval req =>
    if store.pendingApprovals.any fun approval => approval.id = req.id then none
    else some (.card, req)
  | .resolveApproval id resolved now =>
    (store.approvalRecord id (resolved.getD ⟨id, "allow-once", none, now, none⟩)).map
      fun record => (.action, record.approval)
  | .view _ _ => none

/--
The session of an approval: the one that its request names, else the one in which it was
shown first, else the active one.
-/
def AppStore.home (store : AppStore) (shown : List Showing) (approval : ApprovalRequest) :
    Option String :=
  (match approval.request.key with
    | some key => some (JsString.lastPiece key ':')
    | none =>
      match shown.find? fun (showing : Showing) => showing.id = approval.id with
      | some showing => some showing.sessionUuid
      | none => store.activeSessionUuid).filter fun sessionUuid => sessionUuid ≠ ""

/-- The agent that asked and the root agent of the team of the session. -/
def AppStore.owners (store : AppStore) (sessionUuid : String) (request : Request) : List String :=
  request.msgAgentId :: (store.rootAgentId sessionUuid).toList

def AppStore.recordShown (store : AppStore) (shown : List Showing) (event : Event) : List Showing :=
  match store.shows event with
  | some (kind, approval) =>
    match store.home shown approval with
    | some sessionUuid =>
      shown ++ [⟨kind, approval.id, sessionUuid, store.owners sessionUuid approval.request⟩]
    | none => shown
  | none => shown

/-- The store, and what was to be shown so far. -/
structure Window where
  store : AppStore
  shown : List Showing

def Window.handle (window : Window) (event : Event) : Window where
  store := window.store.handle event
  shown := window.store.recordShown window.shown event

def Step : StepRelation Window Event :=
  fun source event target => target = source.handle event

def Window.Opened (window : Window) : Prop :=
  ∃ sessions activeSessionUuid, window = ⟨.opened sessions activeSessionUuid, []⟩

/-- The message was to be shown in a panel. -/
def Window.Owes (window : Window) (kind : Kind) (id sessionUuid agentId : String) : Prop :=
  ∃ showing ∈ window.shown, showing.kind = kind ∧ showing.id = id ∧
    showing.sessionUuid = sessionUuid ∧ agentId ∈ showing.agents

/--
Every card and every action message stands once in each panel that it belongs to and in
no other one, and pending approvals have different ids.
-/
structure Window.Placed (window : Window) : Prop where
  once : ∀ kind id sessionUuid agentId, window.Owes kind id sessionUuid agentId →
    (window.store.getAgentMessages sessionUuid agentId).countP (fun message =>
      message.isOf id kind) = 1
  nowhereElse : ∀ kind id sessionUuid agentId, ¬ window.Owes kind id sessionUuid agentId →
    (window.store.getAgentMessages sessionUuid agentId).countP (fun message =>
      message.isOf id kind) = 0
  distinct : (window.store.pendingApprovals.map ApprovalRequest.id).Nodup

/--
The event shows its message in the session of the approval, the root agent of the active
session is that of the approval's own team (or the agent that asked), and no other message
in the panels bears the id.
-/
structure Window.Apt (window : Window) (kind : Kind) (approval : ApprovalRequest)
    (sessionUuid : String) : Prop where
  session : window.store.targetSessionUuid approval.request = some sessionUuid
  root : ∀ agentId, agentId ≠ approval.request.msgAgentId →
    (window.store.activeRootAgentId = some agentId ↔
      window.store.rootAgentId sessionUuid = some agentId)
  own : ∀ agentId ∈ window.store.owners sessionUuid approval.request,
    ∀ message ∈ window.store.getAgentMessages sessionUuid agentId,
      message.id = kind.messageId approval.id → message.isOf approval.id kind = true

def Window.Suits (window : Window) (event : Event) : Prop :=
  ∀ kind approval sessionUuid, window.store.shows event = some (kind, approval) →
    window.store.home window.shown approval = some sessionUuid →
      window.Apt kind approval sessionUuid

/-- The list after `addOnce` wrote to it. -/
def insertedOnce (msgs : List ChatMessage) (message : ChatMessage) : List ChatMessage :=
  if msgs.any fun other => other.id = message.id then msgs else msgs ++ [message]

theorem getD_addOnce (lists : OrderedMap String (List ChatMessage)) (name other : String)
    (message : ChatMessage) : ((addOnce lists name message).get? other).getD [] =
      if other = name then insertedOnce ((lists.get? other).getD []) message
      else (lists.get? other).getD [] := by
  unfold addOnce insertedOnce
  dsimp only
  by_cases isName : other = name
  · subst isName
    rw [if_pos rfl]
    split
    · rfl
    · rw [get?_set_self, getD_some]
  · rw [if_neg isName]
    split
    · rfl
    · rw [get?_set_of_ne isName]

variable {window : Window} (store : AppStore) {event : Event} {approval : ApprovalRequest}
  {target : String} (sessionUuid : String)

theorem getAgentMessages_eq (agentId : String) : store.getAgentMessages sessionUuid agentId =
      (((store.messagesByAgent.get? sessionUuid).getD empty).get? agentId).getD [] := by
  unfold AppStore.getAgentMessages
  cases store.messagesByAgent.get? sessionUuid with
  | none => rfl
  | some agentMap => rfl

/-- A shown message is added to the panels of its agent and of the active root agent. -/
theorem getAgentMessages_showMessage (request : Request) (message : ChatMessage)
    (otherUuid agentId : String) :
    (store.showMessage sessionUuid request message).getAgentMessages otherUuid agentId =
      if otherUuid = sessionUuid ∧
          (agentId = request.msgAgentId ∨ store.activeRootAgentId = some agentId) then
        insertedOnce (store.getAgentMessages otherUuid agentId) message
      else
        store.getAgentMessages otherUuid agentId := by
  rw [getAgentMessages_eq, getAgentMessages_eq, AppStore.showMessage]
  dsimp only
  by_cases isSession : otherUuid = sessionUuid
  · subst isSession
    rw [get?_set_self, getD_some]
    simp only [true_and]
    cases store.activeRootAgentId with
    | none =>
      dsimp only
      rw [getD_addOnce]
      simp
    | some rootAgentId =>
      dsimp only
      by_cases isSource : rootAgentId = request.msgAgentId
      · rw [if_neg (not_not_intro isSource), getD_addOnce, isSource]
        simp [eq_comm]
      · rw [if_pos isSource, getD_addOnce, getD_addOnce]
        by_cases isRoot : agentId = rootAgentId
        · subst isRoot
          simp [isSource]
        · have notRoot : ¬ rootAgentId = agentId := fun same => isRoot same.symm
          simp [isRoot, notRoot]
  · rw [get?_set_of_ne isSession, if_neg (fun both => isSession both.1)]

/-- The message is of this approval and of no other one. -/
structure ChatMessage.Marks (message : ChatMessage) (kind : Kind) (id : String) : Prop where
  bears : message.id = kind.messageId id
  isOf : ∀ otherKind otherId,
    message.isOf otherId otherKind = true ↔ otherKind = kind ∧ otherId = id

theorem id_of_isOf {message : ChatMessage} {kind : Kind} {id : String}
    (marked : message.isOf id kind = true) : message.id = kind.messageId id := by
  cases kind with
  | card =>
    simp only [ChatMessage.isOf, Bool.and_eq_true, decide_eq_true_eq] at marked
    exact marked.1
  | action =>
    simp only [ChatMessage.isOf, Bool.and_eq_true, decide_eq_true_eq] at marked
    exact marked.1

theorem marks_pendingMsg (req : ApprovalRequest) : req.pendingMsg.Marks .card req.id := by
  refine ⟨rfl, fun otherKind otherId => ?_⟩
  cases otherKind with
  | card => simp [ChatMessage.isOf, ApprovalRequest.pendingMsg, eq_comm]
  | action => simp [ChatMessage.isOf, ApprovalRequest.pendingMsg]

theorem actionId_inj {id other : String} : actionId id = actionId other ↔ id = other := by
  constructor
  · intro same
    have lists := congrArg String.toList same
    rw [actionId, actionId, String.toList_append, String.toList_append] at lists
    exact String.ext (append_cancel_left lists)
  · exact fun same => congrArg actionId same

theorem marks_actionMsg (record : ApprovalRecord) (id : String) :
    (record.actionMsg id).Marks .action id := by
  refine ⟨rfl, fun otherKind otherId => ?_⟩
  cases otherKind with
  | card => simp [ChatMessage.isOf, ApprovalRecord.actionMsg]
  | action => simp [ChatMessage.isOf, ApprovalRecord.actionMsg, actionId_inj, eq_comm]

section Counting

variable
  {msgs : List ChatMessage} {message : ChatMessage} {kind : Kind} {id : String}

theorem countP_insertedOnce_of_other (marks : message.Marks kind id) {otherKind : Kind}
    {otherId : String} (differs : ¬ (otherKind = kind ∧ otherId = id)) :
    (insertedOnce msgs message).countP (fun found => found.isOf otherId otherKind) =
      msgs.countP fun found => found.isOf otherId otherKind := by
  unfold insertedOnce
  split
  · rfl
  · have unmarked : ¬ message.isOf otherId otherKind = true :=
      fun marked => differs ((marks.isOf otherKind otherId).mp marked)
    rw [countP_append, countP_singleton, if_neg unmarked, Nat.add_zero]

theorem countP_insertedOnce (marks : message.Marks kind id)
    (own : ∀ found ∈ msgs, found.id = kind.messageId id → found.isOf id kind = true)
    (atMostOnce : msgs.countP (fun found => found.isOf id kind) ≤ 1) :
    (insertedOnce msgs message).countP (fun found => found.isOf id kind) = 1 := by
  unfold insertedOnce
  split
  · rename_i present
    obtain ⟨found, inMsgs, sameId⟩ := any_eq_true.mp present
    have marked := own found inMsgs ((of_decide_eq_true sameId).trans marks.bears)
    have positive : 0 < msgs.countP fun found => found.isOf id kind :=
      countP_pos_iff.mpr ⟨found, inMsgs, marked⟩
    omega
  · rename_i absent
    have none : msgs.countP (fun found => found.isOf id kind) = 0 := by
      refine countP_eq_zero.mpr fun found inMsgs marked => absent ?_
      refine any_eq_true.mpr ⟨found, inMsgs, decide_eq_true ?_⟩
      rw [id_of_isOf marked, marks.bears]
    have counted : message.isOf id kind = true := (marks.isOf kind id).mpr ⟨rfl, rfl⟩
    rw [countP_append, none, countP_singleton, if_pos counted]

end Counting

/-- Recorded approvals bear their id, and what was to be shown has a session. -/
structure Window.Kept (window : Window) : Prop where
  keyed : ∀ id record, window.store.resolvedApprovals.get? id = some record →
    record.approval.id = id
  named : ∀ showing ∈ window.shown, showing.sessionUuid ≠ ""

variable {kind : Kind}

theorem id_of_approvalRecord (kept : window.Kept) {id : String} {resolved : ApprovalResolved}
    {record : ApprovalRecord} (isRecord : window.store.approvalRecord id resolved = some record) :
    record.approval.id = id := by
  unfold AppStore.approvalRecord at isRecord
  split at isRecord
  · rename_i found isFound
    have bears := find?_some isFound
    rw [← Option.some.inj isRecord]
    exact of_decide_eq_true bears
  · split at isRecord
    · rename_i existing isExisting
      cases isRecord
      exact kept.keyed id existing isExisting
    · obtain ⟨request, _, rfl⟩ := map_eq_some_iff.mp isRecord
      rfl

theorem getAgentMessages_refreshAction (target : String) (request : Request)
    (message : ChatMessage) (sessionUuid agentId : String) :
    (store.refreshAction target request message).getAgentMessages sessionUuid agentId =
      store.getAgentMessages sessionUuid agentId := by
  unfold AppStore.refreshAction
  split
  · rfl
  · rfl

theorem getAgentMessages_of_shows_none {store : AppStore} (nothing : store.shows event = none)
    (sessionUuid agentId : String) : (store.handle event).getAgentMessages sessionUuid agentId =
      store.getAgentMessages sessionUuid agentId := by
  cases event with
  | addApproval req =>
    rw [AppStore.handle, AppStore.addApproval]
    rw [AppStore.shows] at nothing
    split
    · rfl
    · rename_i fresh
      rw [if_neg fresh] at nothing
      exact absurd nothing (by simp)
  | resolveApproval id resolved now =>
    rw [AppStore.handle, AppStore.resolveApproval]
    have noRecord := map_eq_none_iff.mp nothing
    dsimp only
    rw [noRecord]
    rfl
  | view sessions activeSessionUuid => rfl

/-- The panels into which an event adds the message of an approval. -/
def AppStore.Reaches (store : AppStore) (request : Request) (sessionUuid agentId : String) : Prop :=
  store.targetSessionUuid request = some sessionUuid ∧
    (agentId = request.msgAgentId ∨ store.activeRootAgentId = some agentId)

theorem getAgentMessages_show {request : Request}
    (isTarget : store.targetSessionUuid request = some target) (message : ChatMessage)
    (sessionUuid agentId : String) : (store.Reaches request sessionUuid agentId →
      (store.showMessage target request message).getAgentMessages sessionUuid agentId =
        insertedOnce (store.getAgentMessages sessionUuid agentId) message) ∧
    (¬ store.Reaches request sessionUuid agentId →
      (store.showMessage target request message).getAgentMessages sessionUuid agentId =
        store.getAgentMessages sessionUuid agentId) := by
  rw [getAgentMessages_showMessage]
  constructor
  · rintro ⟨isSession, isPanel⟩
    obtain rfl := Option.some.inj (isTarget.symm.trans isSession)
    exact if_pos ⟨rfl, isPanel⟩
  · intro misses
    refine if_neg fun both => misses ⟨?_, both.2⟩
    rw [isTarget, both.1]

/-- An event that shows a message adds it once to each panel that it reaches. -/
theorem getAgentMessages_of_shows (kept : window.Kept)
    (shown : window.store.shows event = some (kind, approval)) :
    ∃ message : ChatMessage, message.Marks kind approval.id ∧
      ∀ sessionUuid agentId, (window.store.Reaches approval.request sessionUuid agentId →
          (window.store.handle event).getAgentMessages sessionUuid agentId =
            insertedOnce (window.store.getAgentMessages sessionUuid agentId) message) ∧
        (¬ window.store.Reaches approval.request sessionUuid agentId →
          (window.store.handle event).getAgentMessages sessionUuid agentId =
            window.store.getAgentMessages sessionUuid agentId) := by
  cases event with
  | view sessions activeSessionUuid => exact absurd shown (by simp [AppStore.shows])
  | addApproval req =>
    rw [AppStore.shows] at shown
    split at shown
    · exact absurd shown (by simp)
    · rename_i fresh
      obtain ⟨rfl, rfl⟩ := Prod.mk.inj (Option.some.inj shown)
      refine ⟨req.pendingMsg, marks_pendingMsg req, fun sessionUuid agentId => ?_⟩
      rw [AppStore.handle, AppStore.addApproval, if_neg fresh]
      dsimp only
      cases isTarget : window.store.targetSessionUuid req.request with
      | none =>
        have target : ({ window.store with
            pendingApprovals := window.store.pendingApprovals ++ [req] } :
              AppStore).targetSessionUuid req.request = none := isTarget
        rw [target]
        refine ⟨fun reaches => ?_, fun _ => rfl⟩
        exact absurd (isTarget.symm.trans reaches.1) (by simp)
      | some target =>
        have isTarget' : ({ window.store with
            pendingApprovals := window.store.pendingApprovals ++ [req] } :
              AppStore).targetSessionUuid req.request = some target := isTarget
        rw [isTarget']
        exact getAgentMessages_show _ isTarget' req.pendingMsg sessionUuid agentId
  | resolveApproval id resolved now =>
    obtain ⟨record, isRecord, pair⟩ := map_eq_some_iff.mp shown
    obtain ⟨rfl, rfl⟩ := Prod.mk.inj pair
    have sameId := id_of_approvalRecord kept isRecord
    refine ⟨record.actionMsg id, sameId ▸ marks_actionMsg record id, fun sessionUuid agentId => ?_⟩
    rw [AppStore.handle, AppStore.resolveApproval]
    dsimp only
    rw [isRecord]
    dsimp only
    generalize left : ({ window.store with
      resolvedApprovals := window.store.resolvedApprovals.set id record
      pendingApprovals := window.store.pendingApprovals.filter fun approval =>
        approval.id ≠ id } : AppStore) = resolvedStore
    have targets : resolvedStore.targetSessionUuid record.approval.request =
        window.store.targetSessionUuid record.approval.request := by
      rw [← left]
      rfl
    have messages : ∀ sessionUuid agentId, resolvedStore.getAgentMessages sessionUuid agentId =
        window.store.getAgentMessages sessionUuid agentId := by
      intro sessionUuid agentId
      rw [← left]
      rfl
    have reaches : resolvedStore.Reaches record.approval.request sessionUuid agentId ↔
        window.store.Reaches record.approval.request sessionUuid agentId := by
      rw [← left]
      exact Iff.rfl
    cases isTarget : resolvedStore.targetSessionUuid record.approval.request with
    | none =>
      dsimp only
      refine ⟨fun reached => ?_, fun _ => messages sessionUuid agentId⟩
      exact absurd ((targets.symm.trans isTarget).symm.trans reached.1) (by simp)
    | some target =>
      dsimp only
      rw [getAgentMessages_refreshAction, ← messages, ← reaches]
      exact getAgentMessages_show _ isTarget (record.actionMsg id) sessionUuid agentId

theorem mem_owners_iff {store : AppStore} {sessionUuid agentId : String} {request : Request} :
    agentId ∈ store.owners sessionUuid request ↔
      agentId = request.msgAgentId ∨ store.rootAgentId sessionUuid = some agentId := by
  rw [AppStore.owners, mem_cons, mem_toList]

theorem Window.Apt.reaches_iff (apt : window.Apt kind approval target)
    (sessionUuid agentId : String) : window.store.Reaches approval.request sessionUuid agentId ↔
      target = sessionUuid ∧ agentId ∈ window.store.owners target approval.request := by
  rw [AppStore.Reaches, apt.session, some_inj, mem_owners_iff]
  refine and_congr_right fun _ => ?_
  by_cases isSource : agentId = approval.request.msgAgentId
  · exact ⟨fun _ => Or.inl isSource, fun _ => Or.inl isSource⟩
  · rw [or_iff_right isSource, or_iff_right isSource, apt.root agentId isSource]

theorem targetSessionUuid_of_home_none (kept : window.Kept)
    (homeless : window.store.home window.shown approval = none) :
    window.store.targetSessionUuid approval.request = none := by
  unfold AppStore.home at homeless
  unfold AppStore.targetSessionUuid
  cases isKey : approval.request.key with
  | some key =>
    rw [isKey] at homeless
    exact homeless
  | none =>
    rw [isKey] at homeless
    dsimp only at homeless ⊢
    cases isShown : window.shown.find? (fun showing => showing.id = approval.id) with
    | none =>
      rw [isShown] at homeless
      exact homeless
    | some showing =>
      rw [isShown] at homeless
      have named := kept.named showing (mem_of_find?_eq_some isShown)
      exact absurd homeless (by simp [filter_eq_none_iff, named])

theorem Window.owes_handle_iff (shown : window.store.shows event = some (kind, approval))
    (isHome : window.store.home window.shown approval = some target) (otherKind : Kind)
    (id sessionUuid agentId : String) :
    (window.handle event).Owes otherKind id sessionUuid agentId ↔
      window.Owes otherKind id sessionUuid agentId ∨
        ((otherKind = kind ∧ id = approval.id) ∧
          target = sessionUuid ∧ agentId ∈ window.store.owners target approval.request) := by
  unfold Window.Owes Window.handle AppStore.recordShown
  dsimp only
  rw [shown]
  dsimp only
  rw [isHome]
  simp only [mem_append, mem_singleton, or_and_right, exists_or, exists_eq_left]
  refine or_congr_right ?_
  rw [eq_comm (a := kind), eq_comm (a := approval.id), and_assoc]

theorem shown_handle_of_shows_none (nothing : window.store.shows event = none) :
    (window.handle event).shown = window.shown := by
  rw [Window.handle, AppStore.recordShown, nothing]

theorem shown_handle_of_home_none (shown : window.store.shows event = some (kind, approval))
    (homeless : window.store.home window.shown approval = none) :
    (window.handle event).shown = window.shown := by
  rw [Window.handle, AppStore.recordShown, shown]
  dsimp only
  rw [homeless]

theorem AppStore.fields_refreshAction (request : Request) (message : ChatMessage) :
    (store.refreshAction sessionUuid request message).pendingApprovals = store.pendingApprovals ∧
      (store.refreshAction sessionUuid request message).resolvedApprovals =
        store.resolvedApprovals := by
  unfold AppStore.refreshAction
  split
  · exact ⟨rfl, rfl⟩
  · exact ⟨rfl, rfl⟩

theorem AppStore.fields_addApproval (req : ApprovalRequest) :
    (store.addApproval req).resolvedApprovals = store.resolvedApprovals ∧
      ((store.addApproval req).pendingApprovals = store.pendingApprovals ∨
        (store.pendingApprovals.any fun approval => approval.id = req.id) = false ∧
          (store.addApproval req).pendingApprovals = store.pendingApprovals ++ [req]) := by
  unfold AppStore.addApproval
  split
  · exact ⟨rfl, Or.inl rfl⟩
  · rename_i fresh
    dsimp only
    split
    · exact ⟨rfl, Or.inr ⟨Bool.eq_false_iff.mpr fresh, rfl⟩⟩
    · exact ⟨rfl, Or.inr ⟨Bool.eq_false_iff.mpr fresh, rfl⟩⟩

theorem AppStore.fields_resolveApproval (id : String) (resolved : Option ApprovalResolved)
    (now : ℤ) : (store.resolveApproval id resolved now).pendingApprovals =
        store.pendingApprovals.filter (fun approval => approval.id ≠ id) ∧
      ((store.resolveApproval id resolved now).resolvedApprovals = store.resolvedApprovals ∨
        ∃ record, store.approvalRecord id
            (resolved.getD ⟨id, "allow-once", none, now, none⟩) = some record ∧
          (store.resolveApproval id resolved now).resolvedApprovals =
            store.resolvedApprovals.set id record) := by
  unfold AppStore.resolveApproval
  dsimp only
  cases isRecord : store.approvalRecord id (resolved.getD ⟨id, "allow-once", none, now, none⟩) with
  | none => exact ⟨rfl, Or.inl rfl⟩
  | some record =>
    dsimp only
    split
    · rename_i sessionUuid _
      obtain ⟨pending, recorded⟩ := AppStore.fields_refreshAction (AppStore.showMessage
        { store with
          resolvedApprovals := store.resolvedApprovals.set id record
          pendingApprovals := store.pendingApprovals.filter fun approval => approval.id ≠ id }
        sessionUuid record.approval.request (record.actionMsg id)) sessionUuid
          record.approval.request (record.actionMsg id)
      exact ⟨pending, Or.inr ⟨record, rfl, recorded⟩⟩
    · exact ⟨rfl, Or.inr ⟨record, rfl, rfl⟩⟩

theorem Window.Kept.handle (kept : window.Kept) (event : Event) : (window.handle event).Kept := by
  constructor
  · intro id record isRecord
    cases event with
    | view sessions activeSessionUuid => exact kept.keyed id record isRecord
    | addApproval req =>
      refine kept.keyed id record ?_
      rw [← (window.store.fields_addApproval req).1]
      exact isRecord
    | resolveApproval resolvedId resolved now =>
      have fields := (window.store.fields_resolveApproval resolvedId resolved now).2
      rcases fields with same | ⟨written, isWritten, set⟩
      · exact kept.keyed id record (same ▸ isRecord)
      · have isSet : (window.store.resolvedApprovals.set resolvedId written).get? id =
            some record := set ▸ isRecord
        rw [get?_set] at isSet
        split at isSet
        · rename_i isId
          cases isSet
          exact isId ▸ id_of_approvalRecord kept isWritten
        · exact kept.keyed id record isSet
  · cases shown : window.store.shows event with
    | none =>
      rw [shown_handle_of_shows_none shown]
      exact kept.named
    | some pair =>
      cases isHome : window.store.home window.shown pair.2 with
      | none =>
        have same : (window.handle event).shown = window.shown :=
          shown_handle_of_home_none shown isHome
        rw [same]
        exact kept.named
      | some sessionUuid =>
        unfold Window.handle AppStore.recordShown
        dsimp only
        rw [shown]
        dsimp only
        rw [isHome]
        intro showing isShown
        rcases mem_append.mp isShown with earlier | isNew
        · exact kept.named showing earlier
        · rw [mem_singleton.mp isNew]
          exact of_decide_eq_true (mem_filter_iff.mp isHome).2

theorem nodup_pendingApprovals_handle
    (distinct : (window.store.pendingApprovals.map ApprovalRequest.id).Nodup) (event : Event) :
    ((window.handle event).store.pendingApprovals.map ApprovalRequest.id).Nodup := by
  cases event with
  | view sessions activeSessionUuid => exact distinct
  | addApproval req =>
    rcases (window.store.fields_addApproval req).2 with same | ⟨fresh, added⟩
    · exact same ▸ distinct
    · have pending : (window.handle (.addApproval req)).store.pendingApprovals =
          window.store.pendingApprovals ++ [req] := added
      rw [pending, map_append, map_singleton]
      refine distinct.append (nodup_singleton _) ?_
      rw [disjoint_singleton]
      intro known
      obtain ⟨approval, isPending, sameId⟩ := mem_map.mp known
      exact any_eq_false.mp fresh approval isPending (decide_eq_true sameId)
  | resolveApproval id resolved now =>
    have pending : (window.handle (.resolveApproval id resolved now)).store.pendingApprovals =
        window.store.pendingApprovals.filter fun approval => approval.id ≠ id :=
      (window.store.fields_resolveApproval id resolved now).1
    rw [pending]
    exact distinct.sublist (List.Sublist.map _ filter_sublist)

theorem Window.Placed.countP_le_one (placed : window.Placed) (kind : Kind)
    (id sessionUuid agentId : String) :
    (window.store.getAgentMessages sessionUuid agentId).countP (fun message =>
      message.isOf id kind) ≤ 1 := by
  by_cases owes : window.Owes kind id sessionUuid agentId
  · exact le_of_eq (placed.once kind id sessionUuid agentId owes)
  · rw [placed.nowhereElse kind id sessionUuid agentId owes]
    exact Nat.zero_le 1

theorem Window.Placed.of_same {next : Window} (placed : window.Placed)
    (messages : ∀ sessionUuid agentId, next.store.getAgentMessages sessionUuid agentId =
      window.store.getAgentMessages sessionUuid agentId) (shown : next.shown = window.shown)
    (distinct : (next.store.pendingApprovals.map ApprovalRequest.id).Nodup) : next.Placed := by
  refine ⟨?_, ?_, distinct⟩
  · intro kind id sessionUuid agentId owes
    rw [Window.Owes, shown] at owes
    rw [messages]
    exact placed.once kind id sessionUuid agentId owes
  · intro kind id sessionUuid agentId owes
    rw [Window.Owes, shown] at owes
    rw [messages]
    exact placed.nowhereElse kind id sessionUuid agentId owes

/-- A suited event keeps every message in its panels. -/
theorem Window.Placed.handle (placed : window.Placed) (kept : window.Kept)
    (suits : window.Suits event) : (window.handle event).Placed := by
  have distinct := nodup_pendingApprovals_handle placed.distinct event
  cases shown : window.store.shows event with
  | none =>
    exact placed.of_same (getAgentMessages_of_shows_none shown)
      (shown_handle_of_shows_none shown) distinct
  | some pair =>
    obtain ⟨kind, approval⟩ := pair
    obtain ⟨message, marks, messages⟩ := getAgentMessages_of_shows kept shown
    cases isHome : window.store.home window.shown approval with
    | none =>
      have noTarget := targetSessionUuid_of_home_none kept isHome
      refine placed.of_same (fun sessionUuid agentId => ?_)
        (shown_handle_of_home_none shown isHome) distinct
      refine (messages sessionUuid agentId).2 fun reaches => ?_
      exact absurd (noTarget.symm.trans reaches.1) (by simp)
    | some target =>
      have apt := suits kind approval target shown isHome
      have owes := Window.owes_handle_iff shown isHome
      -- the count goes up exactly where the debt does
      have counted : ∀ otherKind id sessionUuid agentId,
          ((window.handle event).Owes otherKind id sessionUuid agentId ∧
            ((window.handle event).store.getAgentMessages sessionUuid agentId).countP
              (fun message => message.isOf id otherKind) = 1) ∨
          (((window.handle event).Owes otherKind id sessionUuid agentId ↔
              window.Owes otherKind id sessionUuid agentId) ∧
            ((window.handle event).store.getAgentMessages sessionUuid agentId).countP
              (fun message => message.isOf id otherKind) =
            (window.store.getAgentMessages sessionUuid agentId).countP
              (fun message => message.isOf id otherKind)) := by
        intro otherKind id sessionUuid agentId
        have reachesIff := apt.reaches_iff sessionUuid agentId
        rw [owes, ← reachesIff, Window.handle]
        dsimp only
        by_cases reaches : window.store.Reaches approval.request sessionUuid agentId
        · rw [(messages sessionUuid agentId).1 reaches]
          by_cases same : otherKind = kind ∧ id = approval.id
          · obtain ⟨rfl, rfl⟩ := same
            obtain ⟨rfl, isOwner⟩ := reachesIff.mp reaches
            refine Or.inl ⟨Or.inr ⟨⟨rfl, rfl⟩, reaches⟩, ?_⟩
            exact countP_insertedOnce marks (apt.own agentId isOwner) (placed.countP_le_one _ _ _ _)
          · refine Or.inr ⟨or_iff_left fun both => same both.1, ?_⟩
            exact countP_insertedOnce_of_other marks same
        · rw [(messages sessionUuid agentId).2 reaches]
          exact Or.inr ⟨or_iff_left fun both => reaches both.2, rfl⟩
      refine ⟨?_, ?_, distinct⟩
      · intro otherKind id sessionUuid agentId isOwed
        rcases counted otherKind id sessionUuid agentId with ⟨_, one⟩ | ⟨same, count⟩
        · exact one
        · rw [count]
          exact placed.once otherKind id sessionUuid agentId (same.mp isOwed)
      · intro otherKind id sessionUuid agentId notOwed
        rcases counted otherKind id sessionUuid agentId with ⟨isOwed, _⟩ | ⟨same, count⟩
        · exact absurd isOwed notOwed
        · rw [count]
          exact placed.nowhereElse otherKind id sessionUuid agentId
            fun isOwed => notOwed (same.mpr isOwed)

theorem Window.Opened.placed (opened : window.Opened) : window.Placed ∧ window.Kept := by
  obtain ⟨sessions, activeSessionUuid, rfl⟩ := opened
  refine ⟨⟨?_, fun _ _ _ _ _ => rfl, nodup_nil⟩, ⟨?_, ?_⟩⟩
  · rintro kind id sessionUuid agentId ⟨showing, isShown, _⟩
    exact absurd isShown (by simp)
  · intro id record isRecord
    exact absurd isRecord (by simp [AppStore.opened])
  · intro showing isShown
    exact absurd isShown (by simp)

/--
In a run whose events all come while the active session has the root agent of the
approval's own team, every card and every action message stands once where it belongs and
nowhere else.
-/
theorem placed_of_suits {window : Window}
    (reachable : Reachable
      (Restricted Step Window.Suits) Window.Opened window) : window.Placed := by
  have preserved : Preserves (Restricted Step Window.Suits)
      (fun window => window.Placed ∧ window.Kept) := by
    rintro source event target ⟨suits, rfl⟩ ⟨placed, kept⟩
    exact ⟨placed.handle kept suits, kept.handle event⟩
  exact (TransitionSystem.Reachable.invariant (fun _ opened => opened.placed) preserved reachable).1

theorem Window.suits_of_active {sessionUuid : String}
    (shown : window.store.shows event = some (kind, approval))
    (isHome : window.store.home window.shown approval = some sessionUuid)
    (session : window.store.targetSessionUuid approval.request = some sessionUuid)
    (root : window.store.activeRootAgentId = window.store.rootAgentId sessionUuid)
    (own : ∀ agentId ∈ window.store.owners sessionUuid approval.request,
      ∀ message ∈ window.store.getAgentMessages sessionUuid agentId,
        message.id = kind.messageId approval.id → message.isOf approval.id kind = true) :
    window.Suits event := by
  intro otherKind otherApproval otherUuid otherShown otherHome
  obtain ⟨rfl, rfl⟩ := Prod.mk.inj (Option.some.inj (shown.symm.trans otherShown))
  obtain rfl := Option.some.inj (isHome.symm.trans otherHome)
  exact ⟨session, fun agentId _ => by rw [root], own⟩

section Examples

/-- A team of one session. -/
def teamOf (rootAgentId sessionUuid : String) : MasSession where
  key := "agent:" ++ rootAgentId ++ ":group:" ++ sessionUuid
  sessionUuid := some sessionUuid

/-- A worker of the session asks. -/
def workerAsks (sessionUuid : String) : ApprovalRequest where
  id := "r1"
  request := ⟨"ls", none, some ("agent:worker:group:" ++ sessionUuid)⟩
  createdAtMs := 1
  expiresAtMs := 2

def openedWith (sessions : List MasSession) (active : String) : Window :=
  ⟨.opened sessions (some active), []⟩

end Examples

/-- A worker asks in the active session, and its request is allowed. -/
theorem placed_of_suits_worker :
    (((openedWith [teamOf "lead" "u1"] "u1").handle (.addApproval (workerAsks "u1"))).handle
      (.resolveApproval "r1" none 3)).Placed := by
  have asked : (openedWith [teamOf "lead" "u1"] "u1").Suits (.addApproval (workerAsks "u1")) :=
    Window.suits_of_active (show _ = some (Kind.card, workerAsks "u1") from rfl)
      (show _ = some "u1" by decide +kernel) (by decide +kernel) (by decide +kernel)
      (by decide +kernel)
  have answered : ((openedWith [teamOf "lead" "u1"] "u1").handle
      (.addApproval (workerAsks "u1"))).Suits (.resolveApproval "r1" none 3) :=
    Window.suits_of_active (show _ = some (Kind.action, workerAsks "u1") from rfl)
      (show _ = some "u1" by decide +kernel) (by decide +kernel) (by decide +kernel)
      (by decide +kernel)
  exact placed_of_suits (((TransitionSystem.Reachable.start ⟨_, _, rfl⟩).next
    ⟨asked, rfl⟩).next ⟨answered, rfl⟩)

/-- While another team is active, its root agent gets the card of the worker. -/
theorem not_placed_otherTeam : ¬ ∀ window, Reachable Step Window.Opened window → window.Placed := by
  intro placed
  have reached : Reachable Step Window.Opened
      ((openedWith [teamOf "lead" "u1", teamOf "chief" "u2"] "u2").handle
        (.addApproval (workerAsks "u1"))) :=
    (TransitionSystem.Reachable.start ⟨_, _, rfl⟩).next rfl
  have once := (placed _ reached).once .card "r1" "u1" "lead"
    ⟨_, mem_singleton_self _, rfl, rfl, by decide +kernel, by decide +kernel⟩
  revert once
  decide +kernel

end ApprovalCards
