import AieClaw.TranscriptStore

/-!
# What the transcript store does to its messages

A message is known by its id, its session, its number and its time. Recording an
action accepts at most one message; a flush moves the buffer behind the rows of
the database or drops it. Back-fills and archiving rewrite other columns only.
-/

namespace SessionHistory

open List

/-- The columns of a message that are never rewritten. -/
structure LedgerEntry where
  id : ℕ
  sessionUuid : String
  seq : ℤ
  timestamp : ℚ

def StoredMessage.entry (message : StoredMessage) : LedgerEntry where
  id := message.id
  sessionUuid := message.sessionUuid
  seq := message.seq
  timestamp := message.timestamp

def ledger (messages : List StoredMessage) : List LedgerEntry := messages.map StoredMessage.entry

@[simp] theorem ledger_nil : ledger [] = [] := rfl

@[simp] theorem ledger_append (first second : List StoredMessage) :
    ledger (first ++ second) = ledger first ++ ledger second :=
  map_append

theorem ledger_map {change : StoredMessage → StoredMessage}
    (kept : ∀ message, (change message).entry = message.entry) (messages : List StoredMessage) :
    ledger (messages.map change) = ledger messages := by
  simp [ledger, Function.comp_def, kept]

/-- The entries of one session. -/
def ofSession (sessionUuid : String) (entries : List LedgerEntry) : List LedgerEntry :=
  entries.filter fun entry => entry.sessionUuid = sessionUuid

@[simp] theorem ofSession_append (sessionUuid : String) (first second : List LedgerEntry) :
    ofSession sessionUuid (first ++ second) =
      ofSession sessionUuid first ++ ofSession sessionUuid second :=
  filter_append first second

theorem ofSession_ledger (sessionUuid : String) (messages : List StoredMessage) :
    ofSession sessionUuid (ledger messages) = ledger (messages.filter fun message =>
        message.sessionUuid = sessionUuid) := by
  simp only [ofSession, ledger, filter_map]
  rfl

namespace TranscriptStore

/-- The last number of a session, which starts at zero. -/
def lastSeqOf (store : TranscriptStore) (sessionUuid : String) : ℤ :=
  ((store.sessionStates.get? sessionUuid).map SessionState.lastSeq).getD 0

/-- Two stores with the same messages, numbers and statistics. -/
structure SameLedgers (source target : TranscriptStore) : Prop where
  rows : ledger target.db.rows = ledger source.db.rows
  buffer : ledger target.buffer = ledger source.buffer
  accepted : target.accepted = source.accepted
  nextId : target.nextId = source.nextId
  statistics : target.db.statistics = source.db.statistics
  lastSeq : ∀ sessionUuid, target.lastSeqOf sessionUuid = source.lastSeqOf sessionUuid

theorem SameLedgers.refl (store : TranscriptStore) : SameLedgers store store :=
  ⟨rfl, rfl, rfl, rfl, rfl, fun _ => rfl⟩

variable {first : TranscriptStore} (host : Host) {middle : TranscriptStore} {last : TranscriptStore}
  {message : StoredMessage}

theorem SameLedgers.trans (earlier : SameLedgers first middle)
    (later : SameLedgers middle last) : SameLedgers first last where
  rows := later.rows.trans earlier.rows
  buffer := later.buffer.trans earlier.buffer
  accepted := later.accepted.trans earlier.accepted
  nextId := later.nextId.trans earlier.nextId
  statistics := later.statistics.trans earlier.statistics
  lastSeq := fun sessionUuid => (later.lastSeq sessionUuid).trans (earlier.lastSeq sessionUuid)

/-- One message was accepted: it has the next id and the next number. -/
structure Accepts (source target : TranscriptStore) (message : StoredMessage) : Prop where
  rows : ledger target.db.rows = ledger source.db.rows
  buffer : ledger target.buffer = ledger source.buffer ++ [message.entry]
  accepted : target.accepted = source.accepted ++ [message]
  id : message.id = source.nextId
  nextId : target.nextId = source.nextId + 1
  statistics : target.db.statistics = source.db.statistics
  seq : message.seq = source.lastSeqOf message.sessionUuid + 1
  lastSeq : ∀ sessionUuid,
    target.lastSeqOf sessionUuid =
      if sessionUuid = message.sessionUuid then source.lastSeqOf sessionUuid + 1
      else source.lastSeqOf sessionUuid

theorem Accepts.after (earlier : SameLedgers first middle) (accepts : Accepts middle last message) :
    Accepts first last message where
  rows := accepts.rows.trans earlier.rows
  buffer := by rw [accepts.buffer, earlier.buffer]
  accepted := by rw [accepts.accepted, earlier.accepted]
  id := accepts.id.trans earlier.nextId
  nextId := by rw [accepts.nextId, earlier.nextId]
  statistics := accepts.statistics.trans earlier.statistics
  seq := by rw [accepts.seq, earlier.lastSeq]
  lastSeq := by
    intro sessionUuid
    rw [accepts.lastSeq, earlier.lastSeq]

theorem Accepts.before (accepts : Accepts first middle message) (later : SameLedgers middle last) :
    Accepts first last message where
  rows := later.rows.trans accepts.rows
  buffer := later.buffer.trans accepts.buffer
  accepted := later.accepted.trans accepts.accepted
  id := accepts.id
  nextId := later.nextId.trans accepts.nextId
  statistics := later.statistics.trans accepts.statistics
  seq := accepts.seq
  lastSeq := fun sessionUuid => (later.lastSeq sessionUuid).trans (accepts.lastSeq sessionUuid)

section

variable (store : TranscriptStore)

theorem lastSeqOf_set (sessionUuid other : String) (state : SessionState) :
    lastSeqOf { store with sessionStates := store.sessionStates.set sessionUuid state } other =
      if other = sessionUuid then state.lastSeq
      else
        store.lastSeqOf other := by
  simp only [lastSeqOf, OrderedMap.get?_set]
  split <;> rfl

variable
  (sessionUuid sessionKey sessionId : String) (parent : Option (Option String))

theorem lastSeq_getOrInitState :
    (store.getOrInitState sessionUuid sessionKey sessionId parent).1.lastSeq =
      store.lastSeqOf sessionUuid := by
  simp only [getOrInitState, lastSeqOf]
  cases store.sessionStates.get? sessionUuid with
  | none => rfl
  | some state => rfl

theorem sameLedgers_getOrInitState : SameLedgers store
      (store.getOrInitState sessionUuid sessionKey sessionId parent).2 := by
  refine ⟨rfl, rfl, rfl, rfl, rfl, fun other => ?_⟩
  have kept := lastSeq_getOrInitState store sessionUuid sessionKey sessionId parent
  simp only [getOrInitState] at kept ⊢
  simp only [lastSeqOf, OrderedMap.get?_set]
  split
  case isTrue same =>
    subst same
    exact kept
  case isFalse => rfl

end

theorem accepts_accept (draft : Draft) (store : TranscriptStore) :
    ∃ message, Accepts store (store.accept draft) message := by
  have same :=
    sameLedgers_getOrInitState store draft.sessionUuid draft.sessionKey
      draft.sessionId (some draft.parentSessionUuid)
  have number :=
    lastSeq_getOrInitState store draft.sessionUuid draft.sessionKey
      draft.sessionId (some draft.parentSessionUuid)
  simp only [accept]
  generalize store.getOrInitState draft.sessionUuid draft.sessionKey draft.sessionId
      (some draft.parentSessionUuid) = found at same number
  obtain ⟨state, touched⟩ := found
  have counted : state.lastSeq = store.lastSeqOf draft.sessionUuid := number
  refine ⟨stored draft store.nextId state, same.rows, ?_, ?_, rfl, ?_,
    same.statistics, ?_, fun sessionUuid => ?_⟩
  · rw [ledger_append, same.buffer]
    rfl
  · rw [same.accepted]
  · rw [same.nextId]
  · simp only [stored, counted]
  · have others := same.lastSeq sessionUuid
    simp only [lastSeqOf] at others counted
    simp only [lastSeqOf, OrderedMap.get?_set, stored]
    by_cases isSession : sessionUuid = draft.sessionUuid
    · subst isSession
      simp [counted]
    · simpa [isSession] using others

theorem sameLedgers_recordSenderContext (sessionUuid sessionKey sessionId : String)
    (ctx : SenderContext) (store : TranscriptStore) : SameLedgers store
      (store.recordSenderContext sessionUuid sessionKey sessionId ctx) := by
  have same := sameLedgers_getOrInitState store sessionUuid sessionKey sessionId none
  refine ⟨same.rows, same.buffer, same.accepted, same.nextId, same.statistics, fun other => ?_⟩
  rw [← same.lastSeq other]
  simp only [recordSenderContext, lastSeqOf, OrderedMap.get?_modify]
  by_cases isSession : other = sessionUuid
  · subst isSession
    simp [Function.comp_def]
  · simp [isSession]

def Records (source target : TranscriptStore) : Prop :=
  SameLedgers source target ∨ ∃ message, Accepts source target message

theorem Records.after {last : TranscriptStore} (earlier : SameLedgers first middle)
    (records : Records middle last) : Records first last := by
  obtain same | ⟨message, accepts⟩ := records
  · exact .inl (earlier.trans same)
  · exact .inr ⟨message, accepts.after earlier⟩

theorem records_pushToBuffer (params : PushParams) (store : TranscriptStore) :
    Records store (store.pushToBuffer params) :=
  .inr (accepts_accept _ store)

theorem records_recordToolEvent (event : ToolEvent) (now : ℚ) (store : TranscriptStore) :
    Records store (store.recordToolEvent host event now) := by
  simp only [recordToolEvent]
  split
  case h_1 => exact .inl ⟨rfl, rfl, rfl, rfl, rfl, fun _ => rfl⟩
  case h_2 =>
    have cleaned : SameLedgers store { store with
          pendingToolCalls :=
            store.pendingToolCalls.delete event.toolCallId } :=
      ⟨rfl, rfl, rfl, rfl, rfl, fun _ => rfl⟩
    split
    case h_1 => exact .inl cleaned
    case h_2 =>
      split
      case isTrue => exact .inl cleaned
      case isFalse => exact (records_pushToBuffer _ _).after cleaned
  case h_3 => exact .inl (SameLedgers.refl store)

theorem records_recordAssistantFinal (sessionKey runId text : String) (timestamp : ℚ)
    (store : TranscriptStore) : Records store
      (store.recordAssistantFinal sessionKey runId text timestamp) := by
  simp only [recordAssistantFinal]
  split
  case isTrue => exact .inl (SameLedgers.refl store)
  case isFalse =>
    split
    case isTrue => exact .inl (SameLedgers.refl store)
    case isFalse =>
      apply Records.after _ (records_pushToBuffer _ _)
      exact ⟨rfl, rfl, rfl, rfl, rfl, fun _ => rfl⟩

theorem sameLedgers_detectAgent (now : ℚ) (sessionKey content : String) (role : Role)
    (sourceAgentId : Option JsonValue) (store : TranscriptStore) : SameLedgers store
      (store.detectAgent now sessionKey content role sourceAgentId).2.2 := by
  simp only [detectAgent]
  split
  · exact ⟨rfl, rfl, rfl, rfl, rfl, fun _ => rfl⟩
  · exact SameLedgers.refl store

theorem ledger_linkNewest (messageId : ℕ) (timestamp : ℚ) (sessionKey : String)
    (entries : List StoredMessage) :
    ledger (linkNewest host messageId timestamp sessionKey entries) = ledger entries := by
  induction entries with
  | nil => rfl
  | cons entry older inductionHypothesis =>
    simp only [linkNewest]
    split
    case isTrue => split <;> rfl
    case isFalse => exact congrArg (entry.entry :: ·) inductionHypothesis

theorem sameLedgers_linkBuffered (messageId : ℕ) (timestamp : ℚ) (sessionKey : String)
    (store : TranscriptStore) : SameLedgers store
      (store.linkBuffered host messageId timestamp sessionKey) := by
  simp only [linkBuffered]
  split
  case h_1 => exact SameLedgers.refl store
  case h_2 last older shape =>
    refine ⟨rfl, ?_, rfl, rfl, rfl, fun _ => rfl⟩
    have linked := ledger_linkNewest host messageId timestamp sessionKey older
    have whole : store.buffer = (last :: older).reverse := by
      rw [← shape, reverse_reverse]
    simp only [ledger] at linked ⊢
    rw [whole, map_reverse, map_reverse, map_cons, map_cons, linked]

theorem sameLedgers_backfill (fails : Bool) (messageId : ℕ) (timestamp : ℚ) (sessionKey : String)
    (store : TranscriptStore) : SameLedgers store
      (store.backfill host fails messageId timestamp sessionKey) := by
  have buffered := sameLedgers_linkBuffered host messageId timestamp sessionKey store
  simp only [backfill]
  split
  case isTrue => exact SameLedgers.refl store
  case isFalse =>
    split
    case h_1 => exact buffered
    case h_2 row =>
      split
      case h_1 => exact SameLedgers.refl store
      case h_2 => exact buffered
      case h_3 content =>
        refine ⟨?_, rfl, rfl, rfl, rfl, fun _ => rfl⟩
        apply ledger_map
        intro message
        split <;> rfl

theorem records_handleUpdate (turn : Turn) (update : SessionTranscriptUpdate)
    (store : TranscriptStore) : Records store (store.handleUpdate host turn update) := by
  have kept : Records store store := .inl (SameLedgers.refl store)
  simp only [handleUpdate]
  split
  case h_1 => exact kept
  case h_2 => exact kept
  case h_3 message _ _ =>
    split
    case isTrue => exact kept
    case isFalse =>
      simp only [handleMessage]
      split
      case isTrue => exact kept
      case isFalse =>
        apply Records.after (sameLedgers_detectAgent _ _ _ _ _ store)
        split
        case isTrue =>
          obtain ⟨accepted, accepts⟩ := accepts_accept _ _
          exact .inr ⟨accepted, accepts.before (sameLedgers_backfill _ _ _ _ _ _)⟩
        case isFalse => exact .inr (accepts_accept _ _)

theorem records_record (turn : Turn) (store : TranscriptStore) (action : TranscriptAction) :
    Records store (store.record host turn action) := by
  cases action with
  | recordSenderContext sessionUuid sessionKey sessionId ctx =>
    exact .inl (sameLedgers_recordSenderContext _ _ _ _ store)
  | markNextMessageAsAgent => exact .inl ⟨rfl, rfl, rfl, rfl, rfl, fun _ => rfl⟩
  | recordToolEvent event => exact records_recordToolEvent host event turn.now store
  | recordApprovalEvent sessionKey type payload timestamp => exact records_pushToBuffer _ store
  | recordProgressEvent sessionKey type payload timestamp => exact records_pushToBuffer _ store
  | recordAssistantFinal sessionKey runId text timestamp =>
    exact records_recordAssistantFinal sessionKey runId text timestamp store
  | handleUpdate update => exact records_handleUpdate host turn update store
  | flush => exact .inl (SameLedgers.refl store)
  | reopen => exact .inl (SameLedgers.refl store)

end TranscriptStore

end SessionHistory
