import AieClaw.TranscriptStoreLedger

/-!
# What a flush does

A flush that commits moves the buffer behind the rows and folds each group of
the batch into the statistic row of its session; the numbers in memory stay. A
flush that does not commit drops the buffer and leaves the database as it was.
-/

namespace SessionHistory

open TransitionSystem OrderedMap List

/-- The row holds the aggregates of the entries. -/
structure Statistic.Aggregates (statistic : Statistic) (entries : List LedgerEntry) : Prop where
  msgCount : statistic.msgCount = entries.length
  lastSeq : (entries.map LedgerEntry.seq).max? = some statistic.lastSeq
  firstMsgAt : (entries.map LedgerEntry.timestamp).min? = some statistic.firstMsgAt
  lastMsgAt : (entries.map LedgerEntry.timestamp).max? = some statistic.lastMsgAt

namespace TranscriptStore

theorem aggregates_updated {existing inserted : Statistic}
    {entries batch : List LedgerEntry} (before : existing.Aggregates entries)
    (added : inserted.Aggregates batch) :
    (updated existing inserted).Aggregates (entries ++ batch) where
  msgCount := by
    simp [updated, before.msgCount, added.msgCount]
  lastSeq := by
    rw [map_append]
    exact Extrema.max?_append before.lastSeq added.lastSeq
  firstMsgAt := by
    rw [map_append]
    exact Extrema.min?_append before.firstMsgAt added.firstMsgAt
  lastMsgAt := by
    rw [map_append]
    exact Extrema.max?_append before.lastMsgAt added.lastMsgAt

theorem smaller_eq_min : smaller = min := by
  funext least next
  simp only [smaller, min_def]
  split <;> split <;> grind

theorem larger_eq_max : larger = max := by
  funext most next
  simp only [larger, max_def]
  split <;> split <;> grind

theorem aggregates_excluded {group : List StoredMessage} {inserted : Statistic}
    (isExcluded : excluded group = some inserted) : inserted.Aggregates (ledger group) := by
  obtain ⟨last, isLast, rfl⟩ := Option.map_eq_some_iff.mp isExcluded
  cases group with
  | nil => contradiction
  | cons first rest =>
    have seqs :
        (fun most (message : StoredMessage) => if most < message.seq then message.seq else most) =
        fun most message => max most message.seq := by
      funext most message
      simp only [max_def]
      split <;> split <;> grind
    refine ⟨by simp [ledger], ?_, ?_, ?_⟩
    · simp only [ledger, map_cons, map_map, max?_cons', foldl_map, reduceSeqs, seqs]
      rfl
    · simp only [ledger, map_cons, map_map, min?_cons', foldl_map, reduceTimes, smaller_eq_min]
      rfl
    · simp only [ledger, map_cons, map_map, max?_cons', foldl_map, reduceTimes, larger_eq_max]
      rfl

theorem exists_excluded {group : List StoredMessage} (nonempty : group ≠ []) :
    ∃ inserted, excluded group = some inserted := by
  simp [excluded, getLast?_eq_some_getLast nonempty]

/-- The statistic row of a session after the upsert of a group. -/
def upserted (group : List StoredMessage) (existing : Option Statistic) : Option Statistic :=
  match excluded group with
  | none => existing
  | some inserted => some ((existing.map fun row => updated row inserted).getD inserted)

theorem get?_upsertStatistic (statistics : OrderedMap String Statistic)
    (entry : String × List StoredMessage) (other : String) :
    (upsertStatistic statistics entry).get? other =
      if other = entry.1 then upserted entry.2 (statistics.get? entry.1)
      else
        statistics.get? other := by
  simp only [upsertStatistic, upserted]
  cases excluded entry.2 with
  | none =>
    by_cases same : other = entry.1
    · simp [same]
    · simp [same]
  | some inserted =>
    cases statistics.get? entry.1 with
    | none => simp [get?_set]
    | some existing => simp [get?_set]

/-- The statistic rows of a database aggregate its message rows. -/
def Counted (db : MessageDb) : Prop :=
  ∀ sessionUuid,
    match db.statistics.get? sessionUuid with
    | none => ofSession sessionUuid (ledger db.rows) = []
    | some statistic => statistic.Aggregates (ofSession sessionUuid (ledger db.rows))

variable (toDateStr : ℚ → String) (sessionStates : OrderedMap String SessionState)
  (msgs : List StoredMessage) (store : TranscriptStore)

theorem archive_keeps (entries : List (String × List StoredMessage)) (db : MessageDb) :
    ledger (entries.foldl (archiveGroup toDateStr sessionStates) db).rows = ledger db.rows ∧
      (entries.foldl (archiveGroup toDateStr sessionStates) db).statistics =
        db.statistics := by
  induction entries generalizing db with
  | nil => exact ⟨rfl, rfl⟩
  | cons entry rest inductionHypothesis =>
    obtain ⟨rows, statistics⟩ :=
      inductionHypothesis (archiveGroup toDateStr sessionStates db entry)
    have one : ledger (archiveGroup toDateStr sessionStates db entry).rows = ledger db.rows ∧
          (archiveGroup toDateStr sessionStates db entry).statistics =
            db.statistics := by
      simp only [archiveGroup]
      split
      case h_1 => exact ⟨rfl, rfl⟩
      case h_2 date =>
        refine ⟨ledger_map (fun message => ?_) db.rows, rfl⟩
        split <;> rfl
    exact ⟨rows.trans one.1, statistics.trans one.2⟩

theorem ledger_writeBatch (byUuid : OrderedMap String (List StoredMessage)) (db : MessageDb) :
    ledger (writeBatch toDateStr sessionStates msgs byUuid db).rows =
      ledger db.rows ++ ledger msgs := by
  obtain ⟨rows, -⟩ := archive_keeps toDateStr sessionStates byUuid.entries db
  rw [writeBatch, ledger_append, rows]

theorem counted_writeBatch {db : MessageDb} (counted : Counted db) :
    Counted (writeBatch toDateStr sessionStates msgs
      (groupBy StoredMessage.sessionUuid msgs) db) := by
  obtain ⟨-, statistics⟩ :=
    archive_keeps toDateStr sessionStates (groupBy StoredMessage.sessionUuid msgs).entries db
  intro sessionUuid
  have before := counted sessionUuid
  have value :=
    get?_foldl_groups upserted get?_upsertStatistic
      (groupBy StoredMessage.sessionUuid msgs) db.statistics
      sessionUuid
  rw [ledger_writeBatch, ofSession_append, ofSession_ledger sessionUuid msgs]
  simp only [writeBatch, statistics, value]
  cases found : (groupBy StoredMessage.sessionUuid msgs).get? sessionUuid with
  | none =>
    have noMessage := getD_get?_groupBy StoredMessage.sessionUuid msgs sessionUuid
    rw [found] at noMessage
    rw [← noMessage]
    simpa using before
  | some group =>
    obtain ⟨nonempty, rfl⟩ := get?_groupBy_eq_some_iff.mp found
    obtain ⟨inserted, isExcluded⟩ := exists_excluded nonempty
    have added := aggregates_excluded isExcluded
    simp only [upserted, isExcluded]
    cases existing : db.statistics.get? sessionUuid with
    | none =>
      rw [existing] at before
      simpa [before] using added
    | some row =>
      rw [existing] at before
      exact aggregates_updated before added

theorem Counted.congr {db other : MessageDb} (counted : Counted db)
    (rows : ledger other.rows = ledger db.rows) (statistics : other.statistics = db.statistics) :
    Counted other := by
  intro sessionUuid
  rw [rows, statistics]
  exact counted sessionUuid

theorem sameLedgers_countCommitted (message : StoredMessage) :
    SameLedgers store (store.countCommitted message) := by
  have same :=
    sameLedgers_getOrInitState store message.sessionUuid message.sessionKey message.sessionId none
  have number :=
    lastSeq_getOrInitState store message.sessionUuid message.sessionKey message.sessionId none
  simp only [countCommitted]
  generalize store.getOrInitState message.sessionUuid message.sessionKey
      message.sessionId none = found at same number
  obtain ⟨state, touched⟩ := found
  refine ⟨same.rows, same.buffer, same.accepted, same.nextId, same.statistics,
    fun sessionUuid => ?_⟩
  rw [lastSeqOf_set]
  split
  case isTrue isSession =>
    subst isSession
    exact number
  case isFalse => exact same.lastSeq sessionUuid

theorem sameLedgers_foldl_countCommitted : SameLedgers store (msgs.foldl countCommitted store) := by
  induction msgs generalizing store with
  | nil => exact SameLedgers.refl store
  | cons message rest inductionHypothesis =>
    exact (sameLedgers_countCommitted store message).trans
      (inductionHypothesis (store.countCommitted message))

/-- The buffer moved behind the rows, and the statistics follow. -/
structure CommitsBuffer (source target : TranscriptStore) : Prop where
  rows : ledger target.db.rows = ledger source.db.rows ++ ledger source.buffer
  buffer : ledger target.buffer = []
  accepted : target.accepted = source.accepted
  nextId : target.nextId = source.nextId
  counted : Counted source.db → Counted target.db
  lastSeq : ∀ sessionUuid, target.lastSeqOf sessionUuid = source.lastSeqOf sessionUuid

/-- The buffer is gone, and the database is as it was. -/
structure DropsBuffer (source target : TranscriptStore) : Prop where
  db : target.db = source.db
  buffer : target.buffer = []
  accepted : target.accepted = source.accepted
  nextId : target.nextId = source.nextId

theorem commitsBuffer_flush (host : Host) {outcome : Outcome} {store : TranscriptStore}
    (commits : store.buffer ≠ [] → outcome = .committed) :
    CommitsBuffer store (store.flush host outcome) := by
  simp only [flush]
  split
  case isTrue empty => exact ⟨by simp [empty], by simp [empty], rfl, rfl, id, fun _ => rfl⟩
  case isFalse nonempty =>
    obtain rfl := commits nonempty
    simp only [persistBatch]
    have same :=
      sameLedgers_foldl_countCommitted store.buffer { store with
        buffer := []
        db := writeBatch host.toDateStr store.sessionStates store.buffer
          (groupBy StoredMessage.sessionUuid store.buffer)
          store.db }
    refine ⟨same.rows.trans (ledger_writeBatch _ _ _ _ _), same.buffer,
      same.accepted, same.nextId, fun counted => ?_, same.lastSeq⟩
    exact (counted_writeBatch _ _ _ counted).congr same.rows same.statistics

theorem dropsBuffer_flush (host : Host) {outcome : Outcome} {store : TranscriptStore}
    (fails : outcome ≠ .committed) (nonempty : store.buffer ≠ []) :
    DropsBuffer store (store.flush host outcome) := by
  simp only [flush, if_neg nonempty]
  cases outcome with
  | committed => exact absurd rfl fails
  | beginFails => exact ⟨rfl, rfl, rfl, rfl⟩
  | rolledBack => exact ⟨rfl, rfl, rfl, rfl⟩
  | rollbackFails => exact ⟨rfl, rfl, rfl, rfl⟩

/-- A new store has an empty buffer and the numbers of the statistics. -/
structure Reopens (source target : TranscriptStore) : Prop where
  db : target.db = source.db
  buffer : target.buffer = []
  accepted : target.accepted = source.accepted
  nextId : target.nextId = source.nextId
  lastSeq : ∀ sessionUuid,
    target.lastSeqOf sessionUuid =
      ((source.db.statistics.get? sessionUuid).map Statistic.lastSeq).getD 0

theorem foldl_loadStatistic (entries : List (String × Statistic)) (store : TranscriptStore) :
    ∃ activeSessionIds, entries.foldl loadStatistic store = { store with
        sessionStates :=
          entries.foldl
            (fun states entry => states.set entry.1 (stateOfStatistic entry.2))
            store.sessionStates
        activeSessionIds := activeSessionIds } := by
  induction entries generalizing store with
  | nil => exact ⟨store.activeSessionIds, rfl⟩
  | cons entry rest inductionHypothesis =>
    obtain ⟨activeSessionIds, same⟩ := inductionHypothesis (store.loadStatistic entry)
    exact ⟨activeSessionIds, same⟩

theorem lastSeqOf_loadSessionStates {store : TranscriptStore}
    (empty : store.sessionStates = .empty) (sessionUuid : String) :
    store.loadSessionStates.lastSeqOf sessionUuid =
      ((store.db.statistics.get? sessionUuid).map Statistic.lastSeq).getD 0 := by
  obtain ⟨activeSessionIds, same⟩ := foldl_loadStatistic store.db.statistics.entries store
  have value :=
    get?_foldl_groups
      (fun row _ => some (stateOfStatistic row))
      (fun states (entry : String × Statistic) other =>
        get?_set states entry.1 other (stateOfStatistic entry.2))
      store.db.statistics store.sessionStates sessionUuid
  simp only [loadSessionStates, same, lastSeqOf, value]
  cases store.db.statistics.get? sessionUuid with
  | none => simp [empty]
  | some row => rfl

theorem reopens_reopened : Reopens store store.reopened := by
  have lastSeq := fun sessionUuid =>
    @lastSeqOf_loadSessionStates { unloaded store.maxBufferSize store.db with
      nextId := store.nextId
      accepted := store.accepted } rfl sessionUuid
  obtain ⟨activeSessionIds, same⟩ :=
    foldl_loadStatistic store.db.statistics.entries
      { unloaded store.maxBufferSize store.db with
        nextId := store.nextId
        accepted := store.accepted }
  have loaded : store.reopened = _ := same
  exact ⟨by rw [loaded]; rfl, by rw [loaded]; rfl, by rw [loaded], by rw [loaded], lastSeq⟩

end TranscriptStore

end SessionHistory
