import AieClaw.TranscriptStoreBatch

/-!
# No accepted message is lost

While every batch commits, the rows of the database followed by the buffer are
the accepted messages in their order. Whatever fails, no message is stored
twice and the statistics stay true of the rows.
-/

namespace SessionHistory

open TransitionSystem List

/-- The numbers from one to `last`. -/
def upTo (last : ℤ) : List ℤ := (List.range last.toNat).map fun index : ℕ => (index : ℤ) + 1

theorem upTo_add_one (count : ℕ) : upTo (count + 1 : ℤ) = upTo count ++ [(count : ℤ) + 1] := by
  have next : ((count : ℤ) + 1).toNat = count + 1 := by
    omega
  simp [upTo, next, range_succ]

theorem max?_upTo {count : ℕ} (positive : 0 < count) : (upTo count).max? = some (count : ℤ) := by
  rw [max?_eq_some_iff]
  constructor
  · simp only [upTo, Int.toNat_natCast, mem_map, mem_range]
    exact ⟨count - 1, by omega, by omega⟩
  · intro number member
    simp only [upTo, Int.toNat_natCast, mem_map, mem_range] at member
    obtain ⟨index, below, rfl⟩ := member
    omega

namespace TranscriptStore

/-- What holds of a store whatever its transactions end in. -/
structure Consistent (store : TranscriptStore) : Prop where
  placed : (ledger store.db.rows ++ ledger store.buffer).Sublist (ledger store.accepted)
  ids : store.accepted.map StoredMessage.id = List.range store.nextId
  counted : Counted store.db

/-- What holds of a store while every batch commits. -/
structure Complete (store : TranscriptStore) : Prop where
  consistent : Consistent store
  placed : ledger store.db.rows ++ ledger store.buffer = ledger store.accepted
  lastSeq : ∀ sessionUuid,
    store.lastSeqOf sessionUuid = (ofSession sessionUuid (ledger store.accepted)).length
  numbered : ∀ sessionUuid,
    (ofSession sessionUuid (ledger store.accepted)).map LedgerEntry.seq =
      upTo (ofSession sessionUuid (ledger store.accepted)).length

/--
Every accepted message is in the buffer or else in the database, nothing is
stored twice, the numbers of every session run from one to its last number, and
every statistic row aggregates the rows of its session.
-/
structure LosesNothing (store : TranscriptStore) : Prop where
  placed : ∀ message ∈ store.accepted,
    Xor
      (message.entry ∈ ledger store.buffer)
      (message.entry ∈ ledger store.db.rows)
  once : ((ledger store.db.rows ++ ledger store.buffer).map LedgerEntry.id).Nodup
  numbered : ∀ sessionUuid,
    (store.accepted.filter fun message =>
        message.sessionUuid = sessionUuid).map StoredMessage.seq =
      upTo (store.lastSeqOf sessionUuid)
  counted : Counted store.db

variable {source target store : TranscriptStore}

section

variable (consistent : Consistent source)
include consistent

theorem Consistent.of_sameLedgers (same : SameLedgers source target) : Consistent target where
  placed := by
    rw [same.rows, same.buffer, same.accepted]
    exact consistent.placed
  ids := by
    rw [same.accepted, same.nextId]
    exact consistent.ids
  counted := consistent.counted.congr same.rows same.statistics

theorem Consistent.of_accepts {message : StoredMessage}
    (accepts : Accepts source target message) : Consistent target where
  placed := by
    rw [accepts.rows, accepts.buffer, accepts.accepted, ledger_append, ← append_assoc]
    exact consistent.placed.append (.refl _)
  ids := by
    rw [accepts.accepted, accepts.nextId, map_append, consistent.ids,
      range_succ, map_singleton, accepts.id]
  counted := consistent.counted.congr accepts.rows accepts.statistics

theorem Consistent.of_records (records : Records source target) : Consistent target := by
  obtain same | ⟨message, accepts⟩ := records
  · exact consistent.of_sameLedgers same
  · exact consistent.of_accepts accepts

theorem Consistent.of_commits (commits : CommitsBuffer source target) : Consistent target where
  placed := by
    rw [commits.rows, commits.buffer, commits.accepted, append_nil]
    exact consistent.placed
  ids := by
    rw [commits.accepted, commits.nextId]
    exact consistent.ids
  counted := commits.counted consistent.counted

theorem Consistent.of_emptied (db : target.db = source.db)
    (buffer : target.buffer = []) (accepted : target.accepted = source.accepted)
    (nextId : target.nextId = source.nextId) : Consistent target where
  placed := by
    rw [db, buffer, accepted, ledger_nil, append_nil]
    exact (sublist_append_left _ _).trans consistent.placed
  ids := by
    rw [accepted, nextId]
    exact consistent.ids
  counted := by
    rw [db]
    exact consistent.counted

end

theorem Consistent.flush (consistent : Consistent store) (host : Host) (outcome : Outcome) :
    Consistent (store.flush host outcome) := by
  by_cases commits : store.buffer ≠ [] → outcome = .committed
  · exact consistent.of_commits (commitsBuffer_flush host commits)
  · obtain ⟨nonempty, fails⟩ := Classical.not_imp.mp commits
    have drops := dropsBuffer_flush host fails nonempty
    exact consistent.of_emptied drops.db drops.buffer drops.accepted drops.nextId

theorem Consistent.reopened (consistent : Consistent store) : Consistent store.reopened := by
  have reopens := reopens_reopened store
  exact consistent.of_emptied reopens.db reopens.buffer reopens.accepted reopens.nextId

theorem ledger_buffer_flush (host : Host) (outcome : Outcome) (store : TranscriptStore) :
    ledger (store.flush host outcome).buffer = [] := by
  by_cases commits : store.buffer ≠ [] → outcome = .committed
  · exact (commitsBuffer_flush host commits).buffer
  · obtain ⟨nonempty, fails⟩ := Classical.not_imp.mp commits
    rw [(dropsBuffer_flush host fails nonempty).buffer, ledger_nil]

theorem perform_induction {host : Host} {turn : Turn} {action : TranscriptAction}
    {holds : TranscriptStore → Prop} (recorded : holds (store.record host turn action))
    (flushed : store.flushes (store.record host turn action) action = true →
      holds ((store.record host turn action).flush host turn.outcome))
    (reopened : ∀ {flushed : TranscriptStore}, ledger flushed.buffer = [] → holds flushed →
      holds flushed.reopened) :
    holds (store.perform host turn action) := by
  have afterFlush : holds (if store.flushes (store.record host turn action) action then
          (store.record host turn action).flush host turn.outcome
        else
          store.record host turn action) := by
    split
    case isTrue needed => exact flushed needed
    case isFalse => exact recorded
  cases action with
  | reopen => exact reopened (ledger_buffer_flush host turn.outcome _) afterFlush
  | _ => exact afterFlush

theorem consistent_step (host : Host) : Preserves (TranscriptStep host) Consistent := by
  intro store taken target performed consistent
  obtain ⟨turn, action⟩ := taken
  obtain rfl := performed
  have recorded : Consistent (store.record host turn action) :=
    consistent.of_records (records_record host turn store action)
  exact perform_induction recorded (fun _ => recorded.flush host turn.outcome)
    (fun _ flushed => flushed.reopened)

theorem consistent_initial ⦃store : TranscriptStore⦄ (isInitial : IsInitial store) :
    Consistent store := by
  obtain ⟨maxBufferSize, rfl⟩ := isInitial
  refine ⟨List.Sublist.refl [], rfl, fun sessionUuid => ?_⟩
  rfl

theorem counted_of_reachable {host : Host}
    (reachable : Reachable (TranscriptStep host) IsInitial store) : Counted store.db :=
  (reachable.invariant consistent_initial (consistent_step host)).counted

theorem nodup_accepted (consistent : Consistent store) :
    ((ledger store.accepted).map LedgerEntry.id).Nodup := by
  have ids : (ledger store.accepted).map LedgerEntry.id = List.range store.nextId := by
    rw [← consistent.ids, ledger, map_map]
    rfl
  rw [ids]
  exact nodup_range

theorem once_of_consistent (consistent : Consistent store) :
    ((ledger store.db.rows ++ ledger store.buffer).map LedgerEntry.id).Nodup :=
  (consistent.placed.map LedgerEntry.id).nodup (nodup_accepted consistent)

/--
Whatever fails, what is stored was accepted, in its order, no message twice, and
the statistics are true.
-/
theorem storedInOrder_of_reachable {host : Host}
    (reachable : Reachable (TranscriptStep host) IsInitial store) :
    (ledger store.db.rows ++ ledger store.buffer).Sublist (ledger store.accepted) ∧
      ((ledger store.db.rows ++ ledger store.buffer).map LedgerEntry.id).Nodup ∧
        Counted store.db := by
  have consistent := reachable.invariant consistent_initial (consistent_step host)
  exact ⟨consistent.placed, once_of_consistent consistent, counted_of_reachable reachable⟩

section

variable (complete : Complete source)
include complete

theorem Complete.of_sameLedgers (same : SameLedgers source target) : Complete target where
  consistent := complete.consistent.of_sameLedgers same
  placed := by
    rw [same.rows, same.buffer, same.accepted]
    exact complete.placed
  lastSeq := by
    intro sessionUuid
    rw [same.lastSeq, same.accepted]
    exact complete.lastSeq sessionUuid
  numbered := by
    rw [same.accepted]
    exact complete.numbered

theorem Complete.of_accepts {message : StoredMessage}
    (accepts : Accepts source target message) : Complete target := by
  have added : ∀ sessionUuid, ofSession sessionUuid (ledger target.accepted) =
        ofSession sessionUuid (ledger source.accepted) ++
          ofSession sessionUuid [message.entry] := by
    intro sessionUuid
    rw [accepts.accepted, ledger_append, ofSession_append]
    rfl
  refine ⟨complete.consistent.of_accepts accepts, ?_, fun sessionUuid => ?_, fun sessionUuid => ?_⟩
  · rw [accepts.rows, accepts.buffer, accepts.accepted, ledger_append,
      ← append_assoc, complete.placed]
    rfl
  · rw [accepts.lastSeq, added, complete.lastSeq, length_append]
    by_cases same : sessionUuid = message.sessionUuid
    · simp [same, ofSession, StoredMessage.entry]
    · have differs : ¬ message.sessionUuid = sessionUuid := fun equal => same equal.symm
      simp [same, differs, ofSession, StoredMessage.entry]
  · rw [added, map_append, length_append]
    have before := complete.numbered sessionUuid
    by_cases same : message.sessionUuid = sessionUuid
    · have number : message.seq = (ofSession sessionUuid (ledger source.accepted)).length + 1 := by
        rw [accepts.seq, same, complete.lastSeq]
      have one : ofSession sessionUuid [message.entry] = [message.entry] := by
        simp [ofSession, StoredMessage.entry, same]
      rw [one, before, length_singleton, Nat.cast_succ, upTo_add_one, ← number]
      rfl
    · simpa [ofSession, StoredMessage.entry, same] using before

theorem Complete.of_records (records : Records source target) : Complete target := by
  obtain same | ⟨message, accepts⟩ := records
  · exact complete.of_sameLedgers same
  · exact complete.of_accepts accepts

theorem Complete.of_commits (commits : CommitsBuffer source target) : Complete target where
  consistent := complete.consistent.of_commits commits
  placed := by
    rw [commits.rows, commits.buffer, commits.accepted, append_nil]
    exact complete.placed
  lastSeq := by
    intro sessionUuid
    rw [commits.lastSeq, commits.accepted]
    exact complete.lastSeq sessionUuid
  numbered := by
    rw [commits.accepted]
    exact complete.numbered

end

theorem lastSeq_statistic (complete : Complete store) (empty : ledger store.buffer = [])
    (sessionUuid : String) : ((store.db.statistics.get? sessionUuid).map Statistic.lastSeq).getD 0 =
      (ofSession sessionUuid (ledger store.accepted)).length := by
  have whole : ledger store.db.rows = ledger store.accepted := by
    rw [← complete.placed, empty, append_nil]
  have counted := complete.consistent.counted sessionUuid
  rw [whole] at counted
  cases found : store.db.statistics.get? sessionUuid with
  | none =>
    rw [found] at counted
    have noEntry : ofSession sessionUuid (ledger store.accepted) = [] := counted
    simp [noEntry]
  | some statistic =>
    rw [found] at counted
    have greatest := counted.lastSeq
    rw [complete.numbered] at greatest
    have positive : 0 < (ofSession sessionUuid (ledger store.accepted)).length := by
      apply length_pos_iff.mpr
      intro noEntry
      simp [noEntry, upTo] at greatest
    rw [max?_upTo positive] at greatest
    exact (Option.some.inj greatest).symm

theorem Complete.reopened (complete : Complete store) (empty : ledger store.buffer = []) :
    Complete store.reopened := by
  have reopens := reopens_reopened store
  refine ⟨complete.consistent.reopened, ?_, fun sessionUuid => ?_, ?_⟩
  · rw [reopens.db, reopens.buffer, reopens.accepted, ← complete.placed, empty, ledger_nil]
  · rw [reopens.lastSeq, reopens.accepted]
    exact lastSeq_statistic complete empty sessionUuid
  · rw [reopens.accepted]
    exact complete.numbered

end TranscriptStore

/-- A batch that the action writes is committed. -/
def CommitsBatches (host : Host) (store : TranscriptStore)
    (taken : Turn × TranscriptAction) : Prop :=
  store.flushes (store.record host taken.1 taken.2) taken.2 = true →
  (store.record host taken.1 taken.2).buffer ≠ [] →
  taken.1.outcome = .committed

namespace TranscriptStore

theorem complete_step (host : Host) :
    Preserves (Restricted (TranscriptStep host) (CommitsBatches host))
      Complete := by
  intro store taken target performed complete
  obtain ⟨turn, action⟩ := taken
  obtain ⟨commits, rfl⟩ := performed
  have recorded : Complete (store.record host turn action) :=
    complete.of_records (records_record host turn store action)
  exact perform_induction recorded
    (fun flushes => recorded.of_commits (commitsBuffer_flush host (commits flushes)))
    (fun empty flushed => flushed.reopened empty)

variable {store : TranscriptStore}

theorem complete_initial (isInitial : IsInitial store) : Complete store := by
  have consistent := consistent_initial isInitial
  obtain ⟨maxBufferSize, rfl⟩ := isInitial
  exact ⟨consistent, rfl, fun _ => rfl, fun _ => rfl⟩

theorem losesNothing_of_complete (complete : Complete store) : LosesNothing store := by
  have once := once_of_consistent complete.consistent
  refine ⟨fun message accepted => ?_, once, fun sessionUuid => ?_, complete.consistent.counted⟩
  · have stored : message.entry ∈ ledger store.db.rows ++ ledger store.buffer := by
      rw [complete.placed]
      exact mem_map_of_mem accepted
    have apart := (nodup_append'.mp (List.Nodup.of_map _ once)).2.2
    rcases mem_append.mp stored with inRows | inBuffer
    · exact .inr ⟨inRows, fun inBuffer => apart inRows inBuffer⟩
    · exact .inl ⟨inBuffer, fun inRows => apart inRows inBuffer⟩
  · rw [complete.lastSeq, ← complete.numbered, ofSession_ledger, ledger, map_map]
    rfl

/-- Fewer messages are in the database and the buffer than were accepted. -/
def Loses (store : TranscriptStore) : Prop :=
  (ledger store.db.rows ++ ledger store.buffer).length < store.accepted.length

/-- Every accepted message is in the buffer or in the database, and not in both. -/
def KeepsAccepted (store : TranscriptStore) : Prop :=
  ∀ message ∈ store.accepted,
    Xor (message.entry ∈ ledger store.buffer) (message.entry ∈ ledger store.db.rows)

theorem not_keepsAccepted_of_loses (consistent : Consistent store) (loses : Loses store) :
    ¬ store.KeepsAccepted := by
  intro kept
  have distinct : (ledger store.accepted).Nodup := .of_map _ (nodup_accepted consistent)
  have stored : ledger store.accepted ⊆ ledger store.db.rows ++ ledger store.buffer := by
    intro entry isAccepted
    obtain ⟨message, isMessage, rfl⟩ := mem_map.mp isAccepted
    exact mem_append.mpr (kept message isMessage).or.symm
  have fits := Nodup.length_le_of_subset distinct stored
  rw [ledger, length_map] at fits
  exact absurd loses (Nat.not_lt.mpr fits)

theorem loses_of_emptied {target : TranscriptStore} (complete : Complete store)
    (nonempty : store.buffer ≠ []) (rows : target.db = store.db) (buffer : target.buffer = [])
    (accepted : target.accepted = store.accepted) : Loses target := by
  have buffered := length_pos_iff.mpr nonempty
  have placed := congrArg length complete.placed
  simp only [Loses, ledger, length_append, length_map, rows, buffer, accepted, length_nil]
    at placed ⊢
  omega

theorem loses_perform {host : Host} {turn : Turn} {action : TranscriptAction}
    (complete : Complete store) (fails : ¬ CommitsBatches host store (turn, action)) :
    Loses (store.perform host turn action) := by
  have recorded : Complete (store.record host turn action) :=
    complete.of_records (records_record host turn store action)
  simp only [CommitsBatches, Classical.not_imp] at fails
  obtain ⟨flushes, nonempty, fails⟩ := fails
  have drops := dropsBuffer_flush host fails nonempty
  simp only [perform, flushes, if_true]
  cases action with
  | reopen =>
    have reopens := reopens_reopened ((store.record host turn .reopen).flush host turn.outcome)
    exact loses_of_emptied recorded nonempty (reopens.db.trans drops.db) reopens.buffer
      (reopens.accepted.trans drops.accepted)
  | _ => exact loses_of_emptied recorded nonempty drops.db drops.buffer drops.accepted

/-- A lost message stays lost. -/
theorem loses_step (host : Host) : Preserves (TranscriptStep host) Loses := by
  intro store taken target performed loses
  obtain ⟨turn, action⟩ := taken
  obtain rfl := performed
  have recorded : Loses (store.record host turn action) := by
    obtain same | ⟨message, accepts⟩ := records_record host turn store action
    · rwa [Loses, same.rows, same.buffer, same.accepted]
    · rw [Loses, accepts.rows, accepts.buffer, accepts.accepted, ← append_assoc]
      simpa only [Loses, length_append, length_singleton, Nat.add_lt_add_iff_right] using loses
  refine perform_induction recorded (fun _ => ?_) fun empty flushed => ?_
  · by_cases commits : (store.record host turn action).buffer ≠ [] → turn.outcome = .committed
    · have writes := commitsBuffer_flush host commits
      rwa [Loses, writes.rows, writes.buffer, writes.accepted, append_nil]
    · obtain ⟨nonempty, fails⟩ := Classical.not_imp.mp commits
      have drops := dropsBuffer_flush host fails nonempty
      rw [Loses, drops.db, drops.buffer, drops.accepted, ledger_nil, append_nil]
      exact ((sublist_append_left ..).length_le).trans_lt recorded
  · have reopens := reopens_reopened ‹TranscriptStore›
    rwa [Loses, reopens.db, reopens.buffer, reopens.accepted, ledger_nil, ← empty]

/--
A run from the start keeps every accepted message exactly when each of its batches
commits, and then its numbers and statistics are true as well.
-/
theorem losesNothing_iff_commits {host : Host} {start finish : TranscriptStore}
    {actions : List (Turn × TranscriptAction)} (isInitial : IsInitial start)
    (run : Run (TranscriptStep host) start actions finish) :
    (finish.KeepsAccepted ↔
        Run (Restricted (TranscriptStep host) (CommitsBatches host)) start actions finish) ∧
      (finish.LosesNothing ↔
        Run (Restricted (TranscriptStep host) (CommitsBatches host)) start actions finish) := by
  have atStart := complete_initial isInitial
  have consistent := run.invariant (consistent_step host) atStart.consistent
  have keeps : ∀ {actions middle},
      Run (Restricted (TranscriptStep host) (CommitsBatches host)) start actions middle →
      middle.Complete :=
    fun committed => committed.invariant (complete_step host) atStart
  have either : Run (Restricted (TranscriptStep host) (CommitsBatches host)) start actions
      finish ∨ finish.Loses := by
    clear consistent
    induction run with
    | refl => exact .inl .refl
    | @snoc middle finish actions taken run last inductionHypothesis =>
      obtain committed | loses := inductionHypothesis
      · by_cases commits : CommitsBatches host middle taken
        · exact .inl (committed.snoc ⟨commits, last⟩)
        · obtain rfl := last
          exact .inr (loses_perform (keeps committed) commits)
      · exact .inr (loses_step host last loses)
  have commits (kept : finish.KeepsAccepted) :
      Run (Restricted (TranscriptStep host) (CommitsBatches host)) start actions finish :=
    either.resolve_right fun loses => not_keepsAccepted_of_loses consistent loses kept
  have nothingLost (committed :
      Run (Restricted (TranscriptStep host) (CommitsBatches host)) start actions finish) :
      finish.LosesNothing :=
    losesNothing_of_complete (keeps committed)
  exact ⟨⟨commits, fun committed => (nothingLost committed).placed⟩,
    fun lost => commits lost.placed, nothingLost⟩

end TranscriptStore

/--
In every run whose batches all commit, no accepted message is lost, the numbers
of every session have no gap and no duplicate, and the statistics are true.
-/
theorem losesNothing_of_run {host : Host} {start finish : TranscriptStore}
    {actions : List (Turn × TranscriptAction)} (isInitial : IsInitial start)
    (run : Run (Restricted (TranscriptStep host) (CommitsBatches host)) start actions finish) :
    finish.LosesNothing :=
  TranscriptStore.losesNothing_of_complete
    (run.invariant (TranscriptStore.complete_step host)
      (TranscriptStore.complete_initial isInitial))

/-- A host that writes every value alike and parses nothing. -/
private def plainHost : Host where
  stringify := fun _ => "{}"
  stringifyIndented := fun _ => "{}"
  parse := fun _ => none
  numberToString := fun _ => "0"
  randomUUID := fun _ => "uuid"
  toDateStr := fun _ => "2026-01-01"

private def finalText (outcome : Outcome) : Turn × TranscriptAction :=
  ({ now := 1, backfillFails := false, outcome := outcome },
    .recordAssistantFinal "agent:main:u1" "run-1" "hello" 1)

private def timedFlush (outcome : Outcome) : Turn × TranscriptAction :=
  ({ now := 4, backfillFails := false, outcome := outcome }, .flush)

private def recordedStore (outcome : Outcome) : TranscriptStore :=
  (TranscriptStore.initial 100).perform plainHost (finalText outcome).1 (finalText outcome).2

private def flushedStore (outcome : Outcome) : TranscriptStore :=
  (recordedStore outcome).perform plainHost (timedFlush outcome).1 (timedFlush outcome).2

/-- A message that is recorded and then flushed in a committed batch. -/
theorem losesNothing_of_run_flushed :
    (flushedStore .committed).db.rows.length = 1 ∧ (flushedStore .committed).LosesNothing := by
  have records : Restricted (TranscriptStep plainHost) (CommitsBatches plainHost)
        (.initial 100) (finalText .committed) (recordedStore .committed) :=
    ⟨fun _ _ => rfl, rfl⟩
  have flushes : Restricted (TranscriptStep plainHost) (CommitsBatches plainHost)
        (recordedStore .committed) (timedFlush .committed) (flushedStore .committed) :=
    ⟨fun _ _ => rfl, rfl⟩
  exact ⟨by decide +kernel, losesNothing_of_run ⟨100, rfl⟩ ((Run.single records).snoc flushes)⟩

private theorem run_rolledBack : Run (TranscriptStep plainHost) (.initial 100)
    [finalText .rolledBack, timedFlush .rolledBack] (flushedStore .rolledBack) :=
  (Run.single rfl).snoc rfl

theorem losesNothing_iff_commits_rolledBack : (flushedStore .rolledBack).KeepsAccepted ↔
    Run (Restricted (TranscriptStep plainHost) (CommitsBatches plainHost)) (.initial 100)
      [finalText .rolledBack, timedFlush .rolledBack] (flushedStore .rolledBack) :=
  (TranscriptStore.losesNothing_iff_commits ⟨100, rfl⟩ run_rolledBack).1

private def secondText : Turn × TranscriptAction :=
  ({ now := 5, backfillFails := false, outcome := .committed },
    .recordAssistantFinal "agent:main:u1" "run-2" "again" 5)

private def secondStore : TranscriptStore :=
  (flushedStore .committed).perform plainHost secondText.1 secondText.2

/-- The store after a batch that was committed and another one that was rolled back. -/
private def mixedStore : TranscriptStore :=
  secondStore.perform plainHost (timedFlush .rolledBack).1 (timedFlush .rolledBack).2

private theorem run_mixed : Run (TranscriptStep plainHost) (.initial 100)
    [finalText .committed, timedFlush .committed, secondText, timedFlush .rolledBack]
    mixedStore :=
  (((Run.single rfl).snoc rfl).snoc rfl).snoc rfl

theorem storedInOrder_of_reachable_rolledBack :
    mixedStore.accepted.length = 2 ∧ mixedStore.db.rows.length = 1 ∧
      (ledger mixedStore.db.rows ++ ledger mixedStore.buffer).Sublist
        (ledger mixedStore.accepted) ∧
      TranscriptStore.Counted mixedStore.db := by
  obtain ⟨stored, -, counted⟩ :=
    TranscriptStore.storedInOrder_of_reachable ⟨_, _, ⟨100, rfl⟩, run_mixed⟩
  exact ⟨by decide +kernel, by decide +kernel, stored, counted⟩

/-- A batch that is rolled back leaves its message in neither place. -/
theorem not_losesNothing_of_rolledBack :
    ¬ ∀ (host : Host) (start finish : TranscriptStore)
        (actions : List (Turn × TranscriptAction)),
        IsInitial start →
        Run (TranscriptStep host) start actions finish →
        finish.LosesNothing := by
  intro always
  have records : TranscriptStep plainHost (.initial 100) (finalText .rolledBack)
        (recordedStore .rolledBack) := rfl
  have flushes : TranscriptStep plainHost (recordedStore .rolledBack)
        (timedFlush .rolledBack) (flushedStore .rolledBack) := rfl
  have nothingLost := always plainHost _ _ _ ⟨100, rfl⟩ ((Run.single records).snoc flushes)
  have accepted : (flushedStore .rolledBack).accepted.length = 1 := by
    decide +kernel
  have buffer : (flushedStore .rolledBack).buffer = [] :=
    length_eq_zero_iff.mp (by decide +kernel)
  have rows : (flushedStore .rolledBack).db.rows = [] :=
    length_eq_zero_iff.mp (by decide +kernel)
  obtain ⟨message, only⟩ := length_eq_one_iff.mp accepted
  have placed := nothingLost.placed message (by simp [only])
  simp [buffer, rows, Xor] at placed

end SessionHistory
