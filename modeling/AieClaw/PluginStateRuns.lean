import AieClaw.PluginStateLimits

/-!
# Runs of the plugin state store

Any calls by any plugins, each at its own clock reading, one after the other.
Every write that succeeds stays within its limits, a call that throws changes
nothing, and between two insertions of a key its row was deleted or expired.
-/

namespace PluginState

inductive Call where
  | register (params : RegisterParams)
  | registerIfAbsent (params : RegisterParams)
  | consume (id : EntryId)
  | delete (id : EntryId)
  | clear (pluginId namespaceName : String)
  | sweep

inductive Outcome (Value : Type) where
  | registered
  | inserted (isNew : Bool)
  | consumed (value : Option Value)
  | deleted (isDeleted : Bool)
  | cleared
  | swept (rows : ℕ)
  | thrown (error : PluginStateStoreError)

def Outcome.of {Value Result : Type} (wrap : Result → Outcome Value) :
    Except PluginStateStoreError Result → Outcome Value
  | .ok result => wrap result
  | .error error => .thrown error

section

variable {Value : Type} (parseJson : String → Option Value)

/-- What a call answers at some time, and the table afterwards. -/
def Call.perform (now : ℤ) (table : Table) : Call → Outcome Value × Table
  | .register params =>
    (.of (fun _ => .registered) (pluginStateRegister now params table).1,
      (pluginStateRegister now params table).2)
  | .registerIfAbsent params =>
    (.of .inserted (pluginStateRegisterIfAbsent now params table).1,
      (pluginStateRegisterIfAbsent now params table).2)
  | .consume id =>
    (.of .consumed (pluginStateConsume parseJson now id table).1,
      (pluginStateConsume parseJson now id table).2)
  | .delete id => (.deleted (pluginStateDelete id table).1, (pluginStateDelete id table).2)
  | .clear pluginId namespaceName => (.cleared, pluginStateClear pluginId namespaceName table)
  | .sweep =>
    (.swept (sweepExpiredPluginStateEntries now table).1,
      (sweepExpiredPluginStateEntries now table).2)

/-- A call as it happened. -/
structure Event (Value : Type) where
  now : ℤ
  call : Call
  before : Table
  outcome : Outcome Value
  after : Table

/-- The events of calls that start at a table. -/
def history : Table → List (ℤ × Call) → List (Event Value)
  | _, [] => []
  | table, (now, call) :: rest =>
    { now := now
      call := call
      before := table
      outcome := (call.perform parseJson now table).1
      after := (call.perform parseJson now table).2 } ::
      history (call.perform parseJson now table).2 rest

end

namespace Event

variable {Value : Type} (event : Event Value)

def Registers (params : RegisterParams) : Prop :=
  event.call = .register params ∧ event.outcome = .registered ∨
    event.call = .registerIfAbsent params ∧ event.outcome = .inserted true

/-- A call of `registerIfAbsent` for a key returned true. -/
def Inserts (id : EntryId) : Prop :=
  ∃ params, params.id = id ∧ event.call = .registerIfAbsent params ∧ event.outcome = .inserted true

/-- A call of `consume` for a key returned a value. -/
def Consumes (id : EntryId) : Prop :=
  event.call = .consume id ∧ ∃ value, event.outcome = .consumed (some value)

/-- The row of a key was in the table and no longer is. -/
def Deletes (id : EntryId) : Prop :=
  (∃ row, event.before.get? id = some row) ∧ event.after.get? id = none

/-- The row of a key has expired when the call reads the clock. -/
def FindsExpired (id : EntryId) : Prop :=
  ∃ row, event.before.get? id = some row ∧ row.isExpired event.now = true

end Event

/-- The answers of a call, and the tables they leave. -/
inductive Effect {Value : Type} (now : ℤ) (before : Table) :
    Call → Outcome Value → Table → Prop where
  | thrown
      (call : Call) (error : PluginStateStoreError) : Effect now before call (.thrown error) before
  | registered
      (params : RegisterParams) (after : Table) (done : Registered now params before after) :
      Effect now before (.register params) .registered after
  | inserted
      (params : RegisterParams) (after : Table) (done : Registered now params before after)
      (absent : ∀ row, before.get? params.id = some row → row.isExpired now = true) :
      Effect now before (.registerIfAbsent params) (.inserted true) after
  | present
      (params : RegisterParams) :
      Effect now before (.registerIfAbsent params) (.inserted false)
        (pruneExpiredNamespace params.id.pluginId params.id.namespaceName now before)
  | missing
      (id : EntryId) : Effect now before (.consume id) (.consumed none) before
  | consumed
      (id : EntryId) (value : Value) (row : PluginStateRow)
      (selected : selectEntry id now before = some row) :
      Effect now before (.consume id) (.consumed (some value)) (before.delete id)
  | deleted
      (id : EntryId) (isDeleted : Bool) :
      Effect now before (.delete id) (.deleted isDeleted) (before.delete id)
  | cleared
      (pluginId namespaceName : String) :
      Effect now before (.clear pluginId namespaceName) .cleared
        (clearNamespace pluginId namespaceName before)
  | swept
      (rows : ℕ) : Effect now before .sweep (.swept rows) (sweepExpired now before).2

section

variable {Value : Type} (parseJson : String → Option Value)

theorem effect_register (now : ℤ) (params : RegisterParams) (table : Table) :
    Effect now table (.register params) (Outcome.of (fun _ => (.registered : Outcome Value))
        (pluginStateRegister now params table).1) (pluginStateRegister now params table).2 := by
  cases answer : (pluginStateRegister now params table).1 with
  | error error =>
    have unchanged : (pluginStateRegister now params table).2 = table :=
      runWriteTransaction_error answer
    rw [unchanged]
    exact .thrown _ error
  | ok _ => exact .registered params _ (registered_of_register answer)

theorem table_of_not_inserted {now : ℤ} {params : RegisterParams} {table : Table}
    (returned : (pluginStateRegisterIfAbsent now params table).1 = .ok false) :
    (pluginStateRegisterIfAbsent now params table).2 =
      pruneExpiredNamespace params.id.pluginId params.id.namespaceName now table := by
  have transaction := runWriteTransaction_ok returned
  simp only [insertEntryIfAbsent] at transaction
  cases present : (pruneExpiredNamespace params.id.pluginId params.id.namespaceName now
      table).has params.id with
  | true =>
    simp only [present, if_true, Except.ok.injEq, Prod.mk.injEq, true_and] at transaction
    exact transaction.symm
  | false =>
    simp only [present, Bool.false_eq_true, if_false, one_ne_zero] at transaction
    cases enforced : enforcePostRegisterLimits params now
        ((pruneExpiredNamespace params.id.pluginId params.id.namespaceName now
          table).set params.id (params.row now)) with
    | error _ =>
      rw [enforced] at transaction
      cases transaction
    | ok kept =>
      rw [enforced, Except.map, Except.ok.injEq, Prod.mk.injEq] at transaction
      cases transaction.1

theorem effect_registerIfAbsent (now : ℤ) (params : RegisterParams) (table : Table) :
    Effect now table (.registerIfAbsent params) (Outcome.of (.inserted : Bool → Outcome Value)
        (pluginStateRegisterIfAbsent now params table).1)
      (pluginStateRegisterIfAbsent now params table).2 := by
  cases answer : (pluginStateRegisterIfAbsent now params table).1 with
  | error error =>
    have unchanged : (pluginStateRegisterIfAbsent now params table).2 = table :=
      runWriteTransaction_error answer
    rw [unchanged]
    exact .thrown _ error
  | ok isNew =>
    cases isNew with
    | false =>
      rw [table_of_not_inserted answer]
      exact .present params
    | true =>
      obtain ⟨done, absent⟩ := registered_of_inserted answer
      exact .inserted params _ done absent

theorem effect_consume (now : ℤ) (id : EntryId) (table : Table) : Effect now table (.consume id)
      (Outcome.of .consumed (pluginStateConsume parseJson now id table).1)
      (pluginStateConsume parseJson now id table).2 := by
  cases selected : selectEntry id now table with
  | none =>
    have answer : pluginStateConsume parseJson now id table = (.ok none, table) := by
      simp only [pluginStateConsume, runWriteTransaction, selected]
    rw [answer]
    exact .missing id
  | some row =>
    cases parsed : parseJson row.valueJson with
    | none =>
      have answer : pluginStateConsume parseJson now id table =
          (.error (corruptError .consume), table) := by
        simp only [pluginStateConsume, runWriteTransaction, selected, parseStoredJson,
          parsed, Except.map]
      rw [answer]
      exact .thrown _ _
    | some value =>
      have answer : pluginStateConsume parseJson now id table =
          (.ok (some value), table.delete id) := by
        simp only [pluginStateConsume, runWriteTransaction, selected, parseStoredJson,
          parsed, Except.map, deleteEntry]
      rw [answer]
      exact .consumed id value row selected

theorem effect_perform (now : ℤ) (call : Call) (table : Table) :
    Effect now table call (call.perform parseJson now table).1
      (call.perform parseJson now table).2 := by
  cases call with
  | register params => exact effect_register now params table
  | registerIfAbsent params => exact effect_registerIfAbsent now params table
  | consume id => exact effect_consume parseJson now id table
  | delete id => exact .deleted id _
  | clear pluginId namespaceName => exact .cleared pluginId namespaceName
  | sweep => exact .swept _

variable {parseJson}

theorem effect_of_mem_history {table : Table} {calls : List (ℤ × Call)}
    {event : Event Value} (member : event ∈ history parseJson table calls) :
    Effect event.now event.before event.call event.outcome event.after := by
  induction calls generalizing table with
  | nil => cases member
  | cons timed rest inductionHypothesis =>
    rcases List.mem_cons.mp member with rfl | later
    · exact effect_perform parseJson timed.1 timed.2 table
    · exact inductionHypothesis later

namespace Effect

variable {now : ℤ} {before after : Table} {call : Call} {outcome : Outcome Value}
  {id : EntryId}

section

variable (effect : Effect now before call outcome after)
include effect

theorem unchanged_of_thrown {error : PluginStateStoreError} (isThrown : outcome = .thrown error) :
    after = before := by
  cases effect with
  | thrown => rfl
  | _ => cases isThrown

theorem registered_of_success {params : RegisterParams}
    (success : call = .register params ∧ outcome = .registered ∨
        call = .registerIfAbsent params ∧ outcome = .inserted true) :
    Registered now params before after := by
  rcases success with ⟨rfl, rfl⟩ | ⟨rfl, rfl⟩
  · cases effect with
    | registered _ _ done => exact done
  · cases effect with
    | inserted _ _ done _ => exact done

theorem written_of_appears {row : PluginStateRow} (absent : before.get? id = none)
    (present : after.get? id = some row) : ∃ params : RegisterParams, params.id = id ∧
      (call = .register params ∧ outcome = .registered ∨
        call = .registerIfAbsent params ∧ outcome = .inserted true) := by
  have notKept : before.get? id ≠ some row := by
    rw [absent]
    exact Option.some_ne_none row ∘ Eq.symm
  have ofRegistered : ∀ params, Registered now params before after → params.id = id := by
    intro params done
    by_contra other
    exact notKept (done.kept (Ne.symm other) present)
  cases effect with
  | thrown => exact absurd present notKept
  | registered params _ done => exact ⟨params, ofRegistered params done, Or.inl ⟨rfl, rfl⟩⟩
  | inserted params _ done _ => exact ⟨params, ofRegistered params done, Or.inr ⟨rfl, rfl⟩⟩
  | present params => exact absurd (get?_pruneExpiredNamespace.mp present).1 notKept
  | missing => exact absurd present notKept
  | consumed other _ _ _ =>
    rw [OrderedMap.get?_delete] at present
    split at present
    · cases present
    · exact absurd present notKept
  | deleted other _ =>
    rw [OrderedMap.get?_delete] at present
    split at present
    · cases present
    · exact absurd present notKept
  | cleared => exact absurd (OrderedMap.get?_filter_eq_some_iff.mp present).1 notKept
  | swept => exact absurd (OrderedMap.get?_filter_eq_some_iff.mp present).1 notKept

end

theorem deletes_of_consumed {value : Value}
    (effect : Effect now before (.consume id) (.consumed (some value)) after) :
    (∃ row, before.get? id = some row) ∧ after.get? id = none := by
  cases effect with
  | consumed _ _ row selected =>
    refine ⟨⟨row, (Option.filter_eq_some_iff.mp selected).1⟩, ?_⟩
    rw [OrderedMap.get?_delete, if_pos rfl]

end Effect

variable {table : Table} {calls : List (ℤ × Call)}

theorem history_eq_cons {first : Event Value}
    {rest : List (Event Value)} (split : history parseJson table calls = first :: rest) :
    first.before = table ∧ ∃ laterCalls, rest = history parseJson first.after laterCalls := by
  cases calls with
  | nil => cases split
  | cons timed laterCalls =>
    rw [history, List.cons.injEq] at split
    obtain ⟨rfl, rfl⟩ := split
    exact ⟨rfl, laterCalls, rfl⟩

theorem history_eq_append {earlier later : List (Event Value)}
    (split : history parseJson table calls = earlier ++ later) :
    ∃ middle laterCalls, later = history parseJson middle laterCalls := by
  induction earlier generalizing table calls with
  | nil => exact ⟨table, calls, split.symm⟩
  | cons first rest inductionHypothesis =>
    obtain ⟨-, laterCalls, isRest⟩ := history_eq_cons split
    exact inductionHypothesis isRest.symm

theorem deleted_or_expired
    {between later : List (Event Value)} {second : Event Value} {id : EntryId}
    {row : PluginStateRow} (present : table.get? id = some row)
    (split : history parseJson table calls = between ++ second :: later)
    (inserts : second.Inserts id) :
    (∃ event ∈ between, event.Deletes id) ∨ second.FindsExpired id := by
  induction between generalizing table calls row with
  | nil =>
    obtain ⟨rfl, -⟩ := history_eq_cons split
    have member : second ∈ history parseJson second.before calls := by
      rw [split]
      exact .head _
    have effect := effect_of_mem_history member
    obtain ⟨params, rfl, isCall, isOutcome⟩ := inserts
    rw [isCall, isOutcome] at effect
    refine Or.inr ⟨row, present, ?_⟩
    cases effect with
    | inserted _ _ _ absent => exact absent row present
  | cons event rest inductionHypothesis =>
    obtain ⟨rfl, laterCalls, isRest⟩ := history_eq_cons split
    cases remains : event.after.get? id with
    | none => exact Or.inl ⟨event, .head _, ⟨row, present⟩, remains⟩
    | some kept =>
      rcases inductionHypothesis remains isRest.symm with ⟨deleting, member, deletes⟩ | expired
      · exact Or.inl ⟨deleting, .tail event member, deletes⟩
      · exact Or.inr expired

theorem written_before_consumed
    {between later : List (Event Value)} {second : Event Value} {id : EntryId}
    (absent : table.get? id = none)
    (split : history parseJson table calls = between ++ second :: later)
    (consumes : second.Consumes id) : ∃ event ∈ between, ∃ params : RegisterParams,
      params.id = id ∧ event.Registers params := by
  induction between generalizing table calls with
  | nil =>
    obtain ⟨rfl, -⟩ := history_eq_cons split
    have member : second ∈ history parseJson second.before calls := by
      rw [split]
      exact .head _
    have effect := effect_of_mem_history member
    obtain ⟨isCall, value, isOutcome⟩ := consumes
    rw [isCall, isOutcome] at effect
    obtain ⟨⟨row, present⟩, -⟩ := effect.deletes_of_consumed
    rw [absent] at present
    cases present
  | cons event rest inductionHypothesis =>
    have member : event ∈ history parseJson table calls := by
      rw [split]
      exact .head _
    have effect := effect_of_mem_history member
    obtain ⟨rfl, laterCalls, isRest⟩ := history_eq_cons split
    cases appears : event.after.get? id with
    | none =>
      obtain ⟨writing, isLater, written⟩ := inductionHypothesis appears isRest.symm
      exact ⟨writing, .tail event isLater, written⟩
    | some row =>
      obtain ⟨params, isId, success⟩ := effect.written_of_appears absent appears
      exact ⟨event, .head _, params, isId, success⟩

/--
What holds of the calls of a run: successful writes stay within their limits, a call
that throws changes nothing, between two insertions of a key its row was deleted or
expired, and a consumed value is gone, so that the next one was written afterwards.
-/
structure WithinLimits (events : List (Event Value)) : Prop where
  registered :
    ∀ event ∈ events, ∀ params, event.Registers params →
      Registered event.now params event.before event.after
  unchanged : ∀ event ∈ events, ∀ error, event.outcome = .thrown error → event.after = event.before
  insertedOnce :
    ∀ {earlier between later : List (Event Value)} {first second id},
      events = earlier ++ first :: (between ++ second :: later) →
        first.Inserts id → second.Inserts id →
          (∃ event ∈ between, event.Deletes id) ∨ second.FindsExpired id
  consumedOnce :
    ∀ {earlier between later : List (Event Value)} {first second id},
      events = earlier ++ first :: (between ++ second :: later) →
        first.Consumes id → second.Consumes id →
          first.Deletes id ∧
            ∃ event ∈ between, ∃ params : RegisterParams, params.id = id ∧ event.Registers params

/-- Every sequence of calls on an empty table stays within the limits. -/
theorem withinLimits_history (parseJson : String → Option Value) (calls : List (ℤ × Call)) :
    WithinLimits (history parseJson .empty calls) := by
  constructor
  · intro event member params success
    exact (effect_of_mem_history member).registered_of_success success
  · intro event member error isThrown
    exact (effect_of_mem_history member).unchanged_of_thrown isThrown
  · intro earlier between later first second id split inserts insertsAgain
    have member : first ∈ history parseJson .empty calls := by
      rw [split]
      exact List.mem_append_right _ List.mem_cons_self
    have effect := effect_of_mem_history member
    obtain ⟨params, isId, isCall, isOutcome⟩ := inserts
    have done := effect.registered_of_success (Or.inr ⟨isCall, isOutcome⟩)
    have present : first.after.get? id = some (params.row first.now) :=
      isId ▸ (Option.filter_eq_some_iff.mp done.written).1
    obtain ⟨middle, middleCalls, isMiddle⟩ := history_eq_append split
    obtain ⟨-, laterCalls, isRest⟩ := history_eq_cons isMiddle.symm
    exact deleted_or_expired present isRest.symm insertsAgain
  · intro earlier between later first second id split consumes consumesAgain
    have member : first ∈ history parseJson .empty calls := by
      rw [split]
      exact List.mem_append_right _ List.mem_cons_self
    have effect := effect_of_mem_history member
    obtain ⟨isCall, value, isOutcome⟩ := consumes
    rw [isCall, isOutcome] at effect
    have deletes := effect.deletes_of_consumed
    obtain ⟨middle, middleCalls, isMiddle⟩ := history_eq_append split
    obtain ⟨-, laterCalls, isRest⟩ := history_eq_cons isMiddle.symm
    exact ⟨deletes, written_before_consumed deletes.2 isRest.symm consumesAgain⟩

end

section Isolation

open OrderedMap

variable {Value : Type} {parseJson : String → Option Value} {id : EntryId} {later now : ℤ}
  {before after : Table}

def Call.names (id : EntryId) : Call → Bool
  | .register params => id.isIn params.id.pluginId params.id.namespaceName
  | .registerIfAbsent params => id.isIn params.id.pluginId params.id.namespaceName
  | .consume other => id.isIn other.pluginId other.namespaceName
  | .delete other => id.isIn other.pluginId other.namespaceName
  | .clear pluginId namespaceName => id.isIn pluginId namespaceName
  | .sweep => false

theorem ne_of_not_isIn {other : EntryId}
    (apart : id.isIn other.pluginId other.namespaceName = false) : id ≠ other := by
  rintro rfl
  rw [isIn_self] at apart
  cases apart

theorem isLive_of_le {row : PluginStateRow} (reached : now ≤ later)
    (live : row.isLive later = true) : row.isLive now = true := by
  rw [PluginStateRow.isLive, Option.all_eq_true] at live ⊢
  intro expiresAt expires
  exact decide_eq_true (reached.trans_lt (of_decide_eq_true (live expiresAt expires)))

theorem Registered.get?_elsewhere {params : RegisterParams}
    (done : Registered now params before after)
    (apart : id.isIn params.id.pluginId params.id.namespaceName = false) :
    after.get? id = before.get? id := by
  apply Option.ext
  intro row
  exact ⟨done.kept (ne_of_not_isIn apart), done.elsewhere apart⟩

theorem Effect.selectEntry_elsewhere {call : Call} {outcome : Outcome Value}
    (effect : Effect now before call outcome after) (apart : call.names id = false)
    (reached : now ≤ later) : selectEntry id later after = selectEntry id later before := by
  have ofSame (same : after.get? id = before.get? id) :
      selectEntry id later after = selectEntry id later before := by
    rw [selectEntry, selectEntry, same]
  cases effect with
  | thrown => rfl
  | missing => rfl
  | registered params after done => exact ofSame (done.get?_elsewhere apart)
  | inserted params after done _ => exact ofSame (done.get?_elsewhere apart)
  | present params =>
    refine ofSame (Option.ext fun row => ?_)
    rw [get?_pruneExpiredNamespace]
    exact and_iff_left fun inNamespace => absurd (apart.symm.trans inNamespace) Bool.false_ne_true
  | consumed other => exact ofSame (get?_delete_of_ne (ne_of_not_isIn apart))
  | deleted other => exact ofSame (get?_delete_of_ne (ne_of_not_isIn apart))
  | cleared pluginId namespaceName =>
    refine ofSame (Option.ext fun row => ?_)
    have apart : id.isIn pluginId namespaceName = false := apart
    rw [clearNamespace, get?_filter_eq_some_iff, apart]
    exact and_iff_left rfl
  | swept rows =>
    refine Option.ext fun row => ?_
    simp only [selectEntry, sweepExpired, Option.filter_eq_some_iff, get?_filter_eq_some_iff,
      isExpired_eq_not_isLive, Bool.not_not]
    exact and_congr_left fun live => and_iff_left (isLive_of_le reached live)

/-- Calls that do not name a namespace, and sweeps, leave what is live in it. -/
theorem selectEntry_foldl_perform (table : Table) (calls : List (ℤ × Call))
    (apart : ∀ timed ∈ calls, timed.2.names id = false ∧ timed.1 ≤ later) :
    selectEntry id later
        (calls.foldl (fun table timed => (timed.2.perform parseJson timed.1 table).2) table) =
      selectEntry id later table := by
  induction calls generalizing table with
  | nil => rfl
  | cons timed rest inductionHypothesis =>
    obtain ⟨⟨notNamed, reached⟩, apartRest⟩ := List.forall_mem_cons.mp apart
    rw [List.foldl_cons, inductionHypothesis _ apartRest]
    exact (effect_perform parseJson timed.1 timed.2 table).selectEntry_elsewhere notNamed reached

def cachedEntry : EntryId := ⟨"weather", "cache", "paris"⟩

theorem selectEntry_foldl_perform_swept :
    selectEntry cachedEntry 9
        ([(5, Call.clear "weather" "settings"), (7, .sweep)].foldl
          (fun table timed => (timed.2.perform some timed.1 table).2)
          (OrderedMap.empty.set cachedEntry ⟨"21", 0, some 10⟩)) =
      selectEntry cachedEntry 9 (OrderedMap.empty.set cachedEntry ⟨"21", 0, some 10⟩) :=
  selectEntry_foldl_perform _ _ (by decide +kernel)

end Isolation

end PluginState
