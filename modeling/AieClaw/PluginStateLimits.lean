import AieClaw.PluginState

/-!
# Limits of a write

A write that succeeds leaves its row live, its namespace within the maximum and
its plugin within the limit; of the other live rows of the namespace it deletes
the oldest, and as many as it takes.
-/

namespace PluginState

open OrderedMap

theorem isExpired_eq_not_isLive (now : ℤ) (row : PluginStateRow) :
    row.isExpired now = !row.isLive now := by
  unfold PluginStateRow.isExpired PluginStateRow.isLive
  cases row.expiresAt with
  | none => rfl
  | some expiresAt => simp only [Option.any_some, Option.all_some, ← decide_not, Int.not_lt]

theorem isLive_row (now : ℤ) (params : RegisterParams) : (params.row now).isLive now = true := by
  cases isTtl : params.ttlMs with
  | none => simp [PluginStateRow.isLive, RegisterParams.row, isTtl]
  | some ttlMs =>
    have positive : 0 < (ttlMs : ℕ) := ttlMs.pos
    simp only [PluginStateRow.isLive, RegisterParams.row, isTtl, Option.map_some,
      Option.all_some, decide_eq_true_eq]
    omega

variable {now : ℤ} {params : RegisterParams} {table : Table} (id : EntryId) {row : PluginStateRow}

theorem isIn_self : id.isIn id.pluginId id.namespaceName = true := by
  simp [EntryId.isIn]

theorem eq_iff_of_isIn {id other : EntryId}
    (inNamespace : other.isIn id.pluginId id.namespaceName = true) :
    other.entryKey = id.entryKey ↔ other = id := by
  simp only [EntryId.isIn, Bool.and_eq_true, decide_eq_true_eq] at inNamespace
  cases id
  cases other
  simp_all

theorem mem_otherLiveRows {id : EntryId} {entry : EntryId × PluginStateRow} :
    entry ∈ otherLiveRows id now table ↔ table.get? entry.1 = some entry.2 ∧
        entry.1.isIn id.pluginId id.namespaceName = true ∧
          entry.1 ≠ id ∧ entry.2.isLive now = true := by
  unfold otherLiveRows
  rw [List.mem_filter, get?_eq_some_iff]
  simp only [Bool.and_eq_true, decide_eq_true_eq]
  constructor
  · rintro ⟨member, inNamespace, otherKey, live⟩
    exact ⟨member, inNamespace, fun same => otherKey (same ▸ rfl), live⟩
  · rintro ⟨member, inNamespace, other, live⟩
    exact ⟨member, inNamespace, fun same => other ((eq_iff_of_isIn inNamespace).mp same), live⟩

theorem nodup_otherLiveRows (now : ℤ) (table : Table) : (otherLiveRows id now table).Nodup :=
  (List.Nodup.of_map Prod.fst table.distinctKeys).filter _

theorem countLiveNamespace_eq {id : EntryId} (stored : table.get? id = some row)
    (live : row.isLive now = true) : countLiveNamespace id.pluginId id.namespaceName now table =
      (otherLiveRows id now table).length + 1 := by
  have own : (table.entries.filter fun entry =>
      (entry.1.isIn id.pluginId id.namespaceName && entry.2.isLive now) &&
        decide (entry.1.entryKey = id.entryKey)) =
      table.entries.filter fun entry => decide (entry.1 = id) := by
    apply List.filter_congr
    rintro entry member
    by_cases same : entry.1 = id
    · have isRow : entry.2 = row := by
        have found := get?_eq_some_iff.mpr member
        rw [same, stored] at found
        exact (Option.some.inj found).symm
      simp [same, isIn_self, isRow, live]
    · cases inNamespace : entry.1.isIn id.pluginId id.namespaceName with
      | false => simp [same]
      | true =>
        have otherKey : entry.1.entryKey ≠ id.entryKey := fun isKey =>
          same ((eq_iff_of_isIn inNamespace).mp isKey)
        simp [same, otherKey]
  have once : (table.entries.filter fun entry => decide (entry.1 = id)).length = 1 := by
    have inKeys : id ∈ table.entries.map Prod.fst :=
      List.mem_map.mpr ⟨(id, row), get?_eq_some_iff.mp stored, rfl⟩
    have counted := List.count_eq_one_of_mem table.distinctKeys inKeys
    rw [List.count, List.countP_map, List.countP_eq_length_filter] at counted
    simpa [Function.comp_def, beq_eq_decide] using counted
  have others : (table.entries.filter fun entry =>
      (entry.1.isIn id.pluginId id.namespaceName && entry.2.isLive now) &&
        !decide (entry.1.entryKey = id.entryKey)) = otherLiveRows id now table := by
    apply List.filter_congr
    intro entry _
    simp only [decide_not, ne_eq, Bool.and_assoc]
    rw [Bool.and_comm (entry.2.isLive now)]
  unfold countLiveNamespace
  rw [List.length_eq_length_filter_add fun entry : EntryId × PluginStateRow =>
      decide (entry.1.entryKey = id.entryKey),
    List.filter_filter, List.filter_filter]
  simp only [Bool.and_comm (decide (_ = id.entryKey)), Bool.and_comm (!decide _), own, others, once]
  omega

theorem get?_pruneExpiredNamespace {pluginId namespaceName : String} {id : EntryId} :
    (pruneExpiredNamespace pluginId namespaceName now table).get? id = some row ↔
      table.get? id = some row ∧
        (id.isIn pluginId namespaceName = true → row.isLive now = true) := by
  unfold pruneExpiredNamespace
  rw [get?_filter_eq_some_iff, isExpired_eq_not_isLive]
  cases id.isIn pluginId namespaceName with
  | false => simp
  | true => simp

theorem otherLiveRows_pruneExpiredNamespace (now : ℤ) (table : Table) :
    otherLiveRows id now (pruneExpiredNamespace id.pluginId id.namespaceName now table) =
      otherLiveRows id now table := by
  unfold otherLiveRows pruneExpiredNamespace
  rw [entries_filter, List.filter_filter]
  apply List.filter_congr
  intro entry _
  rw [isExpired_eq_not_isLive]
  cases entry.1.isIn id.pluginId id.namespaceName with
  | false => simp
  | true =>
    cases entry.2.isLive now with
    | false => simp
    | true => simp

theorem otherLiveRows_set (row : PluginStateRow) (now : ℤ) (table : Table) :
    otherLiveRows id now (table.set id row) = otherLiveRows id now table := by
  have onward : ∀ entries : List (EntryId × PluginStateRow),
      (setEntries id row entries).filter (fun entry => entry.1.isIn id.pluginId id.namespaceName &&
            (decide (entry.1.entryKey ≠ id.entryKey) && entry.2.isLive now)) =
        entries.filter fun entry => entry.1.isIn id.pluginId id.namespaceName &&
            (decide (entry.1.entryKey ≠ id.entryKey) && entry.2.isLive now) := by
    intro entries
    induction entries with
    | nil => simp [setEntries]
    | cons entry rest inductionHypothesis =>
      rw [setEntries]
      split
      · rename_i same
        rw [List.filter_cons, List.filter_cons]
        simp [same]
      · rw [List.filter_cons, List.filter_cons, inductionHypothesis]
  exact onward table.entries

theorem get?_deleteOldestNamespace {id other : EntryId} {limit : ℕ} :
    (deleteOldestNamespace id now limit table).get? other = some row ↔ table.get? other = some row ∧
        (other, row) ∉ Oldest.oldest ageOf limit (otherLiveRows id now table) := by
  unfold deleteOldestNamespace
  rw [get?_filter_eq_some_iff, decide_eq_true_eq]

theorem otherLiveRows_deleteOldestNamespace (now : ℤ) (limit : ℕ) (table : Table) :
    (otherLiveRows id now (deleteOldestNamespace id now limit table)).length =
      (otherLiveRows id now table).length - limit := by
  rw [← Oldest.length_filter_not_mem_oldest ageOf limit (nodup_otherLiveRows id now table)]
  conv_lhs => unfold otherLiveRows deleteOldestNamespace
  rw [entries_filter, List.filter_filter]
  conv_rhs =>
    enter [1, 2]
    unfold otherLiveRows
  rw [List.filter_filter]
  congr 1
  apply List.filter_congr
  intro entry _
  rw [Bool.eq_iff_iff]
  simp only [Bool.and_eq_true, decide_eq_true_eq]
  exact and_comm

theorem deleteOldestNamespace_zero (now : ℤ) (table : Table) :
    deleteOldestNamespace id now 0 table = table := by
  apply ext
  simp [deleteOldestNamespace, Oldest.oldest]

def evicted (now : ℤ) (params : RegisterParams) (before : Table) :
    List (EntryId × PluginStateRow) :=
  Oldest.oldest ageOf
    ((otherLiveRows params.id now before).length + 1 - params.maxEntries)
    (otherLiveRows params.id now before)

/-- What a successful write leaves. -/
structure Registered (now : ℤ) (params : RegisterParams) (before after : Table) : Prop where
  written : selectEntry params.id now after = some (params.row now)
  namespaceLimit :
    countLiveNamespace params.id.pluginId params.id.namespaceName now after ≤ params.maxEntries
  pluginLimit : countLivePlugin params.id.pluginId now after ≤ maxEntriesPerPlugin
  evictedExactly :
    ∀ entry ∈ otherLiveRows params.id now before,
      (after.get? entry.1 = none ↔ entry ∈ evicted now params before)
  kept : ∀ {id row}, id ≠ params.id → after.get? id = some row → before.get? id = some row
  elsewhere :
    ∀ {id row}, id.isIn params.id.pluginId params.id.namespaceName = false →
      before.get? id = some row → after.get? id = some row

theorem enforcePostRegisterLimits_eq_ok {kept : Table}
    (enforced : enforcePostRegisterLimits params now table = .ok kept) : kept =
        deleteOldestNamespace params.id now
          (countLiveNamespace params.id.pluginId params.id.namespaceName now table -
            params.maxEntries) table ∧
      countLivePlugin params.id.pluginId now kept ≤ maxEntriesPerPlugin := by
  unfold enforcePostRegisterLimits at enforced
  extract_lets namespaceCount remaining at enforced
  split at enforced
  · cases enforced
  · rename_i withinPlugin
    have isKept : remaining = kept := Except.ok.inj enforced
    rw [← isKept]
    refine ⟨?_, Nat.le_of_not_lt withinPlugin⟩
    by_cases exceeds : namespaceCount > (params.maxEntries : ℕ)
    · simp only [remaining, if_pos exceeds, namespaceCount]
    · have none_ : countLiveNamespace params.id.pluginId params.id.namespaceName now
          table - params.maxEntries = 0 := Nat.sub_eq_zero_of_le (Nat.le_of_not_lt exceeds)
      simp only [remaining, if_neg exceeds, none_, deleteOldestNamespace_zero]

/-- A write that is within the limits. -/
theorem registered_of_enforced {before after : Table}
    (enforced : enforcePostRegisterLimits params now
          ((pruneExpiredNamespace params.id.pluginId params.id.namespaceName now
              before).set params.id (params.row now)) = .ok after) :
    Registered now params before after := by
  obtain ⟨isKept, withinPlugin⟩ := enforcePostRegisterLimits_eq_ok enforced
  have live := isLive_row now params
  have sameOthers : otherLiveRows params.id now
      ((pruneExpiredNamespace params.id.pluginId params.id.namespaceName now before).set
        params.id (params.row now)) = otherLiveRows params.id now before := by
    rw [otherLiveRows_set, otherLiveRows_pruneExpiredNamespace]
  have ownWritten : ((pruneExpiredNamespace params.id.pluginId params.id.namespaceName now
      before).set params.id (params.row now)).get? params.id = some (params.row now) :=
    get?_set_self _ _ _
  rw [countLiveNamespace_eq ownWritten live, sameOthers] at isKept
  have notDoomed : (params.id, params.row now) ∉ evicted now params before := by
    intro doomed
    exact (mem_otherLiveRows.mp (Oldest.mem_of_mem_oldest doomed)).2.2.1 rfl
  have stored : after.get? params.id = some (params.row now) := by
    rw [isKept, get?_deleteOldestNamespace, sameOthers]
    exact ⟨ownWritten, notDoomed⟩
  have ofOther : ∀ {id row}, id ≠ params.id →
      (after.get? id = some row ↔ (before.get? id = some row ∧
          (id.isIn params.id.pluginId params.id.namespaceName = true → row.isLive now = true)) ∧
          (id, row) ∉ evicted now params before) := by
    intro id row other
    rw [isKept, get?_deleteOldestNamespace, sameOthers, get?_set_of_ne other,
      get?_pruneExpiredNamespace]
    exact Iff.rfl
  constructor
  · rw [selectEntry, stored, Option.filter_some, if_pos live]
  · rw [countLiveNamespace_eq stored live, isKept, otherLiveRows_deleteOldestNamespace, sameOthers]
    have positive : 0 < (params.maxEntries : ℕ) := params.maxEntries.pos
    omega
  · exact withinPlugin
  · rintro ⟨id, row⟩ isOther
    obtain ⟨found, inNamespace, other, isLive⟩ := mem_otherLiveRows.mp isOther
    constructor
    · intro absent
      by_contra notEvicted
      have present : after.get? id = some row :=
        (ofOther other).mpr ⟨⟨found, fun _ => isLive⟩, notEvicted⟩
      rw [absent] at present
      cases present
    · intro isEvicted
      rw [Option.eq_none_iff_forall_not_mem]
      intro stays isPresent
      obtain ⟨⟨isBefore, -⟩, notEvicted⟩ := (ofOther other).mp isPresent
      cases found.symm.trans isBefore
      exact notEvicted isEvicted
  · intro id row other present
    exact ((ofOther other).mp present).1.1
  · intro id row outside found
    have other : id ≠ params.id := by
      rintro rfl
      rw [isIn_self] at outside
      cases outside
    refine (ofOther other).mpr ⟨⟨found, fun inside => ?_⟩, fun isEvicted => ?_⟩
    · rw [outside] at inside
      cases inside
    · have inside := (mem_otherLiveRows.mp (Oldest.mem_of_mem_oldest isEvicted)).2.1
      rw [outside] at inside
      cases inside

theorem runWriteTransaction_error {Result : Type}
    {write : Table → Except PluginStateStoreError (Result × Table)} {error : PluginStateStoreError}
    (thrown : (runWriteTransaction write table).1 = .error error) :
    (runWriteTransaction write table).2 = table := by
  unfold runWriteTransaction at thrown ⊢
  cases written : write table with
  | error _ => rfl
  | ok done =>
    rw [written] at thrown
    cases thrown

theorem runWriteTransaction_ok {Result : Type}
    {write : Table → Except PluginStateStoreError (Result × Table)} {result : Result}
    (returned : (runWriteTransaction write table).1 = .ok result) :
    write table = .ok (result, (runWriteTransaction write table).2) := by
  unfold runWriteTransaction at returned ⊢
  cases written : write table with
  | error _ =>
    rw [written] at returned
    cases returned
  | ok done =>
    rw [written] at returned
    cases returned
    rfl

theorem registered_of_register (returned : (pluginStateRegister now params table).1 = .ok ()) :
    Registered now params table (pluginStateRegister now params table).2 := by
  have written : (enforcePostRegisterLimits params now
      ((pruneExpiredNamespace params.id.pluginId params.id.namespaceName now table).set
        params.id (params.row now))).map (fun kept => ((), kept)) =
          .ok ((), (pluginStateRegister now params table).2) :=
    runWriteTransaction_ok returned
  cases enforced : enforcePostRegisterLimits params now
      ((pruneExpiredNamespace params.id.pluginId params.id.namespaceName now table).set
        params.id (params.row now)) with
  | error _ =>
    rw [enforced] at written
    cases written
  | ok kept =>
    rw [enforced, Except.map, Except.ok.injEq, Prod.mk.injEq] at written
    rw [← written.2]
    exact registered_of_enforced enforced

theorem registered_of_inserted
    (returned : (pluginStateRegisterIfAbsent now params table).1 = .ok true) :
    Registered now params table (pluginStateRegisterIfAbsent now params table).2 ∧
      ∀ row, table.get? params.id = some row → row.isExpired now = true := by
  have transaction := runWriteTransaction_ok returned
  simp only [insertEntryIfAbsent] at transaction
  cases present : (pruneExpiredNamespace params.id.pluginId params.id.namespaceName now
      table).has params.id with
  | true =>
    simp only [present, if_true, Except.ok.injEq, Prod.mk.injEq, Bool.false_eq_true,
      false_and] at transaction
  | false =>
    simp only [present, Bool.false_eq_true, if_false, one_ne_zero] at transaction
    have written : (enforcePostRegisterLimits params now
        ((pruneExpiredNamespace params.id.pluginId params.id.namespaceName now
          table).set params.id (params.row now))).map (fun kept => (true, kept)) =
            .ok (true, (pluginStateRegisterIfAbsent now params table).2) :=
      transaction
    cases enforced : enforcePostRegisterLimits params now
        ((pruneExpiredNamespace params.id.pluginId params.id.namespaceName now
          table).set params.id (params.row now)) with
    | error _ =>
      rw [enforced] at written
      cases written
    | ok kept =>
      rw [enforced, Except.map, Except.ok.injEq, Prod.mk.injEq] at written
      refine ⟨?_, fun row found => ?_⟩
      · rw [← written.2]
        exact registered_of_enforced enforced
      · have absent := has_eq_false_iff.mp present
        rw [isExpired_eq_not_isLive, Bool.not_eq_true', ← Bool.not_eq_true]
        intro live
        have kept := get?_pruneExpiredNamespace.mpr (⟨found, fun _ => live⟩ :
            table.get? params.id = some row ∧
              (params.id.isIn params.id.pluginId params.id.namespaceName = true →
                row.isLive now = true))
        rw [absent] at kept
        cases kept

end PluginState
