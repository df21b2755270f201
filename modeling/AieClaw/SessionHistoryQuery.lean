import AieClaw.TranscriptStore

/-!
# Paging through the history of a session

Rows of the database and messages that are still buffered are joined by id, sorted with
the newest first, cut into pages, and each page is turned round. Read from the last page
to the first the pages are the history, but messages of one time come out in the
reverse of the order in which they were listed.
-/

namespace SessionHistory

open OrderedMap List

structure HistoryRangeParams where
  sessionUuid : String
  sessionId : Option String
  from_ : Option ℚ
  to_ : Option ℚ
  page : Option ℕ
  pageSize : Option ℕ
  buffered : List StoredMessage
  resolveDisplayName : Option (String → Option String)

/-- The condition that the statement and the filter of the buffer share. -/
def HistoryRangeParams.admits (params : HistoryRangeParams) (message : StoredMessage) : Bool :=
  message.sessionUuid = params.sessionUuid &&
    params.from_.all (fun start => start ≤ message.timestamp) &&
    params.to_.all (fun stop => message.timestamp ≤ stop) &&
    params.sessionId.all fun sessionId => message.sessionId = sessionId

/--
The rows that the database returns: those that are admitted, the newest first. Rows of
one time come in an order that the statement leaves open.
-/
structure Selects (stored : List StoredMessage) (params : HistoryRangeParams)
    (rows : List StoredMessage) : Prop where
  admitted : rows.Perm (stored.filter params.admits)
  descending : rows.Pairwise fun message later => later.timestamp ≤ message.timestamp

def messagesById (messages : List StoredMessage) : OrderedMap ℕ StoredMessage :=
  messages.foldl (fun byId message => byId.set message.id message) empty

/-- A later message replaces an earlier one of its id, in its place. -/
def dedupeById (messages : List StoredMessage) : List StoredMessage :=
  (messagesById messages).values

section

variable (params : HistoryRangeParams)

def HistoryRangeParams.admittedBuffer : List StoredMessage :=
  params.buffered.filter params.admits

/-- The messages in the order in which they are listed before they are sorted. -/
def listing (rows : List StoredMessage) : List StoredMessage :=
  dedupeById (rows ++ params.admittedBuffer)

def NotOlder (message other : StoredMessage) : Prop := other.timestamp ≤ message.timestamp

instance : DecidableRel NotOlder :=
  fun message other => inferInstanceAs (Decidable (other.timestamp ≤ message.timestamp))

def merged (rows : List StoredMessage) : List StoredMessage :=
  (listing params rows).insertionSort NotOlder

structure StoredMessageWithSender where
  message : StoredMessage
  senderLabel : Option JsonValue

structure SessionStats where
  firstMsgAt : Option ℚ
  lastMsgAt : Option ℚ
  totalMsgCount : ℕ

structure HistoryRangeResult where
  messages : List StoredMessageWithSender
  total : ℕ
  page : ℕ
  pageSize : ℕ
  totalPages : ℕ
  truncated : Bool
  hasSummary : Bool
  sessionStats : SessionStats

def HistoryRangeParams.senderLabel (message : StoredMessage) :
    Option JsonValue :=
  if (message.role = .agent ∨ message.role = .assistant) ∧
      message.sourceAgentId.any JsonValue.isTruthy then
    message.sourceAgentId
  else
    match message.userId, params.resolveDisplayName with
    | some userId, some resolve =>
      if message.role = .user ∧ userId ≠ "" then (resolve userId).map JsonValue.string
      else none
    | _, _ => none

def HistoryRangeParams.sessionStats (statistics : OrderedMap String Statistic) : SessionStats :=
  let row := (statistics.get? params.sessionUuid).filter fun statistic =>
    params.sessionId.all fun sessionId => sessionId = "" || statistic.sessionId = sessionId
  match row with
  | some statistic => ⟨some statistic.firstMsgAt, some statistic.lastMsgAt, statistic.msgCount⟩
  | none => ⟨none, none, 0⟩

def HistoryRangeParams.effectivePageSize : ℕ :=
  min (params.pageSize.getD 100) 1000

end

def queryHistoryRange (statistics : OrderedMap String Statistic) (rows : List StoredMessage)
    (params : HistoryRangeParams) : HistoryRangeResult :=
  let pageSize := params.effectivePageSize
  let page := max (params.page.getD 1) 1
  let offset := (page - 1) * pageSize
  let all := merged params rows
  let total := all.length
  let messages := (all.drop offset).take pageSize
  let enriched := messages.map fun message =>
    { message := message, senderLabel := params.senderLabel message }
  { messages := enriched.reverse
    total := total
    page := page
    pageSize := pageSize
    totalPages := max ((total + pageSize - 1) / pageSize) 1
    truncated := pageSize < total
    hasSummary := all.any fun message => message.role = .summary
    sessionStats := params.sessionStats statistics }

/-- The messages of all pages, from the last page to the first. -/
def allPages (statistics : OrderedMap String Statistic) (rows : List StoredMessage)
    (params : HistoryRangeParams) : List StoredMessage :=
  (List.range (queryHistoryRange statistics rows params).totalPages).reverse.flatMap
    fun index =>
      (queryHistoryRange statistics rows { params with page := some (index + 1) }).messages.map
        StoredMessageWithSender.message

/-- The earlier message comes first, and in one moment the one with the smaller number. -/
def InOrder (message later : StoredMessage) : Prop :=
  message.timestamp < later.timestamp ∨
    (message.timestamp = later.timestamp ∧ message.seq ≤ later.seq)

/-- The admitted messages of the database and the buffer, each once and in order. -/
structure IsHistory (stored : List StoredMessage) (params : HistoryRangeParams)
    (listed : List StoredMessage) : Prop where
  sound : ∀ message ∈ listed,
    params.admits message = true ∧ (message ∈ stored ∨ message ∈ params.buffered)
  complete : ∀ message, params.admits message = true →
    (message ∈ stored ∨ message ∈ params.buffered) → message.id ∈ listed.map StoredMessage.id
  once : (listed.map StoredMessage.id).Nodup
  ordered : listed.Pairwise InOrder

variable {messages : List StoredMessage} {byId : OrderedMap ℕ StoredMessage}
  {message : StoredMessage}

theorem get?_foldl_set {id : ℕ}
    (found : (messages.foldl (fun byId message => byId.set message.id message) byId).get? id =
      some message) : byId.get? id = some message ∨ (message ∈ messages ∧ message.id = id) := by
  induction messages generalizing byId with
  | nil => exact Or.inl found
  | cons first rest inductionHypothesis =>
    rcases inductionHypothesis found with inSet | ⟨isLater, sameId⟩
    · rw [get?_set] at inSet
      split at inSet
      · rename_i isFirst
        cases inSet
        exact Or.inr ⟨.head _, isFirst.symm⟩
      · exact Or.inl inSet
    · exact Or.inr ⟨.tail _ isLater, sameId⟩

theorem get?_foldl_set_isSome {id : ℕ}
    (known : (byId.get? id).isSome ∨ id ∈ messages.map StoredMessage.id) :
    ((messages.foldl (fun byId message => byId.set message.id message) byId).get? id).isSome := by
  induction messages generalizing byId with
  | nil => simpa using known
  | cons first rest inductionHypothesis =>
    refine inductionHypothesis ?_
    rw [map_cons, mem_cons] at known
    rw [get?_set]
    split
    · exact Or.inl rfl
    · rename_i notFirst
      rcases known with old | isFirst | later
      · exact Or.inl old
      · exact absurd isFirst notFirst
      · exact Or.inr later

theorem id_of_get?_messagesById {id : ℕ} (found : (messagesById messages).get? id = some message) :
    message.id = id := by
  rcases get?_foldl_set found with inEmpty | ⟨_, sameId⟩
  · exact absurd inEmpty (by simp)
  · exact sameId

theorem mem_dedupeById_iff :
    message ∈ dedupeById messages ↔ (messagesById messages).get? message.id = some message := by
  constructor
  · intro member
    obtain ⟨id, isFound⟩ := exists_get?_of_mem_values member
    rw [id_of_get?_messagesById isFound]
    exact isFound
  · exact fun isFound => mem_values_of_get? isFound

theorem mem_of_mem_dedupeById (member : message ∈ dedupeById messages) : message ∈ messages := by
  rcases get?_foldl_set (mem_dedupeById_iff.mp member) with inEmpty | ⟨isMessage, _⟩
  · exact absurd inEmpty (by simp)
  · exact isMessage

theorem id_mem_dedupeById
    (member : message ∈ messages) : message.id ∈ (dedupeById messages).map StoredMessage.id := by
  have known : message.id ∈ messages.map StoredMessage.id := mem_map_of_mem member
  have isKnown : ((messagesById messages).get? message.id).isSome :=
    get?_foldl_set_isSome (Or.inr known)
  obtain ⟨found, isFound⟩ := Option.isSome_iff_exists.mp isKnown
  rcases get?_foldl_set isFound with inEmpty | ⟨_, sameId⟩
  · exact absurd inEmpty (by simp)
  · refine mem_map.mpr ⟨found, mem_dedupeById_iff.mpr ?_, sameId⟩
    rw [sameId]
    exact isFound

theorem ids_dedupeById (messages : List StoredMessage) :
    (dedupeById messages).map StoredMessage.id = (messagesById messages).keys := by
  rw [dedupeById, OrderedMap.values, OrderedMap.keys, map_map]
  refine map_congr_left fun entry isEntry => ?_
  exact id_of_get?_messagesById (get?_eq_some_iff.mpr isEntry)

theorem nodup_ids_dedupeById (messages : List StoredMessage) :
    ((dedupeById messages).map StoredMessage.id).Nodup := by
  rw [ids_dedupeById]
  exact (messagesById messages).distinctKeys

/-- In one moment the message with the larger number comes first. -/
def TieDescends (message later : StoredMessage) : Prop :=
  message.timestamp = later.timestamp → later.seq ≤ message.seq

instance : DecidableRel TieDescends :=
  fun message later =>
    inferInstanceAs (Decidable (message.timestamp = later.timestamp → later.seq ≤ message.seq))

theorem pairwise_orderedInsert_iff :
    (messages.orderedInsert NotOlder message).Pairwise TieDescends ↔
      (∀ later ∈ messages, TieDescends message later) ∧ messages.Pairwise TieDescends := by
  induction messages with
  | nil => simp
  | cons first rest inductionHypothesis =>
    by_cases stops : NotOlder message first
    · rw [orderedInsert_cons_of_le NotOlder rest stops, pairwise_cons]
    · rw [orderedInsert_of_not_le NotOlder rest stops, pairwise_cons,
        pairwise_cons, inductionHypothesis]
      have differs : first.timestamp ≠ message.timestamp := fun same => stops (le_of_eq same)
      have passes : TieDescends first message := fun same => absurd same differs
      have passed : TieDescends message first := fun same => absurd same.symm differs
      simp only [mem_orderedInsert, mem_cons, forall_eq_or_imp, passes, passed, true_and]
      tauto

theorem pairwise_insertionSort_iff :
    (messages.insertionSort NotOlder).Pairwise TieDescends ↔ messages.Pairwise TieDescends := by
  induction messages with
  | nil => exact Iff.rfl
  | cons first rest inductionHypothesis =>
    rw [insertionSort_cons, pairwise_orderedInsert_iff, pairwise_cons, inductionHypothesis]
    simp

instance : IsTrans StoredMessage NotOlder where
  trans _ _ _ newer older := le_trans older newer

instance : Std.Total NotOlder where
  total message other := le_total other.timestamp message.timestamp

theorem pairwise_inOrder_reverse_iff : (messages.insertionSort NotOlder).reverse.Pairwise InOrder ↔
      messages.Pairwise TieDescends := by
  rw [← pairwise_insertionSort_iff, pairwise_reverse]
  have sorted := pairwise_insertionSort NotOlder messages
  constructor
  · refine List.Pairwise.imp fun ordered same => ?_
    rcases ordered with older | ⟨_, before⟩
    · exact absurd same.symm (ne_of_lt older)
    · exact before
  · intro descends
    refine (sorted.and descends).imp fun both => ?_
    rcases lt_or_eq_of_le both.1 with older | same
    · exact Or.inl older
    · exact Or.inr ⟨same, both.2 same.symm⟩

theorem flatMap_chunks {Item : Type*} (items : List Item) (size count : ℕ) :
    ((List.range count).flatMap fun index => (items.drop (index * size)).take size) =
      items.take (count * size) := by
  induction count with
  | zero => simp
  | succ count inductionHypothesis =>
    rw [range_succ, flatMap_append, inductionHypothesis, flatMap_singleton, Nat.succ_mul, take_add]

theorem le_pages_mul {total size : ℕ} (positive : 0 < size) :
    total ≤ max ((total + size - 1) / size) 1 * size := by
  have covered : total ≤ (total + size - 1) / size * size := by
    have split := Nat.div_add_mod (total + size - 1) size
    have rest := Nat.mod_lt (total + size - 1) positive
    rw [Nat.mul_comm] at split
    omega
  exact le_trans covered (Nat.mul_le_mul_right size (le_max_left _ _))

section Pages

variable
  (statistics : OrderedMap String Statistic) (rows : List StoredMessage)
  (params : HistoryRangeParams)

theorem messages_queryHistoryRange (index : ℕ) :
    (queryHistoryRange statistics rows { params with page := some (index + 1) }).messages.map
        StoredMessageWithSender.message =
      (((merged params rows).drop (index * params.effectivePageSize)).take
        params.effectivePageSize).reverse := by
  have page : max (index + 1) 1 - 1 = index := by omega
  dsimp only [queryHistoryRange]
  rw [map_reverse, map_map, Option.getD_some, page]
  exact congrArg List.reverse (map_id _)

theorem allPages_eq (positive : params.pageSize ≠ some 0) :
    allPages statistics rows params = (merged params rows).reverse := by
  have sized : 0 < params.effectivePageSize := by
    unfold HistoryRangeParams.effectivePageSize
    cases asked : params.pageSize with
    | none => decide
    | some size =>
      rw [asked] at positive
      have sizePositive : 0 < size :=
        Nat.pos_of_ne_zero fun isZero => positive (congrArg some isZero)
      rw [Option.getD_some]
      omega
  have chunks := flatMap_chunks (merged params rows) params.effectivePageSize
    (queryHistoryRange statistics rows params).totalPages
  have all : (merged params rows).take
      ((queryHistoryRange statistics rows params).totalPages * params.effectivePageSize) =
        merged params rows :=
    take_of_length_le (le_pages_mul sized)
  rw [all] at chunks
  rw [allPages]
  simp only [messages_queryHistoryRange]
  rw [← congrArg List.reverse chunks, reverse_flatMap]
  rfl

end Pages

section History

variable
  {stored rows : List StoredMessage} {params : HistoryRangeParams} {message : StoredMessage}

theorem mem_rows_iff (selects : Selects stored params rows) :
    message ∈ rows ↔ message ∈ stored ∧ params.admits message = true := by
  rw [selects.admitted.mem_iff, mem_filter]

theorem mem_reverse_merged_iff :
    message ∈ (merged params rows).reverse ↔ message ∈ listing params rows := by
  rw [mem_reverse, merged, mem_insertionSort]

theorem admitted_of_mem_listing (selects : Selects stored params rows)
    (listed : message ∈ listing params rows) :
    params.admits message = true ∧ (message ∈ stored ∨ message ∈ params.buffered) := by
  rcases mem_append.mp (mem_of_mem_dedupeById listed) with isRow | isBuffered
  · obtain ⟨isStored, admitted⟩ := (mem_rows_iff selects).mp isRow
    exact ⟨admitted, Or.inl isStored⟩
  · obtain ⟨inBuffer, admitted⟩ := mem_filter.mp isBuffered
    exact ⟨admitted, Or.inr inBuffer⟩

theorem id_mem_listing (selects : Selects stored params rows)
    (admitted : params.admits message = true)
    (known : message ∈ stored ∨ message ∈ params.buffered) :
    message.id ∈ (listing params rows).map StoredMessage.id := by
  refine id_mem_dedupeById (mem_append.mpr ?_)
  rcases known with isStored | inBuffer
  · exact Or.inl ((mem_rows_iff selects).mpr ⟨isStored, admitted⟩)
  · exact Or.inr (mem_filter.mpr ⟨inBuffer, admitted⟩)

theorem ids_perm : ((merged params rows).reverse.map StoredMessage.id).Perm
      ((listing params rows).map StoredMessage.id) :=
  ((reverse_perm _).trans (perm_insertionSort NotOlder _)).map _

end History

/--
The pages are the history exactly when messages of one time are listed with descending
numbers: the rows as the database returns them, the buffer as it was filled.
-/
theorem isHistory_allPages_iff {stored rows : List StoredMessage}
    {params : HistoryRangeParams} (statistics : OrderedMap String Statistic)
    (selects : Selects stored params rows) (positive : params.pageSize ≠ some 0) :
    IsHistory stored params (allPages statistics rows params) ↔
      (listing params rows).Pairwise TieDescends := by
  rw [allPages_eq statistics rows params positive]
  constructor
  · intro history
    exact pairwise_inOrder_reverse_iff.mp history.ordered
  · intro descends
    refine ⟨?_, ?_, ?_, pairwise_inOrder_reverse_iff.mpr descends⟩
    · intro message listed
      exact admitted_of_mem_listing selects (mem_reverse_merged_iff.mp listed)
    · intro message admitted known
      exact ids_perm.mem_iff.mpr (id_mem_listing selects admitted known)
    · exact ids_perm.nodup_iff.mpr (nodup_ids_dedupeById _)

section Examples

def exampleMessage (id seq : ℕ) (timestamp : ℚ) : StoredMessage where
  id := id
  sessionUuid := "u"
  sessionKey := "k"
  sessionId := "s"
  userId := none
  tenantId := none
  role := .user
  content := "hello"
  timestamp := timestamp
  seq := seq
  archivedDate := none
  toolCallId := none
  toolName := none
  parentSessionUuid := none
  sourceAgentId := none

def exampleParams (pageSize : ℕ) (buffered : List StoredMessage) : HistoryRangeParams where
  sessionUuid := "u"
  sessionId := none
  from_ := none
  to_ := none
  page := none
  pageSize := some pageSize
  buffered := buffered
  resolveDisplayName := none

end Examples

/-- Two rows and a buffered message on pages of two. -/
theorem isHistory_allPages_twoPages :
    IsHistory [exampleMessage 1 1 1, exampleMessage 2 2 2]
      (exampleParams 2 [exampleMessage 3 3 3])
      (allPages empty [exampleMessage 2 2 2, exampleMessage 1 1 1]
        (exampleParams 2 [exampleMessage 3 3 3])) := by
  refine (isHistory_allPages_iff empty ⟨?_, ?_⟩ (by simp [exampleParams])).mpr ?_
  · exact List.Perm.swap _ _ _
  · decide +kernel
  · decide +kernel

/-- Two buffered messages of one moment come out with the second one first. -/
theorem not_isHistory_allPages_tie :
    ∃ (buffered rows : List StoredMessage),
      Selects [] (exampleParams 1 buffered) rows ∧
        ¬ IsHistory [] (exampleParams 1 buffered)
          (allPages empty rows (exampleParams 1 buffered)) := by
  refine ⟨[exampleMessage 1 1 5, exampleMessage 2 2 5], [], ⟨List.Perm.refl _, List.Pairwise.nil⟩,
    fun history => ?_⟩
  have ordered := history.ordered
  rw [allPages_eq _ _ _ (by simp [exampleParams])] at ordered
  have descends := pairwise_inOrder_reverse_iff.mp ordered
  revert descends
  decide +kernel

end SessionHistory
