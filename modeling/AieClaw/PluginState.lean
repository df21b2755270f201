import AieClaw.Oldest
import AieClaw.OrderedMap
import Mathlib.Data.PNat.Defs
import Mathlib.Data.Prod.Lex
import Mathlib.Data.String.Basic

/-!
# The state store of plugins

A table with a row for each key of each namespace of each plugin. A row may
expire; an expired row is as good as absent until it is deleted. Writing into a
namespace deletes its oldest live rows beyond a maximum, and is undone when the
plugin has too many live rows over all its namespaces.

Each statement reads and writes the table as one step, and a write transaction
whose body throws leaves the table as it was.
-/

namespace PluginState

/-- The primary key of the table. -/
structure EntryId where
  pluginId : String
  namespaceName : String
  entryKey : String
  deriving DecidableEq

structure PluginStateRow where
  valueJson : String
  createdAt : ℤ
  expiresAt : Option ℤ
  deriving DecidableEq

abbrev Table := OrderedMap EntryId PluginStateRow

def maxEntriesPerPlugin : ℕ := 1000

/-- `expires_at IS NULL OR expires_at > now`. -/
def PluginStateRow.isLive (now : ℤ) (row : PluginStateRow) : Bool :=
  row.expiresAt.all fun expiresAt => decide (now < expiresAt)

/-- `expires_at IS NOT NULL AND expires_at <= now`. -/
def PluginStateRow.isExpired (now : ℤ) (row : PluginStateRow) : Bool :=
  row.expiresAt.any fun expiresAt => decide (expiresAt ≤ now)

def EntryId.isIn (pluginId namespaceName : String) (id : EntryId) : Bool :=
  decide (id.pluginId = pluginId) && decide (id.namespaceName = namespaceName)

/-- `ORDER BY created_at ASC, entry_key ASC`. -/
def ageOf (entry : EntryId × PluginStateRow) : ℤ ×ₗ String :=
  toLex (entry.2.createdAt, entry.1.entryKey)

def upsertEntry (id : EntryId) (row : PluginStateRow) (table : Table) : Table := table.set id row

/-- The number of changes, and the table. -/
def insertEntryIfAbsent (id : EntryId) (row : PluginStateRow) (table : Table) : ℕ × Table :=
  if table.has id then (0, table) else (1, table.set id row)

def selectEntry (id : EntryId) (now : ℤ) (table : Table) : Option PluginStateRow :=
  (table.get? id).filter fun row => row.isLive now

/-- The number of changes, and the table. -/
def deleteEntry (id : EntryId) (table : Table) : ℕ × Table :=
  (if table.has id then 1 else 0, table.delete id)

def clearNamespace (pluginId namespaceName : String) (table : Table) : Table :=
  table.filter fun entry => !entry.1.isIn pluginId namespaceName

def pruneExpiredNamespace (pluginId namespaceName : String) (now : ℤ) (table : Table) : Table :=
  table.filter fun entry => !(entry.1.isIn pluginId namespaceName && entry.2.isExpired now)

def countLiveNamespace (pluginId namespaceName : String) (now : ℤ) (table : Table) : ℕ :=
  (table.entries.filter fun entry =>
    entry.1.isIn pluginId namespaceName && entry.2.isLive now).length

def countLivePlugin (pluginId : String) (now : ℤ) (table : Table) : ℕ :=
  (table.entries.filter fun entry =>
    decide (entry.1.pluginId = pluginId) && entry.2.isLive now).length

/-- The live rows of a namespace but for one key. -/
def otherLiveRows (id : EntryId) (now : ℤ) (table : Table) : List (EntryId × PluginStateRow) :=
  table.entries.filter fun entry =>
    entry.1.isIn id.pluginId id.namespaceName &&
      (decide (entry.1.entryKey ≠ id.entryKey) && entry.2.isLive now)

def deleteOldestNamespace (id : EntryId) (now : ℤ) (limit : ℕ) (table : Table) : Table :=
  let doomed := Oldest.oldest ageOf limit (otherLiveRows id now table)
  table.filter fun entry => decide (entry ∉ doomed)

/-- The number of changes, and the table. -/
def sweepExpired (now : ℤ) (table : Table) : ℕ × Table :=
  ((table.entries.filter fun entry => entry.2.isExpired now).length,
    table.filter fun entry => !entry.2.isExpired now)

inductive PluginStateStoreErrorCode where
  | limitExceeded
  | corrupt
  deriving DecidableEq

inductive PluginStateStoreOperation where
  | register
  | consume
  deriving DecidableEq

structure PluginStateStoreError where
  code : PluginStateStoreErrorCode
  operation : PluginStateStoreOperation
  message : String

/-- What the body returns, and the table: as it was when the body throws. -/
def runWriteTransaction {Result : Type}
    (write : Table → Except PluginStateStoreError (Result × Table)) (table : Table) :
    Except PluginStateStoreError Result × Table :=
  match write table with
  | .ok (result, next) => (.ok result, next)
  | .error error => (.error error, table)

/-- A maximum and a lifetime are at least one: the store checks them. -/
structure RegisterParams where
  id : EntryId
  valueJson : String
  maxEntries : ℕ+
  ttlMs : Option ℕ+

def RegisterParams.row (now : ℤ) (params : RegisterParams) : PluginStateRow :=
  { valueJson := params.valueJson
    createdAt := now
    expiresAt := params.ttlMs.map fun ttlMs : ℕ+ => now + ((ttlMs : ℕ) : ℤ) }

def limitExceededError (pluginId : String) : PluginStateStoreError :=
  { code := .limitExceeded
    operation := .register
    message :=
      "Plugin state for " ++ pluginId ++ " exceeds the " ++
        toString maxEntriesPerPlugin ++ " live row limit." }

def enforcePostRegisterLimits (params : RegisterParams) (now : ℤ) (table : Table) :
    Except PluginStateStoreError Table :=
  let namespaceCount := countLiveNamespace params.id.pluginId params.id.namespaceName now table
  let kept :=
    if namespaceCount > (params.maxEntries : ℕ) then
      deleteOldestNamespace params.id now (namespaceCount - params.maxEntries) table
    else table
  if countLivePlugin params.id.pluginId now kept > maxEntriesPerPlugin then
    .error (limitExceededError params.id.pluginId)
  else .ok kept

def pluginStateRegister (now : ℤ) (params : RegisterParams) :
    Table → Except PluginStateStoreError Unit × Table :=
  runWriteTransaction fun table =>
    let pruned := pruneExpiredNamespace params.id.pluginId params.id.namespaceName now table
    (enforcePostRegisterLimits params now
        (upsertEntry params.id (params.row now) pruned)).map fun kept => ((), kept)

/-- Whether the row was inserted. -/
def pluginStateRegisterIfAbsent (now : ℤ) (params : RegisterParams) :
    Table → Except PluginStateStoreError Bool × Table :=
  runWriteTransaction fun table =>
    let pruned := pruneExpiredNamespace params.id.pluginId params.id.namespaceName now table
    let (changes, inserted) := insertEntryIfAbsent params.id (params.row now) pruned
    if changes = 0 then .ok (false, inserted)
    else (enforcePostRegisterLimits params now inserted).map fun kept => (true, kept)

section

variable {Value : Type} (parseJson : String → Option Value)

def corruptError (operation : PluginStateStoreOperation) : PluginStateStoreError :=
  { code := .corrupt
    operation := operation
    message := "Plugin state entry contains corrupt JSON." }

def parseStoredJson (raw : String) (operation : PluginStateStoreOperation) :
    Except PluginStateStoreError Value :=
  match parseJson raw with
  | some value => .ok value
  | none => .error (corruptError operation)

/-- The value of the deleted row, if there was a live one. -/
def pluginStateConsume (now : ℤ) (id : EntryId) :
    Table → Except PluginStateStoreError (Option Value) × Table :=
  runWriteTransaction fun table =>
    match selectEntry id now table with
    | none => .ok (none, table)
    | some row =>
      (parseStoredJson parseJson row.valueJson .consume).map fun value =>
        (some value, (deleteEntry id table).2)

end

def pluginStateDelete (id : EntryId) (table : Table) : Bool × Table :=
  (decide ((deleteEntry id table).1 > 0), (deleteEntry id table).2)

def pluginStateClear (pluginId namespaceName : String) (table : Table) : Table :=
  clearNamespace pluginId namespaceName table

def sweepExpiredPluginStateEntries (now : ℤ) (table : Table) : ℕ × Table := sweepExpired now table

end PluginState
