import AieClaw.ExecDecisions
import AieClaw.ExecGateway

/-!
# What a recording leaves alone

Adding an entry and recording a use look an entry up by its pattern and its arguments. Here
the calls that record approvals are taken apart into single writes, and each write is compared
with the entries that it is not about.
-/

namespace ExecApprovals

open JsString List

/-- The lists of an agent become these grants, and no other agent's do. -/
def GrantsBecome (file after : ExecApprovalsFile) (agentKey : String) (grants : List Grant) :
    Prop :=
  ∀ agent, (after.agentNamed agent).grants =
    if agent = agentKey then grants else (file.agentNamed agent).grants

/-- One change of the file. -/
inductive Write where
  /-- The source is `allow-always`, or none is given. -/
  | add (pattern : String) (argPattern : Option String) (allowAlways : Bool)
  | use (used : ExecAllowlistEntry) (command : String) (resolvedPath : Option String)

inductive RecordingCall where
  | addAllowlistEntry (pattern : String) (argPattern : Option String) (allowAlways : Bool)
  | addDurableCommandApproval (commandText : String)
  | persistAllowAlwaysPatterns (patterns : List (String × Option String))
  | recordAllowlistMatchesUse
      (matched : List ExecAllowlistEntry) (command : String) (resolvedPath : Option String)

structure Recording where
  agentId : Option String
  call : RecordingCall

/-- The agent whose list a call changes. -/
def Recording.agentKey (recording : Recording) : String := recording.agentId.getD defaultAgentId

section Calls

variable (host : ApprovalsHost)

/-- `addAllowlistEntry` with the source as an option of the caller. -/
def addAllowlistEntryFrom (held : Held) (agentId : Option String) (pattern : String)
    (argPattern : Option String) (allowAlways : Bool) : Held :=
  let trimmed := trim pattern
  let trimmedArgPattern := normalizeOptionalString argPattern
  let allowlist := (agentOf held.file agentId).allowlist.getD []
  if trimmed = "" then held
  else
    match existingEntry held.file agentId pattern argPattern with
    | some existing =>
      if allowAlways = false ∨ existing.allowAlways = true then held
      else
        saveAllowlist held.file agentId (allowlist.map fun entry =>
          if entry.pattern = trimmed then
            { entry with
              argPattern := trimmedArgPattern
              allowAlways := allowAlways
              lastUsedAt := some host.now }
          else entry)
    | none =>
      saveAllowlist held.file agentId (allowlist ++
        [{ id := some (host.newId (agentId.getD defaultAgentId) allowlist.length)
           pattern := trimmed
           allowAlways := allowAlways
           commandText := none
           argPattern := trimmedArgPattern
           lastUsedAt := some host.now
           lastUsedCommand := none
           lastResolvedPath := none }])

def Write.apply (agentId : Option String) (held : Held) : Write → Held
  | .add pattern argPattern allowAlways =>
    addAllowlistEntryFrom host held agentId pattern argPattern allowAlways
  | .use used command resolvedPath =>
    recordAllowlistUse host held agentId used command resolvedPath

def Recording.perform (recording : Recording) (held : Held) : Held :=
  match recording.call with
  | .addAllowlistEntry pattern argPattern allowAlways =>
    addAllowlistEntryFrom host held recording.agentId pattern argPattern allowAlways
  | .addDurableCommandApproval commandText =>
    addDurableCommandApproval host held recording.agentId commandText
  | .persistAllowAlwaysPatterns patterns =>
    persistAllowAlwaysPatterns host held recording.agentId patterns
  | .recordAllowlistMatchesUse matched command resolvedPath =>
    recordAllowlistMatchesUse host recording.agentId command resolvedPath [] matched held

/-- The matched entries, each key once. -/
def distinctMatches : List String → List ExecAllowlistEntry → List ExecAllowlistEntry
  | _, [] => []
  | seen, used :: rest =>
    if used.pattern = "" ∨ buildAllowlistEntryMatchKey used ∈ seen then distinctMatches seen rest
    else used :: distinctMatches (buildAllowlistEntryMatchKey used :: seen) rest

/-- The writes of a call, in order. -/
def RecordingCall.writes : RecordingCall → List Write
  | .addAllowlistEntry pattern argPattern allowAlways => [.add pattern argPattern allowAlways]
  | .addDurableCommandApproval commandText =>
    if trim commandText = "" then []
    else [.add (buildDurableCommandApprovalPattern host (trim commandText)) none true]
  | .persistAllowAlwaysPatterns patterns =>
    (patterns.filter fun pattern => decide (pattern.1 ≠ "")).map fun pattern =>
      .add pattern.1 pattern.2 true
  | .recordAllowlistMatchesUse matched command resolvedPath =>
    (distinctMatches [] matched).map fun used => .use used command resolvedPath

/-- The file after some writes. -/
def afterWrites (agentId : Option String) (held : Held) (writes : List Write) : Held :=
  writes.foldl (fun held write => write.apply host agentId held) held

/-- The file after some calls, each with the clock and the ids it finds. -/
def afterRecordings (file : ExecApprovalsFile) (steps : List (ApprovalsHost × Recording)) :
    ExecApprovalsFile :=
  let start : Held := ⟨file, false⟩
  (steps.foldl (fun held taken => Recording.perform taken.1 taken.2 held) start).file

end Calls

section Frames

/-- The entries that a write is about. -/
def Write.Names (grant : Grant) : Write → Prop
  | .add pattern argPattern _ =>
    grant.pattern = trim pattern ∧ grant.argPattern = normalizeOptionalString argPattern
  | .use used _ _ => grant.pattern = used.pattern ∧ grant.argPattern = used.argPattern

/-- Entries that are not named stay as they are, in place. -/
def LeavesOthers (own : String → Grant → Prop) (file after : ExecApprovalsFile) : Prop :=
  ∀ agent (index : ℕ) grant, (file.agentNamed agent).grants[index]? = some grant →
    ¬own agent grant → (after.agentNamed agent).grants[index]? = some grant

def DistinctPairs (file : ExecApprovalsFile) : Prop :=
  ∀ agent, ((file.agentNamed agent).grants.map fun grant =>
    (grant.pattern, grant.argPattern)).Nodup

variable (host : ApprovalsHost) (agentId : Option String) (file : ExecApprovalsFile)

structure Write.IsFaithful (write : Write) : Prop where
  others : LeavesOthers
    (fun agent grant => agent = agentId.getD defaultAgentId ∧ write.Names grant) file
    (write.apply host agentId ⟨file, false⟩).file
  /-- An added entry is there, unless its pattern is blank. -/
  added : ∀ pattern argPattern allowAlways, write = .add pattern argPattern allowAlways →
    trim pattern ≠ "" →
    ∃ grant ∈ (agentOf (write.apply host agentId ⟨file, false⟩).file agentId).grants,
      write.Names grant ∧ (allowAlways = true → grant.allowAlways = true)
  distinct : DistinctPairs file → DistinctPairs (write.apply host agentId ⟨file, false⟩).file

/--
The entry found for a source is without it, and another entry has its pattern with other
arguments.
-/
def Write.RewritesNeighbour : Write → Prop
  | .add pattern argPattern allowAlways =>
    allowAlways = true ∧ trim pattern ≠ "" ∧
      (existingEntry file agentId pattern argPattern).any (fun entry => !entry.allowAlways) =
        true ∧
      ∃ grant ∈ (agentOf file agentId).grants, grant.pattern = trim pattern ∧
        grant.argPattern ≠ normalizeOptionalString argPattern
  | .use _ _ _ => False

end Frames

section Recordings

variable (host : ApprovalsHost) (file : ExecApprovalsFile)

/-- A call and every write it makes touch their own entries only. -/
structure Recording.IsFaithful (recording : Recording) : Prop where
  others : LeavesOthers
    (fun agent grant => agent = recording.agentKey ∧
      ∃ write ∈ recording.call.writes host, write.Names grant) file
    (recording.perform host ⟨file, false⟩).file
  distinct : DistinctPairs file → DistinctPairs (recording.perform host ⟨file, false⟩).file
  writes : ∀ before write after, recording.call.writes host = before ++ write :: after →
    write.IsFaithful host recording.agentId
      (afterWrites host recording.agentId ⟨file, false⟩ before).file

/-- No write of a call rewrites a neighbour of its entry. -/
def Recording.IsCareful (recording : Recording) : Prop :=
  ∀ before write after, recording.call.writes host = before ++ write :: after →
    ¬write.RewritesNeighbour recording.agentId
      (afterWrites host recording.agentId ⟨file, false⟩ before).file

/-- Every call of a sequence touches its own entries only. -/
def RecordsFaithfully (steps : List (ApprovalsHost × Recording)) : Prop :=
  ∀ before host (recording : Recording) after, steps = before ++ (host, recording) :: after →
    recording.IsFaithful host (afterRecordings file before)

/-- No call of a sequence rewrites a neighbour of its entries. -/
def RecordsCarefully (steps : List (ApprovalsHost × Recording)) : Prop :=
  ∀ before host (recording : Recording) after, steps = before ++ (host, recording) :: after →
    recording.IsCareful host (afterRecordings file before)

end Recordings

section Steps

variable {host : ApprovalsHost} {agentId : Option String} {file after : ExecApprovalsFile}
  {held : Held} {write : Write} {grants : List Grant}

theorem grantsBecome_self (file : ExecApprovalsFile) (agentKey : String) :
    GrantsBecome file file agentKey (file.agentNamed agentKey).grants := by
  intro agent
  split_ifs with same
  · rw [same]
  · rfl

theorem grantsBecome_saveAllowlist {entries : List ExecAllowlistEntry}
    (granted : entries.map ExecAllowlistEntry.grant = grants) :
    GrantsBecome file (saveAllowlist file agentId entries).file (agentId.getD defaultAgentId)
      grants := by
  subst granted
  intro agent
  simp only [ExecApprovalsFile.agentNamed, saveAllowlist, OrderedMap.get?_set]
  split_ifs with same
  · simp [ExecApprovalsAgent.grants]
  · rfl

/-- What a write does to the list of its agent. -/
structure ListFaithful (write : Write) (before grants : List Grant) : Prop where
  others : ∀ (index : ℕ) grant, before[index]? = some grant → ¬write.Names grant →
    grants[index]? = some grant
  added : ∀ pattern argPattern allowAlways, write = .add pattern argPattern allowAlways →
    trim pattern ≠ "" →
    ∃ grant ∈ grants, write.Names grant ∧ (allowAlways = true → grant.allowAlways = true)
  distinct : (before.map fun grant => (grant.pattern, grant.argPattern)).Nodup →
    (grants.map fun grant => (grant.pattern, grant.argPattern)).Nodup

theorem isFaithful_of_grantsBecome
    (become : GrantsBecome file (write.apply host agentId ⟨file, false⟩).file
      (agentId.getD defaultAgentId) grants)
    (faithful : ListFaithful write (agentOf file agentId).grants grants) :
    write.IsFaithful host agentId file where
  others agent index grant known notOwn := by
    rw [become agent]
    by_cases same : agent = agentId.getD defaultAgentId
    · rw [if_pos same]
      subst same
      exact faithful.others index grant known fun names => notOwn ⟨rfl, names⟩
    · rwa [if_neg same]
  added pattern argPattern allowAlways isAdd visible := by
    rw [agentOf_eq, become, if_pos rfl]
    exact faithful.added pattern argPattern allowAlways isAdd visible
  distinct before agent := by
    rw [become agent]
    split_ifs with same
    · exact faithful.distinct (before _)
    · exact before agent

theorem listFaithful_use (used : ExecAllowlistEntry) (command : String)
    (resolvedPath : Option String) (before : List Grant) :
    ListFaithful (.use used command resolvedPath) before before where
  others _ _ known _ := known
  added _ _ _ isAdd := by cases isAdd
  distinct known := known

theorem grantsBecome_use (used : ExecAllowlistEntry) (command : String)
    (resolvedPath : Option String) :
    GrantsBecome file
      (recordAllowlistUse host ⟨file, false⟩ agentId used command resolvedPath).file
      (agentId.getD defaultAgentId) (agentOf file agentId).grants := by
  rw [recordAllowlistUse]
  exact grantsBecome_saveAllowlist (grants_markUsed used command resolvedPath _)

/-- What the entries of one pattern become when a source is added to one of them. -/
def Grant.rewritten (pattern : String) (argPattern : Option String) (grant : Grant) : Grant :=
  if grant.pattern = trim pattern then
    { grant with argPattern := normalizeOptionalString argPattern, allowAlways := true }
  else grant

variable {pattern : String} {argPattern : Option String} {allowAlways : Bool}

/-- A rewritten list without neighbours. -/
theorem listFaithful_rewritten {existing : Grant}
    (known : existing ∈ grants) (names : (Write.add pattern argPattern true).Names existing)
    (alone : ∀ grant ∈ grants, grant.pattern = trim pattern →
      grant.argPattern = normalizeOptionalString argPattern) :
    ListFaithful (.add pattern argPattern true) grants
      (grants.map (Grant.rewritten pattern argPattern)) := by
  have samePair : ∀ grant ∈ grants, (Grant.rewritten pattern argPattern grant).pattern =
      grant.pattern ∧ (Grant.rewritten pattern argPattern grant).argPattern =
        grant.argPattern := by
    intro grant member
    rw [Grant.rewritten]
    split_ifs with samePattern
    · exact ⟨rfl, (alone grant member samePattern).symm⟩
    · exact ⟨rfl, rfl⟩
  constructor
  · intro index grant found notNamed
    rw [getElem?_map, found, Option.map_some, Grant.rewritten, if_neg]
    exact fun samePattern =>
      notNamed ⟨samePattern, alone grant (mem_of_getElem? found) samePattern⟩
  · intro _ _ _ isAdd _
    cases isAdd
    refine ⟨_, mem_map_of_mem known, ?_, fun _ => ?_⟩
    · rw [Grant.rewritten, if_pos names.1]
      exact ⟨names.1, rfl⟩
    · rw [Grant.rewritten, if_pos names.1]
  · intro distinct
    rw [map_map]
    have samePairs : grants.map ((fun grant => (grant.pattern, grant.argPattern)) ∘
        Grant.rewritten pattern argPattern) =
          grants.map fun grant => (grant.pattern, grant.argPattern) :=
      map_congr_left fun grant member =>
        Prod.ext (samePair grant member).1 (samePair grant member).2
    rwa [samePairs]

theorem listFaithful_append
    (isNew : ∀ grant ∈ grants, ¬(Write.add pattern argPattern allowAlways).Names grant) :
    ListFaithful (.add pattern argPattern allowAlways) grants
      (grants ++ [⟨trim pattern, normalizeOptionalString argPattern, allowAlways⟩]) where
  others index grant found _ := by
    rw [getElem?_append_left (List.getElem?_eq_some_iff.mp found).1, found]
  added _ _ _ isAdd _ := by
    cases isAdd
    exact ⟨_, mem_append_right _ (mem_singleton_self _), ⟨rfl, rfl⟩, id⟩
  distinct known := by
    rw [map_append, nodup_append]
    refine ⟨known, by simp, ?_⟩
    intro pair inList other isLast same
    obtain ⟨grant, member, rfl⟩ := mem_map.mp inList
    rw [map_singleton, mem_singleton] at isLast
    obtain ⟨samePattern, sameArguments⟩ := Prod.ext_iff.mp (same.trans isLast)
    exact isNew grant member ⟨samePattern, sameArguments⟩

theorem exists_of_existingEntry {existing : ExecAllowlistEntry}
    (found : existingEntry file agentId pattern argPattern = some existing) :
    existing.grant ∈ (agentOf file agentId).grants ∧
      (Write.add pattern argPattern allowAlways).Names existing.grant := by
  rw [existingEntry] at found
  have matching := find?_some found
  exact ⟨mem_map_of_mem (mem_of_find?_eq_some found), of_decide_eq_true (p := _ ∧ _) matching⟩

theorem not_names_of_existingEntry
    (missing : existingEntry file agentId pattern argPattern = none) :
    ∀ grant ∈ (agentOf file agentId).grants,
      ¬(Write.add pattern argPattern allowAlways).Names grant := by
  intro grant member names
  obtain ⟨entry, isEntry, rfl⟩ := mem_map.mp member
  rw [existingEntry, find?_eq_none] at missing
  exact missing entry isEntry (decide_eq_true names)

/-- What adding does: nothing, put an entry behind the others, or rewrite a pattern. -/
theorem add_cases (host : ApprovalsHost) (agentId : Option String) (file : ExecApprovalsFile)
    (pattern : String) (argPattern : Option String) (allowAlways : Bool) :
    (addAllowlistEntryFrom host ⟨file, false⟩ agentId pattern argPattern allowAlways =
        ⟨file, false⟩ ∧
      (trim pattern ≠ "" → ∃ existing,
        existingEntry file agentId pattern argPattern = some existing ∧
          (allowAlways = true → existing.allowAlways = true))) ∨
    (existingEntry file agentId pattern argPattern = none ∧
      GrantsBecome file
        (addAllowlistEntryFrom host ⟨file, false⟩ agentId pattern argPattern allowAlways).file
        (agentId.getD defaultAgentId) ((agentOf file agentId).grants ++
          [⟨trim pattern, normalizeOptionalString argPattern, allowAlways⟩])) ∨
    (trim pattern ≠ "" ∧ allowAlways = true ∧ ∃ existing,
      existingEntry file agentId pattern argPattern = some existing ∧
        existing.allowAlways = false ∧
      GrantsBecome file
        (addAllowlistEntryFrom host ⟨file, false⟩ agentId pattern argPattern true).file
        (agentId.getD defaultAgentId)
        ((agentOf file agentId).grants.map (Grant.rewritten pattern argPattern))) := by
  by_cases blank : trim pattern = ""
  · exact Or.inl ⟨by rw [addAllowlistEntryFrom, if_pos blank], fun visible => absurd blank visible⟩
  · cases found : existingEntry file agentId pattern argPattern with
    | none =>
      refine Or.inr (Or.inl ⟨rfl, ?_⟩)
      rw [ExecApprovalsAgent.grants, addAllowlistEntryFrom, if_neg blank, found]
      exact grantsBecome_saveAllowlist (by rw [map_append]; rfl)
    | some existing =>
      by_cases settled : allowAlways = false ∨ existing.allowAlways = true
      · refine Or.inl ⟨?_, fun _ => ⟨existing, rfl, ?_⟩⟩
        · simp only [addAllowlistEntryFrom, if_neg blank, found, if_pos settled]
        · rintro rfl
          exact settled.resolve_left Bool.noConfusion
      · have notYet := not_or.mp settled
        obtain rfl := Bool.eq_true_of_not_eq_false notYet.1
        refine Or.inr (Or.inr ⟨blank, rfl, existing, rfl, Bool.eq_false_iff.mpr notYet.2, ?_⟩)
        rw [addAllowlistEntryFrom, if_neg blank, found]
        simp only [if_neg settled]
        refine grantsBecome_saveAllowlist ?_
        rw [ExecApprovalsAgent.grants, map_map, map_map]
        refine map_congr_left fun entry _ => ?_
        simp only [Function.comp_apply, Grant.rewritten, ExecAllowlistEntry.grant]
        by_cases samePattern : entry.pattern = trim pattern
        · simp [samePattern]
        · simp [samePattern]

/-- A write touches its own entry only, unless it rewrites a neighbour. -/
theorem isFaithful_iff_not_rewritesNeighbour :
    write.IsFaithful host agentId file ↔ ¬write.RewritesNeighbour agentId file := by
  cases write with
  | use used command resolvedPath =>
    refine iff_of_true ?_ id
    exact isFaithful_of_grantsBecome (grantsBecome_use used command resolvedPath)
      (listFaithful_use used command resolvedPath _)
  | add pattern argPattern allowAlways =>
    rcases add_cases host agentId file pattern argPattern allowAlways with
      ⟨unchanged, settled⟩ | ⟨missing, become⟩ |
        ⟨visible, rfl, existing, found, notYet, become⟩
    · have become : GrantsBecome file
          ((Write.add pattern argPattern allowAlways).apply host agentId ⟨file, false⟩).file
          (agentId.getD defaultAgentId) (agentOf file agentId).grants := by
        rw [Write.apply, unchanged]
        exact grantsBecome_self file _
      refine iff_of_true (isFaithful_of_grantsBecome become ?_) ?_
      · refine ⟨fun _ _ known _ => known, fun _ _ _ isAdd visible => ?_, id⟩
        cases isAdd
        obtain ⟨existing, found, forGood⟩ := settled visible
        obtain ⟨known, names⟩ := exists_of_existingEntry found
        exact ⟨existing.grant, known, names, forGood⟩
      · rintro ⟨rfl, visible, unsettled, -⟩
        obtain ⟨existing, found, forGood⟩ := settled visible
        simp [found, forGood rfl] at unsettled
    · refine iff_of_true (isFaithful_of_grantsBecome become
        (listFaithful_append (not_names_of_existingEntry missing))) ?_
      rintro ⟨-, -, unsettled, -⟩
      simp [missing] at unsettled
    · have ⟨known, names⟩ : _ ∧ (Write.add pattern argPattern true).Names existing.grant :=
        exists_of_existingEntry found
      constructor
      · rintro faithful ⟨-, -, -, grant, member, samePattern, differs⟩
        obtain ⟨index, bound, isGrant⟩ := getElem_of_mem member
        have kept := faithful.others (agentId.getD defaultAgentId) index grant
          (by rw [← agentOf_eq, getElem?_eq_getElem bound, isGrant])
          fun own => differs own.2.2
        rw [Write.apply, become, if_pos rfl, getElem?_map, getElem?_eq_getElem bound, isGrant,
          Option.map_some, Option.some.injEq, Grant.rewritten, if_pos samePattern] at kept
        exact differs (congrArg Grant.argPattern kept).symm
      · intro alone
        refine isFaithful_of_grantsBecome become (listFaithful_rewritten known names ?_)
        intro grant member samePattern
        by_contra differs
        exact alone ⟨rfl, visible, by simp [found, notYet], grant, member, samePattern, differs⟩

end Steps

section Runs

variable {host : ApprovalsHost} {agentId : Option String} {file : ExecApprovalsFile}
  {held : Held} {own : String → Grant → Prop}

theorem addAllowlistEntryFrom_allowAlways (pattern : String) (argPattern : Option String) :
    addAllowlistEntryFrom host held agentId pattern argPattern true =
      addAllowlistEntry host held agentId pattern argPattern := by
  rw [addAllowlistEntryFrom, addAllowlistEntry]
  by_cases blank : trim pattern = ""
  · rw [if_pos blank, if_pos blank]
  · rw [if_neg blank, if_neg blank]
    cases found : existingEntry held.file agentId pattern argPattern with
    | none =>
      rw [existingEntry] at found
      simp only [found]
    | some existing =>
      rw [existingEntry] at found
      simp only [found, Bool.true_eq_false, false_or]

theorem recordAllowlistMatchesUse_eq (command : String) (resolvedPath : Option String)
    (seen : List String) (matched : List ExecAllowlistEntry) (held : Held) :
    recordAllowlistMatchesUse host agentId command resolvedPath seen matched held =
      afterWrites host agentId held
        ((distinctMatches seen matched).map fun used => .use used command resolvedPath) := by
  induction matched generalizing seen held with
  | nil => rfl
  | cons used rest inductionHypothesis =>
    rw [recordAllowlistMatchesUse, distinctMatches]
    split_ifs with skipped
    · exact inductionHypothesis seen held
    · exact inductionHypothesis _ _

theorem perform_eq_afterWrites (recording : Recording) (held : Held) :
    recording.perform host held =
      afterWrites host recording.agentId held (recording.call.writes host) := by
  obtain ⟨agentId, call⟩ := recording
  cases call with
  | addAllowlistEntry pattern argPattern allowAlways => rfl
  | addDurableCommandApproval commandText =>
    simp only [Recording.perform, RecordingCall.writes, addDurableCommandApproval]
    by_cases blank : trim commandText = ""
    · rw [if_pos blank, if_pos blank]
      rfl
    · rw [if_neg blank, if_neg blank, afterWrites, foldl_cons, foldl_nil, Write.apply,
        addAllowlistEntryFrom_allowAlways]
  | persistAllowAlwaysPatterns patterns =>
    simp only [Recording.perform, RecordingCall.writes, persistAllowAlwaysPatterns, afterWrites,
      foldl_map, Write.apply, addAllowlistEntryFrom_allowAlways]
  | recordAllowlistMatchesUse matched command resolvedPath =>
    exact recordAllowlistMatchesUse_eq command resolvedPath [] matched held

theorem file_apply (write : Write) (held : Held) :
    (write.apply host agentId held).file = (write.apply host agentId ⟨held.file, false⟩).file := by
  obtain ⟨file, saved⟩ := held
  cases write with
  | use used command resolvedPath => rfl
  | add pattern argPattern allowAlways =>
    rw [Write.apply, Write.apply, addAllowlistEntryFrom, addAllowlistEntryFrom]
    by_cases blank : trim pattern = ""
    · rw [if_pos blank, if_pos blank]
    · rw [if_neg blank, if_neg blank]
      cases existingEntry file agentId pattern argPattern with
      | none => rfl
      | some existing =>
        by_cases settled : allowAlways = false ∨ existing.allowAlways = true
        · simp only [if_pos settled]
        · simp only [if_neg settled]

theorem frame_afterWrites {writes : List Write}
    (faithful : ∀ before write after, writes = before ++ write :: after →
      write.IsFaithful host agentId (afterWrites host agentId held before).file) :
    LeavesOthers (fun agent grant => agent = agentId.getD defaultAgentId ∧
        ∃ write ∈ writes, write.Names grant) held.file
        (afterWrites host agentId held writes).file ∧
      (DistinctPairs held.file → DistinctPairs (afterWrites host agentId held writes).file) := by
  induction writes generalizing held with
  | nil => exact ⟨fun _ _ _ known _ => known, id⟩
  | cons write rest inductionHypothesis =>
    have first : write.IsFaithful host agentId held.file := faithful [] write rest rfl
    have later : ∀ before next after, rest = before ++ next :: after →
        next.IsFaithful host agentId
          (afterWrites host agentId (write.apply host agentId held) before).file :=
      fun before next after isRest => faithful (write :: before) next after (by rw [isRest]; rfl)
    obtain ⟨laterOthers, laterDistinct⟩ := inductionHypothesis later
    rw [file_apply] at laterOthers laterDistinct
    constructor
    · intro agent index grant known notOwn
      refine laterOthers agent index grant (first.others agent index grant known ?_) ?_
      · exact fun isOwn => notOwn ⟨isOwn.1, write, mem_cons_self, isOwn.2⟩
      · rintro ⟨isAgent, other, member, names⟩
        exact notOwn ⟨isAgent, other, .tail _ member, names⟩
    · exact fun distinct => laterDistinct (first.distinct distinct)

theorem isFaithful_iff_isCareful (recording : Recording) :
    recording.IsFaithful host file ↔ recording.IsCareful host file := by
  constructor
  · intro faithful before write after split
    exact isFaithful_iff_not_rewritesNeighbour.mp (faithful.writes before write after split)
  · intro careful
    have writes : ∀ before write after, recording.call.writes host = before ++ write :: after →
        write.IsFaithful host recording.agentId
          (afterWrites host recording.agentId ⟨file, false⟩ before).file :=
      fun before write after split =>
        isFaithful_iff_not_rewritesNeighbour.mpr (careful before write after split)
    obtain ⟨others, distinct⟩ := frame_afterWrites writes
    rw [← perform_eq_afterWrites] at others distinct
    exact ⟨others, distinct, writes⟩

/--
Over any sequence of calls, recording touches only the entries it is about exactly when no
write adds a source to an entry that has a neighbour: an entry of the same pattern with
other arguments.
-/
theorem recordsFaithfully_iff (file : ExecApprovalsFile)
    (steps : List (ApprovalsHost × Recording)) :
    RecordsFaithfully file steps ↔ RecordsCarefully file steps := by
  refine forall_congr' fun before => forall_congr' fun host => forall_congr' fun recording =>
    forall_congr' fun after => imp_congr_right fun _ => ?_
  exact isFaithful_iff_isCareful recording

end Runs

section Neighbours

def scriptEntry (argPattern : String) (allowAlways : Bool) : ExecAllowlistEntry where
  id := some argPattern
  pattern := "/usr/bin/python3"
  allowAlways := allowAlways
  commandText := none
  argPattern := some argPattern
  lastUsedAt := none
  lastUsedCommand := none
  lastResolvedPath := none

/-- Two scripts of one interpreter; the second was listed by hand, without a source. -/
def twoScripts : ExecApprovalsFile :=
  { emptyFile with
    agents := OrderedMap.empty.set defaultAgentId
      { policy := emptyPolicy
        allowlist := some [scriptEntry "^deploy$" true, scriptEntry "^report$" false] } }

def approveReport : Recording where
  agentId := none
  call := .persistAllowAlwaysPatterns [("/usr/bin/python3", some "^report$")]

/-- Allowing the second script for good makes the first entry another one for it. -/
theorem not_recordsFaithfully_twoScripts :
    ¬RecordsFaithfully twoScripts [(plainApprovalsHost, approveReport)] := by
  intro faithful
  have kept := (faithful [] plainApprovalsHost approveReport [] rfl).others defaultAgentId 0
    (scriptEntry "^deploy$" true).grant (by decide +kernel) (by
      rintro ⟨-, write, member, names⟩
      obtain rfl := mem_singleton.mp member
      exact absurd names.2 (by decide +kernel))
  exact absurd kept (by decide +kernel)

end Neighbours

end ExecApprovals
