import AieClaw.ExecApprovalsPolicy
import AieClaw.ExecDecisions
import AieClaw.SystemRunCommand

/-!
# Commands that a node remembers

When an approver allows a command of a node for good and no pattern can be worked out for it,
the node records the digest of the command's text. The entry is found again by the text of a
later command.
-/

namespace ExecApprovals

open List JsString SystemRunCommand

/-- The digest tells texts apart, and is written without white space. -/
structure PlainDigest (host : ApprovalsHost) : Prop where
  injective : Function.Injective host.digest
  visible : ∀ text, ∀ character ∈ (host.digest text).toList, isWhitespace character = false

section Node

variable (host : ApprovalsHost) (disk : Option ExecApprovalsFile) (agentId : Option String)

/-- Whether the approvals of an agent remember a command. -/
def remembers (security : ExecSecurity) (ask : ExecAsk) (argv : List String) : Bool :=
  hasExactCommandDurableExecApproval host
    (resolveExecApprovalsFromFile host (ensureExecApprovals host disk) agentId security
      ask).allowlist
    (formatExecCommand argv)

/-- What is on the disk after a node has recorded a command. -/
def recordCommand (argv : List String) : ExecApprovalsFile :=
  let file := normalizeExecApprovals host (ensureExecApprovals host disk)
  let held := addDurableCommandApproval host ⟨file, false⟩ agentId (formatExecCommand argv)
  if held.saved then held.file else ensureExecApprovals host disk

end Node

section Legacy

variable {host : ApprovalsHost} {file : ExecApprovalsFile}

theorem mem_of_mem_dedupeEntries {seen : List String} {entries : List ExecAllowlistEntry}
    {entry : ExecAllowlistEntry} (member : entry ∈ dedupeEntries host seen entries) :
    entry ∈ entries := by
  induction entries generalizing seen with
  | nil => exact absurd member not_mem_nil
  | cons first rest inductionHypothesis =>
    rw [dedupeEntries] at member
    cases isKey : mergeKey host first with
    | none =>
      rw [isKey] at member
      exact .tail _ (inductionHypothesis member)
    | some key =>
      rw [isKey, Option.elim_some] at member
      split at member
      · exact .tail _ (inductionHypothesis member)
      · rcases mem_cons.mp member with rfl | behind
        · exact mem_cons_self
        · exact .tail _ (inductionHypothesis behind)

theorem grants_mergeLegacyAgent {current legacy : ExecApprovalsAgent} {grant : Grant}
    (member : grant ∈ (mergeLegacyAgent host current legacy).grants) :
    grant ∈ current.grants ∨ grant ∈ legacy.grants := by
  rw [ExecApprovalsAgent.grants, mergeLegacyAgent, getD_filter_ne_nil] at member
  obtain ⟨entry, kept, rfl⟩ := mem_map.mp member
  rcases mem_append.mp (mem_of_mem_dedupeEntries kept) with own | old
  · exact Or.inl (mem_map_of_mem own)
  · exact Or.inr (mem_map_of_mem old)

/-- Normalizing makes no grants: it moves those of the old name to the main agent. -/
theorem holds_entry_of_normalize {agentId : String} {grant : Grant}
    (holds : (normalizeExecApprovals host file).Holds (.entry agentId grant)) :
    file.Holds (.entry agentId grant) ∨ file.Holds (.entry "default" grant) := by
  by_cases noLegacy : file.NoLegacy
  · exact Or.inl ((holds_normalizeExecApprovals_iff noLegacy).mp holds).1
  · obtain ⟨legacy, isLegacy⟩ := Option.ne_none_iff_exists'.mp noLegacy
    have unfiltered {agent : ExecApprovalsAgent}
        (member : grant ∈ (normalizeAgent host agentId agent).grants) : grant ∈ agent.grants := by
      rw [grants_normalizeAgent] at member
      exact mem_of_mem_filter member
    simp only [ExecApprovalsFile.Holds, ExecApprovalsFile.agentNamed, normalizeExecApprovals,
      OrderedMap.get?_mapEntries, moveLegacyAgent, isLegacy, Option.elim_some,
      OrderedMap.get?_delete, OrderedMap.get?_set] at holds ⊢
    by_cases isOld : agentId = "default"
    · simp [isOld, ExecApprovalsAgent.grants, emptyAgent] at holds
    · rw [if_neg isOld] at holds
      by_cases isMain : agentId = defaultAgentId
      · rw [if_pos isMain, Option.map_some, Option.getD_some] at holds
        subst isMain
        have moved := unfiltered holds
        cases main : file.agents.get? defaultAgentId with
        | none =>
          rw [main] at moved
          exact Or.inr moved
        | some agent =>
          rw [main] at moved
          exact grants_mergeLegacyAgent moved
      · rw [if_neg isMain] at holds
        cases found : file.agents.get? agentId with
        | none => simp [found, ExecApprovalsAgent.grants, emptyAgent] at holds
        | some agent =>
          rw [found] at holds
          exact Or.inl (unfiltered holds)

end Legacy

section Remembering

variable {host : ApprovalsHost} {disk : Option ExecApprovalsFile} {agentId other : Option String}
  {security : ExecSecurity} {ask : ExecAsk} {argv others : List String}

theorem commandText_normalizeExecApprovals {file : ExecApprovalsFile} (noLegacy : file.NoLegacy)
    {agent : String} {entry : ExecAllowlistEntry} (member : entry ∈
      (((normalizeExecApprovals host file).agentNamed agent).allowlist.getD [])) :
    entry.commandText = none := by
  rw [ExecApprovalsFile.agentNamed, get?_normalizeExecApprovals noLegacy] at member
  cases found : file.agents.get? agent with
  | none => simp [found, emptyAgent] at member
  | some stored =>
    simp only [found, Option.map_some, Option.getD_some, normalizeAgent] at member
    cases kept : coerceAllowlistEntries stored.allowlist with
    | none => simp [kept] at member
    | some entries =>
      rw [kept, Option.map_some, Option.getD_some, stripAllowlistCommandText] at member
      obtain ⟨original, -, rfl⟩ := mem_map.mp member
      rfl

theorem remembers_iff : remembers host disk agentId security ask argv = true ↔
    trim (formatExecCommand argv) ≠ "" ∧
      ∃ agent grant, (agent = "*" ∨ agent = agentId.getD defaultAgentId) ∧
        (normalizeExecApprovals host (ensureExecApprovals host disk)).Holds (.entry agent grant) ∧
        grant.allowAlways = true ∧
        grant.pattern =
          buildDurableCommandApprovalPattern host (trim (formatExecCommand argv)) := by
  have noLegacy : (ensureExecApprovals host disk).NoLegacy := noLegacy_ensureExecApprovals disk
  rw [remembers, hasExactCommandDurableExecApproval, Bool.and_eq_true, any_eq_true,
    decide_eq_true_iff]
  refine and_congr_right fun _ => ⟨?_, ?_⟩
  · rintro ⟨entry, member, matching⟩
    obtain ⟨agent, isAgent, stored⟩ : ∃ agent, (agent = "*" ∨ agent = agentId.getD defaultAgentId) ∧
        entry ∈ ((normalizeExecApprovals host (ensureExecApprovals host disk)).agentNamed
          agent).allowlist.getD [] := by
      rcases mem_append.mp member with wild | own
      · exact ⟨"*", Or.inl rfl, wild⟩
      · exact ⟨_, Or.inr rfl, own⟩
    have noText := commandText_normalizeExecApprovals noLegacy stored
    simp only [noText, Option.map_none, reduceCtorEq, decide_false, Bool.or_false,
      Bool.and_eq_true, decide_eq_true_eq] at matching
    exact ⟨agent, entry.grant, isAgent, mem_map_of_mem stored, matching.1, matching.2⟩
  · rintro ⟨agent, grant, isAgent, holds, forGood, samePattern⟩
    obtain ⟨entry, stored, rfl⟩ := mem_map.mp holds
    refine ⟨entry, mem_append.mpr ?_, ?_⟩
    · rcases isAgent with rfl | rfl
      · exact Or.inl stored
      · exact Or.inr stored
    · simp only [Bool.and_eq_true, Bool.or_eq_true, decide_eq_true_eq]
      exact ⟨forGood, Or.inl samePattern⟩

theorem plain_of_all {text : String} (each : text.toList.all (!isWhitespace ·) = true) :
    ∀ character ∈ text.toList, isWhitespace character = false := by
  simpa using each

theorem trim_buildDurableCommandApprovalPattern (plain : PlainDigest host) (text : String) :
    trim (buildDurableCommandApprovalPattern host text) =
      buildDurableCommandApprovalPattern host text := by
  refine trim_of_plain fun character member => ?_
  rw [buildDurableCommandApprovalPattern, String.toList_append] at member
  rcases mem_append.mp member with front | digest
  · exact plain_of_all (by decide) character front
  · exact plain.visible text character digest

theorem holds_recordCommand {agent : String} {grant : Grant}
    (holds : (recordCommand host disk agentId argv).Holds (.entry agent grant)) :
    (ensureExecApprovals host disk).Holds (.entry agent grant) ∨
      grant = approvedGrant (buildDurableCommandApprovalPattern host
        (trim (formatExecCommand argv))) none := by
  have noLegacy : (ensureExecApprovals host disk).NoLegacy := noLegacy_ensureExecApprovals disk
  rw [recordCommand] at holds
  by_cases saved : (addDurableCommandApproval host
      ⟨normalizeExecApprovals host (ensureExecApprovals host disk), false⟩ agentId
        (formatExecCommand argv)).saved = true
  · simp only [saved, if_true] at holds
    rw [addDurableCommandApproval] at holds
    split at holds
    · exact Or.inl ((holds_normalizeExecApprovals_iff noLegacy).mp holds).1
    · rcases holds_of_addAllowlistEntry holds with known | isAgent | isEntry
      · exact Or.inl ((holds_normalizeExecApprovals_iff noLegacy).mp known).1
      · cases isAgent
      · exact Or.inr (Decision.entry.inj isEntry).2
  · simp only [saved] at holds
    exact Or.inl holds

/-- After a command was recorded, another one is remembered only if it was before. -/
theorem remembers_recordCommand (plain : PlainDigest host) (nonempty : argv ≠ [])
    (othersNonempty : others ≠ [])
    (remembered : remembers host (some (recordCommand host disk agentId argv)) other security ask
      others = true) :
    argv = others ∨ remembers host disk other security ask others = true := by
  obtain ⟨visible, agent, grant, isAgent, holds, forGood, samePattern⟩ :=
    remembers_iff.mp remembered
  have noLegacy : (ensureExecApprovals host disk).NoLegacy := noLegacy_ensureExecApprovals disk
  have counts : trim grant.pattern ≠ "" := by
    rw [samePattern, trim_buildDurableCommandApprovalPattern plain]
    intro empty
    have characters := congrArg String.toList empty
    simp [buildDurableCommandApprovalPattern] at characters
  have written := holds_entry_of_normalize
    (holds_ensureExecApprovals_iff.mp ((holds_normalizeExecApprovals_iff
      (noLegacy_ensureExecApprovals _)).mp holds).1).1
  have known : (ensureExecApprovals host disk).Holds (.entry agent grant) ∨ argv = others := by
    have fromGrant (isNew : grant = approvedGrant (buildDurableCommandApprovalPattern host
        (trim (formatExecCommand argv))) none) : argv = others := by
      rw [isNew, approvedGrant, trim_buildDurableCommandApprovalPattern plain,
        trim_formatExecCommand nonempty, trim_formatExecCommand othersNonempty,
        buildDurableCommandApprovalPattern, buildDurableCommandApprovalPattern] at samePattern
      have sameDigest := congrArg String.toList samePattern
      rw [String.toList_append, String.toList_append] at sameDigest
      exact eq_of_formatExecCommand nonempty othersNonempty
        (plain.injective (String.toList_injective (append_cancel_left sameDigest)))
    rcases written with stored | stored
    · rcases holds_recordCommand stored with before | isNew
      · exact Or.inl before
      · exact Or.inr (fromGrant isNew)
    · rcases holds_recordCommand stored with before | isNew
      · -- Reading left no agent of the old name.
        rw [ExecApprovalsFile.Holds, ExecApprovalsFile.agentNamed,
          show (ensureExecApprovals host disk).agents.get? "default" = none from noLegacy] at before
        exact absurd before not_mem_nil
      · exact Or.inr (fromGrant isNew)
  rcases known with before | same
  · refine Or.inr (remembers_iff.mpr ⟨visible, agent, grant, isAgent, ?_, forGood, samePattern⟩)
    exact (holds_normalizeExecApprovals_iff noLegacy).mpr ⟨before, counts⟩
  · exact Or.inl same

end Remembering

/-- What stands for the arguments of one command stands for no other. -/
structure Identifies (host : ApprovalsHost) (argv others : List String) : Prop where
  text : formatExecCommand argv = formatExecCommand others → argv = others
  trimmed : trim (formatExecCommand argv) = trim (formatExecCommand others) → argv = others
  /-- One raw command that is accepted for both. -/
  rawCommand : ∀ reader rawCommand display otherDisplay,
    normalizeRawCommandText rawCommand ≠ none →
    validateSystemRunCommandConsistency reader argv rawCommand false = .ok display →
    validateSystemRunCommandConsistency reader others rawCommand false = .ok otherDisplay →
    argv = others
  /-- A recorded approval, for whatever agent it is recorded and looked up. -/
  durable : ∀ disk agentId other security ask,
    remembers host (some (recordCommand host disk agentId argv)) other security ask others =
      true → argv = others ∨ remembers host disk other security ask others = true

theorem identifies_of_plain {host : ApprovalsHost} (plain : PlainDigest host)
    {argv others : List String} (nonempty : argv ≠ []) (othersNonempty : others ≠ []) :
    Identifies host argv others where
  text := eq_of_formatExecCommand nonempty othersNonempty
  trimmed same := by
    rw [trim_formatExecCommand nonempty, trim_formatExecCommand othersNonempty] at same
    exact eq_of_formatExecCommand nonempty othersNonempty same
  rawCommand reader rawCommand display otherDisplay given accepted otherAccepted := by
    obtain ⟨raw, isRaw⟩ := Option.ne_none_iff_exists'.mp given
    refine eq_of_formatExecCommand nonempty othersNonempty ?_
    rw [← formatExecCommand_of_accepted isRaw accepted]
    exact formatExecCommand_of_accepted isRaw otherAccepted
  durable disk agentId other security ask remembered :=
    remembers_recordCommand plain nonempty othersNonempty remembered

def unary (character : Char) : List Char := replicate character.toNat 'y'

/-- Every character in unary, after a letter that is no hexadecimal digit. -/
def unaryText (text : String) : String :=
  String.ofList ('x' :: SeparatedWords.terminated 'z' unary text.toList)

/-- The true digests of two texts, and a spelling of every other text. -/
def twoDigests (text : String) : String :=
  if text = "ls \"a b\"" then "303423cab97dcfd0"
  else if text = "ls a b" then "0beaebeb4713a98b"
  else unaryText text

def twoDigestsHost : ApprovalsHost where
  toLowerCase := asciiLower
  digest := twoDigests
  newId agentId index := agentId ++ toString index
  socketPath := "exec-approvals.sock"
  newToken := "token"
  now := 0

theorem readFromEnd_unary : SeparatedWords.ReadFromEnd 'z' unary := by
  intro start before word other startClosed beforeClosed same
  have counted {text : List Char} (closed : SeparatedWords.Closed 'z' text) (character : Char) :
      ((text ++ unary character).reverse.takeWhile (· = 'y')).length = character.toNat := by
    rw [reverse_append, unary, reverse_replicate, takeWhile_append_of_pos (by simp)]
    rcases closed with rfl | ⟨earlier, rfl⟩ <;> simp
  have sameWord : word = other := by
    rw [← Char.toNat_inj, ← counted startClosed word, same, counted beforeClosed other]
  subst sameWord
  exact ⟨append_cancel_right same, rfl⟩

theorem unaryText_injective : Function.Injective unaryText := by
  intro first second same
  have sameCharacters := String.ofList_injective same
  exact String.toList_injective
    (SeparatedWords.terminated_injective readFromEnd_unary (cons.inj sameCharacters).2)

theorem twoDigests_cases (text : String) :
    (text = "ls \"a b\"" ∧ twoDigests text = "303423cab97dcfd0") ∨
      (text = "ls a b" ∧ twoDigests text = "0beaebeb4713a98b") ∨
      twoDigests text = unaryText text := by
  unfold twoDigests
  split
  · exact Or.inl ⟨by assumption, rfl⟩
  · split
    · exact Or.inr (Or.inl ⟨by assumption, rfl⟩)
    · exact Or.inr (Or.inr rfl)

theorem plainDigest_twoDigestsHost : PlainDigest twoDigestsHost := by
  have ne_unaryText {digest text : String} (noLetter : digest.toList.head? ≠ some 'x') :
      digest ≠ unaryText text := by
    rintro rfl
    exact noLetter (by simp [unaryText])
  constructor
  · intro first second same
    simp only [twoDigestsHost] at same
    rcases twoDigests_cases first with ⟨rfl, isFirst⟩ | ⟨rfl, isFirst⟩ | isFirst <;>
      rcases twoDigests_cases second with ⟨rfl, isSecond⟩ | ⟨rfl, isSecond⟩ | isSecond <;>
        simp only [isFirst, isSecond] at same
    · rfl
    · exact absurd same (by decide)
    · exact absurd same (ne_unaryText (by decide))
    · exact absurd same (by decide)
    · rfl
    · exact absurd same (ne_unaryText (by decide))
    · exact absurd same.symm (ne_unaryText (by decide))
    · exact absurd same.symm (ne_unaryText (by decide))
    · exact unaryText_injective same
  · intro text character member
    simp only [twoDigestsHost, twoDigests] at member
    split_ifs at member
    · exact plain_of_all (by decide) character member
    · exact plain_of_all (by decide) character member
    · rw [unaryText, String.toList_ofList, mem_cons, SeparatedWords.terminated,
        mem_flatMap] at member
      rcases member with rfl | ⟨original, -, member⟩
      · decide
      · rcases mem_append.mp member with digit | isEnd
        · obtain rfl := eq_of_mem_replicate digit
          decide
        · obtain rfl := mem_singleton.mp isEnd
          decide

/-- One argument with a blank, and the two arguments it could be taken for. -/
theorem identifies_blank :
    ["ls", "a b"] ≠ [] ∧ ["ls", "a", "b"] ≠ [] ∧
      Identifies twoDigestsHost ["ls", "a b"] ["ls", "a", "b"] :=
  ⟨by decide, by decide, identifies_of_plain plainDigest_twoDigestsHost (by decide) (by decide)⟩

end ExecApprovals
