import AieClaw.JsonlEdit

/-!
# What was set in a JSONL file is resolved

Where the resolver and the editor read each sub-segment alike, the editor
replaces the node that the resolver finds, and it leaves every other line and
every address apart from the node as they were.
-/

namespace Jsonl

open AddressTree List Option OcPathSyntax
open Jsonc

variable {numbers : NumberText}

section Setting

variable {ast next : JsonlAst} {path : OcPath} {newValue : JsoncValue}

/-- The resolver goes to a line with a value and reads a trail there. -/
inductive Located (numbers : NumberText) (ast : JsonlAst) (path : OcPath) :
    ℕ → List Step → Prop where
  | inLine {head raw : String} {index line : ℕ} {value : JsoncValue}
      {texts : List String} {steps : List Step} (isHead : path.sectionSlot = some head)
      (picked : pickLineIndex numbers ast head = some index)
      (atIndex : ast.lines[index]? = some (.value line value raw))
      (split : slotSegments (path.itemSlot.toList ++ path.fieldSlot.toList) = .ok texts)
      (read : readTrail numbers value texts = some steps) : Located numbers ast path index steps

/-- The file with the node at an address replaced, not rendered yet. -/
def JsonlAst.replaceNode (ast : JsonlAst) (index : ℕ) (steps : List Step)
    (newValue : JsoncValue) : Option JsonlAst :=
  match ast.lines[index]? with
  | some (.value line value raw) =>
    (jsoncLens.replace value steps newValue).map fun replaced =>
      { ast with
        raw := ""
        lines := ast.lines.set index (.value line replaced raw) }
  | _ => none

/-- The segments behind the line are read alike. -/
def PathReadAlike (numbers : NumberText) (ast : JsonlAst) (path : OcPath) : Prop :=
  ∀ head index line value raw texts,
    path.sectionSlot = some head →
    pickLineIndex numbers ast head = some index →
    ast.lines[index]? = some (.value line value raw) →
    slotSegments (path.itemSlot.toList ++ path.fieldSlot.toList) = .ok texts →
    AllReadAlike numbers value texts

variable {index : ℕ} {steps : List Step} {edited : JsonlAst} {head raw : String}
  {texts : List String}

theorem eq_nil_iff_of_slotSegments {first second : Option String}
    (split : slotSegments (first.toList ++ second.toList) = .ok texts) :
    texts = [] ↔ first = none ∧ second = none := by
  have headNonempty {slot : String} {rest texts : List String}
      (splitSlots : slotSegments (slot :: rest) = .ok texts) : texts ≠ [] := by
    simp only [slotSegments, bind_eq_ok_iff] at splitSlots
    obtain ⟨subs, isSplit, others, -, joined⟩ := splitSlots
    have splits := (splitRespectingBrackets_eq_ok_iff (by decide)).mp isSplit
    obtain rfl := Except.ok.inj joined
    simp [splits.nonempty]
  cases first with
  | some slot => simpa using headNonempty split
  | none =>
    cases second with
    | some slot => simpa using headNonempty split
    | none =>
      obtain rfl := Except.ok.inj split
      simp

section

variable {line : ℕ} {value : JsoncValue} (isHead : path.sectionSlot = some head)
  (picked : pickLineIndex numbers ast head = some index)
  (atIndex : ast.lines[index]? = some (.value line value raw))
  (split : slotSegments (path.itemSlot.toList ++ path.fieldSlot.toList) = .ok texts)
include isHead picked atIndex split

theorem resolveJsonlOcPath_of_line :
    resolveJsonlOcPath numbers ast path =
      .ok (if texts = [] then some (.line (.value line value raw))
      else
        (resolveJsoncValueOcPath numbers value (texts.map unquoteSeg)).map (.found · line)) := by
  have pickedLine : pickLine numbers ast head = some (.value line value raw) := by
    rw [pickLine_eq, picked, bind_some, atIndex]
  simp only [resolveJsonlOcPath, isHead, pickedLine]
  by_cases empty : texts = []
  · rw [if_pos ((eq_nil_iff_of_slotSegments split).mp empty), if_pos empty]
  · rw [if_neg (mt (eq_nil_iff_of_slotSegments split).mpr empty), if_neg empty, split]
    rfl

theorem setJsonlOcPath_of_line :
    (∃ replaced, replaceAt numbers value texts newValue = some replaced ∧
      setJsonlOcPath numbers ast path newValue =
        finalize numbers ast index (.value line replaced raw) path.file) ∨
      replaceAt numbers value texts newValue = none ∧
        setJsonlOcPath numbers ast path newValue = .ok (.failed .unresolved) := by
  simp only [setJsonlOcPath, isHead, picked, atIndex]
  by_cases empty : texts = []
  · rw [if_pos ((eq_nil_iff_of_slotSegments split).mp empty)]
    subst empty
    exact .inl ⟨newValue, rfl, rfl⟩
  · have bound (change : List String → Result JsonlEditResult) :
        (Except.ok texts >>= change) = change texts := rfl
    rw [if_neg (mt (eq_nil_iff_of_slotSegments split).mpr empty), split, bound]
    cases replaceAt numbers value texts newValue with
    | none => exact .inr ⟨rfl, rfl⟩
    | some replaced => exact .inl ⟨replaced, rfl, rfl⟩

end

theorem finalize_eq_ok_iff {newLine : JsonlLine} {fileName : String} :
    finalize numbers ast index newLine fileName = .ok (.ok next) ↔ ∃ rendered, emitJsonl numbers
            { ast with raw := "", lines := ast.lines.set index newLine }
            { mode := .render, fileNameForGuard := some fileName } =
          .ok rendered ∧
        next =
          { ast with raw := rendered, lines := ast.lines.set index newLine } := by
  simp only [finalize, bind_eq_ok_iff]
  constructor
  · rintro ⟨rendered, emitted, same⟩
    cases same
    exact ⟨rendered, emitted, rfl⟩
  · rintro ⟨rendered, emitted, rfl⟩
    exact ⟨rendered, emitted, rfl⟩

/-- A file that was set: the value of the line it names was replaced. -/
theorem exists_of_setJsonlOcPath
    (isSet : setJsonlOcPath numbers ast path newValue = .ok (.ok next)) :
    ∃ head index line value raw texts replaced, path.sectionSlot = some head ∧
      pickLineIndex numbers ast head = some index ∧
      ast.lines[index]? = some (.value line value raw) ∧
      slotSegments (path.itemSlot.toList ++ path.fieldSlot.toList) = .ok texts ∧
      replaceAt numbers value texts newValue = some replaced ∧
      finalize numbers ast index (.value line replaced raw) path.file = .ok (.ok next) := by
  have place := isSet
  unfold setJsonlOcPath at place
  split at place
  · cases place
  next head isHead =>
    split at place
    · cases place
    next index picked =>
      split at place
      · cases place
      next line value raw atIndex =>
        cases split : slotSegments (path.itemSlot.toList ++ path.fieldSlot.toList) with
        | error thrown =>
          split_ifs at place with whole
          · rw [whole.1, whole.2] at split
            cases split
          · rw [split] at place
            cases place
        | ok texts =>
          rcases setJsonlOcPath_of_line isHead picked atIndex split with
            ⟨replaced, isReplaced, finalized⟩ | ⟨-, failed⟩
          · exact ⟨_, index, line, value, raw, texts, replaced, isHead, picked, atIndex, rfl,
              isReplaced, finalized.symm.trans isSet⟩
          · cases failed.symm.trans isSet
      · cases place

/-- A file that was set: the node that was located is replaced in it. -/
theorem setJsonlOcPath_eq_ok_iff (alike : PathReadAlike numbers ast path) :
    setJsonlOcPath numbers ast path newValue = .ok (.ok next) ↔
      ∃ index steps edited rendered, Located numbers ast path index steps ∧
        ast.replaceNode index steps newValue = some edited ∧
        emitJsonl numbers edited { mode := .render, fileNameForGuard := some path.file } =
          .ok rendered ∧
        next = { edited with raw := rendered } := by
  constructor
  · intro isSet
    obtain ⟨head, index, line, value, raw, texts, replaced, isHead, picked, atIndex, split,
      isReplaced, finalized⟩ := exists_of_setJsonlOcPath isSet
    obtain ⟨rendered, emitted, rfl⟩ := finalize_eq_ok_iff.mp finalized
    rw [replaceAt_eq (alike _ _ _ _ _ _ isHead picked atIndex split)] at isReplaced
    obtain ⟨steps, read, atNode⟩ := bind_eq_some_iff.mp isReplaced
    refine ⟨index, steps, _, rendered, .inLine isHead picked atIndex split read, ?_, emitted, rfl⟩
    simp [JsonlAst.replaceNode, atIndex, atNode]
  · rintro ⟨index, steps, edited, rendered, located, isEdited, emitted, rfl⟩
    cases located with
    | @inLine head raw _ line value texts _ isHead picked atIndex split read =>
      have readAlike := alike _ _ _ _ _ _ isHead picked atIndex split
      simp only [JsonlAst.replaceNode, atIndex] at isEdited
      obtain ⟨replaced, atNode, rfl⟩ := map_eq_some_iff.mp isEdited
      have isReplaced : replaceAt numbers value texts newValue = some replaced := by
        rw [replaceAt_eq readAlike, read, bind_some, atNode]
      rcases setJsonlOcPath_of_line isHead picked atIndex split with
        ⟨other, otherReplaced, returned⟩ | ⟨notReplaced, -⟩
      · rw [isReplaced] at otherReplaced
        cases otherReplaced
        rw [returned, finalize_eq_ok_iff]
        exact ⟨rendered, emitted, rfl⟩
      · rw [isReplaced] at notReplaced
        cases notReplaced

/-- Whether a match is a node that can be set. -/
def JsonlOcPathMatch.settable : JsonlOcPathMatch → Bool
  | .root => false
  | .line node => node.isValue
  | .found _ _ => true

/-- The match with another node in its place. -/
def JsonlOcPathMatch.withNode (written : JsoncValue) : JsonlOcPathMatch → JsonlOcPathMatch
  | .line (.value number _ raw) => .line (.value number written raw)
  | .found isFound number => .found (isFound.withNode written) number
  | other => other

/-- The resolver finds a node that can be set where it reads a trail. -/
theorem exists_settable_iff : (∃ found, resolveJsonlOcPath numbers ast path = .ok (some found) ∧
      found.settable = true) ↔ ∃ index steps, Located numbers ast path index steps := by
  constructor
  · rintro ⟨found, resolved, settable⟩
    cases isHead : path.sectionSlot with
    | none =>
      simp only [resolveJsonlOcPath, isHead] at resolved
      cases resolved
      cases settable
    | some head =>
      cases picked : pickLineIndex numbers ast head with
      | none => simp [resolveJsonlOcPath, isHead, pickLine_eq, picked] at resolved
      | some index =>
        cases atIndex : ast.lines[index]? with
        | none => simp [resolveJsonlOcPath, isHead, pickLine_eq, picked, atIndex] at resolved
        | some entry =>
          cases entry with
          | blank | malformed =>
            simp only [resolveJsonlOcPath, isHead, pickLine_eq, picked,
              bind_some, atIndex] at resolved
            split_ifs at resolved
            · cases resolved
              cases settable
            · cases resolved
          | value line value raw =>
            by_cases missing : path.itemSlot = none ∧ path.fieldSlot = none
            · have noTexts : slotSegments (path.itemSlot.toList ++ path.fieldSlot.toList) =
                    .ok [] := by
                rw [missing.1, missing.2]
                rfl
              exact ⟨index, [], .inLine isHead picked atIndex noTexts rfl⟩
            · simp only [resolveJsonlOcPath, isHead, pickLine_eq, picked,
                bind_some, atIndex, if_neg missing, bind_eq_ok_iff] at resolved
              obtain ⟨texts, split, isFound⟩ := resolved
              obtain ⟨valueMatch, isMatch, -⟩ := map_eq_some_iff.mp (Except.ok.inj isFound)
              have isRead : (readTrail numbers value texts).isSome = true := by
                rw [← isSome_resolveJsoncValueOcPath, isMatch]
                rfl
              obtain ⟨steps, read⟩ := isSome_iff_exists.mp isRead
              exact ⟨index, steps, .inLine isHead picked atIndex split read⟩
  · rintro ⟨index, steps, located⟩
    cases located with
    | @inLine head raw _ line value texts _ isHead picked atIndex split read =>
      rw [resolveJsonlOcPath_of_line isHead picked atIndex split]
      by_cases empty : texts = []
      · rw [if_pos empty]
        exact ⟨_, rfl, rfl⟩
      · rw [if_neg empty]
        have isFound : (resolveJsoncValueOcPath numbers value
              (texts.map unquoteSeg)).isSome = true := by
          rw [isSome_resolveJsoncValueOcPath, read]
          rfl
        obtain ⟨found, resolved⟩ := isSome_iff_exists.mp isFound
        rw [resolved]
        exact ⟨_, rfl, rfl⟩

theorem Located.unique {other : ℕ} {otherSteps : List Step}
    (located : Located numbers ast path index steps)
    (otherLocated : Located numbers ast path other otherSteps) :
    index = other ∧ steps = otherSteps := by
  cases located with
  | inLine isHead picked atIndex split read =>
    cases otherLocated with
    | inLine otherHead otherPicked otherAt otherSplit otherRead =>
      rw [isHead] at otherHead
      cases otherHead
      rw [picked] at otherPicked
      cases otherPicked
      rw [atIndex] at otherAt
      cases otherAt
      rw [split] at otherSplit
      obtain rfl := Except.ok.inj otherSplit
      rw [read] at otherRead
      exact ⟨rfl, Option.some.inj otherRead⟩

theorem Located.exists_replaceNode (located : Located numbers ast path index steps)
    (newValue : JsoncValue) : ∃ edited, ast.replaceNode index steps newValue = some edited := by
  cases located with
  | @inLine head raw _ line value texts _ isHead picked atIndex split read =>
    have isReplaced : (jsoncLens.replace value steps newValue).isSome = true := by
      obtain ⟨finish, leads⟩ := follow_of_readTrail read
      rw [Lens.isSome_replace]
      exact isSome_iff_exists.mpr ⟨finish, leads⟩
    obtain ⟨replaced, atNode⟩ := isSome_iff_exists.mp isReplaced
    simp only [JsonlAst.replaceNode, atIndex, atNode, map_some]
    exact ⟨_, rfl⟩

/--
The other path leads out of the file's root and, where it goes to the same line,
it leaves the address of the node before one of the two ends.
-/
def ApartFrom (numbers : NumberText) (ast : JsonlAst) (index : ℕ)
    (steps : List Step) (other : OcPath) : Prop :=
  ∃ head, other.sectionSlot = some head ∧
    ∀ line value raw texts,
      pickLineIndex numbers ast head = some index →
      ast.lines[index]? = some (.value line value raw) →
      slotSegments (other.itemSlot.toList ++ other.fieldSlot.toList) = .ok texts →
      Apart numbers value texts steps

/--
Set and resolve agree: the editor succeeds exactly where the resolver finds a
node that can be set and the edited file can be rendered; it replaces that node,
and every other line and every address apart from it is left as it was.
-/
structure SetAgrees (numbers : NumberText) (ast : JsonlAst) (path : OcPath)
    (newValue : JsoncValue) : Prop where
  succeeds :
    (∃ next, setJsonlOcPath numbers ast path newValue = .ok (.ok next)) ↔
      (∃ found, resolveJsonlOcPath numbers ast path = .ok (some found) ∧ found.settable = true) ∧
      ∀ index steps edited, Located numbers ast path index steps →
        ast.replaceNode index steps newValue = some edited → edited.Clean
  replaces :
    ∀ next found,
      setJsonlOcPath numbers ast path newValue = .ok (.ok next) →
      resolveJsonlOcPath numbers ast path = .ok (some found) →
      resolveJsonlOcPath numbers next path = .ok (some (found.withNode newValue))
  otherLines :
    ∀ next index steps,
      setJsonlOcPath numbers ast path newValue = .ok (.ok next) →
      Located numbers ast path index steps →
      next.lines.length = ast.lines.length ∧
        ∀ other, other ≠ index → next.lines[other]? = ast.lines[other]?
  otherAddresses :
    ∀ next index steps other,
      setJsonlOcPath numbers ast path newValue = .ok (.ok next) →
      Located numbers ast path index steps →
      ApartFrom numbers ast index steps other →
      resolveJsonlOcPath numbers next other = resolveJsonlOcPath numbers ast other

theorem pickLineIndex_replaceNode (numbers : NumberText)
    (isEdited : ast.replaceNode index steps newValue = some edited) (rendered addr : String) :
    pickLineIndex numbers { edited with raw := rendered } addr =
      pickLineIndex numbers ast addr := by
  unfold JsonlAst.replaceNode at isEdited
  split at isEdited
  next line value raw atIndex =>
    obtain ⟨replaced, -, rfl⟩ := map_eq_some_iff.mp isEdited
    rw [pickLineIndex_eq_tagIndex, pickLineIndex_eq_tagIndex]
    simp only [tags_set atIndex]
  · cases isEdited

theorem lines_replaceNode {line : ℕ} {value : JsoncValue}
    (atIndex : ast.lines[index]? = some (.value line value raw))
    (isEdited : ast.replaceNode index steps newValue = some edited) :
    ∃ replaced, jsoncLens.replace value steps newValue = some replaced ∧
      edited.lines = ast.lines.set index (.value line replaced raw) ∧
      edited.lines[index]? = some (.value line replaced raw) := by
  simp only [JsonlAst.replaceNode, atIndex] at isEdited
  obtain ⟨replaced, atNode, rfl⟩ := map_eq_some_iff.mp isEdited
  obtain ⟨inside, -⟩ := List.getElem?_eq_some_iff.mp atIndex
  exact ⟨replaced, atNode, rfl, getElem?_set_self inside⟩

theorem resolve_replaceNode_same {found : JsonlOcPathMatch}
    (located : Located numbers ast path index steps)
    (isEdited : ast.replaceNode index steps newValue = some edited) (rendered : String)
    (resolved : resolveJsonlOcPath numbers ast path = .ok (some found)) :
    resolveJsonlOcPath numbers { edited with raw := rendered } path =
      .ok (some (found.withNode newValue)) := by
  cases located with
  | @inLine head raw _ line value texts _ isHead picked atIndex split read =>
    obtain ⟨replaced, atNode, -, atEdited⟩ := lines_replaceNode atIndex isEdited
    have editedPicked : pickLineIndex numbers { edited with raw := rendered } head =
          some index := by
      rw [pickLineIndex_replaceNode numbers isEdited, picked]
    rw [resolveJsonlOcPath_of_line isHead picked atIndex split] at resolved
    rw [resolveJsonlOcPath_of_line isHead editedPicked atEdited split]
    have isFound := Except.ok.inj resolved
    by_cases empty : texts = []
    · subst empty
      cases read
      cases atNode
      cases isFound
      rfl
    · rw [if_neg empty] at isFound ⊢
      obtain ⟨valueMatch, isMatch, rfl⟩ := map_eq_some_iff.mp isFound
      have again :=
        resolveLoop_replace_same atNode read none none (fun isEmpty => absurd isEmpty empty) []
      rw [resolveJsoncValueOcPath] at isMatch ⊢
      rw [again, isMatch]
      rfl

theorem resolveJsonlOcPath_congr {other : OcPath} (isHead : other.sectionSlot = some head)
    (sameLine : pickLine numbers next head = pickLine numbers ast head) :
    resolveJsonlOcPath numbers next other = resolveJsonlOcPath numbers ast other := by
  simp only [resolveJsonlOcPath, isHead, sameLine]

/-- An address apart from the replaced node resolves as before. -/
theorem resolve_replaceNode_apart {other : OcPath} (located : Located numbers ast path index steps)
    (isEdited : ast.replaceNode index steps newValue = some edited) (rendered : String)
    (apart : ApartFrom numbers ast index steps other) :
    resolveJsonlOcPath numbers { edited with raw := rendered } other =
      resolveJsonlOcPath numbers ast other := by
  obtain ⟨otherHead, isOtherHead, leaves⟩ := apart
  cases located with
  | @inLine head raw _ line value texts _ isHead picked atIndex split read =>
    obtain ⟨replaced, atNode, isSet, atEdited⟩ := lines_replaceNode atIndex isEdited
    have samePicked := pickLineIndex_replaceNode numbers isEdited rendered otherHead
    by_cases sameLine : pickLineIndex numbers ast otherHead = some index
    · rw [sameLine] at samePicked
      cases otherSplit : slotSegments (other.itemSlot.toList ++ other.fieldSlot.toList) with
      | error failure =>
        have notMissing : ¬ (other.itemSlot = none ∧ other.fieldSlot = none) := by
          rintro ⟨noItem, noField⟩
          rw [noItem, noField] at otherSplit
          cases otherSplit
        simp only [resolveJsonlOcPath, isOtherHead, pickLine_eq, samePicked,
          sameLine, bind_some, atIndex, atEdited, if_neg notMissing, otherSplit]
        rfl
      | ok otherTexts =>
        have isApart := leaves line value raw otherTexts sameLine atIndex otherSplit
        rw [resolveJsonlOcPath_of_line isOtherHead sameLine atIndex otherSplit,
          resolveJsonlOcPath_of_line isOtherHead samePicked atEdited otherSplit]
        have notEmpty : otherTexts ≠ [] := by
          rintro rfl
          exact isApart
        rw [if_neg notEmpty, if_neg notEmpty, resolveJsoncValueOcPath, resolveJsoncValueOcPath,
          resolveLoop_replace_apart atNode isApart none none []]
    · refine resolveJsonlOcPath_congr isOtherHead ?_
      rw [pickLine_eq, pickLine_eq, samePicked]
      cases otherPicked : pickLineIndex numbers ast otherHead with
      | none => rfl
      | some otherIndex =>
        have different : index ≠ otherIndex := by
          rintro rfl
          exact sameLine otherPicked
        simp only [bind_some, isSet]
        exact getElem?_set_ne different

/-- Set and resolve agree wherever both read the segments alike. -/
theorem setAgrees_of_readAlike (alike : PathReadAlike numbers ast path)
    (newValue : JsoncValue) : SetAgrees numbers ast path newValue where
  succeeds := by
    rw [exists_settable_iff]
    constructor
    · rintro ⟨next, isSet⟩
      obtain ⟨index, steps, edited, rendered, located, isEdited, emitted, -⟩ :=
        (setJsonlOcPath_eq_ok_iff alike).mp isSet
      refine ⟨⟨index, steps, located⟩, ?_⟩
      intro other otherSteps otherEdited otherLocated isOther
      obtain ⟨rfl, rfl⟩ := located.unique otherLocated
      rw [isEdited] at isOther
      cases isOther
      exact (exists_emitJsonl_iff numbers edited _).mp ⟨rendered, emitted⟩
    · rintro ⟨⟨index, steps, located⟩, clean⟩
      obtain ⟨edited, isEdited⟩ := located.exists_replaceNode newValue
      obtain ⟨rendered, emitted⟩ :=
        (exists_emitJsonl_iff numbers edited (some path.file)).mpr
          (clean index steps edited located isEdited)
      exact ⟨_, (setJsonlOcPath_eq_ok_iff alike).mpr
        ⟨index, steps, edited, rendered, located, isEdited, emitted, rfl⟩⟩
  replaces := by
    intro next found isSet resolved
    obtain ⟨index, steps, edited, rendered, located, isEdited, -, rfl⟩ :=
      (setJsonlOcPath_eq_ok_iff alike).mp isSet
    exact resolve_replaceNode_same located isEdited rendered resolved
  otherLines := by
    intro next index steps isSet located
    obtain ⟨_, _, edited, rendered, setLocated, isEdited, -, rfl⟩ :=
      (setJsonlOcPath_eq_ok_iff alike).mp isSet
    obtain ⟨rfl, rfl⟩ := located.unique setLocated
    cases located with
    | inLine isHead picked atIndex split read =>
      obtain ⟨replaced, -, lines, -⟩ := lines_replaceNode atIndex isEdited
      simp only [lines]
      refine ⟨length_set, ?_⟩
      intro other different
      exact getElem?_set_ne (Ne.symm different)
  otherAddresses := by
    intro next index steps other isSet located apart
    obtain ⟨_, _, edited, rendered, setLocated, isEdited, -, rfl⟩ :=
      (setJsonlOcPath_eq_ok_iff alike).mp isSet
    obtain ⟨rfl, rfl⟩ := located.unique setLocated
    exact resolve_replaceNode_apart setLocated isEdited rendered apart

end Setting

section Instances

/-- A file with a record, an empty line and another record. -/
def eventLog : JsonlAst where
  raw := "\x7b\"a\":\"x\"\x7d\n\n\x7b\"a\":\"z\"\x7d\n"
  lines := [
    .value 1 (.object [⟨"a", .string "x" (some 1), 1⟩] (some 1)) "\x7b\"a\":\"x\"\x7d",
    .blank 2 "",
    .value 3 (.object [⟨"a", .string "z" (some 1), 1⟩] (some 1)) "\x7b\"a\":\"z\"\x7d"]
  lineEnding := some .lf

def fieldOfFirst : OcPath where
  file := "log"
  sectionSlot := some "L1"
  itemSlot := some "a"
  fieldSlot := none
  session := none

/-- The path of the line that holds the field. -/
def firstLine : OcPath where
  file := "log"
  sectionSlot := some "L1"
  itemSlot := none
  fieldSlot := none
  session := none

theorem readAlike_fieldOfFirst : PathReadAlike decimalNumbers eventLog fieldOfFirst := by
  intro head index line value raw texts isHead picked atIndex split
  have isSplit : slotSegments (fieldOfFirst.itemSlot.toList ++ fieldOfFirst.fieldSlot.toList) =
        .ok ["a"] := by
    decide +kernel
  rw [isSplit] at split
  obtain rfl := Except.ok.inj split
  refine ⟨⟨?_, ?_⟩, fun _ _ _ => trivial⟩
  · intro quoted
    exact absurd quoted (by decide +kernel)
  · intro positional
    exact absurd positional (by decide +kernel)

theorem setAgrees_fieldOfFirst :
    SetAgrees decimalNumbers eventLog fieldOfFirst (.string "y" none) :=
  setAgrees_of_readAlike readAlike_fieldOfFirst (.string "y" none)

theorem located_fieldOfFirst : Located decimalNumbers eventLog fieldOfFirst 0 [.key "a"] := by
  have picked : pickLineIndex decimalNumbers eventLog "L1" = some 0 := by
    decide +kernel
  have isSplit : slotSegments (fieldOfFirst.itemSlot.toList ++ fieldOfFirst.fieldSlot.toList) =
        .ok ["a"] := by
    decide +kernel
  exact .inLine rfl picked rfl isSplit rfl

/-- The file with another text in the field of its first line. -/
def editedLog (text : String) : JsonlAst where
  raw := ""
  lines := [
    .value 1 (.object [⟨"a", .string text none, 1⟩] (some 1)) "\x7b\"a\":\"x\"\x7d",
    .blank 2 "",
    .value 3 (.object [⟨"a", .string "z" (some 1), 1⟩] (some 1)) "\x7b\"a\":\"z\"\x7d"]
  lineEnding := some .lf

theorem replaceNode_eventLog (text : String) :
    eventLog.replaceNode 0 [.key "a"] (.string text none) = some (editedLog text) := rfl

theorem exists_set_eventLog_iff (text : String) : (∃ next rendered,
      setJsonlOcPath decimalNumbers eventLog fieldOfFirst (.string text none) = .ok (.ok next) ∧
        next = { editedLog text with raw := rendered }) ↔
      (editedLog text).Clean := by
  rw [← exists_emitJsonl_iff decimalNumbers _ (some "log")]
  constructor
  · rintro ⟨next, rendered, isSet, -⟩
    obtain ⟨index, steps, edited, rendered, located, isEdited, emitted, -⟩ :=
      (setJsonlOcPath_eq_ok_iff readAlike_fieldOfFirst).mp isSet
    obtain ⟨rfl, rfl⟩ := located.unique located_fieldOfFirst
    rw [replaceNode_eventLog] at isEdited
    cases isEdited
    exact ⟨rendered, emitted⟩
  · rintro ⟨rendered, emitted⟩
    exact ⟨_, rendered, (setJsonlOcPath_eq_ok_iff readAlike_fieldOfFirst).mpr
      ⟨0, _, _, rendered, located_fieldOfFirst, replaceNode_eventLog text, emitted, rfl⟩, rfl⟩

theorem resolve_firstLine {ast : JsonlAst} {value : JsoncValue} {raw : String}
    (picked : pickLineIndex decimalNumbers ast "L1" = some 0)
    (atIndex : ast.lines[0]? = some (.value 1 value raw)) :
    resolveJsonlOcPath decimalNumbers ast firstLine = .ok (some (.line (.value 1 value raw))) := by
  have noTexts :
      slotSegments (firstLine.itemSlot.toList ++ firstLine.fieldSlot.toList) = .ok [] := rfl
  rw [resolveJsonlOcPath_of_line rfl picked atIndex noTexts, if_pos rfl]

/--
A value with the sentinel is not written where the resolver finds a node that
can be set, and the line around a node that was set does not stay as it was.
-/
theorem not_setAgrees :
    (¬ ∀ (ast : JsonlAst) (path : OcPath) (newValue : JsoncValue),
      (∃ next, setJsonlOcPath decimalNumbers ast path newValue = .ok (.ok next)) ↔
      ∃ found, resolveJsonlOcPath decimalNumbers ast path =
          .ok (some found) ∧ found.settable = true) ∧
    ¬ ∀ (ast next : JsonlAst) (path other : OcPath) (newValue : JsoncValue)
        (index : ℕ) (steps : List Step),
      setJsonlOcPath decimalNumbers ast path newValue = .ok (.ok next) →
      Located decimalNumbers ast path index steps →
      (∀ otherIndex otherSteps,
        Located decimalNumbers ast other otherIndex otherSteps →
          ¬ (otherIndex = index ∧ steps <+: otherSteps)) →
      resolveJsonlOcPath decimalNumbers next other =
        resolveJsonlOcPath decimalNumbers ast other := by
  constructor
  · intro always
    obtain ⟨next, isSet⟩ :=
      (always eventLog fieldOfFirst (.string redactedSentinel none)).mpr
        (exists_settable_iff.mpr ⟨0, _, located_fieldOfFirst⟩)
    obtain ⟨index, steps, edited, rendered, located, isEdited, emitted, rfl⟩ :=
      (setJsonlOcPath_eq_ok_iff readAlike_fieldOfFirst).mp isSet
    obtain ⟨rfl, rfl⟩ := located.unique located_fieldOfFirst
    rw [replaceNode_eventLog] at isEdited
    cases isEdited
    have clean :=
      (exists_set_eventLog_iff redactedSentinel).mp ⟨_, rendered, isSet, rfl⟩ _ _ _ mem_cons_self
    simp only [hasSentinel, attach_cons, attach_nil, map_nil,
      any_cons, any_nil, Bool.or_false] at clean
    exact absurd clean (by decide +kernel)
  · intro always
    have clean : (editedLog "y").Clean := by
      intro line value raw member
      simp only [editedLog, mem_cons, not_mem_nil, or_false, reduceCtorEq, false_or] at member
      rcases member with same | same <;> cases same <;>
        simp only [hasSentinel, attach_cons, attach_nil, map_nil,
          any_cons, any_nil, Bool.or_false] <;>
        decide +kernel
    obtain ⟨next, rendered, isSet, rfl⟩ := (exists_set_eventLog_iff "y").mpr clean
    have picked : pickLineIndex decimalNumbers eventLog "L1" = some 0 := by
      decide +kernel
    have pickedAgain : pickLineIndex decimalNumbers
          { editedLog "y" with raw := rendered } "L1" = some 0 := by
      rw [pickLineIndex_replaceNode decimalNumbers (replaceNode_eventLog "y"), picked]
    have same :=
      always eventLog _ fieldOfFirst firstLine _ 0 _ isSet located_fieldOfFirst
        (by
          intro otherIndex otherSteps otherLocated
          cases otherLocated with
          | inLine isHead picked atIndex split read =>
            cases split
            cases read
            simp)
    rw [resolve_firstLine picked rfl, resolve_firstLine pickedAgain rfl] at same
    simp at same

end Instances

end Jsonl
