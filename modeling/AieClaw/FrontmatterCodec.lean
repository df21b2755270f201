import AieClaw.JsString

/-!
# Reading front matter back

The front matter of a file is a list of fields, one on each line between two
fences. The values are written and read by rules of their own: the writer quotes
and escapes, and the reader trims and takes the quotes off.
-/

namespace Markdown

open JsString

structure FrontmatterEntry where
  key : String
  value : String
  line : ℕ
  deriving DecidableEq

section Writer

/-- The characters for which a front matter value is quoted. -/
def isStructural (character : Char) : Bool :=
  ":#&*?|<>=!%@`,[]\x7b\x7d\r\n".toList.contains character

def formatFrontmatterValue (value : String) : String :=
  if value = "" then "\"\""
  else if value.toList.any isStructural then stringify value
  else value

end Writer

section Reader

def fence : String := "---"

def isKeyStart (character : Char) : Bool := character.isAlpha || character == '_'

def isKeyCharacter (character : Char) : Bool :=
  character.isAlphanum || character == '_' || character == '-'

/-- A text that the reader takes for a key. -/
def IsKey (key : String) : Prop :=
  key.toList.head?.any isKeyStart = true ∧ key.toList.all isKeyCharacter = true

instance (key : String) : Decidable (IsKey key) := inferInstanceAs (Decidable (_ ∧ _))

/-- Take one pair of equal quotes off. -/
def unquote (value : String) : String :=
  match value.toList with
  | first :: more =>
    if 2 ≤ length value ∧ more.getLast? = some first ∧ (first = '"' ∨ first = '\'') then
      String.ofList more.dropLast
    else value
  | [] => value

/-- The value behind the colon of a line, if it is all of the rest. -/
def readValue (rest : List Char) : Option String :=
  let text := rest.dropWhile isWhitespace
  if text.any isLineTerminator then none
  else some (unquote (trim (String.ofList text)))

/-- The key and the value of a line. -/
def parseEntry (line : String) : Option (String × String) :=
  if line.toList.head?.any isKeyStart then
    match (line.toList.dropWhile isKeyCharacter).dropWhile isWhitespace with
    | ':' :: rest =>
      (readValue rest).map fun value =>
        (String.ofList (line.toList.takeWhile isKeyCharacter), value)
    | _ => none
  else none

structure Diagnostic where
  line : ℕ
  message : String
  severity : String
  code : String
  deriving DecidableEq

structure FrontmatterRange where
  entries : List FrontmatterEntry
  /-- The index of the closing fence. -/
  endLine : ℕ
  deriving DecidableEq

/-- The fields in the lines behind the opening fence. -/
def readEntries (lines : List String) : List FrontmatterEntry :=
  (lines.zipIdx 2).filterMap fun (line, number) =>
    (parseEntry line).map fun (key, value) => ⟨key, value, number⟩

def detectFrontmatter (lines : List String) : Option FrontmatterRange × List Diagnostic :=
  if lines.length < 2 ∨ lines.head? ≠ some fence then (none, [])
  else
    match lines.tail.findIdx? fun line => line = fence with
    | none =>
      (none, [{
        line := 1
        message := "frontmatter opens with --- but never closes"
        severity := "warning"
        code := "OC_FRONTMATTER_UNCLOSED" }])
    | some index =>
      (some { entries := readEntries (lines.tail.take index), endLine := index + 1 }, [])

end Reader

section Codec

/-- The line of a field, as `finalize` writes it. -/
def entryLine (key value : String) : String := key ++ ": " ++ formatFrontmatterValue value

/-- Wherever the line of a field stands in front matter, its value is read back. -/
def Keeps (key value : String) : Prop :=
  ∀ before after rest : List String, fence ∉ before → fence ∉ after →
    ∃ found diagnostics,
      detectFrontmatter (fence :: (before ++ entryLine key value :: after) ++ fence :: rest) =
        (some found, diagnostics) ∧
      ⟨key, value, before.length + 2⟩ ∈ found.entries

/-- A character that stands for itself between quotes. -/
def isPlain (character : Char) : Bool :=
  stringify.escape character = [character] && !isLineTerminator character

/--
The value is empty; or it is quoted, and none of its characters is escaped or
ends a line; or it is not quoted, has no white space around it, no quotes of its
own to lose and no end of a line.
-/
def Survives (value : String) : Prop :=
  value = "" ∨
    (value.toList.any isStructural = true ∧ value.toList.all isPlain = true) ∨
    (value.toList.any isStructural = false ∧ trim value = value ∧
      unquote value = value ∧ value.toList.any isLineTerminator = false)

private theorem escape_single_or_long (character : Char) :
    stringify.escape character = [character] ∨ 2 ≤ (stringify.escape character).length := by
  unfold stringify.escape
  simp only
  split_ifs <;> simp

variable (characters : List Char) (value : String)

private theorem length_le_flatMap_escape :
    characters.length ≤ (characters.flatMap stringify.escape).length := by
  induction characters with
  | nil => simp
  | cons character rest inductionHypothesis =>
    rw [List.flatMap_cons, List.length_append, List.length_cons]
    rcases escape_single_or_long character with single | long
    · rw [single, List.length_singleton]
      omega
    · omega

private theorem flatMap_escape_eq_self_iff : characters.flatMap stringify.escape = characters ↔
      ∀ character ∈ characters, stringify.escape character = [character] := by
  induction characters with
  | nil => simp
  | cons character rest inductionHypothesis =>
    rw [List.flatMap_cons, List.forall_mem_cons, ← inductionHypothesis]
    constructor
    · intro same
      have single : stringify.escape character = [character] := by
        refine (escape_single_or_long character).resolve_right fun long => ?_
        have lengths := congrArg List.length same
        have later := length_le_flatMap_escape rest
        rw [List.length_append, List.length_cons] at lengths
        omega
      rw [single, List.singleton_append] at same
      exact ⟨single, List.tail_eq_of_cons_eq same⟩
    · rintro ⟨single, same⟩
      rw [single, same, List.singleton_append]

private theorem dropWhile_space (rest : List Char) :
    (' ' :: rest).dropWhile isWhitespace = rest.dropWhile isWhitespace :=
  List.dropWhile_cons_of_pos (by decide)

private theorem readValue_stringify : readValue (' ' :: (stringify value).toList) =
      if (value.toList.flatMap stringify.escape).any isLineTerminator then none
      else some (String.ofList (value.toList.flatMap stringify.escape)) := by
  generalize escaped : value.toList.flatMap stringify.escape = inner
  have quoted : (stringify value).toList = '"' :: (inner ++ ['"']) := by
    rw [stringify, escaped, String.toList_ofList, List.cons_append]
  have noBlank : isWhitespace '"' = false := by decide
  have noBreak : isLineTerminator '"' = false := by decide
  have kept : trim (String.ofList ('"' :: (inner ++ ['"']))) =
      String.ofList ('"' :: (inner ++ ['"'])) := by
    simp [trim, noBlank]
  have stripped : unquote (String.ofList ('"' :: (inner ++ ['"']))) = String.ofList inner := by
    have long : 2 ≤ length (String.ofList ('"' :: (inner ++ ['"']))) := by
      have unit : codeUnitsOfChar '"' = [34] := by decide
      simp only [length, codeUnits, String.toList_ofList, List.flatMap_cons,
        List.flatMap_append, List.flatMap_nil, List.append_nil, List.length_append, unit,
        List.length_singleton]
      omega
    have last : (inner ++ ['"']).getLast? = some '"' := List.getLast?_concat
    simp only [unquote, String.toList_ofList]
    rw [if_pos ⟨long, last, Or.inl trivial⟩, List.dropLast_concat]
  simp only [readValue, dropWhile_space, quoted, List.dropWhile_cons_of_neg, noBlank,
    Bool.false_eq_true, not_false_eq_true, List.any_cons, List.any_append, noBreak,
    List.any_nil, Bool.or_false, Bool.false_or, kept, stripped]

private theorem readValue_stringify_eq_iff :
    readValue (' ' :: (stringify value).toList) = some value ↔ value.toList.all isPlain = true := by
  rw [readValue_stringify, List.all_eq_true]
  simp only [isPlain, Bool.and_eq_true, decide_eq_true_eq, Bool.not_eq_true']
  constructor
  · intro reads
    split_ifs at reads with breaks
    have same : value.toList.flatMap stringify.escape = value.toList := by
      have texts := congrArg String.toList (Option.some.inj reads)
      rwa [String.toList_ofList] at texts
    rw [same, List.any_eq_true] at breaks
    intro character member
    refine ⟨(flatMap_escape_eq_self_iff _).mp same character member, ?_⟩
    exact Bool.eq_false_iff.mpr fun ends => breaks ⟨character, member, ends⟩
  · intro plain
    have same := (flatMap_escape_eq_self_iff value.toList).mpr fun character member =>
      (plain character member).1
    have unbroken : value.toList.any isLineTerminator = false :=
      List.any_eq_false.mpr fun character member => by simp [(plain character member).2]
    rw [same, if_neg (by simp [unbroken]), String.ofList_toList]

private theorem length_unquote_le : (unquote value).toList.length ≤ value.toList.length := by
  unfold unquote
  cases characters : value.toList with
  | nil => simp [characters]
  | cons first more =>
    simp only
    split_ifs
    · simp only [String.toList_ofList, List.length_dropLast, List.length_cons]
      omega
    · rw [characters]

private theorem trim_eq_self_of_length {value : String}
    (long : value.toList.length ≤ (trim value).toList.length) : trim value = value ∧
      value.toList.dropWhile isWhitespace = value.toList := by
  generalize started : value.toList.dropWhile isWhitespace = start at *
  have isEnd : start <:+ value.toList := started ▸ List.dropWhile_suffix _
  have isStart : (start.reverse.dropWhile isWhitespace).reverse <+: start := by
    simpa using (List.dropWhile_suffix (l := start.reverse) isWhitespace).reverse
  have trimmed : (trim value).toList = (start.reverse.dropWhile isWhitespace).reverse := by
    rw [trim, started, String.toList_ofList]
  rw [trimmed] at long
  have whole : start = value.toList := isEnd.eq_of_length_le (long.trans isStart.length_le)
  have kept := isStart.eq_of_length_le (whole ▸ long)
  exact ⟨String.toList_inj.mp (by rw [trimmed, kept, whole]), whole⟩

private theorem trim_dropWhile : trim (String.ofList (characters.dropWhile isWhitespace)) =
      trim (String.ofList characters) := by
  simp only [trim, String.toList_ofList, List.dropWhile_idempotent]

private theorem readValue_eq_iff : readValue (' ' :: value.toList) = some value ↔
      trim value = value ∧ unquote value = value ∧ value.toList.any isLineTerminator = false := by
  simp only [readValue, dropWhile_space, trim_dropWhile, String.ofList_toList]
  constructor
  · intro reads
    split_ifs at reads with breaks
    have same := Option.some.inj reads
    have long : value.toList.length ≤ (trim value).toList.length := by
      have shorter := length_unquote_le (trim value)
      rwa [same] at shorter
    obtain ⟨trimmed, started⟩ := trim_eq_self_of_length long
    rw [trimmed] at same
    rw [started, Bool.not_eq_true] at breaks
    exact ⟨trimmed, same, breaks⟩
  · rintro ⟨trimmed, same, unbroken⟩
    have started := (trim_eq_self_of_length (by rw [trimmed])).2
    rw [started, if_neg (by simp [unbroken]), trimmed, same]

theorem survives_iff_readValue :
    Survives value ↔ readValue (' ' :: (formatFrontmatterValue value).toList) = some value := by
  unfold Survives formatFrontmatterValue
  split_ifs with empty structural
  · subst empty
    simp only [true_or, true_iff]
    decide
  · rw [readValue_stringify_eq_iff]
    simp [empty, structural]
  · rw [readValue_eq_iff]
    simp [empty, Bool.eq_false_iff.mpr structural]

private theorem parseEntry_entryLine {key : String} (valid : IsKey key) (value : String) :
    parseEntry (entryLine key value) =
      (readValue (' ' :: (formatFrontmatterValue value).toList)).map fun found => (key, found) := by
  have line : (entryLine key value).toList =
      key.toList ++ ':' :: ' ' :: (formatFrontmatterValue value).toList := by
    simp [entryLine]
  have keyOnly : ∀ character ∈ key.toList, isKeyCharacter character = true :=
    List.all_eq_true.mp valid.2
  have starts : (entryLine key value).toList.head?.any isKeyStart = true := by
    rw [line, List.head?_append]
    cases first : key.toList.head? with
    | none => simpa [first] using valid.1
    | some character => simpa [first] using valid.1
  have colon : isKeyCharacter ':' = false := by decide
  have blank : isWhitespace ':' = false := by decide
  rw [parseEntry, if_pos starts, line, List.dropWhile_append_of_pos keyOnly,
    List.takeWhile_append_of_pos keyOnly]
  simp [colon, blank]

private theorem detectFrontmatter_fences (lines rest : List String) (plain : fence ∉ lines) :
    detectFrontmatter (fence :: lines ++ fence :: rest) =
      (some { entries := readEntries lines, endLine := lines.length + 1 }, []) := by
  have none : lines.findIdx? (fun line => decide (line = fence)) = none :=
    List.findIdx?_eq_none_iff.mpr fun line member =>
      decide_eq_false fun same => plain (same ▸ member)
  have found : (lines ++ fence :: rest).findIdx? (fun line => decide (line = fence)) =
      some lines.length := by
    simp [List.findIdx?_append, none, List.findIdx?_cons]
  have long : ¬((fence :: lines ++ fence :: rest).length < 2 ∨
      (fence :: lines ++ fence :: rest).head? ≠ some fence) := by
    rintro (short | other)
    · simp only [List.length_append, List.length_cons] at short
      omega
    · exact other rfl
  rw [detectFrontmatter, if_neg long]
  simp [found]

private theorem mem_readEntries_iff (before after : List String) (line key value : String) :
    ⟨key, value, before.length + 2⟩ ∈ readEntries (before ++ line :: after) ↔
      parseEntry line = some (key, value) := by
  have there : (before ++ line :: after)[before.length]? = some line := by simp
  simp only [readEntries, List.mem_filterMap, Prod.exists, Option.map_eq_some_iff,
    FrontmatterEntry.mk.injEq, List.mk_mem_zipIdx_iff_le_and_getElem?_sub]
  constructor
  · rintro ⟨found, number, ⟨_, atIndex⟩, foundKey, foundValue, reads, rfl, rfl, rfl⟩
    rw [Nat.add_sub_cancel, there] at atIndex
    rw [Option.some.inj atIndex, reads]
  · intro reads
    exact ⟨line, before.length + 2, ⟨by omega, by rw [Nat.add_sub_cancel, there]⟩,
      key, value, reads, rfl, rfl, rfl⟩

/--
A value is read back from the line that is written for it, wherever that line
stands in front matter, just when it survives.
-/
theorem keeps_iff_survives {key : String} (valid : IsKey key) (value : String) :
    Keeps key value ↔ Survives value := by
  have reads : parseEntry (entryLine key value) = some (key, value) ↔ Survives value := by
    rw [survives_iff_readValue, parseEntry_entryLine valid]
    simp
  have noFence : entryLine key value ≠ fence := by
    intro same
    have first : (entryLine key value).toList.head?.any isKeyStart = true := by
      cases first : key.toList.head? with
      | none => simp [first, IsKey] at valid
      | some character => simpa [entryLine, first, List.head?_append] using valid.1
    rw [same] at first
    revert first
    decide
  rw [← reads]
  constructor
  · intro keeps
    obtain ⟨found, diagnostics, detected, member⟩ := keeps [] [] [] (by simp) (by simp)
    rw [detectFrontmatter_fences _ _ (by simpa using noFence.symm)] at detected
    cases detected
    exact (mem_readEntries_iff [] [] _ key value).mp member
  · intro reads before after rest plainBefore plainAfter
    have plain : fence ∉ before ++ entryLine key value :: after := by
      simp [plainBefore, plainAfter, noFence.symm]
    exact ⟨_, _, detectFrontmatter_fences _ rest plain,
      (mem_readEntries_iff before after _ key value).mpr reads⟩

theorem keeps_quotedBlanks : IsKey "title" ∧ (Keeps "title" " a: b " ↔ Survives " a: b ") :=
  ⟨by decide, keeps_iff_survives (by decide) " a: b "⟩

/-- A value with quotes around it loses them. -/
theorem not_keeps_quotes : ¬ ∀ key value : String, IsKey key → '
' ∉ value.toList → Keeps key value := by
  intro keeps
  obtain ⟨found, diagnostics, detected, member⟩ :=
    keeps "title" "'a'" (by decide) (by decide) [] [] [] (by simp) (by simp)
  have reads : detectFrontmatter (fence :: ([] ++ entryLine "title" "'a'" :: []) ++ [fence]) =
      (some { entries := [⟨"title", "a", 2⟩], endLine := 2 }, []) := by
    decide +kernel
  rw [reads] at detected
  cases detected
  revert member
  decide

end Codec

end Markdown
