import AieClaw.OcPathGrammar

/-!
# What the `oc://` formatter writes

The formatter quotes raw text, and passes on what is quoted already or has a
form of its own. Each part of a path comes with the condition under which the
parser reads back what was written for it.
-/

namespace OcPathSyntax

open TopLevelSplit JsString

section Quoting

variable {delimiter : Char} {value : String}

def quoted (value : String) : String := "\"" ++ value ++ "\""

theorem toList_quoted (value : String) : (quoted value).toList = '"' :: value.toList ++ ['"'] := by
  simp [quoted, String.toList_append]

theorem isQuotedSeg_quoted (value : String) : isQuotedSeg (quoted value) = true := by
  have long : 2 ≤ length (quoted value) := by
    simp [length, codeUnits, toList_quoted, codeUnitsOfChar]
  have isFirst : firstIs (quoted value) '"' = true := by
    simp [firstIs, toList_quoted]
  have isLast : lastIs (quoted value) '"' = true := by
    simp only [lastIs, toList_quoted, List.getLast?_concat, beq_self_eq_true]
  simp [isQuotedSeg, isFirst, isLast, long]

theorem inner_quoted (value : String) : inner (quoted value) = value := by
  simp [inner, toList_quoted]

theorem unquoteSeg_quoted (value : String) : unquoteSeg (quoted value) = value := by
  rw [unquoteSeg, if_pos (isQuotedSeg_quoted value), inner_quoted]

theorem isQuotedSeg_of_not_mem (plain : '"' ∉ value.toList) : isQuotedSeg value = false := by
  have notFirst : firstIs value '"' = false := by
    simp only [firstIs, beq_eq_false_iff_ne]
    intro isFirst
    exact plain (List.mem_of_mem_head? isFirst)
  simp [isQuotedSeg, notFirst]

def insideQuote : Depth := { Depth.top with inQuote := true }

theorem isPieceFrom_insideQuote {text : List Char} (plain : '"' ∉ text) :
    IsPieceFrom bracketScanner delimiter insideQuote (text ++ ['"']) := by
  have notTop : insideQuote ≠ bracketScanner.top := by decide
  induction text with
  | nil => exact ⟨fun separates => notTop separates.1, .top, rfl, rfl⟩
  | cons character rest inductionHypothesis =>
    simp only [List.mem_cons, not_or] at plain
    obtain ⟨notQuote, restPlain⟩ := plain
    have step : bracketScanner.step insideQuote character = some insideQuote := by
      simp [bracketScanner_step, scanStep, insideQuote, Ne.symm notQuote]
    exact ⟨fun separates => notTop separates.1, insideQuote, step, inductionHypothesis restPlain⟩

theorem whole_quoted (plain : '"' ∉ value.toList) (separator : IsSeparator delimiter) :
    Whole delimiter (quoted value) := by
  have differs : '"' ≠ delimiter := by
    rintro rfl
    exact separator (by decide)
  rw [Whole, toList_quoted]
  exact ⟨fun separates => differs separates.2, insideQuote, rfl, isPieceFrom_insideQuote plain⟩

theorem isSeparator_of_plain {character : Char} (plain : needsQuoteInSlot character = false)
    (notQuote : character ≠ '"') : IsSeparator character := by
  simp only [needsQuoteInSlot, Bool.or_eq_false_iff] at plain
  simp_all [IsSeparator]

theorem whole_of_plain (plain : value.toList.any needsQuoteInSlot = false)
    (withoutQuote : '"' ∉ value.toList) (delimits : needsQuoteInSlot delimiter = true) :
    Whole delimiter value := by
  apply isPiece_of_neutral
  intro character member
  have isPlain : needsQuoteInSlot character = false := by
    simpa using List.any_eq_false.mp plain character member
  have notQuote : character ≠ '"' := by
    rintro rfl
    exact withoutQuote member
  refine ⟨step_separator (isSeparator_of_plain isPlain notQuote) .top, ?_⟩
  rintro rfl
  rw [delimits] at isPlain
  cases isPlain

end Quoting

section ValidSubs

variable {value : String}

theorem validSub_quoted (withoutQuote : '"' ∉ value.toList)
    (withoutBackslash : '\\' ∉ value.toList) (printable : hasControlChar value = false) :
    ValidSub (quoted value) := by
  have printableQuoted : hasControlChar (quoted value) = false := by
    simp only [hasControlChar, toList_quoted, List.cons_append,
      List.any_cons, List.any_append, List.any_nil, Bool.or_false] at printable ⊢
    simp [printable, isControlChar]
  have nonempty : quoted value ≠ "" := by
    intro empty
    have characters := congrArg String.toList empty
    simp [toList_quoted] at characters
  simp [ValidSub, validateSubSegment, checks_eq_ok_iff, isQuotedSeg_quoted,
    inner_quoted, includes, withoutQuote, withoutBackslash, printableQuoted, nonempty]

/-- Text that needs no quotes is a valid sub-segment. -/
theorem validSub_of_plain (nonempty : value ≠ "")
    (plain : value.toList.any needsQuoteInSlot = false) (withoutQuote : '"' ∉ value.toList)
    (printable : hasControlChar value = false) : ValidSub value := by
  have absent : ∀ character ∈ value.toList, needsQuoteInSlot character = false :=
    fun character member => by simpa using List.any_eq_false.mp plain character member
  have notFirst (character : Char) (needs : needsQuoteInSlot character = true) :
      firstIs value character = false := by
    simp only [firstIs, beq_eq_false_iff_ne]
    intro isFirst
    rw [absent character (List.mem_of_mem_head? isFirst)] at needs
    cases needs
  have notLast (character : Char) (needs : needsQuoteInSlot character = true) :
      lastIs value character = false := by
    simp only [lastIs, beq_eq_false_iff_ne]
    intro isLast
    rw [absent character (List.mem_of_mem_getLast? isLast)] at needs
    cases needs
  have unreserved : value.toList.any isReserved = false := by
    rw [List.any_eq_false]
    intro character member reserved
    have plainCharacter := absent character member
    simp only [needsQuoteInSlot, Bool.or_eq_false_iff] at plainCharacter
    simp_all [isReserved]
  have noWhitespace : value.toList.any isWhitespace = false := by
    rw [List.any_eq_false]
    intro character member white
    have plainCharacter := absent character member
    simp only [needsQuoteInSlot, Bool.or_eq_false_iff] at plainCharacter
    rw [plainCharacter.2] at white
    cases white
  have trimmed := trim_of_plain fun character member =>
    Bool.eq_false_iff.mpr (List.any_eq_false.mp noWhitespace character member)
  simp [ValidSub, validateSubSegment, validateUnquotedSegment,
    checks_eq_ok_iff, isQuotedSeg_of_not_mem withoutQuote, nonempty, printable,
    notFirst '[' (by decide), notFirst '{' (by decide),
    notLast ']' (by decide), notLast '}' (by decide), unreserved,
    noWhitespace, trimmed, pure, Except.pure]

theorem quoteSeg_eq_ok_iff {text : String} (nonempty : value ≠ "") : quoteSeg value = .ok text ↔
      '"' ∉ value.toList ∧
        '\\' ∉ value.toList ∧
        text =
          if value.toList.any needsQuoteInSlot then quoted value else value := by
  simp only [quoteSeg, nonempty, if_false, includes, quoted]
  by_cases hasQuote : '"' ∈ value.toList
  · simp [hasQuote]
  · by_cases hasBackslash : '\\' ∈ value.toList
    · simp [hasBackslash]
    · by_cases needs : value.toList.any needsQuoteInSlot = true
      · simp only [needs, if_true]
        simp [hasQuote, hasBackslash, eq_comm]
      · simp only [needs]
        simp [hasQuote, hasBackslash, eq_comm]

/-- The forms that are written as they are. -/
def isVerbatimForm (sub : String) : Bool :=
  isQuotedSeg sub || (firstIs sub '[' && lastIs sub ']') || (firstIs sub '{' && lastIs sub '}')

theorem formatSubSegment_eq (sub : String) : formatSubSegment sub =
      if isVerbatimForm sub then .ok sub else quoteSeg sub := by
  simp only [formatSubSegment, isVerbatimForm]
  grind

/-- A sub-segment that the parser reads as one, wherever it stands. -/
structure Readable (sub : String) : Prop where
  valid : ValidSub sub
  withoutDot : Whole '.' sub
  withoutSlash : Whole '/' sub
  withoutQuery : Whole '?' sub

theorem readable_quoted (withoutQuote : '"' ∉ value.toList)
    (withoutBackslash : '\\' ∉ value.toList) (printable : hasControlChar value = false) :
    Readable (quoted value) where
  valid := validSub_quoted withoutQuote withoutBackslash printable
  withoutDot := whole_quoted withoutQuote (by decide)
  withoutSlash := whole_quoted withoutQuote (by decide)
  withoutQuery := whole_quoted withoutQuote (by decide)

theorem readable_of_plain (nonempty : value ≠ "")
    (plain : value.toList.any needsQuoteInSlot = false) (withoutQuote : '"' ∉ value.toList)
    (printable : hasControlChar value = false) : Readable value where
  valid := validSub_of_plain nonempty plain withoutQuote printable
  withoutDot := whole_of_plain plain withoutQuote (by decide)
  withoutSlash := whole_of_plain plain withoutQuote (by decide)
  withoutQuery := whole_of_plain plain withoutQuote (by decide)

/--
A formatted sub-segment is readable, if it was so where it is written as it is,
and names the same thing without its quotes.
-/
theorem readable_of_formatSubSegment {sub text : String} (nonempty : sub ≠ "")
    (printable : hasControlChar sub = false) (verbatim : isVerbatimForm sub = true → Readable sub)
    (formatted : formatSubSegment sub = .ok text) :
    Readable text ∧ unquoteSeg text = unquoteSeg sub := by
  rw [formatSubSegment_eq] at formatted
  split_ifs at formatted with isVerbatim
  · obtain rfl := Except.ok.inj formatted
    exact ⟨verbatim isVerbatim, rfl⟩
  · obtain ⟨withoutQuote, withoutBackslash, rfl⟩ := (quoteSeg_eq_ok_iff nonempty).mp formatted
    have notQuoted : unquoteSeg sub = sub := by
      rw [unquoteSeg, isQuotedSeg_of_not_mem withoutQuote]
      rfl
    split_ifs with needs
    · exact ⟨readable_quoted withoutQuote withoutBackslash printable,
        by rw [unquoteSeg_quoted, notQuoted]⟩
    · exact ⟨readable_of_plain nonempty (by simpa using needs) withoutQuote printable, rfl⟩

end ValidSubs

section Slots

/-- The formatter writes the slot as the text. -/
def SlotText (slot text : String) : Prop :=
  ∃ subs formatted,
    Splits '.' slot subs ∧
      (∀ sub ∈ subs, sub ≠ "" ∧ hasControlChar sub = false) ∧
      List.Forall₂ (fun sub text => formatSubSegment sub = .ok text) subs formatted ∧
      text = ".".intercalate formatted

variable {slot text : String} {subs : List String}

theorem formatSlot_eq_ok_iff {file slotName : String} :
    formatSlot file slot slotName = .ok text ↔ SlotText slot text := by
  have dot : IsSeparator '.' := by decide
  simp only [formatSlot, bind_eq_ok_iff, splitRespectingBrackets_eq_ok_iff dot,
    forM_eq_ok_iff, mapM_eq_ok_iff, validateSubForFormat, failIf_eq_ok_iff,
    decide_eq_false_iff_not, exists_const, Except.ok.injEq, SlotText]
  constructor
  · rintro ⟨subs, splits, checked, formatted, each, rfl⟩
    exact ⟨subs, formatted, splits, checked, each, rfl⟩
  · rintro ⟨subs, formatted, splits, checked, each, rfl⟩
    exact ⟨subs, splits, checked, formatted, each, rfl⟩

/--
The sub-segments of the slot that are written as they are can be read, and they
are not too many.
-/
def ReadableSlot (slot : String) : Prop :=
  ∀ subs,
    Splits '.' slot subs →
    subs.length ≤ maxSubSegmentsPerSlot ∧ ∀ sub ∈ subs, isVerbatimForm sub = true → Readable sub

theorem validSegment_intercalate (nonempty : subs ≠ [])
    (few : subs.length ≤ maxSubSegmentsPerSlot) (readable : ∀ sub ∈ subs, Readable sub) :
    ValidSegment (".".intercalate subs) where
  nonempty := by
    obtain ⟨first, rest, rfl⟩ := List.exists_cons_of_ne_nil nonempty
    have valid := (readable first List.mem_cons_self).valid
    exact intercalate_ne_empty List.mem_cons_self valid.nonempty
  withoutSlash :=
    whole_intercalate (by decide) (by decide) fun sub member => (readable sub member).withoutSlash
  withoutQuery :=
    whole_intercalate (by decide) (by decide) fun sub member => (readable sub member).withoutQuery
  subs := ⟨subs,
    ⟨nonempty, fun sub member => (readable sub member).withoutDot, rfl⟩, few,
    fun sub member => (readable sub member).valid⟩

/-- The unquoted sub-segments of a slot. -/
def unquotedSubs : Option String → Result (List String)
  | none => .ok []
  | some slot => do
      let subs ← splitRespectingBrackets slot '.' slot
      .ok (subs.map unquoteSeg)

theorem unquotedSubs_of_splits
    (splits : Splits '.' slot subs) : unquotedSubs (some slot) = .ok (subs.map unquoteSeg) := by
  have dot : IsSeparator '.' := by decide
  simp only [unquotedSubs, bind_eq_ok_iff, splitRespectingBrackets_eq_ok_iff dot]
  exact ⟨subs, splits, rfl⟩

/-- The text is what the formatter writes for the sub-segment. -/
structure Rewritten (sub text : String) : Prop where
  nonempty : sub ≠ ""
  formatted : formatSubSegment sub = .ok text
  readable : Readable text
  sameName : unquoteSeg text = unquoteSeg sub

theorem readable_of_rewritten {formatted : List String}
    (rewritten : List.Forall₂ Rewritten subs formatted) : ∀ text ∈ formatted, Readable text := by
  induction rewritten with
  | nil => simp
  | cons first others inductionHypothesis =>
    rw [List.forall_mem_cons]
    exact ⟨first.readable, inductionHypothesis⟩

theorem splits_of_slotText (written : SlotText slot text)
    (readable : ReadableSlot slot) : ∃ subs formatted,
      Splits '.' slot subs ∧ Splits '.' text formatted ∧
        subs.length ≤ maxSubSegmentsPerSlot ∧
        List.Forall₂ Rewritten subs formatted := by
  obtain ⟨subs, formatted, splits, checked, each, rfl⟩ := written
  obtain ⟨few, verbatim⟩ := readable subs splits
  have outcome : List.Forall₂ Rewritten subs formatted := by
    have conditions := (List.forall₂_and_left _ _).mpr ⟨checked, each⟩
    have both := (List.forall₂_and_left _ _).mpr ⟨verbatim, conditions⟩
    refine both.imp ?_
    rintro sub text ⟨isReadable, ⟨nonempty, printable⟩, written⟩
    obtain ⟨readableText, sameName⟩ :=
      readable_of_formatSubSegment nonempty printable isReadable written
    exact ⟨nonempty, written, readableText, sameName⟩
  have nonempty : formatted ≠ [] := by
    rintro rfl
    cases outcome
    exact splits.nonempty rfl
  have whole : ∀ text ∈ formatted, Whole '.' text :=
    fun text member => (readable_of_rewritten outcome text member).withoutDot
  exact ⟨subs, formatted, splits, ⟨nonempty, whole, rfl⟩, few, outcome⟩

theorem validSegment_of_slotText (written : SlotText slot text) (readable : ReadableSlot slot) :
    ValidSegment text ∧ unquotedSubs (some text) = unquotedSubs (some slot) := by
  obtain ⟨subs, formatted, splits, textSplits, few, outcome⟩ := splits_of_slotText written readable
  have readableTexts := readable_of_rewritten outcome
  have sameMap : formatted.map unquoteSeg = subs.map unquoteSeg := by
    rw [← List.forall₂_eq_eq_eq, List.forall₂_map_left_iff, List.forall₂_map_right_iff]
    exact (outcome.imp fun sub text rewritten => rewritten.sameName).flip
  refine ⟨?_, ?_⟩
  · rw [textSplits.joined]
    exact validSegment_intercalate textSplits.nonempty
      (by rw [← outcome.length_eq]; exact few) readableTexts
  · rw [unquotedSubs_of_splits textSplits, unquotedSubs_of_splits splits, sameMap]

end Slots

section Files

variable {file text : String}

/-- The file as it is written. -/
def canonicalFile (file : String) : String :=
  if file.toList.any needsQuoteInFile then quoted file else file

/--
A file that is written without quotes has no empty piece between its dots, and
not too many pieces.
-/
def ReadableFile (file : String) : Prop :=
  file.toList.any needsQuoteInFile = false →
    (split file '.').length ≤ maxSubSegmentsPerSlot ∧ "" ∉ split file '.'

/-- A file that is quoted contains neither quotes nor backslashes. -/
def QuotableFile (file : String) : Prop :=
  file.toList.any needsQuoteInFile = true → '"' ∉ file.toList ∧ '\\' ∉ file.toList

theorem needsQuoteInFile_eq_true_iff (character : Char) : needsQuoteInFile character = true ↔
      (needsQuoteInSlot character = true ∧ character ≠ '.') ∨ character = '"' := by
  have dotIsBlack : isWhitespace '.' = false := by decide
  by_cases isDot : character = '.'
  · subst isDot
    decide
  · simp only [needsQuoteInFile, needsQuoteInSlot, Bool.or_eq_true,
      List.contains_eq_mem, decide_eq_true_eq, List.mem_cons,
      List.not_mem_nil, or_false, isDot, false_or, ne_eq, not_false_iff, and_true]
    tauto

theorem any_needsQuoteInSlot (needs : file.toList.any needsQuoteInFile = true)
    (withoutQuote : '"' ∉ file.toList) : file.toList.any needsQuoteInSlot = true := by
  obtain ⟨character, member, needed⟩ := List.any_eq_true.mp needs
  refine List.any_eq_true.mpr ⟨character, member, ?_⟩
  rcases (needsQuoteInFile_eq_true_iff character).mp needed with ⟨inSlot, -⟩ | rfl
  · exact inSlot
  · exact absurd member withoutQuote

theorem formatFile_eq_ok_iff (nonempty : file ≠ "") : formatFile file = .ok text ↔
      QuotableFile file ∧ text = canonicalFile file := by
  simp only [formatFile, QuotableFile, canonicalFile]
  by_cases needs : file.toList.any needsQuoteInFile = true
  · simp only [needs, if_true, quoteSeg_eq_ok_iff nonempty, true_implies]
    constructor
    · rintro ⟨withoutQuote, withoutBackslash, rfl⟩
      exact ⟨⟨withoutQuote, withoutBackslash⟩, if_pos (any_needsQuoteInSlot needs withoutQuote)⟩
    · rintro ⟨⟨withoutQuote, withoutBackslash⟩, rfl⟩
      exact ⟨withoutQuote, withoutBackslash,
        (if_pos (any_needsQuoteInSlot needs withoutQuote)).symm⟩
  · simp [needs, eq_comm]

theorem ValidFile.printable (valid : ValidFile file) : hasControlChar file = false := by
  simp only [ValidFile, validateFileSlot, checks_eq_ok_iff, failIf_eq_ok_iff] at valid
  exact valid.2.2

/-- A readable file is written as a segment that stands for it. -/
theorem validSegment_canonicalFile (valid : ValidFile file) (quotable : QuotableFile file)
    (readable : ReadableFile file) : ValidSegment (canonicalFile file) ∧
      unquoteSeg (canonicalFile file) = file := by
  by_cases needs : file.toList.any needsQuoteInFile = true
  · obtain ⟨withoutQuote, withoutBackslash⟩ := quotable needs
    have isReadable := readable_quoted withoutQuote withoutBackslash valid.printable
    have segment :=
      validSegment_intercalate (List.cons_ne_nil (quoted file) [])
        (show 1 ≤ maxSubSegmentsPerSlot by decide) (by simpa using isReadable)
    rw [String.intercalate_singleton] at segment
    simp only [canonicalFile, needs, if_true]
    exact ⟨segment, unquoteSeg_quoted file⟩
  · have plain : file.toList.any needsQuoteInFile = false := by
      simpa using needs
    obtain ⟨few, allNonempty⟩ := readable plain
    have characters (character : Char) (member : character ∈ file.toList) : character ≠ '"' ∧
          (character ≠ '.' → needsQuoteInSlot character = false) := by
      have notNeeded := List.any_eq_false.mp plain character member
      rw [needsQuoteInFile_eq_true_iff, not_or] at notNeeded
      refine ⟨notNeeded.2, fun notDot => ?_⟩
      by_contra inSlot
      exact notNeeded.1 ⟨by simpa using inSlot, notDot⟩
    have joined := intercalate_split file '.'
    have readableSubs : ∀ sub ∈ split file '.', Readable sub := by
      intro sub member
      have occurs : sub.toList <:+: file.toList := by
        have infixed : sub.toList <:+: ((String.ofList ['.']).intercalate
                (split file '.')).toList :=
          isInfix_intercalate member
        rwa [joined] at infixed
      have withoutDot : '.' ∉ sub.toList := by
        obtain ⟨piece, pieceMember, rfl⟩ := List.mem_map.mp member
        rw [String.toList_ofList]
        exact not_mem_of_mem_splitOn pieceMember
      have subPlain : sub.toList.any needsQuoteInSlot = false := by
        rw [List.any_eq_false]
        intro character characterMember needed
        have inFile := characters character (occurs.mem characterMember)
        have notDot : character ≠ '.' := by
          rintro rfl
          exact withoutDot characterMember
        rw [inFile.2 notDot] at needed
        cases needed
      have subPrintable : hasControlChar sub = false := by
        rw [hasControlChar, List.any_eq_false]
        intro character characterMember
        exact List.any_eq_false.mp valid.printable character (occurs.mem characterMember)
      refine readable_of_plain ?_ subPlain ?_ subPrintable
      · rintro rfl
        exact allNonempty member
      · intro quoteMember
        exact (characters '"' (occurs.mem quoteMember)).1 rfl
    have splitNonempty : split file '.' ≠ [] := by
      simp [split, List.splitOn_ne_nil]
    have segment := validSegment_intercalate splitNonempty few readableSubs
    have fileSegment : ValidSegment file := by
      rw [← joined]
      exact segment
    have withoutQuote : '"' ∉ file.toList := fun member => (characters '"' member).1 rfl
    simp only [canonicalFile, plain, Bool.false_eq_true, if_false]
    refine ⟨fileSegment, ?_⟩
    rw [unquoteSeg, isQuotedSeg_of_not_mem withoutQuote]
    rfl

end Files

section Formatting

/-- The slots that a path has, in order. -/
def OcPath.slots (path : OcPath) : List String :=
  path.sectionSlot.toList ++ path.itemSlot.toList ++ path.fieldSlot.toList

/-- Every slot implies the one before it. -/
def OcPath.Nested (path : OcPath) : Prop :=
  (path.itemSlot.isSome → path.sectionSlot.isSome) ∧ (path.fieldSlot.isSome → path.itemSlot.isSome)

/-- The path with other texts in its slots. -/
def OcPath.withSlots (path : OcPath) (slots : List String) : OcPath where
  file := path.file
  sectionSlot := slots[0]?
  itemSlot := slots[1]?
  fieldSlot := slots[2]?
  session := path.session

variable {path : OcPath} {text : String}

theorem OcPath.Nested.withSlots_slots (nested : path.Nested) :
    path.withSlots path.slots = path := by
  obtain ⟨file, sectionSlot, itemSlot, fieldSlot, session⟩ := path
  obtain ⟨item, field⟩ := nested
  cases sectionSlot <;> cases itemSlot <;> cases fieldSlot <;>
    simp_all [OcPath.withSlots, OcPath.slots]

theorem OcPath.Nested.length_slots (nested : path.Nested) : path.slots.length ≤ 3 := by
  obtain ⟨file, sectionSlot, itemSlot, fieldSlot, session⟩ := path
  cases sectionSlot <;> cases itemSlot <;> cases fieldSlot <;> simp [OcPath.slots]

/-- The query of a path that has a session. -/
def sessionMark (session : Option String) : Option String := session.map ("session=" ++ ·)

/-- The formatter writes the path as the text. -/
structure Formats (path : OcPath) (slots : List String) (text : String) : Prop where
  nonempty : path.file ≠ ""
  validFile : ValidFile path.file
  nested : path.Nested
  quotable : QuotableFile path.file
  slotTexts : List.Forall₂ SlotText path.slots slots
  validSession : ∀ session ∈ path.session, ValidSession session
  shape :
    text =
      ocScheme ++ "/".intercalate (canonicalFile path.file :: slots) ++
        queryText (sessionMark path.session)
  short : length text ≤ maxPathLength
  withoutSentinel : includesText text redactedSentinel = false

theorem formatOptionalSlot_eq_ok_iff {file slotName : String} {slot : Option String} :
    formatOptionalSlot file slot slotName = .ok text ↔ ∃ texts,
        List.Forall₂ SlotText slot.toList texts ∧ text = String.join (texts.map ("/" ++ ·)) := by
  cases slot with
  | none => simp [formatOptionalSlot, eq_comm]
  | some slot =>
    simp only [formatOptionalSlot, bind_eq_ok_iff, formatSlot_eq_ok_iff,
      Option.toList_some, List.forall₂_cons_left_iff, List.forall₂_nil_left_iff]
    constructor
    · rintro ⟨written, slotText, returned⟩
      refine ⟨[written], ⟨written, [], slotText, rfl, rfl⟩, ?_⟩
      simpa using (Except.ok.inj returned).symm
    · rintro ⟨texts, ⟨written, rest, slotText, rfl, rfl⟩, rfl⟩
      exact ⟨written, slotText, by simp⟩

theorem formatSession_eq_ok_iff : formatSession path = .ok text ↔
      (∀ session ∈ path.session, ValidSession session) ∧
        text = queryText (sessionMark path.session) := by
  simp only [formatSession, sessionMark]
  cases path.session with
  | none => simp [queryText, eq_comm]
  | some session =>
    simp only [checks_eq_ok_iff, validateSessionSlot_eq_ok_iff,
      Option.mem_some_iff, forall_eq', Option.map_some, queryText, Except.ok.injEq]
    constructor
    · rintro ⟨valid, rfl⟩
      exact ⟨valid, by simp [← String.toList_inj]⟩
    · rintro ⟨valid, rfl⟩
      exact ⟨valid, by simp [← String.toList_inj]⟩

theorem intercalate_cons_eq_join (file : String) (slots : List String) :
    "/".intercalate (file :: slots) = file ++ String.join (slots.map ("/" ++ ·)) := by
  induction slots generalizing file with
  | nil => simp
  | cons slot rest inductionHypothesis =>
    rw [String.intercalate_cons_cons, inductionHypothesis, List.map_cons,
      String.join_cons, String.append_assoc, String.append_assoc]

theorem forall₂_append_left_iff {α β : Type} {related : α → β → Prop}
    {first second : List α} {values : List β} : List.Forall₂ related (first ++ second) values ↔
      ∃ before after, List.Forall₂ related first before ∧
          List.Forall₂ related second after ∧
          values = before ++ after := by
  constructor
  · intro all
    refine ⟨values.take first.length, values.drop first.length, ?_, ?_, ?_⟩
    · simpa using List.forall₂_take first.length all
    · simpa using List.forall₂_drop first.length all
    · exact (List.take_append_drop first.length values).symm
  · rintro ⟨before, after, firstAll, secondAll, rfl⟩
    exact List.rel_append firstAll secondAll

/-- What the formatter accepts, and what it writes. -/
theorem formatOcPath_eq_ok_iff :
    formatOcPath path = .ok text ↔ ∃ slots, Formats path slots text := by
  have nesting : path.Nested ↔ (path.itemSlot.isSome && path.sectionSlot.isNone) = false ∧
          (path.fieldSlot.isSome && path.itemSlot.isNone) = false := by
    simp only [OcPath.Nested]
    cases path.sectionSlot <;> cases path.itemSlot <;> cases path.fieldSlot <;> simp
  have guarded (out : String) :
      (if includesText out redactedSentinel then Except.error (OcError.sentinel out)
        else Except.ok out) = .ok text ↔
        includesText out redactedSentinel = false ∧ out = text := by
    cases includesText out redactedSentinel <;> simp
  simp only [formatOcPath, bind_eq_ok_iff, failIf_eq_ok_iff, exists_const,
    decide_eq_false_iff_not, validateFileSlot_eq_ok_iff,
    formatOptionalSlot_eq_ok_iff, formatSession_eq_ok_iff, not_lt, guarded]
  constructor
  · rintro ⟨nonempty, validFile, item, field, file, fileWritten, sectionText,
      ⟨sections, sectionAll, rfl⟩, itemText, ⟨items, itemAll, rfl⟩, fieldText,
      ⟨fields, fieldAll, rfl⟩, sessionText, ⟨validSession, rfl⟩, short,
      withoutSentinel, rfl⟩
    obtain ⟨quotable, rfl⟩ := (formatFile_eq_ok_iff nonempty).mp fileWritten
    refine ⟨sections ++ items ++ fields, ?_⟩
    exact {
      nonempty := nonempty
      validFile := validFile
      nested := nesting.mpr ⟨item, field⟩
      quotable := quotable
      slotTexts := List.rel_append (List.rel_append sectionAll itemAll) fieldAll
      validSession := validSession
      shape := by
        rw [intercalate_cons_eq_join, List.map_append, List.map_append,
          String.join_append, String.join_append]
        simp only [String.append_assoc]
      short := short
      withoutSentinel := withoutSentinel }
  · rintro ⟨slots, formats⟩
    obtain ⟨item, field⟩ := nesting.mp formats.nested
    obtain ⟨others, fields, otherAll, fieldAll, rfl⟩ :=
      forall₂_append_left_iff.mp formats.slotTexts
    obtain ⟨sections, items, sectionAll, itemAll, rfl⟩ := forall₂_append_left_iff.mp otherAll
    have shape := formats.shape
    rw [intercalate_cons_eq_join, List.map_append, List.map_append,
      String.join_append, String.join_append] at shape
    simp only [← String.append_assoc] at shape
    refine ⟨formats.nonempty, formats.validFile, item, field, canonicalFile path.file,
      (formatFile_eq_ok_iff formats.nonempty).mpr ⟨formats.quotable, rfl⟩,
      _, ⟨sections, sectionAll, rfl⟩, _, ⟨items, itemAll, rfl⟩,
      _, ⟨fields, fieldAll, rfl⟩, _, ⟨formats.validSession, rfl⟩, ?_⟩
    rw [← shape]
    exact ⟨formats.short, formats.withoutSentinel, rfl⟩

end Formatting

end OcPathSyntax
