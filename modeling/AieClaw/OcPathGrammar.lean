import AieClaw.OcPath

/-!
# The grammar of `oc://` texts

What the parser accepts and what the formatter writes, in terms of pieces: a
text behind the scheme is a list of segments joined by slashes, a segment is a
list of sub-segments joined by dots, and the separators that count are those
outside of quotes, brackets and braces.
-/

namespace OcPathSyntax

open TopLevelSplit List Option

section Results

variable {α β : Type}

theorem bind_eq_ok_iff {first : Result α} {next : α → Result β} {value : β} :
    (first >>= next) = .ok value ↔ ∃ result, first = .ok result ∧ next result = .ok value := by
  cases first with
  | error thrown =>
    constructor
    · intro impossible
      cases impossible
    · rintro ⟨result, impossible, -⟩
      cases impossible
  | ok result =>
    constructor
    · intro returned
      exact ⟨result, rfl, returned⟩
    · rintro ⟨other, same, returned⟩
      cases same
      exact returned

@[simp] theorem failIf_eq_ok_iff {condition : Bool} {message input code : String} {result : Unit} :
    failIf condition message input code = .ok result ↔ condition = false := by
  cases condition <;> simp [failIf]

theorem checks_eq_ok_iff {first : Result Unit} {next : Result β} {value : β} :
    (do first; next) = .ok value ↔ first = .ok () ∧ next = .ok value := by
  rw [bind_eq_ok_iff]
  constructor
  · rintro ⟨⟨⟩, passed, rest⟩
    exact ⟨passed, rest⟩
  · rintro ⟨passed, rest⟩
    exact ⟨(), passed, rest⟩

theorem forM_eq_ok_iff {check : α → Result Unit} {values : List α} {result : Unit} :
    values.forM check = .ok result ↔ ∀ value ∈ values, check value = .ok () := by
  induction values with
  | nil => simp [pure, Except.pure]
  | cons value rest inductionHypothesis =>
    have sequence : (value :: rest).forM check = (do check value; rest.forM check) := rfl
    rw [sequence, checks_eq_ok_iff, inductionHypothesis, forall_mem_cons]

theorem mapM_eq_ok_iff {change : α → Result β} {values : List α} {results : List β} :
    values.mapM change = .ok results ↔
      List.Forall₂ (fun value result => change value = .ok result) values
        results := by
  induction values generalizing results with
  | nil => simp [pure, Except.pure, eq_comm]
  | cons value rest inductionHypothesis =>
    simp only [mapM_cons, bind_eq_ok_iff, inductionHypothesis, forall₂_cons_left_iff]
    constructor
    · rintro ⟨result, changed, others, othersChanged, joined⟩
      exact ⟨result, others, changed, othersChanged, (Except.ok.inj joined).symm⟩
    · rintro ⟨result, others, changed, othersChanged, rfl⟩
      exact ⟨result, changed, others, othersChanged, rfl⟩

theorem exists_mapM_eq_ok_iff {change : α → Result β} {values : List α} :
    (∃ results, values.mapM change = .ok results) ↔
      ∀ value ∈ values, ∃ result, change value = .ok result := by
  constructor
  · rintro ⟨results, mapped⟩ value member
    have each := mapM_eq_ok_iff.mp mapped
    obtain ⟨index, inside, rfl⟩ := mem_iff_getElem.mp member
    have insideResults : index < results.length := by
      rwa [← each.length_eq]
    exact ⟨_, (forall₂_iff_get.mp each).2 index inside insideResults⟩
  · intro each
    induction values with
    | nil => exact ⟨[], rfl⟩
    | cons value rest inductionHypothesis =>
      obtain ⟨result, changed⟩ := each value mem_cons_self
      obtain ⟨results, mapped⟩ := inductionHypothesis
        fun other member => each other (.tail value member)
      refine ⟨result :: results, ?_⟩
      simp only [mapM_cons, bind_eq_ok_iff]
      exact ⟨result, changed, results, mapped, rfl⟩

theorem exists_then_ok_iff {first : Result α} {change : α → β} :
    (∃ result, (first >>= fun value => .ok (change value)) = .ok result) ↔
      ∃ value, first = .ok value := by
  simp only [bind_eq_ok_iff]
  constructor
  · rintro ⟨_, value, isValue, -⟩
    exact ⟨value, isValue⟩
  · rintro ⟨value, isValue⟩
    exact ⟨change value, value, isValue, rfl⟩

end Results

section Scanner

/-- The scanner of quotes, brackets and braces. -/
def bracketScanner : Scanner Depth Char where
  top := .top
  step depth character := (scanStep depth character).map Prod.fst

/-- The characters that open and close no region. -/
def IsSeparator (character : Char) : Prop := character ∉ ['"', '[', ']', '{', '}']

instance (character : Char) : Decidable (IsSeparator character) :=
  inferInstanceAs (Decidable (character ∉ ['"', '[', ']', '{', '}']))

/-- A text with balanced regions and the delimiter only inside of them. -/
def Whole (delimiter : Char) (text : String) : Prop := IsPiece bracketScanner delimiter text.toList

instance (delimiter : Char) (text : String) : Decidable (Whole delimiter text) :=
  inferInstanceAs (Decidable (IsPieceFrom bracketScanner delimiter Depth.top text.toList))

variable {delimiter character : Char}

theorem Depth.enter_separator (separator : IsSeparator character) (depth : Depth) :
    depth.enter character = some depth := by
  simp only [IsSeparator, mem_cons, not_mem_nil, or_false, not_or] at separator
  obtain ⟨-, first, second, third, fourth⟩ := separator
  simp only [Depth.enter]

theorem scanStep_separator (separator : IsSeparator character) (depth : Depth) :
    scanStep depth character = some (depth, decide (depth = .top)) := by
  have notQuote : character ≠ '"' := by
    rintro rfl
    exact separator (by decide)
  obtain ⟨brackets, braces, inQuote⟩ := depth
  cases inQuote with
  | true => simp [scanStep, notQuote, Depth.top]
  | false =>
    simp only [scanStep, notQuote, Depth.enter_separator separator,
      map_some, Bool.false_eq_true, if_false, Depth.top, Depth.mk.injEq, and_true, Bool.decide_and]
    rfl

@[simp] theorem bracketScanner_top : bracketScanner.top = .top := rfl

theorem bracketScanner_step (depth : Depth) (character : Char) :
    bracketScanner.step depth character = (scanStep depth character).map Prod.fst :=
  rfl

@[simp] theorem step_separator (separator : IsSeparator character) (depth : Depth) :
    bracketScanner.step depth character = some depth := by
  simp [bracketScanner_step, scanStep_separator separator]

/-- The loop with its buffer and output computes the pieces. -/
theorem splitLoop_eq_splitFrom (separator : IsSeparator delimiter) (depth : Depth)
    (buffer : List Char) (out : List String) (text : List Char) :
    splitLoop delimiter depth buffer out text =
      (splitFrom bracketScanner delimiter depth text).map fun pieces =>
        out ++ (pieces.modifyHead (buffer ++ ·)).map String.ofList := by
  induction text generalizing depth buffer out with
  | nil => by_cases isTop : depth = .top <;> simp [splitLoop, splitFrom, isTop]
  | cons character rest inductionHypothesis =>
    simp only [splitLoop, splitFrom, bracketScanner_step, bracketScanner_top]
    by_cases same : character = delimiter
    · subst same
      simp only [scanStep_separator separator, beq_self_eq_true,
        Bool.and_true, and_true, decide_eq_true_eq]
      by_cases isTop : depth = .top
      · simp only [isTop, if_true, inductionHypothesis, Option.map_map]
        congr 1
        funext pieces
        cases pieces <;> simp
      · simp only [isTop, if_false, inductionHypothesis, map_some, bind_some, Option.map_map]
        congr 1
        funext pieces
        cases pieces <;> simp
    · have differs : (character == delimiter) = false := by
        simpa using same
      simp only [differs, Bool.and_false, same, and_false, if_false]
      cases scanStep depth character with
      | none => rfl
      | some entered =>
        simp only [Bool.false_eq_true, if_false, inductionHypothesis,
          map_some, bind_some, Option.map_map]
        congr 1
        funext pieces
        cases pieces <;> simp

/-- The loop stops at the first delimiter at the top. -/
theorem indexLoop_eq_indexFrom (separator : IsSeparator delimiter) (depth : Depth)
    (index : ℕ) (text : List Char) : indexLoop delimiter depth index text =
      (indexFrom bracketScanner delimiter depth text).map (Option.map (index + ·)) := by
  induction text generalizing depth index with
  | nil => by_cases isTop : depth = .top <;> simp [indexLoop, indexFrom, isTop]
  | cons character rest inductionHypothesis =>
    have shift (found : Option ℕ) :
        found.map (index + 1 + ·) = (found.map (· + 1)).map (index + ·) := by
      cases found <;> simp [Nat.add_comm, Nat.add_left_comm]
    simp only [indexLoop, indexFrom, bracketScanner_step, bracketScanner_top]
    by_cases same : character = delimiter
    · subst same
      simp only [scanStep_separator separator, beq_self_eq_true,
        Bool.and_true, and_true, decide_eq_true_eq]
      by_cases isTop : depth = .top
      · simp [isTop]
      · simp only [isTop, if_false, inductionHypothesis, map_some, bind_some, Option.map_map]
        congr 1
        funext found
        exact shift found
    · have differs : (character == delimiter) = false := by
        simpa using same
      simp only [differs, Bool.and_false, same, and_false, if_false]
      cases scanStep depth character with
      | none => rfl
      | some entered =>
        simp only [Bool.false_eq_true, if_false, inductionHypothesis,
          map_some, bind_some, Option.map_map]
        congr 1
        funext found
        exact shift found

theorem balancedLoop_eq_true_iff {depth : Depth} {text : List Char} :
    balancedLoop depth text = true ↔ bracketScanner.finish depth text = some .top := by
  induction text generalizing depth with
  | nil => simp [balancedLoop, Scanner.finish]
  | cons character rest inductionHypothesis =>
    simp only [balancedLoop, Scanner.finish, bracketScanner_step]
    cases scanStep depth character with
    | none => simp
    | some entered => exact inductionHypothesis

end Scanner

section Splitting

variable {delimiter : Char}

/-- The pieces are the text split at the top-level delimiters. -/
structure Splits (delimiter : Char) (text : String) (pieces : List String) : Prop where
  nonempty : pieces ≠ []
  whole : ∀ piece ∈ pieces, Whole delimiter piece
  joined : text = (String.ofList [delimiter]).intercalate pieces

variable {text : String} {pieces : List String}

theorem splitRespectingBrackets_eq_ok_iff (separator : IsSeparator delimiter) {context : String} :
    splitRespectingBrackets text delimiter context = .ok pieces ↔
      Splits delimiter text pieces := by
  have loop : splitLoop delimiter .top [] [] text.toList =
        (splitFrom bracketScanner delimiter .top text.toList).map (List.map String.ofList) := by
    rw [splitLoop_eq_splitFrom separator]
    congr 1
    funext found
    cases found <;> simp
  have returned : splitRespectingBrackets text delimiter context = .ok pieces ↔
        splitFrom bracketScanner delimiter bracketScanner.top text.toList =
          some (pieces.map String.toList) := by
    simp only [splitRespectingBrackets, loop, bracketScanner_top]
    cases splitFrom bracketScanner delimiter .top text.toList with
    | none => simp
    | some found =>
      simp only [map_some, Except.ok.injEq, Option.some.injEq]
      constructor
      · rintro rfl
        simp
      · rintro rfl
        simp
  rw [returned, splitFrom_top_eq_some_iff]
  constructor
  · rintro ⟨nonempty, whole, joined⟩
    refine ⟨by simpa using nonempty, ?_, ?_⟩
    · intro piece member
      exact whole piece.toList (mem_map_of_mem member)
    · rw [← String.toList_inj, String.toList_intercalate, joined, String.toList_ofList]
  · rintro ⟨nonempty, whole, rfl⟩
    refine ⟨by simpa using nonempty, ?_, ?_⟩
    · intro piece member
      obtain ⟨text, textMember, rfl⟩ := mem_map.mp member
      exact whole text textMember
    · rw [String.toList_intercalate, String.toList_ofList]

theorem Splits.of_split (separator : IsSeparator delimiter)
    (split : splitRespectingBrackets text delimiter "" = .ok pieces) :
    Splits delimiter text pieces :=
  (splitRespectingBrackets_eq_ok_iff separator).mp split

theorem Splits.unique (separator : IsSeparator delimiter)
    {others : List String} (first : Splits delimiter text pieces)
    (second : Splits delimiter text others) : pieces = others := by
  have firstFound : splitRespectingBrackets text delimiter "" = .ok pieces :=
    (splitRespectingBrackets_eq_ok_iff separator).mpr first
  have secondFound : splitRespectingBrackets text delimiter "" = .ok others :=
    (splitRespectingBrackets_eq_ok_iff separator).mpr second
  exact Except.ok.inj (firstFound.symm.trans secondFound)

theorem whole_intercalate {other : Char}
    (separator : IsSeparator other) (differs : other ≠ delimiter)
    (whole : ∀ piece ∈ pieces, Whole delimiter piece) :
    Whole delimiter ((String.ofList [other]).intercalate pieces) := by
  rw [Whole, String.toList_intercalate, String.toList_ofList]
  apply isPiece_intercalate (step_separator separator .top) differs
  intro piece member
  obtain ⟨text, textMember, rfl⟩ := mem_map.mp member
  exact whole text textMember

theorem Splits.whole_pieces {other : Char}
    (splits : Splits other text pieces) (separator : IsSeparator other)
    (whole : Whole delimiter text) : ∀ piece ∈ pieces, Whole delimiter piece := by
  rw [Whole, splits.joined, String.toList_intercalate, String.toList_ofList] at whole
  have closed : ∀ piece ∈ pieces.map String.toList, bracketScanner.finish bracketScanner.top piece =
          some bracketScanner.top := by
    intro piece member
    obtain ⟨text, textMember, rfl⟩ := mem_map.mp member
    exact (splits.whole text textMember).finish
  have arePieces := isPiece_of_intercalate (step_separator separator .top) closed whole
  intro piece member
  exact arePieces piece.toList (mem_map_of_mem member)

theorem intercalate_ne_empty {separator piece : String}
    (member : piece ∈ pieces) (nonempty : piece ≠ "") : separator.intercalate pieces ≠ "" := by
  intro empty
  have occurs : piece.toList <:+: (separator.intercalate pieces).toList :=
    JsString.isInfix_intercalate member
  rw [empty] at occurs
  exact nonempty (String.toList_inj.mp (infix_nil.mp occurs))

theorem indexOfTopLevel_eq_ok_iff (separator : IsSeparator delimiter)
    {index : Option ℕ} : indexOfTopLevel text delimiter = .ok index ↔
      (index = none ∧ Whole delimiter text) ∨
        ∃ before after, index = some before.toList.length ∧
            Whole delimiter before ∧
            text = before ++ String.ofList (delimiter :: after) := by
  have loop : indexLoop delimiter .top 0 text.toList =
        indexFrom bracketScanner delimiter .top text.toList := by
    rw [indexLoop_eq_indexFrom separator]
    simp
  have returned : indexOfTopLevel text delimiter = .ok index ↔
        indexFrom bracketScanner delimiter bracketScanner.top text.toList = some index := by
    simp only [indexOfTopLevel, loop, bracketScanner_top]
    cases indexFrom bracketScanner delimiter .top text.toList <;> simp
  rw [returned]
  constructor
  · intro found
    rcases exists_of_indexFrom found with ⟨rfl, piece⟩ | ⟨before, after, rfl, piece, shape⟩
    · exact .inl ⟨rfl, piece⟩
    · refine .inr ⟨String.ofList before, after, by simp, ?_, ?_⟩
      · rw [Whole, String.toList_ofList]
        exact piece
      · rw [← String.toList_inj, shape]
        simp
  · rintro (⟨rfl, whole⟩ | ⟨before, after, rfl, whole, rfl⟩)
    · exact indexFrom_of_isPieceFrom whole
    · rw [String.toList_append, String.toList_ofList]
      exact indexFrom_append_cons whole after

end Splitting

section Validation

/-- What `validateSubSegment` accepts, whatever the input it reports. -/
def ValidSub (sub : String) : Prop := validateSubSegment sub "" = .ok ()

instance (sub : String) : Decidable (ValidSub sub) :=
  inferInstanceAs (Decidable (validateSubSegment sub "" = .ok ()))

variable {sub input : String}

theorem validateSubSegment_eq_ok_iff : validateSubSegment sub input = .ok () ↔ ValidSub sub := by
  simp only [ValidSub, validateSubSegment, validateUnquotedSegment,
    validateBracketSegment, validateUnionSegment, checks_eq_ok_iff, failIf_eq_ok_iff]
  split_ifs <;> simp only [checks_eq_ok_iff, failIf_eq_ok_iff]

theorem ValidSub.nonempty (valid : ValidSub sub) : sub ≠ "" := by
  simp only [ValidSub, validateSubSegment, checks_eq_ok_iff,
    failIf_eq_ok_iff, decide_eq_false_iff_not] at valid
  exact valid.1

theorem ValidSub.printable (valid : ValidSub sub) : hasControlChar sub = false := by
  simp only [ValidSub, validateSubSegment, checks_eq_ok_iff, failIf_eq_ok_iff] at valid
  exact valid.2.1

/-- What `validateFileSlot` accepts. -/
def ValidFile (file : String) : Prop := validateFileSlot file "" = .ok ()

theorem validateFileSlot_eq_ok_iff {file : String} {result : Unit} :
    validateFileSlot file input = .ok result ↔ ValidFile file := by
  simp only [ValidFile, validateFileSlot, checks_eq_ok_iff, failIf_eq_ok_iff]

/-- What `validateSessionSlot` accepts. -/
def ValidSession (session : String) : Prop :=
  hasControlChar session = false ∧ session.toList.any isReserved = false

theorem validateSessionSlot_eq_ok_iff {session : String} :
    validateSessionSlot session input = .ok () ↔ ValidSession session := by
  simp only [ValidSession, validateSessionSlot, checks_eq_ok_iff, failIf_eq_ok_iff]

/-- What the parser demands of one segment of the path. -/
structure ValidSegment (seg : String) : Prop where
  nonempty : seg ≠ ""
  withoutSlash : Whole '/' seg
  withoutQuery : Whole '?' seg
  subs :
    ∃ subs,
      Splits '.' seg subs ∧
        subs.length ≤ maxSubSegmentsPerSlot ∧
        ∀ sub ∈ subs, ValidSub sub

theorem Splits.finish {delimiter : Char} {text : String} {pieces : List String}
    (splits : Splits delimiter text pieces) (separator : IsSeparator delimiter) :
    bracketScanner.finish .top text.toList = some .top := by
  rw [splits.joined, String.toList_intercalate, String.toList_ofList]
  apply Scanner.finish_intercalate (step_separator separator .top)
  intro piece member
  obtain ⟨text, textMember, rfl⟩ := mem_map.mp member
  exact (splits.whole text textMember).finish

theorem validateSegment_eq_ok_iff {seg : String} : validateSegment input seg = .ok () ↔
      ∃ subs, Splits '.' seg subs ∧
          subs.length ≤ maxSubSegmentsPerSlot ∧
          ∀ sub ∈ subs, ValidSub sub := by
  have dot : IsSeparator '.' := by decide
  simp only [validateSegment, validateBrackets, bind_eq_ok_iff,
    failIf_eq_ok_iff, splitRespectingBrackets_eq_ok_iff dot,
    forM_eq_ok_iff, validateSubSegment_eq_ok_iff, Bool.not_eq_false',
    balancedLoop_eq_true_iff, decide_eq_false_iff_not, not_lt, exists_const]
  constructor
  · rintro ⟨-, subs, splits, few, valid⟩
    exact ⟨subs, splits, few, valid⟩
  · rintro ⟨subs, splits, few, valid⟩
    exact ⟨splits.finish dot, subs, splits, few, valid⟩

end Validation

section Reading

theorem startsWith_append (start rest : String) :
    JsString.startsWith (start ++ rest) start = true := by
  simp [JsString.startsWith, isPrefixOf_iff_prefix]

theorem drop_append (start rest : String) :
    String.ofList ((start ++ rest).toList.drop start.length) = rest := by
  rw [String.toList_append, ← String.length_toList, drop_left, String.ofList_toList]

theorem append_drop_of_startsWith {text start : String}
    (starts : JsString.startsWith text start = true) :
    start ++ String.ofList (text.toList.drop start.length) = text := by
  obtain ⟨rest, shape⟩ := isPrefixOf_iff_prefix.mp starts
  rw [← String.toList_inj, String.toList_append, String.toList_ofList, ← shape,
    ← String.length_toList, drop_left]

/-- The query as it follows the path. -/
def queryText : Option String → String
  | none => ""
  | some query => "?" ++ query

/-- Segments that the parser accepts as the path part of a text. -/
structure ValidSegments (segments : List String) : Prop where
  nonempty : segments ≠ []
  few : segments.length ≤ 4
  valid : ∀ seg ∈ segments, ValidSegment seg

variable {segments : List String} {input : String}

section

variable (accepted : ValidSegments segments)
include accepted

theorem ValidSegments.withoutQuery : Whole '?' ("/".intercalate segments) :=
  whole_intercalate (by decide) (by decide) fun seg member =>
    (accepted.valid seg member).withoutQuery

theorem ValidSegments.splits : Splits '/' ("/".intercalate segments) segments where
  nonempty := accepted.nonempty
  whole seg member := (accepted.valid seg member).withoutSlash
  joined := rfl

theorem ValidSegments.intercalate_ne : "/".intercalate segments ≠ "" := by
  obtain ⟨first, rest, rfl⟩ := exists_cons_of_ne_nil accepted.nonempty
  have valid := accepted.valid first mem_cons_self
  exact intercalate_ne_empty mem_cons_self valid.nonempty

end

theorem splitQuery_eq_ok_iff {afterScheme pathPart query : String} :
    splitQuery afterScheme = .ok (pathPart, query) ↔ ∃ mark, query = mark.getD "" ∧
          afterScheme = pathPart ++ queryText mark ∧
          Whole '?' pathPart := by
  have question : IsSeparator '?' := by decide
  simp only [splitQuery, bind_eq_ok_iff, indexOfTopLevel_eq_ok_iff question]
  constructor
  · rintro ⟨index, ⟨rfl, whole⟩ | ⟨before, after, rfl, whole, rfl⟩, parts⟩
    · obtain ⟨rfl, rfl⟩ := Prod.mk.inj (Except.ok.inj parts)
      exact ⟨none, rfl, by simp [queryText], whole⟩
    · obtain ⟨rfl, rfl⟩ := Prod.mk.inj (Except.ok.inj parts)
      refine ⟨some (String.ofList after), ?_, ?_, ?_⟩
      · simp
      · simp [queryText]
      · simpa using whole
  · rintro ⟨mark, rfl, rfl, whole⟩
    cases mark with
    | none => refine ⟨none, .inl ⟨rfl, ?_⟩, ?_⟩ <;> simp [queryText, whole]
    | some query =>
      refine ⟨some pathPart.toList.length, .inr ⟨pathPart, query.toList, rfl, whole, ?_⟩, ?_⟩
      · simp [queryText]
      · simp [queryText]

theorem readSegments_eq_ok_iff {pathPart : String} (withoutQuery : Whole '?' pathPart) :
    readSegments pathPart input = .ok segments ↔
      pathPart = "/".intercalate segments ∧ ValidSegments segments := by
  have slash : IsSeparator '/' := by decide
  simp only [readSegments, bind_eq_ok_iff, failIf_eq_ok_iff, exists_const,
    splitRespectingBrackets_eq_ok_iff slash, forM_eq_ok_iff,
    validateSegment_eq_ok_iff, decide_eq_false_iff_not, not_lt, Except.ok.injEq]
  constructor
  · rintro ⟨-, found, splits, nonempty, few, valid, rfl⟩
    have joined : pathPart = "/".intercalate found := splits.joined
    refine ⟨joined, splits.nonempty, few, ?_⟩
    have pieces := splits.whole_pieces slash withoutQuery
    intro seg member
    exact {
      nonempty := nonempty seg member
      withoutSlash := splits.whole seg member
      withoutQuery := pieces seg member
      subs := valid seg member }
  · rintro ⟨rfl, accepted⟩
    exact ⟨accepted.intercalate_ne, segments, accepted.splits,
      fun seg member => (accepted.valid seg member).nonempty, accepted.few,
      fun seg member => (accepted.valid seg member).subs, rfl⟩

/-- A text that the parser splits into the segments and the query. -/
structure IsText (text : String) (segments : List String) (mark : Option String) : Prop where
  shape : text = ocScheme ++ "/".intercalate segments ++ queryText mark
  short : JsString.length text ≤ maxPathLength
  printable : hasControlChar text = false
  accepted : ValidSegments segments

/-- The path that the segments and the query of a text stand for. -/
structure IsPath (segments : List String) (mark : Option String) (path : OcPath) : Prop where
  file : path.file = unquoteSeg (segments.headD "")
  validFile : ValidFile path.file
  sectionSlot : path.sectionSlot = segments[1]?
  itemSlot : path.itemSlot = segments[2]?
  fieldSlot : path.fieldSlot = segments[3]?
  session : extractSession (mark.getD "") "" = .ok path.session

theorem readNormalized_eq_ok_iff {normalize : String → String} {normalized : String} :
    readNormalized normalize input = .ok normalized ↔ JsString.length input ≤ maxPathLength ∧
        normalized = normalize (withoutBom input) ∧
        JsString.length normalized ≤ maxPathLength ∧
        JsString.startsWith normalized ocScheme = true ∧
        hasControlChar normalized = false := by
  simp only [readNormalized, checks_eq_ok_iff,
    failIf_eq_ok_iff, decide_eq_false_iff_not, not_lt, Bool.not_eq_false', Except.ok.injEq]
  constructor
  · rintro ⟨inputShort, short, scheme, printable, rfl⟩
    exact ⟨inputShort, rfl, short, scheme, printable⟩
  · rintro ⟨inputShort, rfl, short, scheme, printable⟩
    exact ⟨inputShort, short, scheme, printable, rfl⟩

theorem extractSession_go_eq_ok_iff {pairs : List String} {session : Option String} :
    extractSession.go input pairs = .ok session ↔ extractSession.go "" pairs = .ok session := by
  induction pairs with
  | nil => rfl
  | cons pair rest inductionHypothesis =>
    simp only [extractSession.go]
    split
    · exact inductionHypothesis
    · split
      · simp only [checks_eq_ok_iff, validateSessionSlot_eq_ok_iff]
      · exact inductionHypothesis

theorem extractSession_eq_ok_iff {query : String} {session : Option String} :
    extractSession query input = .ok session ↔ extractSession query "" = .ok session := by
  simp only [extractSession]
  split
  · rfl
  · exact extractSession_go_eq_ok_iff

/-- What the parser accepts, and what it returns. -/
theorem parseOcPath_eq_ok_iff {normalize : String → String} {path : OcPath} :
    parseOcPath normalize input = .ok path ↔ JsString.length input ≤ maxPathLength ∧
        ∃ segments mark, IsText (normalize (withoutBom input)) segments mark ∧
            IsPath segments mark path := by
  simp only [parseOcPath, bind_eq_ok_iff, readNormalized_eq_ok_iff]
  constructor
  · rintro ⟨normalized, ⟨inputShort, rfl, short, scheme, printable⟩,
      ⟨pathPart, query⟩, queryFound, segments, segmentsRead, ⟨⟩, fileValid,
      session, sessionFound, returned⟩
    obtain ⟨mark, rfl, shape, withoutQuery⟩ := splitQuery_eq_ok_iff.mp queryFound
    obtain ⟨rfl, accepted⟩ := (readSegments_eq_ok_iff withoutQuery).mp segmentsRead
    obtain rfl := Except.ok.inj returned
    refine ⟨inputShort, segments, mark, ?_, ?_⟩
    · exact {
        shape := by
          rw [String.append_assoc, ← shape]
          exact (append_drop_of_startsWith scheme).symm
        short := short
        printable := printable
        accepted := accepted }
    · exact {
        file := rfl
        validFile := validateFileSlot_eq_ok_iff.mp fileValid
        sectionSlot := rfl
        itemSlot := rfl
        fieldSlot := rfl
        session := extractSession_eq_ok_iff.mp sessionFound }
  · rintro ⟨inputShort, segments, mark, isText, isPath⟩
    have shape := isText.shape
    rw [String.append_assoc] at shape
    have rest : String.ofList ((normalize (withoutBom input)).toList.drop ocScheme.length) =
          "/".intercalate segments ++ queryText mark := by
      rw [shape]
      exact drop_append ocScheme _
    refine ⟨_, ⟨inputShort, rfl, isText.short, ?_, isText.printable⟩,
      ("/".intercalate segments, mark.getD ""), ?_, segments, ?_, (), ?_, path.session, ?_, ?_⟩
    · rw [shape]
      exact startsWith_append ocScheme _
    · rw [rest]
      exact splitQuery_eq_ok_iff.mpr ⟨mark, rfl, rfl, isText.accepted.withoutQuery⟩
    · exact (readSegments_eq_ok_iff isText.accepted.withoutQuery).mpr ⟨rfl, isText.accepted⟩
    · rw [← isPath.file]
      exact validateFileSlot_eq_ok_iff.mpr isPath.validFile
    · exact extractSession_eq_ok_iff.mpr isPath.session
    · rw [← isPath.file, ← isPath.sectionSlot, ← isPath.itemSlot, ← isPath.fieldSlot]

end Reading

end OcPathSyntax
