import AieClaw.JsonlSetResolves

/-!
# Parsing an edited JSONL file again

An edit keeps the list of lines and the text that is rendered from it. Parsing
the text gives the lines back unless the last of them is empty, which the parser
takes for the end of the line before it, or a value is not read from its text.
-/

namespace Jsonl

open OcPathSyntax JsString List Jsonc

section Endings

/-- A piece of a text without the carriage return at its end. -/
def dropReturn (piece : List Char) : List Char :=
  if piece.getLast? = some '\r' then piece.dropLast else piece

/-- What is left of a piece when the line endings of the text are normalized. -/
def LineEnding.rest (piece : List Char) : LineEnding → List Char
  | .crlf => piece
  | .lf => dropReturn piece

variable {piece text : List Char} {pieces : List (List Char)}

private theorem normalizeEndings_of_not_mem (absent : '\n' ∉ piece) :
    normalizeEndings piece = piece := by
  fun_induction normalizeEndings piece with
  | case1 rest inductionHypothesis => simp at absent
  | case2 character rest _ inductionHypothesis =>
    rw [inductionHypothesis fun later => absent (.tail _ later)]
  | case3 => rfl

private theorem normalizeEndings_feed (absent : '\n' ∉ piece)
    (later : List Char) : normalizeEndings (piece ++ '\n' :: later) =
      dropReturn piece ++ '\n' :: normalizeEndings later := by
  induction piece with
  | nil => simp [normalizeEndings, dropReturn]
  | cons character rest inductionHypothesis =>
    have further := inductionHypothesis fun later => absent (.tail _ later)
    cases rest with
    | nil =>
      by_cases isReturn : character = '\r'
      · simp [isReturn, normalizeEndings, dropReturn]
      · simp [isReturn, normalizeEndings, dropReturn]
    | cons next rest =>
      have plain : next ≠ '\n' := fun feed => absent (by simp [feed])
      have kept : dropReturn (character :: next :: rest) =
          character :: dropReturn (next :: rest) := by
        unfold dropReturn
        rw [getLast?_cons_cons]
        split_ifs <;> rfl
      have stays : normalizeEndings (character :: next :: rest ++ '\n' :: later) =
          character :: normalizeEndings (next :: rest ++ '\n' :: later) := by
        simp [normalizeEndings, plain]
      rw [kept, stays, further, cons_append]

private theorem normalizeEndings_ending (ending : LineEnding)
    (absent : '\n' ∉ piece) (later : List Char) :
    normalizeEndings (piece ++ ending.text.toList ++ later) =
      ending.rest piece ++ '\n' :: normalizeEndings later := by
  cases ending with
  | lf => simpa [LineEnding.text, LineEnding.rest] using normalizeEndings_feed absent later
  | crlf =>
    have withReturn : '\n' ∉ piece ++ ['\r'] := by simpa using absent
    have bare := normalizeEndings_feed withReturn later
    simpa [LineEnding.text, LineEnding.rest, dropReturn] using bare

private theorem eq_dropReturn_or (piece : List Char) :
    piece = dropReturn piece ∨ piece = dropReturn piece ++ ['\r'] := by
  unfold dropReturn
  split_ifs with isReturn
  · obtain ⟨front, rfl⟩ := getLast?_eq_some_iff.mp isReturn
    exact .inr (by rw [dropLast_concat])
  · exact .inl rfl

private theorem splitOn_normalizeEndings (ending : LineEnding)
    (nonempty : pieces ≠ []) (apart : ∀ piece ∈ pieces, '\n' ∉ piece) :
    List.Forall₂ (fun piece read => piece = read ∨ piece = read ++ ['\r']) pieces
      ((normalizeEndings (ending.text.toList.intercalate pieces)).splitOn '\n') := by
  induction pieces with
  | nil => exact absurd rfl nonempty
  | cons piece rest inductionHypothesis =>
    have absent := apart piece mem_cons_self
    cases rest with
    | nil =>
      rw [intercalate_singleton, normalizeEndings_of_not_mem absent, splitOn_eq_singleton absent]
      exact .cons (.inl rfl) .nil
    | cons next rest =>
      have restAbsent : '\n' ∉ ending.rest piece := by
        cases ending with
        | crlf => exact absent
        | lf =>
          unfold LineEnding.rest dropReturn
          split_ifs
          · exact fun member => absent (mem_of_mem_dropLast member)
          · exact absent
      rw [intercalate_cons_cons, normalizeEndings_ending ending absent,
        splitOn_append_cons_self_of_not_mem restAbsent]
      refine .cons ?_ (inductionHypothesis (by simp) fun other member =>
        apart other (.tail _ member))
      cases ending with
      | crlf => exact .inl rfl
      | lf => exact eq_dropReturn_or piece

private theorem count_normalizeEndings (text : List Char) :
    (normalizeEndings text).count '\n' = text.count '\n' := by
  fun_induction normalizeEndings text with
  | case1 rest inductionHypothesis => simp [inductionHypothesis]
  | case2 character rest _ inductionHypothesis =>
    rw [count_cons, count_cons, inductionHypothesis]
  | case3 => rfl

private theorem length_splitOn (text : List Char) :
    (text.splitOn '\n').length = text.count '\n' + 1 := by
  induction text with
  | nil => rfl
  | cons character rest inductionHypothesis =>
    rw [splitOn_cons_eq_if_modifyHead, count_cons]
    split_ifs <;> simp [inductionHypothesis]

private theorem count_intercalate (ending : LineEnding)
    (nonempty : pieces ≠ []) (apart : ∀ piece ∈ pieces, '\n' ∉ piece) :
    (ending.text.toList.intercalate pieces).count '\n' + 1 = pieces.length := by
  rw [(splitOn_normalizeEndings ending nonempty apart).length_eq, length_splitOn,
    count_normalizeEndings]

private theorem getLast?_intercalate (ending : LineEnding) (pieces : List (List Char))
    (last : List Char) : (ending.text.toList.intercalate (pieces ++ [last])).getLast? =
      last.getLast?.or (if pieces = [] then none else some '\n') := by
  induction pieces with
  | nil => simp
  | cons piece rest inductionHypothesis =>
    obtain ⟨next, others, shape⟩ := exists_cons_of_ne_nil (show rest ++ [last] ≠ [] by simp)
    rw [cons_append, shape, intercalate_cons_cons, ← shape, getLast?_append,
      inductionHypothesis, getLast?_append]
    have feed : ending.text.toList.getLast? = some '\n' := by cases ending <;> decide
    cases last.getLast? <;> simp [feed]
    split_ifs <;> rfl

private theorem dropLastEnding_of_getLast?
    (noFeed : text.getLast? ≠ some '\n') : dropLastEnding text = text := by
  rw [← head?_reverse] at noFeed
  unfold dropLastEnding
  split
  case h_1 shape => simp [shape] at noFeed
  case h_2 shape => simp [shape] at noFeed
  case h_3 => rfl

private theorem count_dropLastEnding (feed : text.getLast? = some '\n') :
    (dropLastEnding text).count '\n' + 1 = text.count '\n' := by
  rw [← head?_reverse] at feed
  rw [← count_reverse (l := text)]
  unfold dropLastEnding
  split
  case h_1 shape => simp [shape]
  case h_2 shape => simp [shape]
  case h_3 none =>
    obtain ⟨rest, shape⟩ := head?_eq_some_iff.mp feed
    exact absurd shape (none rest)

private theorem lines_of_last (parseJsonc : String → Option JsoncValue) {last : List Char}
    (isLast : text.getLast? = last.getLast?) (some : last ≠ []) (absent : '\n' ∉ last) :
    (parseJsonl parseJsonc (String.ofList text)).lines =
      (((normalizeEndings text).splitOn '\n').map String.ofList).zipIdx.map fun part =>
        parseLine parseJsonc part.1 (part.2 + 1) := by
  have ends := getLast?_eq_some_getLast some
  have kept : dropLastEnding text = text := by
    refine dropLastEnding_of_getLast? fun feed => ?_
    rw [isLast, ends] at feed
    exact absent (Option.some.inj feed ▸ getLast_mem some)
  have nonempty : normalizeEndings text ≠ [] := by
    unfold normalizeEndings
    split
    · exact cons_ne_nil _ _
    · exact cons_ne_nil _ _
    · rw [ends] at isLast
      cases isLast
  simp [parseJsonl, kept, if_neg nonempty, split]

private theorem length_lines_le (parseJsonc : String → Option JsoncValue) (ending : LineEnding)
    (apart : ∀ piece ∈ pieces, '\n' ∉ piece) : (parseJsonl parseJsonc (String.ofList
        (ending.text.toList.intercalate (pieces ++ [[]])))).lines.length ≤ pieces.length := by
  simp only [parseJsonl, String.toList_ofList]
  split_ifs with empty
  · exact Nat.zero_le _
  · have count := count_intercalate ending (show pieces ++ [[]] ≠ [] by simp)
      (forall_mem_append.mpr ⟨apart, by simp⟩)
    have ends := getLast?_intercalate ending pieces []
    rw [length_append, length_singleton] at count
    split_ifs at ends with none
    · subst none
      exact absurd rfl empty
    · have dropped := count_dropLastEnding ends
      simp only [split, length_map, length_zipIdx, String.toList_ofList,
        length_splitOn, count_normalizeEndings]
      omega

end Endings

section Rendering

def OneLine (text : String) : Prop :=
  ∀ character ∈ text.toList, character ≠ '\n' ∧ character ≠ '\r'

instance (text : String) : Decidable (OneLine text) :=
  List.decidableBAll _ text.toList

private theorem OneLine.append {first second : String} (one : OneLine first)
    (other : OneLine second) : OneLine (first ++ second) := by
  intro character member
  rw [String.toList_append] at member
  exact (mem_append.mp member).elim (one character) (other character)

private theorem OneLine.intercalate {separator : String} {parts : List String}
    (one : OneLine separator) (each : ∀ part ∈ parts, OneLine part) :
    OneLine (separator.intercalate parts) := by
  induction parts with
  | nil => simp [OneLine]
  | cons first rest inductionHypothesis =>
    have others := inductionHypothesis fun part member => each part (.tail _ member)
    cases rest with
    | nil => simpa using each first mem_cons_self
    | cons second later =>
      rw [String.intercalate_cons_cons]
      exact ((each first mem_cons_self).append one).append others

private theorem oneLine_stringify (text : String) : OneLine (stringify text) := by
  have escaped (character other : Char) (member : other ∈ stringify.escape character) :
      other ≠ '\n' ∧ other ≠ '\r' := by
    unfold stringify.escape at member
    simp only at member
    split_ifs at member with isQuote isBackslash isBackspace isTab feed isFormFeed isReturn control
    iterate 7
      · simp only [mem_cons, not_mem_nil, or_false] at member
        rcases member with rfl | rfl <;> decide
    · have digit : ∀ n < 16, Nat.digitChar n ≠ '\n' ∧ Nat.digitChar n ≠ '\r' := by decide
      have first := digit (character.toNat / 16) (by omega)
      have second := digit (character.toNat % 16) (by omega)
      simp only [mem_cons, not_mem_nil, or_false] at member
      rcases member with rfl | rfl | rfl | rfl | rfl | rfl <;> first | assumption | decide
    · cases mem_singleton.mp member
      exact ⟨fun same => feed (by rw [same]; rfl), fun same => isReturn (by rw [same]; rfl)⟩
  intro character member
  simp only [stringify, String.toList_ofList, mem_cons, mem_append,
    mem_flatMap, not_mem_nil, or_false] at member
  rcases member with (rfl | ⟨other, -, among⟩) | rfl
  · decide
  · exact escaped other character among
  · decide

variable {numbers : NumberText}

/-- The text of a number is not empty and has no white space. -/
def WritesPlain (numbers : NumberText) : Prop :=
  ∀ number, numbers.write number ≠ "" ∧
    ∀ character ∈ (numbers.write number).toList, isWhitespace character = false

private theorem exists_of_mem_mapM {α : Type} {change : α → Result String} {values : List α}
    {parts : List String} (mapped : values.mapM change = .ok parts) {part : String}
    (member : part ∈ parts) : ∃ value ∈ values, change value = .ok part := by
  have each := mapM_eq_ok_iff.mp mapped
  obtain ⟨index, inside, rfl⟩ := mem_iff_getElem.mp member
  have within : index < values.length := by rwa [each.length_eq]
  exact ⟨_, getElem_mem within, (forall₂_iff_get.mp each).2 index within inside⟩

/-- A rendered value stands on one line that is not blank. -/
private theorem renderValue_text (plain : WritesPlain numbers) {guardPath : String}
    {walked : List String} {value : JsoncValue} {text : String}
    (rendered : renderValue numbers guardPath walked value = .ok text) :
    OneLine text ∧ ∃ character ∈ text.toList, isWhitespace character = false := by
  induction size : sizeOf value using Nat.strong_induction_on generalizing value walked text with
  | _ bound inductionHypothesis =>
  cases value with
  | object entries line =>
    rw [renderValue, bind_eq_ok_iff] at rendered
    obtain ⟨parts, mapped, same⟩ := rendered
    cases same
    refine ⟨?_, '\x7b', by simp, by decide⟩
    have inner : OneLine (",".intercalate parts) := by
      refine .intercalate (by decide) fun part member => ?_
      obtain ⟨entry, -, written⟩ := exists_of_mem_mapM mapped member
      obtain ⟨below, renderedBelow, same⟩ := bind_eq_ok_iff.mp written
      cases same
      have smaller : sizeOf entry.1.value < sizeOf (JsoncValue.object entries line) :=
        JsoncValue.sizeOf_value_lt entry.2
      exact ((oneLine_stringify _).append (by decide)).append
        (inductionHypothesis _ (size ▸ smaller) renderedBelow rfl).1
    exact (OneLine.append (by decide) inner).append (by decide)
  | array items line =>
    rw [renderValue, bind_eq_ok_iff] at rendered
    obtain ⟨parts, mapped, same⟩ := rendered
    cases same
    refine ⟨?_, '[', by simp, by decide⟩
    have inner : OneLine (",".intercalate parts) := by
      refine .intercalate (by decide) fun part member => ?_
      obtain ⟨item, -, written⟩ := exists_of_mem_mapM mapped member
      have smaller : sizeOf item.1.1 < sizeOf (JsoncValue.array items line) :=
        JsoncValue.sizeOf_item_lt item.1.2
      exact (inductionHypothesis _ (size ▸ smaller) written rfl).1
    exact (OneLine.append (by decide) inner).append (by decide)
  | string value line =>
    rw [renderValue] at rendered
    split_ifs at rendered
    cases rendered
    exact ⟨oneLine_stringify value, '"', by simp [stringify], by decide⟩
  | number number line =>
    rw [renderValue] at rendered
    cases rendered
    obtain ⟨nonempty, visible⟩ := plain number
    obtain ⟨character, member⟩ :=
      exists_mem_of_ne_nil _ (mt String.toList_eq_nil_iff.mp nonempty)
    refine ⟨fun other isOther => ?_, character, member, visible character member⟩
    have blank := visible other isOther
    constructor
    · rintro rfl
      exact absurd blank (by decide)
    · rintro rfl
      exact absurd blank (by decide)
  | boolean flag line =>
    rw [renderValue] at rendered
    cases rendered
    cases flag <;> exact ⟨by decide, 'e', by decide, by decide⟩
  | null line =>
    rw [renderValue] at rendered
    cases rendered
    exact ⟨by decide, 'n', by decide, by decide⟩

end Rendering

section Edits

variable (numbers : NumberText) (parseJsonc : String → Option JsoncValue)

/-- The number of a line that is appended. -/
def JsonlAst.nextLineNo (ast : JsonlAst) : ℕ := (ast.lines.getLast?.map JsonlLine.line).getD 0 + 1

def appendJsonlOcPath (ast : JsonlAst) (value : JsoncValue) : Result JsonlAst := do
  let next := { ast with raw := "", lines := ast.lines ++ [.value ast.nextLineNo value ""] }
  let rendered ← emitJsonl numbers next { mode := .render }
  .ok { next with raw := rendered }

inductive JsonlEdit where
  | set (path : OcPath) (newValue : JsoncValue)
  | append (value : JsoncValue)

namespace JsonlEdit

/-- The document that an edit returns, if it finds its place. -/
def apply (ast : JsonlAst) : JsonlEdit → Result (Option JsonlAst)
  | .set path newValue => do
    match ← setJsonlOcPath numbers ast path newValue with
    | .ok next => .ok (some next)
    | .failed _ => .ok none
  | .append value => do
    let next ← appendJsonlOcPath numbers ast value
    .ok (some next)

def fileName : JsonlEdit → Option String
  | .set path _ => some path.file
  | .append _ => none

/-- The lines with the new value in its place. -/
def lines (ast : JsonlAst) : JsonlEdit → Option (List JsonlLine)
  | .set path newValue =>
    path.sectionSlot.bind fun head => (pickLineIndex numbers ast head).bind fun index =>
      match ast.lines[index]?, slotSegments (path.itemSlot.toList ++ path.fieldSlot.toList) with
      | some (.value line value raw), .ok segments =>
        (replaceAt numbers value segments newValue).map fun replaced =>
          ast.lines.set index (.value line replaced raw)
      | _, _ => none
  | .append value => some (ast.lines ++ [.value ast.nextLineNo value ""])

end JsonlEdit

/-- A value without the lines that its parts stand on. -/
def forgetLines (value : JsoncValue) : JsoncValue :=
  match value with
  | .object entries _ =>
    .object (entries.attach.map fun entry => ⟨entry.1.key, forgetLines entry.1.value, 0⟩) none
  | .array items _ => .array (items.attach.map fun item => forgetLines item.1) none
  | .string text _ => .string text none
  | .number number _ => .number number none
  | .boolean flag _ => .boolean flag none
  | .null _ => .null none
termination_by sizeOf value
decreasing_by
  · exact JsoncValue.sizeOf_value_lt entry.2
  · exact JsoncValue.sizeOf_item_lt item.2

/-- The kind of a line, its number and its value. -/
def JsonlLine.content : JsonlLine → JsonlLine
  | .value line node _ => .value line (forgetLines node) ""
  | .blank line _ => .blank line ""
  | .malformed line _ => .malformed line ""

/-- Parsing the text of a document gives the lines that it holds. -/
def SelfConsistent (ast : JsonlAst) : Prop :=
  (parseJsonl parseJsonc ast.raw).lines.map JsonlLine.content = ast.lines.map JsonlLine.content

/-- The value of a line, if it has one, is read back from its text. -/
def ReadsBack (fileName : Option String) : JsonlLine → Prop
  | .value line value _ =>
    ∀ text, renderValue numbers (guardPathFor fileName ++ "/L" ++ toString line) [] value =
        .ok text →
      ∃ back, parseJsonc text = some back ∧ forgetLines back = forgetLines value
  | _ => True

def Survives (fileName : Option String) (lines : List JsonlLine) : Prop :=
  (∀ line, lines.getLast? ≠ some (.blank line "")) ∧
    ∀ entry ∈ lines, ReadsBack numbers parseJsonc fileName entry

/-- The parser takes a carriage return at the end for white space. -/
def IgnoresReturn : Prop :=
  ∀ text, parseJsonc (String.ofList (text ++ ['\r'])) = none →
    parseJsonc (String.ofList text) = none

/-- What is known of the text of a line that the parser made. -/
def Sound : JsonlLine → Prop
  | .value _ _ _ => True
  | .blank _ raw => '\n' ∉ raw.toList ∧ trim raw = ""
  | .malformed _ raw => '\n' ∉ raw.toList ∧ trim raw ≠ "" ∧ parseJsonc raw = none

private theorem trim_append_return (piece : List Char) :
    trim (String.ofList (piece ++ ['\r'])) = trim (String.ofList piece) := by
  have blank : isWhitespace '\r' = true := by decide
  simp only [trim, String.toList_ofList, dropWhile_append]
  cases rest : piece.dropWhile isWhitespace <;> simp [blank]

variable {numbers parseJsonc} {fileName : Option String}

private theorem line_parseLine (piece : String) (number : ℕ) :
    (parseLine parseJsonc piece number).line = number := by
  unfold parseLine
  split_ifs
  · rfl
  · split <;> rfl

/-- One line is parsed again as it was, if its value is read back. -/
private theorem content_parseLine_iff (plain : WritesPlain numbers)
    (ignores : IgnoresReturn parseJsonc) {entry : JsonlLine} {text : String} {read : List Char}
    (sound : Sound parseJsonc entry)
    (emitted : emitLine numbers (guardPathFor fileName) true entry = .ok text)
    (isRead : text.toList = read ∨ text.toList = read ++ ['\r']) :
    (parseLine parseJsonc (String.ofList read) entry.line).content = entry.content ↔
      ReadsBack numbers parseJsonc fileName entry := by
  have trimmed : trim (String.ofList read) = trim text := by
    rcases isRead with whole | shape
    · rw [← whole, String.ofList_toList]
    · rw [← trim_append_return, ← shape, String.ofList_toList]
  cases entry with
  | value line value raw =>
    obtain ⟨oneLine, character, member, visible⟩ := renderValue_text plain emitted
    have whole : text.toList = read :=
      isRead.resolve_right fun shape => (oneLine '\r' (by rw [shape]; simp)).2 rfl
    have notBlank : trim text ≠ "" := fun blank => by
      rw [trim_eq_empty_iff.mp blank character member] at visible
      simp at visible
    rw [← whole, String.ofList_toList, parseLine, if_neg notBlank]
    cases parsed : parseJsonc text with
    | none =>
      refine iff_of_false (by simp [JsonlLine.content]) fun readsBack => ?_
      obtain ⟨back, isBack, -⟩ := readsBack text emitted
      rw [parsed] at isBack
      cases isBack
    | some back =>
      simp only [JsonlLine.content, JsonlLine.value.injEq, true_and, and_true, JsonlLine.line]
      constructor
      · intro same other rendered
        rw [show emitLine numbers _ true (.value line value raw) = _ from rendered] at emitted
        cases emitted
        exact ⟨back, parsed, same⟩
      · intro readsBack
        obtain ⟨other, isOther, same⟩ := readsBack text emitted
        rw [parsed] at isOther
        cases isOther
        exact same
  | blank line raw =>
    cases emitted
    rw [parseLine, if_pos (trimmed.trans sound.2)]
    exact iff_of_true rfl trivial
  | malformed line raw =>
    obtain rfl : raw = text := Except.ok.inj emitted
    have unread : parseJsonc (String.ofList read) = none := by
      rcases isRead with whole | shape
      · rw [← whole, String.ofList_toList, sound.2.2]
      · apply ignores
        rw [← shape, String.ofList_toList, sound.2.2]
    rw [parseLine, if_neg (trimmed ▸ sound.2.1), unread]
    exact iff_of_true rfl trivial

private theorem contents_eq_iff (plain : WritesPlain numbers) (ignores : IgnoresReturn parseJsonc)
    {entries : List JsonlLine} {out : List String} {reads : List (List Char)} {start : ℕ}
    (sound : ∀ entry ∈ entries, Sound parseJsonc entry)
    (numbered : entries.map JsonlLine.line = List.range' (start + 1) entries.length)
    (emitted : List.Forall₂
      (fun entry text => emitLine numbers (guardPathFor fileName) true entry = .ok text) entries
      out) (areReads : List.Forall₂ (fun piece read => piece = read ∨ piece = read ++ ['\r'])
      (out.map String.toList) reads) : (((reads.map String.ofList).zipIdx start).map fun part =>
        parseLine parseJsonc part.1 (part.2 + 1)).map JsonlLine.content =
      entries.map JsonlLine.content ↔
      ∀ entry ∈ entries, ReadsBack numbers parseJsonc fileName entry := by
  induction emitted generalizing reads start with
  | nil =>
    cases areReads
    simp
  | @cons entry text entries out first rest inductionHypothesis =>
    cases areReads with
    | @cons _ read _ reads isRead areReads =>
      rw [map_cons, length_cons, List.range'_succ, List.cons.injEq] at numbered
      have others := inductionHypothesis
        (fun other member => sound other (.tail _ member)) numbered.2 areReads
      have here := content_parseLine_iff plain ignores (sound entry mem_cons_self) first isRead
      rw [numbered.1] at here
      simp only [map_cons, zipIdx_cons, List.cons.injEq, forall_mem_cons, here, others]

/-- The text of rendered lines gives them back just when they survive. -/
private theorem selfConsistent_rendered_iff (plain : WritesPlain numbers)
    (ignores : IgnoresReturn parseJsonc) {entries : List JsonlLine} {ending : LineEnding}
    {rendered : String} (nonempty : entries ≠ [])
    (sound : ∀ entry ∈ entries, Sound parseJsonc entry)
    (numbered : entries.map JsonlLine.line = List.range' 1 entries.length)
    (emitted : emitJsonl numbers ⟨"", entries, some ending⟩
      { mode := .render, fileNameForGuard := fileName } = .ok rendered) :
    SelfConsistent parseJsonc ⟨rendered, entries, some ending⟩ ↔
      Survives numbers parseJsonc fileName entries := by
  obtain ⟨out, mapped, same⟩ := bind_eq_ok_iff.mp emitted
  cases same
  have each := mapM_eq_ok_iff.mp mapped
  have apart : ∀ piece ∈ out.map String.toList, '\n' ∉ piece := by
    intro piece isPiece
    obtain ⟨text, isText, rfl⟩ := mem_map.mp isPiece
    obtain ⟨entry, member, written⟩ := exists_of_mem_mapM mapped isText
    have known := sound entry member
    cases entry with
    | value line value raw => exact fun feed => ((renderValue_text plain written).1 _ feed).1 rfl
    | blank line raw =>
      cases written
      exact known.1
    | malformed line raw =>
      cases written
      exact known.1
  have filled : out ≠ [] := fun empty => nonempty (by simpa [empty] using each)
  obtain ⟨front, last, rfl⟩ := (eq_nil_or_concat' out).resolve_left filled
  obtain ⟨earlier, lastEntry, rfl⟩ := (eq_nil_or_concat' entries).resolve_left nonempty
  have lastEmitted : emitLine numbers (guardPathFor fileName) true lastEntry = .ok last := by
    have reversed := forall₂_reverse_iff.mpr each
    rw [reverse_concat, reverse_concat] at reversed
    exact (forall₂_cons.mp reversed).1
  have pieces : (front ++ [last]).map String.toList = front.map String.toList ++ [last.toList] := by
    rw [map_append, map_singleton]
  have text : ending.text.intercalate (front ++ [last]) = String.ofList
        (ending.text.toList.intercalate (front.map String.toList ++ [last.toList])) := by
    rw [← String.toList_inj, String.toList_intercalate, String.toList_ofList, pieces]
  change SelfConsistent parseJsonc ⟨ending.text.intercalate (front ++ [last]), _, _⟩ ↔ _
  rw [pieces] at apart
  have knownLast := sound lastEntry (mem_append_right _ (mem_singleton_self _))
  unfold SelfConsistent Survives
  simp only [text, getLast?_concat]
  by_cases empty : last = ""
  · subst empty
    refine iff_of_false (fun same => ?_) fun survives => ?_
    · have lengths := congrArg List.length same
      have frontApart : ∀ piece ∈ front.map String.toList, '\n' ∉ piece :=
        fun piece member => apart piece (mem_append_left _ member)
      have atMost := length_lines_le parseJsonc ending frontApart
      have sameLength := each.length_eq
      simp only [length_map, length_append, length_singleton] at *
      have here : "".toList = [] := rfl
      rw [here] at lengths
      omega
    · cases lastEntry with
      | value line value raw =>
        obtain ⟨-, character, member, -⟩ := renderValue_text plain lastEmitted
        simp at member
      | blank line raw =>
        cases lastEmitted
        exact survives.1 line rfl
      | malformed line raw =>
        cases lastEmitted
        exact knownLast.2.1 (by decide)
  · have isLast := getLast?_intercalate ending (front.map String.toList) last.toList
    have some : last.toList ≠ [] := mt String.toList_eq_nil_iff.mp empty
    rw [getLast?_eq_some_getLast some, Option.some_or, ← getLast?_eq_some_getLast some] at isLast
    have absent := apart last.toList (mem_append_right _ (mem_singleton_self _))
    have reads := splitOn_normalizeEndings ending (by simp) apart
    rw [lines_of_last parseJsonc isLast some absent]
    rw [← pieces] at reads
    rw [← pieces, contents_eq_iff plain ignores sound numbered each reads, iff_and_self]
    rintro - line isBlank
    cases isBlank
    cases lastEmitted
    exact empty rfl

variable {ast returned : JsonlAst} {edit : JsonlEdit}

private theorem apply_eq_ok_some (applied : edit.apply numbers ast = .ok (some returned)) :
    ∃ entries rendered, edit.lines numbers ast = some entries ∧
      emitJsonl numbers { ast with raw := "", lines := entries }
          { mode := .render, fileNameForGuard := edit.fileName } = .ok rendered ∧
      returned = { ast with raw := rendered, lines := entries } := by
  cases edit with
  | append value =>
    obtain ⟨next, appended, same⟩ := bind_eq_ok_iff.mp applied
    cases same
    obtain ⟨rendered, emitted, same⟩ := bind_eq_ok_iff.mp appended
    cases same
    exact ⟨_, rendered, rfl, emitted, rfl⟩
  | set path newValue =>
    obtain ⟨outcome, done, same⟩ := bind_eq_ok_iff.mp applied
    cases outcome with
    | failed reason => cases same
    | ok next =>
      cases same
      obtain ⟨head, index, line, value, raw, texts, replaced, isHead, picked, atIndex, split,
        isReplaced, finalized⟩ := exists_of_setJsonlOcPath done
      obtain ⟨rendered, emitted, rfl⟩ := finalize_eq_ok_iff.mp finalized
      refine ⟨_, rendered, ?_, emitted, rfl⟩
      simp [JsonlEdit.lines, isHead, picked, atIndex, split, isReplaced]

private theorem parseLine_numbered (pieces : List String) (start : ℕ) :
    ((pieces.zipIdx start).map fun part => parseLine parseJsonc part.1 (part.2 + 1)).map
        JsonlLine.line = List.range' (start + 1) pieces.length := by
  induction pieces generalizing start with
  | nil => rfl
  | cons piece rest inductionHypothesis =>
    simp only [zipIdx_cons, map_cons, inductionHypothesis, line_parseLine,
      length_cons, List.range'_succ]

private theorem parseJsonl_lines (parseJsonc : String → Option JsoncValue) (raw : String) :
    (parseJsonl parseJsonc raw).lines.map JsonlLine.line =
        List.range' 1 (parseJsonl parseJsonc raw).lines.length ∧
      ∀ entry ∈ (parseJsonl parseJsonc raw).lines, Sound parseJsonc entry := by
  simp only [parseJsonl]
  split_ifs
  · simp
  · refine ⟨by simpa using @parseLine_numbered parseJsonc _ 0, ?_⟩
    intro entry member
    obtain ⟨⟨piece, number⟩, isPart, rfl⟩ := mem_map.mp member
    obtain ⟨characters, isPiece, rfl⟩ := mem_map.mp (fst_mem_of_mem_zipIdx isPart)
    have absent := not_mem_of_mem_splitOn isPiece
    unfold parseLine
    split_ifs with blank
    · exact ⟨by rwa [String.toList_ofList], blank⟩
    · split
      · exact ⟨by rwa [String.toList_ofList], blank, ‹_›⟩
      · trivial

/-- The edited lines are numbered and known like those of the document. -/
private theorem lines_edited {raw : String} {entries : List JsonlLine}
    (edited : edit.lines numbers (parseJsonl parseJsonc raw) = some entries) :
    entries ≠ [] ∧ (∀ entry ∈ entries, Sound parseJsonc entry) ∧
      entries.map JsonlLine.line = List.range' 1 entries.length := by
  obtain ⟨numbered, sound⟩ := parseJsonl_lines parseJsonc raw
  generalize parseJsonl parseJsonc raw = ast at *
  cases edit with
  | append value =>
    cases edited
    refine ⟨by simp, ?_, ?_⟩
    · simpa [or_imp, forall_and, Sound] using sound
    · have next : ast.nextLineNo = 1 + ast.lines.length := by
        rw [JsonlAst.nextLineNo, ← getLast?_map, numbered, getLast?_range']
        split_ifs with empty
        · simp [empty]
        · simp only [Option.getD_some]
          omega
      rw [map_append, numbered, length_append, length_singleton,
        List.range'_concat, one_mul, ← next]
      rfl
  | set path newValue =>
    obtain ⟨head, -, edited⟩ := Option.bind_eq_some_iff.mp edited
    obtain ⟨index, -, edited⟩ := Option.bind_eq_some_iff.mp edited
    split at edited
    next line value raw segments atIndex _ =>
      obtain ⟨replaced, -, rfl⟩ := Option.map_eq_some_iff.mp edited
      have tags : ((ast.lines.set index (.value line replaced raw)).map JsonlLine.tag).map
          Prod.snd = (ast.lines.map JsonlLine.tag).map Prod.snd :=
        congrArg (List.map Prod.snd) (tags_set atIndex)
      simp only [map_map] at tags
      refine ⟨?_, fun entry member => ?_, tags.trans (by rwa [length_set])⟩
      · have filled := ne_nil_of_mem (mem_of_getElem? atIndex)
        simpa using filled
      · rcases mem_or_eq_of_mem_set member with old | rfl
        · exact sound entry old
        · trivial
    · cases edited

/--
A document that an edit returns is parsed from its text as it is, just when the
edited lines survive.
-/
theorem selfConsistent_iff_survives (plain : WritesPlain numbers)
    (ignores : IgnoresReturn parseJsonc) {raw : String}
    (applied : edit.apply numbers (parseJsonl parseJsonc raw) = .ok (some returned)) :
    SelfConsistent parseJsonc returned ↔
      ∀ entries, edit.lines numbers (parseJsonl parseJsonc raw) = some entries →
        Survives numbers parseJsonc edit.fileName entries := by
  obtain ⟨entries, rendered, edited, emitted, rfl⟩ := apply_eq_ok_some applied
  obtain ⟨nonempty, sound, numbered⟩ := lines_edited edited
  obtain ⟨ending, isEnding⟩ : ∃ ending, (parseJsonl parseJsonc raw).lineEnding = some ending := by
    simp only [parseJsonl]
    split_ifs
    · exact ⟨_, rfl⟩
    · exact ⟨_, rfl⟩
  simp only [isEnding] at emitted ⊢
  rw [selfConsistent_rendered_iff plain ignores nonempty sound numbered emitted]
  simp [edited]

/-- A parser that knows the text `1` with any white space around it. -/
private def parseOne (text : String) : Option JsoncValue :=
  if trim text = "1" then some (.number (.finite 1) (some 1)) else none

private def one : JsoncValue := .number (.finite 1) none

private def ones : NumberText := { decimalNumbers with write := fun _ => "1" }

/-- The first line gets the number one. -/
private def setOne : JsonlEdit := .set firstLine one

private theorem ignoresReturn_parseOne : IgnoresReturn parseOne := by
  intro text unread
  rwa [parseOne, trim_append_return, ← parseOne] at unread

private theorem writesPlain_ones : WritesPlain ones := fun _ =>
  ⟨by simp [ones], by simp [ones, isWhitespace]⟩

private theorem exists_setOne :
    ∃ returned, setOne.apply ones (parseJsonl parseOne "1\n\n") = .ok (some returned) := by
  obtain ⟨rendered, emitted⟩ := (exists_emitJsonl_iff ones
    ⟨"", [.value 1 (.number (.finite 1) none) "1", .blank 2 ""], some .lf⟩ (some "log")).mpr (by
        rintro line value raw member
        obtain ⟨rfl, rfl, rfl⟩ : line = 1 ∧ value = .number (.finite 1) none ∧ raw = "1" := by
          simpa using member
        rw [hasSentinel])
  have picked : pickLineIndex ones (parseJsonl parseOne "1\n\n") "L1" = some 0 := by
    decide +kernel
  have atIndex : (parseJsonl parseOne "1\n\n").lines[0]? =
      some (.value 1 (.number (.finite 1) (some 1)) "1") := rfl
  have split : slotSegments (firstLine.itemSlot.toList ++ firstLine.fieldSlot.toList) = .ok [] :=
    rfl
  rcases setJsonlOcPath_of_line rfl picked atIndex split with
    ⟨replaced, isReplaced, finalized⟩ | ⟨failed, -⟩
  · cases isReplaced
    have done := finalized.trans (finalize_eq_ok_iff.mpr ⟨rendered, emitted, rfl⟩)
    exact ⟨_, congrArg (· >>= _) done⟩
  · cases failed

theorem selfConsistent_iff_survives_setOne :
    ∃ returned, setOne.apply ones (parseJsonl parseOne "1\n\n") = .ok (some returned) ∧
      (SelfConsistent parseOne returned ↔
        ∀ entries, setOne.lines ones (parseJsonl parseOne "1\n\n") = some entries →
          Survives ones parseOne setOne.fileName entries) := by
  obtain ⟨returned, applied⟩ := exists_setOne
  exact ⟨returned, applied,
    selfConsistent_iff_survives writesPlain_ones ignoresReturn_parseOne applied⟩

/-- The empty line at the end of the edited document is lost when it is parsed again. -/
theorem not_selfConsistent :
    ¬ ∀ (numbers : NumberText) (parseJsonc : String → Option JsoncValue) (raw : String)
        (edit : JsonlEdit) (returned : JsonlAst),
      WritesPlain numbers → IgnoresReturn parseJsonc →
      edit.apply numbers (parseJsonl parseJsonc raw) = .ok (some returned) →
      SelfConsistent parseJsonc returned := by
  intro consistent
  obtain ⟨returned, applied⟩ := exists_setOne
  have same := consistent ones parseOne _ setOne returned writesPlain_ones
    ignoresReturn_parseOne applied
  obtain ⟨entries, rendered, edited, emitted, rfl⟩ := apply_eq_ok_some applied
  obtain ⟨nonempty, sound, numbered⟩ := lines_edited edited
  have survives := (selfConsistent_rendered_iff writesPlain_ones ignoresReturn_parseOne nonempty
    sound numbered emitted).mp same
  cases edited
  exact survives.1 2 rfl

end Edits

end Jsonl
