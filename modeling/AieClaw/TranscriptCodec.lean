import AieClaw.EscapedLines
import AieClaw.MessageNormalizer
import AieClaw.TranscriptContent

/-!
# The blocks of a stored message

The transcript store writes the content blocks of an assistant message as lines
of text, and the chat page reads the lines back as items. This module says which
blocks come back, and as what.
-/

namespace TranscriptCodec

open JsonValue JsString SessionHistory MessageNormalizer List Option

open MessageNormalizer (MessageContentItem)

/-- A content block of an assistant message. -/
inductive Block where
  | text (text : String)
  | thinking (thinking : String)
  | toolCall (id name : String) (arguments : Option JsonValue)
  | toolUse (id name : String) (input : Option JsonValue)

namespace Block

/-- A string member of a block. -/
def stringOf (key : String) (value : JsonValue) : Option String :=
  (value.member? key).bind asString?

/-- The block that a JSON value is. -/
def ofJson (value : JsonValue) : Option Block :=
  match stringOf "type" value with
  | some "text" => (stringOf "text" value).map .text
  | some "thinking" => (stringOf "thinking" value).map .thinking
  | some "toolCall" =>
    (stringOf "id" value).bind fun id =>
      (stringOf "name" value).map fun name => .toolCall id name (value.member? "arguments")
  | some "tool_use" =>
    (stringOf "id" value).bind fun id =>
      (stringOf "name" value).map fun name => .toolUse id name (value.member? "input")
  | _ => none

/-- The line that the store writes for a block. -/
def line (stringify : JsonValue → String) : Block → String
  | .text written => "[text] " ++ escapeNewlines written
  | .thinking thought => "[thinking] " ++ escapeNewlines thought
  | .toolCall _ name arguments => toolUseLine stringify name arguments
  | .toolUse _ name input => toolUseLine stringify name input

/-- The item that shows a block; it has no identity, and `null` is nothing. -/
def toItem : Block → MessageContentItem
  | .text written => .ofText written
  | .thinking thought => .ofThinking thought
  | .toolCall _ name arguments => .ofToolCall name (orNullish arguments none)
  | .toolUse _ name input => .ofToolCall name (orNullish input none)

end Block

/-- The items that show a list of blocks; of no blocks, an empty text. -/
def shownItems : List Block → List MessageContentItem
  | [] => [.ofText ""]
  | blocks => blocks.map Block.toItem

/-- A name that fits in the marker of a tool call. -/
structure IsToolName (name : String) : Prop where
  nonempty : name ≠ ""
  unclosed : ']' ∉ name.toList
  oneLine : '\n' ∉ name.toList

/-- A value whose JSON text stands on one line and parses as the value. -/
structure IsWritten (stringify : JsonValue → String) (parse : String → Option JsonValue)
    (value : JsonValue) : Prop where
  parses : parse (stringify value) = some value
  nonempty : stringify value ≠ ""
  trimmed : trim (stringify value) = stringify value
  oneLine : ∀ character ∈ (stringify value).toList, isLineTerminator character = false

/-- The name and the arguments of a tool call that its line can hold. -/
structure IsPlainCall (stringify : JsonValue → String) (parse : String → Option JsonValue)
    (name : String) (args : Option JsonValue) : Prop where
  isToolName : IsToolName name
  isWritten : ∀ value, args = some value → value ≠ .null → IsWritten stringify parse value

/-- A block that its line can hold. -/
def Block.IsPlain (stringify : JsonValue → String) (parse : String → Option JsonValue) :
    Block → Prop
  | .text written => ReadsBack written
  | .thinking thought => ReadsBack thought
  | .toolCall _ name arguments => IsPlainCall stringify parse name arguments
  | .toolUse _ name input => IsPlainCall stringify parse name input

/-- A stored message of an assistant that is no result of a tool. -/
structure IsAssistantRow (message : JsonValue) (text : String) : Prop where
  role : message.member? "role" = some (.string "assistant")
  content : message.member? "content" = some (.string text)
  noToolId : stringMember "toolCallId" message = "" ∧ stringMember "tool_call_id" message = ""
  noToolName : stringMember "toolName" message = "" ∧ stringMember "tool_name" message = ""

variable {stringify : JsonValue → String} {value : JsonValue} (host : MessageNormalizer.Host)
  {name : String} {block : Block} {parse : String → Option JsonValue} {args : Option JsonValue}
  {blocks : List Block} (rest : String) {text : String}

private theorem stringMember_of_stringOf {key fallback : String}
    (read : Block.stringOf key value = some text) : stringMember key fallback value = text := by
  change (Block.stringOf key value).getD fallback = text
  rw [read, getD_some]

section

variable (read : Block.ofJson value = some block)
include read

theorem blockLine_of_ofJson : blockLine stringify value = block.line stringify := by
  rw [Block.ofJson] at read
  split at read
  case h_1 type =>
    obtain ⟨text, found, rfl⟩ := map_eq_some_iff.mp read
    change (value.member? "text").bind asString? = _ at found
    simp only [blockLine, stringMember_of_stringOf type, found, Block.line]
  case h_2 type =>
    obtain ⟨thinking, found, rfl⟩ := map_eq_some_iff.mp read
    change (value.member? "thinking").bind asString? = _ at found
    simp only [blockLine, stringMember_of_stringOf type, found, Block.line]
  case h_3 type =>
    obtain ⟨id, -, named⟩ := bind_eq_some_iff.mp read
    obtain ⟨name, found, rfl⟩ := map_eq_some_iff.mp named
    simp only [blockLine, stringMember_of_stringOf type, stringMember_of_stringOf found, Block.line]
  case h_4 type =>
    obtain ⟨id, -, named⟩ := bind_eq_some_iff.mp read
    obtain ⟨name, found, rfl⟩ := map_eq_some_iff.mp named
    simp only [blockLine, stringMember_of_stringOf type, stringMember_of_stringOf found, Block.line]
  case h_5 => cases read

private theorem type_of_ofJson : stringMember "type" "" value ≠ "tool_result" := by
  rw [Block.ofJson] at read
  split at read
  case h_5 => cases read
  all_goals
    rename_i type
    rw [stringMember_of_stringOf type]
    simp

private theorem exists_object_of_ofJson : ∃ members, value = .object members := by
  cases value with
  | object members => exact ⟨members, rfl⟩
  | null | bool | number | string | array =>
    simp [Block.ofJson, Block.stringOf, member?] at read

private theorem extractBlock_of_ofJson : extractBlock stringify value = block.line stringify := by
  obtain ⟨members, rfl⟩ := exists_object_of_ofJson read
  rw [extractBlock, if_neg (type_of_ofJson read), blockLine_of_ofJson read]

end

theorem extractBlocks_eq {values : List JsonValue} (read : values.mapM Block.ofJson = some blocks) :
    extractBlocks stringify values = blocks.map (Block.line stringify) := by
  induction values generalizing blocks with
  | nil =>
    obtain rfl : [] = blocks := by simpa using read
    rfl
  | cons value rest inductionHypothesis =>
    rw [mapM_cons] at read
    obtain ⟨block, readFirst, later⟩ := bind_eq_some_iff.mp read
    obtain ⟨blocksOfRest, readRest, same⟩ := bind_eq_some_iff.mp later
    obtain rfl : block :: blocksOfRest = blocks := Option.some.inj same
    rw [extractBlocks, extractBlock_of_ofJson readFirst, inductionHypothesis readRest, map_cons]

private theorem behind_append (start rest : String) : behind start (start ++ rest) = some rest := by
  simp [behind, startsWith]

private theorem onOneLine_eq
    (oneLine : ∀ character ∈ text.toList, isLineTerminator character = false) :
    onOneLine text = some text := by
  rw [onOneLine, if_neg]
  simpa using oneLine

private theorem bracketed_eq (start rest : String) (isToolName : IsToolName name) :
    bracketed start (start ++ (name ++ ("]" ++ rest))) = some (name, rest) := by
  have shape : (name ++ ("]" ++ rest)).toList = name.toList ++ ']' :: rest.toList := by
    simp
  have inName : ∀ character ∈ name.toList, decide (character ≠ ']') = true := by
    intro character member
    exact decide_eq_true fun same => isToolName.unclosed (same ▸ member)
  have taken : (name.toList ++ ']' :: rest.toList).takeWhile (· ≠ ']') =
        name.toList := by
    rw [takeWhile_append_of_pos inName]
    simp
  have dropped : (name.toList ++ ']' :: rest.toList).dropWhile (· ≠ ']') = ']' :: rest.toList := by
    rw [dropWhile_append_of_pos inName]
    simp
  have named : name.toList ≠ [] := by
    simpa using isToolName.nonempty
  rw [bracketed, behind_append, bind_some, shape, taken, dropped]
  simp [named]

private theorem trimStart_of_trim (trimmed : trim text = text) : trimStart text = text := by
  have isSuffix := dropWhile_suffix (l := text.toList) isWhitespace
  have long : text.toList.length ≤ (text.toList.dropWhile isWhitespace).length := by
    have fromTrim := congrArg (fun written => written.toList.length) trimmed
    simp only [trim, String.toList_ofList, length_reverse] at fromTrim
    have shorter :=
      ((text.toList.dropWhile isWhitespace).reverse.dropWhile_suffix isWhitespace).length_le
    rw [length_reverse] at shorter
    omega
  rw [trimStart, isSuffix.eq_of_length_le long, String.ofList_toList]

private theorem markedText_eq (marker start : String) (isStart : marker ++ " " = start)
    (readsBack : ReadsBack text) : markedText marker (start ++ escapeNewlines text) =
      some (escapeNewlines text) := by
  have single := onOneLine_eq fun character member =>
    not_isLineTerminator_of_mem_escapeNewlines readsBack member
  rw [markedText, isStart, behind_append, bind_some, single]

theorem markerItem_text (readsBack : ReadsBack text) :
    markerItem host ("[text] " ++ escapeNewlines text) = some (.ofText text) := by
  have unstamped : stripTimestamp ("[text] " ++ escapeNewlines text) =
        "[text] " ++ escapeNewlines text := by
    simp [stripTimestamp, stampClasses, InboundMetadata.consume]
  have noThinking : thinkingItem ("[text] " ++ escapeNewlines text) = none := by
    simp [thinkingItem, markedText, behind, startsWith]
  have marked := markedText_eq "[text]" "[text] " rfl readsBack
  simp only [markerItem, unstamped, noThinking, textBlockItem, marked, map_some,
    unescapeNewlines_escapeNewlines readsBack]
  rfl

theorem markerItem_thinking {thinking : String} (readsBack : ReadsBack thinking) :
    markerItem host ("[thinking] " ++ escapeNewlines thinking) = some (.ofThinking thinking) := by
  have unstamped : stripTimestamp ("[thinking] " ++ escapeNewlines thinking) =
        "[thinking] " ++ escapeNewlines thinking := by
    simp [stripTimestamp, stampClasses, InboundMetadata.consume]
  have marked := markedText_eq "[thinking]" "[thinking] " rfl readsBack
  simp only [markerItem, unstamped, thinkingItem, marked, map_some,
    unescapeNewlines_escapeNewlines readsBack]
  rfl

private theorem toolUseLine_of_nullish (stringify : JsonValue → String) (name : String)
    (nullish : isNullish args = true) : toolUseLine stringify name args =
      "[tool_use:" ++ (name ++ ("]" ++ "")) := by
  rw [← String.toList_inj]
  simp [toolUseLine, nullish]

private theorem toolUseLine_of_written (name : String) (present : isNullish (some value) = false)
    (isWritten : IsWritten stringify parse value) : toolUseLine stringify name (some value) =
      "[tool_use:" ++ (name ++ ("]" ++ (" " ++ stringify value))) := by
  rw [← String.toList_inj]
  simp [toolUseLine, present, isWritten.nonempty]

private theorem markerItem_toolUse {argsRaw : String} (isToolName : IsToolName name)
    (oneLine : onOneLine (trimStart rest) = some argsRaw) :
    markerItem host ("[tool_use:" ++ (name ++ ("]" ++ rest))) =
      some (.ofToolCall name (readArgs host (trim argsRaw))) := by
  have bracket := bracketed_eq "[tool_use:" rest isToolName
  generalize name ++ ("]" ++ rest) = later at bracket ⊢
  have unstamped : stripTimestamp ("[tool_use:" ++ later) = "[tool_use:" ++ later := by
    simp [stripTimestamp, stampClasses, InboundMetadata.consume]
  have noThinking : thinkingItem ("[tool_use:" ++ later) = none := by
    simp [thinkingItem, markedText, behind, startsWith]
  have noText : textBlockItem ("[tool_use:" ++ later) = none := by
    simp [textBlockItem, markedText, behind, startsWith]
  simp only [markerItem, unstamped, noThinking, noText,
    toolCallItem, bracket, bind_some, oneLine, map_some]
  rfl

private theorem exists_value_of_not_nullish (present : isNullish args = false) :
    ∃ value, args = some value ∧ value ≠ .null := by
  cases args with
  | none => cases present
  | some value =>
    refine ⟨value, rfl, fun isNull => ?_⟩
    rw [isNull] at present
    cases present

theorem markerItem_toolUseLine {host : MessageNormalizer.Host}
    (isPlain : IsPlainCall stringify host.parse name args) :
    markerItem host (toolUseLine stringify name args) =
      some (.ofToolCall name (orNullish args none)) := by
  cases nullish : isNullish args with
  | true =>
    have read := markerItem_toolUse host "" isPlain.isToolName rfl
    rw [toolUseLine_of_nullish stringify name nullish, read, orNullish, if_pos nullish]
    rfl
  | false =>
    obtain ⟨value, rfl, notNull⟩ := exists_value_of_not_nullish nullish
    have isWritten := isPlain.isWritten value rfl notNull
    have bare : trimStart (" " ++ stringify value) = stringify value := by
      have blank : trimStart (" " ++ stringify value) = trimStart (stringify value) := by
        simp [trimStart, isWhitespace]
      rw [blank, trimStart_of_trim isWritten.trimmed]
    have single : onOneLine (trimStart (" " ++ stringify value)) = some (stringify value) := by
      rw [bare, onOneLine_eq isWritten.oneLine]
    have read := markerItem_toolUse host (" " ++ stringify value) isPlain.isToolName single
    rw [toolUseLine_of_written name nullish isWritten, read,
      orNullish, if_neg (by simp [nullish]), isWritten.trimmed,
      readArgs, if_neg isWritten.nonempty, isWritten.parses]
    rfl

theorem markerItem_line (isPlain : block.IsPlain stringify host.parse) :
    markerItem host (block.line stringify) = some block.toItem := by
  cases block with
  | text written => exact markerItem_text host isPlain
  | thinking thought => exact markerItem_thinking host isPlain
  | toolCall id name arguments => exact markerItem_toolUseLine isPlain
  | toolUse id name input => exact markerItem_toolUseLine isPlain

private theorem line_ne_empty (stringify : JsonValue → String) (block : Block) :
    block.line stringify ≠ "" := by
  have opened (start rest : String) (nonempty : start ≠ "") : start ++ rest ≠ "" := by
    simp [nonempty]
  cases block with
  | text written => exact opened "[text] " _ (by simp)
  | thinking thought => exact opened "[thinking] " _ (by simp)
  | toolCall _ name args | toolUse _ name args =>
    simp only [Block.line, toolUseLine]
    split_ifs <;> simp

private theorem lineFeed_not_mem_toolUseLine (isPlain : IsPlainCall stringify parse name args) :
    '\n' ∉ (toolUseLine stringify name args).toList := by
  have named := isPlain.isToolName.oneLine
  cases nullish : isNullish args with
  | true =>
    rw [toolUseLine_of_nullish stringify name nullish]
    simpa using named
  | false =>
    obtain ⟨value, rfl, notNull⟩ := exists_value_of_not_nullish nullish
    have isWritten := isPlain.isWritten value rfl notNull
    have unbroken : '\n' ∉ (stringify value).toList :=
      fun member => Bool.noConfusion (isWritten.oneLine '\n' member)
    rw [toolUseLine_of_written name nullish isWritten]
    simpa using ⟨named, unbroken⟩

private theorem lineFeed_not_mem_line (isPlain : block.IsPlain stringify parse) :
    '\n' ∉ (block.line stringify).toList := by
  have escaped {text : String} (readsBack : ReadsBack text) :
      '\n' ∉ (escapeNewlines text).toList := fun member =>
    Bool.noConfusion (not_isLineTerminator_of_mem_escapeNewlines readsBack member)
  cases block with
  | text written => simpa [Block.line] using escaped isPlain
  | thinking thought => simpa [Block.line] using escaped isPlain
  | toolCall _ name arguments => exact lineFeed_not_mem_toolUseLine isPlain
  | toolUse _ name input => exact lineFeed_not_mem_toolUseLine isPlain

private theorem flushText_nil : flushText [] = [] := by
  decide +kernel

private theorem itemsOfLines_of_markerItem {host : MessageNormalizer.Host} {line : String}
    {item : MessageContentItem} (textLines rest : List String)
    (marked : markerItem host line = some item) : itemsOfLines host textLines (line :: rest) =
      flushText textLines ++ item :: itemsOfLines host [] rest := by
  conv_lhs => unfold itemsOfLines
  rw [marked]

theorem itemsOfLines_lines {host : MessageNormalizer.Host}
    (arePlain : ∀ block ∈ blocks, block.IsPlain stringify host.parse) :
    itemsOfLines host [] (blocks.map (Block.line stringify)) = blocks.map Block.toItem := by
  induction blocks with
  | nil => exact flushText_nil
  | cons block rest inductionHypothesis =>
    have first : markerItem host (block.line stringify) = some block.toItem :=
      markerItem_line host (arePlain block mem_cons_self)
    have later := inductionHypothesis fun other member =>
      arePlain other (.tail block member)
    rw [map_cons, itemsOfLines_of_markerItem [] _ first, later, flushText_nil, nil_append, map_cons]

private theorem contentOfText_extractContent {host : MessageNormalizer.Host}
    {values : List JsonValue} (read : values.mapM Block.ofJson = some blocks)
    (arePlain : ∀ block ∈ blocks, block.IsPlain stringify host.parse) :
    contentOfText host "assistant" (extractContent stringify (.array values)) =
      shownItems blocks := by
  rw [extractContent, extractBlocks_eq read]
  cases blocks with
  | nil => rfl
  | cons block rest =>
    have pieces : split (joinLines ((block :: rest).map (Block.line stringify)))
            '\n' = (block :: rest).map (Block.line stringify) := by
      apply split_joinLines (by simp)
      · intro line member
        obtain ⟨source, -, rfl⟩ := mem_map.mp member
        exact line_ne_empty stringify source
      · intro line member
        obtain ⟨source, inBlocks, rfl⟩ := mem_map.mp member
        exact lineFeed_not_mem_line (arePlain source inBlocks)
    have shown : shownItems (block :: rest) = (block :: rest).map Block.toItem := rfl
    rw [contentOfText, pieces, itemsOfLines_lines arePlain, shown]
    cases rest with
    | nil => rfl
    | cons second later => rfl

/--
A list of blocks that their lines can hold is shown as it was, in order, with
the kind, the text, the name and the arguments of each block. An item has no
identity, arguments that are `null` are none, and no blocks are shown as one
empty text.
-/
theorem normalizeMessage_extractContent (stringify : JsonValue → String)
    (host : MessageNormalizer.Host) (values : List JsonValue) (blocks : List Block)
    (message : JsonValue) (read : values.mapM Block.ofJson = some blocks)
    (arePlain : ∀ block ∈ blocks, block.IsPlain stringify host.parse)
    (isRow : IsAssistantRow message (extractContent stringify (.array values))) :
    ∃ normalized,
      normalizeMessage host message = some normalized ∧
        normalized.role = "assistant" ∧ normalized.content = shownItems blocks := by
  have tagless : normalizeMessage host message = normalizeTagged host "assistant" none message := by
    cases message with
    | object members =>
      have role : ((object members).member? "role").bind asString? = some "assistant" := by
        rw [isRow.role]
        rfl
      simp only [normalizeMessage, normalizeValue, role, isRow.content]
      rfl
    | null | bool | number | string | array =>
      have content := isRow.content
      cases content
  have contentRead : readContent host "assistant" message = some (shownItems blocks) := by
    rw [readContent, isRow.content]
    exact congrArg some (contentOfText_extractContent read arePlain)
  have noTool : orElse (stringMember "toolCallId" message)
          (stringMember "tool_call_id" message) = "" ∧ orElse (stringMember "toolName" message)
          (stringMember "tool_name" message) = "" := by
    rw [isRow.noToolId.1, isRow.noToolId.2, isRow.noToolName.1, isRow.noToolName.2]
    exact ⟨rfl, rfl⟩
  rw [tagless, normalizeTagged]
  simp only [noTool, isRow.content, ne_eq, not_true_eq_false, decide_false,
    Bool.or_self, Bool.false_eq_true, if_false, contentRead, map_some]
  exact ⟨_, rfl, rfl, rfl⟩

private def commandArgs : JsonValue := .object [("command", .string "ls")]

private def commandText : String := "\x7b\"command\":\"ls\"\x7d"

/-- The host, at the only value that the message below has written. -/
private def commandStringify (_ : JsonValue) : String := commandText

private def commandHost : MessageNormalizer.Host where
  parse text := if text = commandText then some commandArgs else none
  toText _ := "[object Object]"
  now := 0

private def callBlock (id : String) : JsonValue :=
  .object
    [("type", .string "toolCall"), ("id", .string id),
      ("name", .string "exec"), ("arguments", commandArgs)]

private def textBlock : JsonValue :=
  .object [("type", .string "text"), ("text", .string "first\n[tool_use:exec] ls")]

private def row (values : List JsonValue) : JsonValue :=
  .object
    [("role", .string "assistant"),
      ("content", .string (extractContent commandStringify (.array values)))]

private theorem isAssistantRow_row (values : List JsonValue) : IsAssistantRow (row values)
      (extractContent commandStringify (.array values)) where
  role := rfl
  content := rfl
  noToolId := ⟨rfl, rfl⟩
  noToolName := ⟨rfl, rfl⟩

private theorem isPlainCall_command : IsPlainCall commandStringify commandHost.parse "exec"
      (some commandArgs) where
  isToolName := ⟨by decide, by decide, by decide⟩
  isWritten value same _ := by
    cases same
    exact ⟨rfl, by decide, by decide +kernel, oneLine_of_all (by decide +kernel)⟩

theorem normalizeMessage_extractContent_call :
    ∃ normalized,
      normalizeMessage commandHost (row [textBlock, callBlock "call_1"]) = some normalized ∧
        normalized.role = "assistant" ∧
          normalized.content =
            shownItems
              [.text "first\n[tool_use:exec] ls",
                .toolCall "call_1" "exec" (some commandArgs)] := by
  apply normalizeMessage_extractContent commandStringify commandHost
    [textBlock, callBlock "call_1"] _ _ rfl _ (isAssistantRow_row _)
  intro block member
  rcases mem_cons.mp member with rfl | later
  · exact ⟨breaks_of_all (by decide +kernel), by decide +kernel⟩
  · obtain rfl := mem_singleton.mp later
    exact isPlainCall_command

def Recovers (stringify : JsonValue → String) (host : MessageNormalizer.Host)
    (read : List MessageContentItem → List Block) : Prop :=
  ∀ values blocks message,
    values.mapM Block.ofJson = some blocks →
      IsAssistantRow message (extractContent stringify (.array values)) →
        ∃ normalized,
          normalizeMessage host message = some normalized ∧ read normalized.content = blocks

/-- Two calls that differ in their identity are shown alike. -/
theorem not_recovers : ¬ ∃ read, Recovers commandStringify commandHost read := by
  intro someRead
  obtain ⟨read, recovers⟩ := someRead
  obtain ⟨first, shownFirst, readFirst⟩ :=
    recovers [callBlock "call_1"] [.toolCall "call_1" "exec" commandArgs]
      (row [callBlock "call_1"]) rfl (isAssistantRow_row _)
  obtain ⟨second, shownSecond, readSecond⟩ :=
    recovers [callBlock "call_2"] [.toolCall "call_2" "exec" commandArgs]
      (row [callBlock "call_2"]) rfl (isAssistantRow_row _)
  have sameRow : row [callBlock "call_1"] = row [callBlock "call_2"] := by
    rfl
  rw [sameRow, shownSecond] at shownFirst
  cases shownFirst
  rw [readSecond] at readFirst
  simp at readFirst

end TranscriptCodec
