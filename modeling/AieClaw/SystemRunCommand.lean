import AieClaw.JsString
import AieClaw.SeparatedWords

/-!
# The canonical text of a command

`src/infra/system-run-command.ts` writes the arguments of a command as one text. An approval
is asked for this text, compared with the text a caller sends along, and remembered under its
digest, so the text has to tell which arguments it was made from.
-/

namespace SystemRunCommand

open List JsString

/-- White space or a quote. -/
def needsQuotes (arg : String) : Bool :=
  arg.toList.any fun character => isWhitespace character || character == '"'

/-- A backslash is put before each quote, and before nothing else. -/
def escapeQuotes (characters : List Char) : List Char :=
  characters.flatMap fun character => if character = '"' then ['\\', '"'] else [character]

def formatArg (arg : String) : String :=
  if arg = "" then "\"\""
  else if needsQuotes arg then String.ofList ('"' :: escapeQuotes arg.toList ++ ['"'])
  else arg

def formatExecCommand (argv : List String) : String := " ".intercalate (argv.map formatArg)

structure ShellWrapperResolution where
  isWrapper : Bool
  command : Option String

/-- How the arguments of a shell and of its wrappers are read. -/
structure ShellReader where
  extractShellWrapperCommand : List String → Option String → ShellWrapperResolution
  hasEnvManipulationBeforeShellWrapper : List String → Bool
  hasTrailingPositionalArgvAfterInlineCommand : List String → Bool

structure SystemRunCommandDisplay where
  shellPayload : Option String
  commandText : String
  previewText : Option String

/-- The details of the one error: that the raw command is not the text of the arguments. -/
structure RawCommandMismatch where
  message : String
  code : String
  rawCommand : String
  inferred : String
  formattedArgv : String

section Validation

variable (reader : ShellReader)

def buildSystemRunCommandDisplay (argv : List String) (rawCommand : Option String) :
    SystemRunCommandDisplay :=
  let rawless := reader.extractShellWrapperCommand argv none
  let resolution :=
    if rawless.command = none ∧ rawCommand ≠ none then
      reader.extractShellWrapperCommand argv rawCommand
    else rawless
  let hidden := reader.hasTrailingPositionalArgvAfterInlineCommand argv ||
    (resolution.isWrapper && reader.hasEnvManipulationBeforeShellWrapper argv)
  { shellPayload := resolution.command
    commandText := formatExecCommand argv
    previewText := if hidden then none else resolution.command.map trim }

def normalizeRawCommandText (rawCommand : Option String) : Option String :=
  (rawCommand.map trim).filter (· ≠ "")

def rawCommandMismatch (raw : String) (display : SystemRunCommandDisplay) :
    RawCommandMismatch where
  message := "INVALID_REQUEST: rawCommand does not match command"
  code := "RAW_COMMAND_MISMATCH"
  rawCommand := raw
  inferred := display.commandText
  formattedArgv := display.commandText

def validateSystemRunCommandConsistency (argv : List String) (rawCommand : Option String)
    (allowLegacyShellText : Bool) : Except RawCommandMismatch SystemRunCommandDisplay :=
  let raw := normalizeRawCommandText rawCommand
  let display := buildSystemRunCommandDisplay reader argv raw
  match raw with
  | none => .ok display
  | some raw =>
    if raw = display.commandText ∨
        allowLegacyShellText = true ∧ display.previewText = some raw then .ok display
    else .error (rawCommandMismatch raw display)

end Validation

section Reading

variable {arg other : String} {argv others : List String}

theorem not_quote_of_plain {character : Char} (plain : needsQuotes arg = false)
    (member : character ∈ arg.toList) : isWhitespace character = false ∧ character ≠ '"' := by
  have visible := any_eq_false.mp plain character member
  simpa using visible

theorem toList_formatArg (arg : String) :
    (formatArg arg).toList =
      if arg = "" ∨ needsQuotes arg then '"' :: escapeQuotes arg.toList ++ ['"']
      else arg.toList := by
  rw [formatArg]
  by_cases empty : arg = ""
  · simp [empty, escapeQuotes]
  · by_cases quoted : needsQuotes arg = true
    · simp [empty, quoted]
    · simp [empty, quoted]

theorem reverse_escapeQuotes (characters : List Char) :
    (escapeQuotes characters).reverse =
      characters.reverse.flatMap fun character =>
        if character = '"' then ['"', '\\'] else [character] := by
  induction characters with
  | nil => rfl
  | cons character rest inductionHypothesis =>
    rw [escapeQuotes, flatMap_cons, reverse_append, reverse_cons, flatMap_append,
      ← escapeQuotes, inductionHypothesis]
    by_cases isQuote : character = '"' <;> simp [isQuote]

/-- What stands, from the right, behind the opening quote of an argument. -/
def Ahead (text : List Char) : Prop := text = [] ∨ ∃ later, text = ' ' :: later

/--
Read from the right, a quoted argument ends at the first quote without a backslash before
it, since the opening quote has a blank or nothing before it.
-/
theorem quoted_inj {word others rest later : List Char} (restAhead : Ahead rest)
    (laterAhead : Ahead later)
    (same : (word.flatMap fun character => if character = '"' then ['"', '\\'] else [character]) ++
        '"' :: rest =
      (others.flatMap fun character => if character = '"' then ['"', '\\'] else [character]) ++
        '"' :: later) : word = others ∧ rest = later := by
  induction word generalizing others with
  | nil =>
    cases others with
    | nil => simpa using same
    | cons character remaining =>
      by_cases isQuote : character = '"'
      · subst isQuote
        rcases restAhead with rfl | ⟨more, rfl⟩ <;> simp at same
      · simp [isQuote, Ne.symm isQuote] at same
  | cons first remaining inductionHypothesis =>
    cases others with
    | nil =>
      by_cases isQuote : first = '"'
      · subst isQuote
        rcases laterAhead with rfl | ⟨more, rfl⟩ <;> simp at same
      · simp [isQuote] at same
    | cons second more =>
      by_cases firstQuote : first = '"'
      · by_cases secondQuote : second = '"'
        · subst firstQuote secondQuote
          simp only [flatMap_cons, if_pos, cons_append, nil_append, cons.injEq, true_and] at same
          obtain ⟨sameWord, sameRest⟩ := inductionHypothesis same
          exact ⟨by rw [sameWord], sameRest⟩
        · simp [firstQuote, secondQuote, Ne.symm secondQuote] at same
      · by_cases secondQuote : second = '"'
        · simp [firstQuote, secondQuote] at same
        · simp only [flatMap_cons, if_neg firstQuote, if_neg secondQuote, cons_append,
            cons.injEq] at same
          obtain ⟨sameWord, sameRest⟩ := inductionHypothesis same.2
          exact ⟨by rw [same.1, sameWord], sameRest⟩

theorem plain_inj {word others rest later : List Char} (restAhead : Ahead rest)
    (laterAhead : Ahead later) (wordPlain : ' ' ∉ word) (othersPlain : ' ' ∉ others)
    (same : word ++ rest = others ++ later) : word = others ∧ rest = later := by
  have kept {characters behind : List Char} (plain : ' ' ∉ characters) (ahead : Ahead behind) :
      (characters ++ behind).takeWhile (· ≠ ' ') = characters := by
    have all : ∀ character ∈ characters, decide (character ≠ ' ') = true := by
      intro character member
      exact decide_eq_true fun isBlank => plain (isBlank ▸ member)
    rw [takeWhile_append_of_pos all]
    rcases ahead with rfl | ⟨more, rfl⟩ <;> simp
  have sameWord : word = others := by
    rw [← kept wordPlain restAhead, same, kept othersPlain laterAhead]
  subst sameWord
  exact ⟨rfl, append_cancel_left same⟩

theorem ahead_reverse {text : List Char} (closed : SeparatedWords.Closed ' ' text) :
    Ahead text.reverse := by
  rcases closed with rfl | ⟨earlier, rfl⟩
  · exact Or.inl rfl
  · exact Or.inr ⟨earlier.reverse, by simp⟩

/-- An argument at the end of a text is read back, and so is the text in front of it. -/
theorem readFromEnd_formatArg :
    SeparatedWords.ReadFromEnd ' ' fun arg => (formatArg arg).toList := by
  intro start before arg other startClosed beforeClosed same
  have reversed := congrArg reverse same
  simp only [reverse_append, toList_formatArg] at reversed
  have startAhead := ahead_reverse startClosed
  have beforeAhead := ahead_reverse beforeClosed
  have noQuote {arg : String} (plain : ¬(arg = "" ∨ needsQuotes arg = true)) :
      '"' ∉ arg.toList ∧ ' ' ∉ arg.toList ∧ arg.toList ≠ [] := by
    obtain ⟨nonempty, plain⟩ := not_or.mp plain
    have plain := Bool.eq_false_iff.mpr plain
    refine ⟨fun member => (not_quote_of_plain plain member).2 rfl, fun member => ?_, ?_⟩
    · exact absurd (not_quote_of_plain plain member).1 (by decide)
    · simpa using nonempty
  -- The last character tells a quoted argument from a plain one.
  have noMix {arg : String} {written rest later : List Char}
      (plain : ¬(arg = "" ∨ needsQuotes arg = true))
      (mixed : arg.toList.reverse ++ rest = '"' :: written ++ later) : False := by
    obtain ⟨unquoted, -, nonempty⟩ := noQuote plain
    obtain ⟨last, init, shape⟩ := exists_cons_of_ne_nil (reverse_ne_nil_iff.mpr nonempty)
    rw [shape, cons_append, cons_append, cons.injEq] at mixed
    exact unquoted (mem_reverse.mp (shape ▸ mixed.1 ▸ mem_cons_self))
  by_cases quoted : arg = "" ∨ needsQuotes arg = true
  · rw [if_pos quoted] at reversed
    by_cases otherQuoted : other = "" ∨ needsQuotes other = true
    · rw [if_pos otherQuoted] at reversed
      simp only [reverse_append, reverse_cons, reverse_nil, nil_append, cons_append,
        reverse_escapeQuotes, append_assoc, cons.injEq, true_and] at reversed
      obtain ⟨sameArg, sameStart⟩ := quoted_inj startAhead beforeAhead reversed
      exact ⟨reverse_injective sameStart, String.toList_injective (reverse_injective sameArg)⟩
    · rw [if_neg otherQuoted] at reversed
      exact (noMix otherQuoted (by simpa using reversed.symm)).elim
  · rw [if_neg quoted] at reversed
    by_cases otherQuoted : other = "" ∨ needsQuotes other = true
    · rw [if_pos otherQuoted] at reversed
      exact (noMix quoted (by simpa using reversed)).elim
    · rw [if_neg otherQuoted] at reversed
      have unspaced {arg : String} (plain : ¬(arg = "" ∨ needsQuotes arg = true)) :
          ' ' ∉ arg.toList.reverse := by
        simpa using (noQuote plain).2.1
      obtain ⟨sameArg, sameStart⟩ :=
        plain_inj startAhead beforeAhead (unspaced quoted) (unspaced otherQuoted) reversed
      exact ⟨reverse_injective sameStart, String.toList_injective (reverse_injective sameArg)⟩

theorem toList_formatExecCommand (argv : List String) :
    (formatExecCommand argv).toList =
      [' '].intercalate (argv.map fun arg => (formatArg arg).toList) := by
  rw [formatExecCommand, String.toList_intercalate, map_map]
  rfl

theorem eq_of_formatExecCommand (nonempty : argv ≠ []) (othersNonempty : others ≠ [])
    (same : formatExecCommand argv = formatExecCommand others) : argv = others := by
  refine SeparatedWords.eq_of_intercalate readFromEnd_formatArg nonempty othersNonempty ?_
  rw [← toList_formatExecCommand, same, toList_formatExecCommand]

theorem formatArg_edges (arg : String) :
    ∃ first last, (formatArg arg).toList.head? = some first ∧
      (formatArg arg).toList.getLast? = some last ∧
      isWhitespace first = false ∧ isWhitespace last = false := by
  rw [toList_formatArg]
  by_cases quoted : arg = "" ∨ needsQuotes arg = true
  · rw [if_pos quoted]
    exact ⟨'"', '"', rfl, getLast?_concat, by decide, by decide⟩
  · rw [if_neg quoted]
    obtain ⟨nonempty, plain⟩ := not_or.mp quoted
    have visible : ∀ character ∈ arg.toList, isWhitespace character = false :=
      fun _ member => (not_quote_of_plain (Bool.eq_false_iff.mpr plain) member).1
    have nonempty : arg.toList ≠ [] := by simpa using nonempty
    exact ⟨arg.toList.head nonempty, arg.toList.getLast nonempty, head?_eq_some_head nonempty,
      getLast?_eq_some_getLast nonempty, visible _ (head_mem nonempty),
      visible _ (getLast_mem nonempty)⟩

theorem trim_of_edges {text : String} {first last : Char}
    (isFirst : text.toList.head? = some first) (isLast : text.toList.getLast? = some last)
    (firstVisible : isWhitespace first = false) (lastVisible : isWhitespace last = false) :
    trim text = text := by
  have keeps {characters : List Char} {first : Char} (isFirst : characters.head? = some first)
      (visible : isWhitespace first = false) :
      characters.dropWhile isWhitespace = characters := by
    obtain ⟨rest, rfl⟩ := head?_eq_some_iff.mp isFirst
    rw [dropWhile_cons_of_neg (by simp [visible])]
  have isHead : text.toList.reverse.head? = some last := by rw [head?_reverse, isLast]
  rw [trim, keeps isFirst firstVisible, keeps isHead lastVisible, reverse_reverse,
    String.ofList_toList]

theorem trim_formatExecCommand (nonempty : argv ≠ []) :
    trim (formatExecCommand argv) = formatExecCommand argv := by
  have text : [' '].intercalate (argv.map fun arg => (formatArg arg).toList) ++ [' '] =
      SeparatedWords.terminated ' ' (fun arg => (formatArg arg).toList) argv :=
    SeparatedWords.intercalate_append_separator nonempty
  rw [← toList_formatExecCommand] at text
  obtain ⟨init, back, isBack⟩ := (eq_nil_or_concat argv).resolve_left nonempty
  obtain ⟨-, last, -, isLast, -, lastVisible⟩ := formatArg_edges back
  have ending : (formatExecCommand argv).toList =
      SeparatedWords.terminated ' ' (fun arg => (formatArg arg).toList) init ++
        (formatArg back).toList := by
    rw [isBack, concat_eq_append, SeparatedWords.terminated_concat] at text
    rw [isBack, concat_eq_append]
    exact append_cancel_right text
  obtain ⟨front, rest, isFront⟩ := exists_cons_of_ne_nil nonempty
  obtain ⟨first, -, isFirst, -, firstVisible, -⟩ := formatArg_edges front
  have beginning : ((formatExecCommand argv).toList ++ [' ']).head? = some first := by
    rw [text, isFront, SeparatedWords.terminated, flatMap_cons, append_assoc, head?_append,
      isFirst]
    rfl
  refine trim_of_edges ?_ (by rw [ending, getLast?_append, isLast]; rfl) firstVisible lastVisible
  rw [head?_append] at beginning
  cases written : (formatExecCommand argv).toList.head? with
  | some character => rwa [written] at beginning
  | none =>
    rw [written] at beginning
    obtain rfl : ' ' = first := by simpa using beginning
    exact absurd firstVisible (by decide)

end Reading

section Uses

theorem formatExecCommand_of_accepted {reader : ShellReader} {argv : List String}
    {rawCommand : Option String} {raw : String} {display : SystemRunCommandDisplay}
    (given : normalizeRawCommandText rawCommand = some raw)
    (accepted : validateSystemRunCommandConsistency reader argv rawCommand false = .ok display) :
    raw = formatExecCommand argv := by
  rw [validateSystemRunCommandConsistency, given] at accepted
  by_contra differs
  have refused : ¬(raw = (buildSystemRunCommandDisplay reader argv (some raw)).commandText ∨
      false = true ∧
        (buildSystemRunCommandDisplay reader argv (some raw)).previewText = some raw) := by
    rintro (same | ⟨never, -⟩)
    · exact differs same
    · exact Bool.noConfusion never
  simp only [if_neg refused] at accepted
  cases accepted

end Uses

end SystemRunCommand
