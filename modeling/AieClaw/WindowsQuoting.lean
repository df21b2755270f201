import AieClaw.JsString

/-!
# Windows quoting of shell commands

`src/infra/exec-approvals-analysis.ts` reads a Windows command twice: `findWindowsUnsupportedToken`
looks for characters that must not be active, and `tokenizeWindowsSegment` splits the command into
its arguments. `windowsEscapeArg` writes arguments for that second reader, which drops the doubled
quotes the writer leaves; the first one takes no notice of single quotes.
-/

namespace AieClaw

open List

namespace WindowsShell

def WINDOWS_UNSUPPORTED_TOKENS : List Char :=
  ['&', '|', '<', '>', ';', '^', '(', ')', '%', '!', '\x60', '\n', '\r']

/-- `WINDOWS_ALWAYS_UNSAFE_TOKENS`, unsafe inside double quotes as well -/
def WINDOWS_ALWAYS_UNSAFE_TOKENS : List Char := ['\n', '\r', '%', '\x60']

/-- `[A-Za-z_{(?$]`, what makes a dollar sign an expansion -/
def startsExpansion (character : Char) : Bool :=
  character.isAlpha || ['_', '\x7b', '(', '?', '$'].contains character

/-- `findWindowsUnsupportedToken` from a character on -/
def findLoop (inDouble : Bool) : List Char → Option String
  | [] => none
  | ch :: rest =>
    if ch = '"' then findLoop (!inDouble) rest
    else if ch = '$' then
      if rest.head?.any startsExpansion then some "$" else findLoop inDouble rest
    else if ch ∈ WINDOWS_UNSUPPORTED_TOKENS then
      if inDouble ∧ ch ∉ WINDOWS_ALWAYS_UNSAFE_TOKENS then findLoop inDouble rest
      else if ch = '\n' ∨ ch = '\r' then some "newline"
      else some ch.toString
    else findLoop inDouble rest

def findWindowsUnsupportedToken (command : String) : Option String :=
  findLoop false command.toList

/-- The variables of `tokenizeWindowsSegment`. -/
structure Tokenizer where
  tokens : List String := []
  buf : List Char := []
  inDouble : Bool := false
  inSingle : Bool := false
  wasQuoted : Bool := false

namespace Tokenizer

def pushToken (state : Tokenizer) : Tokenizer :=
  if state.buf ≠ [] ∨ state.wasQuoted then
    { state with
      tokens := state.tokens ++ [String.ofList state.buf], buf := [], wasQuoted := false }
  else { state with wasQuoted := false }

/-- The loop of `tokenizeWindowsSegment` -/
def read (state : Tokenizer) : List Char → Tokenizer
  | [] => state
  | ch :: rest =>
    if ch = '"' ∧ state.inSingle = false then
      read { state with wasQuoted := state.wasQuoted || !state.inDouble,
                        inDouble := !state.inDouble } rest
    else if ch = '\'' ∧ state.inDouble = false then
      let toggled := { state with wasQuoted := state.wasQuoted || !state.inSingle,
                                  inSingle := !state.inSingle }
      match rest with
      | [] => toggled
      | next :: others =>
        if state.inSingle ∧ next = '\'' then read { state with buf := state.buf ++ ['\''] } others
        else read toggled (next :: others)
    else if state.inDouble = false ∧ state.inSingle = false ∧ JsString.isWhitespace ch then
      read state.pushToken rest
    else read { state with buf := state.buf ++ [ch] } rest

/-- Whether the next character is read inside a quoted region. -/
def Quoted (state : Tokenizer) : Prop := state.inDouble ∨ state.inSingle

instance (state : Tokenizer) : Decidable state.Quoted := inferInstanceAs (Decidable (_ ∨ _))

end Tokenizer

def tokenizeWindowsSegment (segment : String) : Option (List String) :=
  let read := Tokenizer.read {} segment.toList
  if read.inDouble ∨ read.inSingle then none
  else if read.pushToken.tokens = [] then none
  else some read.pushToken.tokens

example : tokenizeWindowsSegment "'it''s' \"\" a" = some ["it's", "", "a"] := by decide +kernel

/-- Characters that `windowsEscapeArg` leaves without quotes: `[a-zA-Z0-9_./:~\\=-]` -/
def isSafe (character : Char) : Bool :=
  character.isAlphanum || ['_', '.', '/', ':', '~', '\\', '=', '-'].contains character

/-- `WINDOWS_UNSAFE_CMD_META` -/
def hasUnsafeMeta : List Char → Bool
  | [] => false
  | ch :: rest =>
    ch = '%' || ch = '\x60' || (ch = '$' && rest.head?.any startsExpansion) || hasUnsafeMeta rest

/-- `value.replace(/"/g, '""')` -/
def doubleQuotes (value : List Char) : List Char :=
  value.flatMap fun ch => if ch = '"' then ['"', '"'] else [ch]

def windowsEscapeArg (value : String) : Option String :=
  if value = "" then some "\"\""
  else if hasUnsafeMeta value.toList then none
  else if value.toList.all isSafe then some value
  else some (String.ofList ('"' :: doubleQuotes value.toList ++ ['"']))

/-- The loop of `renderWindowsQuotedArgv`, with the reason it gives for a refused argument -/
def escapeEach : List String → Except String (List String)
  | [] => .ok []
  | token :: rest =>
    match windowsEscapeArg token with
    | none => .error ("unsafe windows token: " ++ token)
    | some escaped => (escapeEach rest).map (escaped :: ·)

def renderWindowsQuotedArgv (argv : List String) : Except String String :=
  (escapeEach argv).map fun parts => " ".intercalate parts

def withoutDoubleQuotes (value : List Char) : List Char := value.filter (· ≠ '"')

theorem isSafe_plain {character : Char} (safe : isSafe character) :
    character ≠ '"' ∧ character ≠ '\'' ∧ JsString.isWhitespace character = false := by
  have bounds : 45 ≤ character.toNat ∧ character.toNat ≤ 126 := by
    simp only [isSafe, Bool.or_eq_true, contains_eq_mem, decide_eq_true_eq, mem_cons,
      not_mem_nil, or_false] at safe
    rcases safe with letter | rfl | rfl | rfl | rfl | rfl | rfl | rfl | rfl
    · change (decide ('A'.val ≤ character.val ∧ _ ≤ 'Z'.val) || (decide ('a'.val ≤ _) &&
        decide (_ ≤ 'z'.val)) || (decide ('0'.val ≤ _) && decide (_ ≤ '9'.val))) = true at letter
      simp only [Bool.or_eq_true, Bool.and_eq_true, decide_eq_true_eq,
        UInt32.le_iff_toNat_le] at letter
      have code : character.val.toNat = character.toNat := rfl
      simp only [code, show 'A'.val.toNat = 65 from rfl, show 'Z'.val.toNat = 90 from rfl,
        show 'a'.val.toNat = 97 from rfl, show 'z'.val.toNat = 122 from rfl,
        show '0'.val.toNat = 48 from rfl, show '9'.val.toNat = 57 from rfl] at letter
      omega
    all_goals decide
  refine ⟨?_, ?_, ?_⟩
  · rintro rfl
    exact absurd bounds (by decide)
  · rintro rfl
    exact absurd bounds (by decide)
  · simp only [JsString.isWhitespace, Bool.or_eq_false_iff, Bool.and_eq_false_iff,
      decide_eq_false_iff_not, beq_eq_false_iff_ne]
    omega

theorem withoutDoubleQuotes_of_safe {value : List Char} (safe : value.all isSafe) :
    withoutDoubleQuotes value = value := by
  refine filter_eq_self.mpr fun ch member => ?_
  simpa using (isSafe_plain (all_eq_true.mp safe ch member)).1

theorem read_safe (done : List String) (buf : List Char) {value : List Char} (rest : List Char)
    (safe : value.all isSafe) : Tokenizer.read { tokens := done, buf } (value ++ rest) =
      Tokenizer.read { tokens := done, buf := buf ++ value } rest := by
  induction value generalizing buf with
  | nil => simp
  | cons ch value inductionHypothesis =>
    obtain ⟨isCh, others⟩ : isSafe ch ∧ value.all isSafe := by simpa using safe
    obtain ⟨noDouble, noSingle, noBlank⟩ := isSafe_plain isCh
    simp [Tokenizer.read, noDouble, noSingle, noBlank, inductionHypothesis (buf ++ [ch]) others]

theorem read_doubleQuotes (done : List String) (buf value rest : List Char) :
    Tokenizer.read { tokens := done, buf, inDouble := true, wasQuoted := true }
        (doubleQuotes value ++ '"' :: rest) =
      Tokenizer.read { tokens := done, buf := buf ++ withoutDoubleQuotes value, wasQuoted := true }
        rest := by
  induction value generalizing buf with
  | nil => simp [doubleQuotes, withoutDoubleQuotes, Tokenizer.read]
  | cons ch value inductionHypothesis =>
    rw [doubleQuotes] at inductionHypothesis
    by_cases quote : ch = '"'
    · simp [doubleQuotes, withoutDoubleQuotes, quote, Tokenizer.read, inductionHypothesis]
    · simp [doubleQuotes, withoutDoubleQuotes, quote, Tokenizer.read, inductionHypothesis]

theorem read_escaped {value escaped : String} (accepted : windowsEscapeArg value = some escaped)
    (done : List String) (rest : List Char) :
    ∃ wasQuoted, (withoutDoubleQuotes value.toList ≠ [] ∨ wasQuoted = true) ∧
      Tokenizer.read { tokens := done } (escaped.toList ++ rest) = Tokenizer.read
        { tokens := done, buf := withoutDoubleQuotes value.toList, wasQuoted } rest := by
  rw [windowsEscapeArg] at accepted
  split at accepted
  case isTrue empty =>
    obtain rfl := Option.some.inj accepted
    exact ⟨true, .inr rfl, by simp [empty, withoutDoubleQuotes, Tokenizer.read]⟩
  case isFalse nonempty =>
    split at accepted
    · exact absurd accepted (by simp)
    split at accepted
    case isTrue safe =>
      obtain rfl := Option.some.inj accepted
      rw [withoutDoubleQuotes_of_safe safe]
      refine ⟨false, .inl (by simpa using nonempty), ?_⟩
      simpa using read_safe done [] rest safe
    case isFalse =>
      obtain rfl := Option.some.inj accepted
      refine ⟨true, .inr rfl, ?_⟩
      simpa [Tokenizer.read] using read_doubleQuotes done [] value.toList rest

theorem pushToken_read (done : List String) (value : List Char) (wasQuoted : Bool)
    (present : value ≠ [] ∨ wasQuoted = true) :
    Tokenizer.pushToken { tokens := done, buf := value, wasQuoted } =
      { tokens := done ++ [String.ofList value] } := by
  simp [Tokenizer.pushToken, present]

theorem tokens_read_intercalate {first second : String} {values parts : List String}
    (accepted : List.Forall₂ (fun value part => windowsEscapeArg value = some part)
      (first :: values) (second :: parts)) (done : List String) :
    let last := Tokenizer.read { tokens := done } (" ".intercalate (second :: parts)).toList
    last.inDouble = false ∧ last.inSingle = false ∧ last.pushToken.tokens =
      done ++
        (first :: values).map fun value => String.ofList (withoutDoubleQuotes value.toList) := by
  induction values generalizing first second parts done with
  | nil =>
    cases accepted with | cons escapes none =>
    cases none
    obtain ⟨wasQuoted, present, reads⟩ := read_escaped escapes done []
    rw [append_nil] at reads
    simp [reads, Tokenizer.read, pushToken_read _ _ _ present]
  | cons third values inductionHypothesis =>
    cases accepted with | cons escapes others =>
    cases others with | @cons _ fourth _ rest escapesNext others =>
    obtain ⟨wasQuoted, present, reads⟩ := read_escaped escapes done
      (' ' :: (" ".intercalate (fourth :: rest)).toList)
    have spaced : (" ".intercalate (second :: fourth :: rest)).toList =
        second.toList ++ ' ' :: (" ".intercalate (fourth :: rest)).toList := by
      simp [String.intercalate_cons_cons]
    have pushed : Tokenizer.read
        { tokens := done, buf := withoutDoubleQuotes first.toList, wasQuoted }
        (' ' :: (" ".intercalate (fourth :: rest)).toList) = Tokenizer.read
          { tokens := done ++ [String.ofList (withoutDoubleQuotes first.toList)] }
          (" ".intercalate (fourth :: rest)).toList := by
      simp [Tokenizer.read, pushToken_read _ _ _ present, JsString.isWhitespace]
    have result := inductionHypothesis (.cons escapesNext others)
      (done ++ [String.ofList (withoutDoubleQuotes first.toList)])
    rw [spaced, reads, pushed]
    simpa using result

theorem forall₂_of_escapeEach {argv parts : List String} (accepted : escapeEach argv = .ok parts) :
    List.Forall₂ (fun value part => windowsEscapeArg value = some part) argv parts := by
  induction argv generalizing parts with
  | nil =>
    obtain rfl := Except.ok.inj accepted
    exact .nil
  | cons token rest inductionHypothesis =>
    rw [escapeEach] at accepted
    cases escapes : windowsEscapeArg token with
    | none => simp [escapes] at accepted
    | some escaped =>
      cases others : escapeEach rest with
      | error reason => simp [escapes, others, Except.map] at accepted
      | ok written =>
        obtain rfl : escaped :: written = parts := by
          simpa [escapes, others, Except.map] using accepted
        exact .cons escapes (inductionHypothesis others)

/-- Arguments survive quoting and reading exactly where none of them holds a double quote. -/
theorem tokenize_render_iff {argv : List String} {rendered : String} (nonempty : argv ≠ [])
    (accepted : renderWindowsQuotedArgv argv = .ok rendered) :
    tokenizeWindowsSegment rendered = some argv ↔ ∀ value ∈ argv, '"' ∉ value.toList := by
  rw [renderWindowsQuotedArgv] at accepted
  cases written : escapeEach argv with
  | error reason => simp [written, Except.map] at accepted
  | ok parts =>
  obtain rfl : " ".intercalate parts = rendered := by simpa [written, Except.map] using accepted
  cases forall₂_of_escapeEach written with
  | nil => exact absurd rfl nonempty
  | @cons first second values parts escapesFirst others =>
    obtain ⟨noDouble, noSingle, tokens⟩ :=
      tokens_read_intercalate (.cons escapesFirst others) []
    have reads : tokenizeWindowsSegment (" ".intercalate (second :: parts)) = some
        ((first :: values).map fun value => String.ofList (withoutDoubleQuotes value.toList)) := by
      simp only [tokenizeWindowsSegment, noDouble, noSingle, tokens]
      simp
    rw [reads, Option.some_inj]
    nth_rewrite 2 [← map_id (first :: values)]
    rw [map_inj_left]
    refine forall₂_congr fun value _ => ?_
    rw [id, ← String.toList_inj, String.toList_ofList, withoutDoubleQuotes, filter_eq_self]
    simp only [decide_eq_true_eq]
    exact ⟨fun apart present => apart _ present rfl, fun absent ch present same =>
      absent (same ▸ present)⟩

/-- The argument `say "hi"` comes back without its quotes. -/
theorem tokenize_render_say : ¬ ∀ argv rendered, argv ≠ [] →
    renderWindowsQuotedArgv argv = .ok rendered → tokenizeWindowsSegment rendered = some argv := by
  intro survives
  have kept := survives ["say \"hi\""] "\"say \"\"hi\"\"\"" (by decide) (by decide +kernel)
  exact absurd kept (by decide +kernel)

/-- Blanks, an empty text and an apostrophe survive. -/
theorem tokenize_render_plain : tokenizeWindowsSegment "\"a b\" \"\" \"it's\"" =
    some ["a b", "", "it's"] :=
  (tokenize_render_iff (by decide) (by decide +kernel)).mpr (by decide +kernel)

/-- Which quotes are open. -/
structure QuoteState where
  inDouble : Bool := false
  inSingle : Bool := false

/-- The quotes that are open in the tokenizer after a character: a doubled single quote inside
single quotes leaves them open, as closing and opening them again does. -/
def QuoteState.next (quotes : QuoteState) (ch : Char) : QuoteState :=
  if ch = '"' ∧ quotes.inSingle = false then { quotes with inDouble := !quotes.inDouble }
  else if ch = '\'' ∧ quotes.inDouble = false then { quotes with inSingle := !quotes.inSingle }
  else quotes

/-- The number of double quotes of a text that stand inside single-quoted regions. -/
def hiddenDoubleQuotes (quotes : QuoteState) : List Char → ℕ
  | [] => 0
  | ch :: rest =>
    (if ch = '"' ∧ quotes.inSingle = true then 1 else 0) + hiddenDoubleQuotes (quotes.next ch) rest

def Tokenizer.quotes (state : Tokenizer) : QuoteState := ⟨state.inDouble, state.inSingle⟩

theorem Tokenizer.quotes_read (state : Tokenizer) (text : List Char) :
    (state.read text).quotes = text.foldl QuoteState.next state.quotes := by
  fun_induction Tokenizer.read state text with
  | case1 state => rfl
  | case2 state ch rest double inductionHypothesis =>
    rw [inductionHypothesis, foldl_cons]
    simp [quotes, QuoteState.next, double]
  | case3 state ch noDouble single toggled => simp [quotes, QuoteState.next, single, toggled]
  | case4 state ch noDouble single next rest escaped inductionHypothesis =>
    rw [inductionHypothesis, foldl_cons, foldl_cons]
    simp [quotes, QuoteState.next, single, escaped]
  | case5 state ch noDouble single toggled next rest plain inductionHypothesis =>
    rw [inductionHypothesis, foldl_cons]
    simp [quotes, QuoteState.next, single, toggled]
  | case6 state ch rest noDouble noSingle blank inductionHypothesis =>
    have same : state.pushToken.quotes = state.quotes := by
      rw [pushToken]
      split <;> rfl
    rw [inductionHypothesis, foldl_cons, same]
    simp [quotes, QuoteState.next, noDouble, noSingle]
  | case7 state ch rest noDouble noSingle plain inductionHypothesis =>
    rw [inductionHypothesis, foldl_cons]
    simp [quotes, QuoteState.next, noDouble, noSingle]

/-- The toggle of `findWindowsUnsupportedToken`. -/
def toggle (inDouble : Bool) (ch : Char) : Bool := if ch = '"' then !inDouble else inDouble

theorem foldl_toggle (inDouble : Bool) (quotes : QuoteState) (text : List Char) :
    text.foldl toggle inDouble = ((text.foldl QuoteState.next quotes).inDouble ^^
      (inDouble ^^ quotes.inDouble ^^ decide (hiddenDoubleQuotes quotes text % 2 = 1))) := by
  induction text generalizing inDouble quotes with
  | nil => simp [hiddenDoubleQuotes, Bool.xor_comm quotes.inDouble]
  | cons ch rest inductionHypothesis =>
    rw [foldl_cons, foldl_cons, inductionHypothesis _ (quotes.next ch), hiddenDoubleQuotes]
    by_cases double : ch = '"'
    · cases single : quotes.inSingle with
      | false => simp [toggle, QuoteState.next, double, single]
      | true =>
        have flips : decide ((1 + hiddenDoubleQuotes quotes rest) % 2 = 1) =
            !decide (hiddenDoubleQuotes quotes rest % 2 = 1) := by
          rw [← decide_not, decide_eq_decide]
          omega
        simp [toggle, QuoteState.next, double, single, flips]
    · have kept : (quotes.next ch).inDouble = quotes.inDouble := by
        simp only [QuoteState.next, double, false_and, if_false]
        split <;> rfl
      simp [toggle, double, kept]

theorem findLoop_toggle {inDouble : Bool} {before rest : List Char}
    (unreported : findLoop inDouble (before ++ rest) = none) :
    findLoop (before.foldl toggle inDouble) rest = none := by
  induction before generalizing inDouble with
  | nil => exact unreported
  | cons ch before inductionHypothesis =>
    refine inductionHypothesis ?_
    rw [cons_append, findLoop] at unreported
    rw [toggle]
    grind

theorem toggle_of_unreported {inDouble : Bool} {before after : List Char} {ch : Char}
    (unreported : findLoop inDouble (before ++ ch :: after) = none)
    (unsupported : ch ∈ WINDOWS_UNSUPPORTED_TOKENS) : before.foldl toggle inDouble = true := by
  have here := findLoop_toggle unreported
  have plain : ch ≠ '"' ∧ ch ≠ '$' := by
    constructor
    · rintro rfl
      exact absurd unsupported (by decide)
    · rintro rfl
      exact absurd unsupported (by decide)
  rw [findLoop, if_neg plain.1, if_neg plain.2, if_pos unsupported] at here
  by_contra off
  simp [off] at here
  grind

/-- The unsupported characters of an unreported command stand inside the tokenizer's quotes exactly
where none stands outside them after an odd number of double quotes in single-quoted regions. -/
theorem quoted_iff {command : String} (unreported : findWindowsUnsupportedToken command = none) :
    (∀ before ch after, command.toList = before ++ ch :: after → ch ∈ WINDOWS_UNSUPPORTED_TOKENS →
      (Tokenizer.read {} before).Quoted) ↔
    ¬ ∃ before ch after, command.toList = before ++ ch :: after ∧ ch ∈ WINDOWS_UNSUPPORTED_TOKENS ∧
      ¬ (Tokenizer.read {} before).Quoted ∧ hiddenDoubleQuotes {} before % 2 = 1 := by
  constructor
  · rintro quoted ⟨before, ch, after, split, unsupported, active, odd⟩
    exact active (quoted before ch after split unsupported)
  · intro none before ch after split unsupported
    by_contra active
    refine none ⟨before, ch, after, split, unsupported, active, ?_⟩
    rw [findWindowsUnsupportedToken, split] at unreported
    have on := toggle_of_unreported unreported unsupported
    rw [foldl_toggle false {}] at on
    have closed : (before.foldl QuoteState.next {}).inDouble = false := by
      rw [show ({} : QuoteState) = Tokenizer.quotes {} from rfl, ← Tokenizer.quotes_read]
      simpa [Tokenizer.Quoted, Tokenizer.quotes] using (not_or.mp active).1
    simpa [closed] using on

/-- The double quotes inside the two single-quoted texts of `'"' & '"'` hide the call operator. -/
theorem quoted_call : ¬ ∀ command argv, findWindowsUnsupportedToken command = none →
    tokenizeWindowsSegment command = some argv → ∀ before ch after,
      command.toList = before ++ ch :: after → ch ∈ WINDOWS_UNSUPPORTED_TOKENS →
      (Tokenizer.read {} before).Quoted := by
  intro quoted
  have inside := quoted "'\"' & '\"'" ["\"", "&", "\""] (by decide +kernel) (by decide +kernel)
    ['\'', '"', '\'', ' '] '&' [' ', '\'', '"', '\''] (by decide +kernel) (by decide)
  exact absurd inside (by decide +kernel)

/-- A call operator inside double quotes is read inside them. -/
theorem quoted_iff_call : ((∀ before ch after, "a \"b & c\"".toList = before ++ ch :: after →
      ch ∈ WINDOWS_UNSUPPORTED_TOKENS → (Tokenizer.read {} before).Quoted) ↔
    ¬ ∃ before ch after, "a \"b & c\"".toList = before ++ ch :: after ∧
      ch ∈ WINDOWS_UNSUPPORTED_TOKENS ∧ ¬ (Tokenizer.read {} before).Quoted ∧
      hiddenDoubleQuotes {} before % 2 = 1) :=
  quoted_iff (by decide +kernel)

end WindowsShell

end AieClaw
