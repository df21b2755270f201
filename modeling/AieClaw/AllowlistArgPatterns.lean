import AieClaw.SessionKeys

/-!
# Argument patterns of the exec allowlist

On Windows an allow-always entry binds the arguments of the approved command by a regular
expression: `buildArgPatternFromArgv` of `src/infra/exec-approvals-allowlist.ts` writes it and
`matchArgPattern` of `exec-command-resolution.ts` tests other arguments with it. Both flatten the
list of arguments to one text, in which a NUL ends each argument.

Regular expressions are the host's. The patterns written here hold escaped text between two anchors,
and that is all that is assumed of the host.
-/

namespace AieClaw.AllowlistArgs

open JsString List

/-- The host of the patterns. -/
structure PatternHost where
  toLowerCase : String → String
  /-- `new RegExp(pattern)` and its `test`, or none where the pattern is refused -/
  regExp : String → Option (String → Bool)

/-- Characters that have a meaning in regular expressions: `[.*+?^${}()|[\]\\]` -/
def isSyntaxCharacter (character : Char) : Bool :=
  ['.', '*', '+', '?', '^', '$', '\x7b', '\x7d', '(', ')', '|', '[', ']', '\\'].contains character

/-- The text behind the opening anchor of a pattern of literal characters and a closing anchor. -/
def literalText : List Char → Option (List Char)
  | [] => none
  | ch :: rest =>
    if ch = '$' then if rest = [] then some [] else none
    else if ch = '\\' then
      match rest with
      | [] => none
      | escaped :: others =>
        if isSyntaxCharacter escaped then (literalText others).map (escaped :: ·) else none
    else if isSyntaxCharacter ch then none
    else (literalText rest).map (ch :: ·)

/-- The text that a pattern spells between its anchors, when it does nothing else. -/
def anchoredLiteral (pattern : String) : Option String :=
  match pattern.toList with
  | '^' :: rest => (literalText rest).map String.ofList
  | _ => none

def PatternHost.ReadsLiterals (host : PatternHost) : Prop :=
  ∀ pattern text, anchoredLiteral pattern = some text →
    host.regExp pattern = some fun tested => decide (tested = text)

def isWindowsPlatform (host : PatternHost) (platform : String) : Bool :=
  startsWith (SessionKeys.normalizeLowercaseStringOrEmpty host.toLowerCase platform) "win"

/-- `value.replace(/\//g, "\\")` -/
def backslashes (value : String) : String :=
  String.ofList (value.toList.map fun ch => if ch = '/' then '\\' else ch)

def escapeRegExpLiteral (input : String) : String :=
  String.ofList (input.toList.flatMap fun ch => if isSyntaxCharacter ch then ['\\', ch] else [ch])

def buildArgPatternFromArgv (host : PatternHost) (argv : List String) (platform : String) :
    Option String :=
  if isWindowsPlatform host platform = false then none
  else
    let normalized := (argv.drop 1).map backslashes
    if normalized = [] then some "^\x00\x00$"
    else some ("^" ++ escapeRegExpLiteral ("\x00".intercalate normalized) ++ "\x00$")

/-- The alternatives of `TRAILING_SHELL_REDIRECTIONS_RE` -/
def redirections : List String :=
  ["1>&1", "1>&2", "2>&1", "2>&2", "1>/dev/null", "2>/dev/null"]

/-- `value.replace(TRAILING_SHELL_REDIRECTIONS_RE, "")` -/
def stripRedirection (value : String) : String :=
  let ends := trimEnd value
  let before := redirections.findSome? fun redirection =>
    if redirection.toList.isSuffixOf ends.toList then
      some (ends.toList.take (ends.toList.length - redirection.toList.length))
    else none
  match before with
  | none => value
  | some before =>
    if before.getLast?.any isWhitespace then trimEnd (String.ofList before)
    else value

/-- `stripTrailingRedirections`: each round that strips shortens the text. -/
def stripTrailingRedirections (value : String) : String := go value.toList.length value
where
  go : ℕ → String → String
    | 0, prev => prev
    | rounds + 1, prev =>
      let next := stripRedirection prev
      if next = prev then next else go rounds next

/-- The text that `matchArgPattern` tests, for a separator. -/
def argsString (sep : String) (args : List String) : String :=
  if sep = "\x00" then if args = [] then "\x00\x00" else sep.intercalate args ++ sep
  else sep.intercalate args

def matchArgPattern (host : PatternHost) (argPattern : String) (argv : List String)
    (platform : String) : Bool :=
  let sep := if argPattern.toList.contains '\x00' then "\x00" else " "
  let argsString := argsString sep (argv.drop 1)
  match host.regExp argPattern with
  | none => false
  | some test =>
    let normalized := backslashes argsString
    let stripped := stripTrailingRedirections argsString
    test argsString ||
      (isWindowsPlatform host platform && normalized != argsString && test normalized) ||
      (sep == " " && stripped != argsString && test stripped)

example : stripTrailingRedirections "a 2>&1 1>/dev/null " = "a" := by decide +kernel

/-- The arguments that the flattened text of a list spells. -/
def spelled (args : List String) : List String := if args = [] then ["", ""] else args

theorem split_intercalate {args : List String} (nonempty : args ≠ []) :
    split ("\x00".intercalate args) '\x00' = args.flatMap (split · '\x00') := by
  induction args with
  | nil => exact absurd rfl nonempty
  | cons first rest inductionHypothesis =>
    cases rest with
    | nil => simp
    | cons second others =>
      rw [flatMap_cons, ← inductionHypothesis (by simp)]
      simp [split, String.intercalate_cons_cons, splitOn_append_cons_self]

theorem split_of_plain {arg : String} (plain : '\x00' ∉ arg.toList) : split arg '\x00' = [arg] := by
  simp [split, splitOn_eq_singleton plain]

theorem flatMap_split_of_plain {args : List String} (plain : ∀ arg ∈ args, '\x00' ∉ arg.toList) :
    args.flatMap (split · '\x00') = args := by
  induction args with
  | nil => rfl
  | cons first rest inductionHypothesis =>
    obtain ⟨here, others⟩ := forall_mem_cons.mp plain
    rw [flatMap_cons, split_of_plain here, inductionHypothesis others, singleton_append]

theorem argsString_inj (approved given : List String) :
    argsString "\x00" given = argsString "\x00" approved ↔
      (spelled given).flatMap (split · '\x00') = (spelled approved).flatMap (split · '\x00') := by
  have present : ∀ args, spelled args ≠ [] := by
    intro args
    rw [spelled]
    split <;> simp_all
  have flattened : ∀ args,
      argsString "\x00" args = "\x00".intercalate (spelled args) ++ "\x00" := by
    intro args
    rw [argsString, if_pos rfl, spelled]
    split
    · rfl
    · rfl
  rw [flattened, flattened, ← split_intercalate (present _), ← split_intercalate (present _)]
  constructor
  · intro same
    have joined : "\x00".intercalate (spelled given) = "\x00".intercalate (spelled approved) := by
      simpa [← String.toList_inj] using same
    rw [joined]
  · intro same
    rw [← intercalate_split ("\x00".intercalate (spelled given)) '\x00', same, intercalate_split]

/-- Two lists that differ and are flattened to one text. -/
def Collides (approved given : List String) : Prop :=
  approved = [] ∧ given = ["", ""] ∨ approved = ["", ""] ∧ given = [] ∨
    (∃ arg ∈ given, '\x00' ∈ arg.toList) ∧ given.flatMap (split · '\x00') = spelled approved

theorem collides_iff {approved : List String} (plain : ∀ arg ∈ approved, '\x00' ∉ arg.toList)
    (given : List String) : Collides approved given ↔
      given ≠ approved ∧ argsString "\x00" given = argsString "\x00" approved := by
  have plainSpelled : ∀ arg ∈ spelled approved, '\x00' ∉ arg.toList := by
    rw [spelled]
    split
    · simp
    · exact plain
  rw [argsString_inj, flatMap_split_of_plain plainSpelled]
  by_cases givenPlain : ∀ arg ∈ given, '\x00' ∉ arg.toList
  · have noNul : ¬ ∃ arg ∈ given, '\x00' ∈ arg.toList := by simpa using givenPlain
    have cut : (spelled given).flatMap (split · '\x00') = spelled given := by
      refine flatMap_split_of_plain ?_
      rw [spelled]
      split
      · simp
      · exact givenPlain
    rw [cut]
    simp only [Collides, noNul, false_and, or_false, spelled]
    clear plain plainSpelled givenPlain noNul cut
    grind
  · obtain ⟨arg, member, nul⟩ : ∃ arg ∈ given, '\x00' ∈ arg.toList := by simpa using givenPlain
    have nonempty : given ≠ [] := ne_nil_of_mem member
    have apart : given ≠ approved := fun same => plain arg (same ▸ member) nul
    have notBlank : given ≠ ["", ""] := by
      rintro rfl
      exact givenPlain (by simp)
    have itself : spelled given = given := if_neg nonempty
    simp only [Collides, notBlank, nonempty, and_false, false_or, itself, apart, ne_eq,
      not_false_eq_true, true_and, and_iff_right_iff_imp]
    exact fun _ => ⟨arg, member, nul⟩

theorem literalText_escape (text : List Char) : literalText ((text.flatMap fun ch =>
    if isSyntaxCharacter ch then ['\\', ch] else [ch]) ++ ['$']) = some text := by
  induction text with
  | nil => rfl
  | cons ch rest inductionHypothesis =>
    rw [flatMap_cons, append_assoc]
    by_cases hasMeaning : isSyntaxCharacter ch
    · rw [if_pos hasMeaning]
      simp [literalText, hasMeaning, inductionHypothesis]
    · have plain : ch ≠ '$' ∧ ch ≠ '\\' := by
        constructor
        · rintro rfl
          exact hasMeaning (by decide)
        · rintro rfl
          exact hasMeaning (by decide)
      rw [if_neg hasMeaning, singleton_append, literalText.eq_def]
      simp [hasMeaning, plain, inductionHypothesis]

theorem anchoredLiteral_escape (text : String) :
    anchoredLiteral ("^" ++ escapeRegExpLiteral text ++ "$") = some text := by
  have shape : ("^" ++ escapeRegExpLiteral text ++ "$").toList =
      '^' :: ((escapeRegExpLiteral text).toList ++ ['$']) := by
    simp
  rw [anchoredLiteral, shape]
  simp [escapeRegExpLiteral, literalText_escape]

theorem buildArgPatternFromArgv_eq {host : PatternHost} {platform : String}
    (windows : isWindowsPlatform host platform = true) (argv : List String) :
    buildArgPatternFromArgv host argv platform = some
      ("^" ++ escapeRegExpLiteral (argsString "\x00" ((argv.drop 1).map backslashes)) ++ "$") := by
  have closing : escapeRegExpLiteral "\x00" = "\x00" := by decide
  have append : ∀ first second, escapeRegExpLiteral (first ++ second) =
      escapeRegExpLiteral first ++ escapeRegExpLiteral second := by
    simp [escapeRegExpLiteral]
  rw [buildArgPatternFromArgv, windows, if_neg (by simp), argsString, if_pos rfl]
  simp only
  split
  · rfl
  · rw [append, closing]
    simp [String.append_assoc]

theorem backslashes_append (first second : String) :
    backslashes (first ++ second) = backslashes first ++ backslashes second := by
  simp [backslashes]

theorem backslashes_argsString (args : List String) :
    backslashes (argsString "\x00" args) = argsString "\x00" (args.map backslashes) := by
  have nul : backslashes "\x00" = "\x00" := by decide
  have joined : ∀ args : List String, backslashes ("\x00".intercalate args) =
      "\x00".intercalate (args.map backslashes) := by
    intro args
    induction args with
    | nil => rfl
    | cons first rest inductionHypothesis =>
      cases rest with
      | nil => simp
      | cons second others =>
        rw [map_cons, map_cons, String.intercalate_cons_cons,
          String.intercalate_cons_cons, backslashes_append, backslashes_append, nul,
          inductionHypothesis, map_cons]
  simp only [argsString, if_true, map_eq_nil_iff]
  split
  · decide
  · rw [backslashes_append, joined, nul]

theorem backslashes_backslashes (text : String) :
    backslashes (backslashes text) = backslashes text := by
  simp only [backslashes, String.toList_ofList, map_map]
  refine congrArg String.ofList (map_congr_left fun ch _ => ?_)
  by_cases slash : ch = '/' <;> simp [slash]

theorem nul_mem_pattern (args : List String) :
    '\x00' ∈ ("^" ++ escapeRegExpLiteral (argsString "\x00" args) ++ "$").toList := by
  have ends : '\x00' ∈ (argsString "\x00" args).toList := by
    rw [argsString, if_pos rfl]
    split
    · decide
    · simp
  have escaped : '\x00' ∈ (escapeRegExpLiteral (argsString "\x00" args)).toList := by
    rw [escapeRegExpLiteral, String.toList_ofList]
    exact mem_flatMap.mpr ⟨_, ends, by decide⟩
  simp [escaped]

theorem matchArgPattern_iff {host : PatternHost} (reads : host.ReadsLiterals) {platform : String}
    (windows : isWindowsPlatform host platform = true) {argv : List String} {pattern : String}
    (built : buildArgPatternFromArgv host argv platform = some pattern) (given : List String) :
    matchArgPattern host pattern given platform = true ↔
      argsString "\x00" ((given.drop 1).map backslashes) =
        argsString "\x00" ((argv.drop 1).map backslashes) := by
  rw [buildArgPatternFromArgv_eq windows] at built
  obtain rfl := Option.some.inj built
  have settled := backslashes_argsString ((argv.drop 1).map backslashes)
  rw [map_map, show backslashes ∘ backslashes = backslashes from
    funext backslashes_backslashes] at settled
  have separated := nul_mem_pattern ((argv.drop 1).map backslashes)
  generalize argsString "\x00" ((argv.drop 1).map backslashes) = approved at *
  have tests := reads _ _ (anchoredLiteral_escape approved)
  simp only [matchArgPattern, contains_eq_mem, separated, decide_true, if_true, tests, windows,
    ← backslashes_argsString, Bool.true_and]
  generalize argsString "\x00" (given.drop 1) = text
  constructor
  · intro matched
    have tested : text = approved ∨ backslashes text ≠ text ∧ backslashes text = approved := by
      simpa using matched
    rcases tested with rfl | ⟨_, retried⟩
    · exact settled
    · exact retried
  · intro same
    by_cases raw : text = approved
    · simp [raw]
    · have changed : approved ≠ text := Ne.symm raw
      simp [same, changed]

/-- Matching is equality of the arguments exactly where the two lists do not collide. -/
theorem matchArgPattern_binds_iff {host : PatternHost} (reads : host.ReadsLiterals)
    {platform : String} (windows : isWindowsPlatform host platform = true) {argv : List String}
    (plain : ∀ arg ∈ argv.drop 1, '\x00' ∉ arg.toList) {pattern : String}
    (built : buildArgPatternFromArgv host argv platform = some pattern) (given : List String) :
    (matchArgPattern host pattern given platform = true ↔
        (given.drop 1).map backslashes = (argv.drop 1).map backslashes) ↔
      ¬ Collides ((argv.drop 1).map backslashes) ((given.drop 1).map backslashes) := by
  have plainApproved : ∀ arg ∈ (argv.drop 1).map backslashes, '\x00' ∉ arg.toList := by
    intro arg member
    obtain ⟨own, isOwn, rfl⟩ := mem_map.mp member
    have nul : ∀ ch : Char, (if ch = '/' then '\\' else ch) = '\x00' → ch = '\x00' := by
      intro ch
      split
      · exact fun same => absurd same (by decide)
      · exact id
    rw [backslashes, String.toList_ofList, mem_map]
    rintro ⟨ch, isIn, same⟩
    exact plain own isOwn (nul ch same ▸ isIn)
  rw [matchArgPattern_iff reads windows built, collides_iff plainApproved]
  constructor
  · rintro binds ⟨apart, same⟩
    exact apart (binds.mp same)
  · intro free
    exact ⟨fun same => by_contra fun apart => free ⟨apart, same⟩, fun same => by rw [same]⟩

def literalHost : PatternHost where
  toLowerCase := asciiLower
  regExp pattern := (anchoredLiteral pattern).map fun text tested => decide (tested = text)

theorem readsLiterals_literalHost : literalHost.ReadsLiterals := by
  intro pattern text spells
  simp [literalHost, spells]

/-- The pattern of a command without arguments matches two empty arguments. -/
theorem matchArgPattern_two_blanks : ¬ ∀ host : PatternHost, host.ReadsLiterals →
    ∀ platform argv pattern given, isWindowsPlatform host platform = true →
      (∀ arg ∈ argv.drop 1, '\x00' ∉ arg.toList) →
      buildArgPatternFromArgv host argv platform = some pattern →
      (matchArgPattern host pattern given platform = true ↔
        (given.drop 1).map backslashes = (argv.drop 1).map backslashes) := by
  intro binds
  have same := (binds literalHost readsLiterals_literalHost "win32" ["tool"] "^\x00\x00$"
    ["tool", "", ""] (by decide +kernel) (by simp) (by decide +kernel)).mp (by decide +kernel)
  exact absurd same (by decide)

/-- Slashes of the approved arguments do not count. -/
theorem matchArgPattern_binds_slash :
    (matchArgPattern literalHost "^C:\\\\a\x00$" ["tool", "C:/a"] "win32" = true ↔
      (["tool", "C:/a"].drop 1).map backslashes = (["tool", "C:\\a"].drop 1).map backslashes) ↔
      ¬ Collides ((["tool", "C:\\a"].drop 1).map backslashes)
        ((["tool", "C:/a"].drop 1).map backslashes) :=
  matchArgPattern_binds_iff readsLiterals_literalHost (by decide +kernel) (by decide +kernel)
    (by decide +kernel) _

end AieClaw.AllowlistArgs
