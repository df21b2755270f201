import Mathlib.Data.List.DropRight
import Mathlib.Data.List.Infix
import Mathlib.Data.List.Sort

/-!
# Strings of the host language

String operations by their documented behaviour, computed on the list of
characters so that they evaluate on concrete strings.
-/

namespace JsString

open List

/-- The white space and line terminators that trimming removes. -/
def isWhitespace (character : Char) : Bool :=
  let code := character.toNat
  (0x9 ≤ code && code ≤ 0xD) || code == 0x20 || code == 0xA0 ||
    code == 0x1680 || (0x2000 ≤ code && code ≤ 0x200A) ||
    code == 0x2028 || code == 0x2029 || code == 0x202F ||
    code == 0x205F || code == 0x3000 || code == 0xFEFF

/-- Remove white space at both ends. -/
def trim (text : String) : String :=
  String.ofList ((text.toList.dropWhile isWhitespace).reverse.dropWhile isWhitespace).reverse

/-- Remove white space at the end. -/
def trimEnd (text : String) : String :=
  String.ofList (text.toList.reverse.dropWhile isWhitespace).reverse

/-- Remove white space at the start. -/
def trimStart (text : String) : String := String.ofList (text.toList.dropWhile isWhitespace)

/-- Every run of white space replaced by one blank. -/
def collapseWhitespace (text : String) : String := String.ofList (go text.toList)
where
  go : List Char → List Char
    | [] => []
    | [character] => [if isWhitespace character then ' ' else character]
    | character :: next :: rest =>
      if isWhitespace character then
        if isWhitespace next then go (next :: rest)
        else ' ' :: go (next :: rest)
      else character :: go (next :: rest)

/-- Whether the text begins with `start`. -/
def startsWith (text start : String) : Bool := start.toList.isPrefixOf text.toList

/-- The text behind a start, when the text begins with it. -/
def behind (start text : String) : Option String :=
  if startsWith text start then some (String.ofList (text.toList.drop start.toList.length))
  else none

/-- The pieces of the text between the occurrences of a character. -/
def split (text : String) (separator : Char) : List String :=
  (text.toList.splitOn separator).map String.ofList

/-- The piece of the text after the last occurrence of a character. -/
def lastPiece (text : String) (separator : Char) : String := (split text separator).getLastD ""

/-- Whether a character occurs in the text. -/
def includes (text : String) (character : Char) : Bool := text.toList.contains character

/-- Whether a piece occurs in the text. -/
def includesText (text piece : String) : Bool := decide (piece.toList <:+: text.toList)

/-- The text after the first occurrence of a character, or all of it. -/
def afterFirst (text : String) (separator : Char) : String :=
  match text.toList.dropWhile (· ≠ separator) with
  | [] => text
  | _ :: rest => String.ofList rest

/-- Every line feed replaced by a backslash and the letter `n`. -/
def escapeNewlines (text : String) : String :=
  String.ofList
    (text.toList.flatMap fun character => if character = '\n' then ['\\', 'n'] else [character])

/-- Every backslash before the letter `n` replaced, with it, by a line feed. -/
def unescapeNewlines (text : String) : String := String.ofList (go text.toList)
where
  go : List Char → List Char
    | [] => []
    | [character] => [character]
    | character :: next :: rest =>
      if character = '\\' ∧ next = 'n' then '\n' :: go rest
      else character :: go (next :: rest)

/-- The text with ASCII capitals made small. -/
def asciiLower (text : String) : String := String.ofList (text.toList.map Char.toLower)

/-- The characters that end a line. -/
def isLineTerminator (character : Char) : Bool :=
  character == '\n' || character == '\r' || character.toNat == 0x2028 || character.toNat == 0x2029

/-- `JSON.stringify` of a string. -/
def stringify (text : String) : String :=
  String.ofList ('"' :: text.toList.flatMap escape ++ ['"'])
where
  escape (character : Char) : List Char :=
    let code := character.toNat
    if character = '"' then ['\\', '"']
    else if character = '\\' then ['\\', '\\']
    else if code = 0x8 then ['\\', 'b']
    else if code = 0x9 then ['\\', 't']
    else if code = 0xA then ['\\', 'n']
    else if code = 0xC then ['\\', 'f']
    else if code = 0xD then ['\\', 'r']
    else if code < 0x20 then
      ['\\', 'u', '0', '0', Nat.digitChar (code / 16), Nat.digitChar (code % 16)]
    else [character]

/-- The lines that are not empty, joined by line feeds. -/
def joinLines (lines : List String) : String := "\n".intercalate (lines.filter (· ≠ ""))

/-- The UTF-16 code units of a character. -/
def codeUnitsOfChar (character : Char) : List ℕ :=
  let code := character.toNat
  if code < 0x10000 then [code]
  else [0xD800 + (code - 0x10000) / 0x400, 0xDC00 + (code - 0x10000) % 0x400]

def codeUnits (text : String) : List ℕ := text.toList.flatMap codeUnitsOfChar

/-- The length of a text in code units. -/
def length (text : String) : ℕ := (codeUnits text).length

/--
The start of a text of so many code units. Where `slice` would cut a character of
two units in half, the half that it keeps is no character and is left out here.
-/
def sliceStart (text : String) (units : ℕ) : String := String.ofList (go units text.toList)
where
  go : ℕ → List Char → List Char
    | _, [] => []
    | units, character :: rest =>
      let width := (codeUnitsOfChar character).length
      if width ≤ units then character :: go (units - width) rest
      else []

/-- The order of texts by their code units. -/
def isAtMost (left right : String) : Bool := go (codeUnits left) (codeUnits right)
where
  go : List ℕ → List ℕ → Bool
    | [], _ => true
    | _ :: _, [] => false
    | unit :: rest, other :: later => unit < other || (unit == other && go rest later)

/-- The texts in ascending order. -/
def toSorted (texts : List String) : List String :=
  texts.insertionSort fun left right => isAtMost left right = true

/-- The left operand unless it is the empty string. -/
def orElse (text fallback : String) : String := if text = "" then fallback else text

theorem trim_trim (text : String) : trim (trim text) = trim text := by
  have kept (characters : List Char) : ((characters.dropWhile isWhitespace).reverse.dropWhile
          isWhitespace).reverse.dropWhile isWhitespace =
        ((characters.dropWhile isWhitespace).reverse.dropWhile isWhitespace).reverse := by
    have isStart : ((characters.dropWhile isWhitespace).reverse.dropWhile isWhitespace).reverse <+:
          characters.dropWhile isWhitespace := by
      have isEnd := (characters.dropWhile isWhitespace).reverse.dropWhile_suffix isWhitespace
      simpa using isEnd.reverse
    rw [dropWhile_eq_self_iff]
    intro long
    have first := dropWhile_get_zero_not isWhitespace characters (long.trans_le isStart.length_le)
    simpa [isStart.getElem long] using first
  simp only [trim, String.toList_ofList, kept, reverse_reverse, dropWhile_idempotent]

theorem trim_eq_empty_iff {text : String} :
    trim text = "" ↔ ∀ character ∈ text.toList, isWhitespace character = true := by
  rw [← String.toList_inj, trim, String.toList_ofList, String.toList_empty,
    reverse_eq_nil_iff, dropWhile_eq_nil_iff]
  simp only [mem_reverse]
  rw [← dropWhile_eq_nil_iff, dropWhile_idempotent, dropWhile_eq_nil_iff]

theorem trim_of_plain {text : String}
    (plain : ∀ character ∈ text.toList, isWhitespace character = false) : trim text = text := by
  have keeps {characters : List Char}
      (visible : ∀ character ∈ characters, isWhitespace character = false) :
      characters.dropWhile isWhitespace = characters := by
    rw [dropWhile_eq_self_iff]
    intro long
    simp [visible _ (getElem_mem long)]
  rw [trim, keeps plain, keeps fun character member => plain character (mem_reverse.mp member),
    reverse_reverse, String.ofList_toList]

variable {text : String} {separator : Char} {texts : List String}

theorem not_mem_of_mem_splitOn {characters piece : List Char}
    (member : piece ∈ characters.splitOn separator) : separator ∉ piece := by
  induction characters generalizing piece with
  | nil =>
    obtain rfl := mem_singleton.mp member
    simp
  | cons character rest inductionHypothesis =>
    rw [splitOn_cons_eq_if_modifyHead] at member
    split_ifs at member with same
    · rcases mem_cons.mp member with rfl | behind
      · simp
      · exact inductionHypothesis behind
    · obtain ⟨first, later, shape⟩ :=
        exists_cons_of_ne_nil (splitOn_ne_nil separator rest)
      rw [shape, modifyHead_cons] at member
      rw [shape] at inductionHypothesis
      rcases mem_cons.mp member with rfl | behind
      · have absent := inductionHypothesis mem_cons_self
        simp only [mem_cons, not_or]
        exact ⟨fun equal => same (by simp [equal]), absent⟩
      · exact inductionHypothesis (.tail first behind)

private theorem lastPiece_of_getLast? {piece : List Char}
    (isLast : (text.toList.splitOn separator).getLast? = some piece) :
    lastPiece text separator = String.ofList piece := by
  simp [lastPiece, split, getLastD_eq_getLast?, isLast]

theorem lastPiece_of_not_mem (absent : separator ∉ text.toList) :
    lastPiece text separator = text := by
  have isLast : (text.toList.splitOn separator).getLast? = some text.toList := by
    rw [splitOn_eq_singleton absent, getLast?_singleton]
  rw [lastPiece_of_getLast? isLast, String.ofList_toList]

theorem not_mem_lastPiece (text : String) (separator : Char) :
    separator ∉ (lastPiece text separator).toList := by
  have nonempty := splitOn_ne_nil separator text.toList
  have isLast := getLast?_eq_some_getLast nonempty
  rw [lastPiece_of_getLast? isLast, String.toList_ofList]
  exact not_mem_of_mem_splitOn (mem_of_getLast? isLast)

theorem intercalate_split (text : String) (separator : Char) :
    (String.ofList [separator]).intercalate (split text separator) = text := by
  rw [← String.toList_inj, String.toList_intercalate, String.toList_ofList, split, map_map]
  have characters : (text.toList.splitOn separator).map (String.toList ∘ String.ofList) =
        text.toList.splitOn separator := by
    simp [Function.comp_def]
  rw [characters, intercalate_splitOn]

theorem isInfix_intercalate {piece separator : String} {pieces : List String}
    (member : piece ∈ pieces) : piece.toList <:+: (separator.intercalate pieces).toList := by
  rw [String.toList_intercalate]
  induction pieces with
  | nil => simp at member
  | cons first rest inductionHypothesis =>
    cases rest with
    | nil => simp_all
    | cons second later =>
      simp only [map_cons, intercalate_cons_cons]
      rcases mem_cons.mp member with rfl | behind
      · rw [append_assoc]
        exact infix_append [] _ _
      · have inRest := inductionHypothesis behind
        exact inRest.trans (suffix_append _ _).isInfix

private theorem isAtMost_go_total (left right : List ℕ) :
    isAtMost.go left right = true ∨ isAtMost.go right left = true := by
  induction left generalizing right with
  | nil => exact Or.inl rfl
  | cons unit rest inductionHypothesis =>
    cases right with
    | nil => exact Or.inr rfl
    | cons other later =>
      simp only [isAtMost.go, Bool.or_eq_true, Bool.and_eq_true, decide_eq_true_eq, beq_iff_eq]
      rcases Nat.lt_trichotomy unit other with less | rfl | greater
      · exact Or.inl (Or.inl less)
      · rcases inductionHypothesis later with isLeft | isRight
        · exact Or.inl (Or.inr ⟨rfl, isLeft⟩)
        · exact Or.inr (Or.inr ⟨rfl, isRight⟩)
      · exact Or.inr (Or.inl greater)

private theorem isAtMost_go_trans {left middle right : List ℕ}
    (first : isAtMost.go left middle = true) (second : isAtMost.go middle right = true) :
    isAtMost.go left right = true := by
  induction left generalizing middle right with
  | nil => rfl
  | cons unit rest inductionHypothesis =>
    cases middle with
    | nil => cases first
    | cons between others =>
      cases right with
      | nil => cases second
      | cons other later =>
        simp only [isAtMost.go, Bool.or_eq_true, Bool.and_eq_true,
          decide_eq_true_eq, beq_iff_eq] at first second ⊢
        rcases first with less | ⟨rfl, firstRest⟩
        · rcases second with further | ⟨rfl, -⟩
          · exact Or.inl (less.trans further)
          · exact Or.inl less
        · rcases second with further | ⟨rfl, secondRest⟩
          · exact Or.inl further
          · exact Or.inr ⟨rfl, inductionHypothesis firstRest secondRest⟩

instance : Std.Total fun left right : String => isAtMost left right = true :=
  ⟨fun left right => isAtMost_go_total (codeUnits left) (codeUnits right)⟩

instance : IsTrans String fun left right => isAtMost left right = true :=
  ⟨fun _ _ _ first second => isAtMost_go_trans first second⟩

theorem mem_toSorted : text ∈ toSorted texts ↔ text ∈ texts := mem_insertionSort _

theorem nodup_toSorted (distinct : texts.Nodup) : (toSorted texts).Nodup :=
  (perm_insertionSort _ texts).nodup_iff.mpr distinct

theorem pairwise_toSorted (texts : List String) :
    (toSorted texts).Pairwise fun left right => isAtMost left right = true :=
  pairwise_insertionSort _ texts

theorem toSorted_eq_self (sorted : texts.Pairwise fun left right => isAtMost left right = true) :
    toSorted texts = texts :=
  List.Pairwise.insertionSort_eq sorted

theorem append_separator_inj {first second rest later : List Char} (firstPlain : separator ∉ first)
    (secondPlain : separator ∉ second)
    (same : first ++ separator :: rest = second ++ separator :: later) :
    first = second ∧ rest = later := by
  induction first generalizing second with
  | nil =>
    cases second with
    | nil => exact ⟨rfl, by simpa using same⟩
    | cons character others =>
      simp only [nil_append, cons_append, List.cons.injEq] at same
      exact absurd (mem_cons.mpr (Or.inl same.1)) secondPlain
  | cons character others inductionHypothesis =>
    cases second with
    | nil =>
      simp only [nil_append, cons_append, List.cons.injEq] at same
      exact absurd (mem_cons.mpr (Or.inl same.1.symm)) firstPlain
    | cons other remaining =>
      simp only [cons_append, List.cons.injEq] at same
      obtain ⟨sameHead, sameTail⟩ := same
      obtain ⟨sameOthers, sameRest⟩ :=
        inductionHypothesis
          (fun member => firstPlain (.tail _ member))
          (fun member => secondPlain (.tail _ member))
          sameTail
      exact ⟨by rw [sameHead, sameOthers], sameRest⟩

theorem toNat_toLower (character : Char) : character.toLower.toNat =
      if 65 ≤ character.toNat ∧ character.toNat ≤ 90 then character.toNat + 32
      else
        character.toNat := by
  unfold Char.toLower
  split
  · rename_i upper
    have bounds : 65 ≤ character.toNat ∧ character.toNat ≤ 90 :=
      ⟨UInt32.le_iff_toNat_le.mp upper.1, UInt32.le_iff_toNat_le.mp upper.2⟩
    rw [if_pos bounds]
    have sum : (character.val + ('a'.val - 'A'.val)).toNat =
        (character.toNat + 32) % 2 ^ 32 := UInt32.toNat_add _ _
    refine sum.trans (Nat.mod_eq_of_lt ?_)
    omega
  · rename_i notUpper
    refine (if_neg fun bounds => notUpper ?_).symm
    exact ⟨UInt32.le_iff_toNat_le.mpr bounds.1, UInt32.le_iff_toNat_le.mpr bounds.2⟩

theorem mem_of_mem_asciiLower {character : Char} (noLetter : character.toNat < 97)
    (member : character ∈ (asciiLower text).toList) : character ∈ text.toList := by
  rw [asciiLower, String.toList_ofList] at member
  obtain ⟨original, inText, isLower⟩ := mem_map.mp member
  have code := congrArg Char.toNat isLower
  rw [toNat_toLower] at code
  have same : original = character := by
    refine Char.toNat_inj.mp ?_
    split at code <;> omega
  exact same ▸ inText

end JsString
