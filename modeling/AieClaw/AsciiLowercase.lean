import AieClaw.JsString

/-!
# Lowercasing of ASCII letters

Lowercasing ASCII letters is the host's `toLowerCase` on ASCII texts. It keeps white space
where it is, and does nothing to a text that it has lowercased.
-/

namespace JsString

theorem isWhitespace_eq_false {character : Char}
    (bounds : 65 ≤ character.toNat ∧ character.toNat ≤ 122) : isWhitespace character = false := by
  simp only [isWhitespace, Bool.or_eq_false_iff, Bool.and_eq_false_iff,
    decide_eq_false_iff_not, beq_eq_false_iff_ne]
  omega

theorem isWhitespace_toLower (character : Char) :
    isWhitespace character.toLower = isWhitespace character := by
  have code := toNat_toLower character
  split at code
  · rw [isWhitespace_eq_false (by omega), isWhitespace_eq_false (by omega)]
  · rw [Char.toNat_inj.mp code]

theorem trim_asciiLower (text : String) : trim (asciiLower text) = asciiLower (trim text) := by
  have sameTest : isWhitespace ∘ Char.toLower = isWhitespace := funext isWhitespace_toLower
  simp only [trim, asciiLower, String.toList_ofList, List.dropWhile_map, sameTest,
    ← List.map_reverse]

theorem asciiLower_asciiLower (text : String) : asciiLower (asciiLower text) = asciiLower text := by
  rw [asciiLower, asciiLower, String.toList_ofList, List.map_map]
  refine congrArg String.ofList (List.map_congr_left ?_)
  intro character _
  refine Char.toNat_inj.mp ?_
  have once := toNat_toLower character
  have twice := toNat_toLower character.toLower
  rw [Function.comp_apply]
  split at twice <;> split at once <;> omega

/-- Whether a text is ASCII without capitals. -/
def isSmallAscii (text : String) : Bool :=
  text.toList.all fun character =>
    character.toNat < 128 && !(65 ≤ character.toNat && character.toNat ≤ 90)

theorem asciiLower_of_isSmallAscii {text : String} (small : isSmallAscii text = true) :
    asciiLower text = text := by
  rw [asciiLower, ← String.toList_inj, String.toList_ofList]
  refine (List.map_congr_left ?_).trans (List.map_id text.toList)
  intro character member
  have isSmall := List.all_eq_true.mp small character member
  have notCapital : ¬(65 ≤ character.toNat ∧ character.toNat ≤ 90) := by
    simp only [Bool.and_eq_true, Bool.not_eq_true', Bool.and_eq_false_iff,
      decide_eq_false_iff_not] at isSmall
    omega
  refine Char.toNat_inj.mp ?_
  rw [toNat_toLower, if_neg notCapital]
  rfl

end JsString
