import AieClaw.JsString

/-!
# Escaped lines

A text with its line feeds escaped stands on one line, and reading the escapes
back gives the text. Lines that are joined by line feeds are found again by
splitting.
-/

namespace JsString

open List

/-- Every line break of the text is a line feed, and none is spelled out. -/
structure ReadsBack (text : String) : Prop where
  breaks : ∀ character ∈ text.toList, isLineTerminator character = true → character = '\n'
  unspelled : ¬ ['\\', 'n'] <:+: text.toList

variable {text : String} {characters : List Char}

theorem breaks_of_all
    (passes :
      text.toList.all (fun character => !isLineTerminator character || character == '\n') = true) :
    ∀ character ∈ text.toList, isLineTerminator character = true → character = '\n' := by
  intro character member breaks
  have passed := all_eq_true.mp passes character member
  simpa [breaks] using passed

theorem oneLine_of_all
    (passes : text.toList.all (fun character => !isLineTerminator character) = true) :
    ∀ character ∈ text.toList, isLineTerminator character = false := by
  intro character member
  have passed := all_eq_true.mp passes character member
  simpa using passed

/-- The characters that stand for one character of an escaped text. -/
private def escapeChar (character : Char) : List Char :=
  if character = '\n' then ['\\', 'n'] else [character]

private theorem toList_escapeNewlines (text : String) :
    (escapeNewlines text).toList = text.toList.flatMap escapeChar := by
  simp only [escapeNewlines, String.toList_ofList]
  rfl

private theorem go_cons_of_ne {character : Char} (rest : List Char) (plain : character ≠ '\\') :
    unescapeNewlines.go (character :: rest) = character :: unescapeNewlines.go rest := by
  cases rest with
  | nil => rfl
  | cons next later => simp [unescapeNewlines.go, plain]

private theorem go_backslash {rest : List Char} (unspelled : rest.head? ≠ some 'n') :
    unescapeNewlines.go ('\\' :: rest) = '\\' :: unescapeNewlines.go rest := by
  cases rest with
  | nil => rfl
  | cons next later =>
    have other : next ≠ 'n' := fun same => unspelled (by rw [same]; rfl)
    simp [unescapeNewlines.go, other]

private theorem head?_flatMap_escapeChar (unspelled : characters.head? ≠ some 'n') :
    (characters.flatMap escapeChar).head? ≠ some 'n' := by
  cases characters with
  | nil => simp
  | cons character rest =>
    by_cases feed : character = '\n'
    · simp [escapeChar, feed]
    · simpa [escapeChar, feed] using unspelled

private theorem go_flatMap_escapeChar (unspelled : ¬ ['\\', 'n'] <:+: characters) :
    unescapeNewlines.go (characters.flatMap escapeChar) = characters := by
  induction characters with
  | nil => rfl
  | cons character rest inductionHypothesis =>
    have later : ¬ ['\\', 'n'] <:+: rest :=
      fun occurs => unspelled (occurs.trans (suffix_cons _ _).isInfix)
    have readsRest := inductionHypothesis later
    rw [flatMap_cons]
    by_cases feed : character = '\n'
    · subst character
      change '\n' :: unescapeNewlines.go (rest.flatMap escapeChar) = _
      rw [readsRest]
    have single : escapeChar character = [character] := by
      simp [escapeChar, feed]
    rw [single, singleton_append]
    by_cases backslash : character = '\\'
    · subst character
      have apart : rest.head? ≠ some 'n' := by
        intro spelled
        obtain ⟨tail, shape⟩ := head?_eq_some_iff.mp spelled
        exact unspelled ⟨[], tail, by rw [shape]; rfl⟩
      rw [go_backslash (head?_flatMap_escapeChar apart), readsRest]
    · rw [go_cons_of_ne _ backslash, readsRest]

theorem unescapeNewlines_escapeNewlines (readsBack : ReadsBack text) :
    unescapeNewlines (escapeNewlines text) = text := by
  rw [unescapeNewlines, toList_escapeNewlines,
    go_flatMap_escapeChar readsBack.unspelled, String.ofList_toList]

theorem not_isLineTerminator_of_mem_escapeNewlines {character : Char}
    (readsBack : ReadsBack text) (member : character ∈ (escapeNewlines text).toList) :
    isLineTerminator character = false := by
  rw [toList_escapeNewlines] at member
  obtain ⟨source, inText, inEscaped⟩ := mem_flatMap.mp member
  by_cases feed : source = '\n'
  · have written : character = '\\' ∨ character = 'n' := by
      simpa [escapeChar, feed] using inEscaped
    rcases written with rfl | rfl <;> rfl
  · have same : character = source := by
      simpa [escapeChar, feed] using inEscaped
    rw [same, ← Bool.not_eq_true]
    exact fun ends => feed (readsBack.breaks source inText ends)

theorem split_joinLines {lines : List String} (nonempty : lines ≠ [])
    (shown : ∀ line ∈ lines, line ≠ "") (single : ∀ line ∈ lines, '\n' ∉ line.toList) :
    split (joinLines lines) '\n' = lines := by
  have kept : lines.filter (· ≠ "") = lines :=
    filter_eq_self.mpr fun line member => by simpa using shown line member
  have pieces : (lines.map String.toList) ≠ [] := by simpa using nonempty
  have apart : ∀ piece ∈ lines.map String.toList, '\n' ∉ piece := by
    intro piece member
    obtain ⟨line, inLines, rfl⟩ := mem_map.mp member
    exact single line inLines
  have joined : (joinLines lines).toList = ['\n'].intercalate (lines.map String.toList) := by
    rw [joinLines, kept, String.toList_intercalate]
    rfl
  rw [split, joined, splitOn_intercalate _ apart pieces, map_map]
  simp [Function.comp_def]

end JsString
