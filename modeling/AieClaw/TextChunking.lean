import AieClaw.JsString

/-!
# Chunks of outbound texts

`src/shared/text-chunking.ts` and `chunkText` of `src/auto-reply/chunk.ts` cut a text, a list of
UTF-16 code units, into pieces that a channel accepts. A break is looked for in each window.
-/

namespace TextChunking

open List

/-- `/\s/` of one code unit; a half of a pair is no blank. -/
def isBlank (unit : UInt16) : Bool := JsString.isWhitespace (Char.ofNat unit.toNat)

def trimEnd (text : List UInt16) : List UInt16 := (text.reverse.dropWhile isBlank).reverse

def breakIndexOf (limit : ℕ) (candidateBreak : ℤ) : ℕ :=
  if 0 < candidateBreak ∧ candidateBreak ≤ limit then candidateBreak.toNat else limit

def skipSeparator (rest : List UInt16) : List UInt16 :=
  if rest.head?.any isBlank then rest.tail else rest

theorem breakIndexOf_bounds {limit : ℕ} (positive : 0 < limit) (candidateBreak : ℤ) :
    0 < breakIndexOf limit candidateBreak ∧ breakIndexOf limit candidateBreak ≤ limit := by
  unfold breakIndexOf
  split <;> omega

theorem dropWhile_skipSeparator (rest : List UInt16) :
    (skipSeparator rest).dropWhile isBlank = rest.dropWhile isBlank := by
  cases rest with
  | nil => rfl
  | cons unit rest =>
    cases blank : isBlank unit with
    | true => simp [skipSeparator, blank]
    | false => simp [skipSeparator, blank]

/-- The loop of `chunkTextByBreakResolver`, which a positive limit keeps going. -/
def cutRemaining (limit : ℕ) (positive : 0 < limit) (resolveBreakIndex : List UInt16 → ℤ)
    (remaining : List UInt16) : List (List UInt16) :=
  if limit < remaining.length then
    let breakIdx := breakIndexOf limit (resolveBreakIndex (remaining.take limit))
    let chunk := trimEnd (remaining.take breakIdx)
    let rest := (skipSeparator (remaining.drop breakIdx)).dropWhile isBlank
    (if chunk = [] then [] else [chunk]) ++ cutRemaining limit positive resolveBreakIndex rest
  else if remaining = [] then [] else [remaining]
termination_by remaining.length
decreasing_by
  have bounds := breakIndexOf_bounds positive (resolveBreakIndex (remaining.take limit))
  have shorter := (dropWhile_suffix (l := remaining.drop breakIdx) isBlank).length_le
  rw [dropWhile_skipSeparator]
  grind

section Scan

structure Breakpoints where
  depth : ℕ
  lastNewline : ℤ
  lastWhitespace : ℤ

def Breakpoints.scan (found : Breakpoints) (unit : UInt16) (index : ℕ) : Breakpoints :=
  if unit = 40 then { found with depth := found.depth + 1 }
  else if unit = 41 ∧ 0 < found.depth then { found with depth := found.depth - 1 }
  else if found.depth ≠ 0 then found
  else if unit = 10 then { found with lastNewline := index }
  else if isBlank unit then { found with lastWhitespace := index }
  else found

def scanParenAwareBreakpoints (text : List UInt16) (start stop : ℕ) (isAllowed : ℕ → Bool) :
    Breakpoints :=
  (((text.zipIdx.take stop).drop start).filter fun at_ => isAllowed at_.2).foldl
    (fun found at_ => found.scan at_.1 at_.2) ⟨0, -1, -1⟩

end Scan

def chunkTextByBreakResolver (text : List UInt16) (limit : ℕ)
    (resolveBreakIndex : List UInt16 → ℤ) : List (List UInt16) :=
  if text = [] then []
  else if positive : 0 < limit then
    if text.length ≤ limit then [text] else cutRemaining limit positive resolveBreakIndex text
  else [text]

def resolveChunkEarlyReturn (text : List UInt16) (limit : ℕ) : Option (List (List UInt16)) :=
  if text = [] then some []
  else if limit = 0 ∨ text.length ≤ limit then some [text]
  else none

/-- The limit is zero when the given one is not positive. -/
def chunkText (text : List UInt16) (limit : ℕ) : List (List UInt16) :=
  (resolveChunkEarlyReturn text limit).getD
    (chunkTextByBreakResolver text limit fun window =>
      let found := scanParenAwareBreakpoints window 0 window.length fun _ => true
      if 0 < found.lastNewline then found.lastNewline else found.lastWhitespace)

/-- The chunks are pieces of the text in their order; what is left out between them is blank. -/
inductive CutAtBlanks : List UInt16 → List (List UInt16) → Prop where
  | blank {gap : List UInt16} (blank : ∀ unit ∈ gap, isBlank unit = true) : CutAtBlanks gap []
  | chunk
      {gap chunk rest : List UInt16} {chunks : List (List UInt16)}
      (blank : ∀ unit ∈ gap, isBlank unit = true) (nonempty : chunk ≠ [])
      (later : CutAtBlanks rest chunks) : CutAtBlanks (gap ++ chunk ++ rest) (chunk :: chunks)

section Cuts

variable {text rest gap : List UInt16} {chunks : List (List UInt16)} {limit : ℕ}

theorem CutAtBlanks.whole (text : List UInt16) (nonempty : text ≠ []) :
    CutAtBlanks text [text] := by
  simpa using @CutAtBlanks.chunk [] text [] [] (by simp) nonempty (.blank (by simp))

/-- Blanks in front of a text are left out. -/
theorem CutAtBlanks.after (cut : CutAtBlanks rest chunks)
    (blank : ∀ unit ∈ gap, isBlank unit = true) : CutAtBlanks (gap ++ rest) chunks := by
  cases cut with
  | blank alsoBlank =>
    exact .blank fun unit member => (mem_append.mp member).elim (blank unit) (alsoBlank unit)
  | @chunk first chunk rest chunks alsoBlank nonempty later =>
    rw [← append_assoc, ← append_assoc]
    refine .chunk (fun unit member => ?_) nonempty later
    exact (mem_append.mp member).elim (blank unit) (alsoBlank unit)

theorem exists_trimEnd_append (text : List UInt16) :
    ∃ gap, text = trimEnd text ++ gap ∧ ∀ unit ∈ gap, isBlank unit = true := by
  refine ⟨(text.reverse.takeWhile isBlank).reverse, ?_, fun unit member => ?_⟩
  · rw [trimEnd, ← reverse_append, takeWhile_append_dropWhile, reverse_reverse]
  · exact mem_takeWhile_imp (mem_reverse.mp member)

theorem length_trimEnd_le (text : List UInt16) : (trimEnd text).length ≤ text.length := by
  obtain ⟨gap, split, -⟩ := exists_trimEnd_append text
  have whole := congrArg length split
  rw [length_append] at whole
  omega

/-- One turn of the loop leaves out blanks only, and the later turns cut what remains. -/
theorem cutAtBlanks_cutRemaining (positive : 0 < limit) (resolveBreakIndex : List UInt16 → ℤ)
    (text : List UInt16) :
    CutAtBlanks text (cutRemaining limit positive resolveBreakIndex text) ∧
      ∀ chunk ∈ cutRemaining limit positive resolveBreakIndex text, chunk.length ≤ limit := by
  fun_induction cutRemaining limit positive resolveBreakIndex text with
  | case1 text long breakIdx chunk rest inductionHypothesis =>
    obtain ⟨later, within⟩ := inductionHypothesis
    obtain ⟨gap, isChunk, blank⟩ := exists_trimEnd_append (text.take breakIdx)
    have isRest : rest = (text.drop breakIdx).dropWhile isBlank := dropWhile_skipSeparator _
    have split : text =
        chunk ++ (gap ++ ((text.drop breakIdx).takeWhile isBlank ++ rest)) := by
      rw [isRest, takeWhile_append_dropWhile, ← append_assoc, ← isChunk, take_append_drop]
    have remains : CutAtBlanks (gap ++ ((text.drop breakIdx).takeWhile isBlank ++ rest))
        (cutRemaining limit positive resolveBreakIndex rest) :=
      (later.after fun unit member => mem_takeWhile_imp member).after blank
    have bounds := breakIndexOf_bounds positive (resolveBreakIndex (text.take limit))
    have short : chunk.length ≤ limit :=
      (length_trimEnd_le _).trans ((length_take_le ..).trans bounds.2)
    split
    · rename_i nothing
      rw [nothing, nil_append] at split
      exact ⟨split ▸ remains, within⟩
    · rename_i something
      refine ⟨?_, forall_mem_cons.mpr ⟨short, within⟩⟩
      rw [split]
      exact @CutAtBlanks.chunk [] _ _ _ (by simp) something remains
  | case2 long => exact ⟨.blank (by simp), by simp⟩
  | case3 text long something =>
    exact ⟨.whole text something, forall_mem_singleton.mpr (Nat.le_of_not_lt long)⟩

/-- However its breaks are found, a text is cut at blanks into chunks within the limit. -/
theorem cutAtBlanks_chunkTextByBreakResolver (text : List UInt16) (limit : ℕ)
    (resolveBreakIndex : List UInt16 → ℤ) :
    CutAtBlanks text (chunkTextByBreakResolver text limit resolveBreakIndex) ∧
      (0 < limit → ∀ chunk ∈ chunkTextByBreakResolver text limit resolveBreakIndex,
        chunk.length ≤ limit) := by
  rw [chunkTextByBreakResolver]
  split
  · rename_i nothing
    exact ⟨nothing ▸ .blank (by simp), by simp⟩
  · rename_i something
    split
    · rename_i positive
      split
      · rename_i short
        exact ⟨.whole text something, fun _ => forall_mem_singleton.mpr short⟩
      · obtain ⟨cut, within⟩ := cutAtBlanks_cutRemaining positive resolveBreakIndex text
        exact ⟨cut, fun _ => within⟩
    · rename_i notPositive
      exact ⟨.whole text something, fun positive => absurd positive notPositive⟩

end Cuts

/-- `chunkText` loses blanks between chunks only, and keeps a positive limit. -/
theorem cutAtBlanks_chunkText (text : List UInt16) (limit : ℕ) :
    CutAtBlanks text (chunkText text limit) ∧
      (0 < limit → ∀ chunk ∈ chunkText text limit, chunk.length ≤ limit) := by
  rw [chunkText, resolveChunkEarlyReturn]
  split
  · rename_i nothing
    exact ⟨nothing ▸ .blank (by simp), by simp⟩
  · rename_i something
    split
    · rename_i early
      refine ⟨.whole text something, fun positive => forall_mem_singleton.mpr ?_⟩
      exact early.resolve_left positive.ne'
    · exact cutAtBlanks_chunkTextByBreakResolver text limit _

end TextChunking
