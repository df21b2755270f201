import Mathlib.Data.List.Basic

/-!
# Splitting a text outside of its nested regions

A scanner reads a text symbol by symbol and knows whether it is inside of some
region. Its top state is the one outside of every region. A delimiter separates
two pieces only where the scanner meets it in the top state.

The central result is that splitting and joining are inverse: the pieces of a
text are the only way to write it as pieces joined by the delimiter.
-/

namespace TopLevelSplit

open List Option

universe u v

/-- A partial automaton with a state outside of every region. -/
structure Scanner (State : Type u) (Symbol : Type v) where
  top : State
  step : State → Symbol → Option State

variable {State : Type u} {Symbol : Type v}
variable {scanner : Scanner State Symbol}
variable {delimiter other : Symbol}

/-- The state after a text, unless a region is closed that is not open. -/
def Scanner.finish (scanner : Scanner State Symbol) : State → List Symbol → Option State
  | state, [] => some state
  | state, symbol :: rest => (scanner.step state symbol).bind fun next => scanner.finish next rest

/--
The text ends outside of every region, and the delimiter occurs only inside of
them.
-/
def IsPieceFrom (scanner : Scanner State Symbol) (delimiter : Symbol) : State → List Symbol → Prop
  | state, [] => state = scanner.top
  | state, symbol :: rest =>
    ¬(state = scanner.top ∧ symbol = delimiter) ∧
      ∃ next, scanner.step state symbol = some next ∧ IsPieceFrom scanner delimiter next rest

/-- A text that is a piece when it is read from the top state. -/
abbrev IsPiece (scanner : Scanner State Symbol) (delimiter : Symbol) (text : List Symbol) : Prop :=
  IsPieceFrom scanner delimiter scanner.top text

section Pieces

theorem Scanner.finish_append (state : State) (first second : List Symbol) :
    scanner.finish state (first ++ second) = (scanner.finish state first).bind fun middle =>
        scanner.finish middle second := by
  induction first generalizing state with
  | nil => rfl
  | cons symbol rest inductionHypothesis =>
    simp only [cons_append, Scanner.finish, bind_assoc, inductionHypothesis]

variable {pieces : List (List Symbol)}

theorem Scanner.finish_intercalate (neutral : scanner.step scanner.top other = some scanner.top)
    (closed : ∀ piece ∈ pieces, scanner.finish scanner.top piece = some scanner.top) :
    scanner.finish scanner.top ([other].intercalate pieces) = some scanner.top := by
  induction pieces with
  | nil => rfl
  | cons first rest inductionHypothesis =>
    have restClosed :=
      inductionHypothesis fun piece member => closed piece (.tail first member)
    cases rest with
    | nil => simpa using closed first mem_cons_self
    | cons second later =>
      rw [intercalate_cons_cons, append_assoc, Scanner.finish_append, closed first mem_cons_self]
      simp [Scanner.finish, neutral, restClosed]

theorem IsPieceFrom.finish {state : State} {text : List Symbol}
    (piece : IsPieceFrom scanner delimiter state text) :
    scanner.finish state text = some scanner.top := by
  induction text generalizing state with
  | nil => exact congrArg some piece
  | cons symbol rest inductionHypothesis =>
    obtain ⟨-, next, stepped, restPiece⟩ := piece
    simp only [Scanner.finish, stepped, bind_some]
    exact inductionHypothesis restPiece

theorem isPieceFrom_append {state : State} {first second : List Symbol}
    (closed : scanner.finish state first = some scanner.top) :
    IsPieceFrom scanner delimiter state (first ++ second) ↔
      IsPieceFrom scanner delimiter state first ∧ IsPiece scanner delimiter second := by
  induction first generalizing state with
  | nil =>
    obtain rfl : state = scanner.top := by
      simpa [Scanner.finish] using closed
    simp [IsPieceFrom]
  | cons symbol rest inductionHypothesis =>
    obtain ⟨next, stepped, restClosed⟩ := bind_eq_some_iff.mp closed
    simp only [cons_append, IsPieceFrom, stepped, Option.some.injEq, exists_eq_left']
    rw [inductionHypothesis restClosed, and_assoc]

theorem IsPieceFrom.append {state : State} {first second : List Symbol}
    (firstPiece : IsPieceFrom scanner delimiter state first)
    (secondPiece : IsPiece scanner delimiter second) :
    IsPieceFrom scanner delimiter state (first ++ second) :=
  (isPieceFrom_append firstPiece.finish).mpr ⟨firstPiece, secondPiece⟩

theorem isPiece_of_neutral {text : List Symbol}
    (neutral :
      ∀ symbol ∈ text, scanner.step scanner.top symbol = some scanner.top ∧ symbol ≠ delimiter) :
    IsPiece scanner delimiter text := by
  induction text with
  | nil => rfl
  | cons symbol rest inductionHypothesis =>
    obtain ⟨stays, differs⟩ := neutral symbol mem_cons_self
    exact ⟨fun separates => differs separates.2, scanner.top, stays,
      inductionHypothesis fun later member => neutral later (.tail symbol member)⟩

theorem isPiece_intercalate (neutral : scanner.step scanner.top other = some scanner.top)
    (differs : other ≠ delimiter) (arePieces : ∀ piece ∈ pieces, IsPiece scanner delimiter piece) :
    IsPiece scanner delimiter ([other].intercalate pieces) := by
  have separator : IsPiece scanner delimiter [other] :=
    isPiece_of_neutral fun symbol member => by
      obtain rfl := mem_singleton.mp member
      exact ⟨neutral, differs⟩
  induction pieces with
  | nil => rfl
  | cons first rest inductionHypothesis =>
    have firstPiece := arePieces first mem_cons_self
    have restPieces :=
      inductionHypothesis fun piece member => arePieces piece (.tail first member)
    cases rest with
    | nil => simpa using firstPiece
    | cons second later =>
      rw [intercalate_cons_cons]
      exact (firstPiece.append separator).append restPieces

theorem isPiece_of_intercalate (neutral : scanner.step scanner.top other = some scanner.top)
    (closed : ∀ piece ∈ pieces, scanner.finish scanner.top piece = some scanner.top)
    (joined : IsPiece scanner delimiter ([other].intercalate pieces)) :
    ∀ piece ∈ pieces, IsPiece scanner delimiter piece := by
  induction pieces with
  | nil => simp
  | cons first rest inductionHypothesis =>
    have firstClosed := closed first mem_cons_self
    have restClosed := fun piece member => closed piece (.tail first member)
    cases rest with
    | nil => simpa using joined
    | cons second later =>
      rw [intercalate_cons_cons, append_assoc] at joined
      obtain ⟨firstPiece, restJoined⟩ := (isPieceFrom_append firstClosed).mp joined
      have separatorClosed : scanner.finish scanner.top [other] = some scanner.top := by
        simp [Scanner.finish, neutral]
      have laterPieces :=
        inductionHypothesis restClosed ((isPieceFrom_append separatorClosed).mp restJoined).2
      intro piece member
      rcases mem_cons.mp member with rfl | behind
      · exact firstPiece
      · exact laterPieces piece behind

end Pieces

variable [DecidableEq State] [DecidableEq Symbol]

instance (state : State) (text : List Symbol) :
    Decidable (IsPieceFrom scanner delimiter state text) :=
  go state text
where
  go : ∀ state text, Decidable (IsPieceFrom scanner delimiter state text)
    | state, [] => inferInstanceAs (Decidable (state = scanner.top))
    | state, symbol :: rest =>
      match stepped : scanner.step state symbol with
      | none =>
        isFalse fun piece => by
          obtain ⟨-, next, reached, -⟩ := piece
          rw [stepped] at reached
          cases reached
      | some next =>
        have := go next rest
        decidable_of_iff
          (¬(state = scanner.top ∧ symbol = delimiter) ∧
            IsPieceFrom scanner delimiter next rest) (by
              simp only [IsPieceFrom, stepped, Option.some.injEq, exists_eq_left'])

/-- The pieces of a text; `none` when its regions are not balanced. -/
def splitFrom (scanner : Scanner State Symbol) (delimiter : Symbol) :
    State → List Symbol → Option (List (List Symbol))
  | state, [] => if state = scanner.top then some [[]] else none
  | state, symbol :: rest =>
    if state = scanner.top ∧ symbol = delimiter then
      (splitFrom scanner delimiter scanner.top rest).map ([] :: ·)
    else
      (scanner.step state symbol).bind fun next =>
        (splitFrom scanner delimiter next rest).map (List.modifyHead (symbol :: ·))

/-- Where the first delimiter is met in the top state, if it ever is. -/
def indexFrom (scanner : Scanner State Symbol) (delimiter : Symbol) :
    State → List Symbol → Option (Option ℕ)
  | state, [] => if state = scanner.top then some none else none
  | state, symbol :: rest =>
    if state = scanner.top ∧ symbol = delimiter then some (some 0)
    else
      (scanner.step state symbol).bind fun next =>
        (indexFrom scanner delimiter next rest).map (Option.map (· + 1))

section Splitting

variable {state : State} {piece text : List Symbol} {pieces : List (List Symbol)}

theorem splitFrom_append_cons
    (isPiece : IsPieceFrom scanner delimiter state piece) (rest : List Symbol) :
    splitFrom scanner delimiter state (piece ++ delimiter :: rest) =
      (splitFrom scanner delimiter scanner.top rest).map (piece :: ·) := by
  induction piece generalizing state with
  | nil =>
    obtain rfl : state = scanner.top := isPiece
    simp [splitFrom]
  | cons symbol remaining inductionHypothesis =>
    obtain ⟨inside, next, stepped, remainingPiece⟩ := isPiece
    simp only [cons_append, splitFrom, if_neg inside, stepped,
      bind_some, inductionHypothesis remainingPiece, Option.map_map]
    rfl

theorem splitFrom_of_isPieceFrom (isPiece : IsPieceFrom scanner delimiter state piece) :
    splitFrom scanner delimiter state piece = some [piece] := by
  induction piece generalizing state with
  | nil => exact if_pos isPiece
  | cons symbol remaining inductionHypothesis =>
    obtain ⟨inside, next, stepped, remainingPiece⟩ := isPiece
    simp [splitFrom, if_neg inside, stepped, inductionHypothesis remainingPiece]

theorem splitFrom_intercalate {first : List Symbol}
    {rest : List (List Symbol)} (firstPiece : IsPieceFrom scanner delimiter state first)
    (restPieces : ∀ piece ∈ rest, IsPiece scanner delimiter piece) :
    splitFrom scanner delimiter state ([delimiter].intercalate (first :: rest)) =
      some (first :: rest) := by
  induction rest generalizing state first with
  | nil =>
    rw [intercalate_singleton]
    exact splitFrom_of_isPieceFrom firstPiece
  | cons second later inductionHypothesis =>
    have laterSplit :=
      inductionHypothesis (restPieces second mem_cons_self)
        fun piece member => restPieces piece (.tail second member)
    rw [intercalate_cons_cons, append_assoc, singleton_append,
      splitFrom_append_cons firstPiece, laterSplit, map_some]

theorem exists_of_splitFrom
    (split : splitFrom scanner delimiter state text = some pieces) : ∃ first rest,
      pieces = first :: rest ∧
        IsPieceFrom scanner delimiter state first ∧
        (∀ piece ∈ rest, IsPiece scanner delimiter piece) ∧
        text = [delimiter].intercalate pieces := by
  induction text generalizing state pieces with
  | nil =>
    simp only [splitFrom, ite_none_right_eq_some, Option.some.injEq] at split
    obtain ⟨isTop, rfl⟩ := split
    exact ⟨[], [], rfl, isTop, by simp, by simp⟩
  | cons symbol remaining inductionHypothesis =>
    rw [splitFrom] at split
    split_ifs at split with separates
    · obtain ⟨rfl, rfl⟩ := separates
      obtain ⟨others, othersSplit, rfl⟩ := map_eq_some_iff.mp split
      obtain ⟨first, rest, rfl, firstPiece, restPieces, rfl⟩ := inductionHypothesis othersSplit
      refine ⟨[], first :: rest, rfl, rfl, ?_, ?_⟩
      · intro piece member
        rcases mem_cons.mp member with rfl | behind
        · exact firstPiece
        · exact restPieces piece behind
      · rw [intercalate_cons_cons]
        rfl
    · obtain ⟨next, stepped, rest⟩ := bind_eq_some_iff.mp split
      obtain ⟨others, othersSplit, rfl⟩ := map_eq_some_iff.mp rest
      obtain ⟨first, later, rfl, firstPiece, laterPieces, rfl⟩ := inductionHypothesis othersSplit
      exact ⟨symbol :: first, later, rfl, ⟨separates, next, stepped, firstPiece⟩, laterPieces,
        intercalate_cons_cons_left.symm⟩

theorem splitFrom_top_eq_some_iff :
    splitFrom scanner delimiter scanner.top text = some pieces ↔ pieces ≠ [] ∧
        (∀ piece ∈ pieces, IsPiece scanner delimiter piece) ∧
        text = [delimiter].intercalate pieces := by
  constructor
  · intro split
    obtain ⟨first, rest, rfl, firstPiece, restPieces, shape⟩ := exists_of_splitFrom split
    refine ⟨cons_ne_nil first rest, ?_, shape⟩
    intro piece member
    rcases mem_cons.mp member with rfl | behind
    · exact firstPiece
    · exact restPieces piece behind
  · rintro ⟨nonempty, arePieces, rfl⟩
    obtain ⟨first, rest, rfl⟩ := exists_cons_of_ne_nil nonempty
    exact splitFrom_intercalate (arePieces first mem_cons_self)
      fun piece member => arePieces piece (.tail first member)

theorem indexFrom_append_cons
    (isPiece : IsPieceFrom scanner delimiter state piece) (rest : List Symbol) :
    indexFrom scanner delimiter state (piece ++ delimiter :: rest) = some (some piece.length) := by
  induction piece generalizing state with
  | nil =>
    obtain rfl : state = scanner.top := isPiece
    simp [indexFrom]
  | cons symbol remaining inductionHypothesis =>
    obtain ⟨inside, next, stepped, remainingPiece⟩ := isPiece
    simp [indexFrom, if_neg inside, stepped, inductionHypothesis remainingPiece]

theorem indexFrom_of_isPieceFrom (isPiece : IsPieceFrom scanner delimiter state piece) :
    indexFrom scanner delimiter state piece = some none := by
  induction piece generalizing state with
  | nil => exact if_pos isPiece
  | cons symbol remaining inductionHypothesis =>
    obtain ⟨inside, next, stepped, remainingPiece⟩ := isPiece
    simp [indexFrom, if_neg inside, stepped, inductionHypothesis remainingPiece]

theorem exists_of_indexFrom {index : Option ℕ}
    (found : indexFrom scanner delimiter state text = some index) :
    (index = none ∧ IsPieceFrom scanner delimiter state text) ∨
      ∃ piece rest, index = some piece.length ∧
          IsPieceFrom scanner delimiter state piece ∧
          text = piece ++ delimiter :: rest := by
  induction text generalizing state index with
  | nil =>
    simp only [indexFrom, ite_none_right_eq_some, Option.some.injEq] at found
    obtain ⟨isTop, rfl⟩ := found
    exact .inl ⟨rfl, isTop⟩
  | cons symbol remaining inductionHypothesis =>
    rw [indexFrom] at found
    split_ifs at found with separates
    · cases found
      obtain ⟨rfl, rfl⟩ := separates
      exact .inr ⟨[], remaining, rfl, rfl, rfl⟩
    · obtain ⟨next, stepped, rest⟩ := bind_eq_some_iff.mp found
      obtain ⟨later, laterFound, rfl⟩ := map_eq_some_iff.mp rest
      rcases inductionHypothesis laterFound with
        ⟨rfl, isPiece⟩ | ⟨piece, behind, rfl, isPiece, rfl⟩
      · exact .inl ⟨rfl, separates, next, stepped, isPiece⟩
      · exact .inr ⟨symbol :: piece, behind, rfl, ⟨separates, next, stepped, isPiece⟩, rfl⟩

end Splitting

end TopLevelSplit
