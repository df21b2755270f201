import AieClaw.Jsonl
import AieClaw.JsoncLens

/-!
# What the editor of a JSONL file does

The editor searches for a line on its own and finds the one that the resolver
picks. Where both read each sub-segment alike, it replaces the node at the trail
that the resolver reads. The edited file is rendered unless a string in one of
its values contains the sentinel.
-/

namespace Jsonl

open AddressTree List OcPathSyntax
open Jsonc

variable {numbers : NumberText}

section Lines

variable {ast : JsonlAst}

theorem pickLine_eq (ast : JsonlAst) (addr : String) : pickLine numbers ast addr =
      (pickLineIndex numbers ast addr).bind (ast.lines[·]?) := by
  unfold pickLine pickLineIndex
  split_ifs
  · exact find?_eq_bind_findIdx?_getElem?
  · exact FirstMatch.find?_reverse_eq_bind _ _
  · cases lineTarget numbers addr with
    | none => rfl
    | some target => exact find?_eq_bind_findIdx?_getElem?

/-- What the searches look at in a line. -/
def JsonlLine.tag (entry : JsonlLine) : Bool × ℕ := (entry.isValue, entry.line)

/-- The index of a line depends on the tags only. -/
def tagIndex (numbers : NumberText) (tags : List (Bool × ℕ)) (addr : String) : Option ℕ :=
  if addr = posFirst then tags.findIdx? Prod.fst
  else if addr = posLast then (tags.zipIdx.reverse.find? fun entry => entry.1.1).map Prod.snd
  else (lineTarget numbers addr).bind fun target => tags.findIdx? fun tag => target = .finite tag.2

theorem pickLineIndex_eq_tagIndex (ast : JsonlAst) (addr : String) :
    pickLineIndex numbers ast addr = tagIndex numbers (ast.lines.map JsonlLine.tag) addr := by
  unfold pickLineIndex tagIndex
  split_ifs
  · rw [findIdx?_map]
    rfl
  · rw [zipIdx_map, ← map_reverse, find?_map, Option.map_map]
    rfl
  · cases lineTarget numbers addr with
    | none => rfl
    | some target =>
      simp only [Option.bind_some, findIdx?_map]
      rfl

variable {line : ℕ} {value replaced : JsoncValue} {raw : String} {index : ℕ}

theorem tags_set (atIndex : ast.lines[index]? = some (.value line value raw)) :
    (ast.lines.set index (.value line replaced raw)).map JsonlLine.tag =
      ast.lines.map JsonlLine.tag := by
  refine ext_getElem? fun position => ?_
  rw [getElem?_map, getElem?_map]
  by_cases here : index = position
  · subst position
    obtain ⟨inside, -⟩ := List.getElem?_eq_some_iff.mp atIndex
    rw [getElem?_set_self inside, atIndex]
    rfl
  · rw [getElem?_set_ne here]

end Lines

section Readings

/--
The resolver and the editor read a sub-segment alike. A quoted one is read
without its quotes by both, unless it is empty or a positional token then or
stands for an index; and the key at a position does not look quoted.
-/
structure ReadAlike (node : JsoncValue) (seg : String) : Prop where
  quoted :
    isQuotedSeg seg = true →
      unquoteSeg seg ≠ "" ∧ isPositionalSeg (unquoteSeg seg) = false ∧
        ∀ items line, node ≠ .array items line
  positional :
    isPositionalSeg seg = true → ∀ key ∈ positionalForJsonc node seg, isQuotedSeg key = false

/-- Every sub-segment is read alike at the node where it is read. -/
def AllReadAlike (numbers : NumberText) : JsoncValue → List String → Prop
  | _, [] => True
  | node, seg :: rest =>
    ReadAlike node seg ∧
      ∀ step child, readStep numbers node seg = some (step, child) → AllReadAlike numbers child rest

variable {node newValue : JsoncValue} {seg : String} {segs : List String}

theorem isPositionalSeg_eq_true_iff :
    isPositionalSeg seg = true ↔ seg = posFirst ∨ seg = posLast := by
  simp [isPositionalSeg]

theorem not_quoted_of_positional (positional : isPositionalSeg seg = true) :
    isQuotedSeg seg = false := by
  rcases isPositionalSeg_eq_true_iff.mp positional with rfl | rfl <;> decide +kernel

theorem unquoteSeg_of_not_quoted (plain : isQuotedSeg seg = false) : unquoteSeg seg = seg := by
  simp [unquoteSeg, plain]

theorem container_of_positionalForJsonc (positional : isPositionalSeg seg = true)
    (nowhere : positionalForJsonc node seg = none) :
    (∀ entries line, node = .object entries line → entries = []) ∧
      ∀ items line, node = .array items line → items = [] := by
  have token := isPositionalSeg_eq_true_iff.mp positional
  constructor
  · rintro entries line rfl
    rcases token with rfl | rfl
    · simpa [positionalForJsonc, positionalContainer, resolvePositionalSeg] using nowhere
    · have different : posLast ≠ posFirst := by
        decide
      simpa [positionalForJsonc, positionalContainer, resolvePositionalSeg, different] using nowhere
  · rintro items line rfl
    cases items with
    | nil => rfl
    | cons item rest =>
      have different : posLast ≠ posFirst := by
        decide
      rcases token with rfl | rfl <;>
        simp [positionalForJsonc, positionalContainer, resolvePositionalSeg, different] at nowhere

theorem findIdx?_positionedSeg {entries : List (JsoncEntry JsoncValue)} {line : Option ℕ}
    (alike : ReadAlike (.object entries line) seg) :
    ((positionedSeg (.object entries line) seg).bind fun segNorm =>
        entries.findIdx? fun entry => entry.key = unquoteSeg segNorm) =
      entries.findIdx? fun entry =>
        entry.key = concreteSeg (.object entries line) (unquoteSeg seg) := by
  cases positional : isPositionalSeg seg with
  | true =>
    have plain := unquoteSeg_of_not_quoted (not_quoted_of_positional positional)
    simp only [positionedSeg, concreteSeg, plain, positional, if_true]
    cases found : positionalForJsonc (.object entries line) seg with
    | none =>
      obtain ⟨empty, -⟩ := container_of_positionalForJsonc positional found
      rw [empty entries line rfl]
      rfl
    | some key =>
      have keyPlain := unquoteSeg_of_not_quoted (alike.positional positional key found)
      simp [keyPlain]
  | false =>
    have notPositional : isPositionalSeg (unquoteSeg seg) = false := by
      cases quoted : isQuotedSeg seg with
      | true => exact (alike.quoted quoted).2.1
      | false =>
        rw [unquoteSeg_of_not_quoted quoted]
        exact positional
    simp [positionedSeg, concreteSeg, positional, notPositional]

theorem indexOf_positionedSeg {items : List JsoncValue} {line : Option ℕ}
    (alike : ReadAlike (.array items line) seg) :
    ((positionedSeg (.array items line) seg).bind fun segNorm =>
        indexOf numbers segNorm items.length) =
      indexOf numbers (concreteSeg (.array items line) (unquoteSeg seg))
        items.length := by
  have notQuoted : isQuotedSeg seg = false := by
    by_contra quoted
    rw [Bool.not_eq_false] at quoted
    exact (alike.quoted quoted).2.2 items line rfl
  rw [unquoteSeg_of_not_quoted notQuoted]
  cases positional : isPositionalSeg seg with
  | true =>
    simp only [positionedSeg, concreteSeg, positional, if_true]
    cases found : positionalForJsonc (.array items line) seg with
    | none =>
      obtain ⟨-, empty⟩ := container_of_positionalForJsonc positional found
      rw [empty items line rfl]
      simp only [Option.bind_none, Option.getD_none, indexOf, length_nil]
      split
      · simp
      · rfl
    | some index => rfl
  | false => simp [positionedSeg, concreteSeg, positional]

theorem bind_replace_cons {child : JsoncValue} {step : Step} {rest : List String}
    (read : readStep numbers node seg = some (step, child)) :
    ((readTrail numbers node (seg :: rest)).bind fun steps =>
        jsoncLens.replace node steps newValue) = ((readTrail numbers child rest).bind fun steps =>
        jsoncLens.replace child steps newValue).map (node.setChild step) := by
  have leads := child?_of_readStep read
  simp only [readTrail, read, Option.bind_some, Option.bind_map, Option.map_bind, Function.comp_def]
  congr 1
  funext steps
  simp only [Lens.replace]
  change ((node.child? step).bind _) = _
  rw [leads, Option.bind_some]
  rfl

/-- The editor replaces the node at the trail that the resolver reads. -/
theorem replaceAt_eq (alike : AllReadAlike numbers node segs) :
    replaceAt numbers node segs newValue = (readTrail numbers node segs).bind fun steps =>
        jsoncLens.replace node steps newValue := by
  induction segs generalizing node with
  | nil => rfl
  | cons seg rest inductionHypothesis =>
    obtain ⟨first, others⟩ := alike
    by_cases empty : seg = ""
    · subst empty
      have unread : readStep numbers node "" = none := by
        have noText : unquoteSeg "" = "" := by
          decide +kernel
        simp [readStep, noText]
      simp [replaceAt, readTrail, unread]
    have nonempty : unquoteSeg seg ≠ "" := by
      cases quoted : isQuotedSeg seg with
      | true => exact (first.quoted quoted).1
      | false => rwa [unquoteSeg_of_not_quoted quoted]
    cases node with
    | object entries line =>
      rw [replaceAt, if_neg empty]
      rw [← Option.bind_assoc, findIdx?_positionedSeg first]
      cases found :
        JsoncValue.entryFor? (concreteSeg (.object entries line) (unquoteSeg seg)) entries with
      | none =>
        have nowhere : (entries.findIdx? fun entry =>
              entry.key = concreteSeg (.object entries line) (unquoteSeg seg)) =
              none := by
          simpa [JsoncValue.entryFor?] using found
        have unread : readStep numbers (.object entries line) seg = none := by
          simp [readStep, nonempty, found]
        rw [nowhere]
        simp [readTrail, unread]
      | some entry =>
        have read : readStep numbers (.object entries line) seg = some (.key
                (concreteSeg (.object entries line) (unquoteSeg seg)), entry.value) := by
          simp [readStep, nonempty, found]
        obtain ⟨index, isIndex, atIndex, -⟩ := setEntry_eq_set found newValue
        rw [isIndex, Option.bind_some, atIndex, Option.bind_some, bind_replace_cons read,
          inductionHypothesis (others _ _ read)]
        congr 1
        funext replaced
        obtain ⟨_, sameIndex, -, isSet⟩ := setEntry_eq_set found replaced
        rw [isIndex] at sameIndex
        cases sameIndex
        simp only [JsoncValue.setChild, isSet]
        rfl
    | array items line =>
      rw [replaceAt, if_neg empty]
      rw [← Option.bind_assoc, indexOf_positionedSeg first]
      cases found :
        indexOf numbers (concreteSeg (.array items line) (unquoteSeg seg)) items.length with
      | none =>
        have unread : readStep numbers (.array items line) seg = none := by
          simp [readStep, nonempty, found]
        simp [readTrail, unread]
      | some index =>
        have within := indexOf_lt found
        have inside := getElem?_eq_getElem within
        have read : readStep numbers (.array items line) seg =
              some (.index index, items[index]) := by
          simp [readStep, nonempty, found, inside]
        rw [Option.bind_some, inside, Option.bind_some, bind_replace_cons read,
          inductionHypothesis (others _ _ read)]
        rfl
    | string | number | boolean | null => simp [replaceAt, empty, readTrail, readStep]

end Readings

section Sentinels

/-- Whether a string below the value contains the sentinel. -/
def hasSentinel (value : JsoncValue) : Bool :=
  match value with
  | .object entries _ => entries.attach.any fun entry => hasSentinel entry.1.value
  | .array items _ => items.attach.any fun item => hasSentinel item.1
  | .string text _ => JsString.includesText text redactedSentinel
  | .number _ _ => false
  | .boolean _ _ => false
  | .null _ => false
termination_by sizeOf value
decreasing_by
  · exact JsoncValue.sizeOf_value_lt entry.2
  · exact JsoncValue.sizeOf_item_lt item.2

theorem exists_renderValue_iff (guardPath : String) (walked : List String) (value : JsoncValue) :
    (∃ text, renderValue numbers guardPath walked value = .ok text) ↔
      hasSentinel value = false := by
  induction size : sizeOf value using Nat.strong_induction_on generalizing value walked with
  | _ bound inductionHypothesis =>
  cases value with
  | object entries line =>
    rw [renderValue, hasSentinel, exists_then_ok_iff, exists_mapM_eq_ok_iff, any_eq_false]
    refine forall₂_congr fun entry _ => ?_
    have smaller : sizeOf entry.1.value < sizeOf (JsoncValue.object entries line) :=
      JsoncValue.sizeOf_value_lt entry.2
    rw [exists_then_ok_iff, Bool.not_eq_true]
    exact inductionHypothesis _ (size ▸ smaller) _ entry.1.value rfl
  | array items line =>
    rw [renderValue, hasSentinel, exists_then_ok_iff, exists_mapM_eq_ok_iff, any_eq_false]
    have smaller (item : { item // item ∈ items }) :
        sizeOf item.1 < sizeOf (JsoncValue.array items line) :=
      JsoncValue.sizeOf_item_lt item.2
    have each (walked : List String) (item : { item // item ∈ items }) :=
      inductionHypothesis _ (size ▸ smaller item) walked item.1 rfl
    simp only [Bool.not_eq_true]
    constructor
    · intro rendered item member
      obtain ⟨index, inside, rfl⟩ := mem_iff_getElem.mp member
      have numbered : (items.attach[index], index) ∈ items.attach.zipIdx :=
        mem_zipIdx_iff_getElem?.mpr (getElem?_eq_getElem inside)
      exact (each _ _).mp (rendered _ numbered)
    · intro clean item member
      exact (each _ _).mpr (clean item.1 (fst_mem_of_mem_zipIdx member))
  | string text line =>
    rw [renderValue, hasSentinel]
    cases JsString.includesText text redactedSentinel <;> simp
  | number | boolean | null =>
    rw [renderValue, hasSentinel]
    simp

/-- No string in a value line contains the sentinel. -/
def JsonlAst.Clean (ast : JsonlAst) : Prop :=
  ∀ line value raw, .value line value raw ∈ ast.lines → hasSentinel value = false

theorem exists_emitJsonl_iff (numbers : NumberText) (ast : JsonlAst) (fileName : Option String) :
    (∃ rendered,
      emitJsonl numbers ast { mode := .render, fileNameForGuard := fileName } = .ok rendered) ↔
      ast.Clean := by
  simp only [emitJsonl, exists_then_ok_iff, exists_mapM_eq_ok_iff]
  constructor
  · intro emitted line value raw member
    exact (exists_renderValue_iff _ _ value).mp (emitted _ member)
  · intro clean entry member
    cases entry with
    | value line value raw =>
      exact (exists_renderValue_iff _ _ value).mpr (clean line value raw member)
    | blank line raw => exact ⟨raw, rfl⟩
    | malformed line raw => exact ⟨raw, rfl⟩

end Sentinels

end Jsonl
