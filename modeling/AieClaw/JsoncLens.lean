import AieClaw.FirstMatch
import AieClaw.JsoncPaths

/-!
# Replacing a node of a JSONC tree

Writing a child changes neither the keys of an object nor the length of an
array, so every sub-segment is read as the same step before and after. What the
resolver finds after a replacement follows from that, at the address of the
replaced node and at every address that leaves it.
-/

namespace Jsonc

open AddressTree JsoncValue List Option OcPathSyntax

variable {numbers : NumberText}

section Children

def JsoncEntry.withValue (entry : JsoncEntry JsoncValue)
    (written : JsoncValue) : JsoncEntry JsoncValue :=
  { entry with value := written }

/-- The entries with a new value in the first entry with a key. -/
def setEntry (key : String) (written : JsoncValue)
    (entries : List (JsoncEntry JsoncValue)) : List (JsoncEntry JsoncValue) :=
  match entries.findIdx? fun entry => entry.key = key with
  | none => entries
  | some index => entries.modify index fun entry => entry.withValue written

/-- The node with a new child behind a step. -/
def JsoncValue.setChild : JsoncValue → Step → JsoncValue → JsoncValue
  | .object entries line, .key key, written => .object (setEntry key written entries) line
  | .array items line, .index index, written => .array (items.set index written) line
  | node, _, _ => node

variable {entries : List (JsoncEntry JsoncValue)}
variable {entry : JsoncEntry JsoncValue} {key other : String}

section

variable (found : entryFor? key entries = some entry)
include found

theorem setEntry_eq_set
    (written : JsoncValue) : ∃ index, entries.findIdx? (fun entry => entry.key = key) = some index ∧
      entries[index]? = some entry ∧
      setEntry key written entries = entries.set index (entry.withValue written) := by
  obtain ⟨index, isIndex, atIndex⟩ := FirstMatch.findIdx?_of_find? found
  refine ⟨index, isIndex, atIndex, ?_⟩
  simp only [setEntry, isIndex, modify_eq_set_getElem?, atIndex,
    Option.map_eq_map, map_some, getD_some]

theorem key_of_entryFor? : entry.key = key := by
  simpa using find?_some found

theorem entryFor?_setEntry_same
    (written : JsoncValue) : entryFor? key (setEntry key written entries) =
      some (entry.withValue written) := by
  obtain ⟨index, isIndex, -, isSet⟩ := setEntry_eq_set found written
  rw [isSet]
  exact FirstMatch.find?_set_same isIndex (by simp [JsoncEntry.withValue, key_of_entryFor? found])

end

theorem entryFor?_setEntry_other (different : other ≠ key) (written : JsoncValue) :
    entryFor? other (setEntry key written entries) = entryFor? other entries := by
  cases isIndex : entries.findIdx? fun entry => entry.key = key with
  | none => simp only [setEntry, isIndex]
  | some index =>
    obtain ⟨entry, -, found⟩ := FirstMatch.find?_of_findIdx? isIndex
    obtain ⟨_, -, atIndex, isSet⟩ := setEntry_eq_set found written
    have isKey := key_of_entryFor? found
    rw [isSet]
    exact FirstMatch.find?_set_other atIndex (by simpa [isKey] using different.symm)
      (by simpa [JsoncEntry.withValue, isKey] using different.symm)

theorem keys_setEntry (key : String) (written : JsoncValue)
    (entries : List (JsoncEntry JsoncValue)) : (setEntry key written entries).map JsoncEntry.key =
      entries.map JsoncEntry.key := by
  unfold setEntry
  split
  · rfl
  next index isIndex =>
    refine ext_getElem? fun position => ?_
    simp only [getElem?_map, getElem?_modify, Option.map_eq_map, Option.map_map]
    congr 1
    funext entry
    by_cases here : index = position <;> simp [here, JsoncEntry.withValue]

/-- The tree of a JSONC value, read and written by steps. -/
def jsoncLens : Lens JsoncValue Step where
  child? := child?
  setChild := setChild
  child?_setChild_same := by
    intro node child step leads written
    cases node with
    | object entries line =>
      cases step with
      | key key =>
        obtain ⟨entry, found, -⟩ := map_eq_some_iff.mp leads
        simp [setChild, child?, entryFor?_setEntry_same found, JsoncEntry.withValue]
      | index index => cases leads
    | array items line =>
      cases step with
      | key key => cases leads
      | index index =>
        obtain ⟨inside, -⟩ := List.getElem?_eq_some_iff.mp leads
        exact getElem?_set_self inside
    | string | number | boolean | null => cases leads
  child?_setChild_other := by
    intro node child step leads written other different
    cases node with
    | object entries line =>
      cases step with
      | key key =>
        cases other with
        | key otherKey =>
          have differentKey : otherKey ≠ key := by
            intro same
            exact different (congrArg Step.key same)
          simp only [setChild, child?, entryFor?_setEntry_other differentKey]
        | index index => rfl
      | index index => cases leads
    | array items line =>
      cases step with
      | key key => cases leads
      | index index =>
        cases other with
        | key key => rfl
        | index otherIndex =>
          have differentIndex : index ≠ otherIndex := by
            intro same
            exact different (congrArg Step.index same.symm)
          exact getElem?_set_ne differentIndex
    | string | number | boolean | null => cases leads

end Children

section Readings

variable {node child written next : JsoncValue} {step : Step}
variable {text : String}

/-- The step that a sub-segment stands for at a node. -/
def namedStep (numbers : NumberText) (node : JsoncValue) (text : String) : Option Step :=
  if unquoteSeg text = "" then none
  else
    match node with
    | .object _ _ => some (.key (concreteSeg node (unquoteSeg text)))
    | .array items _ =>
      (indexOf numbers (concreteSeg node (unquoteSeg text)) items.length).map .index
    | _ => none

theorem readStep_eq : readStep numbers node text = (namedStep numbers node text).bind fun step =>
        (node.child? step).map fun child => (step, child) := by
  by_cases empty : unquoteSeg text = ""
  · simp [readStep, namedStep, empty]
  · cases node with
    | object entries line =>
      simp [readStep, namedStep, empty, child?, Function.comp_def]
    | array items line => simp [readStep, namedStep, empty, child?, bind_map]
    | string | number | boolean | null => simp [readStep, namedStep, empty]

theorem concreteSeg_setChild (node : JsoncValue) (step : Step)
    (written : JsoncValue) (seg : String) :
    concreteSeg (node.setChild step written) seg = concreteSeg node seg := by
  have sameContainer : positionalContainer (node.setChild step written) =
        positionalContainer node := by
    cases node with
    | object entries line =>
      cases step with
      | key key => simp only [setChild, positionalContainer, keys_setEntry]
      | index index => rfl
    | array items line =>
      cases step with
      | key key => rfl
      | index index => simp only [setChild, positionalContainer, length_set]
    | string | number | boolean | null => rfl
  simp only [concreteSeg, positionalForJsonc, sameContainer]

theorem namedStep_setChild : namedStep numbers (node.setChild step written) text =
      namedStep numbers node text := by
  have sameConcrete := concreteSeg_setChild node step written (unquoteSeg text)
  cases node with
  | object entries line =>
    cases step with
    | key key =>
      simp only [setChild] at sameConcrete
      simp only [setChild, namedStep, sameConcrete]
    | index index => rfl
  | array items line =>
    cases step with
    | key key => rfl
    | index index =>
      simp only [setChild] at sameConcrete
      simp [setChild, namedStep, sameConcrete]
  | string | number | boolean | null => rfl

theorem readStep_setChild (leads : node.child? step = some child) (written : JsoncValue) :
    readStep numbers (node.setChild step written) text =
      (readStep numbers node text).map fun found =>
        (found.1, if found.1 = step then written else found.2) := by
  rw [readStep_eq, readStep_eq, namedStep_setChild]
  cases namedStep numbers node text with
  | none => rfl
  | some named =>
    simp only [bind_some]
    by_cases same : named = step
    · subst named
      have rereads := jsoncLens.child?_setChild_same leads written
      simp only [jsoncLens] at rereads
      simp [rereads, leads]
    · have rereads := jsoncLens.child?_setChild_other leads written same
      simp only [jsoncLens] at rereads
      rw [rereads]
      cases node.child? named <;> simp [same]

end Readings

section Resolving

variable {node written next : JsoncValue} {texts : List String}
variable {steps : List Step}

/-- The entry of an object that a step leads to. -/
def entryAt : JsoncValue → Step → Option (JsoncEntry JsoncValue)
  | .object entries _, .key key => entryFor? key entries
  | _, _ => none

theorem resolveLoop_cons_eq (node : JsoncValue) (last : Option (JsoncEntry JsoncValue))
    (walked : List String) (text : String) (rest : List String) :
    resolveLoop numbers node last walked (unquoteSeg text :: rest) =
      (readStep numbers node text).bind fun found =>
        resolveLoop numbers found.2 (entryAt node found.1)
          (walked ++ [concreteSeg node (unquoteSeg text)]) rest := by
  by_cases empty : unquoteSeg text = ""
  · simp [resolveLoop, readStep, empty]
  · cases node with
    | object entries line =>
      cases found : entryFor? (concreteSeg (.object entries line) (unquoteSeg text)) entries with
      | none => simp [resolveLoop, readStep, empty, found]
      | some entry => simp [resolveLoop, readStep, empty, found, entryAt]
    | array items line =>
      cases found :
        indexOf numbers (concreteSeg (.array items line) (unquoteSeg text)) items.length with
      | none => simp [resolveLoop, readStep, empty, found]
      | some index =>
        have inside := getElem?_eq_getElem (indexOf_lt found)
        simp [resolveLoop, readStep, empty, found, inside, entryAt]
    | string | number | boolean | null => simp [resolveLoop, readStep, empty]

theorem entryAt_setChild_same {child : JsoncValue} {step : Step}
    (leads : node.child? step = some child) : entryAt (node.setChild step written) step =
      (entryAt node step).map fun entry => entry.withValue written := by
  cases node with
  | object entries line =>
    cases step with
    | key key =>
      obtain ⟨entry, found, -⟩ := map_eq_some_iff.mp leads
      simp [entryAt, setChild, entryFor?_setEntry_same found, found]
    | index index => cases leads
  | array items line => cases step <;> rfl
  | string | number | boolean | null => cases leads

theorem entryAt_setChild_other {step other : Step} (different : other ≠ step) :
    entryAt (node.setChild step written) other = entryAt node other := by
  cases node with
  | object entries line =>
    cases step with
    | key key =>
      cases other with
      | key otherKey =>
        have differentKey : otherKey ≠ key := by
          intro same
          exact different (congrArg Step.key same)
        simp only [entryAt, setChild, entryFor?_setEntry_other differentKey]
      | index index => rfl
    | index index => rfl
  | array items line => cases step <;> rfl
  | string | number | boolean | null => rfl

/-- The match with another value. -/
def ValueMatch.withNode (written : JsoncValue) : ValueMatch → ValueMatch
  | .value _ path => .value written path
  | .objectEntry entry path => .objectEntry (entry.withValue written) path

/-- At the address of a replaced node the resolver finds the new one. -/
theorem resolveLoop_replace_same (replaced : jsoncLens.replace node steps written = some next)
    (read : readTrail numbers node texts = some steps) (last after : Option (JsoncEntry JsoncValue))
    (sameLast : texts = [] → after = last.map fun entry => entry.withValue written)
    (walked : List String) : resolveLoop numbers next after walked (texts.map unquoteSeg) =
      (resolveLoop numbers node last walked (texts.map unquoteSeg)).map
        (ValueMatch.withNode written) := by
  induction texts generalizing node next steps last after walked with
  | nil =>
    cases read
    cases replaced
    rw [sameLast rfl]
    cases last <;> rfl
  | cons text rest inductionHypothesis =>
    obtain ⟨⟨step, child⟩, first, onward⟩ := bind_eq_some_iff.mp read
    obtain ⟨others, restRead, rfl⟩ := map_eq_some_iff.mp onward
    obtain ⟨replacedChild, inner, leads, innerReplaced, rfl⟩ :=
      Lens.replace_cons_eq_some_iff.mp replaced
    have isChild := child?_of_readStep first
    simp only [jsoncLens] at leads
    rw [isChild] at leads
    cases leads
    rw [map_cons, resolveLoop_cons_eq, resolveLoop_cons_eq, first]
    have rereads : readStep numbers (node.setChild step inner) text = some (step, inner) := by
      rw [readStep_setChild isChild, first]
      simp
    simp only [jsoncLens, rereads, bind_some, concreteSeg_setChild]
    refine inductionHypothesis innerReplaced restRead _ _ ?_ _
    intro ended
    subst ended
    cases restRead
    cases innerReplaced
    exact entryAt_setChild_same isChild

/-- The sub-segments leave the address before one of the two ends. -/
def Apart (numbers : NumberText) : JsoncValue → List String → List Step → Prop
  | _, [], _ => False
  | _, _ :: _, [] => False
  | node, text :: rest, step :: steps =>
    ∀ child, readStep numbers node text = some (step, child) → Apart numbers child rest steps

theorem resolveLoop_replace_apart (replaced : jsoncLens.replace node steps written = some next)
    (apart : Apart numbers node texts steps) (last after : Option (JsoncEntry JsoncValue))
    (walked : List String) : resolveLoop numbers next after walked (texts.map unquoteSeg) =
      resolveLoop numbers node last walked (texts.map unquoteSeg) := by
  induction texts generalizing node next steps last after walked with
  | nil => cases apart
  | cons text rest inductionHypothesis =>
    cases steps with
    | nil => cases apart
    | cons step steps =>
      obtain ⟨child, inner, leads, innerReplaced, rfl⟩ := Lens.replace_cons_eq_some_iff.mp replaced
      simp only [jsoncLens] at leads
      rw [map_cons, resolveLoop_cons_eq, resolveLoop_cons_eq]
      simp only [jsoncLens, readStep_setChild leads, concreteSeg_setChild]
      cases read : readStep numbers node text with
      | none => rfl
      | some found =>
        obtain ⟨named, found⟩ := found
        simp only [map_some, bind_some]
        by_cases same : named = step
        · subst named
          have isFound := child?_of_readStep read
          rw [leads] at isFound
          cases isFound
          rw [if_pos rfl]
          exact inductionHypothesis innerReplaced (apart child read) _ _ _
        · rw [if_neg same, entryAt_setChild_other same]

end Resolving

end Jsonc
