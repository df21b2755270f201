import AieClaw.JsoncFind

/-!
# The readings of a pattern in a tree

A trail matches a pattern by what each kind of sub-segment is documented to match:
`*` one step, `**` any number of steps, none included. Nothing of the walker enters
into it, and a key leads to the first entry that has it.

The walker reads a pattern along the children themselves, entries with one key told
apart by their positions. A reading records the choices that it makes, so that two
ways of coming to one child are two readings.
-/

namespace Jsonc

open OcPathSyntax JsoncValue List

section Matching

variable (numbers : NumberText)

/-- The steps to the children of a node, in document order. -/
def JsoncValue.steps : JsoncValue → List Step
  | .object entries _ => entries.map fun entry => .key entry.key
  | .array items _ => (List.range items.length).map .index
  | _ => []

/-- The step that a literal sub-segment stands for at a node. -/
def literalStep (node : JsoncValue) (seg : String) : Option Step :=
  match node with
  | .object _ _ => some (.key (unquoteSeg seg))
  | .array items _ => (indexOf numbers seg items.length).map .index
  | _ => none

/-- A sub-segment takes a step to a child of the node. -/
inductive Selects (seg : String) (node : JsoncValue) : Step → JsoncValue → Prop where
  | wildcard {step : Step} {child : JsoncValue}
      (kind : segKind seg = .single ∨ segKind seg = .recursive)
      (leads : node.child? step = some child) : Selects seg node step child
  | predicate {step : Step} {child : JsoncValue} {pred : PredicateSpec}
      (kind : segKind seg = .predicate pred) (leads : node.child? step = some child)
      (holds : jsoncChildMatchesPredicate numbers child pred = true) : Selects seg node step child
  | first {step : Step} {child : JsoncValue}
      (token : seg = posFirst) (isFirst : node.steps.head? = some step)
      (leads : node.child? step = some child) : Selects seg node step child
  | last {step : Step} {child : JsoncValue}
      (token : seg = posLast) (isLast : node.steps.getLast? = some step)
      (leads : node.child? step = some child) : Selects seg node step child
  | literal {step : Step} {child : JsoncValue}
      (kind : segKind seg = .literal) (named : literalStep numbers node seg = some step)
      (leads : node.child? step = some child) : Selects seg node step child

/-- The steps lead down the tree along the pattern, to its end. -/
inductive Matches : List SlotSub → JsoncValue → List Step → Prop where
  | done {node : JsoncValue} : Matches [] node []
  | alternative {cur : SlotSub} {rest : List SlotSub} {node : JsoncValue}
      {alternatives : List String} {alt : String} {steps : List Step}
      (kind : segKind cur.value = .union alternatives) (chosen : alt ∈ alternatives)
      (onward : Matches (⟨cur.slot, alt⟩ :: rest) node steps) : Matches (cur :: rest) node steps
  | step {cur : SlotSub} {rest : List SlotSub} {node child : JsoncValue}
      {step : Step} {steps : List Step} (kind : segKind cur.value ≠ .recursive)
      (selected : Selects numbers cur.value node step child) (onward : Matches rest child steps) :
      Matches (cur :: rest) node (step :: steps)
  | leave {cur : SlotSub} {rest : List SlotSub} {node : JsoncValue} {steps : List Step}
      (kind : segKind cur.value = .recursive) (onward : Matches rest node steps) :
      Matches (cur :: rest) node steps
  | deeper {cur : SlotSub} {rest : List SlotSub} {node child : JsoncValue}
      {step : Step} {steps : List Step} (kind : segKind cur.value = .recursive)
      (selected : Selects numbers cur.value node step child)
      (onward : Matches (cur :: rest) child steps) : Matches (cur :: rest) node (step :: steps)

end Matching

section Passages

/-- The children of a node in document order, each with the step that names it. -/
def JsoncValue.children : JsoncValue → List (Step × JsoncValue)
  | .object entries _ => entries.map fun entry => (.key entry.key, entry.value)
  | .array items _ => items.zipIdx.map fun item => (.index item.2, item.1)
  | _ => []

/-- The sub-segment that is written for a child that was listed. -/
def Step.written : Step → Result String
  | .key name => quoteSeg name
  | .index position => .ok (toString position)

/-- A way from a node to a child: where the child stands, and what is written for it. -/
structure Passage where
  place : ℕ
  text : String
  child : JsoncValue

def Passage.visit (passage : Passage) : Visit JsoncValue := ⟨.ok passage.text, passage.child⟩

variable (numbers : NumberText)

/-- The children that pass a test, with their positions. -/
def listed (node : JsoncValue) (passes : JsoncValue → Bool) : List (ℕ × Visit JsoncValue) :=
  (node.children.zipIdx.filter fun found => passes found.1.2).map fun found =>
    (found.2, ⟨found.1.1.written, found.1.2⟩)

/-- The position of the child that a name is looked up for. -/
def lookupPlace (node : JsoncValue) (name : String) : Option ℕ :=
  match node with
  | .object entries _ => entries.findIdx? fun entry => entry.key = unquoteSeg name
  | .array items _ => indexOf numbers name items.length
  | _ => none

/-- The child that a name is looked up for, with its position. -/
def named (node : JsoncValue) (name : String) : Option (ℕ × Visit JsoncValue) :=
  (lookupPlace numbers node name).bind fun place =>
    node.children[place]?.map fun found => (place, ⟨.ok name, found.2⟩)

/-- The descents of a sub-segment, with the positions of the children. -/
def placedDescents (node : JsoncValue) (seg : String) : List (ℕ × Visit JsoncValue) :=
  match segKind seg with
  | .union _ => []
  | .predicate pred => listed node fun child => jsoncChildMatchesPredicate numbers child pred
  | .malformed => []
  | .recursive => listed node fun _ => true
  | .single => listed node fun _ => true
  | .positional => ((positionalForJsonc node seg).bind (named numbers node)).toList
  | .literal => (named numbers node seg).toList

/-- The descent as a way, unless its sub-segment cannot be written. -/
def Passage.of? (found : ℕ × Visit JsoncValue) : Option Passage :=
  match found.2.keySub with
  | .ok text => some ⟨found.1, text, found.2.child⟩
  | .error _ => none

/-- The ways that the walker can go from a node by a sub-segment. -/
def passages (node : JsoncValue) (seg : String) : List Passage :=
  (placedDescents numbers node seg).filterMap Passage.of?

/-- The walker goes from the node by the sub-segment on this way. -/
def Goes (node : JsoncValue) (seg : String) (passage : Passage) : Prop :=
  passage ∈ passages numbers node seg

variable {numbers : NumberText} {node : JsoncValue} {seg : String}

theorem indexOf_lt {size index : ℕ} (found : indexOf numbers seg size = some index) :
    index < size := by
  unfold indexOf at found
  split at found
  · split_ifs at found with inside
    cases found
    exact inside.2.2
  · cases found

theorem visits_eq_listed (passes : JsoncValue → Bool) :
    visits node passes = (listed node passes).map Prod.snd := by
  have unplaced : (listed node passes).map Prod.snd =
      (node.children.filter fun found => passes found.2).map fun found =>
        ⟨found.1.written, found.2⟩ := by
    conv_rhs => rw [← zipIdx_map_fst 0 node.children, filter_map, map_map]
    rw [listed, map_map]
    rfl
  rw [unplaced]
  cases node with
  | object entries line =>
    simp only [visits, children, filter_map, map_map]
    rfl
  | array items line =>
    simp only [visits, children, filter_map, map_map]
    rfl
  | string | number | boolean | null => rfl

theorem lookupJsonc_eq_named (name : String) :
    lookupJsonc numbers node name = (named numbers node name).map Prod.snd := by
  cases node with
  | object entries line =>
    simp only [lookupJsonc, entryFor?, named, lookupPlace, children,
      find?_eq_bind_findIdx?_getElem?, Option.map_bind, getElem?_map]
    congr 1
    funext place
    simp [Option.map_map, Function.comp_def]
  | array items line =>
    simp only [lookupJsonc, named, lookupPlace, children, Option.map_bind, getElem?_map,
      getElem?_zipIdx]
    congr 1
    funext place
    simp [Option.map_map, Function.comp_def]
  | string | number | boolean | null => rfl

/-- Without the positions they are the descents of the walker. -/
theorem descents_eq :
    descents numbers node seg = (placedDescents numbers node seg).map Prod.snd := by
  unfold descents placedDescents
  cases segKind seg with
  | union | malformed => rfl
  | predicate pred =>
    exact visits_eq_listed fun child => jsoncChildMatchesPredicate numbers child pred
  | single | recursive => exact visits_eq_listed fun _ => true
  | positional =>
    simp only [jsoncOps]
    cases positionalForJsonc node seg with
    | none => rfl
    | some name =>
      rw [Option.bind_some, Option.bind_some, lookupJsonc_eq_named]
      cases named numbers node name <;> rfl
  | literal =>
    simp only [jsoncOps, lookupJsonc_eq_named]
    cases named numbers node seg <;> rfl

theorem nodup_toList {α β : Type} (found : Option (α × β)) : (found.toList.map Prod.fst).Nodup := by
  cases found with
  | none => exact nodup_nil
  | some found => exact nodup_singleton _

/-- Every child is gone to once. -/
theorem nodup_places : ((placedDescents numbers node seg).map Prod.fst).Nodup := by
  have ofListed (passes : JsoncValue → Bool) : ((listed node passes).map Prod.fst).Nodup := by
    have places : (node.children.zipIdx.map Prod.snd).Nodup := by
      rw [zipIdx_map_snd]
      exact nodup_range'
    rw [listed, map_map]
    exact places.sublist (filter_sublist.map Prod.snd)
  unfold placedDescents
  cases segKind seg with
  | union | malformed => exact nodup_nil
  | predicate | single | recursive => exact ofListed _
  | positional | literal => exact nodup_toList _

theorem Passage.of?_eq_some_iff {found : ℕ × Visit JsoncValue} {passage : Passage} :
    Passage.of? found = some passage ↔ found = (passage.place, passage.visit) := by
  obtain ⟨place, keySub, child⟩ := found
  cases keySub with
  | error failure =>
    simp [Passage.of?, visit]
  | ok text =>
    obtain ⟨otherPlace, otherText, otherChild⟩ := passage
    simp [Passage.of?, visit]

theorem goes_iff {passage : Passage} : Goes numbers node seg passage ↔
    (passage.place, passage.visit) ∈ placedDescents numbers node seg := by
  rw [Goes, passages, mem_filterMap]
  simp [Passage.of?_eq_some_iff]

theorem Goes.mem_descents {passage : Passage} (goes : Goes numbers node seg passage) :
    passage.visit ∈ descents numbers node seg := by
  rw [descents_eq]
  exact mem_map_of_mem (goes_iff.mp goes)

theorem Goes.sizeOf_lt {passage : Passage} (goes : Goes numbers node seg passage) :
    sizeOf passage.child < sizeOf node :=
  sizeOf_lt_of_mem_descents numbers goes.mem_descents

theorem Goes.not_union {passage : Passage} {alternatives : List String}
    (goes : Goes numbers node seg passage) : segKind seg ≠ .union alternatives := by
  intro kind
  rw [goes_iff, placedDescents, kind] at goes
  cases goes

theorem nodup_passages : ((passages numbers node seg).map Passage.place).Nodup := by
  have places : ((placedDescents numbers node seg).map Prod.fst).Nodup := nodup_places
  have places := pairwise_map.mp places
  rw [Nodup, pairwise_map, passages, pairwise_filterMap]
  refine places.imp ?_
  intro first second different one isOne other isOther
  rw [Passage.of?_eq_some_iff.mp isOne, Passage.of?_eq_some_iff.mp isOther] at different
  exact different

/-- Where everything can be written down, the descents are the ways of the walker. -/
theorem descents_eq_passages
    (writable : ∀ visit ∈ descents numbers node seg, ∃ text, visit.keySub = .ok text) :
    descents numbers node seg = (passages numbers node seg).map Passage.visit := by
  rw [descents_eq] at writable ⊢
  rw [passages]
  generalize placedDescents numbers node seg = placed at writable ⊢
  induction placed with
  | nil => rfl
  | cons found rest inductionHypothesis =>
    obtain ⟨place, keySub, child⟩ := found
    rw [map_cons, forall_mem_cons] at writable
    obtain ⟨⟨text, rfl⟩, others⟩ := writable
    rw [map_cons, inductionHypothesis others]
    rfl

end Passages

section Readings

variable (numbers : NumberText)

/-- A step of the walker: the child it goes to, and the sub-segment it writes down. -/
structure Hop where
  slot : Slot
  place : ℕ
  text : String

def Passage.hop (slot : Slot) (passage : Passage) : Hop := ⟨slot, passage.place, passage.text⟩

def Hop.written (hop : Hop) : SlotSub := ⟨hop.slot, hop.text⟩

/--
A choice of a reading: an alternative of a union, or the number of steps of a
recursive wildcard, which closes the pattern or not.
-/
inductive Choice where
  | alternative (index : ℕ)
  | gap (closing : Bool) (steps : ℕ)

/-- The walker can read the pattern along the hops. -/
inductive Reads : List SlotSub → JsoncValue → List Choice → List Hop → Prop where
  | done {node : JsoncValue} : Reads [] node [] []
  | alternative {cur : SlotSub} {rest : List SlotSub} {node : JsoncValue}
      {alternatives : List String} {index : ℕ} {alt : String}
      {choices : List Choice} {hops : List Hop} (kind : segKind cur.value = .union alternatives)
      (chosen : alternatives[index]? = some alt)
      (onward : Reads (⟨cur.slot, alt⟩ :: rest) node choices hops) :
      Reads (cur :: rest) node (.alternative index :: choices) hops
  | step {cur : SlotSub} {rest : List SlotSub} {node : JsoncValue} {passage : Passage}
      {choices : List Choice} {hops : List Hop} (kind : segKind cur.value ≠ .recursive)
      (goes : Goes numbers node cur.value passage)
      (onward : Reads rest passage.child choices hops) :
      Reads (cur :: rest) node choices (passage.hop cur.slot :: hops)
  | leave {cur : SlotSub} {rest : List SlotSub} {node : JsoncValue}
      {choices : List Choice} {hops : List Hop} (kind : segKind cur.value = .recursive)
      (onward : Reads rest node choices hops) :
      Reads (cur :: rest) node (.gap rest.isEmpty 0 :: choices) hops
  | deeper {cur : SlotSub} {rest : List SlotSub} {node : JsoncValue} {passage : Passage}
      {closing : Bool} {steps : ℕ} {choices : List Choice} {hops : List Hop}
      (kind : segKind cur.value = .recursive) (goes : Goes numbers node cur.value passage)
      (onward : Reads (cur :: rest) passage.child (.gap closing steps :: choices) hops) :
      Reads (cur :: rest) node (.gap closing (steps + 1) :: choices) (passage.hop cur.slot :: hops)

/-- Every recursive wildcard before the end takes at least one step. -/
def Kept (choices : List Choice) : Prop := ∀ steps, .gap false steps ∈ choices → 0 < steps

/-- The recursive wildcard at the end takes at least one step. -/
def ClosingTakes (choices : List Choice) : Prop := ∃ steps, 0 < steps ∧ .gap true steps ∈ choices

/-- The walk of a pattern from a node comes to a node and a pattern, so many steps below. -/
inductive Visits : JsoncValue → List SlotSub → ℕ → JsoncValue → List SlotSub → Prop where
  | here {node : JsoncValue} {subs : List SlotSub} : Visits node subs 0 node subs
  | alternative {cur : SlotSub} {rest left : List SlotSub} {node finish : JsoncValue}
      {alternatives : List String} {alt : String} {steps : ℕ}
      (kind : segKind cur.value = .union alternatives) (chosen : alt ∈ alternatives)
      (onward : Visits node (⟨cur.slot, alt⟩ :: rest) steps finish left) :
      Visits node (cur :: rest) steps finish left
  | step {cur : SlotSub} {rest left : List SlotSub} {node finish : JsoncValue}
      {passage : Passage} {steps : ℕ} (goes : Goes numbers node cur.value passage)
      (onward : Visits passage.child rest steps finish left) :
      Visits node (cur :: rest) (steps + 1) finish left
  | deeper {cur : SlotSub} {rest left : List SlotSub} {node finish : JsoncValue}
      {passage : Passage} {steps : ℕ} (kind : segKind cur.value = .recursive)
      (goes : Goes numbers node cur.value passage)
      (onward : Visits passage.child (cur :: rest) steps finish left) :
      Visits node (cur :: rest) (steps + 1) finish left

/-- The walk stays within the depth limit and meets keys that it can write down. -/
structure Clear (node : JsoncValue) (subs : List SlotSub) (depth : ℕ) : Prop where
  shallow :
    ∀ {steps finish left}, Visits numbers node subs steps finish left →
      depth + steps ≤ maxTraversalDepth
  writable :
    ∀ {steps finish cur rest}, Visits numbers node subs steps finish (cur :: rest) →
      ∀ visit ∈ descents numbers finish cur.value, ∃ text, visit.keySub = .ok text

end Readings

end Jsonc
