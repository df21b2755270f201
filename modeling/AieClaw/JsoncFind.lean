import AieClaw.JsoncResolve

/-!
# Finding every match of a pattern in a JSONC tree

The walker goes down the tree and along the pattern together. At a node the
first segment of the pattern decides its moves; a move reports the path walked
so far, tries another segment at the same node, or descends to a child and
writes down the sub-segment for it. The paths reported are resolved at the end.
-/

namespace Jsonc

open OcPathSyntax List

variable (numbers : NumberText)

section Predicates

def isFiniteNumber (text : String) : Option ℚ :=
  match numbers.read text with
  | .finite value => some value
  | _ => none

/-- Compare two texts as numbers; false unless both are finite. -/
def compareNumbers (actual wanted : String) (holds : ℚ → ℚ → Bool) : Bool :=
  match isFiniteNumber numbers actual, isFiniteNumber numbers wanted with
  | some left, some right => holds left right
  | _, _ => false

def evaluatePredicate (actual : Option String) (pred : PredicateSpec) : Bool :=
  match actual with
  | none => false
  | some actual =>
    match pred.op with
    | .eq => actual = pred.value
    | .ne => actual ≠ pred.value
    | .lt => compareNumbers numbers actual pred.value fun a b => a < b
    | .le => compareNumbers numbers actual pred.value fun a b => a ≤ b
    | .gt => compareNumbers numbers actual pred.value fun a b => b < a
    | .ge => compareNumbers numbers actual pred.value fun a b => b ≤ a

/-- The text of a leaf below an object, under a key. -/
def jsoncChildFieldText (node : JsoncValue) (key : String) : Option String :=
  match node with
  | .object entries _ =>
    match (JsoncValue.entryFor? key entries).map JsoncEntry.value with
    | some (.string value _) => some value
    | some (.number value _) => some (numbers.write value)
    | some (.boolean value _) => some (booleanText value)
    | some (.null _) => some "null"
    | _ => none
  | _ => none

def jsoncChildMatchesPredicate (node : JsoncValue) (pred : PredicateSpec) : Bool :=
  evaluatePredicate numbers (jsoncChildFieldText numbers node pred.key) pred

end Predicates

section Patterns

inductive Slot where
  | section
  | item
  | field
  deriving DecidableEq

/-- A sub-segment and the slot it belongs to. -/
structure SlotSub where
  slot : Slot
  value : String
  deriving DecidableEq

def slotSubs (slot : Slot) : Option String → Result (List SlotSub)
  | none => .ok []
  | some text => do
      let subs ← splitRespectingBrackets text '.' text
      .ok (subs.map (SlotSub.mk slot))

def patternSubs (pattern : OcPath) : Result (List SlotSub) := do
  let inSection ← slotSubs .section pattern.sectionSlot
  let inItem ← slotSubs .item pattern.itemSlot
  let inField ← slotSubs .field pattern.fieldSlot
  .ok (inSection ++ inItem ++ inField)

/-- A slot is left out when it has no sub-segment. -/
def packTexts : List String → Option String
  | [] => none
  | texts => some (".".intercalate texts)

def packSlot (slot : Slot) (subs : List SlotSub) : Option String :=
  packTexts ((subs.filter fun sub => sub.slot = slot).map SlotSub.value)

def repackSlotSubs (pattern : OcPath) (subs : List SlotSub) : OcPath where
  file := pattern.file
  sectionSlot := packSlot .section subs
  itemSlot := packSlot .item subs
  fieldSlot := packSlot .field subs
  session := pattern.session

end Patterns

section Dispatch

/-- A child and the sub-segment written for it; writing it can fail. -/
structure Visit (Node : Type) where
  keySub : Result String
  child : Node

/-- How a kind of tree lists and finds children. -/
structure WalkOps (Node : Type) where
  enumerate : Node → List (Visit Node)
  lookup : Node → String → Option (Visit Node)
  positional : Node → String → Option (Visit Node)
  predicate : Node → PredicateSpec → List (Visit Node)

/-- What the walker does next at a node. -/
inductive Move (Node : Type) where
  /-- Report the path walked so far. -/
  | report
  /-- Stay at the node with another pattern. -/
  | retry (subs : List SlotSub)
  /-- Go to a child with the pattern that is left. -/
  | descend (visit : Visit Node) (subs : List SlotSub)

/-- The kinds of sub-segments, tried in this order. -/
inductive SegKind where
  | union (alternatives : List String)
  | predicate (pred : PredicateSpec)
  /-- A union or a predicate that does not parse; it matches nothing. -/
  | malformed
  | recursive
  | single
  | positional
  | literal
  deriving DecidableEq

def segKind (seg : String) : SegKind :=
  if isUnionSeg seg then
    match parseUnionSeg seg with
    | none => .malformed
    | some alternatives => .union alternatives
  else if isPredicateSeg seg then
    match parsePredicateSeg seg with
    | none => .malformed
    | some pred => .predicate pred
  else if seg = wildcardRecursive then .recursive
  else if seg = wildcardSingle then .single
  else if isPositionalSeg seg then .positional
  else .literal

def dispatchSeg {Node : Type} (ops : WalkOps Node) (node : Node)
    (cur : SlotSub) (rest : List SlotSub) : List (Move Node) :=
  match segKind cur.value with
  | .union alternatives => alternatives.map fun alt => .retry (⟨cur.slot, alt⟩ :: rest)
  | .predicate pred => (ops.predicate node pred).map (.descend · rest)
  | .malformed => []
  | .recursive =>
    -- the recursive wildcard is consumed and also kept at every child
    (if rest = [] then [.report] else []) ++
      (ops.enumerate node).flatMap fun visit => [.descend visit rest, .descend visit (cur :: rest)]
  | .single => (ops.enumerate node).map (.descend · rest)
  | .positional => (ops.positional node cur.value).toList.map (.descend · rest)
  | .literal => (ops.lookup node cur.value).toList.map (.descend · rest)

end Dispatch

section Walker

/-- The children that pass a test, with the sub-segments for them. -/
def visits (node : JsoncValue) (passes : JsoncValue → Bool) : List (Visit JsoncValue) :=
  match node with
  | .object entries _ =>
    (entries.filter fun entry => passes entry.value).map fun entry =>
      ⟨quoteSeg entry.key, entry.value⟩
  | .array items _ =>
    (items.zipIdx.filter fun item => passes item.1).map fun item => ⟨.ok (toString item.2), item.1⟩
  | _ => []

def lookupJsonc (node : JsoncValue) (key : String) : Option (Visit JsoncValue) :=
  match node with
  | .object entries _ =>
    (JsoncValue.entryFor? (unquoteSeg key) entries).map fun entry => ⟨.ok key, entry.value⟩
  | .array items _ =>
    (indexOf numbers key items.length).bind fun index =>
      items[index]?.map fun item => ⟨.ok key, item⟩
  | _ => none

def jsoncOps : WalkOps JsoncValue where
  enumerate := fun node => visits node fun _ => true
  lookup := lookupJsonc numbers
  positional := fun node seg => (positionalForJsonc node seg).bind (lookupJsonc numbers node)
  predicate := fun node pred =>
    visits node fun child => jsoncChildMatchesPredicate numbers child pred

def checkDepth (walked : List SlotSub) : Result Unit :=
  failIf (maxTraversalDepth < walked.length)
    ("findOcPaths exceeded MAX_TRAVERSAL_DEPTH (" ++
      toString maxTraversalDepth ++ ") — likely a pathological pattern")
    "" "OC_PATH_DEPTH_EXCEEDED"

/-- The characters that are left of a pattern. -/
def patternSize (subs : List SlotSub) : ℕ := (subs.map fun sub => sub.value.toList.length + 1).sum

variable {node : JsoncValue} {cur : SlotSub} {rest : List SlotSub} {seg : String}
  {subs : List SlotSub} {visit : Visit JsoncValue}

theorem length_lt_of_mem_parseUnionSeg {alt : String} {alts : List String}
    (parsed : parseUnionSeg seg = some alts) (member : alt ∈ alts) :
    alt.toList.length < seg.toList.length := by
  have union : isUnionSeg seg = true := by
    by_contra notUnion
    simp [parseUnionSeg, notUnion] at parsed
  have inSplit : alt ∈ JsString.split (inner seg) ',' := by
    simp only [parseUnionSeg] at parsed
    split_ifs at parsed
    cases parsed
    exact member
  have occurs : alt.toList <:+: ((String.ofList [',']).intercalate
          (JsString.split (inner seg) ',')).toList :=
    JsString.isInfix_intercalate inSplit
  rw [JsString.intercalate_split] at occurs
  have short := occurs.length_le
  have nonempty : seg.toList ≠ [] := by
    intro empty
    simp [isUnionSeg, firstIs, empty] at union
  have positive := length_pos_iff.mpr nonempty
  simp only [OcPathSyntax.inner, String.toList_ofList, length_dropLast, length_drop] at short
  omega

theorem sizeOf_lt_of_mem_visits (passes : JsoncValue → Bool) (member : visit ∈ visits node passes) :
    sizeOf visit.child < sizeOf node := by
  cases node with
  | object entries line =>
    obtain ⟨entry, kept, rfl⟩ := mem_map.mp member
    exact JsoncValue.sizeOf_value_lt (mem_of_mem_filter kept)
  | array items line =>
    obtain ⟨item, kept, rfl⟩ := mem_map.mp member
    have inItems := mem_of_mem_filter kept
    exact JsoncValue.sizeOf_item_lt (fst_mem_of_mem_zipIdx inItems)
  | string | number | boolean | null => exact absurd member not_mem_nil

theorem sizeOf_lt_of_lookupJsonc {key : String}
    (found : lookupJsonc numbers node key = some visit) :
    sizeOf visit.child < sizeOf node := by
  cases node with
  | object entries line =>
    obtain ⟨entry, isEntry, rfl⟩ := Option.map_eq_some_iff.mp found
    exact JsoncValue.sizeOf_value_lt (mem_of_find?_eq_some isEntry)
  | array items line =>
    obtain ⟨index, isIndex, atIndex⟩ := Option.bind_eq_some_iff.mp found
    obtain ⟨item, isItem, rfl⟩ := Option.map_eq_some_iff.mp atIndex
    exact JsoncValue.sizeOf_item_lt (mem_of_getElem? isItem)
  | string | number | boolean | null => cases found

theorem segKind_union {alternatives : List String} (kind : segKind seg = .union alternatives) :
    parseUnionSeg seg = some alternatives := by
  unfold segKind at kind
  split at kind
  · split at kind
    · cases kind
    next found parsed =>
      cases kind
      exact parsed
  · split at kind
    · split at kind <;> cases kind
    · split_ifs at kind

/-- The visits that the moves of a segment descend to. -/
def descents (node : JsoncValue) (seg : String) : List (Visit JsoncValue) :=
  match segKind seg with
  | .union _ => []
  | .predicate pred => (jsoncOps numbers).predicate node pred
  | .malformed => []
  | .recursive => (jsoncOps numbers).enumerate node
  | .single => (jsoncOps numbers).enumerate node
  | .positional => ((jsoncOps numbers).positional node seg).toList
  | .literal => ((jsoncOps numbers).lookup node seg).toList

theorem sizeOf_lt_of_mem_descents (member : visit ∈ descents numbers node seg) :
    sizeOf visit.child < sizeOf node := by
  unfold descents at member
  split at member
  · cases member
  next pred _ =>
    exact sizeOf_lt_of_mem_visits
      (fun child => jsoncChildMatchesPredicate numbers child pred) member
  · cases member
  · exact sizeOf_lt_of_mem_visits (fun _ => true) member
  · exact sizeOf_lt_of_mem_visits (fun _ => true) member
  · obtain ⟨key, isKey, found⟩ := Option.bind_eq_some_iff.mp (Option.mem_toList.mp member)
    exact sizeOf_lt_of_lookupJsonc numbers found
  · exact sizeOf_lt_of_lookupJsonc numbers (Option.mem_toList.mp member)

theorem mem_descents_of_descend
    (member : .descend visit subs ∈ dispatchSeg (jsoncOps numbers) node cur rest) :
    visit ∈ descents numbers node cur.value ∧ (subs = rest ∨ subs = cur :: rest) := by
  unfold dispatchSeg at member
  unfold descents
  split at member
  · simp at member
  · simp_all
  · cases member
  · rw [mem_append] at member
    rcases member with reported | descended
    · split_ifs at reported <;> simp at reported
    · obtain ⟨taken, isVisit, isMove⟩ := mem_flatMap.mp descended
      simp only [mem_cons, Move.descend.injEq, not_mem_nil, or_false] at isMove
      rcases isMove with ⟨rfl, rfl⟩ | ⟨rfl, rfl⟩
      · simp_all
      · simp_all
  · simp_all
  · simp_all
  · simp_all

theorem patternSize_lt_of_retry
    (member : .retry subs ∈ dispatchSeg (jsoncOps numbers) node cur rest) :
    patternSize subs < patternSize (cur :: rest) := by
  unfold dispatchSeg at member
  split at member
  next alternatives kind =>
    obtain ⟨alt, isAlt, same⟩ := mem_map.mp member
    cases same
    have short := length_lt_of_mem_parseUnionSeg (segKind_union kind) isAlt
    simp only [patternSize, map_cons, sum_cons]
    omega
  · simp at member
  · cases member
  · rw [mem_append] at member
    rcases member with reported | descended
    · split_ifs at reported <;> simp at reported
    · simp at descended
  · simp at member
  · simp at member
  · simp at member

theorem patternSize_le_of_descend (left : subs = rest ∨ subs = cur :: rest) :
    patternSize subs ≤ patternSize (cur :: rest) := by
  rcases left with rfl | rfl
  · simp [patternSize]
  · exact Nat.le_refl _

/-- `walkJsonc`, with the paths that it reports in order. -/
def walkJsonc (node : JsoncValue) (subs walked : List SlotSub) : Result (List (List SlotSub)) := do
  checkDepth walked
  match subs with
  | [] => .ok [walked]
  | cur :: rest =>
    let reported ←
      (dispatchSeg (jsoncOps numbers) node cur rest).attach.mapM fun move =>
        match move with
        | ⟨.report, _⟩ => .ok [walked]
        | ⟨.retry subs, _⟩ => walkJsonc node subs walked
        | ⟨.descend visit subs, _⟩ => do
            let value ← visit.keySub
            walkJsonc visit.child subs (walked ++ [⟨cur.slot, value⟩])
    .ok reported.flatten
termination_by patternSize subs + sizeOf node
decreasing_by
  · next member =>
    have shorter := patternSize_lt_of_retry numbers member
    omega
  · next member =>
    obtain ⟨descent, left⟩ := mem_descents_of_descend numbers member
    have smaller := sizeOf_lt_of_mem_descents numbers descent
    have notLonger := patternSize_le_of_descend left
    omega

/-- What the walker does for one move. -/
def walkMove (node : JsoncValue) (slot : Slot) (walked : List SlotSub) :
    Move JsoncValue → Result (List (List SlotSub))
  | .report => .ok [walked]
  | .retry subs => walkJsonc numbers node subs walked
  | .descend visit subs => do
      let value ← visit.keySub
      walkJsonc numbers visit.child subs (walked ++ [⟨slot, value⟩])

theorem walkJsonc_nil (node : JsoncValue) (walked : List SlotSub) :
    walkJsonc numbers node [] walked = (checkDepth walked).bind fun _ => .ok [walked] := by
  rw [walkJsonc]
  rfl

theorem walkJsonc_cons (node : JsoncValue) (cur : SlotSub) (rest walked : List SlotSub) :
    walkJsonc numbers node (cur :: rest) walked = (checkDepth walked).bind fun _ =>
        ((dispatchSeg (jsoncOps numbers) node cur rest).mapM
          (walkMove numbers node cur.slot walked)).bind fun reported => .ok reported.flatten := by
  rw [walkJsonc]
  change (checkDepth walked).bind _ = _
  congr 1
  funext checked
  change Except.bind _ _ = _
  congr 1
  rw [mapM_subtype (g := walkMove numbers node cur.slot walked)]
  · rw [unattach_attach]
  · intro move member
    cases move <;> rfl

/-- Whether a segment has to be expanded before the path is resolved. -/
def needsExpansion (sub : SlotSub) : Bool :=
  sub.value = wildcardSingle || sub.value = wildcardRecursive ||
    isPositionalSeg sub.value || isUnionSeg sub.value ||
    isPredicateSeg sub.value

structure OcPathMatch where
  path : OcPath
  found : OcMatch
  deriving DecidableEq

/-- The paths that resolve, with what they resolve to. -/
def resolveAll (ast : JsoncAst) : List OcPath → Result (List OcPathMatch)
  | [] => .ok []
  | path :: rest => do
      let found ← resolveOcPath numbers ast path
      let others ← resolveAll ast rest
      .ok ((found.map (OcPathMatch.mk path)).toList ++ others)

def findOcPaths (ast : JsoncAst) (pattern : OcPath) : Result (List OcPathMatch) := do
  let subs ← patternSubs pattern
  if subs.any needsExpansion then
    let reported ←
      match ast.root with
      | none => .ok []
      | some root => walkJsonc numbers root subs []
    resolveAll numbers ast (reported.map (repackSlotSubs pattern))
  else resolveAll numbers ast [pattern]

end Walker

end Jsonc
