import AieClaw.JsoncWalk

/-!
# From sub-segments to a path and back

The sub-segments of a reported path are packed into slots, split again and read
by the resolver, which looks at their spelling only. The trail along which it
reads them decides what the path resolves to.
-/

namespace Jsonc

open OcPathSyntax List

variable {numbers : NumberText}

section Reading

/-- How the resolver reads one sub-segment at a node. -/
def readStep (numbers : NumberText) (node : JsoncValue) (text : String) :
    Option (Step × JsoncValue) :=
  let seg := unquoteSeg text
  if seg = "" then none
  else
    let concrete := concreteSeg node seg
    match node with
    | .object entries _ =>
      (JsoncValue.entryFor? concrete entries).map fun entry => (.key concrete, entry.value)
    | .array items _ =>
      (indexOf numbers concrete items.length).bind fun index =>
        items[index]?.map fun item => (.index index, item)
    | _ => none

/-- The trail along which the resolver reads a list of sub-segments. -/
def readTrail (numbers : NumberText) : JsoncValue → List String → Option (List Step)
  | _, [] => some []
  | node, text :: rest =>
    (readStep numbers node text).bind fun found =>
      (readTrail numbers found.2 rest).map (found.1 :: ·)

variable {node child : JsoncValue} {text : String} {step : Step}

theorem child?_of_readStep (read : readStep numbers node text = some (step, child)) :
    node.child? step = some child := by
  unfold readStep at read
  simp only at read
  split_ifs at read
  cases node with
  | object entries line =>
    obtain ⟨entry, found, same⟩ := Option.map_eq_some_iff.mp read
    cases same
    simp [JsoncValue.child?, found]
  | array items line =>
    obtain ⟨index, isIndex, atIndex⟩ := Option.bind_eq_some_iff.mp read
    obtain ⟨item, isItem, same⟩ := Option.map_eq_some_iff.mp atIndex
    cases same
    exact isItem
  | string | number | boolean | null => cases read

/-- One turn of the resolver's loop reads one sub-segment. -/
theorem resolveLoop_cons (last : Option (JsoncEntry JsoncValue)) (walked rest : List String) :
    (readStep numbers node text = none ∧
        resolveLoop numbers node last walked (unquoteSeg text :: rest) = none) ∨
      ∃ step child entry, readStep numbers node text = some (step, child) ∧
        (∀ found ∈ entry, found.value = child) ∧
        resolveLoop numbers node last walked (unquoteSeg text :: rest) =
          resolveLoop numbers child entry
            (walked ++ [concreteSeg node (unquoteSeg text)]) rest := by
  by_cases empty : unquoteSeg text = ""
  · exact .inl ⟨by simp [readStep, empty], by simp [resolveLoop, empty]⟩
  cases node with
  | object entries line =>
    cases found :
      JsoncValue.entryFor? (concreteSeg (.object entries line) (unquoteSeg text)) entries with
    | none => exact .inl ⟨by simp [readStep, empty, found], by simp [resolveLoop, empty, found]⟩
    | some entry =>
      refine .inr ⟨.key (concreteSeg (.object entries line) (unquoteSeg text)),
          entry.value, some entry, ?_, by simp, ?_⟩
      · simp [readStep, empty, found]
      · simp [resolveLoop, empty, found]
  | array items line =>
    cases found :
      indexOf numbers (concreteSeg (.array items line) (unquoteSeg text)) items.length with
    | none => exact .inl ⟨by simp [readStep, empty, found], by simp [resolveLoop, empty, found]⟩
    | some index =>
      have inside := getElem?_eq_getElem (indexOf_lt found)
      refine .inr ⟨.index index, items.get ⟨index, indexOf_lt found⟩, none,
        by simp [readStep, empty, found, inside], by simp, ?_⟩
      simp [resolveLoop, empty, found, inside]
  | string | number | boolean | null =>
    exact .inl ⟨by simp [readStep, empty], by simp [resolveLoop, empty]⟩

theorem resolveLoop_eq (last : Option (JsoncEntry JsoncValue))
    (isLast : ∀ entry ∈ last, entry.value = node) (walked texts : List String) :
    (resolveLoop numbers node last walked (texts.map unquoteSeg)).map ValueMatch.node =
      (readTrail numbers node texts).bind (follow node) := by
  induction texts generalizing node last walked with
  | nil =>
    cases last with
    | none => rfl
    | some entry => simp [resolveLoop, readTrail, ValueMatch.node, follow, isLast entry rfl]
  | cons text rest inductionHypothesis =>
    rw [map_cons]
    rcases resolveLoop_cons last walked (rest.map unquoteSeg) with
      ⟨unread, fails⟩ | ⟨step, child, entry, read, isEntry, turns⟩
    · rw [fails, readTrail, unread]
      rfl
    · rw [turns, inductionHypothesis entry isEntry, readTrail, read]
      have leads := child?_of_readStep read
      simp only [Option.bind_some, Option.bind_map, Function.comp_def]
      congr 1
      funext steps
      simp [follow, AddressTree.follow, leads]

theorem follow_of_readTrail {texts : List String} {steps : List Step}
    (read : readTrail numbers node texts = some steps) :
    ∃ finish, follow node steps = some finish := by
  induction texts generalizing node steps with
  | nil =>
    cases read
    exact ⟨node, rfl⟩
  | cons text rest inductionHypothesis =>
    obtain ⟨⟨step, child⟩, first, onward⟩ := Option.bind_eq_some_iff.mp read
    obtain ⟨others, restRead, rfl⟩ := Option.map_eq_some_iff.mp onward
    obtain ⟨finish, leads⟩ := inductionHypothesis restRead
    exact ⟨finish, AddressTree.follow_cons_eq_some_iff.mpr ⟨child, child?_of_readStep first, leads⟩⟩

theorem isSome_resolveJsoncValueOcPath (texts : List String) :
    (resolveJsoncValueOcPath numbers node (texts.map unquoteSeg)).isSome =
      (readTrail numbers node texts).isSome := by
  have resolved :
      (resolveJsoncValueOcPath numbers node (texts.map unquoteSeg)).map ValueMatch.node =
        (readTrail numbers node texts).bind (follow node) :=
    resolveLoop_eq none (by simp) [] texts
  rw [← Option.isSome_map (f := ValueMatch.node), resolved]
  cases read : readTrail numbers node texts with
  | none => rfl
  | some steps =>
    obtain ⟨finish, leads⟩ := follow_of_readTrail read
    rw [Option.bind_some, leads]
    rfl

end Reading

section Packing

def Slot.rank : Slot → ℕ
  | .section => 0
  | .item => 1
  | .field => 2

/-- The sub-segments stand in the order of their slots. -/
def Ordered (subs : List SlotSub) : Prop :=
  subs.Pairwise fun first second => first.slot.rank ≤ second.slot.rank

def inSlot (slot : Slot) (subs : List SlotSub) : List SlotSub :=
  subs.filter fun sub => sub.slot = slot

variable {subs : List SlotSub}

theorem inSlot_eq_nil {slot : Slot}
    (above : ∀ sub ∈ subs, slot.rank < sub.slot.rank) : inSlot slot subs = [] := by
  rw [inSlot, filter_eq_nil_iff]
  intro sub member same
  have same : sub.slot = slot := by
    simpa using same
  exact absurd (above sub member) (by rw [same]; exact lt_irrefl _)

theorem Ordered.append_inSlot (ordered : Ordered subs) :
    inSlot .section subs ++ inSlot .item subs ++ inSlot .field subs = subs := by
  induction subs with
  | nil => rfl
  | cons sub rest inductionHypothesis =>
    obtain ⟨first, others⟩ := pairwise_cons.mp ordered
    have joined := inductionHypothesis others
    cases isSlot : sub.slot with
    | «section» => simpa [inSlot, isSlot] using joined
    | item =>
      have noSection : inSlot .section rest = [] := by
        apply inSlot_eq_nil
        intro other member
        have above := first other member
        rw [isSlot] at above
        exact Nat.lt_of_lt_of_le Nat.one_pos above
      rw [noSection] at joined
      simp only [inSlot, filter_cons, isSlot] at noSection joined ⊢
      simpa [noSection] using joined
    | field =>
      have noSlot (slot : Slot) (below : slot.rank < Slot.rank .field) : inSlot slot rest = [] := by
        apply inSlot_eq_nil
        intro other member
        have above := first other member
        rw [isSlot] at above
        exact Nat.lt_of_lt_of_le below above
      have noSection := noSlot .section (by decide)
      have noItem := noSlot .item (by decide)
      rw [noSection, noItem] at joined
      simp only [inSlot, filter_cons, isSlot] at noSection noItem joined ⊢
      simpa [noSection, noItem] using joined

theorem slotSegments_packSlot (slot : Slot)
    (whole : ∀ sub ∈ subs, Whole '.' sub.value) : slotSegments (packSlot slot subs).toList =
      .ok ((inSlot slot subs).map SlotSub.value) := by
  have wholeTexts : ∀ text ∈ (inSlot slot subs).map SlotSub.value, Whole '.' text := by
    intro text member
    obtain ⟨sub, inFilter, rfl⟩ := mem_map.mp member
    exact whole sub (mem_of_mem_filter inFilter)
  change slotSegments (packTexts ((inSlot slot subs).map SlotSub.value)).toList = _
  cases texts : (inSlot slot subs).map SlotSub.value with
  | nil => rfl
  | cons text rest =>
    rw [texts] at wholeTexts
    have splits : Splits '.' (".".intercalate (text :: rest)) (text :: rest) :=
      ⟨cons_ne_nil text rest, wholeTexts, rfl⟩
    simp only [packTexts, Option.toList_some, slotSegments, bind_eq_ok_iff]
    refine ⟨text :: rest, (splitRespectingBrackets_eq_ok_iff (by decide)).mpr splits, [], rfl, ?_⟩
    rw [append_nil]

theorem slotSegments_append {first second : List String}
    {firstTexts secondTexts : List String} (isFirst : slotSegments first = .ok firstTexts)
    (isSecond : slotSegments second = .ok secondTexts) :
    slotSegments (first ++ second) = .ok (firstTexts ++ secondTexts) := by
  induction first generalizing firstTexts with
  | nil =>
    obtain rfl := Except.ok.inj isFirst
    exact isSecond
  | cons slot rest inductionHypothesis =>
    simp only [slotSegments, bind_eq_ok_iff] at isFirst
    obtain ⟨texts, split, others, rested, joined⟩ := isFirst
    obtain rfl := Except.ok.inj joined
    simp only [cons_append, slotSegments, bind_eq_ok_iff]
    refine ⟨texts, split, others ++ secondTexts, inductionHypothesis rested, ?_⟩
    rw [append_assoc]

theorem slotSegments_repack {pattern : OcPath}
    (ordered : Ordered subs) (whole : ∀ sub ∈ subs, Whole '.' sub.value) :
    slotSegments (repackSlotSubs pattern subs).slots = .ok (subs.map SlotSub.value) := by
  have packed (slot : Slot) := slotSegments_packSlot slot whole
  have joined :=
    slotSegments_append (slotSegments_append (packed .section) (packed .item)) (packed .field)
  rw [← map_append, ← map_append, ordered.append_inSlot] at joined
  exact joined

end Packing

section Resolving

variable {root : JsoncValue} {raw : String} {path : OcPath}
variable {texts : List String}

theorem isPattern_go_eq_false {slots : List String} (split : slotSegments slots = .ok texts)
    (concrete : ∀ text ∈ texts, isPatternSub text = false) : isPattern.go slots = .ok false := by
  induction slots generalizing texts with
  | nil => rfl
  | cons slot rest inductionHypothesis =>
    simp only [slotSegments, bind_eq_ok_iff] at split
    obtain ⟨subs, isSplit, others, rested, joined⟩ := split
    obtain rfl := Except.ok.inj joined
    have noPattern : subs.any isPatternSub = false := by
      rw [any_eq_false]
      intro sub member
      simp [concrete sub (mem_append_left others member)]
    simp only [isPattern.go, bind_eq_ok_iff]
    refine ⟨subs, isSplit, ?_⟩
    rw [noPattern]
    exact inductionHypothesis rested fun text member =>
      concrete text (mem_append_right subs member)

/-- The path splits, and none of its sub-segments is one of a pattern. -/
def Concrete (path : OcPath) : Prop :=
  ∃ texts, slotSegments path.slots = .ok texts ∧ ∀ text ∈ texts, isPatternSub text = false

theorem concrete_of_isPattern_go {slots : List String}
    (noPattern : isPattern.go slots = .ok false) :
    ∃ texts, slotSegments slots = .ok texts ∧ ∀ text ∈ texts, isPatternSub text = false := by
  induction slots with
  | nil => exact ⟨[], rfl, by simp⟩
  | cons slot rest inductionHypothesis =>
    simp only [isPattern.go, bind_eq_ok_iff] at noPattern
    obtain ⟨subs, isSplit, onward⟩ := noPattern
    split_ifs at onward with found
    · cases onward
    · obtain ⟨others, rested, concrete⟩ := inductionHypothesis onward
      refine ⟨subs ++ others, ?_, ?_⟩
      · simp only [slotSegments, bind_eq_ok_iff]
        exact ⟨subs, isSplit, others, rested, rfl⟩
      · intro text member
        rcases mem_append.mp member with inSubs | inOthers
        · have noPattern := eq_false_of_ne_true found
          simpa using any_eq_false.mp noPattern text inSubs
        · exact concrete text inOthers

theorem resolveJsoncOcPath_eq (split : slotSegments path.slots = .ok texts) :
    resolveJsoncOcPath numbers ⟨raw, some root⟩ path = .ok (if texts = [] then some .root
      else
        (resolveJsoncValueOcPath numbers root (texts.map unquoteSeg)).map .found) := by
  simp only [resolveJsoncOcPath, bind_eq_ok_iff]
  refine ⟨texts, split, ?_⟩
  split_ifs <;> rfl

theorem resolveOcPath_eq (split : slotSegments path.slots = .ok texts)
    (concrete : ∀ text ∈ texts, isPatternSub text = false)
    (notInsertion : detectInsertion path = none) : resolveOcPath numbers ⟨raw, some root⟩ path =
      resolveJsoncToUniversal numbers ⟨raw, some root⟩ path := by
  have noPattern : isPattern path = .ok false := isPattern_go_eq_false split concrete
  simp only [resolveOcPath, resolveWith, noPattern, notInsertion]
  rfl

theorem isSome_of_resolveOcPath (numbers : NumberText) (raw : String) (root : JsoncValue)
    (split : slotSegments path.slots = .ok texts)
    (concrete : ∀ text ∈ texts, isPatternSub text = false)
    (notInsertion : detectInsertion path = none) : ∃ found : Option OcMatch,
      resolveOcPath numbers ⟨raw, some root⟩ path = .ok found ∧
        found.isSome = (readTrail numbers root texts).isSome := by
  rw [resolveOcPath_eq split concrete notInsertion, resolveJsoncToUniversal,
    resolveJsoncOcPath_eq split]
  refine ⟨_, rfl, ?_⟩
  rw [Option.isSome_map]
  split_ifs with empty
  · rw [empty]
    rfl
  · rw [Option.isSome_map, isSome_resolveJsoncValueOcPath]

theorem slots_withoutLastSlot {path : OcPath} {last : String}
    (isLast : path.slots.getLast? = some last) :
    path.slots = (withoutLastSlot path).slots ++ [last] := by
  obtain ⟨file, inSection, inItem, inField, session⟩ := path
  cases inField with
  | some field =>
    cases inSection <;> cases inItem <;> simpa [OcPath.slots, withoutLastSlot] using isLast
  | none =>
    cases inItem with
    | some item => cases inSection <;> simpa [OcPath.slots, withoutLastSlot] using isLast
    | none =>
      cases inSection with
      | some text => simpa [OcPath.slots, withoutLastSlot] using isLast
      | none => cases isLast

theorem exists_slotSegments_of_append {first second pieces : List String}
    (split : slotSegments (first ++ second) = .ok pieces) :
    ∃ firstPieces, slotSegments first = .ok firstPieces := by
  induction first generalizing pieces with
  | nil => exact ⟨[], rfl⟩
  | cons slot rest inductionHypothesis =>
    simp only [cons_append, slotSegments, bind_eq_ok_iff] at split
    obtain ⟨subs, isSplit, others, rested, -⟩ := split
    obtain ⟨restPieces, isRest⟩ := inductionHypothesis rested
    refine ⟨subs ++ restPieces, ?_⟩
    simp only [slotSegments, bind_eq_ok_iff]
    exact ⟨subs, isSplit, restPieces, isRest, rfl⟩

theorem exists_parentSplit {info : InsertionInfo} (split : slotSegments path.slots = .ok texts)
    (insertion : detectInsertion path = some info) :
    ∃ parentTexts, slotSegments info.parentPath.slots = .ok parentTexts := by
  unfold detectInsertion at insertion
  cases isLast : path.slots.getLast? with
  | none => simp [isLast] at insertion
  | some last =>
    simp only [isLast] at insertion
    split_ifs at insertion
    cases insertion
    rw [slots_withoutLastSlot isLast] at split
    exact exists_slotSegments_of_append split

theorem exists_resolveOcPath (numbers : NumberText) (raw : String) (root : JsoncValue)
    (concrete : Concrete path) :
    ∃ found, resolveOcPath numbers ⟨raw, some root⟩ path = .ok found := by
  obtain ⟨pieces, split, concrete⟩ := concrete
  cases insertion : detectInsertion path with
  | none =>
    obtain ⟨found, resolved, -⟩ :=
      isSome_of_resolveOcPath numbers raw root split concrete insertion
    exact ⟨found, resolved⟩
  | some info =>
    have noPattern : isPattern path = .ok false := isPattern_go_eq_false split concrete
    obtain ⟨parentPieces, parentSplit⟩ := exists_parentSplit split insertion
    simp only [resolveOcPath, resolveWith, noPattern, insertion,
      resolveJsoncInsertion, resolveJsoncOcPath_eq parentSplit]
    exact ⟨_, rfl⟩

/-- The resolver throws at everything but concrete paths. -/
theorem exists_resolveOcPath_iff (numbers : NumberText) (raw : String) (root : JsoncValue) :
    (∃ found, resolveOcPath numbers ⟨raw, some root⟩ path = .ok found) ↔ Concrete path := by
  constructor
  · rintro ⟨found, resolved⟩
    simp only [resolveOcPath, resolveWith, bind_eq_ok_iff] at resolved
    obtain ⟨wildcard, isWildcard, onward⟩ := resolved
    cases wildcard with
    | true => simp [bind_eq_ok_iff] at onward
    | false => exact concrete_of_isPattern_go isWildcard
  · exact exists_resolveOcPath numbers raw root

end Resolving

section Patterns

variable {pattern : OcPath} {subs : List SlotSub} {slot : Slot} {text : Option String}

/-- What a slot of the pattern splits into. -/
structure SlotOf (slot : Slot) (text : Option String) (subs : List SlotSub) : Prop where
  inSlot : ∀ sub ∈ subs, sub.slot = slot
  packed : packTexts (subs.map SlotSub.value) = text
  whole : ∀ sub ∈ subs, Whole '.' sub.value

theorem slotOf_slotSubs (split : slotSubs slot text = .ok subs) : SlotOf slot text subs := by
  cases text with
  | none =>
    obtain rfl := Except.ok.inj split
    exact ⟨by simp, rfl, by simp⟩
  | some text =>
    simp only [slotSubs, bind_eq_ok_iff] at split
    obtain ⟨pieces, isSplit, made⟩ := split
    obtain rfl := Except.ok.inj made
    have splits := (splitRespectingBrackets_eq_ok_iff (by decide)).mp isSplit
    have values : (pieces.map (SlotSub.mk slot)).map SlotSub.value = pieces := by
      rw [map_map]
      exact map_id pieces
    refine ⟨?_, ?_, ?_⟩
    · intro sub member
      obtain ⟨piece, -, rfl⟩ := mem_map.mp member
      rfl
    · rw [values]
      cases pieces with
      | nil => exact (splits.nonempty rfl).elim
      | cons piece rest => exact congrArg some splits.joined.symm
    · intro sub member
      obtain ⟨piece, inPieces, rfl⟩ := mem_map.mp member
      exact splits.whole piece inPieces

/-- A pattern is made of the sub-segments of its three slots. -/
structure Parsed (pattern : OcPath) (subs : List SlotSub) : Prop where
  parts :
    ∃ inSection inItem inField,
      SlotOf .section pattern.sectionSlot inSection ∧
      SlotOf .item pattern.itemSlot inItem ∧
      SlotOf .field pattern.fieldSlot inField ∧
      subs = inSection ++ inItem ++ inField

theorem parsed_of_patternSubs (split : patternSubs pattern = .ok subs) : Parsed pattern subs := by
  simp only [patternSubs, bind_eq_ok_iff] at split
  obtain ⟨inSection, isSection, inItem, isItem, inField, isField, joined⟩ := split
  exact ⟨inSection, inItem, inField, slotOf_slotSubs isSection,
    slotOf_slotSubs isItem, slotOf_slotSubs isField, (Except.ok.inj joined).symm⟩

theorem SlotOf.inSlot_self (slotOf : SlotOf slot text subs) : Jsonc.inSlot slot subs = subs := by
  rw [Jsonc.inSlot, filter_eq_self]
  intro sub member
  simp [slotOf.inSlot sub member]

theorem SlotOf.inSlot_other {other : Slot}
    (slotOf : SlotOf slot text subs) (different : slot ≠ other) : Jsonc.inSlot other subs = [] := by
  rw [Jsonc.inSlot, filter_eq_nil_iff]
  intro sub member
  simp [slotOf.inSlot sub member, different]

theorem SlotOf.ordered (slotOf : SlotOf slot text subs) : Ordered subs := by
  refine pairwise_of_forall_mem_list ?_
  intro first isFirst second isSecond
  rw [slotOf.inSlot first isFirst, slotOf.inSlot second isSecond]

theorem Parsed.ordered (parsed : Parsed pattern subs) : Ordered subs := by
  obtain ⟨inSection, inItem, inField, isSection, isItem, isField, rfl⟩ := parsed.parts
  rw [Ordered, pairwise_append, pairwise_append]
  refine ⟨⟨isSection.ordered, isItem.ordered, ?_⟩, isField.ordered, ?_⟩
  · intro first isFirst second isSecond
    rw [isSection.inSlot first isFirst]
    exact Nat.zero_le _
  · intro first isFirst second isSecond
    rw [isField.inSlot second isSecond]
    cases first.slot <;> decide

theorem Parsed.repack (parsed : Parsed pattern subs) : repackSlotSubs pattern subs = pattern := by
  obtain ⟨inSection, inItem, inField, isSection, isItem, isField, rfl⟩ := parsed.parts
  have packs (slot : Slot) : packSlot slot (inSection ++ inItem ++ inField) =
        packTexts ((inSlot slot inSection ++ inSlot slot inItem ++
          inSlot slot inField).map SlotSub.value) := by
    simp [packSlot, inSlot]
  have sectionText := packs .section
  rw [isSection.inSlot_self, isItem.inSlot_other (by decide),
    isField.inSlot_other (by decide), append_nil, append_nil, isSection.packed] at sectionText
  have itemText := packs .item
  rw [isSection.inSlot_other (by decide), isItem.inSlot_self,
    isField.inSlot_other (by decide), append_nil, nil_append, isItem.packed] at itemText
  have fieldText := packs .field
  rw [isSection.inSlot_other (by decide), isItem.inSlot_other (by decide),
    isField.inSlot_self, nil_append, nil_append, isField.packed] at fieldText
  rw [repackSlotSubs, sectionText, itemText, fieldText]

theorem Parsed.whole (parsed : Parsed pattern subs) : ∀ sub ∈ subs, Whole '.' sub.value := by
  obtain ⟨inSection, inItem, inField, isSection, isItem, isField, rfl⟩ := parsed.parts
  intro sub member
  simp only [mem_append] at member
  rcases member with (inFirst | inSecond) | inThird
  · exact isSection.whole sub inFirst
  · exact isItem.whole sub inSecond
  · exact isField.whole sub inThird

end Patterns

end Jsonc
