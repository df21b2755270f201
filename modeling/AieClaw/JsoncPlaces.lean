import AieClaw.JsoncPaths

/-!
# The places that a path leads to

Nodes are told apart by the places of the children on the way to them, not by
their values. A path resolves where its sub-segments name such places, or where
it inserts into a container.
-/

namespace Jsonc

open OcPathSyntax List

variable {numbers : NumberText}

section Places

/-- The child that stands at a place. -/
def JsoncValue.childAt? (node : JsoncValue) (place : ℕ) : Option JsoncValue :=
  node.children[place]?.map Prod.snd

abbrev JsoncValue.at? := AddressTree.follow JsoncValue.childAt?

variable (numbers)

/-- The place of the child that the resolver goes to by a segment that it has made concrete. -/
def JsoncValue.placeOf (node : JsoncValue) (name : String) : Option ℕ :=
  match node with
  | .object entries _ => entries.findIdx? fun entry => entry.key = name
  | .array items _ => indexOf numbers name items.length
  | _ => none

/-- The places that the resolver has come by, from the concrete segments it returns. -/
def placesOf : JsoncValue → List String → Option (List ℕ)
  | _, [] => some []
  | node, name :: rest =>
    (node.placeOf numbers name).bind fun place =>
      (node.childAt? place).bind fun child => (placesOf child rest).map (place :: ·)

/--
A sub-segment names the child at a place. At an object that is the first member with the
key, unless the key is a positional token; at an array it is the index that is read.
-/
inductive Names : JsoncValue → String → ℕ → Prop where
  | key {entries : List (JsoncEntry JsoncValue)} {line : Option ℕ} {text : String} {place : ℕ}
      {entry : JsoncEntry JsoncValue} (nonempty : unquoteSeg text ≠ "")
      (noToken : isPositionalSeg (unquoteSeg text) = false)
      (atPlace : entries[place]? = some entry) (isKey : entry.key = unquoteSeg text)
      (isFirst : ∀ earlier ∈ entries.take place, earlier.key ≠ entry.key) :
      Names (.object entries line) text place
  | first {entries : List (JsoncEntry JsoncValue)} {line : Option ℕ} {text : String}
      {entry : JsoncEntry JsoncValue} (token : unquoteSeg text = posFirst)
      (atPlace : entries[0]? = some entry) : Names (.object entries line) text 0
  | last {entries : List (JsoncEntry JsoncValue)} {line : Option ℕ} {text : String} {place : ℕ}
      {entry last : JsoncEntry JsoncValue} (token : unquoteSeg text = posLast)
      (isLast : entries.getLast? = some last) (atPlace : entries[place]? = some entry)
      (isKey : entry.key = last.key)
      (isFirst : ∀ earlier ∈ entries.take place, earlier.key ≠ entry.key) :
      Names (.object entries line) text place
  | index {items : List JsoncValue} {line : Option ℕ} {text : String} {place : ℕ}
      (nonempty : unquoteSeg text ≠ "")
      (isIndex : indexOf numbers (concreteSeg (.array items line) (unquoteSeg text)) items.length =
        some place) : Names (.array items line) text place

/-- The sub-segments name the places on the way down to a node. -/
inductive Leads : JsoncValue → List String → List ℕ → JsoncValue → Prop where
  | here {node : JsoncValue} : Leads node [] [] node
  | onward {node child finish : JsoncValue} {text : String} {texts : List String}
      {place : ℕ} {places : List ℕ} (named : Names numbers node text place)
      (isChild : node.childAt? place = some child) (rest : Leads child texts places finish) :
      Leads node (text :: texts) (place :: places) finish

variable {numbers} {node child finish : JsoncValue} {text : String} {place : ℕ}

theorem findIdx?_eq_some_iff_take {α : Type} {values : List α} {passes : α → Bool} :
    values.findIdx? passes = some place ↔ ∃ value, values[place]? = some value ∧
      passes value = true ∧ ∀ earlier ∈ values.take place, passes earlier = false := by
  rw [findIdx?_eq_some_iff_getElem]
  constructor
  · rintro ⟨inside, passing, earliest⟩
    refine ⟨_, getElem?_eq_getElem inside, passing, ?_⟩
    intro earlier member
    obtain ⟨index, below, rfl⟩ := mem_take_iff_getElem.mp member
    simpa using earliest index (by omega)
  · rintro ⟨value, atPlace, passing, earliest⟩
    obtain ⟨inside, rfl⟩ := List.getElem?_eq_some_iff.mp atPlace
    refine ⟨inside, passing, ?_⟩
    intro index below
    have member : values[index] ∈ values.take place :=
      mem_take_iff_getElem.mpr ⟨index, by omega, rfl⟩
    simpa using earliest _ member

theorem placeOf_object_iff {entries : List (JsoncEntry JsoncValue)} {line : Option ℕ}
    {name : String} : (JsoncValue.object entries line).placeOf numbers name = some place ↔
      ∃ entry, entries[place]? = some entry ∧ entry.key = name ∧
        ∀ earlier ∈ entries.take place, earlier.key ≠ name := by
  simp only [JsoncValue.placeOf, findIdx?_eq_some_iff_take, decide_eq_true_eq,
    decide_eq_false_iff_not, ne_eq]

theorem concreteSeg_of_noToken {seg : String} (noToken : isPositionalSeg seg = false) :
    concreteSeg node seg = seg := by
  simp [concreteSeg, noToken]

theorem concreteSeg_first (entries : List (JsoncEntry JsoncValue)) (line : Option ℕ) :
    concreteSeg (.object entries line) posFirst =
      ((entries.map JsoncEntry.key).head?).getD posFirst := rfl

theorem concreteSeg_last (entries : List (JsoncEntry JsoncValue)) (line : Option ℕ) :
    concreteSeg (.object entries line) posLast =
      ((entries.map JsoncEntry.key).getLast?).getD posLast := rfl

theorem posFirst_ne_empty : posFirst ≠ "" := by
  decide

theorem posLast_ne_empty : posLast ≠ "" := by
  decide

/-- The named child is the one that the resolver goes to. -/
theorem names_iff : Names numbers node text place ↔ unquoteSeg text ≠ "" ∧
    node.placeOf numbers (concreteSeg node (unquoteSeg text)) = some place := by
  constructor
  · intro names
    cases names with
    | key nonempty noToken atPlace isKey isFirst =>
      rw [concreteSeg_of_noToken noToken, placeOf_object_iff]
      exact ⟨nonempty, _, atPlace, isKey, isKey ▸ isFirst⟩
    | @first entries line _ entry token atPlace =>
      have isHead : entries.head? = some entry := by
        rw [head?_eq_getElem?, atPlace]
      rw [token, concreteSeg_first, head?_map, isHead, placeOf_object_iff]
      exact ⟨posFirst_ne_empty, entry, atPlace, rfl, by simp⟩
    | @last entries line _ _ entry last token isLast atPlace isKey isFirst =>
      rw [token, concreteSeg_last, getLast?_map, isLast, Option.map_some, Option.getD_some,
        placeOf_object_iff]
      exact ⟨posLast_ne_empty, entry, atPlace, isKey, isKey ▸ isFirst⟩
    | index nonempty isIndex => exact ⟨nonempty, isIndex⟩
  · rintro ⟨nonempty, found⟩
    cases node with
    | object entries line =>
      cases isToken : isPositionalSeg (unquoteSeg text) with
      | false =>
        rw [concreteSeg_of_noToken isToken, placeOf_object_iff] at found
        obtain ⟨entry, atPlace, isKey, earliest⟩ := found
        exact .key nonempty isToken atPlace isKey (isKey ▸ earliest)
      | true =>
        have token : unquoteSeg text = posFirst ∨ unquoteSeg text = posLast := by
          simpa [isPositionalSeg] using isToken
        rcases token with token | token
        · rw [token, concreteSeg_first, placeOf_object_iff] at found
          obtain ⟨entry, atPlace, isKey, earliest⟩ := found
          cases entries with
          | nil => cases atPlace
          | cons head rest =>
            cases place with
            | zero => exact .first token atPlace
            | succ index => exact absurd rfl (earliest head (by simp))
        · rw [token, concreteSeg_last, placeOf_object_iff] at found
          obtain ⟨entry, atPlace, isKey, earliest⟩ := found
          cases isLast : entries.getLast? with
          | none =>
            obtain rfl := getLast?_eq_none_iff.mp isLast
            cases atPlace
          | some last =>
            rw [getLast?_map, isLast] at isKey earliest
            exact .last token isLast atPlace isKey (isKey ▸ earliest)
    | array items line => exact .index nonempty found
    | string | number | boolean | null => cases found

theorem Names.unique {other : ℕ} (isNamed : Names numbers node text place)
    (otherNamed : Names numbers node text other) : place = other :=
  Option.some.inj ((names_iff.mp isNamed).2.symm.trans (names_iff.mp otherNamed).2)

theorem Leads.unique {texts : List String} {places others : List ℕ} {otherFinish : JsoncValue}
    (leads : Leads numbers node texts places finish)
    (otherLeads : Leads numbers node texts others otherFinish) :
    places = others ∧ finish = otherFinish := by
  induction leads generalizing others otherFinish with
  | here =>
    cases otherLeads
    exact ⟨rfl, rfl⟩
  | onward named isChild rest inductionHypothesis =>
    cases otherLeads with
    | onward otherNamed otherChild otherRest =>
      obtain rfl := named.unique otherNamed
      rw [isChild] at otherChild
      obtain rfl := Option.some.inj otherChild
      obtain ⟨rfl, rfl⟩ := inductionHypothesis otherRest
      exact ⟨rfl, rfl⟩

theorem Leads.at? {texts : List String} {places : List ℕ}
    (leads : Leads numbers node texts places finish) : node.at? places = some finish := by
  induction leads with
  | here => rfl
  | onward named isChild rest inductionHypothesis =>
    exact AddressTree.follow_cons_eq_some_iff.mpr ⟨_, isChild, inductionHypothesis⟩

end Places

section Resolution

def ValueMatch.path : ValueMatch → List String
  | .value _ path => path
  | .objectEntry _ path => path

def JsoncOcPathMatch.path : JsoncOcPathMatch → List String
  | .root => []
  | .found isFound => isFound.path

/-- The node that was found in the tree of a root. -/
def JsoncOcPathMatch.nodeIn (root : JsoncValue) : JsoncOcPathMatch → JsoncValue
  | .root => root
  | .found isFound => isFound.node

/-- The resolver goes to the places, and to the node that stands there. -/
structure GoesTo (numbers : NumberText) (root : JsoncValue) (found : JsoncOcPathMatch)
    (places : List ℕ) : Prop where
  taken : placesOf numbers root found.path = some places
  reached : root.at? places = some (found.nodeIn root)

/-- The path resolves without an error, and to the node at the places. -/
structure Resolves (numbers : NumberText) (raw : String) (root : JsoncValue)
    (path : OcPath) (places : List ℕ) : Prop where
  returned : ∃ item, resolveOcPath numbers ⟨raw, some root⟩ path = .ok (some item)
  notInsertion : detectInsertion path = none
  toPlaces :
    ∃ found, resolveJsoncOcPath numbers ⟨raw, some root⟩ path = .ok (some found) ∧
      GoesTo numbers root found places

/-- The path splits into sub-segments that name the places on the way to the node. -/
structure Addresses (numbers : NumberText) (root : JsoncValue) (path : OcPath)
    (places : List ℕ) (node : JsoncValue) : Prop where
  leads :
    ∃ pieces, slotSegments path.slots = .ok pieces ∧ Leads numbers root pieces places node

variable {root node finish : JsoncValue} {path : OcPath}
variable {pieces : List String} {places : List ℕ}

theorem Addresses.unique {others : List ℕ} {other : JsoncValue}
    (addresses : Addresses numbers root path places node)
    (otherAddresses : Addresses numbers root path others other) :
    places = others ∧ node = other := by
  obtain ⟨pieces, split, leads⟩ := addresses.leads
  obtain ⟨otherPieces, otherSplit, otherLeads⟩ := otherAddresses.leads
  rw [split] at otherSplit
  obtain rfl := Except.ok.inj otherSplit
  exact leads.unique otherLeads

theorem names_of_readStep {text : String} {step : Step} {child : JsoncValue}
    (read : readStep numbers node text = some (step, child)) : ∃ place,
      Names numbers node text place ∧ node.childAt? place = some child := by
  unfold readStep at read
  simp only at read
  split_ifs at read with empty
  cases node with
  | object entries line =>
    obtain ⟨entry, found, same⟩ := Option.map_eq_some_iff.mp read
    cases same
    rw [JsoncValue.entryFor?, find?_eq_bind_findIdx?_getElem?] at found
    obtain ⟨place, isPlace, atPlace⟩ := Option.bind_eq_some_iff.mp found
    refine ⟨place, names_iff.mpr ⟨empty, isPlace⟩, ?_⟩
    simp [JsoncValue.childAt?, JsoncValue.children, atPlace]
  | array items line =>
    obtain ⟨index, isIndex, atIndex⟩ := Option.bind_eq_some_iff.mp read
    obtain ⟨item, isItem, same⟩ := Option.map_eq_some_iff.mp atIndex
    cases same
    refine ⟨index, names_iff.mpr ⟨empty, isIndex⟩, ?_⟩
    simp [JsoncValue.childAt?, JsoncValue.children, isItem]
  | string | number | boolean | null => cases read

theorem not_names_of_readStep {text : String} (unread : readStep numbers node text = none)
    {place : ℕ} : ¬ Names numbers node text place := by
  intro names
  obtain ⟨nonempty, isPlace⟩ := names_iff.mp names
  unfold readStep at unread
  simp only [if_neg nonempty] at unread
  cases node with
  | object entries line =>
    have missing := Option.map_eq_none_iff.mp unread
    rw [JsoncValue.entryFor?, find?_eq_bind_findIdx?_getElem?] at missing
    obtain ⟨entry, atPlace, -⟩ := placeOf_object_iff.mp isPlace
    have found : entries.findIdx? _ = some place := isPlace
    rw [found, Option.bind_some, atPlace] at missing
    cases missing
  | array items line =>
    simp only at unread
    have found : indexOf numbers _ items.length = some place := isPlace
    rw [found, Option.bind_some, getElem?_eq_getElem (indexOf_lt found)] at unread
    cases unread
  | string | number | boolean | null => cases isPlace

/-- What the loop returns is the node that the sub-segments lead to. -/
theorem leads_of_resolveLoop {last : Option (JsoncEntry JsoncValue)} {found : ValueMatch}
    (isLast : ∀ entry ∈ last, entry.value = node) (walked : List String)
    (resolved : resolveLoop numbers node last walked (pieces.map unquoteSeg) = some found) :
    ∃ names places, found.path = walked ++ names ∧
      placesOf numbers node names = some places ∧
      Leads numbers node pieces places found.node := by
  induction pieces generalizing node last walked with
  | nil =>
    cases last with
    | none =>
      cases resolved
      exact ⟨[], [], (append_nil walked).symm, rfl, .here⟩
    | some entry =>
      cases resolved
      obtain rfl := isLast entry rfl
      exact ⟨[], [], (append_nil walked).symm, rfl, .here⟩
  | cons text rest inductionHypothesis =>
    rw [map_cons] at resolved
    rcases resolveLoop_cons last walked (rest.map unquoteSeg) with
      ⟨unread, fails⟩ | ⟨step, child, entry, read, isEntry, turns⟩
    · rw [fails] at resolved
      cases resolved
    · rw [turns] at resolved
      obtain ⟨names, places, isPath, isPlaces, leads⟩ := inductionHypothesis isEntry _ resolved
      obtain ⟨place, named, isChild⟩ := names_of_readStep read
      refine ⟨concreteSeg node (unquoteSeg text) :: names, place :: places, ?_, ?_,
        .onward named isChild leads⟩
      · rw [isPath, append_assoc]
        rfl
      · simp [placesOf, (names_iff.mp named).2, isChild, isPlaces]

theorem exists_resolveLoop (leads : Leads numbers node pieces places finish)
    (last : Option (JsoncEntry JsoncValue)) (walked : List String) :
    ∃ found, resolveLoop numbers node last walked (pieces.map unquoteSeg) = some found := by
  induction leads generalizing last walked with
  | here =>
    cases last with
    | none => exact ⟨_, rfl⟩
    | some entry => exact ⟨_, rfl⟩
  | @onward node child _ text texts _ _ named isChild rest inductionHypothesis =>
    rw [map_cons]
    rcases resolveLoop_cons last walked (texts.map unquoteSeg) with
      ⟨unread, -⟩ | ⟨step, other, entry, read, -, turns⟩
    · exact (not_names_of_readStep unread named).elim
    · obtain ⟨otherPlace, otherNamed, otherChild⟩ := names_of_readStep read
      obtain rfl := named.unique otherNamed
      rw [isChild] at otherChild
      obtain rfl := Option.some.inj otherChild
      rw [turns]
      exact inductionHypothesis entry _

/-- The resolver finds a node exactly where the path addresses one. -/
theorem resolveJsoncOcPath_cases (raw : String)
    (split : slotSegments path.slots = .ok pieces) :
    (∃ found places, resolveJsoncOcPath numbers ⟨raw, some root⟩ path = .ok (some found) ∧
        GoesTo numbers root found places ∧ Addresses numbers root path places (found.nodeIn root)) ∨
      (resolveJsoncOcPath numbers ⟨raw, some root⟩ path = .ok none ∧
        ∀ places node, ¬ Addresses numbers root path places node) := by
  rw [resolveJsoncOcPath_eq split]
  split_ifs with empty
  · subst empty
    exact .inl ⟨.root, [], rfl, ⟨rfl, rfl⟩, ⟨[], split, .here⟩⟩
  · cases resolved : resolveJsoncValueOcPath numbers root (pieces.map unquoteSeg) with
    | none =>
      refine .inr ⟨rfl, ?_⟩
      rintro places node ⟨others, otherSplit, leads⟩
      rw [split] at otherSplit
      obtain rfl := Except.ok.inj otherSplit
      obtain ⟨found, isFound⟩ := exists_resolveLoop leads none []
      cases resolved.symm.trans isFound
    | some found =>
      obtain ⟨names, places, isPath, isPlaces, leads⟩ :=
        leads_of_resolveLoop (by simp) [] resolved
      refine .inl ⟨.found found, places, rfl, ⟨?_, leads.at?⟩, ⟨pieces, split, leads⟩⟩
      rw [← isPlaces]
      exact congrArg _ isPath

/-- The parent of the insertion is an object or an array. -/
def LeadsToContainer (numbers : NumberText) (root : JsoncValue) (info : InsertionInfo) : Prop :=
  ∃ places node, Addresses numbers root info.parentPath places node ∧
    positionalContainer node ≠ none

theorem isSome_container (node : JsoncValue) :
    (resolveJsoncInsertion.container node).isSome = (positionalContainer node).isSome := by
  cases node <;> rfl

/-- A concrete path resolves where it addresses a node, or a container to insert into. -/
theorem exists_item_iff (numbers : NumberText) (raw : String) (root : JsoncValue)
    (concrete : Concrete path) :
    (∃ item, resolveOcPath numbers ⟨raw, some root⟩ path = .ok (some item)) ↔
      match detectInsertion path with
      | none => ∃ places node, Addresses numbers root path places node
      | some info => LeadsToContainer numbers root info := by
  obtain ⟨pieces, split, noPattern⟩ := concrete
  have isPlain : isPattern path = .ok false := isPattern_go_eq_false split noPattern
  cases insertion : detectInsertion path with
  | none =>
    rw [resolveOcPath_eq split noPattern insertion, resolveJsoncToUniversal]
    rcases resolveJsoncOcPath_cases raw split with
      ⟨found, places, resolved, -, addresses⟩ | ⟨resolved, nowhere⟩
    · rw [resolved]
      exact ⟨fun _ => ⟨places, _, addresses⟩, fun _ => ⟨_, rfl⟩⟩
    · rw [resolved]
      constructor
      · rintro ⟨item, impossible⟩
        cases impossible
      · rintro ⟨places, node, addresses⟩
        exact (nowhere places node addresses).elim
  | some info =>
    obtain ⟨parentPieces, parentSplit⟩ := exists_parentSplit split insertion
    have resolves : resolveOcPath numbers ⟨raw, some root⟩ path =
        resolveJsoncInsertion numbers ⟨raw, some root⟩ info := by
      simp only [resolveOcPath, resolveWith, isPlain, insertion]
      rfl
    rw [resolves, resolveJsoncInsertion]
    rcases resolveJsoncOcPath_cases raw parentSplit with
      ⟨found, places, resolved, -, addresses⟩ | ⟨resolved, nowhere⟩
    · have isContainer : (∃ item, resolveJsoncInsertion.container (found.nodeIn root) = some item) ↔
          LeadsToContainer numbers root info := by
        rw [← Option.isSome_iff_exists, isSome_container]
        constructor
        · intro container
          exact ⟨places, _, addresses, Option.isSome_iff_ne_none.mp container⟩
        · rintro ⟨others, node, otherAddresses, container⟩
          obtain ⟨-, rfl⟩ := addresses.unique otherAddresses
          exact Option.isSome_iff_ne_none.mpr container
      refine Iff.trans ?_ isContainer
      rw [resolved]
      rcases found with _ | (_ | _) <;> simp [bind_eq_ok_iff] <;> rfl
    · rw [resolved]
      constructor
      · rintro ⟨item, impossible⟩
        cases impossible
      · rintro ⟨places, node, addresses, -⟩
        exact (nowhere places node addresses).elim

end Resolution

end Jsonc
