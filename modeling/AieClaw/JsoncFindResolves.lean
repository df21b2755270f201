import AieClaw.JsoncFindExact
import AieClaw.OcPathRoundTrip

/-!
# A path that was found resolves

The walker knows the places that it goes to, and the resolver finds children by
the spelling of sub-segments alone. The two agree if and only if no path that is
reported names another place, nor its text when it is read back.
-/

namespace Jsonc

open OcPathSyntax List

variable {numbers : NumberText}

section Rereading

variable {path : OcPath} {normalize : String → String}

/-- The path is written as a text that the parser reads back. -/
def Written (normalize : String → String) (path : OcPath) : Prop :=
  ∃ slots text, Formats path slots text ∧ normalize text = text ∧
    ReadableFile path.file ∧
    (∀ slot ∈ path.slots, ReadableSlot slot) ∧
    path.session ≠ some ""

variable {sub text : String}

theorem firstIs_quoted (text : String) (character : Char) :
    firstIs (quoted text) character = ('"' == character) := by
  simp [firstIs, toList_quoted]

theorem isPatternSub_quoted (text : String) : isPatternSub (quoted text) = false := by
  have different (other : String) (first : firstIs other '"' = false) : quoted text ≠ other := by
    rintro rfl
    rw [firstIs_quoted] at first
    cases first
  have notBrace : ('"' == '{') = false := by
    decide
  have notBracket : ('"' == '[') = false := by
    decide
  simp [isPatternSub, isUnionSeg, isPredicateSeg, firstIs_quoted, notBrace,
    notBracket, different wildcardSingle (by decide), different wildcardRecursive (by decide)]

theorem eq_or_quoted_of_rewritten (rewritten : Rewritten sub text) :
    text = sub ∨ text = quoted sub := by
  have formatted := rewritten.formatted
  rw [formatSubSegment_eq] at formatted
  split_ifs at formatted
  · exact .inl (Except.ok.inj formatted).symm
  · obtain ⟨-, -, rfl⟩ := (quoteSeg_eq_ok_iff rewritten.nonempty).mp formatted
    split_ifs
    · exact .inr rfl
    · exact .inl rfl

theorem isPatternSub_rewritten (rewritten : Rewritten sub text)
    (concrete : isPatternSub sub = false) : isPatternSub text = false := by
  rcases eq_or_quoted_of_rewritten rewritten with rfl | rfl
  · exact concrete
  · exact isPatternSub_quoted sub

theorem firstIs_rewritten (rewritten : Rewritten sub text)
    (notPlus : firstIs sub '+' = false) : firstIs text '+' = false := by
  rcases eq_or_quoted_of_rewritten rewritten with rfl | rfl
  · exact notPlus
  · rw [firstIs_quoted]
    decide

theorem detectInsertion_eq_none_iff : detectInsertion path = none ↔
      ∀ slot ∈ path.slots.getLast?, firstIs slot '+' = false := by
  unfold detectInsertion
  cases path.slots.getLast? with
  | none => simp
  | some last => cases isPlus : firstIs last '+' <;> simp [isPlus]

theorem firstIs_intercalate {first : String} (rest : List String) (nonempty : first ≠ "")
    (character : Char) : firstIs (".".intercalate (first :: rest)) character =
      firstIs first character := by
  have characters : first.toList ≠ [] := by
    intro empty
    exact nonempty (String.toList_inj.mp empty)
  obtain ⟨head, tail, shape⟩ := exists_cons_of_ne_nil characters
  cases rest with
  | nil => simp
  | cons second others => simp [firstIs, String.intercalate_cons_cons, shape]

theorem firstIs_slotText {slot : String} (written : SlotText slot text)
    (readable : ReadableSlot slot) (notPlus : firstIs slot '+' = false) :
    firstIs text '+' = false := by
  obtain ⟨subs, formatted, splits, textSplits, -, rewritten⟩ := splits_of_slotText written readable
  rw [splits.joined] at notPlus
  rw [textSplits.joined]
  cases rewritten with
  | nil => exact (splits.nonempty rfl).elim
  | @cons sub subText subs subTexts first others =>
    have isSub := firstIs_intercalate subs first.nonempty '+'
    have isText := firstIs_intercalate subTexts first.readable.valid.nonempty '+'
    exact isText.trans (firstIs_rewritten first (isSub.symm.trans notPlus))

theorem slotSegments_rewritten {slots texts subs : List String}
    (written : List.Forall₂ (fun slot text => ReadableSlot slot ∧ SlotText slot text) slots texts)
    (split : slotSegments slots = .ok subs) : ∃ others, slotSegments texts = .ok others ∧
      List.Forall₂ Rewritten subs others := by
  induction written generalizing subs with
  | nil =>
    obtain rfl := Except.ok.inj split
    exact ⟨[], rfl, .nil⟩
  | cons first others inductionHypothesis =>
    simp only [slotSegments, bind_eq_ok_iff] at split
    obtain ⟨pieces, isSplit, left, rested, joined⟩ := split
    obtain rfl := Except.ok.inj joined
    obtain ⟨readable, slotText⟩ := first
    obtain ⟨slotSubs, formatted, splits, textSplits, -, rewritten⟩ :=
      splits_of_slotText slotText readable
    have sameSplit := (splitRespectingBrackets_eq_ok_iff (by decide)).mp isSplit
    obtain rfl := sameSplit.unique (by decide) splits
    obtain ⟨leftTexts, leftSplit, leftRewritten⟩ := inductionHypothesis rested
    refine ⟨formatted ++ leftTexts, ?_, rel_append rewritten leftRewritten⟩
    simp only [slotSegments, bind_eq_ok_iff]
    exact ⟨formatted, (splitRespectingBrackets_eq_ok_iff (by decide)).mpr textSplits,
      leftTexts, leftSplit, rfl⟩

theorem slots_withSlots {slots : List String} (few : slots.length ≤ 3) :
    (path.withSlots slots).slots = slots := by
  rcases slots with _ | ⟨first, _ | ⟨second, _ | ⟨third, _ | ⟨fourth, rest⟩⟩⟩⟩
  · rfl
  · rfl
  · rfl
  · rfl
  · simp only [length_cons] at few
    omega

theorem exists_of_getLast? {α β : Type} {related : α → β → Prop} {first : List α}
    {second : List β} (each : List.Forall₂ related first second) {last : β}
    (isLast : last ∈ second.getLast?) : ∃ other ∈ first.getLast?, related other last := by
  induction each with
  | nil => cases isLast
  | cons head tail inductionHypothesis =>
    cases tail with
    | nil =>
      cases isLast
      exact ⟨_, rfl, head⟩
    | cons next others =>
      rw [getLast?_cons_cons] at isLast ⊢
      exact inductionHypothesis isLast

/-- The path that is read back has the same sub-segments up to quotes. -/
theorem exists_reparsed {subs : List String} (written : Written normalize path)
    (split : slotSegments path.slots = .ok subs) (concrete : ∀ sub ∈ subs, isPatternSub sub = false)
    (notInsertion : detectInsertion path = none) : ∃ text reparsed others,
      formatOcPath path = .ok text ∧
      parseOcPath normalize text = .ok reparsed ∧
      slotSegments reparsed.slots = .ok others ∧
      others.map unquoteSeg = subs.map unquoteSeg ∧
      (∀ other ∈ others, isPatternSub other = false) ∧
      detectInsertion reparsed = none := by
  obtain ⟨slots, text, formats, normal, readableFile, readable, session⟩ := written
  obtain ⟨parsed, -⟩ := parseOcPath_of_formats formats normal readableFile readable session
  have both :
      List.Forall₂ (fun slot text => ReadableSlot slot ∧ SlotText slot text) path.slots slots :=
    (forall₂_and_left _ _).mpr ⟨readable, formats.slotTexts⟩
  obtain ⟨others, otherSplit, rewritten⟩ := slotSegments_rewritten both split
  have few : slots.length ≤ 3 := by
    rw [← both.length_eq]
    exact formats.nested.length_slots
  refine ⟨text, path.withSlots slots, others,
    formatOcPath_eq_ok_iff.mpr ⟨slots, formats⟩, parsed, ?_, ?_, ?_, ?_⟩
  · rw [slots_withSlots few]
    exact otherSplit
  · rw [← forall₂_eq_eq_eq, forall₂_map_left_iff, forall₂_map_right_iff]
    exact (rewritten.imp fun sub text same => same.sameName).flip
  · intro other member
    obtain ⟨index, inside, rfl⟩ := mem_iff_getElem.mp member
    have insideSubs : index < subs.length := by
      rwa [rewritten.length_eq]
    exact isPatternSub_rewritten ((forall₂_iff_get.mp rewritten).2 index insideSubs inside)
      (concrete _ (getElem_mem insideSubs))
  · rw [detectInsertion_eq_none_iff, slots_withSlots few]
    rw [detectInsertion_eq_none_iff] at notInsertion
    intro slotText isLast
    obtain ⟨slot, wasLast, isReadable, slotWritten⟩ := exists_of_getLast? both isLast
    exact firstIs_slotText slotWritten isReadable (notInsertion slot wasLast)

end Rereading

section Agreement

variable {normalize : String → String} {raw : String} {root node : JsoncValue}
variable {path pattern : OcPath} {subs : List SlotSub} {places : List ℕ}

/-- So does the path that is read back from its text. -/
structure Recovers (numbers : NumberText) (normalize : String → String)
    (raw : String) (root : JsoncValue) (path : OcPath) (places : List ℕ) : Prop where
  resolves : Resolves numbers raw root path places
  rereads :
    ∃ text reparsed, formatOcPath path = .ok text ∧
      parseOcPath normalize text = .ok reparsed ∧
      Resolves numbers raw root reparsed places

/--
Find and resolve agree: the search returns wherever the walk does, and each
path that it emits leads to the node the walker matched, also after it was
written as a text.
-/
structure FindAgrees (numbers : NumberText) (normalize : String → String)
    (raw : String) (root : JsoncValue) (pattern : OcPath) (subs : List SlotSub) : Prop where
  returns :
    ∀ paths, walkJsonc numbers root subs [] = .ok paths →
      ∃ found, findOcPaths numbers ⟨raw, some root⟩ pattern = .ok found
  matched :
    subs.any needsExpansion = true →
      ∀ found, findOcPaths numbers ⟨raw, some root⟩ pattern = .ok found →
        ∀ item ∈ found, ∃ choices hops, Reads numbers subs root choices hops ∧ Kept choices ∧
          item.path = writtenPath pattern hops
  recovers :
    subs.any needsExpansion = true →
      ∀ found, findOcPaths numbers ⟨raw, some root⟩ pattern = .ok found →
        ∀ item ∈ found, ∀ choices hops,
          Reads numbers subs root choices hops → Kept choices →
          item.path = writtenPath pattern hops →
            Recovers numbers normalize raw root item.path (hops.map Hop.place)
  /-- A path that needs no expansion is emitted as it stands. -/
  literal :
    subs.any needsExpansion = false → detectInsertion pattern = none →
      ∀ found, findOcPaths numbers ⟨raw, some root⟩ pattern = .ok found →
        ∀ item ∈ found, item.path = pattern ∧
          ∃ places, Recovers numbers normalize raw root pattern places

/-- The path is concrete and no insertion, and its sub-segments name the places. -/
structure IsAddress (numbers : NumberText) (root : JsoncValue) (path : OcPath)
    (places : List ℕ) : Prop where
  concrete : Concrete path
  notInsertion : detectInsertion path = none
  addresses : ∃ node, Addresses numbers root path places node

/-- The text of the path, in normal form, is that of an address of the places again. -/
def Rereads (numbers : NumberText) (normalize : String → String) (root : JsoncValue)
    (path : OcPath) (places : List ℕ) : Prop :=
  ∃ slots text segments mark reparsed, Formats path slots text ∧
    IsText (normalize text) segments mark ∧ IsPath segments mark reparsed ∧
    IsAddress numbers root reparsed places

/-- The path that is written for the places cannot be taken for anything else. -/
structure Unmistakable (numbers : NumberText) (normalize : String → String)
    (root : JsoncValue) (path : OcPath) (places : List ℕ) : Prop where
  concrete : Concrete path
  noContainer : ∀ info, detectInsertion path = some info → ¬ LeadsToContainer numbers root info
  onlyPlaces :
    detectInsertion path = none → ∀ others node, Addresses numbers root path others node →
      others = places ∧ Rereads numbers normalize root path places

/-- What a walk can write, or a pattern that is read as it stands, is unmistakable. -/
structure Recoverable (numbers : NumberText) (normalize : String → String)
    (root : JsoncValue) (pattern : OcPath) (subs : List SlotSub) : Prop where
  expanded :
    subs.any needsExpansion = true → Clear numbers root subs 0 →
      ∀ choices hops, Reads numbers subs root choices hops → Kept choices →
        Unmistakable numbers normalize root (writtenPath pattern hops) (hops.map Hop.place)
  literal :
    subs.any needsExpansion = false → detectInsertion pattern = none →
      ∀ places node, Addresses numbers root pattern places node →
        Rereads numbers normalize root pattern places

theorem resolves_iff (raw : String) :
    Resolves numbers raw root path places ↔ IsAddress numbers root path places := by
  constructor
  · rintro ⟨⟨item, resolved⟩, notInsertion, found, isFound, goes⟩
    have concrete : Concrete path := (exists_resolveOcPath_iff numbers raw root).mp ⟨_, resolved⟩
    have ⟨pieces, split, _⟩ := concrete
    refine ⟨concrete, notInsertion, ?_⟩
    rcases resolveJsoncOcPath_cases raw split with
      ⟨other, others, isOther, otherGoes, addresses⟩ | ⟨missing, -⟩
    · rw [isFound] at isOther
      cases isOther
      obtain rfl := Option.some.inj (goes.taken.symm.trans otherGoes.taken)
      exact ⟨_, addresses⟩
    · rw [isFound] at missing
      cases missing
  · rintro ⟨concrete, notInsertion, node, addresses⟩
    have resolves := exists_item_iff numbers raw root concrete
    rw [notInsertion] at resolves
    refine ⟨resolves.mpr ⟨places, node, addresses⟩, notInsertion, ?_⟩
    obtain ⟨pieces, split, -⟩ := concrete
    rcases resolveJsoncOcPath_cases raw split with
      ⟨found, others, isFound, goes, otherAddresses⟩ | ⟨-, nowhere⟩
    · obtain ⟨rfl, -⟩ := addresses.unique otherAddresses
      exact ⟨found, isFound, goes⟩
    · exact (nowhere places node addresses).elim

theorem recovers_iff (raw : String) : Recovers numbers normalize raw root path places ↔
    IsAddress numbers root path places ∧ Rereads numbers normalize root path places := by
  constructor
  · rintro ⟨resolves, text, reparsed, formatted, parsed, again⟩
    refine ⟨(resolves_iff raw).mp resolves, ?_⟩
    obtain ⟨slots, formats⟩ := formatOcPath_eq_ok_iff.mp formatted
    obtain ⟨-, segments, mark, isText, isPath⟩ := parseOcPath_eq_ok_iff.mp parsed
    rw [formats.withoutBom] at isText
    exact ⟨slots, text, segments, mark, reparsed, formats, isText, isPath,
      (resolves_iff raw).mp again⟩
  · rintro ⟨isAddress, slots, text, segments, mark, reparsed, formats, isText, isPath, again⟩
    refine ⟨(resolves_iff raw).mpr isAddress, text, reparsed, ?_, ?_, (resolves_iff raw).mpr again⟩
    · exact formatOcPath_eq_ok_iff.mpr ⟨slots, formats⟩
    · refine parseOcPath_eq_ok_iff.mpr ⟨formats.short, segments, mark, ?_, isPath⟩
      rw [formats.withoutBom]
      exact isText

/-- What was resolved recovers exactly where it is unmistakable. -/
theorem recovers_of_unmistakable {item : OcMatch}
    (unmistakable : Unmistakable numbers normalize root path places)
    (resolved : resolveOcPath numbers ⟨raw, some root⟩ path = .ok (some item)) :
    Recovers numbers normalize raw root path places := by
  have resolves := (exists_item_iff numbers raw root unmistakable.concrete).mp ⟨item, resolved⟩
  cases insertion : detectInsertion path with
  | some info =>
    rw [insertion] at resolves
    exact (unmistakable.noContainer info insertion resolves).elim
  | none =>
    rw [insertion] at resolves
    obtain ⟨others, node, addresses⟩ := resolves
    obtain ⟨rfl, rereads⟩ := unmistakable.onlyPlaces insertion others node addresses
    exact (recovers_iff raw).mpr ⟨⟨unmistakable.concrete, insertion, node, addresses⟩, rereads⟩

theorem unmistakable_of_recovers (raw : String) (concrete : Concrete path)
    (recovers : ∀ item, resolveOcPath numbers ⟨raw, some root⟩ path = .ok (some item) →
      Recovers numbers normalize raw root path places) :
    Unmistakable numbers normalize root path places where
  concrete := concrete
  noContainer := by
    intro info insertion container
    have resolves := exists_item_iff numbers raw root concrete
    rw [insertion] at resolves
    obtain ⟨item, resolved⟩ := resolves.mpr container
    have notInsertion := (recovers item resolved).resolves.notInsertion
    rw [insertion] at notInsertion
    cases notInsertion
  onlyPlaces := by
    intro notInsertion others node addresses
    have resolves := exists_item_iff numbers raw root concrete
    rw [notInsertion] at resolves
    obtain ⟨item, resolved⟩ := resolves.mpr ⟨others, node, addresses⟩
    obtain ⟨isAddress, rereads⟩ := (recovers_iff raw).mp (recovers item resolved)
    obtain ⟨finish, leads⟩ := isAddress.addresses
    exact ⟨(addresses.unique leads).1, rereads⟩

end Agreement

section Spelling

variable {normalize : String → String} {root node finish : JsoncValue} {path : OcPath}
variable {pieces others : List String} {places : List ℕ}

theorem unquoteSeg_quoteSeg {name text : String} (written : quoteSeg name = .ok text) :
    unquoteSeg text = name := by
  by_cases empty : name = ""
  · subst empty
    obtain rfl := Except.ok.inj written
    decide
  · obtain ⟨noQuote, -, rfl⟩ := (quoteSeg_eq_ok_iff empty).mp written
    split_ifs
    · exact unquoteSeg_quoted name
    · rw [unquoteSeg, isQuotedSeg_of_not_mem noQuote]
      rfl

/-- What the walker writes for a member is its key, up to quotes. -/
theorem entry_of_goes {entries : List (JsoncEntry JsoncValue)} {line : Option ℕ} {seg : String}
    {passage : Passage} (goes : Goes numbers (.object entries line) seg passage) :
    ∃ entry, entries[passage.place]? = some entry ∧ entry.value = passage.child ∧
      entry.key = unquoteSeg passage.text := by
  have ofListed {passes : JsoncValue → Bool}
      (member : (passage.place, passage.visit) ∈ listed (.object entries line) passes) :
      ∃ entry, entries[passage.place]? = some entry ∧ entry.value = passage.child ∧
        entry.key = unquoteSeg passage.text := by
    obtain ⟨⟨⟨step, child⟩, place⟩, inChildren, same⟩ := mem_map.mp member
    obtain ⟨rfl, isVisit⟩ := Prod.mk.inj same
    obtain ⟨isText, rfl⟩ := Visit.mk.inj isVisit
    have atPlace := mem_zipIdx_iff_getElem?.mp (mem_of_mem_filter inChildren)
    simp only [JsoncValue.children, getElem?_map, Option.map_eq_some_iff, Prod.mk.injEq] at atPlace
    obtain ⟨entry, isEntry, rfl, isValue⟩ := atPlace
    exact ⟨entry, isEntry, isValue, (unquoteSeg_quoteSeg isText).symm⟩
  have ofNamed {name : String}
      (member : (passage.place, passage.visit) ∈ named numbers (.object entries line) name) :
      ∃ entry, entries[passage.place]? = some entry ∧ entry.value = passage.child ∧
        entry.key = unquoteSeg passage.text := by
    obtain ⟨place, found, atPlace⟩ := Option.bind_eq_some_iff.mp member
    obtain ⟨⟨step, child⟩, isChild, same⟩ := Option.map_eq_some_iff.mp atPlace
    obtain ⟨rfl, isVisit⟩ := Prod.mk.inj same
    obtain ⟨isText, rfl⟩ := Visit.mk.inj isVisit
    obtain ⟨entry, isEntry, isKey, -⟩ := findIdx?_eq_some_iff_take.mp found
    simp only [JsoncValue.children, getElem?_map, isEntry, Option.map_some, Option.some.injEq,
      Prod.mk.injEq] at isChild
    obtain rfl := Except.ok.inj isText
    exact ⟨entry, isEntry, isChild.2, of_decide_eq_true isKey⟩
  rw [goes_iff, placedDescents] at goes
  cases kind : segKind seg with
  | union | malformed =>
    rw [kind] at goes
    cases goes
  | predicate | single | recursive =>
    rw [kind] at goes
    exact ofListed goes
  | literal =>
    rw [kind] at goes
    exact ofNamed (Option.mem_toList.mp goes)
  | positional =>
    rw [kind] at goes
    obtain ⟨name, -, found⟩ := Option.bind_eq_some_iff.mp (Option.mem_toList.mp goes)
    exact ofNamed found

/--
The written sub-segment names the member it was written for if and only if the member is the
first with its key, and the key is neither empty nor a positional token for another member.
-/
theorem names_passage_iff {entries : List (JsoncEntry JsoncValue)} {line : Option ℕ} {seg : String}
    {passage : Passage} (goes : Goes numbers (.object entries line) seg passage) :
    Names numbers (.object entries line) passage.text passage.place ↔
      ∃ entry, entries[passage.place]? = some entry ∧ entry.key ≠ "" ∧
        (∀ earlier ∈ entries.take passage.place, earlier.key ≠ entry.key) ∧
        (entry.key = posFirst → passage.place = 0) ∧
        (entry.key = posLast → ∃ last, entries.getLast? = some last ∧ last.key = posLast) := by
  obtain ⟨entry, atPlace, -, isKey⟩ := entry_of_goes goes
  constructor
  · intro names
    have same {other : JsoncEntry JsoncValue} (isOther : entries[passage.place]? = some other) :
        other = entry :=
      Option.some.inj (isOther.symm.trans atPlace)
    refine ⟨entry, atPlace, ?_⟩
    generalize passage.text = text at names isKey
    generalize passage.place = place at names atPlace same
    cases names with
    | key nonempty noToken isPlace _ isFirst =>
      obtain rfl := same isPlace
      rw [← isKey] at nonempty noToken
      simp only [isPositionalSeg, Bool.or_eq_false_iff, decide_eq_false_iff_not] at noToken
      exact ⟨nonempty, isFirst, fun token => (noToken.1 token).elim,
        fun token => (noToken.2 token).elim⟩
    | first token isPlace =>
      rw [← isKey] at token
      rw [token]
      exact ⟨posFirst_ne_empty, by simp, fun _ => rfl, fun other => absurd other (by decide)⟩
    | last token isLast isPlace sameKey isFirst =>
      obtain rfl := same isPlace
      rw [← isKey] at token
      refine ⟨token ▸ posLast_ne_empty, isFirst, fun other => ?_, fun _ => ?_⟩
      · exact absurd (token.symm.trans other) (by decide)
      · exact ⟨_, isLast, sameKey.symm.trans token⟩
  · rintro ⟨other, isOther, nonempty, isFirst, atFirst, atLast⟩
    obtain rfl := Option.some.inj (isOther.symm.trans atPlace)
    cases isToken : isPositionalSeg (unquoteSeg passage.text) with
    | false => exact .key (isKey ▸ nonempty) isToken atPlace isKey isFirst
    | true =>
      have token : other.key = posFirst ∨ other.key = posLast := by
        simpa [isPositionalSeg, ← isKey] using isToken
      rcases token with token | token
      · have front := atFirst token
        rw [front] at atPlace ⊢
        exact .first (isKey ▸ token) atPlace
      · obtain ⟨last, isLast, lastKey⟩ := atLast token
        exact .last (isKey ▸ token) isLast atPlace (token.trans lastKey.symm) isFirst

theorem names_congr {text other : String} (same : unquoteSeg other = unquoteSeg text)
    {place : ℕ} (names : Names numbers node text place) : Names numbers node other place := by
  rw [names_iff, same]
  exact names_iff.mp names

theorem leads_congr (same : others.map unquoteSeg = pieces.map unquoteSeg)
    (leads : Leads numbers node pieces places finish) :
    Leads numbers node others places finish := by
  induction leads generalizing others with
  | here =>
    obtain rfl := map_eq_nil_iff.mp same
    exact .here
  | onward named isChild rest inductionHypothesis =>
    obtain ⟨other, others, rfl, sameText, sameRest⟩ := map_eq_cons_iff.mp same
    exact .onward (names_congr sameText named) isChild (inductionHypothesis sameRest)

/-- An address whose parts the parser reads is read back as an address of the same places. -/
theorem rereads_of_written (written : Written normalize path)
    (isAddress : IsAddress numbers root path places) :
    Rereads numbers normalize root path places := by
  obtain ⟨⟨pieces, split, concrete⟩, notInsertion, node, otherPieces, otherSplit, leads⟩ :=
    isAddress
  rw [split] at otherSplit
  obtain rfl := Except.ok.inj otherSplit
  obtain ⟨text, reparsed, others, formatted, parsed, reparsedSplit, same,
      othersConcrete, stillNotInsertion⟩ :=
    exists_reparsed written split concrete notInsertion
  obtain ⟨slots, formats⟩ := formatOcPath_eq_ok_iff.mp formatted
  obtain ⟨-, segments, mark, isText, isPath⟩ := parseOcPath_eq_ok_iff.mp parsed
  rw [formats.withoutBom] at isText
  exact ⟨slots, text, segments, mark, reparsed, formats, isText, isPath,
    ⟨others, reparsedSplit, othersConcrete⟩, stillNotInsertion,
    node, others, reparsedSplit, leads_congr same leads⟩

end Spelling

section Instances

/-- An object with a key that is spelt like a positional token. -/
def tokenMember : JsoncValue :=
  .object
    [⟨"$last", .boolean true (some 1), 1⟩, ⟨"b", .boolean true (some 1), 1⟩]
    (some 1)

theorem written_onlyMember : Written id onlyMember := by
  have formatted : formatOcPath onlyMember = .ok "oc://f/b" := by
    decide +kernel
  obtain ⟨slots, formats⟩ := formatOcPath_eq_ok_iff.mp formatted
  refine ⟨slots, "oc://f/b", formats, rfl, ?_, ?_, ?_⟩
  · intro _
    decide +kernel
  · intro slot member
    obtain rfl := mem_singleton.mp member
    intro subs splits
    have alone : Splits '.' "b" ["b"] :=
      (splitRespectingBrackets_eq_ok_iff (by decide)).mp
        (by decide +kernel : splitRespectingBrackets "b" '.' "b" = .ok ["b"])
    obtain rfl := splits.unique (by decide) alone
    refine ⟨by decide, ?_⟩
    rw [forall_mem_singleton]
    intro verbatim
    exact absurd verbatim (by decide +kernel)
  · decide

theorem leads_onlyMember :
    Leads decimalNumbers singleMember ["b"] [0] (.string "x" (some 1)) :=
  .onward (.key (by decide) (by decide) rfl (by decide) (by simp)) rfl .here

theorem recoverable_everyMember : Recoverable decimalNumbers id singleMember everyMember
      [⟨.section, "*"⟩] where
  expanded := by
    intro _ _ choices hops reads _
    obtain ⟨rfl, rfl⟩ := reads_everyMember_iff.mp reads
    change Unmistakable decimalNumbers id singleMember onlyMember [0]
    have split : slotSegments onlyMember.slots = .ok ["b"] := by
      decide +kernel
    have concrete : Concrete onlyMember := ⟨["b"], split, by decide +kernel⟩
    have notInsertion : detectInsertion onlyMember = none := by
      decide +kernel
    have addresses : Addresses decimalNumbers singleMember onlyMember [0]
        (.string "x" (some 1)) :=
      ⟨["b"], split, leads_onlyMember⟩
    refine ⟨concrete, ?_, ?_⟩
    · intro info insertion
      rw [notInsertion] at insertion
      cases insertion
    · intro _ others node otherAddresses
      exact ⟨(otherAddresses.unique addresses).1,
        rereads_of_written written_onlyMember ⟨concrete, notInsertion, _, addresses⟩⟩
  literal := by
    intro noExpansion
    exact absurd noExpansion (by decide +kernel)

end Instances

end Jsonc
