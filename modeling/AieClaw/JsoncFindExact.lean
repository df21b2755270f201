import AieClaw.JsoncPlaces
import Mathlib.Data.List.Pairwise

/-!
# Finding exactly the matching paths

The search resolves the path of each reading that the walker reports and returns
those that resolve. It returns the matching trails, each of them once, if and only
if the walk is clear, no path that it writes denotes another trail, and each
matching trail is denoted by the path of exactly one reading, reported once.
-/

namespace Jsonc

open OcPathSyntax List

variable {numbers : NumberText}

section Correspondence

variable {α β γ : Type} {denotes : β → γ → Prop} {items : List β} {trails : List γ}

theorem exists_forall₂ (each : ∀ item ∈ items, ∃ trail, denotes item trail) :
    ∃ trails, List.Forall₂ denotes items trails := by
  induction items with
  | nil => exact ⟨[], .nil⟩
  | cons item rest inductionHypothesis =>
    obtain ⟨⟨trail, isTrail⟩, others⟩ := forall_mem_cons.mp each
    obtain ⟨trails, related⟩ := inductionHypothesis others
    exact ⟨trail :: trails, .cons isTrail related⟩

theorem exists_related (related : List.Forall₂ denotes items trails) {item : β}
    (member : item ∈ items) : ∃ trail ∈ trails, denotes item trail := by
  induction related with
  | nil => cases member
  | cons head tail inductionHypothesis =>
    rcases mem_cons.mp member with rfl | inRest
    · exact ⟨_, .head _, head⟩
    · obtain ⟨trail, inTrails, isTrail⟩ := inductionHypothesis inRest
      exact ⟨trail, .tail _ inTrails, isTrail⟩

theorem pairwise_of_forall₂ {before : β → β → Prop} {after : γ → γ → Prop}
    (related : List.Forall₂ denotes items trails)
    (carries : ∀ {item other trail otherTrail}, denotes item trail → denotes other otherTrail →
        before item other → after trail otherTrail)
    (pairwise : items.Pairwise before) : trails.Pairwise after := by
  induction related with
  | nil => exact .nil
  | cons head tail inductionHypothesis =>
    obtain ⟨first, others⟩ := pairwise_cons.mp pairwise
    refine pairwise_cons.mpr ⟨?_, inductionHypothesis others⟩
    intro otherTrail member
    obtain ⟨other, inRest, isOther⟩ := exists_related tail.flip member
    exact carries head isOther (first other inRest)

/--
What the reports emit denotes the accepted trails, each of them once, if and only if it
denotes accepted trails alone, and each of these by exactly one report.
-/
theorem exists_trails_iff {reports : List α} {emits : α → Option β} {accepted : γ → Prop}
    (distinct : reports.Nodup) (unique : Relator.RightUnique denotes) :
    (∃ trails, List.Forall₂ denotes (reports.filterMap emits) trails ∧ trails.Nodup ∧
        ∀ trail, trail ∈ trails ↔ accepted trail) ↔
      (∀ report ∈ reports, ∀ item ∈ emits report, ∃ trail, denotes item trail ∧ accepted trail) ∧
        ∀ trail, accepted trail →
          ∃! report, report ∈ reports ∧ ∃ item ∈ emits report, denotes item trail := by
  constructor
  · rintro ⟨trails, related, once, covers⟩
    constructor
    · intro report member item emitted
      obtain ⟨trail, inTrails, isTrail⟩ :=
        exists_related related (mem_filterMap.mpr ⟨report, member, emitted⟩)
      exact ⟨trail, isTrail, (covers trail).mp inTrails⟩
    · intro trail isAccepted
      obtain ⟨item, inItems, isTrail⟩ := exists_related related.flip ((covers trail).mpr isAccepted)
      obtain ⟨report, member, emitted⟩ := mem_filterMap.mp inItems
      refine ⟨report, ⟨member, item, emitted, isTrail⟩, ?_⟩
      rintro other ⟨isOther, otherItem, otherEmitted, otherTrail⟩
      by_contra different
      have apart : (reports.filterMap emits).Pairwise fun first second =>
          ∀ trail, denotes first trail → ¬ denotes second trail := by
        refine pairwise_of_forall₂ related.flip ?_ once
        intro first second firstItem secondItem isFirst isSecond different trail atFirst atSecond
        rw [unique isFirst atFirst, unique isSecond atSecond] at different
        exact different rfl
      rw [pairwise_filterMap] at apart
      have symmetric : Std.Symm fun first second : α => ∀ item, emits first = some item →
          ∀ other, emits second = some other →
            ∀ trail, denotes item trail → ¬ denotes other trail :=
        ⟨fun first second disjoint item isItem other isOther trail atItem atOther =>
          disjoint other isOther item isItem trail atOther atItem⟩
      exact apart.forall member isOther (Ne.symm different)
        item emitted otherItem otherEmitted trail isTrail otherTrail
  · rintro ⟨sound, once⟩
    have each : ∀ item ∈ reports.filterMap emits, ∃ trail, denotes item trail ∧ accepted trail := by
      intro item member
      obtain ⟨report, inReports, emitted⟩ := mem_filterMap.mp member
      exact sound report inReports item emitted
    obtain ⟨trails, relatedAll⟩ := exists_forall₂ each
    have related : List.Forall₂ denotes (reports.filterMap emits) trails :=
      relatedAll.imp fun _ _ isTrail => isTrail.1
    refine ⟨trails, related, ?_, fun trail => ⟨?_, ?_⟩⟩
    · have apart : (reports.filterMap emits).Pairwise fun first second =>
          ∀ trail, accepted trail → denotes first trail → ¬ denotes second trail := by
        rw [pairwise_filterMap]
        refine distinct.imp_of_mem ?_
        intro first second isFirst isSecond different item isItem other isOther
          trail isAccepted atItem atOther
        exact different ((once trail isAccepted).unique ⟨isFirst, item, isItem, atItem⟩
          ⟨isSecond, other, isOther, atOther⟩)
      refine pairwise_of_forall₂ relatedAll ?_ apart
      rintro item other trail otherTrail ⟨atItem, isAccepted⟩ ⟨atOther, -⟩ disjoint rfl
      exact disjoint trail isAccepted atItem atOther
    · intro inTrails
      obtain ⟨item, -, -, isAccepted⟩ := exists_related relatedAll.flip inTrails
      exact isAccepted
    · intro isAccepted
      obtain ⟨report, ⟨member, item, emitted, isTrail⟩, -⟩ := once trail isAccepted
      obtain ⟨other, inTrails, isOther⟩ :=
        exists_related related (mem_filterMap.mpr ⟨report, member, emitted⟩)
      rwa [unique isTrail isOther]

end Correspondence

/-- The path is no insertion, and the resolver reads it along the trail. -/
structure Denotes (numbers : NumberText) (root : JsoncValue) (path : OcPath)
    (steps : List Step) : Prop where
  notInsertion : detectInsertion path = none
  readsBack :
    ∃ texts, slotSegments path.slots = .ok texts ∧ readTrail numbers root texts = some steps

theorem Denotes.unique {root : JsoncValue} {path : OcPath} {first second : List Step}
    (isFirst : Denotes numbers root path first) (isSecond : Denotes numbers root path second) :
    first = second := by
  obtain ⟨texts, split, read⟩ := isFirst.readsBack
  obtain ⟨others, otherSplit, otherRead⟩ := isSecond.readsBack
  rw [split] at otherSplit
  obtain rfl := Except.ok.inj otherSplit
  rw [read] at otherRead
  exact Option.some.inj otherRead

/-- The search returns the matching trails of the tree, each of them once. -/
def FindsExactly (numbers : NumberText) (raw : String) (root : JsoncValue)
    (pattern : OcPath) (subs : List SlotSub) : Prop :=
  ∃ found trails,
    findOcPaths numbers ⟨raw, some root⟩ pattern = .ok found ∧
      List.Forall₂ (fun item steps => Denotes numbers root item.path steps) found trails ∧
      trails.Nodup ∧
      ∀ steps, steps ∈ trails ↔ Matches numbers subs root steps

section Conditions

variable (numbers : NumberText) (root : JsoncValue) (pattern : OcPath) (subs : List SlotSub)

/-- The path that is written for the hops. -/
def writtenPath (hops : List Hop) : OcPath := repackSlotSubs pattern (hops.map Hop.written)

/-- The path denotes no trail that does not match, and inserts into no container. -/
structure DenotesMatch (path : OcPath) : Prop where
  notInserted : ∀ info, detectInsertion path = some info → ¬ LeadsToContainer numbers root info
  matching : ∀ steps, Denotes numbers root path steps → Matches numbers subs root steps

/--
One reading alone, among those in which each recursive wildcard before the end takes a step,
has a path that denotes the trail, and a recursive wildcard at its end takes none.
-/
def ReadOnce (steps : List Step) : Prop :=
  ∃ choices hops, Reads numbers subs root choices hops ∧ Kept choices ∧
    Denotes numbers root (writtenPath pattern hops) steps ∧ ¬ ClosingTakes choices ∧
    ∀ otherChoices otherHops, Reads numbers subs root otherChoices otherHops →
      Kept otherChoices → Denotes numbers root (writtenPath pattern otherHops) steps →
        otherChoices = choices ∧ otherHops = hops

/-- The pattern is expanded without a loss, a repetition or a misreading. -/
structure ExpandsExactly : Prop where
  clear : Clear numbers root subs 0
  concrete :
    ∀ choices hops, Reads numbers subs root choices hops → Kept choices →
      Concrete (writtenPath pattern hops)
  sound :
    ∀ choices hops, Reads numbers subs root choices hops → Kept choices →
      DenotesMatch numbers root subs (writtenPath pattern hops)
  once :
    ∀ steps, Matches numbers subs root steps → ReadOnce numbers root pattern subs steps

/-- The pattern is read as it stands along the trail that matches it. -/
structure StandsExactly : Prop where
  sound : DenotesMatch numbers root subs pattern
  complete : ∀ steps, Matches numbers subs root steps → Denotes numbers root pattern steps

end Conditions

variable {raw : String} {root : JsoncValue} {pattern path : OcPath}
variable {subs : List SlotSub} {choices : List Choice} {hops : List Hop}

/-- A concrete path that inserts nothing resolves where it denotes a trail. -/
theorem resolves_iff_denotes (raw : String) (concrete : Concrete path)
    (notInsertion : detectInsertion path = none) :
    (∃ item, resolveOcPath numbers ⟨raw, some root⟩ path = .ok (some item)) ↔
      ∃ steps, Denotes numbers root path steps := by
  obtain ⟨texts, split, noPattern⟩ := concrete
  obtain ⟨found, returned, isFound⟩ :=
    isSome_of_resolveOcPath numbers raw root split noPattern notInsertion
  constructor
  · rintro ⟨item, resolved⟩
    cases resolved.symm.trans returned
    obtain ⟨steps, read⟩ := Option.isSome_iff_exists.mp isFound.symm
    exact ⟨steps, notInsertion, texts, split, read⟩
  · rintro ⟨steps, -, others, otherSplit, read⟩
    obtain rfl := Except.ok.inj (split.symm.trans otherSplit)
    rw [read] at isFound
    obtain ⟨item, rfl⟩ := Option.isSome_iff_exists.mp isFound
    exact ⟨item, returned⟩

section Emitting

/-- What the search returns for a path that is resolved. -/
def emitted? (numbers : NumberText) (ast : JsoncAst) (path : OcPath) : Option OcPathMatch :=
  match resolveOcPath numbers ast path with
  | .ok (some found) => some ⟨path, found⟩
  | _ => none

theorem emitted?_eq_some_iff {ast : JsoncAst} {item : OcPathMatch} :
    emitted? numbers ast path = some item ↔
      item.path = path ∧ resolveOcPath numbers ast path = .ok (some item.found) := by
  obtain ⟨itemPath, found⟩ := item
  unfold emitted?
  rcases resolveOcPath numbers ast path with failure | _ | other
  · simp
  · simp
  · simp [eq_comm (a := itemPath)]

theorem resolveAll_eq_ok_iff {ast : JsoncAst} {paths : List OcPath} {found : List OcPathMatch} :
    resolveAll numbers ast paths = .ok found ↔
      (∀ path ∈ paths, ∃ item, resolveOcPath numbers ast path = .ok item) ∧
        found = paths.filterMap (emitted? numbers ast) := by
  induction paths generalizing found with
  | nil => simp [resolveAll, eq_comm]
  | cons path rest inductionHypothesis =>
    simp only [resolveAll, bind_eq_ok_iff, inductionHypothesis, forall_mem_cons]
    have emits {item : Option OcMatch} (resolved : resolveOcPath numbers ast path = .ok item) :
        (path :: rest).filterMap (emitted? numbers ast) =
          (item.map (OcPathMatch.mk path)).toList ++ rest.filterMap (emitted? numbers ast) := by
      rw [filterMap_cons, emitted?, resolved]
      cases item <;> rfl
    constructor
    · rintro ⟨item, resolved, others, ⟨each, rfl⟩, joined⟩
      refine ⟨⟨⟨item, resolved⟩, each⟩, ?_⟩
      rw [emits resolved]
      exact (Except.ok.inj joined).symm
    · rintro ⟨⟨⟨item, resolved⟩, each⟩, rfl⟩
      exact ⟨item, resolved, _, ⟨each, rfl⟩, by rw [emits resolved]⟩

theorem findOcPaths_expanded (parsed : patternSubs pattern = .ok subs)
    (expansion : subs.any needsExpansion = true) {found : List OcPathMatch} :
    findOcPaths numbers ⟨raw, some root⟩ pattern = .ok found ↔
      ∃ paths, walkJsonc numbers root subs [] = .ok paths ∧
        resolveAll numbers ⟨raw, some root⟩ (paths.map (repackSlotSubs pattern)) = .ok found := by
  have unfolded : findOcPaths numbers ⟨raw, some root⟩ pattern =
        (walkJsonc numbers root subs []).bind fun paths => resolveAll numbers ⟨raw, some root⟩
            (paths.map (repackSlotSubs pattern)) := by
    simp only [findOcPaths, parsed]
    change (if subs.any needsExpansion = true then _ else _) = _
    rw [if_pos expansion]
    rfl
  rw [unfolded]
  exact bind_eq_ok_iff

theorem findOcPaths_literal (parsed : patternSubs pattern = .ok subs)
    (noExpansion : subs.any needsExpansion = false) : findOcPaths numbers ⟨raw, some root⟩ pattern =
      resolveAll numbers ⟨raw, some root⟩ [pattern] := by
  simp only [findOcPaths, parsed]
  change (if subs.any needsExpansion = true then _ else _) = _
  rw [noExpansion]
  rfl

theorem isPatternSub_of_literal {sub : SlotSub} (plain : needsExpansion sub = false) :
    isPatternSub sub.value = false := by
  simp only [needsExpansion, isPatternSub, Bool.or_eq_false_iff] at plain ⊢
  exact ⟨⟨plain.1.1.1, plain.1.2⟩, plain.2⟩

theorem literal_split (parsed : patternSubs pattern = .ok subs)
    (noExpansion : subs.any needsExpansion = false) :
    slotSegments pattern.slots = .ok (subs.map SlotSub.value) ∧
      ∀ text ∈ subs.map SlotSub.value, isPatternSub text = false := by
  have isParsed := parsed_of_patternSubs parsed
  constructor
  · rw [← isParsed.repack]
    exact slotSegments_repack isParsed.ordered isParsed.whole
  · intro text member
    obtain ⟨sub, inSubs, rfl⟩ := mem_map.mp member
    have plain : needsExpansion sub = false := by
      simpa using any_eq_false.mp noExpansion sub inSubs
    exact isPatternSub_of_literal plain

theorem concrete_of_literal (parsed : patternSubs pattern = .ok subs)
    (noExpansion : subs.any needsExpansion = false) : Concrete pattern :=
  ⟨_, literal_split parsed noExpansion⟩

end Emitting

section Walking

/-- What holds of the hops of every report holds of those of every kept reading. -/
theorem Walked.forall_iff {reports : List Report} (walked : Walked numbers root subs [] reports)
    (accepted : List Hop → Prop) : (∀ report ∈ reports, accepted report.hops) ↔
      ∀ choices hops, Reads numbers subs root choices hops → Kept choices → accepted hops := by
  constructor
  · intro each choices hops reads kept
    exact each ⟨choices, false, hops⟩ ((walked.complete _).mpr ⟨reads, kept, by simp⟩)
  · intro each report member
    have isFor := (walked.complete report).mp member
    exact each _ _ isFor.reads isFor.kept

theorem clear_of_findOcPaths (parsed : patternSubs pattern = .ok subs)
    (expansion : subs.any needsExpansion = true) {found : List OcPathMatch}
    (returned : findOcPaths numbers ⟨raw, some root⟩ pattern = .ok found) :
    Clear numbers root subs 0 := by
  obtain ⟨paths, isWalk, -⟩ := (findOcPaths_expanded parsed expansion).mp returned
  exact exists_walkJsonc_iff.mp ⟨paths, isWalk⟩

/-- After a clear walk the search returns if the paths of all reports are concrete. -/
theorem findOcPaths_walked (raw : String) (parsed : patternSubs pattern = .ok subs)
    (expansion : subs.any needsExpansion = true) {reports : List Report}
    (walked : Walked numbers root subs [] reports) {found : List OcPathMatch} :
    findOcPaths numbers ⟨raw, some root⟩ pattern = .ok found ↔
      (∀ choices hops, Reads numbers subs root choices hops → Kept choices →
          Concrete (writtenPath pattern hops)) ∧
        found = reports.filterMap fun report =>
          emitted? numbers ⟨raw, some root⟩ (writtenPath pattern report.hops) := by
  have paths : (reports.map (Report.path [])).map (repackSlotSubs pattern) =
      reports.map fun report => writtenPath pattern report.hops := by
    rw [map_map]
    rfl
  have allConcrete : (∀ path ∈ reports.map fun report => writtenPath pattern report.hops,
      ∃ item, resolveOcPath numbers ⟨raw, some root⟩ path = .ok item) ↔
        ∀ choices hops, Reads numbers subs root choices hops → Kept choices →
          Concrete (writtenPath pattern hops) := by
    simp only [forall_mem_map, exists_resolveOcPath_iff]
    exact walked.forall_iff fun hops => Concrete (writtenPath pattern hops)
  rw [findOcPaths_expanded parsed expansion]
  simp only [walked.returned, Except.ok.injEq, exists_eq_left', paths]
  rw [resolveAll_eq_ok_iff, allConcrete, filterMap_map]
  rfl

end Walking

section Exactness

theorem denotes_rightUnique : Relator.RightUnique fun (item : OcPathMatch) steps =>
    Denotes numbers root item.path steps :=
  fun _ _ _ => Denotes.unique

/-- A concrete path is emitted and denotes a trail exactly when it denotes the trail. -/
theorem emitted_denotes_iff (raw : String) {steps : List Step} (concrete : Concrete path) :
    (∃ item ∈ emitted? numbers ⟨raw, some root⟩ path, Denotes numbers root item.path steps) ↔
      Denotes numbers root path steps := by
  constructor
  · rintro ⟨item, emitted, denotes⟩
    rwa [(emitted?_eq_some_iff.mp emitted).1] at denotes
  · intro denotes
    obtain ⟨item, resolved⟩ :=
      (resolves_iff_denotes raw concrete denotes.notInsertion).mpr ⟨steps, denotes⟩
    exact ⟨⟨path, item⟩, emitted?_eq_some_iff.mpr ⟨rfl, resolved⟩, denotes⟩

/-- What is emitted for a concrete path denotes a match, or nothing is emitted. -/
theorem emitted_sound_iff (raw : String) (concrete : Concrete path) :
    (∀ item ∈ emitted? numbers ⟨raw, some root⟩ path,
      ∃ steps, Denotes numbers root item.path steps ∧ Matches numbers subs root steps) ↔
    DenotesMatch numbers root subs path := by
  constructor
  · intro each
    have sound {item : OcMatch}
        (resolved : resolveOcPath numbers ⟨raw, some root⟩ path = .ok (some item)) :
        ∃ steps, Denotes numbers root path steps ∧ Matches numbers subs root steps :=
      each ⟨path, item⟩ (emitted?_eq_some_iff.mpr ⟨rfl, resolved⟩)
    constructor
    · intro info insertion container
      have resolves := exists_item_iff numbers raw root concrete
      rw [insertion] at resolves
      obtain ⟨item, resolved⟩ := resolves.mpr container
      obtain ⟨steps, denotes, -⟩ := sound resolved
      cases insertion.symm.trans denotes.notInsertion
    · intro steps denotes
      obtain ⟨item, resolved⟩ :=
        (resolves_iff_denotes raw concrete denotes.notInsertion).mpr ⟨steps, denotes⟩
      obtain ⟨others, otherDenotes, matching⟩ := sound resolved
      rwa [denotes.unique otherDenotes]
  · intro sound item emitted
    obtain ⟨samePath, resolved⟩ := emitted?_eq_some_iff.mp emitted
    rw [samePath]
    cases insertion : detectInsertion path with
    | none =>
      obtain ⟨steps, denotes⟩ := (resolves_iff_denotes raw concrete insertion).mp ⟨_, resolved⟩
      exact ⟨steps, denotes, sound.matching steps denotes⟩
    | some info =>
      have container := (exists_item_iff numbers raw root concrete).mp ⟨_, resolved⟩
      rw [insertion] at container
      exact (sound.notInserted info insertion container).elim

/-- The report is of a reading whose path denotes the trail. -/
theorem existsUnique_report_iff {reports : List Report} {steps : List Step}
    (complete : ∀ report, report ∈ reports ↔ report.IsFor numbers subs root) :
    (∃! report, report ∈ reports ∧ Denotes numbers root (writtenPath pattern report.hops) steps) ↔
      ReadOnce numbers root pattern subs steps := by
  constructor
  · rintro ⟨⟨choices, again, hops⟩, ⟨member, denotes⟩, alone⟩
    have isFor := (complete _).mp member
    have reportOf {otherChoices : List Choice} {otherHops : List Hop} (otherAgain : Bool)
        (isOther : Report.IsFor numbers ⟨otherChoices, otherAgain, otherHops⟩ subs root)
        (otherDenotes : Denotes numbers root (writtenPath pattern otherHops) steps) :
        (⟨otherChoices, otherAgain, otherHops⟩ : Report) = ⟨choices, again, hops⟩ :=
      alone _ ⟨(complete _).mpr isOther, otherDenotes⟩
    refine ⟨choices, hops, isFor.reads, isFor.kept, denotes, ?_, ?_⟩
    · -- a closing wildcard that takes a step is reported twice
      intro takes
      have first := reportOf true ⟨isFor.reads, isFor.kept, fun _ => takes⟩ denotes
      have second := reportOf false ⟨isFor.reads, isFor.kept, fun _ => takes⟩ denotes
      rw [← second] at first
      cases first
    · intro otherChoices otherHops otherReads kept otherDenotes
      have same := reportOf false ⟨otherReads, kept, by simp⟩ otherDenotes
      cases same
      exact ⟨rfl, rfl⟩
  · rintro ⟨choices, hops, reads, kept, denotes, closed, unique⟩
    have isFor : Report.IsFor numbers ⟨choices, false, hops⟩ subs root := ⟨reads, kept, by simp⟩
    refine ⟨_, ⟨(complete _).mpr isFor, denotes⟩, ?_⟩
    rintro ⟨otherChoices, again, otherHops⟩ ⟨member, otherDenotes⟩
    have isOther := (complete _).mp member
    obtain ⟨rfl, rfl⟩ := unique _ _ isOther.reads isOther.kept otherDenotes
    have notAgain : again = false :=
      eq_false_of_ne_true fun isAgain => closed (isOther.repeated isAgain)
    rw [notAgain]

theorem findsExactly_expanded_iff (raw : String) (parsed : patternSubs pattern = .ok subs)
    (expansion : subs.any needsExpansion = true) :
    FindsExactly numbers raw root pattern subs ↔
      ExpandsExactly numbers root pattern subs := by
  have ofWalk {reports : List Report} (walked : Walked numbers root subs [] reports)
      (concrete : ∀ report ∈ reports, Concrete (writtenPath pattern report.hops)) :
      (∃ trails, List.Forall₂ (fun item steps => Denotes numbers root item.path steps)
          (reports.filterMap fun report =>
            emitted? numbers ⟨raw, some root⟩ (writtenPath pattern report.hops)) trails ∧
          trails.Nodup ∧ ∀ steps, steps ∈ trails ↔ Matches numbers subs root steps) ↔
        (∀ report ∈ reports,
            DenotesMatch numbers root subs (writtenPath pattern report.hops)) ∧
          ∀ steps, Matches numbers subs root steps → ReadOnce numbers root pattern subs steps := by
    rw [exists_trails_iff walked.distinct denotes_rightUnique]
    refine and_congr (forall₂_congr fun report member => ?_) (forall₂_congr fun steps _ => ?_)
    · exact emitted_sound_iff raw (concrete report member)
    · rw [← existsUnique_report_iff walked.complete]
      refine existsUnique_congr fun report => and_congr_right fun member => ?_
      exact emitted_denotes_iff raw (concrete report member)
  constructor
  · rintro ⟨found, trails, returned, denoted, once, covers⟩
    have clear := clear_of_findOcPaths parsed expansion returned
    obtain ⟨reports, walked⟩ : ∃ reports, Walked numbers root subs [] reports := exists_walked clear
    obtain ⟨concrete, rfl⟩ := (findOcPaths_walked raw parsed expansion walked).mp returned
    obtain ⟨sound, readOnce⟩ :=
      (ofWalk walked ((walked.forall_iff _).mpr concrete)).mp ⟨trails, denoted, once, covers⟩
    exact ⟨clear, concrete, (walked.forall_iff _).mp sound, readOnce⟩
  · rintro ⟨clear, concrete, sound, readOnce⟩
    obtain ⟨reports, walked⟩ : ∃ reports, Walked numbers root subs [] reports := exists_walked clear
    obtain ⟨trails, denoted, once, covers⟩ :=
      (ofWalk walked ((walked.forall_iff _).mpr concrete)).mpr
        ⟨(walked.forall_iff _).mpr sound, readOnce⟩
    exact ⟨_, trails, (findOcPaths_walked raw parsed expansion walked).mpr ⟨concrete, rfl⟩,
      denoted, once, covers⟩

theorem findsExactly_literal_iff (raw : String) (parsed : patternSubs pattern = .ok subs)
    (noExpansion : subs.any needsExpansion = false) :
    FindsExactly numbers raw root pattern subs ↔ StandsExactly numbers root pattern subs := by
  have concrete := concrete_of_literal parsed noExpansion
  have returned : findOcPaths numbers ⟨raw, some root⟩ pattern =
      .ok ([pattern].filterMap (emitted? numbers ⟨raw, some root⟩)) := by
    rw [findOcPaths_literal parsed noExpansion, resolveAll_eq_ok_iff, forall_mem_singleton]
    exact ⟨(exists_resolveOcPath_iff numbers raw root).mpr concrete, rfl⟩
  have shape : FindsExactly numbers raw root pattern subs ↔
      ∃ trails, List.Forall₂ (fun item steps => Denotes numbers root item.path steps)
        ([pattern].filterMap (emitted? numbers ⟨raw, some root⟩)) trails ∧
        trails.Nodup ∧ ∀ steps, steps ∈ trails ↔ Matches numbers subs root steps := by
    simp [FindsExactly, returned]
  rw [shape, exists_trails_iff (nodup_singleton pattern) denotes_rightUnique, forall_mem_singleton,
    emitted_sound_iff raw concrete]
  constructor
  · rintro ⟨sound, complete⟩
    refine ⟨sound, fun steps isMatch => ?_⟩
    obtain ⟨path, ⟨member, emits⟩, -⟩ := complete steps isMatch
    obtain rfl := mem_singleton.mp member
    exact (emitted_denotes_iff raw concrete).mp emits
  · rintro ⟨sound, complete⟩
    refine ⟨sound, fun steps isMatch => ⟨pattern, ⟨.head _, ?_⟩, ?_⟩⟩
    · exact (emitted_denotes_iff raw concrete).mpr (complete steps isMatch)
    · exact fun path isPath => mem_singleton.mp isPath.1

end Exactness

section Instances

/-- The value tree of a file with one member. -/
def singleMember : JsoncValue := .object [⟨"b", .string "x" (some 1), 1⟩] (some 1)

def everyMember : OcPath where
  file := "f"
  sectionSlot := some "*"
  itemSlot := none
  fieldSlot := none
  session := none

def anywhereBelow : OcPath where
  file := "f"
  sectionSlot := some "**"
  itemSlot := some "b"
  fieldSlot := none
  session := none

theorem child?_singleMember {step : Step} {child : JsoncValue}
    (leads : singleMember.child? step = some child) :
    step = .key "b" ∧ child = .string "x" (some 1) := by
  cases step with
  | key text =>
    obtain ⟨entry, found, rfl⟩ := Option.map_eq_some_iff.mp leads
    have member := mem_of_find?_eq_some found
    have isKey : entry.key = text := by
      simpa using find?_some found
    obtain rfl := mem_singleton.mp member
    exact ⟨by rw [← isKey], rfl⟩
  | index position => cases leads

theorem segKind_star : segKind "*" = .single := by
  decide +kernel

theorem goes_everyMember {passage : Passage} (goes : Goes decimalNumbers singleMember "*" passage) :
    passage = ⟨0, "b", .string "x" (some 1)⟩ := by
  have only : passages decimalNumbers singleMember "*" = [⟨0, "b", .string "x" (some 1)⟩] := rfl
  rw [Goes, only] at goes
  exact mem_singleton.mp goes

theorem reads_everyMember_iff {choices : List Choice} {hops : List Hop} :
    Reads decimalNumbers [⟨.section, "*"⟩] singleMember choices hops ↔
      choices = [] ∧ hops = [⟨.section, 0, "b"⟩] := by
  rw [reads_step_iff (by simp [segKind_star]) (by simp [segKind_star])]
  constructor
  · rintro ⟨passage, left, goes, rfl, onward⟩
    obtain rfl := goes_everyMember goes
    obtain ⟨rfl, rfl⟩ := reads_nil_iff.mp onward
    exact ⟨rfl, rfl⟩
  · rintro ⟨rfl, rfl⟩
    exact ⟨⟨0, "b", .string "x" (some 1)⟩, [], .head _, rfl, .done⟩

theorem matches_everyMember {steps : List Step}
    (matching : Matches decimalNumbers [⟨.section, "*"⟩] singleMember steps) :
    steps = [.key "b"] := by
  cases matching with
  | alternative kind chosen onward => cases segKind_star.symm.trans kind
  | step kind selected onward =>
    cases onward
    cases selected with
    | wildcard kind leads => rw [(child?_singleMember leads).1]
    | predicate kind leads holds => cases segKind_star.symm.trans kind
    | first token isFirst leads => rw [(child?_singleMember leads).1]
    | last token isLast leads => rw [(child?_singleMember leads).1]
    | literal kind named leads => cases segKind_star.symm.trans kind
  | leave kind onward => cases segKind_star.symm.trans kind
  | deeper kind selected onward => cases segKind_star.symm.trans kind

theorem clear_everyMember : Clear decimalNumbers singleMember [⟨.section, "*"⟩] 0 := by
  have returned : walkJsonc decimalNumbers singleMember [⟨.section, "*"⟩] [] =
      .ok [[⟨.section, "b"⟩]] := by
    decide +kernel
  exact exists_walkJsonc_iff.mp ⟨_, returned⟩

def onlyMember : OcPath where
  file := "f"
  sectionSlot := some "b"
  itemSlot := none
  fieldSlot := none
  session := none

theorem denotes_onlyMember : Denotes decimalNumbers singleMember onlyMember [.key "b"] :=
  ⟨by decide +kernel, ["b"], by decide +kernel, by decide +kernel⟩

end Instances

end Jsonc
