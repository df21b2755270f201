import AieClaw.JsoncReadings

/-!
# What the walker reports

On a clear walk the walker reports the readings in which every `**` before the
end takes a step, and those in which a `**` at the end takes a step twice. A walk
that is not clear fails.
-/

namespace Jsonc

open OcPathSyntax List

variable {numbers : NumberText}

section Inversion

variable {cur : SlotSub} {rest : List SlotSub} {node : JsoncValue}
variable {choices : List Choice} {hops : List Hop}

theorem reads_nil_iff : Reads numbers [] node choices hops ↔ choices = [] ∧ hops = [] := by
  constructor
  · rintro ⟨⟩
    exact ⟨rfl, rfl⟩
  · rintro ⟨rfl, rfl⟩
    exact .done

theorem reads_union_iff {alternatives : List String}
    (kind : segKind cur.value = .union alternatives) :
    Reads numbers (cur :: rest) node choices hops ↔
      ∃ index alt left, alternatives[index]? = some alt ∧
        choices = .alternative index :: left ∧
        Reads numbers (⟨cur.slot, alt⟩ :: rest) node left hops := by
  constructor
  · intro reads
    cases reads with
    | alternative found chosen onward =>
      rw [kind] at found
      cases found
      exact ⟨_, _, _, chosen, rfl, onward⟩
    | step notRecursive goes onward => exact (goes.not_union kind).elim
    | leave found onward =>
      rw [kind] at found
      cases found
    | deeper found goes onward =>
      rw [kind] at found
      cases found
  · rintro ⟨index, alt, left, chosen, rfl, onward⟩
    exact .alternative kind chosen onward

theorem reads_step_iff (notUnion : ∀ alternatives, segKind cur.value ≠ .union alternatives)
    (notRecursive : segKind cur.value ≠ .recursive) :
    Reads numbers (cur :: rest) node choices hops ↔
      ∃ passage left, Goes numbers node cur.value passage ∧
        hops = passage.hop cur.slot :: left ∧ Reads numbers rest passage.child choices left := by
  constructor
  · intro reads
    cases reads with
    | alternative found chosen onward => exact (notUnion _ found).elim
    | step notRecursive goes onward => exact ⟨_, _, goes, rfl, onward⟩
    | leave found onward => exact (notRecursive found).elim
    | deeper found goes onward => exact (notRecursive found).elim
  · rintro ⟨passage, left, goes, rfl, onward⟩
    exact .step notRecursive goes onward

theorem reads_recursive_iff (kind : segKind cur.value = .recursive) :
    Reads numbers (cur :: rest) node choices hops ↔
      (∃ left, choices = .gap rest.isEmpty 0 :: left ∧ Reads numbers rest node left hops) ∨
      ∃ passage closing steps left hopsLeft, Goes numbers node cur.value passage ∧
        choices = .gap closing (steps + 1) :: left ∧
        hops = passage.hop cur.slot :: hopsLeft ∧
        Reads numbers (cur :: rest) passage.child (.gap closing steps :: left)
          hopsLeft := by
  constructor
  · intro reads
    cases reads with
    | alternative found chosen onward =>
      rw [kind] at found
      cases found
    | step notRecursive goes onward => exact (notRecursive kind).elim
    | leave found onward => exact .inl ⟨_, rfl, onward⟩
    | deeper found goes onward => exact .inr ⟨_, _, _, _, _, goes, rfl, rfl, onward⟩
  · rintro (⟨left, rfl, onward⟩ | ⟨passage, closing, steps, left, hopsLeft, goes, rfl, rfl, onward⟩)
    · exact .leave kind onward
    · exact .deeper kind goes onward

theorem gap_of_reads (kind : segKind cur.value = .recursive)
    (reads : Reads numbers (cur :: rest) node choices hops) :
    ∃ steps left, choices = .gap rest.isEmpty steps :: left := by
  generalize isPattern : cur :: rest = pattern at reads
  induction reads with
  | done => cases isPattern
  | alternative found chosen onward inductionHypothesis =>
    cases isPattern
    rw [kind] at found
    cases found
  | step notRecursive goes onward inductionHypothesis =>
    cases isPattern
    exact (notRecursive kind).elim
  | leave found onward inductionHypothesis =>
    cases isPattern
    exact ⟨0, _, rfl⟩
  | deeper found goes onward inductionHypothesis =>
    cases isPattern
    obtain ⟨steps, left, shape⟩ := inductionHypothesis rfl
    cases shape
    exact ⟨_, _, rfl⟩

end Inversion

section Clear

variable {cur : SlotSub} {rest : List SlotSub} {node : JsoncValue}
variable {passage : Passage} {depth : ℕ}

section

variable (clear : Clear numbers node (cur :: rest) depth)
include clear

theorem Clear.alternative {alternatives : List String} {alt : String}
    (kind : segKind cur.value = .union alternatives) (chosen : alt ∈ alternatives) :
    Clear numbers node (⟨cur.slot, alt⟩ :: rest) depth where
  shallow visits := clear.shallow (.alternative kind chosen visits)
  writable visits := clear.writable (.alternative kind chosen visits)

theorem Clear.onward (goes : Goes numbers node cur.value passage) :
    Clear numbers passage.child rest (depth + 1) where
  shallow := by
    intro steps finish left visits
    have within := clear.shallow (.step goes visits)
    omega
  writable visits := clear.writable (.step goes visits)

theorem Clear.deeper
    (kind : segKind cur.value = .recursive) (goes : Goes numbers node cur.value passage) :
    Clear numbers passage.child (cur :: rest) (depth + 1) where
  shallow := by
    intro steps finish left visits
    have within := clear.shallow (.deeper kind goes visits)
    omega
  writable visits := clear.writable (.deeper kind goes visits)

end

theorem Clear.checkDepth {subs walked : List SlotSub}
    (clear : Clear numbers node subs walked.length) : checkDepth walked = .ok () := by
  have within := clear.shallow .here
  rw [Jsonc.checkDepth, failIf_eq_ok_iff]
  simpa using within

end Clear

section Choices

variable {choices : List Choice} {index steps : ℕ} {closing : Bool}

@[simp] theorem kept_nil : Kept [] := by
  simp [Kept]

@[simp] theorem kept_alternative : Kept (.alternative index :: choices) ↔ Kept choices := by
  simp [Kept]

@[simp] theorem kept_gap : Kept (.gap closing steps :: choices) ↔
      (closing = false → 0 < steps) ∧ Kept choices := by
  simp only [Kept, mem_cons, Choice.gap.injEq]
  constructor
  · intro kept
    exact ⟨fun open_ => kept steps (.inl ⟨open_.symm, rfl⟩),
      fun other member => kept other (.inr member)⟩
  · rintro ⟨first, others⟩ other (⟨rfl, rfl⟩ | member)
    · exact first rfl
    · exact others other member

@[simp] theorem closingTakes_nil : ¬ ClosingTakes [] := by
  simp [ClosingTakes]

@[simp] theorem closingTakes_alternative :
    ClosingTakes (.alternative index :: choices) ↔ ClosingTakes choices := by
  simp [ClosingTakes]

@[simp] theorem closingTakes_gap : ClosingTakes (.gap closing steps :: choices) ↔
      closing = true ∧ 0 < steps ∨ ClosingTakes choices := by
  simp only [ClosingTakes, mem_cons, Choice.gap.injEq]
  constructor
  · rintro ⟨other, positive, ⟨rfl, rfl⟩ | member⟩
    · exact .inl ⟨rfl, positive⟩
    · exact .inr ⟨other, positive, member⟩
  · rintro (⟨rfl, positive⟩ | ⟨other, positive, member⟩)
    · exact ⟨steps, positive, .inl ⟨rfl, rfl⟩⟩
    · exact ⟨other, positive, .inr member⟩

end Choices

section Reports

/-- A reading that the walker reports, for the first or for a second time. -/
structure Report where
  choices : List Choice
  again : Bool
  hops : List Hop

def Report.path (walked : List SlotSub) (report : Report) : List SlotSub :=
  walked ++ report.hops.map Hop.written

/-- The walker reports the reading from a node. -/
structure Report.IsFor (numbers : NumberText) (report : Report)
    (subs : List SlotSub) (node : JsoncValue) : Prop where
  reads : Reads numbers subs node report.choices report.hops
  kept : Kept report.choices
  repeated : report.again = true → ClosingTakes report.choices

/-- The walk from a node reports these readings, each of them once. -/
structure Walked (numbers : NumberText) (node : JsoncValue)
    (subs walked : List SlotSub) (reports : List Report) : Prop where
  returned : walkJsonc numbers node subs walked = .ok (reports.map (Report.path walked))
  distinct : reports.Nodup
  complete : ∀ report, report ∈ reports ↔ report.IsFor numbers subs node

variable {cur : SlotSub} {rest walked : List SlotSub} {node : JsoncValue}

theorem walkJsonc_eq_ok (results : List (List (List SlotSub)))
    (shallow : checkDepth walked = .ok ()) (each : List.Forall₂
        (fun move paths => walkMove numbers node cur.slot walked move = .ok paths)
        (dispatchSeg (jsoncOps numbers) node cur rest) results) :
    walkJsonc numbers node (cur :: rest) walked = .ok results.flatten := by
  rw [walkJsonc_cons, shallow]
  have mapped := mapM_eq_ok_iff.mpr each
  simp only [Except.bind, mapped]

theorem dispatchSeg_eq_descents (notUnion : ∀ alternatives, segKind cur.value ≠ .union alternatives)
    (notRecursive : segKind cur.value ≠ .recursive) : dispatchSeg (jsoncOps numbers) node cur rest =
      (descents numbers node cur.value).map (.descend · rest) := by
  unfold dispatchSeg descents
  cases kind : segKind cur.value with
  | union alternatives => exact (notUnion alternatives kind).elim
  | recursive => exact (notRecursive kind).elim
  | predicate | malformed | single | positional | literal => rfl

theorem walked_nil (clear : Clear numbers node [] walked.length) :
    Walked numbers node [] walked [⟨[], false, []⟩] where
  returned := by
    rw [walkJsonc_nil, clear.checkDepth]
    simp [Except.bind, Report.path]
  distinct := nodup_singleton _
  complete := by
    intro report
    rw [mem_singleton]
    constructor
    · rintro rfl
      exact ⟨.done, kept_nil, by simp⟩
    · rintro ⟨reads, kept, repeated⟩
      obtain ⟨choices, again, hops⟩ := report
      obtain ⟨rfl, rfl⟩ := reads_nil_iff.mp reads
      simpa using repeated

/-- The reading behind a choice. -/
def Report.chosen (choice : Choice) (report : Report) : Report :=
  { report with choices := choice :: report.choices }

/-- The reading behind a hop. -/
def Report.hopped (hop : Hop) (report : Report) : Report :=
  { report with hops := hop :: report.hops }

theorem Report.path_hopped (hop : Hop) (report : Report) : (report.hopped hop).path walked =
      report.path (walked ++ [hop.written]) := by
  simp [Report.path, Report.hopped]

theorem walked_union {alternatives : List String} (kind : segKind cur.value = .union alternatives)
    (clear : Clear numbers node (cur :: rest) walked.length)
    (each : ∀ alt ∈ alternatives, ∃ reports,
        Walked numbers node (⟨cur.slot, alt⟩ :: rest) walked reports) :
    ∃ reports, Walked numbers node (cur :: rest) walked reports := by
  choose! reportsOf walkedAlt using each
  have inAlternatives {entry : String × ℕ}
      (member : entry ∈ alternatives.zipIdx) : entry.1 ∈ alternatives :=
    fst_mem_of_mem_zipIdx member
  refine ⟨alternatives.zipIdx.flatMap fun entry =>
    (reportsOf entry.1).map (Report.chosen (.alternative entry.2)), ?_, ?_, ?_⟩
  · rw [walkJsonc_eq_ok (alternatives.map fun alt => (reportsOf alt).map (Report.path walked))
      clear.checkDepth]
    · have alternativesOnly :
          alternatives.map (fun alt => (reportsOf alt).map (Report.path walked)) =
            alternatives.zipIdx.map fun entry => (reportsOf entry.1).map (Report.path walked) := by
        rw [← Function.comp_def (fun alt => (reportsOf alt).map (Report.path walked)) Prod.fst,
          ← map_map, zipIdx_map_fst]
      rw [alternativesOnly, map_flatMap, ← flatMap_def]
      simp only [map_map]
      rfl
    · simp only [dispatchSeg, kind, forall₂_map_left_iff, forall₂_map_right_iff, forall₂_same]
      exact fun alt member => (walkedAlt alt member).returned
  · rw [nodup_flatMap]
    constructor
    · intro entry member
      exact (walkedAlt entry.1 (inAlternatives member)).distinct.map (fun first second same => by
          cases first
          cases second
          simpa [Report.chosen] using same)
    · have positions : (alternatives.zipIdx.map Prod.snd).Nodup := by
        rw [zipIdx_map_snd]
        exact nodup_range'
      refine (pairwise_map.mp positions).imp ?_
      intro first second different report inFirst inSecond
      obtain ⟨one, -, rfl⟩ := mem_map.mp inFirst
      obtain ⟨other, -, same⟩ := mem_map.mp inSecond
      simp only [Report.chosen, Report.mk.injEq, List.cons.injEq, Choice.alternative.injEq] at same
      exact different same.1.1.symm
  · intro report
    simp only [mem_flatMap, mem_map]
    constructor
    · rintro ⟨entry, member, inner, isInner, rfl⟩
      obtain ⟨reads, kept, repeated⟩ :=
        ((walkedAlt entry.1 (inAlternatives member)).complete inner).mp isInner
      refine ⟨?_, kept_alternative.mpr kept, ?_⟩
      · exact .alternative kind (mem_zipIdx_iff_getElem?.mp member) reads
      · exact fun again => closingTakes_alternative.mpr (repeated again)
    · rintro ⟨reads, kept, repeated⟩
      obtain ⟨choices, again, hops⟩ := report
      obtain ⟨index, alt, left, chosen, rfl, onward⟩ := (reads_union_iff kind).mp reads
      refine ⟨(alt, index), mem_zipIdx_iff_getElem?.mpr chosen, ⟨left, again, hops⟩, ?_, rfl⟩
      refine ((walkedAlt alt (mem_of_getElem? chosen)).complete _).mpr ?_
      exact ⟨onward, kept_alternative.mp kept,
        fun isAgain => closingTakes_alternative.mp (repeated isAgain)⟩

theorem walked_step (notUnion : ∀ alternatives, segKind cur.value ≠ .union alternatives)
    (notRecursive : segKind cur.value ≠ .recursive)
    (clear : Clear numbers node (cur :: rest) walked.length)
    (each : ∀ passage, Goes numbers node cur.value passage → ∃ reports,
        Walked numbers passage.child rest (walked ++ [(passage.hop cur.slot).written]) reports) :
    ∃ reports, Walked numbers node (cur :: rest) walked reports := by
  choose! reportsOf walkedAt using each
  refine ⟨(passages numbers node cur.value).flatMap fun passage =>
    (reportsOf passage).map (Report.hopped (passage.hop cur.slot)), ?_, ?_, ?_⟩
  · rw [walkJsonc_eq_ok ((passages numbers node cur.value).map fun passage =>
        (reportsOf passage).map (Report.path (walked ++ [(passage.hop cur.slot).written])))
      clear.checkDepth]
    · rw [map_flatMap, ← flatMap_def]
      simp only [map_map, Function.comp_def, Report.path_hopped]
    · simp only [dispatchSeg_eq_descents notUnion notRecursive,
        descents_eq_passages (clear.writable .here),
        forall₂_map_left_iff, forall₂_map_right_iff, forall₂_same]
      exact fun passage goes => (walkedAt passage goes).returned
  · rw [nodup_flatMap]
    constructor
    · intro passage goes
      exact (walkedAt passage goes).distinct.map (fun first second same => by
          cases first
          cases second
          simpa [Report.hopped] using same)
    · refine (pairwise_map.mp nodup_passages).imp ?_
      intro first second different report inFirst inSecond
      obtain ⟨one, -, rfl⟩ := mem_map.mp inFirst
      obtain ⟨other, -, same⟩ := mem_map.mp inSecond
      simp only [Report.hopped, Report.mk.injEq, List.cons.injEq, Passage.hop, Hop.mk.injEq] at same
      exact different same.2.2.1.2.1.symm
  · intro report
    simp only [mem_flatMap, mem_map]
    constructor
    · rintro ⟨passage, goes, inner, isInner, rfl⟩
      obtain ⟨reads, kept, repeated⟩ := ((walkedAt passage goes).complete inner).mp isInner
      exact ⟨.step notRecursive goes reads, kept, repeated⟩
    · rintro ⟨reads, kept, repeated⟩
      obtain ⟨choices, again, hops⟩ := report
      obtain ⟨passage, left, goes, rfl, onward⟩ := (reads_step_iff notUnion notRecursive).mp reads
      refine ⟨passage, goes, ⟨choices, again, left⟩, ?_, rfl⟩
      exact ((walkedAt passage goes).complete _).mpr ⟨onward, kept, repeated⟩

/-- The reading of a recursive wildcard that is consumed by one step. -/
def Report.consumed (rest : List SlotSub) (hop : Hop) (report : Report) : Report where
  choices := .gap rest.isEmpty 1 :: report.choices
  again := report.again || rest.isEmpty
  hops := hop :: report.hops

/-- The choices with one more step for the first recursive wildcard. -/
def lengthen : List Choice → List Choice
  | .gap closing steps :: left => .gap closing (steps + 1) :: left
  | choices => choices

/-- The reading of a recursive wildcard that is kept for another step. -/
def Report.retained (hop : Hop) (report : Report) : Report where
  choices := lengthen report.choices
  again := report.again
  hops := hop :: report.hops

def Report.ended : Report := ⟨[.gap true 0], false, []⟩

section Recursive

variable {report : Report} {passage : Passage}

theorem Report.IsFor.choices_eq (kind : segKind cur.value = .recursive)
    (isFor : report.IsFor numbers (cur :: rest) node) :
    ∃ steps left, report.choices = .gap rest.isEmpty steps :: left ∧ (rest ≠ [] → 0 < steps) := by
  obtain ⟨steps, left, shape⟩ := gap_of_reads kind isFor.reads
  refine ⟨steps, left, shape, ?_⟩
  intro more
  have kept := isFor.kept
  rw [shape, kept_gap] at kept
  exact kept.1 (by simpa using more)

theorem Report.IsFor.eq_empty (isFor : report.IsFor numbers [] node) :
    report = ⟨[], false, []⟩ := by
  obtain ⟨choices, again, hops⟩ := report
  obtain ⟨reads, kept, repeated⟩ := isFor
  obtain ⟨rfl, rfl⟩ := reads_nil_iff.mp reads
  simpa using repeated

section

variable (kind : segKind cur.value = .recursive)
include kind

theorem isFor_ended : Report.ended.IsFor numbers [cur] node where
  reads := .leave kind .done
  kept := by
    simp [Report.ended]
  repeated := by
    simp [Report.ended]

theorem isFor_consumed (goes : Goes numbers node cur.value passage)
    (isFor : report.IsFor numbers rest passage.child) :
    (report.consumed rest (passage.hop cur.slot)).IsFor numbers (cur :: rest) node where
  reads := .deeper kind goes (.leave kind isFor.reads)
  kept := kept_gap.mpr ⟨fun _ => Nat.one_pos, isFor.kept⟩
  repeated := by
    intro again
    refine closingTakes_gap.mpr ?_
    rcases Bool.or_eq_true_iff.mp again with inner | closing
    · exact .inr (isFor.repeated inner)
    · exact .inl ⟨closing, Nat.one_pos⟩

theorem isFor_retained (goes : Goes numbers node cur.value passage)
    (isFor : report.IsFor numbers (cur :: rest) passage.child) :
    (report.retained (passage.hop cur.slot)).IsFor numbers (cur :: rest) node := by
  obtain ⟨steps, left, shape, -⟩ := isFor.choices_eq kind
  obtain ⟨choices, again, hops⟩ := report
  obtain ⟨reads, kept, repeated⟩ := isFor
  simp only at shape reads kept repeated
  subst shape
  refine ⟨.deeper kind goes reads, ?_, ?_⟩
  · exact kept_gap.mpr ⟨fun _ => Nat.succ_pos steps, (kept_gap.mp kept).2⟩
  · intro isAgain
    refine closingTakes_gap.mpr ?_
    rcases closingTakes_gap.mp (repeated isAgain) with ⟨closing, -⟩ | inner
    · exact .inl ⟨closing, Nat.succ_pos steps⟩
    · exact .inr inner

/-- The reports of a recursive wildcard come from one of its three moves. -/
theorem isFor_recursive_cases
    (isFor : report.IsFor numbers (cur :: rest) node) : rest = [] ∧ report = .ended ∨
      ∃ passage, Goes numbers node cur.value passage ∧
        ((∃ inner : Report, inner.IsFor numbers rest passage.child ∧
            report = inner.consumed rest (passage.hop cur.slot)) ∨
          ∃ inner : Report, inner.IsFor numbers (cur :: rest) passage.child ∧
            report = inner.retained (passage.hop cur.slot)) := by
  obtain ⟨choices, again, hops⟩ := report
  obtain ⟨reads, kept, repeated⟩ := isFor
  simp only at reads kept repeated
  rcases (reads_recursive_iff kind).mp reads with
    ⟨left, rfl, onward⟩ | ⟨passage, closing, steps, left, hopsLeft, goes, rfl, rfl, onward⟩
  · -- no step: only a closing wildcard is kept, and it is not repeated
    left
    cases rest with
    | cons sub others => exact absurd (kept_gap.mp kept).1 (by simp)
    | nil =>
      obtain ⟨rfl, rfl⟩ := reads_nil_iff.mp onward
      refine ⟨rfl, ?_⟩
      simpa [Report.ended] using repeated
  · right
    obtain ⟨_, _, shape⟩ := gap_of_reads kind onward
    cases shape
    refine ⟨passage, goes, ?_⟩
    cases steps with
    | succ fewer =>
      refine .inr ⟨⟨.gap rest.isEmpty (fewer + 1) :: left, again, hopsLeft⟩, ⟨onward, ?_, ?_⟩, rfl⟩
      · exact kept_gap.mpr ⟨fun _ => Nat.succ_pos fewer, (kept_gap.mp kept).2⟩
      · intro isAgain
        refine closingTakes_gap.mpr ?_
        rcases closingTakes_gap.mp (repeated isAgain) with ⟨closing, -⟩ | inner
        · exact .inl ⟨closing, Nat.succ_pos fewer⟩
        · exact .inr inner
    | zero =>
      -- one step: the wildcard is left at the child
      rcases (reads_recursive_iff kind).mp onward with
        ⟨other, same, atChild⟩ | ⟨_, _, _, _, _, _, impossible, _, _⟩
      · cases same
        cases rest with
        | nil =>
          obtain ⟨rfl, rfl⟩ := reads_nil_iff.mp atChild
          cases again with
          | true => exact .inl ⟨⟨[], false, []⟩, ⟨.done, kept_nil, by simp⟩, rfl⟩
          | false => exact .inr ⟨.ended, isFor_ended kind, rfl⟩
        | cons sub others =>
          refine .inl ⟨⟨left, again, hopsLeft⟩, ⟨atChild, ?_, ?_⟩, ?_⟩
          · exact (kept_gap.mp kept).2
          · intro isAgain
            simpa using repeated isAgain
          · simp [Report.consumed]
      · cases impossible

theorem consumed_ne_retained {inner other : Report} {hop : Hop}
    (isFor : other.IsFor numbers (cur :: rest) node) :
    inner.consumed rest hop ≠ other.retained hop := by
  obtain ⟨steps, left, shape, positive⟩ := isFor.choices_eq kind
  obtain ⟨choices, again, hops⟩ := other
  simp only at shape
  subst shape
  intro same
  simp only [Report.consumed, Report.retained, lengthen, Report.mk.injEq,
    List.cons.injEq, Choice.gap.injEq, true_and] at same
  obtain ⟨⟨oneStep, -⟩, sameAgain, -⟩ := same
  cases rest with
  | cons sub others =>
    have := positive (by simp)
    omega
  | nil =>
    obtain rfl : steps = 0 := by
      omega
    obtain rfl : again = true := by
      simpa using sameAgain.symm
    have takes := isFor.repeated rfl
    obtain ⟨_, same, onward⟩ | ⟨_, _, _, _, _, _, impossible, _⟩ :=
      (reads_recursive_iff kind).mp isFor.reads
    · obtain ⟨rfl, -⟩ := reads_nil_iff.mp onward
      cases same
      simp at takes
    · cases impossible

end

theorem consumed_injective {first second : Report} {hop : Hop}
    (isFirst : first.IsFor numbers rest node) (isSecond : second.IsFor numbers rest node)
    (same : first.consumed rest hop = second.consumed rest hop) : first = second := by
  cases rest with
  | nil => rw [isFirst.eq_empty, isSecond.eq_empty]
  | cons sub others =>
    cases first
    cases second
    simpa [Report.consumed] using same

theorem retained_injective {first second : Report} {hop : Hop}
    (kind : segKind cur.value = .recursive) (isFirst : first.IsFor numbers (cur :: rest) node)
    (isSecond : second.IsFor numbers (cur :: rest) node)
    (same : first.retained hop = second.retained hop) : first = second := by
  obtain ⟨_, _, firstShape, -⟩ := isFirst.choices_eq kind
  obtain ⟨_, _, secondShape, -⟩ := isSecond.choices_eq kind
  cases first
  cases second
  simp only at firstShape secondShape
  subst firstShape secondShape
  simpa [Report.retained, lengthen] using same

theorem Report.path_consumed (hop : Hop) (report : Report) :
    (report.consumed rest hop).path walked = report.path (walked ++ [hop.written]) := by
  simp [Report.path, Report.consumed]

theorem Report.path_retained (hop : Hop) (report : Report) : (report.retained hop).path walked =
      report.path (walked ++ [hop.written]) := by
  simp [Report.path, Report.retained]

theorem forall₂_flatMap {α β γ : Type} {related : β → γ → Prop} {values : List α}
    {first : α → List β} {second : α → List γ}
    (each : ∀ value ∈ values, List.Forall₂ related (first value) (second value)) :
    List.Forall₂ related (values.flatMap first) (values.flatMap second) := by
  induction values with
  | nil => exact .nil
  | cons value rest inductionHypothesis =>
    rw [flatMap_cons, flatMap_cons]
    exact rel_append (each value mem_cons_self)
      (inductionHypothesis fun other member => each other (.tail value member))

/-- The reports behind a hop of `**`: those that leave it, and those that stay with it. -/
def reportsBehind (rest : List SlotSub) (hop : Hop) (left kept : List Report) : List Report :=
  left.map (Report.consumed rest hop) ++ kept.map (Report.retained hop)

section

variable {hop : Hop} {left kept : List Report} {report : Report}

theorem head?_of_mem_reportsBehind (behind : report ∈ reportsBehind rest hop left kept) :
    report.hops.head? = some hop := by
  rcases mem_append.mp behind with inLeft | inKept
  · obtain ⟨inner, -, rfl⟩ := mem_map.mp inLeft
    rfl
  · obtain ⟨inner, -, rfl⟩ := mem_map.mp inKept
    rfl

variable (leftAt : Walked numbers node rest walked left)
  (keptAt : Walked numbers node (cur :: rest) walked kept)
include leftAt keptAt

theorem mem_reportsBehind_iff : report ∈ reportsBehind rest hop left kept ↔
      (∃ inner : Report, inner.IsFor numbers rest node ∧ report = inner.consumed rest hop) ∨
        ∃ inner : Report, inner.IsFor numbers (cur :: rest) node ∧
          report = inner.retained hop := by
  simp [reportsBehind, leftAt.complete, keptAt.complete, eq_comm (a := report)]

theorem nodup_reportsBehind (kind : segKind cur.value = .recursive) :
    (reportsBehind rest hop left kept).Nodup := by
  refine nodup_append.mpr ⟨?_, ?_, ?_⟩
  · refine leftAt.distinct.map_on fun first inFirst second inSecond same => ?_
    exact consumed_injective ((leftAt.complete first).mp inFirst)
      ((leftAt.complete second).mp inSecond) same
  · refine keptAt.distinct.map_on fun first inFirst second inSecond same => ?_
    exact retained_injective kind ((keptAt.complete first).mp inFirst)
      ((keptAt.complete second).mp inSecond) same
  · intro first inFirst second inSecond
    obtain ⟨inner, -, rfl⟩ := mem_map.mp inFirst
    obtain ⟨other, isOther, rfl⟩ := mem_map.mp inSecond
    exact consumed_ne_retained kind ((keptAt.complete other).mp isOther)

end

theorem walked_recursive (kind : segKind cur.value = .recursive)
    (clear : Clear numbers node (cur :: rest) walked.length)
    (eachRest : ∀ passage, Goes numbers node cur.value passage → ∃ reports,
        Walked numbers passage.child rest (walked ++ [(passage.hop cur.slot).written]) reports)
    (eachKept :
      ∀ passage, Goes numbers node cur.value passage → ∃ reports,
        Walked numbers passage.child (cur :: rest) (walked ++ [(passage.hop cur.slot).written])
          reports) :
    ∃ reports, Walked numbers node (cur :: rest) walked reports := by
  choose! restOf restAt using eachRest
  choose! keptOf keptAt using eachKept
  let behind (passage : Passage) : List Report :=
    reportsBehind rest (passage.hop cur.slot) (restOf passage) (keptOf passage)
  have enumerated : (jsoncOps numbers).enumerate node =
      (passages numbers node cur.value).map Passage.visit := by
    rw [← descents_eq_passages (clear.writable .here)]
    simp only [descents, kind]
  have endings (report : Report) : report ∈ (if rest = [] then [Report.ended] else []) ↔
        rest = [] ∧ report = .ended := by
    split <;> simp_all
  refine ⟨(if rest = [] then [.ended] else []) ++
    (passages numbers node cur.value).flatMap behind, ?_, ?_, ?_⟩
  · rw [walkJsonc_eq_ok ((if rest = [] then [[walked]] else []) ++
        (passages numbers node cur.value).flatMap fun passage =>
          [(restOf passage).map (Report.path (walked ++ [(passage.hop cur.slot).written])),
            (keptOf passage).map (Report.path (walked ++ [(passage.hop cur.slot).written]))])
      clear.checkDepth]
    · rw [flatten_append, map_append, map_flatMap]
      congr 2
      · split <;> simp [Report.path, Report.ended]
      · rw [← flatMap_id, flatMap_assoc]
        simp [behind, reportsBehind, Function.comp_def, Report.path_consumed,
          Report.path_retained]
    · simp only [dispatchSeg, kind, enumerated, flatMap_map]
      refine rel_append ?_ (forall₂_flatMap ?_)
      · split <;> simp [walkMove]
      · intro passage goes
        refine .cons ?_ (.cons ?_ .nil)
        · exact (restAt passage goes).returned
        · exact (keptAt passage goes).returned
  · refine nodup_append.mpr ⟨by split <;> simp, nodup_flatMap.mpr ⟨?_, ?_⟩, ?_⟩
    · exact fun passage goes =>
        nodup_reportsBehind (restAt passage goes) (keptAt passage goes) kind
    · -- the reports behind two passages begin with different hops
      refine (pairwise_map.mp nodup_passages).imp ?_
      intro first second different report inFirst inSecond
      have same := (head?_of_mem_reportsBehind inFirst).symm.trans
        (head?_of_mem_reportsBehind inSecond)
      simp only [Option.some.injEq, Passage.hop, Hop.mk.injEq, true_and] at same
      exact different same.1
    · intro first inEndings second inMoves same
      obtain ⟨-, rfl⟩ := (endings first).mp inEndings
      obtain ⟨passage, -, inPassage⟩ := mem_flatMap.mp inMoves
      have begins := head?_of_mem_reportsBehind inPassage
      rw [← same] at begins
      cases begins
  · intro report
    simp only [mem_append, endings, mem_flatMap]
    constructor
    · rintro (⟨rfl, rfl⟩ | ⟨passage, goes, inBehind⟩)
      · exact isFor_ended kind
      · rcases (mem_reportsBehind_iff (restAt passage goes) (keptAt passage goes)).mp inBehind with
          ⟨inner, isFor, rfl⟩ | ⟨inner, isFor, rfl⟩
        · exact isFor_consumed kind goes isFor
        · exact isFor_retained kind goes isFor
    · intro isFor
      rcases isFor_recursive_cases kind isFor with ended | ⟨passage, goes, fromMove⟩
      · exact .inl ended
      · exact .inr ⟨passage, goes,
          (mem_reportsBehind_iff (restAt passage goes) (keptAt passage goes)).mpr fromMove⟩

end Recursive

/-- A clear walk reports the readings that the walker keeps. -/
theorem exists_walked {subs : List SlotSub} (clear : Clear numbers node subs walked.length) :
    ∃ reports, Walked numbers node subs walked reports := by
  -- by the measure of the recursion: less of the pattern, or less of the tree
  induction size : patternSize subs + sizeOf node using Nat.strong_induction_on
    generalizing node subs walked with
  | _ size inductionHypothesis =>
    subst size
    cases subs with
    | nil => exact ⟨_, walked_nil clear⟩
    | cons cur rest =>
      have restShorter : patternSize rest ≤ patternSize (cur :: rest) :=
        patternSize_le_of_descend (.inl rfl)
      have eachRest (passage : Passage) (goes : Goes numbers node cur.value passage) :
          ∃ reports, Walked numbers passage.child rest
            (walked ++ [(passage.hop cur.slot).written]) reports := by
        have smaller := goes.sizeOf_lt
        refine inductionHypothesis _ (by omega) ?_ rfl
        simpa using clear.onward goes
      cases kind : segKind cur.value with
      | union alternatives =>
        refine walked_union kind clear ?_
        intro alt chosen
        have shorter := length_lt_of_mem_parseUnionSeg (segKind_union kind) chosen
        refine inductionHypothesis _ ?_ (clear.alternative kind chosen) rfl
        simp only [patternSize, map_cons, sum_cons]
        omega
      | recursive =>
        refine walked_recursive kind clear eachRest ?_
        intro passage goes
        have smaller := goes.sizeOf_lt
        refine inductionHypothesis _ (by omega) ?_ rfl
        simpa using clear.deeper kind goes
      | predicate | malformed | single | positional | literal =>
        exact walked_step (by simp [kind]) (by simp [kind]) clear eachRest

end Reports

section Failing

variable {cur : SlotSub} {rest subs walked : List SlotSub} {node : JsoncValue}
variable {paths : List (List SlotSub)}

/-- A walk that returns returns from each of its moves. -/
theorem exists_walkMove (returned : walkJsonc numbers node (cur :: rest) walked = .ok paths)
    {move : Move JsoncValue} (member : move ∈ dispatchSeg (jsoncOps numbers) node cur rest) :
    ∃ result, walkMove numbers node cur.slot walked move = .ok result := by
  rw [walkJsonc_cons] at returned
  obtain ⟨-, -, moved⟩ := bind_eq_ok_iff.mp returned
  obtain ⟨results, mapped, -⟩ := bind_eq_ok_iff.mp moved
  exact exists_mapM_eq_ok_iff.mp ⟨results, mapped⟩ move member

theorem checkDepth_of_walkJsonc (returned : walkJsonc numbers node subs walked = .ok paths) :
    walked.length ≤ maxTraversalDepth := by
  have checked : checkDepth walked = .ok () := by
    cases subs with
    | nil =>
      rw [walkJsonc_nil] at returned
      obtain ⟨_, checked, _⟩ := bind_eq_ok_iff.mp returned
      exact checked
    | cons cur rest =>
      rw [walkJsonc_cons] at returned
      obtain ⟨_, checked, _⟩ := bind_eq_ok_iff.mp returned
      exact checked
  rw [checkDepth, failIf_eq_ok_iff] at checked
  simpa using checked

/-- Every descent is a move with the pattern that is left. -/
theorem descend_mem_dispatchSeg {visit : Visit JsoncValue}
    (member : visit ∈ descents numbers node cur.value) :
    .descend visit rest ∈ dispatchSeg (jsoncOps numbers) node cur rest ∧
      (segKind cur.value = .recursive →
        .descend visit (cur :: rest) ∈ dispatchSeg (jsoncOps numbers) node cur rest) := by
  unfold descents at member
  unfold dispatchSeg
  cases kind : segKind cur.value with
  | union | malformed =>
    simp only [kind] at member
    cases member
  | predicate | single | positional | literal =>
    simp only [kind] at member
    exact ⟨mem_map_of_mem member, by simp⟩
  | recursive =>
    simp only [kind] at member
    exact ⟨mem_append_right _ (mem_flatMap.mpr ⟨visit, member, .head _⟩),
      fun _ => mem_append_right _ (mem_flatMap.mpr ⟨visit, member, .tail _ (.head _)⟩)⟩

/-- A walk that returns has returned from all that it comes to. -/
theorem exists_walkJsonc_of_visits {steps : ℕ} {finish : JsoncValue} {left : List SlotSub}
    (visits : Visits numbers node subs steps finish left)
    (returned : walkJsonc numbers node subs walked = .ok paths) :
    ∃ onward result, onward.length = walked.length + steps ∧
      walkJsonc numbers finish left onward = .ok result := by
  induction visits generalizing walked paths with
  | here => exact ⟨walked, paths, rfl, returned⟩
  | @alternative cur rest _ node _ alternatives alt _ kind chosen onward inductionHypothesis =>
    have retries : .retry (⟨cur.slot, alt⟩ :: rest) ∈
        dispatchSeg (jsoncOps numbers) node cur rest := by
      rw [dispatchSeg, kind]
      exact mem_map_of_mem chosen
    obtain ⟨result, isResult⟩ := exists_walkMove returned retries
    exact inductionHypothesis isResult
  | @step cur rest _ _ _ passage _ goes onward inductionHypothesis =>
    obtain ⟨result, isResult⟩ :=
      exists_walkMove returned (descend_mem_dispatchSeg goes.mem_descents).1
    obtain ⟨further, last, longer, isLast⟩ := inductionHypothesis isResult
    refine ⟨further, last, ?_, isLast⟩
    rw [longer, length_append, length_singleton]
    omega
  | @deeper cur rest _ _ _ passage _ kind goes onward inductionHypothesis =>
    obtain ⟨result, isResult⟩ :=
      exists_walkMove returned ((descend_mem_dispatchSeg goes.mem_descents).2 kind)
    obtain ⟨further, last, longer, isLast⟩ := inductionHypothesis isResult
    refine ⟨further, last, ?_, isLast⟩
    rw [longer, length_append, length_singleton]
    omega

/-- A walk returns exactly when it is clear. -/
theorem exists_walkJsonc_iff : (∃ paths, walkJsonc numbers node subs walked = .ok paths) ↔
    Clear numbers node subs walked.length := by
  constructor
  · rintro ⟨paths, returned⟩
    constructor
    · intro steps finish left visits
      obtain ⟨onward, result, length, isResult⟩ := exists_walkJsonc_of_visits visits returned
      rw [← length]
      exact checkDepth_of_walkJsonc isResult
    · intro steps finish cur rest visits visit member
      obtain ⟨onward, result, -, isResult⟩ := exists_walkJsonc_of_visits visits returned
      obtain ⟨_, moved⟩ := exists_walkMove isResult (descend_mem_dispatchSeg member).1
      obtain ⟨text, isText, -⟩ := bind_eq_ok_iff.mp moved
      exact ⟨text, isText⟩
  · intro clear
    obtain ⟨reports, walkedAs⟩ := exists_walked clear
    exact ⟨_, walkedAs.returned⟩

end Failing

end Jsonc
