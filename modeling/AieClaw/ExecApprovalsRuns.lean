import AieClaw.ExecDecisions
import AieClaw.ExecGateway

/-!
# Runs that share the approvals file

Every run keeps the file that it read, waits for a decision, and saves its whole copy
later. A decision on the disk survives when the copy that is saved still decides the
same as the disk.
-/

namespace ExecApprovals

open JsString List

/-- A command of the gateway or of a node: for which agent, and the file it holds. -/
structure Run where
  agentId : Option String
  file : ExecApprovalsFile

/-- The agent under which a run finds and saves its entries. -/
def Run.agentKey (run : Run) : String := run.agentId.getD defaultAgentId

structure RunState where
  disk : Option ExecApprovalsFile
  runs : List Run

inductive RunStep where
  | load (agentId : Option String)
  /-- An approver allowed a pattern for good. -/
  | add (index : ℕ) (pattern : String) (argPattern : Option String)
  | record
      (index : ℕ) (used : ExecAllowlistEntry) (command : String) (resolvedPath : Option String)
  /-- A request with the hash of what is on the disk. -/
  | set (incoming : ExecApprovalsFile)

def mergeExecApprovalsSocketDefaults (host : ApprovalsHost)
    (normalized current : ExecApprovalsFile) : ExecApprovalsFile :=
  { normalized with
    socketPath :=
      normalized.socketPath.map trim <|> current.socketPath.map trim <|> some host.socketPath
    token := normalized.token.map trim <|> current.token.map trim <|> some "" }

def setExecApprovals (host : ApprovalsHost) (disk : Option ExecApprovalsFile)
    (incoming : ExecApprovalsFile) : ExecApprovalsFile :=
  mergeExecApprovalsSocketDefaults host (normalizeExecApprovals host incoming)
    (normalizeExecApprovals host (ensureExecApprovals host disk))

def RunState.write (state : RunState) (index : ℕ) (run : Run) (held : Held) : RunState where
  disk := if held.saved then some held.file else state.disk
  runs := state.runs.set index { run with file := held.file }

/-- A read saves the file at once, so nothing comes between the two. -/
def RunStep.next (host : ApprovalsHost) (state : RunState) : RunStep → RunState
  | .load agentId =>
    { disk := some (ensureExecApprovals host state.disk)
      runs := state.runs ++
        [{ agentId := agentId
           file := normalizeExecApprovals host (ensureExecApprovals host state.disk) }] }
  | .add index pattern argPattern =>
    (state.runs[index]?).elim state fun run =>
      state.write index run
        (addAllowlistEntry host ⟨run.file, false⟩ run.agentId pattern argPattern)
  | .record index used command resolvedPath =>
    (state.runs[index]?).elim state fun run =>
      state.write index run
        (recordAllowlistUse host ⟨run.file, false⟩ run.agentId used command resolvedPath)
  | .set incoming => { state with disk := some (setExecApprovals host state.disk incoming) }

section

variable (state : RunState)

/-- The state after steps, each with the clock and the ids it finds. -/
def RunState.after (steps : List (ApprovalsHost × RunStep)) : RunState :=
  steps.foldl (fun state taken => taken.2.next taken.1 state) state

def RunState.begin (disk : Option ExecApprovalsFile) : RunState where
  disk := disk
  runs := []

def RunState.Holds (decision : Decision) : Prop :=
  ∃ file, state.disk = some file ∧ file.Holds decision

/-- What a run may decide by itself: its agent, and what its approver granted. -/
def RunStep.Decides (decision : Decision) : RunStep → Prop
  | .add index pattern argPattern =>
    ∃ run, state.runs[index]? = some run ∧
      (decision = .agent run.agentKey ∨
        decision = .entry run.agentKey (approvedGrant pattern argPattern))
  | .record index _ _ _ => ∃ run, state.runs[index]? = some run ∧ decision = .agent run.agentKey
  -- No run writes back what it holds here.
  | .load _ => True
  | .set _ => True

/--
What an approver granted for good stays until a request whose file lacks it, and no
run writes back a decision that the disk has not.
-/
structure KeepsDecisions (initial : Option ExecApprovalsFile)
    (steps : List (ApprovalsHost × RunStep)) : Prop where
  keepsApproved :
    ∀ before between rest host index pattern argPattern run,
      steps = before ++ (host, .add index pattern argPattern) :: (between ++ rest) →
      ((RunState.begin initial).after before).runs[index]? = some run →
      addChanges run.file run.agentId pattern argPattern = true →
      (∀ setHost incoming, (setHost, RunStep.set incoming) ∈ between →
        incoming.Holds (.entry run.agentKey (approvedGrant pattern argPattern))) →
      ((RunState.begin initial).after
          (before ++ (host, .add index pattern argPattern) :: between)).Holds
        (.entry run.agentKey (approvedGrant pattern argPattern))
  writesNothingBack :
    ∀ before rest host (taken : RunStep) decision,
      steps = before ++ (host, taken) :: rest →
      ((RunState.begin initial).after (before ++ [(host, taken)])).Holds decision →
      ((RunState.begin initial).after before).Holds decision ∨
        taken.Decides ((RunState.begin initial).after before) decision

/-- The disk decides what the file of the run decides. -/
def RunState.IsFresh (run : Run) : Prop :=
  ∃ file, state.disk = some file ∧ ∀ decision, file.Holds decision ↔ run.file.Holds decision

/-- The run saves what the disk still decides, for an agent that is not renamed. -/
def RunState.MayWrite (run : Run) : Prop :=
  state.IsFresh run ∧ run.agentKey ≠ "default"

def RunStep.IsCareful : RunStep → Prop
  | .load _ => True
  | .add index pattern argPattern =>
    ∀ run, state.runs[index]? = some run →
      addChanges run.file run.agentId pattern argPattern = true →
        state.MayWrite run ∧ ¬ Overwrites run.file run.agentId pattern argPattern
  | .record index _ _ _ => ∀ run, state.runs[index]? = some run → state.MayWrite run
  | .set incoming => incoming.NoLegacy

end

def RunState.CarefulRun : RunState → List (ApprovalsHost × RunStep) → Prop
  | _, [] => True
  | state, taken :: rest => taken.2.IsCareful state ∧ CarefulRun (taken.2.next taken.1 state) rest

section Steps

variable {host : ApprovalsHost} {state : RunState}

theorem after_append (first second : List (ApprovalsHost × RunStep)) :
    state.after (first ++ second) = (state.after first).after second :=
  foldl_append

theorem after_cons (taken : ApprovalsHost × RunStep) (rest : List (ApprovalsHost × RunStep)) :
    state.after (taken :: rest) = (taken.2.next taken.1 state).after rest :=
  rfl

theorem carefulRun_append {first second : List (ApprovalsHost × RunStep)} :
    state.CarefulRun (first ++ second) ↔
      state.CarefulRun first ∧ (state.after first).CarefulRun second := by
  induction first generalizing state with
  | nil => simp [RunState.CarefulRun, RunState.after]
  | cons taken rest inductionHypothesis =>
    rw [cons_append, RunState.CarefulRun, RunState.CarefulRun, inductionHypothesis,
      after_cons, and_assoc]

/-- The runs hold no agent of the old name. -/
def RunState.Settled (state : RunState) : Prop := ∀ run ∈ state.runs, run.file.NoLegacy

theorem noLegacy_addAllowlistEntry {held : Held} {agentId : Option String}
    {pattern : String} {argPattern : Option String} (noLegacy : held.file.NoLegacy)
    (differs : agentId.getD defaultAgentId ≠ "default") :
    (addAllowlistEntry host held agentId pattern argPattern).file.NoLegacy := by
  rw [← not_holds_legacy_iff] at noLegacy ⊢
  intro holds
  rcases holds_of_addAllowlistEntry holds with known | same | other
  · exact noLegacy known
  · exact differs (Decision.agent.inj same).symm
  · exact Decision.noConfusion other

theorem noLegacy_recordAllowlistUse {held : Held} {agentId : Option String}
    {used : ExecAllowlistEntry} {command : String} {resolvedPath : Option String}
    (noLegacy : held.file.NoLegacy) (differs : agentId.getD defaultAgentId ≠ "default") :
    (recordAllowlistUse host held agentId used command resolvedPath).file.NoLegacy := by
  rw [← not_holds_legacy_iff] at noLegacy ⊢
  intro holds
  rcases holds_recordAllowlistUse_iff.mp holds with known | same
  · exact noLegacy known
  · exact differs (Decision.agent.inj same).symm

theorem RunState.IsFresh.noLegacy {run : Run} (fresh : state.IsFresh run)
    {file : ExecApprovalsFile} (onDisk : state.disk = some file) (noLegacy : file.NoLegacy) :
    run.file.NoLegacy := by
  obtain ⟨known, isKnown, same⟩ := fresh
  obtain rfl := Option.some.inj (onDisk.symm.trans isKnown)
  rw [← not_holds_legacy_iff] at noLegacy ⊢
  exact fun holds => noLegacy ((same _).mpr holds)

variable {decision : Decision} {taken : RunStep} {steps : List (ApprovalsHost × RunStep)}

theorem RunState.IsFresh.holds {run : Run} (fresh : state.IsFresh run) :
    run.file.Holds decision ↔ state.Holds decision := by
  obtain ⟨file, onDisk, same⟩ := fresh
  constructor
  · intro holds
    exact ⟨file, onDisk, (same decision).mpr holds⟩
  · rintro ⟨known, isKnown, holds⟩
    obtain rfl := Option.some.inj (onDisk.symm.trans isKnown)
    exact (same decision).mp holds

theorem mem_runs_of_write {index : ℕ} {run other : Run} {held : Held}
    (member : other ∈ (state.write index run held).runs) :
    other ∈ state.runs ∨ other.file = held.file := by
  rcases mem_or_eq_of_mem_set member with known | rfl
  · exact Or.inl known
  · exact Or.inr rfl

/-- A careful step leaves the runs without an agent of the old name. -/
theorem RunState.Settled.next (settled : state.Settled)
    (careful : taken.IsCareful state) : (taken.next host state).Settled := by
  intro run member
  cases taken with
  | load agentId =>
    rcases mem_append.mp member with known | loaded
    · exact settled run known
    · obtain rfl := mem_singleton.mp loaded
      exact noLegacy_normalizeExecApprovals
  | add index pattern argPattern =>
    rw [RunStep.next] at member
    cases found : state.runs[index]? with
    | none =>
      rw [found] at member
      exact settled run member
    | some writer =>
      rw [found] at member
      have writerSettled := settled writer (mem_of_getElem? found)
      rcases mem_runs_of_write member with known | same
      · exact settled run known
      · rw [same]
        cases changes : addChanges writer.file writer.agentId pattern argPattern with
        | false =>
          rw [addAllowlistEntry_of_not_changes changes]
          exact writerSettled
        | true => exact noLegacy_addAllowlistEntry writerSettled (careful writer found changes).1.2
  | record index used command resolvedPath =>
    rw [RunStep.next] at member
    cases found : state.runs[index]? with
    | none =>
      rw [found] at member
      exact settled run member
    | some writer =>
      rw [found] at member
      rcases mem_runs_of_write member with known | same
      · exact settled run known
      · rw [same]
        exact noLegacy_recordAllowlistUse (settled writer (mem_of_getElem? found))
          (careful writer found).2
  | set incoming => exact settled run member

/-- A careful step writes back only what the disk holds, or what the run may decide. -/
theorem holds_of_next (careful : taken.IsCareful state)
    (holds : (taken.next host state).Holds decision) :
    state.Holds decision ∨ taken.Decides state decision := by
  cases taken with
  | load agentId => exact Or.inr trivial
  | set incoming => exact Or.inr trivial
  | add index pattern argPattern =>
    rw [RunStep.next] at holds
    cases found : state.runs[index]? with
    | none =>
      rw [found] at holds
      exact Or.inl holds
    | some run =>
      rw [found] at holds
      cases changes : addChanges run.file run.agentId pattern argPattern with
      | false =>
        simp only [Option.elim_some, RunState.write,
          addAllowlistEntry_of_not_changes changes] at holds
        exact Or.inl holds
      | true =>
        have isSaved : addAllowlistEntry host ⟨run.file, false⟩ run.agentId pattern argPattern =
              saveAllowlist run.file run.agentId
                (addedTo host run.file run.agentId pattern argPattern) :=
          addAllowlistEntry_of_changes changes
        obtain ⟨file, isFile, holdsFile⟩ := holds
        simp only [Option.elim_some, RunState.write, isSaved] at isFile
        cases isFile
        rw [← isSaved] at holdsFile
        rcases holds_of_addAllowlistEntry holdsFile with known | own
        · exact Or.inl ((careful run found changes).1.1.holds.mp known)
        · exact Or.inr ⟨run, found, own⟩
  | record index used command resolvedPath =>
    rw [RunStep.next] at holds
    cases found : state.runs[index]? with
    | none =>
      rw [found] at holds
      exact Or.inl holds
    | some run =>
      rw [found] at holds
      obtain ⟨file, isFile, holdsFile⟩ := holds
      cases isFile
      rcases holds_recordAllowlistUse_iff.mp holdsFile with known | own
      · exact Or.inl ((careful run found).1.holds.mp known)
      · exact Or.inr ⟨run, found, own⟩

/-- The disk holds a decision, and no agent of the old name. -/
def RunState.Keeps (state : RunState) (decision : Decision) : Prop :=
  ∃ file, state.disk = some file ∧ file.NoLegacy ∧ file.Holds decision

theorem RunState.Keeps.holds (keeps : state.Keeps decision) : state.Holds decision := by
  obtain ⟨file, onDisk, _, holds⟩ := keeps
  exact ⟨file, onDisk, holds⟩

theorem holds_setExecApprovals_iff {disk : Option ExecApprovalsFile} {incoming : ExecApprovalsFile}
    (noLegacy : incoming.NoLegacy) : (setExecApprovals host disk incoming).Holds decision ↔
      incoming.Holds decision ∧ decision.Counts := by
  have sameDecisions : (setExecApprovals host disk incoming).Holds decision ↔
      (normalizeExecApprovals host incoming).Holds decision :=
    holds_of_same rfl rfl decision
  rw [sameDecisions]
  exact holds_normalizeExecApprovals_iff noLegacy

theorem keeps_approvedGrant {index : ℕ} {pattern : String} {argPattern : Option String}
    {run : Run} (settled : state.Settled)
    (careful : (RunStep.add index pattern argPattern).IsCareful state)
    (found : state.runs[index]? = some run)
    (changes : addChanges run.file run.agentId pattern argPattern = true) :
    ((RunStep.add index pattern argPattern).next host state).Keeps
      (.entry run.agentKey (approvedGrant pattern argPattern)) := by
  refine ⟨(addAllowlistEntry host ⟨run.file, false⟩ run.agentId pattern argPattern).file,
    ?_, ?_, ?_⟩
  · rw [RunStep.next, found]
    simp only [Option.elim_some, RunState.write, addAllowlistEntry_of_changes changes]
    rfl
  · exact noLegacy_addAllowlistEntry (settled run (mem_of_getElem? found))
      (careful run found changes).1.2
  · exact holds_approvedGrant changes

/-- A careful step keeps a grant for good, unless its file lacks it. -/
theorem RunState.Keeps.next {agentId : String} {grant : Grant}
    (keeps : state.Keeps (.entry agentId grant)) (forGood : grant.allowAlways = true)
    (counts : trim grant.pattern ≠ "") (careful : taken.IsCareful state)
    (asked : ∀ incoming, taken = .set incoming → incoming.Holds (.entry agentId grant)) :
    (taken.next host state).Keeps (.entry agentId grant) := by
  obtain ⟨file, onDisk, noLegacy, holds⟩ := keeps
  have onDiskHolds : state.Holds (.entry agentId grant) := ⟨file, onDisk, holds⟩
  cases taken with
  | load loader =>
    refine ⟨ensureExecApprovals host state.disk, rfl, noLegacy_ensureExecApprovals _, ?_⟩
    rw [onDisk]
    exact holds_ensureExecApprovals_iff.mpr
      ⟨(holds_normalizeExecApprovals_iff noLegacy).mpr ⟨holds, counts⟩, counts⟩
  | set incoming =>
    refine ⟨setExecApprovals host state.disk incoming, rfl, noLegacy_normalizeExecApprovals, ?_⟩
    exact (holds_setExecApprovals_iff careful).mpr ⟨asked incoming rfl, counts⟩
  | add index pattern argPattern =>
    rw [RunStep.next]
    cases found : state.runs[index]? with
    | none => exact ⟨file, onDisk, noLegacy, holds⟩
    | some run =>
      cases changes : addChanges run.file run.agentId pattern argPattern with
      | false =>
        simp only [Option.elim_some, RunState.write, addAllowlistEntry_of_not_changes changes]
        exact ⟨file, onDisk, noLegacy, holds⟩
      | true =>
        obtain ⟨mayWrite, kept⟩ := careful run found changes
        refine ⟨(addAllowlistEntry host ⟨run.file, false⟩ run.agentId pattern
          argPattern).file, ?_, ?_, ?_⟩
        · simp only [Option.elim_some, RunState.write, addAllowlistEntry_of_changes changes]
          rfl
        · exact noLegacy_addAllowlistEntry (mayWrite.1.noLegacy onDisk noLegacy) mayWrite.2
        · exact addAllowlistEntry_holds_entry kept forGood (mayWrite.1.holds.mpr onDiskHolds)
  | record index used command resolvedPath =>
    rw [RunStep.next]
    cases found : state.runs[index]? with
    | none => exact ⟨file, onDisk, noLegacy, holds⟩
    | some run =>
      have mayWrite := careful run found
      exact ⟨(recordAllowlistUse host ⟨run.file, false⟩ run.agentId used command resolvedPath).file,
        rfl,
        noLegacy_recordAllowlistUse (mayWrite.1.noLegacy onDisk noLegacy) mayWrite.2,
        holds_recordAllowlistUse_iff.mpr (Or.inl (mayWrite.1.holds.mpr onDiskHolds))⟩

theorem RunState.Settled.after
    (settled : state.Settled) (careful : state.CarefulRun steps) : (state.after steps).Settled := by
  induction steps generalizing state with
  | nil => exact settled
  | cons taken rest inductionHypothesis =>
    exact inductionHypothesis (settled.next careful.1) careful.2

theorem RunState.Keeps.after {agentId : String}
    {grant : Grant} (keeps : state.Keeps (.entry agentId grant))
    (forGood : grant.allowAlways = true) (counts : trim grant.pattern ≠ "")
    (careful : state.CarefulRun steps)
    (asked : ∀ setHost incoming, (setHost, RunStep.set incoming) ∈ steps →
      incoming.Holds (.entry agentId grant)) :
    (state.after steps).Keeps (.entry agentId grant) := by
  induction steps generalizing state with
  | nil => exact keeps
  | cons taken rest inductionHypothesis =>
    refine inductionHypothesis (keeps.next forGood counts careful.1 ?_) careful.2 ?_
    · intro incoming isSet
      exact asked taken.1 incoming (mem_cons.mpr (Or.inl (Prod.ext rfl isSet.symm)))
    · intro setHost incoming member
      exact asked setHost incoming (.tail _ member)

end Steps

section Calls

variable {host : ApprovalsHost} {state : RunState} {index : ℕ} {run : Run}

theorem isFresh_load (agentId : Option String) : ((RunStep.load agentId).next host state).IsFresh
      { agentId := agentId
        file := normalizeExecApprovals host (ensureExecApprovals host state.disk) } := by
  refine ⟨ensureExecApprovals host state.disk, rfl, fun decision => ?_⟩
  rw [holds_normalizeExecApprovals_iff (noLegacy_ensureExecApprovals _)]
  constructor
  · intro holds
    exact ⟨holds, (holds_ensureExecApprovals_iff.mp holds).2⟩
  · exact And.left

end Calls

theorem keepsDecisions_of_careful (initial : Option ExecApprovalsFile)
    (steps : List (ApprovalsHost × RunStep)) (careful : (RunState.begin initial).CarefulRun steps) :
    KeepsDecisions initial steps := by
  have beginSettled : (RunState.begin initial).Settled := by
    intro run member
    exact absurd member not_mem_nil
  constructor
  · intro before between rest host index pattern argPattern run split found changes asked
    rw [split, carefulRun_append] at careful
    obtain ⟨carefulBefore, carefulAdd, carefulRest⟩ := careful
    have counts : trim (trim pattern) ≠ "" := by
      rw [trim_trim]
      exact of_decide_eq_true (Bool.and_eq_true_iff.mp changes).1
    rw [after_append, after_cons]
    exact ((keeps_approvedGrant (beginSettled.after carefulBefore) carefulAdd found
      changes).after rfl counts (carefulRun_append.mp carefulRest).1 asked).holds
  · intro before rest host taken decision split holds
    rw [split, carefulRun_append] at careful
    rw [after_append] at holds
    exact holds_of_next careful.2.1 holds

/-- Three runs read the file, and each one that is approved was the last to read it. -/
def sharingSteps : List (ApprovalsHost × RunStep) :=
  [(plainApprovalsHost, .load none), (plainApprovalsHost, .load none),
    (plainApprovalsHost, .add 1 "/bin/ls" none), (plainApprovalsHost, .load none),
    (plainApprovalsHost, .add 2 "/bin/cat" none)]

theorem keepsDecisions_sharing :
    ((((RunState.begin none).after sharingSteps).disk).map fun file =>
        (file.agentNamed defaultAgentId).grants.length) = some 2 ∧
      KeepsDecisions none sharingSteps := by
  refine ⟨by decide +kernel,
    keepsDecisions_of_careful _ _ ⟨trivial, trivial, ?_, trivial, ?_, trivial⟩⟩
  · intro run found _
    cases found
    refine ⟨⟨isFresh_load none, by decide⟩, ?_⟩
    rintro ⟨isSome, _⟩
    exact absurd isSome (by decide +kernel)
  · intro run found _
    cases found
    refine ⟨⟨isFresh_load none, by decide⟩, ?_⟩
    rintro ⟨isSome, _⟩
    exact absurd isSome (by decide +kernel)

/-- Both runs have read the file before either of them is approved. -/
def overlappingSteps : List (ApprovalsHost × RunStep) :=
  [(plainApprovalsHost, .load none), (plainApprovalsHost, .load none),
    (plainApprovalsHost, .add 0 "/bin/ls" none), (plainApprovalsHost, .add 1 "/bin/cat" none)]

/-- The second approval saves a file that lacks the first. -/
theorem not_keepsDecisions_overlapping : ¬ KeepsDecisions none overlappingSteps := by
  intro keeps
  obtain ⟨file, onDisk, holds⟩ := keeps.keepsApproved
    [(plainApprovalsHost, .load none), (plainApprovalsHost, .load none)]
    [(plainApprovalsHost, .add 1 "/bin/cat" none)] [] plainApprovalsHost 0 "/bin/ls" none
    { agentId := none
      file := normalizeExecApprovals plainApprovalsHost
        (ensureExecApprovals plainApprovalsHost none) } rfl rfl (by decide +kernel) (by simp)
  have lost : ((((RunState.begin none).after overlappingSteps).disk).map fun file =>
      (file.agentNamed defaultAgentId).grants) = some [approvedGrant "/bin/cat" none] := by
    decide +kernel
  rw [show ((RunState.begin none).after overlappingSteps).disk = some file from onDisk] at lost
  have grants : (file.agentNamed defaultAgentId).grants = [approvedGrant "/bin/cat" none] :=
    Option.some.inj lost
  have member : approvedGrant "/bin/ls" none ∈ (file.agentNamed defaultAgentId).grants := holds
  rw [grants] at member
  exact absurd member (by decide +kernel)

end ExecApprovals
