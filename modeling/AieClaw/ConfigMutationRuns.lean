import AieClaw.ConfigMutation

/-!
# Writers of the configuration file

Any number of writers work on one file. A method of the gateway checks its hash and
resolves secrets before it asks for the lock; under the lock the file is read again,
and no hash is compared. A writer that is started under the lock of another does not
ask for it.
-/

namespace ConfigWrite

open JsonValue List

inductive WriterKind where
  /-- `config.set`, `config.patch` or `config.apply`. -/
  | gateway (method : GatewayConfigMethod) (raw : String) (baseHash : Option String)
  /-- `replaceConfigFile` with what its caller makes of a snapshot, which it may pass on. -/
  | replace
      (next : ConfigFileSnapshot → JsonValue) (baseHash : Option String) (passesSnapshot : Bool)
  /-- `transformConfigFile`, with more attempts when it retries. -/
  | transform
      (next : ConfigFileSnapshot → Except String JsonValue) (baseHash : Option String)
      (attempts : ℕ)

structure Writer where
  kind : WriterKind
  unsetPaths : List (List String)
  /-- Started by a writer that held the lock, which it believes to hold as well. -/
  inheritsLock : Bool

/-- What a writer read, the hash it was checked against, and what it will write. -/
structure Plan where
  base : ConfigDisk
  checkedHash : Option String
  next : JsonValue

inductive WriterPhase where
  | idle
  /-- The secrets of the new configuration are being resolved. -/
  | resolving (plan : Plan)
  /-- The writer asks for the lock; a transformation has no plan yet. -/
  | asking (plan : Option Plan)
  | entered (plan : Option Plan) (attempts : ℕ)
  /-- The file was read under the lock, and the snapshot is of this file. -/
  | holding (plan : Plan) (snapshotOf : ConfigDisk)
  | written
  | reported
  | refused (message : String)

/-- A write, the file it was made onto, and what its writer had read. -/
structure Commit where
  writer : ℕ
  onto : ConfigDisk
  base : ConfigDisk
  checkedHash : Option String

structure WritersState where
  disk : ConfigDisk
  lock : Option ℕ
  phase : ℕ → WriterPhase
  commits : List Commit

inductive WriterStep where
  | start (writer : ℕ)
  | resolve (writer : ℕ) (outcome : Except String Unit)
  | enter (writer : ℕ)
  | read (writer : ℕ)
  | commit (writer : ℕ)
  | leave (writer : ℕ) (outcome : Except String Unit)

section Steps

variable (host : ConfigMutationHost) (writers : ℕ → Writer) (state : WritersState)

def WritersState.setPhase (writer : ℕ) (phase : WriterPhase) :
    WritersState :=
  { state with phase := Function.update state.phase writer phase }

/-- The writer ends, and the lock is free if it held it. -/
def WritersState.finish (writer : ℕ) (phase : WriterPhase) : WritersState :=
  { state.setPhase writer phase with
    lock := if state.lock = some writer then none else state.lock }

def startGateway (method : GatewayConfigMethod) (raw : String) (baseHash : Option String)
    (disk : ConfigDisk) : WriterPhase :=
  let snapshot := readConfigFileSnapshot host disk
  match requireConfigBaseHash baseHash snapshot.fileExists (diskHash host disk) with
  | .error message => .refused message
  | .ok _ =>
    match plannedConfig host method raw snapshot with
    | .error message => .refused message
    | .ok none => .refused "noop"
    | .ok (some next) =>
      .resolving
        { base := disk
          checkedHash := if snapshot.fileExists then resolveBaseHashParam baseHash else none
          next := next }

def startPhase (kind : WriterKind) (disk : ConfigDisk) : WriterPhase :=
  match kind with
  | .gateway method raw baseHash => startGateway host method raw baseHash disk
  | .replace next _ _ =>
    .asking (some
      { base := disk
        checkedHash := none
        next := next (readConfigFileSnapshot host disk) })
  | .transform _ _ _ => .asking none

def resolvedPhase (kind : WriterKind) (plan : Plan) (outcome : Except String Unit) : WriterPhase :=
  match outcome, kind with
  | .error message, _ => .refused message
  | .ok _, .gateway method _ _ =>
    if isNoop host method (readConfigFileSnapshot host plan.base) plan.next then .refused "noop"
    else .asking (some plan)
  | .ok _, _ => .asking (some plan)

def WriterKind.attempts : WriterKind → ℕ
  | .transform _ _ attempts => attempts
  | _ => 1

/-- What a read under the lock leads to; a conflict may be tried again. -/
def readPhase (kind : WriterKind) (plan : Option Plan) (attempts : ℕ) (disk : ConfigDisk) :
    WriterPhase :=
  match kind, plan with
  -- The gateway passes no hash on to the replacement.
  | .gateway _ _ _, some plan => .holding plan disk
  | .replace _ baseHash passesSnapshot, some plan =>
    let snapshotOf := if passesSnapshot then plan.base else disk
    match assertBaseHashMatches (diskHash host snapshotOf) baseHash with
    | .error message => .refused message
    | .ok _ => .holding plan snapshotOf
  | .transform next baseHash _, _ =>
    match assertBaseHashMatches (diskHash host disk) baseHash with
    | .error message => if 1 < attempts then .entered none (attempts - 1) else .refused message
    | .ok _ =>
      match next (readConfigFileSnapshot host disk) with
      | .error message => .refused message
      | .ok next => .holding { base := disk, checkedHash := none, next := next } disk
  | _, none => .refused "no plan"

/-- After a refusal the lock is given back. -/
def WritersState.proceed (writer : ℕ) (phase : WriterPhase) : WritersState :=
  match phase with
  | .refused message => state.finish writer (.refused message)
  | phase => state.setPhase writer phase

def WriterStep.next : WriterStep → WritersState
  | .start writer =>
    match state.phase writer with
    | .idle => state.setPhase writer (startPhase host (writers writer).kind state.disk)
    | _ => state
  | .resolve writer outcome =>
    match state.phase writer with
    | .resolving plan =>
      state.setPhase writer (resolvedPhase host (writers writer).kind plan outcome)
    | _ => state
  | .enter writer =>
    match state.phase writer with
    | .asking plan =>
      if (writers writer).inheritsLock then
        state.setPhase writer (.entered plan (writers writer).kind.attempts)
      else if state.lock.isSome then state
      else
        { state.setPhase writer (.entered plan (writers writer).kind.attempts) with
          lock := some writer }
    | _ => state
  | .read writer =>
    match state.phase writer with
    | .entered plan attempts =>
      state.proceed writer (readPhase host (writers writer).kind plan attempts state.disk)
    | _ => state
  | .commit writer =>
    match state.phase writer with
    | .holding plan snapshotOf =>
      match replaceTarget host (readConfigFileSnapshot host snapshotOf) plan.next
          (writers writer).unsetPaths with
      | .error message => state.finish writer (.refused message)
      | .ok target =>
        { state.setPhase writer .written with
          disk := state.disk.write target
          commits := state.commits ++
            [{ writer := writer
               onto := state.disk
               base := plan.base
               checkedHash := plan.checkedHash }] }
    | _ => state
  -- What follows a write, such as a refresh of the runtime, may still fail.
  | .leave writer outcome =>
    match state.phase writer with
    | .written =>
      state.finish writer
        (match outcome with
          | .error message => .refused message
          | .ok _ => .reported)
    | _ => state

def WritersState.after (steps : List WriterStep) : WritersState :=
  steps.foldl (fun state taken => taken.next host writers state) state

end Steps

def WritersState.initial (disk : ConfigDisk) : WritersState where
  disk := disk
  lock := none
  phase := fun _ => .idle
  commits := []

section Property

variable (host : ConfigMutationHost) (writers : ℕ → Writer)

/--
Every write that is reported was made, onto a file with the hash that its request was
checked against, and onto the files that its writer had read.
-/
structure ComparesAndSwaps (state : WritersState) : Prop where
  reportsWrites :
    ∀ writer, state.phase writer = .reported → ∃ commit ∈ state.commits, commit.writer = writer
  ontoChecked :
    ∀ commit ∈ state.commits, ∀ hash, commit.checkedHash = some hash →
      diskHash host commit.onto = some hash
  undoesNothing : ∀ commit ∈ state.commits, commit.onto = commit.base

/-- The plan that a writer was checked for, or has made under the lock. -/
def WriterPhase.plan? : WriterPhase → Option Plan
  | .resolving plan => some plan
  | .asking plan => plan
  | .entered plan _ => plan
  | .holding plan _ => some plan
  | _ => none

/-- The plan of a writer that has read the file under the lock. -/
def WriterPhase.heldPlan? : WriterPhase → Option Plan
  | .holding plan _ => some plan
  | _ => none

def WriterPhase.usesLock : WriterPhase → Bool
  | .entered _ _ => true
  | .holding _ _ => true
  | .written => true
  | _ => false

def WriterPhase.hasWritten : WriterPhase → Bool
  | .written => true
  | .reported => true
  | _ => false

/-- The comparison under the lock, which only a replacement with a hash is given, succeeds. -/
def WriterKind.PassesRead (kind : WriterKind) (plan : Plan) (disk : ConfigDisk) : Prop :=
  match kind with
  | .replace _ baseHash passesSnapshot =>
    assertBaseHashMatches (diskHash host (if passesSnapshot then plan.base else disk)) baseHash =
      .ok ()
  | _ => True

/--
A writer whom the comparison under the lock lets pass finds what its plan was made from, and
nobody writes between the reads and the writes of another when one of them only inherited
the lock.
-/
def WriterStep.IsCareful (state : WritersState) : WriterStep → Prop
  | .read writer =>
    ∀ plan attempts, state.phase writer = .entered (some plan) attempts →
      (writers writer).kind.PassesRead host plan state.disk → state.disk = plan.base
  | .commit writer =>
    (state.phase writer).heldPlan?.isSome →
      ∀ other, other ≠ writer → (state.phase other).heldPlan?.isSome →
        (writers writer).inheritsLock = false ∧ (writers other).inheritsLock = false
  | _ => True

def WritersState.CarefulRun : WritersState → List WriterStep → Prop
  | _, [] => True
  | state, taken :: rest =>
    taken.IsCareful host writers state ∧ CarefulRun (taken.next host writers state) rest

def Plan.IsChecked (plan : Plan) : Prop :=
  ∀ hash, plan.checkedHash = some hash → diskHash host plan.base = some hash

structure WritersState.Sound (state : WritersState) : Prop where
  checked : ∀ writer plan, (state.phase writer).plan? = some plan → plan.IsChecked host
  locked :
    ∀ writer, (state.phase writer).usesLock = true →
      (writers writer).inheritsLock = false → state.lock = some writer
  held : ∀ writer plan, (state.phase writer).heldPlan? = some plan → state.disk = plan.base
  wrote :
    ∀ writer, (state.phase writer).hasWritten = true →
      ∃ commit ∈ state.commits, commit.writer = writer
  ontoChecked :
    ∀ commit ∈ state.commits, ∀ hash, commit.checkedHash = some hash →
      diskHash host commit.onto = some hash
  undoesNothing : ∀ commit ∈ state.commits, commit.onto = commit.base

/-- What a phase needs of the state in which a writer takes it. -/
structure WritersState.Admits (state : WritersState) (writer : ℕ) (phase : WriterPhase) : Prop where
  checked : ∀ plan, phase.plan? = some plan → plan.IsChecked host
  locked : phase.usesLock = true → (writers writer).inheritsLock = false → state.lock = some writer
  held : ∀ plan, phase.heldPlan? = some plan → state.disk = plan.base
  wrote : phase.hasWritten = true → ∃ commit ∈ state.commits, commit.writer = writer

end Property

section Invariant

variable {host : ConfigMutationHost} {writers : ℕ → Writer} {state : WritersState} {writer : ℕ}
  {phase : WriterPhase} {plan : Plan} {snapshotOf : ConfigDisk} {steps : List WriterStep}
  {other : ℕ}

theorem WritersState.Sound.admits (sound : state.Sound host writers) (writer : ℕ) :
    state.Admits host writers writer (state.phase writer) where
  checked := sound.checked writer
  locked := sound.locked writer
  held := sound.held writer
  wrote := sound.wrote writer

theorem phase_setPhase (phase : WriterPhase) (other : ℕ) :
    (state.setPhase writer phase).phase other =
      if other = writer then phase else state.phase other :=
  Function.update_apply state.phase writer phase other

theorem WritersState.Sound.setPhase (sound : state.Sound host writers)
    (admits : state.Admits host writers writer phase) :
    (state.setPhase writer phase).Sound host writers := by
  have each : ∀ other, state.Admits host writers other
      ((state.setPhase writer phase).phase other) := by
    intro other
    rw [phase_setPhase]
    by_cases same : other = writer
    · rw [if_pos same, same]
      exact admits
    · rw [if_neg same]
      exact sound.admits other
  exact
    { checked := fun other => (each other).checked
      locked := fun other => (each other).locked
      held := fun other => (each other).held
      wrote := fun other => (each other).wrote
      ontoChecked := sound.ontoChecked
      undoesNothing := sound.undoesNothing }

theorem WritersState.Sound.finish (sound : state.Sound host writers)
    (admits : state.Admits host writers writer phase) (outside : phase.usesLock = false) :
    (state.finish writer phase).Sound host writers := by
  have moved := sound.setPhase admits
  refine ⟨moved.checked, ?_, moved.held, moved.wrote, moved.ontoChecked, moved.undoesNothing⟩
  intro other uses owns
  have kept := moved.locked other uses owns
  have differs : other ≠ writer := by
    rintro rfl
    have phaseIs : (state.finish other phase).phase other = phase := by
      simp [WritersState.finish, phase_setPhase]
    rw [phaseIs, outside] at uses
    exact Bool.noConfusion uses
  have notOurs : state.lock ≠ some writer := by
    intro ours
    exact differs (Option.some.inj (kept.symm.trans ours))
  simpa [WritersState.finish, WritersState.setPhase, notOurs] using kept

theorem admits_of_checked (checked : ∀ plan, phase.plan? = some plan → plan.IsChecked host)
    (notHeld : phase.heldPlan? = none) (outside : phase.usesLock = false)
    (noWrite : phase.hasWritten = false) : state.Admits host writers writer phase where
  checked := checked
  locked uses := by simp [outside] at uses
  held plan isHeld := by simp [notHeld] at isHeld
  wrote hasWritten := by simp [noWrite] at hasWritten

theorem admits_refused (message : String) : state.Admits host writers writer (.refused message) :=
  admits_of_checked (fun _ isPlan => absurd isPlan (by simp [WriterPhase.plan?])) rfl rfl rfl

theorem resolveBaseHashParam_of_required {baseHash snapshotHash : Option String}
    (passed : requireConfigBaseHash baseHash true snapshotHash = .ok ()) :
    resolveBaseHashParam baseHash = snapshotHash := by
  cases snapshotHash with
  | none => exact absurd passed (by simp [requireConfigBaseHash])
  | some snapshotHash =>
    cases sent : resolveBaseHashParam baseHash with
    | none => exact absurd passed (by simp [requireConfigBaseHash, sent])
    | some baseHash =>
      by_contra differs
      exact absurd passed (by simp_all [requireConfigBaseHash])

theorem admits_startGateway (method : GatewayConfigMethod) (raw : String)
    (baseHash : Option String) (disk : ConfigDisk) :
    state.Admits host writers writer (startGateway host method raw baseHash disk) := by
  simp only [startGateway]
  cases passed : requireConfigBaseHash baseHash (readConfigFileSnapshot host disk).fileExists
      (diskHash host disk) with
  | error message => exact admits_refused message
  | ok done =>
    cases plannedConfig host method raw (readConfigFileSnapshot host disk) with
    | error message => exact admits_refused message
    | ok planned =>
      cases planned with
      | none => exact admits_refused _
      | some next =>
        refine admits_of_checked ?_ rfl rfl rfl
        intro plan isPlan hash isChecked
        cases isPlan
        cases found : (readConfigFileSnapshot host disk).fileExists with
        | false => simp [found] at isChecked
        | true =>
          rw [found] at passed
          simp only [found, if_true] at isChecked
          rw [← resolveBaseHashParam_of_required passed]
          exact isChecked

theorem admits_startPhase (kind : WriterKind) (disk : ConfigDisk) :
    state.Admits host writers writer (startPhase host kind disk) := by
  cases kind with
  | gateway method raw baseHash => exact admits_startGateway method raw baseHash disk
  | replace next baseHash passesSnapshot =>
    refine admits_of_checked ?_ rfl rfl rfl
    intro plan isPlan hash isChecked
    cases isPlan
    exact absurd isChecked (by simp)
  | transform next baseHash attempts =>
    exact admits_of_checked
      (fun _ isPlan => absurd isPlan (by simp [startPhase, WriterPhase.plan?])) rfl rfl rfl

theorem admits_asking (checked : plan.IsChecked host) :
    state.Admits host writers writer (.asking (some plan)) := by
  refine admits_of_checked ?_ rfl rfl rfl
  intro other isPlan
  cases isPlan
  exact checked

theorem admits_resolvedPhase (checked : plan.IsChecked host)
    (kind : WriterKind) (outcome : Except String Unit) :
    state.Admits host writers writer (resolvedPhase host kind plan outcome) := by
  cases outcome with
  | error message => exact admits_refused message
  | ok done =>
    cases kind with
    | gateway method raw baseHash =>
      simp only [resolvedPhase]
      split
      · exact admits_refused _
      · exact admits_asking checked
    | replace next baseHash passesSnapshot => exact admits_asking checked
    | transform next baseHash attempts => exact admits_asking checked

theorem admits_holding (checked : plan.IsChecked host)
    (locked : (writers writer).inheritsLock = false → state.lock = some writer)
    (base : state.disk = plan.base) :
    state.Admits host writers writer (.holding plan snapshotOf) where
  checked other isPlan := by
    cases isPlan
    exact checked
  locked _ := locked
  held other isHeld := by
    cases isHeld
    exact base
  wrote hasWritten := Bool.noConfusion hasWritten

section

variable (sound : state.Sound host writers)
include sound

theorem admits_readPhase {plan : Option Plan} {attempts : ℕ}
    (entered : state.phase writer = .entered plan attempts)
    (careful : (WriterStep.read writer).IsCareful host writers state) :
    state.Admits host writers writer
      (readPhase host (writers writer).kind plan attempts state.disk) := by
  have locked : (writers writer).inheritsLock = false → state.lock = some writer :=
    sound.locked writer (by rw [entered]; rfl)
  have checked : ∀ known, plan = some known → known.IsChecked host := by
    intro known isPlan
    refine sound.checked writer known ?_
    rw [entered]
    exact isPlan
  have based : ∀ known, plan = some known →
      (writers writer).kind.PassesRead host known state.disk → state.disk = known.base := by
    rintro known rfl
    exact careful known attempts entered
  cases kind : (writers writer).kind with
  | gateway method raw baseHash =>
    rw [kind] at based
    cases plan with
    | none => exact admits_refused _
    | some plan => exact admits_holding (checked plan rfl) locked (based plan rfl trivial)
  | replace next baseHash passesSnapshot =>
    rw [kind] at based
    cases plan with
    | none => exact admits_refused _
    | some plan =>
      simp only [readPhase]
      cases compared : assertBaseHashMatches
          (diskHash host (if passesSnapshot then plan.base else state.disk)) baseHash with
      | error message => exact admits_refused message
      | ok done => exact admits_holding (checked plan rfl) locked (based plan rfl compared)
  | transform next baseHash maxAttempts =>
    simp only [readPhase]
    cases assertBaseHashMatches (diskHash host state.disk) baseHash with
    | error message =>
      simp only
      split
      · exact
          { checked := fun _ isPlan => absurd isPlan (by simp [WriterPhase.plan?])
            locked := fun _ => locked
            held := fun _ isHeld => absurd isHeld (by simp [WriterPhase.heldPlan?])
            wrote := fun hasWritten => Bool.noConfusion hasWritten }
      · exact admits_refused message
    | ok done =>
      simp only
      cases next (readConfigFileSnapshot host state.disk) with
      | error message => exact admits_refused message
      | ok next =>
        refine admits_holding ?_ locked rfl
        intro hash isChecked
        exact absurd isChecked (by simp)

theorem WritersState.Sound.proceed (admits : state.Admits host writers writer phase) :
    (state.proceed writer phase).Sound host writers := by
  cases phase with
  | refused message => exact sound.finish admits rfl
  | _ => exact sound.setPhase admits

theorem WritersState.Sound.lock
    (free : state.lock = none) (checked : ∀ plan, phase.plan? = some plan → plan.IsChecked host)
    (notHeld : phase.heldPlan? = none) (noWrite : phase.hasWritten = false) :
    ({ state.setPhase writer phase with lock := some writer } : WritersState).Sound
      host writers := by
  have moved : ({ state with lock := some writer } : WritersState).Sound host writers := by
    refine ⟨sound.checked, ?_, sound.held, sound.wrote, sound.ontoChecked, sound.undoesNothing⟩
    intro other uses owns
    have kept := sound.locked other uses owns
    rw [free] at kept
    exact absurd kept (by simp)
  refine moved.setPhase ⟨checked, fun _ _ => rfl, ?_, ?_⟩
  · intro plan isHeld
    exact absurd isHeld (by simp [notHeld])
  · intro hasWritten
    exact absurd hasWritten (by simp [noWrite])

/-- A write finds what its writer read, and spoils no plan that another holds. -/
theorem WritersState.Sound.commit (holding : state.phase writer = .holding plan snapshotOf)
    (careful : (WriterStep.commit writer).IsCareful host writers state)
    (target : ConfigWriteTarget) :
    ({ state.setPhase writer .written with
        disk := state.disk.write target
        commits := state.commits ++
          [{ writer := writer
             onto := state.disk
             base := plan.base
             checkedHash := plan.checkedHash }] } : WritersState).Sound host writers := by
  have isHeld : (state.phase writer).heldPlan? = some plan := by rw [holding]; rfl
  have isPlan : (state.phase writer).plan? = some plan := by rw [holding]; rfl
  have uses : (state.phase writer).usesLock = true := by rw [holding]; rfl
  have based : state.disk = plan.base := sound.held writer plan isHeld
  have alone : ∀ other, other ≠ writer → (state.phase other).heldPlan? = none := by
    intro other differs
    cases otherHolds : (state.phase other).heldPlan? with
    | none => rfl
    | some otherPlan =>
      obtain ⟨owns, otherOwns⟩ := careful (by simp [isHeld]) other differs (by simp [otherHolds])
      have otherUses : (state.phase other).usesLock = true := by
        cases phase : state.phase other with
        | holding plan snapshotOf => rfl
        | _ =>
          rw [phase] at otherHolds
          exact absurd otherHolds (by simp [WriterPhase.heldPlan?])
      have ours := sound.locked writer uses owns
      have theirs := sound.locked other otherUses otherOwns
      exact absurd (Option.some.inj (theirs.symm.trans ours)) differs
  constructor
  · intro other otherPlan isOther
    rw [phase_setPhase] at isOther
    by_cases same : other = writer
    · rw [if_pos same] at isOther
      exact absurd isOther (by simp [WriterPhase.plan?])
    · rw [if_neg same] at isOther
      exact sound.checked other otherPlan isOther
  · intro other otherUses owns
    rw [phase_setPhase] at otherUses
    by_cases same : other = writer
    · subst same
      exact sound.locked other uses owns
    · rw [if_neg same] at otherUses
      exact sound.locked other otherUses owns
  · intro other otherPlan otherHeld
    rw [phase_setPhase] at otherHeld
    by_cases same : other = writer
    · rw [if_pos same] at otherHeld
      exact absurd otherHeld (by simp [WriterPhase.heldPlan?])
    · rw [if_neg same, alone other same] at otherHeld
      exact absurd otherHeld (by simp)
  · intro other hasWritten
    rw [phase_setPhase] at hasWritten
    by_cases same : other = writer
    · exact ⟨_, mem_append_right _ (mem_singleton.mpr rfl), same.symm⟩
    · rw [if_neg same] at hasWritten
      obtain ⟨commit, member, isOther⟩ := sound.wrote other hasWritten
      exact ⟨commit, mem_append_left _ member, isOther⟩
  · intro commit member hash isChecked
    rcases mem_append.mp member with known | new
    · exact sound.ontoChecked commit known hash isChecked
    · obtain rfl := mem_singleton.mp new
      rw [based]
      exact sound.checked writer plan isPlan hash isChecked
  · intro commit member
    rcases mem_append.mp member with known | new
    · exact sound.undoesNothing commit known
    · obtain rfl := mem_singleton.mp new
      exact based

/-- A careful step keeps the invariant. -/
theorem WritersState.Sound.next {taken : WriterStep}
    (careful : taken.IsCareful host writers state) :
    (taken.next host writers state).Sound host writers := by
  cases taken with
  | start writer =>
    simp only [WriterStep.next]
    cases state.phase writer with
    | idle => exact sound.setPhase (admits_startPhase _ _)
    | _ => exact sound
  | resolve writer outcome =>
    simp only [WriterStep.next]
    cases phase : state.phase writer with
    | resolving plan =>
      refine sound.setPhase (admits_resolvedPhase ?_ _ _)
      exact sound.checked writer plan (by rw [phase]; rfl)
    | _ => exact sound
  | enter writer =>
    simp only [WriterStep.next]
    cases phase : state.phase writer with
    | asking plan =>
      have checked : ∀ known, plan = some known → known.IsChecked host := by
        intro known isPlan
        refine sound.checked writer known ?_
        rw [phase]
        exact isPlan
      simp only
      split
      · rename_i inherits
        refine sound.setPhase ⟨checked, ?_, ?_, ?_⟩
        · intro _ owns
          exact absurd (inherits.symm.trans owns) (by simp)
        · intro known isHeld
          exact absurd isHeld (by simp [WriterPhase.heldPlan?])
        · intro hasWritten
          exact Bool.noConfusion hasWritten
      · split
        · exact sound
        · rename_i free
          exact sound.lock (by simpa using free) checked rfl rfl
    | _ => exact sound
  | read writer =>
    simp only [WriterStep.next]
    cases phase : state.phase writer with
    | entered plan attempts => exact sound.proceed (admits_readPhase sound phase careful)
    | _ => exact sound
  | commit writer =>
    simp only [WriterStep.next]
    cases phase : state.phase writer with
    | holding plan snapshotOf =>
      simp only
      cases replaceTarget host (readConfigFileSnapshot host snapshotOf) plan.next
          (writers writer).unsetPaths with
      | error message => exact sound.finish (admits_refused message) rfl
      | ok target => exact sound.commit phase careful target
    | _ => exact sound
  | leave writer outcome =>
    simp only [WriterStep.next]
    cases phase : state.phase writer with
    | written =>
      cases outcome with
      | error message => exact sound.finish (admits_refused message) rfl
      | ok done =>
        refine sound.finish ⟨?_, ?_, ?_, ?_⟩ rfl
        · intro plan isPlan
          exact absurd isPlan (by simp [WriterPhase.plan?])
        · intro uses
          exact Bool.noConfusion uses
        · intro plan isHeld
          exact absurd isHeld (by simp [WriterPhase.heldPlan?])
        · intro _
          exact sound.wrote writer (by rw [phase]; rfl)
    | _ => exact sound

end

theorem sound_initial (disk : ConfigDisk) : (WritersState.initial disk).Sound host writers where
  checked _ _ isPlan := absurd isPlan (by simp [WritersState.initial, WriterPhase.plan?])
  locked _ uses := Bool.noConfusion uses
  held _ _ isHeld := absurd isHeld (by simp [WritersState.initial, WriterPhase.heldPlan?])
  wrote _ hasWritten := Bool.noConfusion hasWritten
  ontoChecked _ member := absurd member (by simp [WritersState.initial])
  undoesNothing _ member := absurd member (by simp [WritersState.initial])

theorem WritersState.Sound.after
    (sound : state.Sound host writers) (careful : state.CarefulRun host writers steps) :
    (state.after host writers steps).Sound host writers := by
  induction steps generalizing state with
  | nil => exact sound
  | cons taken rest inductionHypothesis =>
    exact inductionHypothesis (sound.next careful.1) careful.2

def WriterStep.takenBy : WriterStep → ℕ
  | .start writer => writer
  | .resolve writer _ => writer
  | .enter writer => writer
  | .read writer => writer
  | .commit writer => writer
  | .leave writer _ => writer

theorem phase_setPhase_of_ne (differs : other ≠ writer) (phase : WriterPhase) :
    (state.setPhase writer phase).phase other = state.phase other := by
  rw [phase_setPhase, if_neg differs]

theorem phase_proceed_of_ne (differs : other ≠ writer) (phase : WriterPhase) :
    (state.proceed writer phase).phase other = state.phase other := by
  cases phase with
  | _ => exact phase_setPhase_of_ne differs _

theorem phase_next_of_ne {taken : WriterStep} (differs : other ≠ taken.takenBy) :
    (taken.next host writers state).phase other = state.phase other := by
  cases taken with
  | start writer =>
    simp only [WriterStep.next]
    split
    · exact phase_setPhase_of_ne differs _
    · rfl
  | resolve writer outcome =>
    simp only [WriterStep.next]
    split
    · exact phase_setPhase_of_ne differs _
    · rfl
  | enter writer =>
    simp only [WriterStep.next]
    split
    · split
      · exact phase_setPhase_of_ne differs _
      · split
        · rfl
        · exact phase_setPhase_of_ne differs _
    · rfl
  | read writer =>
    simp only [WriterStep.next]
    split
    · exact phase_proceed_of_ne differs _
    · rfl
  | commit writer =>
    simp only [WriterStep.next]
    split
    · split
      · exact phase_setPhase_of_ne differs _
      · exact phase_setPhase_of_ne differs _
    · rfl
  | leave writer outcome =>
    simp only [WriterStep.next]
    split
    · exact phase_setPhase_of_ne differs _
    · rfl

theorem phase_after_of_ne (absent : ∀ taken ∈ steps, other ≠ taken.takenBy) :
    (state.after host writers steps).phase other = state.phase other := by
  induction steps generalizing state with
  | nil => rfl
  | cons taken rest inductionHypothesis =>
    have later : ∀ taken ∈ rest, other ≠ taken.takenBy := fun taken member =>
      absent taken (.tail _ member)
    have step : (state.after host writers (taken :: rest)).phase other =
        (taken.next host writers state).phase other := inductionHypothesis later
    rw [step]
    exact phase_next_of_ne (absent taken mem_cons_self)

end Invariant

theorem comparesAndSwaps_of_careful (host : ConfigMutationHost) (writers : ℕ → Writer)
    (disk : ConfigDisk) (steps : List WriterStep)
    (careful : (WritersState.initial disk).CarefulRun host writers steps) :
    ComparesAndSwaps host ((WritersState.initial disk).after host writers steps) := by
  have sound := (sound_initial disk).after careful
  refine ⟨?_, sound.ontoChecked, sound.undoesNothing⟩
  intro writer reported
  exact sound.wrote writer (by rw [reported]; rfl)

def debugText : String := "\x7b\"logging\":\x7b\"level\":\"debug\"\x7d\x7d"

def betaText : String := "\x7b\"update\":\x7b\"channel\":\"beta\"\x7d\x7d"

/-- The texts that occur, and what they parse to. -/
def plainTexts : List (String × JsonValue) :=
  [("\x7b\x7d", .object []),
    (debugText, .object [("logging", .object [("level", .string "debug")])]),
    (betaText, .object [("update", .object [("channel", .string "beta")])])]

def plainMutationHost : ConfigMutationHost where
  hashConfigRaw raw := "hash of " ++ raw.getD "nothing"
  parseConfigJson5 raw := (plainTexts.lookup raw).elim (.error "JSON5: invalid") .ok
  resolveConfigForRead _ parsed :=
    .ok { sourceConfig := parsed, runtimeConfig := parsed, valid := true }
  validateConfigObjectWithPlugins := .ok
  restoreRedactedValues parsed _ := .ok parsed
  applyMergePatchById _ patch := patch
  diffConfigPaths base next := if isDeepStrictEqual base next then [] else [""]
  resolveInsideRoot _ := none
  stringify _ := "null"
  composeRoot _ next :=
    (plainTexts.find? fun known => isDeepStrictEqual known.2 next).elim
      (.error "invalid config") fun known => .ok known.1

def emptyConfigDisk : ConfigDisk where
  root := some "\x7b\x7d"
  included := OrderedMap.empty

/-- Both requests carry the hash of the empty configuration. -/
def settingWriters (writer : ℕ) : Writer where
  kind := .gateway .set (if writer = 0 then debugText else betaText) (some "hash of \x7b\x7d")
  unsetPaths := []
  inheritsLock := false

/-- Both requests are checked before either of them gets the lock. -/
def overlappingWriterSteps : List WriterStep :=
  [.start 0, .start 1, .resolve 0 (.ok ()), .resolve 1 (.ok ()), .enter 0, .read 0,
    .commit 0, .leave 0 (.ok ()), .enter 1, .read 1, .commit 1, .leave 1 (.ok ())]

/--
The first request writes while a replacement waits that carries the old hash, and the
last request carries the new one.
-/
def sharingWriters : ℕ → Writer
  | 0 => settingWriters 0
  | 1 =>
    { kind := .replace (fun _ => .object []) (some "hash of \x7b\x7d") false
      unsetPaths := []
      inheritsLock := false }
  | _ =>
    { settingWriters 1 with kind := .gateway .set betaText (some ("hash of " ++ debugText)) }

def sharingSteps : List WriterStep :=
  [.start 0, .start 1, .resolve 0 (.ok ()), .enter 0, .read 0, .commit 0, .leave 0 (.ok ()),
    .enter 1, .read 1, .start 2, .resolve 2 (.ok ()), .enter 2, .read 2, .commit 2,
    .leave 2 (.ok ())]

/-- Until so many steps are done, the only plan that is held is that of the writer. -/
theorem heldPlan?_sharing (count : ℕ) {writer : ℕ}
    (others : ∀ other < 3, other ≠ writer →
      (((WritersState.initial emptyConfigDisk).after plainMutationHost sharingWriters
        (sharingSteps.take count)).phase other).heldPlan?.isSome = false)
    {other : ℕ} (differs : other ≠ writer) :
    (((WritersState.initial emptyConfigDisk).after plainMutationHost sharingWriters
      (sharingSteps.take count)).phase other).heldPlan?.isSome = false := by
  by_cases known : other < 3
  · exact others other known differs
  · rw [phase_after_of_ne]
    · rfl
    · intro taken member
      have three : ∀ taken ∈ sharingSteps, taken.takenBy < 3 := by decide
      have isKnown := three taken (mem_of_mem_take member)
      omega

theorem comparesAndSwaps_sharing :
    ((WritersState.initial emptyConfigDisk).after plainMutationHost sharingWriters
        sharingSteps).commits.length = 2 ∧
      ComparesAndSwaps plainMutationHost
        ((WritersState.initial emptyConfigDisk).after plainMutationHost sharingWriters
          sharingSteps) := by
  refine ⟨by decide +kernel, comparesAndSwaps_of_careful _ _ _ _
    ⟨trivial, trivial, trivial, trivial, ?_, ?_, trivial, trivial, ?_, trivial, trivial, trivial,
      ?_, ?_, trivial, trivial⟩⟩
  · intro plan attempts entered _
    obtain ⟨isPlan, _⟩ := WriterPhase.entered.inj entered
    cases isPlan
    rfl
  · intro _ other differs holds
    have none := heldPlan?_sharing 5 (by decide +kernel) differs
    exact absurd (none.symm.trans holds) (by simp)
  · intro plan attempts _ passes
    have refused : assertBaseHashMatches (diskHash plainMutationHost
        ((WritersState.initial emptyConfigDisk).after plainMutationHost sharingWriters
          (sharingSteps.take 8)).disk) (some "hash of \x7b\x7d") =
        .error "config changed since last load" := by
      decide +kernel
    exact absurd (refused.symm.trans passes) (by simp)
  · intro plan attempts entered _
    obtain ⟨isPlan, _⟩ := WriterPhase.entered.inj entered
    cases isPlan
    rfl
  · intro _ other differs holds
    have none := heldPlan?_sharing 13 (by decide +kernel) differs
    exact absurd (none.symm.trans holds) (by simp)

theorem not_comparesAndSwaps_overlapping :
    ¬ ComparesAndSwaps plainMutationHost
      ((WritersState.initial emptyConfigDisk).after plainMutationHost settingWriters
        overlappingWriterSteps) := by
  intro swaps
  have hashes : (((WritersState.initial emptyConfigDisk).after plainMutationHost
      settingWriters overlappingWriterSteps).commits.map fun commit =>
        (commit.checkedHash, diskHash plainMutationHost commit.onto)) =
      [(some "hash of \x7b\x7d", some "hash of \x7b\x7d"),
        (some "hash of \x7b\x7d", some ("hash of " ++ debugText))] := by
    decide +kernel
  obtain ⟨commit, member, isCommit⟩ := mem_map.mp
    (hashes ▸ mem_cons_of_mem _ (mem_singleton.mpr rfl))
  obtain ⟨sent, found⟩ := Prod.mk.inj isCommit
  have onto := swaps.ontoChecked commit member _ sent
  rw [found] at onto
  exact absurd onto (by decide +kernel)

end ConfigWrite
