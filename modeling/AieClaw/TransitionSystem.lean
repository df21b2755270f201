import Mathlib.Data.List.Basic
import Mathlib.Order.WellFounded

/-!
# Finite labelled runs

A machine is a step relation between states, labelled by the action that the
step performs. A run is a finite sequence of steps, extended at its end, so an
invariant proof splits on the last step.

`Restricted` keeps the steps whose source state and action satisfy a condition.
Runs of the restricted machine are the runs in which every step meets it.
-/

namespace TransitionSystem

universe u v

variable {State : Type u} {Action : Type v}

/-- A labelled step relation. -/
abbrev StepRelation (State : Type u) (Action : Type v) := State → Action → State → Prop

/-- A finite run and the actions it performed, in order. -/
inductive Run (step : StepRelation State Action) (start : State) : List Action → State → Prop where
  | refl : Run step start [] start
  | snoc
      {middle finish : State} {actions : List Action} {action : Action}
      (run : Run step start actions middle) (last : step middle action finish) :
      Run step start (actions ++ [action]) finish

/-- The states that some finite run reaches from an initial state. -/
def Reachable (step : StepRelation State Action) (initial : State → Prop) (state : State) : Prop :=
  ∃ start actions, initial start ∧ Run step start actions state

/-- The steps whose source state and action satisfy `condition`. -/
def Restricted (step : StepRelation State Action) (condition : State → Action → Prop) :
    StepRelation State Action :=
  fun source action target => condition source action ∧ step source action target

/-- Every step of the machine carries the invariant across. -/
def Preserves (step : StepRelation State Action) (invariant : State → Prop) : Prop :=
  ∀ ⦃source action target⦄,
    step source action target →
    invariant source →
    invariant target

namespace Run

variable {step : StepRelation State Action}

theorem single {source target : State} {action : Action} (taken : step source action target) :
    Run step source [action] target :=
  Run.refl.snoc taken

theorem append {start middle finish : State} {first second : List Action}
    (earlier : Run step start first middle) (later : Run step middle second finish) :
    Run step start (first ++ second) finish := by
  induction later with
  | refl => simpa using earlier
  | snoc run last inductionHypothesis =>
    rw [← List.append_assoc]
    exact inductionHypothesis.snoc last

theorem invariant {holds : State → Prop} (preserved : Preserves step holds)
    {start finish : State} {actions : List Action} (run : Run step start actions finish)
    (initially : holds start) : holds finish := by
  induction run with
  | refl => exact initially
  | snoc run last inductionHypothesis => exact preserved last inductionHypothesis

theorem of_foldlM {step? : State → Action → Option State} {start finish : State}
    {actions : List Action} (executed : actions.foldlM step? start = some finish) :
    Run (fun source action target => step? source action = some target) start actions finish := by
  induction actions generalizing start with
  | nil =>
    cases executed
    exact Run.refl
  | cons action rest inductionHypothesis =>
    rw [List.foldlM_cons] at executed
    obtain ⟨middle, first, later⟩ := Option.bind_eq_some_iff.mp executed
    exact (Run.single first).append (inductionHypothesis later)

theorem mono {weaker : StepRelation State Action} (implies : ∀ ⦃source action target⦄,
        step source action target →
        weaker source action target) {start finish : State} {actions : List Action}
    (run : Run step start actions finish) : Run weaker start actions finish := by
  induction run with
  | refl => exact Run.refl
  | snoc run last inductionHypothesis => exact inductionHypothesis.snoc (implies last)

end Run

namespace Reachable

variable {step : StepRelation State Action} {initial : State → Prop}

theorem start {state : State} (isInitial : initial state) : Reachable step initial state :=
  ⟨state, [], isInitial, Run.refl⟩

theorem run {state finish : State} {actions : List Action}
    (reachable : Reachable step initial state) (later : Run step state actions finish) :
    Reachable step initial finish := by
  obtain ⟨start, earlier, isInitial, run⟩ := reachable
  exact ⟨start, earlier ++ actions, isInitial, run.append later⟩

theorem next {state finish : State} {action : Action}
    (reachable : Reachable step initial state) (taken : step state action finish) :
    Reachable step initial finish :=
  reachable.run (Run.single taken)

theorem invariant {holds : State → Prop}
    (initially : ∀ ⦃state⦄, initial state → holds state) (preserved : Preserves step holds)
    {state : State} (reachable : Reachable step initial state) : holds state := by
  obtain ⟨start, actions, isInitial, run⟩ := reachable
  have atStart : holds start := initially isInitial
  exact Run.invariant preserved run atStart

end Reachable

theorem Run.of_restricted {step : StepRelation State Action}
    {condition : State → Action → Prop} {start finish : State} {actions : List Action}
    (run : Run (Restricted step condition) start actions finish) : Run step start actions finish :=
  run.mono fun _ _ _ taken => taken.2

/--
Executing a partial step function, at each step only when a test allows it, is
a run of the restricted machine.
-/
theorem Run.restricted_of_foldlM {step? : State → Action → Option State}
    {allows : State → Action → Bool} {start finish : State} {actions : List Action}
    (executed : actions.foldlM
          (fun source action => if allows source action then step? source action else none) start =
        some finish) : Run
      (Restricted (fun source action target => step? source action = some target)
        fun source action => allows source action = true)
      start actions finish := by
  apply (Run.of_foldlM executed).mono
  intro source action target taken
  split at taken
  next allowed => exact ⟨allowed, taken⟩
  · simp at taken

/--
Whatever the choices, the machine reaches the goal after finitely many moves:
it is there, or some move is possible and every possible one leads on.
-/
inductive Inevitable (move : State → State → Prop) (goal : State → Prop) : State → Prop where
  | now
      {state : State} (reached : goal state) : Inevitable move goal state
  | later
      {state : State} (possible : ∃ next, move state next)
      (always : ∀ next, move state next → Inevitable move goal next) : Inevitable move goal state

namespace Inevitable

variable {move : State → State → Prop} {goal : State → Prop}

theorem of_measure {Rank : Type*} [LT Rank] [WellFoundedLT Rank] {invariant : State → Prop}
    (measure : State → Rank)
    (possible : ∀ state, invariant state → ¬goal state → ∃ next, move state next)
    (advances : ∀ state next, invariant state →
        ¬goal state →
        move state next →
        goal next ∨ (invariant next ∧ measure next < measure state)) :
    ∀ state, invariant state → Inevitable move goal state := by
  intro state
  induction state using (InvImage.wf measure wellFounded_lt).induction with
  | _ state inductionHypothesis =>
    intro holds
    by_cases reached : goal state
    · exact .now reached
    · apply Inevitable.later (possible state holds reached)
      intro next moved
      rcases advances state next holds reached moved with arrived | ⟨kept, lower⟩
      · exact .now arrived
      · exact inductionHypothesis next lower kept

theorem not_of_trap {trap : State → Prop} (avoids : ∀ state, trap state → ¬goal state)
    (stays : ∀ state, trap state → ∃ next, move state next ∧ trap next) {state : State}
    (inside : trap state) : ¬Inevitable move goal state := by
  intro inevitable
  induction inevitable with
  | now reached => exact avoids _ inside reached
  | later possible always inductionHypothesis =>
    obtain ⟨next, moved, still⟩ := stays _ inside
    exact inductionHypothesis next moved still

end Inevitable

end TransitionSystem
