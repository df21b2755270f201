import AieClaw.TransitionSystem

/-!
# Infinite runs

An execution is an infinite run of a machine. What happens in it eventually is
shown from two rules: a state predicate that every step keeps holds for ever,
unless the goal comes up; and a predicate under which some rank always drops
leads to the goal.
-/

namespace TransitionSystem

universe u v

variable {State : Type u} {Action : Type v}

/-- An infinite sequence of steps. -/
structure Execution (step : StepRelation State Action) where
  state : ℕ → State
  action : ℕ → Action
  taken : ∀ moment, step (state moment) (action moment) (state (moment + 1))

namespace Execution

variable {step : StepRelation State Action}

theorem run (execution : Execution step) (moment : ℕ) :
    ∃ actions, Run step (execution.state 0) actions (execution.state moment) := by
  induction moment with
  | zero => exact ⟨[], Run.refl⟩
  | succ moment inductionHypothesis =>
    obtain ⟨actions, earlier⟩ := inductionHypothesis
    exact ⟨actions ++ [execution.action moment], earlier.snoc (execution.taken moment)⟩

theorem reachable {initial : State → Prop} (execution : Execution step)
    (begins : initial (execution.state 0)) (moment : ℕ) :
    Reachable step initial (execution.state moment) := by
  obtain ⟨actions, run⟩ := execution.run moment
  exact ⟨execution.state 0, actions, begins, run⟩

/-- An execution after one more step at its beginning. -/
def prepend (source : State) (action : Action) (rest : Execution step)
    (taken : step source action (rest.state 0)) : Execution step where
  state
    | 0 => source
    | moment + 1 => rest.state moment
  action
    | 0 => action
    | moment + 1 => rest.action moment
  taken
    | 0 => taken
    | moment + 1 => rest.taken moment

end Execution

theorem always_of_kept (holds : ℕ → Prop) {start : ℕ} (begins : holds start)
    (kept : ∀ moment ≥ start, holds moment → holds (moment + 1)) (moment : ℕ)
    (later : start ≤ moment) : holds moment := by
  induction moment, later using Nat.le_induction with
  | base => exact begins
  | succ moment later inductionHypothesis => exact kept moment later inductionHypothesis

theorem holds_until {holds goal : ℕ → Prop} {start finish : ℕ} (begins : holds start)
    (kept : ∀ moment ≥ start, holds moment → holds (moment + 1) ∨ goal moment)
    (later : start ≤ finish) (reached : goal finish) :
    ∃ moment, start ≤ moment ∧ moment ≤ finish ∧ holds moment ∧ goal moment := by
  by_contra never
  have persists : ∀ moment, start ≤ moment → moment ≤ finish → holds moment := by
    intro moment after
    induction moment, after using Nat.le_induction with
    | base =>
      intro _
      exact begins
    | succ moment after inductionHypothesis =>
      intro before
      have held := inductionHypothesis (Nat.le_of_succ_le before)
      rcases kept moment after held with still | atGoal
      · exact still
      · exact absurd ⟨moment, after, Nat.le_of_succ_le before, held, atGoal⟩ never
  exact never ⟨finish, later, le_rfl, persists finish later le_rfl, reached⟩

theorem eventually_of_rank {Rank : Type*} [LT Rank] [WellFoundedLT Rank]
    (holds goal : ℕ → Prop) (rank : ℕ → Rank) (start : ℕ) (drops : ∀ moment ≥ start, holds moment →
        ∃ later ≥ moment, goal later ∨ (holds later ∧ rank later < rank moment)) :
    ∀ moment ≥ start, holds moment → ∃ later ≥ moment, goal later := by
  intro moment
  induction moment using (InvImage.wf rank wellFounded_lt).induction with
  | _ moment inductionHypothesis =>
    intro after held
    obtain ⟨next, onward, reached | ⟨still, lower⟩⟩ := drops moment after held
    · exact ⟨next, onward, reached⟩
    · obtain ⟨later, further, reached⟩ := inductionHypothesis next lower (after.trans onward) still
      exact ⟨later, onward.trans further, reached⟩

end TransitionSystem
