import AieClaw.CommandQueueCapacity

/-!
# What the lanes guarantee

The invariants of the previous modules, assembled: after every section of every
run, each lane serves its entries in order, strands no work while it has
capacity, never overfills, and accounts for every entry exactly once.
-/

namespace CommandQueue

/-- The guarantees of the command lanes between two sections. -/
structure LaneGuarantees (world : World) : Prop where
  ordered :
    ∀ ⦃name state⦄,
      world.lanes.get? name = some state →
      state.queue.Pairwise QueueEntry.Precedes
  notStranded :
    ∀ ⦃name state⦄,
      world.lanes.get? name = some state →
      state.queue ≠ [] →
      JsNumber.le state.maxConcurrent (.ofInt state.activeTaskIds.card) = true ∧
        state.draining = false
  startsWithinCapacity :
    ∀ ⦃lane sequence taskId activeCount maxConcurrent⦄,
      LaneEvent.started lane sequence taskId activeCount maxConcurrent ∈ world.events →
      ¬ JsNumber.le maxConcurrent (.ofInt activeCount) = true
  enqueuedOnce : world.enqueuedSequences.Nodup
  placedOnce :
    (queuedSequences world.lanes ++ world.startedSequences ++
      world.clearedSequences).Perm world.enqueuedSequences
  settledOnce : world.settledSequences.Nodup

variable {world : World}

private theorem not_le_of_lt {left right : JsNumber} (less : JsNumber.lt left right = true) :
    ¬ JsNumber.le right left = true := by
  cases left <;> cases right <;> simp_all [JsNumber.lt, JsNumber.le]

section

variable (reachable : Reachable world)
include reachable

theorem Reachable.lanesSound : LanesSound ⟨[], world⟩ :=
  reachable.of_keptByUpdates lanesSound_kept lanesSound_initial

theorem Reachable.ledger : Ledger ⟨[], world⟩ :=
  reachable.of_keptByUpdates ledger_kept Ledger.initial

theorem Reachable.rested : RestedExcept [] world := by
  obtain ⟨start, actions, rfl, run⟩ := reachable
  induction run with
  | refl => constructor <;> intro name state found <;> simp [World.initial] at found
  | snoc run last inductionHypothesis =>
    have sound : LanesSound ⟨[], _⟩ := Reachable.lanesSound ⟨World.initial, _, rfl, run⟩
    exact last.rested (fun _ _ found => (sound found).named) inductionHypothesis

theorem Reachable.laneGuarantees : LaneGuarantees world := by
  have sound := reachable.lanesSound
  have rested := reachable.rested
  have ledger := reachable.ledger
  have within : StartsWithinCapacity ⟨[], world⟩ :=
    reachable.of_keptByUpdates startsWithinCapacity_kept startsWithinCapacity_initial
  have placed : (queuedSequences world.lanes ++ world.startedSequences ++
        world.clearedSequences).Perm world.enqueuedSequences := by
    rw [List.perm_iff_count]
    intro sequence
    simpa only [List.count_append] using ledger.placed sequence
  constructor
  · intro name state found
    exact (sound found).ordered
  · intro name state found nonempty
    refine ⟨?_, rested.notDraining found⟩
    have full := rested.saturated found List.not_mem_nil nonempty
    exact (JsNumber.lt_eq_false_iff_le JsNumber.noConfusion (sound found).numericLimit).mp full
  · intro lane sequence taskId activeCount maxConcurrent member
    exact not_le_of_lt (within member)
  · exact ledger.distinct
  · exact placed
  · have leftOnce : (world.startedSequences ++ world.clearedSequences).Nodup := by
      have allOnce := placed.nodup_iff.mpr ledger.distinct
      rw [List.append_assoc] at allOnce
      exact allOnce.of_append_right
    rw [List.nodup_iff_count_le_one] at leftOnce ⊢
    intro sequence
    have once := leftOnce sequence
    have promised := ledger.promised sequence
    rw [List.count_append] at once
    dsimp only at promised
    omega

end

/-- The guarantees hold after every finite run of sections, in any order. -/
theorem laneGuarantees_of_run {actions : List LaneAction} {world : World}
    (run : TransitionSystem.Run Step World.initial actions world) : LaneGuarantees world :=
  Reachable.laneGuarantees ⟨World.initial, actions, rfl, run⟩

/-- A run that queues behind a running task, resets the lane and clears it. -/
theorem laneGuarantees_of_run_reset :
    ∃ world,
      TransitionSystem.Run Step World.initial
        [.enqueueCommandInLane 0 "main" ⟨none, none, none⟩,
          .enqueueCommandInLane 1 "main" ⟨none, none, some .background⟩,
          .enqueueCommandInLane 2 "main" ⟨none, none, some .foreground⟩,
          .resetCommandLane 3 "main",
          .taskSettles 4 1 .succeeded,
          .clearCommandLane "main"] world ∧
        world.startedSequences = [1, 3] ∧
        world.clearedSequences = [2] ∧
        LaneGuarantees world := by
  have run := TransitionSystem.Run.of_foldlM
    (rfl : [LaneAction.enqueueCommandInLane 0 "main" ⟨none, none, none⟩,
      .enqueueCommandInLane 1 "main" ⟨none, none, some .background⟩,
      .enqueueCommandInLane 2 "main" ⟨none, none, some .foreground⟩, .resetCommandLane 3 "main",
      .taskSettles 4 1 .succeeded,
      .clearCommandLane "main"].foldlM World.step World.initial = some _)
  exact ⟨_, run, by decide, by decide, laneGuarantees_of_run run⟩

end CommandQueue
