import AieClaw.FollowupQueueLedger
import Mathlib.Data.Prod.Lex

/-!
# Draining the followup queue

When nothing more is enqueued and every call resolves, the drain either empties
the queue and leaves the map, or goes round for ever. It goes round for ever
when items were dropped under `summarize` and the summary cannot be sent any
more: the policy is another one now, or the queue has no item left to carry the
summary outside collect mode. Only clearing the queue or removing its last item
as aborted forgets such drops.
-/

namespace FollowupQueue

open QueueMachine TransitionSystem

/-- Every item in the queue has been aborted. -/
def AllAborted (machine : QueueMachine) : Prop :=
  ∀ item ∈ machine.queue.items, isFollowupRunAborted machine.aborted item.toFollowupRun = true

/--
The dropped items can be accounted for: there are none, or the sweep empties
the queue and forgets them, or a summary of them can be sent.
-/
def Clearable (machine : QueueMachine) : Prop :=
  machine.queue.droppedCount = 0 ∨
    (machine.queue.items ≠ [] ∧ AllAborted machine) ∨
    (machine.queue.dropPolicy = .summarize ∧
      (machine.queue.mode = .collect ∨ machine.queue.items ≠ []))

/-- Any abort signals fire. -/
def abortAll (signals : List ℕ) (machine : QueueMachine) : QueueMachine :=
  { machine with aborted := signals ++ machine.aborted }

/-- Between two moves of the drain, any abort signals may fire. -/
def drainMove (host : ChannelHost) (source target : QueueMachine) : Prop :=
  ∃ signals now, (abortAll signals source).settle host now = some target

/-- The drain stands at the debounce, where a round begins. -/
def AtDebounce (machine : QueueMachine) : Prop :=
  ∃ debounceMs, machine.drain = .debouncing debounceMs

theorem exists_drainMove (host : ChannelHost) {machine : QueueMachine}
    (busy : machine.drain ≠ .idle) : ∃ target, drainMove host machine target := by
  obtain ⟨now, target, settled⟩ := machine.exists_settle host busy
  exact ⟨target, [], now, settled⟩

section WellKept

/--
A queue outside the map is empty, and a queue that is not empty remembers the
settings of its last run.
-/
structure WellKept (machine : QueueMachine) : Prop where
  detached : machine.inMap = false → machine.isEmpty = true
  lastRun : machine.isEmpty = false → machine.queue.lastRun ≠ none

/-- Code of the drain: nothing is added, and the last run stays. -/
structure Retains (source target : QueueMachine) : Prop where
  items : target.queue.items.Sublist source.queue.items
  droppedCount : target.queue.droppedCount ≤ source.queue.droppedCount
  lastRun : target.queue.lastRun = source.queue.lastRun
  inMap : target.inMap = source.inMap ∨ target.isEmpty = true

variable {source middle target : QueueMachine}

namespace Retains

theorem isEmpty (retains : Retains source target) (empty : source.isEmpty = true) :
    target.isEmpty = true := by
  obtain ⟨noItems, noDrops⟩ := source.isEmpty_iff.mp empty
  apply target.isEmpty_iff.mpr
  have items := retains.items
  have droppedCount := retains.droppedCount
  rw [noItems] at items
  exact ⟨List.sublist_nil.mp items, by omega⟩

theorem refl : Retains source source := ⟨.refl _, Nat.le_refl _, rfl, Or.inl rfl⟩

theorem trans (first : Retains source middle) (second : Retains middle target) :
    Retains source target where
  items := second.items.trans first.items
  droppedCount := second.droppedCount.trans first.droppedCount
  lastRun := second.lastRun.trans first.lastRun
  inMap := by
    rcases second.inMap with same | empty
    · rcases first.inMap with kept | empty
      · exact Or.inl (same.trans kept)
      · exact Or.inr (second.isEmpty empty)
    · exact Or.inr empty

theorem of_queue (queue : target.queue = source.queue) (inMap : target.inMap = source.inMap) :
    Retains source target where
  items := by rw [queue]
  droppedCount := by rw [queue]
  lastRun := by rw [queue]
  inMap := Or.inl inMap

theorem of_clearSummaryState : Retains source source.clearSummaryState :=
  ⟨.refl _, Nat.zero_le _, rfl, Or.inl rfl⟩

theorem of_completeSummarySources : Retains source source.completeSummarySources :=
  ⟨.refl _, Nat.le_refl _, rfl, Or.inl rfl⟩

theorem of_startSweep (phase : SweepPhase) : Retains source (source.startSweep phase) := by
  rcases source.startSweep_cases phase with ⟨index, item, begun, -⟩ | ⟨begun, -⟩
  · rw [begun]
    exact of_queue rfl rfl
  · rw [begun]
    exact of_queue rfl rfl

theorem of_finish : Retains source source.finish := by
  rcases source.finish_cases with ⟨empty, ended⟩ | ⟨-, -, ended⟩ | ⟨-, -, ended⟩
  · rw [ended]
    exact ⟨.refl _, Nat.le_refl _, rfl, Or.inr empty⟩
  · rw [ended]
    have forced : Retains source (source.withForce false) := of_queue rfl rfl
    exact forced.trans (of_startSweep _)
  · rw [ended]
    exact of_queue rfl rfl

theorem of_fail (now : ℚ) : Retains source (source.fail now) := by
  have stamped : Retains source (source.stamp now) :=
    ⟨.refl _, Nat.le_refl _, rfl, Or.inl rfl⟩
  exact stamped.trans of_finish

theorem of_loopHead : Retains source source.loopHead := by
  simp only [loopHead]
  split
  · exact of_finish
  · exact of_startSweep _

theorem of_schedule : Retains source source.schedule := by
  simp only [schedule]
  split
  · have forced : Retains source (source.withForce false) := of_queue rfl rfl
    exact forced.trans of_loopHead
  · exact refl

theorem of_drainRound (host : ChannelHost) : Retains source (source.drainRound host) := by
  simp only [drainRound]
  split
  · rcases source.drainCollect_cases host with ⟨force, begun⟩ | ⟨-, begun⟩ | ⟨item, rest, -, begun⟩
    · rw [begun]
      exact of_queue rfl rfl
    · rw [begun]
      exact of_queue rfl rfl
    · rw [begun]
      exact of_queue rfl rfl
  · rcases source.drainNext_cases with
      ⟨-, -, begun⟩ | ⟨-, begun⟩ | ⟨prompt, run, item, rest, -, -, begun⟩ |
        ⟨item, rest, -, -, begun⟩
    · rw [begun]
      exact of_finish
    · rw [begun]
      exact of_queue rfl rfl
    · rw [begun]
      exact of_queue rfl rfl
    · rw [begun]
      exact of_queue rfl rfl

theorem of_resolveSwept (host : ChannelHost) (phase : SweepPhase) (dropped : ℕ) :
    Retains source (source.resolveSwept host phase dropped) := by
  have goesOn : ∀ machine : QueueMachine, Retains machine (if machine.isEmpty then machine.finish
          else
            machine.afterSweep host phase) := by
    intro machine
    split
    · exact of_finish
    · cases phase with
      | beforeDebounce => exact of_queue rfl rfl
      | afterDebounce => exact of_drainRound host
  simp only [resolveSwept]
  split
  · exact of_clearSummaryState.trans (goesOn _)
  · exact goesOn source

theorem of_startSummaryOnly (attached : List QueuedItem) :
    Retains source (source.startSummaryOnly attached) := by
  rcases source.startSummaryOnly_cases attached with ⟨prompt, run, -, begun⟩ | ⟨-, begun⟩
  · rw [begun]
    exact of_queue rfl rfl
  · rw [begun]
    exact of_finish

theorem of_startGroup (groups : List (List QueuedItem)) (pendingSummary : Option String) :
    Retains source (source.startGroup groups pendingSummary) := by
  rcases source.startGroup_cases groups pendingSummary with
    ⟨-, begun⟩ | ⟨items, rest, run, -, begun⟩
  · rw [begun]
    exact of_loopHead
  · rw [begun]
    exact of_queue rfl rfl

theorem of_resolveCollectChecked (result : CollectDrainResult) :
    Retains source (source.resolveCollectChecked result) := by
  cases result with
  | empty => exact of_startSummaryOnly _
  | skipped =>
    simp only [resolveCollectChecked]
    split
    · exact of_startSummaryOnly _
    · exact of_startGroup _ _

theorem of_withItems {items : List QueuedItem} (shortened : items.Sublist source.queue.items) :
    Retains source (source.withItems items) :=
  ⟨shortened, Nat.le_refl _, rfl, Or.inl rfl⟩

theorem of_resolveCall (call : FollowupCall) : Retains source (source.resolveCall call) := by
  let logged : QueueMachine := { source with log := source.log ++ [.resolved call] }
  have logs : Retains source logged := of_queue rfl rfl
  cases call with
  | individual item =>
    have shifted : Retains logged (logged.withItems logged.queue.items.tail) :=
      of_withItems (List.tail_sublist _)
    exact (logs.trans shifted).trans (of_queue rfl rfl)
  | summaryWithItem item prompt run =>
    have completed : Retains logged logged.completeSummarySources := of_completeSummarySources
    have shifted : Retains logged.completeSummarySources
          (logged.completeSummarySources.withItems logged.queue.items.tail) :=
      of_withItems (List.tail_sublist _)
    exact ((logs.trans completed).trans shifted).trans (of_queue rfl rfl)
  | summaryOnly prompt run attached =>
    have cleared : Retains logged logged.clearSummaryState := of_clearSummaryState
    exact (logs.trans cleared).trans of_loopHead
  | group items summary run rest =>
    have spliced : Retains logged (logged.withItems (logged.queue.items.drop items.length)) :=
      of_withItems (List.drop_sublist _ _)
    simp only [resolveCall]
    split
    · exact ((logs.trans spliced).trans of_clearSummaryState).trans (of_startGroup _ _)
    · exact (logs.trans spliced).trans (of_startGroup _ _)

theorem of_resolveSweep (phase : SweepPhase) (index : ℕ) (item : QueuedItem) (dropped : ℕ)
    (now : ℚ) : Retains source (source.resolveSweep phase index item dropped now) := by
  have removed : Retains source (source.removeSwept index item) :=
    ⟨List.eraseIdx_sublist _ _, Nat.le_refl _, rfl, Or.inl rfl⟩
  apply removed.trans
  simp only [resolveSweep, continueSweep]
  split
  · exact of_fail now
  · exact of_queue rfl rfl
  · exact of_queue rfl rfl

theorem of_settle {host : ChannelHost} {now : ℚ} (settled : source.settle host now = some target) :
    Retains source target := by
  simp only [settle] at settled
  split at settled
  · simp at settled
  · cases settled
    exact of_resolveSweep _ _ _ _ _
  · cases settled
    exact of_resolveSwept host _ _
  · split at settled
    · cases settled
      exact of_queue rfl rfl
    · simp at settled
  · cases settled
    exact of_startSweep _
  · cases settled
    exact of_resolveCollectChecked _
  · cases settled
    exact of_resolveCall _
  · cases settled
    split
    · exact of_clearSummaryState.trans of_loopHead
    · exact of_loopHead
  · cases settled
    exact of_finish

theorem of_reject {now : ℚ} (rejected : source.reject now = some target) :
    Retains source target := by
  have completes : Retains source (source.completeSummarySources.fail now) :=
    of_completeSummarySources.trans (of_fail now)
  simp only [reject] at rejected
  split at rejected
  · cases rejected
    exact of_fail now
  next call drain =>
    cases rejected
    cases call with
    | individual item => exact of_fail now
    | summaryWithItem item prompt run => exact completes
    | summaryOnly prompt run attached => exact completes
    | group items summary run rest =>
      simp only [rejectCall]
      split
      · exact completes
      · exact of_fail now
  · simp at rejected

end Retains

namespace WellKept

theorem of_retains (kept : WellKept source) (retains : Retains source target) :
    WellKept target where
  detached := by
    intro unmapped
    rcases retains.inMap with same | empty
    · exact retains.isEmpty (kept.detached (same.symm.trans unmapped))
    · exact empty
  lastRun := by
    intro busy
    have before : source.isEmpty = false := by
      cases empty : source.isEmpty with
      | false => rfl
      | true => exact absurd (retains.isEmpty empty) (by simp [busy])
    rw [retains.lastRun]
    exact kept.lastRun before

theorem of_lastRun (mapped : source.inMap = true) (known : source.queue.lastRun ≠ none) :
    WellKept source where
  detached := fun unmapped => absurd (mapped.symm.trans unmapped) (by simp)
  lastRun := fun _ => known

theorem enqueue {host : ChannelHost} (request : EnqueueRequest) (kept : WellKept source) :
    WellKept (source.enqueue host request) := by
  simp only [QueueMachine.enqueue]
  split
  · exact kept
  next admitted =>
    have mapped : source.inMap = true := by
      simp only [not_or, Bool.not_eq_true, Bool.not_eq_false] at admitted
      simpa using admitted.2
    split
    · exact ⟨kept.detached, kept.lastRun⟩
    · let stamped : QueueMachine :=
        { source with
          queue :=
            { applyQueueRuntimeSettings source.queue request.settings with
              lastEnqueuedAt := request.now
              lastRun := some request.run.run } }
      have dropped : stamped.applyDropPolicy.trimSummarySources.inMap = true ∧
            stamped.applyDropPolicy.trimSummarySources.queue.lastRun ≠
              none := by
        rw [trim_inMap, trim_lastRun, applyDropPolicy_inMap, applyDropPolicy_lastRun]
        exact ⟨mapped, by simp [stamped]⟩
      split
      · exact of_lastRun dropped.1 dropped.2
      · have pushed : WellKept (stamped.applyDropPolicy.trimSummarySources.pushItem request.run) :=
          of_lastRun dropped.1 dropped.2
        split
        · exact pushed.of_retains Retains.of_schedule
        · exact pushed

theorem clear (kept : WellKept source) : WellKept source.clear := by
  simp only [QueueMachine.clear]
  split
  · exact
      { detached := fun _ => by simp [isEmpty]
        lastRun := fun busy => by simp [isEmpty] at busy }
  · exact kept

theorem step (host : ChannelHost) : Preserves (step host) WellKept := by
  intro source action target performed kept
  cases action with
  | enqueue request =>
    cases performed
    exact kept.enqueue request
  | schedule =>
    cases performed
    exact kept.of_retains Retains.of_schedule
  | settle now => exact kept.of_retains (Retains.of_settle performed)
  | reject now => exact kept.of_retains (Retains.of_reject performed)
  | abort signal =>
    cases performed
    exact kept.of_retains (Retains.of_queue rfl rfl)
  | clear =>
    cases performed
    exact kept.clear

theorem of_reachable {host : ChannelHost}
    (reachable : Reachable (FollowupQueue.step host) Initial source) : WellKept source := by
  apply reachable.invariant _ (step host)
  intro machine isInitial
  obtain ⟨settings, rfl⟩ := isInitial
  exact
    { detached := fun unmapped => absurd unmapped (by simp [created])
      lastRun := fun busy => by
        simp [created, createFollowupQueue, isEmpty] at busy }

theorem drainMove {host : ChannelHost} (kept : WellKept source)
    (moved : drainMove host source target) : WellKept target := by
  obtain ⟨signals, now, settled⟩ := moved
  have aborts : Retains source (abortAll signals source) := Retains.of_queue rfl rfl
  exact kept.of_retains (aborts.trans (Retains.of_settle settled))

end WellKept

end WellKept

section Hopeful

section

variable (machine : QueueMachine)

/-- Drops that a summary can still report, whatever leaves the queue. -/
def Resolvable : Prop :=
  machine.queue.droppedCount = 0 ∨
    (machine.queue.dropPolicy = .summarize ∧ machine.queue.mode = .collect)

/-- What a call needs so that its resolution brings the drain closer. -/
def HopefulCall : FollowupCall → Prop
  | .individual _ => machine.queue.items ≠ [] ∧ Resolvable machine
  | .summaryWithItem _ _ _ => machine.queue.items ≠ []
  | .summaryOnly _ _ _ => machine.queue.droppedCount ≠ 0
  | .group items _ _ rest =>
    items ≠ [] ∧ (∀ group ∈ rest, group ≠ []) ∧
      items.length + rest.flatten.length ≤ machine.queue.items.length ∧
      Resolvable machine

/-- What each `await` needs so that the drain empties the queue. -/
def Hopeful : Prop :=
  match machine.drain with
  | .sweeping _ index _ _ =>
    index < machine.queue.items.length ∧
      (machine.queue.droppedCount = 0 ∨
        machine.queue.dropPolicy = .summarize ∨
        (index + 1 = machine.queue.items.length ∧ AllAborted machine))
  | .swept _ dropped =>
    machine.queue.droppedCount = 0 ∨
      (0 < dropped ∧ machine.queue.items = []) ∨
      (machine.queue.dropPolicy = .summarize ∧
        (machine.queue.mode = .collect ∨ machine.queue.items ≠ []))
  | .debouncing _ | .debounced => Clearable machine
  | .collectChecked result =>
    Resolvable machine ∧ machine.isEmpty = false ∧ (result = .empty → machine.queue.items = [])
  | .running call => HopefulCall machine call
  | .shifted clearsSummary => clearsSummary = true ∨ Resolvable machine
  | .idle | .nothingDrained => False

/-- What remains to be delivered or reported. -/
def weight : ℕ :=
  machine.queue.items.length + if machine.queue.droppedCount = 0 then 0 else 1

/-- How far the drain is from the end of its round. -/
def stage : DrainPoint → ℕ
  | .shifted _ => 8
  | .sweeping .beforeDebounce _ _ _ | .swept .beforeDebounce _ => 7
  | .debouncing _ => 6
  | .debounced => 5
  | .sweeping .afterDebounce _ _ _ | .swept .afterDebounce _ => 4
  | .collectChecked _ => 3
  | .running _ => 2
  | .nothingDrained => 1
  | .idle => 0

def progress : ℕ ×ₗ ℕ := toLex (weight machine, stage machine.drain)

end

variable {source middle target : QueueMachine}

theorem Resolvable.clearable (resolvable : Resolvable source) : Clearable source := by
  rcases resolvable with noDrops | ⟨summarizes, collects⟩
  · exact Or.inl noDrops
  · exact Or.inr (Or.inr ⟨summarizes, Or.inl collects⟩)

/-- Code that ends, or stops at an earlier stage with no more to do. -/
structure Lands (source : QueueMachine) (bound : ℕ) (target : QueueMachine) : Prop where
  hopeful : Hopeful target
  weightLe : weight target ≤ weight source
  stageLt : stage target.drain < bound

variable {phase : SweepPhase} {index dropped : ℕ}

theorem scan_of_allAborted {item : QueuedItem} {items : List QueuedItem} {aborted : List ℕ}
    (all : ∀ item ∈ items, isFollowupRunAborted aborted item.toFollowupRun = true)
    (scan : scanAborted aborted items items.length = .found index item) :
    index + 1 = items.length := by
  obtain ⟨below, -, -, above⟩ := scanAborted_eq_found scan
  by_contra differs
  have next : index + 1 < items.length := by
    omega
  have notAborted :=
    above (index + 1) items[index + 1] (Nat.lt_succ_self _) next (List.getElem?_eq_getElem next)
  rw [all _ (List.getElem_mem next)] at notAborted
  simp at notAborted

theorem lands_startSweep (phase : SweepPhase) (clearable : Clearable source) : Lands source
      (match phase with
        | .beforeDebounce => 8
        | .afterDebounce => 5)
      (source.startSweep phase) := by
  rcases source.startSweep_cases phase with ⟨index, item, begun, scan⟩ | ⟨begun, noneAborted⟩
  · rw [begun]
    refine { hopeful := ?_, weightLe := Nat.le_refl _, stageLt := ?_ }
    · refine ⟨(scanAborted_eq_found scan).1, ?_⟩
      rcases clearable with noDrops | ⟨-, all⟩ | ⟨summarizes, -⟩
      · exact Or.inl noDrops
      · exact Or.inr (Or.inr ⟨scan_of_allAborted all scan, all⟩)
      · exact Or.inr (Or.inl summarizes)
    · cases phase <;> simp [stage]
  · rw [begun]
    refine { hopeful := ?_, weightLe := Nat.le_refl _, stageLt := ?_ }
    · rcases clearable with noDrops | ⟨some, all⟩ | reports
      · exact Or.inl noDrops
      · obtain ⟨item, member⟩ := List.exists_mem_of_ne_nil _ some
        have contradiction := noneAborted item member
        rw [all item member] at contradiction
        simp at contradiction
      · exact Or.inr (Or.inr reports)
    · cases phase <;> simp [stage]

theorem lands_loopHead (clearable : Clearable source) :
    source.loopHead.Drained ∨ Lands source 8 source.loopHead := by
  simp only [loopHead]
  split
  next empty => exact Or.inl (source.drained_finish empty)
  · exact Or.inr (lands_startSweep .beforeDebounce clearable)

/-- The sweep goes on below the item that it removed. -/
theorem lands_continueSweep {now : ℚ} (inside : index ≤ source.queue.items.length)
    (removed : 0 < dropped) (hopeful : source.queue.droppedCount = 0 ∨
        source.queue.dropPolicy = .summarize ∨
        (index = source.queue.items.length ∧ AllAborted source)) :
    Lands source 8 (source.continueSweep phase index dropped now) := by
  simp only [continueSweep]
  split
  next scan =>
    have outside := length_lt_of_scanAborted_eq_failed scan
    omega
  next scan =>
    refine { hopeful := ?_, weightLe := Nat.le_refl _, stageLt := ?_ }
    · by_cases noItems : source.queue.items = []
      · exact Or.inr (Or.inl ⟨removed, noItems⟩)
      · rcases hopeful with noDrops | summarizes | ⟨atEnd, all⟩
        · exact Or.inl noDrops
        · exact Or.inr (Or.inr ⟨summarizes, Or.inr noItems⟩)
        · obtain ⟨position, located⟩ := List.exists_mem_of_ne_nil _ noItems
          obtain ⟨later, below, atLater⟩ := List.mem_iff_getElem.mp located
          have notAborted :=
            scanAborted_eq_finished scan later position (by omega)
              (by rw [List.getElem?_eq_getElem below, atLater])
          rw [all position located] at notAborted
          simp at notAborted
    · cases phase <;> simp [stage]
  next next item scan =>
    obtain ⟨below, -⟩ := scanAborted_eq_found scan
    refine { hopeful := ?_, weightLe := Nat.le_refl _, stageLt := ?_ }
    · refine ⟨Nat.lt_of_lt_of_le below inside, ?_⟩
      rcases hopeful with noDrops | summarizes | ⟨atEnd, all⟩
      · exact Or.inl noDrops
      · exact Or.inr (Or.inl summarizes)
      · rw [atEnd] at scan
        exact Or.inr (Or.inr ⟨scan_of_allAborted all scan, all⟩)
    · cases phase <;> simp [stage]

theorem lands_resolveSweep {item : QueuedItem} (now : ℚ)
    (drain : source.drain = .sweeping phase index item dropped) (hopeful : Hopeful source) :
    Hopeful (source.resolveSweep phase index item dropped now) ∧
      weight (source.resolveSweep phase index item dropped now) < weight source := by
  simp only [Hopeful, drain] at hopeful
  obtain ⟨inside, hope⟩ := hopeful
  have length : (source.removeSwept index item).queue.items.length + 1 =
        source.queue.items.length := by
    simp only [removeSwept]
    rw [List.length_eraseIdx_of_lt inside]
    omega
  have lower : weight (source.removeSwept index item) + 1 = weight source := by
    have drops :
        (source.removeSwept index item).queue.droppedCount = source.queue.droppedCount := rfl
    simp only [weight, drops]
    omega
  have lands : Lands (source.removeSwept index item) 8
        (source.resolveSweep phase index item dropped now) := by
    apply lands_continueSweep (by omega) (Nat.succ_pos _)
    rcases hope with noDrops | summarizes | ⟨atEnd, all⟩
    · exact Or.inl noDrops
    · exact Or.inr (Or.inl summarizes)
    · refine Or.inr (Or.inr ⟨by omega, ?_⟩)
      intro other member
      exact all other ((List.eraseIdx_sublist _ index).subset member)
  have notMore := lands.weightLe
  exact ⟨lands.hopeful, by omega⟩

/-- A round that is not empty reaches a call or the collecting step. -/
theorem lands_drainRound (host : ChannelHost) (kept : WellKept source)
    (busy : source.isEmpty = false) (hopeful : source.queue.droppedCount = 0 ∨
        (source.queue.dropPolicy = .summarize ∧
          (source.queue.mode = .collect ∨ source.queue.items ≠ []))) :
    Lands source 4 (source.drainRound host) := by
  have itemsOrDrops : source.queue.items ≠ [] ∨ source.queue.droppedCount ≠ 0 := by
    by_contra neither
    simp only [not_or, not_not] at neither
    rw [source.isEmpty_iff.mpr neither] at busy
    simp at busy
  by_cases collects : source.queue.mode = .collect
  · have resolvable : Resolvable source := by
      rcases hopeful with noDrops | ⟨summarizes, -⟩
      · exact Or.inl noDrops
      · exact Or.inr ⟨summarizes, collects⟩
    simp only [drainRound, collects, if_true]
    rcases source.drainCollect_cases host with
      ⟨force, begun⟩ | ⟨noItems, begun⟩ | ⟨item, rest, shape, begun⟩
    · rw [begun]
      exact
        { hopeful := ⟨resolvable, busy, by simp⟩
          weightLe := Nat.le_refl _
          stageLt := by simp [stage] }
    · rw [begun]
      exact
        { hopeful := ⟨resolvable, busy, fun _ => noItems⟩
          weightLe := Nat.le_refl _
          stageLt := by simp [stage] }
    · rw [begun]
      have some : source.queue.items ≠ [] := by
        simp [shape]
      exact
        { hopeful := ⟨some, resolvable⟩
          weightLe := Nat.le_refl _
          stageLt := by simp [QueueMachine.call, stage] }
  · -- Outside collect mode a summary needs an item, so items are left.
    have some : source.queue.items ≠ [] := by
      rcases hopeful with noDrops | ⟨-, mode | some⟩
      · exact itemsOrDrops.resolve_right (not_not.mpr noDrops)
      · exact absurd mode collects
      · exact some
    simp only [drainRound, collects, if_false]
    rcases source.drainNext_cases with
      ⟨-, noRun, -⟩ | ⟨noItems, -⟩ | ⟨prompt, run, item, rest, -, -, begun⟩ |
        ⟨item, rest, noPreview, -, begun⟩
    · exact absurd noRun (kept.lastRun busy)
    · exact absurd noItems some
    · rw [begun]
      exact
        { hopeful := some
          weightLe := Nat.le_refl _
          stageLt := by simp [QueueMachine.call, stage] }
    · rw [begun]
      have noDrops : source.queue.droppedCount = 0 := by
        rcases source.previewSummary_eq_none_iff.mp noPreview with other | noDrops
        · rcases hopeful with noDrops | ⟨summarizes, -⟩
          · exact noDrops
          · exact absurd summarizes other
        · exact noDrops
      exact
        { hopeful := ⟨some, Or.inl noDrops⟩
          weightLe := Nat.le_refl _
          stageLt := by simp [QueueMachine.call, stage] }

theorem lands_resolveSwept (host : ChannelHost) (kept : WellKept source)
    (drain : source.drain = .swept phase dropped) (hopeful : Hopeful source) :
    (source.resolveSwept host phase dropped).Drained ∨
      Lands source (stage source.drain) (source.resolveSwept host phase dropped) := by
  simp only [Hopeful, drain] at hopeful
  rcases source.resolveSwept_cases host phase dropped with drained | ⟨busy, notEmptied, goesOn⟩
  · exact Or.inl drained
  · have reports : source.queue.droppedCount = 0 ∨ (source.queue.dropPolicy = .summarize ∧
            (source.queue.mode = .collect ∨ source.queue.items ≠ [])) := by
      rcases hopeful with noDrops | emptied | reports
      · exact Or.inl noDrops
      · exact absurd emptied notEmptied
      · exact Or.inr reports
    refine Or.inr ?_
    rw [goesOn, drain]
    cases phase with
    | beforeDebounce =>
      have clearable : Clearable source := by
        rcases reports with noDrops | reports
        · exact Or.inl noDrops
        · exact Or.inr (Or.inr reports)
      exact
        { hopeful := clearable
          weightLe := Nat.le_refl _
          stageLt := Nat.lt_succ_self _ }
    | afterDebounce => exact lands_drainRound host kept busy reports

theorem lands_startGroup {groups : List (List QueuedItem)} (pendingSummary : Option String)
    (resolvable : Resolvable source) (nonempty : ∀ group ∈ groups, group ≠ [])
    (fits : groups.flatten.length ≤ source.queue.items.length) :
    (source.startGroup groups pendingSummary).Drained ∨
      Lands source 8 (source.startGroup groups pendingSummary) := by
  rcases source.startGroup_cases groups pendingSummary with
    ⟨-, begun⟩ | ⟨items, rest, run, rfl, begun⟩
  · rw [begun]
    exact lands_loopHead resolvable.clearable
  · rw [begun]
    refine Or.inr
      { hopeful := ?_
        weightLe := Nat.le_refl _
        stageLt := by simp [QueueMachine.call, stage] }
    have lengths : items.length + rest.flatten.length ≤
        source.queue.items.length := by
      simpa using fits
    exact ⟨nonempty items (.head _),
      fun group member => nonempty group (.tail _ member), lengths, resolvable⟩

theorem lands_startSummaryOnly (attached : List QueuedItem) (kept : WellKept source)
    (resolvable : Resolvable source) (busy : source.isEmpty = false)
    (noItems : source.queue.items = []) : Lands source 3 (source.startSummaryOnly attached) := by
  have drops : source.queue.droppedCount ≠ 0 := by
    intro noDrops
    rw [source.isEmpty_iff.mpr ⟨noItems, noDrops⟩] at busy
    simp at busy
  rcases source.startSummaryOnly_cases attached with
    ⟨prompt, run, -, begun⟩ | ⟨noPreview | noRun, -⟩
  · rw [begun]
    exact
      { hopeful := drops
        weightLe := Nat.le_refl _
        stageLt := by simp [QueueMachine.call, stage] }
  · rcases source.previewSummary_eq_none_iff.mp noPreview with other | noDrops
    · rcases resolvable with noDrops | ⟨summarizes, -⟩
      · exact absurd noDrops drops
      · exact absurd summarizes other
    · exact absurd noDrops drops
  · exact absurd noRun (kept.lastRun busy)

/-- After the collecting step the groups are called, or the summary. -/
theorem lands_resolveCollectChecked {result : CollectDrainResult} (kept : WellKept source)
    (drain : source.drain = .collectChecked result) (hopeful : Hopeful source) :
    Lands source 3 (source.resolveCollectChecked result) := by
  simp only [Hopeful, drain] at hopeful
  obtain ⟨resolvable, busy, emptied⟩ := hopeful
  cases result with
  | empty => exact lands_startSummaryOnly _ kept resolvable busy (emptied rfl)
  | skipped =>
    have flattened := flatten_splitCollectItemsByAuthorization source.queue.items
    have nonempty : ∀ group ∈ splitCollectItemsByAuthorization source.queue.items, group ≠ [] :=
      fun group member => ne_nil_of_mem_splitCollectItemsByAuthorization member
    simp only [resolveCollectChecked]
    split
    next noGroups =>
      rw [noGroups] at flattened
      exact lands_startSummaryOnly _ kept resolvable busy flattened.symm
    next groups some =>
      rcases source.startGroup_cases (splitCollectItemsByAuthorization source.queue.items)
          source.previewSummary with
        ⟨noGroups | noRun, -⟩ | ⟨items, rest, run, shape, begun⟩
      · exact absurd noGroups some
      · exact absurd noRun (kept.lastRun busy)
      · rw [begun]
        rw [shape] at flattened nonempty
        refine
          { hopeful := ?_
            weightLe := Nat.le_refl _
            stageLt := by simp [QueueMachine.call, stage] }
        have lengths : items.length + rest.flatten.length =
            source.queue.items.length := by
          rw [← flattened]
          simp
        exact ⟨nonempty items (.head _), fun group member => nonempty group (.tail _ member),
          lengths.le, resolvable⟩

/-- A resolved call leaves less to deliver or report. -/
theorem lands_resolveCall {call : FollowupCall} (drain : source.drain = .running call)
    (hopeful : Hopeful source) : (source.resolveCall call).Drained ∨
      (Hopeful (source.resolveCall call) ∧ weight (source.resolveCall call) < weight source) := by
  simp only [Hopeful, drain] at hopeful
  have tailShorter : source.queue.items ≠ [] →
      source.queue.items.tail.length < source.queue.items.length := by
    intro some
    have positive := List.length_pos_of_ne_nil some
    rw [List.length_tail]
    omega
  cases call with
  | individual item =>
    obtain ⟨some, resolvable⟩ := hopeful
    refine Or.inr ⟨Or.inr resolvable, ?_⟩
    exact Nat.add_lt_add_right (tailShorter some) _
  | summaryWithItem item prompt run =>
    refine Or.inr ⟨Or.inl rfl, ?_⟩
    exact Nat.add_lt_add_right (tailShorter hopeful) _
  | summaryOnly prompt run attached =>
    let cleared :=
      { source with
        log := source.log ++ [.resolved (.summaryOnly prompt run attached)] :
        QueueMachine }.clearSummaryState
    have lower : weight cleared < weight source := by
      have drops : source.queue.droppedCount ≠ 0 := hopeful
      simp only [weight, drops, if_false]
      exact Nat.lt_succ_self _
    have clearable : Clearable cleared := Or.inl rfl
    rcases lands_loopHead clearable with drained | lands
    · exact Or.inl drained
    · exact Or.inr ⟨lands.hopeful, lands.weightLe.trans_lt lower⟩
  | group items summary run rest =>
    obtain ⟨some, nonempty, fits, resolvable⟩ := hopeful
    let spliced : QueueMachine :=
      ({ source with
        log := source.log ++ [.resolved (.group items summary run rest)] :
        QueueMachine }.withItems (source.queue.items.drop items.length))
    have positive := List.length_pos_of_ne_nil some
    have length : spliced.queue.items.length + items.length =
          source.queue.items.length := by
      simp only [spliced, withItems, List.length_drop]
      omega
    have splicedLower : weight spliced < weight source := by
      have drops : spliced.queue.droppedCount = source.queue.droppedCount := rfl
      simp only [weight, drops]
      omega
    have splicedResolvable : Resolvable spliced := resolvable
    have restFits : rest.flatten.length ≤ spliced.queue.items.length := by
      omega
    simp only [resolveCall]
    split
    · have clearedLower : weight spliced.clearSummaryState ≤ weight spliced :=
        Nat.add_le_add_left (Nat.zero_le _) _
      have clearedResolvable : Resolvable spliced.clearSummaryState := Or.inl rfl
      rcases lands_startGroup none clearedResolvable nonempty restFits with drained | lands
      · exact Or.inl drained
      · refine Or.inr ⟨lands.hopeful, ?_⟩
        exact (lands.weightLe.trans clearedLower).trans_lt splicedLower
    · rcases lands_startGroup none splicedResolvable nonempty restFits with drained | lands
      · exact Or.inl drained
      · exact Or.inr ⟨lands.hopeful, lands.weightLe.trans_lt splicedLower⟩

theorem progress_lt_of_weight (lower : weight target < weight source) :
    progress target < progress source :=
  Prod.Lex.toLex_lt_toLex.mpr (Or.inl lower)

theorem Lands.progress_lt {bound : ℕ} (lands : Lands source bound target)
    (within : bound ≤ stage source.drain) : progress target < progress source := by
  apply Prod.Lex.toLex_lt_toLex.mpr
  rcases Nat.lt_or_eq_of_le lands.weightLe with lower | same
  · exact Or.inl lower
  · exact Or.inr ⟨same, lands.stageLt.trans_le within⟩

/-- Whatever a hopeful drain awaits, it gets closer to the end. -/
theorem Hopeful.settle {host : ChannelHost} {now : ℚ} (hopeful : Hopeful source)
    (kept : WellKept source) (settled : source.settle host now = some target) : target.Drained ∨
      (Hopeful target ∧ progress target < progress source) := by
  have landed : ∀ bound, bound ≤ stage source.drain → Lands source bound target →
      target.Drained ∨ (Hopeful target ∧ progress target < progress source) :=
    fun bound within lands => Or.inr ⟨lands.hopeful, lands.progress_lt within⟩
  have hope := hopeful
  simp only [QueueMachine.settle] at settled
  split at settled
  · simp at settled
  next phase index item dropped drain =>
    cases settled
    obtain ⟨still, lower⟩ := lands_resolveSweep now drain hopeful
    exact Or.inr ⟨still, progress_lt_of_weight lower⟩
  next phase dropped drain =>
    cases settled
    rcases lands_resolveSwept host kept drain hopeful with drained | lands
    · exact Or.inl drained
    · exact landed _ (Nat.le_refl _) lands
  next debounceMs drain =>
    split at settled
    · cases settled
      simp only [Hopeful, drain] at hope
      apply landed 6 (by simp [stage, drain])
      exact
        { hopeful := hope
          weightLe := Nat.le_refl _
          stageLt := by simp [stage] }
    · simp at settled
  next drain =>
    cases settled
    simp only [Hopeful, drain] at hope
    exact landed 5 (by simp [stage, drain]) (lands_startSweep .afterDebounce hope)
  next result drain =>
    cases settled
    exact landed 3 (by simp [stage, drain]) (lands_resolveCollectChecked kept drain hopeful)
  next call drain =>
    cases settled
    rcases lands_resolveCall drain hopeful with drained | ⟨still, lower⟩
    · exact Or.inl drained
    · exact Or.inr ⟨still, progress_lt_of_weight lower⟩
  next clearsSummary drain =>
    cases settled
    simp only [Hopeful, drain] at hope
    split
    · have clearable : Clearable source.clearSummaryState := Or.inl rfl
      rcases lands_loopHead clearable with drained | lands
      · exact Or.inl drained
      · have clearedLower : weight source.clearSummaryState ≤ weight source :=
          Nat.add_le_add_left (Nat.zero_le _) _
        have atShifted : 8 ≤ stage source.drain := by
          simp [stage, drain]
        have fromSource : Lands source 8 source.clearSummaryState.loopHead :=
          { hopeful := lands.hopeful
            weightLe := lands.weightLe.trans clearedLower
            stageLt := lands.stageLt }
        exact Or.inr ⟨lands.hopeful, fromSource.progress_lt atShifted⟩
    next keeps =>
      have resolvable : Resolvable source := hope.resolve_left keeps
      rcases lands_loopHead resolvable.clearable with drained | lands
      · exact Or.inl drained
      · have atShifted : 8 ≤ stage source.drain := by
          simp [stage, drain]
        exact Or.inr ⟨lands.hopeful, lands.progress_lt atShifted⟩
  next drain => simp only [Hopeful, drain] at hope

end Hopeful

section Stuck

/-- No item in the queue has been aborted. -/
def NoneAborted (machine : QueueMachine) : Prop :=
  ∀ item ∈ machine.queue.items, isFollowupRunAborted machine.aborted item.toFollowupRun = false

/-- Drops that no summary can report any more. -/
structure Unreportable (machine : QueueMachine) : Prop where
  inMap : machine.inMap = true
  drops : machine.queue.droppedCount ≠ 0
  policy :
    machine.queue.dropPolicy ≠ .summarize ∨
      (machine.queue.mode ≠ .collect ∧ machine.queue.items = [])

/-- Where a drain with unreportable drops stands while nothing is aborted. -/
def StuckAt (machine : QueueMachine) : DrainPoint → Prop
  | .sweeping _ index item _ =>
    machine.queue.items[index]? = some item ∧
      isFollowupRunAborted machine.aborted item.toFollowupRun = true ∧
      (∀ later other,
        index < later →
        machine.queue.items[later]? = some other →
        isFollowupRunAborted machine.aborted other.toFollowupRun = false) ∧
      ¬AllAborted machine
  | .swept _ dropped => NoneAborted machine ∧ (machine.queue.items = [] → dropped = 0)
  | .debouncing _ | .debounced => ¬(machine.queue.items ≠ [] ∧ AllAborted machine)
  | .collectChecked _ => NoneAborted machine ∧ machine.queue.dropPolicy ≠ .summarize
  | .running (.individual _) | .running (.group _ none _ _) |
      .shifted false | .nothingDrained => NoneAborted machine
  | _ => False

def Stuck (machine : QueueMachine) : Prop := Unreportable machine ∧ StuckAt machine machine.drain

variable {source target : QueueMachine}

theorem Unreportable.isEmpty (unreportable : Unreportable source) : source.isEmpty = false := by
  cases empty : source.isEmpty with
  | false => rfl
  | true => exact absurd (source.isEmpty_iff.mp empty).2 unreportable.drops

theorem NoneAborted.survives (none : NoneAborted source) :
    ¬(source.queue.items ≠ [] ∧ AllAborted source) := by
  intro ⟨present, all⟩
  obtain ⟨item, member⟩ := List.exists_mem_of_ne_nil _ present
  have contradiction := none item member
  rw [all item member] at contradiction
  simp at contradiction

theorem stuck_startSweep (phase : SweepPhase) (unreportable : Unreportable source)
    (survives : ¬(source.queue.items ≠ [] ∧ AllAborted source)) :
    Stuck (source.startSweep phase) := by
  rcases source.startSweep_cases phase with ⟨index, item, begun, scan⟩ | ⟨begun, noneAborted⟩
  · rw [begun]
    obtain ⟨-, located, isAborted, above⟩ := scanAborted_eq_found scan
    have some : source.queue.items ≠ [] := List.ne_nil_of_mem (List.mem_of_getElem? located)
    refine ⟨⟨unreportable.inMap, unreportable.drops, unreportable.policy⟩,
      located, isAborted, ?_, fun all => survives ⟨some, all⟩⟩
    intro later other isAbove atLater
    obtain ⟨inside, -⟩ := List.getElem?_eq_some_iff.mp atLater
    exact above later other isAbove inside atLater
  · rw [begun]
    exact ⟨⟨unreportable.inMap, unreportable.drops, unreportable.policy⟩, noneAborted, fun _ => rfl⟩

theorem stuck_finish (unreportable : Unreportable source) (none : NoneAborted source) :
    Stuck source.finish := by
  rcases source.finish_cases with ⟨empty, -⟩ | ⟨-, -, ended⟩ | ⟨-, unmapped, -⟩
  · rw [unreportable.isEmpty] at empty
    simp at empty
  · rw [ended]
    have forced : Unreportable (source.withForce false) :=
      ⟨unreportable.inMap, unreportable.drops, unreportable.policy⟩
    exact stuck_startSweep .beforeDebounce forced none.survives
  · rw [unreportable.inMap] at unmapped
    simp at unmapped

theorem stuck_loopHead (unreportable : Unreportable source) (none : NoneAborted source) :
    Stuck source.loopHead := by
  simp only [loopHead]
  split
  · exact stuck_finish unreportable none
  · exact stuck_startSweep _ unreportable none.survives

/-- The sweep removes an aborted item and leaves the others. -/
theorem stuck_resolveSweep {phase : SweepPhase} {index dropped : ℕ} {item : QueuedItem}
    (now : ℚ) (unreportable : Unreportable source)
    (stuckAt : StuckAt source (.sweeping phase index item dropped)) :
    Stuck (source.resolveSweep phase index item dropped now) := by
  obtain ⟨located, isAborted, above, survives⟩ := stuckAt
  obtain ⟨inside, -⟩ := List.getElem?_eq_some_iff.mp located
  let removed := source.removeSwept index item
  have items : removed.queue.items = source.queue.items.eraseIdx index := rfl
  have length : removed.queue.items.length + 1 = source.queue.items.length := by
    rw [items, List.length_eraseIdx_of_lt inside]
    omega
  -- Behind the index the remaining items are the ones that were above it.
  have behind : ∀ later other, index ≤ later → removed.queue.items[later]? = some other →
        isFollowupRunAborted source.aborted other.toFollowupRun = false := by
    intro later other isBehind atLater
    rw [items, List.getElem?_eraseIdx_of_ge isBehind] at atLater
    exact above (later + 1) other (Nat.lt_succ_of_le isBehind) atLater
  have survivesRemoved : ¬AllAborted removed := by
    intro all
    apply survives
    intro other member
    obtain ⟨position, atPosition⟩ := List.mem_iff_getElem?.mp member
    by_cases same : position = index
    · rw [same, located] at atPosition
      cases atPosition
      exact isAborted
    · exact all other (List.mem_eraseIdx_iff_getElem?.mpr ⟨position, same, atPosition⟩)
  have stillUnreportable : Unreportable removed := by
    refine ⟨unreportable.inMap, unreportable.drops, ?_⟩
    rcases unreportable.policy with other | ⟨-, noItems⟩
    · exact Or.inl other
    · simp [noItems] at inside
  have goesOn : Stuck (removed.continueSweep phase index (dropped + 1) now) := by
    simp only [continueSweep]
    split
    next scan =>
      have outside := length_lt_of_scanAborted_eq_failed scan
      omega
    next scan =>
      have none : NoneAborted removed := by
        intro other member
        obtain ⟨position, atPosition⟩ := List.mem_iff_getElem?.mp member
        rcases Nat.lt_or_ge position index with below | isBehind
        · exact scanAborted_eq_finished scan position other below atPosition
        · exact behind position other isBehind atPosition
      refine ⟨⟨stillUnreportable.inMap, stillUnreportable.drops,
        stillUnreportable.policy⟩, none, ?_⟩
      intro noItems
      apply absurd _ survivesRemoved
      intro other member
      have inNothing : other ∈ removed.queue.items := member
      rw [show removed.queue.items = [] from noItems] at inNothing
      exact absurd inNothing List.not_mem_nil
    next next other scan =>
      obtain ⟨below, found, foundAborted, aboveFound⟩ := scanAborted_eq_found scan
      refine ⟨⟨stillUnreportable.inMap, stillUnreportable.drops,
        stillUnreportable.policy⟩, found, foundAborted, ?_, survivesRemoved⟩
      intro later another isAbove atLater
      rcases Nat.lt_or_ge later index with below | isBehind
      · exact aboveFound later another isAbove below atLater
      · exact behind later another isBehind atLater
  exact goesOn

theorem stuck_drainRound (host : ChannelHost) (unreportable : Unreportable source)
    (none : NoneAborted source) : Stuck (source.drainRound host) := by
  obtain ⟨inMap, drops, policy⟩ := unreportable
  simp only [drainRound]
  split
  next collects =>
    have other : source.queue.dropPolicy ≠ .summarize := by
      rcases policy with other | ⟨notCollect, -⟩
      · exact other
      · exact absurd collects notCollect
    rcases source.drainCollect_cases host with ⟨force, begun⟩ | ⟨-, begun⟩ | ⟨item, rest, -, begun⟩
    · rw [begun]
      exact ⟨⟨inMap, drops, policy⟩, none, other⟩
    · rw [begun]
      exact ⟨⟨inMap, drops, policy⟩, none, other⟩
    · rw [begun]
      exact ⟨⟨inMap, drops, policy⟩, none⟩
  · rcases source.drainNext_cases with
      ⟨-, -, begun⟩ | ⟨-, begun⟩ |
        ⟨prompt, run, item, rest, preview, shape, -⟩ |
        ⟨item, rest, -, -, begun⟩
    · rw [begun]
      exact stuck_finish ⟨inMap, drops, policy⟩ none
    · rw [begun]
      exact ⟨⟨inMap, drops, policy⟩, none⟩
    · -- With an item in the queue the policy no longer summarizes.
      have noPreview : source.previewSummary = Option.none := by
        apply source.previewSummary_eq_none_iff.mpr
        rcases policy with other | ⟨-, noItems⟩
        · exact Or.inl other
        · simp [noItems] at shape
      exact absurd noPreview preview
    · rw [begun]
      exact ⟨⟨inMap, drops, policy⟩, none⟩

theorem stuck_startGroup (groups : List (List QueuedItem))
    (unreportable : Unreportable source) (none : NoneAborted source) :
    Stuck (source.startGroup groups .none) := by
  rcases source.startGroup_cases groups .none with ⟨-, begun⟩ | ⟨items, rest, run, -, begun⟩
  · rw [begun]
    exact stuck_loopHead unreportable none
  · rw [begun]
    exact ⟨⟨unreportable.inMap, unreportable.drops, unreportable.policy⟩, none⟩

theorem stuck_resolveCollectChecked (result : CollectDrainResult)
    (unreportable : Unreportable source) (none : NoneAborted source)
    (other : source.queue.dropPolicy ≠ .summarize) :
    Stuck (source.resolveCollectChecked result) := by
  have noPreview : source.previewSummary = .none :=
    source.previewSummary_eq_none_iff.mpr (Or.inl other)
  have summaryOnly : ∀ attached, Stuck (source.startSummaryOnly attached) := by
    intro attached
    rcases source.startSummaryOnly_cases attached with ⟨prompt, run, preview, -⟩ | ⟨-, begun⟩
    · exact absurd noPreview preview
    · rw [begun]
      exact stuck_finish unreportable none
  cases result with
  | empty => exact summaryOnly _
  | skipped =>
    simp only [resolveCollectChecked]
    split
    · exact summaryOnly _
    · rw [noPreview]
      exact stuck_startGroup _ unreportable none

theorem Unreportable.of_sublist (unreportable : Unreportable source)
    (inMap : target.inMap = source.inMap)
    (drops : target.queue.droppedCount = source.queue.droppedCount)
    (policy : target.queue.dropPolicy = source.queue.dropPolicy)
    (mode : target.queue.mode = source.queue.mode)
    (items : target.queue.items.Sublist source.queue.items) : Unreportable target where
  inMap := inMap.trans unreportable.inMap
  drops := drops ▸ unreportable.drops
  policy := by
    rw [policy, mode]
    rcases unreportable.policy with other | ⟨notCollect, noItems⟩
    · exact Or.inl other
    · rw [noItems] at items
      exact Or.inr ⟨notCollect, List.sublist_nil.mp items⟩

theorem stuck_resolveCall {call : FollowupCall} (unreportable : Unreportable source)
    (stuckAt : StuckAt source (.running call)) : Stuck (source.resolveCall call) := by
  cases call with
  | individual item =>
    have none : NoneAborted source := stuckAt
    have tail : source.queue.items.tail.Sublist source.queue.items := List.tail_sublist _
    refine ⟨unreportable.of_sublist rfl rfl rfl rfl tail, ?_⟩
    intro other member
    exact none other (tail.subset member)
  | summaryWithItem item prompt run => exact stuckAt.elim
  | summaryOnly prompt run attached => exact stuckAt.elim
  | group items summary run rest =>
    cases summary with
    | some summary => exact stuckAt.elim
    | none =>
      have noneAborted : NoneAborted source := stuckAt
      have dropped : (source.queue.items.drop items.length).Sublist source.queue.items :=
        List.drop_sublist _ _
      let spliced : QueueMachine :=
        ({ source with
          log := source.log ++ [.resolved (.group items none run rest)] :
          QueueMachine }.withItems (source.queue.items.drop items.length))
      have splicedUnreportable : Unreportable spliced :=
        unreportable.of_sublist rfl rfl rfl rfl dropped
      have splicedNone : NoneAborted spliced :=
        fun other member => noneAborted other (dropped.subset member)
      exact stuck_startGroup rest splicedUnreportable splicedNone

/-- While nothing is aborted, a stuck drain stays stuck. -/
theorem Stuck.settle {host : ChannelHost} {now : ℚ} (stuck : Stuck source)
    (settled : source.settle host now = some target) : Stuck target := by
  obtain ⟨unreportable, stuckAt⟩ := stuck
  have kept := unreportable
  obtain ⟨inMap, drops, policy⟩ := kept
  simp only [QueueMachine.settle] at settled
  split at settled
  · simp at settled
  next phase index item dropped drain =>
    cases settled
    rw [drain] at stuckAt
    exact stuck_resolveSweep now unreportable stuckAt
  next phase dropped drain =>
    cases settled
    rw [drain] at stuckAt
    obtain ⟨none, notSwept⟩ := stuckAt
    have notEmptied : ¬(0 < dropped ∧ source.queue.items = []) := by
      intro emptied
      have nothing := notSwept emptied.2
      omega
    rw [source.resolveSwept_of_drops host phase drops notEmptied]
    cases phase with
    | beforeDebounce => exact ⟨⟨inMap, drops, policy⟩, none.survives⟩
    | afterDebounce => exact stuck_drainRound host unreportable none
  next debounceMs drain =>
    rw [drain] at stuckAt
    split at settled
    · cases settled
      exact ⟨⟨inMap, drops, policy⟩, stuckAt⟩
    · simp at settled
  next drain =>
    cases settled
    rw [drain] at stuckAt
    exact stuck_startSweep _ unreportable stuckAt
  next result drain =>
    cases settled
    rw [drain] at stuckAt
    exact stuck_resolveCollectChecked result unreportable stuckAt.1 stuckAt.2
  next call drain =>
    cases settled
    rw [drain] at stuckAt
    exact stuck_resolveCall unreportable stuckAt
  next clearsSummary drain =>
    cases settled
    rw [drain] at stuckAt
    cases clearsSummary with
    | true => exact stuckAt.elim
    | false => exact stuck_loopHead unreportable stuckAt
  next drain =>
    cases settled
    rw [drain] at stuckAt
    exact stuck_finish unreportable stuckAt

end Stuck

section Rounds

/-- How far the drain is from its next debounce. -/
def approachStage : DrainPoint → ℕ
  | .debounced => 8
  | .sweeping .afterDebounce _ _ _ | .swept .afterDebounce _ => 7
  | .collectChecked _ => 6
  | .running _ => 5
  | .shifted _ | .nothingDrained => 4
  | .sweeping .beforeDebounce _ _ _ | .swept .beforeDebounce _ => 3
  | .debouncing _ => 2
  | .idle => 1

/-- Within a stage, the items to sweep or the groups to call. -/
def approachRest (machine : QueueMachine) : ℕ :=
  match machine.drain with
  | .sweeping _ index _ _ =>
    machine.queue.items.length + 1 + if index < machine.queue.items.length then 0 else 1
  | .running (.group _ _ _ rest) => rest.length + 1
  | _ => 0

def approach (machine : QueueMachine) : ℕ ×ₗ ℕ :=
  toLex (approachStage machine.drain, approachRest machine)

variable {source target : QueueMachine}

/-- The drain has ended, or it stands at a debounce. -/
def RoundEnds (machine : QueueMachine) : Prop := machine.Drained ∨ AtDebounce machine

/-- The drain is somewhere between two debounces. -/
def Busy (machine : QueueMachine) : Prop := machine.drain ≠ .idle

theorem approach_lt_of_stage (lower : approachStage target.drain < approachStage source.drain) :
    approach target < approach source :=
  Prod.Lex.toLex_lt_toLex.mpr (Or.inl lower)

theorem approach_lt_of_rest (stage : approachStage target.drain = approachStage source.drain)
    (lower : approachRest target < approachRest source) : approach target < approach source :=
  Prod.Lex.toLex_lt_toLex.mpr (Or.inr ⟨stage, lower⟩)

theorem startSweep_approach (phase : SweepPhase) : Busy (source.startSweep phase) ∧
      approachStage (source.startSweep phase).drain ≤
        (match phase with
          | .beforeDebounce => 3
          | .afterDebounce => 7) ∧
      approachRest (source.startSweep phase) ≤ source.queue.items.length + 1 := by
  rcases source.startSweep_cases phase with ⟨index, item, begun, scan⟩ | ⟨begun, -⟩
  · have inside := (scanAborted_eq_found scan).1
    rw [begun]
    cases phase <;> simp [Busy, approachStage, approachRest, inside]
  · rw [begun]
    cases phase <;> simp [Busy, approachStage, approachRest]

/-- The drain ends, or sweeps from the end of the array again. -/
def Restarts (source target : QueueMachine) : Prop :=
  target.Drained ∨
    (Busy target ∧ approachStage target.drain ≤ 3 ∧
      approachRest target ≤ source.queue.items.length + 1)

theorem restarts_finish (kept : WellKept source) : Restarts source source.finish := by
  rcases source.finish_cases with ⟨empty, -⟩ | ⟨-, -, ended⟩ | ⟨busy, unmapped, -⟩
  · exact Or.inl (source.drained_finish empty)
  · rw [ended]
    exact Or.inr (startSweep_approach .beforeDebounce)
  · rw [kept.detached unmapped] at busy
    simp at busy

theorem restarts_fail (now : ℚ) (kept : WellKept source) : Restarts source (source.fail now) := by
  have stamped : WellKept (source.stamp now) := ⟨kept.detached, kept.lastRun⟩
  exact restarts_finish stamped

theorem restarts_loopHead (kept : WellKept source) : Restarts source source.loopHead := by
  simp only [loopHead]
  split
  · exact restarts_finish kept
  · exact Or.inr (startSweep_approach .beforeDebounce)

/-- A move that ends the round, or brings its end closer. -/
def Approaches (source target : QueueMachine) : Prop :=
  RoundEnds target ∨ (Busy target ∧ approach target < approach source)

theorem Restarts.approaches {middle : QueueMachine} (restarts : Restarts middle target)
    (later : 3 < approachStage source.drain) : Approaches source target := by
  rcases restarts with drained | ⟨busy, stage, -⟩
  · exact Or.inl (Or.inl drained)
  · exact Or.inr ⟨busy, approach_lt_of_stage (by omega)⟩

theorem approaches_resolveSweep {phase : SweepPhase} {index dropped : ℕ} {item : QueuedItem}
    (now : ℚ) (kept : WellKept source) (drain : source.drain = .sweeping phase index item dropped) :
    Approaches source (source.resolveSweep phase index item dropped now) := by
  let removed := source.removeSwept index item
  have items : removed.queue.items = source.queue.items.eraseIdx index := rfl
  have removedKept : WellKept removed := by
    apply kept.of_retains
    exact ⟨List.eraseIdx_sublist _ _, Nat.le_refl _, rfl, Or.inl rfl⟩
  -- Inside the array an item is removed; outside it nothing is.
  have shorter : removed.queue.items.length + 1 < approachRest source := by
    simp only [approachRest, drain]
    rcases Nat.lt_or_ge index source.queue.items.length with inside | outside
    · rw [items, List.length_eraseIdx_of_lt inside]
      simp only [inside, if_true]
      omega
    · rw [items, List.eraseIdx_of_length_le outside]
      simp only [Nat.not_lt.mpr outside, if_false]
      omega
  have atLeast : 3 ≤ approachStage source.drain := by
    rw [drain]
    cases phase <;> simp [approachStage]
  have closer : ∀ target, approachStage target.drain ≤ approachStage source.drain →
        approachRest target ≤ removed.queue.items.length + 1 →
        approach target < approach source := by
    intro target stage rest
    rcases Nat.lt_or_eq_of_le stage with lower | same
    · exact approach_lt_of_stage lower
    · exact approach_lt_of_rest same (by omega)
  have goesOn : Approaches source (removed.continueSweep phase index (dropped + 1) now) := by
    simp only [continueSweep]
    split
    · rcases restarts_fail now removedKept with drained | ⟨busy, stage, rest⟩
      · exact Or.inl (Or.inl drained)
      · exact Or.inr ⟨busy, closer _ (stage.trans atLeast) rest⟩
    · refine Or.inr ⟨by simp [Busy], closer _ ?_ (Nat.zero_le _)⟩
      rw [drain]
      cases phase <;> simp [approachStage]
    next next other scan =>
      have located := (scanAborted_eq_found scan).2.1
      obtain ⟨inside, -⟩ := List.getElem?_eq_some_iff.mp located
      refine Or.inr ⟨by simp [Busy], closer _ ?_ ?_⟩
      · rw [drain]
        cases phase <;> simp [approachStage]
      · simp [approachRest, inside]
  exact goesOn

theorem approaches_resolveSwept (host : ChannelHost) {phase : SweepPhase} {dropped : ℕ}
    (kept : WellKept source) (drain : source.drain = .swept phase dropped) :
    Approaches source (source.resolveSwept host phase dropped) := by
  rcases source.resolveSwept_cases host phase dropped with drained | ⟨-, -, goesOn⟩
  · exact Or.inl (Or.inl drained)
  · rw [goesOn]
    cases phase with
    | beforeDebounce => exact Or.inl (Or.inr ⟨_, rfl⟩)
    | afterDebounce =>
      have stops : ∀ point, point ≠ .idle → approachStage point < 7 →
            ∀ machine : QueueMachine, machine.drain = point → Approaches source machine := by
        intro point busy lower machine stands
        refine Or.inr ⟨?_, ?_⟩
        · rwa [Busy, stands]
        · apply approach_lt_of_stage
          rw [stands, drain]
          exact lower
      simp only [afterSweep, drainRound]
      split
      · rcases source.drainCollect_cases host with
          ⟨force, begun⟩ | ⟨-, begun⟩ | ⟨item, rest, -, begun⟩
        · rw [begun]
          exact stops _ (by simp) (by simp [approachStage]) _ rfl
        · rw [begun]
          exact stops _ (by simp) (by simp [approachStage]) _ rfl
        · rw [begun]
          exact stops (.running _) (by simp) (by simp [approachStage]) _ rfl
      · rcases source.drainNext_cases with
          ⟨-, -, begun⟩ | ⟨-, begun⟩ |
            ⟨prompt, run, item, rest, -, -, begun⟩ | ⟨item, rest, -, -, begun⟩
        · rw [begun]
          apply (restarts_finish kept).approaches
          simp [drain, approachStage]
        · rw [begun]
          exact stops _ (by simp) (by simp [approachStage]) _ rfl
        · rw [begun]
          exact stops (.running _) (by simp) (by simp [approachStage]) _ rfl
        · rw [begun]
          exact stops (.running _) (by simp) (by simp [approachStage]) _ rfl

theorem approaches_resolveCollectChecked {result : CollectDrainResult}
    (kept : WellKept source) (drain : source.drain = .collectChecked result) :
    Approaches source (source.resolveCollectChecked result) := by
  have later : 3 < approachStage source.drain := by
    simp [drain, approachStage]
  have calls : ∀ call, Approaches source (source.call call) := by
    intro call
    refine Or.inr ⟨by simp [Busy, QueueMachine.call], ?_⟩
    apply approach_lt_of_stage
    simp [drain, QueueMachine.call, approachStage]
  have summaryOnly : ∀ attached, Approaches source (source.startSummaryOnly attached) := by
    intro attached
    rcases source.startSummaryOnly_cases attached with ⟨prompt, run, -, begun⟩ | ⟨-, begun⟩
    · rw [begun]
      exact calls _
    · rw [begun]
      exact (restarts_finish kept).approaches later
  cases result with
  | empty => exact summaryOnly _
  | skipped =>
    simp only [resolveCollectChecked]
    split
    · exact summaryOnly _
    · rcases source.startGroup_cases (splitCollectItemsByAuthorization source.queue.items)
          source.previewSummary with
        ⟨-, begun⟩ | ⟨items, rest, run, -, begun⟩
      · rw [begun]
        exact (restarts_loopHead kept).approaches later
      · rw [begun]
        exact calls _

theorem approaches_resolveCall {call : FollowupCall} (kept : WellKept source)
    (drain : source.drain = .running call) : Approaches source (source.resolveCall call) := by
  have later : 3 < approachStage source.drain := by
    simp [drain, approachStage]
  have shifts : ∀ clearsSummary (machine : QueueMachine), machine.drain = .shifted clearsSummary →
        Approaches source machine := by
    intro clearsSummary machine stands
    refine Or.inr ⟨by simp [Busy, stands], ?_⟩
    apply approach_lt_of_stage
    simp [stands, drain, approachStage]
  cases call with
  | individual item => exact shifts false _ rfl
  | summaryWithItem item prompt run => exact shifts true _ rfl
  | summaryOnly prompt run attached =>
    let cleared :=
      { source with
        log := source.log ++ [.resolved (.summaryOnly prompt run attached)] :
        QueueMachine }.clearSummaryState
    have clearedKept : WellKept cleared := by
      apply kept.of_retains
      exact ⟨.refl _, Nat.zero_le _, rfl, Or.inl rfl⟩
    exact (restarts_loopHead clearedKept).approaches later
  | group items summary run rest =>
    let spliced : QueueMachine :=
      ({ source with
        log := source.log ++ [.resolved (.group items summary run rest)] :
        QueueMachine }.withItems (source.queue.items.drop items.length))
    have splicedKept : WellKept spliced := by
      apply kept.of_retains
      exact ⟨List.drop_sublist _ _, Nat.le_refl _, rfl, Or.inl rfl⟩
    have begins : ∀ machine, WellKept machine →
          Approaches source (machine.startGroup rest none) := by
      intro machine machineKept
      rcases machine.startGroup_cases rest none with
        ⟨-, begun⟩ | ⟨nextItems, later, nextRun, shape, begun⟩
      · rw [begun]
        exact (restarts_loopHead machineKept).approaches later
      · rw [begun]
        refine Or.inr ⟨by simp [Busy, QueueMachine.call], ?_⟩
        apply approach_lt_of_rest
        · simp [drain, QueueMachine.call, approachStage]
        · simp [approachRest, drain, QueueMachine.call, shape]
    simp only [resolveCall]
    split
    · exact begins _ (splicedKept.of_retains .of_clearSummaryState)
    · exact begins _ splicedKept

/-- Every move of a busy drain ends its round or brings the end closer. -/
theorem approaches_settle {host : ChannelHost} {now : ℚ} (kept : WellKept source)
    (notYet : ¬AtDebounce source) (settled : source.settle host now = some target) :
    Approaches source target := by
  simp only [QueueMachine.settle] at settled
  split at settled
  · simp at settled
  next phase index item dropped drain =>
    cases settled
    exact approaches_resolveSweep now kept drain
  next phase dropped drain =>
    cases settled
    exact approaches_resolveSwept host kept drain
  next debounceMs drain => exact absurd ⟨debounceMs, drain⟩ notYet
  next drain =>
    cases settled
    obtain ⟨busy, stage, -⟩ := startSweep_approach .afterDebounce
    refine Or.inr ⟨busy, approach_lt_of_stage ?_⟩
    rw [drain]
    exact Nat.lt_succ_of_le stage
  next result drain =>
    cases settled
    exact approaches_resolveCollectChecked kept drain
  next call drain =>
    cases settled
    exact approaches_resolveCall kept drain
  next clearsSummary drain =>
    cases settled
    have later : 3 < approachStage source.drain := by
      simp [drain, approachStage]
    split
    · have cleared : WellKept source.clearSummaryState := kept.of_retains .of_clearSummaryState
      exact (restarts_loopHead cleared).approaches later
    · exact (restarts_loopHead kept).approaches later
  next drain =>
    cases settled
    apply (restarts_finish kept).approaches
    simp [drain, approachStage]

end Rounds

section Inevitability

variable {source : QueueMachine}

theorem isFollowupRunAborted_append {aborted : List ℕ} {run : FollowupRun}
    (signals : List ℕ) (isAborted : isFollowupRunAborted aborted run = true) :
    isFollowupRunAborted (signals ++ aborted) run = true := by
  simp only [isFollowupRunAborted] at isAborted ⊢
  split at isAborted
  · simp at isAborted
  next signal hasSignal =>
    simp only [List.any_eq_true, List.contains_iff_mem] at isAborted ⊢
    obtain ⟨fired, member, known⟩ := isAborted
    exact ⟨fired, member, List.mem_append_right _ known⟩

theorem AllAborted.abortAll (signals : List ℕ) (all : AllAborted source) :
    AllAborted (abortAll signals source) :=
  fun item member => isFollowupRunAborted_append signals (all item member)

theorem Clearable.abortAll (signals : List ℕ) (clearable : Clearable source) :
    Clearable (abortAll signals source) := by
  rcases clearable with noDrops | ⟨present, all⟩ | reports
  · exact Or.inl noDrops
  · exact Or.inr (Or.inl ⟨present, all.abortAll signals⟩)
  · exact Or.inr (Or.inr reports)

theorem Hopeful.abortAll (signals : List ℕ) (hopeful : Hopeful source) :
    Hopeful (abortAll signals source) := by
  have same : (FollowupQueue.abortAll signals source).drain = source.drain := rfl
  simp only [Hopeful] at hopeful ⊢
  rw [same]
  cases drain : source.drain with
  | sweeping phase index item dropped =>
    rw [drain] at hopeful
    obtain ⟨inside, noDrops | summarizes | ⟨atEnd, all⟩⟩ := hopeful
    · exact ⟨inside, Or.inl noDrops⟩
    · exact ⟨inside, Or.inr (Or.inl summarizes)⟩
    · exact ⟨inside, Or.inr (Or.inr ⟨atEnd, all.abortAll signals⟩)⟩
  | debouncing debounceMs =>
    rw [drain] at hopeful
    exact Clearable.abortAll signals hopeful
  | debounced =>
    rw [drain] at hopeful
    exact Clearable.abortAll signals hopeful
  | running call =>
    rw [drain] at hopeful
    cases call <;> exact hopeful
  | _ =>
    rw [drain] at hopeful
    exact hopeful

variable (host : ChannelHost)

theorem Hopeful.inevitable (kept : WellKept source) (hopeful : Hopeful source) :
    Inevitable (drainMove host) QueueMachine.Drained source := by
  have reaches : ∀ machine, WellKept machine ∧ Hopeful machine →
        Inevitable (FollowupQueue.drainMove host) QueueMachine.Drained
          machine := by
    apply Inevitable.of_measure progress
    · intro machine ⟨_, hope⟩ _
      apply exists_drainMove host
      intro idle
      simp only [Hopeful, idle] at hope
    · intro machine next ⟨machineKept, hope⟩ _ moved
      have nextKept := machineKept.drainMove moved
      obtain ⟨signals, now, settled⟩ := moved
      have abortedKept : WellKept (FollowupQueue.abortAll signals machine) :=
        machineKept.of_retains (.of_queue rfl rfl)
      rcases (hope.abortAll signals).settle abortedKept settled with drained | ⟨still, lower⟩
      · exact Or.inl drained
      · exact Or.inr ⟨⟨nextKept, still⟩, lower⟩
  exact reaches source ⟨kept, hopeful⟩

theorem Stuck.not_inevitable (stuck : Stuck source) :
    ¬Inevitable (drainMove host) QueueMachine.Drained source := by
  apply Inevitable.not_of_trap _ _ stuck
  · intro machine inside drained
    exact inside.1.drops drained.2.2.1
  · intro machine inside
    have busy : machine.drain ≠ .idle := by
      intro idle
      have stuckAt := inside.2
      rw [idle] at stuckAt
      exact stuckAt
    obtain ⟨now, target, settled⟩ := machine.exists_settle host busy
    exact ⟨target, ⟨[], now, settled⟩, inside.settle settled⟩

section

variable (kept : WellKept source)
include kept

theorem unreportable_of_not_clearable (notClearable : ¬Clearable source) :
    Unreportable source ∧ ¬(source.queue.items ≠ [] ∧ AllAborted source) := by
  simp only [Clearable, not_or] at notClearable
  obtain ⟨drops, survives, notReported⟩ := notClearable
  refine ⟨{ inMap := ?_, drops := drops, policy := ?_ }, survives⟩
  · cases mapped : source.inMap with
    | true => rfl
    | false => exact absurd (source.isEmpty_iff.mp (kept.detached mapped)).2 drops
  · by_cases summarizes : source.queue.dropPolicy = .summarize
    · simp only [summarizes, true_and, not_or, not_not] at notReported
      exact Or.inr notReported
    · exact Or.inl summarizes

theorem stuck_schedule (idle : source.drain = .idle)
    (notClearable : ¬Clearable source) : Stuck source.schedule := by
  obtain ⟨unreportable, survives⟩ := unreportable_of_not_clearable kept notClearable
  have forced : Unreportable (source.withForce false) :=
    ⟨unreportable.inMap, unreportable.drops, unreportable.policy⟩
  simp only [schedule, unreportable.inMap, idle, and_self, if_true, loopHead,
    forced.isEmpty, Bool.false_eq_true, if_false]
  exact stuck_startSweep .beforeDebounce forced survives

theorem inevitable_schedule (idle : source.drain = .idle) (clearable : Clearable source) :
    Inevitable (drainMove host) QueueMachine.Drained source.schedule := by
  have scheduledKept := kept.of_retains Retains.of_schedule
  simp only [schedule] at scheduledKept ⊢
  split
  next starts =>
    simp only [starts] at scheduledKept
    have forced : Clearable (source.withForce false) := clearable
    rcases lands_loopHead forced with drained | lands
    · exact .now drained
    · exact lands.hopeful.inevitable host scheduledKept
  next notStarted =>
    have unmapped : source.inMap = false := by
      simpa [idle] using notStarted
    obtain ⟨noItems, noDrops⟩ := source.isEmpty_iff.mp (kept.detached unmapped)
    exact .now ⟨idle, noItems, noDrops, unmapped⟩

theorem inevitable_roundEnds (busy : Busy source) :
    Inevitable (drainMove host) RoundEnds source := by
  have reaches : ∀ machine, WellKept machine ∧ Busy machine →
        Inevitable (drainMove host) RoundEnds machine := by
    apply Inevitable.of_measure approach
    · intro machine ⟨_, stillBusy⟩ _
      exact exists_drainMove host stillBusy
    · intro machine next ⟨machineKept, _⟩ notYet moved
      have nextKept := machineKept.drainMove moved
      obtain ⟨signals, now, settled⟩ := moved
      have abortedKept : WellKept (abortAll signals machine) :=
        machineKept.of_retains (.of_queue rfl rfl)
      have between : ¬AtDebounce (abortAll signals machine) := fun waits => notYet (Or.inr waits)
      rcases approaches_settle abortedKept between settled with ends | ⟨nextBusy, lower⟩
      · exact Or.inl ends
      · exact Or.inr ⟨⟨nextKept, nextBusy⟩, lower⟩
  exact reaches source ⟨kept, busy⟩

end

end Inevitability

/--
When nothing more is enqueued and every call resolves, then from every
reachable queue the drain reaches its end or its next debounce. It empties the
queue and leaves the map, from a schedule and from a debounce, exactly when the
queue is clearable there.
-/
theorem drains_iff_clearable (host : ChannelHost) {machine : QueueMachine}
    (reachable : Reachable (step host) Initial machine) :
    (machine.drain = .idle →
      (Inevitable (drainMove host) QueueMachine.Drained machine.schedule ↔ Clearable machine)) ∧
      (AtDebounce machine →
        (Inevitable (drainMove host) QueueMachine.Drained machine ↔ Clearable machine)) ∧
      (machine.drain ≠ .idle → Inevitable (drainMove host) RoundEnds machine) := by
  have kept := WellKept.of_reachable reachable
  refine ⟨?_, ?_, ?_⟩
  · intro idle
    constructor
    · intro drains
      by_contra notClearable
      exact (stuck_schedule kept idle notClearable).not_inevitable host drains
    · exact inevitable_schedule host kept idle
  · intro ⟨debounceMs, waits⟩
    constructor
    · intro drains
      by_contra notClearable
      obtain ⟨unreportable, survives⟩ := unreportable_of_not_clearable kept notClearable
      have stuck : Stuck machine := by
        refine ⟨unreportable, ?_⟩
        rw [waits]
        exact survives
      exact stuck.not_inevitable host drains
    · intro clearable
      have hopeful : Hopeful machine := by
        simp only [Hopeful, waits]
        exact clearable
      exact hopeful.inevitable host kept
  · exact inevitable_roundEnds host kept

/-- A host without registered channels. -/
private def bareHost : ChannelHost := ⟨id, fun _ => false⟩

/-- A prompt enqueued without starting a drain. -/
private def heldRequest (prompt : String) (dropPolicy : QueueDropPolicy) : EnqueueRequest where
  run := { prompt := prompt, run := {} }
  settings :=
    { mode := .followup
      cap := some 1
      dropPolicy := some dropPolicy
      debounceMs := some 0 }
  dedupeMode := .none
  recentlyQueued := false
  restart := false
  now := 0

/-- A queue with room for one item, after these enqueues. -/
private def heldQueue (requests : List EnqueueRequest) : QueueMachine :=
  requests.foldl (fun machine request => machine.enqueue bareHost request)
    (.created
      { mode := .followup
        cap := some 1
        dropPolicy := some .summarize
        debounceMs := some 0 })

private theorem reachable_heldQueue (requests : List EnqueueRequest) :
    Reachable (step bareHost) Initial (heldQueue requests) := by
  have from_start : ∀ machine, Reachable (step bareHost) Initial machine →
        Reachable (step bareHost) Initial (requests.foldl
            (fun machine request => machine.enqueue bareHost request) machine) := by
    induction requests with
    | nil =>
      intro machine reachable
      exact reachable
    | cons request rest inductionHypothesis =>
      intro machine reachable
      have enqueues :
          step bareHost machine (.enqueue request) (machine.enqueue bareHost request) := rfl
      exact inductionHypothesis _ (reachable.next enqueues)
  exact from_start _ (Reachable.start ⟨_, rfl⟩)

/-- A queue whose overflow is still summarized drains. -/
theorem drains_iff_clearable_summarized :
    ((heldQueue
        [heldRequest "first" .summarize, heldRequest "second" .summarize]).queue.droppedCount = 1) ∧
      Inevitable (drainMove bareHost) QueueMachine.Drained
        (heldQueue [heldRequest "first" .summarize, heldRequest "second" .summarize]).schedule := by
  have clearable : Clearable (heldQueue [heldRequest "first" .summarize,
            heldRequest "second" .summarize]) := by
    refine Or.inr (Or.inr ⟨by decide +kernel, Or.inr ?_⟩)
    exact List.length_pos_iff.mp (by decide +kernel)
  exact ⟨by decide +kernel, ((drains_iff_clearable bareHost (reachable_heldQueue _)).1
      (by decide +kernel)).mpr clearable⟩

/--
An item is dropped under `summarize`, and the next enqueue changes the policy to
`old`. The drain delivers the last item and goes round for ever.
-/
theorem not_drains_of_policyChange :
    ¬ ∀ (host : ChannelHost) (machine : QueueMachine),
        Reachable (step host) Initial machine →
        machine.drain = .idle →
        Inevitable (drainMove host) QueueMachine.Drained machine.schedule := by
  intro always
  let queue :=
    heldQueue
      [heldRequest "first" .summarize, heldRequest "second" .summarize, heldRequest "third" .old]
  have reachable : Reachable (step bareHost) Initial queue := reachable_heldQueue _
  have idle : queue.drain = .idle := by
    decide +kernel
  have notClearable : ¬Clearable queue := by
    intro clearable
    have notAborted : queue.queue.items.all
            (fun item => !isFollowupRunAborted queue.aborted item.toFollowupRun) =
          true := by
      decide +kernel
    rcases clearable with noDrops | ⟨present, all⟩ | ⟨summarizes, -⟩
    · exact absurd noDrops (by decide +kernel)
    · obtain ⟨item, member⟩ := List.exists_mem_of_ne_nil _ present
      have live := List.all_eq_true.mp notAborted item member
      rw [all item member] at live
      simp at live
    · exact absurd summarizes (by decide +kernel)
  have stuck := stuck_schedule (.of_reachable reachable) idle notClearable
  exact stuck.not_inevitable bareHost (always bareHost queue reachable idle)

end FollowupQueue
