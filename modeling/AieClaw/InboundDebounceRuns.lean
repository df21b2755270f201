import AieClaw.InboundDebounceDelivery

/-!
# Runs of the debouncer

What one move changes in a conversation, when nothing is left to do, and the statement
about every run: items are handed over once, in order and in consecutive batches, calls
of one key do not overlap when immediate items are serialized, and a debouncer that gets
no more items comes to rest with nothing left in its maps.
-/

namespace InboundDebounce

open KeyTask Debouncer List Option

variable {Item : Type}

namespace Conversation

/-- The work left for one task. -/
def taskWork (task : KeyTask Item) : ℕ :=
  (match task.phase with
    | .waiting => 3
    | .running => 2
    | .settled => 1
    | .cleaned => 0) +
  (match task.gate with
    | .opened => 0
    | _ => 1)

def remaining (conversation : Conversation Item) : ℕ :=
  conversation.timers.length + (conversation.tasks.map taskWork).sum

/-- What every move leaves alone. -/
structure Goes (before after : Conversation Item) : Prop where
  arrivals : after.arrivals = before.arrivals
  buffer : before.buffer = none → after.buffer = none
  chain : before.chain = none → after.chain = none
  chained : (∀ task ∈ before.tasks, task.chained) → ∀ task ∈ after.tasks, task.chained

variable {tasks : List (KeyTask Item)} {conversation after : Conversation Item}

theorem chained_modify {index : ℕ} {change : KeyTask Item → KeyTask Item}
    (kept : ∀ task, (change task).chained = task.chained) (all : ∀ task ∈ tasks, task.chained) :
    ∀ task ∈ tasks.modify index change, task.chained := by
  intro task member
  obtain ⟨place, found⟩ := mem_iff_getElem?.mp member
  rw [getElem?_modify] at found
  obtain ⟨earlier, foundEarlier, rfl⟩ := map_eq_some_iff.mp found
  have chained := all earlier (mem_of_getElem? foundEarlier)
  by_cases same : index = place
  · simpa [same, kept] using chained
  · simpa [same] using chained

theorem goes_flushBuffer (conversation : Conversation Item) (buffer : ℕ) :
    conversation.Goes (conversation.flushBuffer buffer) := by
  refine ⟨rfl, ?_, id, chained_modify fun _ => rfl⟩
  intro noBuffer
  simp [flushBuffer, releaseBuffer, clearTimeout, dropBuffer, noBuffer]

theorem goes_flushKey (conversation : Conversation Item) :
    conversation.Goes conversation.flushKey := by
  unfold flushKey
  split
  · exact ⟨rfl, id, id, id⟩
  · exact goes_flushBuffer _ _

theorem goes_of_move {move : Move} (moved : conversation.move move = some after) :
    conversation.Goes after := by
  cases move with
  | fire buffer =>
    simp only [Conversation.move, fire] at moved
    split at moved
    · cases moved
      have goes := (conversation.clearTimeout buffer).goes_flushBuffer buffer
      exact ⟨goes.arrivals, goes.buffer, goes.chain, goes.chained⟩
    · exact absurd moved (by simp)
  | flushKey =>
    cases moved
    exact conversation.goes_flushKey
  | cancelKey =>
    cases moved
    unfold cancelKey
    split
    · exact ⟨rfl, id, id, id⟩
    next buffer current =>
      refine ⟨rfl, ?_, id, ?_⟩
      · intro noBuffer
        rw [noBuffer] at current
        exact absurd current (by simp)
      · intro all
        exact chained_modify (fun _ => rfl) (chained_modify (fun _ => rfl) all)
  | start index =>
    obtain ⟨task, _, went⟩ := bind_eq_some_iff.mp moved
    split at went
    · split at went <;> obtain rfl := Option.some.inj went <;>
        exact ⟨rfl, id, id, chained_modify fun _ => rfl⟩
    · exact absurd went (by simp)
  | settle index threw =>
    obtain ⟨task, _, went⟩ := bind_eq_some_iff.mp moved
    split at went
    · cases went
      exact ⟨rfl, id, id, chained_modify fun _ => rfl⟩
    · exact absurd went (by simp)
  | release index =>
    obtain ⟨task, _, went⟩ := bind_eq_some_iff.mp moved
    split at went
    · split at went
      · cases went
        exact ⟨rfl, id, id, chained_modify fun _ => rfl⟩
      · exact absurd went (by simp)
    · exact absurd went (by simp)
  | cleanup index =>
    obtain ⟨task, _, went⟩ := bind_eq_some_iff.mp moved
    split at went
    · cases went
      refine ⟨rfl, id, ?_, chained_modify fun _ => rfl⟩
      intro noChain
      simp [noChain]
    · exact absurd went (by simp)

theorem sum_taskWork_modify {index : ℕ} {task : KeyTask Item}
    {change : KeyTask Item → KeyTask Item} (found : tasks[index]? = some task)
    (less : taskWork (change task) < taskWork task) :
    ((tasks.modify index change).map taskWork).sum < (tasks.map taskWork).sum := by
  obtain ⟨before, after, _, shape, changed⟩ := modify_split found
  rw [changed, shape]
  simp only [map_append, map_cons, sum_append, sum_cons]
  omega

theorem sum_taskWork_open (tasks : List (KeyTask Item)) (index : ℕ) :
    ((tasks.modify index fun task => { task with gate := .opened }).map taskWork).sum ≤
      (tasks.map taskWork).sum := by
  cases found : tasks[index]? with
  | none => rw [modify_eq_self (getElem?_eq_none_iff.mp found)]
  | some task =>
    obtain ⟨before, after, _, shape, changed⟩ := modify_split found
    rw [changed, shape]
    simp [taskWork]

theorem length_filter_ne_lt {timers : List ℕ} {timer : ℕ} (member : timer ∈ timers) :
    (timers.filter (· ≠ timer)).length < timers.length := by
  apply length_filter_lt_length_iff_exists.mpr
  exact ⟨timer, member, by simp⟩

/-- A move that no caller makes leaves less to do. -/
theorem remaining_lt_of_move {move : Move}
    (internal : move.isInternal) (moved : conversation.move move = some after) :
    after.remaining < conversation.remaining := by
  cases move with
  | flushKey => simp [Move.isInternal] at internal
  | cancelKey => simp [Move.isInternal] at internal
  | fire buffer =>
    simp only [Conversation.move, fire] at moved
    split at moved
    next pending =>
      cases moved
      have fewer := length_filter_ne_lt pending
      have opened := sum_taskWork_open conversation.tasks buffer
      have again : ((conversation.timers.filter (· ≠ buffer)).filter (· ≠ buffer)).length ≤
            (conversation.timers.filter (· ≠ buffer)).length :=
        length_filter_le _ _
      simp only [remaining, flushBuffer, releaseBuffer, clearTimeout, dropBuffer]
      omega
    · exact absurd moved (by simp)
  | start index =>
    obtain ⟨task, found, went⟩ := bind_eq_some_iff.mp moved
    split at went
    next ready =>
      split at went <;> obtain rfl := Option.some.inj went <;>
        exact Nat.add_lt_add_left (sum_taskWork_modify found (by simp [taskWork, ready.1])) _
    · exact absurd went (by simp)
  | settle index threw =>
    obtain ⟨task, found, went⟩ := bind_eq_some_iff.mp moved
    split at went
    next running =>
      cases went
      exact Nat.add_lt_add_left (sum_taskWork_modify found (by simp [taskWork, running])) _
    · exact absurd went (by simp)
  | release index =>
    obtain ⟨task, found, went⟩ := bind_eq_some_iff.mp moved
    split at went
    next awaited gate =>
      split at went
      · cases went
        exact Nat.add_lt_add_left (sum_taskWork_modify found (by simp [taskWork, gate])) _
      · exact absurd went (by simp)
    · exact absurd went (by simp)
  | cleanup index =>
    obtain ⟨task, found, went⟩ := bind_eq_some_iff.mp moved
    split at went
    next done =>
      cases went
      exact Nat.add_lt_add_left (sum_taskWork_modify found (by simp [taskWork, done.2])) _
    · exact absurd went (by simp)

/-- No timer is left to fire, no call to return and no promise to go on. -/
def AtRest (conversation : Conversation Item) : Prop :=
  ∀ move : Move, move.isInternal → conversation.move move = none

namespace WellFormed

variable {conversation : Conversation Item}

section

variable (wellFormed : conversation.WellFormed)
include wellFormed

/-- At rest every task has settled: the oldest one that has not could go on. -/
theorem settled_of_atRest (rest : conversation.AtRest) : ∀ {index : ℕ} {task : KeyTask Item},
      conversation.tasks[index]? = some task → task.isSettled := by
  intro index
  induction index using Nat.strong_induction_on with
  | _ index inductionHypothesis =>
    intro task found
    have inside : index < conversation.tasks.length := (List.getElem?_eq_some_iff.mp found).1
    have earlierSettled :
        ∀ {earlier : ℕ}, earlier < index → conversation.isSettled (some earlier) := by
      intro earlier before
      have foundEarlier : conversation.tasks[earlier]? = some conversation.tasks[earlier] :=
        getElem?_eq_getElem (before.trans inside)
      simpa [isSettled, foundEarlier] using inductionHypothesis earlier before foundEarlier
    by_contra unsettled
    cases phase : task.phase with
    | settled => simp [KeyTask.isSettled, phase] at unsettled
    | cleaned => simp [KeyTask.isSettled, phase] at unsettled
    | running =>
      have stuck := rest (.settle index false) rfl
      simp [Conversation.move, Conversation.settle, found, phase] at stuck
    | waiting =>
      cases gate : task.gate with
      | buffered =>
        obtain ⟨buffer, current, _⟩ := wellFormed.gates.buffered found gate
        have timed := wellFormed.gates.timed
        have stuck := rest (.fire buffer.task) rfl
        simp [Conversation.move, Conversation.fire, timed, current] at stuck
      | after awaited =>
        have settled := earlierSettled (wellFormed.gates.awaited found gate)
        have stuck := rest (.release index) rfl
        simp [Conversation.move, Conversation.release, found, gate, settled] at stuck
      | opened =>
        have settled : conversation.isSettled task.previous := by
          cases link : task.previous with
          | none => rfl
          | some previous =>
            have next := (wellFormed.links.linked found link).1
            exact earlierSettled (by omega)
        have stuck := rest (.start index) rfl
        by_cases noItems : task.items = [] <;>
          simp [Conversation.move, Conversation.start, found, phase, gate, settled,
            noItems] at stuck

theorem chain_of_atRest (rest : conversation.AtRest) : conversation.chain = none := by
  cases chain : conversation.chain with
  | none => rfl
  | some index =>
    obtain ⟨atEnd, chained⟩ := wellFormed.links.last chain
    obtain ⟨task, found⟩ : ∃ task, conversation.tasks[index]? = some task :=
      ⟨_, getElem?_eq_getElem (by omega)⟩
    have settled := wellFormed.settled_of_atRest rest found
    have uncleaned := wellFormed.links.uncleaned chain found
    have stuck := rest (.cleanup index) rfl
    simp only [KeyTask.isSettled, Bool.or_eq_true, decide_eq_true_eq, uncleaned,
      or_false] at settled
    simp [Conversation.move, Conversation.cleanup, found, chained _ found, settled] at stuck

theorem buffer_of_atRest (rest : conversation.AtRest) : conversation.buffer = none := by
  cases current : conversation.buffer with
  | none => rfl
  | some buffer =>
    have ends := (wellFormed.gates.reserved buffer current).1
    rw [wellFormed.chain_of_atRest rest] at ends
    exact absurd ends (by simp)

end

end WellFormed

theorem flatten_handedOver_sublist (tasks : List (KeyTask Item)) :
    (tasks.filterMap handedOver).flatten.Sublist (tasks.flatMap items) := by
  induction tasks with
  | nil => simp
  | cons task rest inductionHypothesis =>
    rw [filterMap_cons, flatMap_cons]
    cases handed : task.handedOver with
    | none => exact inductionHypothesis.trans (sublist_append_right _ _)
    | some batch =>
      have isItems : batch = task.items := by
        simp only [handedOver] at handed
        split at handed
        · exact (Option.some.inj handed).symm
        · exact absurd handed (by simp)
      subst isItems
      exact (List.Sublist.refl _).append inductionHypothesis

theorem flatten_handedOver_of_started (started : ∀ task ∈ tasks, task.isStarted) :
    (tasks.filterMap handedOver).flatten = tasks.flatMap items := by
  induction tasks with
  | nil => rfl
  | cons task rest inductionHypothesis =>
    have restStarted := inductionHypothesis fun other member => started other (by simp [member])
    have isStarted := started task (by simp)
    rw [filterMap_cons, flatMap_cons]
    by_cases noItems : task.items = []
    · simp [handedOver, noItems, restStarted]
    · simp [handedOver, isStarted, noItems, restStarted]

namespace WellFormed

variable {conversation : Conversation Item}

section

variable (wellFormed : conversation.WellFormed)
include wellFormed

theorem flatten_flushes_sublist : conversation.flushes.flatten.Sublist conversation.arrivals := by
  rw [wellFormed.ledger.flushed]
  exact (flatten_handedOver_sublist _).trans wellFormed.ledger.ordered

theorem handed_subperm : (conversation.flushes.flatten ++ conversation.cancels.flatten).Subperm
      conversation.arrivals := by
  have within : (conversation.flushes.flatten ++ conversation.cancels.flatten).Sublist
        (conversation.tasks.flatMap items ++ conversation.cancels.flatten) := by
    rw [wellFormed.ledger.flushed]
    exact (flatten_handedOver_sublist _).append (.refl _)
  exact within.subperm.trans wellFormed.ledger.kept.symm.subperm

theorem handed_perm_of_atRest (rest : conversation.AtRest) :
    (conversation.flushes.flatten ++ conversation.cancels.flatten).Perm
      conversation.arrivals := by
  have started : ∀ task ∈ conversation.tasks, task.isStarted := by
    intro task member
    obtain ⟨index, found⟩ := mem_iff_getElem?.mp member
    exact isStarted_of_isSettled (wellFormed.settled_of_atRest rest found)
  rw [wellFormed.ledger.flushed, flatten_handedOver_of_started started]
  exact wellFormed.ledger.kept.symm

theorem batch_of_mem_flushes (distinct : conversation.arrivals.Nodup) {batch : List (Arrived Item)}
    (flushed : batch ∈ conversation.flushes) : batch ≠ [] ∧ batch <:+: conversation.arrivals ∧
      ∀ cancelled ∈ conversation.cancels, ∀ item ∈ batch, item ∉ cancelled := by
  have handed := flushed
  rw [wellFormed.ledger.flushed] at handed
  obtain ⟨task, member, isBatch⟩ := mem_filterMap.mp handed
  simp only [handedOver] at isBatch
  split at isBatch
  next gave =>
    cases isBatch
    simp only [Bool.and_eq_true, Bool.not_eq_true', isEmpty_eq_false_iff] at gave
    refine ⟨gave.2, wellFormed.ledger.consecutive task member, ?_⟩
    intro cancelled isCancelled item inBatch inCancelled
    obtain ⟨handedOver, isHanded, within⟩ := wellFormed.handed_subperm
    have once : (conversation.flushes.flatten ++ conversation.cancels.flatten).Nodup :=
      isHanded.nodup_iff.mp (distinct.sublist within)
    exact (disjoint_of_nodup_append once) (mem_flatten.mpr ⟨_, flushed, inBatch⟩)
      (mem_flatten.mpr ⟨_, isCancelled, inCancelled⟩)
  · exact absurd isBatch (by simp)

theorem running_le_one (chained : ∀ task ∈ conversation.tasks, task.chained) :
    (conversation.tasks.filter isRunning).length ≤ 1 := by
  have apart : conversation.tasks.Pairwise fun earlier later =>
        ¬(earlier.isRunning ∧ later.isRunning) := by
    rw [pairwise_iff_getElem]
    intro first second firstInside secondInside less both
    obtain ⟨firstRuns, secondRuns⟩ := both
    simp only [isRunning, decide_eq_true_eq] at firstRuns secondRuns
    have settled :=
      wellFormed.links.ordered less (getElem?_eq_getElem firstInside)
        (getElem?_eq_getElem secondInside) (chained _ (getElem_mem _))
        (by simp [isStarted, secondRuns])
    simp [KeyTask.isSettled, firstRuns] at settled
  have kept := apart.filter isRunning
  have allRun : ∀ task ∈ conversation.tasks.filter isRunning, task.isRunning := by
    intro task member
    exact (mem_filter.mp member).2
  cases running : conversation.tasks.filter isRunning with
  | nil => simp
  | cons first rest =>
    cases rest with
    | nil => simp
    | cons second others =>
      rw [running] at kept allRun
      have clash := (pairwise_cons.mp kept).1 second (by simp)
      exact absurd ⟨allRun first (by simp), allRun second (by simp)⟩ clash

end

end WellFormed

end Conversation

section Machine

variable (params : InboundDebounceCreateParams Item)

/-- The steps of the debouncer and its callers. -/
def Steps (source : Debouncer Item) (action : Action Item) (target : Debouncer Item) : Prop :=
  step params source action = some target

/-- The steps that no caller makes. -/
def Moves (source target : Debouncer Item) : Prop :=
  ∃ key move, Move.isInternal move ∧ Steps params source (.move key move) target

def Reachable (debouncer : Debouncer Item) : Prop :=
  TransitionSystem.Reachable (Steps params) (· = initial) debouncer

/-- All timers have fired, all calls have returned and no promise can go on. -/
def Debouncer.AtRest (debouncer : Debouncer Item) : Prop :=
  ∀ target, ¬Moves params debouncer target

/-- The invariants of a debouncer. -/
structure Debouncer.WellFormed (debouncer : Debouncer Item) : Prop where
  conversations : ∀ key, (debouncer.conversation key).WellFormed
  unkeyed : (debouncer.conversation none).buffer = none ∧ (debouncer.conversation none).chain = none
  received :
    ∀ key,
      (debouncer.conversation key).arrivals =
        debouncer.arrivals.filter fun arrived => params.keyOf arrived.item = key
  numbered : debouncer.arrivals.map Arrived.number = List.range debouncer.arrivals.length
  serialized :
    params.serializeImmediate →
      ∀ key : String, ∀ task ∈ (debouncer.conversation (some key)).tasks, task.chained

end Machine

namespace Debouncer

theorem conversation_set (conversations : OrderedMap (Option String) (Conversation Item))
    (arrivals : List (Arrived Item)) (key other : Option String)
    (conversation : Conversation Item) :
    ({ conversations := conversations.set key conversation, arrivals } :
        Debouncer Item).conversation other =
      if other = key then conversation else (conversations.get? other).getD {} := by
  unfold Debouncer.conversation
  by_cases same : other = key
  · simp [same]
  · rw [OrderedMap.get?_set_of_ne same, if_neg same]

theorem conversation_enqueue (params : InboundDebounceCreateParams Item)
    (debouncer : Debouncer Item) (item : Item) (other : Option String) : ∃ debounceMs,
      (debouncer.enqueue params item).conversation other =
        if other = params.keyOf item then
          if !(JsNumber.lt 0 debounceMs && params.shouldDebounce item) ||
              (params.keyOf item).isNone then
            ((debouncer.conversation other).receive
              { number := debouncer.arrivals.length, item }).enqueueImmediate
                params.serializeImmediate (params.keyOf item).isSome
                { number := debouncer.arrivals.length, item }
          else
            ((debouncer.conversation other).receive
              { number := debouncer.arrivals.length, item }).enqueueDebounced
                (debouncer.canTrackKey params (params.keyOf item)) debounceMs
                { number := debouncer.arrivals.length, item }
        else debouncer.conversation other := by
  refine ⟨params.delayOf item, ?_⟩
  unfold Debouncer.enqueue
  rw [conversation_set]
  by_cases same : other = params.keyOf item
  · subst same
    rfl
  · simp only [same, if_false]
    rfl

end Debouncer

namespace Conversation

theorem arrivals_enqueue (conversation : Conversation Item) (item : Arrived Item)
    (serializeImmediate keyed canTrackKey : Bool) (debounceMs : JsNumber) :
    ((conversation.receive item).enqueueImmediate serializeImmediate keyed item).arrivals =
        conversation.arrivals ++ [item] ∧
      ((conversation.receive item).enqueueDebounced canTrackKey debounceMs item).arrivals =
        conversation.arrivals ++ [item] := by
  constructor
  · unfold enqueueImmediate flushKey
    repeat' split
    all_goals rfl
  · unfold enqueueDebounced
    repeat' split
    all_goals rfl

theorem chained_enqueue {conversation : Conversation Item}
    (chained : ∀ task ∈ conversation.tasks, task.chained) (item : Arrived Item)
    (canTrackKey : Bool) (debounceMs : JsNumber) :
    (∀ task ∈ ((conversation.receive item).enqueueImmediate true true item).tasks, task.chained) ∧
      ∀ task ∈ ((conversation.receive item).enqueueDebounced canTrackKey debounceMs item).tasks,
        task.chained := by
  have added : ∀ {task : KeyTask Item}, task.chained →
        ∀ other ∈ conversation.tasks ++ [task], other.chained := by
    intro task isChained other member
    rcases mem_append.mp member with old | new
    · exact chained other old
    · rwa [mem_singleton.mp new]
  constructor
  · unfold enqueueImmediate
    simp only [if_true]
    split
    · exact (goes_flushKey _).chained (added rfl)
    · split <;> exact added rfl
  · unfold enqueueDebounced
    split
    · exact chained_modify (fun _ => rfl) chained
    · split <;> exact added rfl

theorem unkeyed_enqueue (conversation : Conversation Item) (item : Arrived Item)
    (serializeImmediate : Bool) :
    ((conversation.receive item).enqueueImmediate serializeImmediate false item).buffer =
        conversation.buffer ∧
      ((conversation.receive item).enqueueImmediate serializeImmediate false item).chain =
        conversation.chain :=
  ⟨rfl, rfl⟩

end Conversation

namespace Debouncer.WellFormed

variable {params : InboundDebounceCreateParams Item} {debouncer : Debouncer Item}

theorem initial : (initial : Debouncer Item).WellFormed params where
  conversations := fun _ => Conversation.wellFormed_empty
  unkeyed := ⟨rfl, rfl⟩
  received := fun _ => rfl
  numbered := rfl
  serialized := by
    intro _ key task member
    exact absurd member not_mem_nil

theorem enqueue (wellFormed : debouncer.WellFormed params) (item : Item) :
    (debouncer.enqueue params item).WellFormed params := by
  constructor
  · intro other
    obtain ⟨debounceMs, became⟩ := debouncer.conversation_enqueue params item other
    rw [became]
    split
    next same =>
      split
      · apply (wellFormed.conversations other).enqueueImmediate
        intro unkeyed
        have isNone : other = none := by simpa [same] using unkeyed
        rw [isNone]
        exact wellFormed.unkeyed
      · exact (wellFormed.conversations other).enqueueDebounced _ _ _
    · exact wellFormed.conversations other
  · obtain ⟨debounceMs, became⟩ := debouncer.conversation_enqueue params item none
    rw [became]
    split
    next same =>
      have kept :=
        (debouncer.conversation none).unkeyed_enqueue
          { number := debouncer.arrivals.length, item } params.serializeImmediate
      rw [← same]
      simpa [kept.1, kept.2] using wellFormed.unkeyed
    · exact wellFormed.unkeyed
  · intro other
    obtain ⟨debounceMs, became⟩ := debouncer.conversation_enqueue params item other
    rw [became]
    simp only [Debouncer.enqueue, filter_append]
    split
    next same =>
      have kept : [({ number := debouncer.arrivals.length, item } : Arrived Item)].filter
              (fun arrived => params.keyOf arrived.item = other) =
            [{ number := debouncer.arrivals.length, item }] := by
        simp [same]
      have arrived :=
        (debouncer.conversation other).arrivals_enqueue
          { number := debouncer.arrivals.length, item } params.serializeImmediate
          (params.keyOf item).isSome (debouncer.canTrackKey params (params.keyOf item))
          debounceMs
      rw [kept, ← wellFormed.received other]
      split
      · exact arrived.1
      · exact arrived.2
    next differs =>
      have dropped : [({ number := debouncer.arrivals.length, item } : Arrived Item)].filter
              (fun arrived => params.keyOf arrived.item = other) =
            [] := by
        simp [Ne.symm differs]
      rw [dropped, append_nil]
      exact wellFormed.received other
  · simp [Debouncer.enqueue, wellFormed.numbered, range_succ]
  · intro serialize key
    obtain ⟨debounceMs, became⟩ := debouncer.conversation_enqueue params item (some key)
    have chained := wellFormed.serialized serialize key
    rw [became]
    split
    next same =>
      have added :=
        Conversation.chained_enqueue chained { number := debouncer.arrivals.length, item }
          (debouncer.canTrackKey params (params.keyOf item)) debounceMs
      rw [serialize, ← same]
      rw [← same] at added
      split
      · exact added.1
      · exact added.2
    · exact chained

theorem move (wellFormed : debouncer.WellFormed params) {key : Option String} {move : Move}
    {after : Debouncer Item} (moved : Steps params debouncer (.move key move) after) :
    after.WellFormed params := by
  obtain ⟨conversation, went, rfl⟩ := map_eq_some_iff.mp moved
  have goes := Conversation.goes_of_move went
  have became (other : Option String) :
      ({ debouncer with conversations := debouncer.conversations.set key conversation } :
        Debouncer Item).conversation other =
        if other = key then conversation else debouncer.conversation other :=
    conversation_set _ _ _ _ _
  constructor
  · intro other
    rw [became]
    split
    · exact (wellFormed.conversations key).move went
    · exact wellFormed.conversations other
  · rw [became]
    split
    next same =>
      subst same
      exact ⟨goes.buffer wellFormed.unkeyed.1, goes.chain wellFormed.unkeyed.2⟩
    · exact wellFormed.unkeyed
  · intro other
    rw [became]
    split
    next same =>
      rw [goes.arrivals, same]
      exact wellFormed.received key
    · exact wellFormed.received other
  · exact wellFormed.numbered
  · intro serialize other
    rw [became]
    split
    next same =>
      subst same
      exact goes.chained (wellFormed.serialized serialize other)
    · exact wellFormed.serialized serialize other

theorem of_reachable (reachable : Reachable params debouncer) : debouncer.WellFormed params := by
  refine TransitionSystem.Reachable.invariant ?_ ?_ reachable
  · rintro _ rfl
    exact initial
  · intro source action target taken wellFormed
    cases action with
    | enqueue item =>
      cases taken
      exact wellFormed.enqueue item
    | move key move => exact wellFormed.move taken

theorem nodup_arrivals (wellFormed : debouncer.WellFormed params) (key : Option String) :
    (debouncer.conversation key).arrivals.Nodup := by
  rw [wellFormed.received key]
  apply List.Nodup.filter
  apply List.Nodup.of_map Arrived.number
  rw [wellFormed.numbered]
  exact nodup_range

end Debouncer.WellFormed

namespace Debouncer

variable {params : InboundDebounceCreateParams Item}

def remaining (debouncer : Debouncer Item) : ℕ :=
  (debouncer.conversations.values.map Conversation.remaining).sum

theorem remaining_lt_of_moves {source target : Debouncer Item}
    (moves : Moves params source target) : target.remaining < source.remaining := by
  obtain ⟨key, move, internal, moved⟩ := moves
  obtain ⟨conversation, went, rfl⟩ := map_eq_some_iff.mp moved
  have less := Conversation.remaining_lt_of_move internal went
  cases found : source.conversations.get? key with
  | none =>
    have fresh : source.conversation key = {} := by simp [Debouncer.conversation, found]
    rw [fresh] at less
    simp [Conversation.remaining] at less
  | some stored =>
    obtain ⟨before, after, shape, written⟩ := OrderedMap.values_split found
    have isStored : source.conversation key = stored := by
      simp [Debouncer.conversation, found]
    rw [isStored] at less
    simp only [remaining, shape, written, map_append, map_cons, sum_append, sum_cons]
    omega

theorem inevitably_atRest (debouncer : Debouncer Item) :
    TransitionSystem.Inevitable (Moves params) (AtRest params) debouncer := by
  have forced : ∀ state : Debouncer Item, True →
        TransitionSystem.Inevitable (Moves params) (AtRest params) state := by
    apply TransitionSystem.Inevitable.of_measure remaining
    · intro state _ busy
      simpa [AtRest] using busy
    · intro state next _ _ moves
      exact .inr ⟨trivial, remaining_lt_of_moves moves⟩
  exact forced debouncer trivial

end Debouncer

/-- What the debouncer owes its callers in a state. -/
structure Delivers (params : InboundDebounceCreateParams Item) (debouncer : Debouncer Item) :
    Prop where
  /-- The items are numbered as they arrive, and each belongs to the one key it has. -/
  numbered : debouncer.arrivals.map Arrived.number = List.range debouncer.arrivals.length
  received :
    ∀ key,
      (debouncer.conversation key).arrivals =
        debouncer.arrivals.filter fun arrived => params.keyOf arrived.item = key
  atMostOnce :
    ∀ key,
      ((debouncer.conversation key).flushes.flatten ++
          (debouncer.conversation key).cancels.flatten).Subperm
        (debouncer.conversation key).arrivals
  inOrder :
    ∀ key,
      (debouncer.conversation key).flushes.flatten.Sublist (debouncer.conversation key).arrivals
  consecutive :
    ∀ key, ∀ batch ∈ (debouncer.conversation key).flushes,
      batch ≠ [] ∧ batch <:+: (debouncer.conversation key).arrivals ∧
        ∀ cancelled ∈ (debouncer.conversation key).cancels, ∀ item ∈ batch, item ∉ cancelled
  serialized :
    params.serializeImmediate →
      ∀ key : String, ((debouncer.conversation (some key)).tasks.filter isRunning).length ≤ 1
  exactlyOnce :
    debouncer.AtRest params →
      ∀ key,
        ((debouncer.conversation key).flushes.flatten ++
            (debouncer.conversation key).cancels.flatten).Perm
          (debouncer.conversation key).arrivals
  nothingLeft :
    debouncer.AtRest params →
      ∀ key, (debouncer.conversation key).buffer = none ∧ (debouncer.conversation key).chain = none
  comesToRest : TransitionSystem.Inevitable (Moves params) (AtRest params) debouncer

theorem Debouncer.AtRest.conversation {params : InboundDebounceCreateParams Item}
    {debouncer : Debouncer Item} (rest : debouncer.AtRest params) (key : Option String) :
    (debouncer.conversation key).AtRest := by
  intro move internal
  cases went : (debouncer.conversation key).move move with
  | none => rfl
  | some after =>
    have moved : Steps params debouncer (.move key move)
          { debouncer with conversations := debouncer.conversations.set key after } := by
      simp [Steps, step, went]
    exact absurd ⟨key, move, internal, moved⟩ (rest _)

/-- In every run every item is handed over once, in order and in consecutive batches. -/
theorem delivers_of_reachable (params : InboundDebounceCreateParams Item)
    (debouncer : Debouncer Item) (reachable : Reachable params debouncer) :
    Delivers params debouncer := by
  have wellFormed := Debouncer.WellFormed.of_reachable reachable
  constructor
  · exact wellFormed.numbered
  · exact wellFormed.received
  · intro key
    exact (wellFormed.conversations key).handed_subperm
  · intro key
    exact (wellFormed.conversations key).flatten_flushes_sublist
  · intro key batch flushed
    exact (wellFormed.conversations key).batch_of_mem_flushes
      (wellFormed.nodup_arrivals key) flushed
  · intro serialize key
    exact (wellFormed.conversations (some key)).running_le_one (wellFormed.serialized serialize key)
  · intro rest key
    exact (wellFormed.conversations key).handed_perm_of_atRest (rest.conversation key)
  · intro rest key
    exact ⟨(wellFormed.conversations key).buffer_of_atRest (rest.conversation key),
      (wellFormed.conversations key).chain_of_atRest (rest.conversation key)⟩
  · exact debouncer.inevitably_atRest

/-- Odd items wait in a buffer, even ones go on at once. -/
def oddItemsWait : InboundDebounceCreateParams ℕ where
  debounceMs := 100
  maxTrackedKeys := none
  buildKey := fun _ => some "chat"
  shouldDebounce := fun item => item % 2 = 1
  resolveDebounceMs := fun _ => none
  serializeImmediate := true

/-- An even item forces out the buffer of an odd one and follows it. -/
def forcedOut : List (Action ℕ) :=
  [.enqueue 1, .enqueue 2, .move (some "chat") (.start 0),
    .move (some "chat") (.settle 0 true), .move (some "chat") (.release 1),
    .move (some "chat") (.start 1)]

theorem delivers_of_reachable_forcedOut :
    ∃ debouncer,
      (debouncer.conversation (some "chat")).flushes =
          [[({ number := 0, item := 1 } : Arrived ℕ)], [{ number := 1, item := 2 }]] ∧
        Delivers oddItemsWait debouncer := by
  have executed : (forcedOut.foldlM (step oddItemsWait) initial).isSome := by
    decide +kernel
  obtain ⟨debouncer, reached⟩ := isSome_iff_exists.mp executed
  have flushed : (forcedOut.foldlM (step oddItemsWait) initial).map
          (fun debouncer => (debouncer.conversation (some "chat")).flushes) =
        some [[({ number := 0, item := 1 } : Arrived ℕ)], [{ number := 1, item := 2 }]] := by
    decide +kernel
  rw [reached] at flushed
  exact ⟨debouncer, Option.some.inj flushed, delivers_of_reachable oddItemsWait debouncer
      ⟨_, forcedOut, rfl, TransitionSystem.Run.of_foldlM reached⟩⟩

end InboundDebounce
