import AieClaw.InboundDebounceLedger

/-!
# Every item once and in order

Each operation on a conversation keeps its links, its gates and its ledger. An immediate
item that forces a buffer out reserves its slot before the buffer is flushed; flushing
first leaves the same conversation, so the two operations are treated one by one.
-/

namespace InboundDebounce

open Conversation KeyTask

variable {Item : Type}

namespace Conversation

@[simp] theorem buffer_receive (conversation : Conversation Item) (item : Arrived Item) :
    (conversation.receive item).buffer = conversation.buffer :=
  rfl

@[simp] theorem chain_receive (conversation : Conversation Item) (item : Arrived Item) :
    (conversation.receive item).chain = conversation.chain :=
  rfl

/-- The invariants of one conversation. -/
structure WellFormed (conversation : Conversation Item) : Prop where
  links : Linked conversation.tasks conversation.chain
  gates :
    Gated conversation.tasks conversation.chain conversation.buffer conversation.timers
      conversation.arrivals
  ledger : Ledger conversation.tasks conversation.arrivals conversation.flushes conversation.cancels

theorem wellFormed_empty : ({} : Conversation Item).WellFormed :=
  ⟨Linked.empty, Gated.empty, Ledger.empty⟩

namespace WellFormed

variable {conversation : Conversation Item}

/-! ### New tasks -/

section

variable (wellFormed : conversation.WellFormed)
include wellFormed

section

variable (noBuffer : conversation.buffer = none)
include noBuffer

theorem enqueueKeyTask (item : Arrived Item) {gate : Gate} (notBuffered : gate ≠ .buffered)
    (awaited : ∀ index, gate = .after index → index < conversation.tasks.length) :
    ((conversation.receive item).enqueueKeyTask [item] gate).WellFormed := by
  have links := wellFormed.links
  have gates := wellFormed.gates
  have ledger := wellFormed.ledger
  rw [noBuffer] at gates
  let task : KeyTask Item :=
    { items := [item], previous := conversation.chain, chained := true, gate,
      phase := .waiting }
  refine ⟨?_, ?_, ?_⟩
  · have appended := links.append task rfl (by simp [task, isStarted])
      (by simp [task]) (by simp [task])
    simpa [task, Conversation.enqueueKeyTask, receive] using appended
  · simp only [Conversation.enqueueKeyTask, receive, noBuffer]
    exact gates.append notBuffered awaited
  · simpa [task, Conversation.enqueueKeyTask, receive, handedOver,
      isStarted] using ledger.append task

theorem startNow (noChain : conversation.chain = none)
    (item : Arrived Item) : ((conversation.receive item).runKeyTaskNow [item]).WellFormed ∧
      ((conversation.receive item).runFlush [item]).WellFormed := by
  have links := wellFormed.links
  have gates := wellFormed.gates
  have ledger := wellFormed.ledger
  rw [noChain] at links
  rw [noBuffer] at gates
  let task (chained : Bool) : KeyTask Item :=
    { items := [item], previous := none, chained, gate := .opened, phase := .running }
  have linked (chained : Bool) :=
    links.append (task chained) rfl (fun _ => rfl) (by simp [task, isStarted]) (by simp [task])
  have recorded (chained : Bool) := ledger.append (task chained)
  constructor
  · refine ⟨?_, ?_, ?_⟩
    · simpa [task, runKeyTaskNow, receive] using linked true
    · simp only [runKeyTaskNow, receive, noBuffer]
      exact gates.append (by simp) (by simp)
    · simpa [task, runKeyTaskNow, receive, handedOver, isStarted] using recorded true
  · refine ⟨?_, ?_, ?_⟩
    · simpa [task, runFlush, receive, noChain] using linked false
    · simp only [runFlush, receive, noBuffer]
      exact gates.append (by simp) (by simp)
    · simpa [task, runFlush, receive, handedOver, isStarted] using recorded false

theorem openBuffer (item : Arrived Item) (debounceMs : JsNumber) :
    (((conversation.receive item).openBuffer item debounceMs).scheduleFlush
      conversation.tasks.length).WellFormed := by
  have links := wellFormed.links
  have gates := wellFormed.gates
  have ledger := wellFormed.ledger
  rw [noBuffer] at gates
  have noTimers : conversation.timers = [] := by simpa using gates.timed
  let task : KeyTask Item :=
    { items := [item], previous := conversation.chain, chained := true, gate := .buffered,
      phase := .waiting }
  refine ⟨?_, ?_, ?_⟩
  · have appended := links.append task rfl (by simp [task, isStarted])
      (by simp [task]) (by simp [task])
    simpa [task, Conversation.openBuffer, Conversation.enqueueKeyTask, receive, scheduleFlush,
      clearTimeout] using appended
  · simp only [Conversation.openBuffer, Conversation.enqueueKeyTask, receive, scheduleFlush,
      clearTimeout, noTimers, List.filter_nil, List.nil_append]
    exact gates.openBuffer rfl rfl rfl (by simp) (List.suffix_append _ _)
  · simpa [task, Conversation.openBuffer, Conversation.enqueueKeyTask, receive, scheduleFlush,
      clearTimeout, handedOver, isStarted] using ledger.append task

end

end

/-! ### The buffer in the map -/

section

variable (wellFormed : conversation.WellFormed)
include wellFormed

theorem pushItem {buffer : DebounceBuffer}
    (current : conversation.buffer = some buffer) (item : Arrived Item) (debounceMs : JsNumber) :
    (((conversation.receive item).pushItem buffer.task item debounceMs).scheduleFlush
      buffer.task).WellFormed := by
  have links := wellFormed.links
  have gates := wellFormed.gates
  have ledger := wellFormed.ledger
  rw [current] at gates
  have timer : conversation.timers = [buffer.task] := by simpa using gates.timed
  obtain ⟨_, before, task, shape, atEnd, held, waiting, nonempty, newest⟩ :=
    gates.reserved buffer rfl
  refine ⟨?_, ?_, ?_⟩
  · exact links.modify_same fun _ => ⟨rfl, rfl, rfl⟩
  · have pushed := gates.push item debounceMs
    simpa [Conversation.pushItem, receive, scheduleFlush, clearTimeout, timer] using pushed
  · simp only [Conversation.pushItem, receive, scheduleFlush, clearTimeout]
    rw [shape, ← atEnd, modify_concat_last]
    rw [shape] at ledger
    exact ledger.push (by simp [isStarted, waiting]) newest item

theorem flushBuffer {buffer : DebounceBuffer} (current : conversation.buffer = some buffer) :
    (conversation.flushBuffer buffer.task).WellFormed := by
  have gates := wellFormed.gates
  rw [current] at gates
  have timer : conversation.timers = [buffer.task] := by simpa using gates.timed
  refine ⟨?_, ?_, ?_⟩
  · exact wellFormed.links.modify_same fun _ => ⟨rfl, rfl, rfl⟩
  · have closed :
        Gated (conversation.tasks.modify buffer.task fun task => { task with gate := .opened })
          conversation.chain none [] conversation.arrivals :=
      gates.close fun _ => rfl
    simpa [Conversation.flushBuffer, releaseBuffer, clearTimeout, dropBuffer, current,
      timer, Option.filter] using closed
  · apply wellFormed.ledger.modify
    · intro task
      rfl
    · intro task _
      rfl

theorem flushKey : conversation.flushKey.WellFormed := by
  unfold Conversation.flushKey
  cases current : conversation.buffer with
  | none => exact wellFormed
  | some buffer => exact wellFormed.flushBuffer current

end

variable {after : Conversation Item} {index : ℕ}

theorem fire (wellFormed : conversation.WellFormed) {buffer : ℕ}
    (fired : conversation.fire buffer = some after) : after.WellFormed := by
  unfold Conversation.fire at fired
  split at fired
  next pending =>
    cases fired
    rw [wellFormed.gates.timed] at pending
    obtain ⟨current, isCurrent, rfl⟩ := List.mem_map.mp pending
    rw [Option.mem_toList] at isCurrent
    have flushed := wellFormed.flushBuffer isCurrent
    have sameTimers : (conversation.clearTimeout current.task).flushBuffer current.task =
          conversation.flushBuffer current.task := by
      simp [Conversation.flushBuffer, clearTimeout, dropBuffer, releaseBuffer]
    rwa [sameTimers]
  · exact absurd fired (by simp)

theorem cancelKey (wellFormed : conversation.WellFormed) : conversation.cancelKey.WellFormed := by
  unfold Conversation.cancelKey
  cases current : conversation.buffer with
  | none => exact wellFormed
  | some buffer =>
    have links := wellFormed.links
    have gates := wellFormed.gates
    have ledger := wellFormed.ledger
    rw [current] at gates
    have timer : conversation.timers = [buffer.task] := by simpa using gates.timed
    obtain ⟨_, before, task, shape, atEnd, held, waiting, nonempty, newest⟩ :=
      gates.reserved buffer rfl
    have items : conversation.bufferItems buffer.task = task.items := by
      simp [bufferItems, shape, ← atEnd]
    refine ⟨?_, ?_, ?_⟩
    · simp only [releaseBuffer, cancelItems, clearTimeout, dropBuffer, List.modify_modify_eq]
      exact links.modify_same fun _ => ⟨rfl, rfl, rfl⟩
    · have closed : Gated (conversation.tasks.modify buffer.task fun task =>
              { task with items := [], gate := .opened })
            conversation.chain none [] conversation.arrivals :=
        gates.close fun _ => rfl
      simpa [releaseBuffer, cancelItems, clearTimeout, dropBuffer, current, timer,
        List.modify_modify_eq, Function.comp_def, Option.filter] using closed
    · have cancelled :
          Ledger (conversation.tasks.modify buffer.task fun task => { task with items := [] })
            conversation.arrivals conversation.flushes
            (conversation.cancels ++ [conversation.bufferItems buffer.task]) := by
        rw [items, shape, ← atEnd, modify_concat_last]
        rw [shape] at ledger
        exact ledger.cancel (by simp [isStarted, waiting])
      apply cancelled.modify
      · intro other
        rfl
      · intro other _
        rfl

/-! ### A new item -/

/-- Without a buffer in the map, an item starts at once or joins the chain. -/
theorem enqueueImmediate (wellFormed : conversation.WellFormed) (item : Arrived Item)
    (serializeImmediate keyed : Bool)
    (unkeyed : keyed = false → conversation.buffer = none ∧ conversation.chain = none) :
    ((conversation.receive item).enqueueImmediate serializeImmediate keyed item).WellFormed := by
  unfold Conversation.enqueueImmediate
  split
  next isKeyed =>
    cases current : conversation.buffer with
    | some buffer =>
      have gates := wellFormed.gates
      obtain ⟨_, before, task, shape, atEnd, _⟩ := gates.reserved buffer current
      have inside : buffer.task < conversation.tasks.length := by
        simp [shape, atEnd]
      have flushed : conversation.flushKey = conversation.flushBuffer buffer.task := by
        simp [Conversation.flushKey, current]
      have noBuffer : conversation.flushKey.buffer = none := by
        simp [flushed, Conversation.flushBuffer, releaseBuffer, clearTimeout, dropBuffer,
          current, Option.filter]
      have flushedFirst :
          ((conversation.receive item).enqueueKeyTask [item] (.after buffer.task)).flushKey =
            (conversation.flushKey.receive item).enqueueKeyTask [item] (.after buffer.task) := by
        simp [Conversation.flushKey, Conversation.enqueueKeyTask, receive, current,
          Conversation.flushBuffer, releaseBuffer, clearTimeout, dropBuffer,
          modify_append_of_lt inside]
      simp only [buffer_receive, current]
      rw [flushedFirst]
      apply wellFormed.flushKey.enqueueKeyTask noBuffer item (by simp)
      intro index same
      rw [Gate.after.injEq] at same
      simpa [flushed, Conversation.flushBuffer, releaseBuffer, clearTimeout, dropBuffer,
        ← same] using inside
    | none =>
      simp only [buffer_receive, current]
      split
      · exact wellFormed.enqueueKeyTask current item Gate.noConfusion (by simp)
      next noChain =>
        have free : conversation.chain = none := by simpa using noChain
        split
        · exact (wellFormed.startNow current free item).1
        · exact (wellFormed.startNow current free item).2
  next notKeyed =>
    obtain ⟨noBuffer, noChain⟩ := unkeyed (by simpa using notKeyed)
    exact (wellFormed.startNow noBuffer noChain item).2

theorem enqueueDebounced (wellFormed : conversation.WellFormed) (item : Arrived Item)
    (canTrackKey : Bool) (debounceMs : JsNumber) :
    ((conversation.receive item).enqueueDebounced canTrackKey debounceMs item).WellFormed := by
  unfold Conversation.enqueueDebounced
  cases current : conversation.buffer with
  | some buffer =>
    simp only [buffer_receive, current]
    exact wellFormed.pushItem current item debounceMs
  | none =>
    simp only [buffer_receive, current]
    split
    · exact wellFormed.openBuffer current item debounceMs
    · exact wellFormed.enqueueKeyTask current item Gate.noConfusion (by simp)

/-! ### A task goes on -/

section

variable (wellFormed : conversation.WellFormed)
include wellFormed

theorem start (started : conversation.start index = some after) : after.WellFormed := by
  obtain ⟨task, found, went⟩ := Option.bind_eq_some_iff.mp started
  split at went
  next ready =>
    obtain ⟨waiting, opened, previous⟩ := ready
    have links := wellFormed.links
    have notStarted : task.isStarted = false := by simp [isStarted, waiting]
    have only : ∀ other, conversation.tasks[index]? = some other → other = task := by
      intro other same
      rw [found] at same
      exact (Option.some.inj same).symm
    have mayStart : ∀ link, task.previous = some link →
          ∀ before, conversation.tasks[link]? = some before → before.isSettled := by
      intro link isLink before foundBefore
      simpa [isSettled, isLink, foundBefore] using previous
    have laterWait : ∀ before after, conversation.tasks = before ++ task :: after →
          ∀ other ∈ after, other.isStarted = false := by
      intro before after split
      exact links.waiting_after split waiting
    split at went
    next noItems =>
      cases went
      refine ⟨?_, ?_, ?_⟩
      · apply links.modify
        · intro other same
          obtain rfl := only other same
          exact ⟨rfl, rfl, fun _ => rfl, fun _ => rfl⟩
        · intro other same _
          obtain rfl := only other same
          exact .inr mayStart
        · exact .inl rfl
        · exact fun _ _ _ => Phase.noConfusion
      · apply wellFormed.gates.modify
        · intro other same held
          rw [only other same, opened] at held
          exact absurd held (by simp)
        · intro other _
          exact .inl rfl
        · exact .inl rfl
      · apply wellFormed.ledger.modify
        · intro other
          rfl
        · intro other same
          rw [only other same]
          simp [handedOver, noItems]
    next someItems =>
      cases went
      refine ⟨?_, ?_, ?_⟩
      · apply links.modify
        · intro other same
          obtain rfl := only other same
          refine ⟨rfl, rfl, fun _ => rfl, ?_⟩
          intro settled
          simp [KeyTask.isSettled, waiting] at settled
        · intro other same _
          obtain rfl := only other same
          exact .inr mayStart
        · exact .inl rfl
        · exact fun _ _ _ => Phase.noConfusion
      · apply wellFormed.gates.modify
        · intro other same held
          rw [only other same, opened] at held
          exact absurd held (by simp)
        · intro other _
          exact .inl rfl
        · exact .inl rfl
      · have handed : ({ task with phase := .running } : KeyTask Item).handedOver =
              some task.items := by
          simp [handedOver, isStarted, someItems]
        have recorded : Ledger
              (conversation.tasks.modify index fun task => { task with phase := .running })
              conversation.arrivals (conversation.flushes ++
                ({ task with phase := .running } : KeyTask Item).handedOver.toList)
              conversation.cancels :=
          wellFormed.ledger.start found notStarted laterWait fun _ => rfl
        simpa [handed] using recorded
  · exact absurd went (by simp)

/-- A started task that comes further keeps everything but the end of the chain. -/
theorem goOn {task : KeyTask Item}
    (found : conversation.tasks[index]? = some task) (started : task.isStarted)
    {phase : Phase} (further : phase = .settled ∨ phase = .cleaned) {chain : Option ℕ}
    (chainKept : chain = conversation.chain ∨
        (conversation.chain = some index ∧ chain = none ∧ task.isSettled))
    (uncleaned : phase = .cleaned → chain ≠ some index) :
    Linked (conversation.tasks.modify index fun task => { task with phase }) chain ∧
      Gated (conversation.tasks.modify index fun task => { task with phase }) chain
        conversation.buffer conversation.timers conversation.arrivals ∧
      Ledger (conversation.tasks.modify index fun task => { task with phase })
        conversation.arrivals conversation.flushes conversation.cancels := by
  have only : ∀ other, conversation.tasks[index]? = some other → other = task := by
    intro other same
    rw [found] at same
    exact (Option.some.inj same).symm
  have nowStarted (other : KeyTask Item) :
      ({ other with phase } : KeyTask Item).isStarted = true := by
    rcases further with rfl | rfl <;> rfl
  have nowSettled (other : KeyTask Item) :
      ({ other with phase } : KeyTask Item).isSettled = true := by
    rcases further with rfl | rfl <;> rfl
  refine ⟨?_, ?_, ?_⟩
  · apply wellFormed.links.modify
    · intro other _
      exact ⟨rfl, rfl, fun _ => nowStarted other, fun _ => nowSettled other⟩
    · intro other same _
      rw [only other same]
      exact .inl started
    · rcases chainKept with same | ⟨isIndex, gone, settled⟩
      · exact .inl same
      · refine .inr ⟨isIndex, gone, ?_⟩
        intro other same
        rwa [only other same]
    · intro _ isLast _ cleaned
      exact uncleaned cleaned isLast
  · apply wellFormed.gates.modify
    · intro other same _ waiting
      rw [only other same] at waiting
      simp [isStarted, waiting] at started
    · intro other _
      exact .inl rfl
    · rcases chainKept with same | ⟨isIndex, _, _⟩
      · exact .inl same
      · exact .inr isIndex
  · apply wellFormed.ledger.modify
    · intro other
      rfl
    · intro other same
      rw [only other same]
      simp only [handedOver, started, nowStarted]

theorem settle {threw : Bool}
    (settled : conversation.settle index threw = some after) : after.WellFormed := by
  obtain ⟨task, found, went⟩ := Option.bind_eq_some_iff.mp settled
  split at went
  next running =>
    cases went
    obtain ⟨links, gates, ledger⟩ :=
      wellFormed.goOn found (by simp [isStarted, running]) (.inl rfl) (.inl rfl) Phase.noConfusion
    exact ⟨links, gates, ledger⟩
  · exact absurd went (by simp)

theorem cleanup (cleaned : conversation.cleanup index = some after) : after.WellFormed := by
  obtain ⟨task, found, went⟩ := Option.bind_eq_some_iff.mp cleaned
  split at went
  next done =>
    cases went
    obtain ⟨_, settled⟩ := done
    have chainKept : conversation.chain.filter (· ≠ index) = conversation.chain ∨
          (conversation.chain = some index ∧
            conversation.chain.filter (· ≠ index) = none ∧ task.isSettled) := by
      cases conversation.chain with
      | none => exact .inl rfl
      | some last =>
        by_cases same : last = index
        · refine .inr ⟨by rw [same], by simp [Option.filter, same], ?_⟩
          simp [KeyTask.isSettled, settled]
        · exact .inl (by simp [Option.filter, same])
    obtain ⟨links, gates, ledger⟩ :=
      wellFormed.goOn found (by simp [isStarted, settled]) (.inr rfl) chainKept
        (by cases conversation.chain <;> simp [Option.filter])
    exact ⟨links, gates, ledger⟩
  · exact absurd went (by simp)

theorem release (released : conversation.release index = some after) : after.WellFormed := by
  obtain ⟨task, found, went⟩ := Option.bind_eq_some_iff.mp released
  cases gate : task.gate with
  | opened => simp [gate] at went
  | buffered => simp [gate] at went
  | after awaited =>
    simp only [gate] at went
    split at went
    · cases went
      refine ⟨?_, ?_, ?_⟩
      · exact wellFormed.links.modify_same fun _ => ⟨rfl, rfl, rfl⟩
      · apply wellFormed.gates.modify
        · intro other same held
          rw [found] at same
          rw [← Option.some.inj same, gate] at held
          exact absurd held (by simp)
        · intro other _
          exact .inr rfl
        · exact .inl rfl
      · apply wellFormed.ledger.modify
        · intro other
          rfl
        · intro other _
          rfl
    · exact absurd went (by simp)

theorem move {move : Move} (moved : conversation.move move = some after) : after.WellFormed := by
  cases move with
  | fire buffer => exact wellFormed.fire moved
  | flushKey =>
    cases moved
    exact wellFormed.flushKey
  | cancelKey =>
    cases moved
    exact wellFormed.cancelKey
  | start task => exact wellFormed.start moved
  | settle task threw => exact wellFormed.settle moved
  | release task => exact wellFormed.release moved
  | cleanup task => exact wellFormed.cleanup moved

end

end WellFormed

end Conversation

end InboundDebounce
