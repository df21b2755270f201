import AieClaw.InboundDebounceOrder

/-!
# Buffers and items of a key

`Gated` says which tasks are held back: the task of the buffer in the map, which is the
last one and has a timer, and tasks that wait for an earlier one. `Ledger` says where the
items are: the tasks and the cancelled batches hold each arrival once, the tasks in the
order of arrival, and `onFlush` was given the batches of the started tasks.
-/

namespace InboundDebounce

open KeyTask List

variable {Item : Type}

/-- The buffer in the map, its timer and its reserved task. -/
structure Gated (tasks : List (KeyTask Item)) (chain : Option ℕ)
    (buffer : Option DebounceBuffer) (timers : List ℕ) (arrivals : List (Arrived Item)) : Prop where
  timed : timers = buffer.toList.map DebounceBuffer.task
  reserved :
    ∀ current, buffer = some current →
      chain = some current.task ∧
        ∃ before task,
          tasks = before ++ [task] ∧ before.length = current.task ∧
            task.gate = .buffered ∧ task.phase = .waiting ∧
              task.items ≠ [] ∧ task.items <:+ arrivals
  buffered :
    ∀ {index : ℕ} {task : KeyTask Item},
      tasks[index]? = some task → task.gate = .buffered →
        ∃ current, buffer = some current ∧ current.task = index
  awaited :
    ∀ {index : ℕ} {task : KeyTask Item} {awaited : ℕ},
      tasks[index]? = some task → task.gate = .after awaited → awaited < index

namespace Gated

variable {tasks : List (KeyTask Item)} {chain : Option ℕ} {buffer : Option DebounceBuffer}
  {timers : List ℕ} {arrivals : List (Arrived Item)} {arrivals' : List (Arrived Item)}
  {current : DebounceBuffer}

theorem empty : Gated ([] : List (KeyTask Item)) none none [] [] := by
  constructor <;> simp

theorem append (gates : Gated tasks chain none timers arrivals) {task : KeyTask Item}
    {chain' : Option ℕ} (notBuffered : task.gate ≠ .buffered)
    (awaited : ∀ index, task.gate = .after index → index < tasks.length) :
    Gated (tasks ++ [task]) chain' none timers arrivals' := by
  constructor
  · exact gates.timed
  · intro current isSome
    exact absurd isSome (by simp)
  · intro index other found held
    rcases getElem?_concat_cases found with old | ⟨_, rfl⟩
    · exact gates.buffered old held
    · exact absurd held notBuffered
  · intro index other waitsFor found held
    rcases getElem?_concat_cases found with old | ⟨rfl, rfl⟩
    · exact gates.awaited old held
    · exact awaited waitsFor held

theorem openBuffer (gates : Gated tasks chain none timers arrivals) {task : KeyTask Item}
    (atEnd : current.task = tasks.length) (held : task.gate = .buffered)
    (waiting : task.phase = .waiting) (nonempty : task.items ≠ [])
    (newest : task.items <:+ arrivals') :
    Gated (tasks ++ [task]) (some tasks.length) (some current) [tasks.length] arrivals' := by
  constructor
  · simp [atEnd]
  · intro other same
    cases same
    exact ⟨by rw [atEnd], tasks, task, rfl, atEnd.symm, held, waiting, nonempty, newest⟩
  · intro index other found isHeld
    rcases getElem?_concat_cases found with old | ⟨rfl, _⟩
    · obtain ⟨_, isSome, _⟩ := gates.buffered old isHeld
      exact absurd isSome (by simp)
    · exact ⟨current, rfl, atEnd⟩
  · intro index other waitsFor found isHeld
    rcases getElem?_concat_cases found with old | ⟨_, rfl⟩
    · exact gates.awaited old isHeld
    · rw [held] at isHeld
      exact absurd isHeld (by simp)

/-- A further item goes to the buffer in the map. -/
theorem push (gates : Gated tasks chain (some current) timers arrivals) (item : Arrived Item)
    (debounceMs : JsNumber) : Gated
      (tasks.modify current.task fun task => { task with items := task.items ++ [item] })
      chain (some { task := current.task, debounceMs }) timers (arrivals ++ [item]) := by
  obtain ⟨ends, before, task, shape, atEnd, held, waiting, nonempty, newest⟩ :=
    gates.reserved current rfl
  have changed :
      tasks.modify current.task (fun task => { task with items := task.items ++ [item] }) =
        before ++ [{ task with items := task.items ++ [item] }] := by
    rw [shape, ← atEnd, modify_concat_last]
  rw [changed]
  constructor
  · simpa using gates.timed
  · intro other same
    cases same
    refine ⟨ends, before, _, rfl, atEnd, held, waiting, by simp, ?_⟩
    exact suffix_append_self_iff.mpr newest
  · intro index other found isHeld
    rcases getElem?_concat_cases found with old | ⟨rfl, _⟩
    · have wasThere : tasks[index]? = some other := by
        rw [shape, getElem?_append_left (List.getElem?_eq_some_iff.mp old).1]
        exact old
      obtain ⟨_, same, atIndex⟩ := gates.buffered wasThere isHeld
      cases same
      exact ⟨_, rfl, atIndex⟩
    · exact ⟨_, rfl, atEnd.symm⟩
  · intro index other waitsFor found isHeld
    rcases getElem?_concat_cases found with old | ⟨_, rfl⟩
    · apply gates.awaited _ isHeld
      rw [shape, getElem?_append_left (List.getElem?_eq_some_iff.mp old).1]
      exact old
    · rw [held] at isHeld
      exact absurd isHeld (by simp)

theorem close (gates : Gated tasks chain (some current) timers arrivals)
    {change : KeyTask Item → KeyTask Item} (opened : ∀ task, (change task).gate = .opened) :
    Gated (tasks.modify current.task change) chain none [] arrivals := by
  constructor
  · simp
  · intro other isSome
    exact absurd isSome (by simp)
  · intro index other found held
    rw [getElem?_modify] at found
    obtain ⟨earlier, foundEarlier, rfl⟩ := Option.map_eq_some_iff.mp found
    by_cases same : current.task = index
    · simp [same, opened] at held
    · simp only [same, if_false] at held
      obtain ⟨_, isSome, atIndex⟩ := gates.buffered foundEarlier held
      cases isSome
      exact absurd atIndex same
  · intro index other waitsFor found held
    rw [getElem?_modify] at found
    obtain ⟨earlier, foundEarlier, rfl⟩ := Option.map_eq_some_iff.mp found
    by_cases same : current.task = index
    · simp [same, opened] at held
    · simp only [same, if_false] at held
      exact gates.awaited foundEarlier held

/-- A task that no buffer holds back may go on, and its gate may open. -/
theorem modify (gates : Gated tasks chain buffer timers arrivals) {index : ℕ}
    {change : KeyTask Item → KeyTask Item} {chain' : Option ℕ}
    (free : ∀ task, tasks[index]? = some task → task.gate = .buffered → task.phase ≠ .waiting)
    (gate : ∀ task, tasks[index]? = some task →
        (change task).gate = task.gate ∨ (change task).gate = .opened)
    (chainKept : chain' = chain ∨ chain = some index) :
    Gated (tasks.modify index change) chain' buffer timers arrivals := by
  have origin : ∀ {place : ℕ} {later : KeyTask Item},
        (tasks.modify index change)[place]? = some later → ∃ earlier, tasks[place]? = some earlier ∧
          (later.gate = earlier.gate ∨ later.gate = .opened) := by
    intro place later found
    rw [getElem?_modify] at found
    obtain ⟨earlier, foundEarlier, rfl⟩ := Option.map_eq_some_iff.mp found
    refine ⟨earlier, foundEarlier, ?_⟩
    by_cases same : index = place
    · subst same
      simpa using gate earlier foundEarlier
    · simp [same]
  constructor
  · exact gates.timed
  · intro current isSome
    obtain ⟨ends, before, task, shape, atEnd, held, waiting, nonempty, newest⟩ :=
      gates.reserved current isSome
    have elsewhere : index ≠ current.task := by
      rintro rfl
      have found : tasks[current.task]? = some task := by simp [shape, ← atEnd]
      exact free task found held waiting
    constructor
    · rcases chainKept with same | isIndex
      · rw [same, ends]
      · rw [ends] at isIndex
        exact absurd (Option.some.inj isIndex).symm elsewhere
    · rcases Nat.lt_or_ge index before.length with inside | beyond
      · refine ⟨before.modify index change, task, ?_, by simpa using atEnd, held, waiting,
          nonempty, newest⟩
        rw [shape, modify_append_of_lt inside]
      · refine ⟨before, task, ?_, atEnd, held, waiting, nonempty, newest⟩
        rw [shape]
        apply modify_eq_self
        simp
        omega
  · intro place later found held
    obtain ⟨earlier, foundEarlier, same | opened⟩ := origin found
    · exact gates.buffered foundEarlier (same ▸ held)
    · rw [opened] at held
      exact absurd held (by simp)
  · intro place later waitsFor found held
    obtain ⟨earlier, foundEarlier, same | opened⟩ := origin found
    · exact gates.awaited foundEarlier (same ▸ held)
    · rw [opened] at held
      exact absurd held (by simp)

end Gated

/-- The batch that a task has handed to `onFlush`, if it has. -/
def KeyTask.handedOver (task : KeyTask Item) : Option (List (Arrived Item)) :=
  if task.isStarted && !task.items.isEmpty then some task.items else none

/-- Where the items of one conversation are. -/
structure Ledger (tasks : List (KeyTask Item)) (arrivals : List (Arrived Item))
    (flushes cancels : List (List (Arrived Item))) : Prop where
  kept : arrivals.Perm (tasks.flatMap KeyTask.items ++ cancels.flatten)
  ordered : (tasks.flatMap KeyTask.items).Sublist arrivals
  consecutive : ∀ task ∈ tasks, task.items <:+: arrivals
  flushed : flushes = tasks.filterMap handedOver

theorem KeyTask.handedOver_of_waiting {task : KeyTask Item} (waiting : task.isStarted = false) :
    task.handedOver = none := by
  simp [handedOver, waiting]

theorem filterMap_handedOver_of_waiting {tasks : List (KeyTask Item)}
    (waiting : ∀ task ∈ tasks, task.isStarted = false) : tasks.filterMap handedOver = [] := by
  rw [filterMap_eq_nil_iff]
  intro task member
  exact handedOver_of_waiting (waiting task member)

namespace Ledger

variable
  {tasks : List (KeyTask Item)} {arrivals : List (Arrived Item)}
  {flushes cancels : List (List (Arrived Item))}

theorem empty : Ledger ([] : List (KeyTask Item)) [] [] [] := by
  constructor <;> simp

section

variable (ledger : Ledger tasks arrivals flushes cancels)
include ledger

theorem append (task : KeyTask Item) : Ledger (tasks ++ [task]) (arrivals ++ task.items)
      (flushes ++ task.handedOver.toList) cancels := by
  constructor
  · simp only [flatMap_append, flatMap_singleton, append_assoc]
    calc (arrivals ++ task.items).Perm
          (tasks.flatMap KeyTask.items ++ cancels.flatten ++ task.items) :=
        ledger.kept.append_right _
      List.Perm _ (tasks.flatMap KeyTask.items ++ (task.items ++ cancels.flatten)) := by
        rw [append_assoc]
        exact perm_append_comm.append_left _
  · simpa using ledger.ordered.append (List.Sublist.refl task.items)
  · intro other member
    rcases mem_append.mp member with old | new
    · exact (ledger.consecutive other old).trans (prefix_append _ _).isInfix
    · obtain rfl := mem_singleton.mp new
      exact (suffix_append _ _).isInfix
  · rw [filterMap_append, ← ledger.flushed]
    cases handed : task.handedOver <;> simp [handed]

theorem modify {index : ℕ}
    {change : KeyTask Item → KeyTask Item} (items : ∀ task, (change task).items = task.items)
    (handed : ∀ task, tasks[index]? = some task → (change task).handedOver = task.handedOver) :
    Ledger (tasks.modify index change) arrivals flushes cancels := by
  cases found : tasks[index]? with
  | none =>
    rw [modify_eq_self (getElem?_eq_none_iff.mp found)]
    exact ledger
  | some task =>
    obtain ⟨before, after, _, shape, changed⟩ := modify_split found
    have sameItems : (tasks.modify index change).flatMap KeyTask.items =
          tasks.flatMap KeyTask.items := by
      rw [changed, shape]
      simp [items]
    constructor
    · rw [sameItems]
      exact ledger.kept
    · rw [sameItems]
      exact ledger.ordered
    · intro other member
      rw [changed] at member
      rcases mem_append.mp member with old | later
      · exact ledger.consecutive other (by simp [shape, old])
      · rcases mem_cons.mp later with rfl | old
        · rw [items]
          exact ledger.consecutive task (by simp [shape])
        · exact ledger.consecutive other (by simp [shape, old])
    · rw [ledger.flushed, changed, shape]
      simp [filterMap_cons, handed task found]

theorem start {index : ℕ} {task : KeyTask Item} {change : KeyTask Item → KeyTask Item}
    (found : tasks[index]? = some task) (waiting : task.isStarted = false)
    (later :
      ∀ before after, tasks = before ++ task :: after → ∀ other ∈ after, other.isStarted = false)
    (items : ∀ task, (change task).items = task.items) : Ledger (tasks.modify index change) arrivals
      (flushes ++ (change task).handedOver.toList) cancels := by
  obtain ⟨before, after, _, shape, changed⟩ := modify_split found
  have sameItems :
      (tasks.modify index change).flatMap KeyTask.items = tasks.flatMap KeyTask.items := by
    rw [changed, shape]
    simp [items]
  constructor
  · rw [sameItems]
    exact ledger.kept
  · rw [sameItems]
    exact ledger.ordered
  · intro other member
    rw [changed] at member
    rcases mem_append.mp member with old | inTail
    · exact ledger.consecutive other (by simp [shape, old])
    · rcases mem_cons.mp inTail with rfl | old
      · rw [items]
        exact ledger.consecutive task (by simp [shape])
      · exact ledger.consecutive other (by simp [shape, old])
  · have notYet : after.filterMap handedOver = [] :=
      filterMap_handedOver_of_waiting (later before after shape)
    rw [ledger.flushed, changed, shape, filterMap_append, filterMap_append,
      filterMap_cons, filterMap_cons, handedOver_of_waiting waiting, notYet]
    cases (change task).handedOver <;> simp

end

theorem push {before : List (KeyTask Item)} {task : KeyTask Item}
    (ledger : Ledger (before ++ [task]) arrivals flushes cancels)
    (waiting : task.isStarted = false) (newest : task.items <:+ arrivals) (item : Arrived Item) :
    Ledger (before ++ [{ task with items := task.items ++ [item] }])
      (arrivals ++ [item]) flushes cancels := by
  have stillWaiting :
      ({ task with items := task.items ++ [item] } : KeyTask Item).isStarted = false :=
    waiting
  constructor
  · have kept := ledger.kept
    simp only [flatMap_append, flatMap_singleton, append_assoc] at kept ⊢
    calc (arrivals ++ [item]).Perm
          (before.flatMap KeyTask.items ++ (task.items ++ cancels.flatten) ++ [item]) :=
        kept.append_right _
      List.Perm _
          (before.flatMap KeyTask.items ++ (task.items ++ ([item] ++ cancels.flatten))) := by
        simp only [append_assoc]
        exact (perm_append_comm.append_left _).append_left _
  · have ordered := ledger.ordered
    simp only [flatMap_append, flatMap_singleton] at ordered ⊢
    rw [← append_assoc]
    exact ordered.append (.refl _)
  · intro other member
    rcases mem_append.mp member with old | new
    · exact (ledger.consecutive other (by simp [old])).trans (prefix_append _ _).isInfix
    · obtain rfl := mem_singleton.mp new
      exact (suffix_append_self_iff.mpr newest).isInfix
  · rw [ledger.flushed, filterMap_append, filterMap_append]
    simp [handedOver_of_waiting waiting, handedOver_of_waiting stillWaiting]

theorem cancel {before : List (KeyTask Item)} {task : KeyTask Item}
    (ledger : Ledger (before ++ [task]) arrivals flushes cancels)
    (waiting : task.isStarted = false) :
    Ledger (before ++ [{ task with items := [] }]) arrivals flushes (cancels ++ [task.items]) := by
  constructor
  · have kept := ledger.kept
    simp only [flatMap_append, flatMap_singleton, append_assoc,
      flatten_append, flatten_singleton, nil_append] at kept ⊢
    exact kept.trans (perm_append_comm.append_left _)
  · have ordered := ledger.ordered
    simp only [flatMap_append, flatMap_singleton, append_nil] at ordered ⊢
    exact (sublist_append_left _ _).trans ordered
  · intro other member
    rcases mem_append.mp member with old | new
    · exact ledger.consecutive other (by simp [old])
    · obtain rfl := mem_singleton.mp new
      exact nil_infix
  · rw [ledger.flushed, filterMap_append, filterMap_append]
    simp [handedOver, waiting]

end Ledger

end InboundDebounce
