import AieClaw.InboundDebounce
import Mathlib.Tactic

/-!
# The chain of a key

The tasks of a conversation are linked in the order of their creation: a task in the
chain starts only when every task before it in the chain has settled, and a call outside
the chain is made only while the chain is empty. A change of one task that only advances
it keeps the links, and so does a new task at the end.
-/

namespace InboundDebounce

open List

variable {Item : Type}

theorem modify_split {tasks : List (KeyTask Item)} {index : ℕ} {task : KeyTask Item}
    (found : tasks[index]? = some task) : ∃ before after, before.length = index ∧
        tasks = before ++ task :: after ∧
          ∀ change, tasks.modify index change = before ++ change task :: after := by
  obtain ⟨bound, at_⟩ := List.getElem?_eq_some_iff.mp found
  refine ⟨tasks.take index, tasks.drop (index + 1), ?_, ?_, ?_⟩
  · exact length_take_of_le bound.le
  · rw [← at_, cons_getElem_drop_succ, take_append_drop]
  · intro change
    rw [modify_eq_take_cons_drop bound, at_]

theorem modify_append_of_lt {before after : List (KeyTask Item)} {index : ℕ}
    (inside : index < before.length) (change : KeyTask Item → KeyTask Item) :
    (before ++ after).modify index change = before.modify index change ++ after := by
  induction before generalizing index with
  | nil => simp at inside
  | cons first rest inductionHypothesis =>
    cases index with
    | zero => rfl
    | succ index =>
      simp only [cons_append, modify_succ_cons]
      rw [inductionHypothesis (by simpa using inside)]

theorem modify_concat_last (before : List (KeyTask Item)) (task : KeyTask Item)
    (change : KeyTask Item → KeyTask Item) :
    (before ++ [task]).modify before.length change = before ++ [change task] := by
  induction before with
  | nil => rfl
  | cons first rest inductionHypothesis =>
    simp [inductionHypothesis]

theorem getElem?_concat_cases {tasks : List (KeyTask Item)} {task other : KeyTask Item}
    {index : ℕ} (found : (tasks ++ [task])[index]? = some other) :
    tasks[index]? = some other ∨ (index = tasks.length ∧ other = task) := by
  rcases Nat.lt_trichotomy index tasks.length with inside | atLength | beyond
  · rw [getElem?_append_left inside] at found
    exact .inl found
  · subst atLength
    simp only [getElem?_concat_length, Option.some.injEq] at found
    exact .inr ⟨rfl, found.symm⟩
  · rw [getElem?_eq_none (by simp; omega)] at found
    exact absurd found (by simp)

/-- A later version of a task stands in the same place and has come at least as far. -/
structure KeyTask.Advances (earlier later : KeyTask Item) : Prop where
  previous : later.previous = earlier.previous
  chained : later.chained = earlier.chained
  started : earlier.isStarted → later.isStarted
  settled : earlier.isSettled → later.isSettled

theorem KeyTask.Advances.refl (task : KeyTask Item) : task.Advances task := ⟨rfl, rfl, id, id⟩

theorem KeyTask.isStarted_of_isSettled {task : KeyTask Item} (settled : task.isSettled) :
    task.isStarted := by
  simp only [KeyTask.isSettled, Bool.or_eq_true, decide_eq_true_eq] at settled
  rcases settled with phase | phase <;> simp [KeyTask.isStarted, phase]

/-- The links between the tasks of one conversation and the end of its chain. -/
structure Linked (tasks : List (KeyTask Item)) (chain : Option ℕ) : Prop where
  last :
    ∀ {index : ℕ}, chain = some index →
      index + 1 = tasks.length ∧ ∀ task, tasks[index]? = some task → task.chained
  rest : chain = none → ∀ task ∈ tasks, task.chained → task.isSettled
  linked :
    ∀ {index : ℕ} {task : KeyTask Item} {previous : ℕ},
      tasks[index]? = some task → task.previous = some previous →
      previous + 1 = index ∧ ∀ before, tasks[previous]? = some before → before.chained
  unlinked :
    ∀ {first second : ℕ} {earlier later : KeyTask Item}, first < second →
      tasks[first]? = some earlier → tasks[second]? = some later →
        later.previous = none → earlier.chained → earlier.isSettled
  ordered :
    ∀ {first second : ℕ} {earlier later : KeyTask Item}, first < second →
      tasks[first]? = some earlier → tasks[second]? = some later →
        earlier.chained → later.isStarted → earlier.isSettled
  direct : ∀ task ∈ tasks, task.chained = false → task.isStarted
  uncleaned :
    ∀ {index : ℕ} {task : KeyTask Item},
      chain = some index → tasks[index]? = some task → task.phase ≠ .cleaned

namespace Linked

theorem empty : Linked ([] : List (KeyTask Item)) none := by
  constructor <;> simp

/-- A new task is linked to the end of the chain, and starts at once only without one. -/
theorem append {tasks : List (KeyTask Item)} {chain : Option ℕ}
    (before : Linked tasks chain) (task : KeyTask Item) (previous : task.previous = chain)
    (startsFree : task.isStarted → chain = none)
    (direct : task.chained = false → task.isStarted) (uncleaned : task.phase ≠ .cleaned) :
    Linked (tasks ++ [task]) (if task.chained then some tasks.length else chain) := by
  have bound : ∀ {index : ℕ} {other : KeyTask Item},
        tasks[index]? = some other → index < tasks.length := by
    intro index other found
    exact (List.getElem?_eq_some_iff.mp found).1
  constructor
  · intro index isLast
    split at isLast
    next chained =>
      cases isLast
      refine ⟨by simp, ?_⟩
      intro other found
      simp only [getElem?_concat_length, Option.some.injEq] at found
      rwa [← found]
    next unchained =>
      have free : chain = none := startsFree (direct (by simpa using unchained))
      rw [free] at isLast
      exact absurd isLast (by simp)
  · intro noChain other member chained
    split at noChain
    · exact absurd noChain (by simp)
    next unchained =>
      rcases mem_append.mp member with old | new
      · exact before.rest noChain other old chained
      · obtain rfl := mem_singleton.mp new
        exact absurd chained unchained
  · intro index other link found linked
    rcases getElem?_concat_cases found with old | ⟨rfl, rfl⟩
    · obtain ⟨next, chained⟩ := before.linked old linked
      refine ⟨next, ?_⟩
      intro earlier foundEarlier
      rcases getElem?_concat_cases foundEarlier with oldEarlier | ⟨atLength, _⟩
      · exact chained earlier oldEarlier
      · have := bound old
        omega
    · rw [previous] at linked
      obtain ⟨next, chained⟩ := before.last linked
      refine ⟨next, ?_⟩
      intro earlier foundEarlier
      rcases getElem?_concat_cases foundEarlier with oldEarlier | ⟨atLength, _⟩
      · exact chained earlier oldEarlier
      · omega
  · intro first second earlier later less foundEarlier foundLater unlinked chained
    rcases getElem?_concat_cases foundLater with oldLater | ⟨rfl, rfl⟩
    · rcases getElem?_concat_cases foundEarlier with oldEarlier | ⟨rfl, _⟩
      · exact before.unlinked less oldEarlier oldLater unlinked chained
      · have := bound oldLater
        omega
    · rcases getElem?_concat_cases foundEarlier with oldEarlier | ⟨rfl, _⟩
      · rw [previous] at unlinked
        exact before.rest unlinked earlier (mem_of_getElem? oldEarlier) chained
      · omega
  · intro first second earlier later less foundEarlier foundLater chained started
    rcases getElem?_concat_cases foundLater with oldLater | ⟨rfl, rfl⟩
    · rcases getElem?_concat_cases foundEarlier with oldEarlier | ⟨rfl, _⟩
      · exact before.ordered less oldEarlier oldLater chained started
      · have := bound oldLater
        omega
    · rcases getElem?_concat_cases foundEarlier with oldEarlier | ⟨rfl, _⟩
      · exact before.rest (startsFree started) earlier (mem_of_getElem? oldEarlier) chained
      · omega
  · intro other member unchained
    rcases mem_append.mp member with old | new
    · exact before.direct other old unchained
    · obtain rfl := mem_singleton.mp new
      exact direct unchained
  · intro index other isLast found
    rcases getElem?_concat_cases found with old | ⟨_, rfl⟩
    · split at isLast
      · cases isLast
        exact absurd (bound old) (lt_irrefl _)
      · exact before.uncleaned isLast old
    · exact uncleaned

theorem settled_before {tasks : List (KeyTask Item)} {chain : Option ℕ}
    (links : Linked tasks chain) {first second : ℕ} {earlier later : KeyTask Item}
    (less : first < second) (foundEarlier : tasks[first]? = some earlier)
    (foundLater : tasks[second]? = some later) (chained : earlier.chained)
    (mayStart : ∀ previous, later.previous = some previous →
        ∀ before, tasks[previous]? = some before → before.isSettled) : earlier.isSettled := by
  cases link : later.previous with
  | none => exact links.unlinked less foundEarlier foundLater link chained
  | some previous =>
    obtain ⟨next, _⟩ := links.linked foundLater link
    have inside : previous < tasks.length := by
      have := (List.getElem?_eq_some_iff.mp foundLater).1
      omega
    have foundPrevious : tasks[previous]? = some tasks[previous] := getElem?_eq_getElem inside
    have settled : tasks[previous].isSettled := mayStart previous link _ foundPrevious
    rcases Nat.lt_or_ge first previous with before | atLeast
    · exact links.ordered before foundEarlier foundPrevious chained
        (KeyTask.isStarted_of_isSettled settled)
    · have same : first = previous := by omega
      subst same
      rw [foundEarlier] at foundPrevious
      rwa [Option.some.inj foundPrevious]

/--
Advancing one task keeps the links, if a task that starts follows a settled one. The
end of the chain stays, or goes with its own task settled.
-/
theorem modify {tasks : List (KeyTask Item)} {chain chain' : Option ℕ}
    (links : Linked tasks chain) {index : ℕ} {change : KeyTask Item → KeyTask Item}
    (advances : ∀ task, tasks[index]? = some task → task.Advances (change task))
    (starts : ∀ task, tasks[index]? = some task → (change task).isStarted →
        task.isStarted ∨
          ∀ previous, task.previous = some previous →
            ∀ before, tasks[previous]? = some before → before.isSettled)
    (chainKept : chain' = chain ∨
        (chain = some index ∧ chain' = none ∧ ∀ task, tasks[index]? = some task → task.isSettled))
    (uncleaned :
      ∀ task, chain' = some index → task.phase ≠ .cleaned → (change task).phase ≠ .cleaned) :
    Linked (tasks.modify index change) chain' := by
  have origin : ∀ {place : ℕ} {later : KeyTask Item},
        (tasks.modify index change)[place]? = some later →
        ∃ earlier, tasks[place]? = some earlier ∧ earlier.Advances later ∧
          (later.isStarted → earlier.isStarted ∨ ∀ previous, earlier.previous = some previous →
              ∀ before, tasks[previous]? = some before → before.isSettled) := by
    intro place later found
    rw [getElem?_modify] at found
    obtain ⟨earlier, foundEarlier, rfl⟩ := Option.map_eq_some_iff.mp found
    refine ⟨earlier, foundEarlier, ?_⟩
    by_cases same : index = place
    · subst same
      simpa using ⟨advances earlier foundEarlier, starts earlier foundEarlier⟩
    · simpa [same] using ⟨KeyTask.Advances.refl earlier, fun started => Or.inl started⟩
  have settledAll : chain' = none → ∀ {place : ℕ} {earlier : KeyTask Item},
        tasks[place]? = some earlier → earlier.chained → earlier.isSettled := by
    intro noChain place earlier found chained
    rcases chainKept with same | ⟨wasLast, _, settled⟩
    · exact links.rest (same ▸ noChain) earlier (mem_of_getElem? found) chained
    · obtain ⟨atEnd, _⟩ := links.last wasLast
      have inside := (List.getElem?_eq_some_iff.mp found).1
      rcases Nat.lt_or_ge place index with before | atLeast
      · have foundLast : tasks[index]? = some tasks[index] := getElem?_eq_getElem (by omega)
        exact links.ordered before found foundLast chained
          (KeyTask.isStarted_of_isSettled (settled _ foundLast))
      · obtain rfl : place = index := by omega
        exact settled earlier found
  constructor
  · intro place isLast
    have wasLast : chain = some place := by
      rcases chainKept with same | ⟨_, gone, _⟩
      · rwa [← same]
      · rw [gone] at isLast
        exact absurd isLast (by simp)
    obtain ⟨atEnd, chained⟩ := links.last wasLast
    refine ⟨by simpa using atEnd, ?_⟩
    intro later found
    obtain ⟨earlier, foundEarlier, advanced, _⟩ := origin found
    rw [advanced.chained]
    exact chained earlier foundEarlier
  · intro noChain later member chained
    obtain ⟨place, found⟩ := mem_iff_getElem?.mp member
    obtain ⟨earlier, foundEarlier, advanced, _⟩ := origin found
    rw [advanced.chained] at chained
    exact advanced.settled (settledAll noChain foundEarlier chained)
  · intro place later previous found link
    obtain ⟨earlier, foundEarlier, advanced, _⟩ := origin found
    rw [advanced.previous] at link
    obtain ⟨next, chained⟩ := links.linked foundEarlier link
    refine ⟨next, ?_⟩
    intro before foundBefore
    obtain ⟨was, foundWas, advancedWas, _⟩ := origin foundBefore
    rw [advancedWas.chained]
    exact chained was foundWas
  · intro first second one two less foundOne foundTwo unlinked chained
    obtain ⟨earlier, foundEarlier, advancedOne, _⟩ := origin foundOne
    obtain ⟨later, foundLater, advancedTwo, _⟩ := origin foundTwo
    rw [advancedTwo.previous] at unlinked
    rw [advancedOne.chained] at chained
    exact advancedOne.settled (links.unlinked less foundEarlier foundLater unlinked chained)
  · intro first second one two less foundOne foundTwo chained started
    obtain ⟨earlier, foundEarlier, advancedOne, _⟩ := origin foundOne
    obtain ⟨later, foundLater, _, startsLater⟩ := origin foundTwo
    rw [advancedOne.chained] at chained
    apply advancedOne.settled
    rcases startsLater started with wasStarted | mayStart
    · exact links.ordered less foundEarlier foundLater chained wasStarted
    · exact links.settled_before less foundEarlier foundLater chained mayStart
  · intro later member unchained
    obtain ⟨place, found⟩ := mem_iff_getElem?.mp member
    obtain ⟨earlier, foundEarlier, advanced, _⟩ := origin found
    rw [advanced.chained] at unchained
    exact advanced.started (links.direct earlier (mem_of_getElem? foundEarlier) unchained)
  · intro place later isLast found
    rcases chainKept with same | ⟨_, gone, _⟩
    · rw [getElem?_modify] at found
      obtain ⟨earlier, foundEarlier, rfl⟩ := Option.map_eq_some_iff.mp found
      have wasOpen : earlier.phase ≠ .cleaned := links.uncleaned (same ▸ isLast) foundEarlier
      by_cases here : index = place
      · subst here
        simpa using uncleaned earlier isLast wasOpen
      · simpa [here] using wasOpen
    · rw [gone] at isLast
      exact absurd isLast (by simp)

/-- A change that leaves the link and the phase alone keeps the chain. -/
theorem modify_same {tasks : List (KeyTask Item)} {chain : Option ℕ} (links : Linked tasks chain)
    {index : ℕ} {change : KeyTask Item → KeyTask Item} (same : ∀ task,
      (change task).previous = task.previous ∧ (change task).chained = task.chained ∧
        (change task).phase = task.phase) : Linked (tasks.modify index change) chain := by
  apply links.modify
  · intro task _
    obtain ⟨previous, chained, phase⟩ := same task
    refine ⟨previous, chained, ?_, ?_⟩
    · simp [KeyTask.isStarted, phase]
    · simp [KeyTask.isSettled, phase]
  · intro task _ started
    simpa [KeyTask.isStarted, (same task).2.2] using Or.inl started
  · exact .inl rfl
  · exact fun task _ open_ => (same task).2.2 ▸ open_

theorem waiting_after {tasks : List (KeyTask Item)} {chain : Option ℕ}
    (links : Linked tasks chain) {before after : List (KeyTask Item)} {task : KeyTask Item}
    (split : tasks = before ++ task :: after) (waiting : task.phase = .waiting) :
    ∀ later ∈ after, later.isStarted = false := by
  intro later member
  have unsettled : task.isSettled = false := by simp [KeyTask.isSettled, waiting]
  have chained : task.chained = true := by
    by_contra unchained
    have started := links.direct task (by simp [split]) (by simpa using unchained)
    simp [KeyTask.isStarted, waiting] at started
  obtain ⟨place, found⟩ := mem_iff_getElem?.mp member
  have foundTask : tasks[before.length]? = some task := by simp [split]
  have foundLater : tasks[before.length + (place + 1)]? = some later := by
    rw [split, getElem?_append_right (by omega), Nat.add_sub_cancel_left]
    exact found
  by_contra started
  have settled := links.ordered (by omega) foundTask foundLater chained (by simpa using started)
  rw [unsettled] at settled
  exact absurd settled (by simp)

end Linked

end InboundDebounce
