import AieClaw.TaskRegistrySettled

/-!
# Telling each end once

A message about the end of a task is written before it is handed over, and the
task is marked when the channel has accepted it. A task that changes its status
in between is marked as told although its new status was not announced. Where
this does not happen, each end is told once and every task that is marked has
been announced as it is.
-/

namespace Tasks

open TransitionSystem Registry OrderedMap List

/-- Whether the end of a task is told without being asked for. -/
def TaskRecord.tellsItsEnd (task : TaskRecord) : Bool :=
  shouldAutoDeliverTaskTerminalUpdate { task with deliveryStatus := .pending }

/-- What holds where each end is told once and as it is. -/
structure Registry.TellsOnce (registry : Registry) : Prop where
  oneInFlight : (registry.deliveries.map TerminalDelivery.taskId).Nodup
  announcedOnce :
    (registry.announced.map fun announcement => (announcement.taskId, announcement.status)).Nodup
  deliveredIsAnnounced :
    registry.deliveries = [] →
      ∀ taskId task, registry.tasks.get? taskId = some task →
        task.tellsItsEnd = true →
        task.deliveryStatus = .delivered →
        ∃ announcement ∈ registry.announced,
          announcement.taskId = taskId ∧ announcement.status = task.status

/-- The announcements agree with the marks of the tasks. -/
structure Registry.Recorded (registry : Registry) : Prop where
  once : (registry.announced.map Announcement.taskId).Nodup
  notPending :
    ∀ announcement ∈ registry.announced, ∃ task,
      registry.tasks.get? announcement.taskId = some task ∧ task.deliveryStatus ≠ .pending
  delivered :
    ∀ taskId task, registry.tasks.get? taskId = some task →
      task.deliveryStatus = .delivered →
      task.status.isTerminal = true →
      ∃ announcement ∈ registry.announced,
        announcement.taskId = taskId ∧ announcement.status = task.status

/--
The registry of a process that has just begun, with what earlier processes
announced of the tasks that they marked.
-/
def IsResumed (host : TaskHost) (registry : Registry) : Prop :=
  ∃ store flowRegistry announced,
    registry = { started host store flowRegistry with announced } ∧ registry.Recorded

/-- What is kept while deliveries are in flight. -/
structure Registry.Faithful (registry : Registry) : Prop
    extends registry.Recorded where
  keyed : registry.Keyed
  inFlight : (registry.deliveries.map TerminalDelivery.taskId).Nodup
  claimed : ∀ delivery ∈ registry.deliveries, delivery.taskId ∈ registry.tasksWithPendingDelivery
  known : ∀ delivery ∈ registry.deliveries, ∃ task, registry.tasks.get? delivery.taskId = some task
  untold :
    ∀ delivery ∈ registry.deliveries, ∀ announcement ∈ registry.announced,
      announcement.taskId ≠ delivery.taskId

/-- What keeps the marks of the tasks true to the announcements. -/
def telling : Allowed where
  update registry taskId patch :=
    patch.deliveryStatus ≠ some .delivered ∧
      (patch.deliveryStatus = some .pending →
        ∀ announcement ∈ registry.announced, announcement.taskId ≠ taskId) ∧
      ∀ next, patch.status = some next → next.isTerminal = true →
        ∀ current, registry.tasks.get? taskId = some current →
          current.deliveryStatus = .delivered → next = current.status
  place _ record _ := record.deliveryStatus = .delivered → record.status.isTerminal = false
  delete _ _ := False
  reload _ := False

section Faithful

variable {host : TaskHost} {registry later : Registry} {task : TaskRecord}
  {tasks : OrderedMap String TaskRecord} {taskId : String} {deliveryStatus : TaskDeliveryStatus}
  {delivery : TerminalDelivery}

theorem isTerminal_of_tellsItsEnd (tells : task.tellsItsEnd = true) :
    task.status.isTerminal = true := by
  unfold TaskRecord.tellsItsEnd shouldAutoDeliverTaskTerminalUpdate at tells
  split_ifs at tells with silent alone active
  simpa using active

theorem Registry.Faithful.tellsOnce (faithful : registry.Faithful) : registry.TellsOnce where
  oneInFlight := faithful.inFlight
  announcedOnce := by
    have once : ((registry.announced.map fun announcement =>
        (announcement.taskId, announcement.status)).map Prod.fst).Nodup := by
      rw [map_map]
      exact faithful.once
    exact once.of_map
  deliveredIsAnnounced _ taskId task known tells delivered :=
    faithful.delivered taskId task known delivered (isTerminal_of_tellsItsEnd tells)

theorem faithful_of_isResumed (resumed : IsResumed host registry) : registry.Faithful := by
  obtain ⟨store, flowRegistry, announced, rfl, recorded⟩ := resumed
  have keyed : (started host store flowRegistry).Keyed := keyed_started store flowRegistry
  refine { recorded with keyed, inFlight := ?_, claimed := ?_, known := ?_, untold := ?_ }
  · exact nodup_nil
  · intro delivery member
    simp [started, cold, reloadTaskRegistryFromStore] at member
  · intro delivery member
    simp [started, cold, reloadTaskRegistryFromStore] at member
  · intro delivery member
    simp [started, cold, reloadTaskRegistryFromStore] at member

theorem TasksChange.get?_of_some (change : TasksChange telling registry tasks)
    (known : registry.tasks.get? taskId = some task) : ∃ next, tasks.get? taskId = some next ∧
      (next.deliveryStatus = .pending →
        task.deliveryStatus = .pending ∨
          ∀ announcement ∈ registry.announced, announcement.taskId ≠ taskId) := by
  cases change with
  | kept => exact ⟨task, known, Or.inl⟩
  | @updated now updatedId current patch before isAllowed =>
    rw [get?_set]
    split_ifs with isUpdated
    · subst isUpdated
      obtain rfl : current = task := Option.some.inj (before.symm.trans known)
      refine ⟨_, rfl, ?_⟩
      intro pending
      rw [deliveryStatus_nextTask] at pending
      cases marked : patch.deliveryStatus with
      | none => exact Or.inl (by simpa [marked] using pending)
      | some mark =>
        obtain rfl : mark = .pending := by simpa [marked] using pending
        exact Or.inr (isAllowed.2.1 marked)
    · exact ⟨task, known, Or.inl⟩
  | @placed record _ isNew isNormal isAllowed =>
    refine ⟨task, ?_, Or.inl⟩
    rw [get?_set_of_ne]
    · exact known
    · rintro rfl
      simp [isNew] at known
  | deleted gone isAllowed => exact isAllowed.elim
  | reloaded isAllowed => exact isAllowed.elim

/-- A task that is marked as told after its end was so before. -/
theorem TasksChange.delivered_before (change : TasksChange telling registry tasks)
    (known : tasks.get? taskId = some task) (isDelivered : task.deliveryStatus = .delivered)
    (isTerminal : task.status.isTerminal = true) :
    ∃ before, registry.tasks.get? taskId = some before ∧
      before.deliveryStatus = .delivered ∧ before.status = task.status := by
  cases change with
  | kept => exact ⟨task, known, isDelivered, rfl⟩
  | @updated now updatedId current patch before isAllowed =>
    rw [get?_set] at known
    split_ifs at known with isUpdated
    · subst isUpdated
      cases known
      rw [deliveryStatus_nextTask] at isDelivered
      rw [status_nextTask] at isTerminal ⊢
      obtain ⟨notMarked, -, rewrites⟩ := isAllowed
      have wasDelivered : current.deliveryStatus = .delivered := by
        cases marked : patch.deliveryStatus with
        | none => simpa [marked] using isDelivered
        | some mark =>
          obtain rfl : mark = .delivered := by
            simpa [marked] using isDelivered
          exact (notMarked marked).elim
      refine ⟨current, before, wasDelivered, ?_⟩
      cases changed : patch.status with
      | none => rfl
      | some next =>
        rw [changed] at isTerminal
        exact (rewrites next changed isTerminal current before wasDelivered).symm
    · exact ⟨task, known, isDelivered, rfl⟩
  | @placed record _ isNew isNormal isAllowed =>
    rw [get?_set] at known
    split_ifs at known with isPlaced
    · cases known
      simp [isAllowed isDelivered] at isTerminal
    · exact ⟨task, known, isDelivered, rfl⟩
  | deleted gone isAllowed => exact isAllowed.elim
  | reloaded isAllowed => exact isAllowed.elim

/-- A change that tells nobody keeps the marks true. -/
theorem Effect.faithful (effect : Effect host telling registry later)
    (same : SameDeliveries registry later) (faithful : registry.Faithful) : later.Faithful := by
  have change := effect.tasksChange
  obtain ⟨samePending, sameInFlight, sameAnnounced⟩ := same
  refine
    { keyed := effect.keyed faithful.keyed
      once := sameAnnounced ▸ faithful.once
      inFlight := sameInFlight ▸ faithful.inFlight
      notPending := ?_, delivered := ?_, claimed := ?_, known := ?_
      untold := ?_ }
  · intro announcement member
    rw [sameAnnounced] at member
    obtain ⟨task, known, notPending⟩ := faithful.notPending _ member
    obtain ⟨next, knownNext, pending⟩ := change.get?_of_some known
    refine ⟨next, knownNext, fun isPending => ?_⟩
    rcases pending isPending with wasPending | untold
    · exact notPending wasPending
    · exact untold announcement member rfl
  · intro taskId task known isDelivered isTerminal
    obtain ⟨before, knownBefore, wasDelivered, sameStatus⟩ :=
      change.delivered_before known isDelivered isTerminal
    rw [sameAnnounced, ← sameStatus]
    exact faithful.delivered taskId before knownBefore wasDelivered (sameStatus ▸ isTerminal)
  · intro delivery member
    rw [samePending]
    exact faithful.claimed delivery (sameInFlight ▸ member)
  · intro delivery member
    obtain ⟨task, known⟩ := faithful.known delivery (sameInFlight ▸ member)
    obtain ⟨next, knownNext, -⟩ := change.get?_of_some known
    exact ⟨next, knownNext⟩
  · intro delivery member
    rw [sameAnnounced]
    exact faithful.untold delivery (sameInFlight ▸ member)

theorem Registry.Faithful.markDelivery (faithful : registry.Faithful) (now : ℚ) (taskId : String)
    (notDelivered : deliveryStatus ≠ .delivered) (untold : deliveryStatus = .pending →
        ∀ announcement ∈ registry.announced, announcement.taskId ≠ taskId) :
    (registry.markDelivery host now taskId deliveryStatus).2.Faithful := by
  have same : SameDeliveries registry (registry.markDelivery host now taskId deliveryStatus).2 :=
    sameDeliveries_updateTask now taskId _
  have isAllowed : telling.update registry taskId
      { deliveryStatus := some deliveryStatus, lastEventAt := some (some now) } := by
    refine ⟨?_, ?_, ?_⟩
    · simpa using notDelivered
    · intro isPending
      exact untold (Option.some.inj isPending)
    · intro next changed
      simp at changed
  exact Effect.faithful (.update now taskId _ isAllowed) same faithful

theorem sameDeliveries_markDeliveryOrFailed (now : ℚ) (taskId : String)
    (deliveryStatus : TaskDeliveryStatus) : SameDeliveries registry
      (registry.markDeliveryOrFailed host now taskId deliveryStatus).2 := by
  have first : SameDeliveries registry (registry.markDelivery host now taskId deliveryStatus).2 :=
    sameDeliveries_updateTask now taskId _
  rcases registry.markDeliveryOrFailed_cases now taskId deliveryStatus with marked | failed
  · rw [marked]
    exact first
  · rw [failed]
    have second : SameDeliveries (registry.markDelivery host now taskId deliveryStatus).2
        ((registry.markDelivery host now taskId deliveryStatus).2.markDelivery host now taskId
          .failed).2 :=
      sameDeliveries_updateTask now taskId _
    exact ⟨second.tasksWithPendingDelivery.trans first.tasksWithPendingDelivery,
      second.deliveries.trans first.deliveries, second.announced.trans first.announced⟩

theorem Registry.Faithful.markDeliveryOrFailed (faithful : registry.Faithful) (now : ℚ)
    (taskId : String)
    (notDelivered : deliveryStatus ≠ .delivered) (untold : deliveryStatus = .pending →
        ∀ announcement ∈ registry.announced, announcement.taskId ≠ taskId) :
    (registry.markDeliveryOrFailed host now taskId deliveryStatus).2.Faithful := by
  have first : (registry.markDelivery host now taskId deliveryStatus).2.Faithful :=
    faithful.markDelivery now taskId notDelivered untold
  rcases registry.markDeliveryOrFailed_cases now taskId deliveryStatus with marked | failed
  · rw [marked]
    exact first
  · rw [failed]
    exact first.markDelivery now taskId (by simp) (by simp)

theorem Registry.Faithful.endDelivery (faithful : registry.Faithful)
    (free : ∀ delivery ∈ registry.deliveries, delivery.taskId ≠ taskId) :
    (registry.endDelivery taskId).Faithful := by
  refine { faithful with claimed := ?_ }
  intro delivery member
  exact mem_filter.mpr ⟨faithful.claimed delivery member, by simpa using free delivery member⟩

/-- Beginning to tell an owner keeps the marks true. -/
theorem Registry.Faithful.maybeDeliverTaskTerminalUpdate (faithful : registry.Faithful)
    (now : ℚ) (taskId : String) :
    (registry.maybeDeliverTaskTerminalUpdate host now taskId).Faithful := by
  unfold Registry.maybeDeliverTaskTerminalUpdate
  split
  · exact faithful
  next current known =>
    split_ifs with waits claimed
    · exact faithful
    · exact faithful
    · have sameId : current.taskId = taskId := faithful.keyed _ _ known
      have pending : current.deliveryStatus = .pending := by
        simp only [Bool.not_eq_true', Bool.not_eq_false] at waits
        unfold shouldAutoDeliverTaskTerminalUpdate at waits
        split_ifs at waits
        simpa using waits
      have untold : ∀ announcement ∈ registry.announced, announcement.taskId ≠ taskId := by
        rintro announcement member rfl
        obtain ⟨task, isTask, notPending⟩ := faithful.notPending _ member
        obtain rfl : current = task := Option.some.inj (known.symm.trans isTask)
        exact notPending pending
      have free : ∀ delivery ∈ registry.deliveries, delivery.taskId ≠ taskId := by
        rintro delivery member rfl
        exact claimed (faithful.claimed delivery member)
      let begun : Registry :=
        { registry with
          tasksWithPendingDelivery := registry.tasksWithPendingDelivery ++ [taskId] }
      have begunFaithful : begun.Faithful :=
        { faithful with
          claimed := fun delivery member =>
            mem_append_left _ (faithful.claimed delivery member) }
      show (begun.deliverTerminalUpdate host now current).Faithful
      unfold deliverTerminalUpdate
      extract_lets currentId preferred review canDeliverDirect delivery
      have isCurrent : currentId = taskId := sameId
      clear_value currentId
      subst isCurrent
      have marked (deliveryStatus : TaskDeliveryStatus)
          (notDelivered : deliveryStatus ≠ .delivered) : ((begun.markDelivery host now currentId
            deliveryStatus).2.endDelivery currentId).Faithful := by
        have same : SameDeliveries begun (begun.markDelivery host now currentId deliveryStatus).2 :=
          sameDeliveries_updateTask now currentId _
        apply (begunFaithful.markDelivery now currentId notDelivered fun _ => untold).endDelivery
        rw [same.deliveries]
        exact free
      have markedOrFailed (deliveryStatus : TaskDeliveryStatus)
          (notDelivered : deliveryStatus ≠ .delivered) :
          ((begun.markDeliveryOrFailed host now currentId
            deliveryStatus).2.endDelivery currentId).Faithful := by
        have same : SameDeliveries begun
            (begun.markDeliveryOrFailed host now currentId deliveryStatus).2 :=
          sameDeliveries_markDeliveryOrFailed now currentId deliveryStatus
        apply (begunFaithful.markDeliveryOrFailed now currentId notDelivered
          fun _ => untold).endDelivery
        rw [same.deliveries]
        exact free
      split_ifs
      · exact marked _ (by simp)
      · exact marked _ (missesOwner_resolveMissingOwnerDeliveryStatus current).ne_delivered
      · exact markedOrFailed _ (by simp)
      · exact markedOrFailed _ (by simp)
      · refine
          { begunFaithful with
            inFlight := ?_, claimed := ?_, known := ?_, untold := ?_ }
        · rw [map_append, nodup_append]
          refine ⟨faithful.inFlight, nodup_singleton _, ?_⟩
          intro other member last isLast
          obtain ⟨earlier, inFlight, rfl⟩ := mem_map.mp member
          rw [map_singleton, mem_singleton] at isLast
          rw [isLast]
          exact free earlier inFlight
        · intro other member
          rcases mem_append.mp member with earlier | last
          · exact begunFaithful.claimed other earlier
          · rw [mem_singleton.mp last]
            exact mem_append_right _ mem_cons_self
        · intro other member
          rcases mem_append.mp member with earlier | last
          · exact begunFaithful.known other earlier
          · rw [mem_singleton.mp last]
            exact ⟨current, known⟩
        · intro other member
          rcases mem_append.mp member with earlier | last
          · exact begunFaithful.untold other earlier
          · rw [mem_singleton.mp last]
            exact untold

theorem Changes.faithful (changes : Changes host telling registry later)
    (faithful : registry.Faithful) : later.Faithful := by
  induction changes with
  | refl => exact faithful
  | tail earlier last inductionHypothesis =>
    cases last with
    | effect effect same => exact effect.faithful same inductionHypothesis
    | tell now taskId => exact inductionHypothesis.maybeDeliverTaskTerminalUpdate now taskId

theorem get?_markDeliveryOrFailed (now : ℚ) {current : TaskRecord}
    (known : registry.tasks.get? taskId = some current) (deliveryStatus : TaskDeliveryStatus) :
    ∃ next, next.taskId = current.taskId ∧
        next.status = current.status ∧
        (next.deliveryStatus = deliveryStatus ∨ next.deliveryStatus = .failed) ∧
        ∀ other, (registry.markDeliveryOrFailed host now taskId deliveryStatus).2.tasks.get? other =
            if other = taskId then some next
            else
              registry.tasks.get? other := by
  let patch (mark : TaskDeliveryStatus) : TaskPatch :=
    { deliveryStatus := some mark, lastEventAt := some (some now) }
  have first : (registry.markDelivery host now taskId deliveryStatus).2.tasks =
        registry.tasks.set taskId (nextTask now current (patch deliveryStatus)) :=
    tasks_updateTask known _
  rcases registry.markDeliveryOrFailed_cases now taskId deliveryStatus with marked | failed
  · refine ⟨nextTask now current (patch deliveryStatus), taskId_nextTask _ _, status_nextTask _ _,
      Or.inl (deliveryStatus_nextTask _ _), fun other => ?_⟩
    rw [marked, first, get?_set]
  · let next := nextTask now current (patch deliveryStatus)
    have knownAgain : (registry.markDelivery host now taskId deliveryStatus).2.tasks.get? taskId =
          some next := by
      rw [first, get?_set_self]
    refine ⟨nextTask now next (patch .failed), ?_, ?_, Or.inr (deliveryStatus_nextTask _ _), ?_⟩
    · exact (taskId_nextTask _ _).trans (taskId_nextTask _ _)
    · exact (status_nextTask _ _).trans (status_nextTask _ _)
    · intro other
      rw [failed, Registry.markDelivery, tasks_updateTask knownAgain, get?_set, first]
      split_ifs with same
      · rfl
      · exact get?_set_of_ne same

section

variable (faithful : registry.Faithful)
include faithful

theorem ne_of_mem_erase_deliveries (isInFlight : delivery ∈ registry.deliveries) :
    ∀ other ∈ registry.deliveries.erase delivery, other.taskId ≠ delivery.taskId := by
  have split := (perm_cons_erase isInFlight).map TerminalDelivery.taskId
  have distinct := split.nodup_iff.mp faithful.inFlight
  intro other member same
  exact (nodup_cons.mp distinct).1 (same ▸ mem_map_of_mem (f := TerminalDelivery.taskId) member)

theorem Registry.Faithful.eraseDelivery (delivery : TerminalDelivery) : Faithful
      { registry with deliveries := registry.deliveries.erase delivery } := by
  have member {other : TerminalDelivery} (remains : other ∈ registry.deliveries.erase delivery) :
      other ∈ registry.deliveries :=
    mem_of_mem_erase remains
  exact
    { faithful with
      inFlight := (erase_sublist.map _).nodup faithful.inFlight
      claimed := fun other remains => faithful.claimed other (member remains)
      known := fun other remains => faithful.known other (member remains)
      untold := fun other remains => faithful.untold other (member remains) }

/--
A message that is accepted while the task is as the message says makes the
announcement that the mark of the task stands for.
-/
theorem Registry.Faithful.announce (now : ℚ) {announcement : Announcement} {current : TaskRecord}
    (known : registry.tasks.get? announcement.taskId = some current)
    (isCurrent : announcement.status = current.status)
    (isNew : ∀ earlier ∈ registry.announced, earlier.taskId ≠ announcement.taskId)
    (free : ∀ delivery ∈ registry.deliveries, delivery.taskId ≠ announcement.taskId) :
    (({ registry with
        announced := registry.announced ++ [announcement]
      } : Registry).markDeliveryOrFailed host now announcement.taskId .delivered).2.Faithful := by
  let told : Registry := { registry with announced := registry.announced ++ [announcement] }
  have same : SameDeliveries told
      (told.markDeliveryOrFailed host now announcement.taskId .delivered).2 :=
    sameDeliveries_markDeliveryOrFailed now announcement.taskId .delivered
  have knownThere : told.tasks.get? announcement.taskId = some current := known
  obtain ⟨next, sameId, sameStatus, marked, lookup⟩ :
      ∃ next, next.taskId = current.taskId ∧ next.status = current.status ∧
        (next.deliveryStatus = .delivered ∨ next.deliveryStatus = .failed) ∧ ∀ other,
          (told.markDeliveryOrFailed host now announcement.taskId .delivered).2.tasks.get? other =
            if other = announcement.taskId then some next
            else
              told.tasks.get? other :=
    get?_markDeliveryOrFailed now knownThere .delivered
  generalize (told.markDeliveryOrFailed host now announcement.taskId
    .delivered).2 = settled at same lookup
  obtain ⟨samePending, sameInFlight, sameAnnounced⟩ := same
  have announcedThere : settled.announced = registry.announced ++ [announcement] := sameAnnounced
  constructor
  · constructor
    · rw [announcedThere, map_append, nodup_append]
      refine ⟨faithful.once, nodup_singleton _, ?_⟩
      intro taskId member last isLast
      obtain ⟨earlier, wasTold, rfl⟩ := mem_map.mp member
      rw [map_singleton, mem_singleton] at isLast
      rw [isLast]
      exact isNew earlier wasTold
    · intro other member
      rw [lookup]
      rw [announcedThere] at member
      rcases mem_append.mp member with earlier | last
      · rw [if_neg (isNew other earlier)]
        exact faithful.notPending other earlier
      · rw [mem_singleton.mp last, if_pos rfl]
        refine ⟨next, rfl, ?_⟩
        rcases marked with isMarked | isMarked
        · simp [isMarked]
        · simp [isMarked]
    · intro taskId task isTask isDelivered isTerminal
      rw [lookup] at isTask
      rw [announcedThere]
      split_ifs at isTask with isTold
      · cases isTask
        exact ⟨announcement, mem_append_right _ mem_cons_self,
          isTold.symm, isCurrent.trans sameStatus.symm⟩
      · obtain ⟨earlier, member, sameTask⟩ :=
          faithful.delivered taskId task isTask isDelivered isTerminal
        exact ⟨earlier, mem_append_left _ member, sameTask⟩
  · intro taskId task isTask
    rw [lookup] at isTask
    split_ifs at isTask with isTold
    · cases isTask
      rw [sameId, isTold]
      exact faithful.keyed _ _ known
    · exact faithful.keyed taskId task isTask
  · rw [sameInFlight]
    exact faithful.inFlight
  · intro delivery member
    rw [samePending]
    exact faithful.claimed delivery (sameInFlight ▸ member)
  · intro delivery member
    rw [lookup, if_neg (free delivery (sameInFlight ▸ member))]
    exact faithful.known delivery (sameInFlight ▸ member)
  · intro delivery member earlier wasTold
    rw [sameInFlight] at member
    rw [announcedThere] at wasTold
    rcases mem_append.mp wasTold with before | last
    · exact faithful.untold delivery member earlier before
    · rw [mem_singleton.mp last]
      exact (free delivery member).symm

theorem Registry.Faithful.settleTerminalDelivery (now : ℚ)
    (isInFlight : delivery ∈ registry.deliveries) (accepted : Bool) (isCurrent : accepted = true →
        ∀ status ∈ registry.statusOf delivery.taskId, status = delivery.latest.status) :
    (registry.settleTerminalDelivery host now delivery accepted).Faithful := by
  have waiting := faithful.eraseDelivery delivery
  have free := ne_of_mem_erase_deliveries faithful isInFlight
  unfold Registry.settleTerminalDelivery
  extract_lets waitingThere announcement told
  split_ifs with wasAccepted
  · obtain ⟨current, known⟩ := faithful.known delivery isInFlight
    have same : SameDeliveries told
        (told.markDeliveryOrFailed host now delivery.taskId .delivered).2 :=
      sameDeliveries_markDeliveryOrFailed now delivery.taskId .delivered
    have announced : (told.markDeliveryOrFailed host now delivery.taskId
        .delivered).2.Faithful := by
      have knownThere : waitingThere.tasks.get? announcement.taskId = some current := known
      apply waiting.announce now knownThere
      · exact (isCurrent wasAccepted current.status (by simp [Registry.statusOf, known])).symm
      · exact faithful.untold delivery isInFlight
      · exact free
    apply announced.endDelivery
    rw [same.deliveries]
    exact free
  · have same : SameDeliveries waitingThere
        (waitingThere.markDelivery host now delivery.taskId .failed).2 :=
      sameDeliveries_updateTask now delivery.taskId _
    apply (waiting.markDelivery now delivery.taskId (by simp) (by simp)).endDelivery
    rw [same.deliveries]
    exact free

end

/-- What keeps every status and marks no task as told. -/
def quiet : Allowed where
  update _ _ patch := patch.status = none ∧ patch.deliveryStatus ≠ some .delivered
  place _ _ _ := False
  delete _ _ := False
  reload _ := False

theorem marks_quiet : quiet.Marks (· ≠ .delivered) :=
  fun _ _ _ keepsStatus _ isMark => ⟨keepsStatus, fun marked => isMark _ marked rfl⟩

theorem get?_of_quiet (effects : Effects host quiet registry later)
    (known : registry.tasks.get? taskId = some task) : ∃ next, later.tasks.get? taskId = some next ∧
      next.status = task.status ∧
      (next.deliveryStatus = .delivered → task.deliveryStatus = .delivered) := by
  induction effects with
  | refl => exact ⟨task, known, rfl, id⟩
  | @tail middle last _ effect inductionHypothesis =>
    obtain ⟨before, knownBefore, sameStatus, delivered⟩ := inductionHypothesis
    have change := effect.tasksChange
    generalize last.tasks = tasks at change
    cases change with
    | kept => exact ⟨before, knownBefore, sameStatus, delivered⟩
    | @updated now updatedId current patch isCurrent isAllowed =>
      rw [get?_set]
      split_ifs with isUpdated
      · subst isUpdated
        obtain rfl : current = before := Option.some.inj (isCurrent.symm.trans knownBefore)
        refine ⟨_, rfl, ?_, fun isDelivered => delivered ?_⟩
        · rw [status_nextTask, isAllowed.1]
          exact sameStatus
        · rw [deliveryStatus_nextTask] at isDelivered
          cases marked : patch.deliveryStatus with
          | none => simpa [marked] using isDelivered
          | some mark =>
            obtain rfl : mark = .delivered := by
              simpa [marked] using isDelivered
            exact (isAllowed.2 marked).elim
      · exact ⟨before, knownBefore, sameStatus, delivered⟩
    | placed isNew isNormal isAllowed => exact isAllowed.elim
    | deleted gone isAllowed => exact isAllowed.elim
    | reloaded isAllowed => exact isAllowed.elim

/-- What an update that marks nothing leaves of each task. -/
theorem get?_updateAndTell (host : TaskHost) (now : ℚ) (taskId : String) (patch : TaskPatch)
    (event : Option TaskEventRecord) (keepsDelivery : patch.deliveryStatus = none)
    {other : String} (known : registry.tasks.get? other = some task) : ∃ next,
      (registry.updateAndTell host now taskId patch event).2.tasks.get? other = some next ∧
        next.status = (if other = taskId then patch.status.getD task.status
          else task.status) ∧
        (next.deliveryStatus = .delivered → task.deliveryStatus = .delivered) := by
  have updated : ∃ next,
        (registry.updateTask host now taskId patch).2.tasks.get? other = some next ∧
          next.status = (if other = taskId then patch.status.getD task.status
            else task.status) ∧
          next.deliveryStatus = task.deliveryStatus := by
    by_cases isUpdated : other = taskId
    · subst isUpdated
      rw [tasks_updateTask known, get?_set_self, if_pos rfl]
      refine ⟨_, rfl, status_nextTask _ _, ?_⟩
      rw [deliveryStatus_nextTask, keepsDelivery]
      rfl
    · rw [if_neg isUpdated]
      refine ⟨task, ?_, rfl, rfl⟩
      cases isKnown : registry.tasks.get? taskId with
      | none =>
        rw [updateTask_of_none isKnown]
        exact known
      | some current =>
        rw [tasks_updateTask isKnown, get?_set_of_ne isUpdated]
        exact known
  obtain ⟨middle, knownMiddle, status, sameMark⟩ := updated
  have missesOwner : quiet.Marks MissesOwner :=
    marks_quiet.mono fun _ misses => misses.ne_delivered
  have told : Changes host quiet (registry.updateTask host now taskId patch).2
      (registry.updateAndTell host now taskId patch event).2 :=
    changes_tellAfterUpdate missesOwner now taskId patch event
  obtain ⟨next, knownNext, sameStatus, delivered⟩ :=
    get?_of_quiet (told.effects marks_quiet) knownMiddle
  exact ⟨next, knownNext, sameStatus.trans status,
    fun isDelivered => sameMark ▸ delivered isDelivered⟩

theorem marks_telling : telling.Marks MissesOwner := by
  intro registry taskId patch keepsStatus _ isMark
  refine ⟨?_, ?_, ?_⟩
  · intro marked
    exact (isMark _ marked).ne_delivered rfl
  · intro marked
    rcases isMark _ marked with isPending | isPending
    · simp at isPending
    · simp at isPending
  · intro next changed
    simp [keepsStatus] at changed

/--
A loop whose turns write one status, where no task that was marked as told
when the loop began is given another end.
-/
theorem changes_tellingLoop {perform : TaskRecord → Registry → TaskResult (Option TaskRecord)}
    {tasks : List TaskRecord} (written : Option TaskStatus) (turn : ∀ task ∈ tasks, ∀ registry,
        perform task registry = (.ok none, registry) ∨
          ∃ now patch event, patch.status = written ∧
              patch.deliveryStatus = none ∧
              (∀ next, written = some next → next.isTerminal = true →
                task.deliveryStatus = .delivered → next = task.status) ∧
              perform task registry = registry.updateAndTell host now task.taskId patch event)
    (known : ∀ task ∈ tasks, registry.tasks.get? task.taskId = some task) :
    Changes host telling registry (forEachTask perform tasks registry).2 := by
  let reads (registry : Registry) : Prop :=
    ∀ task ∈ tasks, ∃ current,
      registry.tasks.get? task.taskId = some current ∧
        (current.deliveryStatus = .delivered → task.deliveryStatus = .delivered) ∧
        (current.status = task.status ∨ written = some current.status)
  apply changes_forEachTask reads
  · intro task member registry reading
    rcases turn task member registry with
      skipped | ⟨now, patch, event, isWritten, keepsDelivery, keeps, performed⟩
    · rw [skipped]
      exact ⟨.refl, reading⟩
    · rw [performed]
      constructor
      · apply changes_updateAndTell marks_telling
        refine ⟨by simp [keepsDelivery], by simp [keepsDelivery], ?_⟩
        intro next changed isTerminal current isCurrent isDelivered
        rw [isWritten] at changed
        obtain ⟨read, isRead, delivered, readOrWritten⟩ := reading task member
        obtain rfl : read = current := Option.some.inj (isRead.symm.trans isCurrent)
        rcases readOrWritten with sameStatus | alreadyWritten
        · rw [sameStatus]
          exact keeps next changed isTerminal (delivered isDelivered)
        · exact Option.some.inj (changed.symm.trans alreadyWritten)
      · intro other inTasks
        obtain ⟨current, isCurrent, delivered, readOrWritten⟩ := reading other inTasks
        obtain ⟨next, isNext, status, stillDelivered⟩ :=
          get?_updateAndTell host now task.taskId patch event keepsDelivery isCurrent
        refine ⟨next, isNext, fun isDelivered => delivered (stillDelivered isDelivered), ?_⟩
        rw [status, isWritten]
        split_ifs
        · cases written with
          | none => exact readOrWritten
          | some next => exact Or.inr rfl
        · exact readOrWritten
  · intro task member
    exact ⟨task, known task member, id, Or.inl rfl⟩

end Faithful

/-- The operations that neither forget tasks nor mark deliveries by request. -/
def TaskOperation.TellsByItself : TaskOperation → Prop
  | .setDeliveryStatus .. => False
  | .delete _ => False
  | .reload => False
  | _ => True

/-- The end that an operation may give to a task. -/
def Registry.writtenEnd (registry : Registry) (task : TaskRecord) :
    TaskOperation → Option TaskStatus
  | .finalize scope params =>
    if task ∈ registry.getTasksByRunScope scope ∧
        shouldApplyRunScopedStatusUpdate task.status params.status.toStatus then
      some params.status.toStatus
    else none
  | .agentEvent event =>
    if task ∈ registry.getTasksByRunScope
          { runId := event.runId, sessionKey := event.sessionKey } ∧
        task.status.isTerminal = false then
      event.status
    else none
  | .updateById taskId (.terminal status ..) =>
    if task.taskId = taskId then some status.toStatus else none
  | .updateById taskId (.lost ..) => if task.taskId = taskId then some .lost else none
  | .cancel taskId _ =>
    if task.taskId = JsString.trim taskId ∧ task.status.isTerminal = false ∧
        task.isCancelledAtOnce then
      some .cancelled
    else none
  | .settleCancel pending .stopped =>
    if task.taskId = pending.task.taskId then some .cancelled else none
  | _ => none

/-- No task that is marked as told is given another end. -/
def Registry.KeepsToldEnds (registry : Registry) (operation : TaskOperation) : Prop :=
  ∀ task ∈ registry.tasks.values, task.deliveryStatus = .delivered →
    ∀ next ∈ registry.writtenEnd task operation, next.isTerminal = true → next = task.status

/--
A new task that has ended is not marked as told, and no task that was announced
is marked for another delivery.
-/
def Registry.CreatesUntold (registry : Registry) (params : CreateTaskParams) : Prop :=
  (registry.findExistingTaskForCreate params = none →
      params.deliveryStatus = some .delivered →
      (params.status.getD .queued).isTerminal = false) ∧
    ∀ existing ∈ registry.findExistingTaskForCreate params,
      params.deliveryStatus = some .pending →
      existing.deliveryStatus ≠ .delivered →
      ∀ announcement ∈ registry.announced, announcement.taskId ≠ existing.taskId

/--
An operation tells truly when a message is accepted only while its task is as
the message says and nothing changes a task that is marked as told.
-/
def Registry.TellsTruly (registry : Registry) : TaskOperation → Prop
  | .create _ params => registry.CreatesUntold params
  | .settleDelivery delivery true =>
    ∀ status ∈ registry.statusOf delivery.taskId, status = delivery.latest.status
  | operation => registry.KeepsToldEnds operation

instance : (operation : TaskOperation) → Decidable operation.TellsByItself
  | .setDeliveryStatus .. => instDecidableFalse
  | .delete _ => instDecidableFalse
  | .reload => instDecidableFalse
  | .markRunning .. => instDecidableTrue
  | .recordProgress .. => instDecidableTrue
  | .finalize .. => instDecidableTrue
  | .agentEvent _ => instDecidableTrue
  | .updateById .. => instDecidableTrue
  | .create .. => instDecidableTrue
  | .linkToFlow .. => instDecidableTrue
  | .cancel .. => instDecidableTrue
  | .settleCancel .. => instDecidableTrue
  | .deliver _ => instDecidableTrue
  | .settleDelivery .. => instDecidableTrue
  | .settleStateChange .. => instDecidableTrue

instance (registry : Registry) (params : CreateTaskParams) :
    Decidable (registry.CreatesUntold params) := by
  unfold Registry.CreatesUntold
  infer_instance

instance (registry : Registry) (operation : TaskOperation) :
    Decidable (registry.KeepsToldEnds operation) := by
  unfold Registry.KeepsToldEnds
  infer_instance

instance (registry : Registry) (operation : TaskOperation) :
    Decidable (registry.TellsTruly operation) := by
  unfold Registry.TellsTruly
  split <;> infer_instance

section Operations

variable {host : TaskHost} {registry : Registry}

theorem telling_update {operation : TaskOperation} (keyed : registry.Keyed)
    (keeps : registry.KeepsToldEnds operation) {taskId : String} {patch : TaskPatch}
    (keepsDelivery : patch.deliveryStatus = none)
    (isWritten : ∀ task, registry.tasks.get? taskId = some task → task.taskId = taskId →
        ∀ next, patch.status = some next → registry.writtenEnd task operation = some next) :
    telling.update registry taskId patch := by
  refine ⟨by simp [keepsDelivery], by simp [keepsDelivery], ?_⟩
  intro next changed isTerminal current known isDelivered
  exact keeps current (mem_values_of_get? known) isDelivered next
    (isWritten current known (keyed _ _ known) next changed) isTerminal

theorem changes_telling_updateByRun (keyed : registry.Keyed) (now : ℚ) (scope : RunScope)
    (update : RunUpdate) (keeps : ∀ task ∈ registry.getTasksByRunScope scope,
        update.applies task = true →
        ∀ next, update.status = some next → next.isTerminal = true →
          task.deliveryStatus = .delivered → next = task.status) : Changes host telling registry
      (registry.updateTaskStateByRunId host now scope update).2 := by
  apply changes_tellingLoop update.status _
    fun _ listed => known_of_mem_getTasksByRunScope keyed listed
  intro task member registry
  split_ifs with applies
  · exact Or.inr ⟨now, _, _, rfl, rfl, keeps task member applies, rfl⟩
  · exact Or.inl rfl

/-- An operation that tells truly keeps the marks true. -/
theorem faithful_perform (faithful : registry.Faithful) (now : ℚ)
    {operation : TaskOperation} (enabled : operation.Enabled registry)
    (byItself : operation.TellsByItself) (truly : registry.TellsTruly operation) :
    (operation.perform host now registry).2.Faithful := by
  have keyed := faithful.keyed
  have keepsTrue {later : Registry} (changes : Changes host telling registry later) :
      later.Faithful :=
    changes.faithful faithful
  cases operation with
  | markRunning scope params =>
    rw [TaskOperation.perform, thrown_snd]
    apply keepsTrue
    apply changes_telling_updateByRun keyed now scope
    intro task _ _ next written isTerminal
    cases written
    simp [TaskStatus.isTerminal] at isTerminal
  | recordProgress scope params =>
    rw [TaskOperation.perform, thrown_snd]
    apply keepsTrue
    apply changes_telling_updateByRun keyed now scope
    intro task _ _ next written
    simp at written
  | finalize scope params =>
    rw [TaskOperation.perform, thrown_snd]
    apply keepsTrue
    apply changes_telling_updateByRun keyed now scope
    intro task listed applies next written isTerminal isDelivered
    cases written
    have known := known_of_mem_getTasksByRunScope keyed listed
    apply truly task (mem_values_of_get? known) isDelivered _ _ isTerminal
    rw [writtenEnd, if_pos ⟨listed, by simpa [RunUpdate.applies,
      RunUpdate.nextStatus] using applies⟩]
    rfl
  | agentEvent event =>
    rw [TaskOperation.perform, thrown_snd]
    apply keepsTrue
    apply changes_tellingLoop event.status _
      fun _ listed => known_of_mem_getTasksByRunScope keyed listed
    intro task listed registry
    split_ifs with ended
    · exact Or.inl rfl
    · refine Or.inr ⟨now, _, _, rfl, rfl, ?_, rfl⟩
      intro next written isTerminal isDelivered
      have known := known_of_mem_getTasksByRunScope keyed listed
      apply truly task (mem_values_of_get? known) isDelivered _ _ isTerminal
      rw [writtenEnd, if_pos ⟨listed, by simpa using ended⟩]
      exact written
  | setDeliveryStatus scope deliveryStatus error => exact byItself.elim
  | updateById taskId update =>
    rw [TaskOperation.perform, thrown_snd]
    apply keepsTrue
    apply changes_updateTask
    apply telling_update keyed truly
    · cases update <;> rfl
    · intro task known sameId next written
      cases update with
      | terminal =>
        rw [writtenEnd, if_pos sameId]
        exact written
      | lost =>
        rw [writtenEnd, if_pos sameId]
        exact written
      | progress => simp [UpdateById.patch] at written
      | timing => simp [UpdateById.patch] at written
      | cleanupAfter => simp [UpdateById.patch] at written
      | notifyPolicy => simp [UpdateById.patch] at written
  | create taskId params =>
    rw [TaskOperation.perform, thrown_snd]
    obtain ⟨placesUntold, mergesUntold⟩ := truly
    apply keepsTrue
    apply changes_createTaskRecord keyed now taskId params enabled
    · intro _ notFound isDelivered
      rw [CreateTaskParams.status_newRecord]
      apply placesUntold notFound
      rw [CreateTaskParams.deliveryStatus_newRecord] at isDelivered
      cases stated : params.deliveryStatus with
      | some deliveryStatus => simpa [stated] using isDelivered
      | none =>
        rw [stated, Option.getD_none, ensureDeliveryStatus] at isDelivered
        split_ifs at isDelivered
    · intro existing found later sameTasks same _
      refine ⟨?_, ?_, ?_⟩
      · simp only [CreateTaskParams.mergePatch]
        split_ifs
        · simp
        · simp
      · intro isPending
        simp only [CreateTaskParams.mergePatch] at isPending
        split_ifs at isPending with asked
        rw [same.announced]
        exact mergesUntold existing found asked.1 asked.2
      · intro next changed
        simp [CreateTaskParams.mergePatch] at changed
  | linkToFlow taskId flowId =>
    rw [TaskOperation.perform, thrown_snd]
    exact (changes_linkTaskToFlowById marks_telling now taskId flowId).faithful faithful
  | delete taskId => exact byItself.elim
  | reload => exact byItself.elim
  | cancel taskId reason =>
    apply keepsTrue
    apply changes_cancelTaskById now taskId reason
    intro task known active atOnce
    have sameId : task.taskId = JsString.trim taskId := keyed _ _ known
    apply telling_update keyed truly rfl
    intro other isOther _ next written
    rw [sameId] at isOther
    obtain rfl : task = other := Option.some.inj (known.symm.trans isOther)
    rw [writtenEnd, if_pos ⟨sameId, active, atOnce⟩]
    exact written
  | settleCancel pending answer =>
    apply keepsTrue
    apply changes_settleCancel now pending answer
    rintro rfl later same
    have allowed : telling.update registry pending.task.taskId
        (cancelPatch now pending.reason) := by
      apply telling_update keyed truly rfl
      intro task known sameId next written
      rw [writtenEnd, if_pos sameId]
      exact written
    refine ⟨by simp [cancelPatch], by simp [cancelPatch], ?_⟩
    rw [same.tasks]
    exact allowed.2.2
  | deliver taskId => exact faithful.maybeDeliverTaskTerminalUpdate now taskId
  | settleDelivery delivery accepted =>
    apply faithful.settleTerminalDelivery now enabled
    rintro rfl
    exact truly
  | settleStateChange delivery accepted =>
    exact (changes_settleStateChangeDelivery marks_telling now delivery accepted).faithful faithful

end Operations

/-- The steps by operations that tell by themselves. -/
def TellingStep (host : TaskHost) : StepRelation Registry TaskAction :=
  Restricted (TaskStep host) fun _ action => action.operation.TellsByItself

/-- The steps by operations that tell by themselves and truly. -/
def TruthfulStep (host : TaskHost) : StepRelation Registry TaskAction :=
  Restricted (TellingStep host) fun source action => source.TellsTruly action.operation

/--
In every run in which messages are accepted only while they are still so, and
nothing changes a task that is marked as told, each end is told once and every
task that is marked as told was announced as it is.
-/
theorem tellsOnce_of_reachable {host : TaskHost} {registry : Registry}
    (reachable : Reachable (TruthfulStep host) (IsResumed host) registry) : registry.TellsOnce := by
  have initially : ∀ ⦃start⦄, IsResumed host start → start.Faithful :=
    fun _ resumed => faithful_of_isResumed resumed
  have preserved : Preserves (TruthfulStep host) Registry.Faithful := by
    rintro source action target ⟨truly, byItself, enabled, rfl⟩ faithful
    exact faithful_perform faithful action.now enabled byItself truly
  exact (reachable.invariant initially preserved).tellsOnce

/-- A running task whose requester is told of its end in a channel. -/
private def askedInChannel : CreateTaskParams where
  runtime := .acp
  ownerKey := some "agent:main"
  requesterOrigin := some { channel := some "chat", recipient := some "user" }
  runId := some "run-1"
  task := "Build"
  status := some .running

private def emptyStart : Registry := started .plain TaskStore.empty FlowRegistry.empty

/-- The task when its run has succeeded. -/
private def succeededTask : TaskRecord :=
  nextTask 2 (askedInChannel.newRecord .plain 1 "task-1")
    { status := some .succeeded, endedAt := some (some 2) }

private def succeededMessage : TerminalDelivery where
  taskId := "task-1"
  latest := succeededTask
  directEventText := formatTaskTerminalMessage .plain succeededTask false
  sessionEventText := formatTaskTerminalMessage .plain succeededTask false

private def finalizeAs (status : FinalStatus) : TaskAction :=
  ⟨2, .finalize { runId := "run-1" } { status, endedAt := 2 }⟩

private def acceptMessage : TaskAction := ⟨3, .settleDelivery succeededMessage true⟩

private theorem isResumed_emptyStart : IsResumed .plain emptyStart := by
  refine ⟨TaskStore.empty, FlowRegistry.empty, [], rfl, ?_, ?_, ?_⟩
  · exact nodup_nil
  · intro announcement member
    have inNone : announcement ∈ ([] : List Announcement) := member
    simp at inNone
  · intro taskId task known
    have isEmpty : emptyStart.tasks.get? taskId = none := rfl
    cases isEmpty.symm.trans known

theorem tellsOnce_of_reachable_succeeded :
    ∃ registry : Registry,
      (registry.announced.map fun announcement =>
          (announcement.taskId, announcement.status)) =
          [("task-1", .succeeded)] ∧
        registry.TellsOnce := by
  let allows (source : Registry) (action : TaskAction) : Bool :=
    decide (action.operation.TellsByItself ∧ source.TellsTruly action.operation)
  have executed : (execute .plain allows
          [⟨1, .create "task-1" askedInChannel⟩, finalizeAs .succeeded, acceptMessage]
          emptyStart).map (fun registry =>
        registry.announced.map fun announcement => (announcement.taskId, announcement.status)) =
        some [("task-1", .succeeded)] := by
    decide +kernel
  obtain ⟨registry, ran, announced⟩ := Option.map_eq_some_iff.mp executed
  have reachable : Reachable (TruthfulStep .plain) (IsResumed .plain) registry :=
    ⟨emptyStart, _, isResumed_emptyStart,
      (run_of_execute_decide ran).mono fun _ _ _ taken => ⟨taken.1.2, taken.1.1, taken.2⟩⟩
  exact ⟨registry, announced, tellsOnce_of_reachable reachable⟩

/--
A task that fails while the message about its success is in flight is marked as
told when that message is accepted, though its failure was not announced.
-/
theorem not_tellsOnce :
    ¬∀ (host : TaskHost) (registry : Registry),
      Reachable (TellingStep host) (IsResumed host) registry →
        registry.TellsOnce := by
  intro tells
  let allows (_ : Registry) (action : TaskAction) : Bool := decide action.operation.TellsByItself
  have executed : (execute .plain allows
          [⟨1, .create "task-1" askedInChannel⟩, finalizeAs .succeeded,
            finalizeAs .failed, acceptMessage] emptyStart).map (fun registry =>
        (registry.deliveries, (registry.tasks.get? "task-1").map fun task =>
            (task.tellsItsEnd, task.deliveryStatus, task.status),
          registry.announced.map Announcement.status)) = some
          ([], some (true, .delivered, .failed), [.succeeded]) := by
    decide +kernel
  obtain ⟨registry, ran, shown⟩ := Option.map_eq_some_iff.mp executed
  obtain ⟨noneInFlight, shownTask⟩ := Prod.mk.inj shown
  obtain ⟨isTask, statuses⟩ := Prod.mk.inj shownTask
  obtain ⟨task, known, marks⟩ := Option.map_eq_some_iff.mp isTask
  obtain ⟨tellsEnd, marks⟩ := Prod.mk.inj marks
  obtain ⟨delivered, failed⟩ := Prod.mk.inj marks
  have reachable : Reachable (TellingStep .plain) (IsResumed .plain) registry :=
    ⟨emptyStart, _, isResumed_emptyStart, run_of_execute_decide ran⟩
  obtain ⟨announcement, member, -, sameStatus⟩ :=
    (tells .plain registry reachable).deliveredIsAnnounced noneInFlight
      "task-1" task known tellsEnd delivered
  have told : announcement.status ∈ registry.announced.map Announcement.status :=
    mem_map_of_mem member
  rw [statuses, mem_singleton, sameStatus, failed] at told
  simp at told

end Tasks
