import AieClaw.FollowupQueue

/-!
# Ledger of the followup queue

What the log says about the items: which ids a resolved call delivered, and for
which reasons an accepted item is no longer in the queue. The operations of the
queue either append events and shorten the items, or leave both as they are and
choose the next `await`.
-/

namespace FollowupQueue

open List

/-- The ids of the items, in order. -/
def ids (items : List QueuedItem) : List ℕ := items.map (·.id)

def deliveredBy : QueueEvent → List ℕ
  | .resolved call => ids call.carried
  | _ => []

def deliveredIds (log : List QueueEvent) : List ℕ := log.flatMap deliveredBy

/-- Why an accepted item is no longer in the queue. -/
inductive LeftBecause (log : List QueueEvent) (id : ℕ) : Prop where
  | delivered (member : id ∈ deliveredIds log)
  | overflowed (member : QueueEvent.overflowed id ∈ log)
  | swept (member : QueueEvent.swept id ∈ log)
  | cleared (member : QueueEvent.cleared id ∈ log)

def DropsUndelivered (earlier later : QueueEvent) : Prop :=
  ∀ id, later = .overflowed id → id ∉ deliveredBy earlier

/-- The items and the log agree about what was accepted and what left. -/
structure ItemsSound (items : List QueuedItem) (log : List QueueEvent) (nextId : ℕ) : Prop where
  nodup : (ids items).Nodup
  fresh : ∀ id ∈ ids items, id < nextId
  undelivered : ∀ id ∈ ids items, id ∉ deliveredIds log
  deliveredOnce : (deliveredIds log).Nodup
  deliveredFresh : ∀ id ∈ deliveredIds log, id < nextId
  acceptedLeft : ∀ id, QueueEvent.accepted id ∈ log → id ∈ ids items ∨ LeftBecause log id
  dropsUndelivered : log.Pairwise DropsUndelivered

@[simp] theorem ids_nil : ids [] = [] := rfl

@[simp] theorem ids_cons (item : QueuedItem) (items : List QueuedItem) :
    ids (item :: items) = item.id :: ids items :=
  rfl

@[simp] theorem ids_append (first second : List QueuedItem) :
    ids (first ++ second) = ids first ++ ids second := by
  simp [ids]

@[simp] theorem deliveredIds_append (first second : List QueueEvent) :
    deliveredIds (first ++ second) = deliveredIds first ++ deliveredIds second := by
  simp [deliveredIds]

@[simp] theorem deliveredIds_singleton (event : QueueEvent) :
    deliveredIds [event] = deliveredBy event := by
  simp [deliveredIds]

theorem deliveredIds_eq_nil {events : List QueueEvent}
    (quiet : ∀ event ∈ events, deliveredBy event = []) : deliveredIds events = [] := by
  simpa [deliveredIds, flatMap_eq_nil_iff] using quiet

theorem LeftBecause.append {log : List QueueEvent} {id : ℕ} (left : LeftBecause log id)
    (events : List QueueEvent) : LeftBecause (log ++ events) id := by
  cases left with
  | delivered member => exact .delivered (by simp [member])
  | overflowed member => exact .overflowed (mem_append_left _ member)
  | swept member => exact .swept (mem_append_left _ member)
  | cleared member => exact .cleared (mem_append_left _ member)

theorem mem_deliveredIds {log : List QueueEvent} {id : ℕ} :
    id ∈ deliveredIds log ↔ ∃ event ∈ log, id ∈ deliveredBy event := by
  simp [deliveredIds, mem_flatMap]

namespace ItemsSound

variable
  {items remaining : List QueuedItem} {log : List QueueEvent} {nextId : ℕ}

theorem empty : ItemsSound [] [] 0 := by
  constructor <;> simp [deliveredIds]

section

variable (sound : ItemsSound items log nextId)
include sound

/--
Items leave and the log grows by events that deliver nothing. What an event
drops has not been delivered, and each item that left has a reason.
-/
theorem discard (events : List QueueEvent)
    (shortened : remaining <+ items) (quiet : ∀ event ∈ events, deliveredBy event = [])
    (noAcceptance : ∀ id, QueueEvent.accepted id ∉ events)
    (drops : ∀ id, QueueEvent.overflowed id ∈ events → id ∉ deliveredIds log)
    (reason : ∀ id ∈ ids items, id ∈ ids remaining ∨ LeftBecause (log ++ events) id) :
    ItemsSound remaining (log ++ events) nextId := by
  have idsShortened : ids remaining <+ ids items := shortened.map _
  have noDelivery : deliveredIds (log ++ events) = deliveredIds log := by
    simp [deliveredIds_eq_nil quiet]
  refine
    { nodup := idsShortened.nodup sound.nodup
      fresh := ?_
      undelivered := ?_
      deliveredOnce := ?_
      deliveredFresh := ?_
      acceptedLeft := ?_
      dropsUndelivered := ?_ }
  · intro id member
    exact sound.fresh id (idsShortened.subset member)
  · intro id member
    rw [noDelivery]
    exact sound.undelivered id (idsShortened.subset member)
  · rw [noDelivery]
    exact sound.deliveredOnce
  · intro id member
    rw [noDelivery] at member
    exact sound.deliveredFresh id member
  · intro id accepted
    have earlier : QueueEvent.accepted id ∈ log := by
      rcases mem_append.mp accepted with inLog | inEvents
      · exact inLog
      · exact absurd inEvents (noAcceptance id)
    rcases sound.acceptedLeft id earlier with present | left
    · exact reason id present
    · exact Or.inr (left.append events)
  · apply pairwise_append.mpr
    refine ⟨sound.dropsUndelivered, ?_, ?_⟩
    · apply pairwise_of_forall_mem_list
      intro first firstMember second secondMember id isDrop
      rw [quiet first firstMember]
      exact not_mem_nil
    · intro earlier earlierMember later laterMember id isDrop delivered
      subst isDrop
      apply drops id laterMember
      exact mem_deliveredIds.mpr ⟨earlier, earlierMember, delivered⟩

/--
A call resolves. What it carried is new to the log, and exactly the carried
items that were in the queue leave it.
-/
theorem deliver (call : FollowupCall)
    (shortened : remaining <+ items) (carriedOnce : (ids call.carried).Nodup)
    (carriedNew : ∀ id ∈ ids call.carried, id < nextId ∧ id ∉ deliveredIds log)
    (gone : ∀ id ∈ ids call.carried, id ∉ ids remaining)
    (reason : ∀ id ∈ ids items, id ∈ ids remaining ∨ id ∈ ids call.carried) :
    ItemsSound remaining (log ++ [.resolved call]) nextId := by
  have idsShortened : ids remaining <+ ids items := shortened.map _
  have delivery : deliveredIds (log ++ [.resolved call]) =
        deliveredIds log ++ ids call.carried := by
    simp [deliveredBy]
  refine
    { nodup := idsShortened.nodup sound.nodup
      fresh := ?_
      undelivered := ?_
      deliveredOnce := ?_
      deliveredFresh := ?_
      acceptedLeft := ?_
      dropsUndelivered := ?_ }
  · intro id member
    exact sound.fresh id (idsShortened.subset member)
  · intro id member
    rw [delivery]
    intro delivered
    rcases mem_append.mp delivered with before | now
    · exact sound.undelivered id (idsShortened.subset member) before
    · exact gone id now member
  · rw [delivery]
    apply List.Nodup.append sound.deliveredOnce carriedOnce
    intro id before now
    exact (carriedNew id now).2 before
  · intro id member
    rw [delivery] at member
    rcases mem_append.mp member with before | now
    · exact sound.deliveredFresh id before
    · exact (carriedNew id now).1
  · intro id accepted
    have earlier : QueueEvent.accepted id ∈ log := by
      simpa using accepted
    rcases sound.acceptedLeft id earlier with present | left
    · rcases reason id present with stays | carried
      · exact Or.inl stays
      · refine Or.inr (.delivered ?_)
        rw [delivery]
        exact mem_append_right _ carried
    · exact Or.inr (left.append _)
  · apply pairwise_append.mpr
    refine ⟨sound.dropsUndelivered, pairwise_singleton _ _, ?_⟩
    intro earlier earlierMember later laterMember id isDrop
    obtain rfl := mem_singleton.mp laterMember
    exact absurd isDrop (by simp)

/-- A new item is pushed under an id that nothing has used. -/
theorem accept (item : QueuedItem) (isNext : item.id = nextId) :
    ItemsSound (items ++ [item]) (log ++ [.accepted nextId]) (nextId + 1) := by
  have noDelivery : deliveredIds (log ++ [.accepted nextId]) = deliveredIds log := by
    simp [deliveredBy]
  have unused : nextId ∉ ids items := by
    intro member
    exact Nat.lt_irrefl _ (sound.fresh nextId member)
  refine
    { nodup := ?_
      fresh := ?_
      undelivered := ?_
      deliveredOnce := ?_
      deliveredFresh := ?_
      acceptedLeft := ?_
      dropsUndelivered := ?_ }
  · rw [ids_append, ids_cons, ids_nil, isNext]
    apply List.Nodup.append sound.nodup (nodup_singleton _)
    intro id member isNew
    obtain rfl := mem_singleton.mp isNew
    exact unused member
  · intro id member
    rw [ids_append] at member
    rcases mem_append.mp member with old | new
    · exact Nat.lt_succ_of_lt (sound.fresh id old)
    · have same : id = nextId := by
        simpa [isNext] using new
      omega
  · intro id member
    rw [noDelivery]
    rw [ids_append] at member
    rcases mem_append.mp member with old | new
    · exact sound.undelivered id old
    · have same : id = nextId := by
        simpa [isNext] using new
      intro delivered
      have below := sound.deliveredFresh id delivered
      omega
  · rw [noDelivery]
    exact sound.deliveredOnce
  · intro id member
    rw [noDelivery] at member
    exact Nat.lt_succ_of_lt (sound.deliveredFresh id member)
  · intro id accepted
    rcases mem_append.mp accepted with earlier | now
    · rcases sound.acceptedLeft id earlier with present | left
      · exact Or.inl (by simp [present])
      · exact Or.inr (left.append _)
    · have same : id = nextId := by
        simpa using now
      exact Or.inl (by simp [isNext, same])
  · apply pairwise_append.mpr
    refine ⟨sound.dropsUndelivered, pairwise_singleton _ _, ?_⟩
    intro earlier earlierMember later laterMember id isDrop
    obtain rfl := mem_singleton.mp laterMember
    exact absurd isDrop (by simp)

end

end ItemsSound

/-- The items of the call and of the calls that follow it in its loop. -/
def FollowupCall.awaited : FollowupCall → List QueuedItem
  | individual item => [item]
  | summaryWithItem _ _ _ => []
  | summaryOnly _ _ _ => []
  | group items _ _ rest => items ++ rest.flatten

/-- The items that the drain still means to deliver from where it stands. -/
def DrainPoint.captured : DrainPoint → List QueuedItem
  | sweeping _ _ item _ => [item]
  | running call => call.awaited
  | _ => []

/--
Where the captured items are. A sweep finds its item at its index, moved to the
front by the drops since; any other call finds its items at the head as long as
nothing was dropped.
-/
def Placed (machine : QueueMachine) : Prop :=
  match machine.drain with
  | .sweeping _ index item _ =>
    if machine.dropsSinceCall ≤ index then
      machine.queue.items[index - machine.dropsSinceCall]? = some item
    else item.id ∉ ids machine.queue.items
  | .running call => machine.dropsSinceCall = 0 → call.awaited <+: machine.queue.items
  | _ => True

/-- Two machines with the same items, log and place in the map. -/
structure SameLedger (source target : QueueMachine) : Prop where
  items : target.queue.items = source.queue.items
  log : target.log = source.log
  nextId : target.nextId = source.nextId
  inMap : target.inMap = source.inMap

variable (machine : QueueMachine)

theorem QueueMachine.sameLedger_withForce (force : Bool) :
    SameLedger machine (machine.withForce force) :=
  ⟨rfl, rfl, rfl, rfl⟩

theorem QueueMachine.sameLedger_completeSummarySources :
    SameLedger machine machine.completeSummarySources :=
  ⟨rfl, rfl, rfl, rfl⟩

theorem QueueMachine.sameLedger_clearSummaryState : SameLedger machine machine.clearSummaryState :=
  ⟨rfl, rfl, rfl, rfl⟩

theorem QueueMachine.sameLedger_trim : SameLedger machine machine.trimSummarySources := by
  simp only [trimSummarySources]
  split
  · exact ⟨rfl, rfl, rfl, rfl⟩
  · exact ⟨rfl, rfl, rfl, rfl⟩

/--
Synchronous code that neither adds nor removes items. It stops at an `await`
whose captured items are among the `waiting` ones, and finds them in place when
the waiting items are at the head of the queue.
-/
structure Proceeds (source target : QueueMachine) (waiting : List QueuedItem) : Prop where
  items : target.queue.items = source.queue.items
  log : target.log = source.log
  nextId : target.nextId = source.nextId
  inMap : target.inMap = true → source.inMap = true
  detached : target.inMap = false → source.inMap = true → source.queue.items = []
  captured : target.drain.captured <+ waiting
  placed : waiting <+: source.queue.items → Placed target

namespace Proceeds

open QueueMachine

variable {source middle target : QueueMachine} {waiting : List QueuedItem}

theorem of_sameLedger (same : SameLedger source middle)
    (proceeds : Proceeds middle target waiting) : Proceeds source target waiting where
  items := proceeds.items.trans same.items
  log := proceeds.log.trans same.log
  nextId := proceeds.nextId.trans same.nextId
  inMap := fun mapped => same.inMap ▸ proceeds.inMap mapped
  detached := fun unmapped mapped =>
    same.items ▸ proceeds.detached unmapped (same.inMap.trans mapped)
  captured := proceeds.captured
  placed := fun atHead => proceeds.placed (same.items.symm ▸ atHead)

theorem of_waitAt {point : DrainPoint} (nothing : point.captured = []) :
    Proceeds source (source.waitAt point) waiting where
  items := rfl
  log := rfl
  nextId := rfl
  inMap := id
  detached := fun unmapped mapped => by simp_all
  captured := by simp [nothing]
  placed := by
    intro _
    cases point with
    | sweeping phase index item dropped => simp [DrainPoint.captured] at nothing
    | running call =>
      intro _
      have none : call.awaited = [] := nothing
      simp [none]
    | _ => trivial

theorem of_call {call : FollowupCall} (among : call.awaited <+ waiting)
    (atHead : waiting <+: source.queue.items →
      call.awaited <+: source.queue.items) : Proceeds source (source.call call) waiting where
  items := rfl
  log := rfl
  nextId := rfl
  inMap := id
  detached := fun unmapped mapped => by simp_all [QueueMachine.call]
  captured := among
  placed := fun waitingAtHead _ => atHead waitingAtHead

theorem of_sweeping {phase : SweepPhase} {index dropped : ℕ} {item : QueuedItem}
    (located : source.queue.items[index]? = some item) :
    Proceeds source (source.callAt (.sweeping phase index item dropped)) source.queue.items where
  items := rfl
  log := rfl
  nextId := rfl
  inMap := id
  detached := fun unmapped mapped => by simp_all
  captured := by
    have member : item ∈ source.queue.items := mem_of_getElem? located
    simpa [DrainPoint.captured] using member
  placed := by
    intro _
    simpa [Placed] using located

variable (host : ChannelHost) (phase : SweepPhase)

theorem of_startSweep : Proceeds source (source.startSweep phase) source.queue.items := by
  rcases source.startSweep_cases phase with ⟨index, item, begun, scan⟩ | ⟨begun, -⟩
  · rw [begun]
    exact of_sweeping (scanAborted_eq_found scan).2.1
  · rw [begun]
    exact of_waitAt rfl

theorem of_finish : Proceeds source source.finish source.queue.items := by
  rcases source.finish_cases with ⟨empty, ended⟩ | ⟨-, -, ended⟩ | ⟨-, -, ended⟩
  · rw [ended]
    have noItems := (source.isEmpty_iff.mp empty).1
    exact
      { items := rfl
        log := rfl
        nextId := rfl
        inMap := by simp
        detached := fun _ _ => noItems
        captured := by simp [DrainPoint.captured]
        placed := fun _ => trivial }
  · rw [ended]
    have restarted : Proceeds (source.withForce false)
          ((source.withForce false).startSweep .beforeDebounce)
          source.queue.items :=
      of_startSweep .beforeDebounce
    exact restarted.of_sameLedger (source.sameLedger_withForce false)
  · rw [ended]
    exact of_waitAt rfl

theorem of_fail (now : ℚ) : Proceeds source (source.fail now) source.queue.items := by
  have finished : Proceeds (source.stamp now) (source.stamp now).finish source.queue.items :=
    of_finish
  have same : SameLedger source (source.stamp now) := ⟨rfl, rfl, rfl, rfl⟩
  exact finished.of_sameLedger same

theorem of_loopHead : Proceeds source source.loopHead source.queue.items := by
  simp only [loopHead]
  split
  · exact of_finish
  · exact of_startSweep _

theorem of_continueSweep (bound dropped : ℕ) (now : ℚ) :
    Proceeds source (source.continueSweep phase bound dropped now)
      source.queue.items := by
  simp only [continueSweep]
  split
  · exact of_fail now
  · exact of_waitAt rfl
  next index item scan => exact of_sweeping (scanAborted_eq_found scan).2.1

theorem of_headCall {item : QueuedItem} {rest : List QueuedItem}
    (shape : source.queue.items = item :: rest) :
    Proceeds source (source.call (.individual item)) source.queue.items := by
  apply of_call
  · simp [FollowupCall.awaited, shape]
  · intro _
    simp [FollowupCall.awaited, shape]

theorem of_drainNext : Proceeds source source.drainNext source.queue.items := by
  simp only [drainNext]
  split
  · split
    · exact of_finish
    · split
      · exact of_waitAt rfl
      · exact of_call (nil_sublist _) fun _ => nil_prefix
  · split
    · exact of_waitAt rfl
    next item rest shape => exact of_headCall shape

theorem of_drainCollect : Proceeds source (source.drainCollect host) source.queue.items := by
  rcases source.drainCollect_cases host with
    ⟨force, begun⟩ | ⟨-, begun⟩ | ⟨item, rest, shape, begun⟩
  · rw [begun]
    exact (of_waitAt rfl).of_sameLedger (source.sameLedger_withForce force)
  · rw [begun]
    exact (of_waitAt rfl).of_sameLedger (source.sameLedger_withForce true)
  · rw [begun]
    have call : Proceeds (source.withForce true) ((source.withForce true).call (.individual item))
          source.queue.items :=
      of_headCall shape
    exact call.of_sameLedger (source.sameLedger_withForce true)

theorem of_drainRound : Proceeds source (source.drainRound host) source.queue.items := by
  simp only [drainRound]
  split
  · exact of_drainCollect host
  · exact of_drainNext

theorem of_resolveSwept (dropped : ℕ) : Proceeds source (source.resolveSwept host phase dropped)
      source.queue.items := by
  have proceed : ∀ machine : QueueMachine, SameLedger source machine →
        Proceeds source (if machine.isEmpty then machine.finish
          else machine.afterSweep host phase)
          source.queue.items := by
    intro machine same
    rw [← same.items]
    apply of_sameLedger same
    split
    · exact of_finish
    · cases phase with
      | beforeDebounce => exact of_waitAt rfl
      | afterDebounce => exact of_drainRound host
  simp only [resolveSwept]
  split
  · exact proceed _ source.sameLedger_clearSummaryState
  · exact proceed source ⟨rfl, rfl, rfl, rfl⟩

theorem of_startSummaryOnly (attached : List QueuedItem) :
    Proceeds source (source.startSummaryOnly attached)
      source.queue.items := by
  simp only [startSummaryOnly]
  split
  · exact of_call (nil_sublist _) fun _ => nil_prefix
  · exact of_finish

theorem of_startGroup (source : QueueMachine) (groups : List (List QueuedItem))
    (pendingSummary : Option String) :
    Proceeds source (source.startGroup groups pendingSummary) source.queue.items ∨
      Proceeds source (source.startGroup groups pendingSummary)
        groups.flatten := by
  cases groups with
  | nil => exact Or.inl of_loopHead
  | cons items rest =>
    simp only [startGroup]
    split
    · exact Or.inl of_loopHead
    · refine Or.inr (of_call ?_ ?_)
      · simp [FollowupCall.awaited]
      · simp [FollowupCall.awaited]

end Proceeds

section Groups

theorem flatten_splitLoop (groups : List (List QueuedItem)) (currentGroup : List QueuedItem)
    (currentKey : Option AuthorizationKey) (items : List QueuedItem) :
    (splitLoop groups currentGroup currentKey items).flatten =
      groups.flatten ++ currentGroup ++ items := by
  induction items generalizing groups currentGroup currentKey with
  | nil =>
    simp only [splitLoop]
    split
    next noGroup => simp [noGroup]
    · simp
  | cons item rest inductionHypothesis =>
    simp only [splitLoop]
    split
    · rw [inductionHypothesis]
      simp
    · rw [inductionHypothesis]
      simp

theorem flatten_splitCollectItemsByAuthorization (items : List QueuedItem) :
    (splitCollectItemsByAuthorization items).flatten = items := by
  simp only [splitCollectItemsByAuthorization]
  split
  · split
    next noItems => simp [noItems]
    · simp
  · simp [flatten_splitLoop]

private theorem ne_nil_of_mem_splitLoop {groups : List (List QueuedItem)}
    {currentGroup : List QueuedItem} {currentKey : Option AuthorizationKey}
    {items : List QueuedItem} (nonempty : ∀ group ∈ groups, group ≠ []) :
    ∀ group ∈ splitLoop groups currentGroup currentKey items, group ≠ [] := by
  have push : currentGroup ≠ [] → ∀ group ∈ groups ++ [currentGroup], group ≠ [] := by
    intro some group member
    rcases mem_append.mp member with earlier | last
    · exact nonempty group earlier
    · obtain rfl := mem_singleton.mp last
      exact some
  induction items generalizing groups currentGroup currentKey with
  | nil =>
    simp only [splitLoop]
    split
    · exact nonempty
    next some => exact push some
  | cons item rest inductionHypothesis =>
    simp only [splitLoop]
    split
    · apply inductionHypothesis nonempty
      intro _ group member
      rcases mem_append.mp member with earlier | last
      · exact nonempty group earlier
      · obtain rfl := mem_singleton.mp last
        simp
    next differs =>
      have some : currentGroup ≠ [] := fun none => differs (Or.inl none)
      apply inductionHypothesis (push some)
      intro _ group member
      rcases mem_append.mp member with earlier | last
      · exact push some group earlier
      · obtain rfl := mem_singleton.mp last
        simp

theorem ne_nil_of_mem_splitCollectItemsByAuthorization {items group : List QueuedItem}
    (member : group ∈ splitCollectItemsByAuthorization items) : group ≠ [] := by
  simp only [splitCollectItemsByAuthorization] at member
  split at member
  · split at member
    · exact absurd member not_mem_nil
    next some =>
      obtain rfl := mem_singleton.mp member
      exact some
  · exact ne_nil_of_mem_splitLoop (by simp) group member

end Groups

theorem Proceeds.of_resolveCollectChecked {source : QueueMachine} (result : CollectDrainResult) :
    Proceeds source (source.resolveCollectChecked result)
      source.queue.items := by
  cases result with
  | empty => exact of_startSummaryOnly _
  | skipped =>
    simp only [QueueMachine.resolveCollectChecked]
    split
    · exact of_startSummaryOnly _
    · have collected := flatten_splitCollectItemsByAuthorization source.queue.items
      rcases of_startGroup source (splitCollectItemsByAuthorization source.queue.items)
          source.previewSummary with all | groups
      · exact all
      · rwa [collected] at groups

end FollowupQueue
