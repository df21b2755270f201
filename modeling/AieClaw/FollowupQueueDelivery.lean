import AieClaw.FollowupQueueLedger

/-!
# Delivery of queued followups

The drain removes by position what it delivered by value. As long as every
resolved call still finds its items where it took them from, each accepted item
leaves the queue for a logged reason and no item is delivered twice.

The position goes wrong in two ways. An enqueue that overflows while a call is
in flight shifts the array, and a summary run takes the head of the queue along
without its prompt.
-/

namespace FollowupQueue

open QueueMachine FollowupCall List TransitionSystem

/--
Whether the call in flight still finds its items where it took them from. A
queue that was cleared in the meantime has nothing left to remove. A sweep also
removes nothing when so much was dropped that its index lies outside.
-/
def keepsPlace (machine : QueueMachine) : QueueAction → Bool
  | .settle _ =>
    match machine.drain with
    | .sweeping _ index _ _ =>
      !machine.inMap || machine.dropsSinceCall = 0 ||
        (machine.queue.items.length ≤ index && index < machine.dropsSinceCall)
    | .running (.individual _) | .running (.group _ _ _ _) =>
      !machine.inMap || machine.dropsSinceCall = 0
    | .running (.summaryWithItem _ _ _) => !machine.inMap
    | _ => true
  | _ => true

/-- Nothing accepted is lost, and nothing is delivered twice or after a drop. -/
structure Accounted (machine : QueueMachine) : Prop where
  acceptedLeft :
    ∀ id,
      QueueEvent.accepted id ∈ machine.log →
      id ∈ ids machine.queue.items ∨ LeftBecause machine.log id
  droppedUndelivered : machine.log.Pairwise DropsUndelivered
  deliveredOnce : (deliveredIds machine.log).Nodup

/-- What the drain captured has a fresh id and has not been delivered. -/
structure CapturedSound (captured : List QueuedItem) (log : List QueueEvent) (nextId : ℕ) :
    Prop where
  nodup : (ids captured).Nodup
  unused : ∀ id ∈ ids captured, id < nextId ∧ id ∉ deliveredIds log

structure Sound (machine : QueueMachine) : Prop where
  items : ItemsSound machine.queue.items machine.log machine.nextId
  captured : CapturedSound machine.drain.captured machine.log machine.nextId
  detached : machine.inMap = false → machine.queue.items = []
  placed : machine.inMap = true → Placed machine

theorem Sound.accounted {machine : QueueMachine} (sound : Sound machine) : Accounted machine where
  acceptedLeft := sound.items.acceptedLeft
  droppedUndelivered := sound.items.dropsUndelivered
  deliveredOnce := sound.items.deliveredOnce

variable {log : List QueueEvent} {nextId : ℕ}

theorem CapturedSound.sublist {captured fewer : List QueuedItem}
    (sound : CapturedSound captured log nextId) (shortened : fewer <+ captured) :
    CapturedSound fewer log nextId where
  nodup := (shortened.map _).nodup sound.nodup
  unused := fun id member => sound.unused id ((shortened.map _).subset member)

theorem ItemsSound.capturedSound {items : List QueuedItem} (sound : ItemsSound items log nextId) :
    CapturedSound items log nextId where
  nodup := sound.nodup
  unused := fun id member => ⟨sound.fresh id member, sound.undelivered id member⟩

section Positions

variable {items : List QueuedItem} {item : QueuedItem} {index : ℕ}

theorem ids_eq_of_getElem? (located : items[index]? = some item) : ids items =
      ids (items.take index) ++ item.id :: ids (items.drop (index + 1)) := by
  obtain ⟨inside, atIndex⟩ := List.getElem?_eq_some_iff.mp located
  have shape : items.take index ++ item :: items.drop (index + 1) = items := by
    rw [← atIndex, getElem_cons_drop inside, take_append_drop]
  calc
    ids items = ids (items.take index ++ item :: items.drop (index + 1)) := by
      rw [shape]
    _ = _ := by simp

theorem ids_eraseIdx : ids (items.eraseIdx index) =
      ids (items.take index) ++ ids (items.drop (index + 1)) := by
  rw [eraseIdx_eq_take_drop_succ, ids_append]

theorem not_mem_ids_eraseIdx (nodup : (ids items).Nodup) (located : items[index]? = some item) :
    item.id ∉ ids (items.eraseIdx index) := by
  rw [ids_eq_of_getElem? located, nodup_middle] at nodup
  rw [ids_eraseIdx]
  exact (nodup_cons.mp nodup).1

theorem mem_ids_eraseIdx (located : items[index]? = some item) {id : ℕ} (member : id ∈ ids items) :
    id ∈ ids (items.eraseIdx index) ∨ id = item.id := by
  rw [ids_eq_of_getElem? located] at member
  rw [ids_eraseIdx]
  rcases mem_append.mp member with before | after
  · exact Or.inl (mem_append_left _ before)
  · rcases mem_cons.mp after with same | behind
    · exact Or.inr same
    · exact Or.inl (mem_append_right _ behind)

theorem not_mem_ids_drop (nodup : (ids items).Nodup) (located : items[index]? = some item)
    {count : ℕ} (past : index < count) : item.id ∉ ids (items.drop count) := by
  rw [ids_eq_of_getElem? located, nodup_middle] at nodup
  have further : items.drop count <+ items.drop (index + 1) :=
    drop_sublist_drop_left items (Nat.succ_le_of_lt past)
  intro member
  have behind : item.id ∈ ids (items.drop (index + 1)) := (further.map _).subset member
  exact (nodup_cons.mp nodup).1 (mem_append_right _ behind)

end Positions

theorem ItemsSound.deliverHead {items : List QueuedItem} (sound : ItemsSound items log nextId)
    (call : FollowupCall) (carried : CapturedSound call.carried log nextId)
    (atHead : call.carried <+: items ∨ items = []) : ItemsSound (items.drop call.carried.length)
      (log ++ [.resolved call]) nextId := by
  apply sound.deliver call (drop_sublist _ _) carried.nodup carried.unused
  · intro id member remains
    rcases atHead with ⟨rest, shape⟩ | noItems
    · have nodup := sound.nodup
      rw [← shape, ids_append] at nodup
      rw [← shape, drop_left] at remains
      exact disjoint_of_nodup_append nodup member remains
    · simp [noItems] at remains
  · intro id member
    rcases atHead with ⟨rest, shape⟩ | noItems
    · rw [← shape, ids_append] at member
      rw [← shape, drop_left]
      exact (mem_append.mp member).symm
    · simp [noItems] at member

namespace Sound

variable {source middle target : QueueMachine} {waiting : List QueuedItem}

theorem of_proceeds (items : ItemsSound source.queue.items source.log source.nextId)
    (detached : source.inMap = false → source.queue.items = [])
    (captured : CapturedSound waiting source.log source.nextId)
    (atHead : source.inMap = true → waiting <+: source.queue.items)
    (proceeds : Proceeds source target waiting) : Sound target := by
  obtain ⟨sameItems, sameLog, sameNextId, inMap, detaches, among, placed⟩ := proceeds
  refine { items := ?_, captured := ?_, detached := ?_, placed := ?_ }
  · rwa [sameItems, sameLog, sameNextId]
  · rw [sameLog, sameNextId]
    exact captured.sublist among
  · intro unmapped
    rw [sameItems]
    cases mapped : source.inMap with
    | false => exact detached mapped
    | true => exact detaches unmapped mapped
  · intro mapped
    exact placed (atHead (inMap mapped))

theorem proceed (items : ItemsSound source.queue.items source.log source.nextId)
    (detached : source.inMap = false → source.queue.items = [])
    (proceeds : Proceeds source target source.queue.items) : Sound target :=
  of_proceeds items detached items.capturedSound (fun _ => prefix_refl _) proceeds

theorem of_same (sound : Sound source) (same : SameLedger source target)
    (drain : target.drain = source.drain) (drops : target.dropsSinceCall = source.dropsSinceCall) :
    Sound target := by
  obtain ⟨sameItems, sameLog, sameNextId, sameInMap⟩ := same
  refine { items := ?_, captured := ?_, detached := ?_, placed := ?_ }
  · rw [sameItems, sameLog, sameNextId]
    exact sound.items
  · rw [drain, sameLog, sameNextId]
    exact sound.captured
  · rw [sameItems, sameInMap]
    exact sound.detached
  · rw [sameInMap]
    intro mapped
    have placed := sound.placed mapped
    simpa only [Placed, drain, drops, sameItems] using placed

theorem schedule (sound : Sound source) : Sound source.schedule := by
  simp only [QueueMachine.schedule]
  split
  · have begun :
        Proceeds (source.withForce false) (source.withForce false).loopHead source.queue.items :=
      .of_loopHead
    exact proceed sound.items sound.detached
      (begun.of_sameLedger (source.sameLedger_withForce false))
  · exact sound

variable {now : ℚ} {run : RunSettings} {item : QueuedItem} {items : List QueuedItem}
  {summary : Option String} {rest : List (List QueuedItem)}

section

variable (sound : Sound source)
include sound

/-- A resolved sweep call removes its own item, or nothing. -/
theorem resolveSweep {phase : SweepPhase} {index dropped : ℕ}
    (drain : source.drain = .sweeping phase index item dropped)
    (keeps : keepsPlace source (.settle now) = true) :
    Sound (source.resolveSweep phase index item dropped now) := by
  have captured := sound.captured
  rw [drain] at captured
  -- Whatever the sweep removes at its index is the item it delivered.
  have removed : item.id ∉ ids (source.queue.items.eraseIdx index) ∧ ∀ id ∈ ids source.queue.items,
          id ∈ ids (source.queue.items.eraseIdx index) ∨ id = item.id := by
    cases mapped : source.inMap with
    | false => simp [sound.detached mapped]
    | true =>
      have placed := sound.placed mapped
      simp only [keepsPlace, drain, mapped, Bool.not_true, Bool.false_or,
        Bool.or_eq_true, Bool.and_eq_true, decide_eq_true_eq] at keeps
      simp only [Placed, drain] at placed
      rcases keeps with noDrops | ⟨outside, allDropped⟩
      · have located : source.queue.items[index]? = some item := by
          simpa [noDrops] using placed
        exact ⟨not_mem_ids_eraseIdx sound.items.nodup located,
          fun id member => mem_ids_eraseIdx located member⟩
      · have absent : item.id ∉ ids source.queue.items := by
          simpa [Nat.not_le.mpr allDropped] using placed
        rw [eraseIdx_of_length_le outside]
        exact ⟨absent, fun id member => Or.inl member⟩
  have delivered :=
    sound.items.deliver (.individual item) (eraseIdx_sublist _ index)
      captured.nodup captured.unused
      (by
        intro id member
        obtain rfl : id = item.id := by
          simpa [carried] using member
        exact removed.1)
      (by
        intro id member
        simpa [carried] using removed.2 id member)
  have recorded :=
    delivered.discard [.swept item.id] (.refl _)
      (by simp [deliveredBy]) (by simp) (by simp)
      (fun id member => Or.inl member)
  have logged : source.log ++ [.resolved (.individual item)] ++ [.swept item.id] =
        source.log ++ [.resolved (.individual item), .swept item.id] := by
    simp
  rw [logged] at recorded
  have detached : source.inMap = false → source.queue.items.eraseIdx index = [] := by
    intro unmapped
    simp [sound.detached unmapped]
  have goesOn : Proceeds (source.removeSwept index item)
        (source.resolveSweep phase index item dropped now) (source.queue.items.eraseIdx index) :=
    .of_continueSweep _ _ _ _
  refine proceed ?_ ?_ goesOn
  · exact recorded
  · exact detached

theorem logCall {call : FollowupCall} (drain : source.drain = .running call)
    (atHead : source.inMap = true → call.awaited <+: source.queue.items) :
    ItemsSound (source.queue.items.drop call.carried.length)
      (source.log ++ [.resolved call]) source.nextId := by
  have captured := sound.captured
  rw [drain] at captured
  have among : call.carried <+: call.awaited := by
    cases call <;> simp [carried, awaited]
  apply sound.items.deliverHead call (captured.sublist among.sublist)
  cases mapped : source.inMap with
  | false => exact Or.inr (sound.detached mapped)
  | true => exact Or.inl (among.trans (atHead mapped))

theorem restCaptured
    (drain : source.drain = .running (.group items summary run rest)) : CapturedSound rest.flatten
      (source.log ++ [.resolved (.group items summary run rest)])
      source.nextId := by
  have captured := sound.captured
  rw [drain] at captured
  have nodup : (ids items ++ ids rest.flatten).Nodup := by
    rw [← ids_append]
    exact captured.nodup
  refine { nodup := (nodup_append.mp nodup).2.1, unused := ?_ }
  intro id member
  have inCaptured : id ∈ ids (items ++ rest.flatten) := by
    simp [member]
  obtain ⟨fresh, undelivered⟩ := captured.unused id inCaptured
  refine ⟨fresh, ?_⟩
  rw [deliveredIds_append]
  intro delivered
  rcases mem_append.mp delivered with before | now
  · exact undelivered before
  · have carried : id ∈ ids items := by
      simpa [deliveredBy, carried] using now
    exact disjoint_of_nodup_append nodup carried member

theorem resolveIndividual (drain : source.drain = .running (.individual item))
    (atHead : source.inMap = true → [item] <+: source.queue.items) :
    Sound (source.resolveCall (.individual item)) := by
  have logged := sound.logCall drain atHead
  simp only [carried, length_singleton, drop_one] at logged
  have detached : source.inMap = false → source.queue.items.tail = [] := by
    intro unmapped
    simp [sound.detached unmapped]
  exact
    { items := logged
      captured :=
        { nodup := nodup_nil
          unused := by simp [resolveCall, DrainPoint.captured] }
      detached := detached
      placed := fun _ => trivial }

theorem resolveSummaryWithItem {prompt : String}
    (drain : source.drain = .running (.summaryWithItem item prompt run))
    (unmapped : source.inMap = false) :
    Sound (source.resolveCall (.summaryWithItem item prompt run)) := by
  have logged := sound.logCall drain (fun _ => nil_prefix)
  have noItems : source.queue.items = [] := sound.detached unmapped
  have noTail : source.queue.items.tail = source.queue.items := by
    rw [noItems, tail_nil]
  simp only [carried, length_nil, drop_zero] at logged
  rw [← noTail] at logged
  exact
    { items := logged
      captured :=
        { nodup := nodup_nil
          unused := by simp [resolveCall, DrainPoint.captured] }
      detached := fun _ => noTail.trans noItems
      placed := fun _ => trivial }

theorem resolveSummaryOnly {prompt : String} {attached : List QueuedItem}
    (drain : source.drain = .running (.summaryOnly prompt run attached)) :
    Sound (source.resolveCall (.summaryOnly prompt run attached)) := by
  have logged := sound.logCall drain (fun _ => nil_prefix)
  simp only [carried, length_nil, drop_zero] at logged
  let cleared :=
    { source with
      log := source.log ++ [.resolved (.summaryOnly prompt run attached)] :
      QueueMachine }.clearSummaryState
  have goesOn : Proceeds cleared cleared.loopHead source.queue.items := .of_loopHead
  refine proceed ?_ ?_ goesOn
  · exact logged
  · exact sound.detached

/-- A resolved group removes its items and leaves the next ones at the head. -/
theorem resolveGroup (drain : source.drain = .running (.group items summary run rest))
    (atHead : source.inMap = true → items ++ rest.flatten <+: source.queue.items) :
    Sound (source.resolveCall (.group items summary run rest)) := by
  have logged := sound.logCall drain atHead
  have captured := sound.restCaptured drain
  have detached : source.inMap = false → source.queue.items.drop items.length = [] := by
    intro unmapped
    simp [sound.detached unmapped]
  have restAtHead : source.inMap = true →
      rest.flatten <+: source.queue.items.drop items.length := by
    intro mapped
    obtain ⟨behind, shape⟩ := atHead mapped
    rw [← shape, append_assoc, drop_left]
    exact prefix_append _ _
  let spliced : QueueMachine :=
    ({ source with
      log := source.log ++ [.resolved (.group items summary run rest)] :
      QueueMachine }.withItems (source.queue.items.drop items.length))
  -- Whether or not a summary is cleared first, the next group begins.
  have begins : ∀ machine : QueueMachine, SameLedger spliced machine →
        Sound (machine.startGroup rest none) := by
    intro machine same
    have itemsSound : ItemsSound machine.queue.items machine.log machine.nextId := by
      rw [same.items, same.log, same.nextId]
      exact logged
    have machineDetached : machine.inMap = false → machine.queue.items = [] := by
      rw [same.items, same.inMap]
      exact detached
    rcases Proceeds.of_startGroup machine rest none with all | waiting
    · exact proceed itemsSound machineDetached all
    · apply of_proceeds itemsSound machineDetached _ _ waiting
      · rw [same.log, same.nextId]
        exact captured
      · rw [same.items, same.inMap]
        exact restAtHead
  simp only [resolveCall]
  split
  · exact begins spliced.clearSummaryState ⟨rfl, rfl, rfl, rfl⟩
  · exact begins spliced ⟨rfl, rfl, rfl, rfl⟩

theorem resolveCall {call : FollowupCall}
    (drain : source.drain = .running call) (keeps : keepsPlace source (.settle now) = true) :
    Sound (source.resolveCall call) := by
  have atHead : source.inMap = true → source.dropsSinceCall = 0 →
      call.awaited <+: source.queue.items := by
    intro mapped noDrops
    have placed := sound.placed mapped
    simp only [Placed, drain] at placed
    exact placed noDrops
  cases call with
  | individual item =>
    apply sound.resolveIndividual drain
    intro mapped
    apply atHead mapped
    simpa [keepsPlace, drain, mapped] using keeps
  | summaryWithItem item prompt run =>
    apply sound.resolveSummaryWithItem drain
    simpa [keepsPlace, drain] using keeps
  | summaryOnly prompt run attached => exact sound.resolveSummaryOnly drain
  | group items summary run rest =>
    apply sound.resolveGroup drain
    intro mapped
    apply atHead mapped
    simpa [keepsPlace, drain, mapped] using keeps

/-- What the drain awaits resolves while the call keeps its place. -/
theorem settle {host : ChannelHost} (keeps : keepsPlace source (.settle now) = true)
    (settled : source.settle host now = some target) : Sound target := by
  have proceeds : Proceeds source target source.queue.items → Sound target :=
    proceed sound.items sound.detached
  simp only [QueueMachine.settle] at settled
  split at settled
  · simp at settled
  next phase index item dropped drain =>
    cases settled
    exact sound.resolveSweep drain keeps
  next phase dropped drain =>
    cases settled
    exact proceeds (.of_resolveSwept host phase dropped)
  · split at settled
    · cases settled
      exact proceeds (.of_waitAt rfl)
    · simp at settled
  · cases settled
    exact proceeds (.of_startSweep _)
  next result drain =>
    cases settled
    exact proceeds (.of_resolveCollectChecked result)
  next call drain =>
    cases settled
    exact sound.resolveCall drain keeps
  · cases settled
    apply proceeds
    split
    · exact Proceeds.of_loopHead.of_sameLedger source.sameLedger_clearSummaryState
    · exact .of_loopHead
  · cases settled
    exact proceeds .of_finish

theorem reject (rejected : source.reject now = some target) : Sound target := by
  have proceeds : Proceeds source target source.queue.items → Sound target :=
    proceed sound.items sound.detached
  have completes : Proceeds source (source.completeSummarySources.fail now)
        source.queue.items := by
    have failed : Proceeds source.completeSummarySources
          (source.completeSummarySources.fail now) source.queue.items :=
      .of_fail now
    exact failed.of_sameLedger source.sameLedger_completeSummarySources
  simp only [QueueMachine.reject] at rejected
  split at rejected
  · cases rejected
    exact proceeds (.of_fail now)
  next call drain =>
    cases rejected
    apply proceeds
    cases call with
    | individual item => exact .of_fail now
    | summaryWithItem item prompt run => exact completes
    | summaryOnly prompt run attached => exact completes
    | group items summary run rest =>
      simp only [rejectCall]
      split
      · exact completes
      · exact .of_fail now
  · simp at rejected

theorem captured_append {events : List QueueEvent}
    (quiet : ∀ event ∈ events, deliveredBy event = []) :
    CapturedSound source.drain.captured (source.log ++ events) source.nextId where
  nodup := sound.captured.nodup
  unused := by
    intro id member
    rw [deliveredIds_append, deliveredIds_eq_nil quiet, append_nil]
    exact sound.captured.unused id member

/-- Dropping from the head moves a swept item to the front, or out. -/
theorem placed_drop {count : ℕ} (mapped : source.inMap = true) (drain : target.drain = source.drain)
    (items : target.queue.items = source.queue.items.drop count)
    (drops : target.dropsSinceCall = source.dropsSinceCall + count) (some : count ≠ 0) :
    Placed target := by
  have placed := sound.placed mapped
  simp only [Placed, drain, items, drops] at placed ⊢
  split at placed
  next phase index item dropped standsAt =>
    split at placed
    next before =>
      split
      next still =>
        rw [getElem?_drop]
        have position : count + (index - (source.dropsSinceCall + count)) =
              index - source.dropsSinceCall := by
          omega
        rwa [position]
      next past =>
        apply not_mem_ids_drop sound.items.nodup placed
        omega
    next gone =>
      have stillGone : ¬source.dropsSinceCall + count ≤ index := by
        omega
      simp only [stillGone, if_false]
      intro member
      have stayed : ids (source.queue.items.drop count) <+ ids source.queue.items :=
        (drop_sublist count _).map _
      exact placed (stayed.subset member)
  next call standsAt =>
    intro noDrops
    omega
  · trivial

/-- The drop policy removes undelivered items from the head. -/
theorem applyDropPolicy (mapped : source.inMap = true) : Sound source.applyDropPolicy := by
  let count := overflowCount source.queue
  let dropped := source.queue.items.take count
  let events := dropped.map fun item => QueueEvent.overflowed item.id
  have inside : count ≤ source.queue.items.length := overflowCount_le source.queue
  have split : ids source.queue.items = ids dropped ++ ids (source.queue.items.drop count) := by
    rw [← ids_append, take_append_drop]
  have quiet : ∀ event ∈ events, deliveredBy event = [] := by
    intro event member
    obtain ⟨item, -, rfl⟩ := mem_map.mp member
    rfl
  have droppedId : ∀ id, QueueEvent.overflowed id ∈ events ↔ id ∈ ids dropped := by
    intro id
    simp [events, ids]
  have shortened : ItemsSound (source.queue.items.drop count) (source.log ++ events)
        source.nextId := by
    apply sound.items.discard events (drop_sublist _ _) quiet
    · intro id accepted
      obtain ⟨item, -, same⟩ := mem_map.mp accepted
      exact absurd same (by simp)
    · intro id overflowed
      apply sound.items.undelivered
      rw [split]
      exact mem_append_left _ ((droppedId id).mp overflowed)
    · intro id member
      rw [split] at member
      rcases mem_append.mp member with left | stays
      · refine Or.inr (.overflowed ?_)
        exact mem_append_right _ ((droppedId id).mpr left)
      · exact Or.inl stays
  -- Both branches of the policy drop the same items and log the same events.
  have dropsHead : ∀ machine : QueueMachine, machine.queue.items = source.queue.items.drop count →
        machine.log = source.log ++ events → machine.nextId = source.nextId →
        machine.inMap = source.inMap → machine.drain = source.drain →
        machine.dropsSinceCall = source.dropsSinceCall + dropped.length → count ≠ 0 →
        Sound machine := by
    intro machine items log nextId inMap drain drops some
    refine { items := ?_, captured := ?_, detached := ?_, placed := ?_ }
    · rwa [items, log, nextId]
    · rw [drain, log, nextId]
      exact sound.captured_append quiet
    · rw [inMap, mapped]
      simp
    · intro _
      have length : dropped.length = count := by
        simp [dropped, inside]
      exact sound.placed_drop mapped drain items (by rw [drops, length]) some
  simp only [QueueMachine.applyDropPolicy]
  split
  · exact sound
  next some =>
    split
    · exact dropsHead _ rfl rfl rfl rfl rfl rfl some
    · exact dropsHead _ rfl rfl rfl rfl rfl rfl some

end

/-- A new item at the end leaves the captured items where they are. -/
theorem pushItem (run : FollowupRun) (sound : Sound source) (mapped : source.inMap = true) :
    Sound (source.pushItem run) := by
  let item : QueuedItem := { run with id := source.nextId }
  have accepted := sound.items.accept item rfl
  have quiet : ∀ event ∈ [QueueEvent.accepted source.nextId], deliveredBy event = [] := by
    simp [deliveredBy]
  have captured := sound.captured_append quiet
  refine { items := accepted, captured := ?_, detached := ?_, placed := ?_ }
  · refine { nodup := captured.nodup, unused := ?_ }
    intro id member
    obtain ⟨below, undelivered⟩ := captured.unused id member
    exact ⟨Nat.lt_succ_of_lt below, undelivered⟩
  · intro unmapped
    exact absurd (mapped.symm.trans unmapped) (by simp)
  · intro _
    have placed := sound.placed mapped
    simp only [Placed, QueueMachine.pushItem] at placed ⊢
    split at placed
    next phase index swept dropped drain =>
      split at placed
      next before =>
        simp only [before, if_true]
        obtain ⟨inside, -⟩ := List.getElem?_eq_some_iff.mp placed
        rw [getElem?_append_left inside]
        exact placed
      next past =>
        simp only [past, if_false]
        rw [ids_append]
        intro member
        rcases mem_append.mp member with old | new
        · exact placed old
        · have same : swept.id = source.nextId := by
            simpa [item] using new
          have captures := sound.captured
          rw [drain] at captures
          have below := (captures.unused swept.id (by simp [DrainPoint.captured])).1
          omega
    next call drain =>
      intro noDrops
      exact (placed noDrops).trans (prefix_append _ _)
    · trivial

/-- An enqueue drops from the head, pushes at the end and may start a drain. -/
theorem enqueue {host : ChannelHost} (request : EnqueueRequest) (sound : Sound source) :
    Sound (source.enqueue host request) := by
  simp only [QueueMachine.enqueue]
  split
  · exact sound
  next admitted =>
    have mapped : source.inMap = true := by
      simp only [not_or, Bool.not_eq_true, Bool.not_eq_false] at admitted
      simpa using admitted.2
    split
    · exact sound.of_same ⟨rfl, rfl, rfl, rfl⟩ rfl rfl
    · let stamped : QueueMachine :=
        { source with
          queue :=
            { applyQueueRuntimeSettings source.queue request.settings with
              lastEnqueuedAt := request.now
              lastRun := some request.run.run } }
      have stampedSound : Sound stamped := sound.of_same ⟨rfl, rfl, rfl, rfl⟩ rfl rfl
      have droppedSound := stampedSound.applyDropPolicy mapped
      have trimmedSound : Sound stamped.applyDropPolicy.trimSummarySources :=
        droppedSound.of_same stamped.applyDropPolicy.sameLedger_trim
          (trim_drain _) (trim_dropsSinceCall _)
      have trimmedMapped : stamped.applyDropPolicy.trimSummarySources.inMap = true := by
        rw [stamped.applyDropPolicy.sameLedger_trim.inMap, applyDropPolicy_inMap]
        exact mapped
      split
      · exact trimmedSound
      · have pushedSound := trimmedSound.pushItem request.run trimmedMapped
        split
        · exact pushedSound.schedule
        · exact pushedSound

theorem clear (sound : Sound source) : Sound source.clear := by
  simp only [QueueMachine.clear]
  split
  · let events := source.queue.items.map fun item => QueueEvent.cleared item.id
    have quiet : ∀ event ∈ events, deliveredBy event = [] := by
      intro event member
      obtain ⟨item, -, rfl⟩ := mem_map.mp member
      rfl
    refine
      { items := ?_
        captured := sound.captured_append quiet
        detached := fun _ => rfl
        placed := by simp }
    apply sound.items.discard events (nil_sublist _) quiet
    · intro id accepted
      obtain ⟨item, -, same⟩ := mem_map.mp accepted
      exact absurd same (by simp)
    · intro id overflowed
      obtain ⟨item, -, same⟩ := mem_map.mp overflowed
      exact absurd same (by simp)
    · intro id member
      obtain ⟨item, inQueue, rfl⟩ := mem_map.mp member
      refine Or.inr (.cleared (mem_append_right _ ?_))
      exact mem_map_of_mem inQueue
  · exact sound

theorem initial {machine : QueueMachine} (isInitial : Initial machine) : Sound machine := by
  obtain ⟨settings, rfl⟩ := isInitial
  exact
    { items := .empty
      captured :=
        { nodup := nodup_nil
          unused := by simp [created, DrainPoint.captured] }
      detached := fun _ => rfl
      placed := fun _ => trivial }

end Sound

theorem sound_step (host : ChannelHost) : Preserves
      (Restricted (step host) fun machine action => keepsPlace machine action = true)
      Sound := by
  intro source action target taken sound
  obtain ⟨keeps, performed⟩ := taken
  cases action with
  | enqueue request =>
    cases performed
    exact sound.enqueue request
  | schedule =>
    cases performed
    exact sound.schedule
  | settle now => exact sound.settle keeps performed
  | reject now => exact sound.reject performed
  | abort signal =>
    cases performed
    exact sound.of_same ⟨rfl, rfl, rfl, rfl⟩ rfl rfl
  | clear =>
    cases performed
    exact sound.clear

/--
In every run whose resolved calls find their items where they took them from,
an accepted item leaves the queue only because its prompt was delivered, the
drop policy dropped it undelivered, it was swept as aborted or the queue was
cleared, and no item is delivered twice.
-/
theorem accounted_of_run {host : ChannelHost} {start finish : QueueMachine}
    {actions : List QueueAction} (isInitial : Initial start)
    (run :
      Run
        (Restricted (step host) fun machine action => keepsPlace machine action = true)
        start actions finish) : Accounted finish :=
  (run.invariant (sound_step host) (Sound.initial isInitial)).accounted

/-- A host that knows every channel. -/
private def echoHost : ChannelHost := ⟨id, fun _ => true⟩

/-- Room for one item, and the older one makes way. -/
private def capOne : QueueSettings where
  mode := .followup
  cap := some 1
  dropPolicy := some .old
  debounceMs := some 0

/-- A prompt without routing or metadata, enqueued at time zero. -/
private def promptRequest (settings : QueueSettings) (prompt : String) : EnqueueRequest where
  run := { prompt := prompt, run := {} }
  settings := settings
  dedupeMode := .none
  recentlyQueued := false
  restart := true
  now := 0

private def untilOverflow : List QueueAction :=
  [.enqueue (promptRequest capOne "first"), .settle 0, .settle 0, .settle 0, .settle 0,
    .enqueue (promptRequest capOne "second"), .settle 0]

private def capTwo : QueueSettings := { capOne with cap := some 2 }

/-- The first of three items is dropped, and a fourth one comes while the third is in flight. -/
private def untilDelivered : List QueueAction :=
  ["first", "second", "third"].map (fun prompt => .enqueue (promptRequest capTwo prompt)) ++
    replicate 10 (.settle 0) ++ .enqueue (promptRequest capTwo "fourth") :: replicate 7 (.settle 0)

theorem accounted_of_run_fourItems :
    ∃ finish,
      Run
          (Restricted (step echoHost) fun machine action => keepsPlace machine action = true)
          (.created capTwo) untilDelivered finish ∧
        deliveredIds finish.log = [1, 2, 3] ∧
        Accounted finish := by
  have delivers : (untilDelivered.foldlM (fun source action =>
            if keepsPlace source action then step? echoHost source action
            else none) (created capTwo)).map
          (fun finish : QueueMachine => deliveredIds finish.log) = some [1, 2, 3] := by
    decide +kernel
  obtain ⟨finish, executed, delivered⟩ := Option.map_eq_some_iff.mp delivers
  have run := Run.restricted_of_foldlM executed
  exact ⟨finish, run, delivered, accounted_of_run ⟨capTwo, rfl⟩ run⟩

/-- Whether the second item is gone without any of the four reasons. -/
private def losesSecond (machine : QueueMachine) : Bool :=
  .accepted 1 ∈ machine.log ∧ 1 ∉ ids machine.queue.items ∧
    1 ∉ deliveredIds machine.log ∧ .overflowed 1 ∉ machine.log ∧
    .swept 1 ∉ machine.log ∧ .cleared 1 ∉ machine.log

/--
While the first item is in flight, the second one overflows it out of the
array. The call resolves and the shift removes the second item.
-/
theorem not_accounted_of_overflow :
    ¬ ∀ (host : ChannelHost) (start finish : QueueMachine)
        (actions : List QueueAction),
        Initial start →
        Run (step host) start actions finish →
        Accounted finish := by
  intro always
  have loses : (untilOverflow.foldlM (step? echoHost) (created capOne)).map losesSecond =
        some true := by
    decide +kernel
  obtain ⟨finish, executed, lost⟩ := Option.map_eq_some_iff.mp loses
  have accounted := always echoHost _ finish _ ⟨capOne, rfl⟩ (Run.of_foldlM executed)
  simp only [losesSecond, decide_eq_true_eq] at lost
  obtain ⟨accepted, absent, undelivered, kept, unswept, uncleared⟩ := lost
  rcases accounted.acceptedLeft 1 accepted with present | left
  · exact absent present
  · cases left with
    | delivered member => exact undelivered member
    | overflowed member => exact kept member
    | swept member => exact unswept member
    | cleared member => exact uncleared member

end FollowupQueue
