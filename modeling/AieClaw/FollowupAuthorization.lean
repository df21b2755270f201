import AieClaw.FollowupQueueLedger
import Mathlib.Data.List.SplitBy

/-!
# Authorization of collected batches

The batches of a collecting round are the longest stretches of queued items with one
authorization key, and each batch runs with the settings of its newest item. A summary of
messages that the cap has dropped goes with the first batch, whoever sent them.
-/

namespace FollowupQueue

open TransitionSystem QueueMachine List

def sameAuthorization (item other : QueuedItem) : Bool :=
  resolveFollowupAuthorizationKey item.run = resolveFollowupAuthorizationKey other.run

variable {items : List QueuedItem} {machine : QueueMachine}

theorem splitLoop_eq_loop (groups : List (List QueuedItem)) (group : List QueuedItem)
    (previous : QueuedItem) (items : List QueuedItem) :
    splitLoop groups.reverse (previous :: group).reverse
        (some (resolveFollowupAuthorizationKey previous.run)) items =
      List.splitBy.loop sameAuthorization items previous group groups := by
  induction items generalizing groups group previous with
  | nil => simp [splitLoop, List.splitBy.loop]
  | cons item rest inductionHypothesis =>
    rw [splitLoop, List.splitBy.loop]
    cases same : sameAuthorization previous item with
    | true =>
      have sameKey := of_decide_eq_true same
      rw [if_pos (Or.inr (congrArg some sameKey)), ← reverse_cons]
      exact inductionHypothesis groups (previous :: group) item
    | false =>
      have otherKey := of_decide_eq_false same
      have starts : ¬ ((previous :: group).reverse = [] ∨
          some (resolveFollowupAuthorizationKey previous.run) =
            some (resolveFollowupAuthorizationKey item.run)) := by
        simp [otherKey]
      rw [if_neg starts, ← reverse_cons]
      exact inductionHypothesis ((previous :: group).reverse :: groups) [] item

theorem splitCollectItemsByAuthorization_eq (items : List QueuedItem) :
    splitCollectItemsByAuthorization items = items.splitBy sameAuthorization := by
  cases items with
  | nil => rfl
  | cons first rest =>
    cases rest with
    | nil => rfl
    | cons second later =>
      have several : ¬ (first :: second :: later).length ≤ 1 := by simp
      rw [splitCollectItemsByAuthorization, if_neg several, splitLoop, if_pos (Or.inl rfl)]
      exact splitLoop_eq_loop [] [] first (second :: later)

/-- The items in order, in groups of one authorization key that differs from the next. -/
structure GroupsByAuthorization (items : List QueuedItem)
    (groups : List (List QueuedItem)) : Prop where
  flatten : groups.flatten = items
  nonempty : ∀ group ∈ groups, group ≠ []
  shared : ∀ group ∈ groups, ∀ item ∈ group, ∀ other ∈ group,
    resolveFollowupAuthorizationKey item.run = resolveFollowupAuthorizationKey other.run
  apart : groups.IsChain fun group next => ∀ item ∈ group, ∀ other ∈ next,
    resolveFollowupAuthorizationKey item.run ≠ resolveFollowupAuthorizationKey other.run

theorem shared_of_mem_splitBy {group : List QueuedItem}
    (member : group ∈ items.splitBy sameAuthorization) : ∀ item ∈ group, ∀ other ∈ group,
      resolveFollowupAuthorizationKey item.run = resolveFollowupAuthorizationKey other.run := by
  have chain : (group.map fun item => resolveFollowupAuthorizationKey item.run).IsChain
      (· = ·) := by
    rw [isChain_map]
    exact (isChain_of_mem_splitBy member).imp fun _ _ same => of_decide_eq_true same
  have keys := (isChain_iff_pairwise.mp chain).forall_of_forall fun _ _ => rfl
  exact fun item isItem other isOther =>
    keys (mem_map_of_mem isItem) (mem_map_of_mem isOther)

theorem groupsByAuthorization_split (items : List QueuedItem) :
    GroupsByAuthorization items (splitCollectItemsByAuthorization items) := by
  rw [splitCollectItemsByAuthorization_eq]
  refine ⟨flatten_splitBy _ _, fun _ member => ne_nil_of_mem_splitBy member,
    fun _ member => shared_of_mem_splitBy member, ?_⟩
  refine List.IsChain.imp_of_mem_imp (fun group next isGroup isNext differ => ?_)
    (isChain_getLast_head_splitBy sameAuthorization items)
  obtain ⟨someGroup, someNext, differ⟩ := differ
  intro item isItem other isOther same
  refine of_decide_eq_false differ ?_
  calc resolveFollowupAuthorizationKey (group.getLast someGroup).run
      = resolveFollowupAuthorizationKey item.run :=
        shared_of_mem_splitBy isGroup _ (getLast_mem someGroup) item isItem
    _ = resolveFollowupAuthorizationKey other.run := same
    _ = resolveFollowupAuthorizationKey (next.head someNext).run :=
        shared_of_mem_splitBy isNext other isOther _ (head_mem someNext)

/-- The call of `runFollowup` that the drain awaits. -/
def QueueMachine.calling (machine : QueueMachine) : Option FollowupCall :=
  match machine.drain with
  | .running call => some call
  | .sweeping _ _ item _ => some (.individual item)
  | _ => none

/--
A collected group is one of those of a snapshot of the queue and runs with the settings of
one of its items; a summary goes with the first group only.
-/
structure FromSnapshot (items : List QueuedItem) (summary : Option String)
    (run : RunSettings) (rest : List (List QueuedItem)) : Prop where
  own : ∃ item ∈ items, run = item.run
  snapshot : ∃ queued earlier,
    splitCollectItemsByAuthorization queued = earlier ++ items :: rest ∧
      (summary ≠ none → earlier = [])

/-- The prompts that a call carries run with their own authorization. -/
structure FollowupCall.OwnAuthorization (call : FollowupCall) : Prop where
  carried : ∀ item ∈ call.carried,
    resolveFollowupAuthorizationKey call.passed.run = resolveFollowupAuthorizationKey item.run
  collected : ∀ items summary run rest, call = .group items summary run rest →
    call.passed.run = run ∧ FromSnapshot items summary run rest

theorem FromSnapshot.ownAuthorization {summary : Option String}
    {run : RunSettings} {rest : List (List QueuedItem)}
    (fromSnapshot : FromSnapshot items summary run rest) :
    (FollowupCall.group items summary run rest).OwnAuthorization := by
  have whole := fromSnapshot
  obtain ⟨⟨owner, isOwner, rfl⟩, queued, earlier, split, _⟩ := fromSnapshot
  constructor
  · intro item isItem
    have member : items ∈ splitCollectItemsByAuthorization queued := by
      rw [split]
      exact mem_append_right _ mem_cons_self
    exact (groupsByAuthorization_split queued).shared items member owner isOwner item isItem
  · intro otherItems otherSummary otherRun otherRest same
    obtain ⟨rfl, rfl, rfl, rfl⟩ := FollowupCall.group.inj same
    exact ⟨rfl, whole⟩

theorem ownAuthorization_individual (item : QueuedItem) :
    (FollowupCall.individual item).OwnAuthorization := by
  constructor
  · intro other isOther
    rw [mem_singleton.mp isOther]
    rfl
  · intro items summary run rest same
    exact absurd same (by simp)

/-- What stands behind the await of a collected group. -/
def GroupsFromSnapshots (machine : QueueMachine) : Prop :=
  ∀ items summary run rest, machine.drain = .running (.group items summary run rest) →
    FromSnapshot items summary run rest

theorem GroupsFromSnapshots.ownAuthorization
    (sound : GroupsFromSnapshots machine) {call : FollowupCall}
    (isCalling : machine.calling = some call) : call.OwnAuthorization := by
  unfold calling at isCalling
  split at isCalling
  · rename_i running drain
    obtain rfl := Option.some.inj isCalling
    cases running with
    | individual item => exact ownAuthorization_individual item
    | summaryWithItem item prompt run =>
      exact ⟨fun _ member => absurd member not_mem_nil, fun _ _ _ _ same => absurd same (by simp)⟩
    | summaryOnly prompt run attached =>
      exact ⟨fun _ member => absurd member not_mem_nil, fun _ _ _ _ same => absurd same (by simp)⟩
    | group items summary run rest => exact (sound items summary run rest drain).ownAuthorization
  · obtain rfl := Option.some.inj isCalling
    exact ownAuthorization_individual _
  · exact absurd isCalling (by simp)

/-- The drain does not stand at a collected group. -/
def AtNoGroup (machine : QueueMachine) : Prop :=
  ∀ items summary run rest, machine.drain ≠ .running (.group items summary run rest)

theorem AtNoGroup.groupsFromSnapshots (noGroup : AtNoGroup machine) : GroupsFromSnapshots machine :=
  fun items summary run rest drain => absurd drain (noGroup items summary run rest)

namespace AtNoGroup

variable {machine : QueueMachine}

theorem waitAt {point : DrainPoint} (notRunning : ∀ call, point ≠ .running call) :
    AtNoGroup (machine.waitAt point) :=
  fun _ _ _ _ => notRunning _

theorem call {call : FollowupCall}
    (notGroup : ∀ items summary run rest, call ≠ .group items summary run rest) :
    AtNoGroup (machine.call call) :=
  fun items summary run rest drain =>
    notGroup items summary run rest (DrainPoint.running.inj drain)

theorem sweeping {phase : SweepPhase} {index dropped : ℕ} {item : QueuedItem} :
    AtNoGroup (machine.callAt (.sweeping phase index item dropped)) :=
  fun _ _ _ _ drain => absurd drain (by simp)

theorem startSweep (phase : SweepPhase) : AtNoGroup (machine.startSweep phase) := by
  rcases machine.startSweep_cases phase with ⟨index, item, begun, -⟩ | ⟨begun, -⟩
  · rw [begun]
    exact sweeping
  · rw [begun]
    exact waitAt (by simp)

theorem finish : AtNoGroup machine.finish := by
  rcases machine.finish_cases with ⟨-, ended⟩ | ⟨-, -, ended⟩ | ⟨-, -, ended⟩
  · rw [ended]
    exact fun _ _ _ _ drain => absurd drain (by simp)
  · rw [ended]
    exact startSweep _
  · rw [ended]
    exact waitAt (by simp)

theorem loopHead : AtNoGroup machine.loopHead := by
  unfold QueueMachine.loopHead
  split
  · exact finish
  · exact startSweep _

theorem continueSweep (phase : SweepPhase) (bound dropped : ℕ) (now : ℚ) :
    AtNoGroup (machine.continueSweep phase bound dropped now) := by
  unfold QueueMachine.continueSweep
  split
  · exact finish
  · exact waitAt (by simp)
  · exact sweeping

theorem drainRound (host : ChannelHost) : AtNoGroup (machine.drainRound host) := by
  unfold QueueMachine.drainRound
  split
  · rcases machine.drainCollect_cases host with
      ⟨force, begun⟩ | ⟨-, begun⟩ | ⟨item, rest, -, begun⟩
    · rw [begun]
      exact waitAt (by simp)
    · rw [begun]
      exact waitAt (by simp)
    · rw [begun]
      exact call (by simp)
  · rcases machine.drainNext_cases with
      ⟨-, -, begun⟩ | ⟨-, begun⟩ | ⟨prompt, run, item, rest, -, -, begun⟩ |
        ⟨item, rest, -, -, begun⟩
    · rw [begun]
      exact finish
    · rw [begun]
      exact waitAt (by simp)
    · rw [begun]
      exact call (by simp)
    · rw [begun]
      exact call (by simp)

theorem resolveSwept (host : ChannelHost) (phase : SweepPhase) (dropped : ℕ) :
    AtNoGroup (machine.resolveSwept host phase dropped) := by
  rcases machine.resolveSwept_cases host phase dropped with ⟨idle, -⟩ | ⟨-, -, begun⟩
  · exact fun _ _ _ _ drain => absurd (idle.symm.trans drain) (by simp)
  · rw [begun]
    cases phase with
    | beforeDebounce => exact waitAt (by simp)
    | afterDebounce => exact drainRound host

theorem startSummaryOnly (attached : List QueuedItem) :
    AtNoGroup (machine.startSummaryOnly attached) := by
  rcases machine.startSummaryOnly_cases attached with ⟨prompt, run, -, begun⟩ | ⟨-, begun⟩
  · rw [begun]
    exact call (by simp)
  · rw [begun]
    exact finish

end AtNoGroup

namespace GroupsFromSnapshots

variable {source target : QueueMachine}

theorem startGroup {machine : QueueMachine} {queued : List QueuedItem}
    {earlier groups : List (List QueuedItem)} {summary : Option String}
    (split : splitCollectItemsByAuthorization queued = earlier ++ groups)
    (first : summary ≠ none → earlier = []) :
    GroupsFromSnapshots (machine.startGroup groups summary) := by
  cases groups with
  | nil => exact AtNoGroup.loopHead.groupsFromSnapshots
  | cons items rest =>
    have member : items ∈ splitCollectItemsByAuthorization queued := by
      rw [split]
      exact mem_append_right _ mem_cons_self
    have someItem := (groupsByAuthorization_split queued).nonempty items member
    have newest : items.getLast? = some (items.getLast someItem) :=
      getLast?_eq_some_getLast someItem
    unfold QueueMachine.startGroup
    dsimp only
    rw [newest]
    intro otherItems otherSummary run otherRest drain
    obtain ⟨rfl, rfl, rfl, rfl⟩ := FollowupCall.group.inj (DrainPoint.running.inj drain)
    exact ⟨⟨_, getLast_mem someItem, rfl⟩, queued, earlier, split, first⟩

theorem resolveCollectChecked (result : CollectDrainResult) :
    GroupsFromSnapshots (source.resolveCollectChecked result) := by
  cases result with
  | empty => exact (AtNoGroup.startSummaryOnly _).groupsFromSnapshots
  | skipped =>
    unfold QueueMachine.resolveCollectChecked
    dsimp only
    split
    · exact (AtNoGroup.startSummaryOnly _).groupsFromSnapshots
    · exact startGroup (nil_append _).symm fun _ => rfl

theorem resolveCall {call : FollowupCall} (sound : GroupsFromSnapshots source)
    (drain : source.drain = .running call) : GroupsFromSnapshots (source.resolveCall call) := by
  cases call with
  | individual item => exact (AtNoGroup.waitAt (by simp)).groupsFromSnapshots
  | summaryWithItem item prompt run => exact (AtNoGroup.waitAt (by simp)).groupsFromSnapshots
  | summaryOnly prompt run attached => exact AtNoGroup.loopHead.groupsFromSnapshots
  | group items summary run rest =>
    obtain ⟨-, queued, earlier, split, -⟩ := sound items summary run rest drain
    have next : splitCollectItemsByAuthorization queued = (earlier ++ [items]) ++ rest := by
      rw [split, append_assoc, singleton_append]
    exact startGroup next fun none => absurd rfl none

theorem settle {host : ChannelHost} {now : ℚ} (sound : GroupsFromSnapshots source)
    (settled : source.settle host now = some target) : GroupsFromSnapshots target := by
  unfold QueueMachine.settle at settled
  split at settled
  · exact absurd settled (by simp)
  · cases settled
    exact (AtNoGroup.continueSweep _ _ _ _).groupsFromSnapshots
  · cases settled
    exact (AtNoGroup.resolveSwept _ _ _).groupsFromSnapshots
  · split at settled
    · cases settled
      exact (AtNoGroup.waitAt (by simp)).groupsFromSnapshots
    · exact absurd settled (by simp)
  · cases settled
    exact (AtNoGroup.startSweep _).groupsFromSnapshots
  · cases settled
    exact resolveCollectChecked _
  · rename_i drain
    cases settled
    exact sound.resolveCall drain
  · cases settled
    exact AtNoGroup.loopHead.groupsFromSnapshots
  · cases settled
    exact AtNoGroup.finish.groupsFromSnapshots

theorem reject {now : ℚ} (rejected : source.reject now = some target) :
    GroupsFromSnapshots target := by
  unfold QueueMachine.reject at rejected
  split at rejected
  · cases rejected
    exact AtNoGroup.finish.groupsFromSnapshots
  · rename_i call _
    cases rejected
    cases call with
    | individual item => exact AtNoGroup.finish.groupsFromSnapshots
    | summaryWithItem item prompt run => exact AtNoGroup.finish.groupsFromSnapshots
    | summaryOnly prompt run attached => exact AtNoGroup.finish.groupsFromSnapshots
    | group items summary run rest =>
      unfold rejectCall
      dsimp only
      split
      · exact AtNoGroup.finish.groupsFromSnapshots
      · exact AtNoGroup.finish.groupsFromSnapshots
  · exact absurd rejected (by simp)

theorem schedule (sound : GroupsFromSnapshots source) : GroupsFromSnapshots source.schedule := by
  unfold QueueMachine.schedule
  split
  · exact AtNoGroup.loopHead.groupsFromSnapshots
  · exact sound

theorem of_drain (sound : GroupsFromSnapshots source) (same : target.drain = source.drain) :
    GroupsFromSnapshots target :=
  fun items summary run rest drain => sound items summary run rest (same.symm.trans drain)

theorem drain_applyDropPolicy (machine : QueueMachine) :
    machine.applyDropPolicy.drain = machine.drain := by
  unfold applyDropPolicy
  dsimp only
  split
  · rfl
  · split
    · rfl
    · rfl

theorem enqueue {host : ChannelHost} {request : EnqueueRequest}
    (sound : GroupsFromSnapshots source) : GroupsFromSnapshots (source.enqueue host request) := by
  unfold QueueMachine.enqueue
  split
  · exact sound
  · dsimp only
    split
    · exact sound.of_drain rfl
    · split
      · refine sound.of_drain ?_
        rw [trim_drain, drain_applyDropPolicy]
      · have pushed : GroupsFromSnapshots (pushItem
            (trimSummarySources (applyDropPolicy { source with
                queue :=
                  { applyQueueRuntimeSettings source.queue request.settings with
                    lastEnqueuedAt := request.now
                    lastRun := some request.run.run } })) request.run) := by
          refine sound.of_drain ?_
          rw [pushItem]
          dsimp only
          rw [trim_drain, drain_applyDropPolicy]
        split
        · exact pushed.schedule
        · exact pushed

end GroupsFromSnapshots

theorem groupsFromSnapshots_step (host : ChannelHost) :
    Preserves (step host) GroupsFromSnapshots := by
  intro source action target taken sound
  cases action with
  | enqueue request =>
    cases taken
    exact sound.enqueue
  | schedule =>
    cases taken
    exact sound.schedule
  | settle now => exact sound.settle taken
  | reject now => exact GroupsFromSnapshots.reject taken
  | abort signal =>
    cases taken
    exact sound.of_drain rfl
  | clear =>
    cases taken
    unfold clear
    split
    · exact sound.of_drain rfl
    · exact sound

/--
The groups of any queue are its items in order, each with one key that differs from the
next one's, and in every reachable state the call in flight runs the prompts that it
carries with their own authorization: a collected one with the settings of an item of its
group. A summary goes with the first group of a snapshot.
-/
theorem ownAuthorization_of_reachable :
    (∀ items, GroupsByAuthorization items (splitCollectItemsByAuthorization items)) ∧
      ∀ host machine call, Reachable (step host) Initial machine →
        machine.calling = some call → call.OwnAuthorization := by
  refine ⟨groupsByAuthorization_split, fun host machine call reachable isCalling => ?_⟩
  have initially : ∀ ⦃start⦄, Initial start → GroupsFromSnapshots start := by
    rintro start ⟨settings, rfl⟩ items summary run rest drain
    exact absurd drain (by simp [created])
  exact (Reachable.invariant initially (groupsFromSnapshots_step host)
    reachable).ownAuthorization isCalling

section Examples

def knownChannels : ChannelHost := ⟨id, fun _ => true⟩

/-- A message of a sender to a queue with room for one. -/
def messageOf (senderId prompt : String) (restart : Bool) : EnqueueRequest where
  run := { prompt := prompt, run := { senderId := some senderId } }
  settings :=
    { mode := .collect, cap := some 1, dropPolicy := some .summarize, debounceMs := some 0 }
  dedupeMode := .none
  recentlyQueued := false
  restart := restart
  now := 0

def collectSettings : QueueSettings where
  mode := .collect
  cap := some 1
  dropPolicy := some .summarize
  debounceMs := some 0

/-- A guest's message overflows before the owner's one is collected. -/
def guestThenOwner : List QueueAction :=
  [.enqueue (messageOf "guest" "list my files" false),
    .enqueue (messageOf "owner" "hello" true), .settle 0, .settle 0, .settle 0, .settle 0,
    .settle 0]

/-- The call in flight runs with the owner's settings and tells a guest's summarized prompt. -/
def tellsGuestAsOwner (machine : QueueMachine) : Bool :=
  machine.calling.any fun call =>
    call.passed.run.senderId = some "owner" &&
      machine.queue.summarySources.any fun item =>
        item.run.senderId = some "guest" && JsString.includesText call.passed.prompt item.prompt

theorem tellsGuestAsOwner_guestThenOwner :
    ((guestThenOwner.foldlM (step? knownChannels) (created collectSettings)).any
      tellsGuestAsOwner) = true := by
  decide +kernel

end Examples

/-- The owner's message is collected on its own, with the summary of the guest's. -/
theorem ownAuthorization_of_reachable_owner :
    ∃ machine call, Reachable (step knownChannels) Initial machine ∧
      machine.calling = some call ∧ call.OwnAuthorization := by
  obtain ⟨machine, executed, tells⟩ := (Option.any_eq_true _ _).mp tellsGuestAsOwner_guestThenOwner
  obtain ⟨call, isCalling, _⟩ := (Option.any_eq_true _ _).mp tells
  have reachable : Reachable (step knownChannels) Initial machine :=
    ⟨_, guestThenOwner, ⟨collectSettings, rfl⟩, Run.of_foldlM executed⟩
  exact ⟨machine, call, reachable, isCalling,
    ownAuthorization_of_reachable.2 knownChannels machine call reachable isCalling⟩

/-- A prompt that was dropped and summarized runs with the authorization of another sender. -/
theorem not_everyPrompt_ownAuthorization :
    ¬ ∀ host machine call, Reachable (step host) Initial machine →
      machine.calling = some call →
        ∀ item ∈ call.carried ++ machine.queue.summarySources,
          JsString.includesText call.passed.prompt item.prompt = true →
            resolveFollowupAuthorizationKey call.passed.run =
              resolveFollowupAuthorizationKey item.run := by
  intro everyPrompt
  obtain ⟨machine, executed, tells⟩ := (Option.any_eq_true _ _).mp tellsGuestAsOwner_guestThenOwner
  obtain ⟨call, isCalling, asOwner⟩ := (Option.any_eq_true _ _).mp tells
  rw [Bool.and_eq_true] at asOwner
  obtain ⟨item, isSource, asGuest⟩ := any_eq_true.mp asOwner.2
  rw [Bool.and_eq_true] at asGuest
  have same := everyPrompt knownChannels machine call
    ⟨_, guestThenOwner, ⟨collectSettings, rfl⟩, Run.of_foldlM executed⟩ isCalling item
    (mem_append_right _ isSource) asGuest.2
  have senders := congrArg AuthorizationKey.senderId same
  have owner := of_decide_eq_true asOwner.1
  have guest := of_decide_eq_true asGuest.1
  unfold resolveFollowupAuthorizationKey at senders
  dsimp only at senders
  rw [owner, guest] at senders
  exact absurd senders (by decide)

end FollowupQueue
