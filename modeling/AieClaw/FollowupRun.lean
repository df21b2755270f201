import Mathlib.Data.Rat.Floor
import AieClaw.SessionKeys

/-!
# Followup runs

The data of `src/auto-reply/reply/queue/types.ts` and the pure functions on it:
the texts of `src/utils/queue-helpers.ts`, the routing keys of
`src/plugin-sdk/channel-route.ts`, and the grouping and metadata helpers of
`src/auto-reply/reply/queue/drain.ts`.

Abort signals, lifecycles and delivery correlations are objects that the queue
only compares and calls; a natural number stands for each.
-/

namespace FollowupQueue

open SessionKeys

inductive ExecTarget where
  | auto
  | sandbox
  | gateway
  | node
  deriving DecidableEq

inductive ExecSecurity where
  | deny
  | allowlist
  | full
  deriving DecidableEq

inductive ExecAsk where
  | off
  | onMiss
  | always
  deriving DecidableEq

inductive ElevatedLevel where
  | off
  | on
  | ask
  | full
  deriving DecidableEq

structure ExecOverrides where
  host : Option ExecTarget := none
  security : Option ExecSecurity := none
  ask : Option ExecAsk := none
  node : Option String := none
  deriving DecidableEq

structure BashElevated where
  enabled : Bool
  allowed : Bool
  defaultLevel : ElevatedLevel
  deriving DecidableEq

/-- The fields of `FollowupRun["run"]` that the queue reads. -/
structure RunSettings where
  senderId : Option String := none
  senderName : Option String := none
  senderUsername : Option String := none
  senderE164 : Option String := none
  senderIsOwner : Option Bool := none
  execOverrides : Option ExecOverrides := none
  bashElevated : Option BashElevated := none
  deriving DecidableEq

/-- A thread id is a number for topics and a text for other threads. -/
inductive ThreadId where
  | number (value : ℤ)
  | text (value : String)
  deriving DecidableEq

inductive InboundEventKind where
  | userRequest
  | roomEvent
  deriving DecidableEq

structure InboundPromptContext where
  text : String
  promptJoiner : Option String
  deriving DecidableEq

/-- A signal is aborted as soon as one of its sources is. -/
structure AbortSignal where
  sources : List ℕ
  deriving DecidableEq

structure QueuedImage where
  data : String
  mimeType : String
  deriving DecidableEq

inductive PromptImageOrderEntry where
  | inline
  | offloaded
  deriving DecidableEq

structure FollowupRun where
  prompt : String
  currentInboundEventKind : Option InboundEventKind := none
  currentInboundContext : Option InboundPromptContext := none
  abortSignal : Option AbortSignal := none
  deliveryCorrelations : Option (List ℕ) := none
  queuedLifecycle : Option ℕ := none
  messageId : Option String := none
  summaryLine : Option String := none
  images : Option (List QueuedImage) := none
  imageOrder : Option (List PromptImageOrderEntry) := none
  originatingChannel : Option String := none
  originatingTo : Option String := none
  originatingAccountId : Option String := none
  originatingThreadId : Option ThreadId := none
  run : RunSettings
  deriving DecidableEq

/-- A run in the queue. The id is the identity of its acceptance. -/
structure QueuedItem extends FollowupRun where
  id : ℕ
  deriving DecidableEq

inductive QueueMode where
  | steer
  | followup
  | collect
  | interrupt
  deriving DecidableEq

inductive QueueDropPolicy where
  | old
  | new
  | summarize
  deriving DecidableEq

structure QueueSettings where
  mode : QueueMode
  debounceMs : Option ℚ := none
  cap : Option ℚ := none
  dropPolicy : Option QueueDropPolicy := none

inductive QueueDedupeMode where
  | messageId
  | prompt
  | none
  deriving DecidableEq

/-- What the host provides: lowercasing, and the registered channels. -/
structure ChannelHost where
  toLowerCase : String → String
  isRegisteredChannel : String → Bool

/-- Whether the abort signal of a run is aborted. -/
def isFollowupRunAborted (aborted : List ℕ) (run : FollowupRun) : Bool :=
  match run.abortSignal with
  | none => false
  | some signal => signal.sources.any fun source => aborted.contains source

/-- An optional text that the host treats as true: present and not empty. -/
def isTruthyText (text : Option String) : Bool := text.any (· ≠ "")

section Texts

def elideQueueText (text : String) (limit : ℕ) : String :=
  if JsString.length text ≤ limit then text
  else JsString.trimEnd (JsString.sliceStart text (limit - 1)) ++ "…"

def buildQueueSummaryLine (text : String) : String :=
  elideQueueText (JsString.trim (JsString.collapseWhitespace text)) 160

/-- The text that stands for a dropped run in the summary. -/
def summarizeDropped (run : FollowupRun) : String :=
  (run.summaryLine.bind normalizeOptionalString).getD (JsString.trim run.prompt)

/-- `previewQueueSummaryPrompt` for the noun "message". -/
def previewQueueSummaryPrompt (dropPolicy : QueueDropPolicy) (droppedCount : ℕ)
    (summaryLines : List String) : Option String :=
  if dropPolicy ≠ .summarize ∨ droppedCount = 0 then none
  else
    let title :=
      "[Queue overflow] Dropped " ++ toString droppedCount ++ " message" ++
        (if droppedCount = 1 then "" else "s") ++ " due to cap."
    let lines :=
      if summaryLines = [] then []
      else "Summary:" :: summaryLines.map fun line => "- " ++ line
    some ("\n".intercalate (title :: lines))

def renderCollectItem (item : FollowupRun) (index : ℕ) : String :=
  let senderLabel :=
    item.run.senderName <|> item.run.senderUsername <|> item.run.senderId <|> item.run.senderE164
  let senderSuffix :=
    if isTruthyText senderLabel then " (from " ++ senderLabel.getD "" ++ ")"
    else ""
  JsString.trim
    ("---\nQueued #" ++ toString (index + 1) ++ senderSuffix ++ "\n" ++
      item.prompt)

def collectTitle : String := "[Queued messages while agent was busy]"

def buildCollectPrompt (items : List FollowupRun) (summary : Option String) : String :=
  let summaryBlocks := if isTruthyText summary then [summary.getD ""] else []
  "\n\n".intercalate
    (collectTitle :: summaryBlocks ++ items.mapIdx fun index item => renderCollectItem item index)

end Texts

section Authorization

/--
The fields that decide authorization. The source compares their JSON text,
which differs exactly when the fields do.
-/
structure AuthorizationKey where
  senderId : String
  senderE164 : String
  senderIsOwner : Bool
  execHost : Option ExecTarget
  execSecurity : Option ExecSecurity
  execAsk : Option ExecAsk
  execNode : String
  elevatedEnabled : Bool
  elevatedAllowed : Bool
  elevatedDefaultLevel : Option ElevatedLevel
  deriving DecidableEq

def resolveFollowupAuthorizationKey (run : RunSettings) : AuthorizationKey where
  senderId := run.senderId.getD ""
  senderE164 := run.senderE164.getD ""
  senderIsOwner := run.senderIsOwner == some true
  execHost := run.execOverrides.bind (·.host)
  execSecurity := run.execOverrides.bind (·.security)
  execAsk := run.execOverrides.bind (·.ask)
  execNode := (run.execOverrides.bind (·.node)).getD ""
  elevatedEnabled := run.bashElevated.any (·.enabled)
  elevatedAllowed := run.bashElevated.any (·.allowed)
  elevatedDefaultLevel := run.bashElevated.map (·.defaultLevel)

/-- The loop of `splitCollectItemsByAuthorization`. -/
def splitLoop (groups : List (List QueuedItem)) (currentGroup : List QueuedItem)
    (currentKey : Option AuthorizationKey) : List QueuedItem → List (List QueuedItem)
  | [] => if currentGroup = [] then groups else groups ++ [currentGroup]
  | item :: rest =>
    let itemKey := resolveFollowupAuthorizationKey item.run
    if currentGroup = [] ∨ currentKey = some itemKey then
      splitLoop groups (currentGroup ++ [item]) (some itemKey) rest
    else splitLoop (groups ++ [currentGroup]) [item] (some itemKey) rest

def splitCollectItemsByAuthorization (items : List QueuedItem) : List (List QueuedItem) :=
  if items.length ≤ 1 then if items = [] then [] else [items]
  else splitLoop [] [] none items

end Authorization

section Metadata

structure OriginRouting where
  originatingChannel : Option String := none
  originatingTo : Option String := none
  originatingAccountId : Option String := none
  originatingThreadId : Option ThreadId := none

/-- A thread id that is present and not the empty text. -/
def hasThreadId (threadId : Option ThreadId) : Bool := threadId.any (· ≠ .text "")

/-- Fill the fields that are still missing from one item. -/
def OriginRouting.fill (metadata : OriginRouting) (item : FollowupRun) : OriginRouting where
  originatingChannel :=
    if ¬isTruthyText metadata.originatingChannel ∧ isTruthyText item.originatingChannel then
      item.originatingChannel
    else metadata.originatingChannel
  originatingTo :=
    if ¬isTruthyText metadata.originatingTo ∧ isTruthyText item.originatingTo then
      item.originatingTo
    else metadata.originatingTo
  originatingAccountId :=
    if ¬isTruthyText metadata.originatingAccountId ∧ isTruthyText item.originatingAccountId then
      item.originatingAccountId
    else metadata.originatingAccountId
  originatingThreadId :=
    if metadata.originatingThreadId = none ∧ hasThreadId item.originatingThreadId then
      item.originatingThreadId
    else metadata.originatingThreadId

def OriginRouting.isComplete (metadata : OriginRouting) : Bool :=
  isTruthyText metadata.originatingChannel &&
    isTruthyText metadata.originatingTo &&
    isTruthyText metadata.originatingAccountId &&
    metadata.originatingThreadId.isSome

variable (items : List FollowupRun)

def resolveOriginRoutingMetadata : OriginRouting := go {} items
where
  go (metadata : OriginRouting) : List FollowupRun → OriginRouting
    | [] => metadata
    | item :: rest =>
      let filled := metadata.fill item
      if filled.isComplete then filled else go filled rest

/-- The images of the items in order, or nothing when there are none. -/
def collectQueuedImages : Option (List QueuedImage) :=
  let images := items.flatMap fun item => item.images.getD []
  if images = [] then none else some images

def collectQueuedImageOrder : Option (List PromptImageOrderEntry) :=
  let imageOrder := items.flatMap fun item => item.imageOrder.getD []
  if imageOrder = [] then none else some imageOrder

def hasCurrentTurnRuntimeMetadata (item : FollowupRun) : Bool :=
  item.currentInboundEventKind == some .roomEvent || item.currentInboundContext.isSome

def hasRuntimeOnlyFollowupMetadata (item : FollowupRun) : Bool :=
  hasCurrentTurnRuntimeMetadata item || item.abortSignal.isSome ||
    item.deliveryCorrelations.any (· ≠ []) || item.queuedLifecycle.isSome

def combineAbortSignals : Option AbortSignal :=
  match items.filterMap (·.abortSignal) with
  | [] => none
  | [signal] => some signal
  | signals => some ⟨signals.flatMap (·.sources)⟩

structure RuntimeMetadata where
  currentInboundEventKind : Option InboundEventKind
  currentInboundContext : Option InboundPromptContext
  abortSignal : Option AbortSignal
  deliveryCorrelations : Option (List ℕ)
  queuedLifecycle : Option ℕ

def collectRuntimeMetadata (singletonOwner : Option FollowupRun) :
    RuntimeMetadata :=
  let candidates := singletonOwner.toList ++ items
  let currentTurnSource :=
    match singletonOwner.filter hasCurrentTurnRuntimeMetadata with
    | some owner => some owner
    | none => items.find? hasCurrentTurnRuntimeMetadata
  let deliveryCorrelations := items.flatMap fun item => item.deliveryCorrelations.getD []
  let lifecycleSource := singletonOwner <|> items.find? (·.queuedLifecycle.isSome)
  { currentInboundEventKind := currentTurnSource.bind (·.currentInboundEventKind)
    currentInboundContext := currentTurnSource.bind (·.currentInboundContext)
    abortSignal := singletonOwner.bind (·.abortSignal) <|> combineAbortSignals candidates
    deliveryCorrelations := if deliveryCorrelations = [] then none else some deliveryCorrelations
    queuedLifecycle :=
      singletonOwner.bind (·.queuedLifecycle) <|>
        (if items.length = 1 then lifecycleSource.bind (·.queuedLifecycle)
        else none) }

def collectSummaryRuntimeMetadata : RuntimeMetadata :=
  collectRuntimeMetadata items (if items.length = 1 then items.head? else none)

end Metadata

section Routes

variable (host : ChannelHost)

def canonicalizeAccountId (value : String) : String :=
  let normalized := normalizeLowercaseStringOrEmpty host.toLowerCase value
  if isValidId value then normalized
  else
    let collapsed := collapseInvalid normalized.toList
    let leading := collapsed.dropWhile (· == '-')
    let trailing := (leading.reverse.dropWhile (· == '-')).reverse
    String.ofList (trailing.take 64)

def isBlockedObjectKey (key : String) : Bool :=
  key = "__proto__" || key = "prototype" || key = "constructor"

def normalizeOptionalAccountId (value : Option String) : Option String :=
  let trimmed := JsString.trim (value.getD "")
  if trimmed = "" then none
  else
    let canonical := canonicalizeAccountId host trimmed
    if canonical = "" ∨ isBlockedObjectKey canonical then none
    else some canonical

/-- `stringifyRouteThreadId`: a number in decimal, a text trimmed. -/
def stringifyRouteThreadId : Option ThreadId → Option String
  | none => none
  | some (.number value) => some (toString value)
  | some (.text value) => normalizeOptionalString value

/-- The normalized channel, target, account and thread of a route. -/
structure RouteIdentity where
  channel : String
  target : String
  accountId : String
  threadId : String
  deriving DecidableEq

/--
`followupRouteIdentityKey`. The source compares the JSON text of these four
strings.
-/
def followupRouteIdentityKey (run : FollowupRun) : RouteIdentity where
  channel :=
    normalizeLowercaseStringOrEmpty host.toLowerCase (run.originatingChannel.getD "")
  target := (run.originatingTo.bind normalizeOptionalString).getD ""
  accountId := (normalizeOptionalAccountId host run.originatingAccountId).getD ""
  threadId := (stringifyRouteThreadId run.originatingThreadId).getD ""

def channelRouteCompactKey (run : FollowupRun) : Option String :=
  let route := followupRouteIdentityKey host run
  if route.channel = "" ∨ route.target = "" then none
  else some ("|".intercalate [route.channel, route.target, route.accountId, route.threadId])

/-- A channel other than the internal one that the host knows. -/
def isRoutableChannel (channel : Option String) : Bool :=
  channel.any fun name => name ≠ "" && name ≠ "webchat" && host.isRegisteredChannel name

/-- What an item contributes to the cross-channel test. -/
inductive CrossChannelKey where
  | unrouted
  | cross
  | key (text : String)
  deriving DecidableEq

def resolveCrossChannelKey (item : FollowupRun) : CrossChannelKey :=
  if ¬isTruthyText item.originatingChannel ∧
      ¬isTruthyText item.originatingTo ∧
      ¬isTruthyText item.originatingAccountId ∧
      ¬hasThreadId item.originatingThreadId then
    .unrouted
  else if ¬isRoutableChannel host item.originatingChannel ∨ ¬isTruthyText item.originatingTo then
    .cross
  else
    match channelRouteCompactKey host item with
    | none => .cross
    | some text => .key text

def hasCrossChannelItems (items : List FollowupRun) : Bool :=
  let resolved := items.map (resolveCrossChannelKey host)
  let keys :=
    resolved.filterMap fun
      | .key text => some text
      | _ => none
  resolved.contains .cross || 1 < keys.dedup.length

/-- The dedupe test of an enqueue against the items in the queue. -/
def isRunAlreadyQueued (run : FollowupRun) (items : List FollowupRun) (allowPromptFallback : Bool) :
    Bool :=
  let hasSameRouting (item : FollowupRun) : Bool :=
    followupRouteIdentityKey host item = followupRouteIdentityKey host run
  match run.messageId.bind normalizeOptionalString with
  | some messageId =>
    items.any fun item =>
      item.messageId.bind normalizeOptionalString == some messageId && hasSameRouting item
  | none =>
    allowPromptFallback && items.any fun item => item.prompt == run.prompt && hasSameRouting item

end Routes

end FollowupQueue
