import AieClaw.TaskRegistryCreation
import AieClaw.TransitionSystem

/-!
# Runs of the task registry

Every operation of the registry runs to its end, or to the point where it waits
for a channel or for the control of a session, before anything else runs. What
it waits for then answers in an operation of its own.
-/

namespace Tasks

open TransitionSystem
open Registry
  (RunningParams ProgressParams FinalizeParams UpdateById ControlAnswer)

/-- An operation of the registry, or an answer that it waits for. -/
inductive TaskOperation where
  | markRunning (scope : RunScope) (params : RunningParams)
  | recordProgress (scope : RunScope) (params : ProgressParams)
  | finalize (scope : RunScope) (params : FinalizeParams)
  | agentEvent (event : AgentEvent)
  | setDeliveryStatus
      (scope : RunScope) (deliveryStatus : TaskDeliveryStatus) (error : Option String)
  | updateById (taskId : String) (update : UpdateById)
  | create (taskId : String) (params : CreateTaskParams)
  | linkToFlow (taskId flowId : String)
  | delete (taskId : String)
  | reload
  | cancel (taskId : String) (reason : Option String)
  | settleCancel (pending : PendingCancel) (answer : ControlAnswer)
  | deliver (taskId : String)
  | settleDelivery (delivery : TerminalDelivery) (accepted : Bool)
  | settleStateChange (delivery : StateChangeDelivery) (accepted : Bool)

/-- An operation and the time at which it runs. -/
structure TaskAction where
  now : ℚ
  operation : TaskOperation

/-- The error that a caller of an operation sees. -/
def thrown {Value : Type} (result : TaskResult Value) : Option TaskError × Registry :=
  match result with
  | (.ok _, registry) => (none, registry)
  | (.error error, registry) => (some error, registry)

def TaskOperation.perform (host : TaskHost) (now : ℚ) (registry : Registry) :
    TaskOperation → Option TaskError × Registry
  | .markRunning scope params => thrown (registry.markTaskRunningByRunId host now scope params)
  | .recordProgress scope params =>
    thrown (registry.recordTaskProgressByRunId host now scope params)
  | .finalize scope params => thrown (registry.finalizeTaskRunByRunId host now scope params)
  | .agentEvent event => thrown (registry.handleAgentEvent host now event)
  | .setDeliveryStatus scope deliveryStatus error =>
    thrown (registry.setTaskRunDeliveryStatusByRunId host now scope deliveryStatus error)
  | .updateById taskId update => thrown (registry.updateTaskById host now taskId update)
  | .create taskId params => thrown (registry.createTaskRecord host now taskId params)
  | .linkToFlow taskId flowId => thrown (registry.linkTaskToFlowById host now taskId flowId)
  | .delete taskId => thrown (registry.deleteTaskRecordById host taskId)
  | .reload => (none, registry.reloadTaskRegistryFromStore host)
  | .cancel taskId reason => (none, (registry.cancelTaskById host now taskId reason).2)
  | .settleCancel pending answer => (none, (registry.settleCancel host now pending answer).2)
  | .deliver taskId => (none, registry.maybeDeliverTaskTerminalUpdate host now taskId)
  | .settleDelivery delivery accepted =>
    (none, registry.settleTerminalDelivery host now delivery accepted)
  | .settleStateChange delivery accepted =>
    (none, registry.settleStateChangeDelivery host now delivery accepted)

/-- A new identity is unused, and only what is waited for answers. -/
def TaskOperation.Enabled (registry : Registry) : TaskOperation → Prop
  | .create taskId _ => registry.tasks.get? taskId = none
  | .settleCancel pending _ => pending ∈ registry.cancels
  | .settleDelivery delivery _ => delivery ∈ registry.deliveries
  | .settleStateChange delivery _ => delivery ∈ registry.stateChanges
  | _ => True

instance (registry : Registry) (operation : TaskOperation) :
    Decidable (operation.Enabled registry) :=
  match operation with
  | .create taskId _ => inferInstanceAs (Decidable (registry.tasks.get? taskId = none))
  | .settleCancel pending _ => inferInstanceAs (Decidable (pending ∈ registry.cancels))
  | .settleDelivery delivery _ => inferInstanceAs (Decidable (delivery ∈ registry.deliveries))
  | .settleStateChange delivery _ => inferInstanceAs (Decidable (delivery ∈ registry.stateChanges))
  | .markRunning .. | .recordProgress .. | .finalize .. | .agentEvent _
  | .setDeliveryStatus .. | .updateById .. | .linkToFlow .. | .delete _
  | .reload | .cancel .. | .deliver _ => isTrue trivial

/-- One operation of the registry. -/
def TaskStep (host : TaskHost) : StepRelation Registry TaskAction :=
  fun source action target =>
    action.operation.Enabled source ∧ target = (action.operation.perform host action.now source).2

/-- Run an operation if it can run now. -/
def TaskAction.perform? (host : TaskHost) (registry : Registry) (action : TaskAction) :
    Option Registry :=
  if action.operation.Enabled registry then
    some (action.operation.perform host action.now registry).2
  else none

/-- Run operations one after the other, each if it can run and a test allows it. -/
def execute (host : TaskHost) (allows : Registry → TaskAction → Bool)
    (actions : List TaskAction) (registry : Registry) : Option Registry :=
  actions.foldlM
    (fun source action => if allows source action then action.perform? host source else none)
    registry

theorem run_of_execute {host : TaskHost} {allows : Registry → TaskAction → Bool}
    {start finish : Registry} {actions : List TaskAction}
    (executed : execute host allows actions start = some finish) : Run
      (Restricted (TaskStep host) fun source action => allows source action = true)
      start actions finish := by
  apply (Run.restricted_of_foldlM executed).mono
  intro source action target taken
  obtain ⟨allowed, performed⟩ := taken
  rw [TaskAction.perform?] at performed
  split_ifs at performed with enabled
  exact ⟨allowed, enabled, (Option.some.inj performed).symm⟩

theorem run_of_execute_decide {host : TaskHost} {condition : Registry → TaskAction → Prop}
    [∀ source action, Decidable (condition source action)]
    {start finish : Registry} {actions : List TaskAction}
    (executed : execute host (fun source action => decide (condition source action)) actions start =
        some finish) : Run (Restricted (TaskStep host) condition) start actions finish :=
  (run_of_execute executed).mono fun _ _ _ taken => ⟨of_decide_eq_true taken.1, taken.2⟩

/-- A host whose stores and channels accept everything as it is. -/
def TaskHost.plain : TaskHost where
  taskStore _ := true
  flowStore _ := true
  stringify _ := ""
  parse _ := none
  normalizeDeliveryContext := some
  parseAgentSessionKey _ := none
  isDeliverableMessageChannel _ := true
  shouldRouteCompletionThroughRequesterSession _ := false
  sanitizeTaskStatusText text _ := text.getD ""
  formatTaskStatusTitleText title := title

namespace Registry

/-- A registry that holds nothing in memory and has read nothing yet. -/
def cold (store : TaskStore) (flowRegistry : FlowRegistry) : Registry where
  tasks := OrderedMap.empty
  taskDeliveryStates := OrderedMap.empty
  taskIdsByRunId := OrderedMap.empty
  taskIdsByOwnerKey := OrderedMap.empty
  taskIdsByParentFlowId := OrderedMap.empty
  taskIdsByRelatedSessionKey := OrderedMap.empty
  tasksWithPendingDelivery := []
  store
  writes := 0
  flowRegistry
  deliveries := []
  stateChanges := []
  announced := []
  cancels := []

/-- The registry of a process that has just read its stores. -/
def started (host : TaskHost) (store : TaskStore) (flowRegistry : FlowRegistry) : Registry :=
  (cold store flowRegistry).reloadTaskRegistryFromStore host

end Registry

/-- The registries at which a process begins. -/
def IsStarted (host : TaskHost) (registry : Registry) : Prop :=
  ∃ store flowRegistry, registry = Registry.started host store flowRegistry

end Tasks
