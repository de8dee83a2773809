import EdonPlatform.Operations.Planning
import EdonPlatform.World.Store

/- The operations of the institutional control plane (edon/operations/control.py,
   `InstitutionalControlPlane`). An operation reads the operational state, checks its
   arguments against it, and hands the event store the changes it computed: here a
   function of the state that raises or returns its `Draft`. What the store does with
   the draft is in the next module.

   Correspondence (Python ↔ Lean):
     `_snapshot`                        ↔ `snapshot`
     the keyword arguments of an event  ↔ `Keywords`
     `monitor`                          ↔ `monitor`
     the operations                     ↔ the same names; `Call.draft` is all of them

   `ingest_observation` and `record_step_outcome` also write to the episodic memory,
   before and after the event; the event sees only what the memory returns, which is
   the argument `memory` of the first. -/
namespace Edon.Operations
open Json World

/-- The keyword arguments of every operation that appends an event, with the time its
clock reads. -/
structure Keywords where
  eventId : String
  actorId : String
  expectedVersion : Int
  authorizationRef : String
  timestamp : Option String
  now : Instant
  deriving DecidableEq

/-- What an operation hands to `append_event`. -/
structure Draft where
  eventType : String
  changes : List Change
  sourceLineage : List String := []
  timestamp : Instant
  deriving DecidableEq

/-- `f"{plan_id}:{step_id}"`. -/
def taskId (planId stepId : String) : String := planId ++ ":" ++ stepId

/-! ## What an operation does to one record -/

/-- An agent is busy when it has as many tasks as it may. -/
def Agent.withTasks (activeTasks : List String) (a : Agent) : Agent :=
  { a with
    activeTasks
    status := if a.maxConcurrent ≤ activeTasks.length then .busy else .available }

def Agent.addTask (task : String) (a : Agent) : Agent :=
  a.withTasks (sortedSet (a.activeTasks ++ [task]))

def Agent.dropTask (task : String) (a : Agent) : Agent :=
  let activeTasks := a.activeTasks.filter (· ≠ task)
  if a.status = .offline ∨ a.status = .retired then { a with activeTasks }
  else a.withTasks activeTasks

def Pool.reserve (key : String) (amount : Rat) (p : Pool) : Pool :=
  { p with
    allocated := p.allocated + amount
    allocations := p.allocations.set key amount }

def Pool.release (key : String) (amount : Rat) (p : Pool) : Pool :=
  { p with
    allocated := max 0 (p.allocated - amount)
    allocations := p.allocations.erase key }

/-- The release of an outcome, which uses up what is not renewable. -/
def Pool.consume (key : String) (amount : Rat) (p : Pool) : Pool :=
  { p.release key amount with
    capacity := if p.renewable then p.capacity else max 0 (p.capacity - amount) }

def Plan.withStep (p : Plan) (stepId : String) (step : Step) : Plan :=
  { p with steps := p.steps.set stepId step }

section
variable (py : Python)

def Keywords.stamp (k : Keywords) : Except PyError Instant :=
  timestampOr py k.timestamp k.now "timestamp"

def snapshot : Option OperationalState → Except PyError OperationalState :=
  orRaise (operationsError "world does not contain initialized EDON operational state")

/-! ## Observations and agents -/

def initializeExistingWorld (s : Option OperationalState) (k : Keywords) :
    Except PyError Draft := do
  require s.isNone (operationsError "world already contains operational state")
  let stamp ← k.stamp py
  return {
    eventType := "OPERATIONS_INITIALIZED"
    changes := [.initialized (operationalState stamp)]
    timestamp := stamp }

/-- `_identifier(value, label) if value else None`. -/
def optionalIdentifier (value : Option String) (label : String) :
    Except PyError (Option String) :=
  match value with
  | none => .ok none
  | some text => if text = "" then .ok none else some <$> opIdentifier text label

/-- The event only: `memory` is the `content_sha256` of the episode written first, or
what writing it raised. -/
def ingestObservation (observationId modality sourceId : String) (payload : Json)
    (observedAt : String) (confidence : Json) (memory : Except PyError String)
    (k : Keywords) : Except PyError Draft := do
  let observationId ← opIdentifier observationId "observation_id"
  let sourceId ← opIdentifier sourceId "source_id"
  let modality ← orRaise
    (operationsError ("unsupported observation modality: " ++ upper modality))
    (named Modality.name modalities (upper modality))
  let confidence ← opNumber confidence "confidence" 0 "0.0"
  require (confidence ≤ 1) (operationsError "confidence cannot exceed 1")
  let observedAt ← opTimestamp py observedAt "observed_at"
  let stamp ← k.stamp py
  let contentSha256 ← memory
  let reference : Observation :=
    { observationId, modality, sourceId, observedAt, confidence
      contentSha256 := sha256Json py.sha256 payload }
  return {
    eventType := "OBSERVATION_INGESTED"
    changes := [.observed reference, .clock stamp]
    sourceLineage := ["memory:" ++ observationId ++ ":" ++ contentSha256]
    timestamp := stamp }

def registerAgent (s : OperationalState) (agentId kind : String) (capabilities : List String)
    (maxConcurrent : Int) (relationships metadata : Json) (k : Keywords) :
    Except PyError Draft := do
  let agentId ← opIdentifier agentId "agent_id"
  require (!s.agents.contains agentId) (operationsError "agent is already registered")
  let kind ← orRaise (operationsError ("unsupported agent kind: " ++ upper kind))
    (named AgentKind.name agentKinds (upper kind))
  require (1 ≤ maxConcurrent ∧ maxConcurrent ≤ 1000)
    (operationsError "max_concurrent must be between 1 and 1000")
  let stamp ← k.stamp py
  let capabilities ← stringSet capabilities "capability"
  let relationships ← opObject relationships "relationships"
  let metadata ← opObject metadata "metadata"
  let agent : Agent :=
    { agentId, kind, capabilities
      status := .available
      maxConcurrent
      activeTasks := []
      relationships, metadata
      registeredAt := stamp }
  return {
    eventType := "AGENT_REGISTERED"
    changes := [.agent agentId agent, .clock stamp]
    timestamp := stamp }

def setAgentStatus (s : OperationalState) (agentId status : String) (k : Keywords) :
    Except PyError Draft := do
  let agentId ← opIdentifier agentId "agent_id"
  let agent ← orRaise (operationsError "agent is not registered") (s.agents.get agentId)
  let status ← orRaise (operationsError ("unsupported agent status: " ++ upper status))
    (named AgentStatus.name agentStatuses (upper status))
  require (status ≠ .retired ∨ agent.activeTasks = [])
    (operationsError "agent with active tasks cannot be retired")
  let stamp ← k.stamp py
  return {
    eventType := "AGENT_STATUS_CHANGED"
    changes := [.agent agentId { agent with status }, .clock stamp]
    timestamp := stamp }

def registerResourcePool (s : OperationalState) (resourceId : String) (capacity : Json)
    (unit : String) (renewable : Bool) (k : Keywords) : Except PyError Draft := do
  let resourceId ← opIdentifier resourceId "resource_id"
  require (!s.resourcePools.contains resourceId)
    (operationsError "resource pool is already registered")
  let stamp ← k.stamp py
  let capacity ← opNumber capacity "capacity" 0 "0.0"
  let unit ← opIdentifier unit "unit"
  let pool : Pool :=
    { resourceId, capacity
      allocated := 0
      unit, renewable
      allocations := ∅
      registeredAt := stamp }
  return {
    eventType := "RESOURCE_POOL_REGISTERED"
    changes := [.pool resourceId pool, .clock stamp]
    timestamp := stamp }

/-! ## Goals -/

def OperationalState.goalCompleted (s : OperationalState) (goalId : String) : Bool :=
  (s.goals.get goalId).any (fun g => g.status = .completed)

def createGoal (s : OperationalState) (goalId description : String) (priority : Int)
    (deadline : Option String) (dependencies : List String) (parentGoalId ownerId : Option String)
    (successCriteria : List String) (activate : Bool) (k : Keywords) : Except PyError Draft := do
  let goalId ← opIdentifier goalId "goal_id"
  require (!s.goals.contains goalId) (operationsError "goal is already registered")
  let description := strip description
  require (10 ≤ description.length ∧ description.length ≤ 10000)
    (operationsError "goal description must contain between 10 and 10000 characters")
  require (0 ≤ priority ∧ priority ≤ 100)
    (operationsError "goal priority must be between 0 and 100")
  let dependencies ← stringSet dependencies "goal dependency"
  let missing := dependencies.filter (fun d => !s.goals.contains d)
  require (missing = [])
    (operationsError ("goal dependencies are not registered: " ++ ", ".intercalate missing))
  require (!activate || dependencies.all s.goalCompleted)
    (operationsError "active goal dependencies are not complete")
  let parentGoalId ← optionalIdentifier parentGoalId "parent_goal_id"
  require (parentGoalId.all s.goals.contains) (operationsError "parent goal is not registered")
  let ownerId ← optionalIdentifier ownerId "owner_id"
  require (ownerId.all s.agents.contains) (operationsError "goal owner is not a registered agent")
  let stamp ← k.stamp py
  let deadline ← optionalTimestamp py deadline "deadline"
  let successCriteria ← stringSet successCriteria "success criterion"
  let goal : Goal :=
    { goalId, description
      status := if activate then .active else .proposed
      priority, deadline, dependencies, parentGoalId, ownerId, successCriteria
      activePlanId := none
      createdAt := stamp
      updatedAt := stamp }
  return {
    eventType := "GOAL_CREATED"
    changes := [.goal goalId goal, .clock stamp]
    timestamp := stamp }

def transitionGoal (s : OperationalState) (goalId status reason : String) (k : Keywords) :
    Except PyError Draft := do
  let goalId ← opIdentifier goalId "goal_id"
  let goal ← orRaise (operationsError "goal is not registered") (s.goals.get goalId)
  let status ← orRaise
    (operationsError ("invalid goal transition: " ++ goal.status.name ++ " -> " ++ upper status))
    ((named GoalStatus.name goalStatuses (upper status)).filter
      (fun t => t ∈ goalTransitions goal.status))
  let reason := strip reason
  require (5 ≤ reason.length) (operationsError "goal transition reason must be explicit")
  require (status ≠ .active ∨ goal.dependencies.all s.goalCompleted)
    (operationsError "goal dependencies are not complete")
  let stamp ← k.stamp py
  return {
    eventType := "GOAL_STATUS_CHANGED"
    changes := [
      .goal goalId { goal with status, updatedAt := stamp, transitionReason := some reason },
      .clock stamp]
    timestamp := stamp }

/-! ## Plans -/

/-- The goal of a plan when the plan becomes its active one. -/
def Goal.withPlan (planId : String) (stamp : Instant) (g : Goal) : Goal :=
  { g with activePlanId := some planId, status := .active, updatedAt := stamp }

def createPlan (s : OperationalState) (planId goalId : String) (steps : List Json)
    (horizonStart : String) (horizonEnd : Option String) (k : Keywords) :
    Except PyError Draft := do
  let stamp ← k.stamp py
  let plan ← buildPlan py s planId goalId steps horizonStart horizonEnd stamp none
  let goal ← orRaise (keyError plan.goalId) (s.goals.get plan.goalId)
  return {
    eventType := "PLAN_CREATED"
    changes := [
      .plan plan.planId plan,
      .goal plan.goalId (goal.withPlan plan.planId stamp),
      .clock stamp]
    timestamp := stamp }

def replan (s : OperationalState) (oldPlanId newPlanId : String) (steps : List Json)
    (horizonStart : String) (horizonEnd : Option String) (reason : String) (k : Keywords) :
    Except PyError Draft := do
  let oldPlanId ← opIdentifier oldPlanId "old_plan_id"
  let old ← orRaise (operationsError "old plan is not registered") (s.plans.get oldPlanId)
  require (old.status = .active ∨ old.status = .paused ∨ old.status = .needsReplan)
    (operationsError "old plan cannot be superseded from its current status")
  require (old.steps.values.all (fun step => step.status ≠ .assigned ∧ step.status ≠ .running))
    (operationsError "active tasks must be resolved before replanning")
  let reason := strip reason
  require (5 ≤ reason.length) (operationsError "replan reason must be explicit")
  let stamp ← k.stamp py
  let new ← buildPlan py s newPlanId old.goalId steps horizonStart horizonEnd stamp
    (some oldPlanId)
  let goal ← orRaise (keyError old.goalId) (s.goals.get old.goalId)
  return {
    eventType := "PLAN_REPLACED"
    changes := [
      .plan oldPlanId { old with
        status := .superseded
        updatedAt := stamp
        supersededBy := some new.planId
        reason := some reason },
      .plan new.planId new,
      .goal old.goalId (goal.withPlan new.planId stamp),
      .clock stamp]
    timestamp := stamp }

/-! ## Steps -/

/-- `plans.get(plan_id)` and its step. -/
def planStep (s : OperationalState) (planId stepId : String) : Except PyError (Plan × Step) := do
  let plan ← orRaise (operationsError "plan step is not registered") (s.plans.get planId)
  let step ← orRaise (operationsError "plan step is not registered") (plan.steps.get stepId)
  return (plan, step)

/-- Every dependency of the step has succeeded. -/
def checkDependenciesDone (plan : Plan) (step : Step) : Except PyError Unit :=
  step.dependencies.forM (fun dependency => do
    let other ← orRaise (keyError dependency) (plan.steps.get dependency)
    require (other.status = .succeeded) (operationsError "step dependencies are not complete"))

/-- Every requested amount is free in its pool. -/
def checkCapacity (s : OperationalState) (requests : Dict String Rat) : Except PyError Unit :=
  requests.entries.forM (fun request => do
    let pool ← orRaise (operationsError ("resource pool is not registered: " ++ request.1))
      (s.resourcePools.get request.1)
    require (request.2 ≤ pool.capacity - pool.allocated)
      (operationsError ("insufficient resource capacity: " ++ request.1)))

/-- The changes of the pools a step has amounts in. -/
def poolChanges (s : OperationalState) (amounts : Dict String Rat) (f : Rat → Pool → Pool) :
    Except PyError (List Change) :=
  amounts.entries.mapM (fun amount => do
    let pool ← orRaise (keyError amount.1) (s.resourcePools.get amount.1)
    return Change.pool amount.1 (f amount.2 pool))

/-- The checks of an agent before a step is given to it; `activity` is the word the two
callers use. -/
def checkAgent (agent : Agent) (step : Step) (activity : String) : Except PyError Unit := do
  require (agent.status = .available ∨ agent.status = .busy)
    (operationsError ("agent is not available for " ++ activity))
  require ((agent.activeTasks.length : Int) < agent.maxConcurrent)
    (operationsError "agent concurrent-task capacity is exhausted")
  let missing := sortedSet (step.requiredCapabilities.filter (· ∉ agent.capabilities))
  require (missing = [])
    (operationsError ("agent lacks required capabilities: " ++ ", ".intercalate missing))

def allocateStepResources (s : OperationalState) (planId stepId : String) (k : Keywords) :
    Except PyError Draft := do
  let planId ← opIdentifier planId "plan_id"
  let stepId ← opIdentifier stepId "step_id"
  let (plan, step) ← planStep s planId stepId
  require (plan.status = .active)
    (operationsError "resources can only be allocated to an active plan")
  require (step.status = .pending ∧ step.resourceAllocation = ∅)
    (operationsError "resources can only be allocated once to a pending step")
  checkDependenciesDone plan step
  checkCapacity s step.resourceRequests
  let pools ← poolChanges s step.resourceRequests (Pool.reserve (taskId planId stepId))
  let stamp ← k.stamp py
  let step := { step with resourceAllocation := step.resourceRequests }
  return {
    eventType := "RESOURCES_ALLOCATED"
    changes := pools ++
      [.plan planId { plan.withStep stepId step with updatedAt := stamp }, .clock stamp]
    timestamp := stamp }

def assignStep (s : OperationalState) (planId stepId agentId : String) (k : Keywords) :
    Except PyError Draft := do
  let planId ← opIdentifier planId "plan_id"
  let stepId ← opIdentifier stepId "step_id"
  let agentId ← opIdentifier agentId "agent_id"
  let (plan, step) ← planStep s planId stepId
  let agent ← orRaise (operationsError "agent is not registered") (s.agents.get agentId)
  require (plan.status = .active) (operationsError "only active-plan steps can be assigned")
  require (step.status = .pending) (operationsError "only pending steps can be assigned")
  checkDependenciesDone plan step
  require (step.resourceRequests = step.resourceAllocation)
    (operationsError "step resources must be fully allocated before assignment")
  checkAgent agent step "assignment"
  let stamp ← k.stamp py
  let step := { step with
    status := .assigned
    assignedAgentId := some agentId
    assignedAt := some stamp }
  return {
    eventType := "STEP_ASSIGNED"
    changes := [
      .plan planId { plan.withStep stepId step with updatedAt := stamp },
      .agent agentId (agent.addTask (taskId planId stepId)),
      .clock stamp]
    timestamp := stamp }

def dispatchStep (s : OperationalState) (planId stepId agentId : String) (k : Keywords) :
    Except PyError Draft := do
  let planId ← opIdentifier planId "plan_id"
  let stepId ← opIdentifier stepId "step_id"
  let agentId ← opIdentifier agentId "agent_id"
  let (plan, step) ← planStep s planId stepId
  let agent ← orRaise (operationsError "agent is not registered") (s.agents.get agentId)
  require (plan.status = .active) (operationsError "only active-plan steps can be dispatched")
  require (step.status = .pending ∧ step.resourceAllocation = ∅)
    (operationsError "only unallocated pending steps can be dispatched")
  checkDependenciesDone plan step
  checkAgent agent step "dispatch"
  checkCapacity s step.resourceRequests
  let stamp ← k.stamp py
  let pools ← poolChanges s step.resourceRequests (Pool.reserve (taskId planId stepId))
  let step := { step with
    resourceAllocation := step.resourceRequests
    status := .assigned
    assignedAgentId := some agentId
    assignedAt := some stamp }
  return {
    eventType := "STEP_DISPATCHED"
    changes := pools ++ [
      .plan planId { plan.withStep stepId step with updatedAt := stamp },
      .agent agentId (agent.addTask (taskId planId stepId)),
      .clock stamp]
    timestamp := stamp }

def startStep (s : OperationalState) (planId stepId : String) (k : Keywords) :
    Except PyError Draft := do
  let planId ← opIdentifier planId "plan_id"
  let stepId ← opIdentifier stepId "step_id"
  let (plan, step) ← planStep s planId stepId
  require (step.status = .assigned) (operationsError "only assigned steps can start")
  let stamp ← k.stamp py
  let step := { step with status := .running, startedAt := some stamp }
  return {
    eventType := "STEP_STARTED"
    changes := [
      .plan planId { plan.withStep stepId step with updatedAt := stamp },
      .clock stamp]
    timestamp := stamp }

/-- The plan after an outcome of one of its steps was written into it. -/
def Plan.settle (succeeded : Bool) (p : Plan) : Plan :=
  if succeeded then
    if p.steps.values.all (fun step => step.status = .succeeded) then
      { p with status := .completed }
    else p
  else { p with status := .needsReplan }

/-- Its goal, with the plan as `p` was before it was settled. -/
def Goal.settle (succeeded : Bool) (p : Plan) (stamp : Instant) (g : Goal) : Goal :=
  if succeeded then
    if p.steps.values.all (fun step => step.status = .succeeded) then
      { g with status := .completed, updatedAt := stamp }
    else g
  else { g with status := .blocked, updatedAt := stamp }

/-- The event only: the episode of the outcome is written after it. -/
def recordStepOutcome (s : OperationalState) (planId stepId : String) (success : Bool)
    (summary : String) (payload : Json) (outcomeId : String) (actualOutcomes : List String)
    (k : Keywords) : Except PyError Draft := do
  let planId ← opIdentifier planId "plan_id"
  let stepId ← opIdentifier stepId "step_id"
  let outcomeId ← opIdentifier outcomeId "outcome_id"
  require (!s.outcomes.contains outcomeId) (operationsError "outcome is already registered")
  let (plan, step) ← planStep s planId stepId
  require (step.status = .assigned ∨ step.status = .running)
    (operationsError "only assigned or running steps can record an outcome")
  let agentId ← orRaise (operationsError "assigned agent is missing") step.assignedAgentId
  let agent ← orRaise (operationsError "assigned agent is missing") (s.agents.get agentId)
  let stamp ← k.stamp py
  let actual ← stringSet actualOutcomes "actual outcome"
  let missing := sortedSet (step.expectedOutcomes.filter (· ∉ actual))
  let unexpected :=
    if step.expectedOutcomes = [] then []
    else sortedSet (actual.filter (· ∉ step.expectedOutcomes))
  let succeeded : Bool := success ∧ missing = []
  let pools ← poolChanges s step.resourceAllocation (Pool.consume (taskId planId stepId))
  let payload ← opObject payload "payload"
  let outcome : Outcome :=
    { outcomeId, planId, stepId, agentId
      success := succeeded
      reportedSuccess := success
      summary := strip summary
      payload
      actualOutcomes := actual
      missingExpectedOutcomes := missing
      unexpectedOutcomes := unexpected
      recordedAt := stamp }
  require (10 ≤ outcome.summary.length)
    (operationsError "outcome summary must contain at least 10 characters")
  let goal ← orRaise (keyError plan.goalId) (s.goals.get plan.goalId)
  let step := { step with
    status := if succeeded then .succeeded else .failed
    completedAt := some stamp
    actualOutcomes := some actual }
  let plan := { plan.withStep stepId step with updatedAt := stamp }
  let alert : Alert :=
    { alertId := "replan:" ++ outcomeId
      type := .replanRequired
      severity := "HIGH"
      subject := .step planId stepId
      reason := "step outcome failed"
      raisedAt := stamp }
  let learning : LearningCandidate :=
    { candidateId := "learning:" ++ outcomeId, outcomeId, createdAt := stamp }
  return {
    eventType := "STEP_OUTCOME_RECORDED"
    changes := pools ++
      [.plan planId (plan.settle succeeded),
       .goal plan.goalId (goal.settle succeeded plan stamp),
       .agent agentId (agent.dropTask (taskId planId stepId)),
       .outcome outcomeId outcome,
       .learning learning.candidateId learning] ++
      (if succeeded then [] else [.alert alert.alertId alert]) ++ [.clock stamp]
    timestamp := stamp }

/-- The change of the agent a cancelled step was assigned to, if it is registered. -/
def releaseAgent (s : OperationalState) (task : String) (agentId : Option String) : List Change :=
  match agentId with
  | none => []
  | some agentId =>
    match s.agents.get agentId with
    | none => []
    | some agent => [.agent agentId (agent.dropTask task)]

def cancelStep (s : OperationalState) (planId stepId reason : String) (k : Keywords) :
    Except PyError Draft := do
  let planId ← opIdentifier planId "plan_id"
  let stepId ← opIdentifier stepId "step_id"
  let (plan, step) ← planStep s planId stepId
  require step.status.live (operationsError "terminal step cannot be cancelled")
  let reason := strip reason
  require (5 ≤ reason.length) (operationsError "cancellation reason must be explicit")
  let stamp ← k.stamp py
  let pools ← poolChanges s step.resourceAllocation (Pool.release (taskId planId stepId))
  let goal ← orRaise (keyError plan.goalId) (s.goals.get plan.goalId)
  let cancelled := { step with
    status := .cancelled
    completedAt := some stamp
    cancellationReason := some reason
    resourceAllocation := ∅ }
  let alert : Alert :=
    { alertId := "replan:cancel:" ++ taskId planId stepId
      type := .replanRequired
      severity := "HIGH"
      subject := .step planId stepId
      reason
      raisedAt := stamp }
  return {
    eventType := "STEP_CANCELLED"
    changes := pools ++ releaseAgent s (taskId planId stepId) step.assignedAgentId ++
      [.plan planId { plan.withStep stepId cancelled with
        status := .needsReplan
        updatedAt := stamp },
       .goal plan.goalId { goal with status := .blocked, updatedAt := stamp },
       .alert alert.alertId alert,
       .clock stamp]
    timestamp := stamp }

/-! ## Monitoring -/

/-- `add`. -/
def monitorAlert (current : Instant) (type : AlertType) (severity subject reason : String) :
    Alert :=
  let fingerprint := sha256Json py.sha256
    (.obj [("type", .str type.name), ("subject", .str subject), ("reason", .str reason)])
  { alertId := "monitor:" ++ String.ofList ((afterColon fingerprint).toList.take 24)
    type, severity
    subject := .monitored subject
    reason
    raisedAt := current }

def overdue (current : Instant) (deadline : Option Instant) : Bool :=
  deadline.any (fun t => t < current)

def monitorGoal (current : Instant) (goalId : String) (goal : Goal) : List Alert :=
  if overdue current goal.deadline ∧
      goal.status ≠ .completed ∧ goal.status ≠ .failed ∧ goal.status ≠ .cancelled then
    [monitorAlert py current .goalOverdue "HIGH" goalId "goal deadline has passed"]
  else []

def monitorStep (s : OperationalState) (current : Instant) (planId stepId : String)
    (step : Step) : List Alert :=
  (if overdue current step.deadline ∧ step.status.live then
    [monitorAlert py current .stepOverdue "HIGH" (taskId planId stepId)
      "step deadline has passed"]
  else []) ++
  match step.assignedAgentId with
  | none => []
  | some agentId =>
    if (step.status = .assigned ∨ step.status = .running) ∧
        (s.agents.get agentId).any (fun a => a.status = .offline ∨ a.status = .retired) then
      [monitorAlert py current .agentUnavailable "CRITICAL" (taskId planId stepId)
        ("assigned agent " ++ agentId ++ " is unavailable")]
    else []

def monitorPlan (s : OperationalState) (current : Instant) (planId : String) (plan : Plan) :
    List Alert :=
  (if plan.status = .needsReplan then
    [monitorAlert py current .replanRequired "HIGH" planId
      "plan is awaiting a corrective revision"]
  else []) ++
  plan.steps.entries.flatMap (fun e => monitorStep py s current planId e.1 e.2)

def monitorPool (current : Instant) (resourceId : String) (pool : Pool) : List Alert :=
  if pool.capacity < pool.allocated then
    [monitorAlert py current .resourceOverallocated "CRITICAL" resourceId
      "allocated quantity exceeds capacity"]
  else []

/-- The text an alert's key compares as `subject`. -/
def AlertSubject.text : AlertSubject → String
  | .step planId stepId => taskId planId stepId
  | .monitored subject => subject

/-- The order of `(severity, type, subject)`. -/
def alertBefore (a b : Alert) : Prop :=
  a.severity < b.severity ∨ (a.severity = b.severity ∧ (a.type.name < b.type.name ∨
    (a.type.name = b.type.name ∧ a.subject.text ≤ b.subject.text)))

instance : DecidableRel alertBefore := fun a b => by unfold alertBefore; infer_instance

def monitor (s : OperationalState) (current : Instant) : List Alert :=
  (s.goals.entries.flatMap (fun e => monitorGoal py current e.1 e.2) ++
    s.plans.entries.flatMap (fun e => monitorPlan py s current e.1 e.2) ++
    s.resourcePools.entries.flatMap (fun e => monitorPool py current e.1 e.2)).insertionSort
      alertBefore

def recordMonitoringCycle (s : Option OperationalState) (k : Keywords) : Except PyError Draft := do
  let observedAt ← timestampOr py k.timestamp k.now "at"
  let s ← snapshot s
  return {
    eventType := "MONITORING_CYCLE_RECORDED"
    changes := (monitor py s observedAt).map (fun alert => .alert alert.alertId alert) ++
      [.clock observedAt]
    timestamp := observedAt }

/-! ## All operations -/

/-- A call of an operation that appends an event. -/
inductive Call where
  | initializeExistingWorld
  | ingestObservation (observationId modality sourceId : String) (payload : Json)
      (observedAt : String) (confidence : Json) (memory : Except PyError String)
  | registerAgent (agentId kind : String) (capabilities : List String) (maxConcurrent : Int)
      (relationships metadata : Json)
  | setAgentStatus (agentId status : String)
  | registerResourcePool (resourceId : String) (capacity : Json) (unit : String)
      (renewable : Bool)
  | createGoal (goalId description : String) (priority : Int) (deadline : Option String)
      (dependencies : List String) (parentGoalId ownerId : Option String)
      (successCriteria : List String) (activate : Bool)
  | transitionGoal (goalId status reason : String)
  | createPlan (planId goalId : String) (steps : List Json) (horizonStart : String)
      (horizonEnd : Option String)
  | replan (oldPlanId newPlanId : String) (steps : List Json) (horizonStart : String)
      (horizonEnd : Option String) (reason : String)
  | allocateStepResources (planId stepId : String)
  | assignStep (planId stepId agentId : String)
  | dispatchStep (planId stepId agentId : String)
  | startStep (planId stepId : String)
  | recordStepOutcome (planId stepId : String) (success : Bool) (summary : String)
      (payload : Json) (outcomeId : String) (actualOutcomes : List String)
  | cancelStep (planId stepId reason : String)
  | recordMonitoringCycle

/-- What the call hands to `append_event`, from the state it reads. -/
def Call.draft (c : Call) (k : Keywords) (state : Option OperationalState) :
    Except PyError Draft :=
  match c with
  | .initializeExistingWorld => Operations.initializeExistingWorld py state k
  | .ingestObservation observationId modality sourceId payload observedAt confidence memory =>
    Operations.ingestObservation py observationId modality sourceId payload observedAt
      confidence memory k
  | .recordMonitoringCycle => Operations.recordMonitoringCycle py state k
  | .registerAgent agentId kind capabilities maxConcurrent relationships metadata => do
    Operations.registerAgent py (← snapshot state) agentId kind capabilities maxConcurrent
      relationships metadata k
  | .setAgentStatus agentId status => do
    Operations.setAgentStatus py (← snapshot state) agentId status k
  | .registerResourcePool resourceId capacity unit renewable => do
    Operations.registerResourcePool py (← snapshot state) resourceId capacity unit renewable k
  | .createGoal goalId description priority deadline dependencies parentGoalId ownerId
      successCriteria activate => do
    Operations.createGoal py (← snapshot state) goalId description priority deadline
      dependencies parentGoalId ownerId successCriteria activate k
  | .transitionGoal goalId status reason => do
    Operations.transitionGoal py (← snapshot state) goalId status reason k
  | .createPlan planId goalId steps horizonStart horizonEnd => do
    Operations.createPlan py (← snapshot state) planId goalId steps horizonStart horizonEnd k
  | .replan oldPlanId newPlanId steps horizonStart horizonEnd reason => do
    Operations.replan py (← snapshot state) oldPlanId newPlanId steps horizonStart horizonEnd
      reason k
  | .allocateStepResources planId stepId => do
    Operations.allocateStepResources py (← snapshot state) planId stepId k
  | .assignStep planId stepId agentId => do
    Operations.assignStep py (← snapshot state) planId stepId agentId k
  | .dispatchStep planId stepId agentId => do
    Operations.dispatchStep py (← snapshot state) planId stepId agentId k
  | .startStep planId stepId => do
    Operations.startStep py (← snapshot state) planId stepId k
  | .recordStepOutcome planId stepId success summary payload outcomeId actualOutcomes => do
    Operations.recordStepOutcome py (← snapshot state) planId stepId success summary payload
      outcomeId actualOutcomes k
  | .cancelStep planId stepId reason => do
    Operations.cancelStep py (← snapshot state) planId stepId reason k

end
end Edon.Operations
