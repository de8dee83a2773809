import EdonPlatform.Operations.Control

/- What the control plane recommends to do next (edon/operations/control.py): the steps
   that are ready, in the order of their urgency, and the agents they could be given to.

   Correspondence (Python ↔ Lean):
     `ready_steps`          ↔ `readySteps`, of one plan `readyOfPlan`
     `assignment_proposals` ↔ `assignmentProposals`, its loop `proposeAll`

   `assignment_proposals` reads the state, and has `ready_steps` read it again; so the two
   arguments of `assignmentProposals` are what the two readings returned. -/
namespace Edon.Operations
open Json

/-! ## Ready steps -/

structure ReadyStep where
  planId : String
  goalId : String
  step : Step
  goalPriority : Int
  deriving DecidableEq

/-- A ready step with the key it is sorted by. -/
structure Urgency where
  priority : Int
  deadline : Instant
  order : Nat
  ready : ReadyStep

/-- 9999-12-31T23:59:59, where neither the step nor its goal has a deadline. -/
def noDeadline : Instant := 253402300799000000

/-- Whether every dependency has succeeded; the first that has not ends the search. -/
def dependenciesDone (plan : Plan) : List String → Except PyError Bool
  | [] => .ok true
  | dependency :: dependencies => do
    let other ← orRaise (keyError dependency) (plan.steps.get dependency)
    if other.status = .succeeded then dependenciesDone plan dependencies else return false

def readyStep (current : Instant) (plan : Plan) (goal : Goal) (entry : String × Nat) :
    Except PyError (Option Urgency) := do
  let step ← orRaise (keyError entry.1) (plan.steps.get entry.1)
  if step.status ≠ .pending then return none
  else
    let done ← dependenciesDone plan step.dependencies
    if !done || step.earliestStart.any (fun t => current < t) then return none
    else return some {
      priority := goal.priority
      deadline := (step.deadline.or goal.deadline).getD noDeadline
      order := entry.2
      ready := ⟨plan.planId, plan.goalId, step, goal.priority⟩ }

/-- The ready steps of a plan: none unless it and its goal are active. -/
def readyOfPlan (s : OperationalState) (current : Instant) (planId : String) (plan : Plan) :
    Except PyError (List Urgency) :=
  match s.goals.get plan.goalId with
  | none => .ok []
  | some goal =>
    if plan.status = .active ∧ goal.status = .active then do
      let entries ← plan.stepOrder.zipIdx.mapM (readyStep current { plan with planId } goal)
      return entries.filterMap id
    else .ok []

/-- The order of `(-priority, deadline, order, plan_id)`. -/
def moreUrgent (a b : Urgency) : Prop :=
  b.priority < a.priority ∨ (a.priority = b.priority ∧ (a.deadline < b.deadline ∨
    (a.deadline = b.deadline ∧ (a.order < b.order ∨
      (a.order = b.order ∧ a.ready.planId ≤ b.ready.planId)))))

instance : DecidableRel moreUrgent := fun a b => by unfold moreUrgent; infer_instance

def readySteps (s : OperationalState) (current : Instant) : Except PyError (List ReadyStep) := do
  let queued ← s.plans.entries.mapM fun e => readyOfPlan s current e.1 e.2
  return (queued.flatten.insertionSort moreUrgent).map Urgency.ready

/-! ## Assignment proposals -/

structure AssignmentProposal where
  proposalId : String
  planId : String
  goalId : String
  stepId : String
  recommendedAgentId : Option String
  resourceFeasible : Bool
  dispatchable : Bool
  deriving DecidableEq

/-- Every requested amount is free in its pool. -/
def resourceFeasible (s : OperationalState) (step : Step) : Bool :=
  step.resourceRequests.entries.all fun request =>
    (s.resourcePools.get request.1).any fun pool => request.2 ≤ pool.capacity - pool.allocated

/-- The agent may take one more step that needs these capabilities. -/
def Agent.suits (load : Int) (step : Step) (agent : Agent) : Bool :=
  (agent.status = .available ∨ agent.status = .busy) ∧ load < agent.maxConcurrent ∧
    ∀ capability ∈ step.requiredCapabilities, capability ∈ agent.capabilities

/-- The first agent that suits, with the load each has by then. -/
def selectAgent (s : OperationalState) (load : Dict String Int) (step : Step) : Option String :=
  (s.agents.entries.find? fun e => e.2.suits ((load.get e.1).getD 0) step).map Prod.fst

section
variable (py : Python)

def proposal (s : OperationalState) (ready : ReadyStep) (selected : Option String) :
    AssignmentProposal :=
  let feasible := resourceFeasible s ready.step
  { proposalId := "assignment:" ++ String.ofList ((py.sha256 (canonicalJson (.obj [
      ("plan_id", .str ready.planId),
      ("step_id", .str ready.step.stepId),
      ("agent_id", selected.elim .null .str)]))).toList.take 24)
    planId := ready.planId
    goalId := ready.goalId
    stepId := ready.step.stepId
    recommendedAgentId := selected
    resourceFeasible := feasible
    dispatchable := selected.isSome ∧ feasible = true }

/-- Each selection counts for those after it. -/
def proposeAll (s : OperationalState) : Dict String Int → List ReadyStep → List AssignmentProposal
  | _, [] => []
  | load, ready :: rest =>
    let selected := selectAgent s load ready.step
    let load := selected.elim load fun id => load.set id ((load.get id).getD 0 + 1)
    proposal py s ready selected :: proposeAll s load rest

def assignmentProposals (s : OperationalState) (ready : List ReadyStep) :
    List AssignmentProposal :=
  proposeAll py s (s.agents.map fun _ agent => (agent.activeTasks.length : Int)) ready

end

end Edon.Operations
