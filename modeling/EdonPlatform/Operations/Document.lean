import EdonPlatform.Operations.Saga
import EdonPlatform.Operations.Scheduling

/- The dictionaries the records of the operational state are in the code: what is hashed
   and what a provider is shown. A key that is set only by some operations is there when
   the record has it. -/
namespace Edon.Operations

def PlanStatus.name : PlanStatus → String
  | .active => "ACTIVE"
  | .paused => "PAUSED"
  | .needsReplan => "NEEDS_REPLAN"
  | .superseded => "SUPERSEDED"
  | .completed => "COMPLETED"
  | .failed => "FAILED"
  | .cancelled => "CANCELLED"

def StepStatus.name : StepStatus → String
  | .pending => "PENDING"
  | .assigned => "ASSIGNED"
  | .running => "RUNNING"
  | .succeeded => "SUCCEEDED"
  | .failed => "FAILED"
  | .cancelled => "CANCELLED"

def texts (xs : List String) : Json := .arr (xs.map .str)

def nullableText (x : Option String) : Json := x.elim .null .str

/-- A key that is there when the record has a value for it. -/
def present {α : Type} (key : String) (toJson : α → Json) (x : Option α) : Fields :=
  x.elim [] (fun a => [(key, toJson a)])

def amounts (d : Dict String Rat) : Json := .obj (d.entries.map fun e => (e.1, .float e.2))

def dictJson {α : Type} (toJson : α → Json) (d : Dict String α) : Json :=
  .obj (d.entries.map fun e => (e.1, toJson e.2))

section
variable (py : Python)

def instantJson (t : Instant) : Json := .str (py.isoformat t)

def nullableInstant (t : Option Instant) : Json := t.elim .null (instantJson py)

def Goal.toJson (g : Goal) : Json := .obj <|
  [("goal_id", .str g.goalId),
   ("description", .str g.description),
   ("status", .str g.status.name),
   ("priority", .int g.priority),
   ("deadline", nullableInstant py g.deadline),
   ("dependencies", texts g.dependencies),
   ("parent_goal_id", nullableText g.parentGoalId),
   ("owner_id", nullableText g.ownerId),
   ("success_criteria", texts g.successCriteria),
   ("active_plan_id", nullableText g.activePlanId),
   ("created_at", instantJson py g.createdAt),
   ("updated_at", instantJson py g.updatedAt)] ++
  present "transition_reason" .str g.transitionReason

def Step.toJson (s : Step) : Json := .obj <|
  [("step_id", .str s.stepId),
   ("action", .str s.action),
   ("dependencies", texts s.dependencies),
   ("required_capabilities", texts s.requiredCapabilities),
   ("resource_requests", amounts s.resourceRequests),
   ("resource_allocation", amounts s.resourceAllocation),
   ("earliest_start", nullableInstant py s.earliestStart),
   ("deadline", nullableInstant py s.deadline),
   ("expected_outcomes", texts s.expectedOutcomes),
   ("command", .obj s.command),
   ("status", .str s.status.name),
   ("assigned_agent_id", nullableText s.assignedAgentId),
   ("assigned_at", nullableInstant py s.assignedAt),
   ("started_at", nullableInstant py s.startedAt),
   ("completed_at", nullableInstant py s.completedAt)] ++
  present "actual_outcomes" texts s.actualOutcomes ++
  present "cancellation_reason" .str s.cancellationReason

def Plan.toJson (p : Plan) : Json := .obj <|
  [("plan_id", .str p.planId),
   ("goal_id", .str p.goalId),
   ("revision", .int p.revision),
   ("status", .str p.status.name),
   ("horizon_start", instantJson py p.horizonStart),
   ("horizon_end", nullableInstant py p.horizonEnd),
   ("supersedes", nullableText p.supersedes),
   ("step_order", texts p.stepOrder),
   ("steps", dictJson (Step.toJson py) p.steps),
   ("created_at", instantJson py p.createdAt),
   ("updated_at", instantJson py p.updatedAt)] ++
  present "superseded_by" .str p.supersededBy ++
  present "reason" .str p.reason

def Agent.toJson (a : Agent) : Json := .obj
  [("agent_id", .str a.agentId),
   ("kind", .str a.kind.name),
   ("capabilities", texts a.capabilities),
   ("status", .str a.status.name),
   ("max_concurrent", .int a.maxConcurrent),
   ("active_tasks", texts a.activeTasks),
   ("relationships", .obj a.relationships),
   ("metadata", .obj a.metadata),
   ("registered_at", instantJson py a.registeredAt)]

def Pool.toJson (p : Pool) : Json := .obj
  [("resource_id", .str p.resourceId),
   ("capacity", .float p.capacity),
   ("allocated", .float p.allocated),
   ("unit", .str p.unit),
   ("renewable", .bool p.renewable),
   ("allocations", amounts p.allocations),
   ("registered_at", instantJson py p.registeredAt)]

/-- An operation names the step and dates the alert `created_at`, the monitor names the subject
and dates it `observed_at`. -/
def Alert.toJson (a : Alert) : Json := .obj <|
  [("alert_id", .str a.alertId),
   ("type", .str a.type.name),
   ("severity", .str a.severity),
   ("reason", .str a.reason),
   ("resolved", .bool a.resolved)] ++
  match a.subject with
  | .step planId stepId =>
    [("plan_id", .str planId), ("step_id", .str stepId), ("created_at", instantJson py a.raisedAt)]
  | .monitored subject =>
    [("subject", .str subject), ("observed_at", instantJson py a.raisedAt)]

def LearningCandidate.toJson (c : LearningCandidate) : Json := .obj
  [("candidate_id", .str c.candidateId),
   ("outcome_id", .str c.outcomeId),
   ("mechanism", .str c.mechanism),
   ("training_eligible", .bool c.trainingEligible),
   ("requires_authorized_review", .bool c.requiresAuthorizedReview),
   ("created_at", instantJson py c.createdAt)]

def Observation.toJson (o : Observation) : Json := .obj
  [("observation_id", .str o.observationId),
   ("modality", .str o.modality.name),
   ("source_id", .str o.sourceId),
   ("observed_at", instantJson py o.observedAt),
   ("confidence", .float o.confidence),
   ("content_sha256", .str o.contentSha256)]

def OperationalState.toJson (s : OperationalState) : Json := .obj
  [("schema_version", .str "edon-operational-state.v1"),
   ("clock", .obj [("now", instantJson py s.clock)]),
   ("observations", .arr (s.observations.map (Observation.toJson py))),
   ("goals", dictJson (Goal.toJson py) s.goals),
   ("plans", dictJson (Plan.toJson py) s.plans),
   ("agents", dictJson (Agent.toJson py) s.agents),
   ("resource_pools", dictJson (Pool.toJson py) s.resourcePools),
   ("outcomes", dictJson (Outcome.toJson py) s.outcomes),
   ("alerts", dictJson (Alert.toJson py) s.alerts),
   ("learning_candidates", dictJson (LearningCandidate.toJson py) s.learningCandidates)]

def ReadyStep.toJson (r : ReadyStep) : Json := .obj
  [("plan_id", .str r.planId),
   ("goal_id", .str r.goalId),
   ("step", r.step.toJson py),
   ("goal_priority", .int r.goalPriority),
   ("binding_authority", .bool false)]

def AssignmentProposal.toJson (p : AssignmentProposal) : Json := .obj
  [("proposal_id", .str p.proposalId),
   ("plan_id", .str p.planId),
   ("goal_id", .str p.goalId),
   ("step_id", .str p.stepId),
   ("recommended_agent_id", nullableText p.recommendedAgentId),
   ("resource_feasible", .bool p.resourceFeasible),
   ("dispatchable", .bool p.dispatchable),
   ("binding_authority", .bool false)]

end
end Edon.Operations
