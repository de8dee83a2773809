import EdonPlatform.Common.Python
import Mathlib.Data.List.Sort

/- The operational state of a world (edon/operations/control.py): goals, plans with
   their steps, agents, resource pools, and the records of what happened. A
   dictionary is a `Dict`, since the store reads every dictionary back with its keys
   sorted; a time is the UTC instant its text denotes (`_timestamp` writes one text
   for each); numbers are exact.

   Correspondence (Python ↔ Lean):
     `GOAL_STATUSES`, `PLAN_STATUSES`, …  ↔ `GoalStatus`, `PlanStatus`, …
     `GOAL_TRANSITIONS`                   ↔ `goalTransitions`
     `_identifier`, `_timestamp`, `_json_object`, `_number`, `_string_set`
                                          ↔ `opIdentifier`, `opTimestamp`, `opObject`, `opNumber`, `stringSet`
     `_operational_state`                 ↔ `operationalState`
     the mutations of `append_event`      ↔ `Change` -/
namespace Edon.Operations

abbrev Fields := List (String × Json)

/-- A UTC instant, in microseconds. -/
abbrev Instant := Int

def operationsError (message : String) : PyError := ⟨.operationsError, message⟩

/-! ## Statuses -/

inductive GoalStatus where
  | proposed | active | paused | blocked | completed | failed | cancelled
  deriving DecidableEq, Repr

inductive PlanStatus where
  | active | paused | needsReplan | superseded | completed | failed | cancelled
  deriving DecidableEq, Repr

inductive StepStatus where
  | pending | assigned | running | succeeded | failed | cancelled
  deriving DecidableEq, Repr

inductive AgentStatus where
  | available | busy | degraded | offline | retired
  deriving DecidableEq, Repr

inductive AgentKind where
  | human | software | robot | service
  deriving DecidableEq, Repr

inductive Modality where
  | text | image | audio | video | sensor | telemetry | document | humanReport | systemEvent
  deriving DecidableEq, Repr

def GoalStatus.name : GoalStatus → String
  | .proposed => "PROPOSED"
  | .active => "ACTIVE"
  | .paused => "PAUSED"
  | .blocked => "BLOCKED"
  | .completed => "COMPLETED"
  | .failed => "FAILED"
  | .cancelled => "CANCELLED"

def AgentStatus.name : AgentStatus → String
  | .available => "AVAILABLE"
  | .busy => "BUSY"
  | .degraded => "DEGRADED"
  | .offline => "OFFLINE"
  | .retired => "RETIRED"

def AgentKind.name : AgentKind → String
  | .human => "HUMAN"
  | .software => "SOFTWARE"
  | .robot => "ROBOT"
  | .service => "SERVICE"

def Modality.name : Modality → String
  | .text => "TEXT"
  | .image => "IMAGE"
  | .audio => "AUDIO"
  | .video => "VIDEO"
  | .sensor => "SENSOR"
  | .telemetry => "TELEMETRY"
  | .document => "DOCUMENT"
  | .humanReport => "HUMAN_REPORT"
  | .systemEvent => "SYSTEM_EVENT"

def goalStatuses : List GoalStatus :=
  [.proposed, .active, .paused, .blocked, .completed, .failed, .cancelled]

def agentStatuses : List AgentStatus := [.available, .busy, .degraded, .offline, .retired]

def agentKinds : List AgentKind := [.human, .software, .robot, .service]

def modalities : List Modality :=
  [.text, .image, .audio, .video, .sensor, .telemetry, .document, .humanReport, .systemEvent]

/-- The member of an enumeration with this name, the test `name in STATUSES`. -/
def named {α : Type} (name : α → String) (members : List α) (s : String) : Option α :=
  members.find? (fun a => name a = s)

def goalTransitions : GoalStatus → List GoalStatus
  | .proposed => [.active, .cancelled]
  | .active => [.paused, .blocked, .completed, .failed, .cancelled]
  | .paused => [.active, .cancelled]
  | .blocked => [.active, .failed, .cancelled]
  | .completed => []
  | .failed => []
  | .cancelled => []

/-- A step that is waiting, assigned or running; the others are terminal. -/
def StepStatus.live : StepStatus → Bool
  | .pending | .assigned | .running => true
  | .succeeded | .failed | .cancelled => false

/-! ## Records -/

structure Goal where
  goalId : String
  description : String
  status : GoalStatus
  priority : Int
  deadline : Option Instant
  dependencies : List String
  parentGoalId : Option String
  ownerId : Option String
  successCriteria : List String
  activePlanId : Option String
  createdAt : Instant
  updatedAt : Instant
  transitionReason : Option String := none
  deriving DecidableEq

structure Step where
  stepId : String
  action : String
  dependencies : List String
  requiredCapabilities : List String
  resourceRequests : Dict String Rat
  resourceAllocation : Dict String Rat
  earliestStart : Option Instant
  deadline : Option Instant
  expectedOutcomes : List String
  command : Fields
  status : StepStatus
  assignedAgentId : Option String
  assignedAt : Option Instant
  startedAt : Option Instant
  completedAt : Option Instant
  actualOutcomes : Option (List String) := none
  cancellationReason : Option String := none
  deriving DecidableEq

structure Plan where
  planId : String
  goalId : String
  revision : Int
  status : PlanStatus
  horizonStart : Instant
  horizonEnd : Option Instant
  supersedes : Option String
  stepOrder : List String
  steps : Dict String Step
  createdAt : Instant
  updatedAt : Instant
  supersededBy : Option String := none
  reason : Option String := none
  deriving DecidableEq

structure Agent where
  agentId : String
  kind : AgentKind
  capabilities : List String
  status : AgentStatus
  maxConcurrent : Int
  activeTasks : List String
  relationships : Fields
  metadata : Fields
  registeredAt : Instant
  deriving DecidableEq

structure Pool where
  resourceId : String
  capacity : Rat
  allocated : Rat
  unit : String
  renewable : Bool
  allocations : Dict String Rat
  registeredAt : Instant
  deriving DecidableEq

structure Outcome where
  outcomeId : String
  planId : String
  stepId : String
  agentId : String
  success : Bool
  reportedSuccess : Bool
  summary : String
  payload : Fields
  actualOutcomes : List String
  missingExpectedOutcomes : List String
  unexpectedOutcomes : List String
  recordedAt : Instant
  deriving DecidableEq

inductive AlertType where
  | replanRequired | goalOverdue | stepOverdue | agentUnavailable | resourceOverallocated
  deriving DecidableEq, Repr

def AlertType.name : AlertType → String
  | .replanRequired => "REPLAN_REQUIRED"
  | .goalOverdue => "GOAL_OVERDUE"
  | .stepOverdue => "STEP_OVERDUE"
  | .agentUnavailable => "AGENT_UNAVAILABLE"
  | .resourceOverallocated => "RESOURCE_OVERALLOCATED"

/-- `plan_id` and `step_id` of an alert an operation raises, `subject` of one the
monitor raises. -/
inductive AlertSubject where
  | step (planId stepId : String)
  | monitored (subject : String)
  deriving DecidableEq, Repr

/-- An alert; `raisedAt` is its `created_at` or `observed_at`. -/
structure Alert where
  alertId : String
  type : AlertType
  severity : String
  subject : AlertSubject
  reason : String
  raisedAt : Instant
  resolved : Bool := false
  deriving DecidableEq

structure LearningCandidate where
  candidateId : String
  outcomeId : String
  mechanism : String := "STEP_OUTCOME"
  trainingEligible : Bool := false
  requiresAuthorizedReview : Bool := true
  createdAt : Instant
  deriving DecidableEq

structure Observation where
  observationId : String
  modality : Modality
  sourceId : String
  observedAt : Instant
  confidence : Rat
  contentSha256 : String
  deriving DecidableEq

/-- The `operations` entry of a world's state. -/
structure OperationalState where
  clock : Instant
  observations : List Observation
  goals : Dict String Goal
  plans : Dict String Plan
  agents : Dict String Agent
  resourcePools : Dict String Pool
  outcomes : Dict String Outcome
  alerts : Dict String Alert
  learningCandidates : Dict String LearningCandidate
  deriving DecidableEq

def operationalState (now : Instant) : OperationalState where
  clock := now
  observations := []
  goals := ∅
  plans := ∅
  agents := ∅
  resourcePools := ∅
  outcomes := ∅
  alerts := ∅
  learningCandidates := ∅

/-! ## Changes -/

/-- A mutation of an operations event. All but `observed`, an `APPEND_UNIQUE`, are a
`SET` of a whole object under its key. -/
inductive Change where
  | initialized (operations : OperationalState)
  | clock (now : Instant)
  | observed (observation : Observation)
  | goal (id : String) (goal : Goal)
  | plan (id : String) (plan : Plan)
  | agent (id : String) (agent : Agent)
  | pool (id : String) (pool : Pool)
  | outcome (id : String) (outcome : Outcome)
  | alert (id : String) (alert : Alert)
  | learning (id : String) (candidate : LearningCandidate)
  deriving DecidableEq

def Change.path : Change → List String
  | .initialized _ => ["operations"]
  | .clock _ => ["operations", "clock", "now"]
  | .observed _ => ["operations", "observations"]
  | .goal id _ => ["operations", "goals", id]
  | .plan id _ => ["operations", "plans", id]
  | .agent id _ => ["operations", "agents", id]
  | .pool id _ => ["operations", "resource_pools", id]
  | .outcome id _ => ["operations", "outcomes", id]
  | .alert id _ => ["operations", "alerts", id]
  | .learning id _ => ["operations", "learning_candidates", id]

/-- What a change does to a state that has its parent. -/
def Change.update : Change → OperationalState → OperationalState
  | .initialized operations, _ => operations
  | .clock now, s => { s with clock := now }
  | .observed o, s =>
    if o ∈ s.observations then s else { s with observations := s.observations ++ [o] }
  | .goal id g, s => { s with goals := s.goals.set id g }
  | .plan id p, s => { s with plans := s.plans.set id p }
  | .agent id a, s => { s with agents := s.agents.set id a }
  | .pool id p, s => { s with resourcePools := s.resourcePools.set id p }
  | .outcome id o, s => { s with outcomes := s.outcomes.set id o }
  | .alert id a, s => { s with alerts := s.alerts.set id a }
  | .learning id c, s => { s with learningCandidates := s.learningCandidates.set id c }

/-- A change other than the initialization needs the state to be there. -/
def Change.apply : Change → Option OperationalState → Except PyError (Option OperationalState)
  | .initialized operations, _ => .ok (some operations)
  | c, some s => .ok (some (c.update s))
  | c, none =>
    .error ⟨.worldStateError,
      "mutation parent does not exist: " ++ ".".intercalate c.path.dropLast⟩

def applyChanges :
    List Change → Option OperationalState → Except PyError (Option OperationalState)
  | [], s => .ok s
  | c :: cs, s => do
    let s' ← c.apply s
    applyChanges cs s'

/-- The state after changes, wherever it is there. -/
def updates (cs : List Change) (s : OperationalState) : OperationalState :=
  cs.foldl (fun s c => c.update s) s

/-! ## Checks -/

def opIdentifier (value label : String) : Except PyError String :=
  identifier .operationsError value label

section
variable (py : Python)

def opTimestamp (value label : String) : Except PyError Instant :=
  match py.fromisoformat (replaceZ value) with
  | .invalid => .error (operationsError (label ++ " must be an ISO-8601 timestamp"))
  | .naive => .error (operationsError (label ++ " must include a timezone"))
  | .instant t => astimezone t

/-- `_timestamp(value, label) if value else None`. -/
def optionalTimestamp (value : Option String) (label : String) : Except PyError (Option Instant) :=
  match value with
  | none => .ok none
  | some text => if text = "" then .ok none else some <$> opTimestamp py text label

/-- `_timestamp(timestamp or _now(), "timestamp")`. -/
def timestampOr (timestamp : Option String) (now : Instant) (label : String) :
    Except PyError Instant := do
  let t ← optionalTimestamp py timestamp label
  return t.getD now

def opObject (value : Json) (label : String) : Except PyError Fields :=
  match value with
  | .obj kvs => .ok kvs
  | _ => .error (operationsError (label ++ " must be a JSON object"))

/-- `_number`, with the text of the bound as its message shows it. -/
def opNumber (value : Json) (label : String) (minimum : Rat) (shown : String) :
    Except PyError Rat :=
  let checked (q : Rat) : Except PyError Rat :=
    if q < minimum then
      .error (operationsError (label ++ " must be finite and at least " ++ shown))
    else .ok q
  match value with
  | .int n => checked n
  | .float q => checked q
  | _ => .error (operationsError (label ++ " must be numeric"))

def stringSet (values : List String) (label : String) : Except PyError (List String) := do
  let items ← values.mapM (fun v => opIdentifier v label)
  return sortedSet items

end

theorem opNumber_ok {value : Json} {label shown : String} {minimum q : Rat}
    (h : opNumber value label minimum shown = .ok q) : minimum ≤ q := by
  unfold opNumber at h
  cases value with
  | int n =>
    simp only at h
    split at h
    · cases h
    · cases h
      exact not_lt.mp ‹_›
  | float r =>
    simp only at h
    split at h
    · cases h
    · cases h
      exact not_lt.mp ‹_›
  | _ => cases h

/-- Changes to a state that is there never fail. -/
theorem applyChanges_some (cs : List Change) (s : OperationalState) :
    applyChanges cs (some s) = .ok (some (updates cs s)) := by
  induction cs generalizing s with
  | nil => rfl
  | cons c cs ih =>
    have happly : c.apply (some s) = .ok (some (c.update s)) := by cases c <;> rfl
    show (c.apply (some s) >>= fun s' => applyChanges cs s') = _
    rw [happly]
    exact ih (c.update s)

end Edon.Operations
