import EdonPlatform.Operations.Ledger

/- What one operation can do to the operational state. `Effect s c s'` says, for each
   operation, what it has checked in the state `s` it read and how `s'` differs from
   it; `draft_effect` proves it of every draft, and `commits_effect` of every event a
   world records. The results about runs of operations are derived from these, and
   none of them unfolds an operation. -/
namespace Edon.Operations
open World

/-! ## The pools of a step -/

@[simp] theorem updates_nil (s : OperationalState) : updates [] s = s := rfl

@[simp] theorem updates_cons (c : Change) (cs : List Change) (s : OperationalState) :
    updates (c :: cs) s = updates cs (c.update s) := rfl

@[simp] theorem updates_append (cs ds : List Change) (s : OperationalState) :
    updates (cs ++ ds) s = updates ds (updates cs s) := List.foldl_append

/-- Every resource of `amounts` has a pool. -/
def HasPools (s : OperationalState) (amounts : Dict String Rat) : Prop :=
  ∀ r amount, amounts.get r = some amount → ∃ pool, s.resourcePools.get r = some pool

/-- Every amount is free in its pool. -/
def Free (s : OperationalState) (amounts : Dict String Rat) : Prop :=
  ∀ r amount, amounts.get r = some amount →
    ∃ pool, s.resourcePools.get r = some pool ∧ amount ≤ pool.capacity - pool.allocated

theorem Free.hasPools {s : OperationalState} {amounts : Dict String Rat} (h : Free s amounts) :
    HasPools s amounts := by
  intro r amount hr
  obtain ⟨pool, hpool, _⟩ := h r amount hr
  exact ⟨pool, hpool⟩

/-- The changes of the entries `l`, to pools that are still those of `s` at the keys
of `l`, by induction on `l`. -/
theorem poolChanges_from {s : OperationalState} {f : Rat → Pool → Pool}
    {l : List (String × Rat)} (hl : Assoc.Ascending l) {cs : List Change}
    (h : l.mapM (fun amount => do
      let pool ← orRaise (keyError amount.1) (s.resourcePools.get amount.1)
      return Change.pool amount.1 (f amount.2 pool)) = .ok cs) (t : OperationalState) :
    (∀ r amount, (r, amount) ∈ l → ∃ pool, s.resourcePools.get r = some pool) ∧
    ∃ pools, updates cs t = { t with resourcePools := pools } ∧
      ∀ r, pools.get r = match Assoc.find l r with
        | some amount => (s.resourcePools.get r).map (f amount)
        | none => t.resourcePools.get r := by
  induction l generalizing cs t with
  | nil =>
    cases h
    exact ⟨by simp, t.resourcePools, rfl, fun r => rfl⟩
  | cons e l ih =>
    obtain ⟨hhead, htail⟩ := List.pairwise_cons.mp hl
    rw [List.mapM_cons] at h
    obtain ⟨c, hc, h⟩ := bind_ok.mp h
    obtain ⟨cs', hcs, h⟩ := bind_ok.mp h
    cases h
    obtain ⟨pool, hpool, hc⟩ := bind_ok.mp hc
    cases hc
    have hpool := orRaise_ok.mp hpool
    obtain ⟨hall, pools, hupdates, hget⟩ :=
      ih htail hcs ((Change.pool e.1 (f e.2 pool)).update t)
    refine ⟨?_, pools, hupdates, ?_⟩
    · intro r amount hr
      rcases List.mem_cons.mp hr with rfl | hr
      · exact ⟨pool, hpool⟩
      · exact hall r amount hr
    · intro r
      rw [hget r, Assoc.find_cons]
      by_cases he : e.1 = r
      · -- the key of the head is not a key of the tail
        have hnone : Assoc.find l r = none :=
          Assoc.find_eq_none_of_lt (fun x hx => he ▸ hhead x hx)
        rw [if_pos he, hnone]
        show (t.resourcePools.set e.1 (f e.2 pool)).get r = _
        rw [← he, Dict.get_set_self, hpool]
        rfl
      · rw [if_neg he]
        split
        · rfl
        · exact Dict.get_set_ne _ _ he

theorem poolChanges_ok {s : OperationalState} {amounts : Dict String Rat}
    {f : Rat → Pool → Pool} {cs : List Change} (h : poolChanges s amounts f = .ok cs) :
    HasPools s amounts ∧
      updates cs s = { s with resourcePools := s.resourcePools.adjust f amounts } := by
  obtain ⟨hall, pools, hupdates, hget⟩ := poolChanges_from amounts.ascending h s
  refine ⟨fun r amount hr => hall r amount (Dict.mem_entries.mpr hr), ?_⟩
  have hpools : pools = s.resourcePools.adjust f amounts := by
    apply Dict.ext_get
    intro r
    rw [hget r, Dict.get_adjust]
    show (match amounts.get r with
      | some amount => (s.resourcePools.get r).map (f amount)
      | none => s.resourcePools.get r) = _
    cases amounts.get r with
    | none => simp
    | some amount => simp
  rw [hupdates, hpools]

theorem checkCapacity_ok {s : OperationalState} {requests : Dict String Rat} {u : Unit}
    (h : checkCapacity s requests = .ok u) : Free s requests := by
  intro r amount hr
  obtain ⟨pool, hpool, hcap⟩ := bind_ok.mp (forM_ok h (r, amount) (Dict.mem_entries.mpr hr))
  exact ⟨pool, orRaise_ok.mp hpool, by simpa using require_ok.mp hcap⟩

/-! ## The checks of a step -/

/-- The step the identifiers of a call name, and its plan. -/
def Located (s : OperationalState) (planId stepId : String) (plan : Plan) (step : Step) : Prop :=
  s.plans.get (strip planId) = some plan ∧ plan.steps.get (strip stepId) = some step

theorem planStep_ok {s : OperationalState} {planId stepId : String} {plan : Plan} {step : Step}
    (h : planStep s planId stepId = .ok (plan, step)) :
    s.plans.get planId = some plan ∧ plan.steps.get stepId = some step := by
  obtain ⟨plan', hplan, h⟩ := bind_ok.mp h
  obtain ⟨step', hstep, h⟩ := bind_ok.mp h
  cases h
  exact ⟨orRaise_ok.mp hplan, orRaise_ok.mp hstep⟩

def DependenciesDone (plan : Plan) (step : Step) : Prop :=
  ∀ d ∈ step.dependencies, ∃ other, plan.steps.get d = some other ∧ other.status = .succeeded

theorem checkDependenciesDone_ok {plan : Plan} {step : Step} {u : Unit}
    (h : checkDependenciesDone plan step = .ok u) : DependenciesDone plan step := by
  intro d hd
  obtain ⟨other, hother, hstatus⟩ := bind_ok.mp (forM_ok h d hd)
  exact ⟨other, orRaise_ok.mp hother, by simpa using require_ok.mp hstatus⟩

/-- The agent can take the step. -/
structure CanTake (agent : Agent) (step : Step) : Prop where
  status : agent.status = .available ∨ agent.status = .busy
  capacity : (agent.activeTasks.length : Int) < agent.maxConcurrent
  capabilities : ∀ c ∈ step.requiredCapabilities, c ∈ agent.capabilities

theorem checkAgent_ok {agent : Agent} {step : Step} {activity : String} {u : Unit}
    (h : checkAgent agent step activity = .ok u) : CanTake agent step := by
  obtain ⟨_, hstatus, h⟩ := bind_ok.mp h
  obtain ⟨_, hcapacity, h⟩ := bind_ok.mp h
  have hmissing : sortedSet (step.requiredCapabilities.filter (· ∉ agent.capabilities)) = [] := by
    simpa using require_ok.mp h
  refine ⟨by simpa using require_ok.mp hstatus, by simpa using require_ok.mp hcapacity, ?_⟩
  intro c hc
  by_contra hnot
  have hmem : c ∈ step.requiredCapabilities.filter (· ∉ agent.capabilities) := by simp [hc, hnot]
  rw [sortedSet_eq_nil.mp hmissing] at hmem
  cases hmem

/-- An outcome counts as a success when it is reported as one and every expected
outcome is among the actual ones. -/
def succeeds (step : Step) (success : Bool) (actualOutcomes : List String) : Bool :=
  success && step.expectedOutcomes.all (fun o => o ∈ actualOutcomes.map strip)

theorem mapM_identifier_ok {values items : List String} {label : String}
    (h : values.mapM (fun v => opIdentifier v label) = .ok items) : items = values.map strip := by
  induction values generalizing items with
  | nil =>
    cases h
    rfl
  | cons v values ih =>
    rw [List.mapM_cons] at h
    obtain ⟨item, hitem, h⟩ := bind_ok.mp h
    obtain ⟨items', hitems, h⟩ := bind_ok.mp h
    cases h
    rw [List.map_cons, ih hitems, identifier_ok hitem]

theorem mem_stringSet {values items : List String} {label : String}
    (h : stringSet values label = .ok items) (x : String) : x ∈ items ↔ x ∈ values.map strip := by
  obtain ⟨stripped, hstripped, h⟩ := bind_ok.mp h
  cases h
  rw [mem_sortedSet, mapM_identifier_ok hstripped]

/-- The flag `record_step_outcome` computes. -/
theorem succeeds_eq {step : Step} {success : Bool} {actualOutcomes actual : List String}
    {label : String} (h : stringSet actualOutcomes label = .ok actual) :
    decide (success = true ∧ sortedSet (step.expectedOutcomes.filter (· ∉ actual)) = []) =
      succeeds step success actualOutcomes := by
  have hall : sortedSet (step.expectedOutcomes.filter (· ∉ actual)) = [] ↔
      ∀ o ∈ step.expectedOutcomes, o ∈ actualOutcomes.map strip := by
    rw [sortedSet_eq_nil, List.filter_eq_nil_iff]
    apply forall₂_congr
    intro o _
    rw [← mem_stringSet h o]
    simp
  rw [Bool.eq_iff_iff, decide_eq_true_iff, hall]
  simp [succeeds]

/-! ## Effects -/

/-- What the operation `c`, having read `s`, makes of it. -/
inductive Effect (s : OperationalState) : Call → OperationalState → Prop where
  | observed {observationId modality sourceId : String} {payload : Json} {observedAt : String}
      {confidence : Json} {memory : Except PyError String}
      (observations : List Observation) (clock : Instant) :
      Effect s (.ingestObservation observationId modality sourceId payload observedAt confidence
        memory) { s with observations, clock }
  | monitored (alerts : Dict String Alert) (clock : Instant) :
      Effect s .recordMonitoringCycle { s with alerts, clock }
  | agentRegistered {agentId kind : String} {capabilities : List String} {maxConcurrent : Int}
      {relationships metadata : Json} (agent : Agent) (clock : Instant)
      (new : s.agents.get (strip agentId) = none) (id : agent.agentId = strip agentId)
      (status : agent.status = .available) (idle : agent.activeTasks = [])
      (max : 1 ≤ agent.maxConcurrent) :
      Effect s (.registerAgent agentId kind capabilities maxConcurrent relationships metadata)
        { s with agents := s.agents.set (strip agentId) agent, clock }
  | agentStatusSet {agentId name : String} (agent : Agent) (status : AgentStatus)
      (clock : Instant) (found : s.agents.get (strip agentId) = some agent)
      (named : named AgentStatus.name agentStatuses (upper name) = some status)
      (retired : status = .retired → agent.activeTasks = []) :
      Effect s (.setAgentStatus agentId name)
        { s with agents := s.agents.set (strip agentId) { agent with status }, clock }
  | poolRegistered {resourceId : String} {capacity : Json} {unit : String} {renewable : Bool}
      (pool : Pool) (clock : Instant) (new : s.resourcePools.get (strip resourceId) = none)
      (capacity_nonneg : 0 ≤ pool.capacity) (allocated : pool.allocated = 0)
      (allocations : pool.allocations = ∅) :
      Effect s (.registerResourcePool resourceId capacity unit renewable)
        { s with resourcePools := s.resourcePools.set (strip resourceId) pool, clock }
  | goalCreated {goalId description : String} {priority : Int} {deadline : Option String}
      {dependencies : List String} {parentGoalId ownerId : Option String}
      {successCriteria : List String} {activate : Bool} (goal : Goal) (clock : Instant)
      (new : s.goals.get (strip goalId) = none)
      (status : goal.status = if activate then .active else .proposed)
      (plan : goal.activePlanId = none) :
      Effect s (.createGoal goalId description priority deadline dependencies parentGoalId ownerId
        successCriteria activate) { s with goals := s.goals.set (strip goalId) goal, clock }
  | goalMoved {goalId name reason : String} (goal : Goal) (status : GoalStatus) (clock : Instant)
      (found : s.goals.get (strip goalId) = some goal)
      (named : named GoalStatus.name goalStatuses (upper name) = some status)
      (edge : status ∈ goalTransitions goal.status) :
      Effect s (.transitionGoal goalId name reason)
        { s with
          goals := s.goals.set (strip goalId)
            { goal with status, updatedAt := clock, transitionReason := some (strip reason) }
          clock }
  | planCreated {planId goalId : String} {steps : List Json} {horizonStart : String}
      {horizonEnd : Option String} (plan : Plan) (goal : Goal) (clock : Instant)
      (new : NewPlan s planId goalId plan) (found : s.goals.get plan.goalId = some goal) :
      Effect s (.createPlan planId goalId steps horizonStart horizonEnd)
        { s with
          plans := s.plans.set plan.planId plan
          goals := s.goals.set plan.goalId (goal.withPlan plan.planId clock)
          clock }
  | planReplaced {oldPlanId newPlanId : String} {steps : List Json} {horizonStart : String}
      {horizonEnd : Option String} {reason : String} (old new : Plan) (goal : Goal)
      (clock : Instant) (found_old : s.plans.get (strip oldPlanId) = some old)
      (status : old.status = .active ∨ old.status = .paused ∨ old.status = .needsReplan)
      (idle : ∀ stepId step, old.steps.get stepId = some step →
        step.status ≠ .assigned ∧ step.status ≠ .running)
      (isNew : NewPlan s newPlanId old.goalId new) (same : new.goalId = old.goalId)
      (found : s.goals.get old.goalId = some goal) :
      Effect s (.replan oldPlanId newPlanId steps horizonStart horizonEnd reason)
        { s with
          plans := (s.plans.set (strip oldPlanId) { old with
            status := .superseded
            updatedAt := clock
            supersededBy := some new.planId
            reason := some (strip reason) }).set new.planId new
          goals := s.goals.set old.goalId (goal.withPlan new.planId clock)
          clock }
  | allocated {planId stepId : String} (plan : Plan) (step : Step) (clock : Instant)
      (located : Located s planId stepId plan step) (active : plan.status = .active)
      (pending : step.status = .pending) (unallocated : step.resourceAllocation = ∅)
      (dependencies : DependenciesDone plan step) (free : Free s step.resourceRequests) :
      Effect s (.allocateStepResources planId stepId)
        { s with
          resourcePools := s.resourcePools.adjust (Pool.reserve (taskId (strip planId) (strip stepId)))
            step.resourceRequests
          plans := s.plans.set (strip planId) { plan.withStep (strip stepId)
            { step with resourceAllocation := step.resourceRequests } with updatedAt := clock }
          clock }
  | assigned {planId stepId agentId : String} (plan : Plan) (step : Step) (agent : Agent)
      (clock : Instant) (located : Located s planId stepId plan step)
      (found : s.agents.get (strip agentId) = some agent) (active : plan.status = .active)
      (pending : step.status = .pending) (dependencies : DependenciesDone plan step)
      (allocation : step.resourceRequests = step.resourceAllocation)
      (canTake : CanTake agent step) :
      Effect s (.assignStep planId stepId agentId)
        { s with
          plans := s.plans.set (strip planId) { plan.withStep (strip stepId) { step with
            status := .assigned
            assignedAgentId := some (strip agentId)
            assignedAt := some clock } with updatedAt := clock }
          agents := s.agents.set (strip agentId)
            (agent.addTask (taskId (strip planId) (strip stepId)))
          clock }
  | dispatched {planId stepId agentId : String} (plan : Plan) (step : Step) (agent : Agent)
      (clock : Instant) (located : Located s planId stepId plan step)
      (found : s.agents.get (strip agentId) = some agent) (active : plan.status = .active)
      (pending : step.status = .pending) (unallocated : step.resourceAllocation = ∅)
      (dependencies : DependenciesDone plan step) (canTake : CanTake agent step)
      (free : Free s step.resourceRequests) :
      Effect s (.dispatchStep planId stepId agentId)
        { s with
          resourcePools := s.resourcePools.adjust (Pool.reserve (taskId (strip planId) (strip stepId)))
            step.resourceRequests
          plans := s.plans.set (strip planId) { plan.withStep (strip stepId) { step with
            resourceAllocation := step.resourceRequests
            status := .assigned
            assignedAgentId := some (strip agentId)
            assignedAt := some clock } with updatedAt := clock }
          agents := s.agents.set (strip agentId)
            (agent.addTask (taskId (strip planId) (strip stepId)))
          clock }
  | started {planId stepId : String} (plan : Plan) (step : Step) (clock : Instant)
      (located : Located s planId stepId plan step) (assigned : step.status = .assigned) :
      Effect s (.startStep planId stepId)
        { s with
          plans := s.plans.set (strip planId) { plan.withStep (strip stepId)
            { step with status := .running, startedAt := some clock } with updatedAt := clock }
          clock }
  | outcome {planId stepId : String} {success : Bool} {summary : String} {payload : Json}
      {outcomeId : String} {actualOutcomes : List String} (plan settled : Plan) (step : Step)
      (goal : Goal) (agentId : String) (agent : Agent) (actual : List String) (outcome : Outcome)
      (alerts : Dict String Alert) (learning : Dict String LearningCandidate) (clock : Instant)
      (located : Located s planId stepId plan step)
      (working : step.status = .assigned ∨ step.status = .running)
      (assignee : step.assignedAgentId = some agentId)
      (found : s.agents.get agentId = some agent)
      (unrecorded : s.outcomes.get (strip outcomeId) = none)
      (pools : HasPools s step.resourceAllocation)
      (found_goal : s.goals.get plan.goalId = some goal)
      (settled_eq : settled = { plan.withStep (strip stepId) { step with
        status := if succeeds step success actualOutcomes then .succeeded else .failed
        completedAt := some clock
        actualOutcomes := some actual } with updatedAt := clock }) :
      Effect s (.recordStepOutcome planId stepId success summary payload outcomeId actualOutcomes)
        { s with
          resourcePools := s.resourcePools.adjust (Pool.consume (taskId (strip planId) (strip stepId)))
            step.resourceAllocation
          plans := s.plans.set (strip planId)
            (settled.settle (succeeds step success actualOutcomes))
          goals := s.goals.set plan.goalId
            (goal.settle (succeeds step success actualOutcomes) settled clock)
          agents := s.agents.set agentId (agent.dropTask (taskId (strip planId) (strip stepId)))
          outcomes := s.outcomes.set (strip outcomeId) outcome
          learningCandidates := learning
          alerts, clock }
  | cancelled {planId stepId reason : String} (plan : Plan) (step : Step) (goal : Goal)
      (agents : Dict String Agent) (alerts : Dict String Alert) (clock : Instant)
      (located : Located s planId stepId plan step) (live : step.status.live = true)
      (pools : HasPools s step.resourceAllocation)
      (found_goal : s.goals.get plan.goalId = some goal)
      (agents_eq : agents = (updates (releaseAgent s (taskId (strip planId) (strip stepId))
        step.assignedAgentId) s).agents) :
      Effect s (.cancelStep planId stepId reason)
        { s with
          resourcePools := s.resourcePools.adjust (Pool.release (taskId (strip planId) (strip stepId)))
            step.resourceAllocation
          plans := s.plans.set (strip planId) { plan.withStep (strip stepId) { step with
            status := .cancelled
            completedAt := some clock
            cancellationReason := some (strip reason)
            resourceAllocation := ∅ } with
              status := .needsReplan
              updatedAt := clock }
          goals := s.goals.set plan.goalId { goal with status := .blocked, updatedAt := clock }
          agents, alerts, clock }

/-! ## The draft of every operation -/

section
variable {py : Python} {s : OperationalState} {k : Keywords} {d : Draft}

theorem stripped {value label normalized : String} (h : opIdentifier value label = .ok normalized) :
    normalized = strip value :=
  identifier_ok h

/-- An id that is not registered yet. -/
theorem not_contains {α : Type} {t : Dict String α} {id : String} {e : PyError} {u : Unit}
    (h : require (!t.contains id) e = .ok u) : t.get id = none := by
  have := require_ok.mp h
  simpa [Dict.contains] using this

theorem ingestObservation_effect {observationId modality sourceId : String} {payload : Json}
    {observedAt : String} {confidence : Json} {memory : Except PyError String}
    (h : ingestObservation py observationId modality sourceId payload observedAt confidence memory
      k = .ok d) :
    Effect s (.ingestObservation observationId modality sourceId payload observedAt confidence
      memory) (updates d.changes s) := by
  obtain ⟨_, _, h⟩ := bind_ok.mp h
  obtain ⟨_, _, h⟩ := bind_ok.mp h
  obtain ⟨_, _, h⟩ := bind_ok.mp h
  obtain ⟨_, _, h⟩ := bind_ok.mp h
  obtain ⟨_, _, h⟩ := bind_ok.mp h
  obtain ⟨_, _, h⟩ := bind_ok.mp h
  obtain ⟨_, _, h⟩ := bind_ok.mp h
  obtain ⟨_, _, h⟩ := bind_ok.mp h
  cases h
  simp only [updates_cons, updates_nil, Change.update]
  split
  · exact .observed _ _
  · exact .observed _ _

theorem registerAgent_effect {agentId kind : String} {capabilities : List String}
    {maxConcurrent : Int} {relationships metadata : Json}
    (h : registerAgent py s agentId kind capabilities maxConcurrent relationships metadata k =
      .ok d) :
    Effect s (.registerAgent agentId kind capabilities maxConcurrent relationships metadata)
      (updates d.changes s) := by
  obtain ⟨id, hid, h⟩ := bind_ok.mp h
  obtain ⟨_, hnew, h⟩ := bind_ok.mp h
  obtain ⟨_, _, h⟩ := bind_ok.mp h
  obtain ⟨_, hmax, h⟩ := bind_ok.mp h
  obtain ⟨_, _, h⟩ := bind_ok.mp h
  obtain ⟨_, _, h⟩ := bind_ok.mp h
  obtain ⟨_, _, h⟩ := bind_ok.mp h
  obtain ⟨_, _, h⟩ := bind_ok.mp h
  cases h
  cases stripped hid
  exact .agentRegistered _ _ (not_contains hnew) rfl rfl rfl (of_decide_eq_true (require_ok.mp hmax)).1

theorem setAgentStatus_effect {agentId status : String}
    (h : setAgentStatus py s agentId status k = .ok d) :
    Effect s (.setAgentStatus agentId status) (updates d.changes s) := by
  obtain ⟨id, hid, h⟩ := bind_ok.mp h
  obtain ⟨agent, hagent, h⟩ := bind_ok.mp h
  obtain ⟨status', hstatus, h⟩ := bind_ok.mp h
  obtain ⟨_, hretired, h⟩ := bind_ok.mp h
  obtain ⟨_, _, h⟩ := bind_ok.mp h
  cases h
  cases stripped hid
  have hretired : status' ≠ .retired ∨ agent.activeTasks = [] := by
    simpa using require_ok.mp hretired
  refine .agentStatusSet agent status' _ (orRaise_ok.mp hagent) (orRaise_ok.mp hstatus) ?_
  intro heq
  exact hretired.resolve_left (fun hne => hne heq)

theorem registerResourcePool_effect {resourceId : String} {capacity : Json} {unit : String}
    {renewable : Bool} (h : registerResourcePool py s resourceId capacity unit renewable k = .ok d) :
    Effect s (.registerResourcePool resourceId capacity unit renewable) (updates d.changes s) := by
  obtain ⟨id, hid, h⟩ := bind_ok.mp h
  obtain ⟨_, hnew, h⟩ := bind_ok.mp h
  obtain ⟨_, _, h⟩ := bind_ok.mp h
  obtain ⟨q, hq, h⟩ := bind_ok.mp h
  obtain ⟨_, _, h⟩ := bind_ok.mp h
  cases h
  cases stripped hid
  exact .poolRegistered _ _ (not_contains hnew) (opNumber_ok hq) rfl rfl

theorem createGoal_effect {goalId description : String} {priority : Int}
    {deadline : Option String} {dependencies : List String} {parentGoalId ownerId : Option String}
    {successCriteria : List String} {activate : Bool}
    (h : createGoal py s goalId description priority deadline dependencies parentGoalId ownerId
      successCriteria activate k = .ok d) :
    Effect s (.createGoal goalId description priority deadline dependencies parentGoalId ownerId
      successCriteria activate) (updates d.changes s) := by
  obtain ⟨id, hid, h⟩ := bind_ok.mp h
  obtain ⟨_, hnew, h⟩ := bind_ok.mp h
  obtain ⟨_, _, h⟩ := bind_ok.mp h
  obtain ⟨_, _, h⟩ := bind_ok.mp h
  obtain ⟨_, _, h⟩ := bind_ok.mp h
  obtain ⟨_, _, h⟩ := bind_ok.mp h
  obtain ⟨_, _, h⟩ := bind_ok.mp h
  obtain ⟨_, _, h⟩ := bind_ok.mp h
  obtain ⟨_, _, h⟩ := bind_ok.mp h
  obtain ⟨_, _, h⟩ := bind_ok.mp h
  obtain ⟨_, _, h⟩ := bind_ok.mp h
  obtain ⟨_, _, h⟩ := bind_ok.mp h
  obtain ⟨_, _, h⟩ := bind_ok.mp h
  obtain ⟨_, _, h⟩ := bind_ok.mp h
  cases h
  cases stripped hid
  exact .goalCreated _ _ (not_contains hnew) rfl rfl

theorem transitionGoal_effect {goalId status reason : String}
    (h : transitionGoal py s goalId status reason k = .ok d) :
    Effect s (.transitionGoal goalId status reason) (updates d.changes s) := by
  obtain ⟨id, hid, h⟩ := bind_ok.mp h
  obtain ⟨goal, hgoal, h⟩ := bind_ok.mp h
  obtain ⟨status', hstatus, h⟩ := bind_ok.mp h
  obtain ⟨_, _, h⟩ := bind_ok.mp h
  obtain ⟨_, _, h⟩ := bind_ok.mp h
  obtain ⟨_, _, h⟩ := bind_ok.mp h
  cases h
  cases stripped hid
  obtain ⟨hnamed, hedge⟩ := Option.filter_eq_some_iff.mp (orRaise_ok.mp hstatus)
  exact .goalMoved goal status' _ (orRaise_ok.mp hgoal) hnamed (of_decide_eq_true hedge)

theorem createPlan_effect {planId goalId : String} {steps : List Json} {horizonStart : String}
    {horizonEnd : Option String}
    (h : createPlan py s planId goalId steps horizonStart horizonEnd k = .ok d) :
    Effect s (.createPlan planId goalId steps horizonStart horizonEnd) (updates d.changes s) := by
  obtain ⟨_, _, h⟩ := bind_ok.mp h
  obtain ⟨plan, hplan, h⟩ := bind_ok.mp h
  obtain ⟨goal, hgoal, h⟩ := bind_ok.mp h
  cases h
  exact .planCreated plan goal _ (buildPlan_ok py hplan).1 (orRaise_ok.mp hgoal)

theorem replan_effect {oldPlanId newPlanId : String} {steps : List Json} {horizonStart : String}
    {horizonEnd : Option String} {reason : String}
    (h : replan py s oldPlanId newPlanId steps horizonStart horizonEnd reason k = .ok d) :
    Effect s (.replan oldPlanId newPlanId steps horizonStart horizonEnd reason)
      (updates d.changes s) := by
  obtain ⟨id, hid, h⟩ := bind_ok.mp h
  obtain ⟨old, hold, h⟩ := bind_ok.mp h
  obtain ⟨_, hstatus, h⟩ := bind_ok.mp h
  obtain ⟨_, hidle, h⟩ := bind_ok.mp h
  obtain ⟨_, _, h⟩ := bind_ok.mp h
  obtain ⟨_, _, h⟩ := bind_ok.mp h
  obtain ⟨new, hnew, h⟩ := bind_ok.mp h
  obtain ⟨goal, hgoal, h⟩ := bind_ok.mp h
  cases h
  cases stripped hid
  obtain ⟨hisNew, hsupersedes⟩ := buildPlan_ok py hnew
  obtain ⟨previous, hprevious, hsame⟩ := hsupersedes _ rfl
  have hold := orRaise_ok.mp hold
  rw [hold] at hprevious
  cases hprevious
  refine .planReplaced old new goal _ hold (by simpa using require_ok.mp hstatus) ?_ hisNew
    hsame.symm (orRaise_ok.mp hgoal)
  intro stepId step hstep
  have hall := List.all_eq_true.mp (require_ok.mp hidle)
  simpa using hall step (Dict.mem_values.mpr ⟨stepId, hstep⟩)

theorem allocateStepResources_effect {planId stepId : String}
    (h : allocateStepResources py s planId stepId k = .ok d) :
    Effect s (.allocateStepResources planId stepId) (updates d.changes s) := by
  obtain ⟨_, hplanId, h⟩ := bind_ok.mp h
  obtain ⟨_, hstepId, h⟩ := bind_ok.mp h
  obtain ⟨⟨plan, step⟩, hstep, h⟩ := bind_ok.mp h
  obtain ⟨_, hactive, h⟩ := bind_ok.mp h
  obtain ⟨_, hpending, h⟩ := bind_ok.mp h
  obtain ⟨_, hdependencies, h⟩ := bind_ok.mp h
  obtain ⟨_, hcapacity, h⟩ := bind_ok.mp h
  obtain ⟨pools, hpools, h⟩ := bind_ok.mp h
  obtain ⟨_, _, h⟩ := bind_ok.mp h
  cases h
  cases stripped hplanId
  cases stripped hstepId
  obtain ⟨hpending, hunallocated⟩ := of_decide_eq_true (require_ok.mp hpending)
  rw [updates_append, (poolChanges_ok hpools).2]
  exact .allocated plan step _ (planStep_ok hstep) (of_decide_eq_true (require_ok.mp hactive))
    hpending hunallocated (checkDependenciesDone_ok hdependencies) (checkCapacity_ok hcapacity)

theorem assignStep_effect {planId stepId agentId : String}
    (h : assignStep py s planId stepId agentId k = .ok d) :
    Effect s (.assignStep planId stepId agentId) (updates d.changes s) := by
  obtain ⟨_, hplanId, h⟩ := bind_ok.mp h
  obtain ⟨_, hstepId, h⟩ := bind_ok.mp h
  obtain ⟨_, hagentId, h⟩ := bind_ok.mp h
  obtain ⟨⟨plan, step⟩, hstep, h⟩ := bind_ok.mp h
  obtain ⟨agent, hagent, h⟩ := bind_ok.mp h
  obtain ⟨_, hactive, h⟩ := bind_ok.mp h
  obtain ⟨_, hpending, h⟩ := bind_ok.mp h
  obtain ⟨_, hdependencies, h⟩ := bind_ok.mp h
  obtain ⟨_, hallocation, h⟩ := bind_ok.mp h
  obtain ⟨_, htake, h⟩ := bind_ok.mp h
  obtain ⟨_, _, h⟩ := bind_ok.mp h
  cases h
  cases stripped hplanId
  cases stripped hstepId
  cases stripped hagentId
  exact .assigned plan step agent _ (planStep_ok hstep) (orRaise_ok.mp hagent)
    (of_decide_eq_true (require_ok.mp hactive)) (of_decide_eq_true (require_ok.mp hpending))
    (checkDependenciesDone_ok hdependencies) (of_decide_eq_true (require_ok.mp hallocation))
    (checkAgent_ok htake)

theorem dispatchStep_effect {planId stepId agentId : String}
    (h : dispatchStep py s planId stepId agentId k = .ok d) :
    Effect s (.dispatchStep planId stepId agentId) (updates d.changes s) := by
  obtain ⟨_, hplanId, h⟩ := bind_ok.mp h
  obtain ⟨_, hstepId, h⟩ := bind_ok.mp h
  obtain ⟨_, hagentId, h⟩ := bind_ok.mp h
  obtain ⟨⟨plan, step⟩, hstep, h⟩ := bind_ok.mp h
  obtain ⟨agent, hagent, h⟩ := bind_ok.mp h
  obtain ⟨_, hactive, h⟩ := bind_ok.mp h
  obtain ⟨_, hpending, h⟩ := bind_ok.mp h
  obtain ⟨_, hdependencies, h⟩ := bind_ok.mp h
  obtain ⟨_, htake, h⟩ := bind_ok.mp h
  obtain ⟨_, hcapacity, h⟩ := bind_ok.mp h
  obtain ⟨_, _, h⟩ := bind_ok.mp h
  obtain ⟨pools, hpools, h⟩ := bind_ok.mp h
  cases h
  cases stripped hplanId
  cases stripped hstepId
  cases stripped hagentId
  obtain ⟨hpending, hunallocated⟩ := of_decide_eq_true (require_ok.mp hpending)
  rw [updates_append, (poolChanges_ok hpools).2]
  exact .dispatched plan step agent _ (planStep_ok hstep) (orRaise_ok.mp hagent)
    (of_decide_eq_true (require_ok.mp hactive)) hpending hunallocated
    (checkDependenciesDone_ok hdependencies) (checkAgent_ok htake) (checkCapacity_ok hcapacity)

theorem startStep_effect {planId stepId : String} (h : startStep py s planId stepId k = .ok d) :
    Effect s (.startStep planId stepId) (updates d.changes s) := by
  obtain ⟨_, hplanId, h⟩ := bind_ok.mp h
  obtain ⟨_, hstepId, h⟩ := bind_ok.mp h
  obtain ⟨⟨plan, step⟩, hstep, h⟩ := bind_ok.mp h
  obtain ⟨_, hassigned, h⟩ := bind_ok.mp h
  obtain ⟨_, _, h⟩ := bind_ok.mp h
  cases h
  cases stripped hplanId
  cases stripped hstepId
  exact .started plan step _ (planStep_ok hstep) (of_decide_eq_true (require_ok.mp hassigned))

theorem updates_alert (b : Bool) (id : String) (a : Alert) (t : OperationalState) :
    updates (if b = true then [] else [.alert id a]) t =
      { t with alerts := if b = true then t.alerts else t.alerts.set id a } := by
  cases b <;> rfl

theorem recordStepOutcome_effect {planId stepId : String} {success : Bool} {summary : String}
    {payload : Json} {outcomeId : String} {actualOutcomes : List String}
    (h : recordStepOutcome py s planId stepId success summary payload outcomeId actualOutcomes k =
      .ok d) :
    Effect s (.recordStepOutcome planId stepId success summary payload outcomeId actualOutcomes)
      (updates d.changes s) := by
  obtain ⟨_, hplanId, h⟩ := bind_ok.mp h
  obtain ⟨_, hstepId, h⟩ := bind_ok.mp h
  obtain ⟨_, houtcomeId, h⟩ := bind_ok.mp h
  obtain ⟨_, hunrecorded, h⟩ := bind_ok.mp h
  obtain ⟨⟨plan, step⟩, hstep, h⟩ := bind_ok.mp h
  obtain ⟨_, hworking, h⟩ := bind_ok.mp h
  obtain ⟨agentId, hagentId, h⟩ := bind_ok.mp h
  obtain ⟨agent, hagent, h⟩ := bind_ok.mp h
  obtain ⟨_, _, h⟩ := bind_ok.mp h
  obtain ⟨actual, hactual, h⟩ := bind_ok.mp h
  obtain ⟨pools, hpools, h⟩ := bind_ok.mp h
  obtain ⟨_, _, h⟩ := bind_ok.mp h
  obtain ⟨_, _, h⟩ := bind_ok.mp h
  obtain ⟨goal, hgoal, h⟩ := bind_ok.mp h
  cases h
  cases stripped hplanId
  cases stripped hstepId
  cases stripped houtcomeId
  rw [updates_append, updates_append, updates_append, (poolChanges_ok hpools).2]
  simp only [succeeds_eq hactual, updates_alert]
  exact .outcome plan _ step goal agentId agent actual _ _ _ _ (planStep_ok hstep)
    (of_decide_eq_true (require_ok.mp hworking)) (orRaise_ok.mp hagentId) (orRaise_ok.mp hagent)
    (not_contains hunrecorded) (poolChanges_ok hpools).1 (orRaise_ok.mp hgoal) rfl

theorem updates_releaseAgent {task : String} {agentId : Option String} (t : OperationalState)
    (h : t.agents = s.agents) :
    updates (releaseAgent s task agentId) t =
      { t with agents := (updates (releaseAgent s task agentId) s).agents } := by
  unfold releaseAgent
  split
  · simp [← h]
  · split
    · simp [← h]
    · simp [Change.update, h]

theorem cancelStep_effect {planId stepId reason : String}
    (h : cancelStep py s planId stepId reason k = .ok d) :
    Effect s (.cancelStep planId stepId reason) (updates d.changes s) := by
  obtain ⟨_, hplanId, h⟩ := bind_ok.mp h
  obtain ⟨_, hstepId, h⟩ := bind_ok.mp h
  obtain ⟨⟨plan, step⟩, hstep, h⟩ := bind_ok.mp h
  obtain ⟨_, hlive, h⟩ := bind_ok.mp h
  obtain ⟨_, _, h⟩ := bind_ok.mp h
  obtain ⟨_, _, h⟩ := bind_ok.mp h
  obtain ⟨pools, hpools, h⟩ := bind_ok.mp h
  obtain ⟨goal, hgoal, h⟩ := bind_ok.mp h
  cases h
  cases stripped hplanId
  cases stripped hstepId
  rw [updates_append, updates_append, (poolChanges_ok hpools).2, updates_releaseAgent]
  · exact .cancelled plan step goal _ _ _ (planStep_ok hstep) (require_ok.mp hlive)
      (poolChanges_ok hpools).1 (orRaise_ok.mp hgoal) rfl
  · rfl

theorem updates_alerts (alerts : List Alert) (t : OperationalState) :
    ∃ as, updates (alerts.map (fun a => Change.alert a.alertId a)) t = { t with alerts := as } := by
  induction alerts generalizing t with
  | nil => exact ⟨t.alerts, rfl⟩
  | cons a alerts ih => exact ih _

theorem recordMonitoringCycle_effect (h : recordMonitoringCycle py (some s) k = .ok d) :
    Effect s .recordMonitoringCycle (updates d.changes s) := by
  obtain ⟨observedAt, _, h⟩ := bind_ok.mp h
  obtain ⟨t, ht, h⟩ := bind_ok.mp h
  cases ht
  cases h
  rw [updates_append]
  obtain ⟨as, has⟩ := updates_alerts (monitor py s observedAt) s
  rw [has]
  exact .monitored as observedAt

theorem snapshot_some {f : OperationalState → Except PyError Draft}
    (h : (snapshot (some s) >>= f) = .ok d) : f s = .ok d := h

/-- **Every operation has its effect.** The changes an operation drafts from the state
it read lead from that state along `Effect`. -/
theorem draft_effect {c : Call} (h : c.draft py k (some s) = .ok d) :
    Effect s c (updates d.changes s) := by
  cases c with
  | initializeExistingWorld => cases h
  | ingestObservation => exact ingestObservation_effect h
  | registerAgent => exact registerAgent_effect (snapshot_some h)
  | setAgentStatus => exact setAgentStatus_effect (snapshot_some h)
  | registerResourcePool => exact registerResourcePool_effect (snapshot_some h)
  | createGoal => exact createGoal_effect (snapshot_some h)
  | transitionGoal => exact transitionGoal_effect (snapshot_some h)
  | createPlan => exact createPlan_effect (snapshot_some h)
  | replan => exact replan_effect (snapshot_some h)
  | allocateStepResources => exact allocateStepResources_effect (snapshot_some h)
  | assignStep => exact assignStep_effect (snapshot_some h)
  | dispatchStep => exact dispatchStep_effect (snapshot_some h)
  | startStep => exact startStep_effect (snapshot_some h)
  | recordStepOutcome => exact recordStepOutcome_effect (snapshot_some h)
  | cancelStep => exact cancelStep_effect (snapshot_some h)
  | recordMonitoringCycle => exact recordMonitoringCycle_effect h

/-- What an event does to the state of its world: it initializes it or has the effect
of its call. -/
inductive StateStep (c : Call) : Option OperationalState → Option OperationalState → Prop where
  | initialized (h : c = .initializeExistingWorld) (now : Instant) :
      StateStep c none (some (operationalState now))
  | effect {s s' : OperationalState} (h : Effect s c s') : StateStep c (some s) (some s')

theorem draft_none {c : Call} (h : c.draft py k none = .ok d) :
    (c = .initializeExistingWorld ∧ ∃ now, d.changes = [.initialized (operationalState now)]) ∨
      ∃ o now, d.changes = [.observed o, .clock now] := by
  cases c with
  | initializeExistingWorld =>
    obtain ⟨_, _, h⟩ := bind_ok.mp h
    obtain ⟨stamp, _, h⟩ := bind_ok.mp h
    cases h
    exact .inl ⟨rfl, stamp, rfl⟩
  | ingestObservation =>
    obtain ⟨_, _, h⟩ := bind_ok.mp h
    obtain ⟨_, _, h⟩ := bind_ok.mp h
    obtain ⟨_, _, h⟩ := bind_ok.mp h
    obtain ⟨_, _, h⟩ := bind_ok.mp h
    obtain ⟨_, _, h⟩ := bind_ok.mp h
    obtain ⟨_, _, h⟩ := bind_ok.mp h
    obtain ⟨_, _, h⟩ := bind_ok.mp h
    obtain ⟨_, _, h⟩ := bind_ok.mp h
    cases h
    exact .inr ⟨_, _, rfl⟩
  | recordMonitoringCycle =>
    obtain ⟨_, _, h⟩ := bind_ok.mp h
    cases h
  | _ => cases h

theorem commits_state {l l' : Ledger} {c : Call} (h : Commits py l (c, k) l') :
    StateStep c l.state l'.state := by
  obtain ⟨d, hdraft, hcommitted⟩ := h
  have hstate := hcommitted.state
  cases hl : l.state with
  | some s =>
    rw [hl] at hdraft hstate
    rw [applyChanges_some] at hstate
    rw [← Except.ok.inj hstate]
    exact .effect (draft_effect hdraft)
  | none =>
    rw [hl] at hdraft hstate
    rcases draft_none hdraft with ⟨hc, now, hchanges⟩ | ⟨o, now, hchanges⟩
    · rw [hchanges] at hstate
      rw [← Except.ok.inj hstate]
      exact .initialized hc now
    · -- there is no list of observations to append to
      rw [hchanges] at hstate
      cases hstate

end

end Edon.Operations
