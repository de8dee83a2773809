import EdonPlatform.Operations.State
import EdonPlatform.Lib.Precedence
import Mathlib.Tactic.Linarith

/- Plans of steps (edon/operations/control.py): the normalization of the raw steps a
   caller hands in, their topological order, and the plan built from them.

   Correspondence (Python ↔ Lean):
     `_topological_order`              ↔ `topologicalOrder`
     `_normalize_steps`                ↔ `normalizeSteps`
     `_build_plan`                     ↔ `buildPlan` -/
namespace Edon.Operations

/-! ## Topological order -/

/-- The local variables of `_topological_order`. -/
structure Topology where
  incoming : Dict String (List String)
  ready : List String
  order : List String

/-- The body of the inner loop: `candidate` no longer waits for `stepId`. -/
def unblock (stepId : String) (t : Topology) (candidate : String) : Topology :=
  match t.incoming.get candidate with
  | none => t
  | some waiting =>
    if stepId ∈ waiting then
      let waiting := waiting.erase stepId
      { t with
        incoming := t.incoming.set candidate waiting
        ready :=
          if waiting = [] ∧ candidate ∉ t.order ∧ candidate ∉ t.ready then
            (t.ready ++ [candidate]).insertionSort (· ≤ ·)
          else t.ready }
    else t

/-- `while ready`. A step enters `ready` once, so the number of steps is enough fuel. -/
def topologyLoop : Nat → Topology → Topology
  | 0, t => t
  | fuel + 1, t =>
    match t.ready with
    | [] => t
    | stepId :: ready =>
      topologyLoop fuel
        (t.incoming.keys.foldl (unblock stepId) { t with ready, order := t.order ++ [stepId] })

def topologicalOrder (steps : Dict String Step) : Except PyError (List String) :=
  let incoming : Dict String (List String) := steps.map (fun _ step => sortedSet step.dependencies)
  let ready := incoming.keys.filter (fun stepId => incoming.get stepId = some [])
  let t := topologyLoop steps.keys.length { incoming, ready, order := [] }
  if t.order.length ≠ steps.keys.length then
    .error (operationsError "plan step dependencies contain a cycle")
  else .ok t.order

/-- What the loop keeps, for the dependencies it was started with. -/
structure Topology.Sound (dependencies : Dict String (List String)) (t : Topology) : Prop where
  keys : ∀ id, (t.incoming.get id).isSome = (dependencies.get id).isSome
  waits : ∀ id waiting ds, t.incoming.get id = some waiting → dependencies.get id = some ds →
    ∀ d ∈ ds, d ∈ waiting ∨ d ∈ t.order
  ready : ∀ id ∈ t.ready, t.incoming.get id = some []
  nodup : (t.order ++ t.ready).Nodup
  known : ∀ id ∈ t.order, (dependencies.get id).isSome = true
  ordered : Precedence.Ordered (fun id d => ∃ ds, dependencies.get id = some ds ∧ d ∈ ds) t.order

section
variable {dependencies : Dict String (List String)} {t : Topology} {stepId : String}

theorem unblock_order (stepId : String) (t : Topology) (candidate : String) :
    (unblock stepId t candidate).order = t.order := by
  unfold unblock
  split
  · rfl
  · split <;> rfl

/-- A candidate that no longer waits for anything becomes ready once. -/
theorem unblock_ready_nodup (h : (t.order ++ t.ready).Nodup) {candidate : String}
    (horder : candidate ∉ t.order) (hready : candidate ∉ t.ready) :
    (t.order ++ (t.ready ++ [candidate]).insertionSort (· ≤ ·)).Nodup := by
  have hperm : (t.order ++ (t.ready ++ [candidate]).insertionSort (· ≤ ·)).Perm
      ((t.order ++ t.ready) ++ [candidate]) := by
    rw [List.append_assoc]
    exact (List.perm_insertionSort _ _).append_left _
  rw [hperm.nodup_iff, ← List.concat_eq_append]
  apply h.concat
  simp [horder, hready]

theorem unblock_sound (h : t.Sound dependencies) (hdone : stepId ∈ t.order) (candidate : String) :
    (unblock stepId t candidate).Sound dependencies := by
  cases hwaiting : t.incoming.get candidate with
  | none =>
    unfold unblock
    rw [hwaiting]
    exact h
  | some waiting =>
    by_cases hmem : stepId ∈ waiting
    · have hunblock : unblock stepId t candidate = { t with
          incoming := t.incoming.set candidate (waiting.erase stepId)
          ready :=
            if waiting.erase stepId = [] ∧ candidate ∉ t.order ∧ candidate ∉ t.ready then
              (t.ready ++ [candidate]).insertionSort (· ≤ ·)
            else t.ready } := by
        unfold unblock
        rw [hwaiting]
        exact if_pos hmem
      rw [hunblock]
      refine ⟨?_, ?_, ?_, ?_, h.known, h.ordered⟩
      · intro id
        show ((t.incoming.set candidate _).get id).isSome = _
        rw [Dict.get_set]
        split
        · next heq =>
          rw [← heq, ← h.keys, hwaiting]
          rfl
        · exact h.keys id
      · intro id waiting' ds hget hds d hd
        change (t.incoming.set candidate (waiting.erase stepId)).get id = some waiting' at hget
        rw [Dict.get_set] at hget
        split at hget
        · next heq =>
          subst heq
          cases hget
          rcases h.waits candidate waiting ds hwaiting hds d hd with hw | ho
          · by_cases heq : d = stepId
            · exact .inr (heq ▸ hdone)
            · exact .inl ((List.mem_erase_of_ne heq).mpr hw)
          · exact .inr ho
        · exact h.waits id waiting' ds hget hds d hd
      · intro id hid
        show (t.incoming.set candidate (waiting.erase stepId)).get id = some []
        rw [Dict.get_set]
        have hold : id ∈ t.ready → candidate ≠ id := by
          rintro hr rfl
          -- what is ready waits for nothing
          rw [h.ready candidate hr] at hwaiting
          cases hwaiting
          cases hmem
        dsimp only at hid
        split at hid
        · next hnew =>
          rw [List.mem_insertionSort] at hid
          rcases List.mem_append.mp hid with hid | hid
          · rw [if_neg (hold hid)]
            exact h.ready id hid
          · rw [if_pos (List.mem_singleton.mp hid).symm, hnew.1]
        · rw [if_neg (hold hid)]
          exact h.ready id hid
      · show (t.order ++ if _ then _ else _).Nodup
        split
        · next hnew => exact unblock_ready_nodup h.nodup hnew.2.1 hnew.2.2
        · exact h.nodup
    · have hunblock : unblock stepId t candidate = t := by
        unfold unblock
        rw [hwaiting]
        exact if_neg hmem
      rw [hunblock]
      exact h

theorem unblock_all_sound (candidates : List String) (h : t.Sound dependencies)
    (hdone : stepId ∈ t.order) : (candidates.foldl (unblock stepId) t).Sound dependencies := by
  induction candidates generalizing t with
  | nil => exact h
  | cons candidate candidates ih =>
    apply ih (unblock_sound h hdone candidate)
    rw [unblock_order]
    exact hdone

/-- A ready step goes to the end of the order: what it waited for is there. -/
theorem pop_sound {ready : List String} (h : t.Sound dependencies) (hready : t.ready = stepId :: ready) :
    ({ t with ready, order := t.order ++ [stepId] } : Topology).Sound dependencies := by
  have hincoming := h.ready stepId (by simp [hready])
  have hknown : (dependencies.get stepId).isSome = true := by
    rw [← h.keys, hincoming]
    rfl
  refine ⟨h.keys, ?_, ?_, ?_, ?_, ?_⟩
  · intro id waiting ds hget hds d hd
    rcases h.waits id waiting ds hget hds d hd with hw | ho
    · exact .inl hw
    · exact .inr (List.mem_append_left _ ho)
  · intro id hid
    exact h.ready id (by simp [hready, show id ∈ ready from hid])
  · have hnodup := h.nodup
    rw [hready] at hnodup
    simpa using hnodup
  · intro id hid
    rcases List.mem_append.mp hid with hid | hid
    · exact h.known id hid
    · rw [List.mem_singleton.mp hid]
      exact hknown
  · apply h.ordered.snoc
    rintro d ⟨ds, hds, hd⟩
    rcases h.waits stepId [] ds hincoming hds d hd with hw | ho
    · cases hw
    · exact ho

theorem topologyLoop_sound (fuel : Nat) (h : t.Sound dependencies) :
    (topologyLoop fuel t).Sound dependencies := by
  induction fuel generalizing t with
  | zero => exact h
  | succ fuel ih =>
    unfold topologyLoop
    split
    · exact h
    · next stepId ready hready =>
      apply ih
      apply unblock_all_sound
      · exact pop_sound h hready
      · simp

end

/-- An order with as many steps as there are has all of them. -/
theorem Topology.Sound.mem_iff {dependencies : Dict String (List String)} {t : Topology}
    (h : t.Sound dependencies) (keys : List String) (hsubset : ∀ id ∈ t.order, id ∈ keys)
    (hlength : t.order.length = keys.length) (id : String) : id ∈ t.order ↔ id ∈ keys := by
  have hnodup := (List.nodup_append.mp h.nodup).1
  exact ((List.subperm_of_subset hnodup hsubset).perm_of_length_le hlength.ge).mem_iff

/-- The dependencies of the steps, as the order sees them. -/
def dependsOn (steps : Dict String Step) (stepId d : String) : Prop :=
  ∃ step, steps.get stepId = some step ∧ d ∈ step.dependencies

/-- The loop starts with the steps that depend on nothing. -/
theorem topology_start (dependencies : Dict String (List String)) :
    ({ incoming := dependencies
       ready := dependencies.keys.filter (fun id => dependencies.get id = some [])
       order := [] } : Topology).Sound dependencies where
  keys _ := rfl
  waits := by
    intro id waiting ds hget hds d hd
    rw [hds] at hget
    cases hget
    exact .inl hd
  ready := by
    intro id hid
    simpa using (List.mem_filter.mp hid).2
  nodup := dependencies.keys_nodup.filter _
  known := by simp
  ordered := .nil

/-- The order has every step, after the steps it depends on. -/
theorem topologicalOrder_ok {steps : Dict String Step} {order : List String}
    (h : topologicalOrder steps = .ok order) :
    Precedence.Ordered (dependsOn steps) order ∧
      ∀ stepId, stepId ∈ order ↔ (steps.get stepId).isSome = true := by
  unfold topologicalOrder at h
  dsimp only at h
  split at h
  · cases h
  · next hlength =>
    cases h
    have hsound := topologyLoop_sound steps.keys.length
      (topology_start (steps.map (fun _ step => sortedSet step.dependencies)))
    refine ⟨hsound.ordered.mono ?_, ?_⟩
    · rintro stepId d ⟨step, hstep, hd⟩
      refine ⟨sortedSet step.dependencies, ?_, mem_sortedSet.mpr hd⟩
      rw [Dict.get_map, hstep]
      rfl
    · intro stepId
      rw [hsound.mem_iff steps.keys _ (not_not.mp hlength), Dict.mem_keys]
      intro id hid
      have hknown := hsound.known id hid
      rw [Dict.get_map, Option.isSome_map] at hknown
      exact Dict.mem_keys.mpr hknown

/-! ## Raw steps -/

section
variable (py : Python)

/-- `raw.get(key, default)`. -/
def getOr (raw : Fields) (key : String) (default : Json) : Json :=
  (Assoc.find raw key).getD default

/-- `_string_set(raw.get(key, []), label)`. -/
def stringSetField (raw : Fields) (key label : String) : Except PyError (List String) := do
  let values ← iterate (getOr raw key (.arr []))
  stringSet (values.map (pyStr py)) label

/-- `_timestamp(raw[key], label) if raw.get(key) else None`. -/
def timestampField (raw : Fields) (key label : String) : Except PyError (Option Instant) :=
  let value := getOr raw key .null
  if truthy value then some <$> opTimestamp py (pyStr py value) label else .ok none

def resourceRequest (entry : String × Json) : Except PyError (String × Rat) := do
  let resourceId ← opIdentifier entry.1 "resource_id"
  let amount ← opNumber entry.2 "resource request" (1 / 1000000) "1e-06"
  return (resourceId, amount)

def normalizeStep (raw : Fields) (taken : List Step) : Except PyError Step := do
  let stepId ← opIdentifier (pyStr py (getOr raw "step_id" (.str ""))) "step_id"
  require (taken.all (fun step => step.stepId ≠ stepId))
    (operationsError ("duplicate plan step: " ++ stepId))
  let action := strip (pyStr py (getOr raw "action" (.str "")))
  require (3 ≤ action.length ∧ action.length ≤ 10000)
    (operationsError "step action must contain between 3 and 10000 characters")
  let rawRequests ← opObject (getOr raw "resource_requests" (.obj [])) "resource_requests"
  let requests ← rawRequests.mapM resourceRequest
  let command ← opObject (getOr raw "command" (.obj [])) "command"
  let dependencies ← stringSetField py raw "dependencies" "step dependency"
  let requiredCapabilities ←
    stringSetField py raw "required_capabilities" "required capability"
  let earliestStart ← timestampField py raw "earliest_start" "earliest_start"
  let deadline ← timestampField py raw "deadline" "step deadline"
  let expectedOutcomes ← stringSetField py raw "expected_outcomes" "expected outcome"
  return {
    stepId, action, dependencies, requiredCapabilities
    resourceRequests := Dict.ofList requests
    resourceAllocation := ∅
    earliestStart, deadline, expectedOutcomes
    command :=
      if command = [] then [] else Assoc.put command "binding_authority" (.bool false)
    status := .pending
    assignedAgentId := none
    assignedAt := none
    startedAt := none
    completedAt := none }

/-- The loop over the raw steps, with the steps it has built. -/
def normalizeFrom : Nat → List Step → List Json → Except PyError (List Step)
  | _, steps, [] => .ok steps
  | index, steps, .obj raw :: rest => do
    let step ← normalizeStep py raw steps
    normalizeFrom (index + 1) (steps ++ [step]) rest
  | index, _, _ :: _ =>
    .error (operationsError ("plan step " ++ toString index ++ " must be an object"))

/-- The checks of one step against the whole plan. -/
def checkDependencies (steps : Dict String Step) (step : Step) : Except PyError Unit := do
  let missing := step.dependencies.filter (fun d => !steps.contains d)
  require (missing = [])
    (operationsError ("step dependencies are not in the plan: " ++ ", ".intercalate missing))
  require (step.stepId ∉ step.dependencies)
    (operationsError "a plan step cannot depend on itself")

/-- The steps in the order they were given, by id, and in topological order. -/
def normalizeSteps (rawSteps : List Json) :
    Except PyError (List Step × Dict String Step × List String) := do
  let given ← normalizeFrom py 0 [] rawSteps
  require (given ≠ []) (operationsError "a plan must contain at least one step")
  let steps := Dict.ofList (given.map (fun step => (step.stepId, step)))
  given.forM (checkDependencies steps)
  let order ← topologicalOrder steps
  return (given, steps, order)

/-! ## Plans -/

/-- The checks of one step against the horizon of the plan. -/
def checkHorizon (start : Instant) (finish : Option Instant) (step : Step) :
    Except PyError Unit := do
  require (step.earliestStart.all (fun t => start ≤ t))
    (operationsError "step earliest_start precedes the plan horizon")
  require (finish.all (fun e => step.deadline.all (fun t => t ≤ e)))
    (operationsError "step deadline exceeds the plan horizon")

/-- The revision of a plan: one more than that of the plan it supersedes. -/
def planRevision (s : OperationalState) (goalId : String) (supersedes : Option String) :
    Except PyError Int :=
  match supersedes with
  | none => .ok 1
  | some planId => do
    let previous ← orRaise (operationsError "superseded plan is not registered")
      (s.plans.get planId)
    require (previous.goalId = goalId)
      (operationsError "a replacement plan must serve the same goal")
    return previous.revision + 1

def buildPlan (s : OperationalState) (planId goalId : String) (rawSteps : List Json)
    (horizonStart : String) (horizonEnd : Option String) (createdAt : Instant)
    (supersedes : Option String) : Except PyError Plan := do
  let planId ← opIdentifier planId "plan_id"
  require (!s.plans.contains planId) (operationsError "plan is already registered")
  let goalId ← opIdentifier goalId "goal_id"
  let goal ← orRaise (operationsError "plan goal is not registered") (s.goals.get goalId)
  require (goal.status = .active ∨ goal.status = .blocked)
    (operationsError "plan goal must be active or blocked")
  let start ← opTimestamp py horizonStart "horizon_start"
  let finish ← optionalTimestamp py horizonEnd "horizon_end"
  require (finish.all (fun e => start < e))
    (operationsError "horizon_end must be after horizon_start")
  let (given, steps, order) ← normalizeSteps py rawSteps
  given.forM (checkHorizon start finish)
  let revision ← planRevision s goalId supersedes
  return {
    planId, goalId, revision
    status := .active
    horizonStart := start
    horizonEnd := finish
    supersedes
    stepOrder := order
    steps, createdAt
    updatedAt := createdAt }

/-! ## What a new plan is -/

/-- A step nobody has worked on. -/
structure Step.Fresh (step : Step) : Prop where
  status : step.status = .pending
  allocation : step.resourceAllocation = ∅
  agent : step.assignedAgentId = none
  requests : ∀ r amount, step.resourceRequests.get r = some amount → 0 < amount

theorem resourceRequest_pos {entry : String × Json} {r : String × Rat}
    (h : resourceRequest entry = .ok r) : 0 < r.2 := by
  obtain ⟨_, _, h⟩ := bind_ok.mp h
  obtain ⟨amount, hamount, h⟩ := bind_ok.mp h
  cases h
  have := opNumber_ok hamount
  show 0 < amount
  linarith

theorem normalizeStep_fresh {raw : Fields} {taken : List Step} {step : Step}
    (h : normalizeStep py raw taken = .ok step) : step.Fresh := by
  obtain ⟨_, _, h⟩ := bind_ok.mp h
  obtain ⟨_, _, h⟩ := bind_ok.mp h
  obtain ⟨_, _, h⟩ := bind_ok.mp h
  obtain ⟨_, _, h⟩ := bind_ok.mp h
  obtain ⟨requests, hrequests, h⟩ := bind_ok.mp h
  obtain ⟨_, _, h⟩ := bind_ok.mp h
  obtain ⟨_, _, h⟩ := bind_ok.mp h
  obtain ⟨_, _, h⟩ := bind_ok.mp h
  obtain ⟨_, _, h⟩ := bind_ok.mp h
  obtain ⟨_, _, h⟩ := bind_ok.mp h
  obtain ⟨_, _, h⟩ := bind_ok.mp h
  cases h
  refine ⟨rfl, rfl, rfl, ?_⟩
  intro r amount hr
  obtain ⟨entry, _, hentry⟩ := mem_of_mapM hrequests _ (Dict.mem_of_get_ofList hr)
  exact resourceRequest_pos hentry

theorem normalizeFrom_fresh {index : Nat} {steps given : List Step} {raws : List Json}
    (h : normalizeFrom py index steps raws = .ok given) (hsteps : ∀ step ∈ steps, step.Fresh) :
    ∀ step ∈ given, step.Fresh := by
  induction raws generalizing index steps with
  | nil =>
    cases h
    exact hsteps
  | cons raw raws ih =>
    cases raw with
    | obj fields =>
      obtain ⟨step, hstep, h⟩ := bind_ok.mp h
      apply ih h
      intro other hother
      rcases List.mem_append.mp hother with hother | hother
      · exact hsteps other hother
      · cases List.mem_singleton.mp hother
        exact normalizeStep_fresh py hstep
    | _ => cases h

/-- The steps of the plan are in its order, each after those it depends on. -/
structure Plan.Ordered (plan : Plan) : Prop where
  order : Precedence.Ordered (dependsOn plan.steps) plan.stepOrder
  steps : ∀ stepId, stepId ∈ plan.stepOrder ↔ (plan.steps.get stepId).isSome = true

/-- A plan `buildPlan` returned, for `goalId` and to be known as `planId`. -/
structure NewPlan (s : OperationalState) (planId goalId : String) (plan : Plan) : Prop where
  planId : plan.planId = strip planId
  unused : s.plans.get plan.planId = none
  goalId : plan.goalId = strip goalId
  goal : ∃ goal, s.goals.get plan.goalId = some goal ∧
    (goal.status = .active ∨ goal.status = .blocked)
  status : plan.status = .active
  steps : ∀ stepId step, plan.steps.get stepId = some step → step.Fresh
  nonempty : ∃ stepId step, plan.steps.get stepId = some step
  ordered : plan.Ordered

/-- A plan that supersedes another serves the same goal. -/
theorem planRevision_ok {s : OperationalState} {goalId planId : String} {n : Int}
    (h : planRevision s goalId (some planId) = .ok n) :
    ∃ previous, s.plans.get planId = some previous ∧ previous.goalId = goalId := by
  obtain ⟨previous, hprevious, h⟩ := bind_ok.mp h
  obtain ⟨_, hsame, _⟩ := bind_ok.mp h
  exact ⟨previous, orRaise_ok.mp hprevious, by simpa using require_ok.mp hsame⟩

theorem buildPlan_ok {s : OperationalState} {planId goalId : String} {rawSteps : List Json}
    {horizonStart : String} {horizonEnd : Option String} {createdAt : Instant}
    {supersedes : Option String} {plan : Plan}
    (h : buildPlan py s planId goalId rawSteps horizonStart horizonEnd createdAt supersedes =
      .ok plan) : NewPlan s planId goalId plan ∧
        ∀ old, supersedes = some old →
          ∃ previous, s.plans.get old = some previous ∧ previous.goalId = plan.goalId := by
  obtain ⟨planId', hplan, h⟩ := bind_ok.mp h
  obtain ⟨_, hunused, h⟩ := bind_ok.mp h
  obtain ⟨goalId', hgoalId, h⟩ := bind_ok.mp h
  obtain ⟨goal, hgoal, h⟩ := bind_ok.mp h
  obtain ⟨_, hstatus, h⟩ := bind_ok.mp h
  obtain ⟨_, _, h⟩ := bind_ok.mp h
  obtain ⟨_, _, h⟩ := bind_ok.mp h
  obtain ⟨_, _, h⟩ := bind_ok.mp h
  obtain ⟨⟨given, steps, order⟩, hsteps, h⟩ := bind_ok.mp h
  obtain ⟨_, _, h⟩ := bind_ok.mp h
  obtain ⟨_, hrevision, h⟩ := bind_ok.mp h
  cases h
  obtain ⟨given', hgiven, hsteps⟩ := bind_ok.mp hsteps
  obtain ⟨_, hnonempty, hsteps⟩ := bind_ok.mp hsteps
  obtain ⟨_, _, hsteps⟩ := bind_ok.mp hsteps
  obtain ⟨_, horder, hsteps⟩ := bind_ok.mp hsteps
  cases hsteps
  have hnew := require_ok.mp hunused
  refine ⟨{ planId := identifier_ok hplan
            unused := ?_
            goalId := identifier_ok hgoalId
            goal := ⟨goal, orRaise_ok.mp hgoal, by simpa using require_ok.mp hstatus⟩
            status := rfl
            steps := ?_
            nonempty := ?_
            ordered := ?_ }, ?_⟩
  · simpa [Dict.contains] using hnew
  · intro stepId step hstep
    obtain ⟨step', hmem, heq⟩ := List.mem_map.mp (Dict.mem_of_get_ofList hstep)
    cases heq
    exact normalizeFrom_fresh py hgiven (by simp) step hmem
  · apply Dict.exists_get_ofList
    simpa using require_ok.mp hnonempty
  · obtain ⟨hordered, hmem⟩ := topologicalOrder_ok horder
    exact ⟨hordered, hmem⟩
  · rintro old rfl
    exact planRevision_ok hrevision

end
end Edon.Operations
