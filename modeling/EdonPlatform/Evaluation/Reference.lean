import EdonPlatform.Evaluation.Safety

/- The reference run of the closed loop: in every cycle the proposal that the environment
   itself expects.

   What is proved:
     1. `referenceStep_ok_iff` — the expected proposal is always accepted, so that a reference step
        returns exactly where its commit does and the clock and the ledger can be read before and
        after it.
     2. `At.step_iff` — the stages of an episode, what a state at each of them is, what a step needs
        there and which stage follows.
     3. `reference_iff` — no reference step raises, and `run_reference` ends, exactly for the
        episodes that have the workflow's resource with a unit available, an available agent
        for each of its two capabilities, and a clock for every cycle. Where no dispatch is
        feasible the expected proposal is an abstention, which the dispatch phase refuses. -/
namespace Edon.ClosedLoop
open Json Transition

/-! ## The expected proposal is accepted -/

section
variable {P : String → PyValue → Prop}

theorem throughout_arr {xs : List Json} :
    (PyValue.ofJson (.arr xs)).Throughout P ↔ ∀ x ∈ xs, (PyValue.ofJson x).Throughout P := by
  show PyValue.Throughout P (.list (PyValue.ofItems xs)) ↔ _
  rw [PyValue.throughout_list]
  induction xs with
  | nil => simp [PyValue.ofItems]
  | cons x xs ih => rw [PyValue.ofItems, List.forall_mem_cons, List.forall_mem_cons, ih]

theorem throughout_obj {fields : List (String × Json)} :
    (PyValue.ofJson (.obj fields)).Throughout P ↔
      ∀ f ∈ fields, P f.1 (.ofJson f.2) ∧ (PyValue.ofJson f.2).Throughout P := by
  show PyValue.Throughout P (.dict (PyValue.ofEntries fields)) ↔ _
  rw [PyValue.throughout_dict]
  induction fields with
  | nil => simp [PyValue.ofEntries]
  | cons f fields ih => rw [PyValue.ofEntries, List.forall_mem_cons, List.forall_mem_cons, ih]

theorem throughout_str (s : String) : (PyValue.ofJson (.str s)).Throughout P := by
  intro key child hw
  cases hw

theorem throughout_int (n : Int) : (PyValue.ofJson (.int n)).Throughout P := by
  intro key child hw
  cases hw

theorem throughout_option (o : Option String) : (PyValue.ofJson (optionJson o)).Throughout P := by
  intro key child hw
  cases o <;> cases hw

theorem throughout_texts (texts : List String) : (PyValue.ofJson (textsJson texts)).Throughout P := by
  refine throughout_arr.mpr fun x hx => ?_
  obtain ⟨t, -, rfl⟩ := List.mem_map.mp hx
  exact throughout_str t

end

/-- The tests of `_forbidden_paths`. -/
def authorityTests : List (String → PyValue → Bool) :=
  [fun key _ => lower key ∈ forbiddenAuthorityFields,
    fun key child => lower key = "binding_authority" && isTrue child]

/-- The keys that are no claim of authority, whatever their value. -/
def ordinaryKey (key : String) : Bool := lower key ∉ "binding_authority" :: forbiddenAuthorityFields

theorem passes_of_ordinary {key : String} (h : ordinaryKey key = true) (child : PyValue) :
    Passes authorityTests key child := by
  unfold ordinaryKey at h
  rw [decide_eq_true_eq, List.mem_cons, not_or] at h
  intro test htest
  rcases List.mem_cons.mp htest with rfl | htest
  · exact decide_eq_false h.2
  · rw [List.mem_singleton.mp htest]
    show (decide (lower key = "binding_authority") && _) = false
    rw [decide_eq_false h.1, Bool.false_and]

theorem clean_of_keys {fields : List (String × Json)}
    (hkeys : (fields.map Prod.fst).all ordinaryKey = true)
    (hvalues : ∀ f ∈ fields, (PyValue.ofJson f.2).Throughout (Passes authorityTests)) :
    (PyValue.ofJson (.obj fields)).Throughout (Passes authorityTests) := by
  refine throughout_obj.mpr fun f hf => ⟨passes_of_ordinary ?_ _, hvalues f hf⟩
  exact List.all_eq_true.mp hkeys _ (List.mem_map_of_mem hf)

theorem steps_clean (steps : List RawStep) :
    (PyValue.ofJson (stepsJson steps)).Throughout (Passes authorityTests) := by
  refine throughout_arr.mpr fun x hx => ?_
  obtain ⟨s, -, rfl⟩ := List.mem_map.mp hx
  refine clean_of_keys (by decide +kernel : (["step_id", "action", "required_capability",
    "resource_id", "resource_units", "depends_on", "expected_outcomes"].all ordinaryKey) = true) ?_
  simp only [RawStep.fields, List.forall_mem_cons, throughout_str, throughout_int,
    throughout_texts, List.not_mem_nil, IsEmpty.forall_iff, implies_true, and_self]

theorem payload_clean (operation : Operation) :
    (PyValue.ofJson operation.payload).Throughout (Passes authorityTests) := by
  have hkeys : (["goal_id", "description", "plan_id", "steps", "horizon_start", "step_id", "agent_id",
      "old_plan_id", "new_plan_id", "reason"].all ordinaryKey) = true := by decide +kernel
  simp only [List.all_cons, List.all_nil, Bool.and_true, Bool.and_eq_true] at hkeys
  cases operation <;> refine clean_of_keys ?_ ?_ <;>
    simp [hkeys, throughout_str, steps_clean, throughout_option]

/-- No field of a proposal is a field of authority. -/
theorem proposal_clean (p : Proposal) : forbiddenPaths p.json = [] := by
  show scan authorityTests _ _ _ = []
  rw [scan_eq_nil]
  refine throughout_obj.mpr fun f hf => ?_
  simp only [Proposal.fields, List.mem_cons, List.not_mem_nil, or_false] at hf
  rcases hf with rfl | rfl | rfl | rfl | rfl
  · exact ⟨passes_of_ordinary (by decide +kernel : ordinaryKey "proposal_type" = true) _,
      throughout_str _⟩
  · exact ⟨passes_of_ordinary (by decide +kernel : ordinaryKey "payload" = true) _, payload_clean _⟩
  · exact ⟨passes_of_ordinary (by decide +kernel : ordinaryKey "rationale" = true) _,
      throughout_str _⟩
  · refine ⟨passes_of_ordinary (by decide +kernel : ordinaryKey "confidence" = true) _,
      fun key child hw => ?_⟩
    cases hw
  · -- the claim of binding authority that a proposal makes is false
    refine ⟨fun test htest => ?_, fun key child hw => ?_⟩
    · rcases List.mem_cons.mp htest with rfl | htest
      · exact (by decide +kernel : decide (lower "binding_authority" ∈ forbiddenAuthorityFields) = false)
      · rw [List.mem_singleton.mp htest]
        exact Bool.and_false _
    · cases hw

section
variable {rt : Runtime} {e : Env}

theorem type_allowed (operation : Operation) : operation.proposalType ∈ allowedProposals := by
  cases operation <;> simp [Operation.proposalType, allowedProposals]

theorem proposal_type (p : Proposal) : proposalTypeOf rt p.fields = p.operation.proposalType := by
  have hupper : ∀ t ∈ allowedProposals, upper t = t := by decide +kernel
  exact hupper _ (type_allowed p.operation)

theorem proposal_matches (p : Proposal) : proposalMatches rt p p.fields = true := by
  have hpayload : field p.fields "payload" = p.operation.payload := by
    simp [field, Proposal.fields, Assoc.find]
  have hbinding : field p.fields "binding_authority" = .bool false := by
    simp [field, Proposal.fields, Assoc.find]
  unfold proposalMatches
  rw [proposal_type, hpayload, hbinding, pyEq_of_same rfl, pyEq_of_same rfl]
  simp

theorem proposal_valid (operation : Operation) (rationale : String)
    (h : 10 ≤ (strip rationale).length) (h' : (strip rationale).length ≤ 10000) :
    proposalSchemaValid rt (Proposal.fields ⟨operation, rationale⟩) = .ok true := by
  have hpayload : field (Proposal.fields ⟨operation, rationale⟩) "payload" = operation.payload := by
    simp [field, Proposal.fields, Assoc.find]
  have hrationale : field (Proposal.fields ⟨operation, rationale⟩) "rationale" = .str rationale := by
    simp [field, Proposal.fields, Assoc.find]
  have hconfidence : field (Proposal.fields ⟨operation, rationale⟩) "confidence" = .float 1 := by
    simp [field, Proposal.fields, Assoc.find]
  have hbinding : field (Proposal.fields ⟨operation, rationale⟩) "binding_authority" = .bool false := by
    simp [field, Proposal.fields, Assoc.find]
  have htype := type_allowed operation
  unfold proposalSchemaValid
  rw [proposal_type, hpayload, hrationale, hconfidence, hbinding]
  cases operation <;> simp [htype, h, h', Operation.payload, confidenceValid]

theorem expected_valid {p : Proposal} (h : e.expectedProposal rt = .ok p) :
    proposalSchemaValid rt p.fields = .ok true := by
  unfold Env.expectedProposal at h
  dsimp only at h
  split at h
  · obtain ⟨_, _, h⟩ := bind_ok.mp h
    cases h
    exact proposal_valid _ _ (by decide +kernel) (by decide +kernel)
  · obtain ⟨_, _, h⟩ := bind_ok.mp h
    cases h
    exact proposal_valid _ _ (by decide +kernel) (by decide +kernel)
  · obtain ⟨_, _, h⟩ := bind_ok.mp h
    split at h
    · cases h
      exact proposal_valid _ _ (by decide +kernel) (by decide +kernel)
    · cases h
      exact proposal_valid _ _ (by decide +kernel) (by decide +kernel)
  · cases h
    exact proposal_valid _ _ (by decide +kernel) (by decide +kernel)
  · obtain ⟨_, _, h⟩ := bind_ok.mp h
    obtain ⟨_, _, h⟩ := bind_ok.mp h
    obtain ⟨_, _, h⟩ := bind_ok.mp h
    cases h
    exact proposal_valid _ _ (by decide +kernel) (by decide +kernel)
  · cases h
    exact proposal_valid _ _ (by decide +kernel) (by decide +kernel)
  · cases h
    exact proposal_valid _ _ (by decide +kernel) (by decide +kernel)

/-! ## Reference steps -/

/-- The clock and the ledger can be read. -/
def Env.Observed (rt : Runtime) (e : Env) : Prop := ∃ observation, e.observe rt = .ok observation

theorem stateSha256_ok : (∃ digest, e.stateSha256 rt = .ok digest) ↔ e.Observed rt := by
  constructor
  · rintro ⟨digest, h⟩
    obtain ⟨observation, hobserve, -⟩ := bind_ok.mp h
    exact ⟨observation, hobserve⟩
  · rintro ⟨observation, hobserve⟩
    exact ⟨_, bind_ok.mpr ⟨observation, hobserve, rfl⟩⟩

theorem observed_iff : e.Observed rt ↔
    (∃ time, e.decisionTime rt = .ok time) ∧ ∃ rows, e.assignmentProposals = .ok rows := by
  constructor
  · rintro ⟨observation, h⟩
    obtain ⟨time, htime, h⟩ := bind_ok.mp h
    obtain ⟨rows, hrows, -⟩ := bind_ok.mp h
    exact ⟨⟨time, htime⟩, rows, hrows⟩
  · rintro ⟨⟨time, htime⟩, rows, hrows⟩
    exact ⟨_, bind_ok.mpr ⟨time, htime, bind_ok.mpr ⟨rows, hrows, rfl⟩⟩⟩

/-- A reference step that returns. -/
def Env.Proceeds (rt : Runtime) (e : Env) : Prop := ∃ r, (e.referenceStep rt).1 = .ok r

/-- A reference step returns exactly where the expected proposal can be committed, with the
ledger readable before and after, and leaves what the commit leaves. -/
theorem referenceStep_ok_iff (hrunning : e.terminated = false) {p : Proposal}
    (hexpected : e.expectedProposal rt = .ok p) {s : Env} : (∃ r, e.referenceStep rt = (.ok r, s)) ↔
      e.Observed rt ∧ ∃ e', e.commit rt p.operation = (.ok (), e') ∧ e'.Observed rt ∧
        s = { e' with cycleIndex := e'.cycleIndex + 1 } := by
  have hvalid := expected_valid hexpected
  unfold Env.referenceStep
  rw [hexpected]
  dsimp only
  unfold Env.step Proposal.json
  rw [hrunning, if_neg Bool.false_ne_true]
  dsimp only
  cases hbefore : e.stateSha256 rt with
  | error err =>
    have hcheck : e.check rt p.fields = .error err := by
      unfold Env.check
      rw [hexpected, hvalid, hbefore]
      rfl
    rw [hcheck]
    refine iff_of_false (by simp) fun h => ?_
    obtain ⟨digest, hdigest⟩ := stateSha256_ok.mpr h.1
    rw [hbefore] at hdigest
    cases hdigest
  | ok digest =>
    have hcheck : e.check rt p.fields = .ok ⟨p, true, digest⟩ := by
      unfold Env.check
      rw [hexpected, hvalid, hbefore]
      rfl
    have haccepted : Checked.accepted rt ⟨p, true, digest⟩ p.fields = true := by
      unfold Checked.accepted
      rw [show forbiddenPaths (.obj p.fields) = [] from proposal_clean p, proposal_matches]
      rfl
    rw [hcheck, and_iff_right (stateSha256_ok.mp ⟨digest, hbefore⟩)]
    dsimp only
    rw [decide_accepted haccepted]
    dsimp only
    cases hcommit : e.commit rt p.operation with
    | mk result e' =>
      cases result with
      | error err =>
        refine iff_of_false (by simp) ?_
        rintro ⟨e'', hcommit', -⟩
        cases hcommit'
      | ok u =>
        dsimp only
        cases hafter : e'.stateSha256 rt with
        | error err =>
          have hrecord : e'.record rt ⟨p, true, digest⟩ p.fields = .error err := by
            unfold Env.record
            rw [hafter]
            rfl
          rw [hrecord]
          refine iff_of_false (by simp) ?_
          rintro ⟨e'', hcommit', hobserved, -⟩
          cases hcommit'
          obtain ⟨digest', hdigest'⟩ := stateSha256_ok.mpr hobserved
          rw [hafter] at hdigest'
          cases hdigest'
        | ok digest' =>
          obtain ⟨r, hrecord⟩ : ∃ r, e'.record rt ⟨p, true, digest⟩ p.fields = .ok r :=
            ⟨_, bind_ok.mpr ⟨digest', hafter, rfl⟩⟩
          rw [hrecord]
          constructor
          · rintro ⟨r', h⟩
            cases h
            exact ⟨e', rfl, stateSha256_ok.mp ⟨digest', hafter⟩, rfl⟩
          · rintro ⟨e'', hcommit', -, rfl⟩
            cases hcommit'
            exact ⟨r, rfl⟩

end

/-! ## Stages -/

/-- Where an episode is. A dispatch and an outcome are of the first plan or of the retry, and of
the primary step or of the verification. -/
inductive Stage where
  | goal | plan
  | dispatch (retry verify : Bool)
  | monitor (retry verify : Bool)
  | replan | review | terminate | done
  deriving DecidableEq, Repr

def Stage.phase : Stage → Phase
  | .goal => .createGoal
  | .plan => .createPlan
  | .dispatch _ _ => .dispatch
  | .monitor _ _ => .monitor
  | .replan => .replan
  | .review => .review
  | .terminate => .terminate
  | .done => .terminate

/-- The stage that follows, where the first primary step fails or not, and where the episode ends
without a review or not. -/
def Stage.next (fails skips : Bool) : Stage → Stage
  | .goal => .plan
  | .plan => .dispatch false false
  | .dispatch retry verify => .monitor retry verify
  | .monitor false false => if fails then .replan else .dispatch false true
  | .monitor true false => .dispatch true true
  | .monitor _ true => if skips then .terminate else .review
  | .replan => .dispatch true false
  | .review => .terminate
  | .terminate => .done
  | .done => .done

/-- The units that are out at a stage. -/
def Stage.held : Stage → Int
  | .monitor _ _ => 1
  | _ => 0

/-- How often the primary step was dispatched, before its first outcome. -/
def Stage.attempts : Stage → Option Nat
  | .goal | .plan | .dispatch false false => some 0
  | .monitor false false => some 1
  | _ => none

/-- The stages after the first dispatch. -/
def Stage.dispatched : Stage → Bool
  | .goal | .plan | .dispatch _ _ => false
  | _ => true

/-- An episode and an oracle with all their fields. -/
structure Complete (episode : Episode) (oracle : Oracle) where
  objective : String
  workflow : Workflow
  requiresReplan : Json
  reason : String
  objective_eq : episode.objective = some objective
  workflow_eq : episode.workflow = some workflow
  requiresReplan_eq : oracle.requiresReplan = some requiresReplan
  reason_eq : oracle.primaryFailureReason = some reason

def primaryStep (workflow : Workflow) (retry : Bool) : RawStep where
  stepId := if retry then "primary-retry" else "primary"
  action := if retry then workflow.retryAction else workflow.primaryAction
  requiredCapability := workflow.primaryCapability
  resourceId := workflow.resourceId
  resourceUnits := 1
  dependsOn := []
  expectedOutcomes := [workflow.primaryExpectedOutcome]

def verifyStep (workflow : Workflow) (retry : Bool) : RawStep where
  stepId := "verify"
  action := workflow.verificationAction
  requiredCapability := workflow.verificationCapability
  resourceId := workflow.resourceId
  resourceUnits := 1
  dependsOn := [if retry then "primary-retry" else "primary"]
  expectedOutcomes := [workflow.verificationExpectedOutcome]

theorem basePlanSteps_eq (workflow : Workflow) (retry : Bool) :
    basePlanSteps workflow retry = [primaryStep workflow retry, verifyStep workflow retry] := rfl

def Workflow.step (workflow : Workflow) (retry verify : Bool) : RawStep :=
  if verify then verifyStep workflow retry else primaryStep workflow retry

def Workflow.capability (workflow : Workflow) (verify : Bool) : String :=
  if verify then workflow.verificationCapability else workflow.primaryCapability

def Episode.planId (episode : Episode) (retry : Bool) : String :=
  "plan:" ++ episode.episodeId ++ if retry then ":v2" else ":v1"

/-- The steps of a plan for a workflow, with their states and agents. -/
def Workflow.steps (workflow : Workflow) (retry : Bool) (first second : StepStatus)
    (a b : Option String) : List PlanStep :=
  [⟨primaryStep workflow retry, first, a⟩, ⟨verifyStep workflow retry, second, b⟩]

/-- The active plan is that of the workflow, with its steps so far. -/
def Env.Follows (e : Env) (workflow : Workflow) (retry : Bool) (status : PlanStatus)
    (first second : StepStatus) : Prop :=
  ∃ plan a b, e.activePlanId = some (e.episode.planId retry) ∧
    e.plans.get (e.episode.planId retry) = some plan ∧ plan.status = status ∧
    plan.steps = workflow.steps retry first second a b

/-- The plan of a state at a stage. -/
def Env.Progress (e : Env) (workflow : Workflow) : Stage → Prop
  | .goal | .plan => e.activePlanId = none
  | .dispatch retry verify =>
    e.Follows workflow retry .active (if verify then .completed else .pending) .pending
  | .monitor retry verify =>
    e.Follows workflow retry .active (if verify then .completed else .inProgress)
        (if verify then .inProgress else .pending) ∧
      e.monitorTarget = some (e.episode.planId retry, (workflow.step retry verify).stepId)
  | .replan => ∃ status first second, e.Follows workflow false status first second
  | .review | .terminate | .done =>
    ∃ retry status first second, e.Follows workflow retry status first second

section
variable {episode : Episode} {oracle : Oracle} (c : Complete episode oracle)

/-- The workflow's resource exists. -/
def Complete.Known : Prop := ∃ resource, episode.resources.get c.workflow.resourceId = some resource

/-- A state at a stage. -/
structure At (stage : Stage) (e : Env) : Prop where
  episode_eq : e.episode = episode
  oracle_eq : e.oracle = oracle
  agents_eq : e.agents = episode.agents
  phase_eq : e.phase = stage.phase
  terminated_eq : e.terminated = decide (stage = .done)
  available : (e.resources.get c.workflow.resourceId).map Resource.available =
    (episode.resources.get c.workflow.resourceId).map fun r => r.available - stage.held
  attempts : ∀ n, stage.attempts = some n → e.primaryAttempts = n
  known : stage.dispatched = true → c.Known
  progress : e.Progress c.workflow stage

def Complete.next (stage : Stage) : Stage :=
  stage.next (decide (c.requiresReplan = .bool true)) (truthy c.requiresReplan)

/-- A step of the workflow can be dispatched: a unit of its resource and an agent for it are
available. -/
def Complete.Dispatchable (verify : Bool) : Prop :=
  (∃ resource, episode.resources.get c.workflow.resourceId = some resource ∧ 1 ≤ resource.available) ∧
    ∃ a ∈ episode.agents, a.available = true ∧ c.workflow.capability verify ∈ a.capabilities

/-- The clock of a cycle. -/
def Clock (rt : Runtime) (episode : Episode) (cycle : Nat) : Prop :=
  ∃ time, isoAt rt episode.horizonStart cycle = .ok time

/-- What a step at a stage needs. -/
def Complete.Need (rt : Runtime) (stage : Stage) (cycle : Nat) : Prop :=
  Clock rt episode cycle ∧
    match stage with
    | .plan => c.Known
    | .dispatch _ verify => c.Dispatchable verify
    | _ => True

end

section
variable {e : Env} {workflow : Workflow} {retry verify : Bool} {status : PlanStatus}
  {first second : StepStatus}

/-- The step that a dispatch waits for is the ready one. -/
theorem Env.Follows.ready (h : e.Follows workflow retry .active
    (if verify then .completed else .pending) .pending) :
    ∃ a, e.readyStep = some ⟨workflow.step retry verify, .pending, a⟩ := by
  obtain ⟨plan, a, b, hactive, hget, hstatus, hsteps⟩ := h
  have hplan : e.activePlan = some plan := by
    unfold Env.activePlan
    rw [hactive, Option.bind_some, hget]
  unfold Env.readyStep Plan.unblocked
  rw [hplan]
  dsimp only
  rw [if_pos hstatus, hsteps]
  cases verify with
  | false => exact ⟨a, by simp [Workflow.steps, primaryStep, Workflow.step]⟩
  | true => exact ⟨b, by simp [Workflow.steps, primaryStep, verifyStep, Workflow.step]⟩

/-- After the verification no step is left. -/
theorem Env.Follows.finished (h : e.Follows workflow retry .active .completed .completed) :
    e.readyStep = none := by
  obtain ⟨plan, a, b, hactive, hget, hstatus, hsteps⟩ := h
  have hplan : e.activePlan = some plan := by
    unfold Env.activePlan
    rw [hactive, Option.bind_some, hget]
  unfold Env.readyStep
  rw [hplan]
  dsimp only
  rw [if_pos hstatus, hsteps]
  simp [Workflow.steps]

theorem Env.Follows.assignments (h : e.Follows workflow retry status first second)
    {resource : Resource} (hresource : e.resources.get workflow.resourceId = some resource) :
    ∃ rows, e.assignmentProposals = .ok rows := by
  obtain ⟨plan, a, b, hactive, hget, -, hsteps⟩ := h
  unfold Env.assignmentProposals
  rw [hactive]
  cases hready : e.readyStep with
  | none => exact ⟨_, rfl⟩
  | some step =>
    obtain ⟨planId, plan', hactive', hget', hmem⟩ := readyStep_mem hready
    rw [hactive] at hactive'
    cases hactive'
    rw [hget] at hget'
    cases hget'
    have hstep : step.resourceId = workflow.resourceId := by
      rw [hsteps, Workflow.steps, List.mem_cons, List.mem_singleton] at hmem
      rcases hmem with rfl | rfl <;> rfl
    dsimp only
    unfold item
    rw [hstep, hresource]
    exact ⟨_, rfl⟩

/-- The assignments of a state that waits for a dispatch. -/
theorem Env.Follows.waiting (h : e.Follows workflow retry .active
    (if verify then .completed else .pending) .pending) : ∃ a, ∀ rows,
    e.assignmentProposals = .ok rows ↔ ∃ resource,
      e.resources.get workflow.resourceId = some resource ∧ rows = e.agents.map fun agent =>
        ⟨e.episode.planId retry, ⟨workflow.step retry verify, .pending, a⟩, agent,
          resource.available⟩ := by
  obtain ⟨a, hready⟩ := h.ready
  obtain ⟨plan, -, -, hactive, -⟩ := h
  have hresource : (workflow.step retry verify).resourceId = workflow.resourceId := by
    cases verify <;> rfl
  refine ⟨a, fun rows => ?_⟩
  unfold Env.assignmentProposals
  rw [hready, hactive]
  dsimp only
  rw [hresource]
  constructor
  · intro h
    obtain ⟨resource, hget, h⟩ := bind_ok.mp h
    cases h
    exact ⟨resource, orRaise_ok.mp hget, rfl⟩
  · rintro ⟨resource, hget, rfl⟩
    exact bind_ok.mpr ⟨resource, orRaise_ok.mpr hget, rfl⟩

end

/-! ## What a step needs -/

section
variable {rt : Runtime} {episode : Episode} {oracle : Oracle} {c : Complete episode oracle}
  {stage : Stage} {e : Env}

theorem At.running (h : At c stage e) (hstage : stage ≠ .done) : e.terminated = false := by
  rw [h.terminated_eq]
  exact decide_eq_false hstage

theorem At.known_iff (h : At c stage e) :
    c.Known ↔ ∃ resource, e.resources.get c.workflow.resourceId = some resource := by
  have hsame := congrArg Option.isSome h.available
  rw [Option.isSome_map, Option.isSome_map] at hsame
  unfold Complete.Known
  rw [← Option.isSome_iff_exists, ← Option.isSome_iff_exists, hsame]

theorem At.clock_iff (h : At c stage e) :
    (∃ time, e.decisionTime rt = .ok time) ↔ Clock rt episode e.cycleIndex := by
  unfold Env.decisionTime Clock
  rw [h.episode_eq]

/-- Before the plan nothing of the ledger is read. -/
theorem At.observed_early (h : At c stage e) (hplan : e.activePlanId = none) :
    e.Observed rt ↔ Clock rt episode e.cycleIndex := by
  have hrows : e.assignmentProposals = .ok [] := by
    unfold Env.assignmentProposals
    rw [hplan]
  rw [observed_iff, h.clock_iff]
  exact and_iff_left ⟨[], hrows⟩

theorem At.observed_dispatch {retry verify : Bool} (h : At c (.dispatch retry verify) e) :
    e.Observed rt ↔ Clock rt episode e.cycleIndex ∧ c.Known := by
  have hfollows : e.Follows _ _ _ _ _ := h.progress
  obtain ⟨a, hrows⟩ := hfollows.waiting
  rw [observed_iff, h.clock_iff, h.known_iff]
  refine and_congr_right fun _ => ?_
  constructor
  · rintro ⟨rows, h⟩
    obtain ⟨resource, hget, -⟩ := (hrows rows).mp h
    exact ⟨resource, hget⟩
  · rintro ⟨resource, hget⟩
    exact ⟨_, (hrows _).mpr ⟨resource, hget, rfl⟩⟩

theorem At.observed_late (h : At c stage e) (hstage : stage.dispatched = true) :
    e.Observed rt ↔ Clock rt episode e.cycleIndex := by
  obtain ⟨resource, hresource⟩ := h.known_iff.mp (h.known hstage)
  have hfollows : ∃ retry status first second,
      e.Follows c.workflow retry status first second := by
    have hprogress := h.progress
    cases stage with
    | goal => cases hstage
    | plan => cases hstage
    | dispatch retry verify => cases hstage
    | monitor retry verify => exact ⟨retry, _, _, _, hprogress.1⟩
    | replan => exact ⟨false, hprogress⟩
    | review => exact hprogress
    | terminate => exact hprogress
    | done => exact hprogress
  obtain ⟨retry, status, first, second, hfollows⟩ := hfollows
  rw [observed_iff, h.clock_iff]
  exact and_iff_left (hfollows.assignments hresource)

/-- What the expected proposal of a state leads to: a state at a stage, in the same cycle. -/
def Env.Leads (rt : Runtime) (c : Complete episode oracle) (e : Env) (stage : Stage) (e' : Env) :
    Prop :=
  ∃ p, e.expectedProposal rt = .ok p ∧ e.commit rt p.operation = (.ok (), e') ∧
    e'.cycleIndex = e.cycleIndex ∧ At c stage e'

/-- A state at the stage that follows, in the next cycle. -/
def Env.Advances (rt : Runtime) (c : Complete episode oracle) (e : Env) (stage : Stage) : Prop :=
  ∃ r s, e.referenceStep rt = (.ok r, s) ∧ s.cycleIndex = e.cycleIndex + 1 ∧ At c stage s

/-- Where the proposal leads on, a step returns if the ledger can be read before and after it. -/
theorem At.advances (h : At c stage e) (hstage : stage ≠ .done) {stage' : Stage} {e' : Env}
    (hleads : e.Leads rt c stage' e') :
    (e.Proceeds rt ↔ e.Observed rt ∧ e'.Observed rt) ∧
      (e.Proceeds rt → e.Advances rt c stage') := by
  obtain ⟨p, hexpected, hcommit, hcycle, hat⟩ := hleads
  have hstep := @referenceStep_ok_iff rt e (h.running hstage) p hexpected
  rw [hcommit] at hstep
  constructor
  · constructor
    · rintro ⟨r, hr⟩
      obtain ⟨hobserved, e'', hcommit', hobserved', -⟩ := hstep.mp ⟨r, Prod.ext hr rfl⟩
      cases hcommit'
      exact ⟨hobserved, hobserved'⟩
    · rintro ⟨hobserved, hobserved'⟩
      obtain ⟨r, hr⟩ := hstep.mpr ⟨hobserved, e', rfl, hobserved', rfl⟩
      exact ⟨r, congrArg Prod.fst hr⟩
  · rintro ⟨r, hr⟩
    obtain ⟨-, e'', hcommit', -, hnext⟩ := hstep.mp ⟨r, Prod.ext hr rfl⟩
    cases hcommit'
    refine ⟨r, _, Prod.ext hr hnext, congrArg Nat.succ hcycle, ?_⟩
    exact ⟨hat.episode_eq, hat.oracle_eq, hat.agents_eq, hat.phase_eq, hat.terminated_eq,
      hat.available, hat.attempts, hat.known, by cases stage' <;> exact hat.progress⟩

end

/-! ## The stages one by one -/

section
variable {rt : Runtime} {episode : Episode} {oracle : Oracle} {c : Complete episode oracle}
  {e : Env} {retry verify : Bool}

theorem At.goal_leads (h : At c .goal e) : ∃ e', e.Leads rt c .plan e' := by
  have hexpected : e.expectedProposal rt = .ok ⟨.createGoal ("goal:" ++ e.episode.episodeId) c.objective,
      "The observed request is in scope and requires an explicit governed operational goal."⟩ := by
    unfold Env.expectedProposal
    dsimp only
    rw [h.phase_eq, h.episode_eq]
    dsimp only [Stage.phase]
    rw [c.objective_eq]
    rfl
  refine ⟨_, _, hexpected, rfl, rfl, ?_⟩
  exact ⟨h.episode_eq, h.oracle_eq, h.agents_eq, rfl, h.terminated_eq, h.available, h.attempts,
    fun hearly => Bool.noConfusion hearly, h.progress⟩

/-- The plan that is put in place is the one followed. -/
theorem Env.follows_put (e : Env) (workflow : Workflow) (retry : Bool) (goalId : Option String)
    (revision : Nat) :
    (e.putPlan (e.episode.planId retry) goalId (basePlanSteps workflow retry) revision).Follows
      workflow retry .active .pending .pending :=
  ⟨_, none, none, rfl, Dict.get_set_self _ _ _, rfl, rfl⟩

theorem At.plan_leads (h : At c .plan e) : ∃ e', e.Leads rt c (.dispatch false false) e' := by
  have hexpected : e.expectedProposal rt = .ok ⟨.createPlan (e.episode.planId false)
      ("goal:" ++ e.episode.episodeId) (basePlanSteps c.workflow false) e.episode.horizonStart,
      "The plan preserves workflow order, capability requirements, verification, and resource feasibility."⟩ := by
    unfold Env.expectedProposal
    dsimp only
    rw [h.phase_eq, h.episode_eq]
    dsimp only [Stage.phase]
    rw [c.workflow_eq]
    rfl
  refine ⟨_, _, hexpected, rfl, rfl, ?_⟩
  exact ⟨h.episode_eq, h.oracle_eq, h.agents_eq, rfl, h.terminated_eq, h.available, h.attempts,
    fun hearly => Bool.noConfusion hearly, e.follows_put _ _ _ _⟩

/-- An assignment of the waiting step that can be dispatched. -/
theorem dispatchable_iff {workflow : Workflow} {planId : String} {a : Option String} {agent : Agent}
    {available : Int} : Assignment.dispatchable
        ⟨planId, ⟨workflow.step retry verify, .pending, a⟩, agent, available⟩ = true ↔
      workflow.capability verify ∈ agent.capabilities ∧ agent.available = true ∧ 1 ≤ available := by
  unfold Assignment.dispatchable Assignment.capable
  rw [Bool.and_eq_true, Bool.and_eq_true, decide_eq_true_eq, decide_eq_true_eq, and_assoc]
  cases verify <;> exact Iff.rfl

theorem At.resource (h : At c (.dispatch retry verify) e) {resource : Resource}
    (hget : e.resources.get c.workflow.resourceId = some resource) :
    ∃ initial, episode.resources.get c.workflow.resourceId = some initial ∧
      resource.available = initial.available := by
  have havailable := h.available
  rw [hget] at havailable
  obtain ⟨initial, hinitial, heq⟩ := Option.map_eq_some_iff.mp havailable.symm
  rw [← heq]
  exact ⟨initial, hinitial, Int.sub_zero _⟩

/-- What the dispatch phase proposes: a dispatch to an agent that can take it, or an abstention. -/
theorem At.dispatch_expected (h : At c (.dispatch retry verify) e) (rt : Runtime)
    {rows : List Assignment}
    (hrows : e.assignmentProposals = .ok rows) :
    (∃ agentId rationale, c.Dispatchable verify ∧ e.expectedProposal rt = .ok ⟨.dispatchStep
        (e.episode.planId retry) (c.workflow.step retry verify).stepId agentId, rationale⟩) ∨
      ∃ rationale, ¬ c.Dispatchable verify ∧ e.expectedProposal rt = .ok ⟨.abstain, rationale⟩ := by
  have hfollows : e.Follows _ _ _ _ _ := h.progress
  obtain ⟨a, hwaiting⟩ := hfollows.waiting
  obtain ⟨resource, hget, hmap⟩ := (hwaiting rows).mp hrows
  obtain ⟨initial, hinitial, havailable⟩ := h.resource hget
  have hexpected : e.expectedProposal rt = Option.elim ((rows.filter
      Assignment.dispatchable).insertionSort fun a b => a.agent.agentId ≤ b.agent.agentId).head?
      (.ok ⟨.abstain, "No safe dispatch is currently feasible under the visible capability and resource constraints."⟩)
      (fun chosen => .ok ⟨.dispatchStep chosen.planId chosen.step.stepId chosen.agent.agentId,
        "The selected agent is available, capable, and feasible under the current resource ledger."⟩) := by
    unfold Env.expectedProposal
    dsimp only
    rw [h.phase_eq]
    dsimp only [Stage.phase]
    rw [hrows]
    dsimp only [bind, Except.bind]
    cases ((rows.filter Assignment.dispatchable).insertionSort
      fun a b => a.agent.agentId ≤ b.agent.agentId).head? <;> rfl
  rw [hexpected]
  cases hhead : ((rows.filter Assignment.dispatchable).insertionSort
      fun a b => a.agent.agentId ≤ b.agent.agentId).head? with
  | some chosen =>
    have hmem := List.mem_of_head? hhead
    rw [List.mem_insertionSort, List.mem_filter, hmap] at hmem
    obtain ⟨hmem, hdispatchable⟩ := hmem
    obtain ⟨agent, hagent, rfl⟩ := List.mem_map.mp hmem
    obtain ⟨hcapable, hfree, hunits⟩ := dispatchable_iff.mp hdispatchable
    rw [h.agents_eq] at hagent
    exact .inl ⟨agent.agentId, _, ⟨⟨initial, hinitial, havailable ▸ hunits⟩, agent, hagent, hfree, hcapable⟩,
      rfl⟩
  | none =>
    refine .inr ⟨_, ?_, rfl⟩
    rintro ⟨⟨initial', hinitial', hunits⟩, agent, hagent, hfree, hcapable⟩
    rw [hinitial] at hinitial'
    cases hinitial'
    have hmem : (⟨e.episode.planId retry, ⟨c.workflow.step retry verify, .pending, a⟩, agent,
        resource.available⟩ : Assignment) ∈ (rows.filter Assignment.dispatchable).insertionSort
          fun a b => a.agent.agentId ≤ b.agent.agentId := by
      rw [List.mem_insertionSort, List.mem_filter, hmap]
      rw [← h.agents_eq] at hagent
      exact ⟨List.mem_map_of_mem hagent, dispatchable_iff.mpr ⟨hcapable, hfree, havailable ▸ hunits⟩⟩
    rw [List.head?_eq_none_iff.mp hhead] at hmem
    cases hmem

/-- In the dispatch phase an abstention is refused. -/
theorem At.dispatch_stuck (h : At c (.dispatch retry verify) e) (hneed : ¬ c.Dispatchable verify) :
    ¬ e.Proceeds rt := by
  rintro ⟨r, hr⟩
  have hrunning := h.running Stage.noConfusion
  cases hrows : e.assignmentProposals with
  | error err =>
    have hexpected : e.expectedProposal rt = .error err := by
      unfold Env.expectedProposal
      dsimp only
      rw [h.phase_eq]
      dsimp only [Stage.phase]
      rw [hrows]
      rfl
    unfold Env.referenceStep at hr
    rw [hexpected] at hr
    cases hr
  | ok rows =>
    rcases h.dispatch_expected rt hrows with ⟨_, _, hdispatchable, -⟩ | ⟨_, -, hexpected⟩
    · exact hneed hdispatchable
    · obtain ⟨-, e', hcommit, -⟩ := (referenceStep_ok_iff hrunning hexpected).mp ⟨r, Prod.ext hr rfl⟩
      unfold Env.commit Env.advanceAbstention at hcommit
      dsimp only at hcommit
      rw [h.phase_eq] at hcommit
      cases hcommit

theorem locate_of_get {plan : Plan} {step : PlanStep} {planId stepId : String}
    (hget : e.plans.get planId = some plan)
    (hfind : plan.steps.find? (fun s => s.stepId = stepId) = some step) :
    e.locate planId stepId = .ok (plan, step) :=
  bind_ok.mpr ⟨plan, orRaise_ok.mpr hget, bind_ok.mpr ⟨step, orRaise_ok.mpr hfind, rfl⟩⟩

theorem addUnits_get {resourceId : String} {resource : Resource} (units : Int)
    (hget : e.resources.get resourceId = some resource) : e.addUnits resourceId units =
      .ok { e with
        resources := e.resources.set resourceId { resource with available := resource.available + units } } :=
  bind_ok.mpr ⟨resource, orRaise_ok.mpr hget, rfl⟩

theorem commitDispatch_ok {plan : Plan} {step : PlanStep} {resource : Resource}
    {planId stepId : String} (agentId : String) (hget : e.plans.get planId = some plan)
    (hfind : plan.steps.find? (fun s => s.stepId = stepId) = some step)
    (hresource : e.resources.get step.resourceId = some resource) :
    e.commitDispatch planId stepId agentId = (.ok (), { e with
      plans := e.plans.set planId (plan.setStep stepId fun s =>
        { s with status := .inProgress, assignedAgentId := some agentId })
      resources := e.resources.set step.resourceId
        { resource with available := resource.available + -step.resourceUnits }
      monitorTarget := some (planId, stepId)
      primaryAttempts :=
        if stepId = "primary" ∨ stepId = "primary-retry" then e.primaryAttempts + 1
        else e.primaryAttempts
      phase := .monitor
      commitCount := e.commitCount + 1 }) := by
  have hadd : ∀ plans, Env.addUnits step.resourceId (-step.resourceUnits) { e with plans } =
      .ok { e with
        plans
        resources := e.resources.set step.resourceId
          { resource with available := resource.available + -step.resourceUnits } } :=
    fun _ => addUnits_get _ hresource
  unfold Env.commitDispatch
  rw [locate_of_get hget hfind]
  dsimp only
  rw [hadd]

section
variable {workflow : Workflow} {first second : StepStatus} {a b : Option String}

theorem find_step : ∃ step, (workflow.steps retry first second a b).find?
      (fun s => s.stepId = (workflow.step retry verify).stepId) = some step ∧
    step.toRawStep = workflow.step retry verify := by
  cases verify with
  | false => exact ⟨⟨primaryStep workflow retry, first, a⟩, by simp [Workflow.steps, Workflow.step], rfl⟩
  | true =>
    refine ⟨⟨verifyStep workflow retry, second, b⟩, ?_, rfl⟩
    cases retry <;> simp [Workflow.steps, Workflow.step, primaryStep, verifyStep]

theorem setFirst_step (f : PlanStep → PlanStep) :
    setFirst (workflow.step retry verify).stepId f (workflow.steps retry first second a b) =
      if verify then [⟨primaryStep workflow retry, first, a⟩, f ⟨verifyStep workflow retry, second, b⟩]
      else [f ⟨primaryStep workflow retry, first, a⟩, ⟨verifyStep workflow retry, second, b⟩] := by
  cases verify with
  | false => simp [Workflow.steps, Workflow.step, setFirst]
  | true => cases retry <;> simp [Workflow.steps, Workflow.step, primaryStep, verifyStep, setFirst]

end

theorem step_resource (workflow : Workflow) (retry verify : Bool) :
    (workflow.step retry verify).resourceId = workflow.resourceId ∧
      (workflow.step retry verify).resourceUnits = 1 := by
  cases verify <;> exact ⟨rfl, rfl⟩

/-- The units of the workflow's resource, after units are added. -/
theorem available_add {resource : Resource} {resources resources' : Dict String Resource}
    {resourceId : String} {held held' units : Int} (hget : resources.get resourceId = some resource)
    (havailable : (resources.get resourceId).map Resource.available =
      (resources'.get resourceId).map fun r => r.available - held) (hheld : held' = held - units) :
    ((resources.set resourceId { resource with available := resource.available + units }).get
        resourceId).map Resource.available =
      (resources'.get resourceId).map fun r => r.available - held' := by
  rw [hget] at havailable
  obtain ⟨initial, hinitial, heq⟩ := Option.map_eq_some_iff.mp havailable.symm
  rw [Dict.get_set_self, hinitial, Option.map_some, Option.map_some]
  refine congrArg some ?_
  dsimp only
  omega

theorem At.dispatch_leads (h : At c (.dispatch retry verify) e) (hneed : c.Dispatchable verify) :
    ∃ e', e.Leads rt c (.monitor retry verify) e' := by
  have hfollows : e.Follows _ _ _ _ _ := h.progress
  obtain ⟨initial, hinitial, -⟩ := hneed.1
  obtain ⟨resource, hresource⟩ := h.known_iff.mp ⟨initial, hinitial⟩
  obtain ⟨rows, hrows⟩ := hfollows.assignments hresource
  rcases h.dispatch_expected rt hrows with ⟨agentId, rationale, -, hexpected⟩ | ⟨_, hnot, -⟩
  · obtain ⟨plan, a, b, hactive, hget, hstatus, hsteps⟩ := hfollows
    obtain ⟨step, hfind, hraw⟩ := @find_step retry verify c.workflow
      (if verify then .completed else .pending) .pending a b
    obtain ⟨hid, hunits⟩ := step_resource c.workflow retry verify
    rw [← hraw] at hid hunits
    rw [← hsteps] at hfind
    have hresource' : e.resources.get step.resourceId = some resource := by rw [hid, hresource]
    refine ⟨_, _, hexpected, commitDispatch_ok agentId hget hfind hresource', rfl, ?_⟩
    refine ⟨h.episode_eq, h.oracle_eq, h.agents_eq, rfl, h.terminated_eq, ?_, fun n hn => ?_,
      fun _ => ⟨initial, hinitial⟩, ?_, rfl⟩
    · dsimp only
      rw [hid, hunits]
      exact available_add hresource h.available rfl
    · cases retry <;> cases verify <;> cases hn
      dsimp only
      rw [h.attempts 0 rfl]
      rfl
    · refine ⟨_, if verify then a else some agentId, if verify then some agentId else b, hactive,
        Dict.get_set_self _ _ _, hstatus, ?_⟩
      unfold Plan.setStep
      dsimp only
      rw [hsteps, setFirst_step]
      cases verify <;> rfl
  · exact absurd hneed hnot

end

/-! ### Outcomes -/

section
variable {rt : Runtime} {episode : Episode} {oracle : Oracle} {c : Complete episode oracle}
  {e : Env} {retry verify : Bool}

/-- The dispatch whose outcome is a failure. -/
def Complete.failure (c : Complete episode oracle) (retry verify : Bool) : Bool :=
  !retry && !verify && decide (c.requiresReplan = .bool true)

theorem At.firstPrimaryFailure (h : At c (.monitor retry verify) e) :
    e.firstPrimaryFailure (c.workflow.step retry verify).stepId = .ok (c.failure retry verify) := by
  unfold Env.firstPrimaryFailure
  cases verify with
  | true => simp [Workflow.step, verifyStep, Complete.failure]
  | false =>
    cases retry with
    | true => simp [Workflow.step, primaryStep, Complete.failure]
    | false =>
      rw [if_pos ⟨rfl, h.attempts 1 rfl⟩, h.oracle_eq, c.requiresReplan_eq]
      rfl

theorem At.outcomeOf (h : At c (.monitor retry verify) e) (hclock : Clock rt episode e.cycleIndex)
    (planId : String) {step : PlanStep} (hstep : step.toRawStep = c.workflow.step retry verify)
    (success : Bool) : ∃ outcome, e.outcomeOf rt planId step success = .ok outcome ∧
      outcome.success = success := by
  obtain ⟨time, htime⟩ := h.clock_iff.mpr hclock
  unfold Env.outcomeOf
  rw [htime, hstep]
  cases success with
  | true => cases verify <;> exact ⟨_, rfl, rfl⟩
  | false =>
    rw [h.oracle_eq, c.reason_eq]
    exact ⟨_, rfl, rfl⟩

/-- The state after an outcome, before the phase that follows is chosen. -/
theorem At.settled (h : At c (.monitor retry verify) e) (hclock : Clock rt episode e.cycleIndex) :
    ∃ plan step outcome e', e.released rt = .ok (e.episode.planId retry, plan, step, outcome) ∧
      outcome.success = !c.failure retry verify ∧
      e.settle (e.episode.planId retry) plan step outcome = .ok e' ∧
      e'.cycleIndex = e.cycleIndex ∧ e'.episode = episode ∧ e'.oracle = oracle ∧
      e'.agents = episode.agents ∧ e'.terminated = false ∧
      (e'.resources.get c.workflow.resourceId).map Resource.available =
        (episode.resources.get c.workflow.resourceId).map (fun r => r.available - 0) ∧
      e'.plans.get (e.episode.planId retry) = some (plan.settle step.stepId outcome.success) ∧
      e'.Follows c.workflow retry (if outcome.success then .active else .needsReplan)
        (if verify then .completed else if outcome.success then .completed else .failed)
        (if verify then if outcome.success then .completed else .failed else .pending) := by
  obtain ⟨⟨plan, a, b, hactive, hget, hstatus, hsteps⟩, htarget⟩ :
    e.Follows _ _ _ _ _ ∧ e.monitorTarget = _ := h.progress
  obtain ⟨resource, hresource⟩ := h.known_iff.mp (h.known rfl)
  obtain ⟨step, hfind, hraw⟩ := @find_step retry verify c.workflow
    (if verify then .completed else .inProgress) (if verify then .inProgress else .pending) a b
  obtain ⟨hid, hunits⟩ := step_resource c.workflow retry verify
  rw [← hraw] at hid hunits
  rw [← hsteps] at hfind
  obtain ⟨outcome, houtcome, hsuccess⟩ :=
    h.outcomeOf hclock (e.episode.planId retry) hraw (!c.failure retry verify)
  have hreleased : e.released rt = .ok (e.episode.planId retry, plan, step, outcome) :=
    bind_ok.mpr ⟨_, orRaise_ok.mpr htarget, bind_ok.mpr ⟨(plan, step), locate_of_get hget hfind,
      bind_ok.mpr ⟨_, h.firstPrimaryFailure, bind_ok.mpr ⟨outcome, houtcome, rfl⟩⟩⟩⟩
  have hresource' : e.resources.get step.resourceId = some resource := by rw [hid, hresource]
  have hsettle : e.settle (e.episode.planId retry) plan step outcome = .ok { e with
      outcomes := e.outcomes ++ [outcome]
      releasedEvents := e.releasedEvents ++ [outcome]
      resources := e.resources.set step.resourceId
        { resource with available := resource.available + step.resourceUnits }
      plans := e.plans.set (e.episode.planId retry) (plan.settle step.stepId outcome.success)
      monitorTarget := none } :=
    bind_ok.mpr ⟨_, addUnits_get _ hresource', rfl⟩
  refine ⟨plan, step, outcome, _, hreleased, hsuccess, hsettle, rfl, h.episode_eq, h.oracle_eq,
    h.agents_eq, h.terminated_eq, ?_, Dict.get_set_self _ _ _, ?_⟩
  · dsimp only
    rw [hid, hunits]
    exact available_add hresource h.available rfl
  · have hstepId : step.stepId = (c.workflow.step retry verify).stepId := by rw [hraw]
    refine ⟨plan.settle step.stepId outcome.success, a, b, hactive, Dict.get_set_self _ _ _, ?_, ?_⟩
    · unfold Plan.settle
      rw [hstatus]
    · unfold Plan.settle
      dsimp only
      rw [hstepId, hsteps, setFirst_step]
      cases verify <;> rfl

theorem At.monitor_leads (h : At c (.monitor retry verify) e)
    (hclock : Clock rt episode e.cycleIndex) :
    ∃ e', e.Leads rt c (c.next (.monitor retry verify)) e' := by
  have hexpected : e.expectedProposal rt = .ok ⟨.abstain,
      "The dispatched step is pending an outcome, so the controller should monitor without inventing state."⟩ := by
    unfold Env.expectedProposal
    dsimp only
    rw [h.phase_eq]
    rfl
  have hknown := h.known rfl
  have hcommit : e.commit rt .abstain = e.releaseOutcome rt := by
    unfold Env.commit Env.advanceAbstention
    dsimp only
    rw [h.phase_eq]
    rfl
  obtain ⟨plan, step, outcome, e', hreleased, hsuccess, hsettle, hcycle, hepisode, horacle, hagents,
    hrunning, havailable, hget, hfollows⟩ := h.settled hclock
  have hpair : ∃ e'', e.releaseOutcome rt = (.ok (), e'') ∧ e''.cycleIndex = e.cycleIndex ∧
      At c (c.next (.monitor retry verify)) e'' := by
    unfold Env.releaseOutcome
    rw [hreleased]
    dsimp only
    rw [hsettle]
    dsimp only
    have hparts : e.episode.planId retry = e'.episode.planId retry := by
      rw [h.episode_eq, hepisode]
    cases hfailure : c.failure retry verify with
    | true =>
      obtain ⟨rfl, rfl, hfails⟩ : retry = false ∧ verify = false ∧ c.requiresReplan = .bool true := by
        unfold Complete.failure at hfailure
        rw [Bool.and_eq_true, Bool.and_eq_true, decide_eq_true_eq] at hfailure
        exact ⟨Bool.not_eq_true' _ ▸ hfailure.1.1, Bool.not_eq_true' _ ▸ hfailure.1.2, hfailure.2⟩
      have hnext : c.next (.monitor false false) = .replan := by
        unfold Complete.next
        rw [decide_eq_true hfails]
        rfl
      rw [hfailure] at hsuccess
      rw [hsuccess] at hfollows ⊢
      rw [hnext]
      exact ⟨_, rfl, hcycle, hepisode, horacle, hagents, rfl, hrunning, havailable,
        fun n hn => (by cases hn), fun _ => hknown, _, _, _, hfollows⟩
    | false =>
      rw [hfailure] at hsuccess
      rw [hsuccess] at hfollows hget ⊢
      rw [if_pos (show (!false) = true from rfl)]
      cases verify with
      | false =>
        have hnext : c.next (.monitor retry false) = .dispatch retry true := by
          unfold Complete.next
          cases retry with
          | true => rfl
          | false =>
            rw [show decide (c.requiresReplan = .bool true) = false from hfailure]
            rfl
        obtain ⟨a, hready⟩ := @Env.Follows.ready e' c.workflow retry true hfollows
        rw [hready, hnext]
        exact ⟨_, rfl, hcycle, hepisode, horacle, hagents, rfl, hrunning, havailable,
          fun n hn => (by cases retry <;> cases hn), fun hearly => Bool.noConfusion hearly, hfollows⟩
      | true =>
        rw [Env.Follows.finished hfollows]
        obtain ⟨settled, a, b, hactive, hsettled, -, hsteps⟩ := hfollows
        rw [← hparts, hget] at hsettled
        cases hsettled
        have hcompleted : ∀ e'' : Env, e''.activePlanId = e'.activePlanId →
            e''.episode = e'.episode → e''.plans = e'.plans.set (e.episode.planId retry)
              { plan.settle step.stepId true with status := .completed } →
            ∃ retry status first second, e''.Follows c.workflow retry status first second := by
          intro e'' hactive' hepisode' hplans
          refine ⟨retry, .completed, .completed, .completed,
            { plan.settle step.stepId true with status := .completed }, a, b, ?_, ?_, rfl, hsteps⟩
          · rw [hactive', hepisode', hactive]
          · rw [hplans, hepisode', ← hparts]
            exact Dict.get_set_self _ _ _
        have hrequires : e'.oracle.requiresReplan = some c.requiresReplan := by
          rw [horacle, c.requiresReplan_eq]
        unfold Env.complete
        dsimp only
        rw [hrequires]
        dsimp only
        have hnext : c.next (.monitor retry true) =
            if truthy c.requiresReplan then .terminate else .review := by
          unfold Complete.next
          cases retry <;> rfl
        rw [hnext]
        cases hskips : truthy c.requiresReplan with
        | true =>
          exact ⟨_, rfl, hcycle, hepisode, horacle, hagents, rfl, hrunning, havailable,
            fun n hn => (by cases hn), fun _ => hknown, hcompleted _ rfl rfl rfl⟩
        | false =>
          exact ⟨_, rfl, hcycle, hepisode, horacle, hagents, rfl, hrunning, havailable,
            fun n hn => (by cases hn), fun _ => hknown, hcompleted _ rfl rfl rfl⟩
  obtain ⟨e'', hrelease, hcycle', hat⟩ := hpair
  exact ⟨e'', _, hexpected, hcommit.trans hrelease, hcycle', hat⟩

end

/-! ### The other stages -/

section
variable {rt : Runtime} {episode : Episode} {oracle : Oracle} {c : Complete episode oracle}
  {e : Env}

theorem At.replan_leads (h : At c .replan e) (hclock : Clock rt episode e.cycleIndex) :
    ∃ e', e.Leads rt c (.dispatch true false) e' := by
  obtain ⟨time, htime⟩ := h.clock_iff.mpr hclock
  obtain ⟨status, first, second, plan, a, b, hactive, hget, -, -⟩ := h.progress
  have hexpected : e.expectedProposal rt = .ok ⟨.replan e.activePlanId (e.episode.planId true)
      (basePlanSteps c.workflow true) time c.reason,
      "The observed failure invalidates the active plan and requires a fresh feasible retry with verification."⟩ := by
    unfold Env.expectedProposal
    dsimp only
    rw [h.phase_eq, htime, h.episode_eq, h.oracle_eq]
    dsimp only [Stage.phase]
    rw [c.workflow_eq, c.reason_eq]
    rfl
  obtain ⟨plans, hplans⟩ : ∃ plans, e.supersede = .ok plans := by
    unfold Env.supersede
    rw [hactive]
    dsimp only
    split
    · exact ⟨_, rfl⟩
    · exact ⟨_, bind_ok.mpr ⟨plan, orRaise_ok.mpr hget, rfl⟩⟩
  have hcommit : e.commitReplan (e.episode.planId true) (basePlanSteps c.workflow true) = (.ok (),
      { e with plans }.putPlan (e.episode.planId true) none (basePlanSteps c.workflow true) 2) := by
    unfold Env.commitReplan
    rw [hplans]
  refine ⟨_, _, hexpected, hcommit, rfl, ?_⟩
  exact ⟨h.episode_eq, h.oracle_eq, h.agents_eq, rfl, h.terminated_eq, h.available,
    fun n hn => (by cases hn), fun hearly => Bool.noConfusion hearly,
    Env.follows_put { e with plans } _ _ _ _⟩

theorem At.review_leads (h : At c .review e) : ∃ e', e.Leads rt c .terminate e' := by
  have hexpected : e.expectedProposal rt = .ok ⟨.abstain,
      "The governed objective is complete and no further institutional operation is justified."⟩ := by
    unfold Env.expectedProposal
    dsimp only
    rw [h.phase_eq]
    rfl
  have hcommit : e.commit rt .abstain = (.ok (), { e with phase := .terminate }) := by
    unfold Env.commit Env.advanceAbstention
    dsimp only
    rw [h.phase_eq]
    rfl
  exact ⟨_, _, hexpected, hcommit, rfl, h.episode_eq, h.oracle_eq, h.agents_eq, rfl,
    h.terminated_eq, h.available, h.attempts, h.known, h.progress⟩

theorem At.terminate_leads (h : At c .terminate e) : ∃ e', e.Leads rt c .done e' := by
  have hexpected : e.expectedProposal rt = .ok ⟨.abstain,
      "The governed objective is complete and no further institutional operation is justified."⟩ := by
    unfold Env.expectedProposal
    dsimp only
    rw [h.phase_eq]
    rfl
  have hcommit : e.commit rt .abstain = (.ok (), { e with
      terminated := true
      episodeSuccess := e.goal.any Goal.completed }) := by
    unfold Env.commit Env.advanceAbstention
    dsimp only
    rw [h.phase_eq]
    rfl
  exact ⟨_, _, hexpected, hcommit, rfl, h.episode_eq, h.oracle_eq, h.agents_eq, h.phase_eq,
    rfl, h.available, h.attempts, h.known, h.progress⟩

/-- A step that returns read the ledger first. -/
theorem proceeds_observed (hrunning : e.terminated = false) (h : e.Proceeds rt) :
    e.Observed rt := by
  obtain ⟨r, hr⟩ := h
  cases hexpected : e.expectedProposal rt with
  | error err =>
    unfold Env.referenceStep at hr
    rw [hexpected] at hr
    cases hr
  | ok p => exact ((referenceStep_ok_iff hrunning hexpected).mp ⟨r, Prod.ext hr rfl⟩).1

/-- Where the clock is there the proposal leads on, and the ledger needs `P` before the step and
`Q` after it. -/
theorem At.step_of_leads {stage stage' : Stage} {P Q : Prop} (h : At c stage e)
    (hstage : stage ≠ .done) (hbefore : e.Observed rt ↔ Clock rt episode e.cycleIndex ∧ P)
    (hleads : Clock rt episode e.cycleIndex → ∃ e', e.Leads rt c stage' e' ∧
      (e'.Observed rt ↔ Clock rt episode e'.cycleIndex ∧ Q)) :
    (e.Proceeds rt ↔ Clock rt episode e.cycleIndex ∧ P ∧ Q) ∧
      (e.Proceeds rt → e.Advances rt c stage') := by
  by_cases hclock : Clock rt episode e.cycleIndex
  · obtain ⟨e', hlead, hafter⟩ := hleads hclock
    obtain ⟨hproceeds, hadvances⟩ := h.advances hstage hlead
    obtain ⟨-, -, -, hcycle, -⟩ := hlead
    rw [hproceeds, hbefore, hafter, hcycle]
    refine ⟨?_, fun hobserved => hadvances (hproceeds.mpr ?_)⟩
    · constructor
      · rintro ⟨⟨-, hp⟩, -, hq⟩
        exact ⟨hclock, hp, hq⟩
      · rintro ⟨-, hp, hq⟩
        exact ⟨⟨hclock, hp⟩, hclock, hq⟩
    · rw [hbefore, hafter, hcycle]
      exact hobserved
  · have hnot : ¬ e.Proceeds rt := fun hproceeds =>
      hclock (hbefore.mp (proceeds_observed (h.running hstage) hproceeds)).1
    exact ⟨iff_of_false hnot fun hneed => hclock hneed.1, fun hproceeds => absurd hproceeds hnot⟩

/-- Where the resource exists the ledger can be read at every stage. -/
theorem At.observed_known {stage : Stage} (h : At c stage e) (hknown : c.Known) :
    e.Observed rt ↔ Clock rt episode e.cycleIndex := by
  cases stage with
  | goal => exact h.observed_early h.progress
  | plan => exact h.observed_early h.progress
  | dispatch retry verify => exact h.observed_dispatch.trans (and_iff_left hknown)
  | monitor retry verify => exact h.observed_late rfl
  | replan => exact h.observed_late rfl
  | review => exact h.observed_late rfl
  | terminate => exact h.observed_late rfl
  | done => exact h.observed_late rfl

/-- After a dispatch a step needs the clock only. -/
theorem At.step_late {stage : Stage} (h : At c stage e) (hstage : stage ≠ .done)
    (hdispatched : stage.dispatched = true)
    (hleads : Clock rt episode e.cycleIndex → ∃ e', e.Leads rt c (c.next stage) e') :
    (e.Proceeds rt ↔ Clock rt episode e.cycleIndex ∧ True) ∧
      (e.Proceeds rt → e.Advances rt c (c.next stage)) := by
  have hknown := h.known hdispatched
  have hstep := @At.step_of_leads rt _ _ _ _ stage (c.next stage) True True h hstage
    (by rw [h.observed_known hknown, and_true]) fun hclock => by
      obtain ⟨e', hleads⟩ := hleads hclock
      obtain ⟨_, _, _, _, hat⟩ := id hleads
      exact ⟨e', hleads, by rw [hat.observed_known hknown, and_true]⟩
  rwa [and_true] at hstep

/-- **A step at a stage** returns exactly where what it needs is there, and leaves the state at the
stage that follows. -/
theorem At.step_iff {stage : Stage} (h : At c stage e) (hstage : stage ≠ .done) :
    (e.Proceeds rt ↔ c.Need rt stage e.cycleIndex) ∧
      (e.Proceeds rt → e.Advances rt c (c.next stage)) := by
  cases stage with
  | goal =>
    obtain ⟨e', hleads⟩ := @At.goal_leads rt _ _ _ _ h
    obtain ⟨_, _, _, _, hat⟩ := id hleads
    have hstep := @At.step_of_leads rt _ _ _ _ _ _ True True h hstage
      (by rw [h.observed_early h.progress, and_true]) fun _ =>
        ⟨e', hleads, by rw [hat.observed_early hat.progress, and_true]⟩
    rwa [and_true] at hstep
  | plan =>
    obtain ⟨e', hleads⟩ := @At.plan_leads rt _ _ _ _ h
    obtain ⟨_, _, _, _, hat⟩ := id hleads
    have hstep := @At.step_of_leads rt _ _ _ _ _ _ True c.Known h hstage
      (by rw [h.observed_early h.progress, and_true]) fun _ => ⟨e', hleads, hat.observed_dispatch⟩
    rwa [true_and] at hstep
  | dispatch retry verify =>
    by_cases hneed : c.Dispatchable verify
    · obtain ⟨e', hleads⟩ := @At.dispatch_leads rt _ _ _ _ _ _ h hneed
      obtain ⟨_, _, _, _, hat⟩ := id hleads
      obtain ⟨resource, hresource, -⟩ := hneed.1
      obtain ⟨hproceeds, hadvances⟩ := @At.step_of_leads rt _ _ _ _ _ _ c.Known True h hstage
        h.observed_dispatch fun _ => ⟨e', hleads, by rw [hat.observed_late rfl, and_true]⟩
      refine ⟨hproceeds.trans (and_congr_right fun _ => iff_of_true ⟨?_, trivial⟩ hneed), hadvances⟩
      exact ⟨resource, hresource⟩
    · have hnot := @At.dispatch_stuck rt _ _ _ _ _ _ h hneed
      exact ⟨iff_of_false hnot fun hall => hneed hall.2, fun hproceeds => absurd hproceeds hnot⟩
  | monitor retry verify => exact h.step_late hstage rfl h.monitor_leads
  | replan => exact h.step_late hstage rfl h.replan_leads
  | review => exact h.step_late hstage rfl fun _ => h.review_leads
  | terminate => exact h.step_late hstage rfl fun _ => h.terminate_leads
  | done => exact absurd rfl hstage

end

/-! ## Runs -/

/-- The state after so many reference steps. -/
def referenceAfter (rt : Runtime) (n : Nat) (e : Env) : Env :=
  (fun e => (e.referenceStep rt).2)^[n] e

section
variable {rt : Runtime} {episode : Episode} {oracle : Oracle} {c : Complete episode oracle}
  {start e : Env}

/-- The stage of a cycle. -/
def Complete.stageAt (c : Complete episode oracle) (n : Nat) : Stage := c.next^[n] .goal

/-- The number of cycles of the reference run. -/
def Complete.cycles (c : Complete episode oracle) : Nat :=
  if c.requiresReplan = .bool true then 10 else if truthy c.requiresReplan then 7 else 8

/-- What an episode needs for its reference run: a unit of the workflow's resource, an agent for
each of its two capabilities, and a clock for every cycle. -/
structure Complete.Feasible (rt : Runtime) (c : Complete episode oracle) : Prop where
  resource : ∃ resource, episode.resources.get c.workflow.resourceId = some resource ∧
    1 ≤ resource.available
  primary : ∃ agent ∈ episode.agents, agent.available = true ∧
    c.workflow.primaryCapability ∈ agent.capabilities
  verification : ∃ agent ∈ episode.agents, agent.available = true ∧
    c.workflow.verificationCapability ∈ agent.capabilities
  clock : ∀ n < c.cycles, ∃ time, isoAt rt episode.horizonStart n = .ok time

/-- How the first outcome goes and whether there is a review decide the stages. -/
theorem stages_cases (c : Complete episode oracle) :
    (c.cycles = 10 ∧ c.stageAt = fun n => (Stage.next true true)^[n] .goal) ∨
    (c.cycles = 7 ∧ c.stageAt = fun n => (Stage.next false true)^[n] .goal) ∨
      (c.cycles = 8 ∧ c.stageAt = fun n => (Stage.next false false)^[n] .goal) := by
  by_cases hfails : c.requiresReplan = .bool true
  · refine .inl ⟨if_pos hfails, funext fun n => ?_⟩
    have hnext : c.next = Stage.next true true := by
      unfold Complete.next
      rw [decide_eq_true hfails, hfails]
      rfl
    unfold Complete.stageAt
    rw [hnext]
  · right
    have hcycles : c.cycles = if truthy c.requiresReplan then 7 else 8 := if_neg hfails
    have hnext : c.next = Stage.next false (truthy c.requiresReplan) := by
      unfold Complete.next
      rw [decide_eq_false hfails]
    unfold Complete.stageAt
    rw [hcycles, hnext]
    cases truthy c.requiresReplan with
    | true => exact .inl ⟨rfl, rfl⟩
    | false => exact .inr ⟨rfl, rfl⟩

theorem stageAt_done : c.stageAt c.cycles = .done := by
  rcases stages_cases c with ⟨hcycles, hstage⟩ | ⟨hcycles, hstage⟩ | ⟨hcycles, hstage⟩ <;>
    rw [hcycles, hstage] <;> decide

theorem stageAt_running {n : Nat} (h : n < c.cycles) : c.stageAt n ≠ .done := by
  rcases stages_cases c with ⟨hcycles, hstage⟩ | ⟨hcycles, hstage⟩ | ⟨hcycles, hstage⟩ <;>
    rw [hcycles] at h <;> rw [hstage] <;> interval_cases n <;> decide

/-- Every cycle has what it needs exactly where the episode is feasible. -/
theorem feasible_iff : (∀ n < c.cycles, c.Need rt (c.stageAt n) n) ↔ c.Feasible rt := by
  constructor
  · intro h
    have hdispatchable : ∀ verify, c.Dispatchable verify := by
      intro verify
      rcases stages_cases c with ⟨hcycles, hstage⟩ | ⟨hcycles, hstage⟩ | ⟨hcycles, hstage⟩ <;>
        rw [hcycles, hstage] at h <;> cases verify
      · exact (h 2 (by decide)).2
      · exact (h 7 (by decide)).2
      · exact (h 2 (by decide)).2
      · exact (h 4 (by decide)).2
      · exact (h 2 (by decide)).2
      · exact (h 4 (by decide)).2
    exact ⟨(hdispatchable false).1, (hdispatchable false).2, (hdispatchable true).2,
      fun n hn => (h n hn).1⟩
  · intro h n hn
    have hdispatchable : ∀ verify, c.Dispatchable verify := by
      intro verify
      cases verify with
      | false => exact ⟨h.resource, h.primary⟩
      | true => exact ⟨h.resource, h.verification⟩
    refine ⟨h.clock n hn, ?_⟩
    cases c.stageAt n with
    | plan =>
      obtain ⟨resource, hresource, -⟩ := h.resource
      exact ⟨resource, hresource⟩
    | dispatch retry verify => exact hdispatchable verify
    | _ => trivial

theorem after_succ (n : Nat) (e : Env) :
    referenceAfter rt (n + 1) e = (Env.referenceStep rt (referenceAfter rt n e)).2 :=
  Function.iterate_succ_apply' _ _ _

/-- After the end nothing happens. -/
theorem terminated_stays (h : e.terminated = true) :
    ¬ e.Proceeds rt ∧ (e.referenceStep rt).2 = e := by
  unfold Env.Proceeds Env.referenceStep
  cases e.expectedProposal rt with
  | error err =>
    refine ⟨?_, rfl⟩
    rintro ⟨r, hr⟩
    cases hr
  | ok p =>
    dsimp only
    unfold Env.step
    rw [h, if_pos rfl]
    refine ⟨?_, rfl⟩
    rintro ⟨r, hr⟩
    cases hr

theorem new_at (hnew : Env.new rt episode oracle = .ok start) :
    At c .goal start ∧ start.cycleIndex = 0 := by
  obtain ⟨_, _, h⟩ := bind_ok.mp hnew
  obtain ⟨_, _, h⟩ := bind_ok.mp h
  obtain ⟨_, _, h⟩ := bind_ok.mp h
  obtain ⟨_, _, h⟩ := bind_ok.mp h
  obtain ⟨_, _, h⟩ := bind_ok.mp h
  cases h
  refine ⟨⟨rfl, rfl, rfl, rfl, rfl, ?_, fun n hn => ?_, fun hearly => Bool.noConfusion hearly, rfl⟩,
    rfl⟩
  · exact congrArg (fun f => (episode.resources.get c.workflow.resourceId).map f)
      (funext fun r => (Int.sub_zero _).symm)
  · cases hn
    rfl

/-- While the steps return, the run is at its stage in every cycle. -/
theorem after_at (hnew : Env.new rt episode oracle = .ok start) {n : Nat}
    (h : ∀ m < n, (referenceAfter rt m start).Proceeds rt) :
    At c (c.stageAt n) (referenceAfter rt n start) ∧ (referenceAfter rt n start).cycleIndex = n := by
  induction n with
  | zero => exact new_at hnew
  | succ n ih =>
    obtain ⟨hat, hcycle⟩ := ih fun m hm => h m (by omega)
    have hproceeds := h n (by omega)
    have hstage : c.stageAt n ≠ .done := by
      intro hdone
      rw [hdone] at hat
      exact (terminated_stays hat.terminated_eq).1 hproceeds
    obtain ⟨r, s, hstep, hnext, hat'⟩ := (hat.step_iff hstage).2 hproceeds
    have hstage' : c.stageAt (n + 1) = c.next (c.stageAt n) := Function.iterate_succ_apply' _ _ _
    rw [after_succ, hstep, hstage']
    exact ⟨hat', by rw [hnext, hcycle]⟩

/-- The steps return as long as every cycle has what it needs. -/
theorem proceeds_of_needs (hnew : Env.new rt episode oracle = .ok start) {n : Nat}
    (hn : n ≤ c.cycles) (h : ∀ m < n, c.Need rt (c.stageAt m) m) :
    ∀ m < n, (referenceAfter rt m start).Proceeds rt := by
  induction n with
  | zero => exact fun m hm => absurd hm (Nat.not_lt_zero m)
  | succ n ih =>
    have hbefore := ih (by omega) fun m hm => h m (by omega)
    intro m hm
    rcases Nat.lt_succ_iff_lt_or_eq.mp hm with hm | rfl
    · exact hbefore m hm
    · obtain ⟨hat, hcycle⟩ := @after_at rt _ _ c _ hnew m hbefore
      refine (hat.step_iff (stageAt_running (by omega))).1.mpr ?_
      rw [hcycle]
      exact h m (by omega)

theorem needs_of_proceeds (hnew : Env.new rt episode oracle = .ok start)
    (h : ∀ n, (referenceAfter rt n start).terminated = false →
      (referenceAfter rt n start).Proceeds rt) {n : Nat} (hn : n ≤ c.cycles) :
    ∀ m < n, (referenceAfter rt m start).Proceeds rt ∧ c.Need rt (c.stageAt m) m := by
  induction n with
  | zero => exact fun m hm => absurd hm (Nat.not_lt_zero m)
  | succ n ih =>
    have hbefore := ih (by omega)
    intro m hm
    rcases Nat.lt_succ_iff_lt_or_eq.mp hm with hm | rfl
    · exact hbefore m hm
    · obtain ⟨hat, hcycle⟩ := @after_at rt _ _ c _ hnew m fun k hk => (hbefore k hk).1
      have hstage : c.stageAt m ≠ .done := stageAt_running (by omega)
      have hproceeds := h m (hat.running hstage)
      refine ⟨hproceeds, ?_⟩
      have hneed := (hat.step_iff hstage).1.mp hproceeds
      rwa [hcycle] at hneed

theorem terminated_after (n : Nat) (h : (referenceAfter rt n start).terminated = true) (m : Nat) :
    (referenceAfter rt (n + m) start).terminated = true := by
  induction m with
  | zero => exact h
  | succ m ih => rw [← Nat.add_assoc, after_succ, (terminated_stays ih).2, ih]

/-- Enough fuel for a run whose steps return until it ends. -/
theorem runReference_ok {n : Nat} (hproceeds : ∀ m < n, (referenceAfter rt m e).Proceeds rt)
    (hend : (referenceAfter rt n e).terminated = true) :
    ∃ run, e.runReference rt n = some (.ok run) := by
  induction n generalizing e with
  | zero =>
    unfold Env.runReference
    rw [if_pos (show e.terminated = true from hend)]
    exact ⟨_, rfl⟩
  | succ n ih =>
    unfold Env.runReference
    cases hrunning : e.terminated with
    | true =>
      rw [if_pos rfl]
      exact ⟨_, rfl⟩
    | false =>
      rw [if_neg Bool.false_ne_true]
      have hproceeds₀ : e.Proceeds rt := hproceeds 0 (Nat.succ_pos n)
      obtain ⟨observation, hobserve⟩ := proceeds_observed hrunning hproceeds₀
      obtain ⟨r, hr⟩ := hproceeds₀
      have hstep : e.referenceStep rt = (.ok r, referenceAfter rt 1 e) := Prod.ext hr rfl
      obtain ⟨run, hrun⟩ := @ih (referenceAfter rt 1 e)
        (fun m hm => by
          have := hproceeds (m + 1) (by omega)
          rwa [show referenceAfter rt (m + 1) e = referenceAfter rt m (referenceAfter rt 1 e) from
            Function.iterate_add_apply _ _ _ _] at this)
        (by
          rwa [show referenceAfter rt (n + 1) e = referenceAfter rt n (referenceAfter rt 1 e) from
            Function.iterate_add_apply _ _ _ _] at hend)
      rw [hobserve, hstep]
      dsimp only
      rw [hrun]
      exact ⟨_, rfl⟩

end

/-- **The reference run.** For an episode and an oracle with all their fields that the environment
accepts, no reference step raises before the end and `run_reference` returns, exactly where the
episode is feasible. -/
theorem reference_iff {rt : Runtime} {episode : Episode} {oracle : Oracle} {start : Env}
    (c : Complete episode oracle) (hnew : Env.new rt episode oracle = .ok start) :
    ((∀ n, (referenceAfter rt n start).terminated = false →
        ∃ r, ((referenceAfter rt n start).referenceStep rt).1 = .ok r) ∧
      ∃ fuel run, start.runReference rt fuel = some (.ok run)) ↔ c.Feasible rt := by
  rw [← feasible_iff]
  constructor
  · rintro ⟨hsteps, -⟩ n hn
    exact (needs_of_proceeds hnew hsteps (Nat.le_refl _) n hn).2
  · intro hneeds
    have hproceeds := proceeds_of_needs hnew (Nat.le_refl _) hneeds
    have hend : (referenceAfter rt c.cycles start).terminated = true := by
      rw [(@after_at rt _ _ c _ hnew _ hproceeds).1.terminated_eq, stageAt_done]
      rfl
    refine ⟨fun n hrunning => ?_, c.cycles, runReference_ok hproceeds hend⟩
    rcases Nat.lt_or_ge n c.cycles with hn | hn
    · exact hproceeds n hn
    · obtain ⟨m, rfl⟩ := Nat.exists_eq_add_of_le hn
      rw [terminated_after _ hend] at hrunning
      cases hrunning

/-! ### An interruption of service -/

def sampleComplete (available : Bool) : Complete (sampleEpisode available) sampleOracle where
  objective := "Resolve the interruption."
  workflow := ⟨"Triage.", "Triage again.", "Verify.", "TRIAGE", "VERIFY", "desk", "resolved", "verified"⟩
  requiresReplan := .bool true
  reason := "No evidence."
  objective_eq := rfl
  workflow_eq := rfl
  requiresReplan_eq := rfl
  reason_eq := rfl

/-- With its first agent available the service desk goes through its ten cycles. -/
theorem reference_desk : ∃ fuel run, (sampleStart true).runReference sampleRuntime fuel =
    some (.ok run) := by
  have hnew : Env.new sampleRuntime (sampleEpisode true) sampleOracle = .ok (sampleStart true) := rfl
  refine ((reference_iff (sampleComplete true) hnew).mpr ⟨?_, ?_, ?_, fun n hn => ?_⟩).2
  · exact ⟨⟨2, []⟩, rfl, by decide⟩
  · exact ⟨⟨"agent-a", ["TRIAGE"], true, []⟩, List.mem_cons_self, rfl, by decide⟩
  · exact ⟨⟨"agent-b", ["VERIFY"], true, []⟩, by simp [sampleEpisode], rfl, by decide⟩
  · have hcycles : (sampleComplete true).cycles = 10 := rfl
    rw [hcycles] at hn
    interval_cases n <;> exact ⟨_, rfl⟩

/-- Without an available agent for the primary step, the proposal that the environment expects in
its third cycle is an abstention, and its own step refuses it. -/
theorem reference_stuck : Env.new sampleRuntime (sampleEpisode false) sampleOracle =
      .ok (sampleStart false) ∧
    (referenceAfter sampleRuntime 2 (sampleStart false)).terminated = false ∧
    ∀ r, ((referenceAfter sampleRuntime 2 (sampleStart false)).referenceStep sampleRuntime).1 ≠ .ok r := by
  refine ⟨rfl, by decide +kernel, fun r hr => ?_⟩
  have hstuck : ((referenceAfter sampleRuntime 2 (sampleStart false)).referenceStep
      sampleRuntime).1.toOption.isSome = false := by decide +kernel
  rw [hr] at hstuck
  cases hstuck

end Edon.ClosedLoop
