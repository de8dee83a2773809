import EdonPlatform.Evaluation.ClosedLoop

/- What the closed-loop environment keeps, whatever is proposed to it.

   What is proved:
     1. `Env.Sound` — at most the monitored step is in progress, and what is available of a
        resource together with the units of the steps in progress is what the episode started
        with. Every call of `step` keeps it, also one that raises (`step_sound`).
     2. `step_rejected` — a rejected proposal changes nothing of the institutional state and ends
        the episode.
     3. `step_forbidden` — a proposal with a field of authority, at any depth, never changes the
        institutional state.
   `closed_loop_safety` has the three, after any sequence of proposals. -/
namespace Edon.ClosedLoop
open Json Transition

/-! ## Units in progress -/

/-- The units of a resource that a step in progress has. -/
def PlanStep.held (s : PlanStep) (resourceId : String) : Int :=
  if s.status = .inProgress ∧ s.resourceId = resourceId then s.resourceUnits else 0

def Plan.held (p : Plan) (resourceId : String) : Int :=
  (p.steps.map fun s => s.held resourceId).sum

def Env.held (e : Env) (resourceId : String) : Int := e.plans.sum fun _ p => p.held resourceId

theorem held_of_not_inProgress {s : PlanStep} (h : s.status ≠ .inProgress) (r : String) :
    s.held r = 0 := if_neg fun hheld => h hheld.1

theorem plan_held_eq_zero {p : Plan} (h : ∀ s ∈ p.steps, s.status ≠ .inProgress) (r : String) :
    p.held r = 0 := by
  apply List.sum_eq_zero
  intro x hx
  obtain ⟨s, hs, rfl⟩ := List.mem_map.mp hx
  exact held_of_not_inProgress (h s hs) r

section
variable {stepId : String} {f : PlanStep → PlanStep} {steps : List PlanStep} {s : PlanStep}

theorem held_setFirst (h : steps.find? (fun s => s.stepId = stepId) = some s) (r : String) :
    ((setFirst stepId f steps).map fun s => s.held r).sum + s.held r =
      (steps.map fun s => s.held r).sum + (f s).held r := by
  induction steps with
  | nil => cases h
  | cons x steps ih =>
    unfold setFirst
    rw [List.find?_cons] at h
    by_cases hx : x.stepId = stepId
    · rw [decide_eq_true hx] at h
      cases h
      rw [if_pos hx, List.map_cons, List.map_cons, List.sum_cons, List.sum_cons]
      omega
    · rw [decide_eq_false hx] at h
      rw [if_neg hx, List.map_cons, List.map_cons, List.sum_cons, List.sum_cons]
      have := ih h
      omega

theorem setFirst_nodup (hids : (steps.map fun s => s.stepId).Nodup)
    (hf : ∀ s, (f s).stepId = s.stepId) :
    ((setFirst stepId f steps).map fun s => s.stepId).Nodup := by
  have hsame : (setFirst stepId f steps).map (fun s => s.stepId) = steps.map fun s => s.stepId := by
    clear hids
    induction steps with
    | nil => rfl
    | cons x steps ih =>
      unfold setFirst
      split
      · rw [List.map_cons, List.map_cons, hf]
      · rw [List.map_cons, List.map_cons, ih]
  rwa [hsame]

theorem find_setFirst (hf : ∀ s, (f s).stepId = s.stepId)
    (h : steps.find? (fun s => s.stepId = stepId) = some s) :
    (setFirst stepId f steps).find? (fun s => s.stepId = stepId) = some (f s) := by
  induction steps with
  | nil => cases h
  | cons x steps ih =>
    unfold setFirst
    rw [List.find?_cons] at h
    by_cases hx : x.stepId = stepId
    · rw [decide_eq_true hx] at h
      cases h
      rw [if_pos hx, List.find?_cons, hf, decide_eq_true hx]
    · rw [decide_eq_false hx] at h
      rw [if_neg hx, List.find?_cons, decide_eq_false hx]
      exact ih h

/-- Where ids are unique, the step that is changed is the only one with its id. -/
theorem mem_setFirst (hids : (steps.map fun s => s.stepId).Nodup)
    (h : steps.find? (fun s => s.stepId = stepId) = some s) {x : PlanStep}
    (hx : x ∈ setFirst stepId f steps) : x = f s ∨ x ∈ steps ∧ x.stepId ≠ stepId := by
  induction steps with
  | nil => cases h
  | cons y steps ih =>
    obtain ⟨hnot, hids⟩ := List.nodup_cons.mp hids
    unfold setFirst at hx
    rw [List.find?_cons] at h
    by_cases hy : y.stepId = stepId
    · rw [decide_eq_true hy] at h
      cases h
      rw [if_pos hy] at hx
      rcases List.mem_cons.mp hx with hx | hx
      · exact .inl hx
      · have hmem : x.stepId ∈ steps.map fun s => s.stepId := List.mem_map_of_mem hx
        refine .inr ⟨List.mem_cons_of_mem _ hx, fun heq => hnot ?_⟩
        rw [heq, ← hy] at hmem
        exact hmem
    · rw [decide_eq_false hy] at h
      rw [if_neg hy] at hx
      rcases List.mem_cons.mp hx with rfl | hx
      · exact .inr ⟨List.mem_cons_self, hy⟩
      · exact (ih hids h hx).imp_right fun hold => ⟨List.mem_cons_of_mem _ hold.1, hold.2⟩

end

/-! ## The invariant -/

/-- The invariant, for the resources the episode started with. -/
structure Env.Sound (e : Env) (initial : Dict String Resource) : Prop where
  ids : ∀ planId plan, e.plans.get planId = some plan → (plan.steps.map fun s => s.stepId).Nodup
  idle : ∀ planId plan, e.plans.get planId = some plan → ∀ s ∈ plan.steps,
    s.status = .inProgress → e.monitorTarget = some (planId, s.stepId)
  target : ∀ t, e.monitorTarget = some t → e.phase = .monitor ∧
    ∃ plan s, e.plans.get t.1 = some plan ∧ plan.steps.find? (fun s => s.stepId = t.2) = some s ∧
      s.status = .inProgress
  conserved : ∀ r, (e.resources.get r).map (fun res => res.available + e.held r) =
    (initial.get r).map Resource.available

/-- The parts of the state that the invariant is about. -/
theorem Env.Sound.congr {initial : Dict String Resource} {e e' : Env} (h : e.Sound initial) (hplans : e'.plans = e.plans)
    (htarget : e'.monitorTarget = e.monitorTarget)
    (hphase : e.monitorTarget ≠ none → e'.phase = e.phase)
    (hresources : e'.resources = e.resources) : e'.Sound initial := by
  refine ⟨fun planId plan hget => h.ids planId plan (hplans ▸ hget), fun planId plan hget => ?_,
    fun t ht => ?_, fun r => ?_⟩
  · rw [htarget]
    exact h.idle planId plan (hplans ▸ hget)
  · rw [htarget] at ht
    rw [hplans, hphase (by rw [ht]; exact Option.some_ne_none t)]
    exact h.target t ht
  · have hconserved := h.conserved r
    unfold Env.held at hconserved ⊢
    rwa [hplans, hresources]

section
variable {e : Env} {initial : Dict String Resource}

/-- Outside the monitoring phase no step is monitored. -/
theorem Env.Sound.untargeted (h : e.Sound initial) (hphase : e.phase ≠ .monitor) :
    e.monitorTarget = none := by
  cases ht : e.monitorTarget with
  | none => rfl
  | some t => exact absurd (h.target t ht).1 hphase

theorem Env.Sound.rest (h : e.Sound initial) (htarget : e.monitorTarget = none) {planId : String} {plan : Plan}
    (hget : e.plans.get planId = some plan) : ∀ s ∈ plan.steps, s.status ≠ .inProgress := by
  intro s hs hstatus
  have := h.idle planId plan hget s hs hstatus
  rw [htarget] at this
  cases this

/-- A plan without steps in progress takes its place among others. -/
theorem held_set {plans : Dict String Plan} {planId : String} {plan : Plan} (r : String) :
    (plans.set planId plan).sum (fun _ p => p.held r) +
        ((plans.get planId).map fun p => p.held r).getD 0 =
      plans.sum (fun _ p => p.held r) + plan.held r :=
  Dict.sum_set (fun _ p => Plan.held p r) plans planId plan

theorem Env.Sound.setPlan (h : e.Sound initial) (htarget : e.monitorTarget = none) {planId : String}
    {plan : Plan} (hids : (plan.steps.map fun s => s.stepId).Nodup)
    (hrest : ∀ s ∈ plan.steps, s.status ≠ .inProgress) :
    Env.Sound { e with plans := e.plans.set planId plan } initial := by
  refine ⟨fun id p hget => ?_, fun id p hget s hs hstatus => ?_, fun t ht => ?_, fun r => ?_⟩
  · dsimp only at hget
    rw [Dict.get_set] at hget
    split at hget
    · cases hget
      exact hids
    · exact h.ids id p hget
  · dsimp only at hget
    rw [Dict.get_set] at hget
    split at hget
    · cases hget
      exact absurd hstatus (hrest s hs)
    · exact absurd hstatus (h.rest htarget hget s hs)
  · have ht : e.monitorTarget = some t := ht
    rw [htarget] at ht
    cases ht
  · have hset := @held_set e.plans planId plan r
    have hold : ((e.plans.get planId).map fun p => p.held r).getD 0 = 0 := by
      cases hget : e.plans.get planId with
      | none => rfl
      | some old => exact plan_held_eq_zero (h.rest htarget hget) r
    rw [hold, plan_held_eq_zero hrest, add_zero, add_zero] at hset
    have hconserved := h.conserved r
    unfold Env.held at hconserved ⊢
    dsimp only
    rw [hset]
    exact hconserved

/-! ## Commits -/

/-- What the state says of the operation it expects. -/
def Env.Expects (e : Env) : Operation → Prop
  | .createGoal _ _ => e.phase = .createGoal
  | .createPlan _ _ steps _ => e.phase = .createPlan ∧ ∃ workflow, steps = basePlanSteps workflow false
  | .dispatchStep planId stepId _ => e.phase = .dispatch ∧ ∃ plan step resource,
      e.plans.get planId = some plan ∧ step ∈ plan.steps ∧ step.stepId = stepId ∧
        e.resources.get step.resourceId = some resource
  | .replan _ _ steps _ _ => e.phase = .replan ∧ ∃ workflow, steps = basePlanSteps workflow true
  | .abstain => True

theorem readyStep_mem {step : PlanStep} (h : e.readyStep = some step) :
    ∃ planId plan, e.activePlanId = some planId ∧ e.plans.get planId = some plan ∧
      step ∈ plan.steps := by
  unfold Env.readyStep at h
  split at h
  · cases h
  · next plan hplan =>
    split at h
    · obtain ⟨planId, hactive, hget⟩ := Option.bind_eq_some_iff.mp hplan
      exact ⟨planId, plan, hactive, hget, List.mem_of_find?_eq_some h⟩
    · cases h

/-- The assignments are of the ready step of the active plan, whose resource exists. -/
theorem assignmentProposals_ok {rows : List Assignment} (h : e.assignmentProposals = .ok rows)
    {a : Assignment} (ha : a ∈ rows) : ∃ plan resource, e.plans.get a.planId = some plan ∧
      a.step ∈ plan.steps ∧ e.resources.get a.step.resourceId = some resource := by
  unfold Env.assignmentProposals at h
  split at h
  · next planId step hactive hready =>
    obtain ⟨resource, hresource, h⟩ := bind_ok.mp h
    cases h
    obtain ⟨agent, _, rfl⟩ := List.mem_map.mp ha
    obtain ⟨planId', plan, hactive', hget, hmem⟩ := readyStep_mem hready
    rw [hactive] at hactive'
    cases hactive'
    exact ⟨plan, resource, hget, hmem, orRaise_ok.mp hresource⟩
  · cases h
    cases ha

theorem expected_expects {rt : Runtime} {p : Proposal} (h : e.expectedProposal rt = .ok p) :
    e.Expects p.operation := by
  unfold Env.expectedProposal at h
  dsimp only at h
  split at h
  · next hphase =>
    obtain ⟨_, _, h⟩ := bind_ok.mp h
    cases h
    exact hphase
  · next hphase =>
    obtain ⟨workflow, _, h⟩ := bind_ok.mp h
    cases h
    exact ⟨hphase, workflow, rfl⟩
  · next hphase =>
    obtain ⟨rows, hrows, h⟩ := bind_ok.mp h
    split at h
    · cases h
      trivial
    · next chosen hchosen =>
      cases h
      have hmem := List.mem_of_head? hchosen
      rw [List.mem_insertionSort] at hmem
      obtain ⟨plan, resource, hget, hstep, hresource⟩ :=
        assignmentProposals_ok hrows (List.mem_of_mem_filter hmem)
      exact ⟨hphase, plan, chosen.step, resource, hget, hstep, rfl, hresource⟩
  · cases h
    trivial
  · next hphase =>
    obtain ⟨workflow, _, h⟩ := bind_ok.mp h
    obtain ⟨_, _, h⟩ := bind_ok.mp h
    obtain ⟨_, _, h⟩ := bind_ok.mp h
    cases h
    exact ⟨hphase, workflow, rfl⟩
  · cases h
    trivial
  · cases h
    trivial

theorem base_ids (workflow : Workflow) (retry : Bool) :
    ((normalizedSteps (basePlanSteps workflow retry)).map fun s => s.stepId).Nodup := by
  cases retry <;> simp [normalizedSteps, basePlanSteps]

theorem normalized_rest (steps : List RawStep) :
    ∀ s ∈ normalizedSteps steps, s.status ≠ .inProgress := by
  intro s hs
  obtain ⟨raw, _, rfl⟩ := List.mem_map.mp hs
  exact StepStatus.noConfusion

theorem Env.Sound.putPlan (h : e.Sound initial) (htarget : e.monitorTarget = none) (planId : String)
    (goalId : Option String) (workflow : Workflow) (retry : Bool) (revision : Nat) :
    (e.putPlan planId goalId (basePlanSteps workflow retry) revision).Sound initial := by
  have hset : Env.Sound { e with
      plans := e.plans.set planId
        { planId
          goalId := (e.goal.map Goal.goalId).or goalId
          status := .active
          revision
          steps := normalizedSteps (basePlanSteps workflow retry) } } initial :=
    h.setPlan htarget (base_ids workflow retry) (normalized_rest _)
  exact hset.congr rfl rfl (fun hne => absurd htarget hne) rfl

theorem Env.Sound.supersede (h : e.Sound initial) (htarget : e.monitorTarget = none)
    {plans : Dict String Plan} (hplans : e.supersede = .ok plans) : Env.Sound { e with plans } initial := by
  unfold Env.supersede at hplans
  split at hplans
  · cases hplans
    exact h
  · next planId _ =>
    split at hplans
    · cases hplans
      exact h
    · obtain ⟨plan, hget, hplans⟩ := bind_ok.mp hplans
      cases hplans
      have hget := orRaise_ok.mp hget
      exact h.setPlan htarget (h.ids planId plan hget) fun s hs => h.rest htarget hget s hs

/-- Units added to a resource. -/
theorem addUnits_ok {resourceId : String} {units : Int} {e' : Env}
    (h : e.addUnits resourceId units = .ok e') : ∃ resource,
      e.resources.get resourceId = some resource ∧ e' = { e with
        resources := e.resources.set resourceId
          { resource with available := resource.available + units } } := by
  obtain ⟨resource, hget, h⟩ := bind_ok.mp h
  cases h
  exact ⟨resource, orRaise_ok.mp hget, rfl⟩

/-- What is available and held of a resource, after the change of one step and of its units. -/
theorem conserved_change {plans : Dict String Plan} {resources : Dict String Resource}
    {planId : String} {plan : Plan} {step step' : PlanStep} {f : PlanStep → PlanStep}
    {resource : Resource} {units : Int} (hplan : plans.get planId = some plan)
    (hstep : plan.steps.find? (fun s => s.stepId = step.stepId) = some step) (hf : f step = step')
    (hresource : resources.get step.resourceId = some resource)
    (hunits : ∀ r, (if step.resourceId = r then units else 0) + step'.held r = step.held r)
    (status : PlanStatus) (r : String) :
    ((resources.set step.resourceId
        { resource with available := resource.available + units }).get r).map (fun res =>
          res.available + (plans.set planId
            { plan with steps := setFirst step.stepId f plan.steps, status }).sum
              fun _ p => p.held r) =
      (resources.get r).map fun res => res.available + plans.sum fun _ p => p.held r := by
  have hset := @held_set plans planId
    { plan with steps := setFirst step.stepId f plan.steps, status } r
  have hsteps := held_setFirst (f := f) hstep r
  have hr := hunits r
  rw [hf] at hsteps
  rw [hplan, Option.map_some, Option.getD_some] at hset
  unfold Plan.held at hset ⊢
  dsimp only at hset
  rw [Dict.get_set]
  by_cases hres : step.resourceId = r
  · rw [if_pos hres] at hr ⊢
    rw [← hres] at hr hset hsteps ⊢
    rw [hresource, Option.map_some, Option.map_some]
    refine congrArg some ?_
    dsimp only
    omega
  · rw [if_neg hres] at hr ⊢
    refine congrArg (fun f => (resources.get r).map f) (funext fun res => ?_)
    omega

theorem addUnits_error {resourceId : String} {units : Int} {err : PyError} {resource : Resource}
    (h : e.addUnits resourceId units = .error err) (hget : e.resources.get resourceId = some resource) :
    False := by
  unfold Env.addUnits item at h
  rw [hget] at h
  cases h

theorem found_id {steps : List PlanStep} {stepId : String} {step : PlanStep}
    (h : steps.find? (fun s => s.stepId = stepId) = some step) : step.stepId = stepId := by
  have hfound := List.find?_some h
  rwa [decide_eq_true_eq] at hfound

theorem locate_ok {planId stepId : String} {plan : Plan} {step : PlanStep}
    (h : e.locate planId stepId = .ok (plan, step)) : e.plans.get planId = some plan ∧
      plan.steps.find? (fun s => s.stepId = stepId) = some step ∧ step.stepId = stepId := by
  obtain ⟨plan', hget, h⟩ := bind_ok.mp h
  obtain ⟨step', hfind, h⟩ := bind_ok.mp h
  cases h
  have hfind := orRaise_ok.mp hfind
  exact ⟨orRaise_ok.mp hget, hfind, found_id hfind⟩

/-- Where ids are unique, the first step with the id of a step is that step. -/
theorem find_of_mem {steps : List PlanStep} (hids : (steps.map fun s => s.stepId).Nodup)
    {step found : PlanStep} (hmem : step ∈ steps)
    (hfound : steps.find? (fun s => s.stepId = step.stepId) = some found) : found = step :=
  List.inj_on_of_nodup_map hids (List.mem_of_find?_eq_some hfound) hmem (found_id hfound)

theorem Env.Sound.dispatch (h : e.Sound initial) {planId stepId agentId : String}
    (hexpects : e.Expects (.dispatchStep planId stepId agentId)) :
    (e.commitDispatch planId stepId agentId).2.Sound initial := by
  obtain ⟨hphase, plan, step, resource, hget, hmem, rfl, hresource⟩ := hexpects
  have htarget := h.untargeted (by rw [hphase]; exact Phase.noConfusion)
  unfold Env.commitDispatch
  split
  · exact h
  · next plan' step' hlocate =>
    obtain ⟨hget', hfind, -⟩ := locate_ok hlocate
    rw [hget] at hget'
    cases hget'
    cases find_of_mem (h.ids planId plan hget) hmem hfind
    dsimp only
    split
    · next err hadd => exact (addUnits_error hadd hresource).elim
    · next e' hadd =>
      obtain ⟨resource', hresource', rfl⟩ := addUnits_ok hadd
      have hresource' : e.resources.get step.resourceId = some resource' := hresource'
      have hidle : step.status ≠ .inProgress := h.rest htarget hget step hmem
      refine ⟨fun id p hp => ?_, fun id p hp s hs hstatus => ?_, fun t ht => ?_, fun r => ?_⟩
      · dsimp only at hp
        rw [Dict.get_set] at hp
        split at hp
        · cases hp
          exact setFirst_nodup (h.ids planId plan hget) fun _ => rfl
        · exact h.ids id p hp
      · dsimp only at hp
        rw [Dict.get_set] at hp
        split at hp
        · next heq =>
          cases hp
          rcases mem_setFirst (h.ids planId plan hget) hfind hs with rfl | ⟨hs, -⟩
          · rw [heq]
          · exact absurd hstatus (h.rest htarget hget s hs)
        · exact absurd hstatus (h.rest htarget hp s hs)
      · cases ht
        exact ⟨rfl, _, _, Dict.get_set_self _ _ _, find_setFirst (fun _ => rfl) hfind, rfl⟩
      · rw [← h.conserved r]
        refine conserved_change hget hfind rfl hresource' (fun r => ?_) plan.status r
        rw [held_of_not_inProgress hidle]
        unfold PlanStep.held
        by_cases hr : step.resourceId = r <;> simp [hr]

theorem released_ok {rt : Runtime} {planId : String} {plan : Plan} {step : PlanStep}
    {outcome : Outcome} (h : e.released rt = .ok (planId, plan, step, outcome)) :
    e.monitorTarget = some (planId, step.stepId) ∧ e.plans.get planId = some plan ∧
      plan.steps.find? (fun s => s.stepId = step.stepId) = some step := by
  obtain ⟨target, htarget, h⟩ := bind_ok.mp h
  obtain ⟨⟨plan', step'⟩, hlocate, h⟩ := bind_ok.mp h
  obtain ⟨_, _, h⟩ := bind_ok.mp h
  obtain ⟨_, _, h⟩ := bind_ok.mp h
  cases h
  obtain ⟨hget, hfind, hid⟩ := locate_ok hlocate
  rw [← hid] at hfind
  exact ⟨hid ▸ orRaise_ok.mp htarget, hget, hfind⟩

theorem settle_ok {planId : String} {plan : Plan} {step : PlanStep} {outcome : Outcome} {e' : Env}
    (h : e.settle planId plan step outcome = .ok e') : ∃ resource,
      e.resources.get step.resourceId = some resource ∧ e' = { e with
        outcomes := e.outcomes ++ [outcome]
        releasedEvents := e.releasedEvents ++ [outcome]
        resources := e.resources.set step.resourceId
          { resource with available := resource.available + step.resourceUnits }
        plans := e.plans.set planId (plan.settle step.stepId outcome.success)
        monitorTarget := none } := by
  obtain ⟨e₁, hadd, h⟩ := bind_ok.mp h
  cases h
  obtain ⟨resource, hget, rfl⟩ := addUnits_ok hadd
  exact ⟨resource, hget, rfl⟩

/-- An outcome gives back the units of the monitored step, which is the only one in progress. -/
theorem Env.Sound.settle (h : e.Sound initial) {planId : String} {plan : Plan} {step : PlanStep}
    {outcome : Outcome} {e' : Env} (htarget : e.monitorTarget = some (planId, step.stepId))
    (hget : e.plans.get planId = some plan)
    (hfind : plan.steps.find? (fun s => s.stepId = step.stepId) = some step)
    (he' : e.settle planId plan step outcome = .ok e') : e'.Sound initial := by
  obtain ⟨resource, hresource, rfl⟩ := settle_ok he'
  obtain ⟨-, plan', step', hget', hfind', hworking⟩ := h.target _ htarget
  rw [hget] at hget'
  cases hget'
  rw [hfind] at hfind'
  cases hfind'
  have hdone : ∀ success : Bool, (if success then StepStatus.completed else .failed) ≠ .inProgress :=
    fun success => by cases success <;> exact StepStatus.noConfusion
  refine ⟨fun id p hp => ?_, fun id p hp s hs hstatus => ?_, fun t ht => ?_, fun r => ?_⟩
  · dsimp only at hp
    rw [Dict.get_set] at hp
    split at hp
    · cases hp
      exact setFirst_nodup (h.ids planId plan hget) fun _ => rfl
    · exact h.ids id p hp
  · -- another step in progress would be the monitored one
    exfalso
    dsimp only at hp
    rw [Dict.get_set] at hp
    split at hp
    · cases hp
      rcases mem_setFirst (h.ids planId plan hget) hfind hs with rfl | ⟨hs, hne⟩
      · exact hdone _ hstatus
      · have hidle := h.idle planId plan hget s hs hstatus
        rw [htarget] at hidle
        exact hne (congrArg Prod.snd (Option.some.inj hidle)).symm
    · next hne =>
      have hidle := h.idle id p hp s hs hstatus
      rw [htarget] at hidle
      exact hne (congrArg Prod.fst (Option.some.inj hidle))
  · cases ht
  · rw [← h.conserved r]
    refine conserved_change hget hfind rfl hresource (fun r => ?_) _ r
    rw [held_of_not_inProgress (hdone _), add_zero]
    unfold PlanStep.held
    by_cases hr : step.resourceId = r <;> simp [hr, hworking]

theorem Env.Sound.release (h : e.Sound initial) (rt : Runtime) : (e.releaseOutcome rt).2.Sound initial := by
  unfold Env.releaseOutcome
  split
  · exact h
  · next planId plan step outcome hreleased =>
    obtain ⟨htarget, hget, hfind⟩ := released_ok hreleased
    split
    · exact h.congr rfl rfl (fun _ => rfl) rfl
    · next e' hsettle =>
      have hsound := h.settle htarget hget hfind hsettle
      obtain ⟨resource, _, rfl⟩ := settle_ok hsettle
      have hnone : ∀ e' : Env, e'.monitorTarget = none → ∀ phase : Phase,
          e'.monitorTarget ≠ none → phase = e'.phase := fun e' he' phase hne => absurd he' hne
      split
      · next hsuccess =>
        split
        · exact hsound.congr rfl rfl (hnone _ rfl _) rfl
        · have hsettled := Dict.get_set_self e.plans planId (plan.settle step.stepId outcome.success)
          rw [hsuccess] at hsettled hsound
          have hids := hsound.ids planId _ hsettled
          have hrest := hsound.rest rfl hsettled
          have hcompleted := @Env.Sound.setPlan _ initial hsound rfl planId
            { plan.settle step.stepId true with status := .completed } hids hrest
          unfold Env.complete
          rw [hsuccess]
          dsimp only
          split
          · exact hcompleted.congr rfl rfl (hnone _ rfl _) rfl
          · exact hcompleted.congr rfl rfl (hnone _ rfl _) rfl
      · exact hsound.congr rfl rfl (hnone _ rfl _) rfl

theorem Env.Sound.commit (h : e.Sound initial) (rt : Runtime) {operation : Operation}
    (hexpects : e.Expects operation) : (e.commit rt operation).2.Sound initial := by
  cases operation with
  | createGoal goalId description =>
    have htarget := h.untargeted (by rw [show e.phase = _ from hexpects]; exact Phase.noConfusion)
    exact h.congr rfl rfl (fun hne => absurd htarget hne) rfl
  | createPlan planId goalId steps horizonStart =>
    obtain ⟨hphase, workflow, rfl⟩ := hexpects
    have htarget := h.untargeted (by rw [hphase]; exact Phase.noConfusion)
    exact h.putPlan htarget planId (some goalId) workflow false 1
  | dispatchStep planId stepId agentId => exact h.dispatch hexpects
  | replan oldPlanId newPlanId steps horizonStart reason =>
    obtain ⟨hphase, workflow, rfl⟩ := hexpects
    have htarget := h.untargeted (by rw [hphase]; exact Phase.noConfusion)
    unfold Env.commit Env.commitReplan
    dsimp only
    split
    · exact h
    · next plans hplans =>
      exact (h.supersede htarget hplans).putPlan htarget newPlanId none workflow true 2
  | abstain =>
    unfold Env.commit Env.advanceAbstention
    dsimp only
    split
    · exact h.release rt
    · next hphase =>
      have htarget := h.untargeted (by rw [hphase]; exact Phase.noConfusion)
      exact h.congr rfl rfl (fun hne => absurd htarget hne) rfl
    · exact h.congr rfl rfl (fun _ => rfl) rfl
    · exact h

/-! ## Steps -/

section
variable {rt : Runtime} {fields : List (String × Json)} {c : Checked}

theorem check_expects (h : e.check rt fields = .ok c) : e.Expects c.expected.operation := by
  obtain ⟨expected, hexpected, h⟩ := bind_ok.mp h
  obtain ⟨_, _, h⟩ := bind_ok.mp h
  obtain ⟨_, _, h⟩ := bind_ok.mp h
  cases h
  exact expected_expects hexpected

theorem accepted_clean (h : c.accepted rt fields = true) :
    (forbiddenPaths (.obj fields)).isEmpty = true := by
  unfold Checked.accepted at h
  rw [Bool.and_eq_true, Bool.and_eq_true] at h
  exact h.1.2

theorem decide_accepted (h : c.accepted rt fields = true) :
    e.decide rt c fields = e.commit rt c.expected.operation := by
  unfold Env.decide
  rw [if_pos (accepted_clean h), if_pos h]

/-- A rejected proposal ends the episode and changes nothing of the institutional state. -/
theorem decide_rejected (h : c.accepted rt fields = false) :
    (e.decide rt c fields).1 = .ok () ∧ (e.decide rt c fields).2.terminated = true ∧
      (e.decide rt c fields).2.institutionalState = e.institutionalState := by
  unfold Env.decide
  rw [h]
  split <;> exact ⟨rfl, rfl, rfl⟩

theorem decide_sound (h : e.Sound initial) (hcheck : e.check rt fields = .ok c) :
    (e.decide rt c fields).2.Sound initial := by
  cases haccepted : c.accepted rt fields with
  | true =>
    rw [decide_accepted haccepted]
    exact h.commit rt (check_expects hcheck)
  | false =>
    unfold Env.decide
    rw [haccepted]
    split <;> exact h.congr rfl rfl (fun _ => rfl) rfl

/-- The state after a step. -/
def Env.next (rt : Runtime) (e : Env) (proposal : Json) : Env := (e.step rt proposal).2

/-- A step leaves the state, or the state of the decision with at most the cycle moved on. -/
theorem next_cases (e : Env) (proposal : Json) : e.next rt proposal = e ∨
    ∃ fields c, proposal = .obj fields ∧ e.check rt fields = .ok c ∧
      ∃ cycle, e.next rt proposal = { (e.decide rt c fields).2 with cycleIndex := cycle } := by
  unfold Env.next Env.step
  split
  · exact .inl rfl
  · split
    · next fields =>
      split
      · exact .inl rfl
      · next c hcheck =>
        refine .inr ⟨fields, c, rfl, hcheck, ?_⟩
        split
        · next err e' hdecide =>
          rw [hdecide]
          exact ⟨_, rfl⟩
        · next e' hdecide =>
          rw [hdecide]
          split
          · exact ⟨_, rfl⟩
          · exact ⟨_, rfl⟩
    · exact .inl rfl

/-- **Every call of `step` keeps the invariant.** -/
theorem step_sound (h : e.Sound initial) (proposal : Json) : (e.next rt proposal).Sound initial := by
  rcases @next_cases rt e proposal with hnext | ⟨fields, c, -, hcheck, cycle, hnext⟩
  · rw [hnext]
    exact h
  · rw [hnext]
    exact (decide_sound h hcheck).congr rfl rfl (fun _ => rfl) rfl

theorem record_accepted {r : StepRecord} (h : e.record rt c fields = .ok r) :
    r.acceptedByKernel = c.accepted rt fields := by
  obtain ⟨_, _, h⟩ := bind_ok.mp h
  cases h
  rfl

/-- **A rejected proposal changes nothing of the institutional state and ends the episode.** -/
theorem step_rejected {proposal : Json} {r : StepRecord} (h : (e.step rt proposal).1 = .ok r)
    (hrejected : r.acceptedByKernel = false) :
    (e.next rt proposal).institutionalState = e.institutionalState ∧
      (e.next rt proposal).terminated = true := by
  unfold Env.next
  unfold Env.step at h ⊢
  split at h
  · cases h
  · next hrunning =>
    rw [if_neg hrunning]
    split at h
    · next fields =>
      split at h
      · cases h
      · next c hcheck =>
        split at h
        · cases h
        · next e' hdecide =>
          split at h
          · cases h
          · next r' hrecord =>
            cases h
            rw [record_accepted hrecord] at hrejected
            obtain ⟨-, hterminated, hstate⟩ := @decide_rejected e rt fields c hrejected
            rw [hdecide] at hterminated hstate
            exact ⟨hstate, hterminated⟩
    · cases h

/-- An entry of a proposal, at some depth, is a field of authority or claims binding authority. -/
def CarriesAuthority (proposal : Json) : Prop :=
  ∃ key child, (PyValue.ofJson proposal).Within key child ∧
    (lower key ∈ forbiddenAuthorityFields ∨
      lower key = "binding_authority" ∧ child = .bool true)

theorem carriesAuthority_iff {proposal : Json} :
    CarriesAuthority proposal ↔ forbiddenPaths proposal ≠ [] := by
  unfold forbiddenPaths
  rw [Ne, scan_eq_nil]
  unfold PyValue.Throughout CarriesAuthority
  push Not
  refine exists_congr fun key => exists_congr fun child => and_congr_right fun _ => ?_
  have htrue : isTrue child = true ↔ child = .bool true := by
    cases child <;> simp [isTrue]
  unfold Passes
  simp only [List.mem_cons, List.not_mem_nil, or_false, forall_eq_or_imp, forall_eq,
    decide_eq_false_iff_not, Bool.and_eq_false_iff]
  rw [not_and_or, not_not, not_or, not_not, Bool.not_eq_false, htrue]

/-- **A proposal with a field of authority never changes the institutional state.** -/
theorem step_forbidden {proposal : Json} (h : CarriesAuthority proposal) :
    (e.next rt proposal).institutionalState = e.institutionalState := by
  rcases @next_cases rt e proposal with hnext | ⟨fields, c, rfl, hcheck, cycle, hnext⟩
  · rw [hnext]
  · have hrejected : c.accepted rt fields = false := by
      cases haccepted : c.accepted rt fields with
      | false => rfl
      | true =>
        exact absurd (List.isEmpty_iff.mp (accepted_clean haccepted)) (carriesAuthority_iff.mp h)
    rw [hnext]
    exact (@decide_rejected e rt fields c hrejected).2.2

end

theorem new_sound {rt : Runtime} {episode : Episode} {oracle : Oracle} {e : Env}
    (h : Env.new rt episode oracle = .ok e) : e.Sound episode.resources := by
  obtain ⟨_, _, h⟩ := bind_ok.mp h
  obtain ⟨_, _, h⟩ := bind_ok.mp h
  obtain ⟨_, _, h⟩ := bind_ok.mp h
  obtain ⟨_, _, h⟩ := bind_ok.mp h
  obtain ⟨_, _, h⟩ := bind_ok.mp h
  cases h
  refine ⟨fun _ _ hget => ?_, fun _ _ hget => ?_, fun _ ht => ?_, fun r => ?_⟩
  · cases hget
  · cases hget
  · cases ht
  · unfold Env.held
    simp only [Dict.sum_empty, add_zero]

end

/-- **Safety of the closed loop.** After any proposals, a rejected proposal leaves the
institutional state and ends the episode; a proposal with a field of authority leaves the
institutional state; and what is available of each resource, with the units of the steps in
progress, is what the episode started with. -/
theorem closed_loop_safety (rt : Runtime) {episode : Episode} {oracle : Oracle} {start : Env}
    (hnew : Env.new rt episode oracle = .ok start) (proposals : List Json) :
    (∀ proposal r, ((exec (Env.next rt) start proposals).step rt proposal).1 = .ok r →
      r.acceptedByKernel = false →
      ((exec (Env.next rt) start proposals).next rt proposal).institutionalState =
          (exec (Env.next rt) start proposals).institutionalState ∧
        ((exec (Env.next rt) start proposals).next rt proposal).terminated = true) ∧
    (∀ proposal, CarriesAuthority proposal →
      ((exec (Env.next rt) start proposals).next rt proposal).institutionalState =
        (exec (Env.next rt) start proposals).institutionalState) ∧
    ∀ resourceId, ((exec (Env.next rt) start proposals).resources.get resourceId).map
        (fun resource => resource.available +
          (exec (Env.next rt) start proposals).held resourceId) =
      (episode.resources.get resourceId).map Resource.available := by
  have hsound : (exec (Env.next rt) start proposals).Sound episode.resources :=
    exec_invariant (f := Env.next rt) (I := fun e => e.Sound episode.resources)
      (fun _ proposal h => step_sound h proposal) (new_sound hnew) proposals
  exact ⟨fun _ _ hr hrejected => step_rejected hr hrejected, fun _ h => step_forbidden h,
    hsound.conserved⟩

/-! ### An interruption of service -/

def sampleRuntime : Runtime where
  repr _ := ""
  sha256 _ := ""
  fromisoformat text := if text = "2026-09-03T08:00:00+00:00" then some (1788422400000000, 0) else none

/-- A service desk with two slots; the first agent is available or not. -/
def sampleEpisode (available : Bool) : Episode where
  protocolId := .str protocolId
  episodeId := "pair-a"
  bindingAuthority := .bool false
  horizonStart := "2026-09-03T08:00:00+00:00"
  institution := .null
  sourcePacket := .null
  objective := some "Resolve the interruption."
  workflow := some ⟨"Triage.", "Triage again.", "Verify.", "TRIAGE", "VERIFY", "desk", "resolved",
    "verified"⟩
  agents := [⟨"agent-a", ["TRIAGE"], available, []⟩, ⟨"agent-b", ["VERIFY"], true, []⟩]
  resources := Dict.ofList [("desk", ⟨2, []⟩)]

def sampleOracle : Oracle :=
  ⟨.str protocolId, .str "pair-a", some (.bool true), some "No evidence."⟩

def sampleStart (available : Bool) : Env where
  episode := sampleEpisode available
  oracle := sampleOracle
  resources := (sampleEpisode available).resources
  agents := (sampleEpisode available).agents

/-- The expected goal, with entries added to the proposal. -/
def sampleGoal (more : List (String × Json)) : Json :=
  .obj ([("proposal_type", .str "CREATE_GOAL"), ("payload", .obj [("goal_id", .str "goal:pair-a"),
      ("description", .str "Resolve the interruption.")]),
    ("rationale", .str "The request is in scope."), ("confidence", .float 1),
    ("binding_authority", .bool false)] ++ more)

theorem closed_loop_safety_sample :
    ((exec (Env.next sampleRuntime) (sampleStart true) [sampleGoal []]).next sampleRuntime
        (sampleGoal [])).terminated = true ∧
    ((sampleStart true).next sampleRuntime
        (sampleGoal [("Commit", .null)])).institutionalState =
      (sampleStart true).institutionalState ∧
    ((sampleStart true).resources.get "desk").map
        (fun resource => resource.available + (sampleStart true).held "desk") = some 2 := by
  have hnew : Env.new sampleRuntime (sampleEpisode true) sampleOracle = .ok (sampleStart true) := rfl
  have hrepeated : ((exec (Env.next sampleRuntime) (sampleStart true) [sampleGoal []]).step
      sampleRuntime (sampleGoal [])).1.toOption.any (fun r => !r.acceptedByKernel) = true := by
    decide +kernel
  obtain ⟨r, hr, hrejected⟩ := Fallible.ok_of_any hrepeated
  have hforbidden : forbiddenPaths (sampleGoal [("Commit", .null)]) ≠ [] := by decide +kernel
  obtain ⟨hreject, -, -⟩ := closed_loop_safety sampleRuntime hnew [sampleGoal []]
  obtain ⟨-, hforbid, hconserved⟩ := closed_loop_safety sampleRuntime hnew []
  exact ⟨(hreject _ r hr (Bool.not_eq_true' _ ▸ hrejected)).2,
    hforbid _ (carriesAuthority_iff.mpr hforbidden), hconserved "desk"⟩

end Edon.ClosedLoop
