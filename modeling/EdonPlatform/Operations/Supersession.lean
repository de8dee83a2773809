import EdonPlatform.Operations.LivePlans
import EdonPlatform.Operations.Progress

/- What happens to a plan once it is superseded or completed. `replan` refuses a plan
   with a step that is assigned or running, but not one with a pending step that
   `allocate_step_resources` gave what it requests: the reservation stays with the
   superseded plan, and the pools keep counting it. `cancel_step` looks at the step and
   not at the plan, and takes a superseded plan back to `NEEDS_REPLAN`.

   What is proved: `supersession_iff`, that along a run a closed plan holds nothing and
   keeps its status exactly while every plan that is replaced holds nothing and every
   plan a step of which is cancelled is not superseded. `superseded_plan_reserves` and
   `superseded_plan_reopens` are two runs in which one of them fails. What is counted
   in a pool is what `Step.held` adds up (`resource_conservation`). -/
namespace Edon.Operations
open Transition

/-- The statuses that are meant to be final. -/
def PlanStatus.closed : PlanStatus → Bool
  | .superseded | .completed => true
  | _ => false

/-- No step of the plan holds an allocation that a pool counts. -/
def Plan.HoldsNothing (plan : Plan) : Prop :=
  ∀ stepId step, plan.steps.get stepId = some step → ∀ r, step.held r = 0

/-- No closed plan holds anything. -/
def NoLeak (s : OperationalState) : Prop :=
  ∀ id plan, s.plans.get id = some plan → plan.status.closed = true → plan.HoldsNothing

/-- Every closed plan is there in `s'`, with the same status. -/
def ClosedStay (s s' : OperationalState) : Prop :=
  ∀ id plan, s.plans.get id = some plan → plan.status.closed = true →
    ∃ plan', s'.plans.get id = some plan' ∧ plan'.status = plan.status

/-- The plan the call replaces holds nothing, the plan it cancels a step of is not
superseded. -/
def LeavesClosed (s : OperationalState) : Call → Prop
  | .replan oldPlanId _ _ _ _ _ => ∀ old, s.plans.get (strip oldPlanId) = some old →
      old.HoldsNothing
  | .cancelStep planId _ _ => ∀ plan, s.plans.get (strip planId) = some plan →
      plan.status ≠ .superseded
  | _ => True

/-! ## Closed plans -/

/-- What holds of every plan while no call breaks it: once it is closed, it holds
nothing and nobody works on it. -/
structure Plan.AtRest (plan : Plan) : Prop where
  sound : plan.Sound
  quiet : plan.status.closed = true → plan.HoldsNothing
  idle : plan.status.closed = true → ∀ stepId step, plan.steps.get stepId = some step →
    step.status ≠ .assigned ∧ step.status ≠ .running

def PlansAtRest (s : OperationalState) : Prop :=
  ∀ id plan, s.plans.get id = some plan → plan.AtRest

theorem PlansAtRest.noLeak {s : OperationalState} (h : PlansAtRest s) : NoLeak s :=
  fun id plan hplan => (h id plan hplan).quiet

section
variable {plan plan' : Plan} {stepId : String} {step : Step}

theorem atRest_of_open (hsound : plan.Sound) (hopen : plan.status.closed = false) : plan.AtRest := by
  refine ⟨hsound, ?_, ?_⟩
  · intro hclosed
    rw [hopen] at hclosed
    cases hclosed
  · intro hclosed
    rw [hopen] at hclosed
    cases hclosed

/-- A plan somebody works on is open. -/
theorem Plan.AtRest.open_of_working (h : plan.AtRest) (hstep : plan.steps.get stepId = some step)
    (hworking : step.status = .assigned ∨ step.status = .running) :
    plan.status.closed = false := by
  cases hclosed : plan.status.closed with
  | false => rfl
  | true =>
    obtain ⟨hassigned, hrunning⟩ := h.idle hclosed stepId step hstep
    rcases hworking with hstatus | hstatus
    · exact absurd hstatus hassigned
    · exact absurd hstatus hrunning

theorem held_of_dead (hdead : step.status.live = false) (r : String) : step.held r = 0 := by
  unfold Step.held
  rw [hdead]
  rfl

/-- A plan whose steps have all succeeded is at rest, closed or not. -/
theorem atRest_of_allSucceeded (hsound : plan.Sound) (hall : plan.AllSucceeded) :
    plan.AtRest := by
  refine ⟨hsound, ?_, ?_⟩
  · intro _ stepId step hstep r
    apply held_of_dead
    rw [hall stepId step hstep]
    rfl
  · intro _ stepId step hstep
    rw [hall stepId step hstep]
    exact ⟨by simp, by simp⟩

/-- A settled plan that was open is open or has only steps that have succeeded. -/
theorem settle_atRest {succeeded : Bool} (hsound : (plan.settle succeeded).Sound)
    (hopen : plan.status.closed = false) : (plan.settle succeeded).AtRest := by
  by_cases hcompleted : (plan.settle succeeded).status = .completed
  · exact atRest_of_allSucceeded hsound (hsound.completed.mp hcompleted)
  · apply atRest_of_open hsound
    unfold Plan.settle at hcompleted ⊢
    split
    · split
      · next hall => simp [*] at hcompleted
      · exact hopen
    · rfl

/-- A completed plan has no step to cancel. -/
theorem Plan.AtRest.open_of_live (h : plan.AtRest) (hstep : plan.steps.get stepId = some step)
    (hlive : step.status.live = true) (hsuperseded : plan.status ≠ .superseded) :
    plan.status.closed = false := by
  cases hstatus : plan.status with
  | superseded => exact absurd hstatus hsuperseded
  | completed =>
    have hsucceeded := h.sound.completed.mp hstatus stepId step hstep
    rw [hsucceeded] at hlive
    cases hlive
  | _ => rfl

end

/-! ## Writing plans -/

section
variable {s s' : OperationalState} {id : String} {plan plan' : Plan}

theorem closedStay_of_same (h : s'.plans = s.plans) : ClosedStay s s' := by
  intro id plan hplan _
  refine ⟨plan, ?_, rfl⟩
  rw [h, hplan]

theorem closedStay_setPlan_iff (hplan : s.plans.get id = some plan)
    (hs' : s'.plans = s.plans.set id plan') :
    ClosedStay s s' ↔ (plan.status.closed = true → plan'.status = plan.status) := by
  constructor
  · intro h hclosed
    obtain ⟨other, hother, hstatus⟩ := h id plan hplan hclosed
    rw [hs', Dict.get_set_self] at hother
    cases hother
    exact hstatus
  · intro h id' other hother hclosed
    by_cases heq : id = id'
    · subst heq
      rw [hplan] at hother
      cases hother
      exact ⟨plan', by rw [hs', Dict.get_set_self], h hclosed⟩
    · exact ⟨other, by rw [hs', Dict.get_set_ne _ _ heq, hother], rfl⟩

/-- A plan that is open may be written. -/
theorem closedStay_of_open (hplan : s.plans.get id = some plan) (hopen : plan.status.closed = false)
    (hs' : s'.plans = s.plans.set id plan') : ClosedStay s s' := by
  rw [closedStay_setPlan_iff hplan hs', hopen]
  intro hclosed
  cases hclosed

theorem closedStay_new (hunused : s.plans.get id = none) (hs' : s'.plans = s.plans.set id plan) :
    ClosedStay s s' := by
  intro id' other hother _
  refine ⟨other, ?_, rfl⟩
  rw [hs', Dict.get_set_ne, hother]
  rintro rfl
  rw [hunused] at hother
  cases hother

theorem ClosedStay.trans {t : OperationalState} (h : ClosedStay s t) (h' : ClosedStay t s') :
    ClosedStay s s' := by
  intro id plan hplan hclosed
  obtain ⟨plan₁, hplan₁, hstatus₁⟩ := h id plan hplan hclosed
  obtain ⟨plan₂, hplan₂, hstatus₂⟩ := h' id plan₁ hplan₁ (by rw [hstatus₁]; exact hclosed)
  exact ⟨plan₂, hplan₂, hstatus₂.trans hstatus₁⟩

end

/-! ## One operation -/

theorem PlanStatus.open_of_active {status : PlanStatus}
    (h : status = .active ∨ status = .paused ∨ status = .needsReplan) : status.closed = false := by
  rcases h with rfl | rfl | rfl <;> rfl

section
variable {s s' : OperationalState} {c : Call}

/-- What a call that meets the condition keeps. -/
theorem effect_atRest (h : PlansAtRest s) (he : Effect s c s') (hleaves : LeavesClosed s c) :
    PlansAtRest s' ∧ ClosedStay s s' := by
  have hsound : PlansSound s' := sound_effect (fun id plan hplan => (h id plan hplan).sound) he
  have hnew : ∀ id plan, s'.plans.get id = some plan → plan.status.closed = false → plan.AtRest :=
    fun id plan hplan hopen => atRest_of_open (hsound id plan hplan) hopen
  cases he with
  | planCreated plan goal clock new found =>
    refine ⟨forall_setPlan h ?_ rfl, closedStay_new new.unused rfl⟩
    exact hnew _ plan (Dict.get_set_self _ _ _) (PlanStatus.open_of_active (.inl new.status))
  | @planReplaced oldPlanId newPlanId steps horizonStart horizonEnd reason old new goal clock
      found_old status idle isNew same found =>
    have hne : strip oldPlanId ≠ new.planId := by
      intro heq
      have hunused := isNew.unused
      rw [← heq, found_old] at hunused
      cases hunused
    have hopen := PlanStatus.open_of_active status
    constructor
    · refine forall_setPlans h ⟨?_, ?_, ?_⟩ ?_ rfl
      · exact hsound (strip oldPlanId) _ (by
          show (Dict.set _ _ _).get _ = _
          rw [Dict.get_set_ne _ _ (Ne.symm hne), Dict.get_set_self])
      · intro _
        exact hleaves old found_old
      · intro _
        exact idle
      · exact hnew _ new (Dict.get_set_self _ _ _)
          (PlanStatus.open_of_active (.inl isNew.status))
    · -- the old plan is written first
      apply ClosedStay.trans (t := { s with plans := s.plans.set (strip oldPlanId) _ })
      · exact closedStay_of_open found_old hopen rfl
      · apply closedStay_new _ rfl
        show (Dict.set _ _ _).get _ = none
        rw [Dict.get_set_ne _ _ hne]
        exact isNew.unused
  | allocated plan step clock located active =>
    have hopen := PlanStatus.open_of_active (.inl active)
    refine ⟨forall_setPlan h ?_ rfl, closedStay_of_open located.1 hopen rfl⟩
    exact hnew _ _ (Dict.get_set_self _ _ _) hopen
  | assigned plan step agent clock located found active =>
    have hopen := PlanStatus.open_of_active (.inl active)
    refine ⟨forall_setPlan h ?_ rfl, closedStay_of_open located.1 hopen rfl⟩
    exact hnew _ _ (Dict.get_set_self _ _ _) hopen
  | dispatched plan step agent clock located found active =>
    have hopen := PlanStatus.open_of_active (.inl active)
    refine ⟨forall_setPlan h ?_ rfl, closedStay_of_open located.1 hopen rfl⟩
    exact hnew _ _ (Dict.get_set_self _ _ _) hopen
  | started plan step clock located assigned =>
    have hopen := (h _ plan located.1).open_of_working located.2 (.inl assigned)
    refine ⟨forall_setPlan h ?_ rfl, closedStay_of_open located.1 hopen rfl⟩
    exact hnew _ _ (Dict.get_set_self _ _ _) hopen
  | @outcome planId stepId success summary payload outcomeId actualOutcomes plan settled step goal
      agentId agent actual outcome alerts learning clock located working assignee found unrecorded
      pools found_goal settled_eq =>
    have hopen := (h _ plan located.1).open_of_working located.2 working
    refine ⟨forall_setPlan h ?_ rfl, closedStay_of_open located.1 hopen rfl⟩
    apply settle_atRest (hsound _ _ (Dict.get_set_self _ _ _))
    rw [settled_eq]
    exact hopen
  | cancelled plan step goal agents alerts clock located live =>
    have hopen := (h _ plan located.1).open_of_live located.2 live (hleaves plan located.1)
    refine ⟨forall_setPlan h ?_ rfl, closedStay_of_open located.1 hopen rfl⟩
    exact hnew _ _ (Dict.get_set_self _ _ _) rfl
  | _ => exact ⟨h, closedStay_of_same rfl⟩

/-- A call that leaks nothing and reopens nothing meets the condition. -/
theorem leavesClosed_of_effect (he : Effect s c s') (hleak : NoLeak s') (hstay : ClosedStay s s') :
    LeavesClosed s c := by
  cases he with
  | @planReplaced oldPlanId newPlanId steps horizonStart horizonEnd reason old new goal clock
      found_old status idle isNew same found =>
    have hne : new.planId ≠ strip oldPlanId := by
      intro heq
      have hunused := isNew.unused
      rw [heq, found_old] at hunused
      cases hunused
    intro old' hold'
    rw [found_old] at hold'
    cases hold'
    refine hleak (strip oldPlanId) { old with
      status := .superseded
      updatedAt := clock
      supersededBy := some new.planId
      reason := some (strip reason) } ?_ rfl
    show (Dict.set _ _ _).get _ = _
    rw [Dict.get_set_ne _ _ hne, Dict.get_set_self]
  | cancelled plan step goal agents alerts clock located =>
    intro plan' hplan' hsuperseded
    rw [located.1] at hplan'
    cases hplan'
    have hstatus := (closedStay_setPlan_iff located.1 rfl).mp hstay (by rw [hsuperseded]; rfl)
    rw [hsuperseded] at hstatus
    cases hstatus
  | _ => trivial

/-- **An operation leaves closed plans alone exactly when it meets the condition.** -/
theorem effect_leavesClosed_iff (h : PlansAtRest s) (he : Effect s c s') :
    NoLeak s' ∧ ClosedStay s s' ↔ LeavesClosed s c := by
  constructor
  · rintro ⟨hleak, hstay⟩
    exact leavesClosed_of_effect he hleak hstay
  · intro hleaves
    obtain ⟨hrest, hstay⟩ := effect_atRest h he hleaves
    exact ⟨hrest.noLeak, hstay⟩

end

/-! ## Sequences of operations -/

theorem atRest_bootstrap (stamp : Instant) : PlansAtRest (operationalState stamp) := by
  intro id plan hplan
  cases hplan

/-- **Supersession is final and leaks nothing, exactly while it is left alone.** For
every bootstrapped world and every sequence of operations on it: in every state no step
of a superseded or completed plan holds an allocation that a pool counts, and no such
plan changes its status, if and only if each recorded `replan` finds that the plan it
replaces holds nothing and each recorded `cancel_step` that its plan is not
superseded. -/
theorem supersession_iff {py : Python} {institution : Json} {actorId authorizationRef : String}
    {sourceLineage : List String} {timestamp : Option String} {now : Instant} {l : Ledger}
    (h : bootstrapWorld py institution actorId authorizationRef sourceLineage timestamp now = .ok l)
    (calls : List (Call × Keywords)) :
    Along (next py) (fun l _ l' => l.Relates (fun s s' => NoLeak s' ∧ ClosedStay s s') l') l calls ↔
      Along (next py) (fun l e l' => l' ≠ l → l.Meets LeavesClosed e.1) l calls := by
  refine bootstrapped_along_iff atRest_bootstrap ?_ ?_ h calls
  · intro s hs
    exact ⟨hs.noLeak, closedStay_of_same rfl⟩
  · intro s c s' hs heffect
    exact ⟨effect_leavesClosed_iff hs heffect, fun hleaves => (effect_atRest hs heffect hleaves).1⟩

theorem supersession_planned :
    Along (next samplePython) (fun l _ l' => l.Relates (fun s s' => NoLeak s' ∧ ClosedStay s s') l')
      sampleLedger plannedGoal ↔
      Along (next samplePython) (fun l e l' => l' ≠ l → l.Meets LeavesClosed e.1) sampleLedger
        plannedGoal :=
  supersession_iff sampleLedger_bootstrapped plannedGoal

/-! ## A superseded plan that reserves, and one that reopens -/

def replacePlan (eventId : String) (expectedVersion : Int) : Call × Keywords :=
  (.replan "plan-1" "plan-2"
    [.obj [("step_id", .str "step-1"), ("action", .str "Replace the pump")]]
    "2026-01-01T00:00:00+00:00" none "the pump is beyond repair",
    sampleKeywords eventId expectedVersion)

/-- A plan whose step has what it requests. -/
def reservedPlan : List (Call × Keywords) :=
  [(.registerResourcePool "crane" (.int 1) "piece" true, sampleKeywords "event-1" 0),
   (.createGoal "goal-1" "Restore the service" 50 none [] none none [] true,
      sampleKeywords "event-2" 1),
   (.createPlan "plan-1" "goal-1"
      [.obj [("step_id", .str "step-1"), ("action", .str "Lift the pump"),
        ("resource_requests", .obj [("crane", .int 1)])]]
      "2026-01-01T00:00:00+00:00" none, sampleKeywords "event-3" 2),
   (.allocateStepResources "plan-1" "step-1", sampleKeywords "event-4" 3)]

/-- What a step of a world holds, with the status of its plan. -/
def Ledger.stepHeld (l : Ledger) (planId stepId r : String) : Option (PlanStatus × Rat) := do
  let s ← l.state
  let plan ← s.plans.get planId
  let step ← plan.steps.get stepId
  return (plan.status, step.held r)

theorem stepHeld_eq {l : Ledger} {planId stepId r : String} {status : PlanStatus} {amount : Rat}
    (h : l.stepHeld planId stepId r = some (status, amount)) :
    ∃ s plan step, l.state = some s ∧ s.plans.get planId = some plan ∧
      plan.steps.get stepId = some step ∧ plan.status = status ∧ step.held r = amount := by
  obtain ⟨s, hs, h⟩ := Option.bind_eq_some_iff.mp h
  obtain ⟨plan, hplan, h⟩ := Option.bind_eq_some_iff.mp h
  obtain ⟨step, hstep, h⟩ := Option.bind_eq_some_iff.mp h
  cases h
  exact ⟨s, plan, step, hs, hplan, hstep, rfl, rfl⟩

theorem reserved_then_replaced :
    (exec (next samplePython) sampleLedger reservedPlan).stepHeld "plan-1" "step-1" "crane" =
      some (.active, 1) ∧
    (next samplePython (exec (next samplePython) sampleLedger reservedPlan)
      (replacePlan "event-5" 4)).stepHeld "plan-1" "step-1" "crane" = some (.superseded, 1) := by
  decide +kernel

/-- **A superseded plan keeps its reservation.** A step that is pending gets what it
requests, and its plan is replaced: every operation is recorded, and the only crane
stays with the superseded plan. -/
theorem superseded_plan_reserves :
    bootstrapWorld samplePython (.obj []) "operator" "approval-1" [] none 1767225600000000 =
      .ok sampleLedger ∧
    ¬ ∀ calls, Along (next samplePython)
      (fun l _ l' => l.Relates (fun s s' => NoLeak s' ∧ ClosedStay s s') l') sampleLedger calls := by
  refine ⟨sampleLedger_bootstrapped, ?_⟩
  intro hall
  have hlast := ((along_append _ _ _ _ _).mp
    (hall (reservedPlan ++ [replacePlan "event-5" 4]))).2.1
  obtain ⟨hbefore, hafter⟩ := reserved_then_replaced
  obtain ⟨s, _, _, hs, _⟩ := stepHeld_eq hbefore
  obtain ⟨s', plan, step, hs', hplan, hstep, hstatus, hheld⟩ := stepHeld_eq hafter
  have hzero := (hlast s s' hs hs').1 "plan-1" plan hplan (by rw [hstatus]; rfl) "step-1" step hstep
    "crane"
  rw [hheld] at hzero
  exact absurd hzero (by decide)

/-- The plan of the goal is replaced. -/
def replacedGoal : List (Call × Keywords) := plannedGoal ++ [replacePlan "event-3" 2]

def cancelReplaced : Call × Keywords :=
  (.cancelStep "plan-1" "step-1" "the plan was replaced", sampleKeywords "event-4" 3)

theorem replaced_then_cancelled :
    (exec (next samplePython) sampleLedger replacedGoal).planStatus "plan-1" =
      some (.superseded, "goal-1") ∧
    (next samplePython (exec (next samplePython) sampleLedger replacedGoal)
      cancelReplaced).planStatus "plan-1" = some (.needsReplan, "goal-1") := by
  decide +kernel

theorem Ledger.Relates.planStatus {l l' : Ledger} (h : l.Relates ClosedStay l') {id : String}
    {a b : PlanStatus × String} (ha : l.planStatus id = some a) (hb : l'.planStatus id = some b)
    (hclosed : a.1.closed = true) : b.1 = a.1 := by
  unfold Ledger.planStatus at ha hb
  obtain ⟨plan, hplan, rfl⟩ := Option.map_eq_some_iff.mp ha
  obtain ⟨s, hs, hplan⟩ := Option.bind_eq_some_iff.mp hplan
  obtain ⟨plan', hplan', rfl⟩ := Option.map_eq_some_iff.mp hb
  obtain ⟨s', hs', hplan'⟩ := Option.bind_eq_some_iff.mp hplan'
  obtain ⟨plan'', hplan'', hstatus⟩ := h s s' hs hs' id plan hplan hclosed
  rw [hplan'] at hplan''
  cases hplan''
  exact hstatus

/-- **A superseded plan reopens.** A plan is replaced and its step, which is still
pending, is cancelled: the plan goes from `SUPERSEDED` to `NEEDS_REPLAN`. -/
theorem superseded_plan_reopens :
    ¬ ∀ calls, Along (next samplePython) (fun l _ l' => l.Relates ClosedStay l') sampleLedger
      calls := by
  intro hall
  have hlast := ((along_append _ _ _ _ _).mp (hall (replacedGoal ++ [cancelReplaced]))).2.1
  obtain ⟨hbefore, hafter⟩ := replaced_then_cancelled
  have hsame := hlast.planStatus hbefore hafter rfl
  exact absurd hsame (by decide)

end Edon.Operations
