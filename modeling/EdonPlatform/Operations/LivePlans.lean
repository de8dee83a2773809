import EdonPlatform.Operations.Resources
import EdonPlatform.Operations.Runs

/- The active plans of a goal. `create_plan` and `replan` install a plan: they write it
   as `ACTIVE` and put its id into `active_plan_id` of its goal. `replan` supersedes the
   plan it replaces; `create_plan` looks at no plan but the one it is to write, and
   leaves the plan that was active before as it is.

   What is proved: `one_live_plan_iff`, that in every state of a run each goal has at
   most one active plan, the one it names, exactly while every plan that is installed
   finds no active plan of its goal but the one it replaces. `second_plan_active` is a
   run that leads to a goal with two. -/
namespace Edon.Operations
open Transition

/-- A goal has at most one active plan, and it names that plan. -/
structure OneLivePlan (s : OperationalState) : Prop where
  unique : ∀ id id' plan plan', s.plans.get id = some plan → s.plans.get id' = some plan' →
    plan.status = .active → plan'.status = .active → plan.goalId = plan'.goalId → id = id'
  recorded : ∀ id plan, s.plans.get id = some plan → plan.status = .active →
    ∃ goal, s.goals.get plan.goalId = some goal ∧ goal.activePlanId = some id

/-- The goal of the plan the call installs has no active plan, but for the one the call
replaces. -/
def Unplanned (s : OperationalState) : Call → Prop
  | .createPlan _ goalId _ _ _ => ∀ id plan, s.plans.get id = some plan →
      plan.goalId = strip goalId → plan.status ≠ .active
  | .replan oldPlanId _ _ _ _ _ => ∀ old, s.plans.get (strip oldPlanId) = some old →
      ∀ id plan, s.plans.get id = some plan → plan.goalId = old.goalId → plan.status = .active →
        id = strip oldPlanId
  | _ => True

/-! ## Active plans and the goals that name them -/

/-- That the goal names the plan says already that there is no other. -/
theorem oneLivePlan_of_recorded {s : OperationalState}
    (h : ∀ id plan, s.plans.get id = some plan → plan.status = .active →
      ∃ goal, s.goals.get plan.goalId = some goal ∧ goal.activePlanId = some id) :
    OneLivePlan s := by
  refine ⟨?_, h⟩
  intro id id' plan plan' hplan hplan' hactive hactive' hsame
  obtain ⟨goal, hgoal, hid⟩ := h id plan hplan hactive
  obtain ⟨goal', hgoal', hid'⟩ := h id' plan' hplan' hactive'
  rw [hsame, hgoal'] at hgoal
  cases hgoal
  rw [hid] at hid'
  cases hid'
  rfl

section
variable {s s' : OperationalState}

/-- No plan becomes active, and no goal names another plan. -/
theorem oneLivePlan_keep (h : OneLivePlan s)
    (hplans : ∀ id plan', s'.plans.get id = some plan' → plan'.status = .active →
      ∃ plan, s.plans.get id = some plan ∧ plan.status = .active ∧ plan.goalId = plan'.goalId)
    (hgoals : ∀ id goal, s.goals.get id = some goal →
      ∃ goal', s'.goals.get id = some goal' ∧ goal'.activePlanId = goal.activePlanId) :
    OneLivePlan s' := by
  apply oneLivePlan_of_recorded
  intro id plan' hplan' hactive
  obtain ⟨plan, hplan, hactive, hsame⟩ := hplans id plan' hplan' hactive
  obtain ⟨goal, hgoal, hid⟩ := h.recorded id plan hplan hactive
  obtain ⟨goal', hgoal', hid'⟩ := hgoals plan.goalId goal hgoal
  exact ⟨goal', hsame ▸ hgoal', hid'.trans hid⟩

theorem same_plans (hs' : s'.plans = s.plans) :
    ∀ id plan', s'.plans.get id = some plan' → plan'.status = .active →
      ∃ plan, s.plans.get id = some plan ∧ plan.status = .active ∧ plan.goalId = plan'.goalId := by
  intro id plan' hplan' hactive
  exact ⟨plan', hs' ▸ hplan', hactive, rfl⟩

/-- A plan is written that was active if it is now. -/
theorem setPlan_inactive {planId : String} {plan plan' : Plan} (hplan : s.plans.get planId = some plan)
    (hs' : s'.plans = s.plans.set planId plan')
    (hactive : plan'.status = .active → plan.status = .active)
    (hgoal : plan'.goalId = plan.goalId) :
    ∀ id other', s'.plans.get id = some other' → other'.status = .active →
      ∃ other, s.plans.get id = some other ∧ other.status = .active ∧
        other.goalId = other'.goalId := by
  intro id other' hother' hstatus
  rw [hs', Dict.get_set] at hother'
  split at hother'
  · next heq =>
    cases hother'
    exact ⟨plan, heq ▸ hplan, hactive hstatus, hgoal.symm⟩
  · exact ⟨other', hother', hstatus, rfl⟩

theorem same_goals (hs' : s'.goals = s.goals) :
    ∀ id goal, s.goals.get id = some goal →
      ∃ goal', s'.goals.get id = some goal' ∧ goal'.activePlanId = goal.activePlanId := by
  intro id goal hgoal
  rw [hs']
  exact ⟨goal, hgoal, rfl⟩

/-- A goal is written that names the plan it named. -/
theorem setGoal_named {goalId : String} {goal goal' : Goal} (hgoal : s.goals.get goalId = some goal)
    (hs' : s'.goals = s.goals.set goalId goal') (hid : goal'.activePlanId = goal.activePlanId) :
    ∀ id other, s.goals.get id = some other →
      ∃ other', s'.goals.get id = some other' ∧ other'.activePlanId = other.activePlanId := by
  intro id other hother
  by_cases heq : goalId = id
  · subst heq
    rw [hgoal] at hother
    cases hother
    exact ⟨goal', by rw [hs', Dict.get_set_self], hid⟩
  · exact ⟨other, by rw [hs', Dict.get_set_ne _ _ heq, hother], rfl⟩

/-- A plan is installed for a goal: `rest` are the plans that were there, with the one
that is replaced. -/
theorem oneLivePlan_install_iff {rest : Dict String Plan} {new : Plan} {goal' : Goal}
    (hrecorded : ∀ id plan, rest.get id = some plan → plan.status = .active →
      ∃ goal, s.goals.get plan.goalId = some goal ∧ goal.activePlanId = some id)
    (hunused : rest.get new.planId = none) (hactive : new.status = .active)
    (hgoal' : goal'.activePlanId = some new.planId)
    (hplans : s'.plans = rest.set new.planId new)
    (hgoals : s'.goals = s.goals.set new.goalId goal') :
    OneLivePlan s' ↔ ∀ id plan, rest.get id = some plan → plan.goalId = new.goalId →
      plan.status ≠ .active := by
  have hnew : s'.plans.get new.planId = some new := by rw [hplans, Dict.get_set_self]
  constructor
  · intro h id plan hplan hsame hstatus
    have hne : new.planId ≠ id := by
      rintro rfl
      rw [hunused] at hplan
      cases hplan
    have hplan' : s'.plans.get id = some plan := by rw [hplans, Dict.get_set_ne _ _ hne, hplan]
    exact hne (h.unique _ _ _ _ hnew hplan' hactive hstatus hsame.symm)
  · intro hnone
    apply oneLivePlan_of_recorded
    intro id plan hplan hstatus
    rw [hplans, Dict.get_set] at hplan
    split at hplan
    · next heq =>
      cases hplan
      refine ⟨goal', ?_, ?_⟩
      · rw [hgoals, Dict.get_set_self]
      · rw [hgoal', heq]
    · have hne : new.goalId ≠ plan.goalId := by
        intro heq
        exact hnone id plan hplan heq.symm hstatus
      obtain ⟨other, hother, hid⟩ := hrecorded id plan hplan hstatus
      exact ⟨other, by rw [hgoals, Dict.get_set_ne _ _ hne, hother], hid⟩

/-! ## One operation -/

theorem settle_activePlanId (succeeded : Bool) (p : Plan) (stamp : Instant) (g : Goal) :
    (g.settle succeeded p stamp).activePlanId = g.activePlanId := by
  unfold Goal.settle
  split
  · split
    · rfl
    · rfl
  · rfl

/-- A settled plan is active only if it was. -/
theorem settle_active {succeeded : Bool} {p : Plan} (h : (p.settle succeeded).status = .active) :
    p.status = .active := by
  unfold Plan.settle at h
  split at h
  · split at h
    · cases h
    · exact h
  · cases h

/-- **An operation leaves one active plan a goal exactly when it installs a plan for a
goal that has no other.** -/
theorem effect_oneLivePlan_iff {c : Call} (h : OneLivePlan s) (he : Effect s c s') :
    OneLivePlan s' ↔ Unplanned s c := by
  cases he with
  | goalCreated goal clock new status plan =>
    refine iff_of_true (oneLivePlan_keep h (same_plans rfl) ?_) trivial
    intro id other hother
    refine ⟨other, ?_, rfl⟩
    show (s.goals.set _ _).get id = some other
    rw [Dict.get_set_ne, hother]
    rintro rfl
    rw [new] at hother
    cases hother
  | goalMoved goal status clock found named edge =>
    refine iff_of_true (oneLivePlan_keep h (same_plans rfl) (setGoal_named found rfl ?_)) trivial
    rfl
  | @planCreated planId goalId steps horizonStart horizonEnd plan goal clock new found =>
    rw [oneLivePlan_install_iff h.recorded new.unused new.status rfl rfl rfl]
    show _ ↔ ∀ id plan, s.plans.get id = some plan → plan.goalId = strip goalId → _
    rw [new.goalId]
  | @planReplaced oldPlanId newPlanId steps horizonStart horizonEnd reason old new goal clock
      found_old status idle isNew same found =>
    have hne : strip oldPlanId ≠ new.planId := by
      intro heq
      have hunused := isNew.unused
      rw [← heq, found_old] at hunused
      cases hunused
    rw [oneLivePlan_install_iff _ _ isNew.status rfl rfl (by rw [same])]
    · constructor
      · intro hnone old' hold' id plan hplan hsame hactive
        rw [found_old] at hold'
        cases hold'
        by_contra hid
        apply hnone id plan _ (hsame.trans same.symm) hactive
        rw [Dict.get_set_ne _ _ (Ne.symm hid), hplan]
      · intro hunplanned id plan hplan hsame hactive
        rw [Dict.get_set] at hplan
        split at hplan
        · cases hplan
          cases hactive
        · next hid =>
          exact hid (hunplanned old found_old id plan hplan (hsame.trans same) hactive).symm
    · intro id plan hplan hactive
      rw [Dict.get_set] at hplan
      split at hplan
      · cases hplan
        cases hactive
      · exact h.recorded id plan hplan hactive
    · rw [Dict.get_set_ne _ _ hne]
      exact isNew.unused
  | allocated plan step clock located =>
    refine iff_of_true (oneLivePlan_keep h ?_ (same_goals rfl)) trivial
    refine setPlan_inactive located.1 rfl ?_ ?_
    · exact id
    · rfl
  | assigned plan step agent clock located =>
    refine iff_of_true (oneLivePlan_keep h ?_ (same_goals rfl)) trivial
    refine setPlan_inactive located.1 rfl ?_ ?_
    · exact id
    · rfl
  | dispatched plan step agent clock located =>
    refine iff_of_true (oneLivePlan_keep h ?_ (same_goals rfl)) trivial
    refine setPlan_inactive located.1 rfl ?_ ?_
    · exact id
    · rfl
  | started plan step clock located =>
    refine iff_of_true (oneLivePlan_keep h ?_ (same_goals rfl)) trivial
    refine setPlan_inactive located.1 rfl ?_ ?_
    · exact id
    · rfl
  | @outcome planId stepId success summary payload outcomeId actualOutcomes plan settled step goal
      agentId agent actual outcome alerts learning clock located working assignee found unrecorded
      pools found_goal settled_eq =>
    have hstatus : settled.status = plan.status := by rw [settled_eq]; rfl
    have hgoalId : settled.goalId = plan.goalId := by rw [settled_eq]; rfl
    refine iff_of_true (oneLivePlan_keep h ?_ ?_) trivial
    · refine setPlan_inactive located.1 rfl ?_ ((settle_goalId _ _).trans hgoalId)
      intro hactive
      exact hstatus ▸ settle_active hactive
    · exact setGoal_named found_goal rfl (settle_activePlanId _ _ _ _)
  | cancelled plan step goal agents alerts clock located live pools found_goal =>
    refine iff_of_true (oneLivePlan_keep h ?_ ?_) trivial
    · refine setPlan_inactive located.1 rfl ?_ ?_
      · intro hactive
        cases hactive
      · rfl
    · refine setGoal_named found_goal rfl ?_
      rfl
  | _ => exact iff_of_true (oneLivePlan_keep h (same_plans rfl) (same_goals rfl)) trivial

end

/-! ## Sequences of operations -/

theorem oneLivePlan_bootstrap (stamp : Instant) : OneLivePlan (operationalState stamp) := by
  apply oneLivePlan_of_recorded
  intro id plan hplan
  cases hplan

/-- **One active plan a goal, exactly while plans are installed one at a time.** For
every bootstrapped world and every sequence of operations on it: in every state each
goal has at most one active plan and names it, if and only if each recorded
`create_plan` finds no active plan of its goal and each recorded `replan` none but the
plan it replaces. -/
theorem one_live_plan_iff {py : Python} {institution : Json} {actorId authorizationRef : String}
    {sourceLineage : List String} {timestamp : Option String} {now : Instant} {l : Ledger}
    (h : bootstrapWorld py institution actorId authorizationRef sourceLineage timestamp now = .ok l)
    (calls : List (Call × Keywords)) :
    Along (next py) (fun _ _ l' => l'.Has OneLivePlan) l calls ↔
      Along (next py) (fun l e l' => l' ≠ l → l.Meets Unplanned e.1) l calls := by
  refine bootstrapped_has_iff oneLivePlan_bootstrap (fun _ hs => hs) ?_ h calls
  intro s c s' hs heffect
  have hiff := effect_oneLivePlan_iff hs heffect
  exact ⟨hiff, hiff.mpr⟩

theorem one_live_plan_planned :
    Along (next samplePython) (fun _ _ l' => l'.Has OneLivePlan) sampleLedger plannedGoal ↔
      Along (next samplePython) (fun l e l' => l' ≠ l → l.Meets Unplanned e.1) sampleLedger
        plannedGoal :=
  one_live_plan_iff sampleLedger_bootstrapped plannedGoal

/-- A goal for which a second plan is created. -/
def plannedTwice : List (Call × Keywords) :=
  plannedGoal ++ [(.createPlan "plan-2" "goal-1"
    [.obj [("step_id", .str "step-1"), ("action", .str "Replace the pump")]]
    "2026-01-01T00:00:00+00:00" none, sampleKeywords "event-3" 2)]

/-- The status of a plan of a world, and the goal it serves. -/
def Ledger.planStatus (l : Ledger) (id : String) : Option (PlanStatus × String) :=
  (l.state.bind (fun s => s.plans.get id)).map (fun plan => (plan.status, plan.goalId))

theorem planned_twice :
    (exec (next samplePython) sampleLedger plannedTwice).planStatus "plan-1" =
      some (.active, "goal-1") ∧
    (exec (next samplePython) sampleLedger plannedTwice).planStatus "plan-2" =
      some (.active, "goal-1") := by
  decide +kernel

/-- **A goal with two active plans.** Two plans are created for one goal of a
bootstrapped world: both operations are recorded, and both plans are active. -/
theorem second_plan_active :
    bootstrapWorld samplePython (.obj []) "operator" "approval-1" [] none 1767225600000000 =
      .ok sampleLedger ∧
    ¬ ∀ calls, Along (next samplePython) (fun _ _ l' => l'.Has OneLivePlan) sampleLedger calls := by
  refine ⟨sampleLedger_bootstrapped, ?_⟩
  intro hall
  have hhas := Ledger.Has.along_exec (hall plannedTwice)
  obtain ⟨hfirst, hsecond⟩ := planned_twice
  unfold Ledger.planStatus at hfirst hsecond
  obtain ⟨plan, hplan, heq⟩ := Option.map_eq_some_iff.mp hfirst
  obtain ⟨s, hs, hplan⟩ := Option.bind_eq_some_iff.mp hplan
  obtain ⟨plan', hplan', heq'⟩ := Option.map_eq_some_iff.mp hsecond
  rw [show (exec (next samplePython) sampleLedger plannedTwice).state = some s from hs] at hplan'
  obtain ⟨hstatus, hgoal⟩ := Prod.mk.inj heq
  obtain ⟨hstatus', hgoal'⟩ := Prod.mk.inj heq'
  have hsame := (hhas s hs).unique _ _ _ _ hplan hplan' hstatus hstatus' (hgoal.trans hgoal'.symm)
  exact absurd hsame (by decide)

end Edon.Operations
