import EdonPlatform.Operations.Progress
import EdonPlatform.Operations.Records
import EdonPlatform.Operations.Scheduling

/- The steps that `ready_steps` lists and the steps that `dispatch_step` and `assign_step` take
   (edon/operations/control.py). The listing asks for an active goal and for a start that has
   come; the two operations look at neither.

   What is proved: `mem_readySteps`, that the listing returns in every reachable state, and
   which steps are on it; and `placed_listed_iff`, that a step which was given to an agent is
   on it exactly when the goal of its plan is active and its earliest start has come.
   `dispatched_for_paused_goal` is a step that is dispatched while the goal is paused. -/
namespace Edon.Operations
open Transition

/-- The listing at `current` has the step. -/
def Listed (s : OperationalState) (current : Instant) (planId stepId : String) : Prop :=
  ∃ ready, readySteps s current = .ok ready ∧
    ∃ r ∈ ready, r.planId = planId ∧ r.step.stepId = stepId

/-- The goal of the plan is active. -/
def GoalActive (s : OperationalState) (plan : Plan) : Prop :=
  ∃ goal, s.goals.get plan.goalId = some goal ∧ goal.status = .active

/-- The earliest start of the step, if it has one, has come. -/
def Step.StartCame (step : Step) (current : Instant) : Prop :=
  ∀ start, step.earliestStart = some start → start ≤ current

/-- The step waits for nothing but an agent. -/
structure Step.Due (step : Step) (plan : Plan) (current : Instant) : Prop where
  pending : step.status = .pending
  dependencies : DependenciesDone plan step
  start : step.StartCame current

/-! ## One step -/

section
variable {s : OperationalState} {current : Instant} {plan : Plan} {goal : Goal} {step : Step}

theorem dependenciesDone_ok {dependencies : List String}
    (h : ∀ d ∈ dependencies, ∃ other, plan.steps.get d = some other) :
    ∃ done, dependenciesDone plan dependencies = .ok done ∧
      (done = true ↔ ∀ d ∈ dependencies, ∃ other, plan.steps.get d = some other ∧
        other.status = .succeeded) := by
  induction dependencies with
  | nil => exact ⟨true, rfl, by simp⟩
  | cons d dependencies ih =>
    obtain ⟨other, hother⟩ := h d (List.mem_cons_self ..)
    obtain ⟨done, hdone, hiff⟩ := ih fun d' hd' => h d' (List.mem_cons_of_mem _ hd')
    unfold dependenciesDone
    rw [hother]
    show ∃ result, (if other.status = .succeeded then dependenciesDone plan dependencies
      else .ok false) = .ok result ∧ _
    by_cases hstatus : other.status = .succeeded
    · rw [if_pos hstatus]
      refine ⟨done, hdone, ?_⟩
      rw [hiff, List.forall_mem_cons]
      exact (and_iff_right ⟨other, hother, hstatus⟩).symm
    · rw [if_neg hstatus]
      refine ⟨false, rfl, iff_of_false (by decide) fun hall => ?_⟩
      obtain ⟨other', hother', hstatus'⟩ := hall d (List.mem_cons_self ..)
      rw [hother] at hother'
      cases hother'
      exact hstatus hstatus'

theorem startCame_iff : step.StartCame current ↔
    step.earliestStart.any (fun t => current < t) = false := by
  unfold Step.StartCame
  cases step.earliestStart with
  | none => simp
  | some start => simp

/-- The entry of a step on the listing. -/
def listed (planId : String) (plan : Plan) (goal : Goal) (step : Step) : ReadyStep :=
  ⟨planId, plan.goalId, step, goal.priority⟩

/-- A step of the plan is listed when it is due, under its own name. -/
theorem readyStep_ok {e : String × Nat} (planId : String) (hstep : plan.steps.get e.1 = some step)
    (hclosed : ∀ d ∈ step.dependencies, ∃ other, plan.steps.get d = some other) :
    ∃ o, readyStep current { plan with planId } goal e = .ok o ∧
      (o.isSome = true ↔ step.Due plan current) ∧ ∀ u ∈ o, u.ready = listed planId plan goal step := by
  obtain ⟨done, hdone, hiff⟩ := @dependenciesDone_ok { plan with planId } _ hclosed
  have hget := orRaise_ok (e := keyError e.1).mpr hstep
  by_cases hpending : step.status = .pending
  · by_cases hskip : (!done || step.earliestStart.any fun t => current < t) = true
    · refine ⟨none, ?_, iff_of_false (by decide) fun hdue => ?_, by simp⟩
      · exact bind_ok.mpr ⟨step, hget, (if_neg (not_not_intro hpending)).trans
          (bind_ok.mpr ⟨done, hdone, if_pos hskip⟩)⟩
      · rw [hiff.mpr hdue.dependencies, startCame_iff.mp hdue.start] at hskip
        exact absurd hskip (by decide)
    · refine ⟨some _, bind_ok.mpr ⟨step, hget, (if_neg (not_not_intro hpending)).trans
        (bind_ok.mpr ⟨done, hdone, if_neg hskip⟩)⟩, iff_of_true rfl ?_, ?_⟩
      · simp only [Bool.or_eq_true, Bool.not_eq_true', not_or, Bool.not_eq_false] at hskip
        exact ⟨hpending, hiff.mp hskip.1, startCame_iff.mpr (Bool.eq_false_iff.mpr hskip.2)⟩
      · intro u hu
        cases hu
        rfl
  · refine ⟨none, bind_ok.mpr ⟨step, hget, if_pos hpending⟩, ?_, by simp⟩
    exact iff_of_false (by decide) fun hdue => hpending hdue.pending

/-! ## The listing -/

/-- Every dependency of a step of an ordered plan is a step of it. -/
theorem Plan.Ordered.dependency (h : plan.Ordered) {stepId : String}
    (hstep : plan.steps.get stepId = some step) :
    ∀ d ∈ step.dependencies, ∃ other, plan.steps.get d = some other := by
  intro d hd
  have hmem := (h.steps stepId).mpr (by rw [hstep]; rfl)
  exact Option.isSome_iff_exists.mp ((h.steps d).mp (h.order.closed hmem ⟨step, hstep, hd⟩))

/-- The listing of one plan has its steps that are due, if the plan and its goal are active. -/
theorem readyOfPlan_ok (h : plan.Ordered) (planId : String) :
    ∃ queue, readyOfPlan s current planId plan = .ok queue ∧
      ∀ r, (∃ u ∈ queue, u.ready = r) ↔ ∃ goal stepId step,
        s.goals.get plan.goalId = some goal ∧ plan.status = .active ∧ goal.status = .active ∧
          plan.steps.get stepId = some step ∧ step.Due plan current ∧
          r = listed planId plan goal step := by
  unfold readyOfPlan
  cases hgoal : s.goals.get plan.goalId with
  | none => exact ⟨[], rfl, by simp⟩
  | some goal =>
    dsimp only
    by_cases hactive : plan.status = .active ∧ goal.status = .active
    · rw [if_pos hactive]
      have hsteps : ∀ e ∈ plan.stepOrder.zipIdx, ∃ step, plan.steps.get e.1 = some step := by
        intro e he
        exact Option.isSome_iff_exists.mp ((h.steps e.1).mp (List.fst_mem_of_mem_zipIdx he))
      have hready : ∀ e ∈ plan.stepOrder.zipIdx,
          ∃ o, readyStep current { plan with planId } goal e = .ok o := by
        intro e he
        obtain ⟨step, hstep⟩ := hsteps e he
        obtain ⟨o, ho, _⟩ := readyStep_ok planId hstep (h.dependency hstep)
        exact ⟨o, ho⟩
      obtain ⟨entries, hentries⟩ := Fallible.mapM_succeeds hready
      refine ⟨entries.filterMap id, bind_ok.mpr ⟨entries, hentries, rfl⟩, ?_⟩
      intro r
      constructor
      · rintro ⟨u, hu, rfl⟩
        obtain ⟨o, ho, hou⟩ := List.mem_filterMap.mp hu
        obtain ⟨e, he, hstepped⟩ := mem_of_mapM hentries o ho
        obtain ⟨step, hstep⟩ := hsteps e he
        obtain ⟨o', ho', hdue, hready⟩ := readyStep_ok planId hstep (h.dependency hstep)
        rw [hstepped] at ho'
        cases ho'
        have hsome : o.isSome = true := Option.isSome_iff_exists.mpr ⟨u, hou⟩
        exact ⟨goal, e.1, step, rfl, hactive.1, hactive.2, hstep, hdue.mp hsome,
          hready u hou⟩
      · rintro ⟨goal', stepId, step, hgoal', -, -, hstep, hdue, rfl⟩
        cases hgoal'
        obtain ⟨i, hi⟩ := List.getElem?_of_mem ((h.steps stepId).mpr (by rw [hstep]; rfl))
        have hi := List.mk_mem_zipIdx_iff_getElem?.mpr hi
        obtain ⟨o, ho, hstepped⟩ := Fallible.result_of_mapM hentries (stepId, i) hi
        obtain ⟨o', ho', hiff, hready⟩ := readyStep_ok (e := (stepId, i)) planId hstep
          (h.dependency hstep)
        rw [hstepped] at ho'
        cases ho'
        obtain ⟨u, hu⟩ := Option.isSome_iff_exists.mp (hiff.mpr hdue)
        exact ⟨u, List.mem_filterMap.mpr ⟨o, ho, hu⟩, hready u hu⟩
    · rw [if_neg hactive]
      refine ⟨[], rfl, fun r => iff_of_false (by simp) ?_⟩
      rintro ⟨goal', stepId, step, hgoal', hplan, hactive', -⟩
      cases hgoal'
      exact hactive ⟨hplan, hactive'⟩

/-- The listing returns, with the steps of active plans of active goals that are due. -/
theorem readySteps_ok (h : PlansSound s) (current : Instant) :
    ∃ ready, readySteps s current = .ok ready ∧ ∀ r, r ∈ ready ↔ ∃ planId plan goal stepId step,
      s.plans.get planId = some plan ∧ s.goals.get plan.goalId = some goal ∧
        plan.status = .active ∧ goal.status = .active ∧ plan.steps.get stepId = some step ∧
        step.Due plan current ∧ r = listed planId plan goal step := by
  have hplans : ∀ e ∈ s.plans.entries, ∃ queue, readyOfPlan s current e.1 e.2 = .ok queue := by
    intro e he
    obtain ⟨queue, hqueue, _⟩ :=
      @readyOfPlan_ok s current _ (h e.1 e.2 (Dict.mem_entries.mp he)).ordered e.1
    exact ⟨queue, hqueue⟩
  obtain ⟨queued, hqueued⟩ := Fallible.mapM_succeeds hplans
  refine ⟨_, bind_ok.mpr ⟨queued, hqueued, rfl⟩, ?_⟩
  intro r
  simp only [List.mem_map, List.mem_insertionSort, List.mem_flatten]
  constructor
  · rintro ⟨u, ⟨queue, hqueue, hu⟩, rfl⟩
    obtain ⟨e, he, hplan⟩ := mem_of_mapM hqueued queue hqueue
    have hget := Dict.mem_entries.mp he
    obtain ⟨queue', hqueue', hmem⟩ := readyOfPlan_ok (h e.1 e.2 hget).ordered e.1
    rw [hplan] at hqueue'
    cases hqueue'
    obtain ⟨goal, stepId, step, hgoal, hactive, hgoalActive, hstep, hdue, heq⟩ :=
      (hmem u.ready).mp ⟨u, hu, rfl⟩
    exact ⟨e.1, e.2, goal, stepId, step, hget, hgoal, hactive, hgoalActive, hstep, hdue, heq⟩
  · rintro ⟨planId, plan, goal, stepId, step, hplan, hgoal, hactive, hgoalActive, hstep, hdue, hr⟩
    obtain ⟨queue, hqueue, hrun⟩ :=
      Fallible.result_of_mapM hqueued (planId, plan) (Dict.mem_entries.mpr hplan)
    obtain ⟨queue', hqueue', hmem⟩ := readyOfPlan_ok (h planId plan hplan).ordered planId
    rw [hrun] at hqueue'
    cases hqueue'
    obtain ⟨u, hu, hready⟩ :=
      (hmem r).mpr ⟨goal, stepId, step, hgoal, hactive, hgoalActive, hstep, hdue, hr⟩
    exact ⟨u, ⟨queue, hqueue, hu⟩, hready⟩

end

/-- What it takes to be listed. -/
theorem listed_iff {s : OperationalState} (hsound : PlansSound s) (hrecorded : RecordsSound s)
    (current : Instant) (planId stepId : String) :
    Listed s current planId stepId ↔ ∃ plan step, s.plans.get planId = some plan ∧
      plan.steps.get stepId = some step ∧ plan.status = .active ∧ GoalActive s plan ∧
        step.Due plan current := by
  obtain ⟨ready, hready, hmem⟩ := readySteps_ok hsound current
  constructor
  · rintro ⟨ready', hready', r, hr, hplanId, hstepId⟩
    rw [hready] at hready'
    cases hready'
    obtain ⟨planId', plan, goal, stepId', step, hplan, hgoal, hactive, hgoalActive, hstep, hdue,
      rfl⟩ := (hmem r).mp hr
    have hnamed := ((hrecorded.built planId' plan hplan).named stepId' step hstep).1
    subst hplanId hstepId
    exact ⟨plan, step, hplan, hnamed ▸ hstep, hactive, ⟨goal, hgoal, hgoalActive⟩, hdue⟩
  · intro ⟨plan, step, hplan, hstep, hactive, ⟨goal, hgoal, hgoalActive⟩, hdue⟩
    have hlisted := (hmem (listed planId plan goal step)).mpr ⟨planId, plan, goal, stepId, step,
      hplan, hgoal, hactive, hgoalActive, hstep, hdue, rfl⟩
    exact ⟨ready, hready, _, hlisted, rfl, ((hrecorded.built planId plan hplan).named stepId step
      hstep).1⟩

theorem Reachable.plansSound {py : Python} {l : Ledger} (h : Reachable py l) : l.Has PlansSound :=
  h.has sound_bootstrap fun _ _ _ => sound_effect

/-- A call that returned had drafted an event. -/
theorem Succeeds.draft {py : Python} {l : Ledger} {e : Call × Keywords}
    (h : Succeeds (runCall py l e)) : ∃ d, e.1.draft py e.2 l.state = .ok d := by
  obtain ⟨v, hv⟩ := h
  unfold runCall at hv
  cases hd : e.1.draft py e.2 l.state with
  | error err =>
    rw [hd] at hv
    cases hv
  | ok d => exact ⟨d, rfl⟩

/-- A step that was given to an agent was waiting for one, in an active plan. -/
theorem placed_ok {py : Python} {s : OperationalState} {planId stepId agentId : String} {c : Call}
    {k : Keywords} {d : Draft} {plan : Plan} {step : Step}
    (hc : c = .assignStep planId stepId agentId ∨ c = .dispatchStep planId stepId agentId)
    (hlocated : Located s planId stepId plan step) (hd : c.draft py k (some s) = .ok d) :
    plan.status = .active ∧ step.status = .pending ∧ DependenciesDone plan step := by
  rcases hc with rfl | rfl
  · obtain ⟨-, -, -, plan', step', _, _, hlocated', -, hactive, hpending, hdependencies, -⟩ :=
      assignStep_iff.mp (draft_assign ▸ hd)
    obtain ⟨rfl, rfl⟩ := hlocated.unique hlocated'
    exact ⟨hactive, hpending, hdependencies⟩
  · obtain ⟨-, -, -, plan', step', _, _, _, hlocated', -, hactive, hpending, -, hdependencies, -⟩ :=
      dispatchStep_iff.mp (draft_dispatch ▸ hd)
    obtain ⟨rfl, rfl⟩ := hlocated.unique hlocated'
    exact ⟨hactive, hpending, hdependencies⟩

/-- **Which of the steps that are placed are ready.** In every reachable world, a step that
`assign_step` or `dispatch_step` gives to an agent is listed by `ready_steps` at a time `t`, that of
the event or any other, exactly when the goal of its plan is active and its earliest start has
come by `t`. -/
theorem placed_listed_iff (py : Python) (l : Ledger) (h : Reachable py l) (s : OperationalState)
    (hs : l.state = some s) (planId stepId agentId : String) (c : Call)
    (hc : c = .assignStep planId stepId agentId ∨ c = .dispatchStep planId stepId agentId)
    (k : Keywords) (plan : Plan) (step : Step)
    (hlocated : Located s planId stepId plan step) (hplaced : Succeeds (runCall py l (c, k)))
    (t : Instant) : Listed s t (strip planId) (strip stepId) ↔ GoalActive s plan ∧ step.StartCame t := by
  obtain ⟨d, hd⟩ := hplaced.draft
  rw [hs] at hd
  obtain ⟨hactive, hpending, hdependencies⟩ := placed_ok hc hlocated hd
  rw [listed_iff (h.plansSound s hs) (h.recordsSound s hs)]
  constructor
  · rintro ⟨plan', step', hplan, hstep, -, hgoal, hdue⟩
    obtain ⟨rfl, rfl⟩ := hlocated.unique ⟨hplan, hstep⟩
    exact ⟨hgoal, hdue.start⟩
  · intro ⟨hgoal, hstart⟩
    exact ⟨plan, step, hlocated.1, hlocated.2, hactive, hgoal, hpending, hdependencies, hstart⟩

/-- The goal is paused, and then the step is dispatched. -/
def pumpPaused : Ledger :=
  exec (next samplePython) sampleLedger (spentFuel.take 4 ++
    [(.transitionGoal "goal-1" "PAUSED" "The crane is away", sampleKeywords "event-5" 4)])

def dispatchPump : Call × Keywords :=
  (.dispatchStep "plan-1" "step-1" "agent-1", sampleKeywords "event-6" 5)

theorem pumpPaused_reachable : Reachable samplePython pumpPaused :=
  ⟨sampleLedger, _, .bootstrapped sampleLedger_bootstrapped, rfl⟩

theorem dispatchPump_succeeds : Succeeds (runCall samplePython pumpPaused dispatchPump) :=
  ⟨6, Fallible.toOption_ok.mp (by decide +kernel)⟩

theorem placed_listed_pump :
    ∃ s plan step, pumpPaused.state = some s ∧ Located s "plan-1" "step-1" plan step ∧
      (Listed s 1767225600000000 (strip "plan-1") (strip "step-1") ↔
        GoalActive s plan ∧ step.StartCame 1767225600000000) := by
  have hstep : (do
      let s ← pumpPaused.state
      let plan ← s.plans.get (strip "plan-1")
      let step ← plan.steps.get (strip "step-1")
      some step.status) = some .pending := by decide +kernel
  obtain ⟨s, hs, hstep⟩ := Option.bind_eq_some_iff.mp hstep
  obtain ⟨plan, hplan, hstep⟩ := Option.bind_eq_some_iff.mp hstep
  obtain ⟨step, hget, hstep⟩ := Option.bind_eq_some_iff.mp hstep
  exact ⟨s, plan, step, hs, ⟨hplan, hget⟩, placed_listed_iff samplePython pumpPaused
    pumpPaused_reachable s hs "plan-1" "step-1" "agent-1" _ (.inr rfl) dispatchPump.2 plan step
    ⟨hplan, hget⟩ dispatchPump_succeeds 1767225600000000⟩

/-- **A step of a paused goal is dispatched.** It is not on the listing, whatever the time. -/
theorem dispatched_for_paused_goal :
    ¬ ∀ (l : Ledger), Reachable samplePython l → ∀ s, l.state = some s →
      ∀ planId stepId agentId k t, k.stamp samplePython = .ok t →
        Succeeds (runCall samplePython l (.dispatchStep planId stepId agentId, k)) →
          Listed s t (strip planId) (strip stepId) := by
  intro hall
  have hgoal : (do
      let s ← pumpPaused.state
      let plan ← s.plans.get (strip "plan-1")
      let goal ← s.goals.get plan.goalId
      some goal.status) = some .paused := by decide +kernel
  obtain ⟨s, hs, hgoal⟩ := Option.bind_eq_some_iff.mp hgoal
  obtain ⟨plan, hplan, hgoal⟩ := Option.bind_eq_some_iff.mp hgoal
  obtain ⟨goal, hget, hpaused⟩ := Option.bind_eq_some_iff.mp hgoal
  obtain ⟨t, ht⟩ : ∃ t, dispatchPump.2.stamp samplePython = .ok t := ⟨_, rfl⟩
  have hlisted := hall pumpPaused pumpPaused_reachable s hs "plan-1" "step-1" "agent-1"
    dispatchPump.2 t ht dispatchPump_succeeds
  obtain ⟨plan', _, hplan', _, _, ⟨goal', hgoal', hactive⟩, _⟩ :=
    (listed_iff (pumpPaused_reachable.plansSound s hs) (pumpPaused_reachable.recordsSound s hs) t _
      _).mp hlisted
  rw [hplan] at hplan'
  cases hplan'
  rw [hget] at hgoal'
  cases hgoal'
  rw [hactive] at hpaused
  exact absurd hpaused (by decide)

end Edon.Operations
