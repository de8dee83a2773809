import EdonPlatform.Operations.Resources
import EdonPlatform.Operations.Runs

/- Progress of plans. A new plan is ordered: each of its steps comes after the steps it
   depends on, and it has at least one. Working on a step leaves the plan as it is; a
   step that fails or is cancelled takes the plan out of `ACTIVE`; and a step that
   succeeds completes the plan when it was the last.

   What is proved: `Plan.Sound` is kept by every operation (`sound_effect`), so in every
   world operations lead to from a bootstrapped one an active plan has a step that is
   assigned, running or ready, and exactly the plans whose steps have all succeeded are
   completed (`no_plan_stuck`).

   The argument is one about the order: of the steps that have not succeeded one comes
   first, and what it depends on has. -/
namespace Edon.Operations
open Transition

def Plan.AllSucceeded (plan : Plan) : Prop :=
  ∀ stepId step, plan.steps.get stepId = some step → step.status = .succeeded

/-- What holds of every plan. -/
structure Plan.Sound (plan : Plan) : Prop where
  ordered : plan.Ordered
  completed : plan.status = .completed ↔ plan.AllSucceeded
  active : plan.status = .active → ∀ stepId step, plan.steps.get stepId = some step →
    step.status ≠ .failed ∧ step.status ≠ .cancelled

/-- A step an agent works on, or can take once what it requests is allocated. -/
def Plan.CanMove (plan : Plan) (step : Step) : Prop :=
  step.status = .assigned ∨ step.status = .running ∨
    (step.status = .pending ∧ DependenciesDone plan step)

/-- An active plan has a step that can move, and the plan is completed exactly when all
of its steps have succeeded. -/
structure Plan.Progresses (plan : Plan) : Prop where
  moves : plan.status = .active →
    ∃ stepId step, plan.steps.get stepId = some step ∧ plan.CanMove step
  completed : plan.status = .completed ↔ plan.AllSucceeded

/-! ## Progress from the order -/

/-- The first step that has not succeeded can move. -/
theorem Plan.Sound.progresses {plan : Plan} (h : plan.Sound) : plan.Progresses := by
  refine ⟨?_, h.completed⟩
  intro hactive
  rcases h.ordered.order.exists_first
      (fun id => ∃ step, plan.steps.get id = some step ∧ step.status = .succeeded) with
    hall | ⟨stepId, hmem, hnot, hbefore⟩
  · -- then the plan would be completed
    have hcompleted : plan.status = .completed := by
      apply h.completed.mpr
      intro stepId step hstep
      obtain ⟨step', hstep', hsucceeded⟩ :=
        hall stepId ((h.ordered.steps stepId).mpr (by rw [hstep]; rfl))
      rw [hstep] at hstep'
      cases hstep'
      exact hsucceeded
    rw [hactive] at hcompleted
    cases hcompleted
  · obtain ⟨step, hstep⟩ := Option.isSome_iff_exists.mp ((h.ordered.steps stepId).mp hmem)
    refine ⟨stepId, step, hstep, ?_⟩
    obtain ⟨hfailed, hcancelled⟩ := h.active hactive stepId step hstep
    unfold Plan.CanMove
    cases hstatus : step.status with
    | pending =>
      refine .inr (.inr ⟨rfl, ?_⟩)
      intro d hd
      exact (hbefore d ⟨step, hstep, hd⟩).2
    | assigned => exact .inl rfl
    | running => exact .inr (.inl rfl)
    | succeeded => exact absurd ⟨step, hstep, hstatus⟩ hnot
    | failed => exact absurd hstatus hfailed
    | cancelled => exact absurd hstatus hcancelled

/-! ## One step of a plan -/

section
variable {plan plan' : Plan} {stepId : String} {step step' : Step}

theorem get_setStep (hplan' : plan'.steps = plan.steps.set stepId step') :
    plan'.steps.get stepId = some step' := by
  rw [hplan', Dict.get_set_self]

theorem ordered_setStep (h : plan.Ordered) (hstep : plan.steps.get stepId = some step)
    (hplan' : plan'.steps = plan.steps.set stepId step') (horder : plan'.stepOrder = plan.stepOrder)
    (hdependencies : step'.dependencies = step.dependencies) : plan'.Ordered := by
  refine ⟨?_, ?_⟩
  · rw [horder]
    apply h.order.mono
    rintro x d ⟨other, hother, hd⟩
    rw [hplan', Dict.get_set] at hother
    split at hother
    · next heq =>
      cases hother
      rw [hdependencies] at hd
      exact ⟨step, heq ▸ hstep, hd⟩
    · exact ⟨other, hother, hd⟩
  · intro x
    rw [horder, h.steps x, hplan', Dict.get_set]
    split
    · next heq =>
      rw [← heq, hstep]
      rfl
    · exact Iff.rfl

/-- A plan one of whose steps has not succeeded. -/
theorem not_allSucceeded (hstep : plan.steps.get stepId = some step)
    (hstatus : step.status ≠ .succeeded) : ¬ plan.AllSucceeded :=
  fun hall => hstatus (hall stepId step hstep)

/-- A live step moves on and stays live. -/
theorem sound_keep (h : plan.Sound) (hstep : plan.steps.get stepId = some step)
    (hplan' : plan'.steps = plan.steps.set stepId step') (horder : plan'.stepOrder = plan.stepOrder)
    (hdependencies : step'.dependencies = step.dependencies) (hlive : step.status.live = true)
    (hlive' : step'.status.live = true) (hstatus : plan'.status = plan.status) : plan'.Sound := by
  have hne : ∀ a : StepStatus, a.live = true → a ≠ .succeeded ∧ a ≠ .failed ∧ a ≠ .cancelled := by
    intro a ha
    cases a <;> simp_all [StepStatus.live]
  have hbefore := not_allSucceeded hstep (hne _ hlive).1
  have hafter := not_allSucceeded (get_setStep hplan') (hne _ hlive').1
  refine ⟨ordered_setStep h.ordered hstep hplan' horder hdependencies, ?_, ?_⟩
  · rw [hstatus, h.completed]
    exact iff_of_false hbefore hafter
  · intro hactive id other hother
    rw [hplan', Dict.get_set] at hother
    split at hother
    · cases hother
      exact (hne _ hlive').2
    · exact h.active (hstatus ▸ hactive) id other hother

/-- A step fails or is cancelled, and the plan needs another. -/
theorem sound_broken (h : plan.Sound) (hstep : plan.steps.get stepId = some step)
    (hplan' : plan'.steps = plan.steps.set stepId step') (horder : plan'.stepOrder = plan.stepOrder)
    (hdependencies : step'.dependencies = step.dependencies)
    (hbroken : step'.status ≠ .succeeded) (hstatus : plan'.status = .needsReplan) :
    plan'.Sound := by
  refine ⟨ordered_setStep h.ordered hstep hplan' horder hdependencies, ?_, ?_⟩
  · rw [hstatus]
    exact iff_of_false (by simp) (not_allSucceeded (get_setStep hplan') hbroken)
  · intro hactive
    rw [hstatus] at hactive
    cases hactive

/-- A step succeeds, and the plan is settled. -/
theorem sound_succeeded (h : plan.Sound) (hstep : plan.steps.get stepId = some step)
    (hplan' : plan'.steps = plan.steps.set stepId step') (horder : plan'.stepOrder = plan.stepOrder)
    (hdependencies : step'.dependencies = step.dependencies)
    (hbefore : step.status ≠ .succeeded) (hafter : step'.status = .succeeded)
    (hstatus : plan'.status = plan.status) : (plan'.settle true).Sound := by
  have hordered := ordered_setStep h.ordered hstep hplan' horder hdependencies
  have hall : plan'.steps.values.all (fun step => step.status = .succeeded) = true ↔
      plan'.AllSucceeded := by
    simp only [List.all_eq_true, Dict.mem_values, decide_eq_true_eq]
    constructor
    · intro hall id other hother
      exact hall other ⟨id, hother⟩
    · rintro hall other ⟨id, hother⟩
      exact hall id other hother
  unfold Plan.settle
  rw [if_pos rfl]
  split
  · next hdone =>
    refine ⟨⟨hordered.order, hordered.steps⟩, iff_of_true rfl (hall.mp hdone), ?_⟩
    intro hactive
    cases hactive
  · next hdone =>
    refine ⟨hordered, ?_, ?_⟩
    · rw [hstatus, h.completed]
      exact iff_of_false (not_allSucceeded hstep hbefore) (fun hdone' => hdone (hall.mpr hdone'))
    · intro hactive id other hother
      rw [hplan', Dict.get_set] at hother
      split at hother
      · cases hother
        rw [hafter]
        exact ⟨by simp, by simp⟩
      · exact h.active (hstatus ▸ hactive) id other hother

end

/-! ## One operation -/

/-- A new plan has a step, and all of its steps are pending. -/
theorem NewPlan.sound {s : OperationalState} {planId goalId : String} {plan : Plan}
    (h : NewPlan s planId goalId plan) : plan.Sound := by
  obtain ⟨stepId, step, hstep⟩ := h.nonempty
  refine ⟨h.ordered, ?_, ?_⟩
  · rw [h.status]
    apply iff_of_false (by simp) (not_allSucceeded hstep _)
    rw [(h.steps stepId step hstep).status]
    simp
  · intro _ id other hother
    rw [(h.steps id other hother).status]
    exact ⟨by simp, by simp⟩

/-- A replaced plan keeps its steps, which had not all succeeded. -/
theorem Plan.Sound.superseded {plan plan' : Plan} (h : plan.Sound)
    (hstatus : plan.status ≠ .completed) (hsteps : plan'.steps = plan.steps)
    (horder : plan'.stepOrder = plan.stepOrder) (hsuperseded : plan'.status = .superseded) :
    plan'.Sound := by
  refine ⟨⟨?_, ?_⟩, ?_, ?_⟩
  · rw [hsteps, horder]
    exact h.ordered.order
  · rw [hsteps, horder]
    exact h.ordered.steps
  · rw [hsuperseded]
    apply iff_of_false (by simp)
    unfold Plan.AllSucceeded
    rw [hsteps]
    exact mt h.completed.mpr hstatus
  · intro hactive
    rw [hsuperseded] at hactive
    cases hactive

/-- Every plan of the state is sound. -/
def PlansSound (s : OperationalState) : Prop := ∀ id plan, s.plans.get id = some plan → plan.Sound

/-- **Every operation keeps every plan sound.** -/
theorem sound_effect {s s' : OperationalState} {c : Call} (h : PlansSound s) (he : Effect s c s') :
    PlansSound s' := by
  cases he with
  | planCreated plan goal clock new found => exact forall_setPlan h new.sound rfl
  | planReplaced old new goal clock found_old status idle isNew same found =>
    have hstatus : old.status ≠ .completed := by
      rcases status with hstatus | hstatus | hstatus <;> simp [hstatus]
    refine forall_setPlans h ?_ isNew.sound rfl
    exact (h _ old found_old).superseded hstatus rfl rfl rfl
  | allocated plan step clock located active pending =>
    have hlive : step.status.live = true := by
      rw [pending]
      rfl
    refine forall_setPlan h ?_ rfl
    exact sound_keep (h _ plan located.1) located.2 rfl rfl rfl hlive hlive rfl
  | assigned plan step agent clock located found active pending =>
    refine forall_setPlan h ?_ rfl
    exact sound_keep (h _ plan located.1) located.2 rfl rfl rfl (by rw [pending]; rfl) rfl rfl
  | dispatched plan step agent clock located found active pending =>
    refine forall_setPlan h ?_ rfl
    exact sound_keep (h _ plan located.1) located.2 rfl rfl rfl (by rw [pending]; rfl) rfl rfl
  | started plan step clock located assigned =>
    refine forall_setPlan h ?_ rfl
    exact sound_keep (h _ plan located.1) located.2 rfl rfl rfl (by rw [assigned]; rfl) rfl rfl
  | @outcome planId stepId success summary payload outcomeId actualOutcomes plan settled step goal
      agentId agent actual outcome alerts learning clock located working assignee found unrecorded
      pools found_goal settled_eq =>
    have hsound := h _ plan located.1
    refine forall_setPlan h ?_ rfl
    cases hsucceeds : succeeds step success actualOutcomes with
    | true =>
      rw [hsucceeds] at settled_eq
      subst settled_eq
      have hbefore : step.status ≠ .succeeded := by
        rcases working with hstatus | hstatus <;> simp [hstatus]
      exact sound_succeeded hsound located.2 rfl rfl rfl hbefore rfl rfl
    | false =>
      rw [hsucceeds] at settled_eq
      subst settled_eq
      let step' : Step := { step with
        status := .failed
        completedAt := some clock
        actualOutcomes := some actual }
      have hbroken : step'.status ≠ .succeeded := by simp [step']
      exact sound_broken hsound located.2 rfl rfl rfl hbroken rfl
  | cancelled plan step goal agents alerts clock located live pools found_goal =>
    refine forall_setPlan h ?_ rfl
    have hbroken : StepStatus.cancelled ≠ .succeeded := nofun
    exact sound_broken (h _ plan located.1) located.2 rfl rfl rfl hbroken rfl
  | _ => exact h

/-! ## Sequences of operations -/

theorem sound_bootstrap (stamp : Instant) : PlansSound (operationalState stamp) := by
  intro id plan hplan
  cases hplan

/-- **An active plan is never stuck.** In every world that operations applied one after
another lead to from a bootstrapped one, every active plan has a step that is assigned
or running, or is pending with all its dependencies done; and a plan is completed
exactly when all of its steps have succeeded. -/
theorem no_plan_stuck {py : Python} {institution : Json} {actorId authorizationRef : String}
    {sourceLineage : List String} {timestamp : Option String} {now : Instant} {l : Ledger}
    (h : bootstrapWorld py institution actorId authorizationRef sourceLineage timestamp now = .ok l)
    (calls : List (Call × Keywords)) :
    ∃ s, (exec (next py) l calls).state = some s ∧
      ∀ id plan, s.plans.get id = some plan → plan.Progresses := by
  obtain ⟨s, hs, hsound⟩ :=
    bootstrapped_invariant sound_bootstrap (fun _ _ _ => sound_effect) h calls
  exact ⟨s, hs, fun id plan hplan => (hsound id plan hplan).progresses⟩

theorem no_plan_stuck_planned :
    (exec (next samplePython) sampleLedger plannedGoal).version = 2 ∧
    ∃ s, (exec (next samplePython) sampleLedger plannedGoal).state = some s ∧
      ∀ id plan, s.plans.get id = some plan → plan.Progresses := by
  refine ⟨by decide +kernel, ?_⟩
  exact no_plan_stuck sampleLedger_bootstrapped plannedGoal

end Edon.Operations
