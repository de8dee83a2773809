import EdonPlatform.Operations.Goals

/- The reservations of resource pools. `held` adds up, over all steps of all plans,
   what a step that is pending, assigned or running has allocated of a resource. Four
   operations write a pool: two reserve what a step requests, one releases it, and one
   releases it and takes it out of the capacity of a pool that is not renewable.

   What is proved: `Balanced` is kept by every operation (`balanced_effect`), so in
   every world operations lead to from a bootstrapped one each pool has allocated
   exactly what the steps hold, and no more than its capacity
   (`resource_conservation`).

   The release is clamped at zero. It never clamps: what remains allocated is what the
   other steps hold, which is a sum of amounts that are not negative. -/
namespace Edon.Operations
open Transition

/-- What the step holds of a resource. -/
def Step.held (step : Step) (r : String) : Rat :=
  if step.status.live then (step.resourceAllocation.get r).getD 0 else 0

def Plan.held (plan : Plan) (r : String) : Rat := plan.steps.sum (fun _ step => step.held r)

/-- What the steps of all plans hold. -/
def OperationalState.held (s : OperationalState) (r : String) : Rat :=
  s.plans.sum (fun _ plan => plan.held r)

/-- No negative amount is requested or allocated. -/
def Step.Nonneg (step : Step) : Prop :=
  (∀ r amount, step.resourceRequests.get r = some amount → 0 ≤ amount) ∧
  ∀ r amount, step.resourceAllocation.get r = some amount → 0 ≤ amount

def Plan.Nonneg (plan : Plan) : Prop := ∀ id step, plan.steps.get id = some step → step.Nonneg

/-- Pools and plans agree. -/
structure Balanced (s : OperationalState) : Prop where
  amounts : ∀ id plan, s.plans.get id = some plan → plan.Nonneg
  pools : ∀ r pool, s.resourcePools.get r = some pool →
    pool.allocated = s.held r ∧ pool.allocated ≤ pool.capacity
  absent : ∀ r, s.resourcePools.get r = none → s.held r = 0

/-! ## Sums -/

theorem Step.held_nonneg {step : Step} (h : step.Nonneg) (r : String) : 0 ≤ step.held r := by
  unfold Step.held
  split
  · cases hr : step.resourceAllocation.get r with
    | none => simp
    | some amount => simpa using h.2 r amount hr
  · exact le_refl 0

theorem held_nonneg {s : OperationalState}
    (h : ∀ id plan, s.plans.get id = some plan → plan.Nonneg) (r : String) : 0 ≤ s.held r := by
  apply Dict.sum_nonneg
  intro id plan hplan
  apply Dict.sum_nonneg
  intro id' step hstep
  exact Step.held_nonneg (h id plan hplan id' step hstep) r

/-- Writing a step into a plan changes what the plan holds by that step alone. -/
theorem Plan.held_withStep {plan : Plan} {id : String} {step : Step}
    (h : plan.steps.get id = some step) (step' : Step) (r : String) :
    (plan.withStep id step').held r + step.held r = plan.held r + step'.held r := by
  have := Dict.sum_set (fun _ (step : Step) => step.held r) plan.steps id step'
  rw [h] at this
  exact this

/-- Writing a plan changes what the plans hold by that plan alone. -/
theorem held_setPlan {s s' : OperationalState} {id : String} {plan plan' : Plan}
    (h : s.plans.get id = some plan) (hs' : s'.plans = s.plans.set id plan') (r : String) :
    s'.held r + plan.held r = s.held r + plan'.held r := by
  have := Dict.sum_set (fun _ (plan : Plan) => plan.held r) s.plans id plan'
  rw [h, ← hs'] at this
  exact this

/-- A step of a plan of the state is replaced. -/
theorem held_step {s s' : OperationalState} {planId stepId : String} {plan plan' : Plan}
    {step : Step} (hplan : s.plans.get planId = some plan)
    (hstep : plan.steps.get stepId = some step) (step' : Step)
    (hplan' : plan'.steps = plan.steps.set stepId step')
    (hs' : s'.plans = s.plans.set planId plan') (r : String) :
    s'.held r + step.held r = s.held r + step'.held r := by
  have h₁ := held_setPlan hplan hs' r
  have h₂ := Plan.held_withStep hstep step' r
  have h₃ : plan'.held r = (plan.withStep stepId step').held r := by
    unfold Plan.held
    rw [hplan']
    rfl
  rw [h₃] at h₁
  linarith

/-- A new plan holds nothing. -/
theorem held_fresh {plan : Plan} (h : ∀ id step, plan.steps.get id = some step → step.Fresh)
    (r : String) : plan.held r = 0 := by
  apply Dict.sum_eq_zero
  intro id step hstep
  unfold Step.held
  rw [(h id step hstep).allocation]
  simp

theorem nonneg_fresh {plan : Plan} (h : ∀ id step, plan.steps.get id = some step → step.Fresh) :
    plan.Nonneg := by
  intro id step hstep
  have hfresh := h id step hstep
  refine ⟨fun r amount hr => le_of_lt (hfresh.requests r amount hr), ?_⟩
  intro r amount hr
  rw [hfresh.allocation] at hr
  cases hr

theorem nonneg_setPlan {s s' : OperationalState} {id : String} {plan : Plan}
    (h : ∀ id plan, s.plans.get id = some plan → plan.Nonneg) (hplan : plan.Nonneg)
    (hs' : s'.plans = s.plans.set id plan) :
    ∀ id plan, s'.plans.get id = some plan → plan.Nonneg := by
  intro id' plan' hplan'
  rw [hs', Dict.get_set] at hplan'
  split at hplan'
  · cases hplan'
    exact hplan
  · exact h id' plan' hplan'

theorem nonneg_setStep {plan plan' : Plan} {id : String} {step : Step} (h : plan.Nonneg)
    (hstep : step.Nonneg) (hplan' : plan'.steps = plan.steps.set id step) : plan'.Nonneg := by
  intro id' step' hstep'
  rw [hplan', Dict.get_set] at hstep'
  split at hstep'
  · cases hstep'
    exact hstep
  · exact h id' step' hstep'

/-! ## Pools -/

/-- A pool of an adjusted dictionary was adjusted or had no amount. -/
theorem get_adjusted {pools : Dict String Pool} {f : Rat → Pool → Pool}
    {amounts : Dict String Rat} {r : String} {pool' : Pool}
    (h : (pools.adjust f amounts).get r = some pool') :
    ∃ pool, pools.get r = some pool ∧ ((amounts.get r = none ∧ pool' = pool) ∨
      ∃ amount, amounts.get r = some amount ∧ pool' = f amount pool) := by
  rw [Dict.get_adjust] at h
  obtain ⟨pool, hpool, hpool'⟩ := Option.map_eq_some_iff.mp h
  refine ⟨pool, hpool, ?_⟩
  cases hamount : amounts.get r with
  | none =>
    rw [hamount] at hpool'
    exact .inl ⟨rfl, hpool'.symm⟩
  | some amount =>
    rw [hamount] at hpool'
    exact .inr ⟨amount, rfl, hpool'.symm⟩

theorem get_adjusted_none {pools : Dict String Pool} {f : Rat → Pool → Pool}
    {amounts : Dict String Rat} {r : String} (h : (pools.adjust f amounts).get r = none) :
    pools.get r = none := by
  rw [Dict.get_adjust] at h
  exact Option.map_eq_none_iff.mp h

section
variable {s s' : OperationalState} {planId stepId key : String} {plan plan' : Plan}
  {step step' : Step}

/-- An operation that touches neither plans nor pools. -/
theorem balanced_of_same (h : Balanced s) (hplans : s'.plans = s.plans)
    (hpools : s'.resourcePools = s.resourcePools) : Balanced s' := by
  have hheld : ∀ r, s'.held r = s.held r := by
    intro r
    unfold OperationalState.held
    rw [hplans]
  refine ⟨?_, ?_, ?_⟩
  · rw [hplans]
    exact h.amounts
  · intro r pool hpool
    rw [hpools] at hpool
    rw [hheld]
    exact h.pools r pool hpool
  · intro r hr
    rw [hpools] at hr
    rw [hheld]
    exact h.absent r hr

/-- An operation that holds and frees nothing. -/
theorem balanced_of_held (h : Balanced s)
    (hamounts : ∀ id plan, s'.plans.get id = some plan → plan.Nonneg)
    (hheld : ∀ r, s'.held r = s.held r) (hpools : s'.resourcePools = s.resourcePools) :
    Balanced s' := by
  refine ⟨hamounts, ?_, ?_⟩
  · intro r pool hpool
    rw [hpools] at hpool
    rw [hheld]
    exact h.pools r pool hpool
  · intro r hr
    rw [hpools] at hr
    rw [hheld]
    exact h.absent r hr

/-- A step moves on with what it holds. -/
theorem balanced_keep (h : Balanced s) (hplan : s.plans.get planId = some plan)
    (hstep : plan.steps.get stepId = some step) (hs' : s'.plans = s.plans.set planId plan')
    (hplan' : plan'.steps = plan.steps.set stepId step')
    (hlive : step.status.live = true) (hlive' : step'.status.live = true)
    (hrequests : step'.resourceRequests = step.resourceRequests)
    (hallocation : step'.resourceAllocation = step.resourceAllocation)
    (hpools : s'.resourcePools = s.resourcePools) : Balanced s' := by
  have hnonneg := h.amounts planId plan hplan
  have hstep' : step'.Nonneg := by
    unfold Step.Nonneg
    rw [hrequests, hallocation]
    exact hnonneg stepId step hstep
  apply balanced_of_held h (nonneg_setPlan h.amounts (nonneg_setStep hnonneg hstep' hplan') hs') _
    hpools
  intro r
  have hsum := held_step hplan hstep step' hplan' hs' r
  have hsame : step'.held r = step.held r := by
    unfold Step.held
    rw [hlive, hlive', hallocation]
  linarith

/-- A step without an allocation gets what it requests, all of which is free. -/
theorem balanced_reserve (h : Balanced s) (hplan : s.plans.get planId = some plan)
    (hstep : plan.steps.get stepId = some step) (hs' : s'.plans = s.plans.set planId plan')
    (hplan' : plan'.steps = plan.steps.set stepId step') (hnone : step.resourceAllocation = ∅)
    (hfree : Free s step.resourceRequests) (hlive : step'.status.live = true)
    (hrequests : step'.resourceRequests = step.resourceRequests)
    (hallocation : step'.resourceAllocation = step.resourceRequests)
    (hpools : s'.resourcePools = s.resourcePools.adjust (Pool.reserve key) step.resourceRequests) :
    Balanced s' := by
  have hnonneg := h.amounts planId plan hplan
  have hstep' : step'.Nonneg := by
    have hreq := (hnonneg stepId step hstep).1
    refine ⟨?_, ?_⟩
    · rw [hrequests]
      exact hreq
    · rw [hallocation]
      exact hreq
  have hheld : ∀ r, s'.held r = s.held r + (step.resourceRequests.get r).getD 0 := by
    intro r
    have hsum := held_step hplan hstep step' hplan' hs' r
    have hbefore : step.held r = 0 := by
      unfold Step.held
      rw [hnone]
      simp
    have hafter : step'.held r = (step.resourceRequests.get r).getD 0 := by
      unfold Step.held
      rw [hlive, hallocation]
      rfl
    rw [hbefore, hafter] at hsum
    linarith
  refine ⟨nonneg_setPlan h.amounts (nonneg_setStep hnonneg hstep' hplan') hs', ?_, ?_⟩
  · intro r pool' hpool'
    rw [hpools] at hpool'
    obtain ⟨pool, hpool, hcase⟩ := get_adjusted hpool'
    obtain ⟨hallocated, hcapacity⟩ := h.pools r pool hpool
    rw [hheld r]
    rcases hcase with ⟨hamount, rfl⟩ | ⟨amount, hamount, rfl⟩
    · rw [hamount]
      simpa using ⟨hallocated, hcapacity⟩
    · rw [hamount]
      obtain ⟨pool'', hpool'', hroom⟩ := hfree r amount hamount
      rw [hpool] at hpool''
      cases hpool''
      show pool.allocated + amount = s.held r + amount ∧ pool.allocated + amount ≤ pool.capacity
      exact ⟨by rw [hallocated], by linarith⟩
  · intro r hr
    rw [hpools] at hr
    have hnopool := get_adjusted_none hr
    have hnorequest : step.resourceRequests.get r = none := by
      cases hamount : step.resourceRequests.get r with
      | none => rfl
      | some amount =>
        obtain ⟨pool, hpool, _⟩ := hfree r amount hamount
        rw [hnopool] at hpool
        cases hpool
    rw [hheld r, hnorequest, h.absent r hnopool]
    simp

/-- A step that held its allocation holds nothing any more: `f` takes the amount out of
what is allocated, and leaves room for the rest. -/
theorem balanced_release {f : Rat → Pool → Pool} (h : Balanced s)
    (hplan : s.plans.get planId = some plan) (hstep : plan.steps.get stepId = some step)
    (hs' : s'.plans = s.plans.set planId plan')
    (hplan' : plan'.steps = plan.steps.set stepId step')
    (hlive : step.status.live = true) (hdead : step'.status.live = false)
    (hstep' : step'.Nonneg)
    (hf : ∀ amount pool, (f amount pool).allocated = max 0 (pool.allocated - amount) ∧
      (pool.capacity ≤ (f amount pool).capacity ∨
        pool.capacity - amount ≤ (f amount pool).capacity))
    (hpools : s'.resourcePools = s.resourcePools.adjust f step.resourceAllocation) :
    Balanced s' := by
  have hnonneg := h.amounts planId plan hplan
  have hamounts := nonneg_setPlan h.amounts (nonneg_setStep hnonneg hstep' hplan') hs'
  have hheld : ∀ r, s'.held r + (step.resourceAllocation.get r).getD 0 = s.held r := by
    intro r
    have hsum := held_step hplan hstep step' hplan' hs' r
    have hbefore : step.held r = (step.resourceAllocation.get r).getD 0 := by
      unfold Step.held
      rw [hlive]
      rfl
    have hafter : step'.held r = 0 := by
      unfold Step.held
      rw [hdead]
      rfl
    rw [hbefore, hafter] at hsum
    linarith
  refine ⟨hamounts, ?_, ?_⟩
  · intro r pool' hpool'
    rw [hpools] at hpool'
    obtain ⟨pool, hpool, hcase⟩ := get_adjusted hpool'
    obtain ⟨hallocated, hcapacity⟩ := h.pools r pool hpool
    have hrest := hheld r
    rcases hcase with ⟨hamount, rfl⟩ | ⟨amount, hamount, rfl⟩
    · rw [hamount] at hrest
      simp only [Option.getD_none, add_zero] at hrest
      rw [hrest]
      exact ⟨hallocated, hcapacity⟩
    · rw [hamount] at hrest
      simp only [Option.getD_some] at hrest
      -- the rest is not negative, so nothing is clamped
      have hpos := held_nonneg hamounts r
      have hpos' := (hnonneg stepId step hstep).2 r amount hamount
      obtain ⟨hsub, hroom⟩ := hf amount pool
      have hmax : max 0 (pool.allocated - amount) = s'.held r := by
        rw [hallocated, max_eq_right]
        · linarith
        · linarith
      rw [hsub, hmax]
      refine ⟨rfl, ?_⟩
      rcases hroom with hroom | hroom
      · linarith
      · linarith
  · intro r hr
    rw [hpools] at hr
    have hnopool := get_adjusted_none hr
    have hrest := hheld r
    rw [h.absent r hnopool] at hrest
    have hpos := held_nonneg hamounts r
    have hpos' : 0 ≤ (step.resourceAllocation.get r).getD 0 := by
      cases hamount : step.resourceAllocation.get r with
      | none => simp
      | some amount => exact (hnonneg stepId step hstep).2 r amount hamount
    linarith

/-- A new plan holds nothing, and a replaced one keeps its steps. -/
theorem balanced_newPlan (h : Balanced s)
    (hfresh : ∀ id step, plan.steps.get id = some step → step.Fresh)
    (hunused : s.plans.get planId = none) (hs' : s'.plans = s.plans.set planId plan)
    (hpools : s'.resourcePools = s.resourcePools) : Balanced s' := by
  apply balanced_of_held h (nonneg_setPlan h.amounts (nonneg_fresh hfresh) hs') _ hpools
  intro r
  have hsum := Dict.sum_set_new (fun _ (plan : Plan) => plan.held r) plan hunused
  rw [← hs'] at hsum
  show s'.plans.sum (fun _ plan => plan.held r) = s.held r
  rw [hsum, held_fresh hfresh r, add_zero]
  rfl

end

theorem consume_bounds (key : String) (amount : Rat) (pool : Pool) :
    (pool.consume key amount).allocated = max 0 (pool.allocated - amount) ∧
      (pool.capacity ≤ (pool.consume key amount).capacity ∨
        pool.capacity - amount ≤ (pool.consume key amount).capacity) := by
  refine ⟨rfl, ?_⟩
  unfold Pool.consume
  split
  · exact .inl (le_refl _)
  · exact .inr (le_max_right _ _)

theorem release_bounds (key : String) (amount : Rat) (pool : Pool) :
    (pool.release key amount).allocated = max 0 (pool.allocated - amount) ∧
      (pool.capacity ≤ (pool.release key amount).capacity ∨
        pool.capacity - amount ≤ (pool.release key amount).capacity) :=
  ⟨rfl, .inl (le_refl _)⟩

/-- A plan that is settled keeps all but its status. -/
theorem settle_eq (succeeded : Bool) (plan : Plan) :
    ∃ status, plan.settle succeeded = { plan with status } := by
  unfold Plan.settle
  split
  · split
    · exact ⟨_, rfl⟩
    · exact ⟨plan.status, rfl⟩
  · exact ⟨_, rfl⟩

theorem settle_steps (succeeded : Bool) (plan : Plan) :
    (plan.settle succeeded).steps = plan.steps := by
  obtain ⟨status, h⟩ := settle_eq succeeded plan
  rw [h]

theorem settle_stepOrder (succeeded : Bool) (plan : Plan) :
    (plan.settle succeeded).stepOrder = plan.stepOrder := by
  obtain ⟨status, h⟩ := settle_eq succeeded plan
  rw [h]

theorem settle_goalId (succeeded : Bool) (plan : Plan) :
    (plan.settle succeeded).goalId = plan.goalId := by
  obtain ⟨status, h⟩ := settle_eq succeeded plan
  rw [h]

/-- **Every operation keeps pools and plans in agreement.** -/
theorem balanced_effect {s s' : OperationalState} {c : Call} (h : Balanced s)
    (he : Effect s c s') : Balanced s' := by
  cases he with
  | @poolRegistered resourceId capacity unit renewable pool clock new nonneg allocated =>
    refine ⟨h.amounts, ?_, ?_⟩
    · intro r pool' hpool'
      by_cases hr : strip resourceId = r
      · -- nothing is held of a resource that had no pool
        subst hr
        rw [show pool' = pool by simpa using hpool'.symm, allocated]
        exact ⟨(h.absent _ new).symm, nonneg⟩
      · rw [Dict.get_set_ne _ _ hr] at hpool'
        exact h.pools r pool' hpool'
    · intro r hr
      apply h.absent r
      by_cases heq : strip resourceId = r
      · rw [← heq]
        exact new
      · rwa [Dict.get_set_ne _ _ heq] at hr
  | planCreated plan goal clock new found =>
    exact balanced_newPlan h new.steps new.unused rfl rfl
  | @planReplaced oldPlanId newPlanId steps horizonStart horizonEnd reason old new goal clock
      found_old status idle isNew same found =>
    -- the old plan is written first, with its steps as they were
    let old' : Plan := { old with
      status := .superseded
      updatedAt := clock
      supersededBy := some new.planId
      reason := some (strip reason) }
    let t : OperationalState := { s with plans := s.plans.set (strip oldPlanId) old' }
    have hold : Balanced t := by
      have hnonneg : old'.Nonneg := h.amounts _ old found_old
      have hamounts : ∀ id plan, t.plans.get id = some plan → plan.Nonneg :=
        nonneg_setPlan h.amounts hnonneg rfl
      apply balanced_of_held h hamounts _ rfl
      intro r
      have hsum : t.held r + old.held r = s.held r + old'.held r :=
        held_setPlan found_old rfl r
      have hkept : old'.held r = old.held r := rfl
      linarith
    have hne : strip oldPlanId ≠ new.planId := by
      intro heq
      have hunused := isNew.unused
      rw [← heq, found_old] at hunused
      cases hunused
    have hunused : t.plans.get new.planId = none := by
      show (s.plans.set _ _).get _ = none
      rw [Dict.get_set_ne _ _ hne]
      exact isNew.unused
    exact balanced_newPlan hold isNew.steps hunused rfl rfl
  | allocated plan step clock located active pending unallocated dependencies free =>
    exact balanced_reserve h located.1 located.2 rfl rfl unallocated free (by rw [pending]; rfl)
      rfl rfl rfl
  | assigned plan step agent clock located found active pending =>
    exact balanced_keep h located.1 located.2 rfl rfl (by rw [pending]; rfl) rfl rfl rfl rfl
  | dispatched plan step agent clock located found active pending unallocated dependencies take
      free =>
    exact balanced_reserve h located.1 located.2 rfl rfl unallocated free rfl rfl rfl rfl
  | started plan step clock located assigned =>
    exact balanced_keep h located.1 located.2 rfl rfl (by rw [assigned]; rfl) rfl rfl rfl rfl
  | @outcome planId stepId success summary payload outcomeId actualOutcomes plan settled step goal
      agentId agent actual outcome alerts learning clock located working assignee found unrecorded
      pools found_goal settled_eq =>
    have hsteps := (settle_steps (succeeds step success actualOutcomes) settled).trans
      (congrArg Plan.steps settled_eq)
    have hlive : step.status.live = true := by
      rcases working with hstatus | hstatus
      · rw [hstatus]; rfl
      · rw [hstatus]; rfl
    refine balanced_release h located.1 located.2 rfl hsteps hlive ?_
      (h.amounts _ plan located.1 _ step located.2) (consume_bounds _) rfl
    show StepStatus.live (if _ then _ else _) = false
    split
    · rfl
    · rfl
  | cancelled plan step goal agents alerts clock located live pools found_goal =>
    have hnonneg := h.amounts _ plan located.1 _ step located.2
    refine balanced_release h located.1 located.2 rfl rfl live rfl ⟨hnonneg.1, ?_⟩
      (release_bounds _) rfl
    intro r amount hr
    cases hr
  | _ => exact balanced_of_same h rfl rfl

/-! ## Sequences of operations -/

theorem balanced_bootstrap (now : Instant) : Balanced (operationalState now) := by
  refine ⟨?_, ?_, ?_⟩
  · intro id plan hplan
    cases hplan
  · intro r pool hpool
    cases hpool
  · intro r _
    rfl

/-- The state of the world, if it is there, is balanced. -/
def Ledger.Balanced (l : Ledger) : Prop := ∀ s, l.state = some s → Operations.Balanced s

theorem balanced_next (py : Python) (l : Ledger) (e : Call × Keywords) (h : l.Balanced) :
    (next py l e).Balanced := by
  rcases run_cases py l e with hsame | ⟨d, hdraft, hcommitted⟩
  · have hsame : next py l e = l := hsame
    rw [hsame]
    exact h
  · have hstep : StateStep e.1 l.state (next py l e).state :=
      commits_state (k := e.2) ⟨d, hdraft, hcommitted⟩
    intro s' hs'
    rw [hs'] at hstep
    generalize hs : l.state = o at hstep
    cases hstep with
    | initialized _ now => exact balanced_bootstrap now
    | effect heffect => exact balanced_effect (h _ hs) heffect

/-- Each pool has allocated exactly what the steps hold of its resource, which is
neither negative nor more than its capacity. -/
def Ledger.Conserves (l : Ledger) : Prop :=
  ∀ s, l.state = some s → ∀ r pool, s.resourcePools.get r = some pool →
    pool.allocated = s.held r ∧ 0 ≤ pool.allocated ∧ pool.allocated ≤ pool.capacity

theorem Ledger.Balanced.conserves {l : Ledger} (h : l.Balanced) : l.Conserves := by
  intro s hs r pool hpool
  obtain ⟨hallocated, hcapacity⟩ := (h s hs).pools r pool hpool
  refine ⟨hallocated, ?_, hcapacity⟩
  rw [hallocated]
  exact held_nonneg (h s hs).amounts r

/-- **Resources are conserved.** In every world that operations applied one after
another lead to from a bootstrapped one, each pool has allocated exactly what the
pending, assigned and running steps of all plans hold of it, and that is between zero
and its capacity. -/
theorem resource_conservation {py : Python} {institution : Json} {actorId authorizationRef : String}
    {sourceLineage : List String} {timestamp : Option String} {now : Instant} {l : Ledger}
    (h : bootstrapWorld py institution actorId authorizationRef sourceLineage timestamp now = .ok l)
    (calls : List (Call × Keywords)) : (exec (next py) l calls).Conserves := by
  obtain ⟨stamp, _, h⟩ := bind_ok.mp h
  obtain ⟨_, _, h⟩ := bind_ok.mp h
  obtain ⟨_, _, h⟩ := bind_ok.mp h
  obtain ⟨_, _, h⟩ := bind_ok.mp h
  obtain ⟨_, _, h⟩ := bind_ok.mp h
  cases h
  apply Ledger.Balanced.conserves
  refine exec_invariant (I := Ledger.Balanced) (balanced_next py) ?_ calls
  intro s hs
  cases hs
  exact balanced_bootstrap stamp

/-- A pool that is not renewable, used up in part by a step that succeeds. -/
def spentFuel : List (Call × Keywords) :=
  [(.registerResourcePool "fuel" (.int 10) "litre" false, sampleKeywords "event-1" 0),
   (.registerAgent "agent-1" "human" [] 1 (.obj []) (.obj []), sampleKeywords "event-2" 1),
   (.createGoal "goal-1" "Restore the service" 50 none [] none none [] true,
      sampleKeywords "event-3" 2),
   (.createPlan "plan-1" "goal-1"
      [.obj [("step_id", .str "step-1"), ("action", .str "Run the pump"),
        ("resource_requests", .obj [("fuel", .int 4)])]]
      "2026-01-01T00:00:00+00:00" none, sampleKeywords "event-4" 3),
   (.dispatchStep "plan-1" "step-1" "agent-1", sampleKeywords "event-5" 4),
   (.recordStepOutcome "plan-1" "step-1" true "the pump runs again" (.obj []) "outcome-1" [],
      sampleKeywords "event-6" 5)]

theorem resource_conservation_fuel :
    (exec (next samplePython) sampleLedger spentFuel).version = 6 ∧
    (exec (next samplePython) sampleLedger spentFuel).Conserves := by
  refine ⟨by decide +kernel, ?_⟩
  exact resource_conservation sampleLedger_bootstrapped spentFuel

end Edon.Operations
