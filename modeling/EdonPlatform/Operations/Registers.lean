import EdonPlatform.Lib.Register
import EdonPlatform.Operations.Resources
import EdonPlatform.Operations.Runs

/- The registers of pools and agents. A pool keeps in `allocations` what each step has of
   it, an agent in `active_tasks` the steps it works on, both under the text
   `plan_id:step_id`. An id may contain a colon, so two steps can have one text: the
   step `b:c` of the plan `a` and the step `c` of the plan `a:b`.

   Here is what it means that the registers mirror the plans (`Mirrored`), the condition
   an operation has to meet (`FreeText`), and what entering a step into a register and
   taking one out does to it; the operations are in the next module. -/
namespace Edon.Operations
open Transition Register

/-- A step of a plan, by their ids. -/
abbrev StepRef := String × String

/-- `f"{plan_id}:{step_id}"`. -/
def StepRef.task (ref : StepRef) : String := taskId ref.1 ref.2

def OperationalState.step (s : OperationalState) (ref : StepRef) : Option Step :=
  (s.plans.get ref.1).bind (fun plan => plan.steps.get ref.2)

/-- What a step that is not terminal has allocated of a resource. -/
def Step.holding (step : Step) (r : String) : Option Rat :=
  if step.status.live then step.resourceAllocation.get r else none

/-- Whether the agent has the step assigned or running. -/
def Step.worksFor (step : Step) (agentId : String) : Option Unit :=
  if (step.status = .assigned ∨ step.status = .running) ∧ step.assignedAgentId = some agentId then
    some ()
  else none

/-- The steps that hold a resource, with the amounts. -/
def OperationalState.holders (s : OperationalState) (r : String) (ref : StepRef) : Option Rat :=
  (s.step ref).bind (fun step => step.holding r)

/-- The steps an agent works on. -/
def OperationalState.workers (s : OperationalState) (agentId : String) (ref : StepRef) :
    Option Unit :=
  (s.step ref).bind (fun step => step.worksFor agentId)

/-- `active_tasks` as a register. -/
def Agent.register (agent : Agent) (task : String) : Option Unit :=
  if task ∈ agent.activeTasks then some () else none

def PoolsMirrored (s : OperationalState) : Prop :=
  ∀ r pool, s.resourcePools.get r = some pool →
    Mirrors StepRef.task (s.holders r) pool.allocations.get

def AgentsMirrored (s : OperationalState) : Prop :=
  ∀ agentId agent, s.agents.get agentId = some agent →
    Mirrors StepRef.task (s.workers agentId) agent.register

/-- No agent works on more steps than it may. -/
def WithinLoad (s : OperationalState) : Prop :=
  ∀ agentId agent, s.agents.get agentId = some agent → ∀ refs : List StepRef, refs.Nodup →
    (∀ ref ∈ refs, s.workers agentId ref = some ()) → refs.length ≤ agent.maxConcurrent

/-- The registers mirror the plans. -/
structure Mirrored (s : OperationalState) : Prop where
  pools : PoolsMirrored s
  agents : AgentsMirrored s
  load : WithinLoad s

/-- No other step with the text of this one holds any of what it requests. -/
def FreeInPools (s : OperationalState) (ref : StepRef) : Prop :=
  ∀ step, s.step ref = some step → ∀ r amount, step.resourceRequests.get r = some amount →
    ∀ other v, s.holders r other = some v → other.task ≠ ref.task

/-- The agent works on no other step with the text of this one. -/
def FreeForAgent (s : OperationalState) (agentId : String) (ref : StepRef) : Prop :=
  ∀ other v, s.workers agentId other = some v → other.task ≠ ref.task

/-- The text of the step the call enters into a register is free there. -/
def FreeText (s : OperationalState) : Call → Prop
  | .allocateStepResources planId stepId => FreeInPools s (strip planId, strip stepId)
  | .assignStep planId stepId agentId =>
      FreeForAgent s (strip agentId) (strip planId, strip stepId)
  | .dispatchStep planId stepId agentId =>
      FreeInPools s (strip planId, strip stepId) ∧
        FreeForAgent s (strip agentId) (strip planId, strip stepId)
  | _ => True

/-- What every operation keeps, whatever the texts are. -/
structure Backed (s : OperationalState) : Prop where
  unassigned : ∀ ref step, s.step ref = some step → step.status = .pending →
    step.assignedAgentId = none
  pools : ∀ r ref v, s.holders r ref = some v → ∃ pool, s.resourcePools.get r = some pool
  agents : ∀ agentId ref v, s.workers agentId ref = some v →
    ∃ agent, s.agents.get agentId = some agent
  load : ∀ agentId agent, s.agents.get agentId = some agent →
    agent.activeTasks.length ≤ agent.maxConcurrent

/-! ## Steps of a state -/

section
variable {s s' : OperationalState} {planId stepId : String} {plan plan' : Plan}
  {step step' : Step}

theorem step_located (hplan : s.plans.get planId = some plan)
    (hstep : plan.steps.get stepId = some step) : s.step (planId, stepId) = some step := by
  unfold OperationalState.step
  rw [hplan]
  exact hstep

/-- A step of a plan is written. -/
theorem step_setStep (hplan : s.plans.get planId = some plan)
    (hs' : s'.plans = s.plans.set planId plan')
    (hplan' : plan'.steps = plan.steps.set stepId step') (ref : StepRef) :
    s'.step ref = if ref = (planId, stepId) then some step' else s.step ref := by
  obtain ⟨p, x⟩ := ref
  unfold OperationalState.step
  dsimp only
  rw [hs', Dict.get_set]
  by_cases hp : planId = p
  · subst hp
    rw [if_pos rfl, hplan]
    show plan'.steps.get x = if _ then _ else plan.steps.get x
    rw [hplan', Dict.get_set]
    by_cases hx : stepId = x
    · rw [if_pos hx, if_pos (by rw [hx])]
    · rw [if_neg hx, if_neg (by simp [Ne.symm hx])]
  · rw [if_neg hp, if_neg (by simp [Ne.symm hp])]

/-- A plan is written that has the steps it had. -/
theorem step_setPlan (hplan : s.plans.get planId = some plan)
    (hs' : s'.plans = s.plans.set planId plan') (hsteps : plan'.steps = plan.steps)
    (ref : StepRef) : s'.step ref = s.step ref := by
  unfold OperationalState.step
  rw [hs', Dict.get_set]
  split
  · next heq =>
    rw [← heq, hplan]
    show plan'.steps.get _ = plan.steps.get _
    rw [hsteps]
  · rfl

/-- The steps of `s'` are those of `s` and steps nobody has worked on. -/
def AddsFresh (s s' : OperationalState) : Prop :=
  ∀ ref, s'.step ref = s.step ref ∨
    (s.step ref = none ∧ ∀ step, s'.step ref = some step → step.Fresh)

theorem addsFresh_of_same (h : s'.plans = s.plans) : AddsFresh s s' := by
  intro ref
  unfold OperationalState.step
  rw [h]
  exact .inl rfl

theorem addsFresh_newPlan (hunused : s.plans.get planId = none)
    (hs' : s'.plans = s.plans.set planId plan)
    (hfresh : ∀ id step, plan.steps.get id = some step → step.Fresh) : AddsFresh s s' := by
  intro ref
  unfold OperationalState.step
  rw [hs', Dict.get_set]
  split
  · next heq =>
    rw [← heq, hunused]
    exact .inr ⟨rfl, fun step hstep => hfresh ref.2 step hstep⟩
  · exact .inl rfl

theorem addsFresh_replaced {old' : Plan} (hplan : s.plans.get planId = some plan) {newId : String}
    {new : Plan} (hunused : s.plans.get newId = none)
    (hfresh : ∀ id step, new.steps.get id = some step → step.Fresh)
    (hs' : s'.plans = (s.plans.set planId old').set newId new) (hsteps : old'.steps = plan.steps) :
    AddsFresh s s' := by
  have hne : planId ≠ newId := by
    rintro rfl
    rw [hunused] at hplan
    cases hplan
  -- the old plan is written first, with the steps it had
  let t : OperationalState := { s with plans := s.plans.set planId old' }
  have hold : ∀ ref, t.step ref = s.step ref := step_setPlan hplan rfl hsteps
  intro ref
  rw [← hold ref]
  refine addsFresh_newPlan ?_ hs' hfresh ref
  rw [Dict.get_set_ne _ _ hne]
  exact hunused

theorem working_live (h : step.status = .assigned ∨ step.status = .running) :
    step.status.live = true := by
  rcases h with h | h
  · rw [h]
    rfl
  · rw [h]
    rfl

theorem worksFor_pending (h : step.status = .pending) (agentId : String) :
    step.worksFor agentId = none := by
  unfold Step.worksFor
  rw [h, if_neg]
  simp

theorem holding_unallocated (h : step.resourceAllocation = ∅) (r : String) :
    step.holding r = none := by
  unfold Step.holding
  rw [h]
  split
  · rfl
  · rfl

theorem holding_live (h : step.status.live = true) (r : String) :
    step.holding r = step.resourceAllocation.get r := by
  unfold Step.holding
  rw [if_pos h]

theorem holding_dead (h : step.status.live = false) (r : String) : step.holding r = none := by
  unfold Step.holding
  rw [h]
  rfl

theorem worksFor_dead (h : step.status.live = false) (agentId : String) :
    step.worksFor agentId = none := by
  unfold Step.worksFor
  rw [if_neg]
  rintro ⟨hstatus | hstatus, _⟩
  · rw [hstatus] at h
    cases h
  · rw [hstatus] at h
    cases h

end

/-! ## The registers of pools -/

section
variable {s s' : OperationalState} {ref : StepRef} {step' : Step}

theorem holders_setStep (hstep : ∀ x, s'.step x = if x = ref then some step' else s.step x)
    (r : String) (x : StepRef) :
    s'.holders r x = if x = ref then step'.holding r else s.holders r x := by
  unfold OperationalState.holders
  rw [hstep]
  split
  · rfl
  · rfl

theorem holders_fresh (hsteps : AddsFresh s s') (r : String) (x : StepRef) :
    s'.holders r x = s.holders r x := by
  unfold OperationalState.holders
  rcases hsteps x with hsame | ⟨hnone, hfresh⟩
  · rw [hsame]
  · rw [hnone]
    cases hstep : s'.step x with
    | none => rfl
    | some step => exact holding_unallocated (hfresh step hstep).allocation r

theorem holders_eq {step : Step} (hstep : s.step ref = some step) (r : String) :
    s.holders r ref = step.holding r := by
  unfold OperationalState.holders
  rw [hstep]
  rfl

/-- Nothing is held or freed; a pool that is new has no allocation. -/
theorem poolsMirrored_keep (h : PoolsMirrored s) (hb : Backed s)
    (hholders : ∀ r x, s'.holders r x = s.holders r x)
    (hpools : ∀ r pool, s'.resourcePools.get r = some pool →
      s.resourcePools.get r = some pool ∨
        (s.resourcePools.get r = none ∧ pool.allocations = ∅)) : PoolsMirrored s' := by
  intro r pool hpool
  rcases hpools r pool hpool with hsame | ⟨hnew, hempty⟩
  · exact (h r pool hsame).congr (hholders r) (fun _ => rfl)
  · apply mirrors_none
    · intro x
      rw [hholders, Option.eq_none_iff_forall_ne_some]
      intro v hv
      obtain ⟨other, hother⟩ := hb.pools r x v hv
      rw [hnew] at hother
      cases hother
    · intro k
      rw [hempty]
      rfl

/-- A step that holds nothing is entered with what it requests. -/
theorem poolsMirrored_reserve_iff (h : PoolsMirrored s) {requests : Dict String Rat}
    (hfree : Free s requests) (hnone : ∀ r, s.holders r ref = none)
    (hholders : ∀ r x, s'.holders r x = if x = ref then requests.get r else s.holders r x)
    (hpools : s'.resourcePools = s.resourcePools.adjust (Pool.reserve ref.task) requests) :
    PoolsMirrored s' ↔ ∀ r amount, requests.get r = some amount →
      ∀ other v, s.holders r other = some v → other.task ≠ ref.task := by
  -- the pool of a requested resource, before and after
  have hinsert : ∀ r amount pool, requests.get r = some amount →
      s.resourcePools.get r = some pool →
      (Mirrors StepRef.task (s'.holders r) (pool.reserve ref.task amount).allocations.get ↔
        ∀ other v, s.holders r other = some v → other.task ≠ ref.task) := by
    intro r amount pool hamount hpool
    apply (h r pool hpool).insert_iff (hnone r)
    · intro x
      rw [hholders, hamount]
    · intro k
      show (pool.allocations.set ref.task amount).get k = _
      rw [Dict.get_set]
      simp only [eq_comm]
  constructor
  · intro h' r amount hamount
    obtain ⟨pool, hpool, _⟩ := hfree r amount hamount
    apply (hinsert r amount pool hamount hpool).mp
    apply h' r
    rw [hpools, Dict.get_adjust, hpool, hamount]
    rfl
  · intro hother r pool' hpool'
    rw [hpools] at hpool'
    obtain ⟨pool, hpool, ⟨hamount, rfl⟩ | ⟨amount, hamount, rfl⟩⟩ := get_adjusted hpool'
    · apply (h r pool' hpool).congr _ (fun _ => rfl)
      intro x
      rw [hholders]
      split
      · next heq => rw [hamount, heq, hnone]
      · rfl
    · exact (hinsert r amount pool hamount hpool).mpr (hother r amount hamount)

/-- A step is taken out with what it holds. -/
theorem poolsMirrored_release (h : PoolsMirrored s) {allocation : Dict String Rat}
    {f : Rat → Pool → Pool}
    (hf : ∀ amount pool, (f amount pool).allocations = pool.allocations.erase ref.task)
    (hheld : ∀ r, s.holders r ref = allocation.get r)
    (hholders : ∀ r x, s'.holders r x = if x = ref then none else s.holders r x)
    (hpools : s'.resourcePools = s.resourcePools.adjust f allocation) : PoolsMirrored s' := by
  intro r pool' hpool'
  rw [hpools] at hpool'
  obtain ⟨pool, hpool, ⟨hamount, rfl⟩ | ⟨amount, hamount, rfl⟩⟩ := get_adjusted hpool'
  · apply (h r pool' hpool).congr _ (fun _ => rfl)
    intro x
    rw [hholders]
    split
    · next heq => rw [heq, hheld, hamount]
    · rfl
  · apply (h r pool hpool).erase ((hheld r).trans hamount) (hholders r)
    intro k
    rw [hf, Dict.get_erase]
    simp only [eq_comm]

/-! ## The registers of agents -/

theorem workers_setStep (hstep : ∀ x, s'.step x = if x = ref then some step' else s.step x)
    (agentId : String) (x : StepRef) :
    s'.workers agentId x = if x = ref then step'.worksFor agentId else s.workers agentId x := by
  unfold OperationalState.workers
  rw [hstep]
  split
  · rfl
  · rfl

theorem workers_fresh (hsteps : AddsFresh s s') (agentId : String) (x : StepRef) :
    s'.workers agentId x = s.workers agentId x := by
  unfold OperationalState.workers
  rcases hsteps x with hsame | ⟨hnone, hfresh⟩
  · rw [hsame]
  · rw [hnone]
    cases hstep : s'.step x with
    | none => rfl
    | some step => exact worksFor_pending (hfresh step hstep).status agentId

theorem workers_eq {step : Step} (hstep : s.step ref = some step) (agentId : String) :
    s.workers agentId ref = step.worksFor agentId := by
  unfold OperationalState.workers
  rw [hstep]
  rfl

theorem worksFor_working {step : Step} {agentId : String}
    (hworking : step.status = .assigned ∨ step.status = .running)
    (hassignee : step.assignedAgentId = some agentId) (id : String) :
    step.worksFor id = if id = agentId then some () else none := by
  unfold Step.worksFor
  rw [hassignee]
  by_cases hid : id = agentId
  · rw [if_pos hid, if_pos ⟨hworking, by rw [hid]⟩]
  · rw [if_neg hid, if_neg]
    rintro ⟨_, heq⟩
    exact hid (Option.some.inj heq).symm

theorem register_addTask (agent : Agent) (task k : String) :
    (agent.addTask task).register k = if k = task then some () else agent.register k := by
  unfold Agent.register
  have hmem : k ∈ (agent.addTask task).activeTasks ↔ k ∈ agent.activeTasks ∨ k = task := by
    show k ∈ sortedSet (agent.activeTasks ++ [task]) ↔ _
    rw [mem_sortedSet]
    simp
  by_cases hk : k = task
  · rw [if_pos (hmem.mpr (.inr hk)), if_pos hk]
  · rw [if_neg hk]
    by_cases hactive : k ∈ agent.activeTasks
    · rw [if_pos hactive, if_pos (hmem.mpr (.inl hactive))]
    · rw [if_neg hactive, if_neg]
      rw [hmem]
      exact not_or_intro hactive hk

theorem activeTasks_dropTask (agent : Agent) (task : String) :
    (agent.dropTask task).activeTasks = agent.activeTasks.filter (· ≠ task) := by
  unfold Agent.dropTask
  dsimp only
  split
  · rfl
  · rfl

theorem register_dropTask (agent : Agent) (task k : String) :
    (agent.dropTask task).register k = if k = task then none else agent.register k := by
  unfold Agent.register
  rw [activeTasks_dropTask]
  by_cases hk : k = task
  · rw [if_pos hk, if_neg]
    simp [hk]
  · rw [if_neg hk]
    by_cases hactive : k ∈ agent.activeTasks
    · rw [if_pos hactive, if_pos (by simp [hactive, hk])]
    · rw [if_neg hactive, if_neg (by simp [hactive])]

/-- Nobody starts or stops working; an agent that is new has no task. -/
theorem agentsMirrored_keep (h : AgentsMirrored s) (hb : Backed s)
    (hworkers : ∀ agentId x, s'.workers agentId x = s.workers agentId x)
    (hagents : ∀ agentId agent', s'.agents.get agentId = some agent' →
      (∃ agent, s.agents.get agentId = some agent ∧ agent'.activeTasks = agent.activeTasks) ∨
        (s.agents.get agentId = none ∧ agent'.activeTasks = [])) : AgentsMirrored s' := by
  intro agentId agent' hagent'
  rcases hagents agentId agent' hagent' with ⟨agent, hagent, hsame⟩ | ⟨hnew, hidle⟩
  · apply (h agentId agent hagent).congr (hworkers agentId)
    intro k
    unfold Agent.register
    rw [hsame]
  · apply mirrors_none
    · intro x
      rw [hworkers, Option.eq_none_iff_forall_ne_some]
      intro v hv
      obtain ⟨other, hother⟩ := hb.agents agentId x v hv
      rw [hnew] at hother
      cases hother
    · intro k
      unfold Agent.register
      rw [hidle]
      rfl

/-- A step nobody works on is entered for an agent. -/
theorem agentsMirrored_take_iff (h : AgentsMirrored s) {agentId : String} {agent : Agent}
    (hagent : s.agents.get agentId = some agent) (hnone : ∀ id, s.workers id ref = none)
    (hworkers : ∀ id x, s'.workers id x =
      if x = ref then (if id = agentId then some () else none) else s.workers id x)
    (hagents : s'.agents = s.agents.set agentId (agent.addTask ref.task)) :
    AgentsMirrored s' ↔ ∀ other v, s.workers agentId other = some v → other.task ≠ ref.task := by
  have hinsert : Mirrors StepRef.task (s'.workers agentId) (agent.addTask ref.task).register ↔
      ∀ other v, s.workers agentId other = some v → other.task ≠ ref.task := by
    apply (h agentId agent hagent).insert_iff (hnone agentId)
    · intro x
      rw [hworkers, if_pos rfl]
    · exact register_addTask agent ref.task
  constructor
  · intro h'
    apply hinsert.mp
    apply h' agentId
    rw [hagents, Dict.get_set_self]
  · intro hother id agent' hagent'
    rw [hagents, Dict.get_set] at hagent'
    split at hagent'
    · next heq =>
      cases hagent'
      rw [← heq]
      exact hinsert.mpr hother
    · next hne =>
      apply (h id agent' hagent').congr _ (fun _ => rfl)
      intro x
      rw [hworkers, if_neg (Ne.symm hne)]
      split
      · next heq => rw [heq, hnone]
      · rfl

/-- A step is taken out of the register of its agent. -/
theorem agentsMirrored_drop (h : AgentsMirrored s) {agentId : String} {agent : Agent}
    (hagent : s.agents.get agentId = some agent)
    (hworks : ∀ id, s.workers id ref = if id = agentId then some () else none)
    (hworkers : ∀ id x, s'.workers id x = if x = ref then none else s.workers id x)
    (hagents : s'.agents = s.agents.set agentId (agent.dropTask ref.task)) :
    AgentsMirrored s' := by
  intro id agent' hagent'
  rw [hagents, Dict.get_set] at hagent'
  split at hagent'
  · next heq =>
    cases hagent'
    rw [← heq]
    apply (h agentId agent hagent).erase (v := ()) _ (hworkers agentId)
      (register_dropTask agent ref.task)
    rw [hworks, if_pos rfl]
  · next hne =>
    apply (h id agent' hagent').congr _ (fun _ => rfl)
    intro x
    rw [hworkers]
    split
    · next heq => rw [heq, hworks, if_neg (Ne.symm hne)]
    · rfl

/-- An agent that works on no more steps than its register has. -/
theorem AgentsMirrored.withinLoad (h : AgentsMirrored s) (hload : ∀ agentId agent,
    s.agents.get agentId = some agent → agent.activeTasks.length ≤ agent.maxConcurrent) :
    WithinLoad s := by
  intro agentId agent hagent refs hnodup hrefs
  have hnames : ∀ k ∈ entered agent.register, k ∈ agent.activeTasks := by
    intro k hk
    obtain ⟨v, hv⟩ := exists_of_mem_entered hk
    unfold Agent.register at hv
    split at hv
    · assumption
    · cases hv
  have hle := (h agentId agent hagent).length_le hnodup
    (fun ref href => mem_entered (hrefs ref href)) hnames
  have := hload agentId agent hagent
  omega

end

end Edon.Operations
