import EdonPlatform.Operations.Registers

/- Runs of operations on the registers of pools and agents.

   What is proved: `registers_iff`, that along a run the registers are in bijection with
   the steps, with the same amounts, and no agent works on more steps than it may,
   exactly while no step is entered under the text of another one that is in the
   register. `registers_merge` is a run in which two steps share an entry. -/
namespace Edon.Operations
open Transition Register

/-! ## One operation -/

section
variable {s s' : OperationalState} {ref : StepRef} {step step' : Step} {c : Call}

theorem holders_keep (hsteps : ∀ x, s'.step x = if x = ref then some step' else s.step x)
    (hstep : s.step ref = some step) (hsame : ∀ r, step'.holding r = step.holding r) (r : String)
    (x : StepRef) : s'.holders r x = s.holders r x := by
  rw [holders_setStep hsteps]
  split
  · next heq => rw [heq, holders_eq hstep, hsame]
  · rfl

theorem workers_keep (hsteps : ∀ x, s'.step x = if x = ref then some step' else s.step x)
    (hstep : s.step ref = some step) (hsame : ∀ id, step'.worksFor id = step.worksFor id)
    (id : String) (x : StepRef) : s'.workers id x = s.workers id x := by
  rw [workers_setStep hsteps]
  split
  · next heq => rw [heq, workers_eq hstep, hsame]
  · rfl

theorem same_pools (h : s'.resourcePools = s.resourcePools) (r : String) (pool : Pool)
    (hpool : s'.resourcePools.get r = some pool) : s.resourcePools.get r = some pool ∨
      (s.resourcePools.get r = none ∧ pool.allocations = ∅) := by
  rw [h] at hpool
  exact .inl hpool

theorem same_agents (h : s'.agents = s.agents) (id : String) (agent' : Agent)
    (hagent' : s'.agents.get id = some agent') :
    (∃ agent, s.agents.get id = some agent ∧ agent'.activeTasks = agent.activeTasks) ∨
      (s.agents.get id = none ∧ agent'.activeTasks = []) := by
  rw [h] at hagent'
  exact .inl ⟨agent', hagent', rfl⟩

/-- No step that was there is written. -/
theorem mirrored_fresh (hb : Backed s) (hp : PoolsMirrored s) (ha : AgentsMirrored s)
    (hsteps : AddsFresh s s') (hpools : s'.resourcePools = s.resourcePools)
    (hagents : s'.agents = s.agents) : PoolsMirrored s' ∧ AgentsMirrored s' :=
  ⟨poolsMirrored_keep hp hb (holders_fresh hsteps) (same_pools hpools),
   agentsMirrored_keep ha hb (workers_fresh hsteps) (same_agents hagents)⟩

theorem freeInPools_iff (hstep : s.step ref = some step) :
    FreeInPools s ref ↔ ∀ r amount, step.resourceRequests.get r = some amount →
      ∀ other v, s.holders r other = some v → other.task ≠ ref.task := by
  constructor
  · intro h
    exact h step hstep
  · intro h step' hstep'
    rw [hstep] at hstep'
    cases hstep'
    exact h

/-- A live step is waiting for an agent or has one. -/
theorem live_cases (h : step.status.live = true) :
    step.status = .pending ∨ step.status = .assigned ∨ step.status = .running := by
  cases hstatus : step.status with
  | pending => exact .inl rfl
  | assigned => exact .inr (.inl rfl)
  | running => exact .inr (.inr rfl)
  | _ =>
    rw [hstatus] at h
    cases h

theorem consume_allocations (task : String) (amount : Rat) (pool : Pool) :
    (pool.consume task amount).allocations = pool.allocations.erase task := rfl

theorem release_allocations (task : String) (amount : Rat) (pool : Pool) :
    (pool.release task amount).allocations = pool.allocations.erase task := rfl

/-- A step is terminal now, and its allocation has been taken out of the pools. -/
theorem poolsMirrored_finish (h : PoolsMirrored s) {f : Rat → Pool → Pool}
    (hf : ∀ amount pool, (f amount pool).allocations = pool.allocations.erase ref.task)
    (hstep : s.step ref = some step)
    (hsteps : ∀ x, s'.step x = if x = ref then some step' else s.step x)
    (hlive : step.status.live = true) (hdead : step'.status.live = false)
    (hpools : s'.resourcePools = s.resourcePools.adjust f step.resourceAllocation) :
    PoolsMirrored s' := by
  apply poolsMirrored_release h hf _ _ hpools
  · intro r
    rw [holders_eq hstep, holding_live hlive]
  · intro r x
    rw [holders_setStep hsteps, holding_dead hdead]

/-- A step is terminal now, and its agent has dropped it. -/
theorem agentsMirrored_finish (h : AgentsMirrored s) {agentId : String} {agent : Agent}
    (hagent : s.agents.get agentId = some agent) (hstep : s.step ref = some step)
    (hsteps : ∀ x, s'.step x = if x = ref then some step' else s.step x)
    (hworking : step.status = .assigned ∨ step.status = .running)
    (hassignee : step.assignedAgentId = some agentId) (hdead : step'.status.live = false)
    (hagents : s'.agents = s.agents.set agentId (agent.dropTask ref.task)) :
    AgentsMirrored s' := by
  apply agentsMirrored_drop h hagent _ _ hagents
  · intro id
    rw [workers_eq hstep, worksFor_working hworking hassignee]
  · intro id x
    rw [workers_setStep hsteps, worksFor_dead hdead]

/-- The agent of a step that is cancelled, if it has one, is registered. -/
theorem agentsMirrored_cancel (h : AgentsMirrored s) (hb : Backed s)
    (hstep : s.step ref = some step) (hlive : step.status.live = true)
    (hsteps : ∀ x, s'.step x = if x = ref then some step' else s.step x)
    (hdead : step'.status.live = false)
    (hagents : s'.agents = (updates (releaseAgent s ref.task step.assignedAgentId) s).agents) :
    AgentsMirrored s' := by
  have hworkers : ∀ id x, s'.workers id x = if x = ref then none else s.workers id x := by
    intro id x
    rw [workers_setStep hsteps, worksFor_dead hdead]
  have hidle : (∀ id, step.worksFor id = none) → s'.agents = s.agents → AgentsMirrored s' := by
    intro hnone hsame
    apply agentsMirrored_keep h hb _ (same_agents hsame)
    intro id x
    rw [hworkers]
    split
    · next heq => rw [heq, workers_eq hstep, hnone]
    · rfl
  rcases live_cases hlive with hpending | hworking
  · rw [hb.unassigned ref step hstep hpending] at hagents
    exact hidle (worksFor_pending hpending) hagents
  · cases hassignee : step.assignedAgentId with
    | none =>
      rw [hassignee] at hagents
      apply hidle _ hagents
      intro id
      simp [Step.worksFor, hassignee]
    | some agentId =>
      have hworks : s.workers agentId ref = some () := by
        rw [workers_eq hstep, worksFor_working hworking hassignee, if_pos rfl]
      obtain ⟨agent, hagent⟩ := hb.agents agentId ref () hworks
      apply agentsMirrored_finish h hagent hstep hsteps hworking hassignee hdead
      rw [hagents, hassignee]
      unfold releaseAgent
      dsimp only
      rw [hagent]
      rfl

/-- **An operation keeps the registers exactly when the text it enters is free.** -/
theorem effect_mirrored_iff (hb : Backed s) (hp : PoolsMirrored s) (ha : AgentsMirrored s)
    (he : Effect s c s') : PoolsMirrored s' ∧ AgentsMirrored s' ↔ FreeText s c := by
  cases he with
  | @agentRegistered agentId kind capabilities maxConcurrent relationships metadata agent clock new
      id status idle =>
    have hsteps : AddsFresh s { s with agents := s.agents.set (strip agentId) agent, clock } :=
      addsFresh_of_same rfl
    refine iff_of_true ⟨?_, ?_⟩ trivial
    · exact poolsMirrored_keep hp hb (holders_fresh hsteps) (same_pools rfl)
    · apply agentsMirrored_keep ha hb (workers_fresh hsteps)
      intro id agent' hagent'
      rw [Dict.get_set] at hagent'
      split at hagent'
      · next heq =>
        cases hagent'
        exact .inr ⟨heq ▸ new, idle⟩
      · exact .inl ⟨agent', hagent', rfl⟩
  | @agentStatusSet agentId name agent status clock found =>
    have hsteps : AddsFresh s
        { s with agents := s.agents.set (strip agentId) { agent with status }, clock } :=
      addsFresh_of_same rfl
    refine iff_of_true ⟨?_, ?_⟩ trivial
    · exact poolsMirrored_keep hp hb (holders_fresh hsteps) (same_pools rfl)
    · apply agentsMirrored_keep ha hb (workers_fresh hsteps)
      intro id agent' hagent'
      rw [Dict.get_set] at hagent'
      split at hagent'
      · next heq =>
        cases hagent'
        exact .inl ⟨agent, heq ▸ found, rfl⟩
      · exact .inl ⟨agent', hagent', rfl⟩
  | @poolRegistered resourceId capacity unit renewable pool clock new nonneg allocated allocations =>
    have hsteps : AddsFresh s
        { s with resourcePools := s.resourcePools.set (strip resourceId) pool, clock } :=
      addsFresh_of_same rfl
    refine iff_of_true ⟨?_, ?_⟩ trivial
    · apply poolsMirrored_keep hp hb (holders_fresh hsteps)
      intro r pool' hpool'
      rw [Dict.get_set] at hpool'
      split at hpool'
      · next heq =>
        cases hpool'
        exact .inr ⟨heq ▸ new, allocations⟩
      · exact .inl hpool'
    · exact agentsMirrored_keep ha hb (workers_fresh hsteps) (same_agents rfl)
  | planCreated plan goal clock new found =>
    refine iff_of_true (mirrored_fresh hb hp ha ?_ rfl rfl) trivial
    exact addsFresh_newPlan new.unused rfl new.steps
  | allocated plan step clock located active pending unallocated dependencies free =>
    have hstep := step_located located.1 located.2
    have hlive : step.status.live = true := by rw [pending]; rfl
    rw [and_iff_left]
    · show _ ↔ FreeInPools s _
      rw [freeInPools_iff hstep]
      apply poolsMirrored_reserve_iff hp free _ _ rfl
      · intro r
        rw [holders_eq hstep, holding_unallocated unallocated]
      · intro r x
        rw [holders_setStep (step_setStep located.1 rfl rfl)]
        split
        · apply holding_live
          exact hlive
        · rfl
    · refine agentsMirrored_keep ha hb ?_ (same_agents rfl)
      apply workers_keep (step_setStep located.1 rfl rfl) hstep
      intro id
      rfl
  | assigned plan step agent clock located found active pending =>
    have hstep := step_located located.1 located.2
    have hlive : step.status.live = true := by rw [pending]; rfl
    rw [and_iff_right]
    · apply agentsMirrored_take_iff ha found _ _ rfl
      · intro id
        rw [workers_eq hstep, worksFor_pending pending]
      · intro id x
        rw [workers_setStep (step_setStep located.1 rfl rfl), worksFor_working (.inl rfl) rfl]
    · refine poolsMirrored_keep hp hb ?_ (same_pools rfl)
      apply holders_keep (step_setStep located.1 rfl rfl) hstep
      intro r
      rw [holding_live hlive, holding_live rfl]
  | dispatched plan step agent clock located found active pending unallocated dependencies take
      free =>
    have hstep := step_located located.1 located.2
    apply and_congr
    · rw [freeInPools_iff hstep]
      apply poolsMirrored_reserve_iff hp free _ _ rfl
      · intro r
        rw [holders_eq hstep, holding_unallocated unallocated]
      · intro r x
        rw [holders_setStep (step_setStep located.1 rfl rfl), holding_live rfl]
    · apply agentsMirrored_take_iff ha found _ _ rfl
      · intro id
        rw [workers_eq hstep, worksFor_pending pending]
      · intro id x
        rw [workers_setStep (step_setStep located.1 rfl rfl), worksFor_working (.inl rfl) rfl]
  | started plan step clock located assigned =>
    have hstep := step_located located.1 located.2
    have hlive : step.status.live = true := by rw [assigned]; rfl
    refine iff_of_true ⟨?_, ?_⟩ trivial
    · refine poolsMirrored_keep hp hb ?_ (same_pools rfl)
      apply holders_keep (step_setStep located.1 rfl rfl) hstep
      intro r
      rw [holding_live hlive, holding_live rfl]
    · refine agentsMirrored_keep ha hb ?_ (same_agents rfl)
      apply workers_keep (step_setStep located.1 rfl rfl) hstep
      intro id
      simp [Step.worksFor, assigned]
  | planReplaced old new goal clock found_old status idle isNew same found =>
    refine iff_of_true (mirrored_fresh hb hp ha ?_ rfl rfl) trivial
    exact addsFresh_replaced found_old isNew.unused isNew.steps rfl rfl
  | @outcome planId stepId success summary payload outcomeId actualOutcomes plan settled step goal
      agentId agent actual outcome alerts learning clock located working assignee found unrecorded
      pools found_goal settled_eq =>
    have hstep := step_located located.1 located.2
    have hlive := working_live working
    have hdead : StepStatus.live
        (if succeeds step success actualOutcomes then .succeeded else .failed) = false := by
      split
      · rfl
      · rfl
    have hsettled := (settle_steps (succeeds step success actualOutcomes) settled).trans
      (congrArg Plan.steps settled_eq)
    refine iff_of_true ⟨?_, ?_⟩ trivial
    · exact poolsMirrored_finish hp (consume_allocations _) hstep
        (step_setStep located.1 rfl hsettled) hlive hdead rfl
    · exact agentsMirrored_finish ha found hstep (step_setStep located.1 rfl hsettled) working
        assignee hdead rfl
  | cancelled plan step goal agents alerts clock located live pools found_goal agents_eq =>
    have hstep := step_located located.1 located.2
    refine iff_of_true ⟨?_, ?_⟩ trivial
    · exact poolsMirrored_finish hp (release_allocations _) hstep
        (step_setStep located.1 rfl rfl) live rfl rfl
    · exact agentsMirrored_cancel ha hb hstep live (step_setStep located.1 rfl rfl) rfl agents_eq
  | _ => exact iff_of_true (mirrored_fresh hb hp ha (addsFresh_of_same rfl) rfl rfl) trivial

/-! ## What every operation keeps -/

/-- No pool and no agent is lost, and no agent has more tasks than it may. -/
structure KeepsRecords (s s' : OperationalState) : Prop where
  pools : ∀ r pool, s.resourcePools.get r = some pool →
    ∃ pool', s'.resourcePools.get r = some pool'
  agents : ∀ id agent, s.agents.get id = some agent → ∃ agent', s'.agents.get id = some agent'
  load : ∀ id agent, s'.agents.get id = some agent →
    agent.activeTasks.length ≤ agent.maxConcurrent

theorem exists_get_adjust {pools : Dict String Pool} {f : Rat → Pool → Pool}
    {amounts : Dict String Rat} {r : String} {pool : Pool} (h : pools.get r = some pool) :
    ∃ pool', (pools.adjust f amounts).get r = some pool' := by
  rw [Dict.get_adjust, h]
  exact ⟨_, rfl⟩

theorem load_setAgent (hb : Backed s) {agentId : String} {agent : Agent}
    (hagent : agent.activeTasks.length ≤ agent.maxConcurrent)
    (hagents : s'.agents = s.agents.set agentId agent) :
    ∀ id agent, s'.agents.get id = some agent → agent.activeTasks.length ≤ agent.maxConcurrent := by
  intro id other hother
  rw [hagents, Dict.get_set] at hother
  split at hother
  · cases hother
    exact hagent
  · exact hb.load id other hother

theorem addTask_load {agent : Agent} (h : CanTake agent step) (task : String) :
    ((agent.addTask task).activeTasks.length : Int) ≤ (agent.addTask task).maxConcurrent := by
  have hlength : (agent.addTask task).activeTasks.length ≤ (agent.activeTasks ++ [task]).length :=
    sortedSet_length_le _
  have hcapacity := h.capacity
  have hmax : (agent.addTask task).maxConcurrent = agent.maxConcurrent := rfl
  rw [List.length_append, List.length_singleton] at hlength
  omega

theorem dropTask_load {agent : Agent} (h : agent.activeTasks.length ≤ agent.maxConcurrent)
    (task : String) :
    ((agent.dropTask task).activeTasks.length : Int) ≤ (agent.dropTask task).maxConcurrent := by
  have hlength : (agent.dropTask task).activeTasks.length ≤ agent.activeTasks.length := by
    rw [activeTasks_dropTask]
    exact List.length_filter_le _ _
  have hmax : (agent.dropTask task).maxConcurrent = agent.maxConcurrent := by
    unfold Agent.dropTask
    dsimp only
    split
    · rfl
    · rfl
  omega

theorem keepsRecords_effect (hb : Backed s) (he : Effect s c s') : KeepsRecords s s' := by
  have hload := hb.load
  cases he with
  | agentRegistered agent clock new id status idle max =>
    refine ⟨fun r pool hpool => ⟨pool, hpool⟩, fun _ _ h => exists_get_set h, ?_⟩
    apply load_setAgent hb _ rfl
    rw [idle]
    exact le_trans (by simp) max
  | agentStatusSet agent status clock found =>
    refine ⟨fun r pool hpool => ⟨pool, hpool⟩, fun _ _ h => exists_get_set h, ?_⟩
    refine load_setAgent hb ?_ rfl
    exact hload _ agent found
  | poolRegistered pool clock =>
    exact ⟨fun _ _ h => exists_get_set h, fun id agent h => ⟨agent, h⟩, hload⟩
  | allocated plan step clock =>
    exact ⟨fun _ _ h => exists_get_adjust h, fun id agent h => ⟨agent, h⟩, hload⟩
  | assigned plan step agent clock located found active pending dependencies allocation canTake =>
    refine ⟨fun r pool hpool => ⟨pool, hpool⟩, fun _ _ h => exists_get_set h, ?_⟩
    exact load_setAgent hb (addTask_load canTake _) rfl
  | dispatched plan step agent clock located found active pending unallocated dependencies canTake =>
    refine ⟨fun _ _ h => exists_get_adjust h, fun _ _ h => exists_get_set h, ?_⟩
    exact load_setAgent hb (addTask_load canTake _) rfl
  | outcome plan settled step goal agentId agent actual outcome alerts learning clock located working
      assignee found =>
    refine ⟨fun _ _ h => exists_get_adjust h, fun _ _ h => exists_get_set h, ?_⟩
    exact load_setAgent hb (dropTask_load (hload _ agent found) _) rfl
  | @cancelled planId stepId reason plan step goal agents alerts clock located live pools found_goal
      agents_eq =>
    unfold releaseAgent at agents_eq
    split at agents_eq
    · rw [agents_eq]
      exact ⟨fun _ _ h => exists_get_adjust h, fun id agent h => ⟨agent, h⟩, hload⟩
    · split at agents_eq
      · rw [agents_eq]
        exact ⟨fun _ _ h => exists_get_adjust h, fun id agent h => ⟨agent, h⟩, hload⟩
      · next agentId _ agent hagent =>
        rw [agents_eq]
        refine ⟨fun _ _ h => exists_get_adjust h, fun _ _ h => exists_get_set h, ?_⟩
        exact load_setAgent hb (dropTask_load (hload _ agent hagent) _) rfl
  | _ => exact ⟨fun r pool hpool => ⟨pool, hpool⟩, fun id agent h => ⟨agent, h⟩, hload⟩

theorem backed_fresh (hb : Backed s) (hkeeps : KeepsRecords s s') (hsteps : AddsFresh s s') :
    Backed s' where
  unassigned ref step hstep hpending := by
    rcases hsteps ref with hsame | ⟨_, hfresh⟩
    · exact hb.unassigned ref step (hsame ▸ hstep) hpending
    · exact (hfresh step hstep).agent
  pools r ref v hv := by
    rw [holders_fresh hsteps] at hv
    obtain ⟨pool, hpool⟩ := hb.pools r ref v hv
    exact hkeeps.pools r pool hpool
  agents id ref v hv := by
    rw [workers_fresh hsteps] at hv
    obtain ⟨agent, hagent⟩ := hb.agents id ref v hv
    exact hkeeps.agents id agent hagent
  load := hkeeps.load

/-- A step is written: what it holds and who works on it is registered. -/
theorem backed_setStep (hb : Backed s) (hkeeps : KeepsRecords s s')
    (hsteps : ∀ x, s'.step x = if x = ref then some step' else s.step x)
    (hpending : step'.status = .pending → step'.assignedAgentId = none)
    (hholding : ∀ r v, step'.holding r = some v → ∃ pool, s.resourcePools.get r = some pool)
    (hworks : ∀ id v, step'.worksFor id = some v → ∃ agent, s.agents.get id = some agent) :
    Backed s' where
  unassigned x step hstep hstatus := by
    rw [hsteps] at hstep
    split at hstep
    · cases hstep
      exact hpending hstatus
    · exact hb.unassigned x step hstep hstatus
  pools r x v hv := by
    rw [holders_setStep hsteps] at hv
    have hpool : ∃ pool, s.resourcePools.get r = some pool := by
      split at hv
      · exact hholding r v hv
      · exact hb.pools r x v hv
    obtain ⟨pool, hpool⟩ := hpool
    exact hkeeps.pools r pool hpool
  agents id x v hv := by
    rw [workers_setStep hsteps] at hv
    have hagent : ∃ agent, s.agents.get id = some agent := by
      split at hv
      · exact hworks id v hv
      · exact hb.agents id x v hv
    obtain ⟨agent, hagent⟩ := hagent
    exact hkeeps.agents id agent hagent
  load := hkeeps.load

/-- What a step that keeps its allocation holds was registered before. -/
theorem holding_backed (hb : Backed s) (hstep : s.step ref = some step)
    (hlive : step.status.live = true) {r : String} {v : Rat} (hv : step'.holding r = some v)
    (hsame : step'.resourceAllocation = step.resourceAllocation) :
    ∃ pool, s.resourcePools.get r = some pool := by
  unfold Step.holding at hv
  split at hv
  · rw [hsame] at hv
    apply hb.pools r ref v
    rw [holders_eq hstep, holding_live hlive, hv]
  · cases hv

/-- An agent that works on the step is the one it is assigned to. -/
theorem worksFor_some {id : String} {v : Unit} (h : step.worksFor id = some v) :
    (step.status = .assigned ∨ step.status = .running) ∧ step.assignedAgentId = some id := by
  unfold Step.worksFor at h
  split at h
  · assumption
  · cases h

theorem not_holding_dead (hdead : step.status.live = false) {r : String} {v : Rat}
    (hv : step.holding r = some v) : ∃ pool, s.resourcePools.get r = some pool := by
  rw [holding_dead hdead] at hv
  cases hv

theorem not_works_dead (hdead : step.status.live = false) {id : String} {v : Unit}
    (hv : step.worksFor id = some v) : ∃ agent, s.agents.get id = some agent := by
  rw [worksFor_dead hdead] at hv
  cases hv

theorem backed_effect (hb : Backed s) (he : Effect s c s') : Backed s' := by
  have hkeeps := keepsRecords_effect hb he
  cases he with
  | planCreated plan goal clock new found =>
    exact backed_fresh hb hkeeps (addsFresh_newPlan new.unused rfl new.steps)
  | planReplaced old new goal clock found_old status idle isNew same found =>
    exact backed_fresh hb hkeeps
      (addsFresh_replaced found_old isNew.unused isNew.steps rfl rfl)
  | allocated plan step clock located active pending unallocated dependencies free =>
    have hstep := step_located located.1 located.2
    apply backed_setStep hb hkeeps (step_setStep located.1 rfl rfl)
    · intro _
      exact hb.unassigned _ step hstep pending
    · intro r v hv
      unfold Step.holding at hv
      split at hv
      · exact free.hasPools _ _ hv
      · cases hv
    · intro id v hv
      obtain ⟨hworking, _⟩ := worksFor_some hv
      rw [show step.status = .pending from pending] at hworking
      rcases hworking with h | h <;> cases h
  | assigned plan step agent clock located found active pending =>
    have hstep := step_located located.1 located.2
    apply backed_setStep hb hkeeps (step_setStep located.1 rfl rfl)
    · intro hpending
      cases hpending
    · intro r v hv
      exact holding_backed hb hstep (by rw [pending]; rfl) hv rfl
    · intro id v hv
      obtain ⟨_, hid⟩ := worksFor_some hv
      cases hid
      exact ⟨agent, found⟩
  | dispatched plan step agent clock located found active pending unallocated dependencies take
      free =>
    apply backed_setStep hb hkeeps (step_setStep located.1 rfl rfl)
    · intro hpending
      cases hpending
    · intro r v hv
      rw [holding_live rfl] at hv
      exact free.hasPools _ _ hv
    · intro id v hv
      obtain ⟨_, hid⟩ := worksFor_some hv
      cases hid
      exact ⟨agent, found⟩
  | started plan step clock located assigned =>
    have hstep := step_located located.1 located.2
    apply backed_setStep hb hkeeps (step_setStep located.1 rfl rfl)
    · intro hpending
      cases hpending
    · intro r v hv
      exact holding_backed hb hstep (by rw [assigned]; rfl) hv rfl
    · intro id v hv
      obtain ⟨_, hid⟩ := worksFor_some hv
      apply hb.agents id _ ()
      rw [workers_eq hstep, worksFor_working (.inl assigned) hid, if_pos rfl]
  | @outcome planId stepId success summary payload outcomeId actualOutcomes plan settled step goal
      agentId agent actual outcome alerts learning clock located working assignee found unrecorded
      pools found_goal settled_eq =>
    have hdead : StepStatus.live
        (if succeeds step success actualOutcomes then .succeeded else .failed) = false := by
      split
      · rfl
      · rfl
    have hsettled := (settle_steps (succeeds step success actualOutcomes) settled).trans
      (congrArg Plan.steps settled_eq)
    apply backed_setStep hb hkeeps (step_setStep located.1 rfl hsettled)
    · intro hpending
      exact absurd (hdead.symm.trans (congrArg StepStatus.live hpending)) (by decide)
    · exact fun _ _ => not_holding_dead hdead
    · exact fun _ _ => not_works_dead hdead
  | cancelled plan step goal agents alerts clock located =>
    apply backed_setStep hb hkeeps (step_setStep located.1 rfl rfl)
    · intro hpending
      cases hpending
    · exact fun _ _ => not_holding_dead rfl
    · exact fun _ _ => not_works_dead rfl
  | _ => exact backed_fresh hb hkeeps (addsFresh_of_same rfl)

end

/-! ## Sequences of operations -/

/-- The invariant of a run whose texts are free. -/
structure Registered (s : OperationalState) : Prop where
  backed : Backed s
  pools : PoolsMirrored s
  agents : AgentsMirrored s

theorem Registered.mirrored {s : OperationalState} (h : Registered s) : Mirrored s :=
  ⟨h.pools, h.agents, h.agents.withinLoad h.backed.load⟩

theorem registered_bootstrap (stamp : Instant) : Registered (operationalState stamp) := by
  refine ⟨⟨?_, ?_, ?_, ?_⟩, ?_, ?_⟩
  · intro ref step hstep
    cases hstep
  · intro r ref v hv
    cases hv
  · intro id ref v hv
    cases hv
  · intro id agent hagent
    cases hagent
  · intro r pool hpool
    cases hpool
  · intro id agent hagent
    cases hagent

/-- **The registers mirror the plans exactly while the texts differ.** For every
bootstrapped world and every sequence of operations on it: in every state the entries of
each pool and of each agent are in bijection with the steps that hold of it or are worked
on by it, with the same amounts, and no agent works on more steps than it may, if and
only if no recorded operation enters a step into a register that has another step with
the same text. -/
theorem registers_iff {py : Python} {institution : Json} {actorId authorizationRef : String}
    {sourceLineage : List String} {timestamp : Option String} {now : Instant} {l : Ledger}
    (h : bootstrapWorld py institution actorId authorizationRef sourceLineage timestamp now = .ok l)
    (calls : List (Call × Keywords)) :
    Along (next py) (fun _ _ l' => l'.Has Mirrored) l calls ↔
      Along (next py) (fun l e l' => l' ≠ l → l.Meets FreeText e.1) l calls := by
  refine bootstrapped_has_iff registered_bootstrap (fun _ => Registered.mirrored) ?_ h calls
  intro s c s' hs heffect
  have hiff := effect_mirrored_iff hs.backed hs.pools hs.agents heffect
  have hkeep : FreeText s c → Registered s' := by
    intro hfree
    obtain ⟨hpools, hagents⟩ := hiff.mpr hfree
    exact ⟨backed_effect hs.backed heffect, hpools, hagents⟩
  refine ⟨⟨?_, fun hfree => (hkeep hfree).mirrored⟩, hkeep⟩
  intro hmirrored
  exact hiff.mp ⟨hmirrored.pools, hmirrored.agents⟩

theorem registers_fuel :
    Along (next samplePython) (fun _ _ l' => l'.Has Mirrored) sampleLedger spentFuel ↔
      Along (next samplePython) (fun l e l' => l' ≠ l → l.Meets FreeText e.1) sampleLedger
        spentFuel :=
  registers_iff sampleLedger_bootstrapped spentFuel

/-! ## Two steps under one text -/

/-- Two plans, the step `b:c` of `a` and the step `c` of `a:b`, and the first of them gets
a crane. -/
def firstCrane : List (Call × Keywords) :=
  let step (stepId : String) : Json :=
    .obj [("step_id", .str stepId), ("action", .str "Lift the pump"),
      ("resource_requests", .obj [("crane", .int 1)])]
  [(.registerResourcePool "crane" (.int 2) "piece" true, sampleKeywords "event-1" 0),
   (.createGoal "goal-1" "Restore the service" 50 none [] none none [] true,
      sampleKeywords "event-2" 1),
   (.createGoal "goal-2" "Restore the service" 50 none [] none none [] true,
      sampleKeywords "event-3" 2),
   (.createPlan "a" "goal-1" [step "b:c"] "2026-01-01T00:00:00+00:00" none,
      sampleKeywords "event-4" 3),
   (.createPlan "a:b" "goal-2" [step "c"] "2026-01-01T00:00:00+00:00" none,
      sampleKeywords "event-5" 4),
   (.allocateStepResources "a" "b:c", sampleKeywords "event-6" 5)]

def secondCrane : Call × Keywords := (.allocateStepResources "a:b" "c", sampleKeywords "event-7" 6)

/-- What two steps hold of a resource in a world. -/
def Ledger.bothHold (l : Ledger) (r : String) (first second : StepRef) : Option (Rat × Rat) := do
  let s ← l.state
  let _ ← s.resourcePools.get r
  let v ← s.holders r first
  let w ← s.holders r second
  return (v, w)

theorem two_cranes :
    (exec (next samplePython) sampleLedger (firstCrane ++ [secondCrane])).bothHold "crane"
      ("a", "b:c") ("a:b", "c") = some (1, 1) := by
  decide +kernel

/-- **Two steps share one entry.** Two steps with the text `a:b:c` get a crane each in a
bootstrapped world: every operation is recorded, two cranes are allocated, and the pool
has one entry. -/
theorem registers_merge :
    bootstrapWorld samplePython (.obj []) "operator" "approval-1" [] none 1767225600000000 =
      .ok sampleLedger ∧
    ¬ ∀ calls, Along (next samplePython) (fun _ _ l' => l'.Has Mirrored) sampleLedger calls := by
  refine ⟨sampleLedger_bootstrapped, ?_⟩
  intro hall
  have hhas := Ledger.Has.along_exec (hall (firstCrane ++ [secondCrane]))
  obtain ⟨s, hs, hheld⟩ := Option.bind_eq_some_iff.mp two_cranes
  obtain ⟨pool, hpool, hheld⟩ := Option.bind_eq_some_iff.mp hheld
  obtain ⟨v, hv, hheld⟩ := Option.bind_eq_some_iff.mp hheld
  obtain ⟨w, hw, _⟩ := Option.bind_eq_some_iff.mp hheld
  have hbijection := ((hhas s hs).pools "crane" pool hpool).bijection
  have hsame := hbijection.injOn (mem_entered hv) (mem_entered hw) rfl
  exact absurd hsame (by decide)

end Edon.Operations
