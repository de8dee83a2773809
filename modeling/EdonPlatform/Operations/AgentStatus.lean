import EdonPlatform.Operations.Dispatch
import EdonPlatform.Operations.Mirroring

/- The status an operator gives an agent (edon/operations/control.py). `set_agent_status` may
   take an agent out of service as `DEGRADED`, `OFFLINE` or `RETIRED`. `record_step_outcome` and
   `cancel_step` compute the status of the agent again from the tasks it has left, and leave it
   alone only where it is `OFFLINE` or `RETIRED`.

   What is proved: `persists_iff`, that in a run the status stays until it is set again, and the
   agent gets no step meanwhile, exactly while no step of a degraded agent gets an outcome or is
   cancelled. `degraded_agent_returns` is a run in which one does. -/
namespace Edon.Operations
open Transition Register

/-- Out of service. -/
def AgentStatus.down : AgentStatus → Bool
  | .degraded | .offline | .retired => true
  | _ => false

/-- The call sets the status of the agent. -/
def Call.sets (agentId : String) : Call → Bool
  | .setAgentStatus id _ => strip id = agentId
  | _ => false

def Ledger.agentStatus (l : Ledger) (agentId : String) : Option AgentStatus := do
  let s ← l.state
  let agent ← s.agents.get agentId
  return agent.status

/-- The agent has the step assigned or running. -/
def Ledger.WorksOn (l : Ledger) (agentId : String) (ref : StepRef) : Prop :=
  ∃ s, l.state = some s ∧ s.workers agentId ref = some ()

section
variable (py : Python)

/-- Until a call sets it again, the agent has the status, and no step it did not have. -/
def Stays (agentId : String) (status : AgentStatus) : Ledger → List (Call × Keywords) → Prop
  | _, [] => True
  | l, e :: calls =>
    (next py l e ≠ l ∧ e.1.sets agentId = true) ∨
      ((next py l e).agentStatus agentId = some status ∧
        (∀ ref, (next py l e).WorksOn agentId ref → l.WorksOn agentId ref) ∧
        Stays agentId status (next py l e) calls)

/-- Every status that takes an agent out of service stays from the event that set it. -/
def Persists : Ledger → List (Call × Keywords) → Prop
  | _, [] => True
  | l, e :: calls =>
    (∀ agentId status, next py l e ≠ l → e.1.sets agentId = true →
      (next py l e).agentStatus agentId = some status → status.down = true →
        Stays py agentId status (next py l e) calls) ∧
    Persists (next py l e) calls

end

/-- The step a call gives an outcome to or cancels. -/
def Call.finishes : Call → Option (String × String)
  | .recordStepOutcome planId stepId .. => some (planId, stepId)
  | .cancelStep planId stepId _ => some (planId, stepId)
  | _ => none

/-- The call finishes no step of an agent that is degraded. -/
def SparesDegraded (s : OperationalState) (c : Call) : Prop :=
  ∀ planId stepId plan step agentId agent, c.finishes = some (planId, stepId) →
    Located s planId stepId plan step → step.assignedAgentId = some agentId →
      s.agents.get agentId = some agent → agent.status ≠ .degraded

/-! ## One operation -/

section
variable {s s' : OperationalState} {c : Call} {agentId : String} {agent : Agent}

theorem withTasks_status (activeTasks : List String) (agent : Agent) :
    (agent.withTasks activeTasks).status = .available ∨
      (agent.withTasks activeTasks).status = .busy := by
  unfold Agent.withTasks
  dsimp only
  split
  · exact .inr rfl
  · exact .inl rfl

theorem withTasks_up (activeTasks : List String) (agent : Agent) :
    (agent.withTasks activeTasks).status.down = false := by
  rcases withTasks_status activeTasks agent with h | h
  · rw [h]
    rfl
  · rw [h]
    rfl

/-- A task is dropped from an agent out of service. -/
theorem dropTask_status (hdown : agent.status.down = true) (task : String) :
    (agent.dropTask task).status = agent.status ↔ agent.status ≠ .degraded := by
  unfold Agent.dropTask
  dsimp only
  cases hstatus : agent.status with
  | degraded =>
    rw [if_neg (by simp)]
    refine iff_of_false (fun heq => ?_) (not_not_intro rfl)
    have hup := withTasks_up (agent.activeTasks.filter (· ≠ task)) agent
    rw [heq] at hup
    cases hup
  | offline => exact iff_of_true (by rw [if_pos (.inl rfl)]) (by decide)
  | retired => exact iff_of_true (by rw [if_pos (.inr rfl)]) (by decide)
  | _ =>
    rw [hstatus] at hdown
    cases hdown

theorem dropTask_down {task : String} (h : (agent.dropTask task).status.down = true) :
    agent.status = (agent.dropTask task).status := by
  unfold Agent.dropTask at h ⊢
  dsimp only at h ⊢
  by_cases hout : agent.status = .offline ∨ agent.status = .retired
  · rw [if_pos hout]
  · rw [if_neg hout, withTasks_up] at h
    cases h

/-- What a call can do to the agents. -/
inductive AgentChange (s : OperationalState) (c : Call) : Dict String Agent → Prop where
  | same : AgentChange s c s.agents
  | registered (agentId : String) (agent : Agent) (new : s.agents.get agentId = none)
      (available : agent.status = .available) : AgentChange s c (s.agents.set agentId agent)
  | statusSet (agentId : String) (agent : Agent) (sets : c.sets agentId = true) :
      AgentChange s c (s.agents.set agentId agent)
  | took (agentId : String) (agent : Agent) (task : String)
      (found : s.agents.get agentId = some agent) (up : agent.status.down = false) :
      AgentChange s c (s.agents.set agentId (agent.addTask task))
  | dropped (planId stepId : String) (plan : Plan) (step : Step) (agentId : String) (agent : Agent)
      (task : String) (finishes : c.finishes = some (planId, stepId))
      (located : Located s planId stepId plan step) (assignee : step.assignedAgentId = some agentId)
      (found : s.agents.get agentId = some agent) :
      AgentChange s c (s.agents.set agentId (agent.dropTask task))

theorem CanTake.up {step : Step} (h : CanTake agent step) : agent.status.down = false := by
  rcases h.status with h | h
  · rw [h]
    rfl
  · rw [h]
    rfl

theorem agentChange_release {planId stepId : String} {plan : Plan} {step : Step}
    (finishes : c.finishes = some (planId, stepId)) (located : Located s planId stepId plan step)
    (task : String) :
    AgentChange s c (updates (releaseAgent s task step.assignedAgentId) s).agents := by
  unfold releaseAgent
  cases hassignee : step.assignedAgentId with
  | none => exact .same
  | some agentId =>
    dsimp only
    cases hagent : s.agents.get agentId with
    | none => exact .same
    | some agent =>
      exact .dropped planId stepId plan step agentId agent task finishes located hassignee hagent

theorem agents_effect (he : Effect s c s') : AgentChange s c s'.agents := by
  cases he with
  | agentRegistered agent clock new id status => exact .registered _ agent new status
  | agentStatusSet agent status => exact .statusSet _ _ (decide_eq_true rfl)
  | assigned plan step agent clock located found active pending dependencies allocation canTake =>
    exact .took _ agent _ found canTake.up
  | dispatched plan step agent clock located found active pending unallocated dependencies canTake =>
    exact .took _ agent _ found canTake.up
  | outcome plan settled step goal agentId agent actual outcome alerts learning clock located working
      assignee found =>
    exact .dropped _ _ plan step agentId agent _ rfl located assignee found
  | cancelled plan step goal agents alerts clock located live pools found_goal agents_eq =>
    subst agents_eq
    exact agentChange_release rfl located _
  | _ => exact .same

/-- An agent out of service was so before, or its status was set. -/
theorem down_before {agents : Dict String Agent} (h : AgentChange s c agents) {agent' : Agent}
    (hagent' : agents.get agentId = some agent') (hdown : agent'.status.down = true) :
    c.sets agentId = true ∨
      ∃ agent, s.agents.get agentId = some agent ∧ agent.status = agent'.status := by
  have hset : ∀ {key : String} {w : Agent}, (s.agents.set key w).get agentId = some agent' →
      key = agentId ∧ w = agent' ∨ s.agents.get agentId = some agent' := by
    intro key w hget
    rw [Dict.get_set] at hget
    split at hget
    · next heq => exact .inl ⟨heq, Option.some.inj hget⟩
    · exact .inr hget
  cases h with
  | same => exact .inr ⟨agent', hagent', rfl⟩
  | registered key w new available =>
    rcases hset hagent' with ⟨rfl, rfl⟩ | hsame
    · rw [available] at hdown
      cases hdown
    · exact .inr ⟨agent', hsame, rfl⟩
  | statusSet key w sets =>
    rcases hset hagent' with ⟨rfl, rfl⟩ | hsame
    · exact .inl sets
    · exact .inr ⟨agent', hsame, rfl⟩
  | took key w task found up =>
    rcases hset hagent' with ⟨rfl, rfl⟩ | hsame
    · rw [Agent.addTask, withTasks_up] at hdown
      cases hdown
    · exact .inr ⟨agent', hsame, rfl⟩
  | dropped planId stepId plan step key w task finishes located assignee found =>
    rcases hset hagent' with ⟨rfl, rfl⟩ | hsame
    · exact .inr ⟨w, found, dropTask_down hdown⟩
    · exact .inr ⟨agent', hsame, rfl⟩

/-- An agent out of service stays so unless its status is set or, degraded, it loses a step. -/
theorem down_after {agents : Dict String Agent} (h : AgentChange s c agents)
    (hspares : SparesDegraded s c) (hagent : s.agents.get agentId = some agent)
    (hdown : agent.status.down = true) (hsets : c.sets agentId = false) :
    ∃ agent', agents.get agentId = some agent' ∧ agent'.status = agent.status := by
  have hset : ∀ {key : String} {w : Agent}, (key = agentId → w.status = agent.status) →
      ∃ agent', (s.agents.set key w).get agentId = some agent' ∧ agent'.status = agent.status := by
    intro key w hw
    rw [Dict.get_set]
    split
    · next heq => exact ⟨w, rfl, hw heq⟩
    · exact ⟨agent, hagent, rfl⟩
  cases h with
  | same => exact ⟨agent, hagent, rfl⟩
  | registered key w new available =>
    refine hset fun heq => ?_
    rw [heq, hagent] at new
    cases new
  | statusSet key w sets =>
    refine hset fun heq => ?_
    rw [heq, hsets] at sets
    cases sets
  | took key w task found up =>
    refine hset fun heq => ?_
    rw [heq, hagent] at found
    cases found
    rw [hdown] at up
    cases up
  | dropped planId stepId plan step key w task finishes located assignee found =>
    refine hset fun heq => ?_
    have hspared := hspares planId stepId plan step key w finishes located assignee found
    rw [heq, hagent] at found
    cases found
    exact (dropTask_status hdown task).mpr hspared

/-- A degraded agent that loses a step is degraded no more. -/
theorem degraded_lost (he : Effect s c s') (h : ¬ SparesDegraded s c) :
    ∃ agentId agent agent', s.agents.get agentId = some agent ∧ agent.status = .degraded ∧
      s'.agents.get agentId = some agent' ∧ agent'.status ≠ .degraded ∧ c.sets agentId = false := by
  unfold SparesDegraded at h
  push Not at h
  obtain ⟨planId, stepId, plan, step, agentId, agent, hfinishes, hlocated, hassignee, hagent,
    hdegraded⟩ := h
  have hlost : ∀ task, (agent.dropTask task).status ≠ .degraded := by
    intro task heq
    have hdown : agent.status.down = true := by
      rw [hdegraded]
      rfl
    exact (dropTask_status hdown task).mp (heq.trans hdegraded.symm) hdegraded
  cases he with
  | outcome plan' settled step' goal agentId' agent' actual outcome alerts learning clock located
      working assignee found =>
    cases hfinishes
    obtain ⟨rfl, rfl⟩ := located.unique hlocated
    rw [hassignee] at assignee
    cases assignee
    rw [hagent] at found
    cases found
    exact ⟨agentId, agent, _, hagent, hdegraded, Dict.get_set_self _ _ _, hlost _, rfl⟩
  | cancelled plan' step' goal agents alerts clock located live pools found_goal agents_eq =>
    cases hfinishes
    obtain ⟨rfl, rfl⟩ := located.unique hlocated
    refine ⟨agentId, agent, _, hagent, hdegraded, ?_, hlost (taskId (strip planId) (strip stepId)),
      rfl⟩
    rw [agents_eq, hassignee, releaseAgent]
    dsimp only
    rw [hagent]
    exact Dict.get_set_self _ _ _
  | _ => cases hfinishes

/-- A step an agent works on it worked on before, or it was in service. -/
theorem workers_before (he : Effect s c s') {ref : StepRef}
    (h : s'.workers agentId ref = some ()) : s.workers agentId ref = some () ∨
      ∃ agent, s.agents.get agentId = some agent ∧ agent.status.down = false := by
  have hkept : s'.workers agentId ref = s.workers agentId ref → s.workers agentId ref = some () ∨
      ∃ agent, s.agents.get agentId = some agent ∧ agent.status.down = false :=
    fun heq => .inl (heq.symm.trans h)
  have hplaced : ∀ {step' : Step} {x : StepRef} {key : String} {agent : Agent},
      (∀ y, s'.step y = if y = x then some step' else s.step y) → step'.status = .assigned →
        step'.assignedAgentId = some key → s.agents.get key = some agent →
          agent.status.down = false → s.workers agentId ref = some () ∨
            ∃ agent, s.agents.get agentId = some agent ∧ agent.status.down = false := by
    intro step' x key agent hsteps hassigned hassignee hagent hup
    rw [workers_setStep hsteps, worksFor_working (.inl hassigned) hassignee] at h
    split at h
    · split at h
      · next heq => exact .inr ⟨agent, heq ▸ hagent, hup⟩
      · cases h
    · exact .inl h
  have hfinished : ∀ {step' : Step} {x : StepRef},
      (∀ y, s'.step y = if y = x then some step' else s.step y) → step'.status.live = false →
        s.workers agentId ref = some () := by
    intro step' x hsteps hdead
    rw [workers_setStep hsteps, worksFor_dead hdead] at h
    split at h
    · cases h
    · exact h
  cases he with
  | planCreated plan goal clock new found =>
    exact hkept (workers_fresh (addsFresh_newPlan new.unused rfl new.steps) agentId ref)
  | planReplaced old new goal clock found_old status idle isNew same found =>
    refine hkept (workers_fresh ?_ agentId ref)
    exact addsFresh_replaced found_old isNew.unused isNew.steps rfl rfl
  | allocated plan step clock located =>
    refine hkept (workers_keep (step_setStep located.1 rfl rfl)
      (step_located located.1 located.2) ?_ agentId ref)
    intro id
    rfl
  | assigned plan step agent clock located found active pending dependencies allocation canTake =>
    exact hplaced (step_setStep located.1 rfl rfl) rfl rfl found canTake.up
  | dispatched plan step agent clock located found active pending unallocated dependencies canTake =>
    exact hplaced (step_setStep located.1 rfl rfl) rfl rfl found canTake.up
  | started plan step clock located assigned =>
    refine hkept (workers_keep (step_setStep located.1 rfl rfl)
      (step_located located.1 located.2) ?_ agentId ref)
    intro id
    simp [Step.worksFor, assigned]
  | outcome plan settled step goal agentId' agent actual outcome alerts learning clock located
      working assignee found unrecorded pools found_goal settled_eq =>
    refine .inl (hfinished (step_setStep located.1 rfl ((settle_steps _ settled).trans
      (congrArg Plan.steps settled_eq))) ?_)
    dsimp only
    split
    · rfl
    · rfl
  | cancelled plan step goal agents alerts clock located =>
    exact .inl (hfinished (step_setStep located.1 rfl rfl) rfl)
  | _ => exact hkept (workers_fresh (addsFresh_of_same rfl) agentId ref)

end

/-! ## One call -/

section
variable {py : Python} {l : Ledger} {e : Call × Keywords} {agentId : String} {status : AgentStatus}

theorem agentStatus_some : l.agentStatus agentId = some status ↔
    ∃ s agent, l.state = some s ∧ s.agents.get agentId = some agent ∧ agent.status = status := by
  unfold Ledger.agentStatus
  constructor
  · intro h
    obtain ⟨s, hs, h⟩ := Option.bind_eq_some_iff.mp h
    obtain ⟨agent, hagent, h⟩ := Option.bind_eq_some_iff.mp h
    exact ⟨s, agent, hs, hagent, Option.some.inj h⟩
  · rintro ⟨s, agent, hs, hagent, rfl⟩
    exact Option.bind_eq_some_iff.mpr ⟨s, hs, Option.bind_eq_some_iff.mpr ⟨agent, hagent, rfl⟩⟩

/-- A status out of service comes from a call that sets it, or was there. -/
theorem status_origin (h : (next py l e).agentStatus agentId = some status)
    (hdown : status.down = true) : (next py l e ≠ l ∧ e.1.sets agentId = true) ∨
      l.agentStatus agentId = some status := by
  obtain ⟨s', agent', hs', hagent', rfl⟩ := agentStatus_some.mp h
  cases hs : l.state with
  | some s =>
    rcases next_effect py hs e with hsame | ⟨hne, t, ht, heffect⟩
    · rw [hsame] at h
      exact .inr h
    · rw [hs'] at ht
      cases ht
      rcases down_before (agents_effect heffect) hagent' hdown with hsets | ⟨agent, hagent, heq⟩
      · exact .inl ⟨hne, hsets⟩
      · exact .inr (agentStatus_some.mpr ⟨s, agent, hs, hagent, heq⟩)
  | none =>
    -- the initialized state has no agent
    rcases run_cases py l e with hsame | hcommitted
    · rw [show next py l e = l from hsame, hs] at hs'
      cases hs'
    · have hstep : StateStep e.1 l.state (next py l e).state := commits_state (k := e.2) hcommitted
      rw [hs, hs'] at hstep
      cases hstep with
      | initialized _ stamp => cases hagent'

/-- A call that spares degraded agents leaves the status as it is, and assigns no step. -/
theorem status_kept (h : l.agentStatus agentId = some status) (hdown : status.down = true)
    (hspares : next py l e ≠ l → l.Meets SparesDegraded e.1)
    (hsets : ¬ (next py l e ≠ l ∧ e.1.sets agentId = true)) :
    (next py l e).agentStatus agentId = some status ∧
      ∀ ref, (next py l e).WorksOn agentId ref → l.WorksOn agentId ref := by
  obtain ⟨s, agent, hs, hagent, rfl⟩ := agentStatus_some.mp h
  rcases next_effect py hs e with hsame | ⟨hne, s', hs', heffect⟩
  · rw [hsame]
    exact ⟨h, fun _ => id⟩
  · obtain ⟨agent', hagent', hstatus⟩ := down_after (agents_effect heffect) (hspares hne s hs)
      hagent hdown (Bool.eq_false_iff.mpr fun hset => hsets ⟨hne, hset⟩)
    refine ⟨agentStatus_some.mpr ⟨s', agent', hs', hagent', hstatus⟩, ?_⟩
    rintro ref ⟨t, ht, hworks⟩
    rw [hs'] at ht
    cases ht
    rcases workers_before heffect hworks with hbefore | ⟨other, hother, hup⟩
    · exact ⟨s, hs, hbefore⟩
    · rw [hagent] at hother
      cases hother
      rw [hdown] at hup
      cases hup

/-- A call that does not spare degraded agents takes the status from one. -/
theorem status_lost (hne : next py l e ≠ l) (h : ¬ l.Meets SparesDegraded e.1) :
    ∃ agentId, l.agentStatus agentId = some .degraded ∧ e.1.sets agentId = false ∧
      (next py l e).agentStatus agentId ≠ some .degraded := by
  unfold Ledger.Meets at h
  push Not at h
  obtain ⟨s, hs, hspares⟩ := h
  rcases next_effect py hs e with hsame | ⟨_, s', hs', heffect⟩
  · exact absurd hsame hne
  · obtain ⟨agentId, agent, agent', hagent, hdegraded, hagent', hlost, hsets⟩ :=
      degraded_lost heffect hspares
    refine ⟨agentId, agentStatus_some.mpr ⟨s, agent, hs, hagent, hdegraded⟩, hsets, fun heq => ?_⟩
    obtain ⟨t, other, ht, hother, hstatus⟩ := agentStatus_some.mp heq
    rw [hs'] at ht
    cases ht
    rw [hagent'] at hother
    cases hother
    exact hlost hstatus

end

/-! ## Runs -/

section
variable {py : Python}

/-- The condition of `persists_iff` at one call. -/
def Spared (l : Ledger) (e : Call × Keywords) (l' : Ledger) : Prop :=
  l' ≠ l → l.Meets SparesDegraded e.1

theorem stays_of_spared {l : Ledger} {agentId : String} {status : AgentStatus}
    (hstatus : l.agentStatus agentId = some status) (hdown : status.down = true)
    (calls : List (Call × Keywords)) (h : Along (next py) Spared l calls) :
    Stays py agentId status l calls := by
  induction calls generalizing l with
  | nil => trivial
  | cons e calls ih =>
    by_cases hsets : next py l e ≠ l ∧ e.1.sets agentId = true
    · exact .inl hsets
    · obtain ⟨hkept, hworks⟩ := status_kept hstatus hdown h.1 hsets
      exact .inr ⟨hkept, hworks, ih hkept h.2⟩

theorem persists_of_spared {l : Ledger} (calls : List (Call × Keywords))
    (h : Along (next py) Spared l calls) : Persists py l calls := by
  induction calls generalizing l with
  | nil => trivial
  | cons e calls ih =>
    refine ⟨?_, ih h.2⟩
    intro agentId status _ _ hstatus hdown
    exact stays_of_spared hstatus hdown calls h.2

/-- By induction on the run: the agents that are out of service by now keep their status. -/
theorem spared_of_persists {l : Ledger} (calls : List (Call × Keywords))
    (hstays : ∀ agentId status, l.agentStatus agentId = some status → status.down = true →
      Stays py agentId status l calls) (h : Persists py l calls) :
    Along (next py) Spared l calls := by
  induction calls generalizing l with
  | nil => trivial
  | cons e calls ih =>
    refine ⟨fun hne => ?_, ih ?_ h.2⟩
    · by_contra hspares
      obtain ⟨agentId, hdegraded, hsets, hlost⟩ := status_lost hne hspares
      rcases hstays agentId .degraded hdegraded rfl with ⟨_, hset⟩ | ⟨hkept, _, _⟩
      · rw [hsets] at hset
        cases hset
      · exact hlost hkept
    · intro agentId status hstatus hdown
      by_cases hsets : next py l e ≠ l ∧ e.1.sets agentId = true
      · exact h.1 agentId status hsets.1 hsets.2 hstatus hdown
      · rcases status_origin hstatus hdown with hset | hbefore
        · exact absurd hset hsets
        · rcases hstays agentId status hbefore hdown with hset | ⟨_, _, hrest⟩
          · exact absurd hset hsets
          · exact hrest

/-- What persists stays from each event that set it. -/
theorem Persists.stays {l : Ledger} {calls : List (Call × Keywords)} {e : Call × Keywords}
    {post : List (Call × Keywords)} (h : Persists py l (calls ++ e :: post)) {agentId : String}
    {status : AgentStatus} (hsets : e.1.sets agentId = true) (hdown : status.down = true)
    (hrecorded : next py (exec (next py) l calls) e ≠ exec (next py) l calls)
    (hstatus : (next py (exec (next py) l calls) e).agentStatus agentId = some status) :
    Stays py agentId status (next py (exec (next py) l calls) e) post := by
  induction calls generalizing l with
  | nil => exact h.1 agentId status hrecorded hsets hstatus hdown
  | cons c calls ih => exact ih h.2 hrecorded hstatus

theorem Started.agentStatus {l : Ledger} (h : Started py l) (agentId : String) :
    l.agentStatus agentId = none := by
  cases h with
  | bootstrapped hboot =>
    obtain ⟨stamp, hstamp⟩ := bootstrapWorld_state hboot
    unfold Ledger.agentStatus
    rw [hstamp]
    rfl
  | created => rfl

end

/-- **When an operator's status persists.** In every run of operations from its start, an agent
that `set_agent_status` makes degraded, offline or retired stays so, and no step is assigned to it,
until `set_agent_status` is called for it again, exactly while no recorded outcome or cancellation
is of a step that a degraded agent has. -/
theorem persists_iff (py : Python) (l : Ledger) (h : Started py l) (calls : List (Call × Keywords)) :
    Persists py l calls ↔
      Along (next py) (fun l e l' => l' ≠ l → l.Meets SparesDegraded e.1) l calls := by
  constructor
  · intro hpersists
    refine spared_of_persists calls ?_ hpersists
    intro agentId status hstatus
    rw [h.agentStatus] at hstatus
    cases hstatus
  · exact persists_of_spared calls

/-- An agent starts to work on a step, and is then degraded. -/
def startedPump : List (Call × Keywords) :=
  [(.registerAgent "agent-1" "human" [] 1 (.obj []) (.obj []), sampleKeywords "event-1" 0),
   (.createGoal "goal-1" "Restore the service" 50 none [] none none [] true,
      sampleKeywords "event-2" 1),
   (.createPlan "plan-1" "goal-1"
      [.obj [("step_id", .str "step-1"), ("action", .str "Run the pump")]]
      "2026-01-01T00:00:00+00:00" none, sampleKeywords "event-3" 2),
   (.dispatchStep "plan-1" "step-1" "agent-1", sampleKeywords "event-4" 3)]

def degrade : Call × Keywords := (.setAgentStatus "agent-1" "DEGRADED", sampleKeywords "event-5" 4)

/-- The step it works on succeeds. -/
def finishPump : Call × Keywords :=
  (.recordStepOutcome "plan-1" "step-1" true "the pump runs again" (.obj []) "outcome-1" [],
    sampleKeywords "event-6" 5)

theorem persists_pump :
    Persists samplePython sampleLedger (startedPump ++ [degrade]) ↔
      Along (next samplePython) (fun l e l' => l' ≠ l → l.Meets SparesDegraded e.1) sampleLedger
        (startedPump ++ [degrade]) :=
  persists_iff samplePython sampleLedger (.bootstrapped sampleLedger_bootstrapped) _

/-- **A degraded agent is available again.** The outcome of the step it had makes it so, with no
`set_agent_status` in between. -/
theorem degraded_agent_returns :
    bootstrapWorld samplePython (.obj []) "operator" "approval-1" [] none 1767225600000000 =
      .ok sampleLedger ∧
    ¬ ∀ calls, Persists samplePython sampleLedger calls := by
  refine ⟨sampleLedger_bootstrapped, fun hall => ?_⟩
  let working := exec (next samplePython) sampleLedger startedPump
  have hrecorded : next samplePython working degrade ≠ working := by
    intro heq
    have hversion : (next samplePython working degrade).version ≠ working.version := by
      decide +kernel
    exact hversion (congrArg Ledger.version heq)
  have hstays : Stays samplePython "agent-1" .degraded (next samplePython working degrade)
      [finishPump] :=
    (hall (startedPump ++ degrade :: [finishPump])).stays (by decide +kernel) rfl hrecorded
      (by decide +kernel)
  rcases hstays with ⟨_, hsets⟩ | ⟨hkept, _, _⟩
  · cases hsets
  · have hreturned : (next samplePython (next samplePython working degrade) finishPump).agentStatus
        "agent-1" = some .available := by decide +kernel
    rw [hreturned] at hkept
    cases hkept

end Edon.Operations
