import EdonPlatform.Operations.AgentStatus
import EdonPlatform.Operations.Readiness

/- Whether the proposals of `assignment_proposals` can be carried out together
   (edon/operations/control.py). Each selection of an agent counts for the proposals after it;
   the pools are those of the state for every proposal, and so is what a step has allocated
   already, at which `dispatch_step` stops.

   What is proved: `proposals_dispatch_iff`, that in a reachable world the dispatchable proposals
   are dispatched one after another exactly when none of their steps has anything allocated and
   each pool has free what their steps request of it together. `two_pumps_one_tank` are two
   proposals that compete for a pool.

   The argument follows the proposals: `Ahead` says how the world after some dispatches stands to
   the state the proposals were computed from. -/
namespace Edon.Operations
open World Transition

/-- The call that carries out a proposal marked dispatchable. -/
def AssignmentProposal.dispatch (p : AssignmentProposal) : Option Call :=
  if p.dispatchable then p.recommendedAgentId.map (.dispatchStep p.planId p.stepId) else none

/-- The steps of the proposals marked dispatchable. -/
def dispatchableSteps (s : OperationalState) (proposals : List AssignmentProposal) : List Step :=
  (proposals.filter fun p => p.dispatchable).filterMap fun p => s.step (p.planId, p.stepId)

/-- What steps request of a resource together. -/
def demand (steps : List Step) (r : String) : Rat :=
  (steps.map fun step => (step.resourceRequests.get r).getD 0).sum

/-- Keyword arguments under which events can be recorded one after another. -/
structure InTurn (py : Python) (l : Ledger) (ks : List Keywords) : Prop where
  fresh : ∀ k ∈ ks, l.Fresh k.eventId
  distinct : (ks.map fun k => strip k.eventId).Nodup
  accountable : ∀ k ∈ ks, k.Accountable
  time : ∀ k ∈ ks, ∃ stamp, k.stamp py = .ok stamp
  versions : ∀ (i : Nat) (k : Keywords), ks[i]? = some k → k.expectedVersion = l.version + i

theorem InTurn.tail {py : Python} {l : Ledger} {k : Keywords} {ks : List Keywords}
    (h : InTurn py l (k :: ks)) (s : OperationalState) {request : Request}
    (hid : request.eventId = strip k.eventId) : InTurn py (l.record s request) ks := by
  obtain ⟨hk, hdistinct⟩ := List.nodup_cons.mp h.distinct
  refine ⟨?_, hdistinct, fun k' hk' => h.accountable k' (List.mem_cons_of_mem _ hk'),
    fun k' hk' => h.time k' (List.mem_cons_of_mem _ hk'), ?_⟩
  · intro k' hk'
    refine (h.fresh k' (List.mem_cons_of_mem _ hk')).record fun heq => hk ?_
    exact List.mem_map.mpr ⟨k', hk', heq.symm.trans hid⟩
  · intro i k' hk'
    have hversion := h.versions (i + 1) k' hk'
    show k'.expectedVersion = l.version + 1 + i
    omega

/-! ## The listing has a step once -/

/-- The step of an entry of the listing. -/
def ReadyStep.ref (r : ReadyStep) : StepRef := (r.planId, r.step.stepId)

theorem readyStep_ready {current : Instant} {plan : Plan} {goal : Goal} {e : String × Nat}
    {o : Option Urgency} (h : readyStep current plan goal e = .ok o) {u : Urgency} (hu : u ∈ o) :
    ∃ step, plan.steps.get e.1 = some step ∧ u.ready = listed plan.planId plan goal step := by
  obtain ⟨step, hstep, h⟩ := bind_ok.mp h
  split at h
  · cases h
    cases hu
  · obtain ⟨done, _, h⟩ := bind_ok.mp h
    split at h
    · cases h
      cases hu
    · cases h
      cases hu
      exact ⟨step, orRaise_ok.mp hstep, rfl⟩

/-- The queue of a plan follows its order. -/
theorem queue_sublist {current : Instant} {plan : Plan} {goal : Goal} (hbuilt : plan.Built)
    {es : List (String × Nat)} {os : List (Option Urgency)}
    (h : es.mapM (readyStep current plan goal) = .ok os) :
    ((os.filterMap id).map fun u => u.ready.ref).Sublist
      (es.map fun e => (plan.planId, e.1)) := by
  induction es generalizing os with
  | nil =>
    cases h
    exact List.Sublist.refl _
  | cons e es ih =>
    rw [List.mapM_cons] at h
    obtain ⟨o, ho, h⟩ := bind_ok.mp h
    obtain ⟨os', hos, h⟩ := bind_ok.mp h
    cases h
    cases o with
    | none => exact (ih hos).cons _
    | some u =>
      obtain ⟨step, hstep, hready⟩ := readyStep_ready ho rfl
      have href : u.ready.ref = (plan.planId, e.1) := by
        rw [hready]
        exact Prod.ext rfl (hbuilt.named e.1 step hstep).1
      show List.Sublist (u.ready.ref :: _) _
      rw [href]
      exact (ih hos).cons_cons _

theorem readyOfPlan_refs {s : OperationalState} {current : Instant} {planId : String} {plan : Plan}
    {queue : List Urgency} (hbuilt : plan.Built)
    (h : readyOfPlan s current planId plan = .ok queue) :
    (queue.map fun u => u.ready.ref).Nodup ∧ ∀ u ∈ queue, u.ready.ref.1 = planId := by
  unfold readyOfPlan at h
  split at h
  · cases h
    exact ⟨List.nodup_nil, by simp⟩
  · split at h
    · obtain ⟨os, hos, h⟩ := bind_ok.mp h
      cases h
      have hbuilt' : Plan.Built { plan with planId } :=
        ⟨hbuilt.once, hbuilt.named, hbuilt.requests⟩
      have hsublist := queue_sublist hbuilt' hos
      constructor
      · refine hsublist.nodup ?_
        rw [show (fun e : String × Nat => (planId, e.1)) = Prod.mk planId ∘ Prod.fst from rfl,
          ← List.map_map, List.zipIdx_map_fst]
        exact hbuilt.once.map fun _ _ heq => (Prod.mk.inj heq).2
      · intro u hu
        have hmem := hsublist.subset (List.mem_map_of_mem hu)
        obtain ⟨e, _, heq⟩ := List.mem_map.mp hmem
        exact (congrArg Prod.fst heq).symm
    · cases h
      exact ⟨List.nodup_nil, by simp⟩

/-- The queues of different plans have no step in common. -/
theorem queues_nodup {s : OperationalState} {current : Instant} {es : List (String × Plan)}
    (hkeys : (es.map Prod.fst).Nodup) (hbuilt : ∀ e ∈ es, e.2.Built) {queued : List (List Urgency)}
    (h : es.mapM (fun e => readyOfPlan s current e.1 e.2) = .ok queued) :
    (queued.flatten.map fun u => u.ready.ref).Nodup := by
  induction es generalizing queued with
  | nil =>
    cases h
    exact List.nodup_nil
  | cons e es ih =>
    rw [List.mapM_cons] at h
    obtain ⟨queue, hqueue, h⟩ := bind_ok.mp h
    obtain ⟨queued', hqueued, h⟩ := bind_ok.mp h
    cases h
    obtain ⟨hfirst, hrest⟩ := List.nodup_cons.mp hkeys
    obtain ⟨hnodup, hplan⟩ := readyOfPlan_refs (hbuilt e List.mem_cons_self) hqueue
    show ((queue ++ queued'.flatten).map _).Nodup
    rw [List.map_append]
    refine List.nodup_append.mpr ⟨hnodup,
      ih hrest (fun e' he' => hbuilt e' (List.mem_cons_of_mem _ he')) hqueued, ?_⟩
    intro ref href other hother heq
    obtain ⟨u, hu, hu'⟩ := List.mem_map.mp href
    obtain ⟨v, hv, hv'⟩ := List.mem_map.mp hother
    obtain ⟨queue', hmem, hv⟩ := List.mem_flatten.mp hv
    obtain ⟨e', he', hrun⟩ := mem_of_mapM hqueued queue' hmem
    have hplan' := (readyOfPlan_refs (hbuilt e' (List.mem_cons_of_mem _ he')) hrun).2 v hv
    rw [hv', ← heq, ← hu', hplan u hu] at hplan'
    exact hfirst (hplan' ▸ List.mem_map_of_mem he')

theorem readySteps_nodup {s : OperationalState} {current : Instant} {ready : List ReadyStep}
    (hbuilt : ∀ id plan, s.plans.get id = some plan → plan.Built)
    (h : readySteps s current = .ok ready) : (ready.map ReadyStep.ref).Nodup := by
  obtain ⟨queued, hqueued, h⟩ := bind_ok.mp h
  cases h
  have hnodup := queues_nodup s.plans.keys_nodup
    (fun e he => hbuilt e.1 e.2 (Dict.mem_entries.mp he)) hqueued
  rw [List.map_map]
  refine (List.Perm.nodup_iff ?_).mp hnodup
  exact ((List.perm_insertionSort moreUrgent queued.flatten).map _).symm

/-! ## What the steps need of the pools -/

/-- The amount is free in a pool of which `used` has been taken since. -/
def FitsStep (s : OperationalState) (used : String → Rat) (step : Step) : Prop :=
  ∀ r amount, step.resourceRequests.get r = some amount →
    ∃ pool, s.resourcePools.get r = some pool ∧
      amount ≤ pool.capacity - (pool.allocated + used r)

/-- What is used of a resource once the step has what it requests. -/
def use (used : String → Rat) (step : Step) (r : String) : Rat :=
  used r + (step.resourceRequests.get r).getD 0

/-- The steps can be given what they request, one after another. -/
def Fits (s : OperationalState) : (String → Rat) → List Step → Prop
  | _, [] => True
  | used, step :: steps =>
    (step.resourceAllocation = ∅ ∧ FitsStep s used step) ∧ Fits s (use used step) steps

theorem demand_cons (step : Step) (steps : List Step) (r : String) :
    demand (step :: steps) r = (step.resourceRequests.get r).getD 0 + demand steps r :=
  List.sum_cons

theorem demand_nonneg {steps : List Step}
    (h : ∀ step ∈ steps, ∀ r amount, step.resourceRequests.get r = some amount → 0 ≤ amount)
    (r : String) : 0 ≤ demand steps r := by
  refine List.sum_nonneg fun x hx => ?_
  obtain ⟨step, hstep, rfl⟩ := List.mem_map.mp hx
  cases hr : step.resourceRequests.get r with
  | none => exact le_refl 0
  | some amount => exact h step hstep r amount hr

/-- Taking turns makes no difference to what the pools must have free. -/
theorem fits_iff {s : OperationalState} {steps : List Step}
    (hnonneg : ∀ step ∈ steps, ∀ r amount, step.resourceRequests.get r = some amount → 0 ≤ amount)
    (hpools : ∀ step ∈ steps, HasPools s step.resourceRequests) {used : String → Rat}
    (hused : ∀ r pool, s.resourcePools.get r = some pool →
      used r ≤ pool.capacity - pool.allocated) :
    Fits s used steps ↔ (∀ step ∈ steps, step.resourceAllocation = ∅) ∧
      ∀ r pool, s.resourcePools.get r = some pool →
        used r + demand steps r ≤ pool.capacity - pool.allocated := by
  induction steps generalizing used with
  | nil => simpa [Fits, demand] using hused
  | cons step steps ih =>
    have hrest := @ih (fun other h => hnonneg other (List.mem_cons_of_mem _ h))
      (fun other h => hpools other (List.mem_cons_of_mem _ h)) (use used step)
    have hdemand := demand_nonneg fun other h => hnonneg other (List.mem_cons_of_mem step h)
    -- what the step requests fits, in terms of what is used after it
    have hfits : FitsStep s used step ↔ ∀ r pool, s.resourcePools.get r = some pool →
        use used step r ≤ pool.capacity - pool.allocated := by
      constructor
      · intro h r pool hpool
        unfold use
        cases hr : step.resourceRequests.get r with
        | none => simpa using hused r pool hpool
        | some amount =>
          obtain ⟨pool', hpool', hamount⟩ := h r amount hr
          rw [hpool] at hpool'
          cases hpool'
          show used r + amount ≤ _
          linarith
      · intro h r amount hr
        obtain ⟨pool, hpool⟩ := hpools step List.mem_cons_self r amount hr
        have huse := h r pool hpool
        unfold use at huse
        rw [hr] at huse
        refine ⟨pool, hpool, ?_⟩
        change used r + amount ≤ _ at huse
        linarith
    have hsum : ∀ r, use used step r + demand steps r = used r + demand (step :: steps) r := by
      intro r
      rw [demand_cons]
      exact add_assoc _ _ _
    unfold Fits
    rw [hfits, List.forall_mem_cons]
    constructor
    · rintro ⟨⟨hallocation, huse⟩, hsteps⟩
      obtain ⟨hallocations, htotal⟩ := (hrest huse).mp hsteps
      refine ⟨⟨hallocation, hallocations⟩, fun r pool hpool => ?_⟩
      rw [← hsum]
      exact htotal r pool hpool
    · rintro ⟨⟨hallocation, hallocations⟩, htotal⟩
      have huse : ∀ r pool, s.resourcePools.get r = some pool →
          use used step r ≤ pool.capacity - pool.allocated := by
        intro r pool hpool
        have := htotal r pool hpool
        rw [← hsum] at this
        have := hdemand r
        linarith
      refine ⟨⟨hallocation, huse⟩, (hrest huse).mpr ⟨hallocations, fun r pool hpool => ?_⟩⟩
      rw [hsum]
      exact htotal r pool hpool

/-! ## The world after some dispatches -/

/-- How `t` stands to the state `s` the proposals were computed from: the agents have at most the
loads counted so far, of the pools `used` has been taken, and the steps that are left wait as they
did. -/
structure Ahead (s t : OperationalState) (load : Dict String Int) (used : String → Rat)
    (rest : List ReadyStep) : Prop where
  waiting : ∀ r ∈ rest, ∃ plan, t.plans.get r.planId = some plan ∧
    plan.steps.get r.step.stepId = some r.step ∧ plan.status = .active ∧
      r.step.status = .pending ∧ DependenciesDone plan r.step
  once : (rest.map ReadyStep.ref).Nodup
  agents : ∀ id agent, s.agents.get id = some agent → ∃ agent', t.agents.get id = some agent' ∧
    (agent.status = .available ∨ agent.status = .busy →
      agent'.status = .available ∨ agent'.status = .busy) ∧
    agent'.capabilities = agent.capabilities ∧ agent'.maxConcurrent = agent.maxConcurrent ∧
      (agent'.activeTasks.length : Int) ≤ (load.get id).getD 0
  pools : ∀ r pool, s.resourcePools.get r = some pool → ∃ pool', t.resourcePools.get r = some pool' ∧
    pool'.capacity = pool.capacity ∧ pool'.allocated = pool.allocated + used r

/-- The load with one more task for the agent. -/
def addLoad (load : Dict String Int) (agentId : String) : Dict String Int :=
  load.set agentId ((load.get agentId).getD 0 + 1)

section
variable {s t : OperationalState} {load : Dict String Int} {used : String → Rat} {r : ReadyStep}
  {rest : List ReadyStep}

/-- A proposal that is not carried out. -/
theorem Ahead.skip (h : Ahead s t load used (r :: rest)) : Ahead s t load used rest :=
  ⟨fun r' hr' => h.waiting r' (List.mem_cons_of_mem _ hr'), (List.nodup_cons.mp h.once).2, h.agents,
    h.pools⟩

theorem Ahead.counted (h : Ahead s t load used rest) (agentId : String) :
    Ahead s t (addLoad load agentId) used rest := by
  refine ⟨h.waiting, h.once, fun id agent hagent => ?_, h.pools⟩
  obtain ⟨agent', hagent', hup, hcapabilities, hmax, hload⟩ := h.agents id agent hagent
  refine ⟨agent', hagent', hup, hcapabilities, hmax, ?_⟩
  unfold addLoad
  rw [Dict.get_set]
  split
  · next heq =>
    rw [heq]
    exact le_trans hload (by simp)
  · exact hload

/-- The state after the dispatch of a step. -/
theorem updates_dispatchDraft {planId stepId agentId : String} {plan : Plan} {step : Step}
    {agent : Agent} {stamp : Instant} {pools : List Change}
    (hpools : poolChanges t step.resourceRequests (Pool.reserve (taskId planId stepId)) =
      .ok pools) :
    updates (dispatchDraft planId stepId agentId plan step agent stamp pools).changes t = { t with
      resourcePools := t.resourcePools.adjust (Pool.reserve (taskId planId stepId))
        step.resourceRequests
      plans := t.plans.set planId
        (plan.write stepId (step.allocateAll.assignTo agentId stamp) stamp)
      agents := t.agents.set agentId (agent.addTask (taskId planId stepId))
      clock := stamp } := by
  unfold dispatchDraft
  rw [updates_append, (poolChanges_ok hpools).2]
  rfl

/-- A step was dispatched to an agent that had load to spare. -/
theorem Ahead.dispatched (h : Ahead s t load used (r :: rest)) {plan : Plan}
    (hplan : t.plans.get r.planId = some plan) (hstep : plan.steps.get r.step.stepId = some r.step)
    {agentId : String} {agent : Agent} (hagent : t.agents.get agentId = some agent)
    (hload : (agent.activeTasks.length : Int) ≤ (load.get agentId).getD 0) (stamp : Instant)
    {step' : Step} {t' : OperationalState}
    (hpools' : t'.resourcePools = t.resourcePools.adjust
      (Pool.reserve (taskId r.planId r.step.stepId)) r.step.resourceRequests)
    (hplans' : t'.plans = t.plans.set r.planId (plan.write r.step.stepId step' stamp))
    (hagents' : t'.agents = t.agents.set agentId
      (agent.addTask (taskId r.planId r.step.stepId))) :
    Ahead s t' (addLoad load agentId) (use used r.step) rest := by
  obtain ⟨hfirst, honce⟩ := List.nodup_cons.mp h.once
  refine ⟨?_, honce, ?_, ?_⟩
  · intro r' hr'
    obtain ⟨plan', hplan', hstep', hactive, hpending, hdependencies⟩ :=
      h.waiting r' (List.mem_cons_of_mem _ hr')
    rw [hplans', Dict.get_set]
    split
    · next heq =>
      -- another step of the same plan
      rw [← heq, hplan] at hplan'
      cases hplan'
      have hne : r.step.stepId ≠ r'.step.stepId := by
        intro hsame
        refine hfirst (List.mem_map.mpr ⟨r', hr', ?_⟩)
        exact Prod.ext heq.symm hsame.symm
      obtain ⟨_, hplan'', _, _, hwaits, _⟩ := h.waiting r List.mem_cons_self
      refine ⟨_, rfl, ?_, hactive, hpending, hdependencies.write hstep hwaits step' stamp⟩
      show (plan.steps.set r.step.stepId step').get r'.step.stepId = some r'.step
      rw [Dict.get_set_ne _ _ hne]
      exact hstep'
    · exact ⟨plan', hplan', hstep', hactive, hpending, hdependencies⟩
  · intro id other hother
    obtain ⟨other', hother', hup, hcapabilities, hmax, hother_load⟩ := h.agents id other hother
    rw [hagents', Dict.get_set]
    unfold addLoad
    rw [Dict.get_set]
    split
    · next heq =>
      rw [← heq, hagent] at hother'
      cases hother'
      refine ⟨_, rfl, fun _ => withTasks_status _ _, hcapabilities, hmax, ?_⟩
      have hlength := sortedSet_length_le (agent.activeTasks ++ [taskId r.planId r.step.stepId])
      rw [List.length_append] at hlength
      show ((sortedSet (agent.activeTasks ++ [taskId r.planId r.step.stepId])).length : Int) ≤ _
      simp only [List.length_cons, List.length_nil, Option.getD_some] at hlength ⊢
      omega
    · exact ⟨other', hother', hup, hcapabilities, hmax, hother_load⟩
  · intro id pool hpool
    obtain ⟨pool', hpool', hcapacity, hallocated⟩ := h.pools id pool hpool
    rw [hpools', Dict.get_adjust, hpool']
    unfold use
    cases hrequest : r.step.resourceRequests.get id with
    | none =>
      refine ⟨pool', rfl, hcapacity, ?_⟩
      rw [hallocated]
      simp
    | some amount =>
      refine ⟨pool'.reserve (taskId r.planId r.step.stepId) amount, rfl, hcapacity, ?_⟩
      show pool'.allocated + amount = pool.allocated + (used id + amount)
      rw [hallocated]
      exact add_assoc _ _ _

end

/-! ## One proposal -/

theorem Reachable.next {py : Python} {l : Ledger} (h : Reachable py l) (e : Call × Keywords) :
    Reachable py (Operations.next py l e) := by
  obtain ⟨start, calls, hstarted, rfl⟩ := h
  refine ⟨start, calls ++ [e], hstarted, ?_⟩
  rw [exec_append]
  rfl

theorem selectAgent_ok {s : OperationalState} {load : Dict String Int} {step : Step}
    {agentId : String} (h : selectAgent s load step = some agentId) :
    ∃ agent, s.agents.get agentId = some agent ∧
      agent.suits ((load.get agentId).getD 0) step = true := by
  obtain ⟨e, he, rfl⟩ := Option.map_eq_some_iff.mp h
  have hsuits := List.find?_some he
  exact ⟨e.2, Dict.mem_entries.mp (List.mem_of_find?_eq_some he), hsuits⟩

theorem resourceFeasible_ok {s : OperationalState} {step : Step}
    (h : resourceFeasible s step = true) : HasPools s step.resourceRequests := by
  intro r amount hr
  have hpool := List.all_eq_true.mp h (r, amount) (Dict.mem_entries.mpr hr)
  cases hget : s.resourcePools.get r with
  | none =>
    rw [hget] at hpool
    cases hpool
  | some pool => exact ⟨pool, rfl⟩

section
variable {py : Python} {l : Ledger} {s t : OperationalState} {load : Dict String Int}
  {used : String → Rat} {r : ReadyStep} {rest : List ReadyStep} {agentId : String} {k : Keywords}
  {ks : List Keywords}

/-- What is free in the pools of `t`, said of those of `s`. -/
theorem Ahead.free_iff (h : Ahead s t load used (r :: rest))
    (hpools : HasPools s r.step.resourceRequests) :
    Free t r.step.resourceRequests ↔ FitsStep s used r.step := by
  constructor
  · intro hfree id amount hrequest
    obtain ⟨pool, hpool⟩ := hpools id amount hrequest
    obtain ⟨pool', hpool', hcapacity, hallocated⟩ := h.pools id pool hpool
    obtain ⟨pool'', hpool'', hamount⟩ := hfree id amount hrequest
    rw [hpool'] at hpool''
    cases hpool''
    rw [hcapacity, hallocated] at hamount
    exact ⟨pool, hpool, hamount⟩
  · intro hfits id amount hrequest
    obtain ⟨pool, hpool, hamount⟩ := hfits id amount hrequest
    obtain ⟨pool', hpool', hcapacity, hallocated⟩ := h.pools id pool hpool
    refine ⟨pool', hpool', ?_⟩
    rw [hcapacity, hallocated]
    exact hamount

/-- The selected agent takes the step. -/
theorem Ahead.takes (h : Ahead s t load used (r :: rest)) (hkeys : AllKeys IsIdentifier t)
    (hselect : selectAgent s load r.step = some agentId) : strip agentId = agentId ∧ ∃ agent,
      Takes t agentId r.step agent ∧
        (agent.activeTasks.length : Int) ≤ (load.get agentId).getD 0 := by
  obtain ⟨agent, hagent, hsuits⟩ := selectAgent_ok hselect
  obtain ⟨agent', hagent', hup, hcapabilities, hmax, hload⟩ := h.agents agentId agent hagent
  obtain ⟨hstatus, hcapacity, hcapable⟩ := of_decide_eq_true hsuits
  have hid := hkeys.agents agentId agent' hagent'
  refine ⟨hid.stripped, agent', ⟨?_, ?_, ⟨hup hstatus, ?_, ?_⟩⟩, hload⟩
  · exact IsIdentifier.identifies (by rw [hid.stripped]; exact hid) "agent_id"
  · rw [hid.stripped]
    exact hagent'
  · rw [hmax]
    exact lt_of_le_of_lt hload hcapacity
  · rw [hcapabilities]
    exact hcapable

/-- The next proposal is carried out exactly when nothing is allocated to its step and the pools
still have what it requests; and then the rest stands as it did. -/
theorem Ahead.dispatch (hreachable : Reachable py l) (hl : l.state = some t)
    (h : Ahead s t load used (r :: rest)) (hselect : selectAgent s load r.step = some agentId)
    (hpools : HasPools s r.step.resourceRequests) (hks : InTurn py l (k :: ks)) :
    (Succeeds (runCall py l (.dispatchStep r.planId r.step.stepId agentId, k)) ↔
      r.step.resourceAllocation = ∅ ∧ FitsStep s used r.step) ∧
    (r.step.resourceAllocation = ∅ ∧ FitsStep s used r.step → ∃ t',
      (next py l (.dispatchStep r.planId r.step.stepId agentId, k)).state = some t' ∧
        Ahead s t' (addLoad load agentId) (use used r.step) rest ∧
          InTurn py (next py l (.dispatchStep r.planId r.step.stepId agentId, k)) ks) := by
  have hrecords := hreachable.recordsSound t hl
  obtain ⟨plan, hplan, hstep, hactive, hpending, hdependencies⟩ := h.waiting r List.mem_cons_self
  have hplanId := hrecords.keys.plans _ _ hplan
  have hstepId := ((hrecords.built _ _ hplan).named _ _ hstep).2
  have hlocated : Located t r.planId r.step.stepId plan r.step := by
    unfold Located
    rw [hplanId.stripped, hstepId.stripped]
    exact ⟨hplan, hstep⟩
  obtain ⟨hagentId, agent, htakes, hload⟩ := h.takes hrecords.keys hselect
  have hfresh := hks.fresh k List.mem_cons_self
  have hversion : k.expectedVersion = l.version := by
    have := hks.versions 0 k rfl
    simpa using this
  obtain ⟨stamp, hstamp⟩ := hks.time k List.mem_cons_self
  have hallocatable : FitsStep s used r.step → ∃ pools,
      Allocatable py t r.planId r.step.stepId plan r.step k stamp pools := by
    intro hfits
    have hfree := (h.free_iff hpools).mpr hfits
    obtain ⟨pools, hchanges⟩ := poolChanges_succeeds
      (Pool.reserve (taskId (strip r.planId) (strip r.step.stepId))) hfree.hasPools
    exact ⟨pools, IsIdentifier.identifies (by rw [hplanId.stripped]; exact hplanId) "plan_id",
      IsIdentifier.identifies (by rw [hstepId.stripped]; exact hstepId) "step_id", hactive,
      hdependencies, hfree, hstamp, hchanges, hks.accountable k List.mem_cons_self,
      keysOk_pools hchanges hrecords.keys⟩
  constructor
  · constructor
    · intro hsucceeds
      obtain ⟨d, hd⟩ := hsucceeds.draft
      rw [hl] at hd
      obtain ⟨-, -, -, plan', step', _, _, _, hlocated', -, -, -, hunallocated, -, -, hfree, -⟩ :=
        dispatchStep_iff.mp (draft_dispatch ▸ hd)
      obtain ⟨-, hsame⟩ := hlocated.unique hlocated'
      rw [hsame] at hunallocated hfree
      exact ⟨hunallocated, (h.free_iff hpools).mp hfree⟩
    · intro ⟨hunallocated, hfits⟩
      obtain ⟨pools, hready⟩ := hallocatable hfits
      exact (dispatched_iff hl hlocated hpending hunallocated hfresh).mpr
        ⟨⟨stamp, pools, hready⟩, ⟨agent, htakes⟩, hversion⟩
  · intro ⟨hunallocated, hfits⟩
    obtain ⟨pools, hready⟩ := hallocatable hfits
    obtain ⟨request, hid, hrun⟩ :=
      dispatched_run hl hlocated hpending hunallocated hfresh hready htakes hversion
    have hnext := congrArg Prod.snd hrun
    change next py l _ = _ at hnext
    rw [updates_dispatchDraft hready.reserved, hplanId.stripped, hstepId.stripped, hagentId] at hnext
    rw [hnext]
    refine ⟨_, rfl, ?_, hks.tail _ hid⟩
    exact h.dispatched hplan hstep (hagentId ▸ htakes.found) hload stamp rfl rfl rfl

end

/-! ## All proposals -/

/-- The calls that carry out the proposals marked dispatchable, in the order of the list. -/
def dispatches (proposals : List AssignmentProposal) : List Call :=
  proposals.filterMap AssignmentProposal.dispatch

/-- Every call of a run succeeds. -/
def AllSucceed (py : Python) (l : Ledger) (calls : List (Call × Keywords)) : Prop :=
  Along (next py) (fun l e _ => Succeeds (runCall py l e)) l calls

section
variable {py : Python} {s : OperationalState}

theorem dispatches_skip {p : AssignmentProposal} (h : p.dispatchable = false)
    (ps : List AssignmentProposal) : dispatches (p :: ps) = dispatches ps := by
  unfold dispatches
  rw [List.filterMap_cons, AssignmentProposal.dispatch, if_neg (Bool.eq_false_iff.mp h)]

theorem dispatchableSteps_skip {p : AssignmentProposal} (h : p.dispatchable = false)
    (ps : List AssignmentProposal) : dispatchableSteps s (p :: ps) = dispatchableSteps s ps := by
  unfold dispatchableSteps
  rw [List.filter_cons, if_neg (Bool.eq_false_iff.mp h)]

theorem dispatches_take {p : AssignmentProposal} (h : p.dispatchable = true) {agentId : String}
    (hagent : p.recommendedAgentId = some agentId) (ps : List AssignmentProposal) :
    dispatches (p :: ps) = .dispatchStep p.planId p.stepId agentId :: dispatches ps := by
  unfold dispatches
  rw [List.filterMap_cons, AssignmentProposal.dispatch, if_pos h, hagent]
  rfl

theorem dispatchableSteps_take {p : AssignmentProposal} (h : p.dispatchable = true) {step : Step}
    (hstep : s.step (p.planId, p.stepId) = some step) (ps : List AssignmentProposal) :
    dispatchableSteps s (p :: ps) = step :: dispatchableSteps s ps := by
  unfold dispatchableSteps
  rw [List.filter_cons, if_pos h, List.filterMap_cons, hstep]

theorem proposeAll_none {load : Dict String Int} {r : ReadyStep}
    (h : selectAgent s load r.step = none) (rest : List ReadyStep) :
    proposeAll py s load (r :: rest) = proposal py s r none :: proposeAll py s load rest := by
  conv_lhs => unfold proposeAll
  rw [h]
  rfl

theorem proposeAll_some {load : Dict String Int} {r : ReadyStep} {agentId : String}
    (h : selectAgent s load r.step = some agentId) (rest : List ReadyStep) :
    proposeAll py s load (r :: rest) =
      proposal py s r (some agentId) :: proposeAll py s (addLoad load agentId) rest := by
  conv_lhs => unfold proposeAll
  rw [h]
  rfl

/-- By induction on the proposals that are left. -/
theorem dispatches_iff (ready : List ReadyStep) {l : Ledger} {t : OperationalState}
    {load : Dict String Int} {used : String → Rat} {ks : List Keywords}
    (hreachable : Reachable py l) (hl : l.state = some t) (h : Ahead s t load used ready)
    (hsteps : ∀ r ∈ ready, s.step r.ref = some r.step) (hks : InTurn py l ks)
    (hlength : ks.length = (dispatches (proposeAll py s load ready)).length) :
    AllSucceed py l ((dispatches (proposeAll py s load ready)).zip ks) ↔
      Fits s used (dispatchableSteps s (proposeAll py s load ready)) := by
  induction ready generalizing l t load used ks with
  | nil => exact Iff.rfl
  | cons r rest ih =>
    have hrest : ∀ r' ∈ rest, s.step r'.ref = some r'.step :=
      fun r' hr' => hsteps r' (List.mem_cons_of_mem _ hr')
    cases hselect : selectAgent s load r.step with
    | none =>
      rw [proposeAll_none hselect] at hlength ⊢
      have hskip : (proposal py s r none).dispatchable = false := rfl
      rw [dispatches_skip hskip] at hlength
      rw [dispatches_skip hskip, dispatchableSteps_skip hskip]
      exact ih hreachable hl h.skip hrest hks hlength
    | some agentId =>
      rw [proposeAll_some hselect] at hlength ⊢
      cases hfeasible : resourceFeasible s r.step with
      | false =>
        have hskip : (proposal py s r (some agentId)).dispatchable = false := by
          simp [proposal, hfeasible]
        rw [dispatches_skip hskip] at hlength
        rw [dispatches_skip hskip, dispatchableSteps_skip hskip]
        exact ih hreachable hl (h.skip.counted agentId) hrest hks hlength
      | true =>
        have htake : (proposal py s r (some agentId)).dispatchable = true := by
          simp [proposal, hfeasible]
        rw [dispatches_take htake rfl] at hlength
        rw [dispatches_take htake rfl, dispatchableSteps_take htake (hsteps r List.mem_cons_self)]
        cases ks with
        | nil => cases hlength
        | cons k ks =>
          obtain ⟨hiff, hafter⟩ := h.dispatch hreachable hl hselect (resourceFeasible_ok hfeasible)
            hks
          constructor
          · intro ⟨hsucceeds, hothers⟩
            have hfits := hiff.mp hsucceeds
            obtain ⟨t', ht', hahead, hks'⟩ := hafter hfits
            exact ⟨hfits, (ih (hreachable.next _) ht' hahead hrest hks'
              (Nat.succ.inj hlength)).mp hothers⟩
          · intro ⟨hfits, hothers⟩
            obtain ⟨t', ht', hahead, hks'⟩ := hafter hfits
            exact ⟨hiff.mpr hfits, (ih (hreachable.next _) ht' hahead hrest hks'
              (Nat.succ.inj hlength)).mpr hothers⟩

end

/-- The proposals are made from where no one has been ahead. -/
theorem ahead_start {s : OperationalState} {current : Instant} {ready : List ReadyStep}
    (hsound : PlansSound s) (hrecords : RecordsSound s) (hready : readySteps s current = .ok ready) :
    Ahead s s (s.agents.map fun _ agent => (agent.activeTasks.length : Int)) (fun _ => 0) ready := by
  refine ⟨?_, readySteps_nodup hrecords.built hready, ?_, ?_⟩
  · intro r hr
    obtain ⟨ready', hready', hmem⟩ := readySteps_ok hsound current
    rw [hready] at hready'
    cases hready'
    obtain ⟨planId, plan, goal, stepId, step, hplan, _, hactive, _, hstep, hdue, rfl⟩ :=
      (hmem r).mp hr
    have hnamed := ((hrecords.built planId plan hplan).named stepId step hstep).1
    exact ⟨plan, hplan, hnamed.symm ▸ hstep, hactive, hdue.pending, hdue.dependencies⟩
  · intro id agent hagent
    refine ⟨agent, hagent, fun h => h, rfl, rfl, ?_⟩
    rw [Dict.get_map, hagent]
    exact le_refl _
  · intro id pool hpool
    exact ⟨pool, hpool, rfl, (add_zero _).symm⟩

/-- Every proposal is one for an entry of the listing. -/
theorem mem_proposeAll {py : Python} {s : OperationalState} {ready : List ReadyStep}
    {load : Dict String Int} {p : AssignmentProposal} (h : p ∈ proposeAll py s load ready) :
    ∃ r ∈ ready, ∃ selected, p = proposal py s r selected := by
  induction ready generalizing load with
  | nil => cases h
  | cons r rest ih =>
    rcases List.mem_cons.mp h with rfl | h
    · exact ⟨r, List.mem_cons_self, _, rfl⟩
    · obtain ⟨r', hr', hp⟩ := ih h
      exact ⟨r', List.mem_cons_of_mem _ hr', hp⟩

/-- The step of a dispatchable proposal is feasible. -/
theorem mem_dispatchableSteps {py : Python} {s : OperationalState} {ready : List ReadyStep}
    {load : Dict String Int} (hsteps : ∀ r ∈ ready, s.step r.ref = some r.step) {step : Step}
    (h : step ∈ dispatchableSteps s (proposeAll py s load ready)) :
    resourceFeasible s step = true ∧ ∃ ref, s.step ref = some step := by
  obtain ⟨p, hp, hstep⟩ := List.mem_filterMap.mp h
  obtain ⟨hp, hdispatchable⟩ := List.mem_filter.mp hp
  obtain ⟨r, hr, selected, rfl⟩ := mem_proposeAll hp
  have hsame : s.step r.ref = some step := hstep
  rw [hsteps r hr] at hsame
  cases hsame
  exact ⟨(of_decide_eq_true hdispatchable).2, _, hstep⟩

theorem Reachable.balanced {py : Python} {l : Ledger} (h : Reachable py l) : l.Has Balanced :=
  h.has balanced_bootstrap fun _ _ _ => balanced_effect

section
variable {l : Ledger}

theorem sample_accountable (eventId : String) (version : Int) :
    (sampleKeywords eventId version).Accountable := by
  have hactor : worldIdentifier "operator" "actor_id" = .ok "operator" := by decide +kernel
  have hauthorization : worldAuthorizationRef "approval-1" = .ok "approval-1" := by decide +kernel
  exact ⟨⟨_, hactor⟩, ⟨_, hauthorization⟩⟩

/-- Sample keyword arguments with new identifiers, from version `v` on. -/
theorem sample_inTurn {first second : String} (v : Int) (hversion : l.version = v)
    (hfirst : l.Fresh first) (hsecond : l.Fresh second) (hdistinct : strip first ≠ strip second) :
    InTurn samplePython l [sampleKeywords first v, sampleKeywords second (v + 1)] := by
  refine ⟨?_, ?_, ?_, ?_, ?_⟩
  · simp only [List.forall_mem_cons]
    exact ⟨hfirst, hsecond, by simp⟩
  · simpa [sampleKeywords] using hdistinct
  · simp only [List.forall_mem_cons]
    exact ⟨sample_accountable _ _, sample_accountable _ _, by simp⟩
  · simp only [List.forall_mem_cons]
    exact ⟨⟨_, rfl⟩, ⟨_, rfl⟩, by simp⟩
  · intro i k hk
    rw [hversion]
    cases i with
    | zero =>
      cases hk
      exact (add_zero v).symm
    | succ i =>
      cases i with
      | zero =>
        cases hk
        rfl
      | succ i => cases hk

end

/-- Two steps request of one tank of ten litres, as the argument says, and wait for two agents. -/
def twoPumps (litres : Int) : Ledger :=
  let step (stepId : String) : Json :=
    .obj [("step_id", .str stepId), ("action", .str "Run the pump"),
      ("resource_requests", .obj [("fuel", .int litres)])]
  exec (next samplePython) sampleLedger
    [(.registerResourcePool "fuel" (.int 10) "litre" false, sampleKeywords "event-1" 0),
     (.registerAgent "agent-1" "human" [] 1 (.obj []) (.obj []), sampleKeywords "event-2" 1),
     (.registerAgent "agent-2" "human" [] 1 (.obj []) (.obj []), sampleKeywords "event-3" 2),
     (.createGoal "goal-1" "Restore the service" 50 none [] none none [] true,
        sampleKeywords "event-4" 3),
     (.createPlan "plan-1" "goal-1" [step "step-1", step "step-2"] "2026-01-01T00:00:00+00:00" none,
        sampleKeywords "event-5" 4)]

theorem twoPumps_reachable (litres : Int) : Reachable samplePython (twoPumps litres) :=
  ⟨sampleLedger, _, .bootstrapped sampleLedger_bootstrapped, rfl⟩

/-- The calls for the proposals of a world, with two keyword arguments. -/
def proposedCalls (l : Ledger) (current : Instant) : Option (List Call) := do
  let s ← l.state
  let ready ← (readySteps s current).toOption
  return dispatches (assignmentProposals samplePython s ready)

def twoKeywords : List Keywords := [sampleKeywords "event-6" 5, sampleKeywords "event-7" 6]

theorem twoKeywords_inTurn (litres : Int)
    (h : ((twoPumps litres).version, (twoPumps litres).entries.map fun e => e.request.eventId) =
      (5, ["WORLD_CREATED", "event-1", "event-2", "event-3", "event-4", "event-5"])) :
    InTurn samplePython (twoPumps litres) twoKeywords := by
  obtain ⟨hversion, hentries⟩ := Prod.mk.inj h
  refine sample_inTurn 5 hversion (Ledger.fresh_of_not_mem ⟨"event-6", by decide +kernel⟩ ?_)
    (Ledger.fresh_of_not_mem ⟨"event-7", by decide +kernel⟩ ?_) (by decide +kernel)
  · rw [hentries]
    decide +kernel
  · rw [hentries]
    decide +kernel

end Edon.Operations
