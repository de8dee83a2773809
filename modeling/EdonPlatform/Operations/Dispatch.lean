import EdonPlatform.Operations.Resources

/- `dispatch_step` is `allocate_step_resources` and `assign_step` in one event
   (edon/operations/control.py). The three operations make their checks each for itself;
   here is exactly when each of them drafts its event (`dispatchStep_iff`,
   `allocateStepResources_iff`, `assignStep_iff`).

   What is proved: `dispatch_refines`, that a step that waits with nothing allocated is
   dispatched exactly when it is allocated for and then assigned, and that both lead to the
   same operational state. -/
namespace Edon.Operations
open World Transition

/-! ## The checks -/

section
variable {py : Python} {s : OperationalState} {k : Keywords} {d : Draft}

theorem checkDependenciesDone_iff {plan : Plan} {step : Step} {u : Unit} :
    checkDependenciesDone plan step = .ok u ↔ DependenciesDone plan step := by
  constructor
  · exact checkDependenciesDone_ok
  · intro h
    refine forM_succeeds fun dependency hmem => ?_
    obtain ⟨other, hother, hstatus⟩ := h dependency hmem
    refine bind_ok.mpr ⟨other, orRaise_ok.mpr hother, ?_⟩
    exact require_ok.mpr (decide_eq_true hstatus)

theorem checkCapacity_iff {requests : Dict String Rat} {u : Unit} :
    checkCapacity s requests = .ok u ↔ Free s requests := by
  constructor
  · exact checkCapacity_ok
  · intro h
    refine forM_succeeds fun request hmem => ?_
    obtain ⟨pool, hpool, hfree⟩ := h request.1 request.2 (Dict.mem_entries.mp hmem)
    refine bind_ok.mpr ⟨pool, orRaise_ok.mpr hpool, ?_⟩
    exact require_ok.mpr (decide_eq_true hfree)

theorem checkAgent_iff {agent : Agent} {step : Step} {activity : String} {u : Unit} :
    checkAgent agent step activity = .ok u ↔ CanTake agent step := by
  constructor
  · exact checkAgent_ok
  · intro h
    have hmissing : sortedSet (step.requiredCapabilities.filter (· ∉ agent.capabilities)) = [] := by
      rw [sortedSet_eq_nil, List.filter_eq_nil_iff]
      intro c hc
      simpa using h.capabilities c hc
    refine bind_ok.mpr ⟨(), require_ok.mpr (decide_eq_true h.status), ?_⟩
    refine bind_ok.mpr ⟨(), require_ok.mpr (decide_eq_true h.capacity), ?_⟩
    exact require_ok.mpr (decide_eq_true hmissing)

theorem poolChanges_succeeds {amounts : Dict String Rat} (f : Rat → Pool → Pool)
    (h : HasPools s amounts) : ∃ cs, poolChanges s amounts f = .ok cs := by
  refine Fallible.mapM_succeeds fun amount hmem => ?_
  obtain ⟨pool, hpool⟩ := h amount.1 amount.2 (Dict.mem_entries.mp hmem)
  exact ⟨_, bind_ok.mpr ⟨pool, orRaise_ok.mpr hpool, rfl⟩⟩

theorem planStep_iff {planId stepId : String} {plan : Plan} {step : Step} :
    planStep s planId stepId = .ok (plan, step) ↔
      s.plans.get planId = some plan ∧ plan.steps.get stepId = some step := by
  constructor
  · exact planStep_ok
  · intro h
    refine bind_ok.mpr ⟨plan, orRaise_ok.mpr h.1, bind_ok.mpr ⟨step, orRaise_ok.mpr h.2, rfl⟩⟩

/-! ## The drafts -/

/-- The plan with the step, written at `stamp`. -/
def Plan.write (p : Plan) (stepId : String) (step : Step) (stamp : Instant) : Plan :=
  { p.withStep stepId step with updatedAt := stamp }

def Step.assignTo (agentId : String) (stamp : Instant) (step : Step) : Step :=
  { step with status := .assigned, assignedAgentId := some agentId, assignedAt := some stamp }

def Step.allocateAll (step : Step) : Step :=
  { step with resourceAllocation := step.resourceRequests }

def allocateDraft (planId stepId : String) (plan : Plan) (step : Step) (stamp : Instant)
    (pools : List Change) : Draft where
  eventType := "RESOURCES_ALLOCATED"
  changes := pools ++ [.plan planId (plan.write stepId step.allocateAll stamp), .clock stamp]
  timestamp := stamp

def assignDraft (planId stepId agentId : String) (plan : Plan) (step : Step) (agent : Agent)
    (stamp : Instant) : Draft where
  eventType := "STEP_ASSIGNED"
  changes := [
    .plan planId (plan.write stepId (step.assignTo agentId stamp) stamp),
    .agent agentId (agent.addTask (taskId planId stepId)),
    .clock stamp]
  timestamp := stamp

def dispatchDraft (planId stepId agentId : String) (plan : Plan) (step : Step) (agent : Agent)
    (stamp : Instant) (pools : List Change) : Draft where
  eventType := "STEP_DISPATCHED"
  changes := pools ++ [
    .plan planId (plan.write stepId (step.allocateAll.assignTo agentId stamp) stamp),
    .agent agentId (agent.addTask (taskId planId stepId)),
    .clock stamp]
  timestamp := stamp

/-- The text is an identifier but for the blanks around it. -/
def Identifies (label value : String) : Prop := opIdentifier value label = .ok (strip value)

theorem opIdentifier_iff {label value id : String} :
    opIdentifier value label = .ok id ↔ Identifies label value ∧ id = strip value := by
  constructor
  · intro h
    have hid := identifier_ok h
    subst hid
    exact ⟨h, rfl⟩
  · intro h
    rw [h.2]
    exact h.1

theorem allocateStepResources_iff {planId stepId : String} :
    allocateStepResources py s planId stepId k = .ok d ↔
      Identifies "plan_id" planId ∧ Identifies "step_id" stepId ∧
      ∃ plan step stamp pools, Located s planId stepId plan step ∧ plan.status = .active ∧
        step.status = .pending ∧ step.resourceAllocation = ∅ ∧ DependenciesDone plan step ∧
        Free s step.resourceRequests ∧ k.stamp py = .ok stamp ∧
        poolChanges s step.resourceRequests
          (Pool.reserve (taskId (strip planId) (strip stepId))) = .ok pools ∧
        d = allocateDraft (strip planId) (strip stepId) plan step stamp pools := by
  constructor
  · intro h
    obtain ⟨p, hp, h⟩ := bind_ok.mp h
    obtain ⟨q, hq, h⟩ := bind_ok.mp h
    obtain ⟨⟨plan, step⟩, hstep, h⟩ := bind_ok.mp h
    obtain ⟨_, hactive, h⟩ := bind_ok.mp h
    obtain ⟨_, hpending, h⟩ := bind_ok.mp h
    obtain ⟨_, hdependencies, h⟩ := bind_ok.mp h
    obtain ⟨_, hfree, h⟩ := bind_ok.mp h
    obtain ⟨pools, hpools, h⟩ := bind_ok.mp h
    obtain ⟨stamp, hstamp, h⟩ := bind_ok.mp h
    cases h
    obtain ⟨hp, rfl⟩ := opIdentifier_iff.mp hp
    obtain ⟨hq, rfl⟩ := opIdentifier_iff.mp hq
    have hpending := of_decide_eq_true (require_ok.mp hpending)
    exact ⟨hp, hq, plan, step, stamp, pools, planStep_iff.mp hstep,
      of_decide_eq_true (require_ok.mp hactive), hpending.1, hpending.2,
      checkDependenciesDone_iff.mp hdependencies, checkCapacity_iff.mp hfree, hstamp, hpools, rfl⟩
  · intro ⟨hp, hq, plan, step, stamp, pools, hlocated, hactive, hpending, hunallocated,
      hdependencies, hfree, hstamp, hpools, hd⟩
    rw [hd]
    refine bind_ok.mpr ⟨_, hp, bind_ok.mpr ⟨_, hq, bind_ok.mpr ⟨_, planStep_iff.mpr hlocated, ?_⟩⟩⟩
    refine bind_ok.mpr ⟨(), require_ok.mpr (decide_eq_true hactive), ?_⟩
    refine bind_ok.mpr ⟨(), require_ok.mpr (decide_eq_true ⟨hpending, hunallocated⟩), ?_⟩
    refine bind_ok.mpr ⟨(), checkDependenciesDone_iff.mpr hdependencies, ?_⟩
    refine bind_ok.mpr ⟨(), checkCapacity_iff.mpr hfree, ?_⟩
    exact bind_ok.mpr ⟨pools, hpools, bind_ok.mpr ⟨stamp, hstamp, rfl⟩⟩

theorem assignStep_iff {planId stepId agentId : String} :
    assignStep py s planId stepId agentId k = .ok d ↔
      Identifies "plan_id" planId ∧ Identifies "step_id" stepId ∧ Identifies "agent_id" agentId ∧
      ∃ plan step agent stamp, Located s planId stepId plan step ∧
        s.agents.get (strip agentId) = some agent ∧ plan.status = .active ∧
        step.status = .pending ∧ DependenciesDone plan step ∧
        step.resourceRequests = step.resourceAllocation ∧ CanTake agent step ∧
        k.stamp py = .ok stamp ∧
        d = assignDraft (strip planId) (strip stepId) (strip agentId) plan step agent stamp := by
  constructor
  · intro h
    obtain ⟨p, hp, h⟩ := bind_ok.mp h
    obtain ⟨q, hq, h⟩ := bind_ok.mp h
    obtain ⟨a, ha, h⟩ := bind_ok.mp h
    obtain ⟨⟨plan, step⟩, hstep, h⟩ := bind_ok.mp h
    obtain ⟨agent, hagent, h⟩ := bind_ok.mp h
    obtain ⟨_, hactive, h⟩ := bind_ok.mp h
    obtain ⟨_, hpending, h⟩ := bind_ok.mp h
    obtain ⟨_, hdependencies, h⟩ := bind_ok.mp h
    obtain ⟨_, hallocation, h⟩ := bind_ok.mp h
    obtain ⟨_, htake, h⟩ := bind_ok.mp h
    obtain ⟨stamp, hstamp, h⟩ := bind_ok.mp h
    cases h
    obtain ⟨hp, rfl⟩ := opIdentifier_iff.mp hp
    obtain ⟨hq, rfl⟩ := opIdentifier_iff.mp hq
    obtain ⟨ha, rfl⟩ := opIdentifier_iff.mp ha
    exact ⟨hp, hq, ha, plan, step, agent, stamp, planStep_iff.mp hstep, orRaise_ok.mp hagent,
      of_decide_eq_true (require_ok.mp hactive), of_decide_eq_true (require_ok.mp hpending),
      checkDependenciesDone_iff.mp hdependencies, of_decide_eq_true (require_ok.mp hallocation),
      checkAgent_iff.mp htake, hstamp, rfl⟩
  · intro ⟨hp, hq, ha, plan, step, agent, stamp, hlocated, hagent, hactive, hpending,
      hdependencies, hallocation, htake, hstamp, hd⟩
    rw [hd]
    refine bind_ok.mpr ⟨_, hp, bind_ok.mpr ⟨_, hq, bind_ok.mpr ⟨_, ha, ?_⟩⟩⟩
    refine bind_ok.mpr ⟨_, planStep_iff.mpr hlocated, bind_ok.mpr ⟨agent, orRaise_ok.mpr hagent, ?_⟩⟩
    refine bind_ok.mpr ⟨(), require_ok.mpr (decide_eq_true hactive), ?_⟩
    refine bind_ok.mpr ⟨(), require_ok.mpr (decide_eq_true hpending), ?_⟩
    refine bind_ok.mpr ⟨(), checkDependenciesDone_iff.mpr hdependencies, ?_⟩
    refine bind_ok.mpr ⟨(), require_ok.mpr (decide_eq_true hallocation), ?_⟩
    exact bind_ok.mpr ⟨(), checkAgent_iff.mpr htake, bind_ok.mpr ⟨stamp, hstamp, rfl⟩⟩

theorem dispatchStep_iff {planId stepId agentId : String} :
    dispatchStep py s planId stepId agentId k = .ok d ↔
      Identifies "plan_id" planId ∧ Identifies "step_id" stepId ∧ Identifies "agent_id" agentId ∧
      ∃ plan step agent stamp pools, Located s planId stepId plan step ∧
        s.agents.get (strip agentId) = some agent ∧ plan.status = .active ∧
        step.status = .pending ∧ step.resourceAllocation = ∅ ∧ DependenciesDone plan step ∧
        CanTake agent step ∧ Free s step.resourceRequests ∧ k.stamp py = .ok stamp ∧
        poolChanges s step.resourceRequests
          (Pool.reserve (taskId (strip planId) (strip stepId))) = .ok pools ∧
        d = dispatchDraft (strip planId) (strip stepId) (strip agentId) plan step agent stamp
          pools := by
  constructor
  · intro h
    obtain ⟨p, hp, h⟩ := bind_ok.mp h
    obtain ⟨q, hq, h⟩ := bind_ok.mp h
    obtain ⟨a, ha, h⟩ := bind_ok.mp h
    obtain ⟨⟨plan, step⟩, hstep, h⟩ := bind_ok.mp h
    obtain ⟨agent, hagent, h⟩ := bind_ok.mp h
    obtain ⟨_, hactive, h⟩ := bind_ok.mp h
    obtain ⟨_, hpending, h⟩ := bind_ok.mp h
    obtain ⟨_, hdependencies, h⟩ := bind_ok.mp h
    obtain ⟨_, htake, h⟩ := bind_ok.mp h
    obtain ⟨_, hfree, h⟩ := bind_ok.mp h
    obtain ⟨stamp, hstamp, h⟩ := bind_ok.mp h
    obtain ⟨pools, hpools, h⟩ := bind_ok.mp h
    cases h
    obtain ⟨hp, rfl⟩ := opIdentifier_iff.mp hp
    obtain ⟨hq, rfl⟩ := opIdentifier_iff.mp hq
    obtain ⟨ha, rfl⟩ := opIdentifier_iff.mp ha
    have hpending := of_decide_eq_true (require_ok.mp hpending)
    exact ⟨hp, hq, ha, plan, step, agent, stamp, pools, planStep_iff.mp hstep,
      orRaise_ok.mp hagent, of_decide_eq_true (require_ok.mp hactive), hpending.1, hpending.2,
      checkDependenciesDone_iff.mp hdependencies, checkAgent_iff.mp htake,
      checkCapacity_iff.mp hfree, hstamp, hpools, rfl⟩
  · intro ⟨hp, hq, ha, plan, step, agent, stamp, pools, hlocated, hagent, hactive, hpending,
      hunallocated, hdependencies, htake, hfree, hstamp, hpools, hd⟩
    rw [hd]
    refine bind_ok.mpr ⟨_, hp, bind_ok.mpr ⟨_, hq, bind_ok.mpr ⟨_, ha, ?_⟩⟩⟩
    refine bind_ok.mpr ⟨_, planStep_iff.mpr hlocated, bind_ok.mpr ⟨agent, orRaise_ok.mpr hagent, ?_⟩⟩
    refine bind_ok.mpr ⟨(), require_ok.mpr (decide_eq_true hactive), ?_⟩
    refine bind_ok.mpr ⟨(), require_ok.mpr (decide_eq_true ⟨hpending, hunallocated⟩), ?_⟩
    refine bind_ok.mpr ⟨(), checkDependenciesDone_iff.mpr hdependencies, ?_⟩
    refine bind_ok.mpr ⟨(), checkAgent_iff.mpr htake, ?_⟩
    refine bind_ok.mpr ⟨(), checkCapacity_iff.mpr hfree, ?_⟩
    exact bind_ok.mpr ⟨stamp, hstamp, bind_ok.mpr ⟨pools, hpools, rfl⟩⟩

end

/-! ## Recording an event -/

/-- The call returned. -/
def Succeeds (result : Except PyError Int × Ledger) : Prop := ∃ v, result.1 = .ok v

/-- An identifier no event of the world has. -/
structure Ledger.Fresh (l : Ledger) (eventId : String) : Prop where
  identifier : ∃ id, worldIdentifier eventId "event_id" = .ok id
  unused : ∀ e ∈ l.entries, e.request.eventId ≠ strip eventId

theorem Ledger.fresh_of_not_mem {l : Ledger} {eventId : String}
    (h : ∃ id, worldIdentifier eventId "event_id" = .ok id)
    (hnew : strip eventId ∉ l.entries.map fun e => e.request.eventId) : l.Fresh eventId :=
  ⟨h, fun _ he heq => hnew (heq ▸ List.mem_map_of_mem he)⟩

/-- Who acts, and with what authority, can be recorded. -/
structure Keywords.Accountable (k : Keywords) : Prop where
  actor : ∃ id, worldIdentifier k.actorId "actor_id" = .ok id
  authorization : ∃ ref, worldAuthorizationRef k.authorizationRef = .ok ref

def keysOk (changes : List Change) : Bool := changes.all fun c => c.path.all partOk

section
variable {py : Python} {l : Ledger} {s : OperationalState} {c : Call} {k : Keywords} {d : Draft}

theorem request_iff (hevent : ∃ id, worldIdentifier k.eventId "event_id" = .ok id)
    {eventType : String} (htype : worldIdentifier eventType "event_type" = .ok eventType)
    (heventType : d.eventType = eventType) (hlineage : d.sourceLineage = []) :
    (∃ request, d.request k = .ok request) ↔ k.Accountable ∧ keysOk d.changes = true := by
  constructor
  · intro ⟨request, h⟩
    obtain ⟨_, _, h⟩ := bind_ok.mp h
    obtain ⟨_, _, h⟩ := bind_ok.mp h
    obtain ⟨actor, hactor, h⟩ := bind_ok.mp h
    obtain ⟨ref, href, h⟩ := bind_ok.mp h
    obtain ⟨_, hkeys, _⟩ := bind_ok.mp h
    exact ⟨⟨⟨actor, hactor⟩, ⟨ref, href⟩⟩, require_ok.mp hkeys⟩
  · intro ⟨⟨⟨actor, hactor⟩, ⟨ref, href⟩⟩, hkeys⟩
    obtain ⟨id, hid⟩ := hevent
    have ht : worldIdentifier d.eventType "event_type" = .ok eventType := by rw [heventType, htype]
    have hlineages : lineages d.sourceLineage = .ok [] := by
      rw [hlineage]
      rfl
    exact ⟨_, bind_ok.mpr ⟨id, hid, bind_ok.mpr ⟨_, ht, bind_ok.mpr ⟨actor, hactor,
      bind_ok.mpr ⟨ref, href, bind_ok.mpr ⟨(), require_ok.mpr hkeys,
        bind_ok.mpr ⟨[], hlineages, rfl⟩⟩⟩⟩⟩⟩⟩

/-- The world with the event recorded. -/
def Ledger.record (l : Ledger) (s : OperationalState) (request : Request) : Ledger where
  version := l.version + 1
  state := some s
  entries := l.entries ++ [⟨request, l.version + 1⟩]

theorem appendTx_unused {request : Request} (hs : l.state = some s)
    (hunused : ∀ e ∈ l.entries, e.request.eventId ≠ request.eventId) :
    l.appendTx request =
      if l.version ≠ request.expectedVersion then
        .error (worldError ("world version conflict: expected " ++
          toString request.expectedVersion ++ ", current " ++ toString l.version))
      else .ok (l.version + 1, l.record (updates request.changes s) request) := by
  have hnone : l.entries.find? (fun e => e.request.eventId = request.eventId) = none :=
    List.find?_eq_none.mpr fun e he => by simpa using hunused e he
  unfold Ledger.appendTx
  rw [hnone, hs, applyChanges_some]
  rfl

/-- A drafted event with a fresh identifier and the current version is recorded. -/
theorem runCall_fresh (hs : l.state = some s)
    (hunused : ∀ e ∈ l.entries, e.request.eventId ≠ strip k.eventId)
    (hd : c.draft py k (some s) = .ok d) {request : Request} (hrequest : d.request k = .ok request)
    (hversion : k.expectedVersion = l.version) :
    runCall py l (c, k) = (.ok (l.version + 1), l.record (updates d.changes s) request) := by
  obtain ⟨hid, hexpected, hchanges, -⟩ := Draft.request_ok hrequest
  have htx : l.appendTx request = _ := appendTx_unused hs (hid ▸ hunused)
  rw [hchanges, if_neg (not_not_intro (hversion.symm.trans hexpected.symm))] at htx
  unfold runCall Ledger.append
  rw [hs]
  dsimp only
  rw [hd]
  dsimp only
  rw [hrequest]
  dsimp only
  rw [htx]

/-- A call under an identifier no event has returns exactly when its event is drafted and can be
recorded at the current version. -/
theorem succeeds_iff (hs : l.state = some s)
    (hunused : ∀ e ∈ l.entries, e.request.eventId ≠ strip k.eventId) :
    Succeeds (runCall py l (c, k)) ↔ ∃ d, c.draft py k (some s) = .ok d ∧
      (∃ request, d.request k = .ok request) ∧ k.expectedVersion = l.version := by
  constructor
  · intro ⟨v, hv⟩
    unfold runCall Ledger.append at hv
    rw [hs] at hv
    dsimp only at hv
    cases hd : c.draft py k (some s) with
    | error e =>
      rw [hd] at hv
      cases hv
    | ok d =>
      rw [hd] at hv
      dsimp only at hv
      cases hrequest : d.request k with
      | error e =>
        rw [hrequest] at hv
        cases hv
      | ok request =>
        refine ⟨d, rfl, ⟨request, hrequest⟩, ?_⟩
        obtain ⟨hid, hexpected, -, -⟩ := Draft.request_ok hrequest
        by_contra hversion
        rw [← hexpected] at hversion
        rw [hrequest] at hv
        dsimp only at hv
        rw [appendTx_unused hs (hid ▸ hunused), if_pos (Ne.symm hversion)] at hv
        cases hv
  · intro ⟨d, hd, ⟨request, hrequest⟩, hversion⟩
    rw [runCall_fresh hs hunused hd hrequest hversion]
    exact ⟨_, rfl⟩

end

/-! ## Dispatching is allocating and assigning -/

theorem Identifies.partOk {label value : String} (h : Identifies label value) :
    partOk (strip value) = true := by
  obtain ⟨-, hne, hlength⟩ := bounded_ok h
  simp [World.partOk, hne, hlength]

section
variable {py : Python} {s : OperationalState} {k : Keywords} {planId stepId agentId : String}
  {plan : Plan} {step : Step} {stamp : Instant} {pools : List Change}

/-- The state after the step has been allocated for. -/
def OperationalState.allocate (s : OperationalState) (planId stepId : String) (plan : Plan)
    (step : Step) (stamp : Instant) : OperationalState :=
  { s with
    resourcePools := s.resourcePools.adjust (Pool.reserve (taskId planId stepId))
      step.resourceRequests
    plans := s.plans.set planId (plan.write stepId step.allocateAll stamp)
    clock := stamp }

theorem updates_allocate
    (hpools : poolChanges s step.resourceRequests (Pool.reserve (taskId planId stepId)) =
      .ok pools) :
    updates (allocateDraft planId stepId plan step stamp pools).changes s =
      s.allocate planId stepId plan step stamp := by
  unfold allocateDraft
  rw [updates_append, (poolChanges_ok hpools).2]
  rfl

/-- Writing the step twice is writing it once. -/
theorem write_write (plan : Plan) (stepId : String) (step step' : Step) (stamp : Instant) :
    (plan.write stepId step stamp).write stepId step' stamp = plan.write stepId step' stamp := by
  unfold Plan.write Plan.withStep
  dsimp only
  rw [Dict.set_set]

/-- The two ways lead to one state. -/
theorem updates_dispatch {agent : Agent}
    (hpools : poolChanges s step.resourceRequests (Pool.reserve (taskId planId stepId)) =
      .ok pools) :
    updates (dispatchDraft planId stepId agentId plan step agent stamp pools).changes s =
      updates (assignDraft planId stepId agentId (plan.write stepId step.allocateAll stamp)
        step.allocateAll agent stamp).changes (s.allocate planId stepId plan step stamp) := by
  unfold dispatchDraft assignDraft
  rw [updates_append, (poolChanges_ok hpools).2, write_write]
  unfold OperationalState.allocate
  simp only [updates_cons, updates_nil, Change.update, Dict.set_set]

/-- A step that waits is no dependency that is done. -/
theorem DependenciesDone.write {other : Step} (h : DependenciesDone plan other)
    (hstep : plan.steps.get stepId = some step) (hpending : step.status = .pending) (step' : Step)
    (stamp : Instant) : DependenciesDone (plan.write stepId step' stamp) other := by
  intro dependency hmem
  obtain ⟨done, hdone, hstatus⟩ := h dependency hmem
  refine ⟨done, ?_, hstatus⟩
  show (plan.steps.set stepId step').get dependency = some done
  rw [Dict.get_set_ne]
  · exact hdone
  · intro heq
    rw [heq, hdone] at hstep
    cases hstep
    rw [hpending] at hstatus
    cases hstatus

theorem CanTake.allocateAll {agent : Agent} (h : CanTake agent step) :
    CanTake agent step.allocateAll := ⟨h.status, h.capacity, h.capabilities⟩

theorem located_allocate :
    Located (s.allocate (strip planId) (strip stepId) plan step stamp) planId stepId
      (plan.write (strip stepId) step.allocateAll stamp) step.allocateAll :=
  ⟨Dict.get_set_self _ _ _, Dict.get_set_self _ _ _⟩

end

/-- What has to hold for the resources of a waiting step to be allocated. -/
structure Allocatable (py : Python) (s : OperationalState) (planId stepId : String) (plan : Plan)
    (step : Step) (k : Keywords) (stamp : Instant) (pools : List Change) : Prop where
  plan_id : Identifies "plan_id" planId
  step_id : Identifies "step_id" stepId
  active : plan.status = .active
  dependencies : DependenciesDone plan step
  free : Free s step.resourceRequests
  time : k.stamp py = .ok stamp
  reserved : poolChanges s step.resourceRequests
    (Pool.reserve (taskId (strip planId) (strip stepId))) = .ok pools
  accountable : k.Accountable
  keys : keysOk pools = true

/-- What has to hold for the agent to take the step. -/
structure Takes (s : OperationalState) (agentId : String) (step : Step) (agent : Agent) : Prop where
  agent_id : Identifies "agent_id" agentId
  found : s.agents.get (strip agentId) = some agent
  canTake : CanTake agent step

theorem eventType_dispatched :
    worldIdentifier "STEP_DISPATCHED" "event_type" = .ok "STEP_DISPATCHED" := by decide +kernel

theorem eventType_allocated :
    worldIdentifier "RESOURCES_ALLOCATED" "event_type" = .ok "RESOURCES_ALLOCATED" := by
  decide +kernel

theorem eventType_assigned :
    worldIdentifier "STEP_ASSIGNED" "event_type" = .ok "STEP_ASSIGNED" := by decide +kernel

section
variable {py : Python} {l : Ledger} {s : OperationalState} {planId stepId agentId : String}
  {plan : Plan} {step : Step} {agent : Agent} {k : Keywords} {stamp : Instant}
  {pools : List Change} {allocateId assignId : String}

theorem Located.unique {plan' : Plan} {step' : Step} (h : Located s planId stepId plan step)
    (h' : Located s planId stepId plan' step') : plan' = plan ∧ step' = step := by
  have hplan := Option.some.inj (h'.1.symm.trans h.1)
  subst hplan
  exact ⟨rfl, Option.some.inj (h'.2.symm.trans h.2)⟩

theorem keysOk_append (cs ds : List Change) : keysOk (cs ++ ds) = (keysOk cs && keysOk ds) :=
  List.all_append

/-- The keys of the plan and the agent are identifiers. -/
theorem keysOk_step {p a : String} (hp : partOk p = true) (ha : partOk a = true) (plan : Plan)
    (agent : Agent) (stamp : Instant) :
    keysOk [.plan p plan, .agent a agent, .clock stamp] = true := by
  simp only [keysOk, Change.path, List.all_cons, List.all_nil, hp, ha]
  decide

theorem keysOk_plan {p : String} (hp : partOk p = true) (plan : Plan) (stamp : Instant) :
    keysOk [.plan p plan, .clock stamp] = true := by
  simp only [keysOk, Change.path, List.all_cons, List.all_nil, hp]
  decide

theorem dispatchDraft_request (hevent : ∃ id, worldIdentifier k.eventId "event_id" = .ok id)
    (hp : partOk planId = true) (ha : partOk agentId = true) :
    (∃ request, (dispatchDraft planId stepId agentId plan step agent stamp pools).request k =
      .ok request) ↔ k.Accountable ∧ keysOk pools = true := by
  rw [request_iff hevent eventType_dispatched rfl rfl, dispatchDraft, keysOk_append,
    keysOk_step hp ha, Bool.and_true]

theorem allocateDraft_request (hevent : ∃ id, worldIdentifier k.eventId "event_id" = .ok id)
    (hp : partOk planId = true) :
    (∃ request, (allocateDraft planId stepId plan step stamp pools).request k = .ok request) ↔
      k.Accountable ∧ keysOk pools = true := by
  rw [request_iff hevent eventType_allocated rfl rfl, allocateDraft, keysOk_append,
    keysOk_plan hp, Bool.and_true]

theorem assignDraft_request (hevent : ∃ id, worldIdentifier k.eventId "event_id" = .ok id)
    (hp : partOk planId = true) (ha : partOk agentId = true) :
    (∃ request, (assignDraft planId stepId agentId plan step agent stamp).request k = .ok request) ↔
      k.Accountable := by
  rw [request_iff hevent eventType_assigned rfl rfl, assignDraft, keysOk_step hp ha]
  exact and_iff_left rfl

/-! ## The runs -/

theorem draft_dispatch : (Call.dispatchStep planId stepId agentId).draft py k (some s) =
    dispatchStep py s planId stepId agentId k := by
  rw [Call.draft, snapshot, orRaise]
  exact pure_bind s fun s => dispatchStep py s planId stepId agentId k

theorem draft_allocate : (Call.allocateStepResources planId stepId).draft py k (some s) =
    allocateStepResources py s planId stepId k := by
  rw [Call.draft, snapshot, orRaise]
  exact pure_bind s fun s => allocateStepResources py s planId stepId k

theorem draft_assign : (Call.assignStep planId stepId agentId).draft py k (some s) =
    assignStep py s planId stepId agentId k := by
  rw [Call.draft, snapshot, orRaise]
  exact pure_bind s fun s => assignStep py s planId stepId agentId k

theorem dispatched_iff (hs : l.state = some s) (hlocated : Located s planId stepId plan step)
    (hpending : step.status = .pending) (hunallocated : step.resourceAllocation = ∅)
    (hfresh : l.Fresh k.eventId) :
    Succeeds (runCall py l (.dispatchStep planId stepId agentId, k)) ↔
      (∃ stamp pools, Allocatable py s planId stepId plan step k stamp pools) ∧
        (∃ agent, Takes s agentId step agent) ∧ k.expectedVersion = l.version := by
  rw [succeeds_iff hs hfresh.unused]
  constructor
  · intro ⟨d, hd, hrequest, hversion⟩
    obtain ⟨hp, hq, ha, plan', step', agent, stamp, pools, hlocated', hagent, hactive, -, -,
      hdependencies, htake, hfree, hstamp, hpools, rfl⟩ := dispatchStep_iff.mp (draft_dispatch ▸ hd)
    obtain ⟨rfl, rfl⟩ := hlocated.unique hlocated'
    obtain ⟨haccountable, hkeys⟩ :=
      (dispatchDraft_request hfresh.identifier hp.partOk ha.partOk).mp hrequest
    exact ⟨⟨stamp, pools, ⟨hp, hq, hactive, hdependencies, hfree, hstamp, hpools, haccountable,
      hkeys⟩⟩, ⟨agent, ⟨ha, hagent, htake⟩⟩, hversion⟩
  · intro ⟨⟨stamp, pools, h⟩, ⟨agent, htakes⟩, hversion⟩
    refine ⟨_, draft_dispatch.trans (dispatchStep_iff.mpr ⟨h.plan_id, h.step_id, htakes.agent_id,
      plan, step, agent, stamp, pools, hlocated, htakes.found, h.active, hpending, hunallocated,
      h.dependencies, htakes.canTake, h.free, h.time, h.reserved, rfl⟩), ?_, hversion⟩
    exact (dispatchDraft_request hfresh.identifier h.plan_id.partOk htakes.agent_id.partOk).mpr
      ⟨h.accountable, h.keys⟩

/-- What the dispatch leaves behind. -/
theorem dispatched_run (hs : l.state = some s) (hlocated : Located s planId stepId plan step)
    (hpending : step.status = .pending) (hunallocated : step.resourceAllocation = ∅)
    (hfresh : l.Fresh k.eventId) (h : Allocatable py s planId stepId plan step k stamp pools)
    (htakes : Takes s agentId step agent) (hversion : k.expectedVersion = l.version) :
    ∃ request, request.eventId = strip k.eventId ∧
      runCall py l (.dispatchStep planId stepId agentId, k) = (.ok (l.version + 1),
        l.record (updates (dispatchDraft (strip planId) (strip stepId) (strip agentId) plan step agent
          stamp pools).changes s) request) := by
  have hd : (Call.dispatchStep planId stepId agentId).draft py k (some s) = .ok
      (dispatchDraft (strip planId) (strip stepId) (strip agentId) plan step agent stamp pools) :=
    draft_dispatch.trans (dispatchStep_iff.mpr ⟨h.plan_id, h.step_id, htakes.agent_id, plan, step,
      agent, stamp, pools, hlocated, htakes.found, h.active, hpending, hunallocated,
      h.dependencies, htakes.canTake, h.free, h.time, h.reserved, rfl⟩)
  obtain ⟨request, hrequest⟩ :=
    (dispatchDraft_request hfresh.identifier h.plan_id.partOk htakes.agent_id.partOk).mpr
      ⟨h.accountable, h.keys⟩
  exact ⟨request, (Draft.request_ok hrequest).1, runCall_fresh hs hfresh.unused hd hrequest hversion⟩

/-- What the allocation leaves behind. -/
theorem allocated_run (hs : l.state = some s) (hlocated : Located s planId stepId plan step)
    (hpending : step.status = .pending) (hunallocated : step.resourceAllocation = ∅)
    (hfresh : l.Fresh k.eventId) (h : Allocatable py s planId stepId plan step k stamp pools)
    (hversion : k.expectedVersion = l.version) :
    ∃ request, request.eventId = strip k.eventId ∧
      runCall py l (.allocateStepResources planId stepId, k) = (.ok (l.version + 1),
        l.record (s.allocate (strip planId) (strip stepId) plan step stamp) request) := by
  have hd : (Call.allocateStepResources planId stepId).draft py k (some s) = .ok
      (allocateDraft (strip planId) (strip stepId) plan step stamp pools) :=
    draft_allocate.trans (allocateStepResources_iff.mpr ⟨h.plan_id, h.step_id, plan, step, stamp,
      pools, hlocated, h.active, hpending, hunallocated, h.dependencies, h.free, h.time,
      h.reserved, rfl⟩)
  obtain ⟨request, hrequest⟩ : ∃ request,
      (allocateDraft (strip planId) (strip stepId) plan step stamp pools).request k = .ok request :=
    (allocateDraft_request hfresh.identifier h.plan_id.partOk).mpr ⟨h.accountable, h.keys⟩
  refine ⟨request, (Draft.request_ok hrequest).1, ?_⟩
  rw [runCall_fresh hs hfresh.unused hd hrequest hversion, updates_allocate h.reserved]

theorem allocated_iff (hs : l.state = some s) (hlocated : Located s planId stepId plan step)
    (hpending : step.status = .pending) (hunallocated : step.resourceAllocation = ∅)
    (hfresh : l.Fresh k.eventId) :
    Succeeds (runCall py l (.allocateStepResources planId stepId, k)) ↔
      (∃ stamp pools, Allocatable py s planId stepId plan step k stamp pools) ∧
        k.expectedVersion = l.version := by
  constructor
  · rw [succeeds_iff hs hfresh.unused]
    intro ⟨d, hd, hrequest, hversion⟩
    obtain ⟨hp, hq, plan', step', stamp, pools, hlocated', hactive, -, -, hdependencies, hfree,
      hstamp, hpools, rfl⟩ := allocateStepResources_iff.mp (draft_allocate ▸ hd)
    obtain ⟨rfl, rfl⟩ := hlocated.unique hlocated'
    obtain ⟨haccountable, hkeys⟩ :=
      (allocateDraft_request hfresh.identifier hp.partOk).mp hrequest
    exact ⟨⟨stamp, pools, ⟨hp, hq, hactive, hdependencies, hfree, hstamp, hpools, haccountable,
      hkeys⟩⟩, hversion⟩
  · intro ⟨⟨stamp, pools, h⟩, hversion⟩
    obtain ⟨request, -, hrun⟩ :=
      allocated_run hs hlocated hpending hunallocated hfresh h hversion
    rw [hrun]
    exact ⟨_, rfl⟩

/-- The assignment of a step that was just allocated for, as a draft. -/
theorem assign_allocated (hlocated : Located s planId stepId plan step)
    (hpending : step.status = .pending)
    (h : Allocatable py s planId stepId plan step k stamp pools)
    (htakes : Takes s agentId step agent) :
    (Call.assignStep planId stepId agentId).draft py k
        (some (s.allocate (strip planId) (strip stepId) plan step stamp)) =
      .ok (assignDraft (strip planId) (strip stepId) (strip agentId)
        (plan.write (strip stepId) step.allocateAll stamp) step.allocateAll agent stamp) :=
  draft_assign.trans (assignStep_iff.mpr ⟨h.plan_id, h.step_id, htakes.agent_id,
    plan.write (strip stepId) step.allocateAll stamp, step.allocateAll, agent, stamp,
    located_allocate, htakes.found, h.active, hpending,
    h.dependencies.write hlocated.2 hpending step.allocateAll stamp, rfl,
    htakes.canTake.allocateAll, h.time, rfl⟩)

section
variable {request : Request} (hlocated : Located s planId stepId plan step)
  (hpending : step.status = .pending) (h : Allocatable py s planId stepId plan step k stamp pools)
  (hfresh : (l.record (s.allocate (strip planId) (strip stepId) plan step stamp) request).Fresh
    k.eventId) (hversion : k.expectedVersion = l.version + 1)
include hlocated hpending h hfresh hversion

/-- What the assignment leaves behind after the allocation: the state of a dispatch. -/
theorem assigned_run (htakes : Takes s agentId step agent) :
    ∃ v request', runCall py (l.record (s.allocate (strip planId) (strip stepId) plan step stamp)
        request) (.assignStep planId stepId agentId, k) = (.ok v,
      (l.record (s.allocate (strip planId) (strip stepId) plan step stamp) request).record
        (updates (dispatchDraft (strip planId) (strip stepId) (strip agentId) plan step agent stamp
          pools).changes s) request') := by
  obtain ⟨request', hrequest⟩ : ∃ request', (assignDraft (strip planId) (strip stepId)
      (strip agentId) (plan.write (strip stepId) step.allocateAll stamp) step.allocateAll agent
      stamp).request k = .ok request' :=
    (assignDraft_request hfresh.identifier h.plan_id.partOk htakes.agent_id.partOk).mpr
      h.accountable
  rw [updates_dispatch h.reserved]
  exact ⟨_, request', runCall_fresh rfl hfresh.unused
    (assign_allocated hlocated hpending h htakes) hrequest hversion⟩

/-- A step that was just allocated for is assigned exactly when the agent takes it. -/
theorem assigned_iff :
    Succeeds (runCall py (l.record (s.allocate (strip planId) (strip stepId) plan step stamp)
      request) (.assignStep planId stepId agentId, k)) ↔ ∃ agent, Takes s agentId step agent := by
  constructor
  · rw [succeeds_iff rfl hfresh.unused]
    intro ⟨d, hd, _⟩
    obtain ⟨-, -, ha, plan', step', agent, _, hlocated', hagent, -, -, -, -, htake, -, -⟩ :=
      assignStep_iff.mp (draft_assign ▸ hd)
    obtain ⟨rfl, rfl⟩ := Located.unique located_allocate hlocated'
    exact ⟨agent, ⟨ha, hagent, ⟨htake.status, htake.capacity, htake.capabilities⟩⟩⟩
  · intro ⟨agent, htakes⟩
    obtain ⟨v, request', hrun⟩ := assigned_run hlocated hpending h hfresh hversion htakes
    rw [hrun]
    exact ⟨v, rfl⟩

end

/-- The allocation does not depend on the identifier of its event or the version. -/
theorem Allocatable.rename (h : Allocatable py s planId stepId plan step k stamp pools)
    (eventId : String) (expectedVersion : Int) :
    Allocatable py s planId stepId plan step { k with eventId, expectedVersion } stamp pools :=
  ⟨h.plan_id, h.step_id, h.active, h.dependencies, h.free, h.time, h.reserved,
    ⟨h.accountable.actor, h.accountable.authorization⟩, h.keys⟩

theorem Ledger.Fresh.record {request : Request} (h : l.Fresh assignId)
    (hdistinct : request.eventId ≠ strip assignId) : (l.record s request).Fresh assignId := by
  refine ⟨h.identifier, fun e he => ?_⟩
  rcases List.mem_append.mp he with he | he
  · exact h.unused e he
  · rw [List.mem_singleton.mp he]
    exact hdistinct

end

/-- **Dispatching refines allocating and then assigning.** A step that waits with nothing
allocated is dispatched exactly when it can be allocated for and then assigned, at the same time
and with consecutive versions, and the operational state is the same. -/
theorem dispatch_refines (py : Python) (l : Ledger) (s : OperationalState) (hs : l.state = some s)
    (planId stepId agentId : String) (plan : Plan) (step : Step)
    (hlocated : Located s planId stepId plan step) (hpending : step.status = .pending)
    (hunallocated : step.resourceAllocation = ∅) (k : Keywords) (allocateId assignId : String)
    (hdispatch : l.Fresh k.eventId) (hallocate : l.Fresh allocateId) (hassign : l.Fresh assignId)
    (hdistinct : strip allocateId ≠ strip assignId) :
    let dispatched := runCall py l (.dispatchStep planId stepId agentId, k)
    let allocated := runCall py l
      (.allocateStepResources planId stepId, { k with eventId := allocateId })
    let assigned := runCall py allocated.2 (.assignStep planId stepId agentId,
      { k with eventId := assignId, expectedVersion := k.expectedVersion + 1 })
    (Succeeds dispatched ↔ Succeeds allocated ∧ Succeeds assigned) ∧
      (Succeeds dispatched → dispatched.2.state = assigned.2.state) := by
  intro dispatched allocated assigned
  have hdispatched : Succeeds dispatched ↔ _ :=
    dispatched_iff hs hlocated hpending hunallocated hdispatch
  have hallocated : Succeeds allocated ↔ _ :=
    allocated_iff hs hlocated hpending hunallocated hallocate
  constructor
  · rw [hdispatched, hallocated]
    constructor
    · intro ⟨⟨stamp, pools, h⟩, htakes, hversion⟩
      refine ⟨⟨⟨stamp, pools, h.rename allocateId _⟩, hversion⟩, ?_⟩
      obtain ⟨request, hid, hrun⟩ := allocated_run hs hlocated hpending hunallocated
        (k := { k with eventId := allocateId }) hallocate (h.rename allocateId _) hversion
      show Succeeds (runCall py allocated.2 _)
      rw [show allocated = _ from hrun]
      exact (assigned_iff hlocated hpending (h.rename assignId _)
        (hassign.record (by rw [hid]; exact hdistinct)) (by rw [← hversion])).mpr htakes
    · intro ⟨⟨⟨stamp, pools, h⟩, hversion⟩, hsucceeds⟩
      refine ⟨⟨stamp, pools, h.rename k.eventId _⟩, ?_, hversion⟩
      obtain ⟨request, hid, hrun⟩ := allocated_run hs hlocated hpending hunallocated
        (k := { k with eventId := allocateId }) hallocate h hversion
      change Succeeds (runCall py allocated.2 _) at hsucceeds
      rw [show allocated = _ from hrun] at hsucceeds
      exact (assigned_iff hlocated hpending (h.rename assignId _)
        (hassign.record (by rw [hid]; exact hdistinct)) (by rw [← hversion])).mp hsucceeds
  · intro hsucceeds
    obtain ⟨⟨stamp, pools, h⟩, ⟨agent, htakes⟩, hversion⟩ := hdispatched.mp hsucceeds
    obtain ⟨request, hid, hrun⟩ := allocated_run hs hlocated hpending hunallocated
      (k := { k with eventId := allocateId }) hallocate (h.rename allocateId _) hversion
    obtain ⟨_, _, hrun'⟩ := dispatched_run hs hlocated hpending hunallocated hdispatch h htakes hversion
    have hassigned := assigned_run hlocated hpending (h.rename assignId (k.expectedVersion + 1))
      (hassign.record (by rw [hid]; exact hdistinct)) (by rw [← hversion]) htakes
    obtain ⟨v, request', hrun''⟩ := hassigned
    show dispatched.2.state = (runCall py allocated.2 _).2.state
    rw [show dispatched = _ from hrun', show allocated = _ from hrun, hrun'']
    rfl

/-- A world with a plan whose step waits. -/
def pumpPlanned : Ledger := exec (next samplePython) sampleLedger (spentFuel.take 4)

theorem dispatch_refines_pump :
    let k := sampleKeywords "event-5" 4
    let dispatched := runCall samplePython pumpPlanned
      (.dispatchStep "plan-1" "step-1" "agent-1", k)
    let allocated := runCall samplePython pumpPlanned
      (.allocateStepResources "plan-1" "step-1", { k with eventId := "event-6" })
    let assigned := runCall samplePython allocated.2 (.assignStep "plan-1" "step-1" "agent-1",
      { k with eventId := "event-7", expectedVersion := k.expectedVersion + 1 })
    (Succeeds dispatched ↔ Succeeds allocated ∧ Succeeds assigned) ∧
      (Succeeds dispatched → dispatched.2.state = assigned.2.state) := by
  have hstep : (do
      let s ← pumpPlanned.state
      let plan ← s.plans.get "plan-1"
      let step ← plan.steps.get "step-1"
      some (step.status, step.resourceAllocation)) = some (.pending, ∅) := by decide +kernel
  obtain ⟨s, hs, hstep⟩ := Option.bind_eq_some_iff.mp hstep
  obtain ⟨plan, hplan, hstep⟩ := Option.bind_eq_some_iff.mp hstep
  obtain ⟨step, hget, hstep⟩ := Option.bind_eq_some_iff.mp hstep
  obtain ⟨hpending, hunallocated⟩ := Prod.mk.inj (Option.some.inj hstep)
  have hplanId : strip "plan-1" = "plan-1" := by decide +kernel
  have hstepId : strip "step-1" = "step-1" := by decide +kernel
  have hlocated : Located s "plan-1" "step-1" plan step := by
    unfold Located
    rw [hplanId, hstepId]
    exact ⟨hplan, hget⟩
  exact dispatch_refines samplePython pumpPlanned s hs "plan-1" "step-1" "agent-1" plan step hlocated
    hpending hunallocated (sampleKeywords "event-5" 4) "event-6" "event-7"
    (Ledger.fresh_of_not_mem ⟨"event-5", by decide +kernel⟩ (by decide +kernel))
    (Ledger.fresh_of_not_mem ⟨"event-6", by decide +kernel⟩ (by decide +kernel))
    (Ledger.fresh_of_not_mem ⟨"event-7", by decide +kernel⟩ (by decide +kernel))
    (by decide +kernel)

end Edon.Operations
