import EdonPlatform.Operations.Dispatch
import EdonPlatform.Operations.Runs

/- The records of a world that operations lead to (edon/operations/control.py). Whatever
   the operations wrote them from, every goal, plan, agent and pool is under a text that
   `_identifier` returned (`AllKeys`), every plan has each of its steps once in its order and
   under its own id (`Plan.Built`), and the goal of every plan is there.

   What is proved: `Reachable.recordsSound`, that this holds of every reachable world. -/
namespace Edon.Operations
open World Transition

/-! ## Identifiers -/

/-- A text `_identifier` returns: no blanks around it, and 1 to 200 characters. -/
structure IsIdentifier (id : String) : Prop where
  stripped : strip id = id
  length : partOk id = true

theorem opIdentifier_isIdentifier {value label id : String} (h : opIdentifier value label = .ok id) :
    IsIdentifier id := by
  obtain ⟨hid, hne, hlength⟩ := bounded_ok h
  refine ⟨?_, ?_⟩
  · rw [hid]
    exact strip_strip value
  · unfold partOk
    rw [hid] at hne hlength ⊢
    simp [hne, hlength]

theorem IsIdentifier.identifies {value : String} (h : IsIdentifier (strip value)) (label : String) :
    opIdentifier value label = .ok (strip value) := by
  have hlength := h.length
  unfold partOk at hlength
  simp only [Bool.and_eq_true, decide_eq_true_eq] at hlength
  unfold opIdentifier identifier bounded
  simp [hlength.1, hlength.2]

/-! ## Keys -/

/-- Every goal, plan, agent and pool is under a text that has the property. -/
structure AllKeys (P : String → Prop) (s : OperationalState) : Prop where
  goals : ∀ id goal, s.goals.get id = some goal → P id
  plans : ∀ id plan, s.plans.get id = some plan → P id
  agents : ∀ id agent, s.agents.get id = some agent → P id
  pools : ∀ id pool, s.resourcePools.get id = some pool → P id

/-- The text a call registers a record under, but for the blanks around it. -/
def Call.newId : Call → Option String
  | .registerAgent agentId .. => some agentId
  | .registerResourcePool resourceId .. => some resourceId
  | .createGoal goalId .. => some goalId
  | .createPlan planId .. => some planId
  | .replan _ newPlanId .. => some newPlanId
  | _ => none

section
variable {α β : Type} {t : Dict String α} {P : String → Prop}

theorem keys_set (h : ∀ id v, t.get id = some v → P id) {k : String} (hk : P k) (w : α) :
    ∀ id v, (t.set k w).get id = some v → P id := by
  intro id v hv
  rw [Dict.get_set] at hv
  split at hv
  · next heq => exact heq ▸ hk
  · exact h id v hv

theorem keys_adjust (h : ∀ id v, t.get id = some v → P id) (f : β → α → α)
    (amounts : Dict String β) : ∀ id v, (t.adjust f amounts).get id = some v → P id := by
  intro id v hv
  rw [Dict.get_adjust] at hv
  obtain ⟨w, hw, _⟩ := Option.map_eq_some_iff.mp hv
  exact h id w hw

end

section
variable {s s' : OperationalState} {c : Call} {P : String → Prop}

theorem keys_release (h : ∀ id agent, s.agents.get id = some agent → P id) (task : String)
    (assignee : Option String) :
    ∀ id agent, (updates (releaseAgent s task assignee) s).agents.get id = some agent → P id := by
  unfold releaseAgent
  cases assignee with
  | none => exact h
  | some agentId =>
    dsimp only
    cases hagent : s.agents.get agentId with
    | none => exact h
    | some agent => exact keys_set h (h agentId agent hagent) _

/-- The only new key is the one the call registers a record under. -/
theorem AllKeys.effect (h : AllKeys P s) (hnew : ∀ id, c.newId = some id → P (strip id))
    (he : Effect s c s') : AllKeys P s' := by
  cases he with
  | observed observations clock => exact ⟨h.goals, h.plans, h.agents, h.pools⟩
  | monitored alerts clock => exact ⟨h.goals, h.plans, h.agents, h.pools⟩
  | agentRegistered agent clock new =>
    exact ⟨h.goals, h.plans, keys_set h.agents (hnew _ rfl) _, h.pools⟩
  | agentStatusSet agent status clock found =>
    exact ⟨h.goals, h.plans, keys_set h.agents (h.agents _ _ found) _, h.pools⟩
  | poolRegistered pool clock new =>
    exact ⟨h.goals, h.plans, h.agents, keys_set h.pools (hnew _ rfl) _⟩
  | goalCreated goal clock new =>
    exact ⟨keys_set h.goals (hnew _ rfl) _, h.plans, h.agents, h.pools⟩
  | goalMoved goal status clock found =>
    exact ⟨keys_set h.goals (h.goals _ _ found) _, h.plans, h.agents, h.pools⟩
  | planCreated plan goal clock new found =>
    exact ⟨keys_set h.goals (h.goals _ _ found) _,
      keys_set h.plans (new.planId ▸ hnew _ rfl) _, h.agents, h.pools⟩
  | planReplaced old new goal clock found_old status idle isNew same found =>
    exact ⟨keys_set h.goals (h.goals _ _ found) _,
      keys_set (keys_set h.plans (h.plans _ _ found_old) _) (isNew.planId ▸ hnew _ rfl) _,
      h.agents, h.pools⟩
  | allocated plan step clock located =>
    exact ⟨h.goals, keys_set h.plans (h.plans _ _ located.1) _, h.agents,
      keys_adjust h.pools _ _⟩
  | assigned plan step agent clock located found =>
    exact ⟨h.goals, keys_set h.plans (h.plans _ _ located.1) _,
      keys_set h.agents (h.agents _ _ found) _, h.pools⟩
  | dispatched plan step agent clock located found =>
    exact ⟨h.goals, keys_set h.plans (h.plans _ _ located.1) _,
      keys_set h.agents (h.agents _ _ found) _, keys_adjust h.pools _ _⟩
  | started plan step clock located =>
    exact ⟨h.goals, keys_set h.plans (h.plans _ _ located.1) _, h.agents, h.pools⟩
  | outcome plan settled step goal agentId agent actual outcome alerts learning clock located
      working assignee found unrecorded pools found_goal =>
    exact ⟨keys_set h.goals (h.goals _ _ found_goal) _,
      keys_set h.plans (h.plans _ _ located.1) _, keys_set h.agents (h.agents _ _ found) _,
      keys_adjust h.pools _ _⟩
  | cancelled plan step goal agents alerts clock located live pools found_goal agents_eq =>
    subst agents_eq
    exact ⟨keys_set h.goals (h.goals _ _ found_goal) _,
      keys_set h.plans (h.plans _ _ located.1) _, keys_release h.agents _ _,
      keys_adjust h.pools _ _⟩

end

/-! ## Plans -/

/-- What `_build_plan` makes of the steps it is given. -/
structure Plan.Built (plan : Plan) : Prop where
  once : plan.stepOrder.Nodup
  named : ∀ id step, plan.steps.get id = some step → step.stepId = id ∧ IsIdentifier id
  requests : ∀ id step, plan.steps.get id = some step →
    ∀ r amount, step.resourceRequests.get r = some amount → 0 < amount

theorem topologicalOrder_nodup {steps : Dict String Step} {order : List String}
    (h : topologicalOrder steps = .ok order) : order.Nodup := by
  unfold topologicalOrder at h
  dsimp only at h
  split at h
  · cases h
  · cases h
    have hsound := topologyLoop_sound steps.keys.length
      (topology_start (steps.map (fun _ step => sortedSet step.dependencies)))
    exact (List.nodup_append.mp hsound.nodup).1

section
variable {py : Python} {s s' : OperationalState}

theorem normalizeStep_id {raw : Fields} {taken : List Step} {step : Step}
    (h : normalizeStep py raw taken = .ok step) : IsIdentifier step.stepId := by
  obtain ⟨stepId, hstepId, h⟩ := bind_ok.mp h
  obtain ⟨_, _, h⟩ := bind_ok.mp h
  obtain ⟨_, _, h⟩ := bind_ok.mp h
  obtain ⟨_, _, h⟩ := bind_ok.mp h
  obtain ⟨_, _, h⟩ := bind_ok.mp h
  obtain ⟨_, _, h⟩ := bind_ok.mp h
  obtain ⟨_, _, h⟩ := bind_ok.mp h
  obtain ⟨_, _, h⟩ := bind_ok.mp h
  obtain ⟨_, _, h⟩ := bind_ok.mp h
  obtain ⟨_, _, h⟩ := bind_ok.mp h
  obtain ⟨_, _, h⟩ := bind_ok.mp h
  cases h
  exact opIdentifier_isIdentifier hstepId

/-- Each step was there before or is a raw step, normalized. -/
theorem mem_normalizeFrom {index : Nat} {steps given : List Step} {raws : List Json} {step : Step}
    (h : normalizeFrom py index steps raws = .ok given) (hstep : step ∈ given) :
    step ∈ steps ∨ ∃ raw taken, normalizeStep py raw taken = .ok step := by
  induction raws generalizing index steps with
  | nil =>
    cases h
    exact .inl hstep
  | cons raw raws ih =>
    cases raw with
    | obj fields =>
      obtain ⟨first, hfirst, h⟩ := bind_ok.mp h
      rcases ih h with hmem | hraw
      · rcases List.mem_append.mp hmem with hmem | hmem
        · exact .inl hmem
        · rw [List.mem_singleton.mp hmem]
          exact .inr ⟨fields, steps, hfirst⟩
      · exact .inr hraw
    | _ => cases h

theorem buildPlan_built {planId goalId : String} {rawSteps : List Json} {horizonStart : String}
    {horizonEnd : Option String} {createdAt : Instant} {supersedes : Option String} {plan : Plan}
    (h : buildPlan py s planId goalId rawSteps horizonStart horizonEnd createdAt supersedes =
      .ok plan) : plan.Built ∧ IsIdentifier plan.planId := by
  have hnew := (buildPlan_ok py h).1
  obtain ⟨planId', hplanId, h⟩ := bind_ok.mp h
  obtain ⟨_, _, h⟩ := bind_ok.mp h
  obtain ⟨_, _, h⟩ := bind_ok.mp h
  obtain ⟨_, _, h⟩ := bind_ok.mp h
  obtain ⟨_, _, h⟩ := bind_ok.mp h
  obtain ⟨_, _, h⟩ := bind_ok.mp h
  obtain ⟨_, _, h⟩ := bind_ok.mp h
  obtain ⟨_, _, h⟩ := bind_ok.mp h
  obtain ⟨⟨given, steps, order⟩, hsteps, h⟩ := bind_ok.mp h
  obtain ⟨_, _, h⟩ := bind_ok.mp h
  obtain ⟨_, _, h⟩ := bind_ok.mp h
  cases h
  obtain ⟨given', hgiven, hsteps⟩ := bind_ok.mp hsteps
  obtain ⟨_, _, hsteps⟩ := bind_ok.mp hsteps
  obtain ⟨_, _, hsteps⟩ := bind_ok.mp hsteps
  obtain ⟨_, horder, hsteps⟩ := bind_ok.mp hsteps
  cases hsteps
  refine ⟨⟨topologicalOrder_nodup horder, ?_, ?_⟩, opIdentifier_isIdentifier hplanId⟩
  · intro id step hstep
    obtain ⟨step', hmem, heq⟩ := List.mem_map.mp (Dict.mem_of_get_ofList hstep)
    cases heq
    rcases mem_normalizeFrom hgiven hmem with hmem | ⟨raw, taken, hraw⟩
    · cases hmem
    · exact ⟨rfl, normalizeStep_id hraw⟩
  · intro id step hstep
    exact (hnew.steps id step hstep).requests

/-- A step is written that is still the step it was. -/
theorem Plan.Built.setStep {plan plan' : Plan} {stepId : String} {step step' : Step}
    (h : plan.Built) (hstep : plan.steps.get stepId = some step)
    (hsteps : plan'.steps = plan.steps.set stepId step') (horder : plan'.stepOrder = plan.stepOrder)
    (hid : step'.stepId = step.stepId)
    (hrequests : step'.resourceRequests = step.resourceRequests) : plan'.Built := by
  refine ⟨horder ▸ h.once, ?_, ?_⟩
  · intro id other hother
    rw [hsteps, Dict.get_set] at hother
    split at hother
    · next heq =>
      cases hother
      rw [hid, ← heq]
      exact h.named stepId step hstep
    · exact h.named id other hother
  · intro id other hother
    rw [hsteps, Dict.get_set] at hother
    split at hother
    · cases hother
      rw [hrequests]
      exact h.requests stepId step hstep
    · exact h.requests id other hother

end

/-! ## What every operation keeps -/

/-- The records are under identifiers, the plans as they were built, and their goals are there. -/
structure RecordsSound (s : OperationalState) : Prop where
  keys : AllKeys IsIdentifier s
  built : ∀ id plan, s.plans.get id = some plan → plan.Built
  goals : ∀ id plan, s.plans.get id = some plan → ∃ goal, s.goals.get plan.goalId = some goal

/-- Whether the call registers a plan. -/
def Call.plans : Call → Bool
  | .createPlan .. => true
  | .replan .. => true
  | _ => false

section
variable {py : Python} {s s' : OperationalState} {c : Call} {k : Keywords} {d : Draft}

theorem built_effect (hc : c.plans = false)
    (h : ∀ id plan, s.plans.get id = some plan → plan.Built) (he : Effect s c s') :
    ∀ id plan, s'.plans.get id = some plan → plan.Built := by
  cases he with
  | planCreated => cases hc
  | planReplaced => cases hc
  | allocated plan step clock located =>
    refine forall_setPlan h ?_ rfl
    exact (h _ plan located.1).setStep located.2 rfl rfl rfl rfl
  | assigned plan step agent clock located =>
    refine forall_setPlan h ?_ rfl
    exact (h _ plan located.1).setStep located.2 rfl rfl rfl rfl
  | dispatched plan step agent clock located =>
    refine forall_setPlan h ?_ rfl
    exact (h _ plan located.1).setStep located.2 rfl rfl rfl rfl
  | started plan step clock located =>
    refine forall_setPlan h ?_ rfl
    exact (h _ plan located.1).setStep located.2 rfl rfl rfl rfl
  | outcome plan settled step goal agentId agent actual outcome alerts learning clock located
      working assignee found unrecorded pools found_goal settled_eq =>
    subst settled_eq
    refine forall_setPlan h ?_ rfl
    exact (h _ plan located.1).setStep located.2 (settle_steps _ _) (settle_stepOrder _ _) rfl rfl
  | cancelled plan step goal agents alerts clock located =>
    refine forall_setPlan h ?_ rfl
    exact (h _ plan located.1).setStep located.2 rfl rfl rfl rfl
  | _ => exact h

theorem built_draft (h : ∀ id plan, s.plans.get id = some plan → plan.Built)
    (hd : c.draft py k (some s) = .ok d) :
    ∀ id plan, (updates d.changes s).plans.get id = some plan → plan.Built := by
  cases c with
  | createPlan planId goalId steps horizonStart horizonEnd =>
    obtain ⟨stamp, _, hd⟩ := bind_ok.mp (snapshot_some hd)
    obtain ⟨plan, hplan, hd⟩ := bind_ok.mp hd
    obtain ⟨goal, _, hd⟩ := bind_ok.mp hd
    cases hd
    exact forall_setPlan h (buildPlan_built hplan).1 rfl
  | replan oldPlanId newPlanId steps horizonStart horizonEnd reason =>
    obtain ⟨oldId, hold, hd⟩ := bind_ok.mp (snapshot_some hd)
    obtain ⟨old, hfound, hd⟩ := bind_ok.mp hd
    obtain ⟨_, _, hd⟩ := bind_ok.mp hd
    obtain ⟨_, _, hd⟩ := bind_ok.mp hd
    obtain ⟨_, _, hd⟩ := bind_ok.mp hd
    obtain ⟨stamp, _, hd⟩ := bind_ok.mp hd
    obtain ⟨new, hnew, hd⟩ := bind_ok.mp hd
    obtain ⟨goal, _, hd⟩ := bind_ok.mp hd
    cases hd
    have hbuilt := h oldId old (orRaise_ok.mp hfound)
    refine forall_setPlans h ?_ (buildPlan_built hnew).1 rfl
    exact ⟨hbuilt.once, hbuilt.named, hbuilt.requests⟩
  | _ => exact built_effect rfl h (draft_effect hd)

/-- A new record is under an identifier. -/
theorem newId_isIdentifier {id : String} (hc : c.newId = some id)
    (hd : c.draft py k (some s) = .ok d) : IsIdentifier (strip id) := by
  have isIdentifier : ∀ {label value : String}, opIdentifier id label = .ok value →
      IsIdentifier (strip id) := by
    intro label value h
    have hidentifier := opIdentifier_isIdentifier h
    rw [stripped h] at hidentifier
    exact hidentifier
  cases c with
  | registerAgent =>
    cases hc
    obtain ⟨_, hid, _⟩ := bind_ok.mp (snapshot_some hd)
    exact isIdentifier hid
  | registerResourcePool =>
    cases hc
    obtain ⟨_, hid, _⟩ := bind_ok.mp (snapshot_some hd)
    exact isIdentifier hid
  | createGoal =>
    cases hc
    obtain ⟨_, hid, _⟩ := bind_ok.mp (snapshot_some hd)
    exact isIdentifier hid
  | createPlan =>
    cases hc
    obtain ⟨_, _, hd⟩ := bind_ok.mp (snapshot_some hd)
    obtain ⟨plan, hplan, _⟩ := bind_ok.mp hd
    obtain ⟨_, hid, _⟩ := bind_ok.mp hplan
    exact isIdentifier hid
  | replan =>
    cases hc
    obtain ⟨_, _, hd⟩ := bind_ok.mp (snapshot_some hd)
    obtain ⟨_, _, hd⟩ := bind_ok.mp hd
    obtain ⟨_, _, hd⟩ := bind_ok.mp hd
    obtain ⟨_, _, hd⟩ := bind_ok.mp hd
    obtain ⟨_, _, hd⟩ := bind_ok.mp hd
    obtain ⟨_, _, hd⟩ := bind_ok.mp hd
    obtain ⟨plan, hplan, _⟩ := bind_ok.mp hd
    obtain ⟨_, hid, _⟩ := bind_ok.mp hplan
    exact isIdentifier hid
  | _ => cases hc

end

section
variable {s s' : OperationalState} {c : Call}

/-- No goal is removed. -/
theorem goal_effect (he : Effect s c s') {id : String} (h : ∃ goal, s.goals.get id = some goal) :
    ∃ goal, s'.goals.get id = some goal := by
  obtain ⟨goal, h⟩ := h
  cases he with
  | goalCreated => exact exists_get_set h
  | goalMoved => exact exists_get_set h
  | planCreated => exact exists_get_set h
  | planReplaced => exact exists_get_set h
  | outcome => exact exists_get_set h
  | cancelled => exact exists_get_set h
  | _ => exact ⟨goal, h⟩

theorem goals_effect (he : Effect s c s')
    (h : ∀ id plan, s.plans.get id = some plan → ∃ goal, s.goals.get plan.goalId = some goal) :
    ∀ id plan, s'.plans.get id = some plan → ∃ goal, s'.goals.get plan.goalId = some goal := by
  have hkept : ∀ id plan, s.plans.get id = some plan →
      ∃ goal, s'.goals.get plan.goalId = some goal :=
    fun id plan hplan => goal_effect he (h id plan hplan)
  cases he with
  | planCreated plan goal clock new found =>
    refine forall_setPlan hkept ?_ rfl
    exact ⟨_, Dict.get_set_self _ _ _⟩
  | planReplaced old new goal clock found_old status idle isNew same found =>
    refine forall_setPlans hkept ?_ ?_ rfl
    · exact ⟨_, Dict.get_set_self _ _ _⟩
    · rw [same]
      exact ⟨_, Dict.get_set_self _ _ _⟩
  | allocated plan step clock located =>
    refine forall_setPlan hkept ?_ rfl
    exact hkept _ plan located.1
  | assigned plan step agent clock located =>
    refine forall_setPlan hkept ?_ rfl
    exact hkept _ plan located.1
  | dispatched plan step agent clock located =>
    refine forall_setPlan hkept ?_ rfl
    exact hkept _ plan located.1
  | started plan step clock located =>
    refine forall_setPlan hkept ?_ rfl
    exact hkept _ plan located.1
  | outcome plan settled step goal agentId agent actual outcome alerts learning clock located
      working assignee found unrecorded pools found_goal settled_eq =>
    refine forall_setPlan hkept ?_ rfl
    rw [settle_goalId, settled_eq]
    exact ⟨_, Dict.get_set_self _ _ _⟩
  | cancelled plan step goal agents alerts clock located =>
    refine forall_setPlan hkept ?_ rfl
    exact ⟨_, Dict.get_set_self _ _ _⟩
  | _ => exact hkept

theorem recordsSound_bootstrap (stamp : Instant) : RecordsSound (operationalState stamp) := by
  refine ⟨⟨?_, ?_, ?_, ?_⟩, ?_, ?_⟩
  all_goals
    intro id v hv
    cases hv

end

/-- **The records of every reachable world are well formed.** -/
theorem Reachable.recordsSound {py : Python} {l : Ledger} (h : Reachable py l) : l.Has RecordsSound :=
  h.has_drafted recordsSound_bootstrap fun _ _ _ _ hs hd =>
    ⟨hs.keys.effect (fun _ hid => newId_isIdentifier hid hd) (draft_effect hd),
      built_draft hs.built hd, goals_effect (draft_effect hd) hs.goals⟩

/-- Every change of pools that are under identifiers has a valid path. -/
theorem keysOk_pools {s : OperationalState} {amounts : Dict String Rat} {f : Rat → Pool → Pool} {cs : List Change}
    (h : poolChanges s amounts f = .ok cs) (hkeys : AllKeys IsIdentifier s) : keysOk cs = true := by
  apply List.all_eq_true.mpr
  intro c hc
  obtain ⟨amount, _, hamount⟩ := mem_of_mapM h c hc
  obtain ⟨pool, hpool, hamount⟩ := bind_ok.mp hamount
  cases hamount
  simp only [Change.path, List.all_cons, List.all_nil,
    (hkeys.pools amount.1 pool (orRaise_ok.mp hpool)).length]
  decide

end Edon.Operations
