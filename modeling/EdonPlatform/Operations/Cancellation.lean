import EdonPlatform.Operations.Mirroring
import EdonPlatform.Operations.Records

/- When `cancel_step` releases a step (edon/operations/control.py). Its event raises an alert
   under `replan:cancel:<plan_id>:<step_id>`, and a path of an event has no part of more than
   200 characters; but a plan and a step may each have an identifier of 200.

   What is proved: `cancelled_iff`, that the cancellation of a live step of a reachable world is
   recorded exactly when the reason is explicit and the two identifiers together have no more
   than 185 characters. `long_step_stays` is a step that cannot be cancelled. -/
namespace Edon.Operations
open World Transition

/-! ## The draft -/

def cancelAlert (planId stepId reason : String) (stamp : Instant) : Alert where
  alertId := "replan:cancel:" ++ taskId planId stepId
  type := .replanRequired
  severity := "HIGH"
  subject := .step planId stepId
  reason := reason
  raisedAt := stamp

def Step.cancel (step : Step) (reason : String) (stamp : Instant) : Step :=
  { step with
    status := .cancelled
    completedAt := some stamp
    cancellationReason := some reason
    resourceAllocation := ∅ }

def cancelDraft (s : OperationalState) (planId stepId reason : String) (plan : Plan) (step : Step)
    (goal : Goal) (stamp : Instant) (pools : List Change) : Draft where
  eventType := "STEP_CANCELLED"
  changes := pools ++ releaseAgent s (taskId planId stepId) step.assignedAgentId ++
    [.plan planId { plan.withStep stepId (step.cancel reason stamp) with
       status := .needsReplan
       updatedAt := stamp },
     .goal plan.goalId { goal with status := .blocked, updatedAt := stamp },
     .alert (cancelAlert planId stepId reason stamp).alertId (cancelAlert planId stepId reason stamp),
     .clock stamp]
  timestamp := stamp

section
variable {py : Python} {s : OperationalState} {k : Keywords} {d : Draft}
  {planId stepId reason : String}

theorem cancelStep_iff :
    cancelStep py s planId stepId reason k = .ok d ↔
      Identifies "plan_id" planId ∧ Identifies "step_id" stepId ∧
      ∃ plan step stamp pools goal, Located s planId stepId plan step ∧ step.status.live = true ∧
        5 ≤ (strip reason).length ∧ k.stamp py = .ok stamp ∧
        poolChanges s step.resourceAllocation
          (Pool.release (taskId (strip planId) (strip stepId))) = .ok pools ∧
        s.goals.get plan.goalId = some goal ∧
        d = cancelDraft s (strip planId) (strip stepId) (strip reason) plan step goal stamp pools := by
  constructor
  · intro h
    obtain ⟨p, hp, h⟩ := bind_ok.mp h
    obtain ⟨q, hq, h⟩ := bind_ok.mp h
    obtain ⟨⟨plan, step⟩, hstep, h⟩ := bind_ok.mp h
    obtain ⟨_, hlive, h⟩ := bind_ok.mp h
    obtain ⟨_, hreason, h⟩ := bind_ok.mp h
    obtain ⟨stamp, hstamp, h⟩ := bind_ok.mp h
    obtain ⟨pools, hpools, h⟩ := bind_ok.mp h
    obtain ⟨goal, hgoal, h⟩ := bind_ok.mp h
    cases h
    obtain ⟨hp, rfl⟩ := opIdentifier_iff.mp hp
    obtain ⟨hq, rfl⟩ := opIdentifier_iff.mp hq
    exact ⟨hp, hq, plan, step, stamp, pools, goal, planStep_iff.mp hstep, require_ok.mp hlive,
      of_decide_eq_true (require_ok.mp hreason), hstamp, hpools, orRaise_ok.mp hgoal, rfl⟩
  · intro ⟨hp, hq, plan, step, stamp, pools, goal, hlocated, hlive, hreason, hstamp, hpools, hgoal,
      hd⟩
    rw [hd]
    refine bind_ok.mpr ⟨_, hp, bind_ok.mpr ⟨_, hq, bind_ok.mpr ⟨_, planStep_iff.mpr hlocated, ?_⟩⟩⟩
    refine bind_ok.mpr ⟨(), require_ok.mpr hlive, ?_⟩
    refine bind_ok.mpr ⟨(), require_ok.mpr (decide_eq_true hreason), ?_⟩
    refine bind_ok.mpr ⟨stamp, hstamp, bind_ok.mpr ⟨pools, hpools, ?_⟩⟩
    exact bind_ok.mpr ⟨goal, orRaise_ok.mpr hgoal, rfl⟩

theorem draft_cancel : (Call.cancelStep planId stepId reason).draft py k (some s) =
    cancelStep py s planId stepId reason k := by
  rw [Call.draft, snapshot, orRaise]
  exact pure_bind s fun s => cancelStep py s planId stepId reason k

/-! ## The paths of its event -/

theorem keysOk_release (hkeys : AllKeys IsIdentifier s) (task : String) (assignee : Option String) :
    keysOk (releaseAgent s task assignee) = true := by
  unfold releaseAgent
  cases assignee with
  | none => rfl
  | some agentId =>
    dsimp only
    cases hagent : s.agents.get agentId with
    | none => rfl
    | some agent =>
      simp only [keysOk, Change.path, List.all_cons, List.all_nil,
        (hkeys.agents agentId agent hagent).length]
      decide

/-- The alert has a path when the identifiers are not too long. -/
theorem partOk_alert (planId stepId : String) :
    partOk ("replan:cancel:" ++ taskId planId stepId) = true ↔
      planId.length + stepId.length ≤ 185 := by
  have hlength : ("replan:cancel:" ++ taskId planId stepId).length =
      15 + (planId.length + stepId.length) := by
    unfold taskId
    simp only [String.length_append]
    have : "replan:cancel:".length = 14 := rfl
    have : ":".length = 1 := rfl
    omega
  have hne : "replan:cancel:" ++ taskId planId stepId ≠ "" := by
    intro heq
    rw [heq] at hlength
    have : "".length = 0 := rfl
    omega
  unfold partOk
  rw [hlength]
  simp only [Bool.and_eq_true, decide_eq_true_eq, ne_eq, hne, not_false_eq_true, true_and]
  omega

theorem keysOk_four {p g a : String} (hp : partOk p = true) (hg : partOk g = true) (plan : Plan)
    (goal : Goal) (alert : Alert) (stamp : Instant) :
    keysOk [.plan p plan, .goal g goal, .alert a alert, .clock stamp] = partOk a := by
  simp only [keysOk, Change.path, List.all_cons, List.all_nil, hp, hg]
  have hparts : partOk "operations" = true ∧ partOk "plans" = true ∧ partOk "goals" = true ∧
      partOk "alerts" = true ∧ partOk "clock" = true ∧ partOk "now" = true := by decide
  simp [hparts]

theorem keysOk_cancel (hkeys : AllKeys IsIdentifier s) {plan : Plan} {step : Step} {goal : Goal}
    (stamp : Instant) {pools : List Change} (hplan : s.plans.get planId = some plan)
    (hgoal : s.goals.get plan.goalId = some goal)
    (hpools : poolChanges s step.resourceAllocation (Pool.release (taskId planId stepId)) =
      .ok pools) :
    keysOk (cancelDraft s planId stepId reason plan step goal stamp pools).changes = true ↔
      planId.length + stepId.length ≤ 185 := by
  rw [← partOk_alert]
  unfold cancelDraft
  rw [keysOk_append, keysOk_append, keysOk_pools hpools hkeys, keysOk_release hkeys]
  rw [keysOk_four (hkeys.plans _ _ hplan).length (hkeys.goals _ _ hgoal).length]
  exact Iff.rfl

/-! ## The cancellation -/

theorem Reachable.backed {l : Ledger} (h : Reachable py l) : l.Has Backed :=
  h.has (fun stamp => (registered_bootstrap stamp).backed) fun _ _ _ => backed_effect

/-- What a live step holds has pools. -/
theorem Backed.hasPools (h : Backed s) {plan : Plan} {step : Step}
    (hlocated : Located s planId stepId plan step) (hlive : step.status.live = true) :
    HasPools s step.resourceAllocation := by
  intro r amount hr
  refine h.pools r (strip planId, strip stepId) amount ?_
  rw [holders_eq (step_located hlocated.1 hlocated.2), holding_live hlive]
  exact hr

end

theorem eventType_cancelled :
    worldIdentifier "STEP_CANCELLED" "event_type" = .ok "STEP_CANCELLED" := by decide +kernel

section
variable {py : Python} {l : Ledger} {s : OperationalState} {planId stepId reason : String}
  {plan : Plan} {step : Step} {k : Keywords}

/-- The alert of a cancellation that was recorded has a path. -/
theorem cancelled_length (h : Reachable py l) (hs : l.state = some s)
    (hlocated : Located s planId stepId plan step) (hfresh : l.Fresh k.eventId)
    (hcancelled : Succeeds (runCall py l (.cancelStep planId stepId reason, k))) :
    5 ≤ (strip reason).length ∧ (strip planId).length + (strip stepId).length ≤ 185 := by
  obtain ⟨d, hd, hrequest, _⟩ := (succeeds_iff hs hfresh.unused).mp hcancelled
  obtain ⟨-, -, plan', step', stamp, pools, goal, hlocated', -, hreason, -, hpools, hgoal, rfl⟩ :=
    cancelStep_iff.mp (draft_cancel ▸ hd)
  obtain ⟨rfl, rfl⟩ := hlocated.unique hlocated'
  have hkeys := ((request_iff hfresh.identifier eventType_cancelled rfl rfl).mp hrequest).2
  exact ⟨hreason, (keysOk_cancel (h.recordsSound s hs).keys stamp hlocated.1 hgoal hpools).mp hkeys⟩

end

/-- **Which live steps can be cancelled.** In every reachable world, the cancellation of a live step
under a fresh identifier, at the current version and on behalf of somebody accountable, is recorded
exactly when the reason has five characters or more and the identifiers of plan and step together
have no more than 185. -/
theorem cancelled_iff (py : Python) (l : Ledger) (h : Reachable py l) (s : OperationalState)
    (hs : l.state = some s) (planId stepId reason : String) (plan : Plan) (step : Step)
    (hlocated : Located s planId stepId plan step) (hlive : step.status.live = true) (k : Keywords)
    (hfresh : l.Fresh k.eventId) (hversion : k.expectedVersion = l.version)
    (haccountable : k.Accountable) (htime : ∃ stamp, k.stamp py = .ok stamp) :
    Succeeds (runCall py l (.cancelStep planId stepId reason, k)) ↔
      5 ≤ (strip reason).length ∧ (strip planId).length + (strip stepId).length ≤ 185 := by
  have hsound := h.recordsSound s hs
  have hplanId := hsound.keys.plans _ _ hlocated.1
  have hstepId := ((hsound.built _ _ hlocated.1).named _ _ hlocated.2).2
  constructor
  · exact cancelled_length h hs hlocated hfresh
  · intro ⟨hreason, hlength⟩
    rw [succeeds_iff hs hfresh.unused]
    obtain ⟨stamp, hstamp⟩ := htime
    obtain ⟨goal, hgoal⟩ := hsound.goals _ _ hlocated.1
    obtain ⟨pools, hpools⟩ := poolChanges_succeeds (Pool.release (taskId (strip planId)
      (strip stepId))) ((h.backed s hs).hasPools hlocated hlive)
    refine ⟨_, draft_cancel.trans (cancelStep_iff.mpr ⟨hplanId.identifies "plan_id",
      hstepId.identifies "step_id", plan, step, stamp, pools, goal, hlocated, hlive, hreason, hstamp,
      hpools, hgoal, rfl⟩), ?_, hversion⟩
    exact (request_iff hfresh.identifier eventType_cancelled rfl rfl).mpr
      ⟨haccountable, (keysOk_cancel hsound.keys stamp hlocated.1 hgoal hpools).mpr hlength⟩

theorem cancelled_pump :
    ∃ s, pumpPlanned.state = some s ∧
      (Succeeds (runCall samplePython pumpPlanned (.cancelStep "plan-1" "step-1" "No pump needed",
        sampleKeywords "event-5" 4)) ↔
      5 ≤ (strip "No pump needed").length ∧
        (strip "plan-1").length + (strip "step-1").length ≤ 185) := by
  have hstep : (do
      let s ← pumpPlanned.state
      let plan ← s.plans.get (strip "plan-1")
      let step ← plan.steps.get (strip "step-1")
      some step.status) = some .pending := by decide +kernel
  obtain ⟨s, hs, hstep⟩ := Option.bind_eq_some_iff.mp hstep
  obtain ⟨plan, hplan, hstep⟩ := Option.bind_eq_some_iff.mp hstep
  obtain ⟨step, hget, hstep⟩ := Option.bind_eq_some_iff.mp hstep
  have hpending : step.status = .pending := Option.some.inj hstep
  exact ⟨s, hs, cancelled_iff samplePython pumpPlanned
    ⟨sampleLedger, _, .bootstrapped sampleLedger_bootstrapped, rfl⟩ s hs "plan-1" "step-1"
    "No pump needed" plan step ⟨hplan, hget⟩ (by rw [hpending]; rfl) (sampleKeywords "event-5" 4)
    (Ledger.fresh_of_not_mem ⟨"event-5", by decide +kernel⟩ (by decide +kernel)) (by decide +kernel)
    ⟨⟨"operator", by decide +kernel⟩, ⟨"approval-1", by decide +kernel⟩⟩ ⟨_, rfl⟩⟩

/-! ## A step that cannot be cancelled -/

/-- Two identifiers of 93 characters, 186 together. -/
def longPlanId : String := String.ofList (List.replicate 93 'p')

def longStepId : String := String.ofList (List.replicate 93 's')

/-- A plan whose step has a long identifier, as has the plan. -/
def longPlanned : Ledger :=
  exec (next samplePython) sampleLedger
    [(.createGoal "goal-1" "Restore the service" 50 none [] none none [] true,
        sampleKeywords "event-1" 0),
     (.createPlan longPlanId "goal-1"
        [.obj [("step_id", .str longStepId), ("action", .str "Run the pump")]]
        "2026-01-01T00:00:00+00:00" none, sampleKeywords "event-2" 1)]

theorem strip_ofList {cs : List Char} (h : (cs.dropWhile isSpace).rdropWhile isSpace = cs) :
    strip (String.ofList cs) = String.ofList cs := by
  unfold strip
  rw [String.toList_ofList, h]

theorem strip_long : strip longPlanId = longPlanId ∧ strip longStepId = longStepId :=
  ⟨strip_ofList (by decide +kernel), strip_ofList (by decide +kernel)⟩

theorem length_long : longPlanId.length + longStepId.length = 186 := by
  unfold longPlanId longStepId
  rw [String.length_ofList, String.length_ofList]
  rfl

theorem longPlanned_step : (do
    let s ← longPlanned.state
    let plan ← s.plans.get longPlanId
    let step ← plan.steps.get longStepId
    some (step.status, longPlanned.version, longPlanned.entries.map fun e => e.request.eventId)) =
      some (.pending, 2, ["WORLD_CREATED", "event-1", "event-2"]) := by decide +kernel

/-- **A step that cannot be cancelled.** The plan and its step were admitted, and the step waits. -/
theorem long_step_stays :
    ¬ ∀ (l : Ledger), Reachable samplePython l → ∀ s, l.state = some s →
      ∀ planId stepId reason plan step k, Located s planId stepId plan step →
        step.status.live = true → 5 ≤ (strip reason).length → l.Fresh k.eventId →
          k.expectedVersion = l.version → k.Accountable →
            (∃ stamp, k.stamp samplePython = .ok stamp) →
              Succeeds (runCall samplePython l (.cancelStep planId stepId reason, k)) := by
  intro hall
  obtain ⟨s, hs, hstep⟩ := Option.bind_eq_some_iff.mp longPlanned_step
  obtain ⟨plan, hplan, hstep⟩ := Option.bind_eq_some_iff.mp hstep
  obtain ⟨step, hget, hstep⟩ := Option.bind_eq_some_iff.mp hstep
  obtain ⟨hpending, hversion, hentries⟩ : step.status = .pending ∧ longPlanned.version = 2 ∧
      longPlanned.entries.map (fun e => e.request.eventId) = ["WORLD_CREATED", "event-1", "event-2"] := by
    simpa using hstep
  have hreachable : Reachable samplePython longPlanned :=
    ⟨sampleLedger, _, .bootstrapped sampleLedger_bootstrapped, rfl⟩
  have hlocated : Located s longPlanId longStepId plan step := by
    unfold Located
    rw [strip_long.1, strip_long.2]
    exact ⟨hplan, hget⟩
  have hfresh : longPlanned.Fresh "event-3" := by
    refine Ledger.fresh_of_not_mem ⟨"event-3", by decide +kernel⟩ fun hmem => ?_
    rw [hentries] at hmem
    exact absurd hmem (by decide +kernel)
  have hcancelled := hall longPlanned hreachable s hs longPlanId longStepId "No pump needed" plan step
    (sampleKeywords "event-3" 2) hlocated (by rw [hpending]; rfl) (by decide +kernel) hfresh
    hversion.symm ⟨⟨"operator", by decide +kernel⟩, ⟨"approval-1", by decide +kernel⟩⟩ ⟨_, rfl⟩
  have hlength := (cancelled_length hreachable hs hlocated hfresh hcancelled).2
  rw [strip_long.1, strip_long.2, length_long] at hlength
  exact absurd hlength (by decide)

end Edon.Operations
