import EdonPlatform.Lib.Run
import EdonPlatform.Operations.Effects

/- Goals and the table `GOAL_TRANSITIONS`. Six operations write the status of a goal.
   `create_goal` writes it once, `transition_goal` consults the table, and
   `create_plan` and `replan` check that the goal is active or blocked; but
   `cancel_step` and `record_step_outcome` derive the status from the plan alone.

   What is proved: `effect_follows_iff`, that an operation respects the table exactly
   when the goal it writes is in one of the statuses `GoalFits` names, and
   `goals_follow_iff`, the same for every sequence of operations, with its
   consequence for goals in a terminal status. `goal_leaves_cancelled` is a sequence
   in which a cancelled goal becomes blocked. -/
namespace Edon.Operations
open Transition

/-- The status stays or moves along an edge of the table. -/
def Moves (a b : GoalStatus) : Prop := b = a ∨ b ∈ goalTransitions a

instance (a b : GoalStatus) : Decidable (Moves a b) :=
  inferInstanceAs (Decidable (b = a ∨ b ∈ goalTransitions a))

/-- Every goal of `s` is there in `s'`, and its status stayed or moved along an edge. -/
def GoalsFollow (s s' : OperationalState) : Prop :=
  ∀ id g, s.goals.get id = some g → ∃ g', s'.goals.get id = some g' ∧ Moves g.status g'.status

/-- Every step of the plan but `stepId` has succeeded. -/
def OthersSucceeded (plan : Plan) (stepId : String) : Prop :=
  ∀ id other, plan.steps.get id = some other → id ≠ stepId → other.status = .succeeded

/-- The goal whose status the call derives from its plan can make the move. -/
def GoalFits (s : OperationalState) : Call → Prop
  | .cancelStep planId _ _ => ∀ plan goal,
      s.plans.get (strip planId) = some plan → s.goals.get plan.goalId = some goal →
      goal.status = .active ∨ goal.status = .blocked
  | .recordStepOutcome planId stepId success _ _ _ actualOutcomes => ∀ plan step goal,
      Located s planId stepId plan step → s.goals.get plan.goalId = some goal →
      if succeeds step success actualOutcomes then
        OthersSucceeded plan (strip stepId) → goal.status = .active ∨ goal.status = .completed
      else goal.status = .active ∨ goal.status = .blocked
  | _ => True

/-! ## Moves -/

theorem moves_refl (a : GoalStatus) : Moves a a := .inl rfl

theorem moves_blocked (a : GoalStatus) : Moves a .blocked ↔ a = .active ∨ a = .blocked := by
  cases a <;> decide

theorem moves_completed (a : GoalStatus) :
    Moves a .completed ↔ a = .active ∨ a = .completed := by
  cases a <;> decide

theorem moves_active {a : GoalStatus} (h : a = .active ∨ a = .blocked) : Moves a .active := by
  rcases h with rfl | rfl <;> decide

/-- No edge leaves a status without edges. -/
theorem moves_terminal {a b : GoalStatus} (ha : goalTransitions a = []) (h : Moves a b) :
    b = a := by
  rcases h with h | h
  · exact h
  · rw [ha] at h
    cases h

/-! ## One operation -/

section
variable {s s' : OperationalState}

theorem follows_of_same (h : s'.goals = s.goals) : GoalsFollow s s' := by
  intro id g hg
  refine ⟨g, ?_, moves_refl _⟩
  rw [h]
  exact hg

theorem follows_new {id : String} {g : Goal} (hnew : s.goals.get id = none)
    (h : s'.goals = s.goals.set id g) : GoalsFollow s s' := by
  intro id' g' hg'
  have hne : id ≠ id' := by
    rintro rfl
    rw [hnew] at hg'
    cases hg'
  refine ⟨g', ?_, moves_refl _⟩
  rw [h, Dict.get_set_ne _ _ hne]
  exact hg'

/-- Writing one goal follows the table when its status does. -/
theorem follows_set_iff {id : String} {g g' : Goal} (hg : s.goals.get id = some g)
    (h : s'.goals = s.goals.set id g') : GoalsFollow s s' ↔ Moves g.status g'.status := by
  constructor
  · intro hfollow
    obtain ⟨g'', hg'', hmoves⟩ := hfollow id g hg
    rw [h, Dict.get_set_self] at hg''
    cases hg''
    exact hmoves
  · intro hmoves id' h' hh'
    by_cases hid : id = id'
    · subst hid
      rw [hg] at hh'
      cases hh'
      refine ⟨g', ?_, hmoves⟩
      rw [h, Dict.get_set_self]
    · refine ⟨h', ?_, moves_refl _⟩
      rw [h, Dict.get_set_ne _ _ hid]
      exact hh'

/-- All steps have succeeded once `stepId` has, when the others had before. -/
theorem all_succeeded_iff (plan : Plan) (stepId : String) (step : Step)
    (h : step.status = .succeeded) :
    ((plan.withStep stepId step).steps.values.all (fun step => step.status = .succeeded)) = true ↔
      OthersSucceeded plan stepId := by
  simp only [List.all_eq_true, Dict.mem_values, decide_eq_true_eq, Plan.withStep]
  constructor
  · intro hall id other hother hne
    apply hall other
    refine ⟨id, ?_⟩
    rw [Dict.get_set_ne _ _ (Ne.symm hne)]
    exact hother
  · rintro hothers other ⟨id, hother⟩
    rw [Dict.get_set] at hother
    split at hother
    · cases hother
      exact h
    · next hne => exact hothers id other hother (fun heq => hne heq.symm)

/-- **One operation follows the table exactly when the goal it writes fits.** -/
theorem effect_follows_iff {c : Call} (h : Effect s c s') : GoalsFollow s s' ↔ GoalFits s c := by
  cases h with
  | goalCreated goal clock new => exact iff_of_true (follows_new new rfl) trivial
  | goalMoved goal status clock found named edge =>
    exact iff_of_true ((follows_set_iff found rfl).mpr (.inr edge)) trivial
  | planCreated plan goal clock new found =>
    obtain ⟨goal', hgoal', hstatus⟩ := new.goal
    rw [found] at hgoal'
    cases hgoal'
    exact iff_of_true ((follows_set_iff found rfl).mpr (moves_active hstatus)) trivial
  | planReplaced old new goal clock found_old status idle isNew same found =>
    obtain ⟨goal', hgoal', hstatus⟩ := isNew.goal
    rw [same, found] at hgoal'
    cases hgoal'
    exact iff_of_true ((follows_set_iff found rfl).mpr (moves_active hstatus)) trivial
  | @outcome planId stepId success summary payload outcomeId actualOutcomes plan settled step goal
      agentId agent actual outcome alerts learning clock located working assignee found unrecorded
      pools found_goal settled_eq =>
    rw [follows_set_iff found_goal rfl]
    have hfits : GoalFits s (.recordStepOutcome planId stepId success summary payload outcomeId
        actualOutcomes) ↔
        if succeeds step success actualOutcomes then
          OthersSucceeded plan (strip stepId) → goal.status = .active ∨ goal.status = .completed
        else goal.status = .active ∨ goal.status = .blocked := by
      constructor
      · intro h
        exact h plan step goal located found_goal
      · intro h plan' step' goal' located' found'
        obtain ⟨hplan, hstep⟩ := located'
        rw [located.1] at hplan
        cases hplan
        rw [located.2] at hstep
        cases hstep
        rw [found_goal] at found'
        cases found'
        exact h
    rw [hfits]
    cases hsucceeds : succeeds step success actualOutcomes with
    | false => exact moves_blocked goal.status
    | true =>
      have hall := all_succeeded_iff plan (strip stepId) { step with
        status := .succeeded
        completedAt := some clock
        actualOutcomes := some actual } rfl
      rw [hsucceeds] at settled_eq
      subst settled_eq
      by_cases hothers : OthersSucceeded plan (strip stepId)
      · -- the plan completes, and with it the goal
        simp only [Goal.settle, if_true, if_pos (hall.mpr hothers)]
        rw [moves_completed]
        exact ⟨fun h _ => h, fun h => h hothers⟩
      · simp only [Goal.settle, if_true, if_neg (mt hall.mp hothers)]
        exact iff_of_true (moves_refl _) (fun h => absurd h hothers)
  | @cancelled planId stepId reason plan step goal agents alerts clock located live pools
      found_goal =>
    rw [follows_set_iff found_goal rfl]
    show Moves goal.status .blocked ↔ _
    rw [moves_blocked]
    constructor
    · intro h plan' goal' hplan hgoal
      rw [located.1] at hplan
      cases hplan
      rw [found_goal] at hgoal
      cases hgoal
      exact h
    · intro h
      exact h plan goal located.1 found_goal
  | _ => exact iff_of_true (follows_of_same rfl) trivial

end

/-! ## Sequences of operations -/

/-- The world after a call, whatever the call returned. -/
def next (py : Python) (l : Ledger) (e : Call × Keywords) : Ledger := (runCall py l e).2

/-- Every goal of the first version is there in the second and followed the table. -/
def Ledger.Follows (l l' : Ledger) : Prop :=
  ∀ s, l.state = some s → ∃ s', l'.state = some s' ∧ GoalsFollow s s'

def Ledger.Fits (l : Ledger) (c : Call) : Prop := ∀ s, l.state = some s → GoalFits s c

theorem next_follows_iff (py : Python) (l : Ledger) (e : Call × Keywords) :
    l.Follows (next py l e) ↔ (next py l e ≠ l → l.Fits e.1) := by
  rcases run_cases py l e with hsame | ⟨d, hdraft, hcommitted⟩
  · -- nothing was recorded
    have hsame : next py l e = l := hsame
    rw [hsame]
    refine iff_of_true ?_ (fun hne => absurd rfl hne)
    intro s hs
    exact ⟨s, hs, follows_of_same rfl⟩
  · have hne : next py l e ≠ l := by
      intro heq
      have hversion := hcommitted.version
      rw [show (runCall py l e).2 = l from heq] at hversion
      omega
    have hstep : StateStep e.1 l.state (next py l e).state :=
      commits_state (k := e.2) ⟨d, hdraft, hcommitted⟩
    generalize hs' : (next py l e).state = o' at hstep
    generalize hs : l.state = o at hstep
    cases hstep with
    | initialized hc now =>
      refine iff_of_true ?_ ?_
      · intro s hsome
        rw [hs] at hsome
        cases hsome
      · intro _ s hsome
        rw [hs] at hsome
        cases hsome
    | effect heffect =>
      have hiff := effect_follows_iff heffect
      constructor
      · intro hfollows _ s hsome
        obtain ⟨t, ht, hfollow⟩ := hfollows s hsome
        rw [hs] at hsome
        cases hsome
        rw [hs'] at ht
        cases ht
        exact hiff.mp hfollow
      · intro hfits s hsome
        have hfit := hfits hne s hsome
        rw [hs] at hsome
        cases hsome
        exact ⟨_, hs', hiff.mpr hfit⟩

/-- The goals of `l` in a status no edge leaves are in that status in `l'`. -/
def Ledger.KeepsTerminal (l l' : Ledger) : Prop :=
  ∀ s id g, l.state = some s → s.goals.get id = some g → goalTransitions g.status = [] →
    ∃ s' g', l'.state = some s' ∧ s'.goals.get id = some g' ∧ g'.status = g.status

theorem keepsTerminal_of_follows {l l' : Ledger} (h : l.Follows l') : l.KeepsTerminal l' := by
  intro s id g hs hg hterminal
  obtain ⟨s', hs', hfollow⟩ := h s hs
  obtain ⟨g', hg', hmoves⟩ := hfollow id g hg
  exact ⟨s', g', hs', hg', moves_terminal hterminal hmoves⟩

theorem keepsTerminal_refl (l : Ledger) : l.KeepsTerminal l :=
  fun s _ g hs hg _ => ⟨s, g, hs, hg, rfl⟩

theorem keepsTerminal_trans (l m n : Ledger) (h₁ : l.KeepsTerminal m) (h₂ : m.KeepsTerminal n) :
    l.KeepsTerminal n := by
  intro s id g hs hg hterminal
  obtain ⟨s₁, g₁, hs₁, hg₁, heq₁⟩ := h₁ s id g hs hg hterminal
  rw [← heq₁] at hterminal ⊢
  exact h₂ s₁ id g₁ hs₁ hg₁ hterminal

/-- **Goals follow the table exactly while every recorded operation fits.** For every
world and every sequence of operations on it: the goals follow the table between any
two consecutive versions if and only if each operation that records an event finds
the goal it writes in a status that fits; and then a goal in a terminal status is in
that status ever after. -/
theorem goals_follow_iff (py : Python) (l : Ledger) (calls : List (Call × Keywords)) :
    (Along (next py) (fun l _ l' => l.Follows l') l calls ↔
      Along (next py) (fun l e l' => l' ≠ l → l.Fits e.1) l calls) ∧
    (Along (next py) (fun l e l' => l' ≠ l → l.Fits e.1) l calls →
      l.KeepsTerminal (exec (next py) l calls)) := by
  have hiff : Along (next py) (fun l _ l' => l.Follows l') l calls ↔
      Along (next py) (fun l e l' => l' ≠ l → l.Fits e.1) l calls :=
    along_congr (next_follows_iff py) l calls
  refine ⟨hiff, ?_⟩
  intro hfits
  apply Along.relates keepsTerminal_refl keepsTerminal_trans
  exact (hiff.mpr hfits).mono (fun _ _ h => keepsTerminal_of_follows h)

/-! ## A cancelled goal that becomes blocked -/

/-- A runtime that knows one timestamp. -/
def samplePython : Python where
  repr := fun _ => ""
  sha256 := id
  fromisoformat := fun s =>
    if s = "2026-01-01T00:00:00+00:00" then .instant 1767225600000000 else .invalid
  isoformat := fun _ => "2026-01-01T00:00:00+00:00"

def sampleKeywords (eventId : String) (expectedVersion : Int) : Keywords where
  eventId := eventId
  actorId := "operator"
  expectedVersion := expectedVersion
  authorizationRef := "approval-1"
  timestamp := none
  now := 1767225600000000

def sampleLedger : Ledger :=
  createdLedger (some (operationalState 1767225600000000)) "operator" "approval-1" []

theorem sampleLedger_bootstrapped :
    bootstrapWorld samplePython (.obj []) "operator" "approval-1" [] none 1767225600000000 =
      .ok sampleLedger := by
  decide +kernel

/-- A goal with a plan of one step. -/
def plannedGoal : List (Call × Keywords) :=
  [(.createGoal "goal-1" "Restore the service" 50 none [] none none [] true,
      sampleKeywords "event-1" 0),
   (.createPlan "plan-1" "goal-1"
      [.obj [("step_id", .str "step-1"), ("action", .str "Inspect the pump")]]
      "2026-01-01T00:00:00+00:00" none, sampleKeywords "event-2" 1)]

def cancelledGoal : List (Call × Keywords) :=
  plannedGoal ++ [(.transitionGoal "goal-1" "CANCELLED" "no longer needed",
    sampleKeywords "event-3" 2)]

/-- The status of a goal of a world. -/
def Ledger.goalStatus (l : Ledger) (id : String) : Option GoalStatus :=
  (l.state.bind (fun s => s.goals.get id)).map (fun g => g.status)

theorem Ledger.Follows.goalStatus {l l' : Ledger} (h : l.Follows l') {id : String}
    {a b : GoalStatus} (ha : l.goalStatus id = some a) (hb : l'.goalStatus id = some b) :
    Moves a b := by
  unfold Ledger.goalStatus at ha hb
  obtain ⟨g, hg, rfl⟩ := Option.map_eq_some_iff.mp ha
  obtain ⟨s, hs, hg⟩ := Option.bind_eq_some_iff.mp hg
  obtain ⟨s', hs', hfollow⟩ := h s hs
  obtain ⟨g', hg', hmoves⟩ := hfollow id g hg
  rw [hs'] at hb
  simp only [Option.bind_some, hg', Option.map_some, Option.some.injEq] at hb
  rwa [← hb]

theorem cancelled_then_blocked :
    (exec (next samplePython) sampleLedger cancelledGoal).goalStatus "goal-1" =
      some .cancelled ∧
    (next samplePython (exec (next samplePython) sampleLedger cancelledGoal)
      (.cancelStep "plan-1" "step-1" "the goal was cancelled",
        sampleKeywords "event-4" 3)).goalStatus "goal-1" = some .blocked := by
  decide +kernel

/-- **A cancelled goal becomes blocked.** A goal is created and planned, the goal is
cancelled, and then its step is: the world is a bootstrapped one, every operation is
recorded, and the last takes the goal from `CANCELLED` to `BLOCKED`. -/
theorem goal_leaves_cancelled :
    bootstrapWorld samplePython (.obj []) "operator" "approval-1" [] none 1767225600000000 =
      .ok sampleLedger ∧
    ¬ ∀ calls, Along (next samplePython) (fun l _ l' => l.Follows l') sampleLedger calls := by
  refine ⟨sampleLedger_bootstrapped, ?_⟩
  intro hall
  have halong := (along_append _ _ _ _ _).mp (hall (cancelledGoal ++
    [(.cancelStep "plan-1" "step-1" "the goal was cancelled", sampleKeywords "event-4" 3)]))
  have hfollows := halong.2.1
  have hmoves := hfollows.goalStatus cancelled_then_blocked.1 cancelled_then_blocked.2
  exact absurd hmoves (by decide)

end Edon.Operations
