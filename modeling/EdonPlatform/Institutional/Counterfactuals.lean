import EdonPlatform.Institutional.Causality

/- Counterfactual branches of a trajectory (edon/actionnet/product/counterfactuals.py): each forks
   the trajectory at its start, changes one thing and replays the events.

   The parent is a `Trajectory`, with all the fields `generate` asks for. An exception of the replay
   gets the class of the module, with its message.

   What is proved:
     1. `replay_parent` — a trajectory replays to itself with the horizons `generate` reads off it.
     2. `no_retroactive_effect` — a branch agrees with its parent at every horizon before its
        intervention, in all attributes where only beliefs or behavior change, and at the end where
        an event is shifted by nothing.

   Correspondence (Python ↔ Lean):
     the cases of the intervention ↔ `forkAttribute`, `forkEvent`, `forkEpistemic`, `forkBehavior`
     the loop of `generate`        ↔ `branches`, with `branchOf` for one intervention
     `generate`                    ↔ `generate`, its result `Batch.json` -/
namespace Edon.Composition
open KeyedSort Checkpoints

def counterfactualError (message : String) : PyError := ⟨.counterfactualGenerationError, message⟩

/-! ## Interventions -/

/-- `INTERVENTIONS`. -/
inductive Intervention where
  | setAttribute | removeAttribute | shiftEvent | dropEvent | changeEpistemicStatus
  | changeBehaviorParameter
  deriving DecidableEq, Repr

def Intervention.name : Intervention → String
  | .setAttribute => "SET_ATTRIBUTE"
  | .removeAttribute => "REMOVE_ATTRIBUTE"
  | .shiftEvent => "SHIFT_EVENT"
  | .dropEvent => "DROP_EVENT"
  | .changeEpistemicStatus => "CHANGE_EPISTEMIC_STATUS"
  | .changeBehaviorParameter => "CHANGE_BEHAVIOR_PARAMETER"

def interventions : List Intervention :=
  [.setAttribute, .removeAttribute, .shiftEvent, .dropEvent, .changeEpistemicStatus,
   .changeBehaviorParameter]

/-- What is replayed in a branch. -/
structure Fork where
  initial : State
  events : List Event
  changedPath : String

/-- `raw.get(key, default)`. -/
def field (fields : List (String × PyValue)) (key : String) (default : PyValue) : PyValue :=
  (Assoc.find fields key).getD default

section
variable (rt : Runtime)

/-- `str(raw.get(key, ""))`. -/
def textField (fields : List (String × PyValue)) (key : String) : String :=
  (field fields key (.str "")).toStr rt.values

/-- `SET_ATTRIBUTE` and `REMOVE_ATTRIBUTE`. -/
def forkAttribute (batchId branchId : String) (operation : Operation) (parent : Trajectory)
    (fields : List (String × PyValue)) : Except PyError Fork := do
  let target := textField rt fields "target_object_id"
  let attributeName := textField rt fields "attribute"
  require (target ≠ "" && attributeName ≠ "")
    (counterfactualError "attribute intervention requires target and attribute")
  let atSeconds ← intOf rt (field fields "at_seconds" (.int 0))
  return {
    initial := parent.initialState
    events := parent.events ++ [{
      eventId := batchId ++ ":" ++ branchId ++ ":intervention"
      mechanismRef := "COUNTERFACTUAL_INTERVENTION"
      targetObjectId := target
      attributeName
      operation
      value := field fields "value" .null
      atSeconds
      order := -1 }]
    changedPath := "objects." ++ target ++ ".attributes." ++ attributeName }

/-- The events without the one with an id. -/
def dropped (events : List Event) (eventId : String) : List Event :=
  events.filter fun e => e.eventId ≠ eventId

/-- The events with the one with an id at another time. -/
def shifted (events : List Event) (eventId : String) (delta : Int) : List Event :=
  events.map fun e => if e.eventId = eventId then { e with atSeconds := e.atSeconds + delta } else e

/-- `SHIFT_EVENT` and `DROP_EVENT`. -/
def forkEvent (shift : Bool) (parent : Trajectory) (fields : List (String × PyValue)) :
    Except PyError Fork := do
  let eventId := textField rt fields "event_id"
  let ends := parent.events.filter fun e => e.eventId = eventId
  require (ends.length = 1)
    (counterfactualError "event intervention must identify one parent event")
  if shift then
    let delta ← intOf rt (field fields "delta_seconds" (.int 0))
    require (ends.all fun e => 0 ≤ e.atSeconds + delta)
      (counterfactualError "shifted event cannot occur before time zero")
    return ⟨parent.initialState, shifted parent.events eventId delta, "events." ++ eventId⟩
  else return ⟨parent.initialState, dropped parent.events eventId, "events." ++ eventId⟩

/-- The state with another record of an object. -/
def State.setObject (s : State) (id : String) (o : ObjectState) : State :=
  { s with objects := s.objects.set id o }

/-- `CHANGE_EPISTEMIC_STATUS`. -/
def forkEpistemic (parent : Trajectory) (fields : List (String × PyValue)) : Except PyError Fork := do
  let target := textField rt fields "target_object_id"
  let object ← orRaise (counterfactualError "epistemic intervention target does not exist")
    (parent.initialState.objects.get target)
  let status ← orRaise (keyError "status") (Assoc.find fields "status")
  let confidence ← floatOf rt (field fields "confidence" (.int 0))
  let statusText := Institutional.upperCase rt.ir (status.toStr rt.values)
  let epistemicState := Assoc.put (Assoc.put object.epistemicState "status" (.str statusText))
    "confidence" (.float confidence)
  return ⟨parent.initialState.setObject target { object with epistemicState }, parent.events,
    "objects." ++ target ++ ".epistemic_state"⟩

/-- `CHANGE_BEHAVIOR_PARAMETER`. -/
def forkBehavior (parent : Trajectory) (fields : List (String × PyValue)) : Except PyError Fork := do
  let target := textField rt fields "target_object_id"
  let parameter := textField rt fields "parameter"
  let object ← orRaise (counterfactualError "behavior intervention requires an actor target")
    (parent.initialState.objects.get target)
  let model ← orRaise (counterfactualError "behavior intervention requires an actor target")
    object.behaviorModel
  let behaviorModel := some (Assoc.put model parameter (field fields "value" .null))
  return ⟨parent.initialState.setObject target { object with behaviorModel }, parent.events,
    "objects." ++ target ++ ".behavior_model." ++ parameter⟩

def forkOf (batchId branchId : String) (parent : Trajectory) (fields : List (String × PyValue)) :
    Intervention → Except PyError Fork
  | .setAttribute => forkAttribute rt batchId branchId .set parent fields
  | .removeAttribute => forkAttribute rt batchId branchId .delete parent fields
  | .shiftEvent => forkEvent rt true parent fields
  | .dropEvent => forkEvent rt false parent fields
  | .changeEpistemicStatus => forkEpistemic rt parent fields
  | .changeBehaviorParameter => forkBehavior rt parent fields

/-! ## Branches -/

structure Branch where
  branchId : String
  intervention : List (String × PyValue)
  changedPath : String
  trajectory : Trajectory
  deterministicReplay : Bool
  parentFinalStateSha256 : String

def Branch.fields (b : Branch) : List (String × PyValue) :=
  [("branch_id", .str b.branchId), ("intervention", .dict b.intervention),
    ("changed_paths", .list [.str b.changedPath]), ("trajectory", b.trajectory.json),
    ("verification", .dict [("deterministic_replay", .bool b.deterministicReplay),
      ("parent_final_state_sha256", .str b.parentFinalStateSha256),
      ("branch_final_state_sha256", .str b.trajectory.finalStateSha256),
      ("outcome_changed", .bool (b.trajectory.finalStateSha256 ≠ b.parentFinalStateSha256))])]

def Branch.json (b : Branch) : PyValue :=
  .dict (b.fields ++ [("branch_sha256", .str ((PyValue.dict b.fields).sha256Json rt.values))])

/-- The horizons of a trajectory, as `generate` reads them. -/
def Trajectory.horizons (t : Trajectory) : List Institutional.Horizon :=
  t.horizonStates.map fun s => ⟨s.horizonId, s.durationSeconds, s.horizonId⟩

/-- `except CompositionExecutionError`. -/
def asCounterfactual {α : Type} (result : Except PyError α) : Except PyError α :=
  result.mapError fun e =>
    if e.cls = .compositionExecutionError then counterfactualError e.message else e

/-- `str(raw.get("branch_id", f"branch-{index + 1:03d}")).strip()`. -/
def branchIdOf (index : Nat) (fields : List (String × PyValue)) : String :=
  strip ((field fields "branch_id" (.str ("branch-" ++ padded (index + 1)))).toStr rt.values)

/-- The text of the type of an intervention. -/
def typeText (fields : List (String × PyValue)) : String :=
  Institutional.upperCase rt.ir (textField rt fields "type")

/-- The branch of an intervention, after its id is checked. -/
def branchOf (batchId branchId : String) (parent : Trajectory) (fields : List (String × PyValue)) :
    Except PyError Branch := do
  let intervention ← orRaise
    (counterfactualError ("unsupported counterfactual intervention: " ++ typeText rt fields))
    (named Intervention.name interventions (typeText rt fields))
  let fork ← forkOf rt batchId branchId parent fields intervention
  let trajectory ← asCounterfactual
    (replayTrajectory rt fork.initial fork.events parent.horizons)
  let replay ← asCounterfactual
    (replayTrajectory rt fork.initial trajectory.events parent.horizons)
  return {
    branchId
    intervention := fields
    changedPath := fork.changedPath
    trajectory
    deterministicReplay := replay.finalStateSha256 = trajectory.finalStateSha256
    parentFinalStateSha256 := parent.finalStateSha256 }

/-- The branches of the interventions from a place in the list on, after those with the ids `seen`. -/
def branches (batchId : String) (parent : Trajectory) (seen : List String) :
    Nat → List PyValue → Except PyError (List Branch)
  | _, [] => .ok []
  | index, .dict fields :: raws => do
    let branchId := branchIdOf rt index fields
    require (branchId ≠ "" && branchId ∉ seen)
      (counterfactualError "counterfactual branch_id values must be unique")
    let branch ← branchOf rt batchId branchId parent fields
    let rest ← branches batchId parent (branchId :: seen) (index + 1) raws
    return branch :: rest
  | _, _ :: _ => .error (counterfactualError "counterfactual interventions must be objects")

structure Batch where
  batchId : String
  parentExperienceId : String
  parent : Trajectory
  branches : List Branch

def Batch.fields (b : Batch) : List (String × PyValue) :=
  [("schema_version", .str "actionnet-counterfactual-batch.v1"), ("batch_id", .str b.batchId),
    ("parent_experience_id", .str b.parentExperienceId),
    ("parent_trajectory_sha256", .str (b.parent.json.sha256Json rt.values)),
    ("branches", .list (b.branches.map (Branch.json rt))),
    ("all_branches_replay_verified", .bool (b.branches.all Branch.deterministicReplay)),
    ("authoritative", .bool false), ("binding_authority", .bool false)]

/-- What `generate` returns. -/
def Batch.json (b : Batch) : PyValue :=
  .dict (b.fields rt ++
    [("batch_sha256", .str ((PyValue.dict (b.fields rt)).sha256Json rt.values))])

def generate (batchId parentExperienceId : String) (parent : Trajectory) (raws : List PyValue) :
    Except PyError Batch := do
  require (!raws.isEmpty) (counterfactualError "counterfactual batch requires interventions")
  let branches ← branches rt batchId parent [] 0 raws
  return ⟨batchId, parentExperienceId, parent, branches⟩

end

/-! ## The parent -/

section
variable {rt : Runtime} {initial : State} {events : List Event}
variable {horizons : List Institutional.Horizon} {parent : Trajectory}

/-- A horizon with its id for a label. -/
def relabel (h : Institutional.Horizon) : Institutional.Horizon :=
  ⟨h.horizonId, h.durationSeconds, h.horizonId⟩

/-- Labels do not show in a trajectory. -/
theorem replay_relabel (initial : State) (events : List Event)
    (horizons : List Institutional.Horizon) :
    replayTrajectory rt initial events (horizons.map relabel) =
      replayTrajectory rt initial events horizons := by
  unfold replayTrajectory
  have hpass := @pass_map _ _ _ _ _ _ (applyEvent rt) Event.atSeconds
    Institutional.Horizon.durationSeconds relabel (fun _ => rfl) initial (sortBy Event.key events)
    horizons
  dsimp only
  rw [hpass]
  cases pass (applyEvent rt) Event.atSeconds Institutional.Horizon.durationSeconds initial
      (sortBy Event.key events) horizons with
  | error e => rfl
  | ok r =>
    have hsnapshots : (r.snapshots.map fun c => (relabel c.1, c.2)).map (horizonState rt) =
        r.snapshots.map (horizonState rt) := by
      rw [List.map_map]
      rfl
    refine congrArg (bind (require _ _)) (funext fun _ => ?_)
    exact congrArg (fun states => (Except.ok ⟨initial, sortBy Event.key events,
      r.done.map (intermediateState rt), states, r.final, r.final.sha256 rt⟩ :
        Except PyError Trajectory)) hsnapshots

theorem horizons_relabel (h : replayTrajectory rt initial events horizons = .ok parent) :
    parent.horizons = horizons.map relabel := by
  have hmap := congrArg (List.map fun p : String × Int => (⟨p.1, p.2, p.1⟩ : Institutional.Horizon))
    (replay_horizons h)
  rw [List.map_map, List.map_map] at hmap
  exact hmap

theorem replay_parent (h : replayTrajectory rt initial events horizons = .ok parent) :
    replayTrajectory rt parent.initialState parent.events parent.horizons = .ok parent := by
  rw [horizons_relabel h, replay_relabel]
  exact replay_again h

/-! ## Two runs -/

/-- Two replays with the same events up to a horizon have the same state there. -/
theorem snapshot_agree {events' : List Event} {t t' : Trajectory}
    (hhorizons : horizons.Pairwise fun a b => a.durationSeconds ≤ b.durationSeconds)
    (h : replayTrajectory rt initial events horizons = .ok t)
    (h' : replayTrajectory rt initial events' horizons = .ok t') {i : Nat} {s : HorizonState}
    (hs : t.horizonStates[i]? = some s)
    (hagree : (events'.filter fun e => e.atSeconds ≤ s.durationSeconds).Perm
      (events.filter fun e => e.atSeconds ≤ s.durationSeconds)) :
    t'.horizonStates[i]? = some s := by
  obtain ⟨passage, hnodup, hpassage, rfl⟩ := replay_ok h
  obtain ⟨passage', hnodup', hpassage', rfl⟩ := replay_ok h'
  change (passage.snapshots.map (horizonState rt))[i]? = some s at hs
  show (passage'.snapshots.map (horizonState rt))[i]? = some s
  rw [List.getElem?_map, Option.map_eq_some_iff] at hs ⊢
  obtain ⟨⟨c, reached⟩, hc, rfl⟩ := hs
  have hcheckpoints : (passage'.snapshots.map Prod.fst)[i]? = (passage.snapshots.map Prod.fst)[i]? := by
    rw [(pass_walk hpassage').2, (pass_walk hpassage).2]
  rw [List.getElem?_map, List.getElem?_map, hc] at hcheckpoints
  obtain ⟨⟨c', reached'⟩, hc', hsame⟩ := Option.map_eq_some_iff.mp hcheckpoints
  cases (hsame : c' = c)
  have hfold := pass_snapshot hpassage (times_sorted events) hhorizons _ (List.mem_of_getElem? hc)
  have hfold' := pass_snapshot hpassage' (times_sorted events') hhorizons _
    (List.mem_of_getElem? hc')
  have hstart : (sortBy Event.key events').filter (fun e => e.atSeconds ≤ c.durationSeconds) =
      (sortBy Event.key events).filter fun e => e.atSeconds ≤ c.durationSeconds := by
    rw [filter_sortBy (distinct_keys hnodup'), filter_sortBy (distinct_keys hnodup)]
    exact sortBy_congr hagree (distinct_keys ((List.filter_sublist.map _).nodup hnodup'))
  dsimp only at hfold hfold'
  rw [hstart, hfold] at hfold'
  cases hfold'
  exact ⟨(c, reached), hc', rfl⟩

/-- The objects have the same attributes. -/
def SameAttributes (s t : State) : Prop :=
  ∀ id, (s.objects.get id).map ObjectState.attributes = (t.objects.get id).map ObjectState.attributes

theorem applyEvent_same (s t : State) (e : Event) (s' t' : State) (h : SameAttributes s t)
    (hs : applyEvent rt s e = .ok s') (ht : applyEvent rt t e = .ok t') : SameAttributes s' t' := by
  obtain ⟨o, ho, hs⟩ := bind_ok.mp hs
  obtain ⟨attributes, hattributes, hs⟩ := bind_ok.mp hs
  obtain ⟨after, hafter, hs⟩ := bind_ok.mp hs
  obtain ⟨o', ho', ht⟩ := bind_ok.mp ht
  obtain ⟨attributes', hattributes', ht⟩ := bind_ok.mp ht
  obtain ⟨after', hafter', ht⟩ := bind_ok.mp ht
  cases hs
  cases ht
  have htarget := h e.targetObjectId
  rw [orRaise_ok.mp ho, orRaise_ok.mp ho'] at htarget
  have hsame : o.attributes = o'.attributes := Option.some.inj htarget
  rw [hsame, hattributes'] at hattributes
  cases hattributes
  rw [hafter'] at hafter
  cases hafter
  intro id
  show ((s.objects.set e.targetObjectId _).get id).map _ = ((t.objects.set e.targetObjectId _).get id).map _
  rw [Dict.get_set, Dict.get_set]
  split
  · rfl
  · exact h id

/-- The attributes are the same in all states. -/
structure Trajectory.SameAttributes (t t' : Trajectory) : Prop where
  initial : Composition.SameAttributes t.initialState t'.initialState
  intermediate : List.Forall₂ (fun a b => a.eventId = b.eventId ∧
    Composition.SameAttributes a.state b.state) t.intermediateStates t'.intermediateStates
  horizon : List.Forall₂ (fun a b => a.horizonId = b.horizonId ∧
    Composition.SameAttributes a.state b.state) t.horizonStates t'.horizonStates
  final : Composition.SameAttributes t.finalState t'.finalState

theorem replay_same {initial' : State} {t t' : Trajectory} (hinitial : SameAttributes initial initial')
    (h : replayTrajectory rt initial events horizons = .ok t)
    (h' : replayTrajectory rt initial' events horizons = .ok t') : t.SameAttributes t' := by
  obtain ⟨passage, -, hpassage, rfl⟩ := replay_ok h
  obtain ⟨passage', -, hpassage', rfl⟩ := replay_ok h'
  obtain ⟨hdone, hsnapshots, hfinal⟩ := pass_related applyEvent_same hinitial hpassage hpassage'
  refine ⟨hinitial, ?_, ?_, hfinal⟩
  · refine List.forall₂_map_left_iff.mpr (List.forall₂_map_right_iff.mpr (hdone.imp ?_))
    rintro a b ⟨hitem, -, hafter⟩
    exact ⟨congrArg Event.eventId hitem, hafter⟩
  · refine List.forall₂_map_left_iff.mpr (List.forall₂_map_right_iff.mpr (hsnapshots.imp ?_))
    rintro a b ⟨hcheckpoint, hstate⟩
    exact ⟨congrArg Institutional.Horizon.horizonId hcheckpoint, hstate⟩

/-! ## Forks -/

theorem setObject_same {s : State} {id : String} {o o' : ObjectState}
    (ho : s.objects.get id = some o) (hattributes : o'.attributes = o.attributes) :
    SameAttributes s (s.setObject id o') := by
  intro k
  show _ = ((s.objects.set id o').get k).map _
  rw [Dict.get_set]
  split
  · next heq =>
    rw [← heq, ho]
    exact congrArg some hattributes.symm
  · rfl

/-- An event that is not due is not missed. -/
theorem filter_dropped {eventId : String} {time : Int}
    (h : ∀ e ∈ events, e.eventId = eventId → time < e.atSeconds) :
    (dropped events eventId).filter (fun e => e.atSeconds ≤ time) =
      events.filter fun e => e.atSeconds ≤ time := by
  unfold dropped
  rw [List.filter_filter]
  refine List.filter_congr fun e he => ?_
  by_cases hid : e.eventId = eventId
  · have hlater := not_le.mpr (h e he hid)
    rw [decide_eq_false hlater, Bool.false_and]
  · rw [decide_eq_true (show e.eventId ≠ eventId from hid), Bool.and_true]

/-- An event that is due neither before nor after it is shifted. -/
theorem filter_shifted {eventId : String} {delta time : Int}
    (h : ∀ e ∈ events, e.eventId = eventId → time < e.atSeconds ∧ time < e.atSeconds + delta) :
    (shifted events eventId delta).filter (fun e => e.atSeconds ≤ time) =
      events.filter fun e => e.atSeconds ≤ time := by
  induction events with
  | nil => rfl
  | cons e events ih =>
    have ih := ih fun e he => h e (List.mem_cons_of_mem _ he)
    unfold shifted at ih ⊢
    rw [List.map_cons]
    by_cases hid : e.eventId = eventId
    · obtain ⟨hbefore, hafter⟩ := h e List.mem_cons_self hid
      rw [if_pos hid, List.filter_cons_of_neg (by simpa using hafter),
        List.filter_cons_of_neg (by simpa using hbefore), ih]
    · rw [if_neg hid, List.filter_cons, List.filter_cons, ih]

theorem shifted_zero (events : List Event) (eventId : String) : shifted events eventId 0 = events := by
  refine (List.map_congr_left fun e _ => ?_).trans (List.map_id events)
  rw [Int.add_zero]
  exact ite_self _

/-! ## What an intervention leaves as it is -/

variable (rt) in
/-- The type of an intervention. -/
def kindOf (fields : List (String × PyValue)) : Option Intervention :=
  named Intervention.name interventions (typeText rt fields)

variable (rt) in
/-- When an intervention takes effect: at its time, at the time of the event it drops, or at the
earlier time of the event it shifts. -/
def effectTime (parent : Trajectory) (fields : List (String × PyValue)) :
    Intervention → Option Int
  | .setAttribute | .removeAttribute => (intOf rt (field fields "at_seconds" (.int 0))).toOption
  | .dropEvent =>
    (parent.events.find? fun e => e.eventId = textField rt fields "event_id").map Event.atSeconds
  | .shiftEvent => do
    let e ← parent.events.find? fun e => e.eventId = textField rt fields "event_id"
    let delta ← (intOf rt (field fields "delta_seconds" (.int 0))).toOption
    return min e.atSeconds (e.atSeconds + delta)
  | _ => none

variable (rt) in
/-- What the branch of an intervention has in common with its parent. -/
structure Branch.NoRetroaction (parent : Trajectory) (b : Branch) : Prop where
  earlier : ∀ kind time, kindOf rt b.intervention = some kind →
    effectTime rt parent b.intervention kind = some time →
    ∀ (i : Nat) (s : HorizonState), parent.horizonStates[i]? = some s → s.durationSeconds < time →
      b.trajectory.horizonStates[i]? = some s
  attributes : kindOf rt b.intervention = some .changeEpistemicStatus ∨
      kindOf rt b.intervention = some .changeBehaviorParameter →
    parent.SameAttributes b.trajectory
  unshifted : kindOf rt b.intervention = some .shiftEvent →
    intOf rt (field b.intervention "delta_seconds" (.int 0)) = .ok 0 →
    b.trajectory.finalState = parent.finalState

theorem asCounterfactual_ok {α : Type} {result : Except PyError α} {a : α}
    (h : asCounterfactual result = .ok a) : result = .ok a := by
  cases result with
  | error e => cases h
  | ok b =>
    cases h
    rfl

/-- The only event with an id is the first one. -/
theorem find_of_nodup (hnodup : (events.map Event.eventId).Nodup) {eventId : String} {e f : Event}
    (hfind : events.find? (fun e => e.eventId = eventId) = some f) (he : e ∈ events)
    (hid : e.eventId = eventId) : e = f := by
  have hf : f.eventId = eventId := of_decide_eq_true (List.find?_some hfind :)
  exact List.inj_on_of_nodup_map hnodup he (List.mem_of_find?_eq_some hfind) (hid.trans hf.symm)

/-- A fork has the same events up to a horizon before its intervention. -/
theorem fork_agree (hnodup : (parent.events.map Event.eventId).Nodup) {batchId branchId : String}
    {fields : List (String × PyValue)} {kind : Intervention} {fork : Fork} {time : Int}
    (hfork : forkOf rt batchId branchId parent fields kind = .ok fork)
    (htime : effectTime rt parent fields kind = some time) :
    fork.initial = parent.initialState ∧ ∀ t < time,
      (fork.events.filter fun e => e.atSeconds ≤ t) = parent.events.filter fun e => e.atSeconds ≤ t := by
  have hattribute : ∀ operation, forkAttribute rt batchId branchId operation parent fields = .ok fork →
      (intOf rt (field fields "at_seconds" (.int 0))).toOption = some time →
      fork.initial = parent.initialState ∧ ∀ t < time,
        (fork.events.filter fun e => e.atSeconds ≤ t) =
          parent.events.filter fun e => e.atSeconds ≤ t := by
    intro operation hfork htime
    obtain ⟨_, _, hfork⟩ := bind_ok.mp hfork
    obtain ⟨atSeconds, hat, hfork⟩ := bind_ok.mp hfork
    cases hfork
    rw [hat] at htime
    cases htime
    refine ⟨rfl, fun t ht => ?_⟩
    rw [List.filter_append, List.filter_cons_of_neg (by simpa using ht), List.filter_nil,
      List.append_nil]
  cases kind with
  | setAttribute => exact hattribute _ hfork htime
  | removeAttribute => exact hattribute _ hfork htime
  | dropEvent =>
    obtain ⟨f, hfind, hf⟩ := Option.map_eq_some_iff.mp htime
    obtain ⟨_, _, hfork⟩ := bind_ok.mp hfork
    cases hfork
    refine ⟨rfl, fun t ht => filter_dropped fun e he hid => ?_⟩
    rw [find_of_nodup hnodup hfind he hid, hf]
    exact ht
  | shiftEvent =>
    obtain ⟨f, hfind, htime⟩ := Option.bind_eq_some_iff.mp htime
    obtain ⟨delta, hdelta, htime⟩ := Option.bind_eq_some_iff.mp htime
    obtain ⟨_, _, hfork⟩ := bind_ok.mp hfork
    obtain ⟨delta', hdelta', hfork⟩ := bind_ok.mp hfork
    obtain ⟨_, _, hfork⟩ := bind_ok.mp hfork
    cases hfork
    rw [hdelta'] at hdelta
    cases hdelta
    cases htime
    refine ⟨rfl, fun t ht => filter_shifted fun e he hid => ?_⟩
    rw [find_of_nodup hnodup hfind he hid]
    exact lt_min_iff.mp ht
  | changeEpistemicStatus => cases htime
  | changeBehaviorParameter => cases htime

theorem fork_same {batchId branchId : String} {fields : List (String × PyValue)}
    {kind : Intervention} {fork : Fork}
    (hkind : kind = .changeEpistemicStatus ∨ kind = .changeBehaviorParameter)
    (hfork : forkOf rt batchId branchId parent fields kind = .ok fork) :
    SameAttributes parent.initialState fork.initial ∧ fork.events = parent.events := by
  rcases hkind with rfl | rfl
  · obtain ⟨object, hobject, hfork⟩ := bind_ok.mp hfork
    obtain ⟨_, _, hfork⟩ := bind_ok.mp hfork
    obtain ⟨_, _, hfork⟩ := bind_ok.mp hfork
    cases hfork
    exact ⟨setObject_same (orRaise_ok.mp hobject) rfl, rfl⟩
  · obtain ⟨object, hobject, hfork⟩ := bind_ok.mp hfork
    obtain ⟨_, _, hfork⟩ := bind_ok.mp hfork
    cases hfork
    exact ⟨setObject_same (orRaise_ok.mp hobject) rfl, rfl⟩

theorem fork_unshifted {batchId branchId : String} {fields : List (String × PyValue)} {fork : Fork}
    (hfork : forkOf rt batchId branchId parent fields .shiftEvent = .ok fork)
    (hdelta : intOf rt (field fields "delta_seconds" (.int 0)) = .ok 0) :
    fork.initial = parent.initialState ∧ fork.events = parent.events := by
  obtain ⟨_, _, hfork⟩ := bind_ok.mp hfork
  obtain ⟨delta, hdelta', hfork⟩ := bind_ok.mp hfork
  obtain ⟨_, _, hfork⟩ := bind_ok.mp hfork
  cases hfork
  rw [hdelta'] at hdelta
  cases hdelta
  exact ⟨rfl, shifted_zero _ _⟩

/-- The branch of one intervention. -/
theorem branchOf_sound (hparent : replayTrajectory rt parent.initialState parent.events
      parent.horizons = .ok parent)
    (hhorizons : parent.horizons.Pairwise fun a b => a.durationSeconds ≤ b.durationSeconds)
    {batchId branchId : String} {fields : List (String × PyValue)} {branch : Branch}
    (h : branchOf rt batchId branchId parent fields = .ok branch) :
    branch.intervention = fields ∧ branch.NoRetroaction rt parent := by
  obtain ⟨kind, hkind, h⟩ := bind_ok.mp h
  obtain ⟨fork, hfork, h⟩ := bind_ok.mp h
  obtain ⟨trajectory, htrajectory, h⟩ := bind_ok.mp h
  obtain ⟨_, _, h⟩ := bind_ok.mp h
  cases h
  have hkind : kindOf rt fields = some kind := orRaise_ok.mp hkind
  have htrajectory := asCounterfactual_ok htrajectory
  refine ⟨rfl, ⟨?_, ?_, ?_⟩⟩
  · intro kind' time hkind' htime i s hs hlt
    cases hkind.symm.trans hkind'
    obtain ⟨hinitial, hevents⟩ := fork_agree (replay_nodup hparent) hfork htime
    rw [hinitial] at htrajectory
    exact snapshot_agree hhorizons hparent htrajectory hs (by rw [hevents _ hlt])
  · intro hkind'
    have hsame : kind = .changeEpistemicStatus ∨ kind = .changeBehaviorParameter :=
      hkind'.imp (fun h => Option.some.inj (hkind.symm.trans h))
        fun h => Option.some.inj (hkind.symm.trans h)
    obtain ⟨hattributes, hevents⟩ := fork_same hsame hfork
    rw [hevents] at htrajectory
    exact replay_same hattributes hparent htrajectory
  · intro hkind' hdelta
    cases hkind.symm.trans hkind'
    obtain ⟨hinitial, hevents⟩ := fork_unshifted hfork hdelta
    rw [hinitial, hevents, hparent] at htrajectory
    cases htrajectory
    rfl

theorem branches_sound (hparent : replayTrajectory rt parent.initialState parent.events
      parent.horizons = .ok parent)
    (hhorizons : parent.horizons.Pairwise fun a b => a.durationSeconds ≤ b.durationSeconds)
    {batchId : String} {seen : List String} {index : Nat} {raws : List PyValue} {bs : List Branch}
    (h : branches rt batchId parent seen index raws = .ok bs) :
    bs.map (fun b => PyValue.dict b.intervention) = raws ∧ ∀ b ∈ bs, b.NoRetroaction rt parent := by
  induction raws generalizing seen index bs with
  | nil =>
    cases h
    exact ⟨rfl, fun _ hb => absurd hb List.not_mem_nil⟩
  | cons raw raws ih =>
    unfold branches at h
    split at h
    · next heq => cases heq
    · next fields raws' heq =>
      cases heq
      obtain ⟨_, _, h⟩ := bind_ok.mp h
      obtain ⟨branch, hbranch, h⟩ := bind_ok.mp h
      obtain ⟨rest, hrest, h⟩ := bind_ok.mp h
      cases h
      obtain ⟨hintervention, hsound⟩ := branchOf_sound hparent hhorizons hbranch
      obtain ⟨hall, hsounds⟩ := ih hrest
      refine ⟨by rw [List.map_cons, hintervention, hall], fun b hb => ?_⟩
      rcases List.mem_cons.mp hb with rfl | hb
      · exact hsound
      · exact hsounds b hb
    · cases h

/-- **No retroactive effect.** Every intervention in a trajectory of an accepted composition has a
branch of its own, which agrees with the trajectory at every horizon before the intervention takes
effect, in all attributes where only beliefs or behavior are changed, and in the final state where
an event is shifted by nothing. -/
theorem no_retroactive_effect {runId : String} {document : Json} {mechanisms : List Mechanism}
    {edges : List Edge} {seed : Int} {run : Run}
    (hrun : compose rt runId document mechanisms edges seed = .ok run) {batchId experienceId : String}
    {raws : List PyValue} {batch : Batch}
    (h : generate rt batchId experienceId run.trajectory raws = .ok batch) :
    batch.branches.map (fun b => PyValue.dict b.intervention) = raws ∧
      ∀ b ∈ batch.branches, b.NoRetroaction rt run.trajectory := by
  obtain ⟨ir, events, hir, htrajectory⟩ := compose_trajectory hrun
  have hhorizons : run.trajectory.horizons.Pairwise fun a b =>
      a.durationSeconds ≤ b.durationSeconds := by
    rw [horizons_relabel htrajectory]
    exact (horizons_ascending (Institutional.normalize_normal hir)).map _ fun _ _ hle => hle
  obtain ⟨_, _, h⟩ := bind_ok.mp h
  obtain ⟨bs, hbs, h⟩ := bind_ok.mp h
  cases h
  exact branches_sound (replay_parent htrajectory) hhorizons hbs

end
/-- A branch that sets the attribute at 30 seconds, after the first horizon. -/
def sampleIntervention : PyValue :=
  .dict [("type", .str "SET_ATTRIBUTE"), ("target_object_id", .str "R"), ("attribute", .str "level"),
    ("value", .int 0), ("at_seconds", .int 30)]

theorem no_retroactive_effect_hospital : ∃ run batch,
    compose sampleRuntime "run" (Institutional.sampleDocument "HOSPITAL") [sampleMechanism "a" 5] [] 0 =
      .ok run ∧
    generate sampleRuntime "batch" "experience" run.trajectory [sampleIntervention] = .ok batch ∧
    ∀ b ∈ batch.branches, b.NoRetroaction sampleRuntime run.trajectory := by
  have haccepted : (compose sampleRuntime "run" (Institutional.sampleDocument "HOSPITAL")
      [sampleMechanism "a" 5] [] 0).toOption.any (fun run =>
        (generate sampleRuntime "batch" "experience" run.trajectory
          [sampleIntervention]).toOption.isSome) = true := by decide +kernel
  obtain ⟨run, hrun, hgenerated⟩ := Fallible.ok_of_any haccepted
  obtain ⟨batch, hbatch⟩ := Option.isSome_iff_exists.mp hgenerated
  have hbatch := Fallible.toOption_ok.mp hbatch
  exact ⟨run, batch, hrun, hbatch, (no_retroactive_effect hrun hbatch).2⟩

end Edon.Composition
