import EdonPlatform.Common.PyValue
import EdonPlatform.Institutional.Normalization
import EdonPlatform.Lib.Checkpoints

/- The simulation of an institution (edon/actionnet/product/composition.py, `apply_event` and
   `replay_trajectory`): typed events change the attributes of objects, in the order of their times,
   with a snapshot of the state at every horizon.

   A number is what `json` reads, and may be infinite or no number. The operations of two floats
   and the float of an int are functions of the runtime.

   Correspondence (Python ↔ Lean):
     `_initial_state`                  ↔ `initialState`
     `apply_event`                     ↔ `applyEvent`
     the key of `sorted`               ↔ `Event.key`
     the loops of `replay_trajectory`  ↔ `Checkpoints.pass`
     `replay_trajectory`               ↔ `replayTrajectory` -/
namespace Edon.Composition
open KeyedSort Checkpoints

def compositionError (message : String) : PyError := ⟨.compositionExecutionError, message⟩

/-! ## Numbers -/

inductive Numeric where
  | increment | decrement | multiply
  deriving DecidableEq, Repr

/-- The functions of the runtime. `floatOp` is an operation of two floats, `ofInt` the float of an
int that is not too large to have one. -/
structure Runtime where
  ir : Institutional.Runtime
  values : Interpreter
  floatOp : Numeric → PyFloat → PyFloat → PyFloat
  ofInt : Int → PyFloat

section
variable (rt : Runtime)

def toFloat (n : Int) : Except PyError PyFloat :=
  if Doubles.overflowThreshold ≤ |(n : Rat)| then
    .error ⟨.overflowError, "int too large to convert to float"⟩
  else .ok (rt.ofInt n)

/-- `float(value)`. -/
def floatOf : PyValue → Except PyError PyFloat
  | .int n => toFloat rt n
  | .float x => .ok x
  | .bool b => .ok (.finite (if b then 1 else 0))
  | .str s => orRaise ⟨.valueError, "could not convert string to float"⟩ (rt.values.parseFloat s)
  | v => .error ⟨.typeError,
      "float() argument must be a string or a real number, not '" ++ v.typeName ++ "'"⟩

/-- `int(value)`. -/
def intOf : PyValue → Except PyError Int
  | .int n => .ok n
  | .float (.finite q) => .ok (if 0 ≤ q then q.floor else q.ceil)
  | .float (.infinite _) => .error ⟨.overflowError, "cannot convert float infinity to integer"⟩
  | .float .nan => .error ⟨.valueError, "cannot convert float NaN to integer"⟩
  | .bool b => .ok (if b then 1 else 0)
  | .str s => orRaise ⟨.valueError, "invalid literal for int() with base 10"⟩ (rt.ir.parseInt s)
  | v => .error ⟨.typeError,
      "int() argument must be a string, a bytes-like object or a real number, not '" ++
        v.typeName ++ "'"⟩

/-- An int or a float that is not a truth value. -/
def isNumber : PyValue → Bool
  | .int _ => true
  | .float _ => true
  | _ => false

def Numeric.ofInts : Numeric → Int → Int → Int
  | .increment, a, b => a + b
  | .decrement, a, b => a - b
  | .multiply, a, b => a * b

/-- `before + value`, `before - value` or `before * value`, of two numbers. -/
def combine (op : Numeric) : PyValue → PyValue → Except PyError PyValue
  | .int a, .int b => .ok (.int (op.ofInts a b))
  | a, b => do
    let x ← floatOf rt a
    let y ← floatOf rt b
    return .float (rt.floatOp op x y)

end

/-! ## States -/

structure ObjectState where
  objectType : String
  attributes : PyValue
  epistemicState : List (String × PyValue)
  behaviorModel : Option (List (String × PyValue))

structure State where
  timeSeconds : Int
  objects : Dict String ObjectState

def ObjectState.json (o : ObjectState) : PyValue :=
  .dict ([("object_type", .str o.objectType), ("attributes", o.attributes),
    ("epistemic_state", .dict o.epistemicState)] ++
      (o.behaviorModel.map fun b => ("behavior_model", .dict b)).toList)

def State.json (s : State) : PyValue :=
  .dict [("time_seconds", .int s.timeSeconds),
    ("objects", .dict (s.objects.entries.map fun o => (o.1, o.2.json)))]

/-- The entries of a document of the canonical form. -/
def entriesOf : Json → List (String × PyValue)
  | .obj fields => PyValue.ofEntries fields
  | _ => []

def objectState (o : Institutional.Object) : ObjectState where
  objectType := o.objectType.name
  attributes := .ofJson o.attributes
  epistemicState := entriesOf o.epistemicState.json
  behaviorModel := o.behaviorModel.map fun b => entriesOf b.json

def initialState (ir : Institutional.IR) : State where
  timeSeconds := 0
  objects := Dict.ofList (ir.objects.map fun o => (o.objectId, objectState o))

/-! ## Events -/

inductive Operation where
  | set
  | delete
  | numeric (op : Numeric)
  deriving DecidableEq, Repr

def Operation.name : Operation → String
  | .set => "SET"
  | .delete => "DELETE"
  | .numeric .increment => "INCREMENT"
  | .numeric .decrement => "DECREMENT"
  | .numeric .multiply => "MULTIPLY"

structure Event where
  eventId : String
  mechanismRef : String
  targetObjectId : String
  attributeName : String
  operation : Operation
  value : PyValue
  atSeconds : Int
  order : Int

def Event.json (e : Event) : PyValue :=
  .dict [("event_id", .str e.eventId), ("mechanism_ref", .str e.mechanismRef),
    ("target_object_id", .str e.targetObjectId), ("attribute", .str e.attributeName),
    ("operation", .str e.operation.name), ("value", e.value), ("at_seconds", .int e.atSeconds),
    ("order", .int e.order)]

def Event.key (e : Event) : Int ×ₗ Int ×ₗ String := toLex (e.atSeconds, toLex (e.order, e.eventId))

/-- The attributes of the target after the operation of the event, where they are a dictionary. -/
def operate (rt : Runtime) (e : Event) (attributes : List (String × PyValue)) :
    Except PyError (List (String × PyValue)) :=
  match e.operation with
  | .set => .ok (Assoc.put attributes e.attributeName e.value)
  | .delete => .ok (Assoc.remove attributes e.attributeName)
  | .numeric op => do
    let before := (Assoc.find attributes e.attributeName).getD (.str "__MISSING__")
    require (isNumber before) (compositionError
      ("numeric transition requires numeric existing value: " ++ e.targetObjectId ++ "." ++
        e.attributeName))
    require (isNumber e.value) (compositionError "numeric transition value must be numeric")
    let after ← combine rt op before e.value
    return Assoc.put attributes e.attributeName after

def applyEvent (rt : Runtime) (s : State) (e : Event) : Except PyError State := do
  let target ← orRaise
    (compositionError ("transition target does not exist: " ++ e.targetObjectId))
    (s.objects.get e.targetObjectId)
  let attributes ← target.attributes.entries "get"
  let after ← operate rt e attributes
  return {
    timeSeconds := e.atSeconds
    objects := s.objects.set e.targetObjectId { target with attributes := .dict after } }

/-! ## Trajectories -/

structure IntermediateState where
  eventId : String
  atSeconds : Int
  beforeSha256 : String
  afterSha256 : String
  state : State

structure HorizonState where
  horizonId : String
  durationSeconds : Int
  state : State
  stateSha256 : String

structure Trajectory where
  initialState : State
  events : List Event
  intermediateStates : List IntermediateState
  horizonStates : List HorizonState
  finalState : State
  finalStateSha256 : String

section
variable (rt : Runtime)

def State.sha256 (s : State) : String := s.json.sha256Json rt.values

def intermediateState (done : Event × State × State) : IntermediateState where
  eventId := done.1.eventId
  atSeconds := done.1.atSeconds
  beforeSha256 := done.2.1.sha256 rt
  afterSha256 := done.2.2.sha256 rt
  state := done.2.2

/-- The snapshot of a state at a horizon. -/
def horizonState (snapshot : Institutional.Horizon × State) : HorizonState where
  horizonId := snapshot.1.horizonId
  durationSeconds := snapshot.1.durationSeconds
  state := { snapshot.2 with timeSeconds := snapshot.1.durationSeconds }
  stateSha256 := State.sha256 rt { snapshot.2 with timeSeconds := snapshot.1.durationSeconds }

def replayTrajectory (initial : State) (events : List Event)
    (horizons : List Institutional.Horizon) : Except PyError Trajectory := do
  let ordered := sortBy Event.key events
  require (decide (ordered.map Event.eventId).Nodup)
    (compositionError "composition events require unique event_id values")
  let passage ← pass (applyEvent rt) Event.atSeconds Institutional.Horizon.durationSeconds initial
    ordered horizons
  return {
    initialState := initial
    events := ordered
    intermediateStates := passage.done.map (intermediateState rt)
    horizonStates := passage.snapshots.map (horizonState rt)
    finalState := passage.final
    finalStateSha256 := passage.final.sha256 rt }

end

def IntermediateState.json (i : IntermediateState) : PyValue :=
  .dict [("event_id", .str i.eventId), ("at_seconds", .int i.atSeconds),
    ("before_sha256", .str i.beforeSha256), ("after_sha256", .str i.afterSha256),
    ("state", i.state.json)]

def HorizonState.json (h : HorizonState) : PyValue :=
  .dict [("horizon_id", .str h.horizonId), ("duration_seconds", .int h.durationSeconds),
    ("state", h.state.json), ("state_sha256", .str h.stateSha256)]

def Trajectory.json (t : Trajectory) : PyValue :=
  .dict [("initial_state", t.initialState.json), ("events", .list (t.events.map Event.json)),
    ("intermediate_states", .list (t.intermediateStates.map IntermediateState.json)),
    ("horizon_states", .list (t.horizonStates.map HorizonState.json)),
    ("final_state", t.finalState.json), ("final_state_sha256", .str t.finalStateSha256)]

/-! ## The order of the events -/

section
variable {rt : Runtime} {initial : State} {events : List Event}
variable {horizons : List Institutional.Horizon} {t : Trajectory}

/-- What a trajectory is made of. -/
theorem replay_ok (h : replayTrajectory rt initial events horizons = .ok t) :
    ∃ passage, (events.map Event.eventId).Nodup ∧
      pass (applyEvent rt) Event.atSeconds Institutional.Horizon.durationSeconds initial
        (sortBy Event.key events) horizons = .ok passage ∧
      t = {
        initialState := initial
        events := sortBy Event.key events
        intermediateStates := passage.done.map (intermediateState rt)
        horizonStates := passage.snapshots.map (horizonState rt)
        finalState := passage.final
        finalStateSha256 := passage.final.sha256 rt } := by
  obtain ⟨_, hnodup, h⟩ := bind_ok.mp h
  obtain ⟨passage, hpassage, h⟩ := bind_ok.mp h
  cases h
  refine ⟨passage, ?_, hpassage, rfl⟩
  exact ((perm_sortBy events).map Event.eventId).nodup_iff.mp (of_decide_eq_true (require_ok.mp hnodup))

theorem replay_events (h : replayTrajectory rt initial events horizons = .ok t) :
    t.events = sortBy Event.key events := by
  obtain ⟨_, _, _, rfl⟩ := replay_ok h
  rfl

theorem replay_initial (h : replayTrajectory rt initial events horizons = .ok t) :
    t.initialState = initial := by
  obtain ⟨_, _, _, rfl⟩ := replay_ok h
  rfl

theorem replay_nodup (h : replayTrajectory rt initial events horizons = .ok t) :
    (t.events.map Event.eventId).Nodup := by
  obtain ⟨_, hnodup, _, rfl⟩ := replay_ok h
  exact ((perm_sortBy events).map Event.eventId).nodup_iff.mpr hnodup

/-- Events with one key have one id. -/
theorem distinct_keys {es : List Event} (h : (es.map Event.eventId).Nodup) : Distinct Event.key es :=
  fun _ ha _ hb hkey => Distinct.of_nodup h _ ha _ hb (congrArg (fun k => (ofLex (ofLex k).2).2) hkey)

/-- Events by their keys are events by their times. -/
theorem times_sorted (es : List Event) :
    (sortBy Event.key es).Pairwise fun a b => a.atSeconds ≤ b.atSeconds := by
  refine (pairwise_sortBy es).imp fun {a b} h => ?_
  rcases Prod.Lex.le_iff.mp h with hlt | ⟨heq, -⟩
  · exact le_of_lt hlt
  · exact le_of_eq heq

/-! ## The states -/

theorem replay_final (h : replayTrajectory rt initial events horizons = .ok t) :
    t.events.foldlM (applyEvent rt) initial = .ok t.finalState := by
  obtain ⟨passage, _, hpassage, rfl⟩ := replay_ok h
  exact (pass_walk hpassage).1.fold

/-- There is a horizon state for every horizon. -/
theorem replay_horizons (h : replayTrajectory rt initial events horizons = .ok t) :
    t.horizonStates.map (fun s => (s.horizonId, s.durationSeconds)) =
      horizons.map fun h => (h.horizonId, h.durationSeconds) := by
  obtain ⟨passage, _, hpassage, rfl⟩ := replay_ok h
  rw [← (pass_walk hpassage).2, List.map_map, List.map_map]
  rfl

/-- The state at a horizon is what the events up to it make of the initial state. -/
theorem replay_snapshot (h : replayTrajectory rt initial events horizons = .ok t)
    (hhorizons : horizons.Pairwise fun a b => a.durationSeconds ≤ b.durationSeconds) :
    ∀ s ∈ t.horizonStates, ∃ reached,
      (t.events.filter fun e => e.atSeconds ≤ s.durationSeconds).foldlM (applyEvent rt) initial =
        .ok reached ∧
      s.state = { reached with timeSeconds := s.durationSeconds } := by
  obtain ⟨passage, _, hpassage, rfl⟩ := replay_ok h
  intro s hs
  obtain ⟨snapshot, hsnapshot, rfl⟩ := List.mem_map.mp hs
  exact ⟨snapshot.2, pass_snapshot hpassage (times_sorted events) hhorizons snapshot hsnapshot, rfl⟩

/-- Only the sorted events matter. -/
theorem replay_congr {es fs : List Event} (h : sortBy Event.key es = sortBy Event.key fs) :
    replayTrajectory rt initial es horizons = replayTrajectory rt initial fs horizons := by
  unfold replayTrajectory
  rw [h]

/-- Replaying the events of a trajectory gives the trajectory. -/
theorem replay_again (h : replayTrajectory rt initial events horizons = .ok t) :
    replayTrajectory rt t.initialState t.events horizons = .ok t := by
  rw [replay_initial h, replay_events h, replay_congr (sortBy_sortBy events)]
  exact h

end
end Edon.Composition
