import EdonPlatform.Institutional.Trajectory
import EdonPlatform.Lib.Calendar
import EdonPlatform.Lib.Precedence
import EdonPlatform.Lib.Traversal

/- The composition of registered mechanisms (edon/actionnet/product/composition.py,
   `MechanismCompositionEngine`): the edges between the mechanisms are checked, the mechanisms put
   in a causal order, and their transitions become the events of a trajectory.

   A missing `conditions` of an edge is the empty dictionary. `modifiers[key]` is `modifier`, the
   product of the factors for the key in the order of the edges.

   What is proved:
     1. `orderLoop_ready` — the loop of `_order` ends: nothing is ready after as many turns as
        there are keys.
     2. `orderOf_ok` — the order has every key once, after the sources of the causal edges to it.
     3. `compose_ok` — what an accepted composition has passed, and what it returns.

   Correspondence (Python ↔ Lean):
     the loop over the edges           ↔ `edgeEffects`, with `edgeEffect` for one edge
     `_order`                          ↔ `orderOf`, its loop `orderLoop`
     the loop over the transitions     ↔ `mechanismEvents`, with `transitionEvent` for one of them
     the loop over the mechanisms      ↔ `mechanismStep` of each
     `compose`                         ↔ `compose`, its result `Run.json` -/
namespace Edon.Composition
open KeyedSort Checkpoints

/-! ## Mechanisms and edges -/

/-- `EXECUTABLE_RELATIONS`. -/
inductive Relation where
  | composesWith | amplifies | mitigates | inhibits | preconditionFor | causes
  deriving DecidableEq, Repr

def Relation.name : Relation → String
  | .composesWith => "COMPOSES_WITH"
  | .amplifies => "AMPLIFIES"
  | .mitigates => "MITIGATES"
  | .inhibits => "INHIBITS"
  | .preconditionFor => "PRECONDITION_FOR"
  | .causes => "CAUSES"

def executableRelations : List Relation :=
  [.composesWith, .amplifies, .mitigates, .inhibits, .preconditionFor, .causes]

structure MechanismRef where
  mechanismId : String
  version : String
  deriving DecidableEq, Repr

/-- `_mechanism_key`. -/
def MechanismRef.key (r : MechanismRef) : String := r.mechanismId ++ "@" ++ r.version

structure Mechanism where
  ref : MechanismRef
  specification : PyValue

structure Edge where
  edgeId : String
  source : MechanismRef
  target : MechanismRef
  relationType : String
  conditions : PyValue

/-- What an edge does to its target. -/
inductive Effect where
  | scales (target : String) (factor : Rat)
  | inhibits (target : String)
  | neutral
  deriving DecidableEq

section
variable (rt : Runtime)

/-- `{str(item).upper() for item in value}`. -/
def upperTexts (value : PyValue) : Except PyError (List String) := do
  let items ← value.iterate
  return items.map fun item => Institutional.upperCase rt.ir (item.toStr rt.values)

def typeNames (ir : Institutional.IR) : List String := ir.objects.map fun o => o.objectType.name

/-- `max(row["duration_seconds"] for row in ir["horizons"])`, which are positive. -/
def longestHorizon (ir : Institutional.IR) : Int :=
  (ir.horizons.map Institutional.Horizon.durationSeconds).foldl max 0

/-- The factor of a relation, within its bounds. -/
def factorOf (conditions : PyValue) (default low high : Rat) (message : String) :
    Except PyError Rat := do
  let raw ← conditions.getD "magnitude_multiplier" (.float (.finite default))
  let factor ← floatOf rt raw
  match factor with
  | .finite q => if low ≤ q ∧ q ≤ high then .ok q else .error (compositionError message)
  | _ => .error (compositionError message)

def relationEffect (conditions : PyValue) (target : String) : Relation → Except PyError Effect
  | .amplifies => do
    let factor ← factorOf rt conditions (3 / 2) 1 10
      "AMPLIFIES magnitude_multiplier must be between 1 and 10"
    return .scales target factor
  | .mitigates => do
    let factor ← factorOf rt conditions (1 / 2) 0 1
      "MITIGATES magnitude_multiplier must be between 0 and 1"
    return .scales target factor
  | .inhibits => do
    let flag ← conditions.getD "inhibit_target" (.bool true)
    return if flag.truthy then .inhibits target else .neutral
  | _ => .ok .neutral

def edgeEffect (ir : Institutional.IR) (keys : List String) (edge : Edge) :
    Except PyError Effect := do
  let relationText := Institutional.upperCase rt.ir edge.relationType
  let relation ← orRaise (compositionError ("relation is not executable: " ++ relationText))
    (named Relation.name executableRelations relationText)
  require (edge.source.key ∈ keys && edge.target.key ∈ keys)
    (compositionError "composition edge endpoint is outside the selected mechanisms")
  let requiredRaw ← edge.conditions.getD "required_object_types" (.list [])
  let requiredTypes ← upperTexts rt requiredRaw
  require (requiredTypes.all fun t => t ∈ typeNames ir)
    (compositionError ("composition edge " ++ edge.edgeId ++
      " is missing required Institutional IR object types"))
  let minimumRaw ← edge.conditions.getD "minimum_horizon_seconds" (.int 0)
  let minimumHorizon ← intOf rt minimumRaw
  require (minimumHorizon = 0 || minimumHorizon ≤ longestHorizon ir)
    (compositionError ("composition edge " ++ edge.edgeId ++
      " exceeds registered Institutional IR horizons"))
  relationEffect rt edge.conditions edge.target.key relation

/-- The effects of the edges, after those with the ids `seen`. -/
def edgeEffects (ir : Institutional.IR) (keys : List String) (seen : List String) :
    List Edge → Except PyError (List Effect)
  | [] => .ok []
  | edge :: edges => do
    require (edge.edgeId ∉ seen)
      (compositionError ("duplicate composition edge: " ++ edge.edgeId))
    let effect ← edgeEffect rt ir keys edge
    let effects ← edgeEffects ir keys (edge.edgeId :: seen) edges
    return effect :: effects

/-- The factors for a mechanism, in the order of the edges. -/
def factors (effects : List Effect) (key : String) : List Rat :=
  effects.filterMap fun effect => match effect with
    | .scales target factor => if target = key then some factor else none
    | _ => none

/-- `modifiers[key]`. -/
def modifier (effects : List Effect) (key : String) : PyFloat :=
  (factors effects key).foldl (fun m q => rt.floatOp .multiply m (.finite q)) (.finite 1)

end

/-! ## The causal order -/

/-- The edge counts for `_order`, which reads its relation as it is written. -/
def Edge.causal (e : Edge) : Bool := e.relationType = "CAUSES" ∨ e.relationType = "PRECONDITION_FOR"

/-- `incoming[key]` before the loop. -/
def incomingOf (edges : List Edge) (key : String) : List String :=
  sortedSet ((edges.filter fun e => e.causal ∧ e.target.key = key).map fun e => e.source.key)

/-- `sorted(outgoing[key])`. -/
def outgoingOf (edges : List Edge) (key : String) : List String :=
  sortedSet ((edges.filter fun e => e.causal ∧ e.source.key = key).map fun e => e.target.key)

/-- The local variables of `_order`. -/
structure Ordering where
  incoming : String → List String
  ready : List String
  ordered : List String

/-- The body of the loop over `sorted(outgoing[key])`. -/
def Ordering.release (key : String) (o : Ordering) (target : String) : Ordering where
  incoming := fun t => if t = target then (o.incoming t).erase key else o.incoming t
  ready :=
    if (o.incoming target).erase key = [] ∧ target ∉ o.ready ∧ target ∉ o.ordered then
      (o.ready ++ [target]).insertionSort (· ≤ ·)
    else o.ready
  ordered := o.ordered

def orderLoop (outgoing : String → List String) : Nat → Ordering → Ordering
  | 0, o => o
  | fuel + 1, o =>
    match o.ready with
    | [] => o
    | key :: ready =>
      orderLoop outgoing fuel ((outgoing key).foldl (Ordering.release key)
        { o with ready, ordered := o.ordered ++ [key] })

def orderingStart (keys : List String) (edges : List Edge) : Ordering where
  incoming := incomingOf edges
  ready := (keys.filter fun key => incomingOf edges key = []).insertionSort (· ≤ ·)
  ordered := []

/-- `_order(keys, edges)`, where the edges are between the keys. -/
def orderOf (keys : List String) (edges : List Edge) : Except PyError (List String) :=
  let o := orderLoop (outgoingOf edges) keys.length (orderingStart keys edges)
  if o.ordered.length ≠ keys.length then
    .error (compositionError "causal composition contains a cycle")
  else .ok o.ordered

/-! ## Events -/

/-- The number of digits of `f"{n:03d}"`. -/
def width (n : Nat) : Nat := max 3 (Nat.toDigits 10 n).length

/-- `f"{n:03d}"`. -/
def padded (n : Nat) : String := String.ofList (Calendar.digits (width n) n)

def eventIdOf (runId : String) (place index : Nat) : String :=
  runId ++ ":" ++ padded place ++ ":" ++ padded index

def operations : List Operation :=
  [.set, .delete, .numeric .increment, .numeric .decrement, .numeric .multiply]

def idsOfType (ir : Institutional.IR) (typeName : String) : List String :=
  (ir.objects.filter fun o => o.objectType.name = typeName).map Institutional.Object.objectId

section
variable (rt : Runtime)

/-- The object that a transition names, or the first one of the type it names. -/
def transitionTarget (ir : Institutional.IR) (key : String) (fields : List (String × PyValue)) :
    Except PyError String :=
  let named := (Assoc.find fields "target_object_id").getD .null
  if named.truthy then .ok (named.toStr rt.values)
  else
    let targetType := Institutional.upperCase rt.ir
      (((Assoc.find fields "target_object_type").getD (.str "")).toStr rt.values)
    match (idsOfType ir targetType).insertionSort (· ≤ ·) with
    | [] => .error (compositionError
        ("mechanism " ++ key ++ " cannot bind target_object_type " ++ targetType))
    | first :: _ => .ok first

/-- The value of a transition, with the modifier of its mechanism. -/
def transitionValue (modifier : PyFloat) (operation : Operation) (value : PyValue) :
    Except PyError PyValue :=
  if (operation = .numeric .increment ∨ operation = .numeric .decrement) ∧ isNumber value then
    combine rt .multiply value (.float modifier)
  else .ok value

/-- A mechanism in its place of the order, with its modifier. -/
structure Placement where
  key : String
  place : Nat
  modifier : PyFloat

/-- When a transition takes place. -/
def transitionTime (place : Nat) (fields : List (String × PyValue)) : Except PyError Int :=
  intOf rt ((Assoc.find fields "at_seconds").getD (.int place))

/-- The event of a transition with an operation. -/
def eventOf (runId : String) (ir : Institutional.IR) (p : Placement) (index : Nat)
    (fields : List (String × PyValue)) (operationRaw : PyValue) : Except PyError Event := do
  let operationText := Institutional.upperCase rt.ir (operationRaw.toStr rt.values)
  let operation ← orRaise
    (compositionError ("unsupported operation in " ++ p.key ++ ": " ++ operationText))
    (named Operation.name operations operationText)
  let target ← transitionTarget rt ir p.key fields
  let value ← transitionValue rt p.modifier operation ((Assoc.find fields "value").getD .null)
  let atSeconds ← transitionTime rt p.place fields
  return {
    eventId := eventIdOf runId p.place index
    mechanismRef := p.key
    targetObjectId := target
    attributeName := ((Assoc.find fields "attribute").getD (.str "value")).toStr rt.values
    operation
    value
    atSeconds
    order := p.place }

/-- The fields and the operation of a transition that is executed. -/
def executable : PyValue → Option (List (String × PyValue) × PyValue)
  | .dict fields => (Assoc.find fields "operation").map fun operation => (fields, operation)
  | _ => none

/-- The event of a transition, if it is executed. -/
def transitionEvent (runId : String) (ir : Institutional.IR) (p : Placement)
    (transition : PyValue × Nat) : Except PyError (Option Event) :=
  match executable transition.1 with
  | some (fields, operation) => (eventOf rt runId ir p transition.2 fields operation).map some
  | none => .ok none

def mechanismEvents (runId : String) (ir : Institutional.IR) (p : Placement)
    (transitions : List PyValue) : Except PyError (List Event) := do
  let events ← transitions.zipIdx.mapM (transitionEvent rt runId ir p)
  return events.filterMap id

structure CausalStep where
  mechanismRef : String
  executed : Bool
  eventIds : List String

/-- `specification.get("state_transitions", [])` as a list. -/
def transitionsOf (mechanism : Mechanism) : Except PyError (List PyValue) := do
  let raw ← mechanism.specification.getD "state_transitions" (.list [])
  raw.iterate

/-- The types a mechanism needs and the institution does not have. -/
def missingTypes (ir : Institutional.IR) (mechanism : Mechanism) : Except PyError (List String) := do
  let raw ← mechanism.specification.getD "ir_requirements" (.list [])
  let requirements ← upperTexts rt raw
  return sortedSet (requirements.filter fun t => t ∉ typeNames ir)

/-- A mechanism that is not inhibited. -/
def executeMechanism (runId : String) (ir : Institutional.IR) (mechanism : Mechanism)
    (p : Placement) : Except PyError (List Event) := do
  let transitions ← transitionsOf mechanism
  let events ← mechanismEvents rt runId ir p transitions
  require (!events.isEmpty)
    (compositionError ("mechanism " ++ p.key ++
      " has no executable state transition for Platform 002"))
  return events

/-- The turn of a mechanism: its step of the causal trace and its events. -/
def mechanismStep (runId : String) (ir : Institutional.IR) (mechanisms : Dict String Mechanism)
    (effects : List Effect) (turn : String × Nat) : Except PyError (CausalStep × List Event) := do
  let mechanism ← orRaise (keyError turn.1) (mechanisms.get turn.1)
  let missing ← missingTypes rt ir mechanism
  require missing.isEmpty (compositionError ("mechanism " ++ turn.1 ++ " missing IR requirements: " ++
    rt.values.repr (.list (missing.map .str))))
  if Effect.inhibits turn.1 ∈ effects then return (⟨turn.1, false, []⟩, [])
  else
    let events ← executeMechanism rt runId ir mechanism ⟨turn.1, turn.2, modifier rt effects turn.1⟩
    return (⟨turn.1, true, events.map Event.eventId⟩, events)

end

/-! ## Runs -/

structure Run where
  runId : String
  seed : Int
  institutionId : String
  version : String
  irSha256 : String
  mechanismRefs : List MechanismRef
  edgeRefs : List String
  trajectory : Trajectory
  steps : List CausalStep
  orderedMechanisms : List String
  actionability : Institutional.Actionability
  deterministicReplay : Bool

def CausalStep.json (s : CausalStep) : PyValue :=
  .dict [("mechanism_ref", .str s.mechanismRef),
    ("status", .str (if s.executed then "EXECUTED" else "INHIBITED")),
    ("event_ids", .list (s.eventIds.map .str))]

def MechanismRef.json (r : MechanismRef) : PyValue :=
  .dict [("mechanism_id", .str r.mechanismId), ("version", .str r.version)]

def Run.fields (r : Run) : List (String × PyValue) :=
  [("schema_version", .str "actionnet-composition-run.v1"), ("run_id", .str r.runId),
    ("seed", .int r.seed),
    ("institution_ir", .dict [("institution_id", .str r.institutionId), ("version", .str r.version),
      ("ir_sha256", .str r.irSha256)]),
    ("mechanism_refs", .list (r.mechanismRefs.map MechanismRef.json)),
    ("edge_refs", .list (r.edgeRefs.map .str)), ("trajectory", r.trajectory.json),
    ("causal_trace", .dict [("steps", .list (r.steps.map CausalStep.json)),
      ("ordered_mechanisms", .list (r.orderedMechanisms.map .str))]),
    ("actionability", .ofJson r.actionability.json),
    ("verification", .dict [("deterministic_replay", .bool r.deterministicReplay),
      ("final_state_sha256", .str r.trajectory.finalStateSha256),
      ("registered_semantics_only", .bool true)]),
    ("authoritative", .bool false), ("binding_authority", .bool false)]

section
variable (rt : Runtime)

/-- What `compose` returns. -/
def Run.json (r : Run) : PyValue :=
  .dict (r.fields ++ [("run_sha256", .str ((PyValue.dict r.fields).sha256Json rt.values))])

def compose (runId : String) (document : Json) (mechanisms : List Mechanism) (edges : List Edge)
    (seed : Int) : Except PyError Run := do
  let ir ← Institutional.normalize rt.ir none none document
  require (!mechanisms.isEmpty)
    (compositionError "composition requires at least one mechanism")
  let mechanismMap := Dict.ofList (mechanisms.map fun m => (m.ref.key, m))
  require (mechanismMap.keys.length = mechanisms.length)
    (compositionError "composition contains duplicate mechanism versions")
  let effects ← edgeEffects rt ir mechanismMap.keys [] edges
  let order ← orderOf mechanismMap.keys edges
  let turns ← order.zipIdx.mapM (mechanismStep rt runId ir mechanismMap effects)
  let trajectory ← replayTrajectory rt (initialState ir) (turns.flatMap Prod.snd) ir.horizons
  let replay ← replayTrajectory rt (initialState ir) trajectory.events ir.horizons
  let actionability ← Institutional.assessActionability rt.ir (ir.json rt.ir)
  return {
    runId
    seed
    institutionId := ir.institutionId
    version := ir.version
    irSha256 := ir.sha256 rt.ir
    mechanismRefs := (order.filterMap mechanismMap.get).map Mechanism.ref
    edgeRefs := sortedSet (edges.map Edge.edgeId)
    trajectory
    steps := turns.map Prod.fst
    orderedMechanisms := order
    actionability
    deterministicReplay := replay.finalStateSha256 = trajectory.finalStateSha256 }

end

/-! ## The loop of the order -/

/-- What the loop keeps. -/
structure Ordering.Sound (keys : List String) (edges : List Edge) (o : Ordering) : Prop where
  waits : ∀ key, ∀ source ∈ incomingOf edges key, source ∈ o.incoming key ∨ source ∈ o.ordered
  ready : ∀ key ∈ o.ready, o.incoming key = []
  nodup : (o.ordered ++ o.ready).Nodup
  known : ∀ key ∈ o.ordered ++ o.ready, key ∈ keys
  ordered : Precedence.Ordered (fun key source => source ∈ incomingOf edges key) o.ordered

section
variable {keys : List String} {edges : List Edge} {o : Ordering} {key : String}

theorem release_perm {target : String} :
    (o.ordered ++ (o.ready ++ [target]).insertionSort (· ≤ ·)).Perm
      ((o.ordered ++ o.ready) ++ [target]) := by
  rw [List.append_assoc]
  exact (List.perm_insertionSort _ _).append_left _

theorem release_sound (h : o.Sound keys edges) (hdone : key ∈ o.ordered) {target : String}
    (htarget : target ∈ keys) : (o.release key target).Sound keys edges := by
  refine ⟨?_, ?_, ?_, ?_, h.ordered⟩
  · intro k source hsource
    show source ∈ ite _ _ _ ∨ source ∈ o.ordered
    by_cases hk : k = target
    · rw [if_pos hk]
      rcases h.waits k source hsource with hw | ho
      · by_cases heq : source = key
        · exact .inr (heq ▸ hdone)
        · exact .inl ((List.mem_erase_of_ne heq).mpr hw)
      · exact .inr ho
    · rw [if_neg hk]
      exact h.waits k source hsource
  · intro k hk
    show ite _ _ _ = []
    have hold : k ∈ o.ready → (if k = target then (o.incoming k).erase key else o.incoming k) = [] := by
      intro hready
      rw [h.ready k hready, List.erase_nil, ite_self]
    change k ∈ ite _ _ _ at hk
    split at hk
    · next hnew =>
      rw [List.mem_insertionSort] at hk
      rcases List.mem_append.mp hk with hk | hk
      · exact hold hk
      · rw [if_pos (List.mem_singleton.mp hk), List.mem_singleton.mp hk]
        exact hnew.1
    · exact hold hk
  · show (o.ordered ++ ite _ _ _).Nodup
    split
    · next hnew =>
      rw [release_perm.nodup_iff, ← List.concat_eq_append]
      exact h.nodup.concat fun hmem => (List.mem_append.mp hmem).elim hnew.2.2 hnew.2.1
    · exact h.nodup
  · intro k hk
    change k ∈ o.ordered ++ ite _ _ _ at hk
    split at hk
    · rcases List.mem_append.mp (release_perm.mem_iff.mp hk) with hk | hk
      · exact h.known k hk
      · rw [List.mem_singleton.mp hk]
        exact htarget
    · exact h.known k hk

theorem release_all_ordered (targets : List String) :
    (targets.foldl (Ordering.release key) o).ordered = o.ordered := by
  induction targets generalizing o with
  | nil => rfl
  | cons target targets ih => exact ih

theorem release_all_sound {targets : List String} (h : o.Sound keys edges) (hdone : key ∈ o.ordered)
    (htargets : ∀ target ∈ targets, target ∈ keys) :
    (targets.foldl (Ordering.release key) o).Sound keys edges := by
  induction targets generalizing o with
  | nil => exact h
  | cons target targets ih =>
    exact ih (release_sound h hdone (htargets target List.mem_cons_self)) hdone
      fun t ht => htargets t (List.mem_cons_of_mem _ ht)

/-- A ready key goes to the end of the order: what it waited for is there. -/
theorem turn_sound {ready : List String} (h : o.Sound keys edges) (hready : o.ready = key :: ready) :
    ({ o with ready, ordered := o.ordered ++ [key] } : Ordering).Sound keys edges := by
  have heq : o.ordered ++ [key] ++ ready = o.ordered ++ o.ready := by
    rw [hready, List.append_assoc, List.singleton_append]
  refine ⟨?_, ?_, ?_, ?_, ?_⟩
  · intro k source hsource
    exact (h.waits k source hsource).imp_right fun ho => List.mem_append_left _ ho
  · intro k hk
    refine h.ready k ?_
    rw [hready]
    exact List.mem_cons_of_mem _ hk
  · show (o.ordered ++ [key] ++ ready).Nodup
    rw [heq]
    exact h.nodup
  · intro k hk
    refine h.known k ?_
    rw [← heq]
    exact hk
  · apply h.ordered.snoc
    intro source hsource
    rcases h.waits key source hsource with hw | ho
    · rw [h.ready key (by rw [hready]; exact List.mem_cons_self)] at hw
      cases hw
    · exact ho

theorem orderLoop_sound (hclosed : ∀ key, ∀ target ∈ outgoingOf edges key, target ∈ keys) (fuel : Nat)
    (h : o.Sound keys edges) : (orderLoop (outgoingOf edges) fuel o).Sound keys edges := by
  induction fuel generalizing o with
  | zero => exact h
  | succ fuel ih =>
    unfold orderLoop
    split
    · exact h
    · next key ready hready =>
      apply ih
      exact release_all_sound (turn_sound h hready) (List.mem_append_right _ List.mem_cons_self)
        (hclosed key)

theorem Ordering.Sound.length_le (h : o.Sound keys edges) :
    o.ordered.length + o.ready.length ≤ keys.length := by
  rw [← List.length_append]
  exact (List.subperm_of_subset h.nodup h.known).length_le

/-- With a turn for every key that had none, nothing is left to do. -/
theorem orderLoop_ready (hclosed : ∀ key, ∀ target ∈ outgoingOf edges key, target ∈ keys) {fuel : Nat}
    (h : o.Sound keys edges) (hfuel : keys.length ≤ o.ordered.length + fuel) :
    (orderLoop (outgoingOf edges) fuel o).ready = [] := by
  induction fuel generalizing o with
  | zero =>
    have hle := h.length_le
    exact List.length_eq_zero_iff.mp (by rw [orderLoop]; omega)
  | succ fuel ih =>
    unfold orderLoop
    split
    · next hready => exact hready
    · next key ready hready =>
      apply ih
      · exact release_all_sound (turn_sound h hready) (List.mem_append_right _ List.mem_cons_self)
          (hclosed key)
      · rw [release_all_ordered, List.length_append, List.length_singleton]
        omega

theorem start_sound (hkeys : keys.Nodup) : (orderingStart keys edges).Sound keys edges where
  waits := fun _ _ hsource => .inl hsource
  ready := by
    intro key hkey
    have hmem := (List.mem_insertionSort _).mp hkey
    exact of_decide_eq_true (List.mem_filter.mp hmem).2
  nodup := (List.perm_insertionSort _ _).nodup_iff.mpr (hkeys.filter _)
  known := by
    intro key hkey
    have hmem := (List.mem_insertionSort _).mp hkey
    exact (List.mem_filter.mp hmem).1
  ordered := .nil

theorem mem_incomingOf {key source : String} : source ∈ incomingOf edges key ↔
    ∃ e ∈ edges, e.causal = true ∧ e.target.key = key ∧ e.source.key = source := by
  unfold incomingOf
  rw [mem_sortedSet, List.mem_map]
  constructor
  · rintro ⟨e, he, rfl⟩
    obtain ⟨hmem, hcausal, htarget⟩ := by simpa using List.mem_filter.mp he
    exact ⟨e, hmem, hcausal, htarget, rfl⟩
  · rintro ⟨e, hmem, hcausal, htarget, rfl⟩
    exact ⟨e, List.mem_filter.mpr ⟨hmem, decide_eq_true ⟨hcausal, htarget⟩⟩, rfl⟩

theorem mem_outgoingOf {key target : String} : target ∈ outgoingOf edges key ↔
    ∃ e ∈ edges, e.causal = true ∧ e.source.key = key ∧ e.target.key = target := by
  unfold outgoingOf
  rw [mem_sortedSet, List.mem_map]
  constructor
  · rintro ⟨e, he, rfl⟩
    obtain ⟨hmem, hcausal, hsource⟩ := by simpa using List.mem_filter.mp he
    exact ⟨e, hmem, hcausal, hsource, rfl⟩
  · rintro ⟨e, hmem, hcausal, hsource, rfl⟩
    exact ⟨e, List.mem_filter.mpr ⟨hmem, decide_eq_true ⟨hcausal, hsource⟩⟩, rfl⟩

/-- The order has every key once, after the sources of the causal edges to it. -/
theorem orderOf_ok {order : List String} (hkeys : keys.Nodup)
    (hedges : ∀ e ∈ edges, e.target.key ∈ keys) (h : orderOf keys edges = .ok order) :
    order.Perm keys ∧
      Precedence.Ordered (fun key source => source ∈ incomingOf edges key) order := by
  have hclosed : ∀ key, ∀ target ∈ outgoingOf edges key, target ∈ keys := by
    intro key target htarget
    obtain ⟨e, he, -, -, rfl⟩ := mem_outgoingOf.mp htarget
    exact hedges e he
  have hsound := orderLoop_sound hclosed keys.length (@start_sound _ edges hkeys)
  unfold orderOf at h
  dsimp only at h
  split at h
  · cases h
  · next hlength =>
    cases h
    have hnodup := (List.nodup_append.mp hsound.nodup).1
    have hsubset := List.subperm_of_subset hnodup fun key hkey =>
      hsound.known key (List.mem_append_left _ hkey)
    exact ⟨hsubset.perm_of_length_le (not_not.mp hlength).ge, hsound.ordered⟩

/-- The order of the edges does not show. -/
theorem orderOf_perm {edges' : List Edge} (hperm : edges'.Perm edges) :
    orderOf keys edges' = orderOf keys edges := by
  have hincoming : incomingOf edges' = incomingOf edges := funext fun key =>
    sortedSet_congr fun x => ((hperm.filter _).map _).mem_iff
  have houtgoing : outgoingOf edges' = outgoingOf edges := funext fun key =>
    sortedSet_congr fun x => ((hperm.filter _).map _).mem_iff
  unfold orderOf orderingStart
  rw [hincoming, houtgoing]

end

/-! ## Accepted compositions -/

section
variable {rt : Runtime}

/-- The loop accepts edges with ids of their own that are all accepted. -/
theorem edgeEffects_ok {ir : Institutional.IR} {keys seen : List String} {edges : List Edge}
    {effects : List Effect} : edgeEffects rt ir keys seen edges = .ok effects ↔
      edges.mapM (edgeEffect rt ir keys) = .ok effects ∧ (edges.map Edge.edgeId).Nodup ∧
        ∀ e ∈ edges, e.edgeId ∉ seen := by
  induction edges generalizing seen effects with
  | nil =>
    constructor
    · intro h
      cases h
      exact ⟨rfl, List.nodup_nil, fun e he => by cases he⟩
    · rintro ⟨h, -, -⟩
      cases h
      rfl
  | cons edge edges ih =>
    rw [List.mapM_cons, List.map_cons, List.nodup_cons]
    constructor
    · intro h
      obtain ⟨_, hnew, h⟩ := bind_ok.mp h
      obtain ⟨effect, heffect, h⟩ := bind_ok.mp h
      obtain ⟨rest, hrest, h⟩ := bind_ok.mp h
      cases h
      obtain ⟨hall, hnodup, hunseen⟩ := ih.mp hrest
      refine ⟨bind_ok.mpr ⟨effect, heffect, bind_ok.mpr ⟨rest, hall, rfl⟩⟩, ⟨?_, hnodup⟩, ?_⟩
      · intro hmem
        obtain ⟨e, he, heq⟩ := List.mem_map.mp hmem
        exact hunseen e he (heq ▸ List.mem_cons_self)
      · intro e he
        rcases List.mem_cons.mp he with rfl | he
        · exact of_decide_eq_true (require_ok.mp hnew)
        · exact fun hs => hunseen e he (List.mem_cons_of_mem _ hs)
    · rintro ⟨h, ⟨hfresh, hnodup⟩, hunseen⟩
      obtain ⟨effect, heffect, h⟩ := bind_ok.mp h
      obtain ⟨rest, hrest, h⟩ := bind_ok.mp h
      cases h
      refine bind_ok.mpr ⟨(), require_ok.mpr (decide_eq_true (hunseen edge List.mem_cons_self)), ?_⟩
      refine bind_ok.mpr ⟨effect, heffect, bind_ok.mpr ⟨rest, ih.mpr ⟨hrest, hnodup, ?_⟩, rfl⟩⟩
      intro e he hs
      rcases List.mem_cons.mp hs with heq | hs
      · exact hfresh (heq ▸ List.mem_map_of_mem he)
      · exact hunseen e (List.mem_cons_of_mem _ he) hs

theorem edgeEffect_ends {ir : Institutional.IR} {keys : List String} {edge : Edge} {effect : Effect}
    (h : edgeEffect rt ir keys edge = .ok effect) :
    edge.source.key ∈ keys ∧ edge.target.key ∈ keys := by
  obtain ⟨_, _, h⟩ := bind_ok.mp h
  obtain ⟨_, hends, _⟩ := bind_ok.mp h
  simpa using require_ok.mp hends

end
end Edon.Composition
