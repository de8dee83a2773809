import EdonPlatform.Common.Python
import EdonPlatform.Lib.Calendar
import EdonPlatform.Lib.Doubles
import EdonPlatform.Lib.Grouping
import EdonPlatform.Lib.Run
import EdonPlatform.Lib.Separated
import EdonPlatform.Lib.Sorting
import Mathlib.Data.List.Nodup
import Mathlib.Data.Prod.Lex

/- The state engine (edon/cerebrum/state_engine.py): assertions about the world, each with the time
   it became available to the controller, and projections of them under a decision clock. An
   engine only takes assertions; a projection sorts the eligible ones, shows the last of each class
   and path, and lists the groups whose latest members differ in their values.

   A document stands for all documents with its entries, in whatever order (`Document`): neither
   `==` nor `sha256_json` sees the order of keys.

   Correspondence (Python ↔ Lean):
     `STATE_CLASSES`                    ↔ `StateClass`, `stateClasses`
     `_identifier`, `_timestamp`        ↔ `identifierOf`, `timestamp`
     `_sha256`, `_state_path`           ↔ `digest`, `statePathOf`
     `_path_key`                        ↔ `pathKey`
     `InstitutionalStateEngine`         ↔ `Engine`, `Engine.new`
     `InstitutionalStateEngine.ingest`  ↔ `normalize`, `Engine.ingest`
     `InstitutionalStateEngine.project` ↔ `Engine.project` -/
namespace Edon.Cerebrum.StateEngine
open Json Transition

def stateError (message : String) : PyError := ⟨.stateEngineError, message⟩

/-- The functions of the runtime the engine uses: `repr` is `str` of a value that is not a text,
`parseHex` what `int(text, 16)` reads. -/
structure Runtime where
  repr : Json → String
  sha256 : String → String
  fromisoformat : String → ParsedTime
  parseHex : String → Option Int

inductive StateClass where
  | observed | reported | inferred | authorized | committed
  deriving DecidableEq, Repr

def StateClass.name : StateClass → String
  | .observed => "OBSERVED"
  | .reported => "REPORTED"
  | .inferred => "INFERRED"
  | .authorized => "AUTHORIZED"
  | .committed => "COMMITTED"

/-- `sorted(STATE_CLASSES)`. -/
def stateClasses : List StateClass := [.authorized, .committed, .inferred, .observed, .reported]

/-- A document up to the order of its keys. -/
structure Document where
  value : Json
  sorted : canon value = value
  deriving DecidableEq

/-- `deepcopy(value)`. -/
def Document.of (value : Json) : Document := ⟨canon value, canon_canon value⟩

structure StateAssertion where
  assertionId : String
  tenantId : String
  worldId : String
  stateClass : StateClass
  statePath : List String
  value : Document
  occurredAt : String
  recordedAt : String
  availableToControllerAt : String
  sourceRef : String
  confidence : Rat
  provenance : Document
  modelLineage : Option String
  authorizationRefSha256 : Option Document
  worldVersion : Option Document
  committedStateSha256 : Option Document
  deriving DecidableEq

/-- An entry that is only there with a value. -/
def entry (key : String) (value : Option Json) : List (String × Json) :=
  (value.map fun v => (key, v)).toList

/-- The assertion as it is hashed. -/
def StateAssertion.core (row : StateAssertion) : List (String × Json) :=
  [("schema_version", .str "edon-cerebrum-state-assertion.v1"),
    ("assertion_id", .str row.assertionId), ("tenant_id", .str row.tenantId),
    ("world_id", .str row.worldId), ("state_class", .str row.stateClass.name),
    ("state_path", .arr (row.statePath.map .str)), ("value", row.value.value),
    ("occurred_at", .str row.occurredAt), ("recorded_at", .str row.recordedAt),
    ("available_to_controller_at", .str row.availableToControllerAt),
    ("source_ref", .str row.sourceRef), ("confidence", .float row.confidence),
    ("provenance", row.provenance.value), ("binding_authority", .bool false)] ++
  (entry "model_lineage" (row.modelLineage.map .str) ++
    (entry "authorization_ref_sha256" (row.authorizationRefSha256.map Document.value) ++
      (entry "world_version" (row.worldVersion.map Document.value) ++
        entry "committed_state_sha256" (row.committedStateSha256.map Document.value))))

/-! ## What an assertion has to meet -/

section
variable (rt : Runtime)

/-- `str(value)`. -/
def text : Json → String
  | .str s => s
  | v => rt.repr v

/-- `str(value or "")`. -/
def textOr (value : Json) : String := if truthy value then text rt value else ""

def identifierOf (value : Json) (label : String) : Except PyError String :=
  identifier .stateEngineError (textOr rt value) label

/-- What a time names. -/
def parsed (value : Json) : ParsedTime := rt.fromisoformat (replaceZ (text rt value))

def timestamp (value : Json) (label : String) : Except PyError String :=
  match parsed rt value with
  | .invalid => .error (stateError (label ++ " must be an ISO-8601 timestamp"))
  | .naive => .error (stateError (label ++ " must include a timezone"))
  | .instant t => do
    return Calendar.isoformat (← astimezone t)

def digest (value : Json) (label : String) : Except PyError String := do
  let normalized := strip (textOr rt value)
  let e := stateError (label ++ " must be a prefixed SHA-256 digest")
  require ("sha256:".toList.isPrefixOf normalized.toList && normalized.length == 71) e
  let _ ← orRaise e (rt.parseHex (String.ofList (normalized.toList.drop 7)))
  return normalized

def statePathOf : Json → Except PyError (List String)
  | .arr (item :: items) => (item :: items).mapM fun x => identifierOf rt x "state_path item"
  | _ => .error (stateError "state_path must be a non-empty array")

/-- `value in {None, False}`. -/
def noAuthority : Json → Except PyError Bool
  | .null => .ok true
  | .bool b => .ok (!b)
  | .int n => .ok (n = 0)
  | .float q => .ok (q = 0)
  | .str _ => .ok false
  | .arr _ => .error ⟨.typeError, "unhashable type: 'list'"⟩
  | .obj _ => .error ⟨.typeError, "unhashable type: 'dict'"⟩

/-- `float(confidence)`, which has to be in [0, 1]. -/
def confidenceOf (value : Json) : Except PyError Rat := do
  let confidence ← match value with
    | .int n =>
      if Doubles.overflowThreshold ≤ |(n : Rat)| then
        .error ⟨.overflowError, "int too large to convert to float"⟩
      else .ok (n : Rat)
    | .float q => .ok q
    | _ => .error (stateError "confidence must be numeric")
  require (0 ≤ confidence ∧ confidence ≤ 1) (stateError "confidence must be between 0 and 1")
  return confidence

def stateClassOf (value : Json) : Except PyError StateClass :=
  let name := upper (text rt value)
  orRaise (stateError ("unsupported state_class: " ++ if name = "" then "<missing>" else name))
    (named StateClass.name stateClasses name)

/-- The three times of an assertion, in their order. -/
structure Times where
  occurredAt : String
  recordedAt : String
  availableToControllerAt : String

def timesOf (get : String → Json) : Except PyError Times := do
  let occurredAt ← timestamp rt (get "occurred_at") "occurred_at"
  let recordedAt ← timestamp rt (get "recorded_at") "recorded_at"
  let availableToControllerAt ←
    timestamp rt (get "available_to_controller_at") "available_to_controller_at"
  require (¬ recordedAt < occurredAt) (stateError "recorded_at cannot precede occurred_at")
  require (¬ availableToControllerAt < recordedAt)
    (stateError "available_to_controller_at cannot precede recorded_at")
  return { occurredAt, recordedAt, availableToControllerAt }

/-- A value that is kept where it is not `None`. -/
def optional : Json → Option Document
  | .null => none
  | v => some (.of v)

/-- What an assertion of a class is bound to. -/
structure Binding where
  authorizationRefSha256 : Option Document
  worldVersion : Option Document
  committedStateSha256 : Option Document

def bindingOf (stateClass : StateClass) (get : String → Json) : Except PyError Binding := do
  require (stateClass ≠ .inferred ∨ strip (textOr rt (get "model_lineage")) ≠ "")
    (stateError "INFERRED state requires model_lineage")
  let authorization ←
    if stateClass = .authorized ∨ stateClass = .committed then
      Json.str <$> digest rt (get "authorization_ref_sha256") "authorization_ref_sha256"
    else .ok (get "authorization_ref_sha256")
  let worldVersion := get "world_version"
  require (stateClass ≠ .committed ∨ worldVersion matches .int (.ofNat _))
    (stateError "COMMITTED state requires a non-negative world_version")
  let committed ←
    if stateClass = .committed then
      Json.str <$> digest rt (get "committed_state_sha256") "committed_state_sha256"
    else .ok (get "committed_state_sha256")
  return ⟨optional authorization, optional worldVersion, optional committed⟩

def lineageOf : Json → Except PyError (Option String)
  | .null => .ok none
  | v => some <$> identifierOf rt v "model_lineage"

/-- `assertion.get(key, default)`. -/
def field (kvs : List (String × Json)) (key : String) (default : Json := .null) : Json :=
  (Assoc.find kvs key).getD default

/-- The assertion a document is, for an engine of a tenant and a world. -/
def normalize (tenantId worldId : String) : Json → Except PyError StateAssertion
  | .obj kvs => do
    require (← noAuthority (field kvs "binding_authority"))
      (stateError "a state assertion cannot carry binding authority")
    let tenant ← identifierOf rt (field kvs "tenant_id" (.str tenantId)) "tenant_id"
    let world ← identifierOf rt (field kvs "world_id" (.str worldId)) "world_id"
    require (tenant = tenantId ∧ world = worldId)
      (stateError "state assertion tenant or world does not match the engine")
    let stateClass ← stateClassOf rt (field kvs "state_class" (.str ""))
    let times ← timesOf rt (field kvs ·)
    let confidence ← confidenceOf (field kvs "confidence")
    let binding ← bindingOf rt stateClass (field kvs ·)
    let assertionId ← identifierOf rt (field kvs "assertion_id") "assertion_id"
    let statePath ← statePathOf rt (field kvs "state_path")
    let sourceRef ← identifierOf rt (field kvs "source_ref") "source_ref"
    let modelLineage ← lineageOf rt (field kvs "model_lineage")
    return {
      assertionId
      tenantId := tenant
      worldId := world
      stateClass
      statePath
      value := .of (field kvs "value")
      occurredAt := times.occurredAt
      recordedAt := times.recordedAt
      availableToControllerAt := times.availableToControllerAt
      sourceRef
      confidence
      provenance := .of (field kvs "provenance" (.obj []))
      modelLineage
      authorizationRefSha256 := binding.authorizationRefSha256
      worldVersion := binding.worldVersion
      committedStateSha256 := binding.committedStateSha256 }
  | _ => .error (stateError "state assertion must be an object")

end

/-! ## The engine -/

/-- The assertions are in the order they came in. -/
structure Engine where
  tenantId : String
  worldId : String
  assertions : List StateAssertion := []
  deriving DecidableEq

/-- A character of an item, as a JSON pointer has it. -/
def escapePointer (c : Char) : List Char :=
  if c = '~' then ['~', '0'] else if c = '/' then ['~', '1'] else [c]

/-- A state path as a JSON pointer. -/
def pathKey (path : List String) : String :=
  String.ofList ('/' ::
    ['/'].intercalate (path.map fun item => item.toList.flatMap escapePointer))

/-- The order of the sort: by time of availability, time of occurrence and id. -/
def before (a b : StateAssertion) : Prop :=
  toLex (a.availableToControllerAt, toLex (a.occurredAt, a.assertionId)) ≤
    toLex (b.availableToControllerAt, toLex (b.occurredAt, b.assertionId))

instance : DecidableRel before := fun a b =>
  inferInstanceAs (Decidable (toLex (a.availableToControllerAt, toLex (a.occurredAt, a.assertionId)) ≤
    toLex (b.availableToControllerAt, toLex (b.occurredAt, b.assertionId))))

structure Conflict where
  stateClass : String
  statePath : List String
  assertionIds : List String
  availableToControllerAt : String
  deriving DecidableEq

/-- The views of an engine: by the name of the class, and the pointer of the path. -/
abbrev Views := Dict String (Dict String StateAssertion)

structure Projection where
  tenantId : String
  worldId : String
  decisionTime : String
  assertions : List StateAssertion
  views : Views
  conflicts : List Conflict
  futureAssertionsExcluded : Nat
  projectionSha256 : String
  deriving DecidableEq

def noViews : Views := stateClasses.foldl (fun views c => views.set c.name ∅) ∅

/-- `views[row["state_class"]][path] = row`. -/
def setView (views : Views) (row : StateAssertion) : Views :=
  views.set row.stateClass.name
    (((views.get row.stateClass.name).getD ∅).set (pathKey row.statePath) row)

def classPath (row : StateAssertion) : String ×ₗ String :=
  toLex (row.stateClass.name, pathKey row.statePath)

section
variable (rt : Runtime)

def StateAssertion.sha256 (row : StateAssertion) : String :=
  sha256Json rt.sha256 (.obj row.core)

/-- The latest assertions of a group, where they differ in their values. -/
def conflictOf (group : (String ×ₗ String) × Grouping.Members StateAssertion) : Option Conflict :=
  let latestTime := group.2.rest.foldl (fun t row => max t row.availableToControllerAt)
    group.2.first.availableToControllerAt
  let latest := group.2.items.filter fun row => row.availableToControllerAt = latestTime
  let valueHashes := sortedSet (latest.map fun row => sha256Json rt.sha256 row.value.value)
  if 1 < valueHashes.length then
    latest.head?.map fun row =>
      { stateClass := (ofLex group.1).1
        statePath := row.statePath
        assertionIds := (latest.map StateAssertion.assertionId).insertionSort (· ≤ ·)
        availableToControllerAt := latestTime }
  else none

def StateAssertion.json (row : StateAssertion) : Json :=
  .obj (row.core ++ [("assertion_sha256", .str (row.sha256 rt))])

def Conflict.json (c : Conflict) : Json :=
  .obj [("state_class", .str c.stateClass), ("state_path", .arr (c.statePath.map .str)),
    ("assertion_ids", .arr (c.assertionIds.map .str)),
    ("available_to_controller_at", .str c.availableToControllerAt)]

def Projection.core (p : Projection) : Json :=
  .obj [("schema_version", .str "edon-cerebrum-state-projection.v1"),
    ("tenant_id", .str p.tenantId), ("world_id", .str p.worldId),
    ("decision_time", .str p.decisionTime),
    ("assertions", .arr (p.assertions.map (StateAssertion.json rt))),
    ("views", .obj (p.views.entries.map fun e =>
      (e.1, .obj (e.2.entries.map fun f => (f.1, f.2.json rt))))),
    ("conflicts", .arr (p.conflicts.map Conflict.json)),
    ("separated_state_classes", .bool true),
    ("future_assertions_excluded", .int p.futureAssertionsExcluded),
    ("binding_authority", .bool false)]

/-- `InstitutionalStateEngine(tenant_id, world_id)`. -/
def Engine.new (tenantId worldId : Json) : Except PyError Engine := do
  let tenantId ← identifierOf rt tenantId "tenant_id"
  let worldId ← identifierOf rt worldId "world_id"
  return { tenantId, worldId }

/-- `ingest`: what it returns or raises, and the engine it leaves. -/
def Engine.ingest (assertion : Json) (e : Engine) : Except PyError StateAssertion × Engine :=
  match normalize rt e.tenantId e.worldId assertion with
  | .error err => (.error err, e)
  | .ok row =>
    match e.assertions.find? fun r => r.assertionId = row.assertionId with
    | some existing =>
      if existing.sha256 rt ≠ row.sha256 rt then
        (.error (stateError "assertion_id is already bound to different content"), e)
      else (.ok existing, e)
    | none => (.ok row, { e with assertions := e.assertions ++ [row] })

/-- The eligible assertions under a clock, in order. -/
def Engine.eligible (clock : String) (e : Engine) : List StateAssertion :=
  (e.assertions.filter fun row => row.availableToControllerAt ≤ clock).insertionSort before

/-- The projection under a clock, before it is hashed. -/
def Engine.projectionAt (clock : String) (e : Engine) : Projection :=
  let eligible := e.eligible clock
  { tenantId := e.tenantId
    worldId := e.worldId
    decisionTime := clock
    assertions := eligible
    views := eligible.foldl setView noViews
    conflicts := (Grouping.groupBy classPath eligible).entries.filterMap (conflictOf rt)
    futureAssertionsExcluded := e.assertions.length - eligible.length
    projectionSha256 := "" }

def Engine.project (decisionTime : Json) (e : Engine) : Except PyError Projection := do
  let clock ← timestamp rt decisionTime "decision_time"
  let core := e.projectionAt rt clock
  return { core with projectionSha256 := sha256Json rt.sha256 (core.core rt) }

end
end Edon.Cerebrum.StateEngine
