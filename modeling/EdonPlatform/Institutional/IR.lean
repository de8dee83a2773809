import EdonPlatform.Common.Python
import EdonPlatform.Lib.Doubles
import EdonPlatform.Lib.KeyedSort

/- The institutional representation (edon/actionnet/product/institutional.py,
   `InstitutionalIRValidator`): what a document has to be, the document in its canonical form,
   and whether one can act on it.

   A document is what `_json` makes of it: its numbers are finite. A dictionary of the canonical
   form is a `Dict`, whose keys have one order.

   Correspondence (Python ↔ Lean):
     `_identifier`, `_probability`, `_iso_or_none` ↔ `identifierOf`, `probability`, `isoOrNone`
     `_normalize_epistemic`, `_normalize_temporal`, `_normalize_behavior`
                              ↔ `normalizeEpistemic`, `normalizeTemporal`, `normalizeBehavior`
     the loops of `normalize` ↔ `normalizeReference`, `distinctItems` with `normalizeObject` and
                                with `normalizeHorizon`
     `normalize`              ↔ `normalize`, its result `IR.json`
     `assess_actionability`   ↔ `assessActionability` -/
namespace Edon.Institutional
open Json KeyedSort

def irError (message : String) : PyError := ⟨.institutionalIRError, message⟩

/-- The functions of the runtime. `fromisoformat` says which texts `datetime.fromisoformat` reads,
`parseInt` what `int` reads in a text. `upperChar` is the upper case of a character: no character
of it changes when it is taken again, and it is empty or blank for no character that is not. -/
structure Runtime where
  repr : Json → String
  sha256 : String → String
  fromisoformat : String → Bool
  parseInt : String → Option Int
  upperChar : Char → List Char
  upper_upper : ∀ c, ∀ d ∈ upperChar c, upperChar d = [d]
  upper_ne_nil : ∀ c, upperChar c ≠ []
  upper_space : ∀ c, isSpace c = false → ∀ d ∈ upperChar c, isSpace d = false

/-! ## Types -/

inductive ObjectType where
  | institution | entity | actor | role | authority | capability | resource | goal | obligation
  | policy | evidence | workflow | plan | dependency | event | action | outcome | risk
  | temporalConstraint | conflict
  deriving DecidableEq, Repr

def ObjectType.name : ObjectType → String
  | .institution => "INSTITUTION"
  | .entity => "ENTITY"
  | .actor => "ACTOR"
  | .role => "ROLE"
  | .authority => "AUTHORITY"
  | .capability => "CAPABILITY"
  | .resource => "RESOURCE"
  | .goal => "GOAL"
  | .obligation => "OBLIGATION"
  | .policy => "POLICY"
  | .evidence => "EVIDENCE"
  | .workflow => "WORKFLOW"
  | .plan => "PLAN"
  | .dependency => "DEPENDENCY"
  | .event => "EVENT"
  | .action => "ACTION"
  | .outcome => "OUTCOME"
  | .risk => "RISK"
  | .temporalConstraint => "TEMPORAL_CONSTRAINT"
  | .conflict => "CONFLICT"

def objectTypes : List ObjectType :=
  [.institution, .entity, .actor, .role, .authority, .capability, .resource, .goal, .obligation,
   .policy, .evidence, .workflow, .plan, .dependency, .event, .action, .outcome, .risk,
   .temporalConstraint, .conflict]

/-- `TUPLE_MAPPING`. -/
def ObjectType.tupleComponent : ObjectType → String
  | .institution | .entity | .actor | .role | .capability => "X"
  | .evidence => "E"
  | .resource => "R"
  | .authority => "A"
  | .goal | .obligation | .policy => "P"
  | .workflow | .plan | .dependency => "W"
  | .temporalConstraint => "T"
  | .conflict => "C"
  | .event | .action | .outcome | .risk => "SIGMA"

inductive EpistemicStatus where
  | known | unknown | estimated | stale | contradictory | delayed | untrusted | probabilistic
  deriving DecidableEq, Repr

def EpistemicStatus.name : EpistemicStatus → String
  | .known => "KNOWN"
  | .unknown => "UNKNOWN"
  | .estimated => "ESTIMATED"
  | .stale => "STALE"
  | .contradictory => "CONTRADICTORY"
  | .delayed => "DELAYED"
  | .untrusted => "UNTRUSTED"
  | .probabilistic => "PROBABILISTIC"

def epistemicStatuses : List EpistemicStatus :=
  [.known, .unknown, .estimated, .stale, .contradictory, .delayed, .untrusted, .probabilistic]

inductive StrategicBehavior where
  | cooperative | neutral | competitive | opportunistic | adversarial
  deriving DecidableEq, Repr

def StrategicBehavior.name : StrategicBehavior → String
  | .cooperative => "COOPERATIVE"
  | .neutral => "NEUTRAL"
  | .competitive => "COMPETITIVE"
  | .opportunistic => "OPPORTUNISTIC"
  | .adversarial => "ADVERSARIAL"

def strategicBehaviors : List StrategicBehavior :=
  [.cooperative, .neutral, .competitive, .opportunistic, .adversarial]

structure Reference where
  relation : String
  targetId : String
  deriving DecidableEq, Repr

structure TemporalState where
  validFromSeconds : Int
  validUntilSeconds : Option Int
  observedAtSeconds : Int
  deriving DecidableEq, Repr

structure EpistemicState where
  status : EpistemicStatus
  confidence : Rat
  asOf : Option String
  sources : List String
  critical : Bool
  deriving DecidableEq, Repr

structure BehaviorModel where
  objectives : List String
  incentives : List String
  trust : Dict String Rat
  fatigue : Rat
  riskTolerance : Rat
  informationAccess : List String
  cooperationProbability : Rat
  strategicBehavior : StrategicBehavior
  boundedRationality : Rat
  deriving DecidableEq

structure Object where
  objectId : String
  objectType : ObjectType
  name : String
  attributes : Json
  references : List Reference
  temporalState : TemporalState
  epistemicState : EpistemicState
  behaviorModel : Option BehaviorModel
  deriving DecidableEq

structure Horizon where
  horizonId : String
  durationSeconds : Int
  label : String
  deriving DecidableEq, Repr

structure TruthLayers where
  normative : List Json
  operational : List Json
  behavioral : List Json
  deriving DecidableEq

structure IR where
  institutionId : String
  version : String
  institutionType : String
  objects : List Object
  horizons : List Horizon
  truthLayers : TruthLayers
  sourceGrounded : Bool
  deriving DecidableEq

/-! ## The canonical form as a document -/

def textsJson (texts : List String) : Json := .arr (texts.map .str)

def Reference.json (r : Reference) : Json :=
  .obj [("relation", .str r.relation), ("target_id", .str r.targetId)]

def optionJson {α : Type} (f : α → Json) : Option α → Json
  | some a => f a
  | none => .null

def TemporalState.json (t : TemporalState) : Json :=
  .obj [("valid_from_seconds", .int t.validFromSeconds),
    ("valid_until_seconds", optionJson .int t.validUntilSeconds),
    ("observed_at_seconds", .int t.observedAtSeconds)]

def EpistemicState.json (e : EpistemicState) : Json :=
  .obj [("status", .str e.status.name), ("confidence", .float e.confidence),
    ("as_of", optionJson .str e.asOf), ("sources", textsJson e.sources),
    ("critical", .bool e.critical)]

def BehaviorModel.json (b : BehaviorModel) : Json :=
  .obj [("objectives", textsJson b.objectives), ("incentives", textsJson b.incentives),
    ("trust", .obj (b.trust.entries.map fun t => (t.1, .float t.2))), ("fatigue", .float b.fatigue),
    ("risk_tolerance", .float b.riskTolerance),
    ("information_access", textsJson b.informationAccess),
    ("cooperation_probability", .float b.cooperationProbability),
    ("strategic_behavior", .str b.strategicBehavior.name),
    ("bounded_rationality", .float b.boundedRationality), ("assumption_driven", .bool true)]

def Object.fields (o : Object) : List (String × Json) :=
  [("object_id", .str o.objectId), ("object_type", .str o.objectType.name),
    ("tuple_component", .str o.objectType.tupleComponent), ("name", .str o.name),
    ("attributes", o.attributes), ("references", .arr (o.references.map Reference.json)),
    ("temporal_state", o.temporalState.json), ("epistemic_state", o.epistemicState.json)]

def Object.json (o : Object) : Json :=
  .obj (o.fields ++ match o.behaviorModel with
    | some b => [("behavior_model", b.json)]
    | none => [])

def Horizon.json (h : Horizon) : Json :=
  .obj [("horizon_id", .str h.horizonId), ("duration_seconds", .int h.durationSeconds),
    ("label", .str h.label)]

def IR.fields (ir : IR) : List (String × Json) :=
  [("schema_version", .str "actionnet-institutional-ir.v1"),
    ("institution_id", .str ir.institutionId), ("version", .str ir.version),
    ("institution_type", .str ir.institutionType),
    ("canonical_tuple", .str "I=(X,E,R,A,P,W,T,C,Sigma)"),
    ("objects", .arr (ir.objects.map Object.json)), ("horizons", .arr (ir.horizons.map Horizon.json)),
    ("truth_layers", .obj [("normative", .arr ir.truthLayers.normative),
      ("operational", .arr ir.truthLayers.operational),
      ("behavioral", .arr ir.truthLayers.behavioral)]),
    ("source_grounded", .bool ir.sourceGrounded), ("authoritative", .bool false),
    ("binding_authority", .bool false)]

section
variable (rt : Runtime)

def IR.sha256 (ir : IR) : String := sha256Json rt.sha256 (.obj ir.fields)

/-- What `normalize` returns: the canonical form with its digest. -/
def IR.json (ir : IR) : Json := .obj (ir.fields ++ [("ir_sha256", .str (ir.sha256 rt))])

/-! ## Values -/

/-- `str(value)`. -/
def text : Json → String
  | .str s => s
  | v => rt.repr v

/-- `value.upper()`. -/
def upperCase (s : String) : String := String.ofList (s.toList.flatMap rt.upperChar)

/-- `fields.get(key, default)`. -/
def get (fields : List (String × Json)) (key : String) (default : Json) : Json :=
  (Assoc.find fields key).getD default

def identifierOf (value : Json) (label : String) : Except PyError String :=
  match value with
  | .null => .error (irError (label ++ " is required"))
  | v => bounded (irError (label ++ " must contain between 1 and 200 characters")) 200 (text rt v)

/-- `sorted({_identifier(item, label) for item in value})`. -/
def identifierSet (value : Json) (label : String) : Except PyError (List String) := do
  let items ← iterate value
  let identifiers ← items.mapM fun item => identifierOf rt item label
  return sortedSet identifiers

def probability (value : Json) (label : String) : Except PyError Rat :=
  match value with
  | .int n =>
    if Doubles.overflowThreshold ≤ |(n : Rat)| then
      .error ⟨.overflowError, "int too large to convert to float"⟩
    else if 0 ≤ n ∧ n ≤ 1 then .ok n
    else .error (irError (label ++ " must be between 0 and 1"))
  | .float q =>
    if 0 ≤ q ∧ q ≤ 1 then .ok q else .error (irError (label ++ " must be between 0 and 1"))
  | _ => .error (irError (label ++ " must be numeric"))

/-- `int(value)`. -/
def intOf : Json → Except PyError Int
  | .int n => .ok n
  | .float q => .ok (if 0 ≤ q then q.floor else q.ceil)
  | .bool b => .ok (if b then 1 else 0)
  | .str s => orRaise ⟨.valueError, "invalid literal for int() with base 10"⟩ (rt.parseInt s)
  | v => .error ⟨.typeError,
      "int() argument must be a string, a bytes-like object or a real number, not '" ++ typeName v ++ "'"⟩

/-- `int(value) if value is not None else None`. -/
def optionalInt : Json → Except PyError (Option Int)
  | .null => .ok none
  | v => (intOf rt v).map some

def isoOrNone (value : Json) (label : String) : Except PyError (Option String) :=
  match value with
  | .null => .ok none
  | v =>
    if rt.fromisoformat (replaceZ (text rt v)) then .ok (some (text rt v))
    else .error (irError (label ++ " must be an ISO-8601 timestamp"))

/-- A dictionary, `None` being an empty one. -/
def objectOrEmpty (raw : Json) (label : String) : Except PyError (List (String × Json)) :=
  match raw with
  | .null => .ok []
  | .obj fields => .ok fields
  | _ => .error (irError (label ++ " must be an object"))

/-! ## The states of an object -/

def normalizeTemporal (raw : Json) : Except PyError TemporalState := do
  let fields ← objectOrEmpty raw "temporal_state"
  let validFrom ← intOf rt (get fields "valid_from_seconds" (.int 0))
  let validUntil ← optionalInt rt (get fields "valid_until_seconds" .null)
  let observedAt ← intOf rt (get fields "observed_at_seconds" (.int validFrom))
  require (0 ≤ min validFrom observedAt && validUntil.all fun u => validFrom ≤ u)
    (irError "temporal bounds must be non-negative and ordered")
  return ⟨validFrom, validUntil, observedAt⟩

def EpistemicStatus.defaultConfidence : EpistemicStatus → Rat
  | .unknown => 0
  | .known => 1
  | _ => 1 / 2

def normalizeEpistemic (raw : Json) (objectType : ObjectType) : Except PyError EpistemicState := do
  let fields ← objectOrEmpty raw "epistemic_state"
  let defaultStatus := if objectType = .evidence then "UNKNOWN" else "KNOWN"
  let statusText := upperCase rt (text rt (get fields "status" (.str defaultStatus)))
  let status ← orRaise (irError ("unsupported epistemic status: " ++ statusText))
    (named EpistemicStatus.name epistemicStatuses statusText)
  let confidence ← probability (get fields "confidence" (.float status.defaultConfidence))
    "epistemic confidence"
  require (status ≠ .unknown || confidence = 0)
    (irError "UNKNOWN epistemic state must have zero confidence")
  require (status ≠ .probabilistic || (confidence ≠ 0 && confidence ≠ 1))
    (irError "PROBABILISTIC epistemic state requires confidence between 0 and 1")
  let sources ← identifierSet rt (get fields "sources" (.arr [])) "epistemic source"
  let asOf ← isoOrNone rt (get fields "as_of" .null) "epistemic as_of"
  let critical := truthy (get fields "critical" (.bool (objectType = .evidence)))
  return { status, confidence, asOf, sources, critical }

/-- The dictionary of trust values, over its sorted items. -/
def normalizeTrust : List (String × Json) → Except PyError (List (String × Rat))
  | [] => .ok []
  | item :: items => do
    let key ← identifierOf rt (.str item.1) "trust target"
    let value ← probability item.2 "trust value"
    let rest ← normalizeTrust items
    return (key, value) :: rest

def trustItems : Json → Except PyError (List (String × Json))
  | .obj items => .ok items
  | _ => .error (irError "behavior trust must be an object")

def normalizeBehavior (raw : Json) : Except PyError BehaviorModel := do
  let fields ← objectOrEmpty raw "behavior_model"
  let strategicText := upperCase rt (text rt (get fields "strategic_behavior" (.str "NEUTRAL")))
  let strategicBehavior ← orRaise (irError ("unsupported strategic behavior: " ++ strategicText))
    (named StrategicBehavior.name strategicBehaviors strategicText)
  let trustRaw ← trustItems (get fields "trust" (.obj []))
  let trust ← normalizeTrust rt (Assoc.sortKeys trustRaw)
  let objectives ← identifierSet rt (get fields "objectives" (.arr [])) "behavior objective"
  let incentives ← identifierSet rt (get fields "incentives" (.arr [])) "behavior incentive"
  let fatigue ← probability (get fields "fatigue" (.float 0)) "fatigue"
  let riskTolerance ← probability (get fields "risk_tolerance" (.float (1 / 2))) "risk_tolerance"
  let informationAccess ← identifierSet rt (get fields "information_access" (.arr []))
    "information access"
  let cooperationProbability ← probability
    (get fields "cooperation_probability" (.float (3602879701896397 / 4503599627370496)))
    "cooperation_probability"
  let boundedRationality ← probability
    (get fields "bounded_rationality" (.float (3602879701896397 / 18014398509481984)))
    "bounded_rationality"
  return {
    objectives
    incentives
    trust := Dict.ofList trust
    fatigue
    riskTolerance
    informationAccess
    cooperationProbability
    strategicBehavior
    boundedRationality }

/-! ## Objects -/

def normalizeReference (raw : Json) : Except PyError Reference :=
  match raw with
  | .obj fields => do
    let relation ← identifierOf rt (get fields "relation" .null) "reference relation"
    let targetId ← identifierOf rt (get fields "target_id" .null) "reference target_id"
    return ⟨upperCase rt relation, targetId⟩
  | _ => .error (irError "object references must be objects")

def Reference.key (r : Reference) : String ×ₗ String := toLex (r.relation, r.targetId)

/-- The behavior model of an object. -/
def normalizeActor (objectType : ObjectType) (raw : Json) : Except PyError (Option BehaviorModel) :=
  if objectType = .actor then (normalizeBehavior rt raw).map some
  else if raw = .null then .ok none
  else .error (irError "behavior_model is only valid for ACTOR objects")

/-- The item of an object, after its id is checked. -/
def normalizeObject (objectId : String) (fields : List (String × Json)) : Except PyError Object := do
  let typeText := upperCase rt (text rt (get fields "object_type" (.str "")))
  let objectType ← orRaise (irError ("unsupported Institutional IR object_type: " ++ typeText))
    (named ObjectType.name objectTypes typeText)
  let rawReferences ← iterate (get fields "references" (.arr []))
  let references ← rawReferences.mapM (normalizeReference rt)
  let name ← identifierOf rt (get fields "name" (.str objectId)) "object name"
  let temporalState ← normalizeTemporal rt (get fields "temporal_state" .null)
  let epistemicState ← normalizeEpistemic rt (get fields "epistemic_state" .null) objectType
  let behaviorModel ← normalizeActor rt objectType (get fields "behavior_model" .null)
  return {
    objectId
    objectType
    name
    attributes := get fields "attributes" (.obj [])
    references := sortBy Reference.key references
    temporalState
    epistemicState
    behaviorModel }

/-- The loops over objects and over horizons: items with ids of their own, after those with the
ids `seen`. -/
def distinctItems {α : Type} (key : String) (malformed : PyError) (duplicate : String → PyError)
    (item : String → List (String × Json) → Except PyError α) (seen : List String) :
    List Json → Except PyError (List α)
  | [] => .ok []
  | .obj fields :: rest => do
    let itemId ← identifierOf rt (get fields key .null) key
    require (itemId ∉ seen) (duplicate itemId)
    let result ← item itemId fields
    let results ← distinctItems key malformed duplicate item (itemId :: seen) rest
    return result :: results
  | _ :: _ => .error malformed

def normalizeObjects : List Json → Except PyError (List Object) :=
  distinctItems rt "object_id" (irError "every Institutional IR object must be an object")
    (fun id => irError ("duplicate Institutional IR object_id: " ++ id)) (normalizeObject rt) []

/-- Every reference has its target. -/
def checkReferences (ids : List String) (object : Object) : Except PyError Unit :=
  object.references.forM fun reference => require (reference.targetId ∈ ids)
    (irError ("unresolved reference from " ++ object.objectId ++ " to " ++ reference.targetId))

/-! ## Horizons -/

def normalizeHorizon (horizonId : String) (fields : List (String × Json)) :
    Except PyError Horizon := do
  let seconds ← intOf rt (get fields "duration_seconds" (.int 0))
  require (0 < seconds) (irError "horizon duration_seconds must be positive")
  let label ← identifierOf rt (get fields "label" (.str horizonId)) "horizon label"
  return ⟨horizonId, seconds, label⟩

def normalizeHorizons : List Json → Except PyError (List Horizon) :=
  distinctItems rt "horizon_id" (irError "horizons must contain objects")
    (fun id => irError ("duplicate horizon_id: " ++ id)) (normalizeHorizon rt) []

def defaultHorizons : List Horizon :=
  [⟨"immediate", 10, "10 seconds"⟩, ⟨"operational", 3600, "1 hour"⟩, ⟨"strategic", 2592000, "30 days"⟩]

def Horizon.key (h : Horizon) : Int ×ₗ String := toLex (h.durationSeconds, h.horizonId)

/-! ## Documents -/

/-- `list(source.get("truth_layers", {}).get(name, []))`. -/
def truthLayer (source : List (String × Json)) (name : String) : Except PyError (List Json) := do
  let layer ← dictGet (get source "truth_layers" (.obj [])) name (.arr [])
  iterate layer

def objectsArray : Json → Except PyError (List Json)
  | .arr (raw :: rest) => .ok (raw :: rest)
  | _ => .error (irError "Institutional IR requires a non-empty objects array")

/-- `normalize(document, institution_id=…, version=…)`. -/
def normalize (institutionId version : Option Json) (document : Json) : Except PyError IR :=
  match document with
  | .obj source => do
    let normalizedId ← identifierOf rt (institutionId.getD (get source "institution_id" .null))
      "institution_id"
    let normalizedVersion ← identifierOf rt (version.getD (get source "version" .null)) "version"
    let institutionType ← identifierOf rt (get source "institution_type" .null) "institution_type"
    let rawObjects ← objectsArray (get source "objects" .null)
    let objects ← normalizeObjects rt rawObjects
    objects.forM (checkReferences (objects.map Object.objectId))
    let rawHorizons ← iterate (get source "horizons" (.arr []))
    let horizons ← normalizeHorizons rt rawHorizons
    let normative ← truthLayer source "normative"
    let operational ← truthLayer source "operational"
    let behavioral ← truthLayer source "behavioral"
    return {
      institutionId := normalizedId
      version := normalizedVersion
      institutionType := upperCase rt institutionType
      objects := sortBy Object.objectId objects
      horizons := sortBy Horizon.key (if horizons.isEmpty then defaultHorizons else horizons)
      truthLayers := ⟨normative, operational, behavioral⟩
      sourceGrounded := truthy (get source "source_grounded" (.bool false)) }
  | _ => .error (irError "Institutional IR must be an object")

/-! ## Actionability -/

/-- `NON_ACTIONABLE_EPISTEMIC`. -/
def nonActionable : List EpistemicStatus := [.unknown, .stale, .contradictory, .delayed, .untrusted]

structure Blocker where
  objectId : String
  status : EpistemicStatus
  reason : String

def Object.blocker (o : Object) : Option Blocker :=
  if o.epistemicState.critical then
    if o.epistemicState.status ∈ nonActionable then
      some ⟨o.objectId, o.epistemicState.status, "critical institutional state is not action-ready"⟩
    else if (o.epistemicState.status = .estimated ∨ o.epistemicState.status = .probabilistic) ∧
        o.epistemicState.confidence < 1 / 2 then
      some ⟨o.objectId, o.epistemicState.status,
        "critical estimate is below the registered confidence floor"⟩
    else none
  else none

def Blocker.json (b : Blocker) : Json :=
  .obj [("object_id", .str b.objectId), ("status", .str b.status.name), ("reason", .str b.reason)]

structure Actionability where
  blockers : List Blocker
  irSha256 : String

def Actionability.json (a : Actionability) : Json :=
  .obj [("disposition", .str (if a.blockers.isEmpty then "ACTIONABLE_FOR_SIMULATION"
      else "ABSTAIN_ACQUIRE_EVIDENCE")),
    ("blockers", .arr (a.blockers.map Blocker.json)), ("ir_sha256", .str a.irSha256),
    ("binding_authority", .bool false)]

def assessActionability (document : Json) : Except PyError Actionability := do
  let ir ← normalize rt none none document
  return ⟨ir.objects.filterMap Object.blocker, ir.sha256 rt⟩

end
end Edon.Institutional
