import EdonPlatform.Common.PyValue
import EdonPlatform.World.Store
import EdonPlatform.Lib.Run
import EdonPlatform.Lib.Sorting

/- The federation store (edon/federation/store.py, `InstitutionalFederationStore`): an
   immutable tree of scopes for each tenant, the projections that summarize a world or add
   up earlier projections, and the routes and escalations of decisions. No row is ever
   updated or deleted (a trigger on every table).

   An identifier in a row passed `_identifier`, which the type says. Each method writes in
   transactions of its own, one statement each, so a method that fails keeps what its
   earlier transactions wrote. Amounts are exact.

   Correspondence (Python ↔ Lean):
     the schema of `_initialize` ↔ `FederationDb` and its rows
     `_identifier`, `_score`, `_json`, `_counts` ↔ `toIdentifier`, `score`, `finiteJson`, `countsOf`
     `_ancestor_ids`, `least_common_ancestor` ↔ `ancestorIds`, `leastCommonAncestor`
     `_summarize_operations`, `_insert_projection`, `_projection_rows` ↔ `summarizeOperations`,
       `insertProjection`, `projectionRows`
     `register_scope`, `project_world`, `aggregate_scope`, `route_decision`, `open_escalation`,
       `record_escalation_event` ↔ the same names
     one call of the store ↔ `Call`, `next` -/
namespace Edon.Federation

def federationError (message : String) : PyError := ⟨.federationError, message⟩

/-! ## Identifiers -/

/-- A stripped text of 1 to 200 characters. -/
abbrev Identifier := { text : String // strip text = text ∧ text ≠ "" ∧ text.length ≤ 200 }

/-- `_identifier`. -/
def toIdentifier (value label : String) : Except PyError Identifier :=
  if h : strip (strip value) = strip value ∧ strip value ≠ "" ∧ (strip value).length ≤ 200 then
    .ok ⟨strip value, h⟩
  else .error (federationError (label ++ " must contain between 1 and 200 characters"))

/-- The texts `_identifier` accepts. -/
def isIdentifier (value : String) : Bool := strip value ≠ "" && (strip value).length ≤ 200

theorem toIdentifier_ok {value label : String} {i : Identifier} :
    toIdentifier value label = .ok i ↔ isIdentifier value = true ∧ i.1 = strip value := by
  unfold toIdentifier isIdentifier
  rw [Bool.and_eq_true, decide_eq_true_eq, decide_eq_true_eq]
  constructor
  · intro h
    split at h
    · next hv =>
      cases h
      exact ⟨hv.2, rfl⟩
    · cases h
  · intro h
    rw [dif_pos ⟨strip_strip value, h.1⟩, Except.ok.injEq]
    exact Subtype.ext h.2.symm

/-- An identifier passes the check again, unchanged. -/
@[simp] theorem toIdentifier_text (i : Identifier) (label : String) :
    toIdentifier i.1 label = .ok i := by
  refine toIdentifier_ok.mpr ⟨?_, i.2.1.symm⟩
  unfold isIdentifier
  rw [i.2.1]
  simp [i.2.2.1, i.2.2.2]

/-- `sorted({_identifier(value, label) for value in values})`. -/
def identifierSet (values : List String) (label : String) : Except PyError (List Identifier) := do
  let identifiers ← values.mapM fun value => toIdentifier value label
  return (Assoc.sortKeys (identifiers.map fun i => (i, ()))).map Prod.fst

/-- `_identifier(value, label) if value else None`. -/
def optionalIdentifier (value : Option String) (label : String) :
    Except PyError (Option Identifier) :=
  match value with
  | none => .ok none
  | some text => if text = "" then .ok none else (toIdentifier text label).map some

/-- `str(created_at or _now())`. -/
def orNow (createdAt : Option String) (now : String) : String :=
  match createdAt with
  | some text => if text = "" then now else text
  | none => now

/-! ## The schema -/

inductive ScopeType where
  | global | domain | region | facility | edge
  deriving DecidableEq, Repr

def ScopeType.name : ScopeType → String
  | .global => "GLOBAL"
  | .domain => "DOMAIN"
  | .region => "REGION"
  | .facility => "FACILITY"
  | .edge => "EDGE"

def ScopeType.all : List ScopeType := [.global, .domain, .region, .facility, .edge]

/-- `SCOPE_RANK`. -/
def ScopeType.rank : ScopeType → Nat
  | .global => 0
  | .domain => 1
  | .region => 2
  | .facility => 3
  | .edge => 4

def latencyClasses : List String := ["MILLISECONDS", "SECONDS", "MINUTES", "HOURS", "DAYS"]

def severities : List String := ["INFO", "LOW", "MEDIUM", "HIGH", "CRITICAL"]

structure ScopeRow where
  tenantId : Identifier
  scopeId : Identifier
  parentScopeId : Option Identifier
  scopeType : ScopeType
  worldId : Option Identifier
  name : Identifier
  authorityDomain : Identifier
  decisionLatencyClass : String
  dataPolicy : List (String × PyValue)
  createdAt : String
  recordSha256 : String

def ScopeRow.key (r : ScopeRow) : String × String := (r.tenantId.1, r.scopeId.1)

structure Resource where
  unit : String
  capacity : Rat
  allocated : Rat
  available : Rat
  utilization : Rat
  deriving DecidableEq

structure Counts where
  observations : Nat
  goals : Dict String Nat
  plans : Dict String Nat
  agents : Dict String Nat
  alerts : Dict String Nat
  outcomes : Dict String Nat
  deriving DecidableEq

/-- What a summary was made from: the state of a world, or the projections of other scopes. -/
inductive Origin where
  | world (worldId : String) (version : Int) (stateSha256 : String)
  | scopes (sourceScopeIds : List Identifier) (sourceProjectionHashes : List String)
  deriving DecidableEq

structure Summary where
  scopeId : Identifier
  origin : Origin
  observedAt : String
  counts : Counts
  resources : Dict String Resource
  deriving DecidableEq

structure ProjectionRow where
  tenantId : String
  projectionId : Identifier
  sourceScopeId : Identifier
  targetScopeId : Identifier
  summary : Summary
  summarySha256 : String
  createdAt : String
  deriving DecidableEq

def ProjectionRow.key (r : ProjectionRow) : String × String := (r.tenantId, r.projectionId.1)

inductive Disposition where
  | handleLocal | handleAtRoot | escalate
  deriving DecidableEq, Repr

def Disposition.name : Disposition → String
  | .handleLocal => "HANDLE_LOCAL"
  | .handleAtRoot => "HANDLE_AT_ROOT"
  | .escalate => "ESCALATE"

structure Route where
  tenantId : Identifier
  decisionId : Identifier
  sourceScopeId : Identifier
  targetScopeId : Identifier
  consequenceScopeIds : List Identifier
  impactScore : Rat
  uncertainty : Rat
  requiredAuthorityScopeId : Option Identifier
  disposition : Disposition
  reasonCodes : List String
  contextSha256 : String
  createdAt : String

structure RouteRow extends Route where
  recordSha256 : String

def RouteRow.key (r : RouteRow) : String × String := (r.tenantId.1, r.decisionId.1)

structure Escalation where
  tenantId : Identifier
  escalationId : Identifier
  decisionId : Identifier
  sourceScopeId : Identifier
  targetScopeId : Identifier
  severity : String
  reason : String
  evidenceSha256 : List Identifier
  openedAt : String

structure EscalationRow extends Escalation where
  recordSha256 : String

def EscalationRow.key (r : EscalationRow) : String × String := (r.tenantId.1, r.escalationId.1)

structure EscalationEvent where
  tenantId : Identifier
  escalationId : Identifier
  eventType : String
  actorId : Identifier
  note : String
  createdAt : String

structure FederationDb where
  scopes : Table ScopeRow.key
  projections : Table ProjectionRow.key
  routes : Table RouteRow.key
  escalations : Table EscalationRow.key
  escalationEvents : List EscalationEvent

instance : EmptyCollection FederationDb := ⟨⟨∅, ∅, ∅, ∅, []⟩⟩

/-- `INSERT`, whose `IntegrityError` is raised again with a message. -/
def insertRow {α : Type} {key : α → String × String} (message : String) (row : α)
    (table : Table key) : Except PyError (Table key) :=
  orRaise (federationError message) (table.insert row)

/-! ## The records as JSON -/

def identifiers (ids : List Identifier) : PyValue := .list (ids.map fun i => .str i.1)

def nullableIdentifier (i : Option Identifier) : PyValue := i.elim .null fun i => .str i.1

def number (q : Rat) : PyValue := .float (.finite q)

def countsValue (d : Dict String Nat) : PyValue :=
  .dict (d.entries.map fun e => (e.1, .int e.2))

def Counts.toValue (c : Counts) : PyValue := .dict
  [("observations", .int c.observations), ("goals", countsValue c.goals),
   ("plans", countsValue c.plans), ("agents", countsValue c.agents),
   ("alerts", countsValue c.alerts), ("outcomes", countsValue c.outcomes)]

def Resource.toValue (r : Resource) : PyValue := .dict
  [("unit", .str r.unit), ("capacity", number r.capacity), ("allocated", number r.allocated),
   ("available", number r.available), ("utilization", number r.utilization)]

def Origin.fields : Origin → List (String × PyValue)
  | .world worldId version stateSha256 =>
    [("projection_kind", .str "WORLD_SUMMARY"), ("source_world_id", .str worldId),
     ("source_world_version", .int version), ("source_state_sha256", .str stateSha256)]
  | .scopes sourceScopeIds hashes =>
    [("projection_kind", .str "AGGREGATE_SUMMARY"),
     ("source_scope_ids", identifiers sourceScopeIds),
     ("source_projection_hashes", .list (hashes.map .str))]

def Summary.toValue (s : Summary) : PyValue := .dict <|
  [("schema_version", .str "edon-federation-projection.v1"), ("scope_id", .str s.scopeId.1)] ++
  s.origin.fields ++
  [("observed_at", .str s.observedAt), ("counts", s.counts.toValue),
   ("resources", .dict (s.resources.entries.map fun e => (e.1, e.2.toValue))),
   ("contains_raw_records", .bool false), ("binding_authority", .bool false)]

def Route.toValue (r : Route) : PyValue := .dict
  [("tenant_id", .str r.tenantId.1), ("decision_id", .str r.decisionId.1),
   ("source_scope_id", .str r.sourceScopeId.1), ("target_scope_id", .str r.targetScopeId.1),
   ("consequence_scope_ids", identifiers r.consequenceScopeIds),
   ("impact_score", number r.impactScore), ("uncertainty", number r.uncertainty),
   ("required_authority_scope_id", nullableIdentifier r.requiredAuthorityScopeId),
   ("disposition", .str r.disposition.name),
   ("reason_codes", .list (r.reasonCodes.map .str)), ("context_sha256", .str r.contextSha256),
   ("created_at", .str r.createdAt), ("binding_authority", .bool false)]

def Escalation.toValue (e : Escalation) : PyValue := .dict
  [("tenant_id", .str e.tenantId.1), ("escalation_id", .str e.escalationId.1),
   ("decision_id", .str e.decisionId.1), ("source_scope_id", .str e.sourceScopeId.1),
   ("target_scope_id", .str e.targetScopeId.1), ("severity", .str e.severity),
   ("reason", .str e.reason), ("evidence_sha256", identifiers e.evidenceSha256),
   ("opened_at", .str e.openedAt), ("binding_authority", .bool false)]

/-! ## Scopes -/

/-- `_json`: a policy has to have finite numbers. -/
def finiteJson (fields : List (String × PyValue)) (label : String) :
    Except PyError (List (String × PyValue)) := do
  require ((PyValue.dict fields).finite)
    (federationError (label ++ " must contain finite JSON values"))
  return fields

/-- `policy.setdefault(key, value)`. -/
def setDefault (fields : List (String × PyValue)) (key : String) (value : PyValue) :
    List (String × PyValue) :=
  if (Assoc.find fields key).isSome then fields else fields ++ [(key, value)]

def getScope (db : FederationDb) (tenantId scopeId : String) : Except PyError ScopeRow :=
  orRaise (federationError "scope not found") (db.scopes.get (tenantId, scopeId))

/-- The ranks there are: a walk to the root reads at most that many rows. -/
def depth : Nat := ScopeType.all.length

/-- `_ancestor_ids`: the scope and its ancestors up to the root. A parent ranks strictly
above its child, so the bound on the rows read is never met (`ancestorIds_depth`). -/
def ancestorIds (db : FederationDb) (tenantId : String) :
    Nat → String → Except PyError (List Identifier)
  | 0, _ => .error (federationError "scope not found")
  | bound + 1, scopeId => do
    let scope ← getScope db tenantId scopeId
    match scope.parentScopeId with
    | none => return [scope.scopeId]
    | some parent => return scope.scopeId :: (← ancestorIds db tenantId bound parent.1)

def leastCommonAncestor (db : FederationDb) (tenantId : String) (scopeIds : List String) :
    Except PyError Identifier := do
  let normalized ← scopeIds.mapM fun value => toIdentifier value "scope_id"
  let paths ← normalized.mapM fun scopeId => ancestorIds db tenantId depth scopeId.1
  match paths with
  | [] => .error (federationError "at least one scope is required")
  | first :: rest =>
    orRaise (federationError "scopes do not share a tenant root")
      (first.find? fun candidate => rest.all fun path => candidate ∈ path)

section
variable (I : Interpreter)

structure ScopeArgs where
  tenantId : String
  scopeId : String
  scopeType : String
  name : String
  parentScopeId : Option String := none
  worldId : Option String := none
  authorityDomain : String := "institutional-operations"
  decisionLatencyClass : String := "MINUTES"
  dataPolicy : List (String × PyValue) := []
  createdAt : Option String := none

/-- The place of a new scope in the tree of its tenant. -/
def checkParent (db : FederationDb) (tenantId : Identifier) (scopeType : ScopeType) :
    Option Identifier → Except PyError Unit
  | some parentScopeId => do
    let parent ← orRaise (federationError "parent scope does not exist for tenant")
      (db.scopes.get (tenantId.1, parentScopeId.1))
    require (parent.scopeType.rank < scopeType.rank)
      (federationError "child scope must be below its parent in the hierarchy")
  | none =>
    require (!db.scopes.rows.any fun r => r.tenantId = tenantId && r.parentScopeId = none)
      (federationError "tenant already has a root scope")

def registerScope (args : ScopeArgs) (now : String) (db : FederationDb) :
    Except PyError (ScopeRow × FederationDb) := do
  let tenantId ← toIdentifier args.tenantId "tenant_id"
  let scopeId ← toIdentifier args.scopeId "scope_id"
  let scopeType ← orRaise (federationError ("unsupported scope_type: " ++ upper args.scopeType))
    (named ScopeType.name ScopeType.all (upper args.scopeType))
  let latency := upper args.decisionLatencyClass
  require (latency ∈ latencyClasses)
    (federationError ("unsupported decision_latency_class: " ++ latency))
  let parentScopeId ← optionalIdentifier args.parentScopeId "parent_scope_id"
  let worldId ← optionalIdentifier args.worldId "world_id"
  require (!(Assoc.find args.dataPolicy "share_raw_records" matches some (.bool true)))
    (federationError "federation scopes cannot authorize raw-record sharing")
  let dataPolicy ← finiteJson
    (setDefault (setDefault args.dataPolicy "share_raw_records" (.bool false))
      "projection_mode" (.str "AGGREGATES_ONLY")) "data_policy"
  let at_ := orNow args.createdAt now
  require (scopeType ≠ .global || parentScopeId = none)
    (federationError "GLOBAL scope cannot have a parent")
  require (scopeType = .global || parentScopeId ≠ none)
    (federationError "non-GLOBAL scope requires a parent")
  checkParent db tenantId scopeType parentScopeId
  let name ← toIdentifier args.name "name"
  let authorityDomain ← toIdentifier args.authorityDomain "authority_domain"
  let record : List (String × PyValue) :=
    [("tenant_id", .str tenantId.1), ("scope_id", .str scopeId.1),
     ("parent_scope_id", nullableIdentifier parentScopeId), ("scope_type", .str scopeType.name),
     ("world_id", nullableIdentifier worldId), ("name", .str name.1),
     ("authority_domain", .str authorityDomain.1), ("decision_latency_class", .str latency),
     ("data_policy", .dict dataPolicy), ("created_at", .str at_)]
  let row : ScopeRow :=
    { tenantId, scopeId, parentScopeId, scopeType, worldId, name, authorityDomain, dataPolicy
      decisionLatencyClass := latency, createdAt := at_
      recordSha256 := PyValue.sha256Json I (.dict record) }
  -- UNIQUE (tenant_id, world_id), where the world is not NULL
  require (worldId = none || !db.scopes.rows.any fun r => r.tenantId = tenantId && r.worldId = worldId)
    (federationError "scope identity or world binding already exists")
  let scopes ← insertRow "scope identity or world binding already exists" row db.scopes
  return (row, { db with scopes })

/-! ## Projections -/

/-- `float(value)`. A number that is not finite is refused when the summary is written. -/
def amountOf (value : PyValue) : Except PyError Rat :=
  match value with
  | .bool b => .ok (if b then 1 else 0)
  | .int n =>
    if Doubles.overflowThreshold ≤ |(n : Rat)| then
      .error ⟨.overflowError, "int too large to convert to float"⟩
    else .ok n
  | .float (.finite q) => .ok q
  | .float _ => .error (federationError "summary must contain finite JSON values")
  | .str s =>
    match I.parseFloat s with
    | some (.finite q) => .ok q
    | some _ => .error (federationError "summary must contain finite JSON values")
    | none => .error ⟨.valueError, "could not convert string to float: '" ++ s ++ "'"⟩
  | v => .error ⟨.typeError,
      "float() argument must be a string or a real number, not '" ++ v.typeName ++ "'"⟩

/-- `_counts`. -/
def countsOf (records : PyValue) (field : String) : Except PyError (Dict String Nat) := do
  let values ← (← records.entries "values").mapM fun e => e.2.getD field (.str "UNKNOWN")
  return values.foldl (fun d value =>
    d.set (value.toStr I) ((d.get (value.toStr I)).getD 0 + 1)) ∅

def resourceOf (resource : PyValue) : Except PyError Resource := do
  let capacity ← amountOf I (← resource.getD "capacity" (.int 0))
  let allocated ← amountOf I (← resource.getD "allocated" (.int 0))
  return {
    unit := (← resource.getD "unit" (.str "unit")).toStr I
    capacity, allocated
    available := max 0 (capacity - allocated)
    utilization := if 0 < capacity then allocated / capacity else 0 }

/-- `_summarize_operations`. -/
def summarizeOperations (scopeId : Identifier) (snapshot : World.Snapshot) (at_ : String) :
    Except PyError Summary := do
  let operations ← (PyValue.ofJson snapshot.state).getD "operations" (.dict [])
  let operations := if operations matches .dict _ then operations else .dict []
  let get (key : String) : PyValue :=
    match operations with
    | .dict kvs => (Assoc.find kvs key).getD (.dict [])
    | _ => .dict []
  let pools ← (get "resource_pools").entries "items"
  let resources ← (Assoc.sortKeys pools).mapM fun e => do
    return (e.1, ← resourceOf I e.2)
  let observations ← (get "observations").len
  let goals ← countsOf I (get "goals") "status"
  let plans ← countsOf I (get "plans") "status"
  let agents ← countsOf I (get "agents") "status"
  let alerts ← countsOf I (get "alerts") "type"
  let successes ← (← (get "outcomes").entries "values").mapM fun e =>
    e.2.getD "success" .null
  let outcomes : Dict String Nat := (Dict.set ∅ "succeeded" (successes.countP PyValue.truthy)).set
    "failed" (successes.countP fun success => !success.truthy)
  return {
    scopeId, observedAt := at_
    origin := .world snapshot.worldId snapshot.version snapshot.stateSha256
    counts := { observations, goals, plans, agents, alerts, outcomes }
    resources := Dict.ofList resources }

def insertProjection (tenantId : String) (projectionId sourceScopeId targetScopeId : Identifier)
    (summary : Summary) (createdAt : String) (db : FederationDb) :
    Except PyError (ProjectionRow × FederationDb) := do
  let row : ProjectionRow :=
    { tenantId, projectionId, sourceScopeId, targetScopeId, summary, createdAt
      summarySha256 := summary.toValue.sha256Json I }
  let projections ← insertRow "projection identity already exists" row db.projections
  return (row, { db with projections })

/-- The scope itself or one of its ancestors, as the call names it. -/
def ancestorNamed (db : FederationDb) (tenantId scopeId target message : String) :
    Except PyError Identifier := do
  let ancestors ← ancestorIds db tenantId depth scopeId
  orRaise (federationError message) (ancestors.find? fun i => i.1 = target)

/-- `value or default`, of texts. -/
def orText (value : Option String) (default : String) : String :=
  match value with
  | some text => if text = "" then default else text
  | none => default

def projectWorld (worlds : World.WorldDb) (tenantId scopeId projectionId : String)
    (targetScopeId createdAt : Option String) (now : String) (db : FederationDb) :
    Except PyError (ProjectionRow × FederationDb) := do
  let scope ← getScope db tenantId scopeId
  let worldId ← orRaise (federationError "scope has no bound institutional world") scope.worldId
  let target ← ancestorNamed db tenantId scopeId
    (orText targetScopeId (scope.parentScopeId.elim scopeId Subtype.val))
    "projection target must be the source scope or an ancestor"
  let snapshot ← World.getWorld worlds tenantId worldId.1
  let at_ := orNow createdAt now
  let summary ← summarizeOperations I scope.scopeId snapshot at_
  let projectionId ← toIdentifier projectionId "projection_id"
  insertProjection I tenantId projectionId scope.scopeId target summary at_ db

/-- `ORDER BY created_at, projection_id`. -/
def projectedBefore (r s : ProjectionRow) : Prop :=
  r.createdAt < s.createdAt ∨ r.createdAt = s.createdAt ∧ r.projectionId.1 ≤ s.projectionId.1

instance : DecidableRel projectedBefore := fun _ _ => inferInstanceAs (Decidable (_ ∨ _))

/-- The latest projection of a scope that was published to the target. -/
def latestProjection (rows : List ProjectionRow) (tenantId targetScopeId sourceScopeId : String) :
    Option ProjectionRow :=
  Sorting.latest projectedBefore (rows.filter fun r =>
    r.tenantId = tenantId && r.targetScopeId.1 = targetScopeId && r.sourceScopeId.1 = sourceScopeId)

/-- `_projection_rows`. -/
def projectionRows (db : FederationDb) (tenantId targetScopeId : String)
    (sources : List Identifier) : Except PyError (List ProjectionRow) :=
  sources.mapM fun source =>
    orRaise (federationError ("no projection available for source scope " ++ source.1))
      (latestProjection db.projections.rows tenantId targetScopeId source.1)

/-- Counts added key by key. -/
def addCounts (c d : Dict String Nat) : Dict String Nat :=
  d.entries.foldl (fun acc e => acc.set e.1 ((acc.get e.1).getD 0 + e.2)) c

def Counts.add (c d : Counts) : Counts where
  observations := c.observations + d.observations
  goals := addCounts c.goals d.goals
  plans := addCounts c.plans d.plans
  agents := addCounts c.agents d.agents
  alerts := addCounts c.alerts d.alerts
  outcomes := addCounts c.outcomes d.outcomes

def Counts.zero : Counts where
  observations := 0
  goals := ∅
  plans := ∅
  agents := ∅
  alerts := ∅
  outcomes := (Dict.set ∅ "succeeded" 0).set "failed" 0

/-- A resource added up so far. -/
structure Pooled where
  unit : String
  capacity : Rat
  allocated : Rat
  deriving DecidableEq

def addResource (pools : Dict String Pooled) (e : String × Resource) :
    Except PyError (Dict String Pooled) := do
  let current := (pools.get e.1).getD ⟨e.2.unit, 0, 0⟩
  require (current.unit = e.2.unit)
    (federationError "resource units conflict across projections")
  return pools.set e.1 ⟨current.unit, current.capacity + e.2.capacity,
    current.allocated + e.2.allocated⟩

/-- The counts and the resources of the projections, added up. -/
def addProjection (acc : Counts × Dict String Pooled) (row : ProjectionRow) :
    Except PyError (Counts × Dict String Pooled) := do
  let pools ← row.summary.resources.entries.foldlM addResource acc.2
  return (acc.1.add row.summary.counts, pools)

def Pooled.resource (p : Pooled) : Resource where
  unit := p.unit
  capacity := p.capacity
  allocated := p.allocated
  available := max 0 (p.capacity - p.allocated)
  utilization := if p.capacity = 0 then 0 else p.allocated / p.capacity

def aggregateScope (tenantId targetScopeId projectionId : String) (sourceScopeIds : List String)
    (publishToScopeId createdAt : Option String) (now : String) (db : FederationDb) :
    Except PyError (ProjectionRow × FederationDb) := do
  let targetScope ← getScope db tenantId targetScopeId
  let publishTarget ← ancestorNamed db tenantId targetScopeId
    (orText publishToScopeId targetScopeId)
    "aggregate publication target must be its scope or an ancestor"
  let sources ← identifierSet sourceScopeIds "source_scope_id"
  require (!sources.isEmpty) (federationError "aggregate projection requires source scopes")
  sources.forM fun source => do
    let ancestors ← ancestorIds db tenantId depth source.1
    require (ancestors.any fun i => i.1 = targetScopeId)
      (federationError "aggregate source must descend from target scope")
  let rows ← projectionRows db tenantId targetScopeId sources
  let (counts, pools) ← rows.foldlM addProjection (Counts.zero, ∅)
  let at_ := orNow createdAt now
  let summary : Summary :=
    { scopeId := targetScope.scopeId, observedAt := at_, counts
      origin := .scopes sources (rows.map ProjectionRow.summarySha256)
      resources := pools.map fun _ => Pooled.resource }
  let projectionId ← toIdentifier projectionId "projection_id"
  insertProjection I tenantId projectionId targetScope.scopeId publishTarget summary at_ db

/-! ## Routes and escalations -/

/-- `_score`. -/
def score (value : PyValue) (label : String) : Except PyError Rat :=
  let between (q : Rat) : Except PyError Rat :=
    if 0 ≤ q ∧ q ≤ 1 then .ok q
    else .error (federationError (label ++ " must be between 0 and 1"))
  match value with
  | .int n =>
    if Doubles.overflowThreshold ≤ |(n : Rat)| then
      .error ⟨.overflowError, "int too large to convert to float"⟩
    else between n
  | .float (.finite q) => between q
  | .float _ => .error (federationError (label ++ " must be between 0 and 1"))
  | _ => .error (federationError (label ++ " must be numeric"))

structure RouteArgs where
  tenantId : String
  decisionId : String
  sourceScopeId : String
  consequenceScopeIds : List String
  impactScore : PyValue
  uncertainty : PyValue
  context : PyValue
  requiredAuthorityScopeId : Option String := none
  localImpactThreshold : PyValue := .float (.finite (35 / 100))
  localUncertaintyThreshold : PyValue := .float (.finite (25 / 100))
  escalationId : Option String := none
  severity : String := "MEDIUM"
  reason : String := "Decision exceeded local coordination boundary."
  evidenceSha256 : List String := []
  createdAt : Option String := none

/-- The route of a decision: what `route_decision` computes before it writes. -/
def routeOf (db : FederationDb) (args : RouteArgs) (now : String) : Except PyError Route := do
  let tenantId ← toIdentifier args.tenantId "tenant_id"
  let decisionId ← toIdentifier args.decisionId "decision_id"
  let sourceScopeId ← toIdentifier args.sourceScopeId "source_scope_id"
  let _ ← getScope db tenantId.1 sourceScopeId.1
  let consequences ← identifierSet args.consequenceScopeIds "consequence_scope_id"
  let target ← leastCommonAncestor db tenantId.1
    (sourceScopeId.1 :: consequences.map Subtype.val)
  let impact ← score args.impactScore "impact_score"
  let uncertainty ← score args.uncertainty "uncertainty"
  let impactThreshold ← score args.localImpactThreshold "local_impact_threshold"
  let uncertaintyThreshold ← score args.localUncertaintyThreshold "local_uncertainty_threshold"
  let authority ← optionalIdentifier args.requiredAuthorityScopeId "required_authority_scope_id"
  let common ← match authority with
    | none => .ok target
    | some authority => do
      let _ ← getScope db tenantId.1 authority.1
      leastCommonAncestor db tenantId.1 [target.1, authority.1]
  let reasons :=
    (if target = sourceScopeId then [] else ["CROSS_SCOPE_CONSEQUENCE"]) ++
    (if impactThreshold ≤ impact then ["IMPACT_THRESHOLD_EXCEEDED"] else []) ++
    (if uncertaintyThreshold ≤ uncertainty then ["UNCERTAINTY_THRESHOLD_EXCEEDED"] else []) ++
    (if authority.any (· ≠ sourceScopeId) then ["HIGHER_AUTHORITY_REQUIRED"] else [])
  let source ← getScope db tenantId.1 sourceScopeId.1
  let target :=
    if reasons ≠ [] ∧ common = sourceScopeId then source.parentScopeId.getD common else common
  let disposition : Disposition :=
    if target = sourceScopeId then (if reasons = [] then .handleLocal else .handleAtRoot)
    else .escalate
  return {
    tenantId, decisionId, sourceScopeId, uncertainty, disposition
    targetScopeId := target
    consequenceScopeIds := consequences
    impactScore := impact
    requiredAuthorityScopeId := authority
    reasonCodes := if reasons = [] then ["WITHIN_LOCAL_BOUNDARY"] else sortedSet reasons
    contextSha256 := args.context.sha256Json I
    createdAt := orNow args.createdAt now }

def insertRoute (route : Route) (db : FederationDb) : Except PyError (RouteRow × FederationDb) := do
  let row : RouteRow := { route with recordSha256 := route.toValue.sha256Json I }
  let routes ← insertRow "decision identity already exists" row db.routes
  return (row, { db with routes })

structure EscalationArgs where
  tenantId : String
  escalationId : String
  decisionId : String
  sourceScopeId : String
  targetScopeId : String
  severity : String
  reason : String
  evidenceSha256 : List String := []
  openedAt : Option String := none

/-- The record of an escalation: the checks of `open_escalation`. -/
def escalationOf (args : EscalationArgs) (now : String) : Except PyError Escalation := do
  let severity := upper args.severity
  require (severity ∈ severities)
    (federationError ("unsupported escalation severity: " ++ severity))
  let evidenceSha256 ← identifierSet args.evidenceSha256 "evidence_sha256"
  let tenantId ← toIdentifier args.tenantId "tenant_id"
  let escalationId ← toIdentifier args.escalationId "escalation_id"
  let decisionId ← toIdentifier args.decisionId "decision_id"
  let sourceScopeId ← toIdentifier args.sourceScopeId "source_scope_id"
  let targetScopeId ← toIdentifier args.targetScopeId "target_scope_id"
  require (strip args.reason ≠ "") (federationError "escalation reason is required")
  return {
    tenantId, escalationId, decisionId, sourceScopeId, targetScopeId, severity, evidenceSha256
    reason := strip args.reason
    openedAt := orNow args.openedAt now }

def eventTypes : List String := ["OPENED", "ACKNOWLEDGED", "RESOLVED", "REJECTED"]

def recordEscalationEvent (tenantId escalationId eventType actorId note : String)
    (createdAt : Option String) (now : String) (db : FederationDb) :
    Except PyError (EscalationEvent × FederationDb) := do
  let eventType := upper eventType
  require (eventType ∈ eventTypes) (federationError "unsupported escalation event type")
  let tenantId ← toIdentifier tenantId "tenant_id"
  let escalationId ← toIdentifier escalationId "escalation_id"
  let actorId ← toIdentifier actorId "actor_id"
  require (strip note ≠ "") (federationError "escalation event note is required")
  let _ ← orRaise (federationError "escalation not found")
    (db.escalations.get (tenantId.1, escalationId.1))
  let event : EscalationEvent :=
    { tenantId, escalationId, eventType, actorId, note := strip note
      createdAt := orNow createdAt now }
  return (event, { db with escalationEvents := db.escalationEvents ++ [event] })

def insertEscalation (args : EscalationArgs) (now : String) (db : FederationDb) :
    Except PyError (EscalationRow × FederationDb) := do
  let escalation ← escalationOf args now
  let row : EscalationRow :=
    { escalation with recordSha256 := escalation.toValue.sha256Json I }
  let escalations ← insertRow "escalation identity already exists" row db.escalations
  return (row, { db with escalations })

/-- Two transactions: the escalation, and its first event. -/
def openEscalation (args : EscalationArgs) (now : String) (db : FederationDb) :
    Except PyError EscalationRow × FederationDb :=
  match insertEscalation I args now db with
  | .error e => (.error e, db)
  | .ok (row, db) =>
    match recordEscalationEvent row.tenantId.1 row.escalationId.1 "OPENED" "federation-router"
        row.reason (some row.openedAt) now db with
    | .error e => (.error e, db)
    | .ok (_, db) => (.ok row, db)

/-- What the escalation of a stored route is opened with. -/
def RouteArgs.escalation (args : RouteArgs) (route : Route) : EscalationArgs where
  tenantId := route.tenantId.1
  escalationId := orText args.escalationId ("escalation-" ++ route.decisionId.1)
  decisionId := route.decisionId.1
  sourceScopeId := route.sourceScopeId.1
  targetScopeId := route.targetScopeId.1
  severity := args.severity
  reason := args.reason
  evidenceSha256 := args.evidenceSha256
  openedAt := some route.createdAt

/-- The transaction of the route, and those of its escalation. -/
def routeDecision (args : RouteArgs) (now : String) (db : FederationDb) :
    Except PyError (RouteRow × Option EscalationRow) × FederationDb :=
  match routeOf I db args now >>= fun route => insertRoute I route db with
  | .error e => (.error e, db)
  | .ok (row, db) =>
    if row.disposition = .escalate then
      match openEscalation I (args.escalation row.toRoute) now db with
      | (.error e, db) => (.error e, db)
      | (.ok escalation, db) => (.ok (row, some escalation), db)
    else (.ok (row, none), db)

/-! ## Calls -/

/-- A call of the store, with the time it takes where none is given and, for a projection,
the worlds as they are then. -/
inductive Call where
  | registerScope (args : ScopeArgs) (now : String)
  | projectWorld (worlds : World.WorldDb) (tenantId scopeId projectionId : String)
      (targetScopeId createdAt : Option String) (now : String)
  | aggregateScope (tenantId targetScopeId projectionId : String) (sourceScopeIds : List String)
      (publishToScopeId createdAt : Option String) (now : String)
  | routeDecision (args : RouteArgs) (now : String)
  | openEscalation (args : EscalationArgs) (now : String)
  | recordEscalationEvent (tenantId escalationId eventType actorId note : String)
      (createdAt : Option String) (now : String)

/-- What a transaction leaves: its writes, or nothing when it failed. -/
def committed {α : Type} (db : FederationDb) (result : Except PyError (α × FederationDb)) :
    FederationDb :=
  match result with
  | .ok (_, db') => db'
  | .error _ => db

def next (db : FederationDb) : Call → FederationDb
  | .registerScope args now => committed db (registerScope I args now db)
  | .projectWorld worlds tenantId scopeId projectionId targetScopeId createdAt now =>
    committed db
      (projectWorld I worlds tenantId scopeId projectionId targetScopeId createdAt now db)
  | .aggregateScope tenantId targetScopeId projectionId sourceScopeIds publishTo createdAt now =>
    committed db (aggregateScope I tenantId targetScopeId projectionId sourceScopeIds publishTo
      createdAt now db)
  | .routeDecision args now => (routeDecision I args now db).2
  | .openEscalation args now => (openEscalation I args now db).2
  | .recordEscalationEvent tenantId escalationId eventType actorId note createdAt now =>
    committed db
      (recordEscalationEvent tenantId escalationId eventType actorId note createdAt now db)

end

/-! ## What a transaction writes -/

section
variable {I : Interpreter} {db db' : FederationDb}

theorem insertRow_ok {α : Type} {key : α → String × String} {message : String} {row : α}
    {table table' : Table key} : insertRow message row table = .ok table' ↔
      table.insert row = some table' :=
  orRaise_ok

theorem checkParent_ok {tenantId : Identifier} {scopeType : ScopeType}
    {parentScopeId : Option Identifier} {u : Unit}
    (h : checkParent db tenantId scopeType parentScopeId = .ok u) :
    ∀ p, parentScopeId = some p → ∃ parent, db.scopes.get (tenantId.1, p.1) = some parent ∧
      parent.scopeType.rank < scopeType.rank := by
  intro p hp
  subst hp
  obtain ⟨parent, hparent, h⟩ := bind_ok.mp h
  exact ⟨parent, orRaise_ok.mp hparent, of_decide_eq_true (require_ok.mp h)⟩

/-- A new scope, below its parent. -/
theorem registerScope_ok {args : ScopeArgs} {now : String} {row : ScopeRow}
    (h : registerScope I args now db = .ok (row, db')) :
    (∀ p, row.parentScopeId = some p → ∃ parent,
      db.scopes.get (row.tenantId.1, p.1) = some parent ∧
        parent.scopeType.rank < row.scopeType.rank) ∧
    ∃ scopes, db.scopes.insert row = some scopes ∧ db' = { db with scopes } := by
  obtain ⟨_, _, h⟩ := bind_ok.mp h
  obtain ⟨_, _, h⟩ := bind_ok.mp h
  obtain ⟨_, _, h⟩ := bind_ok.mp h
  obtain ⟨_, _, h⟩ := bind_ok.mp h
  obtain ⟨_, _, h⟩ := bind_ok.mp h
  obtain ⟨_, _, h⟩ := bind_ok.mp h
  obtain ⟨_, _, h⟩ := bind_ok.mp h
  obtain ⟨_, _, h⟩ := bind_ok.mp h
  obtain ⟨_, _, h⟩ := bind_ok.mp h
  obtain ⟨_, _, h⟩ := bind_ok.mp h
  obtain ⟨_, hparent, h⟩ := bind_ok.mp h
  obtain ⟨_, _, h⟩ := bind_ok.mp h
  obtain ⟨_, _, h⟩ := bind_ok.mp h
  obtain ⟨_, _, h⟩ := bind_ok.mp h
  obtain ⟨scopes, hinsert, h⟩ := bind_ok.mp h
  cases h
  exact ⟨checkParent_ok hparent, scopes, insertRow_ok.mp hinsert, rfl⟩

theorem insertProjection_ok {tenantId : String} {projectionId source target : Identifier}
    {summary : Summary} {createdAt : String} {row : ProjectionRow}
    (h : insertProjection I tenantId projectionId source target summary createdAt db =
      .ok (row, db')) :
    (row.tenantId = tenantId ∧ row.sourceScopeId = source ∧ row.summary = summary) ∧
    ∃ projections, db.projections.insert row = some projections ∧
      db' = { db with projections } := by
  obtain ⟨projections, hinsert, h⟩ := bind_ok.mp h
  cases h
  exact ⟨⟨rfl, rfl, rfl⟩, projections, insertRow_ok.mp hinsert, rfl⟩

theorem recordEscalationEvent_ok {tenantId escalationId eventType actorId note : String}
    {createdAt : Option String} {now : String} {event : EscalationEvent}
    (h : recordEscalationEvent tenantId escalationId eventType actorId note createdAt now db =
      .ok (event, db')) : db' = { db with escalationEvents := db.escalationEvents ++ [event] } := by
  obtain ⟨_, _, h⟩ := bind_ok.mp h
  obtain ⟨_, _, h⟩ := bind_ok.mp h
  obtain ⟨_, _, h⟩ := bind_ok.mp h
  obtain ⟨_, _, h⟩ := bind_ok.mp h
  obtain ⟨_, _, h⟩ := bind_ok.mp h
  obtain ⟨_, _, h⟩ := bind_ok.mp h
  cases h
  rfl

theorem summarizeOperations_ok {scopeId : Identifier} {snapshot : World.Snapshot} {at_ : String}
    {summary : Summary} (h : summarizeOperations I scopeId snapshot at_ = .ok summary) :
    summary.origin = .world snapshot.worldId snapshot.version snapshot.stateSha256 := by
  obtain ⟨_, _, h⟩ := bind_ok.mp h
  obtain ⟨_, _, h⟩ := bind_ok.mp h
  obtain ⟨_, _, h⟩ := bind_ok.mp h
  obtain ⟨_, _, h⟩ := bind_ok.mp h
  obtain ⟨_, _, h⟩ := bind_ok.mp h
  obtain ⟨_, _, h⟩ := bind_ok.mp h
  obtain ⟨_, _, h⟩ := bind_ok.mp h
  obtain ⟨_, _, h⟩ := bind_ok.mp h
  obtain ⟨_, _, h⟩ := bind_ok.mp h
  obtain ⟨_, _, h⟩ := bind_ok.mp h
  cases h
  rfl

/-- The summary of a world. -/
theorem projectWorld_ok {worlds : World.WorldDb} {tenantId scopeId projectionId : String}
    {targetScopeId createdAt : Option String} {now : String} {row : ProjectionRow}
    (h : projectWorld I worlds tenantId scopeId projectionId targetScopeId createdAt now db =
      .ok (row, db')) :
    (∃ worldId version stateSha256, row.summary.origin = .world worldId version stateSha256) ∧
    ∃ projections, db.projections.insert row = some projections ∧
      db' = { db with projections } := by
  obtain ⟨_, _, h⟩ := bind_ok.mp h
  obtain ⟨_, _, h⟩ := bind_ok.mp h
  obtain ⟨_, _, h⟩ := bind_ok.mp h
  obtain ⟨_, _, h⟩ := bind_ok.mp h
  obtain ⟨_, hsummary, h⟩ := bind_ok.mp h
  obtain ⟨_, _, h⟩ := bind_ok.mp h
  obtain ⟨⟨-, -, hrow⟩, hwrites⟩ := insertProjection_ok h
  exact ⟨⟨_, _, _, hrow ▸ summarizeOperations_ok hsummary⟩, hwrites⟩

/-- The sum of the latest projections of the sources. -/
theorem aggregateScope_ok {tenantId targetScopeId projectionId : String}
    {sourceScopeIds : List String} {publishToScopeId createdAt : Option String} {now : String}
    {row : ProjectionRow} (h : aggregateScope I tenantId targetScopeId projectionId sourceScopeIds
      publishToScopeId createdAt now db = .ok (row, db')) :
    (∃ sources rows sums, projectionRows db tenantId targetScopeId sources = .ok rows ∧
      rows.foldlM addProjection (Counts.zero, ∅) = .ok sums ∧
      row.tenantId = tenantId ∧ row.sourceScopeId.1 = targetScopeId ∧
      row.summary.origin = .scopes sources (rows.map ProjectionRow.summarySha256) ∧
      row.summary.counts = sums.1 ∧
      row.summary.resources = sums.2.map fun _ => Pooled.resource) ∧
    ∃ projections, db.projections.insert row = some projections ∧
      db' = { db with projections } := by
  obtain ⟨targetScope, hscope, h⟩ := bind_ok.mp h
  obtain ⟨_, _, h⟩ := bind_ok.mp h
  obtain ⟨sources, _, h⟩ := bind_ok.mp h
  obtain ⟨_, _, h⟩ := bind_ok.mp h
  obtain ⟨_, _, h⟩ := bind_ok.mp h
  obtain ⟨rows, hrows, h⟩ := bind_ok.mp h
  obtain ⟨sums, hsums, h⟩ := bind_ok.mp h
  obtain ⟨_, _, h⟩ := bind_ok.mp h
  obtain ⟨⟨htenant, hsource, hsummary⟩, hwrites⟩ := insertProjection_ok h
  have hkey : targetScope.key = (tenantId, targetScopeId) := Table.get_key (orRaise_ok.mp hscope)
  refine ⟨⟨sources, rows, sums, hrows, hsums, htenant, ?_, ?_, ?_, ?_⟩, hwrites⟩
  · rw [hsource]
    exact congrArg Prod.snd hkey
  all_goals rw [hsummary]

end

end Edon.Federation
