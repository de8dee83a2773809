import EdonPlatform.Platform.Repositories

/- The transitions of institution releases
   (packages/platform-core/src/institution-release.ts and
   institution-transition-service.ts; repositories.ts,
   `PostgreSQLPlatformRepositories`; migrations 014 to 018).

   Correspondence (TypeScript ↔ Lean):
     `INSTITUTION_RELEASE_STATES`           ↔ `InstitutionReleaseState`
     `transitions`                          ↔ `InstitutionReleaseState.transitions`
     `assertInstitutionTransition`          ↔ `assertInstitutionTransition`
     `InstitutionReleaseRecord`             ↔ `InstitutionRelease`
     `getInstitutionRelease`                ↔ `getInstitutionRelease`
     `transitionInstitutionRelease`         ↔ `transitionInstitutionRelease`
     `putIdempotencyResponse`               ↔ `Db.putIdempotencyResponse`
     `GovernedInstitutionTransitionService` ↔ `TransitionService`, `transition`

   The tables are those of one tenant. A release is unique within its institution, so a
   query by `release_id` alone may select several, in any order. Versions are exact. -/
namespace Edon.Platform
open Js Fallible

inductive InstitutionReleaseState where
  | draft | extracted | mapped | validated | qualified | approved | signed | shadow | active
  | rejected | superseded | rolledBack
  deriving DecidableEq, Repr

namespace InstitutionReleaseState

def name : InstitutionReleaseState → String
  | draft => "DRAFT"
  | extracted => "EXTRACTED"
  | mapped => "MAPPED"
  | validated => "VALIDATED"
  | qualified => "QUALIFIED"
  | approved => "APPROVED"
  | signed => "SIGNED"
  | shadow => "SHADOW"
  | active => "ACTIVE"
  | rejected => "REJECTED"
  | superseded => "SUPERSEDED"
  | rolledBack => "ROLLED_BACK"

def transitions : InstitutionReleaseState → List InstitutionReleaseState
  | draft => [extracted, rejected]
  | extracted => [mapped, rejected]
  | mapped => [validated, rejected]
  | validated => [qualified, rejected]
  | qualified => [approved, rejected]
  | approved => [signed, rejected]
  | signed => [shadow, superseded, rolledBack]
  | shadow => [active, superseded, rolledBack]
  | active => [superseded, rolledBack]
  | rejected => []
  | superseded => []
  | rolledBack => []

/-- The states that are entered through the gate. -/
def gated (state : InstitutionReleaseState) : Bool :=
  state ∈ [validated, qualified, approved, signed, shadow, active]

end InstitutionReleaseState

/-- `Object.entries(gate)`. -/
abbrev InstitutionGate := List (String × Number)

/-- What a request without a gate is checked against. -/
def noBlockers : InstitutionGate :=
  ["broken_references", "conflicting_policies", "missing_resource_ownership", "ambiguous_authority",
    "invalid_mandates", "unsupported_workflow_transitions", "unversioned_sources",
    "unqualified_simulations"].map fun key => (key, .finite 0)

inductive TransitionFaultPoint where
  | afterCas
  | afterJournalAppend
  | afterOutboxEnqueue
  deriving DecidableEq, Repr

/-- What `transition` throws. -/
inductive TransitionError where
  | idempotencyKeyRequired
  | duplicateInFlight
  | releaseNotFound
  | releaseManifestInvalid
  | stateStale
  | invalidTransition (current next : String)
  | gateBlocked (blockers : List String)
  | fault (point : TransitionFaultPoint)
  | journalWriteFailed
  | outboxWriteFailed
  | thrown (e : Thrown)

/-- `error.message`, where the service chooses it. -/
def TransitionError.message : TransitionError → Option String
  | .idempotencyKeyRequired => some "IDEMPOTENCY_KEY_REQUIRED"
  | .duplicateInFlight => some "DUPLICATE_IN_FLIGHT"
  | .releaseNotFound => some "RELEASE_NOT_FOUND"
  | .releaseManifestInvalid => some "RELEASE_MANIFEST_INVALID"
  | .stateStale => some "STATE_STALE"
  | .invalidTransition current next =>
    some ("INVALID_INSTITUTION_TRANSITION:" ++ current ++ "->" ++ next)
  | .gateBlocked blockers => some ("INSTITUTION_GATE_BLOCKED:" ++ ",".intercalate blockers)
  | .journalWriteFailed => some "JOURNAL_WRITE_FAILED"
  | .outboxWriteFailed => some "OUTBOX_WRITE_FAILED"
  | .fault _ => none
  | .thrown _ => none

/-- The state that is entered, from the version and the state of the release. -/
def assertInstitutionTransition (current : InstitutionReleaseState) (next : String)
    (gate : InstitutionGate) (expectedVersion : Number) (actualVersion : Int) :
    Except TransitionError InstitutionReleaseState := do
  require (expectedVersion = .finite actualVersion) .stateStale
  let state ← orRaise (.invalidTransition current.name next)
    (current.transitions.find? fun state => state.name = next)
  let blockers := (gate.filter fun entry => entry.2.gt 0).map Prod.fst
  require (!state.gated || blockers.isEmpty) (.gateBlocked blockers)
  return state

structure InstitutionRelease where
  institutionId : String
  releaseId : String
  candidateId : String
  version : Int
  lifecycleState : InstitutionReleaseState
  manifestHash : String
  signatureStatus : String
  correlationId : Option String
  traceId : Option String
  payload : Value

def InstitutionRelease.key (r : InstitutionRelease) : String × String :=
  (r.institutionId, r.releaseId)

structure ReleaseStore where
  db : Db := {}
  releases : Table InstitutionRelease.key := ∅

/-- `rows[0]` of the releases of that id; `order` says which of them comes first. -/
def getInstitutionRelease (releaseId : String) (order : Nat) (store : ReleaseStore) :
    Option InstitutionRelease :=
  let rows := store.releases.rows.filter fun r => r.releaseId = releaseId
  rows[order % rows.length]?

def InstitutionRelease.selected (releaseId expectedState : String) (expectedVersion : Number)
    (r : InstitutionRelease) : Bool :=
  r.releaseId = releaseId ∧ r.lifecycleState.name = expectedState ∧
    .finite r.version = expectedVersion

def InstitutionRelease.moved (state : InstitutionReleaseState) (correlationId traceId : String)
    (r : InstitutionRelease) : InstitutionRelease :=
  { r with
    lifecycleState := state
    version := r.version + 1
    correlationId := some correlationId
    traceId := some traceId }

theorem InstitutionRelease.moved_key (state : InstitutionReleaseState)
    (correlationId traceId : String) (r : InstitutionRelease) :
    (r.moved state correlationId traceId).key = r.key := rfl

/-- Whether one row was updated, and the table after the update of all that are selected. -/
def transitionInstitutionRelease (releaseId expectedState : String) (expectedVersion : Number)
    (state : InstitutionReleaseState) (correlationId traceId : String)
    (store : ReleaseStore) : Bool × ReleaseStore :=
  let selected := InstitutionRelease.selected releaseId expectedState expectedVersion
  ((store.releases.rows.filter selected).length = 1,
    { store with
      releases := store.releases.update selected (.moved state correlationId traceId)
        (InstitutionRelease.moved_key state correlationId traceId) })

def Db.putIdempotencyResponse (key : String) (response : Value) (db : Db) : Db :=
  match db.idempotency.get key with
  | some _ => { db with idempotency := db.idempotency.set key (stored response) }
  | none => db

structure TransitionRequest where
  institutionId : String
  releaseId : String
  expectedState : String
  expectedVersion : Number
  nextState : String
  actorId : String
  actorType : String
  reason : String
  correlationId : String
  traceId : String
  idempotencyKey : String
  occurredAt : String
  gate : Option InstitutionGate

/-- A request with the time it is handled at, as a date and in milliseconds, the faults that
are raised on the way and the order in which releases of one id are read. -/
structure Attempt where
  request : TransitionRequest
  recordedAt : String
  now : Int
  faults : TransitionFaultPoint → Bool
  order : Nat

structure TransitionResult where
  tenantId : String
  institutionId : String
  releaseId : String
  previousState : String
  nextState : String
  previousVersion : Int
  nextVersion : Int
  actorId : String
  actorType : String
  reason : String
  correlationId : String
  traceId : String
  idempotencyKey : String
  occurredAt : String
  releaseManifestHash : String
  eventId : String
  outboxId : String

def TransitionResult.toJson (r : TransitionResult) : Value :=
  .obj [("tenant_id", .str r.tenantId), ("institution_id", .str r.institutionId),
    ("release_id", .str r.releaseId), ("previous_state", .str r.previousState),
    ("next_state", .str r.nextState), ("previous_version", integer r.previousVersion),
    ("next_version", integer r.nextVersion), ("actor_id", .str r.actorId),
    ("actor_type", .str r.actorType), ("reason", .str r.reason),
    ("correlation_id", .str r.correlationId), ("trace_id", .str r.traceId),
    ("idempotency_key", .str r.idempotencyKey), ("occurred_at", .str r.occurredAt),
    ("release_manifest_hash", .str r.releaseManifestHash), ("event_id", .str r.eventId),
    ("outbox_id", .str r.outboxId)]

/-- The service, with the SHA-256 of a text and what `JSON.stringify` writes of a value that
is no object. -/
structure TransitionService where
  js : Runtime
  pg : Postgres
  tenantId : String
  sha256 : String → String
  stringify : Value → String

section
variable (s : TransitionService)

mutual
def canonicalize : Value → String
  | .arr xs => "[" ++ ",".intercalate (canonicalizeItems xs) ++ "]"
  | .obj kvs =>
    let sorted := (canonicalizeEntries kvs).insertionSort fun a b => s.js.localeCompare a.1 b.1 ≤ 0
    "\x7b" ++ ",".intercalate (sorted.map fun e => s.stringify (.str e.1) ++ ":" ++ e.2) ++ "\x7d"
  | v => s.stringify v

def canonicalizeItems : List Value → List String
  | [] => []
  | x :: xs => canonicalize x :: canonicalizeItems xs

def canonicalizeEntries : List (String × Value) → List (String × String)
  | [] => []
  | (k, v) :: kvs => (k, canonicalize v) :: canonicalizeEntries kvs
end

def TransitionService.hash (value : Value) : String := "sha256:" ++ s.sha256 (canonicalize s value)

def TransitionRequest.operationKey (r : TransitionRequest) : String :=
  "institution-release-transition:" ++ r.releaseId ++ ":" ++ r.idempotencyKey

/-- The id of the event and of the message. -/
def TransitionRequest.eventId (r : TransitionRequest) (nextVersion : Int) : String :=
  "institution-release-transition:" ++ r.releaseId ++ ":v" ++
    numberText s.js (.finite nextVersion)

def TransitionRequest.result (r : TransitionRequest) (release : InstitutionRelease) :
    TransitionResult :=
  let nextVersion := release.version + 1
  { tenantId := s.tenantId, institutionId := r.institutionId, releaseId := r.releaseId
    previousState := r.expectedState, nextState := r.nextState
    previousVersion := release.version, nextVersion
    actorId := r.actorId, actorType := r.actorType, reason := r.reason
    correlationId := r.correlationId, traceId := r.traceId
    idempotencyKey := r.idempotencyKey, occurredAt := r.occurredAt
    releaseManifestHash := release.manifestHash
    eventId := r.eventId s nextVersion, outboxId := r.eventId s nextVersion }

def Attempt.event (a : Attempt) (result : TransitionResult) (db : Db) : EventEnvelope where
  eventId := result.eventId
  tenantId := s.tenantId
  eventType := .institutionReleaseTransitioned
  actorId := result.actorId
  actorType := result.actorType
  scopeId := result.institutionId
  incidentId := result.releaseId
  occurredAt := result.occurredAt
  observedAt := result.occurredAt
  availableToControllerAt := a.recordedAt
  recordedAt := a.recordedAt
  correlationId := result.correlationId
  traceId := result.traceId
  stateVersionBefore := result.previousVersion
  stateVersionAfter := result.nextVersion
  policyVersion := "INSTITUTION-COMPILER-v1"
  payload := result.toJson
  payloadHash := s.hash result.toJson
  previousRecordHash := ((db.getEvents s.pg none).getLast?.map EventEnvelope.payloadHash).getD
    "sha256:genesis"
  signature := "pending"

def TransitionService.message (result : TransitionResult) : OutboxMessage where
  outboxId := result.outboxId
  dedupeKey := "institution-release:" ++ result.releaseId ++ ":" ++ result.nextState ++ ":v" ++
    numberText s.js (.finite result.nextVersion)
  topic := "INSTITUTION_RELEASE_" ++ result.nextState
  aggregateId := result.releaseId
  payload := result.toJson
  correlationId := result.correlationId
  traceId := result.traceId
  stateVersion := some result.nextVersion

def lift {α : Type} : Except Thrown α → Except TransitionError α
  | .ok a => .ok a
  | .error e => .error (.thrown e)

def Attempt.failAt (a : Attempt) (point : TransitionFaultPoint) : Except TransitionError Unit :=
  require (!a.faults point) (.fault point)

/-- The release of the request, and the state it enters, once every check has passed. -/
def Attempt.admitted (a : Attempt) (store : ReleaseStore) :
    Except TransitionError (InstitutionRelease × InstitutionReleaseState) := do
  let r := a.request
  let release ← orRaise .releaseNotFound (getInstitutionRelease r.releaseId a.order store)
  require (release.institutionId = r.institutionId) .releaseNotFound
  require (release.manifestHash ≠ "") .releaseManifestInvalid
  let state ← assertInstitutionTransition release.lifecycleState r.nextState
    (r.gate.getD noBlockers) r.expectedVersion release.version
  require (release.lifecycleState.name = r.expectedState) .stateStale
  return (release, state)

/-- The writes of a transition, from the claim of its key on. -/
def Attempt.write (a : Attempt) (release : InstitutionRelease) (state : InstitutionReleaseState)
    (store : ReleaseStore) : Except TransitionError (Value × ReleaseStore) := do
  let r := a.request
  let result := r.result s release
  let event := a.event s result store.db
  let (updated, store) := transitionInstitutionRelease r.releaseId r.expectedState
    r.expectedVersion state r.correlationId r.traceId store
  require updated .stateStale
  a.failAt .afterCas
  let (appended, db) ← lift (store.db.appendEvent s.pg event)
  require appended .journalWriteFailed
  a.failAt .afterJournalAppend
  let (enqueued, outbox) ← lift (enqueueOutbox a.now (s.message result) db.outbox)
  require enqueued .outboxWriteFailed
  a.failAt .afterOutboxEnqueue
  let db := { db with outbox }
  return (result.toJson, { store with db := db.putIdempotencyResponse r.operationKey result.toJson })

/-- The attempt claims its key, unless there is a response that reads as false. -/
def Attempt.claim (a : Attempt) (store : ReleaseStore) :
    Except TransitionError (Value × ReleaseStore) :=
  match store.db.claimIdempotency a.request.operationKey
      (.obj [("status", .str "PROCESSING")]) with
  | (false, response, _) =>
    if isText (field response "status") "PROCESSING" then .error .duplicateInFlight
    else .ok (response, store)
  | (true, _, db) => do
    let store := { store with db }
    let (release, state) ← a.admitted store
    a.write s release state store

/-- What `transition` returns, with the tables its transaction commits. -/
def transition (a : Attempt) (store : ReleaseStore) :
    Except TransitionError (Value × ReleaseStore) := do
  require (a.request.idempotencyKey ≠ "") .idempotencyKeyRequired
  match store.db.getIdempotency a.request.operationKey with
  | some existing => if Js.truthy (some existing) then .ok (existing, store) else a.claim s store
  | none => a.claim s store

/-- The tables after the attempt; one that fails is rolled back. -/
def afterAttempt (store : ReleaseStore) (a : Attempt) : ReleaseStore :=
  match transition s a store with
  | .ok (_, store') => store'
  | .error _ => store

end

end Edon.Platform
