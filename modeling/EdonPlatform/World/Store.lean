import EdonPlatform.Lib.Table
import EdonPlatform.World.Mutations

/- The institutional world store (edon/world/store.py, `WorldStateStore`): its tables
   and its operations.

   Correspondence (Python ↔ Lean):
     the schema of `_initialize`  ↔ `WorldDb` and its rows
     `_snapshot`                  ↔ `WorldRow.snapshot`, `SnapshotRow.snapshot`
     `_enqueue_world_event`       ↔ `enqueueWorldEvent`
     `create_world`               ↔ `createWorld` (`createRequest` before its transaction, `createTx`)
     `append_event`               ↔ `appendEvent` (`appendRequest` before its transaction, `appendTx`)
     `restore_version`            ↔ `restoreVersion`
     `get_world`, `state_at`, `events`, `verify_world` ↔ the same names

   A transaction is a function of the tables that raises or returns the tables it
   commits, so an exception inside it loses its writes; a call is a transaction and what
   the function does after it, which runs on the committed tables. A column of JSON
   text holds the value `json.loads` makes of it: the canonical text sorts keys, so
   that is `canon` of what was written. -/
namespace Edon.World
open Json

/-! ## The schema -/

structure WorldRow where
  tenantId : String
  worldId : String
  currentVersion : Int
  state : Json
  stateSha256 : String
  createdAt : String
  updatedAt : String
  deriving DecidableEq

/-- What `request_sha256` is the hash of. -/
structure Request where
  tenantId : String
  worldId : String
  eventId : String
  eventType : String
  actorId : String
  expectedVersion : Int
  mutations : List Json
  authorizationRef : String
  sourceLineage : List String
  deriving DecidableEq

/-- What `event_hash` is the hash of. -/
structure Event extends Request where
  resultingVersion : Int
  resultingStateSha256 : String
  previousHash : String
  createdAt : String
  deriving DecidableEq

structure EventRow extends Event where
  requestSha256 : String
  eventHash : String
  deriving DecidableEq

structure SnapshotRow where
  tenantId : String
  worldId : String
  version : Int
  state : Json
  stateSha256 : String
  eventHash : String
  createdAt : String
  deriving DecidableEq

inductive MessageStatus where
  | pending | leased | delivered | dead
  deriving DecidableEq, Repr

structure OutboxRow where
  messageId : String
  tenantId : String
  worldId : String
  eventId : String
  topic : String
  payload : Json
  payloadSha256 : String
  status : MessageStatus
  attemptCount : Nat
  availableAt : String
  leaseOwner : Option String
  leaseExpiresAt : Option String
  lastError : Option String
  createdAt : String
  deliveredAt : Option String
  deriving DecidableEq

inductive AuditAction where
  | claimed | leaseExpired | retryScheduled | delivered | dead
  deriving DecidableEq, Repr

structure AuditRow where
  messageId : String
  action : AuditAction
  workerId : String
  detail : Json
  createdAt : String
  deriving DecidableEq

def WorldRow.key (r : WorldRow) : String × String := (r.tenantId, r.worldId)
def EventRow.key (r : EventRow) : String × String × String := (r.tenantId, r.worldId, r.eventId)
def SnapshotRow.key (r : SnapshotRow) : String × String × Int := (r.tenantId, r.worldId, r.version)
def OutboxRow.key (r : OutboxRow) : String := r.messageId

structure WorldDb where
  worlds : Table WorldRow.key
  worldEvents : Table EventRow.key
  worldSnapshots : Table SnapshotRow.key
  worldOutbox : Table OutboxRow.key
  outboxDeliveryAudit : List AuditRow
  deriving DecidableEq

instance : EmptyCollection WorldDb := ⟨⟨∅, ∅, ∅, ∅, []⟩⟩

/-! ## Requests and events as JSON -/

def Request.fields (r : Request) : Fields :=
  [("tenant_id", .str r.tenantId),
   ("world_id", .str r.worldId),
   ("event_id", .str r.eventId),
   ("event_type", .str r.eventType),
   ("actor_id", .str r.actorId),
   ("expected_version", .int r.expectedVersion),
   ("mutations", .arr r.mutations),
   ("authorization_ref", .str r.authorizationRef),
   ("source_lineage", .arr (r.sourceLineage.map .str))]

def Request.toJson (r : Request) : Json := .obj r.fields

def Event.toJson (e : Event) : Json :=
  .obj (e.toRequest.fields ++
    [("resulting_version", .int e.resultingVersion),
     ("resulting_state_sha256", .str e.resultingStateSha256),
     ("previous_hash", .str e.previousHash),
     ("created_at", .str e.createdAt)])

/-- The event as its row returns it. -/
def Event.stored (e : Event) : Event := { e with mutations := e.mutations.map canon }

/-! ## Snapshots -/

/-- What the operations return. -/
structure Snapshot where
  schemaVersion : String := "edon-world-snapshot.v1"
  tenantId : String
  worldId : String
  version : Int
  state : Json
  stateSha256 : String
  eventHash : Option String
  createdAt : String
  bindingAuthority : Bool := false
  deriving DecidableEq

def WorldRow.snapshot (r : WorldRow) : Snapshot where
  tenantId := r.tenantId
  worldId := r.worldId
  version := r.currentVersion
  state := r.state
  stateSha256 := r.stateSha256
  eventHash := none
  createdAt := r.createdAt

def SnapshotRow.snapshot (r : SnapshotRow) : Snapshot where
  tenantId := r.tenantId
  worldId := r.worldId
  version := r.version
  state := r.state
  stateSha256 := r.stateSha256
  eventHash := some r.eventHash
  createdAt := r.createdAt

/-! ## Checks before the transaction -/

def worldIdentifier (value label : String) : Except PyError String :=
  identifier .worldStateError value label

def worldAuthorizationRef (value : String) : Except PyError String :=
  bounded (worldError "authorization_ref must contain between 1 and 8192 characters") 8192 value

/-- `sorted({_identifier(item, "source lineage") for item in source_lineage})`. -/
def lineages (sourceLineage : List String) : Except PyError (List String) := do
  let items ← sourceLineage.mapM (fun item => worldIdentifier item "source lineage")
  return sortedSet items

/-- `timestamp or _now()`. -/
def orNow (timestamp : Option String) (now : String) : String :=
  match timestamp with
  | some t => if t = "" then now else t
  | none => now

/-! ## Writes -/

section
variable (py : Python)

/-- An `INSERT` whose key is taken raises. -/
def orIntegrity {α : Type} (constraint : String) : Option α → Except PyError α
  | some a => .ok a
  | none => .error ⟨.integrityError, "UNIQUE constraint failed: " ++ constraint⟩

def insertEvent (row : EventRow) (db : WorldDb) : Except PyError WorldDb := do
  if db.worldEvents.rows.any (fun r => r.eventHash = row.eventHash) then
    .error ⟨.integrityError, "UNIQUE constraint failed: world_events.event_hash"⟩
  else
    let worldEvents ← orIntegrity
      "world_events.tenant_id, world_events.world_id, world_events.event_id"
      (db.worldEvents.insert row)
    return { db with worldEvents }

def insertSnapshot (row : SnapshotRow) (db : WorldDb) : Except PyError WorldDb := do
  let worldSnapshots ← orIntegrity
    "world_snapshots.tenant_id, world_snapshots.world_id, world_snapshots.version"
    (db.worldSnapshots.insert row)
  return { db with worldSnapshots }

/-- `event_hash.split(":", 1)[-1]`. -/
def afterColon (s : String) : String :=
  match s.toList.dropWhile (· ≠ ':') with
  | [] => s
  | _ :: rest => String.ofList rest

/-- The message of an event. -/
def outboxMessage (event : Event) (eventHash : String) : Json :=
  .obj [("schema_version", .str "edon-world-outbox-message.v1"),
    ("topic", .str "world.events"),
    ("event_hash", .str eventHash),
    ("tenant_id", .str event.tenantId),
    ("world_id", .str event.worldId),
    ("event_id", .str event.eventId),
    ("event_type", .str event.eventType),
    ("actor_id", .str event.actorId),
    ("expected_version", .int event.expectedVersion),
    ("resulting_version", .int event.resultingVersion),
    ("mutations", .arr event.mutations),
    ("authorization_ref_sha256", .str (sha256Json py.sha256 (.str event.authorizationRef))),
    ("source_lineage", .arr (event.sourceLineage.map .str)),
    ("resulting_state_sha256", .str event.resultingStateSha256)]

def outboxRow (event : Event) (eventHash : String) : OutboxRow where
  messageId := "world:" ++ afterColon eventHash
  tenantId := event.tenantId
  worldId := event.worldId
  eventId := event.eventId
  topic := "world.events"
  payload := (outboxMessage py event eventHash).canon
  payloadSha256 := sha256Json py.sha256 (outboxMessage py event eventHash)
  status := .pending
  attemptCount := 0
  availableAt := event.createdAt
  leaseOwner := none
  leaseExpiresAt := none
  lastError := none
  createdAt := event.createdAt
  deliveredAt := none

/-- `INSERT OR IGNORE`: a message whose id, or topic and payload, is there already is
not written. -/
def enqueueWorldEvent (event : Event) (eventHash : String) (outbox : Table OutboxRow.key) :
    Table OutboxRow.key :=
  let row := outboxRow py event eventHash
  if outbox.rows.any (fun r => r.topic = row.topic ∧ r.payloadSha256 = row.payloadSha256) then
    outbox
  else (outbox.insert row).getD outbox

/-- The rows of an event: its record and the snapshot of the state it leaves. -/
def eventRow (event : Event) : EventRow :=
  { event.stored with
    requestSha256 := sha256Json py.sha256 event.toRequest.toJson
    eventHash := sha256Json py.sha256 event.toJson }

def snapshotRow (event : Event) (state : Json) : SnapshotRow where
  tenantId := event.tenantId
  worldId := event.worldId
  version := event.resultingVersion
  state := state.canon
  stateSha256 := event.resultingStateSha256
  eventHash := sha256Json py.sha256 event.toJson
  createdAt := event.createdAt

/-- The `UPDATE` of a world after an event. -/
def WorldRow.advance (event : Event) (state : Json) (r : WorldRow) : WorldRow :=
  { r with
    currentVersion := event.resultingVersion
    state := state.canon
    stateSha256 := event.resultingStateSha256
    updatedAt := event.createdAt }

theorem WorldRow.advance_key (event : Event) (state : Json) (r : WorldRow) :
    (r.advance event state).key = r.key := rfl

/-! ## Operations -/

/-- A transaction commits what its body returns, or nothing when it raises. A body
that returned early has the snapshot; otherwise the function reads it back. -/
def committing (body : WorldDb → Except PyError (Option Snapshot × WorldDb))
    (after : WorldDb → Except PyError Snapshot) (db : WorldDb) :
    Except PyError Snapshot × WorldDb :=
  match body db with
  | .error e => (.error e, db)
  | .ok (some snapshot, db') => (.ok snapshot, db')
  | .ok (none, db') => (after db', db')

def stateAt (db : WorldDb) (tenantId worldId : String) (version : Int) :
    Except PyError Snapshot := do
  let tenantId ← worldIdentifier tenantId "tenant_id"
  let worldId ← worldIdentifier worldId "world_id"
  match db.worldSnapshots.get (tenantId, worldId, version) with
  | some row => return row.snapshot
  | none => .error (worldError "world snapshot not found for tenant and version")

/-- The rows `ORDER BY sequence` of one world. -/
def eventRows (db : WorldDb) (tenantId worldId : String) : List EventRow :=
  db.worldEvents.rows.filter (fun r => r.tenantId = tenantId ∧ r.worldId = worldId)

def getWorld (db : WorldDb) (tenantId worldId : String) : Except PyError Snapshot := do
  let tenantId ← worldIdentifier tenantId "tenant_id"
  let worldId ← worldIdentifier worldId "world_id"
  match db.worlds.get (tenantId, worldId) with
  | none => .error (worldError "world not found for tenant")
  | some row =>
    let latest := (eventRows db tenantId worldId).getLast?
    return { row.snapshot with
      eventHash := latest.map EventRow.eventHash
      createdAt := row.updatedAt }

def events (db : WorldDb) (tenantId worldId : String) : Except PyError (List EventRow) := do
  let tenantId ← worldIdentifier tenantId "tenant_id"
  let worldId ← worldIdentifier worldId "world_id"
  return eventRows db tenantId worldId

def createRequest (tenantId worldId : String) (initialState : Json)
    (actorId authorizationRef : String) (sourceLineage : List String) :
    Except PyError (Request × Fields) := do
  let tenantId ← worldIdentifier tenantId "tenant_id"
  let worldId ← worldIdentifier worldId "world_id"
  let actorId ← worldIdentifier actorId "actor_id"
  let authorizationRef ← worldAuthorizationRef authorizationRef
  let state ← jsonObject initialState "initial_state"
  let lineages ← lineages sourceLineage
  return ({
    tenantId, worldId
    eventId := "WORLD_CREATED"
    eventType := "WORLD_CREATED"
    actorId
    expectedVersion := -1
    mutations := [(Mutation.replaceRoot (.obj state)).toJson]
    authorizationRef
    sourceLineage := lineages }, state)

def createTx (request : Request) (state : Fields) (createdAt : String) (db : WorldDb) :
    Except PyError (Option Snapshot × WorldDb) := do
  let event : Event := { request with
    resultingVersion := 0
    resultingStateSha256 := sha256Json py.sha256 (.obj state)
    previousHash := "GENESIS"
    createdAt }
  let world : WorldRow :=
    { tenantId := request.tenantId
      worldId := request.worldId
      currentVersion := 0
      state := (Json.obj state).canon
      stateSha256 := event.resultingStateSha256
      createdAt
      updatedAt := createdAt }
  match db.worlds.get (request.tenantId, request.worldId),
      db.worldEvents.get (request.tenantId, request.worldId, "WORLD_CREATED") with
  | some existing, some created =>
    if created.requestSha256 = sha256Json py.sha256 request.toJson then
      return (some { existing.snapshot with
        eventHash := some created.eventHash
        createdAt := existing.updatedAt }, db)
    else .error (worldError "world identity is already bound to different initial state")
  | _, _ =>
    let worlds ← orIntegrity "worlds.tenant_id, worlds.world_id" (db.worlds.insert world)
    let db ← insertEvent (eventRow py event) { db with worlds }
    let db ← insertSnapshot (snapshotRow py event (.obj state)) db
    return (none, { db with
      worldOutbox := enqueueWorldEvent py event (sha256Json py.sha256 event.toJson) db.worldOutbox })

def createWorld (now tenantId worldId : String) (initialState : Json)
    (actorId authorizationRef : String) (sourceLineage : List String)
    (timestamp : Option String) (db : WorldDb) : Except PyError Snapshot × WorldDb :=
  match createRequest tenantId worldId initialState actorId authorizationRef sourceLineage with
  | .error e => (.error e, db)
  | .ok (request, state) =>
    committing (createTx py request state (orNow timestamp now))
      (fun db => stateAt db request.tenantId request.worldId 0) db

def appendRequest (tenantId worldId eventId eventType : String) (mutations : List Json)
    (actorId : String) (expectedVersion : Int) (authorizationRef : String)
    (sourceLineage : List String) : Except PyError Request := do
  let tenantId ← worldIdentifier tenantId "tenant_id"
  let worldId ← worldIdentifier worldId "world_id"
  let eventId ← worldIdentifier eventId "event_id"
  let eventType ← worldIdentifier eventType "event_type"
  let actorId ← worldIdentifier actorId "actor_id"
  let authorizationRef ← worldAuthorizationRef authorizationRef
  let normalized ← normalizeMutations py mutations
  let lineages ← lineages sourceLineage
  return {
    tenantId, worldId, eventId, eventType, actorId, expectedVersion
    mutations := normalized.map Mutation.toJson
    authorizationRef
    sourceLineage := lineages }

def appendTx (request : Request) (createdAt : String) (db : WorldDb) :
    Except PyError (Option Snapshot × WorldDb) :=
  match db.worldEvents.get (request.tenantId, request.worldId, request.eventId) with
  | some duplicate =>
    if duplicate.requestSha256 ≠ sha256Json py.sha256 request.toJson then
      .error (worldError "event identity is already bound to different content")
    else
      match db.worldSnapshots.get
          (request.tenantId, request.worldId, duplicate.resultingVersion) with
      | some snapshot => .ok (some snapshot.snapshot, db)
      | none => .error (worldError "idempotent event snapshot is missing")
  | none =>
    match db.worlds.get (request.tenantId, request.worldId) with
    | none => .error (worldError "world not found for tenant")
    | some world =>
      if world.currentVersion ≠ request.expectedVersion then
        .error (worldError ("world version conflict: expected " ++
          toString request.expectedVersion ++ ", current " ++ toString world.currentVersion))
      else do
        let resultingState ← applyMutations py world.state request.mutations
        let previous := (eventRows db request.tenantId request.worldId).getLast?
        let event : Event := { request with
          resultingVersion := world.currentVersion + 1
          resultingStateSha256 := sha256Json py.sha256 resultingState
          previousHash := (previous.map EventRow.eventHash).getD "GENESIS"
          createdAt }
        let db ← insertEvent (eventRow py event) db
        let db ← insertSnapshot (snapshotRow py event resultingState) db
        let worlds := db.worlds.modify (request.tenantId, request.worldId)
          (WorldRow.advance event resultingState) (WorldRow.advance_key event resultingState)
        return (none, { db with
          worlds
          worldOutbox :=
            enqueueWorldEvent py event (sha256Json py.sha256 event.toJson) db.worldOutbox })

def appendEvent (now tenantId worldId eventId eventType : String) (mutations : List Json)
    (actorId : String) (expectedVersion : Int) (authorizationRef : String)
    (sourceLineage : List String) (timestamp : Option String) (db : WorldDb) :
    Except PyError Snapshot × WorldDb :=
  match appendRequest py tenantId worldId eventId eventType mutations actorId expectedVersion
      authorizationRef sourceLineage with
  | .error e => (.error e, db)
  | .ok request =>
    -- the version an event leaves is the one its transaction expected plus one
    committing (appendTx py request (orNow timestamp now))
      (fun db => stateAt db request.tenantId request.worldId (request.expectedVersion + 1)) db

def restoreVersion (now tenantId worldId : String) (targetVersion : Int)
    (eventId actorId : String) (expectedVersion : Int) (authorizationRef : String)
    (timestamp : Option String) (db : WorldDb) : Except PyError Snapshot × WorldDb :=
  match stateAt db tenantId worldId targetVersion with
  | .error e => (.error e, db)
  | .ok target =>
    appendEvent py now tenantId worldId eventId "WORLD_RESTORED"
      [(Mutation.replaceRoot target.state).toJson] actorId expectedVersion authorizationRef
      ["snapshot:" ++ worldId ++ "@" ++ toString targetVersion ++ ":" ++ target.stateSha256]
      timestamp db

/-! ## Verification -/

structure Checks where
  creationEventPresent : Bool
  eventHashChainValid : Bool
  versionsContiguous : Bool
  snapshotsMatchReplay : Bool
  currentStateMatchesReplay : Bool
  deriving DecidableEq, Repr

/-- `all(checks.values())`. -/
def Checks.passed (c : Checks) : Bool :=
  c.creationEventPresent && c.eventHashChainValid && c.versionsContiguous &&
    c.snapshotsMatchReplay && c.currentStateMatchesReplay

/-- The local variables of the loop of `verify_world`. -/
structure Replay where
  checks : Checks
  previousHash : String
  state : Option Json
  previousVersion : Int

def verifyRecord (db : WorldDb) (tenantId worldId : String) (r : Replay) (record : EventRow) :
    Except PyError Replay := do
  let hashesMatch :=
    record.requestSha256 = sha256Json py.sha256 record.toRequest.toJson ∧
      record.previousHash = r.previousHash ∧
      record.eventHash = sha256Json py.sha256 record.toEvent.toJson
  let contiguous :=
    record.expectedVersion = r.previousVersion ∧ record.resultingVersion = r.previousVersion + 1
  let state ← applyMutations py (r.state.getD (.obj [])) record.mutations
  let snapshotMatches :=
    match stateAt db tenantId worldId record.resultingVersion with
    | .error _ => false
    | .ok snapshot =>
      pyEq snapshot.state state && snapshot.stateSha256 = sha256Json py.sha256 state
  let replayMatches := sha256Json py.sha256 state = record.resultingStateSha256
  return {
    checks := { r.checks with
      eventHashChainValid := r.checks.eventHashChainValid && hashesMatch
      versionsContiguous := r.checks.versionsContiguous && contiguous
      snapshotsMatchReplay := r.checks.snapshotsMatchReplay && replayMatches && snapshotMatches }
    previousHash := record.eventHash
    state := some state
    previousVersion := record.resultingVersion }

def verifyRecords (db : WorldDb) (tenantId worldId : String) :
    Replay → List EventRow → Except PyError Replay
  | r, [] => .ok r
  | r, record :: rest => do
    let r' ← verifyRecord py db tenantId worldId r record
    verifyRecords db tenantId worldId r' rest

structure Verification where
  tenantId : String
  worldId : String
  eventCount : Nat
  checks : Checks
  passed : Bool
  bindingAuthority : Bool := false

def verifyWorld (db : WorldDb) (tenantId worldId : String) : Except PyError Verification := do
  let records ← events db tenantId worldId
  let checks : Checks :=
    { creationEventPresent :=
        match records with
        | [] => false
        | first :: _ => first.eventType = "WORLD_CREATED"
      eventHashChainValid := true
      versionsContiguous := true
      snapshotsMatchReplay := true
      currentStateMatchesReplay := true }
  let replay ← verifyRecords py db tenantId worldId
    { checks, previousHash := "GENESIS", state := none, previousVersion := -1 } records
  let currentMatches :=
    match getWorld db tenantId worldId, replay.state with
    | .ok current, some state =>
      pyEq current.state state && current.stateSha256 = sha256Json py.sha256 state
    | _, _ => false
  let checks := { replay.checks with
    currentStateMatchesReplay := replay.checks.currentStateMatchesReplay && currentMatches }
  return {
    tenantId, worldId
    eventCount := records.length
    checks
    passed := checks.passed }

end
end Edon.World
