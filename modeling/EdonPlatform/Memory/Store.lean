import EdonPlatform.Common.Python
import EdonPlatform.Lib.Table
import EdonPlatform.Lib.Sorting

/- The episodic memory (edon/memory/store.py, `EpisodicMemoryStore`): its tables and its
   operations.

   Correspondence (Python ↔ Lean):
     the schema of `_initialize`     ↔ `MemoryDb` and its rows
     `_identifier`, `_parse_time`    ↔ `memoryIdentifier`, `parseTime`
     `_tokens`                       ↔ `tokens`
     `_append_audit`                 ↔ `appendAudit`
     `_entry`                        ↔ `EpisodeRow.entry`
     `record_episode`                ↔ `recordEpisode` (`episodeOf` before its transaction, `recordTx`)
     `get_episode`, `query`, `tombstone` ↔ `getEpisode`, `query`, `tombstone`

   A column of times holds the UTC instant its text denotes, a column of JSON text the
   value `json.loads` makes of it. `content_sha256` is no column here: the one `INSERT`
   of the table writes the hash of the other columns there, and no row is ever updated,
   so it is computed from them (`Episode.contentSha256`). -/
namespace Edon.Memory
open Json

abbrev Instant := Int

def memoryError (message : String) : PyError := ⟨.memoryStoreError, message⟩

/-- What the store takes from the runtime beyond `Python`: `str.lower`, the text of a JSON
value, and `datetime.timestamp`, a float. -/
structure Runtime extends Python where
  lower : String → String
  dumps : Json → String
  timestamp : Instant → Rat

/-! ## The schema -/

inductive Sensitivity where
  | published | internal | confidential | restricted
  deriving DecidableEq, Repr

def Sensitivity.name : Sensitivity → String
  | .published => "PUBLIC"
  | .internal => "INTERNAL"
  | .confidential => "CONFIDENTIAL"
  | .restricted => "RESTRICTED"

def sensitivities : List Sensitivity := [.published, .internal, .confidential, .restricted]

/-- The member with this name, the test `name in SENSITIVITIES`. -/
def sensitivityNamed (name : String) : Option Sensitivity :=
  sensitivities.find? (fun s => s.name = name)

/-- What `content_sha256` is the hash of. -/
structure Episode where
  tenantId : String
  memoryId : String
  worldId : String
  episodeType : String
  summary : String
  payload : Json
  occurredAt : Instant
  sensitivity : Sensitivity
  retentionUntil : Option Instant
  sourceEventIds : List String
  provenance : Json
  createdBy : String
  authorizationRef : String
  deriving DecidableEq

structure EpisodeRow extends Episode where
  createdAt : String
  deriving DecidableEq

structure TombstoneRow where
  tenantId : String
  memoryId : String
  reason : String
  actorId : String
  authorizationRef : String
  createdAt : String
  deriving DecidableEq

inductive AuditAction where
  | recorded | read | queried | tombstoned
  deriving DecidableEq, Repr

def AuditAction.name : AuditAction → String
  | .recorded => "MEMORY_RECORDED"
  | .read => "MEMORY_READ"
  | .queried => "MEMORY_QUERY"
  | .tombstoned => "MEMORY_TOMBSTONED"

/-- What an operation reports to the audit. -/
structure AuditEvent where
  tenantId : String
  action : AuditAction
  memoryId : String
  actorId : String
  payload : Json
  createdAt : String
  deriving DecidableEq

structure AuditRow extends AuditEvent where
  previousHash : String
  auditHash : String
  deriving DecidableEq

def Episode.key (e : Episode) : String × String := (e.tenantId, e.memoryId)
def EpisodeRow.key (r : EpisodeRow) : String × String := r.toEpisode.key
def TombstoneRow.key (r : TombstoneRow) : String × String := (r.tenantId, r.memoryId)

/-- The tables; the audit is in the order of its `sequence`. -/
structure MemoryDb where
  entries : Table EpisodeRow.key
  tombstones : Table TombstoneRow.key
  audit : List AuditRow
  deriving DecidableEq

instance : EmptyCollection MemoryDb := ⟨⟨∅, ∅, []⟩⟩

/-! ## Checks -/

def memoryIdentifier (value label : String) : Except PyError String :=
  identifier .memoryStoreError value label

section
variable (py : Python)

def parseTime (value label : String) : Except PyError Instant :=
  match py.fromisoformat (replaceZ value) with
  | .invalid => .error (memoryError (label ++ " must be an ISO-8601 timestamp"))
  | .naive => .error (memoryError (label ++ " must include a timezone"))
  | .instant t => astimezone t

/-- `_parse_time(value, label) if value else None`. -/
def optionalTime (value : Option String) (label : String) : Except PyError (Option Instant) :=
  match value with
  | none => .ok none
  | some text => if text = "" then .ok none else some <$> parseTime py text label

/-- `timestamp or _now()`. -/
def orNow (timestamp : Option String) (now : Instant) : String :=
  match timestamp with
  | some t => if t = "" then py.isoformat now else t
  | none => py.isoformat now

/-- The fields of a JSON object, or the caller's error. -/
def objectOr (message : String) : Json → Except PyError (List (String × Json))
  | .obj kvs => .ok kvs
  | _ => .error (memoryError message)

/-- `allowed_sensitivities` of a read. -/
def allowedSensitivities (values : List String) : Except PyError (List Sensitivity) :=
  orRaise (memoryError "allowed_sensitivities must contain registered sensitivity values")
    (if values = [] then none else values.mapM (fun value => sensitivityNamed (upper value)))

/-! ## The audit -/

def auditJson (e : AuditEvent) (previousHash : String) : Json :=
  .obj [("tenant_id", .str e.tenantId),
    ("action", .str e.action.name),
    ("memory_id", .str e.memoryId),
    ("actor_id", .str e.actorId),
    ("payload", e.payload),
    ("previous_hash", .str previousHash),
    ("created_at", .str e.createdAt)]

/-- The hash of the last event of the tenant. -/
def lastHash (audit : List AuditRow) (tenantId : String) : String :=
  (((audit.filter (fun r => r.tenantId = tenantId)).getLast?).map AuditRow.auditHash).getD "GENESIS"

/-- `audit_hash` is unique in its table. -/
def appendAudit (e : AuditEvent) (audit : List AuditRow) : Except PyError (List AuditRow) :=
  let previousHash := lastHash audit e.tenantId
  let auditHash := sha256Json py.sha256 (auditJson e previousHash)
  if audit.any (fun r => r.auditHash = auditHash) then
    .error ⟨.integrityError, "UNIQUE constraint failed: memory_audit.audit_hash"⟩
  else .ok (audit ++ [{ e with payload := e.payload.canon, previousHash, auditHash }])

/-! ## Entries -/

def optionalText : Option String → Json
  | none => .null
  | some s => .str s

def Episode.toJson (e : Episode) : Json :=
  .obj [("tenant_id", .str e.tenantId),
    ("memory_id", .str e.memoryId),
    ("world_id", .str e.worldId),
    ("episode_type", .str e.episodeType),
    ("summary", .str e.summary),
    ("payload", e.payload),
    ("occurred_at", .str (py.isoformat e.occurredAt)),
    ("sensitivity", .str e.sensitivity.name),
    ("retention_until", optionalText (e.retentionUntil.map py.isoformat)),
    ("source_event_ids", .arr (e.sourceEventIds.map .str)),
    ("provenance", e.provenance),
    ("created_by", .str e.createdBy),
    ("authorization_ref", .str e.authorizationRef)]

def Episode.contentSha256 (e : Episode) : String := sha256Json py.sha256 (e.toJson py)

/-- What a caller sees of a row. -/
structure Entry where
  schemaVersion : String := "edon-episodic-memory.v1"
  tenantId : String
  memoryId : String
  worldId : String
  episodeType : String
  summary : String
  payload : Json
  occurredAt : String
  sensitivity : Sensitivity
  retentionUntil : Option String
  sourceEventIds : List String
  provenance : Json
  contentSha256 : String
  createdBy : String
  createdAt : String
  scope : String := "INSTITUTION_LOCAL"
  adaptationMode : String := "CONTEXT_ONLY"
  trainingEligible : Bool := false
  weightUpdateAuthorized : Bool := false
  bindingAuthority : Bool := false
  retrievalScore : Option Nat
  deriving DecidableEq

def EpisodeRow.entry (r : EpisodeRow) (score : Option Nat) : Entry where
  tenantId := r.tenantId
  memoryId := r.memoryId
  worldId := r.worldId
  episodeType := r.episodeType
  summary := r.summary
  payload := r.payload
  occurredAt := py.isoformat r.occurredAt
  sensitivity := r.sensitivity
  retentionUntil := r.retentionUntil.map py.isoformat
  sourceEventIds := r.sourceEventIds
  provenance := r.provenance
  contentSha256 := r.contentSha256 py
  createdBy := r.createdBy
  createdAt := r.createdAt
  retrievalScore := score

/-- A transaction commits what its body returns, or nothing when it raises. -/
def committing {α : Type} (body : MemoryDb → Except PyError (α × MemoryDb)) (db : MemoryDb) :
    Except PyError α × MemoryDb :=
  match body db with
  | .error e => (.error e, db)
  | .ok (result, db') => (.ok result, db')

/-- `INSERT` into `memory_entries` and `memory_tombstones`: the key is `(tenant_id,
memory_id)`. -/
def orUnique {α : Type} (table : String) : Option α → Except PyError α
  | some a => .ok a
  | none => .error ⟨.integrityError,
      "UNIQUE constraint failed: " ++ table ++ ".tenant_id, " ++ table ++ ".memory_id"⟩

/-! ## Operations -/

/-- The checks of `record_episode` before its transaction, and the content they leave. -/
def episodeOf (tenantId memoryId worldId episodeType summary : String) (payload : Json)
    (occurredAt sensitivity actorId authorizationRef : String) (sourceEventIds : List String)
    (provenance : Json) (retentionUntil : Option String) : Except PyError Episode := do
  let tenantId ← memoryIdentifier tenantId "tenant_id"
  let memoryId ← memoryIdentifier memoryId "memory_id"
  let worldId ← memoryIdentifier worldId "world_id"
  let episodeType ← memoryIdentifier episodeType "episode_type"
  let actorId ← memoryIdentifier actorId "actor_id"
  let authorizationRef ← memoryIdentifier authorizationRef "authorization_ref"
  let summary := strip summary
  require (10 ≤ summary.length ∧ summary.length ≤ 10000)
    (memoryError "summary must contain between 10 and 10000 characters")
  let payload ← objectOr "memory payload must be a JSON object" payload
  let provenance ←
    if truthy provenance then objectOr "provenance must be a JSON object" provenance else .ok []
  let occurredAt ← parseTime py occurredAt "occurred_at"
  let retentionUntil ← optionalTime py retentionUntil "retention_until"
  require (retentionUntil.all (fun t => occurredAt ≤ t))
    (memoryError "retention_until cannot precede occurred_at")
  let sensitivity ← orRaise (memoryError ("unsupported sensitivity: " ++ upper sensitivity))
    (sensitivityNamed (upper sensitivity))
  let sources ← sourceEventIds.mapM (fun item => memoryIdentifier item "source event id")
  require (sources ≠ [] ∨ provenance ≠ [])
    (memoryError "memory requires source_event_ids or provenance")
  return {
    tenantId, memoryId, worldId, episodeType, summary
    payload := canon (.obj payload)
    occurredAt, sensitivity, retentionUntil
    sourceEventIds := sortedSet sources
    provenance := canon (.obj provenance)
    createdBy := actorId
    authorizationRef }

/-- What the audit keeps of a recorded episode. -/
def Episode.recorded (e : Episode) (createdAt : String) : AuditEvent where
  tenantId := e.tenantId
  action := .recorded
  memoryId := e.memoryId
  actorId := e.createdBy
  payload := .obj [("world_id", .str e.worldId),
    ("episode_type", .str e.episodeType),
    ("sensitivity", .str e.sensitivity.name),
    ("content_sha256", .str (e.contentSha256 py)),
    ("source_event_ids", .arr (e.sourceEventIds.map .str))]
  createdAt := createdAt

/-- An episode that is there already is returned as it is, if it has this content. -/
def recordTx (e : Episode) (createdAt : String) (db : MemoryDb) :
    Except PyError (EpisodeRow × MemoryDb) :=
  match db.entries.get e.key with
  | some existing =>
    if existing.contentSha256 py ≠ e.contentSha256 py then
      .error (memoryError "memory identity is already bound to different content")
    else .ok (existing, db)
  | none => do
    let row : EpisodeRow := { e with createdAt }
    let entries ← orUnique "memory_entries" (db.entries.insert row)
    let audit ← appendAudit py (e.recorded py createdAt) db.audit
    return (row, { db with entries, audit })

def recordEpisode (now : Instant) (tenantId memoryId worldId episodeType summary : String)
    (payload : Json) (occurredAt sensitivity actorId authorizationRef : String)
    (sourceEventIds : List String) (provenance : Json) (retentionUntil timestamp : Option String)
    (db : MemoryDb) : Except PyError EpisodeRow × MemoryDb :=
  match episodeOf py tenantId memoryId worldId episodeType summary payload occurredAt sensitivity
      actorId authorizationRef sourceEventIds provenance retentionUntil with
  | .error e => (.error e, db)
  | .ok episode => committing (recordTx py episode (orNow py timestamp now)) db

/-- The row of an entry that has no tombstone. -/
def MemoryDb.standing (db : MemoryDb) (tenantId memoryId : String) : Option EpisodeRow :=
  match db.tombstones.get (tenantId, memoryId) with
  | some _ => none
  | none => db.entries.get (tenantId, memoryId)

/-- Whether the retention of an entry has ended. -/
def Episode.expired (e : Episode) (currentTime : Instant) : Bool :=
  e.retentionUntil.any (fun t => t < currentTime)

/-- What the audit keeps of a read. -/
def Episode.readBy (e : Episode) (actorId createdAt : String) : AuditEvent where
  tenantId := e.tenantId
  action := .read
  memoryId := e.memoryId
  actorId := actorId
  payload := .obj [("sensitivity", .str e.sensitivity.name),
    ("content_sha256", .str (e.contentSha256 py))]
  createdAt := createdAt

def getTx (tenantId memoryId actorId : String) (allowed : List Sensitivity)
    (currentTime : Instant) (createdAt : String) (db : MemoryDb) :
    Except PyError (Entry × MemoryDb) := do
  let row ← orRaise (memoryError "memory not found or access denied")
    ((db.standing tenantId memoryId).filter
      (fun row => row.sensitivity ∈ allowed ∧ ¬ row.expired currentTime))
  let audit ← appendAudit py (row.readBy py actorId createdAt) db.audit
  return (row.entry py none, { db with audit })

def getEpisode (now : Instant) (tenantId memoryId actorId : String)
    (allowedValues : List String) (asOf timestamp : Option String) (db : MemoryDb) :
    Except PyError Entry × MemoryDb :=
  match (do
    let tenantId ← memoryIdentifier tenantId "tenant_id"
    let memoryId ← memoryIdentifier memoryId "memory_id"
    let actorId ← memoryIdentifier actorId "actor_id"
    let allowed ← allowedSensitivities allowedValues
    let currentTime ← optionalTime py asOf "as_of"
    return (tenantId, memoryId, actorId, allowed, currentTime.getD now) :
      Except PyError (String × String × String × List Sensitivity × Instant)) with
  | .error e => (.error e, db)
  | .ok (tenantId, memoryId, actorId, allowed, currentTime) =>
    committing (getTx py tenantId memoryId actorId allowed currentTime (orNow py timestamp now)) db

end

section
variable (py : Runtime)

/-! ## Queries -/

/-- The characters of `TOKEN_RE`. -/
def tokenChar (c : Char) : Bool :=
  ('a' ≤ c && c ≤ 'z') || ('0' ≤ c && c ≤ '9') || c ∈ ['_', ':', '@', '.', '-']

/-- `_tokens`: the set of the longest runs of token characters. -/
def tokens (value : String) : List String :=
  sortedSet ((((py.lower value).toList.splitOnP (fun c => !tokenChar c)).filter (· ≠ [])).map
    String.ofList)

/-- The checked arguments of a query. -/
structure QueryArgs where
  tenantId : String
  query : String
  actorId : String
  allowed : List Sensitivity
  worldId : Option String
  types : List String
  limit : Int
  currentTime : Instant
  deriving DecidableEq

def queryArgs (now : Instant) (tenantId query actorId : String) (allowedValues : List String)
    (worldId : Option String) (episodeTypes : List String) (limit : Int) (asOf : Option String) :
    Except PyError QueryArgs := do
  let tenantId ← memoryIdentifier tenantId "tenant_id"
  let actorId ← memoryIdentifier actorId "actor_id"
  let worldId ← worldId.mapM (fun id => memoryIdentifier id "world_id")
  let allowed ← allowedSensitivities allowedValues
  let types ← episodeTypes.mapM (fun item => memoryIdentifier item "episode type")
  require (1 ≤ limit ∧ limit ≤ 200) (memoryError "memory query limit must be between 1 and 200")
  let currentTime ← optionalTime py.toPython asOf "as_of"
  return {
    tenantId, query, actorId, allowed, worldId
    types := sortedSet types
    limit
    currentTime := currentTime.getD now }

/-- The filters of a query before it looks at the text. -/
def QueryArgs.admits (q : QueryArgs) (row : EpisodeRow) : Bool :=
  row.sensitivity ∈ q.allowed ∧ q.worldId.all (fun id => row.worldId = id) ∧
    (q.types = [] ∨ row.episodeType ∈ q.types) ∧ ¬ row.expired q.currentTime

/-- How many tokens of the query the document of a row has. -/
def QueryArgs.score (q : QueryArgs) (row : EpisodeRow) : Nat :=
  let document := tokens py
    (row.summary ++ " " ++ row.episodeType ++ " " ++ py.dumps row.payload)
  ((tokens py q.query).filter (· ∈ document)).length

/-- The rows of a query with their scores, in the order the table has them. -/
def QueryArgs.scored (q : QueryArgs) (rows : List EpisodeRow) : List (Nat × EpisodeRow) :=
  ((rows.filter q.admits).map (fun row => (q.score py row, row))).filter
    (fun e => tokens py q.query = [] ∨ e.1 ≠ 0)

/-- The order of `(-score, -timestamp, memory_id)`. -/
def rankedBefore (a b : Nat × EpisodeRow) : Prop :=
  b.1 < a.1 ∨ (a.1 = b.1 ∧
    (py.timestamp b.2.occurredAt < py.timestamp a.2.occurredAt ∨
      (py.timestamp a.2.occurredAt = py.timestamp b.2.occurredAt ∧
        a.2.memoryId ≤ b.2.memoryId)))

instance : DecidableRel (rankedBefore py) := fun a b => by unfold rankedBefore; infer_instance

/-- The rows of a tenant that have no tombstone. -/
def MemoryDb.standingRows (db : MemoryDb) (tenantId : String) : List EpisodeRow :=
  db.entries.rows.filter
    (fun r => r.tenantId = tenantId ∧ (db.tombstones.get (r.tenantId, r.memoryId)).isNone)

/-- What the audit keeps of a query. -/
def QueryArgs.event (q : QueryArgs) (createdAt : String) (resultCount : Nat) : AuditEvent where
  tenantId := q.tenantId
  action := .queried
  memoryId := "QUERY"
  actorId := q.actorId
  payload := .obj [("query_sha256", .str ("sha256:" ++ py.sha256 q.query)),
    ("world_id", optionalText q.worldId),
    ("episode_types", .arr (q.types.map .str)),
    ("allowed_sensitivities", .arr ((sortedSet (q.allowed.map Sensitivity.name)).map .str)),
    ("result_count", .int resultCount)]
  createdAt := createdAt

def queryTx (q : QueryArgs) (createdAt : String) (db : MemoryDb) :
    Except PyError (List Entry × MemoryDb) := do
  let scored := q.scored py (db.standingRows q.tenantId)
  let selected := (scored.insertionSort (rankedBefore py)).take q.limit.toNat
  let audit ← appendAudit py.toPython (q.event py createdAt selected.length) db.audit
  return (selected.map (fun e => e.2.entry py.toPython (some e.1)), { db with audit })

def query (now : Instant) (tenantId text actorId : String) (allowedValues : List String)
    (worldId : Option String) (episodeTypes : List String) (limit : Int)
    (asOf timestamp : Option String) (db : MemoryDb) : Except PyError (List Entry) × MemoryDb :=
  match queryArgs py now tenantId text actorId allowedValues worldId episodeTypes limit asOf with
  | .error e => (.error e, db)
  | .ok q => committing (queryTx py q (orNow py.toPython timestamp now)) db

end

/-! ## Tombstones -/

/-- What a caller sees of a tombstone. -/
structure Tombstoned where
  tenantId : String
  memoryId : String
  status : String := "TOMBSTONED"
  createdAt : String
  deriving DecidableEq

section
variable (py : Python)

def tombstoneTx (row : TombstoneRow) (db : MemoryDb) : Except PyError (Tombstoned × MemoryDb) := do
  let entry ← orRaise (memoryError "memory not found for tenant") (db.entries.get row.key)
  match db.tombstones.get row.key with
  | some existing =>
    return ({ tenantId := row.tenantId
              memoryId := row.memoryId
              createdAt := existing.createdAt }, db)
  | none => do
    let tombstones ← orUnique "memory_tombstones" (db.tombstones.insert row)
    let audit ← appendAudit py
      { tenantId := row.tenantId
        action := .tombstoned
        memoryId := row.memoryId
        actorId := row.actorId
        payload := .obj [("reason", .str row.reason),
          ("authorization_ref", .str row.authorizationRef),
          ("content_sha256", .str (entry.contentSha256 py))]
        createdAt := row.createdAt } db.audit
    return ({ tenantId := row.tenantId
              memoryId := row.memoryId
              createdAt := row.createdAt }, { db with tombstones, audit })

def tombstone (now : Instant) (tenantId memoryId actorId reason authorizationRef : String)
    (timestamp : Option String) (db : MemoryDb) : Except PyError Tombstoned × MemoryDb :=
  match (do
    let tenantId ← memoryIdentifier tenantId "tenant_id"
    let memoryId ← memoryIdentifier memoryId "memory_id"
    let actorId ← memoryIdentifier actorId "actor_id"
    let authorizationRef ← memoryIdentifier authorizationRef "authorization_ref"
    let reason := strip reason
    require (5 ≤ reason.length) (memoryError "tombstone reason must be explicit")
    return { tenantId, memoryId, reason, actorId, authorizationRef
             createdAt := orNow py timestamp now } : Except PyError TombstoneRow) with
  | .error e => (.error e, db)
  | .ok row => committing (tombstoneTx py row) db

end

end Edon.Memory
