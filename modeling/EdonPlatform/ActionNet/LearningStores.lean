import EdonPlatform.ActionNet.ModelVersions
import EdonPlatform.Lib.Interleaving

/- The product store and the network store side by side (edon/actionnet/product/store.py and
   edon/actionnet/network.py), as the statements of concurrent callers see them.

   Every call opens a connection, and a connection begins a transaction at its first INSERT: a
   SELECT before that reads what is committed when it is executed. So a `Statement` is one
   SELECT, or the transaction of the INSERTs with its audit event, and other callers may
   commit between any two of them.

   Correspondence (Python ↔ Lean):
     the tables of the network store  ↔ `GlobalDb` and its rows
     `_audit` of the network store    ↔ `GlobalDb.audited`
     the `INSERT`s of one transaction ↔ `ActionNet.Write` and `GlobalWrite`
     one statement                    ↔ `Statement`, `exec` -/
namespace Edon.LearningNetwork
open ActionNet (Runtime ProductDb ExperienceRow ReviewRow GovernanceEvent InstitutionalIrRow
  EvidenceGrade)
open Interleaving

/-! ## The network store -/

structure LocalExportRow where
  tenantId : String
  requestId : String
  experienceId : String
  experienceSha256 : String
  globalRecordId : String
  normalizedExperienceSha256 : String
  requestSha256 : String
  requestedBy : String
  createdAt : String

structure GlobalRecordRow where
  globalRecordId : String
  sourceCommitmentSha256 : String
  normalizedExperience : List (String × PyValue)
  normalizedExperienceSha256 : String
  evidenceGrade : EvidenceGrade
  rightsBasis : String
  rightsRefSha256 : String
  privacyReviewSha256 : String
  sourceReviewSha256 : String
  permittedUses : List String
  approvedBy : String
  createdAt : String
  recordSha256 : String

/-- Every event of a record is a `QUARANTINED`. -/
structure GlobalEventRow where
  globalRecordId : String
  actorId : String
  reason : String
  evidenceRefSha256 : String
  createdAt : String
  eventSha256 : String

structure GlobalTrainingReleaseRow where
  releaseId : String
  globalRecordIds : List String
  globalRecordHashes : List (String × String)
  modelTarget : String
  reservationSha256 : String
  overlapReportSha256 : String
  releaseManagerId : String
  createdAt : String
  releaseSha256 : String

def LocalExportRow.key (r : LocalExportRow) : String × String := (r.tenantId, r.requestId)

/-- The local experience the export is of. -/
def LocalExportRow.experience (r : LocalExportRow) : String × String := (r.tenantId, r.experienceId)

/-- The tables; the events and the audit are in the order of their `sequence`. -/
structure GlobalDb where
  localExports : Table LocalExportRow.key
  records : Table GlobalRecordRow.globalRecordId
  events : List GlobalEventRow
  releases : Table GlobalTrainingReleaseRow.releaseId
  audit : List AuditRow

instance : EmptyCollection GlobalDb := ⟨⟨∅, ∅, [], ∅, []⟩⟩

section
variable (rt : Runtime)

/-- `_audit`. -/
def GlobalDb.audited (db : GlobalDb) (eventType entityId : String) (payload : Json)
    (createdAt : String) : Except PyError GlobalDb := do
  let network ← (NetworkDb.start ∅ db.audit).audited rt eventType entityId payload createdAt
  return { db with audit := network.audit }

/-- What an operation commits in one transaction: its rows, and an audit event. -/
inductive GlobalWrite where
  | promotion (localExport : LocalExportRow) (record : GlobalRecordRow)
  | quarantine (e : GlobalEventRow)
  | trainingRelease (row : GlobalTrainingReleaseRow)

/-- The record, its source and the request are new. -/
def insertPromotion (localExport : LocalExportRow) (record : GlobalRecordRow) (db : GlobalDb) :
    Except PyError GlobalDb := do
  let taken := networkError
    "local export request, source commitment, or global record already exists"
  require (¬ db.localExports.rows.any fun r => r.globalRecordId = localExport.globalRecordId ∨
    r.requestSha256 = localExport.requestSha256) taken
  let localExports ← orRaise taken (db.localExports.insert localExport)
  require (¬ db.records.rows.any fun r =>
    r.sourceCommitmentSha256 = record.sourceCommitmentSha256 ∨
      r.recordSha256 = record.recordSha256) taken
  let records ← orRaise taken (db.records.insert record)
  { db with localExports, records }.audited rt "GLOBAL_EXPERIENCE_PROMOTED" record.globalRecordId
    (.obj [("record_sha256", .str record.recordSha256),
      ("source_commitment_sha256", .str record.sourceCommitmentSha256),
      ("request_sha256", .str localExport.requestSha256),
      ("permitted_uses", .arr (record.permittedUses.map .str))]) record.createdAt

def insertQuarantine (e : GlobalEventRow) (db : GlobalDb) : Except PyError GlobalDb := do
  require (¬ db.events.any fun r => r.eventSha256 = e.eventSha256)
    ⟨.integrityError, "UNIQUE constraint failed: actionnet_global_events.event_sha256"⟩
  { db with events := db.events ++ [e] }.audited rt "GLOBAL_EXPERIENCE_QUARANTINED"
    e.globalRecordId (.obj [("event_sha256", .str e.eventSha256)]) e.createdAt

def insertGlobalRelease (row : GlobalTrainingReleaseRow) (db : GlobalDb) :
    Except PyError GlobalDb := do
  let taken := networkError "global training release already exists"
  require (¬ db.releases.rows.any fun r => r.releaseSha256 = row.releaseSha256) taken
  let releases ← orRaise taken (db.releases.insert row)
  { db with releases }.audited rt "GLOBAL_TRAINING_RELEASE_CREATED" row.releaseId
    (.obj [("release_sha256", .str row.releaseSha256),
      ("global_record_count", .int row.globalRecordIds.length)]) row.createdAt

def GlobalWrite.run (db : GlobalDb) : GlobalWrite → Except PyError GlobalDb
  | .promotion localExport record => insertPromotion rt localExport record db
  | .quarantine e => insertQuarantine rt e db
  | .trainingRelease row => insertGlobalRelease rt row db

/-! ## Statements -/

structure LearningDb where
  product : ProductDb := ∅
  network : GlobalDb := ∅

inductive Statement where
  | mechanismExists (key : String × String × String)
  | institutionalIr (key : String × String × String)
  | experience (key : String × String)
  | reviews (key : String × String)
  | events (key : String × String)
  | commit (w : ActionNet.Write)
  | globalRecord (globalRecordId : String)
  | globalEvents (globalRecordId : String)
  | localExport (globalRecordId : String)
  | commitGlobal (w : GlobalWrite)

@[reducible] def Statement.Answer : Statement → Type
  | .mechanismExists _ => Bool
  | .institutionalIr _ => Option InstitutionalIrRow
  | .experience _ => Option ExperienceRow
  | .reviews _ => List ReviewRow
  | .events _ => List GovernanceEvent
  | .commit _ => Except PyError Unit
  | .globalRecord _ => Option GlobalRecordRow
  | .globalEvents _ => List GlobalEventRow
  | .localExport _ => Option LocalExportRow
  | .commitGlobal _ => Except PyError Unit

/-- A transaction that fails is rolled back. -/
def exec : (c : Statement) → LearningDb → c.Answer × LearningDb
  | .mechanismExists key, db => ((db.product.mechanisms.get key).isSome, db)
  | .institutionalIr key, db => (db.product.institutionalIr.get key, db)
  | .experience key, db => (db.product.experiences.get key, db)
  | .reviews key, db => (db.product.reviewsOf key, db)
  | .events key, db => (db.product.eventsOf key, db)
  | .commit w, db =>
    match w.run rt.toPython db.product with
    | .ok product => (.ok (), { db with product })
    | .error e => (.error e, db)
  | .globalRecord id, db => (db.network.records.get id, db)
  | .globalEvents id, db => (db.network.events.filter fun e => e.globalRecordId = id, db)
  | .localExport id, db =>
    (db.network.localExports.rows.find? fun r => r.globalRecordId = id, db)
  | .commitGlobal w, db =>
    match w.run rt db.network with
    | .ok network => (.ok (), { db with network })
    | .error e => (.error e, db)

end

/-- An operation of one of the two stores. -/
abbrev Operation (α : Type) : Type := Prog Statement Statement.Answer PyError α

/-- One statement, and its answer. -/
abbrev execute (c : Statement) : Operation c.Answer := Prog.statement c

end Edon.LearningNetwork
