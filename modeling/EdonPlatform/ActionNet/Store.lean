import EdonPlatform.Common.Python
import EdonPlatform.Lib.Table
import EdonPlatform.Lib.Sorting

/- The product store of ActionNet (edon/actionnet/product/store.py,
   `ActionNetPlatformStore`): its tables, the checks its operations make and the
   transactions they commit.

   Correspondence (Python ↔ Lean):
     the schema of `_initialize`            ↔ `ProductDb` and its rows
     `_identifier`, `_text`, `_json_object` ↔ `productIdentifier`, `productText`, `jsonObject`
     `_string_list`, `_forbid_authority`    ↔ `stringList`, `forbidAuthority`
     `_evidence_grade`                      ↔ `evidenceGradeOf`
     `_audit`                               ↔ `ProductDb.audited`
     `with self._connection()` and its `INSERT`s ↔ `Write` and `Write.run`
     the flags of `experience_state`        ↔ `latestOverlap`, `trainingEligible`, `overlapChecked`

   The tables are append-only: triggers refuse every update and every delete. A column of
   JSON text holds the value `json.loads` makes of it. -/
namespace Edon.ActionNet
open Json

def productError (message : String) : PyError := ⟨.actionNetPlatformError, message⟩

/-- What the store takes from the runtime beyond `Python`: `str.lower`, and whether
`int(text, 16)` reads the text. -/
structure Runtime extends Python where
  lower : String → String
  hexadecimal : String → Bool

/-! ## Vocabularies -/

inductive EvidenceGrade where
  | unverified | syntheticVerified | solverVerified | expertReviewed | sourceGrounded | realOutcome
  deriving DecidableEq, Repr

def EvidenceGrade.name : EvidenceGrade → String
  | .unverified => "UNVERIFIED"
  | .syntheticVerified => "SYNTHETIC_VERIFIED"
  | .solverVerified => "SOLVER_VERIFIED"
  | .expertReviewed => "EXPERT_REVIEWED"
  | .sourceGrounded => "SOURCE_GROUNDED"
  | .realOutcome => "REAL_OUTCOME"

def evidenceGrades : List EvidenceGrade :=
  [.unverified, .syntheticVerified, .solverVerified, .expertReviewed, .sourceGrounded, .realOutcome]

inductive SourceType where
  | synthetic | simulator | solver | expert | publicSource | realGovernedAbstraction
  deriving DecidableEq, Repr

def SourceType.name : SourceType → String
  | .synthetic => "SYNTHETIC"
  | .simulator => "SIMULATOR"
  | .solver => "SOLVER"
  | .expert => "EXPERT"
  | .publicSource => "PUBLIC_SOURCE"
  | .realGovernedAbstraction => "REAL_GOVERNED_ABSTRACTION"

def sourceTypes : List SourceType :=
  [.synthetic, .simulator, .solver, .expert, .publicSource, .realGovernedAbstraction]

inductive ReviewDimension where
  | domain | safety | privacy | lineage | training
  deriving DecidableEq, Repr

def ReviewDimension.name : ReviewDimension → String
  | .domain => "DOMAIN"
  | .safety => "SAFETY"
  | .privacy => "PRIVACY"
  | .lineage => "LINEAGE"
  | .training => "TRAINING"

def reviewDimensions : List ReviewDimension := [.domain, .safety, .privacy, .lineage, .training]

inductive ReviewDecision where
  | approve | reject | revisionRequired
  deriving DecidableEq, Repr

def ReviewDecision.name : ReviewDecision → String
  | .approve => "APPROVE"
  | .reject => "REJECT"
  | .revisionRequired => "REVISION_REQUIRED"

def reviewDecisions : List ReviewDecision := [.approve, .reject, .revisionRequired]

/-- `REVIEW_ROLE_REQUIREMENTS`. -/
def reviewRoles : ReviewDimension → List String
  | .domain => ["DOMAIN_REVIEWER", "ACTIONNET_DOMAIN_REVIEWER", "ADMIN"]
  | .safety => ["SAFETY_REVIEWER", "ACTIONNET_SAFETY_REVIEWER", "ADMIN"]
  | .privacy => ["ACTIONNET_PRIVACY_REVIEWER", "ADMIN"]
  | .lineage => ["ACTIONNET_CUSTODIAN", "ADMIN"]
  | .training => ["ACTIONNET_RELEASE_MANAGER", "ADMIN"]

inductive GovernanceEventType where
  | overlapCheckPassed | overlapCheckFailed | trainingEligible | quarantined
  deriving DecidableEq, Repr

def GovernanceEventType.name : GovernanceEventType → String
  | .overlapCheckPassed => "OVERLAP_CHECK_PASSED"
  | .overlapCheckFailed => "OVERLAP_CHECK_FAILED"
  | .trainingEligible => "TRAINING_ELIGIBLE"
  | .quarantined => "QUARANTINED"

/-- `event_type.startswith("OVERLAP_CHECK_")`. -/
def GovernanceEventType.isOverlapCheck : GovernanceEventType → Bool
  | .overlapCheckPassed | .overlapCheckFailed => true
  | .trainingEligible | .quarantined => false

/-! ## The schema -/

structure MechanismRow where
  tenantId : String
  mechanismId : String
  version : String
  title : String
  description : String
  specification : Json
  domains : List String
  evidenceGrade : EvidenceGrade
  sourceLineage : List String
  createdBy : String
  createdAt : String
  recordSha256 : String
  deriving DecidableEq

structure InstitutionalIrRow where
  tenantId : String
  institutionId : String
  version : String
  institutionType : String
  ir : Json
  sourceLineage : List String
  isProtected : Bool
  createdBy : String
  createdAt : String
  recordSha256 : String
  deriving DecidableEq

structure MechanismRef where
  mechanismId : String
  version : String
  deriving DecidableEq

structure ExperienceRow where
  tenantId : String
  experienceId : String
  sourceType : SourceType
  institutionType : String
  mechanismRefs : List MechanismRef
  trajectory : Json
  causalTrace : Json
  counterfactualParentId : Option String
  failureClassification : Option String
  evidenceGrade : EvidenceGrade
  isProtected : Bool
  provenance : Json
  createdBy : String
  createdAt : String
  contentSha256 : String
  deriving DecidableEq

structure ReviewRow where
  tenantId : String
  reviewId : String
  experienceId : String
  reviewerId : String
  reviewerRole : String
  dimension : ReviewDimension
  decision : ReviewDecision
  rationale : String
  experienceSha256 : String
  createdAt : String
  reviewSha256 : String
  deriving DecidableEq

structure GovernanceEvent where
  tenantId : String
  experienceId : String
  eventType : GovernanceEventType
  actorId : String
  details : Json
  createdAt : String
  eventSha256 : String
  deriving DecidableEq

structure TrainingReleaseRow where
  tenantId : String
  releaseId : String
  experienceIds : List String
  experienceHashes : List (String × String)
  modelTarget : String
  releaseManagerId : String
  createdAt : String
  releaseSha256 : String
  deriving DecidableEq

structure GovernedIntakeRow where
  tenantId : String
  intakeId : String
  institutionId : String
  institutionVersion : String
  experienceId : String
  abstraction : Json
  createdBy : String
  createdAt : String
  recordSha256 : String
  deriving DecidableEq

structure ProductAuditRow where
  tenantId : String
  eventType : String
  entityId : String
  payload : Json
  previousHash : String
  eventHash : String
  createdAt : String
  deriving DecidableEq

def MechanismRow.key (r : MechanismRow) : String × String × String :=
  (r.tenantId, r.mechanismId, r.version)
def InstitutionalIrRow.key (r : InstitutionalIrRow) : String × String × String :=
  (r.tenantId, r.institutionId, r.version)
def ExperienceRow.key (r : ExperienceRow) : String × String := (r.tenantId, r.experienceId)
def ReviewRow.key (r : ReviewRow) : String × String := (r.tenantId, r.reviewId)
def TrainingReleaseRow.key (r : TrainingReleaseRow) : String × String := (r.tenantId, r.releaseId)
def GovernedIntakeRow.key (r : GovernedIntakeRow) : String × String := (r.tenantId, r.intakeId)

/-- The experience a review or an event is of. -/
def ReviewRow.experience (r : ReviewRow) : String × String := (r.tenantId, r.experienceId)
def GovernanceEvent.experience (e : GovernanceEvent) : String × String :=
  (e.tenantId, e.experienceId)

/-- The tables; the events and the audit are in the order of their `sequence`. -/
structure ProductDb where
  mechanisms : Table MechanismRow.key
  institutionalIr : Table InstitutionalIrRow.key
  experiences : Table ExperienceRow.key
  reviews : Table ReviewRow.key
  governanceEvents : List GovernanceEvent
  trainingReleases : Table TrainingReleaseRow.key
  governedIntakes : Table GovernedIntakeRow.key
  audit : List ProductAuditRow
  deriving DecidableEq

instance : EmptyCollection ProductDb := ⟨⟨∅, ∅, ∅, ∅, [], ∅, ∅, []⟩⟩

/-! ## Checks -/

def productIdentifier (value label : String) : Except PyError String :=
  identifier .actionNetPlatformError value label

def productText (value label : String) (minimum maximum : Nat) : Except PyError String :=
  let normalized := strip value
  if normalized.length < minimum ∨ maximum < normalized.length then
    .error (productError (label ++ " must contain between " ++ toString minimum ++ " and " ++
      toString maximum ++ " characters"))
  else .ok normalized

def jsonObject (value : Json) (label : String) : Except PyError Json :=
  match value with
  | .obj kvs => .ok (.obj kvs)
  | _ => .error (productError (label ++ " must be a JSON object"))

def stringList (values : List String) (label : String) : Except PyError (List String) := do
  let items ← values.mapM (fun value => productIdentifier value label)
  return sortedSet items

/-- `forbidden` of `_forbid_authority`. -/
def authorityKeys : List String :=
  ["authorization_ref", "execution_token", "kernel_token", "signature", "binding_authority",
    "commit", "approved_for_execution", "execute"]

section
variable (lower : String → String)

mutual
def forbidAuthority (path : String) : Json → Except PyError Unit
  | .obj kvs => forbidAuthorityFields path kvs
  | .arr xs => forbidAuthorityItems path 0 xs
  | _ => .ok ()

def forbidAuthorityFields (path : String) : List (String × Json) → Except PyError Unit
  | [] => .ok ()
  | (key, nested) :: kvs =>
    if lower key = "binding_authority" ∧ nested = .bool false then forbidAuthorityFields path kvs
    else if authorityKeys.contains (lower key) then
      .error (productError ("ActionNet product record cannot contain " ++ path ++ "." ++ key))
    else do
      forbidAuthority (path ++ "." ++ key) nested
      forbidAuthorityFields path kvs

def forbidAuthorityItems (path : String) (index : Nat) : List Json → Except PyError Unit
  | [] => .ok ()
  | x :: xs => do
    forbidAuthority (path ++ "[" ++ toString index ++ "]") x
    forbidAuthorityItems path (index + 1) xs
end
end

def evidenceGradeOf (value : String) : Except PyError EvidenceGrade :=
  orRaise (productError ("unsupported evidence grade: " ++ upper value))
    (named EvidenceGrade.name evidenceGrades (upper value))

def optionalText : Option String → Json
  | none => .null
  | some s => .str s

/-! ## Transactions -/

/-- What an operation commits in one transaction: its row, and an audit event. -/
inductive Write where
  | mechanism (row : MechanismRow)
  | institutionalIr (row : InstitutionalIrRow)
  | experience (row : ExperienceRow)
  | review (row : ReviewRow)
  | event (e : GovernanceEvent)
  | trainingRelease (row : TrainingReleaseRow)
  | governedIntake (row : GovernedIntakeRow)
  deriving DecidableEq

section
variable (py : Python)

/-- `_audit`: the event follows the last one of the tenant; its hash is unique. -/
def ProductDb.audited (db : ProductDb) (tenantId eventType entityId : String)
    (payload : Json) (createdAt : String) : Except PyError ProductDb :=
  let previousHash := (((db.audit.filter (fun r => r.tenantId = tenantId)).getLast?).map
    ProductAuditRow.eventHash).getD "GENESIS"
  let eventHash := sha256Json py.sha256 (.obj [("tenant_id", .str tenantId),
    ("event_type", .str eventType),
    ("entity_id", .str entityId),
    ("payload", payload),
    ("previous_hash", .str previousHash),
    ("created_at", .str createdAt)])
  if db.audit.any (fun r => r.eventHash = eventHash) then
    .error ⟨.integrityError, "UNIQUE constraint failed: actionnet_product_audit.event_hash"⟩
  else .ok { db with
    audit := db.audit ++ [⟨tenantId, eventType, entityId, canon payload, previousHash, eventHash,
      createdAt⟩] }

def insertMechanism (row : MechanismRow) (db : ProductDb) : Except PyError ProductDb := do
  let mechanisms ← orRaise (productError "mechanism version already exists")
    (db.mechanisms.insert row)
  { db with mechanisms }.audited py row.tenantId "MECHANISM_REGISTERED"
    (row.mechanismId ++ "@" ++ row.version) (.obj [("record_sha256", .str row.recordSha256)])
    row.createdAt

def insertInstitutionalIr (row : InstitutionalIrRow) (db : ProductDb) : Except PyError ProductDb := do
  let institutionalIr ← orRaise (productError "Institutional IR version already exists")
    (db.institutionalIr.insert row)
  { db with institutionalIr }.audited py row.tenantId "INSTITUTIONAL_IR_REGISTERED"
    (row.institutionId ++ "@" ++ row.version)
    (.obj [("record_sha256", .str row.recordSha256),
      ("ir_sha256", match row.ir with
        | .obj kvs => (Assoc.find kvs "ir_sha256").getD .null
        | _ => .null),
      ("protected", .bool row.isProtected)]) row.createdAt

def insertExperience (row : ExperienceRow) (db : ProductDb) : Except PyError ProductDb := do
  let experiences ← orRaise (productError "experience identity already exists")
    (db.experiences.insert row)
  { db with experiences }.audited py row.tenantId "EXPERIENCE_RECORDED" row.experienceId
    (.obj [("content_sha256", .str row.contentSha256),
      ("protected", .bool row.isProtected),
      ("training_eligible", .bool false)]) row.createdAt

/-- `UNIQUE (tenant_id, experience_id, reviewer_id, dimension)`. -/
def ReviewRow.clashes (row r : ReviewRow) : Bool :=
  r.experience = row.experience ∧ r.reviewerId = row.reviewerId ∧ r.dimension = row.dimension

def insertReview (row : ReviewRow) (db : ProductDb) : Except PyError ProductDb := do
  let taken := productError "review identity or reviewer dimension already exists"
  require (¬ db.reviews.rows.any row.clashes) taken
  let reviews ← orRaise taken (db.reviews.insert row)
  { db with reviews }.audited py row.tenantId "EXPERIENCE_REVIEWED" row.experienceId
    (.obj [("review_sha256", .str row.reviewSha256),
      ("dimension", .str row.dimension.name),
      ("decision", .str row.decision.name)]) row.createdAt

/-- The `INSERT` of `_governance_event`: `event_sha256` is unique. -/
def insertEvent (e : GovernanceEvent) (db : ProductDb) : Except PyError ProductDb := do
  require (¬ db.governanceEvents.any (fun r => r.eventSha256 = e.eventSha256))
    ⟨.integrityError, "UNIQUE constraint failed: actionnet_governance_events.event_sha256"⟩
  { db with governanceEvents := db.governanceEvents ++ [e] }.audited py e.tenantId
    e.eventType.name e.experienceId
    (match e.details with
      | .obj kvs => .obj (("event_sha256", .str e.eventSha256) :: kvs)
      | details => details) e.createdAt

def insertTrainingRelease (row : TrainingReleaseRow) (db : ProductDb) :
    Except PyError ProductDb := do
  let trainingReleases ← orRaise ⟨.integrityError, "UNIQUE constraint failed: " ++
      "actionnet_training_releases.tenant_id, actionnet_training_releases.release_id"⟩
    (db.trainingReleases.insert row)
  { db with trainingReleases }.audited py row.tenantId "TRAINING_RELEASE_CREATED" row.releaseId
    (.obj [("release_sha256", .str row.releaseSha256),
      ("experience_count", .int row.experienceIds.length)]) row.createdAt

/-- An experience has at most one intake. -/
def insertGovernedIntake (row : GovernedIntakeRow) (db : ProductDb) : Except PyError ProductDb := do
  let taken := productError "governed abstraction intake already exists"
  require (¬ db.governedIntakes.rows.any
    (fun r => r.tenantId = row.tenantId ∧ r.experienceId = row.experienceId)) taken
  let governedIntakes ← orRaise taken (db.governedIntakes.insert row)
  { db with governedIntakes }.audited py row.tenantId "GOVERNED_ABSTRACTION_INGESTED" row.intakeId
    (.obj [("record_sha256", .str row.recordSha256),
      ("experience_id", .str row.experienceId),
      ("raw_payload_stored", .bool false)]) row.createdAt

def Write.run (db : ProductDb) : Write → Except PyError ProductDb
  | .mechanism row => insertMechanism py row db
  | .institutionalIr row => insertInstitutionalIr py row db
  | .experience row => insertExperience py row db
  | .review row => insertReview py row db
  | .event e => insertEvent py e db
  | .trainingRelease row => insertTrainingRelease py row db
  | .governedIntake row => insertGovernedIntake py row db
end

/-! ## Reads -/

/-- The order of `_reviews`. -/
def reviewBefore (r s : ReviewRow) : Prop :=
  r.createdAt < s.createdAt ∨ (r.createdAt = s.createdAt ∧ r.reviewId ≤ s.reviewId)

instance : DecidableRel reviewBefore := fun _ _ => inferInstanceAs (Decidable (_ ∨ _ ∧ _))

def ProductDb.reviewsOf (db : ProductDb) (key : String × String) : List ReviewRow :=
  (db.reviews.rows.filter (fun r => r.experience = key)).insertionSort reviewBefore

def ProductDb.eventsOf (db : ProductDb) (key : String × String) : List GovernanceEvent :=
  db.governanceEvents.filter (fun e => e.experience = key)

/-- The last overlap check of the events. -/
def latestOverlap (events : List GovernanceEvent) : Option GovernanceEventType :=
  (events.reverse.find? (fun e => e.eventType.isOverlapCheck)).map GovernanceEvent.eventType

def recorded (events : List GovernanceEvent) (type : GovernanceEventType) : Bool :=
  events.any (fun e => e.eventType = type)

/-- `training_eligible` of `experience_state`. -/
def trainingEligible (events : List GovernanceEvent) : Bool :=
  recorded events .trainingEligible ∧ ¬ recorded events .quarantined ∧
    latestOverlap events ≠ some .overlapCheckFailed

/-- `overlap_checked` of `experience_state`. -/
def overlapChecked (events : List GovernanceEvent) : Bool :=
  recorded events .overlapCheckPassed ∧ latestOverlap events ≠ some .overlapCheckFailed

end Edon.ActionNet
