import EdonPlatform.ActionNet.Experiences

/- The operations of the network store on experiences (edon/actionnet/network.py): the promotion
   of a local experience to a global record, the quarantine of a record, and the global training
   releases that select records. They read the product store beside their own.

   Correspondence (Python ↔ Lean):
     `promote_local_experience`       ↔ `promoteLocalExperience` (`promotionOf` is its record)
     `global_record_state`            ↔ `globalRecordState`
     `quarantine_global_record`       ↔ `quarantineGlobalRecord`
     `_revalidate_local_source`       ↔ `revalidateLocalSource`
     `create_global_training_release` ↔ `createGlobalTrainingRelease` -/
namespace Edon.LearningNetwork
open ActionNet (Runtime ExperienceState experienceState trainingEligible overlapChecked)

def networkRightsBases : List String :=
  ["CUSTOMER_CONSENT", "CONTRACTUAL_DERIVED_USE", "PUBLIC_SOURCE", "SYNTHETIC", "EXPERT_LICENSED",
    "FEDERATED_CONTRIBUTION"]

def registeredUses : List String := ["TRAIN", "DEVELOPMENT", "DIAGNOSTIC"]

section
variable (rt : Runtime) (I : Interpreter)

/-! ## Promotion -/

structure PromotionArgs where
  tenantId : String
  requestId : String
  experienceId : String
  globalRecordId : String
  normalizedExperience : PyValue
  rightsBasis : String
  rightsRefSha256 : String
  privacyReviewSha256 : String
  sourceReviewSha256 : String
  permittedUses : List String
  deidentificationAttested : Bool
  rawPayloadIncluded : Bool
  approvedBy : String
  createdAt : Option String := none

/-- The arguments that are checked before the experience is read. -/
structure CheckedPromotion where
  tenantId : String
  requestId : String
  experienceId : String
  globalRecordId : String
  rightsBasis : String
  uses : List String

def checkPromotion (args : PromotionArgs) : Except PyError CheckedPromotion := do
  let tenantId ← identifierText args.tenantId "tenant_id"
  let requestId ← identifierText args.requestId "request_id"
  let experienceId ← identifierText args.experienceId "experience_id"
  let globalRecordId ← identifierText args.globalRecordId "global_record_id"
  require (¬ args.rawPayloadIncluded)
    (networkError "raw local payload cannot enter Global ActionNet")
  require args.deidentificationAttested (networkError "deidentification attestation is required")
  require (networkRightsBases.contains (upper args.rightsBasis))
    (networkError ("unsupported rights basis: " ++ upper args.rightsBasis))
  let uses := sortedSet (args.permittedUses.map upper)
  require (¬ uses.isEmpty && uses.all registeredUses.contains)
    (networkError "permitted_uses must contain registered uses")
  return { tenantId, requestId, experienceId, globalRecordId, uses
           rightsBasis := upper args.rightsBasis }

/-- What the commitment to the local source is taken of. -/
def sourceCommitment (tenantId experienceId contentSha256 : String) : Json :=
  .obj [("tenant_id", .str tenantId), ("experience_id", .str experienceId),
    ("experience_sha256", .str contentSha256)]

/-- What the digest of an export is taken of. -/
def LocalExportRow.core (r : LocalExportRow) : List (String × Json) :=
  [("schema_version", .str "actionnet-local-export.v1"), ("tenant_id", .str r.tenantId),
   ("request_id", .str r.requestId), ("experience_id", .str r.experienceId),
   ("experience_sha256", .str r.experienceSha256), ("global_record_id", .str r.globalRecordId),
   ("normalized_experience_sha256", .str r.normalizedExperienceSha256),
   ("requested_by", .str r.requestedBy), ("created_at", .str r.createdAt),
   ("binding_authority", .bool false)]

/-- What the digest of a record is taken of. -/
def GlobalRecordRow.core (r : GlobalRecordRow) : List (String × PyValue) :=
  [("schema_version", .str "actionnet-global-record.v1"),
   ("global_record_id", .str r.globalRecordId),
   ("source_commitment_sha256", .str r.sourceCommitmentSha256),
   ("normalized_experience", .dict r.normalizedExperience),
   ("normalized_experience_sha256", .str r.normalizedExperienceSha256),
   ("evidence_grade", .str r.evidenceGrade.name), ("rights_basis", .str r.rightsBasis),
   ("rights_ref_sha256", .str r.rightsRefSha256),
   ("privacy_review_sha256", .str r.privacyReviewSha256),
   ("source_review_sha256", .str r.sourceReviewSha256),
   ("permitted_uses", .list (r.permittedUses.map .str)),
   ("deidentification_attested", .bool true), ("raw_payload_included", .bool false),
   ("local_training_eligibility_verified", .bool true), ("approved_by", .str r.approvedBy),
   ("created_at", .str r.createdAt), ("training_eligible", .bool (r.permittedUses.contains "TRAIN")),
   ("binding_authority", .bool false)]

/-- The export and the record of a promotion, once the experience is read. -/
def promotionOf (args : PromotionArgs) (checked : CheckedPromotion) (local_ : ExperienceState)
    (now : Int) : Except PyError (LocalExportRow × GlobalRecordRow) := do
  let normalizedExperience ← normalizeGlobalExperience I args.normalizedExperience
  let normalizedSha256 := (PyValue.dict normalizedExperience).sha256Json I
  let createdAt ← networkTimestamp rt (orNow rt.toPython args.createdAt now) "created_at"
  let requestedBy ← identifierText args.approvedBy "approved_by"
  let localExport : LocalExportRow :=
    { tenantId := checked.tenantId, requestId := checked.requestId
      experienceId := checked.experienceId, experienceSha256 := local_.row.contentSha256
      globalRecordId := checked.globalRecordId, normalizedExperienceSha256 := normalizedSha256
      requestedBy, createdAt, requestSha256 := "" }
  let rightsRefSha256 ← networkSha256 rt args.rightsRefSha256 "rights_ref_sha256"
  let privacyReviewSha256 ← networkSha256 rt args.privacyReviewSha256 "privacy_review_sha256"
  let sourceReviewSha256 ← networkSha256 rt args.sourceReviewSha256 "source_review_sha256"
  let record : GlobalRecordRow :=
    { globalRecordId := checked.globalRecordId
      sourceCommitmentSha256 := Json.sha256Json rt.sha256
        (sourceCommitment checked.tenantId checked.experienceId local_.row.contentSha256)
      normalizedExperience, normalizedExperienceSha256 := normalizedSha256
      evidenceGrade := local_.row.evidenceGrade, rightsBasis := checked.rightsBasis
      rightsRefSha256, privacyReviewSha256, sourceReviewSha256
      permittedUses := checked.uses, approvedBy := requestedBy, createdAt, recordSha256 := "" }
  return ({ localExport with
      requestSha256 := Json.sha256Json rt.sha256 (.obj localExport.core) },
    { record with recordSha256 := (PyValue.dict record.core).sha256Json I })

/-- The transaction of the operation; its error is raised. -/
def commitGlobal (w : GlobalWrite) : Operation Unit := do
  let result ← execute (.commitGlobal w)
  result

def promoteLocalExperience (args : PromotionArgs) (now : Int) : Operation Unit := do
  let checked ← checkPromotion args
  let source ← experienceState checked.tenantId checked.experienceId
  require (¬ source.row.isProtected)
    (networkError "protected local experience cannot be promoted")
  require (trainingEligible source.events && overlapChecked source.events)
    (networkError "local experience must remain reviewed, overlap-checked, and training eligible")
  let (localExport, record) ← promotionOf rt I args checked source now
  commitGlobal (.promotion localExport record)

/-! ## Records -/

/-- What is read of a record and its events. -/
structure GlobalRecordState where
  row : GlobalRecordRow
  quarantined : Bool

def GlobalRecordState.trainingEligible (g : GlobalRecordState) : Bool :=
  g.row.permittedUses.contains "TRAIN" && !g.quarantined

def globalRecordState (globalRecordId : String) : Operation GlobalRecordState := do
  let globalRecordId ← identifierText globalRecordId "global_record_id"
  let row ← execute (.globalRecord globalRecordId)
  let row ← orRaise (networkError "global experience not found") row
  let events ← execute (.globalEvents globalRecordId)
  return { row, quarantined := !events.isEmpty }

structure GlobalQuarantineArgs where
  globalRecordId : String
  actorId : String
  reason : String
  evidenceRefSha256 : String
  createdAt : Option String := none

/-- What the digest of an event is taken of. -/
def GlobalEventRow.core (e : GlobalEventRow) : List (String × Json) :=
  [("schema_version", .str "actionnet-global-event.v1"),
   ("global_record_id", .str e.globalRecordId), ("event_type", .str "QUARANTINED"),
   ("actor_id", .str e.actorId), ("reason", .str e.reason),
   ("evidence_ref_sha256", .str e.evidenceRefSha256), ("created_at", .str e.createdAt),
   ("binding_authority", .bool false)]

def quarantineGlobalRecord (args : GlobalQuarantineArgs) (now : Int) : Operation Unit := do
  let globalRecordId ← identifierText args.globalRecordId "global_record_id"
  let _ ← globalRecordState globalRecordId
  let createdAt ← networkTimestamp rt (orNow rt.toPython args.createdAt now) "created_at"
  let actorId ← identifierText args.actorId "actor_id"
  let reason ← networkText args.reason "reason"
  let evidenceRefSha256 ← networkSha256 rt args.evidenceRefSha256 "evidence_ref_sha256"
  let event : GlobalEventRow :=
    { globalRecordId, actorId, reason, evidenceRefSha256, createdAt, eventSha256 := "" }
  commitGlobal (.quarantine
    { event with eventSha256 := Json.sha256Json rt.sha256 (.obj event.core) })

/-! ## Global training releases -/

def revalidateLocalSource (globalRecordId : String) : Operation Unit := do
  let localExport ← execute (.localExport globalRecordId)
  let localExport ← orRaise (networkError "global record has no local custody mapping") localExport
  let source ← experienceState localExport.tenantId localExport.experienceId
  require (source.row.contentSha256 = localExport.experienceSha256 && !source.row.isProtected &&
      trainingEligible source.events && overlapChecked source.events)
    (networkError "local source no longer satisfies promotion or training gates")

/-- The digest of a record the release may select. -/
def selectRecord (globalRecordId : String) : Operation (String × String) := do
  let state ← globalRecordState globalRecordId
  require (state.trainingEligible && state.row.permittedUses.contains "TRAIN")
    (networkError ("global record is not training eligible: " ++ globalRecordId))
  revalidateLocalSource globalRecordId
  return (globalRecordId, state.row.recordSha256)

structure GlobalReleaseArgs where
  releaseId : String
  globalRecordIds : List String
  modelTarget : String
  reservationSha256 : String
  overlapReportSha256 : String
  releaseManagerId : String
  createdAt : Option String := none

/-- What the digest of a release is taken of. -/
def GlobalTrainingReleaseRow.core (r : GlobalTrainingReleaseRow) : List (String × Json) :=
  [("schema_version", .str "actionnet-global-training-release.v1"),
   ("release_id", .str r.releaseId), ("global_record_ids", .arr (r.globalRecordIds.map .str)),
   ("global_record_hashes", .obj (r.globalRecordHashes.map fun e => (e.1, .str e.2))),
   ("model_target", .str r.modelTarget),
   ("protected_evaluation_reservation_sha256", .str r.reservationSha256),
   ("dataset_overlap_report_sha256", .str r.overlapReportSha256),
   ("release_manager_id", .str r.releaseManagerId), ("created_at", .str r.createdAt),
   ("offline_training_only", .bool true), ("weight_update_authorized", .bool false),
   ("binding_authority", .bool false)]

/-- The release of a call, once its records are selected. -/
def globalReleaseOf (args : GlobalReleaseArgs) (now : Int) (releaseId : String)
    (ids : List String) (hashes : List (String × String)) : Except PyError GlobalTrainingReleaseRow := do
  let createdAt ← networkTimestamp rt (orNow rt.toPython args.createdAt now) "created_at"
  let modelTarget ← identifierText args.modelTarget "model_target"
  let reservationSha256 ← networkSha256 rt args.reservationSha256
    "protected_evaluation_reservation_sha256"
  let overlapReportSha256 ← networkSha256 rt args.overlapReportSha256
    "dataset_overlap_report_sha256"
  let releaseManagerId ← identifierText args.releaseManagerId "release_manager_id"
  let row : GlobalTrainingReleaseRow :=
    { releaseId, globalRecordIds := ids, globalRecordHashes := hashes, modelTarget
      reservationSha256, overlapReportSha256, releaseManagerId, createdAt, releaseSha256 := "" }
  return { row with releaseSha256 := Json.sha256Json rt.sha256 (.obj row.core) }

/-- `_string_set` of the record ids. -/
def recordIds (globalRecordIds : List String) : Except PyError (List String) := do
  let ids ← globalRecordIds.mapM fun id => identifierText id "global_record_id"
  return sortedSet ids

def createGlobalTrainingRelease (args : GlobalReleaseArgs) (now : Int) : Operation Unit := do
  let releaseId ← identifierText args.releaseId "release_id"
  let ids ← recordIds args.globalRecordIds
  require (¬ ids.isEmpty) (networkError "global training release requires records")
  let hashes ← ids.mapM selectRecord
  let row ← globalReleaseOf rt args now releaseId ids hashes
  commitGlobal (.trainingRelease row)

end
end Edon.LearningNetwork
