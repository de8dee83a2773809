import EdonPlatform.ActionNet.Intake
import EdonPlatform.ActionNet.LearningStores

/- The operations of the product store on experiences (edon/actionnet/product/store.py): their
   intake, their reviews, the events of their governance and the training releases that select
   them. An operation checks its arguments, executes its SELECTs one by one, and commits.

   Correspondence (Python ↔ Lean):
     `record_experience`            ↔ `recordExperience` (`experienceOf` is its record)
     `record_governed_intake`       ↔ `recordGovernedIntake`
     `_experience_row`              ↔ `experienceRow`
     `review_experience`            ↔ `reviewExperience`
     `_governance_event`            ↔ `governanceEvent`
     `record_overlap_check`         ↔ `recordOverlapCheck`
     `experience_state`             ↔ `experienceState`
     `approve_training_eligibility` ↔ `approveTrainingEligibility` (`checkEligible`)
     `quarantine_experience`        ↔ `quarantineExperience`
     `create_training_release`      ↔ `createTrainingRelease`

   What an operation returns is left out where nothing reads it: it is the row it committed. -/
namespace Edon.ActionNet
open LearningNetwork (Operation execute)

section
variable (rt : Runtime)

/-- `_identifier(value, label) if value else None`. -/
def optionalProductId (value : Option String) (label : String) : Except PyError (Option String) :=
  match value with
  | none => .ok none
  | some text => if text = "" then .ok none else (productIdentifier text label).map some

/-! ## Recording -/

structure ExperienceArgs where
  tenantId : String
  experienceId : String
  sourceType : String
  institutionType : String
  mechanismRefs : List Json
  trajectory : Json
  causalTrace : Json
  evidenceGrade : String
  provenance : Json
  createdBy : String
  counterfactualParentId : Option String := none
  failureClassification : Option String := none
  isProtected : Bool := false
  createdAt : Option String := none

/-- A reference: `str(None)` is a text. -/
def mechanismRefOf (raw : Json) : Except PyError MechanismRef :=
  match raw with
  | .obj kvs => do
    let mechanismId ← productIdentifier
      (pyStr rt.toPython ((Assoc.find kvs "mechanism_id").getD .null)) "mechanism_id"
    let version ← productIdentifier
      (pyStr rt.toPython ((Assoc.find kvs "version").getD .null)) "mechanism version"
    return { mechanismId, version }
  | _ => .error (productError "mechanism reference must be an object")

/-- The order of `sorted`. -/
def MechanismRef.before (a b : MechanismRef) : Prop :=
  a.mechanismId < b.mechanismId ∨ (a.mechanismId = b.mechanismId ∧ a.version ≤ b.version)

instance : DecidableRel MechanismRef.before := fun _ _ => inferInstanceAs (Decidable (_ ∨ _ ∧ _))

def MechanismRef.toJson (r : MechanismRef) : Json :=
  .obj [("mechanism_id", .str r.mechanismId), ("version", .str r.version)]

/-- What the digest of an experience is taken of. -/
def ExperienceRow.core (r : ExperienceRow) : List (String × Json) :=
  [("schema_version", .str "actionnet-experience.v1"), ("tenant_id", .str r.tenantId),
   ("experience_id", .str r.experienceId), ("source_type", .str r.sourceType.name),
   ("institution_type", .str r.institutionType),
   ("mechanism_refs", .arr (r.mechanismRefs.map MechanismRef.toJson)),
   ("trajectory", r.trajectory), ("causal_trace", r.causalTrace),
   ("counterfactual_parent_id", optionalText r.counterfactualParentId),
   ("failure_classification", optionalText r.failureClassification),
   ("evidence_grade", .str r.evidenceGrade.name), ("protected", .bool r.isProtected),
   ("provenance", r.provenance), ("created_by", .str r.createdBy),
   ("created_at", .str r.createdAt), ("authoritative", .bool false),
   ("training_eligible", .bool false), ("overlap_checked", .bool false),
   ("requires_review", .bool true), ("binding_authority", .bool false)]

/-- The record of a call. -/
def experienceOf (args : ExperienceArgs) (now : Int) : Except PyError ExperienceRow := do
  let tenantId ← productIdentifier args.tenantId "tenant_id"
  let sourceType ← orRaise (productError ("unsupported source type: " ++ upper args.sourceType))
    (named SourceType.name sourceTypes (upper args.sourceType))
  let trajectory ← jsonObject args.trajectory "trajectory"
  let causalTrace ← jsonObject args.causalTrace "causal_trace"
  let provenance ← jsonObject args.provenance "provenance"
  forbidAuthority rt.lower "trajectory" trajectory
  let refs ← args.mechanismRefs.mapM (mechanismRefOf rt)
  let mechanismRefs := refs.insertionSort MechanismRef.before
  require (¬ mechanismRefs.isEmpty)
    (productError "experience requires at least one mechanism reference")
  let experienceId ← productIdentifier args.experienceId "experience_id"
  let institutionType ← productIdentifier args.institutionType "institution_type"
  let counterfactualParentId ← optionalProductId args.counterfactualParentId
    "counterfactual_parent_id"
  let failureClassification ← optionalProductId args.failureClassification
    "failure_classification"
  let evidenceGrade ← evidenceGradeOf args.evidenceGrade
  let createdBy ← productIdentifier args.createdBy "created_by"
  let row : ExperienceRow :=
    { tenantId, experienceId, sourceType, institutionType, mechanismRefs, trajectory, causalTrace
      counterfactualParentId, failureClassification, evidenceGrade, provenance, createdBy
      isProtected := args.isProtected
      createdAt := orNow rt.toPython args.createdAt now
      contentSha256 := "" }
  return { row with contentSha256 := Json.sha256Json rt.sha256 (.obj row.core) }

/-- A mechanism the record refers to is registered. -/
def checkMechanism (tenantId : String) (ref : MechanismRef) : Operation Unit := do
  let found ← execute (.mechanismExists (tenantId, ref.mechanismId, ref.version))
  require found (productError
    ("unknown mechanism reference: " ++ ref.mechanismId ++ "@" ++ ref.version))

/-- The parent of a counterfactual is recorded. -/
def checkParent (tenantId : String) : Option String → Operation Unit
  | none => pure ()
  | some parentId => do
    let parent ← execute (.experience (tenantId, parentId))
    require parent.isSome (productError "counterfactual parent does not exist")

/-- The transaction of the operation; its error is raised. -/
def commit (w : Write) : Operation Unit := do
  let result ← execute (.commit w)
  result

def recordExperience (args : ExperienceArgs) (now : Int) : Operation Unit := do
  let row ← experienceOf rt args now
  let _ ← row.mechanismRefs.mapM (checkMechanism row.tenantId)
  checkParent row.tenantId row.counterfactualParentId
  commit (.experience row)

/-! ## Reading -/

def experienceRow (tenantId experienceId : String) : Operation ExperienceRow := do
  let row ← execute (.experience (tenantId, experienceId))
  orRaise (productError "experience not found") row

/-- What `experience_state` reads, one SELECT after the other. -/
structure ExperienceState where
  row : ExperienceRow
  reviews : List ReviewRow
  events : List GovernanceEvent

def experienceState (tenantId experienceId : String) : Operation ExperienceState := do
  let row ← experienceRow tenantId experienceId
  let reviews ← execute (.reviews (tenantId, experienceId))
  let events ← execute (.events (tenantId, experienceId))
  return { row, reviews, events }

structure GovernedIntakeArgs where
  tenantId : String
  abstraction : Json
  experienceId : String
  createdBy : String
  createdAt : Option String := none

/-- What the digest of an intake is taken of. -/
def GovernedIntakeRow.core (r : GovernedIntakeRow) : List (String × Json) :=
  [("schema_version", .str "actionnet-governed-intake-record.v1"), ("tenant_id", .str r.tenantId),
   ("intake_id", .str r.intakeId), ("institution_id", .str r.institutionId),
   ("institution_version", .str r.institutionVersion), ("experience_id", .str r.experienceId),
   ("abstraction", r.abstraction), ("created_by", .str r.createdBy),
   ("created_at", .str r.createdAt), ("raw_payload_stored", .bool false),
   ("training_eligible", .bool false), ("binding_authority", .bool false)]

def recordGovernedIntake (args : GovernedIntakeArgs) (now : Int) : Operation Unit := do
  let tenantId ← productIdentifier args.tenantId "tenant_id"
  let normalized ← normalizeAbstraction rt args.abstraction
  let ir ← execute (.institutionalIr
    (tenantId, normalized.institutionId, normalized.institutionVersion))
  require ir.isSome (productError "Institutional IR version not found")
  let state ← experienceState tenantId args.experienceId
  require (state.row.sourceType = .realGovernedAbstraction)
    (productError "governed intake must create a real governed abstraction experience")
  require (¬ trainingEligible state.events)
    (productError "new governed intake experience cannot already be training eligible")
  let intakeId ← productIdentifier normalized.intakeId "intake_id"
  let experienceId ← productIdentifier args.experienceId "experience_id"
  let createdBy ← productIdentifier args.createdBy "created_by"
  let row : GovernedIntakeRow :=
    { tenantId, intakeId, experienceId, createdBy
      institutionId := normalized.institutionId
      institutionVersion := normalized.institutionVersion
      abstraction := normalized.toJson rt
      createdAt := orNow rt.toPython args.createdAt now
      recordSha256 := "" }
  commit (.governedIntake
    { row with recordSha256 := Json.sha256Json rt.sha256 (.obj row.core) })

/-! ## Reviews -/

structure ReviewArgs where
  tenantId : String
  reviewId : String
  experienceId : String
  reviewerId : String
  reviewerRole : String
  dimension : String
  decision : String
  rationale : String
  createdAt : Option String := none

/-- What the digest of a review is taken of. -/
def ReviewRow.core (r : ReviewRow) : List (String × Json) :=
  [("schema_version", .str "actionnet-experience-review.v1"), ("tenant_id", .str r.tenantId),
   ("review_id", .str r.reviewId), ("experience_id", .str r.experienceId),
   ("reviewer_id", .str r.reviewerId), ("reviewer_role", .str r.reviewerRole),
   ("dimension", .str r.dimension.name), ("decision", .str r.decision.name),
   ("rationale", .str r.rationale), ("experience_sha256", .str r.experienceSha256),
   ("created_at", .str r.createdAt), ("binding_authority", .bool false)]

/-- The review of a call, once the experience is read. -/
def reviewOf (args : ReviewArgs) (now : Int) (tenantId : String) (dimension : ReviewDimension)
    (decision : ReviewDecision) (experience : ExperienceRow) : Except PyError ReviewRow := do
  let reviewId ← productIdentifier args.reviewId "review_id"
  let experienceId ← productIdentifier args.experienceId "experience_id"
  let reviewerId ← productIdentifier args.reviewerId "reviewer_id"
  let rationale ← productText args.rationale "rationale" 10 20000
  let row : ReviewRow :=
    { tenantId, reviewId, experienceId, reviewerId, dimension, decision, rationale
      reviewerRole := upper args.reviewerRole
      experienceSha256 := experience.contentSha256
      createdAt := orNow rt.toPython args.createdAt now
      reviewSha256 := "" }
  return { row with reviewSha256 := Json.sha256Json rt.sha256 (.obj row.core) }

def reviewExperience (args : ReviewArgs) (now : Int) : Operation Unit := do
  let dimension ← orRaise
    (productError ("unsupported review dimension: " ++ upper args.dimension))
    (named ReviewDimension.name reviewDimensions (upper args.dimension))
  let decision ← orRaise (productError ("unsupported review decision: " ++ upper args.decision))
    (named ReviewDecision.name reviewDecisions (upper args.decision))
  require (reviewRoles dimension |>.contains (upper args.reviewerRole))
    (productError ("reviewer role " ++ upper args.reviewerRole ++ " cannot approve dimension " ++
      dimension.name))
  let tenantId ← productIdentifier args.tenantId "tenant_id"
  let experience ← experienceRow tenantId args.experienceId
  let row ← reviewOf rt args now tenantId dimension decision experience
  commit (.review row)

/-! ## Governance events -/

/-- What the digest of an event is taken of. -/
def GovernanceEvent.core (e : GovernanceEvent) : List (String × Json) :=
  [("tenant_id", .str e.tenantId), ("experience_id", .str e.experienceId),
   ("event_type", .str e.eventType.name), ("actor_id", .str e.actorId), ("details", e.details),
   ("created_at", .str e.createdAt)]

def governanceEvent (tenantId experienceId : String) (eventType : GovernanceEventType)
    (actorId : String) (details : Json) (createdAt : String) : Operation Unit := do
  let _ ← experienceRow tenantId experienceId
  let event : GovernanceEvent :=
    { tenantId, experienceId, eventType, actorId, details, createdAt, eventSha256 := "" }
  commit (.event { event with eventSha256 := Json.sha256Json rt.sha256 (.obj event.core) })

structure OverlapCheckArgs where
  tenantId : String
  experienceId : String
  passed : Bool
  report : Json
  actorId : String
  createdAt : Option String := none

def recordOverlapCheck (args : OverlapCheckArgs) (now : Int) : Operation Unit := do
  let tenantId ← productIdentifier args.tenantId "tenant_id"
  let experienceId ← productIdentifier args.experienceId "experience_id"
  let report ← jsonObject args.report "overlap report"
  let actorId ← productIdentifier args.actorId "actor_id"
  governanceEvent rt tenantId experienceId
    (if args.passed then .overlapCheckPassed else .overlapCheckFailed) actorId
    (.obj [("report_sha256", .str (Json.sha256Json rt.sha256 report)), ("report", report)])
    (orNow rt.toPython args.createdAt now)

structure QuarantineArgs where
  tenantId : String
  experienceId : String
  reason : String
  actorId : String
  createdAt : Option String := none

def quarantineExperience (args : QuarantineArgs) (now : Int) : Operation Unit := do
  let tenantId ← productIdentifier args.tenantId "tenant_id"
  let experienceId ← productIdentifier args.experienceId "experience_id"
  let actorId ← productIdentifier args.actorId "actor_id"
  let reason ← productText args.reason "reason" 10 20000
  governanceEvent rt tenantId experienceId .quarantined actorId (.obj [("reason", .str reason)])
    (orNow rt.toPython args.createdAt now)

structure EligibilityArgs where
  tenantId : String
  experienceId : String
  releaseManagerId : String
  rationale : String
  createdAt : Option String := none

/-- The approvals an experience needs. -/
def requiredDimensions (sourceType : SourceType) : List ReviewDimension :=
  [.domain, .safety, .lineage, .training] ++
    if sourceType = .realGovernedAbstraction then [.privacy] else []

/-- The reviewers who approved the dimension. -/
def approvers (reviews : List ReviewRow) (dimension : ReviewDimension) : List String :=
  (reviews.filter fun r => r.dimension = dimension ∧ r.decision = .approve).map ReviewRow.reviewerId

def missingDimensions (sourceType : SourceType) (reviews : List ReviewRow) : List String :=
  sortedSet (((requiredDimensions sourceType).filter fun d =>
    (approvers reviews d).isEmpty).map ReviewDimension.name)

/-- The checks on the row and the reviews that were read. -/
def checkReviews (row : ExperienceRow) (reviews : List ReviewRow) : Except PyError Unit := do
  require (¬ reviews.any fun r => r.decision = .reject)
    (productError "rejected experience cannot become training eligible")
  require (missingDimensions row.sourceType reviews).isEmpty
    (productError ("training eligibility missing approvals: " ++
      ", ".intercalate (missingDimensions row.sourceType reviews)))
  require (¬ (approvers reviews .domain).any fun r => (approvers reviews .safety).contains r)
    (productError "domain and safety approvals require distinct reviewers")

/-- The checks on the events that were read. -/
def checkEvents (events : List GovernanceEvent) : Except PyError Unit := do
  require (latestOverlap events = some .overlapCheckPassed)
    (productError "training eligibility requires a passing overlap check")
  require (¬ recorded events .quarantined)
    (productError "quarantined experience cannot become training eligible")

def approveTrainingEligibility (args : EligibilityArgs) (now : Int) : Operation Unit := do
  let tenantId ← productIdentifier args.tenantId "tenant_id"
  let experienceId ← productIdentifier args.experienceId "experience_id"
  let row ← experienceRow tenantId experienceId
  require (¬ row.isProtected)
    (productError "protected experience cannot become training eligible")
  require (row.evidenceGrade ≠ .unverified)
    (productError "unverified experience cannot become training eligible")
  let reviews ← execute (.reviews (tenantId, experienceId))
  checkReviews row reviews
  let events ← execute (.events (tenantId, experienceId))
  checkEvents events
  let releaseManagerId ← productIdentifier args.releaseManagerId "release_manager_id"
  let rationale ← productText args.rationale "rationale" 10 20000
  governanceEvent rt tenantId experienceId .trainingEligible releaseManagerId
    (.obj [("rationale", .str rationale)]) (orNow rt.toPython args.createdAt now)

/-! ## Training releases -/

structure TrainingReleaseArgs where
  tenantId : String
  releaseId : String
  experienceIds : List String
  modelTarget : String
  releaseManagerId : String
  createdAt : Option String := none

/-- The digest of an experience the release may select. -/
def selectExperience (tenantId experienceId : String) : Operation (String × String) := do
  let state ← experienceState tenantId experienceId
  require (¬ state.row.isProtected)
    (productError "training release cannot include protected experience")
  require (trainingEligible state.events)
    (productError ("experience is not training eligible: " ++ experienceId))
  return (experienceId, state.row.contentSha256)

/-- What the digest of a release is taken of. -/
def TrainingReleaseRow.core (r : TrainingReleaseRow) : List (String × Json) :=
  [("schema_version", .str "actionnet-training-release.v1"), ("tenant_id", .str r.tenantId),
   ("release_id", .str r.releaseId), ("experience_ids", .arr (r.experienceIds.map .str)),
   ("experience_hashes", .obj (r.experienceHashes.map fun e => (e.1, .str e.2))),
   ("model_target", .str r.modelTarget), ("release_manager_id", .str r.releaseManagerId),
   ("created_at", .str r.createdAt), ("binding_authority", .bool false)]

def createTrainingRelease (args : TrainingReleaseArgs) (now : Int) : Operation Unit := do
  let tenantId ← productIdentifier args.tenantId "tenant_id"
  let experienceIds ← stringList args.experienceIds "experience_id"
  require (¬ experienceIds.isEmpty) (productError "training release requires experiences")
  let experienceHashes ← experienceIds.mapM (selectExperience tenantId)
  let releaseId ← productIdentifier args.releaseId "release_id"
  let modelTarget ← productIdentifier args.modelTarget "model_target"
  let releaseManagerId ← productIdentifier args.releaseManagerId "release_manager_id"
  let row : TrainingReleaseRow :=
    { tenantId, releaseId, experienceIds, experienceHashes, modelTarget, releaseManagerId
      createdAt := orNow rt.toPython args.createdAt now
      releaseSha256 := "" }
  commit (.trainingRelease
    { row with releaseSha256 := Json.sha256Json rt.sha256 (.obj row.core) })

end
end Edon.ActionNet
