import EdonPlatform.ActionNet.GlobalExperience
import EdonPlatform.ActionNet.Store
import EdonPlatform.Lib.Run

/- Frozen C1 versions and their dispositions (edon/actionnet/network.py): a version is
   registered with the gates of its evaluation, and dispositions are appended to it. The
   latest one is the version's current disposition.

   `record_c1_disposition` looks at the gates when it records eligibility, and at nothing but
   the existence of the rollback target; it never looks at the dispositions there are.
   `safe_iff`: in a run, no revoked version becomes eligible again and no rollback goes to a
   version that is revoked or failed a gate exactly when no accepted call asks for that.

   Correspondence (Python ↔ Lean):
     `EVALUATION_STATES`, `C1_DISPOSITIONS` ↔ `EvaluationState`, `C1Disposition`
     `_text`, `_sha256`, `_timestamp` ↔ `networkText`, `networkSha256`, `networkTimestamp`
     `_audit` ↔ `NetworkDb.audited`
     `register_c1_version`, `c1_version_state`, `record_c1_disposition` ↔ the same names
     one call of the network ↔ `Call`, `next` -/
namespace Edon.LearningNetwork
open ActionNet (Runtime)

/-! ## Versions and dispositions -/

inductive EvaluationState where
  | pass | fail | hold | notTested | notApplicable
  deriving DecidableEq, Repr

def EvaluationState.name : EvaluationState → String
  | .pass => "PASS"
  | .fail => "FAIL"
  | .hold => "HOLD"
  | .notTested => "NOT_TESTED"
  | .notApplicable => "NOT_APPLICABLE"

def evaluationStates : List EvaluationState := [.pass, .fail, .hold, .notTested, .notApplicable]

inductive C1Disposition where
  | shadowEligible | deploymentEligible | rollbackRequired | revoked | archived
  deriving DecidableEq, Repr

def C1Disposition.name : C1Disposition → String
  | .shadowEligible => "SHADOW_ELIGIBLE"
  | .deploymentEligible => "DEPLOYMENT_ELIGIBLE"
  | .rollbackRequired => "ROLLBACK_REQUIRED"
  | .revoked => "REVOKED"
  | .archived => "ARCHIVED"

def c1Dispositions : List C1Disposition :=
  [.shadowEligible, .deploymentEligible, .rollbackRequired, .revoked, .archived]

def C1Disposition.eligible : C1Disposition → Bool
  | .shadowEligible => true
  | .deploymentEligible => true
  | _ => false

structure GlobalReleaseRow where
  releaseId : String
  reservationSha256 : String
  releaseSha256 : String

structure VersionRow where
  modelId : String
  predecessorModelId : Option String
  baseModel : String
  modelLineage : String
  trainingReleaseId : String
  trainingReleaseSha256 : String
  artifactSha256 : String
  adapterSha256 : Option String
  evaluationSha256 : String
  reservationSha256 : String
  licenseId : String
  safetyGate : EvaluationState
  performanceGate : EvaluationState
  transferGate : EvaluationState
  protectedEvaluationComplete : Bool
  createdBy : String
  createdAt : String
  recordSha256 : String

structure DispositionRow where
  modelId : String
  disposition : C1Disposition
  rollbackModelId : Option String
  evidenceRefSha256 : String
  rationale : String
  actorId : String
  createdAt : String
  dispositionSha256 : String

structure AuditRow where
  eventType : String
  entityId : String
  payload : Json
  previousHash : String
  eventHash : String
  createdAt : String

/-- The tables; the dispositions and the audit are in the order of their `sequence`. -/
structure NetworkDb where
  releases : Table GlobalReleaseRow.releaseId
  versions : Table VersionRow.modelId
  dispositions : Table DispositionRow.dispositionSha256
  audit : List AuditRow

/-- A network that has releases, and no versions yet. -/
def NetworkDb.start (releases : Table GlobalReleaseRow.releaseId) (audit : List AuditRow) :
    NetworkDb := ⟨releases, ∅, ∅, audit⟩

/-! ## Checks -/

/-- `_identifier` of a text. -/
def identifierText (value label : String) : Except PyError String :=
  bounded (networkError (label ++ " must contain between 1 and 240 characters")) 240 value

/-- `_text`. -/
def networkText (value label : String) : Except PyError String := do
  let normalized := strip value
  require (10 ≤ normalized.length ∧ normalized.length ≤ 10000)
    (networkError (label ++ " must contain between 10 and 10000 characters"))
  return normalized

/-- `_identifier(value, label) if value else None`. -/
def optionalIdentifier (value : Option String) (label : String) : Except PyError (Option String) :=
  match value with
  | none => .ok none
  | some text => if text = "" then .ok none else (identifierText text label).map some

section
variable (rt : Runtime)

/-- `_sha256`. -/
def networkSha256 (value label : String) : Except PyError String := do
  let normalized := strip value
  require ("sha256:".toList.isPrefixOf normalized.toList && normalized.length = 71 &&
      rt.hexadecimal (String.ofList (normalized.toList.drop 7)))
    (networkError (label ++ " must be a prefixed SHA-256 digest"))
  return normalized

/-- `_timestamp`. -/
def networkTimestamp (value label : String) : Except PyError String :=
  match rt.fromisoformat (replaceZ value) with
  | .invalid => .error (networkError (label ++ " must be an ISO-8601 timestamp"))
  | .naive => .error (networkError (label ++ " must include a timezone"))
  | .instant t => rt.isoformat <$> astimezone t

/-- The hash of an audit event that follows the rows. -/
def auditHash (audit : List AuditRow) (eventType entityId : String) (payload : Json)
    (createdAt : String) : String :=
  Json.sha256Json rt.sha256 (.obj [("event_type", .str eventType), ("entity_id", .str entityId),
    ("payload", payload),
    ("previous_hash", .str ((audit.getLast?.map AuditRow.eventHash).getD "GENESIS")),
    ("created_at", .str createdAt)])

/-- `_audit`. -/
def NetworkDb.audited (db : NetworkDb) (eventType entityId : String) (payload : Json)
    (createdAt : String) : Except PyError NetworkDb :=
  let eventHash := auditHash rt db.audit eventType entityId payload createdAt
  if db.audit.any (fun r => r.eventHash = eventHash) then
    .error ⟨.integrityError, "UNIQUE constraint failed: learning_network_audit.event_hash"⟩
  else .ok { db with
    audit := db.audit ++ [⟨eventType, entityId, payload.canon,
      (db.audit.getLast?.map AuditRow.eventHash).getD "GENESIS", eventHash, createdAt⟩] }

/-! ## Registration -/

structure VersionArgs where
  modelId : String
  baseModel : String
  modelLineage : String
  trainingReleaseId : String
  artifactSha256 : String
  evaluationSha256 : String
  licenseId : String
  safetyGate : String
  performanceGate : String
  transferGate : String
  protectedEvaluationComplete : Bool
  createdBy : String
  predecessorModelId : Option String := none
  adapterSha256 : Option String := none
  institutionSpecificWeightUpdatesRequired : Bool := false
  onlineWeightUpdatesAllowed : Bool := false
  createdAt : Option String := none

/-- The state a gate is given as. -/
def gateOf (value label : String) : Except PyError EvaluationState :=
  orRaise (networkError ("unsupported " ++ label ++ ": " ++ upper value))
    (named EvaluationState.name evaluationStates (upper value))

/-- The manifest of a version, which its record hash is taken of. -/
def VersionRow.core (v : VersionRow) : List (String × Json) :=
  [("schema_version", .str "edon-c1-model-manifest.v1"), ("model_id", .str v.modelId),
   ("architectural_role", .str "C1_LEARNED_MODEL_LAYER"),
   ("historical_name", .str "Cerebrum learned component"),
   ("predecessor_model_id", v.predecessorModelId.elim .null .str),
   ("base_model", .str v.baseModel), ("model_lineage", .str v.modelLineage),
   ("training_release_id", .str v.trainingReleaseId),
   ("training_release_sha256", .str v.trainingReleaseSha256),
   ("artifact_sha256", .str v.artifactSha256), ("evaluation_sha256", .str v.evaluationSha256),
   ("protected_evaluation_reservation_sha256", .str v.reservationSha256),
   ("license_id", .str v.licenseId), ("safety_gate", .str v.safetyGate.name),
   ("performance_gate", .str v.performanceGate.name),
   ("transfer_gate", .str v.transferGate.name),
   ("protected_evaluation_complete", .bool v.protectedEvaluationComplete),
   ("created_by", .str v.createdBy), ("created_at", .str v.createdAt),
   ("status", .str "FROZEN_INTERNAL"), ("deployment_status", .str "NOT_DEPLOYED"),
   ("institution_specific_weight_updates_required", .bool false),
   ("online_weight_updates_allowed", .bool false), ("binding_authority", .bool false)] ++
  v.adapterSha256.elim [] (fun digest => [("adapter_sha256", .str digest)])

/-- The version of a call: what `register_c1_version` computes before it writes. -/
def versionOf (db : NetworkDb) (args : VersionArgs) (now : Int) : Except PyError VersionRow := do
  let modelId ← identifierText args.modelId "model_id"
  require ("C1-".toList.isPrefixOf modelId.toList)
    (networkError "C1 model IDs must begin with C1-")
  require (!args.institutionSpecificWeightUpdatesRequired)
    (networkError "C1 versions cannot require institution-specific weight updates")
  require (!args.onlineWeightUpdatesAllowed)
    (networkError "online production weight updates are prohibited")
  let releaseId ← identifierText args.trainingReleaseId "training_release_id"
  let release ← orRaise (networkError "global training release not found")
    (db.releases.get releaseId)
  let predecessorModelId ← optionalIdentifier args.predecessorModelId "predecessor_model_id"
  require (predecessorModelId.all fun id => (db.versions.get id).isSome)
    (networkError "predecessor C1 version is not registered")
  let safetyGate ← gateOf args.safetyGate "safety_gate"
  let performanceGate ← gateOf args.performanceGate "performance_gate"
  let transferGate ← gateOf args.transferGate "transfer_gate"
  let createdAt ← networkTimestamp rt (orNow rt.toPython args.createdAt now) "created_at"
  let baseModel ← identifierText args.baseModel "base_model"
  let modelLineage ← identifierText args.modelLineage "model_lineage"
  let artifactSha256 ← networkSha256 rt args.artifactSha256 "artifact_sha256"
  let evaluationSha256 ← networkSha256 rt args.evaluationSha256 "evaluation_sha256"
  let licenseId ← identifierText args.licenseId "license_id"
  let createdBy ← identifierText args.createdBy "created_by"
  let adapterSha256 ← args.adapterSha256.mapM fun digest => networkSha256 rt digest "adapter_sha256"
  let version : VersionRow :=
    { modelId, predecessorModelId, baseModel, modelLineage, artifactSha256, adapterSha256
      evaluationSha256, licenseId, safetyGate, performanceGate, transferGate, createdBy, createdAt
      trainingReleaseId := release.releaseId
      trainingReleaseSha256 := release.releaseSha256
      reservationSha256 := release.reservationSha256
      protectedEvaluationComplete := args.protectedEvaluationComplete
      recordSha256 := "" }
  return { version with recordSha256 := Json.sha256Json rt.sha256 (.obj version.core) }

def registerC1Version (args : VersionArgs) (now : Int) (db : NetworkDb) :
    Except PyError (VersionRow × NetworkDb) := do
  let version ← versionOf rt db args now
  require (!db.versions.rows.any fun r => r.recordSha256 = version.recordSha256)
    (networkError "C1 model version already exists")
  let versions ← orRaise (networkError "C1 model version already exists")
    (db.versions.insert version)
  let db ← { db with versions }.audited rt "C1_VERSION_REGISTERED" version.modelId
    (.obj [("record_sha256", .str version.recordSha256),
      ("training_release_sha256", .str version.trainingReleaseSha256)]) version.createdAt
  return (version, db)

/-! ## Dispositions -/

/-- The latest disposition of a version among the rows; none means `NOT_DEPLOYED`. -/
def latestDisposition (rows : List DispositionRow) (modelId : String) : Option C1Disposition :=
  ((rows.filter fun r => r.modelId = modelId).getLast?).map DispositionRow.disposition

/-- `c1_version_state`: the version and its current disposition. -/
def c1VersionState (db : NetworkDb) (modelId : String) :
    Except PyError (VersionRow × Option C1Disposition) := do
  let modelId ← identifierText modelId "model_id"
  let version ← orRaise (networkError "C1 model version not found") (db.versions.get modelId)
  return (version, latestDisposition db.dispositions.rows modelId)

structure DispositionArgs where
  modelId : String
  disposition : String
  evidenceRefSha256 : String
  rationale : String
  actorId : String
  rollbackModelId : Option String := none
  createdAt : Option String := none

/-- The gates a version needs to be eligible. -/
def checkGates (v : VersionRow) : Except PyError Unit := do
  require v.protectedEvaluationComplete (networkError "protected evaluation must be complete")
  require (v.safetyGate = .pass && v.performanceGate = .pass)
    (networkError "safety and performance gates must pass")
  require (v.transferGate = .pass || v.transferGate = .notApplicable)
    (networkError "transfer gate must pass or be not applicable")

/-- What a rollback names, and what nothing else may name. -/
def checkRollback (db : NetworkDb) (modelId : String) (disposition : C1Disposition)
    (rollback : Option String) : Except PyError Unit :=
  if disposition = .rollbackRequired then
    match rollback with
    | none => .error (networkError "rollback disposition requires a target model")
    | some target => do
      require (target ≠ modelId)
        (networkError "rollback target must differ from the current model")
      let _ ← c1VersionState db target
      return ()
  else
    require rollback.isNone (networkError "rollback_model_id is valid only for rollback")

/-- What the digest of a disposition is taken of. -/
def DispositionRow.core (d : DispositionRow) : List (String × Json) :=
  [("schema_version", .str "edon-c1-model-disposition.v1"), ("model_id", .str d.modelId),
   ("disposition", .str d.disposition.name),
   ("rollback_model_id", d.rollbackModelId.elim .null .str),
   ("evidence_ref_sha256", .str d.evidenceRefSha256), ("rationale", .str d.rationale),
   ("actor_id", .str d.actorId), ("created_at", .str d.createdAt),
   ("operational_effect", .bool false), ("binding_authority", .bool false)]

/-- The disposition of a call: what `record_c1_disposition` computes before it writes. -/
def dispositionOf (db : NetworkDb) (args : DispositionArgs) (now : Int) :
    Except PyError DispositionRow := do
  let (version, _) ← c1VersionState db args.modelId
  let disposition ← orRaise
    (networkError ("unsupported C1 disposition: " ++ upper args.disposition))
    (named C1Disposition.name c1Dispositions (upper args.disposition))
  (if disposition.eligible then checkGates version else .ok ())
  let rollbackModelId ← optionalIdentifier args.rollbackModelId "rollback_model_id"
  checkRollback db version.modelId disposition rollbackModelId
  let createdAt ← networkTimestamp rt (orNow rt.toPython args.createdAt now) "created_at"
  let evidenceRefSha256 ← networkSha256 rt args.evidenceRefSha256 "evidence_ref_sha256"
  let rationale ← networkText args.rationale "rationale"
  let actorId ← identifierText args.actorId "actor_id"
  let row : DispositionRow :=
    { modelId := version.modelId, disposition, rollbackModelId, evidenceRefSha256, rationale
      actorId, createdAt, dispositionSha256 := "" }
  return { row with dispositionSha256 := Json.sha256Json rt.sha256 (.obj row.core) }

/-- The audited payload of a disposition. -/
def DispositionRow.payload (d : DispositionRow) : Json :=
  .obj [("disposition", .str d.disposition.name), ("disposition_sha256", .str d.dispositionSha256)]

def recordC1Disposition (args : DispositionArgs) (now : Int) (db : NetworkDb) :
    Except PyError (DispositionRow × NetworkDb) := do
  let row ← dispositionOf rt db args now
  let dispositions ← orRaise ⟨.integrityError,
    "UNIQUE constraint failed: c1_model_dispositions.disposition_sha256"⟩ (db.dispositions.insert row)
  let db ← { db with dispositions }.audited rt "C1_DISPOSITION_RECORDED" row.modelId row.payload
    row.createdAt
  return (row, db)

/-! ## Calls -/

/-- A call of the network, with the time it takes where none is given. -/
inductive Call where
  | registerC1Version (args : VersionArgs) (now : Int)
  | recordC1Disposition (args : DispositionArgs) (now : Int)

def committed {α : Type} (db : NetworkDb) (result : Except PyError (α × NetworkDb)) : NetworkDb :=
  match result with
  | .ok (_, db') => db'
  | .error _ => db

def next (db : NetworkDb) : Call → NetworkDb
  | .registerC1Version args now => committed db (registerC1Version rt args now db)
  | .recordC1Disposition args now => committed db (recordC1Disposition rt args now db)

end

/-! ## The law -/

def VersionRow.failedGate (v : VersionRow) : Bool :=
  v.safetyGate = .fail || v.performanceGate = .fail || v.transferGate = .fail

/-- No revoked version is eligible, and every rollback that was recorded went to a version that
was not revoked then and failed no gate. -/
structure Safe (db : NetworkDb) : Prop where
  revoked : ∀ d ∈ db.dispositions.rows, d.disposition = .revoked →
    ∀ c, latestDisposition db.dispositions.rows d.modelId = some c → c.eligible = false
  rollback : ∀ before d after, db.dispositions.rows = before ++ d :: after →
    d.disposition = .rollbackRequired → ∀ target, d.rollbackModelId = some target →
      latestDisposition before target ≠ some .revoked ∧
        ∃ v, db.versions.get target = some v ∧ v.failedGate = false

/-- The disposition may be recorded: it does not make a version eligible that was ever revoked,
and does not roll back to one that is revoked or failed a gate. -/
structure DispositionRow.Allowed (d : DispositionRow) (db : NetworkDb) : Prop where
  eligible : d.disposition.eligible = true →
    ∀ r ∈ db.dispositions.rows, r.modelId = d.modelId → r.disposition ≠ .revoked
  rollback : d.disposition = .rollbackRequired → ∀ target, d.rollbackModelId = some target →
    latestDisposition db.dispositions.rows target ≠ some .revoked ∧
      ∃ v, db.versions.get target = some v ∧ v.failedGate = false

section
variable (rt : Runtime)

/-- Neither the digest of the disposition nor the hash of its audit event is taken. -/
def Storable (db : NetworkDb) (d : DispositionRow) : Prop :=
  db.dispositions.get d.dispositionSha256 = none ∧
    ∀ r ∈ db.audit, r.eventHash ≠
      auditHash rt db.audit "C1_DISPOSITION_RECORDED" d.modelId d.payload d.createdAt

/-- A call that is accepted asks for nothing that may not be recorded. -/
def Call.Permitted (db : NetworkDb) : Call → Prop
  | .recordC1Disposition args now =>
    ∀ d, dispositionOf rt db args now = .ok d → Storable rt db d → d.Allowed db
  | _ => True

end

/-! ## One call -/

theorem latestDisposition_append (rows : List DispositionRow) (d : DispositionRow)
    (modelId : String) : latestDisposition (rows ++ [d]) modelId =
      if d.modelId = modelId then some d.disposition else latestDisposition rows modelId := by
  unfold latestDisposition
  rw [List.filter_append]
  by_cases h : d.modelId = modelId
  · rw [if_pos h, List.filter_singleton, decide_eq_true h]
    simp
  · rw [if_neg h, List.filter_singleton, decide_eq_false h]
    simp

section
variable {rt : Runtime} {db db' : NetworkDb}

theorem audited_ok {eventType entityId createdAt : String} {payload : Json} :
    db.audited rt eventType entityId payload createdAt = .ok db' ↔
      (∀ r ∈ db.audit, r.eventHash ≠ auditHash rt db.audit eventType entityId payload createdAt) ∧
        db' = { db with audit := db.audit ++ [⟨eventType, entityId, payload.canon,
          (db.audit.getLast?.map AuditRow.eventHash).getD "GENESIS",
          auditHash rt db.audit eventType entityId payload createdAt, createdAt⟩] } := by
  unfold NetworkDb.audited
  dsimp only
  have hany : (db.audit.any fun r => r.eventHash =
      auditHash rt db.audit eventType entityId payload createdAt) = false ↔
      ∀ r ∈ db.audit, r.eventHash ≠ auditHash rt db.audit eventType entityId payload createdAt := by
    simp
  split
  · next h =>
    refine iff_of_false (fun h' => ?_) fun h' => ?_
    · cases h'
    · rw [hany.mpr h'.1] at h
      cases h
  · next h =>
    rw [Except.ok.injEq, and_iff_right (hany.mp (Bool.eq_false_iff.mpr h)), eq_comm]

/-- A registered version joins the others; nothing else changes that the law is about. -/
theorem registerC1Version_ok {args : VersionArgs} {now : Int} {v : VersionRow}
    (h : registerC1Version rt args now db = .ok (v, db')) :
    db'.dispositions = db.dispositions ∧ db.versions.insert v = some db'.versions := by
  obtain ⟨_, _, h⟩ := bind_ok.mp h
  obtain ⟨_, _, h⟩ := bind_ok.mp h
  obtain ⟨versions, hinsert, h⟩ := bind_ok.mp h
  obtain ⟨audited, haudit, h⟩ := bind_ok.mp h
  obtain ⟨-, rfl⟩ := audited_ok.mp haudit
  cases h
  exact ⟨rfl, orRaise_ok.mp hinsert⟩

/-- What a call of `record_c1_disposition` does: nothing, or it appends the disposition. -/
theorem recordC1Disposition_cases (args : DispositionArgs) (now : Int) :
    committed db (recordC1Disposition rt args now db) = db ∧
        (∀ d, dispositionOf rt db args now = .ok d → ¬ Storable rt db d) ∨
      ∃ d, dispositionOf rt db args now = .ok d ∧ Storable rt db d ∧
        (committed db (recordC1Disposition rt args now db)).versions = db.versions ∧
        (committed db (recordC1Disposition rt args now db)).dispositions.rows =
          db.dispositions.rows ++ [d] := by
  cases h : recordC1Disposition rt args now db with
  | error e =>
    refine .inl ⟨rfl, fun d hd hstorable => ?_⟩
    obtain ⟨dispositions, hinsert⟩ := Table.insert_of_get hstorable.1
    have hok : recordC1Disposition rt args now db = .ok (d, _) :=
      bind_ok.mpr ⟨d, hd, bind_ok.mpr ⟨dispositions, orRaise_ok.mpr hinsert,
        bind_ok.mpr ⟨_, audited_ok.mpr ⟨hstorable.2, rfl⟩, rfl⟩⟩⟩
    cases h.symm.trans hok
  | ok r =>
    obtain ⟨d, hd, h⟩ := bind_ok.mp h
    obtain ⟨dispositions, hinsert, h⟩ := bind_ok.mp h
    obtain ⟨audited, haudit, h⟩ := bind_ok.mp h
    obtain ⟨hfree, rfl⟩ := audited_ok.mp haudit
    cases h
    obtain ⟨hrows, hnew⟩ := Table.rows_insert (orRaise_ok.mp hinsert)
    exact .inr ⟨d, hd, ⟨hnew, hfree⟩, rfl, hrows⟩

theorem safe_append {d : DispositionRow} (h : Safe db) (hversions : db'.versions = db.versions)
    (hrows : db'.dispositions.rows = db.dispositions.rows ++ [d]) : Safe db' ↔ d.Allowed db := by
  constructor
  · intro hsafe
    constructor
    · intro heligible r hr hmodel hrevoked
      have hold : r ∈ db'.dispositions.rows := hrows ▸ List.mem_append_left _ hr
      have hlatest : latestDisposition db'.dispositions.rows r.modelId = some d.disposition := by
        rw [hrows, latestDisposition_append, if_pos hmodel.symm]
      rw [hsafe.revoked r hold hrevoked _ hlatest] at heligible
      cases heligible
    · intro hrollback target htarget
      obtain ⟨hlatest, hgates⟩ := hsafe.rollback _ d [] hrows hrollback target htarget
      exact ⟨hlatest, hversions ▸ hgates⟩
  · intro hallowed
    constructor
    · intro r hr hrevoked c hc
      rw [hrows] at hr
      rw [hrows, latestDisposition_append] at hc
      split at hc
      · next hmodel =>
        cases hc
        rcases List.mem_append.mp hr with hr | hr
        · by_contra heligible
          exact hallowed.eligible (Bool.of_not_eq_false heligible) r hr hmodel.symm hrevoked
        · rw [← List.mem_singleton.mp hr, hrevoked]
          rfl
      · next hmodel =>
        rcases List.mem_append.mp hr with hr | hr
        · exact h.revoked r hr hrevoked c hc
        · exact absurd (congrArg DispositionRow.modelId (List.mem_singleton.mp hr)).symm hmodel
    · intro before r after hsplit hrollback target htarget
      rw [hversions]
      rcases List.eq_nil_or_concat after with rfl | ⟨init, last, rfl⟩
      · rw [hrows] at hsplit
        obtain ⟨rfl, hlast⟩ := List.append_inj' hsplit rfl
        cases hlast
        exact hallowed.rollback hrollback target htarget
      · rw [hrows, List.concat_eq_append, ← List.cons_append, ← List.append_assoc] at hsplit
        obtain ⟨hinit, -⟩ := List.append_inj' hsplit rfl
        exact h.rollback before r init hinit hrollback target htarget

theorem safe_next {call : Call} (h : Safe db) : Safe (next rt db call) ↔ call.Permitted rt db := by
  cases call with
  | registerC1Version args now =>
    refine iff_of_true ?_ trivial
    rw [next]
    cases hregister : registerC1Version rt args now db with
    | error e => exact h
    | ok r =>
      obtain ⟨hdispositions, hinsert⟩ := registerC1Version_ok hregister
      show Safe r.2
      constructor
      · rw [hdispositions]
        exact h.revoked
      · intro before d after hsplit hrollback target htarget
        have hsplit : db.dispositions.rows = before ++ d :: after := hdispositions ▸ hsplit
        obtain ⟨hlatest, v, hv, hgates⟩ := h.rollback before d after hsplit hrollback target htarget
        refine ⟨hlatest, v, ?_, hgates⟩
        -- the version that was registered is another one
        have hne : r.1.modelId ≠ target := by
          intro heq
          rw [← heq, (Table.rows_insert hinsert).2] at hv
          cases hv
        exact (Table.get_insert hinsert target).trans ((if_neg hne).trans hv)
  | recordC1Disposition args now =>
    rw [next]
    rcases @recordC1Disposition_cases rt db args now with ⟨hsame, hrefused⟩ |
      ⟨d, hd, hstorable, hversions, hrows⟩
    · rw [hsame]
      exact iff_of_true h fun d hd hstorable => absurd hstorable (hrefused d hd)
    · refine (safe_append h hversions hrows).trans ?_
      constructor
      · intro hallowed d' hd' _
        cases hd.symm.trans hd'
        exact hallowed
      · intro hpermitted
        exact hpermitted d hd hstorable

theorem safe_start (releases : Table GlobalReleaseRow.releaseId) (audit : List AuditRow) :
    Safe (NetworkDb.start releases audit) := by
  constructor
  · intro d hd
    cases hd
  · intro before d after hsplit
    cases before <;> cases hsplit

/-- What the digests in the tables were taken of. -/
structure Hashed (rt : Runtime) (db : NetworkDb) : Prop where
  dispositions : ∀ d ∈ db.dispositions.rows,
    d.dispositionSha256 = Json.sha256Json rt.sha256 (.obj d.core)
  audit : ∀ r ∈ db.audit,
    (∃ before entityId payload createdAt, r.eventHash =
      auditHash rt before "C1_VERSION_REGISTERED" entityId payload createdAt) ∨
    ∃ before, ∃ d ∈ db.dispositions.rows, r.eventHash =
      auditHash rt before "C1_DISPOSITION_RECORDED" d.modelId d.payload d.createdAt

theorem dispositionOf_digest {args : DispositionArgs} {now : Int} {d : DispositionRow}
    (h : dispositionOf rt db args now = .ok d) :
    d.dispositionSha256 = Json.sha256Json rt.sha256 (.obj d.core) := by
  obtain ⟨_, _, h⟩ := bind_ok.mp h
  obtain ⟨_, _, h⟩ := bind_ok.mp h
  obtain ⟨_, _, h⟩ := bind_ok.mp h
  obtain ⟨_, _, h⟩ := bind_ok.mp h
  obtain ⟨_, _, h⟩ := bind_ok.mp h
  obtain ⟨_, _, h⟩ := bind_ok.mp h
  obtain ⟨_, _, h⟩ := bind_ok.mp h
  obtain ⟨_, _, h⟩ := bind_ok.mp h
  obtain ⟨_, _, h⟩ := bind_ok.mp h
  cases h
  rfl

theorem hashed_next {call : Call} (h : Hashed rt db) : Hashed rt (next rt db call) := by
  cases call with
  | registerC1Version args now =>
    rw [next]
    cases hregister : registerC1Version rt args now db with
    | error e => exact h
    | ok r =>
      obtain ⟨_, _, hregister⟩ := bind_ok.mp hregister
      obtain ⟨_, _, hregister⟩ := bind_ok.mp hregister
      obtain ⟨_, _, hregister⟩ := bind_ok.mp hregister
      obtain ⟨_, haudit, hregister⟩ := bind_ok.mp hregister
      obtain ⟨-, rfl⟩ := audited_ok.mp haudit
      cases hregister
      refine ⟨h.dispositions, fun r hr => ?_⟩
      rcases List.mem_append.mp hr with hr | hr
      · exact h.audit r hr
      · rw [List.mem_singleton.mp hr]
        exact .inl ⟨_, _, _, _, rfl⟩
  | recordC1Disposition args now =>
    rw [next]
    cases hrecord : recordC1Disposition rt args now db with
    | error e => exact h
    | ok r =>
      obtain ⟨d, hd, hrecord⟩ := bind_ok.mp hrecord
      obtain ⟨dispositions, hinsert, hrecord⟩ := bind_ok.mp hrecord
      obtain ⟨_, haudit, hrecord⟩ := bind_ok.mp hrecord
      obtain ⟨-, rfl⟩ := audited_ok.mp haudit
      cases hrecord
      have hmem {r : DispositionRow} := Table.mem_insert (s := r) (orRaise_ok.mp hinsert)
      constructor
      · intro r hr
        rcases hmem.mp hr with hr | rfl
        · exact h.dispositions r hr
        · exact dispositionOf_digest hd
      · intro r hr
        rcases List.mem_append.mp hr with hr | hr
        · rcases h.audit r hr with hr | ⟨before, old, hold, hr⟩
          · exact .inl hr
          · exact .inr ⟨before, old, hmem.mpr (.inl hold), hr⟩
        · rw [List.mem_singleton.mp hr]
          exact .inr ⟨_, d, hmem.mpr (.inr rfl), rfl⟩

/-- Objects with one digest have the same value under every key. -/
theorem find_of_digest (hinj : Function.Injective rt.sha256) {kvs kws : List (String × Json)}
    (h : Json.sha256Json rt.sha256 (.obj kvs) = Json.sha256Json rt.sha256 (.obj kws))
    (key : String) : (Assoc.find kvs key).map Json.canon = (Assoc.find kws key).map Json.canon :=
  Json.same_obj_iff.mp (Json.same_of_sha256Json hinj h) key

/-- A disposition is stored when its digest is new: the audit has a hash for it then. -/
theorem storable_of_digest (hinj : Function.Injective rt.sha256) (h : Hashed rt db)
    {d : DispositionRow} (hnew : db.dispositions.get d.dispositionSha256 = none) :
    Storable rt db d := by
  refine ⟨hnew, fun r hr heq => ?_⟩
  rcases h.audit r hr with ⟨_, _, _, _, hhash⟩ | ⟨_, old, hold, hhash⟩
  · have htype := find_of_digest hinj (hhash.symm.trans heq) "event_type"
    revert htype
    simp [Assoc.find, Json.canon]
  · have hpayload := find_of_digest hinj (hhash.symm.trans heq) "payload"
    have hsame : Json.Same old.payload d.payload := by
      simpa [Assoc.find, Json.Same] using hpayload
    have hdigest := Json.same_obj_iff.mp hsame "disposition_sha256"
    have hdigest : old.dispositionSha256 = d.dispositionSha256 := by
      simpa [Assoc.find, Json.canon] using hdigest
    exact Table.get_eq_none.mp hnew old hold hdigest

/-- Dispositions of different kinds have different digests. -/
theorem disposition_of_digest (hinj : Function.Injective rt.sha256) {d e : DispositionRow}
    (h : Json.sha256Json rt.sha256 (.obj d.core) = Json.sha256Json rt.sha256 (.obj e.core)) :
    d.disposition = e.disposition := by
  have hname := find_of_digest hinj h "disposition"
  have hname : d.disposition.name = e.disposition.name := by
    simpa [DispositionRow.core, Assoc.find, Json.canon] using hname
  revert hname
  cases d.disposition <;> cases e.disposition <;> simp [C1Disposition.name]

/-- A disposition is computed from the versions: the recorded ones are read and dropped. -/
theorem dispositionOf_versions {db' : NetworkDb} (h : db'.versions = db.versions)
    (args : DispositionArgs) (now : Int) :
    dispositionOf rt db' args now = dispositionOf rt db args now := by
  simp only [dispositionOf, checkRollback, c1VersionState, h, bind_assoc, pure_bind]

theorem hashed_start (rt : Runtime) (releases : Table GlobalReleaseRow.releaseId) :
    Hashed rt (NetworkDb.start releases []) := by
  constructor
  · intro d hd
    cases hd
  · intro r hr
    cases hr

/-- A disposition of a kind that is not there yet is stored. -/
theorem storable_of_kind (hinj : Function.Injective rt.sha256) (h : Hashed rt db)
    {args : DispositionArgs} {now : Int} {d : DispositionRow}
    (hd : dispositionOf rt db args now = .ok d)
    (hnew : ∀ r ∈ db.dispositions.rows, r.disposition ≠ d.disposition) : Storable rt db d := by
  refine storable_of_digest hinj h (Table.get_eq_none.mpr fun r hr heq => hnew r hr ?_)
  refine disposition_of_digest hinj ?_
  rw [← h.dispositions r hr, ← dispositionOf_digest hd]
  exact heq

/-- A version that is revoked and asked for as eligible, where its gates passed: the network is no
longer safe. -/
theorem revoked_again (hinj : Function.Injective rt.sha256) (hhashed : Hashed rt db)
    (hsafe : Safe db) (hempty : db.dispositions.rows = []) {revoke eligible : DispositionArgs}
    {d e : DispositionRow} (hrevoke : dispositionOf rt db revoke 1 = .ok d)
    (hrevoked : d.disposition = .revoked) (heligible : dispositionOf rt db eligible 2 = .ok e)
    (hshadow : e.disposition.eligible = true) (hsame : d.modelId = e.modelId) :
    ¬ Safe (next rt (next rt db (.recordC1Disposition revoke 1))
      (.recordC1Disposition eligible 2)) := by
  have hstorable : Storable rt db d := by
    refine storable_of_kind hinj hhashed hrevoke fun r hr => ?_
    rw [hempty] at hr
    cases hr
  have hallowed : d.Allowed db := by
    constructor
    · intro h
      rw [hrevoked] at h
      cases h
    · intro h
      cases hrevoked.symm.trans h
  have hstep := @safe_next rt db (.recordC1Disposition revoke 1) hsafe
  have hsafe' : Safe (next rt db (.recordC1Disposition revoke 1)) := by
    refine hstep.mpr fun d' hd' _ => ?_
    cases hrevoke.symm.trans hd'
    exact hallowed
  have hnext : next rt db (.recordC1Disposition revoke 1) =
    committed db (recordC1Disposition rt revoke 1 db) := by rw [next]
  rcases @recordC1Disposition_cases rt db revoke 1 with ⟨-, hrefused⟩ |
    ⟨d', hd', -, hversions, hrows⟩
  · exact absurd hstorable (hrefused d hrevoke)
  · cases hrevoke.symm.trans hd'
    rw [← hnext] at hversions hrows
    rw [hempty, List.nil_append] at hrows
    intro h
    have hpermitted := (@safe_next rt _ (.recordC1Disposition eligible 2) hsafe').mp h
    have he := (@dispositionOf_versions rt _ _ hversions eligible 2).trans heligible
    have hnew : ∀ r ∈ (next rt db (.recordC1Disposition revoke 1)).dispositions.rows,
        r.disposition ≠ e.disposition := by
      intro r hr heq
      rw [hrows, List.mem_singleton] at hr
      rw [← heq, hr, hrevoked] at hshadow
      cases hshadow
    have hallowed := hpermitted e he
      (storable_of_kind hinj (hashed_next hhashed) he hnew)
    refine hallowed.eligible hshadow d ?_ hsame hrevoked
    rw [hrows]
    exact List.mem_singleton.mpr rfl

end

/-! ### A version that is revoked -/

/-- A runtime whose digest of a text is the text. -/
def clockRuntime : Runtime where
  repr _ := ""
  sha256 text := text
  fromisoformat _ := .instant 0
  isoformat _ := "2026-01-01T00:00:00+00:00"
  lower text := text
  hexadecimal _ := true

def digest : String := "sha256:" ++ String.ofList (List.replicate 64 'a')

def frozenRelease : Table GlobalReleaseRow.releaseId := ⟨[⟨"r", "q", "s"⟩], by decide⟩

def versionOne : VersionArgs where
  modelId := "C1-v1"
  baseModel := "b"
  modelLineage := "l"
  trainingReleaseId := "r"
  artifactSha256 := digest
  evaluationSha256 := digest
  licenseId := "l"
  safetyGate := "PASS"
  performanceGate := "PASS"
  transferGate := "PASS"
  protectedEvaluationComplete := true
  createdBy := "m"

def asks (disposition : String) : DispositionArgs where
  modelId := "C1-v1"
  disposition := disposition
  evidenceRefSha256 := digest
  rationale := "as decided"
  actorId := "m"

/-- The network with the version. -/
def registered : NetworkDb :=
  next clockRuntime (NetworkDb.start frozenRelease []) (.registerC1Version versionOne 0)

end Edon.LearningNetwork
