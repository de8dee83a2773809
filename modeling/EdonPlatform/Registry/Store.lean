import EdonPlatform.Common.Python
import EdonPlatform.Lib.Table
import EdonPlatform.Lib.Sorting
import EdonPlatform.Lib.HashChain
import EdonPlatform.Lib.Interleaving

/- The review registry (edon/registry/store.py, `ReviewRegistry`): candidates of the
   compiler, reviews of them, and the mechanisms promoted from them.

   An operation is a program over statements of the database. What it selects before its
   first write runs outside any transaction; from the first write to the commit nothing
   else gets in between, so that part is one statement here.

   Correspondence (Python ↔ Lean):
     the schema of `_initialize`      ↔ `RegistryDb` and its rows
     `_append_audit`, `verify_audit_chain` ↔ `appendAudit`, `verifyAuditChain`
     `_required_approvals`, `_candidate_status` ↔ `requiredApprovals`, `candidateStatus`
     `register_compiler_run`          ↔ `registerCompilerRun`, its writes `registerTx`
     `submit_review`                  ↔ `submitReview`, its writes `reviewTx`
     `promote`                        ↔ `promote`, its writes `promoteTx`
     `rollback`                       ↔ `rollback`, its writes `rollbackTx`

   A column of JSON text holds the value `json.loads` makes of it. -/
namespace Edon.Registry
open Json Interleaving Fallible

def registryError (message : String) : PyError := ⟨.registryError, message⟩

inductive ReviewDecision where
  | approve | reject | revisionRequired
  deriving DecidableEq, Repr

def ReviewDecision.value : ReviewDecision → String
  | .approve => "APPROVE"
  | .reject => "REJECT"
  | .revisionRequired => "REVISION_REQUIRED"

def reviewDecisions : List ReviewDecision := [.approve, .reject, .revisionRequired]

inductive CandidateStatus where
  | registered | underReview | readyToPromote | revisionRequired | rejected | promoted
  deriving DecidableEq, Repr

def CandidateStatus.name : CandidateStatus → String
  | .registered => "REGISTERED"
  | .underReview => "UNDER_REVIEW"
  | .readyToPromote => "READY_TO_PROMOTE"
  | .revisionRequired => "REVISION_REQUIRED"
  | .rejected => "REJECTED"
  | .promoted => "PROMOTED"

/-! ## The schema -/

structure CompilerRunRow where
  runId : String
  institutionId : String
  inputSha256 : String
  outputSha256 : String
  payload : Json
  createdAt : String
  deriving DecidableEq

structure CandidateRow where
  candidateId : String
  runId : String
  mechanismId : String
  mechanismVersion : String
  riskClass : String
  candidateSha256 : String
  payload : Json
  status : CandidateStatus
  createdAt : String
  deriving DecidableEq

structure ReviewRow where
  reviewId : String
  candidateId : String
  reviewerId : String
  reviewerRole : String
  decision : ReviewDecision
  rationale : String
  resolutions : Dict String String
  candidateSha256 : String
  createdAt : String
  deriving DecidableEq

structure MechanismRow where
  mechanismId : String
  version : String
  candidateId : String
  artifactSha256 : String
  payload : Json
  active : Bool
  promotedAt : String
  deriving DecidableEq

structure AuditRow where
  eventType : String
  entityId : String
  payload : Json
  previousHash : String
  eventHash : String
  createdAt : String
  deriving DecidableEq

def MechanismRow.key (r : MechanismRow) : String × String := (r.mechanismId, r.version)

/-- The tables; the audit is in the order of its `sequence`. -/
structure RegistryDb where
  compilerRuns : Table CompilerRunRow.runId
  candidates : Table CandidateRow.candidateId
  reviews : Table ReviewRow.reviewId
  mechanisms : Table MechanismRow.key
  auditEvents : List AuditRow
  deriving DecidableEq

instance : EmptyCollection RegistryDb := ⟨⟨∅, ∅, ∅, ∅, []⟩⟩

/-! ## The audit -/

def auditJson (eventType entityId : String) (payload : Json) (previousHash timestamp : String) :
    Json :=
  .obj [("event_type", .str eventType),
    ("entity_id", .str entityId),
    ("payload", payload),
    ("previous_hash", .str previousHash),
    ("created_at", .str timestamp)]

section
variable (py : Python)

/-- What `verify_audit_chain` compares. -/
def auditLinks : HashChain.Links AuditRow String where
  genesis := "GENESIS"
  previous := AuditRow.previousHash
  carried := AuditRow.eventHash
  content r := sha256Json py.sha256
    (auditJson r.eventType r.entityId r.payload r.previousHash r.createdAt)

def RegistryDb.verifyAuditChain (db : RegistryDb) : Bool :=
  HashChain.verify (auditLinks py) db.auditEvents

/-- `event_hash` is unique. -/
def appendAudit (eventType entityId : String) (payload : Json) (timestamp : String)
    (db : RegistryDb) : Except PyError RegistryDb :=
  let previousHash := HashChain.last (auditLinks py) db.auditEvents
  let eventHash := sha256Json py.sha256 (auditJson eventType entityId payload previousHash timestamp)
  if db.auditEvents.any (fun r => r.eventHash = eventHash) then
    .error ⟨.integrityError, "UNIQUE constraint failed: audit_events.event_hash"⟩
  else .ok { db with
    auditEvents := db.auditEvents ++
      [⟨eventType, entityId, payload.canon, previousHash, eventHash, timestamp⟩] }
end

/-! ## The status of a candidate -/

def requiredApprovals (riskClass : String) : Nat :=
  if riskClass = "CRITICAL" then 3 else if riskClass = "HIGH" then 2 else 1

/-- The roles that separate the approvals of a candidate. -/
def requiredRoles (riskClass : String) : List String :=
  if riskClass = "HIGH" then ["DOMAIN_REVIEWER", "SAFETY_REVIEWER"]
  else if riskClass = "CRITICAL" then ["DOMAIN_REVIEWER", "SAFETY_REVIEWER", "EXECUTIVE_RISK_OWNER"]
  else []

/-- `set(payload.get("conflict_ids", []))`. -/
def conflictsOf (payload : Json) : Except PyError (List Json) := do
  let ids ← dictGet payload "conflict_ids" (.arr [])
  setOf ids

def approvalsOf (reviews : List ReviewRow) : List ReviewRow :=
  reviews.filter (fun r => r.decision = .approve)

def candidateStatus (reviews : List ReviewRow) (candidate : CandidateRow) :
    Except PyError CandidateStatus :=
  if reviews.any (fun r => r.decision = .reject) then .ok .rejected
  else if reviews.any (fun r => r.decision = .revisionRequired) then .ok .revisionRequired
  else do
    let approvals := approvalsOf reviews
    let roles := approvals.map ReviewRow.reviewerRole
    let conflicts ← conflictsOf candidate.payload
    let resolved := approvals.flatMap (fun r => r.resolutions.keys)
    if requiredApprovals candidate.riskClass ≤ approvals.length ∧
        (∀ role ∈ requiredRoles candidate.riskClass, role ∈ roles) ∧
        (∀ conflict ∈ conflicts, conflict ∈ resolved.map Json.str) then
      .ok .readyToPromote
    else .ok (if reviews = [] then .registered else .underReview)

/-- The order of the reviews of a candidate. -/
def reviewBefore (r s : ReviewRow) : Prop :=
  r.createdAt < s.createdAt ∨ (r.createdAt = s.createdAt ∧ r.reviewId ≤ s.reviewId)

instance : DecidableRel reviewBefore := fun _ _ => inferInstanceAs (Decidable (_ ∨ _ ∧ _))

def RegistryDb.reviewsOf (db : RegistryDb) (candidateId : String) : List ReviewRow :=
  (db.reviews.rows.filter (fun r => r.candidateId = candidateId)).insertionSort reviewBefore

/-! ## Transactions -/

section
variable (py : Python)

/-- One candidate of a report. -/
def registerCandidate (run : CompilerRunRow) (candidate : Json) (db : RegistryDb) :
    Except PyError (String × RegistryDb) := do
  let id ← dictGet candidate "candidate_id" (.str "")
  let candidateId := pyStr py id
  let mechanism ← dictGet candidate "mechanism" (.obj [])
  let binding ← dictGet candidate "binding_authority" .null
  require (candidateId ≠ "" ∧ binding = .bool false)
    (registryError "candidate is missing identity or is not explicitly non-binding")
  let approved ← dictGet mechanism "approved" .null
  require (approved = .bool false)
    (registryError "only unapproved compiler candidates may be registered")
  let mechanismId ← dictGet mechanism "mechanism_id" (.str "")
  let version ← dictGet mechanism "version" (.str "")
  let riskClass ← dictGet mechanism "risk_class" (.str "UNCLASSIFIED")
  let candidateSha256 := sha256Json py.sha256 candidate
  let candidates ← orRaise ⟨.integrityError, "UNIQUE constraint failed: candidates.candidate_id"⟩
    (db.candidates.insert {
      candidateId
      runId := run.runId
      mechanismId := pyStr py mechanismId
      mechanismVersion := pyStr py version
      riskClass := pyStr py riskClass
      candidateSha256
      payload := candidate.canon
      status := .registered
      createdAt := run.createdAt })
  let db ← appendAudit py "CANDIDATE_REGISTERED" candidateId
    (.obj [("candidate_sha256", .str candidateSha256), ("run_id", .str run.runId)])
    run.createdAt { db with candidates }
  return (candidateId, db)

def registerCandidates (run : CompilerRunRow) :
    List Json → RegistryDb → Except PyError (List String × RegistryDb)
  | [], db => .ok ([], db)
  | candidate :: candidates, db => do
    let (candidateId, db) ← registerCandidate py run candidate db
    let (ids, db) ← registerCandidates run candidates db
    return (candidateId :: ids, db)

def registerTx (run : CompilerRunRow) (candidates : List Json) (db : RegistryDb) :
    Except PyError (List String × RegistryDb) := do
  let compilerRuns ← orRaise ⟨.integrityError, "UNIQUE constraint failed: compiler_runs.run_id"⟩
    (db.compilerRuns.insert run)
  let db ← appendAudit py "COMPILER_RUN_REGISTERED" run.runId
    (.obj [("input_sha256", .str run.inputSha256), ("output_sha256", .str run.outputSha256)])
    run.createdAt { db with compilerRuns }
  registerCandidates py run candidates db

def CandidateRow.withStatus (status : CandidateStatus) (r : CandidateRow) : CandidateRow :=
  { r with status }

/-- `UNIQUE(candidate_id, reviewer_id)`. -/
def ReviewRow.clashes (row r : ReviewRow) : Bool :=
  r.candidateId = row.candidateId ∧ r.reviewerId = row.reviewerId

def resolutionsJson (resolutions : Dict String String) : Json :=
  .obj (resolutions.entries.map (fun e => (e.1, .str e.2)))

/-- The writes of `submit_review`, of the candidate as it was read before them. -/
def reviewTx (row : ReviewRow) (candidate : CandidateRow) (db : RegistryDb) :
    Except PyError (CandidateStatus × RegistryDb) := do
  let taken := registryError "reviewer has already reviewed this candidate"
  require (¬ db.reviews.rows.any row.clashes) taken
  let reviews ← orRaise taken (db.reviews.insert row)
  let db ← appendAudit py "CANDIDATE_REVIEWED" row.candidateId
    (.obj [("review_id", .str row.reviewId),
      ("reviewer_id", .str row.reviewerId),
      ("reviewer_role", .str row.reviewerRole),
      ("decision", .str row.decision.value),
      ("resolutions", resolutionsJson row.resolutions),
      ("candidate_sha256", .str row.candidateSha256)]) row.createdAt { db with reviews }
  let status ← candidateStatus (db.reviewsOf row.candidateId) candidate
  return (status, { db with
    candidates := db.candidates.modify row.candidateId (CandidateRow.withStatus status)
      (fun _ => rfl) })

/-- What `promote` writes. `read` is not written: it is the list of the reviews that made
the candidate ready. -/
structure Promotion where
  row : MechanismRow
  promoterId : String
  approvalIds : List String
  read : List ReviewRow
  deriving DecidableEq

def MechanismRow.withActive (active : Bool) (r : MechanismRow) : MechanismRow := { r with active }

theorem MechanismRow.withActive_key (active : Bool) (r : MechanismRow) :
    (r.withActive active).key = r.key := rfl

/-- `UPDATE mechanisms SET active = 0 WHERE mechanism_id = ?`. -/
def deactivate (mechanismId : String) (mechanisms : Table MechanismRow.key) :
    Table MechanismRow.key :=
  mechanisms.update (fun r => r.mechanismId = mechanismId) (MechanismRow.withActive false)
    (MechanismRow.withActive_key false)

def promoteTx (p : Promotion) (db : RegistryDb) : Except PyError (Unit × RegistryDb) := do
  let mechanisms ← orRaise (registryError "mechanism version has already been promoted")
    ((deactivate p.row.mechanismId db.mechanisms).insert p.row)
  let candidates := db.candidates.modify p.row.candidateId (CandidateRow.withStatus .promoted)
    (fun _ => rfl)
  let db ← appendAudit py "MECHANISM_PROMOTED" (p.row.mechanismId ++ "@" ++ p.row.version)
    (.obj [("candidate_id", .str p.row.candidateId),
      ("artifact_sha256", .str p.row.artifactSha256),
      ("promoter_id", .str p.promoterId),
      ("approval_ids", .arr (p.approvalIds.map .str))]) p.row.promotedAt
    { db with mechanisms, candidates }
  return ((), db)

def rollbackTx (mechanismId targetVersion actorId rationale changedAt : String) (db : RegistryDb) :
    Except PyError (Unit × RegistryDb) := do
  let mechanisms := (deactivate mechanismId db.mechanisms).modify (mechanismId, targetVersion)
    (MechanismRow.withActive true) (MechanismRow.withActive_key true)
  let db ← appendAudit py "MECHANISM_ROLLED_BACK" (mechanismId ++ "@" ++ targetVersion)
    (.obj [("actor_id", .str actorId), ("rationale", .str rationale)]) changedAt
    { db with mechanisms }
  return ((), db)

/-! ## Statements -/

inductive Statement where
  | compilerRun (runId : String)
  | runCandidates (runId : String)
  | register (run : CompilerRunRow) (candidates : List Json)
  | candidate (candidateId : String)
  | reviews (candidateId : String)
  | review (row : ReviewRow) (candidate : CandidateRow)
  | promotion (p : Promotion)
  | mechanism (mechanismId version : String)
  | rollback (mechanismId targetVersion actorId rationale changedAt : String)

abbrev Answer : Statement → Type
  | .compilerRun _ => Option CompilerRunRow
  | .runCandidates _ => List String
  | .register _ _ => Except PyError (List String)
  | .candidate _ => Option CandidateRow
  | .reviews _ => List ReviewRow
  | .review _ _ => Except PyError CandidateStatus
  | .promotion _ => Except PyError Unit
  | .mechanism _ _ => Option MechanismRow
  | .rollback _ _ _ _ _ => Except PyError Unit

def execute : (c : Statement) → RegistryDb → Answer c × RegistryDb
  | .compilerRun runId, db => (db.compilerRuns.get runId, db)
  | .runCandidates runId, db =>
    (sortedSet ((db.candidates.rows.filter (fun r => r.runId = runId)).map
      CandidateRow.candidateId), db)
  | .register run candidates, db => transaction (registerTx py run candidates) db
  | .candidate candidateId, db => (db.candidates.get candidateId, db)
  | .reviews candidateId, db => (db.reviewsOf candidateId, db)
  | .review row candidate, db => transaction (reviewTx py row candidate) db
  | .promotion p, db => transaction (promoteTx py p) db
  | .mechanism mechanismId version, db => (db.mechanisms.get (mechanismId, version), db)
  | .rollback mechanismId targetVersion actorId rationale changedAt, db =>
    transaction (rollbackTx py mechanismId targetVersion actorId rationale changedAt) db

abbrev Program := Prog Statement Answer PyError

abbrev sql (c : Statement) : Program (Answer c) := Prog.statement c

/-! ## Operations -/

/-- The candidates of a report: a list that is not empty. -/
def reportCandidates : Json → Except PyError (List Json)
  | .arr (c :: cs) => .ok (c :: cs)
  | _ => .error (registryError "compiler report has no candidates")

def manifestHash : Json → Except PyError String
  | .str s => .ok s
  | _ => .error (registryError "compiler report is missing manifest hashes")

def registerCompilerRun (now : Int) (report : Json) (timestamp : Option String) :
    Program Json := do
  let binding ← dictGet report "binding_authority" .null
  require (binding = .bool false)
    (registryError "compiler report must be explicitly non-binding")
  let qualification ← dictGet report "qualification" (.obj [])
  let passed ← dictGet qualification "passed" .null
  require (truthy passed) (registryError "compiler report must pass technical qualification")
  let id ← dictGet report "compiler_run_id" (.str "")
  let runId := pyStr py id
  require (runId ≠ "") (registryError "compiler report has no run identity")
  let candidates ← dictGet report "candidates" .null
  let candidates ← reportCandidates candidates
  let manifest ← dictGet report "compiler_manifest" (.obj [])
  let inputSha256 ← dictGet manifest "input_sha256" .null
  let outputSha256 ← dictGet manifest "compiled_payload_sha256" .null
  let inputSha256 ← manifestHash inputSha256
  let outputSha256 ← manifestHash outputSha256
  let institutionId ← dictGet report "institution_id" (.str "")
  let existing ← sql (.compilerRun runId)
  match existing with
  | some row =>
    require (row.outputSha256 = outputSha256)
      (registryError "compiler run identity is already bound to different bytes")
    let ids ← sql (.runCandidates runId)
    return .arr (ids.map .str)
  | none =>
    let result ← sql (.register {
      runId
      institutionId := pyStr py institutionId
      inputSha256, outputSha256
      payload := report.canon
      createdAt := orNow py timestamp now } candidates)
    let ids ← result
    return .arr (ids.map .str)

/-- `_candidate_row`. -/
def candidateRow (candidateId : String) : Program CandidateRow := do
  let row ← sql (.candidate candidateId)
  orRaise (registryError ("unknown candidate: " ++ candidateId)) row

structure ReviewArgs where
  candidateId : String
  reviewerId : String
  reviewerRole : String
  decision : String
  rationale : String
  resolutions : Dict String String
  timestamp : Option String
  deriving DecidableEq

def reviewRow (now : Int) (a : ReviewArgs) (decision : ReviewDecision) (candidate : CandidateRow) :
    ReviewRow :=
  let createdAt := orNow py a.timestamp now
  { reviewId := "review-" ++ shortSha256 py (.obj [("candidate_id", .str a.candidateId),
      ("reviewer_id", .str a.reviewerId),
      ("decision", .str decision.value),
      ("candidate_sha256", .str candidate.candidateSha256),
      ("created_at", .str createdAt)])
    candidateId := a.candidateId
    reviewerId := a.reviewerId
    reviewerRole := a.reviewerRole
    decision
    rationale := a.rationale
    resolutions := a.resolutions
    candidateSha256 := candidate.candidateSha256
    createdAt }

def submitReview (now : Int) (a : ReviewArgs) : Program Json := do
  let decision ← orRaise (registryError "unsupported review decision")
    (named ReviewDecision.value reviewDecisions a.decision)
  require (strip a.reviewerId ≠ "" ∧ strip a.reviewerRole ≠ "" ∧ strip a.rationale ≠ "")
    (registryError "reviewer identity, role, and rationale are required")
  let candidate ← candidateRow a.candidateId
  require (candidate.status ≠ .promoted ∧ candidate.status ≠ .rejected)
    (registryError ("candidate cannot be reviewed in status " ++ candidate.status.name))
  let conflicts ← conflictsOf candidate.payload
  require (∀ key ∈ a.resolutions.keys, .str key ∈ conflicts)
    (registryError "review resolutions reference unknown conflicts")
  require (¬ (decision = .approve ∧ conflicts ≠ [] ∧ a.resolutions = ∅))
    (registryError "approving a conflicted candidate requires explicit resolutions")
  let row := reviewRow py now a decision candidate
  let result ← sql (.review row candidate)
  let status ← result
  return .obj [("review_id", .str row.reviewId),
    ("candidate_id", .str row.candidateId),
    ("status", .str status.name)]

/-- The resolutions of the approvals, a later one winning. -/
def mergedResolutions (approvals : List ReviewRow) : Dict String String :=
  approvals.foldl (fun d r => r.resolutions.entries.foldl (fun d e => d.set e.1 e.2) d) ∅

/-- `mechanism[key] = value` for each of the entries. -/
def updated (kvs entries : List (String × Json)) : List (String × Json) :=
  entries.foldl (fun kvs e => Assoc.put kvs e.1 e.2) kvs

/-- The document a promotion makes of the mechanism of a candidate. -/
def promotedMechanism (candidate : CandidateRow) (approvals : List ReviewRow) (promoterId : String)
    (mechanism metadata : List (String × Json)) (facts : Json) : List (String × Json) :=
  updated mechanism [
    ("metadata", .obj (updated metadata [
      ("promoted_from_candidate", .str candidate.candidateId),
      ("candidate_sha256", .str candidate.candidateSha256),
      ("approval_ids", .arr (approvals.map (fun r => .str r.reviewId))),
      ("resolved_conflicts", resolutionsJson (mergedResolutions approvals)),
      ("promoter_id", .str promoterId)])),
    ("approved", .bool true),
    ("facts", facts),
    ("binding_authority", .bool false)]

def promote (now : Int) (candidateId promoterId : String) (timestamp : Option String) :
    Program Json := do
  require (strip promoterId ≠ "") (registryError "promoter identity is required")
  let candidate ← candidateRow candidateId
  let read ← sql (.reviews candidateId)
  let status ← candidateStatus read candidate
  require (status = .readyToPromote)
    (registryError ("candidate is not ready to promote: " ++ status.name))
  let source ← dictIndex candidate.payload "mechanism"
  let mechanism ← dictOf source
  let reviews ← sql (.reviews candidateId)
  let approvals := approvalsOf reviews
  let metadata ← dictOf ((Assoc.find mechanism "metadata").getD (.obj []))
  let facts ← dictGet candidate.payload "facts" (.arr [])
  let document := Json.obj (promotedMechanism candidate approvals promoterId mechanism metadata facts)
  let mechanismId ← dictIndex document "mechanism_id"
  let version ← dictIndex document "version"
  let result ← sql (.promotion {
    row := {
      mechanismId := pyStr py mechanismId
      version := pyStr py version
      candidateId
      artifactSha256 := sha256Json py.sha256 document
      payload := document.canon
      active := true
      promotedAt := orNow py timestamp now }
    promoterId
    approvalIds := approvals.map ReviewRow.reviewId
    read })
  let _ ← result
  return document

def rollback (now : Int) (mechanismId targetVersion actorId rationale : String)
    (timestamp : Option String) : Program Json := do
  let target ← sql (.mechanism mechanismId targetVersion)
  let target ← orRaise (registryError "rollback target does not exist") target
  let result ← sql
    (.rollback mechanismId targetVersion actorId rationale (orNow py timestamp now))
  let _ ← result
  return target.payload

/-- The calls of the registry, each with the time its clock reads. -/
inductive Call where
  | registerCompilerRun (now : Int) (report : Json) (timestamp : Option String)
  | submitReview (now : Int) (a : ReviewArgs)
  | promote (now : Int) (candidateId promoterId : String) (timestamp : Option String)
  | rollback (now : Int) (mechanismId targetVersion actorId rationale : String)
      (timestamp : Option String)

def Call.program : Call → Program Json
  | .registerCompilerRun now report timestamp => Registry.registerCompilerRun py now report timestamp
  | .submitReview now a => Registry.submitReview py now a
  | .promote now candidateId promoterId timestamp =>
    Registry.promote py now candidateId promoterId timestamp
  | .rollback now mechanismId targetVersion actorId rationale timestamp =>
    Registry.rollback py now mechanismId targetVersion actorId rationale timestamp
end

end Edon.Registry
