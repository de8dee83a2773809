import EdonPlatform.Platform.Events
import EdonPlatform.Platform.Outbox
import EdonPlatform.Lib.Dict
import EdonPlatform.Lib.Fallible

/- The tables of one tenant that the request handlers read and write
   (packages/platform-core/src/repositories.ts, `PostgreSQLPlatformRepositories`;
   migrations 001 to 008).

   Correspondence (TypeScript ↔ Lean):
     `journal_events`       ↔ `Db.journal`       (`appendEvent`, `getEvents`)
     `state_snapshots`      ↔ `Db.snapshots`     (`getState`, `putState`)
     `idempotency_keys`     ↔ `Db.idempotency`   (`getIdempotency`, `claimIdempotency`)
     `transactional_outbox` ↔ `Db.outbox`        (`enqueueOutbox`)
     `proposals`            ↔ `Db.proposals`     (`getProposal`, `putProposal`)
     `human_reviews`        ↔ `Db.reviews`       (`getReview`, `putReview`)
     `kernel_decisions`     ↔ `Db.decisions`     (`getKernelDecision`, `putKernelDecision`)

   A statement that fails throws, and the transaction it is in then changes nothing.
   The journal keeps the payload of an event as `jsonb` gives it back. The tables that
   are written and never read by a handler here (evidence records and their links,
   state diffs, incidents) are left out. -/
namespace Edon.Platform
open Js Fallible

/-- What the database supplies: the instant a text denotes as a `timestamptz`, if it
denotes one, and whether a text collates before another or equally. -/
structure Postgres where
  instant : String → Option Int
  collate : String → String → Bool

structure DecisionContext where
  tenantId : String
  incidentId : String
  stateVersion : Int
  stateHash : String
  evidenceVersions : Fields
  policyVersion : String
  authorityVersion : String
  mandateVersion : String
  commitmentVersion : String
  c1Release : String
  adapterVersion : String
  actionnetVersion : String
  domainPackVersion : String
  capabilityId : String
  operatingMode : String

inductive ProposalStatus where
  | draft
  | pendingKernel
  | reviewRequired
  | shadowRecorded
  deriving DecidableEq, Repr

def ProposalStatus.name : ProposalStatus → String
  | .draft => "DRAFT"
  | .pendingKernel => "PENDING_KERNEL"
  | .reviewRequired => "REVIEW_REQUIRED"
  | .shadowRecorded => "SHADOW_RECORDED"

/-- A stored proposal has a context and a hash, which `POST /v1/proposals` sets. -/
structure ActionProposal where
  proposalId : String
  incidentId : String
  objective : String
  actions : List String
  modeledCost : Rat
  commitmentsProtected : Int
  assumptions : List String
  citations : List Value
  stateVersion : Int
  policyVersion : String
  status : ProposalStatus
  context : DecisionContext
  proposalHash : Option String := none

inductive KernelDisposition where
  | allow
  | deny
  | abstain
  | escalate
  | revise
  | reassign
  | approvalRequired
  deriving DecidableEq, Repr

def KernelDisposition.name : KernelDisposition → String
  | .allow => "ALLOW"
  | .deny => "DENY"
  | .abstain => "ABSTAIN"
  | .escalate => "ESCALATE"
  | .revise => "REVISE"
  | .reassign => "REASSIGN"
  | .approvalRequired => "APPROVAL_REQUIRED"

structure KernelDecision where
  decisionId : String
  proposalId : String
  disposition : KernelDisposition
  reasonCodes : List String
  requiredApproval : Bool
  evaluatedAt : String
  stateVersion : Int
  policyVersion : String
  proposalHash : Option String
  reviewId : Option String

/-- A decision with the time it was recorded at. -/
structure StoredKernelDecision where
  decision : KernelDecision
  recordedAt : String

def StoredKernelDecision.decisionId (d : StoredKernelDecision) : String := d.decision.decisionId

structure StoredReview where
  reviewId : String
  proposalId : String
  actorId : String
  approved : Bool
  recordedAt : String
  proposalHash : Option String
  contextHash : String

structure Snapshot where
  version : Int
  values : Value
  stateHash : String

structure Db where
  journal : Table EventEnvelope.eventId := ∅
  snapshots : Dict String Snapshot := ∅
  idempotency : Dict String Value := ∅
  outbox : Outbox := ∅
  proposals : Table ActionProposal.proposalId := ∅
  reviews : Table StoredReview.reviewId := ∅
  decisions : Table StoredKernelDecision.decisionId := ∅

def texts (l : List String) : Value := .arr (l.map .str)

def DecisionContext.toJson (c : DecisionContext) : Value :=
  .obj [("tenant_id", .str c.tenantId), ("incident_id", .str c.incidentId),
    ("state_version", integer c.stateVersion), ("state_hash", .str c.stateHash),
    ("evidence_versions", .obj c.evidenceVersions), ("policy_version", .str c.policyVersion),
    ("authority_version", .str c.authorityVersion), ("mandate_version", .str c.mandateVersion),
    ("commitment_version", .str c.commitmentVersion), ("c1_release", .str c.c1Release),
    ("adapter_version", .str c.adapterVersion), ("actionnet_version", .str c.actionnetVersion),
    ("domain_pack_version", .str c.domainPackVersion), ("capability_id", .str c.capabilityId),
    ("operating_mode", .str c.operatingMode)]

def ActionProposal.fields (p : ActionProposal) : Fields :=
  [("proposal_id", .str p.proposalId), ("incident_id", .str p.incidentId),
    ("objective", .str p.objective), ("actions", texts p.actions),
    ("modeled_cost", .num (.finite p.modeledCost)),
    ("commitments_protected", integer p.commitmentsProtected),
    ("assumptions", texts p.assumptions), ("citations", .arr p.citations),
    ("state_version", integer p.stateVersion), ("policy_version", .str p.policyVersion),
    ("status", .str p.status.name), ("context", p.context.toJson)] ++
    optional "proposal_hash" p.proposalHash

def KernelDecision.toJson (d : KernelDecision) : Value :=
  .obj ([("decision_id", .str d.decisionId), ("proposal_id", .str d.proposalId),
    ("disposition", .str d.disposition.name), ("reason_codes", texts d.reasonCodes),
    ("required_approval", .bool d.requiredApproval), ("evaluated_at", .str d.evaluatedAt),
    ("state_version", integer d.stateVersion), ("policy_version", .str d.policyVersion)] ++
    optional "proposal_hash" d.proposalHash ++ optional "review_id" d.reviewId ++
    [("simulated", .bool true)])

section
variable (pg : Postgres)

/-- The value of a `timestamptz` column. -/
def timestamptz (text : String) : Except Thrown Int := orRaise .database (pg.instant text)

/-- The event as it is read back from the journal. -/
def EventEnvelope.journaled (e : EventEnvelope) : EventEnvelope :=
  { e with payload := stored e.payload }

/-- Whether the event was appended; an event whose id is taken is dropped. -/
def Db.appendEvent (e : EventEnvelope) (db : Db) : Except Thrown (Bool × Db) := do
  let _ ← timestamptz pg e.recordedAt
  return match db.journal.insert e.journaled with
    | some journal => (true, { db with journal })
    | none => (false, db)

/-- `ORDER BY recorded_at, event_id`. -/
def recordedBefore (a b : EventEnvelope) : Prop :=
  (pg.instant a.recordedAt).getD 0 < (pg.instant b.recordedAt).getD 0 ∨
    ((pg.instant a.recordedAt).getD 0 = (pg.instant b.recordedAt).getD 0 ∧
      pg.collate a.eventId b.eventId = true)

instance : DecidableRel (recordedBefore pg) := fun _ _ =>
  inferInstanceAs (Decidable (_ < _ ∨ (_ = _ ∧ _ = _)))

def Db.getEvents (incidentId : Option String) (db : Db) : List EventEnvelope :=
  (db.journal.rows.filter fun e => incidentId.all (e.incidentId = ·)).insertionSort
    (recordedBefore pg)

def Db.getState (scopeId : String) (db : Db) : Option Snapshot := db.snapshots.get scopeId

/-- The update of the row with the expected version or, where it selects none, the insert
of a row where there is none. Nothing where neither takes place. -/
def Db.putState (scopeId : String) (version expectedVersion : Int) (values : Value)
    (stateHash : String) (db : Db) : Option Db :=
  let put : Db := { db with
    snapshots := db.snapshots.set scopeId ⟨version, stored values, stateHash⟩ }
  if version = expectedVersion + 1 then
    match db.snapshots.get scopeId with
    | some row => if row.version = expectedVersion then some put else none
    | none => some put
  else none

def Db.getIdempotency (key : String) (db : Db) : Option Value := db.idempotency.get key

/-- Whether the key was free, with the response that is now stored under it. -/
def Db.claimIdempotency (key : String) (response : Value) (db : Db) : Bool × Value × Db :=
  match db.idempotency.get key with
  | none => (true, response, { db with idempotency := db.idempotency.set key (stored response) })
  | some response => (false, response, db)

def Db.enqueueOutbox (now : Int) (message : OutboxMessage) (db : Db) : Except Thrown Db := do
  let (_, outbox) ← Platform.enqueueOutbox now { message with payload := stored message.payload }
    db.outbox
  return { db with outbox }

def Db.getProposal (proposalId : String) (db : Db) : Option ActionProposal :=
  db.proposals.get proposalId

def Db.putProposal (p : ActionProposal) (db : Db) : Db :=
  match db.proposals.insert p with
  | some proposals => { db with proposals }
  | none => db

/-- The last review of the proposal. -/
def Db.getReview (proposalId : String) (db : Db) : Option StoredReview :=
  db.reviews.rows.reverse.find? (fun r => r.proposalId = proposalId)

def Db.putReview (r : StoredReview) (db : Db) : Db :=
  match db.reviews.insert r with
  | some reviews => { db with reviews }
  | none => db

/-- `ORDER BY recorded_at DESC, decision_id DESC`, read from its end. -/
def decidedBefore (a b : StoredKernelDecision) : Prop :=
  (pg.instant a.recordedAt).getD 0 < (pg.instant b.recordedAt).getD 0 ∨
    ((pg.instant a.recordedAt).getD 0 = (pg.instant b.recordedAt).getD 0 ∧
      pg.collate a.decisionId b.decisionId = true)

instance : DecidableRel (decidedBefore pg) := fun _ _ =>
  inferInstanceAs (Decidable (_ < _ ∨ (_ = _ ∧ _ = _)))

/-- The last decision on the proposal. -/
def Db.getKernelDecision (proposalId : String) (db : Db) : Option StoredKernelDecision :=
  Sorting.latest (decidedBefore pg)
    (db.decisions.rows.filter fun d => d.decision.proposalId = proposalId)

def Db.putKernelDecision (d : StoredKernelDecision) (db : Db) : Except Thrown Db := do
  let _ ← timestamptz pg d.recordedAt
  return match db.decisions.insert d with
    | some decisions => { db with decisions }
    | none => db

end

end Edon.Platform
