import EdonPlatform.Platform.Repositories

/- The request handlers of the control plane that move state, proposals and reviews
   (apps/control-plane-api/src/server.ts; packages/platform-core/src/kernel.ts,
   human-review.ts and proposal-generator.ts). A handler runs in one transaction: it
   replies and commits, or throws and changes nothing.

   Correspondence (TypeScript ↔ Lean):
     `binding(body)`                    ↔ `RequestBinding`
     `state`                            ↔ `state`
     `relevantState`                    ↔ `StateValues.relevant`
     `POST /v1/events`                  ↔ `postEvents`
     `POST /v1/proposals`               ↔ `postProposals`
     `POST /v1/reviews`                 ↔ `postReviews`
     `modelReleases`                    ↔ `modelReleases`
     `LogisticsProposalGenerator`       ↔ `generate`
     `DeterministicKernel.evaluateAt`   ↔ `evaluateAt`
     `HumanReviewGate.reevaluate`       ↔ `reevaluate`

   The checks of identity, capability and facility that every route makes before its
   handler are left out, so a request here may be one that they would have refused. -/
namespace Edon.Platform
open Js Fallible

structure RequestBinding where
  actorId : String
  correlationId : String
  traceId : String
  idempotencyKey : String
  expectedStateVersion : Option Number
  requestTimestamp : String

/-- What `actor_memberships` has of the principal. -/
structure Membership where
  active : Bool
  mandateExpiresAt : Option String
  financialLimit : Option Rat

structure Principal where
  actorId : String
  actorType : String
  membership : Option Membership

/-- A request with the time it is handled at, in milliseconds. -/
structure Request where
  body : Value
  bind : RequestBinding
  principal : Principal
  now : Int

structure Reply where
  status : Nat
  body : Value

structure Service where
  js : Runtime
  pg : Postgres
  tenantId : String

/-- A service that stands for examples: every text is the same instant. -/
def Service.sample : Service :=
  ⟨Runtime.sample, ⟨fun _ => some 0, fun a b => decide (a ≤ b)⟩, "northstar"⟩

def contractVersion : String := "2026-09-24.v1"

section
variable (s : Service)

def Request.reply (r : Request) (status : Nat) (data : Value) : Reply :=
  ⟨status, .obj [("data", data), ("meta", .obj [("correlation_id", .str r.bind.correlationId),
    ("contract_version", .str contractVersion)])]⟩

/-- `failureResult`. -/
def Request.failure (r : Request) (code message : String) : Reply :=
  let status :=
    if code = "VALIDATION_FAILED" then 400
    else if code = "PERMISSION_DENIED" then 403
    else if code = "STATE_STALE" then 409
    else 422
  ⟨status, .obj [("error", .obj [("code", .str code), ("message", .str message),
    ("correlation_id", .str r.bind.correlationId)])]⟩

/-- `String(body[key] ?? default)`. -/
def Request.text (r : Request) (key default : String) : Except Thrown String :=
  toText s.js (orDefault (field r.body key) (.str default))

/-- `typeof body[key] === 'string' ? body[key] : bind.request_timestamp`. -/
def Request.timestamp (r : Request) (key : String) : String :=
  match field r.body key with
  | some (.str t) => t
  | _ => r.bind.requestTimestamp

/-- The caller expects another version. -/
def RequestBinding.stale (b : RequestBinding) (version : Int) : Bool :=
  match b.expectedStateVersion with
  | none => false
  | some n => n ≠ .finite version

def state (db : Db) (scopeId : String) : State :=
  project s.js ((db.getEvents s.pg none).filter fun e => e.scopeId = scopeId)

def StateValues.relevant (v : StateValues) : Value :=
  .obj [("memphis_capacity", .num v.memphisCapacity),
    ("commitments_at_risk", .num v.commitmentsAtRisk)]

/-! ## POST /v1/events -/

/-- `body.payload ?? {}`. -/
def Request.payload (r : Request) : Value := orDefault (field r.body "payload") (.obj [])

/-- The event of the observation. -/
def observation (r : Request) (db : Db) : Except Thrown EventEnvelope := do
  let scopeId ← r.text s "scope_id" "memphis-fulfillment"
  let version := (state s db scopeId).version
  let eventId ← r.text s "event_id" ("evt-" ++ toString r.now)
  let incidentId ← r.text s "incident_id" "INC-1042"
  let policyVersion ← r.text s "policy_version" "POL-LOG-07 v18"
  return {
    eventId, tenantId := s.tenantId, eventType := .observationReceived
    actorId := r.bind.actorId, actorType := "CONNECTOR", scopeId, incidentId
    occurredAt := r.timestamp "occurred_at", observedAt := r.timestamp "observed_at"
    availableToControllerAt := r.timestamp "available_to_controller_at"
    recordedAt := r.bind.requestTimestamp, correlationId := r.bind.correlationId
    traceId := r.bind.traceId, stateVersionBefore := version, stateVersionAfter := version
    policyVersion, payload := r.payload, payloadHash := s.js.stableHash r.payload
    previousRecordHash := "sha256:api" }

/-- `admit({ ...payload, evidence_id: payload.evidence_id ?? ... })`. -/
def evidence (event : EventEnvelope) : List EvidenceRecord :=
  admitEvidence (match event.payload with
    | .obj kvs => .obj (Assoc.put kvs "evidence_id"
        (orDefault (Assoc.find kvs "evidence_id") (.str (event.eventId ++ ":evidence"))))
    | _ => .obj [("evidence_id", .str (event.eventId ++ ":evidence"))])

def evidenceEvent (event : EventEnvelope) (record : EvidenceRecord) :
    Except Thrown EventEnvelope := do
  let evidenceId ← toText s.js record.evidenceId
  return { event with
    eventId := event.eventId ++ ":evidence:" ++ evidenceId
    eventType := .evidenceAdmitted
    actorId := "evidence-admission"
    actorType := "SYSTEM"
    causationId := some event.eventId
    payload := record.toJson
    payloadHash := s.js.stableHash record.toJson }

/-- The loop over the admitted evidence. -/
def journalEvidence (event : EventEnvelope) : List EvidenceRecord → Db → Except Thrown Db
  | [], db => .ok db
  | record :: records, db => do
    let admitted ← evidenceEvent s event record
    let (_, db) ← db.appendEvent s.pg admitted
    journalEvidence event records db

/-- The event of the projection, which keeps the hash of the observation's payload. -/
def projection (event : EventEnvelope) (capacity commitments : Number) : EventEnvelope :=
  { event with
    eventId := event.eventId ++ ":state"
    eventType := .stateProjected
    actorId := "control-plane"
    actorType := "SYSTEM"
    stateVersionAfter := event.stateVersionBefore + 1
    causationId := some event.eventId
    payload := .obj [("capacity_units", .num capacity), ("commitments_at_risk", .num commitments)] }

def projectedEvent (event : EventEnvelope) : Except Thrown EventEnvelope := do
  let capacity ← match field event.payload "capacity_units" with
    | some v => toNumber s.js v
    | none => .ok .nan
  let commitments ← toNumber s.js
    (orDefault (field event.payload "commitments_at_risk") (.num (.finite 0)))
  return projection event capacity commitments

/-- `bigint` columns and JSON integers are the same numbers. -/
def projectionMessage (event : EventEnvelope) : OutboxMessage where
  outboxId := "outbox-" ++ event.eventId
  dedupeKey := "event:" ++ event.eventId ++ ":projected"
  topic := "STATE_PROJECTED"
  aggregateId := event.incidentId
  payload := .obj [("event_id", .str event.eventId), ("scope_id", .str event.scopeId),
    ("state_version", integer (event.stateVersionBefore + 1))]
  correlationId := event.correlationId
  traceId := event.traceId
  stateVersion := some (event.stateVersionBefore + 1)

/-- The snapshot is advanced to what the journal projects to now. -/
def putProjection (r : Request) (event : EventEnvelope) (db : Db) : Except Thrown (Reply × Db) := do
  let version := event.stateVersionBefore
  let values := (state s db event.scopeId).values.toJson
  let db ← orRaise .stateConflict
    (db.putState event.scopeId (version + 1) version values (s.js.stableHash values))
  let db ← db.enqueueOutbox r.now (projectionMessage event)
  return (r.reply 201 { event with stateVersionAfter := version + 1 }.toJson, db)

/-- The projection is journaled, or dropped if its id is taken, and the snapshot advanced. -/
def advance (r : Request) (event : EventEnvelope) (db : Db) : Except Thrown (Reply × Db) := do
  let projectedEvent ← projectedEvent s event
  let (_, db) ← db.appendEvent s.pg projectedEvent
  putProjection s r event db

/-- The observation is in the journal; its evidence decides what follows. -/
def admitObservation (r : Request) (event : EventEnvelope) (db : Db) :
    Except Thrown (Reply × Db) := do
  let db ← journalEvidence s event (evidence event) db
  if (evidence event).any EvidenceRecord.admissible then advance s r event db
  else .ok (r.reply 202 (match event.toJson with
    | .obj kvs => .obj (kvs ++ [("admission", .str "RESTRICTED_OR_REJECTED")])
    | v => v), db)

/-- The event is appended; nothing follows where its id is taken. -/
def recordObservation (r : Request) (event : EventEnvelope) (db : Db) :
    Except Thrown (Reply × Db) := do
  match ← db.appendEvent s.pg event with
  | (false, db) => .ok (r.reply 200 event.toJson, db)
  | (true, db) => admitObservation s r event db

/-- What the handler does with the event it made. -/
def submit (r : Request) (event : EventEnvelope) (db : Db) : Except Thrown (Reply × Db) :=
  match db.getIdempotency ("POST:/v1/events:" ++ r.bind.idempotencyKey) with
  | some response => .ok (r.reply 200 response, db)
  | none =>
    if r.bind.stale event.stateVersionBefore then
      .ok (r.failure "STATE_STALE" "Expected state version is stale", db)
    else
      match db.claimIdempotency ("POST:/v1/events:" ++ r.bind.idempotencyKey) event.toJson with
      | (false, response, db) => .ok (r.reply 200 response, db)
      | (true, _, db) => recordObservation s r event db

def postEvents (r : Request) (db : Db) : Except Thrown (Reply × Db) := do
  let event ← observation s r db
  submit s r event db

/-! ## The kernel -/

structure Review where
  approved : Bool
  reviewId : String

def modelInvalid (p : ActionProposal) : Bool :=
  p.assumptions.any fun a => a = "MODEL_TIMEOUT" ∨ a = "MODEL_OUTPUT_INVALID"

def evaluateAt (p : ActionProposal) (currentStateVersion : Int) (mandateLimit : Rat)
    (review : Option Review) : KernelDecision :=
  let stale : Bool := p.stateVersion ≠ currentStateVersion
  let overMandate : Bool := mandateLimit < p.modeledCost
  let disposition :=
    if stale ∨ modelInvalid p then KernelDisposition.abstain
    else match review with
      | none => .approvalRequired
      | some review => if !review.approved then .revise else if overMandate then .deny else .allow
  { decisionId := "DEC-" ++ p.proposalId ++ "-" ++ (review.map Review.reviewId).getD "initial"
    proposalId := p.proposalId
    disposition
    reasonCodes := (if stale then ["STALE_STATE_VERSION"] else []) ++
      (if modelInvalid p then ["MODEL_UNAVAILABLE_OR_INVALID"] else []) ++
      (if overMandate then ["COST_EXCEEDS_MANDATE"] else []) ++ ["MISSING_CARRIER_EVIDENCE"]
    requiredApproval := disposition = .approvalRequired
    evaluatedAt := "1970-01-01T00:00:00.000Z"
    stateVersion := currentStateVersion
    policyVersion := p.policyVersion
    proposalHash := p.proposalHash
    reviewId := review.map Review.reviewId }

def reevaluate (p : ActionProposal) (approved : Bool) (currentStateVersion : Int)
    (mandateLimit : Rat) : KernelDecision :=
  evaluateAt p currentStateVersion mandateLimit (some ⟨approved, "review-" ++ p.proposalId⟩)

/-! ## POST /v1/proposals -/

structure C1Capability where
  capabilityId : String
  qualificationStatus : String
  qualifiedWorkflows : List String
  permittedOperatingModes : List String
  expiresAt : String

structure C1ModelRelease where
  releaseId : String
  adapterHash : String
  actionnetVersion : String
  status : String
  capabilities : List C1Capability

def modelReleases : List C1ModelRelease :=
  [{ releaseId := "c1-shadow-0.9.1", adapterHash := "sha256:no-adapter"
     actionnetVersion := "actionnet-v0.4", status := "QUALIFIED_SHADOW"
     capabilities := [{ capabilityId := "c1.institutional-assessment"
                        qualificationStatus := "QUALIFIED_SHADOW"
                        qualifiedWorkflows := ["logistics.recovery"]
                        permittedOperatingModes := ["SHADOW"]
                        expiresAt := "2026-12-23T00:00:00Z" }] }]

def qualified (status : String) : Bool :=
  status ∈ ["QUALIFIED_SHADOW", "QUALIFIED_ASSISTED", "QUALIFIED_PRODUCTION"]

/-- `Date.parse(text) <= Date.now()`, which is not true of NaN. -/
def Request.past (r : Request) (text : String) : Bool :=
  match s.js.dateParse text with
  | some time => time ≤ r.now
  | none => false

/-- The release and the capability the request names, if they are qualified for it. -/
def activeRelease (r : Request) : Except Thrown (Option (C1ModelRelease × C1Capability)) := do
  let releaseId ← r.text s "release_id" "c1-shadow-0.9.1"
  let capabilityId ← r.text s "capability_id" "c1.institutional-assessment"
  return do
    let release ← modelReleases.find? (fun m => m.releaseId = releaseId)
    let capability ← release.capabilities.find? (fun c => c.capabilityId = capabilityId)
    if qualified release.status ∧ qualified capability.qualificationStatus ∧
        "SHADOW" ∈ capability.permittedOperatingModes ∧ r.past s capability.expiresAt = false ∧
        "logistics.recovery" ∈ capability.qualifiedWorkflows then
      some (release, capability)
    else none

/-- `body[key] && body[key] !== expected`. -/
def Request.mismatch (r : Request) (key expected : String) : Bool :=
  Js.truthy (field r.body key) && !isText (field r.body key) expected

/-- The evidence of the committed state. -/
def committedEvidence (st : State) : List EvidenceRecord :=
  let version := numberText s.js (.finite st.version)
  admitEvidence (.obj [("capacity_units", .num st.values.memphisCapacity),
    ("evidence_id", .str ("state-" ++ version)), ("source", .str "committed-state"),
    ("version", .str ("v" ++ version)),
    ("citation_text", .str "Evidence bound to the committed state version.")])

/-- The assumptions the state of the model adds. -/
def Request.modelAssumptions (r : Request) : List String :=
  if isBool (field r.body "model_timeout") true then ["MODEL_TIMEOUT"]
  else if isBool (field r.body "model_output_valid") false then ["MODEL_OUTPUT_INVALID"]
  else []

/-- What `LogisticsProposalGenerator` creates, in the context of the request. -/
def generate (r : Request) (st : State) (release : C1ModelRelease) (capability : C1Capability)
    (records : List EvidenceRecord) : Except Thrown ActionProposal := do
  let proposalId ← r.text s "proposal_id" "PROP-1042"
  let evidenceIds ← records.mapM fun record => toText s.js record.evidenceId
  let authorityVersion ← r.text s "authority_version" "AUTH-v1"
  let mandateVersion ← r.text s "mandate_version" "MND-v1"
  let commitmentVersion ← r.text s "commitment_version" "CMT-v1"
  let domainPackVersion ← r.text s "domain_pack_version" "logistics-v1"
  return {
    proposalId
    incidentId := "INC-1042"
    objective := "Protect threatened delivery commitments"
    actions := ["Transfer 320 orders to Nashville", "Reserve limited Memphis overtime"]
    modeledCost := 24600
    commitmentsProtected := 4
    assumptions := ["Nashville capacity remains available",
      "Carrier confirmation arrives before cutoff"] ++ r.modelAssumptions
    citations := records.map EvidenceRecord.evidenceId
    stateVersion := st.version
    policyVersion := "POL-LOG-07 v18"
    status := .pendingKernel
    context := {
      tenantId := s.tenantId, incidentId := "INC-1042", stateVersion := st.version
      stateHash := s.js.stableHash st.values.relevant
      evidenceVersions := evidenceIds.zip (records.map EvidenceRecord.version)
      policyVersion := "POL-LOG-07 v18", authorityVersion, mandateVersion, commitmentVersion
      c1Release := release.releaseId, adapterVersion := release.adapterHash
      actionnetVersion := release.actionnetVersion, domainPackVersion
      capabilityId := capability.capabilityId, operatingMode := "SHADOW" } }

/-- The status the kernel leaves the proposal in, and the hash that binds it. -/
def bindProposal (p : ActionProposal) (version : Int) : ActionProposal :=
  let status := if (evaluateAt p version 30000 none).disposition = .approvalRequired then
    .reviewRequired else p.status
  { p with
    status
    proposalHash := some (s.js.stableHash (.obj { p with status }.fields)) }

/-- An event of the proposal's scope at the time of the request. -/
def requestEvent (r : Request) (scopeId incidentId : String) (version : Int)
    (policyVersion : String) : EventEnvelope where
  eventId := ""
  tenantId := s.tenantId
  eventType := .proposalCreated
  actorId := r.principal.actorId
  actorType := r.principal.actorType
  scopeId
  incidentId
  occurredAt := r.bind.requestTimestamp
  observedAt := r.bind.requestTimestamp
  availableToControllerAt := r.bind.requestTimestamp
  recordedAt := r.bind.requestTimestamp
  correlationId := r.bind.correlationId
  traceId := r.bind.traceId
  stateVersionBefore := version
  stateVersionAfter := version
  policyVersion
  payload := .null
  payloadHash := ""
  previousRecordHash := ""

/-- The proposal is new: it, its first decision and their events are written. -/
def recordProposal (r : Request) (scopeId : String) (version : Int) (release : C1ModelRelease)
    (p : ActionProposal) (db : Db) : Except Thrown (Reply × Db) := do
  let decision := evaluateAt p version 30000 none
  let proposalHash := p.proposalHash.getD ""
  let stored : Value := .obj (p.fields ++ [("tenant_id", .str s.tenantId)])
  let db := db.putProposal p
  let db ← db.putKernelDecision s.pg ⟨decision, r.bind.requestTimestamp⟩
  let event := { requestEvent s r scopeId p.incidentId version p.policyVersion with
    modelRelease := some release.releaseId }
  let (_, db) ← db.appendEvent s.pg { event with
    eventId := "proposal:" ++ p.proposalId
    payload := .obj [("proposal", stored)]
    payloadHash := proposalHash
    previousRecordHash := "sha256:proposal" }
  let (_, db) ← db.appendEvent s.pg { event with
    eventId := "decision:" ++ decision.decisionId
    eventType := .kernelDecided
    actorId := "institutional-kernel"
    actorType := "KERNEL"
    payload := decision.toJson
    payloadHash := s.js.stableHash decision.toJson
    previousRecordHash := proposalHash }
  let db ← db.enqueueOutbox r.now {
    outboxId := "outbox-" ++ p.proposalId
    dedupeKey := "proposal:" ++ p.proposalId
    topic := "PROPOSAL_CREATED"
    aggregateId := p.incidentId
    payload := .obj [("proposal_id", .str p.proposalId), ("state_version", integer version)]
    correlationId := r.bind.correlationId
    traceId := r.bind.traceId
    stateVersion := some version }
  return (r.reply 201 stored, db)

/-- The body names a version of a dependency that is not the active one. -/
def Request.inactiveDependency (r : Request) : Bool :=
  r.mismatch "policy_version" "POL-LOG-07 v18" || r.mismatch "authority_version" "AUTH-v1" ||
  r.mismatch "mandate_version" "MND-v1" || r.mismatch "commitment_version" "CMT-v1" ||
  r.mismatch "domain_pack_version" "logistics-v1"

/-- The proposal is created where there is none of its id. -/
def createProposal (r : Request) (scopeId : String) (st : State) (release : C1ModelRelease)
    (capability : C1Capability) (records : List EvidenceRecord) (db : Db) :
    Except Thrown (Reply × Db) := do
  let p ← generate s r st release capability records
  match db.getProposal p.proposalId with
  | some existing =>
    .ok (r.reply 200 (.obj (existing.fields ++ [("tenant_id", .str s.tenantId)])), db)
  | none => recordProposal s r scopeId st.version release (bindProposal s p st.version) db

def postProposals (r : Request) (db : Db) : Except Thrown (Reply × Db) := do
  let scopeId ← r.text s "scope_id" "memphis-fulfillment"
  let st := state s db scopeId
  if r.bind.stale st.version then
    .ok (r.failure "STATE_STALE" "Expected state version is stale", db)
  else if r.inactiveDependency then
    .ok (r.failure "VALIDATION_FAILED" "Proposal dependency version is not active", db)
  else do
    match ← activeRelease s r with
    | none => .ok (r.failure "VALIDATION_FAILED"
        "C1 release is unqualified, expired or outside the requested workflow/mode", db)
    | some (release, capability) =>
      match committedEvidence s st with
      | [] => .ok (r.failure "EVIDENCE_MISSING"
          "No admitted evidence is available for this state version", db)
      | records => createProposal s r scopeId st release capability records db

/-! ## POST /v1/reviews -/

/-- What a review is decided on, once every check has passed. -/
structure Reviewing where
  proposal : ActionProposal
  scopeId : String
  state : State
  mandateLimit : Rat

/-- `String(body.proposal_id)`. -/
def Request.proposalId (r : Request) : Except Thrown String :=
  match field r.body "proposal_id" with
  | none => .ok "undefined"
  | some v => toText s.js v

/-- The review names the hash of the proposal and, where there is one, of its context. -/
def Request.binds (r : Request) (p : ActionProposal) : Bool :=
  Js.truthy (field r.body "proposal_hash") &&
  (match p.proposalHash with
    | some h => isText (field r.body "proposal_hash") h
    | none => false) &&
  (p.context.stateHash = "" || isText (field r.body "context_hash") p.context.stateHash)

/-- The versions the proposal was made under are the active ones. -/
def DecisionContext.active (c : DecisionContext) : Bool :=
  c.policyVersion = "POL-LOG-07 v18" && c.authorityVersion = "AUTH-v1" &&
  c.commitmentVersion = "CMT-v1" && c.domainPackVersion = "logistics-v1"

/-- The reviewer's limit, unless the mandate is expired or revoked. -/
def Request.mandate (r : Request) : Option Rat :=
  match r.principal.membership with
  | some m =>
    if m.active ∧ (m.mandateExpiresAt.elim false fun t => t ≠ "" ∧ r.past s t = true) = false then
      some (m.financialLimit.getD 30000)
    else none
  | none => none

/-- The reply of a review that was decided before. -/
def replay (r : Request) (p : ActionProposal) (db : Db) : Option Reply :=
  match db.getIdempotency ("POST:/v1/reviews:" ++ r.bind.idempotencyKey) with
  | some prior => some (r.reply 200 prior)
  | none =>
    match db.getReview p.proposalId with
    | some _ => (db.getKernelDecision s.pg p.proposalId).map fun d => r.reply 200 d.decision.toJson
    | none => none

/-- The checks of a review of the proposal: a reply, or what is decided on. -/
def checkReview (r : Request) (p : ActionProposal) (db : Db) : Except Thrown (Reply ⊕ Reviewing) :=
  match replay s r p db with
  | some reply => .ok (.inl reply)
  | none =>
    if r.binds p then do
      let scopeId ← r.text s "scope_id" p.context.incidentId
      let st := state s db scopeId
      if p.context.stateHash ≠ s.js.stableHash st.values.relevant then
        .ok (.inl (r.failure "STATE_STALE" "Proposal decision context is stale"))
      else if p.context.active = false then
        .ok (.inl (r.failure "STATE_STALE"
          "Proposal policy or authority context is no longer active"))
      else
        match r.mandate s with
        | none => .ok (.inl (r.failure "MANDATE_INVALID" "Reviewer mandate is expired or revoked"))
        | some limit => .ok (.inr ⟨p, scopeId, st, limit⟩)
    else .ok (.inl (r.failure "VALIDATION_FAILED"
      "Review must bind to the exact proposal and decision context hashes"))

def Request.approved (r : Request) : Bool := isBool (field r.body "approved") true

/-- The decision on the proposal, at the version of the state that was checked. -/
def Reviewing.decision (v : Reviewing) (approved : Bool) : KernelDecision :=
  let p := if v.proposal.context.stateVersion ≠ v.state.version then
    { v.proposal with stateVersion := v.state.version } else v.proposal
  reevaluate p approved v.state.version v.mandateLimit

/-- The decision and the review are written. -/
def recordReview (r : Request) (v : Reviewing) (db : Db) : Except Thrown (Reply × Db) := do
  let p := v.proposal
  let decision := v.decision r.approved
  let db ← db.putKernelDecision s.pg ⟨decision, r.bind.requestTimestamp⟩
  let db := db.putReview {
    reviewId := "review-" ++ p.proposalId, proposalId := p.proposalId, actorId := r.bind.actorId
    approved := r.approved, recordedAt := r.bind.requestTimestamp, proposalHash := p.proposalHash
    contextHash := p.context.stateHash }
  let (_, _, db) := db.claimIdempotency ("POST:/v1/reviews:" ++ r.bind.idempotencyKey)
    decision.toJson
  let (_, db) ← db.appendEvent s.pg {
    requestEvent s r v.scopeId p.incidentId v.state.version p.policyVersion with
    eventId := "authorization-" ++ decision.decisionId
    eventType := .humanReviewed
    payload := .obj ([("principal", .str r.principal.actorId),
      ("capability", .str "review:approve"), ("resource", .str p.proposalId)] ++
      optional "proposal_hash" p.proposalHash ++ [("approved", .bool r.approved),
      ("disposition", .str decision.disposition.name)])
    payloadHash := s.js.stableHash decision.toJson
    previousRecordHash := "sha256:authorization" }
  let db ← db.enqueueOutbox r.now {
    outboxId := "outbox-review-" ++ p.proposalId
    dedupeKey := "review:" ++ p.proposalId ++ ":" ++ p.proposalHash.getD "undefined"
    topic := "KERNEL_REEVALUATION"
    aggregateId := p.incidentId
    payload := .obj ([("proposal_id", .str p.proposalId), ("decision_id", .str decision.decisionId),
      ("state_version", integer v.state.version)] ++ optional "proposal_hash" p.proposalHash)
    correlationId := r.bind.correlationId
    traceId := r.bind.traceId
    stateVersion := some v.state.version }
  return (r.reply 200 decision.toJson, db)

def postReviews (r : Request) (db : Db) : Except Thrown (Reply × Db) := do
  let proposalId ← r.proposalId s
  match db.getProposal proposalId with
  | none => .ok (r.failure "VALIDATION_FAILED" "Proposal not found", db)
  | some p => do
    match ← checkReview s r p db with
    | .inl reply => .ok (reply, db)
    | .inr v => recordReview s r v db

end

end Edon.Platform
