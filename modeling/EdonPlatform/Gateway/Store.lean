import EdonPlatform.Gateway.Protocols
import EdonPlatform.Lib.Interleaving
import EdonPlatform.Lib.Table

/- The store of the agent gateway (edon/gateway/store.py, `AgentGatewayStore`) and the calls
   of the service over it (edon/gateway/service.py, `AgentGateway`).

   A call is a program over statements of the database. What it selects before its first write
   runs outside any transaction; from the first write to the commit nothing else gets in
   between, so that part is one statement here. The span a gateway call returns with its receipt
   is left out.

   Correspondence (Python ↔ Lean):
     the schema of `_initialize`          ↔ `GatewayDb` and its rows
     `_append_audit`                      ↔ `appendAudit`
     `register_connector`                 ↔ `registerConnector`, its writes `registerTx`
     `set_connector_status`               ↔ `setConnectorStatus`, its writes `statusTx`
     `record_envelope`                    ↔ `recordEnvelope`, its writes `recordTx`
     `_normalize`, `ingest`, `stage_egress` ↔ `envelopeOf`, `gatewayCall` -/
namespace Edon.Gateway
open PyValue Fallible Interleaving

abbrev ConnectorKey := Identifier × Identifier

structure ConnectorRow where
  profile : ConnectorProfile
  profileSha256 : String
  status : ConnectorStatus
  securityReviewRef : Option String
  createdAt : String
  updatedAt : String

/-- The columns of the primary key are those of the profile. -/
def ConnectorRow.key (r : ConnectorRow) : ConnectorKey :=
  (r.profile.tenantId, r.profile.connectorId)

inductive ReceiptStatus where
  | acceptedShadowOnly | stagedNotDelivered
  deriving DecidableEq, Repr

def ReceiptStatus.name : ReceiptStatus → String
  | .acceptedShadowOnly => "ACCEPTED_SHADOW_ONLY"
  | .stagedNotDelivered => "STAGED_NOT_DELIVERED"

structure Receipt where
  status : ReceiptStatus
  messageId : Identifier
  tenantId : Identifier
  connectorId : Identifier
  direction : Direction
  envelopeSha256 : String

structure MessageRow where
  envelope : GatewayEnvelope
  envelopeSha256 : String
  receipt : Receipt
  createdAt : String

def GatewayEnvelope.connector (e : GatewayEnvelope) : ConnectorKey := (e.tenantId, e.connectorId)

def GatewayEnvelope.byKey (e : GatewayEnvelope) : ConnectorKey × Direction × Identifier :=
  (e.connector, e.direction, e.idempotencyKey)

def GatewayEnvelope.byMessage (e : GatewayEnvelope) : ConnectorKey × Direction × Identifier :=
  (e.connector, e.direction, e.messageId)

/-- The second `UNIQUE` constraint; the first is checked when a row is inserted. -/
def MessageRow.key (r : MessageRow) : ConnectorKey × Direction × Identifier := r.envelope.byKey

structure AuditRow where
  tenantId : String
  eventType : String
  entityId : String
  payload : PyValue
  previousHash : String
  eventHash : String
  createdAt : String

structure GatewayDb where
  connectors : Table ConnectorRow.key
  messages : Table MessageRow.key
  audit : List AuditRow

instance : EmptyCollection GatewayDb := ⟨⟨∅, ∅, []⟩⟩

def integrityError (message : String) : PyError := ⟨.integrityError, message⟩

section
variable (rt : GatewayRuntime)

/-- `_append_audit`. -/
def appendAudit (tenantId eventType entityId : String) (payload : List (String × PyValue))
    (createdAt : String) (audit : List AuditRow) : Except PyError (List AuditRow) :=
  let previousHash := (audit.getLast?.map AuditRow.eventHash).getD "GENESIS"
  let auditPayload : PyValue := .dict (("tenant_id", .str tenantId) :: payload)
  let eventHash := sha256Json rt.toInterpreter (.dict
    [("tenant_id", .str tenantId),
     ("event_type", .str eventType),
     ("entity_id", .str entityId),
     ("payload", auditPayload),
     ("previous_hash", .str previousHash),
     ("created_at", .str createdAt)])
  if audit.any (fun r => r.eventHash = eventHash) then
    .error (integrityError "UNIQUE constraint failed: gateway_audit.event_hash")
  else .ok (audit ++ [{ tenantId, eventType, entityId, payload := auditPayload, previousHash
                        eventHash, createdAt }])

/-- The writes of `register_connector`. -/
def registerTx (profile : ConnectorProfile) (actorId : Identifier) (createdAt : String)
    (db : GatewayDb) : Except PyError (ConnectorRow × GatewayDb) := do
  let row : ConnectorRow :=
    { profile
      profileSha256 := sha256Json rt.toInterpreter profile.asDict
      status := .disabled
      securityReviewRef := none
      createdAt
      updatedAt := createdAt }
  let connectors ← orRaise (integrityError
    "UNIQUE constraint failed: gateway_connectors.tenant_id, gateway_connectors.connector_id")
    (db.connectors.insert row)
  let audit ← appendAudit rt profile.tenantId.text "CONNECTOR_REGISTERED" profile.connectorId.text
    [("actor_id", .str actorId.text), ("profile_sha256", .str row.profileSha256),
     ("status", .str "DISABLED")] createdAt db.audit
  return (row, { db with connectors, audit })

/-- What `set_connector_status` writes. -/
structure StatusWrite where
  connector : ConnectorKey
  status : ConnectorStatus
  review : Option String
  previousStatus : ConnectorStatus
  actorId : Identifier
  updatedAt : String

def StatusWrite.apply (w : StatusWrite) (r : ConnectorRow) : ConnectorRow :=
  { r with status := w.status, securityReviewRef := w.review, updatedAt := w.updatedAt }

/-- The writes of `set_connector_status`. -/
def statusTx (w : StatusWrite) (db : GatewayDb) :
    Except PyError (Option ConnectorRow × GatewayDb) := do
  let connectors := db.connectors.modify w.connector w.apply (fun _ => rfl)
  let audit ← appendAudit rt w.connector.1.text "CONNECTOR_STATUS_CHANGED" w.connector.2.text
    [("actor_id", .str w.actorId.text), ("previous_status", .str w.previousStatus.name),
     ("status", .str w.status.name),
     ("security_review_ref", (w.review.map PyValue.str).getD .null)] w.updatedAt db.audit
  return (connectors.get w.connector, { db with connectors, audit })

def receiptFor (e : GatewayEnvelope) (status : ReceiptStatus) : Receipt where
  status
  messageId := e.messageId
  tenantId := e.tenantId
  connectorId := e.connectorId
  direction := e.direction
  envelopeSha256 := e.sha256 rt

/-- The writes of `record_envelope`. -/
def recordTx (e : GatewayEnvelope) (status : ReceiptStatus) (actorId : Identifier)
    (createdAt : String) (db : GatewayDb) : Except PyError (Receipt × GatewayDb) := do
  require (db.messages.rows.all (fun r => r.envelope.byMessage ≠ e.byMessage))
    (integrityError ("UNIQUE constraint failed: gateway_messages.tenant_id, " ++
      "gateway_messages.connector_id, gateway_messages.direction, gateway_messages.message_id"))
  let receipt := receiptFor rt e status
  let messages ← orRaise (integrityError ("UNIQUE constraint failed: gateway_messages.tenant_id, " ++
    "gateway_messages.connector_id, gateway_messages.direction, gateway_messages.idempotency_key"))
    (db.messages.insert { envelope := e, envelopeSha256 := e.sha256 rt, receipt, createdAt })
  require (db.connectors.get e.connector).isSome (integrityError "FOREIGN KEY constraint failed")
  let audit ← appendAudit rt e.tenantId.text "GATEWAY_MESSAGE_RECORDED" e.messageId.text
    [("actor_id", .str actorId.text), ("connector_id", .str e.connectorId.text),
     ("direction", .str e.direction.name), ("envelope_sha256", .str (e.sha256 rt)),
     ("receipt_status", .str status.name)] createdAt db.audit
  return (receipt, { db with messages, audit })

/-! ## Statements -/

inductive Statement where
  | connector (key : ConnectorKey)
  | register (profile : ConnectorProfile) (actorId : Identifier) (createdAt : String)
  | setStatus (w : StatusWrite)
  | byIdempotencyKey (e : GatewayEnvelope)
  | byMessageId (e : GatewayEnvelope)
  | record (e : GatewayEnvelope) (status : ReceiptStatus) (actorId : Identifier)
    (createdAt : String)

abbrev Answer : Statement → Type
  | .connector _ => Option ConnectorRow
  | .register _ _ _ => Except PyError ConnectorRow
  | .setStatus _ => Except PyError (Option ConnectorRow)
  | .byIdempotencyKey _ => Option MessageRow
  | .byMessageId _ => Option MessageRow
  | .record _ _ _ _ => Except PyError Receipt

def execute : (c : Statement) → GatewayDb → Answer c × GatewayDb
  | .connector key, db => (db.connectors.get key, db)
  | .register profile actorId createdAt, db =>
    transaction (registerTx rt profile actorId createdAt) db
  | .setStatus w, db => transaction (statusTx rt w) db
  | .byIdempotencyKey e, db => (db.messages.get e.byKey, db)
  | .byMessageId e, db => (db.messages.rows.find? (fun r => r.envelope.byMessage = e.byMessage), db)
  | .record e status actorId createdAt, db =>
    transaction (recordTx rt e status actorId createdAt) db

abbrev Program := Prog Statement Answer PyError

abbrev sql (c : Statement) : Program (Answer c) := Prog.statement c

/-! ## Calls -/

/-- What a call returns. No row after an update would fail its assertion. -/
inductive Outcome where
  | connector (row : Option ConnectorRow)
  | receipt (receipt : Receipt) (e : GatewayEnvelope)

/-- `identifier(body.get(key), key)`. -/
def identifierOf (body : PyValue) (key : String) : Except PyError Identifier := do
  let value ← body.getD key .null
  identifier rt value key

/-- `connector`. -/
def readConnector (key : ConnectorKey) : Program ConnectorRow := do
  let row ← sql (.connector key)
  orRaise (gatewayError "unknown connector for tenant") row

def registerArgs (body : PyValue) : Except PyError (ConnectorProfile × Identifier) := do
  let profile ← ConnectorProfile.fromDict rt body
  let actorId ← identifierOf rt body "actor_id"
  return (profile, actorId)

def registerConnector (profile : ConnectorProfile) (actorId : Identifier) (now : Int) :
    Program Outcome := do
  let existing ← sql (.connector (profile.tenantId, profile.connectorId))
  match existing with
  | some row => do
    require (row.profileSha256 = sha256Json rt.toInterpreter profile.asDict)
      (gatewayError "connector identity is already bound to different configuration")
    return .connector (some row)
  | none => do
    let result ← sql (.register profile actorId (rt.isoformat now))
    let row ← result
    return .connector (some row)

/-- The arguments of `set_connector_status`. -/
structure StatusArgs where
  connector : ConnectorKey
  actorId : Identifier
  status : ConnectorStatus
  review : Option String

/-- `str(value).strip() or None`. -/
def reviewOf (value : PyValue) : Option String :=
  let review := strip (value.toStr rt.toInterpreter)
  if review = "" then none else some review

def statusArgs (body : PyValue) : Except PyError StatusArgs := do
  let tenantId ← identifierOf rt body "tenant_id"
  let connectorId ← identifierOf rt body "connector_id"
  let actorId ← identifierOf rt body "actor_id"
  let statusValue ← body.getD "status" (.str "")
  let status ← orRaise (gatewayError "unsupported connector status")
    (named ConnectorStatus.name connectorStatuses (upper (statusValue.toStr rt.toInterpreter)))
  let reviewValue ← body.getD "security_review_ref" (.str "")
  return { connector := (tenantId, connectorId), actorId, status, review := reviewOf rt reviewValue }

/-- What the service asks of a connector and of the request before it enables one. -/
def enablement (row : ConnectorRow) (a : StatusArgs) : Except PyError Unit :=
  if a.status = .enabled then do
    require a.review.isSome
      (gatewayError "connector enablement requires security_review_ref")
    require (row.profile.credentialSecretRef ≠ "")
      (gatewayError "connector enablement requires credential_secret_ref")
    require (row.profile.authMethod ≠ .noneDevOnly)
      (gatewayError "development-only authentication cannot be enabled")
  else .ok ()

def setConnectorStatus (a : StatusArgs) (now : Int) : Program Outcome := do
  let checked ← readConnector a.connector
  enablement checked a
  let row ← readConnector a.connector
  let result ← sql (.setStatus
    { connector := a.connector
      status := a.status
      review := a.review <|> row.securityReviewRef
      previousStatus := row.status
      actorId := a.actorId
      updatedAt := rt.isoformat now })
  let updated ← result
  return .connector updated

/-- The arguments `_normalize` checks before it reads the connector. -/
def gatewayArgs (request : PyValue) : Except PyError (ConnectorKey × Identifier) := do
  require (request matches .dict _) (gatewayError "gateway request must be an object")
  let tenantId ← identifierOf rt request "tenant_id"
  let connectorId ← identifierOf rt request "connector_id"
  let actorId ← identifierOf rt request "actor_id"
  return ((tenantId, connectorId), actorId)

/-- What `_normalize` makes of the connector and the request. -/
def envelopeOf (row : ConnectorRow) (request : PyValue) (direction : Direction) :
    Except PyError GatewayEnvelope := do
  require (row.status = .enabled) (gatewayError "connector is not enabled")
  let protocol ← request.getD "protocol" (.str "")
  require (upper (protocol.toStr rt.toInterpreter) = row.profile.protocol.name)
    (gatewayError "message protocol does not match connector")
  let version ← request.getD "protocol_version" (.str "")
  require (version.toStr rt.toInterpreter = row.profile.protocolVersion)
    (gatewayError "message protocol version does not match connector")
  let normalized ← normalizeProtocolMessage rt row.profile request
  GatewayEnvelope.create rt row.profile direction normalized

def recordEnvelope (e : GatewayEnvelope) (status : ReceiptStatus) (actorId : Identifier)
    (now : Int) : Program Outcome := do
  let existing ← sql (.byIdempotencyKey e)
  match existing with
  | some row => do
    require (row.envelopeSha256 = e.sha256 rt)
      (gatewayError "idempotency key is already bound to different message content")
    return .receipt row.receipt e
  | none => do
    let existing ← sql (.byMessageId e)
    match existing with
    | some row => do
      require (row.envelopeSha256 = e.sha256 rt)
        (gatewayError "message identity is already bound to different content")
      return .receipt row.receipt e
    | none => do
      let result ← sql (.record e status actorId (rt.isoformat now))
      let receipt ← result
      return .receipt receipt e

/-- `ingest` and `stage_egress`, which differ in the direction and in the receipt. -/
def gatewayCall (request : PyValue) (direction : Direction) (status : ReceiptStatus)
    (connector : ConnectorKey) (actorId : Identifier) (now : Int) : Program Outcome := do
  let row ← readConnector connector
  let e ← envelopeOf rt row request direction
  recordEnvelope rt e status actorId now

/-- A call, with the clock reading it makes. -/
inductive Call where
  | registerConnector (body : PyValue) (now : Int)
  | setConnectorStatus (body : PyValue) (now : Int)
  | ingest (request : PyValue) (now : Int)
  | stageEgress (request : PyValue) (now : Int)

def Call.program : Call → Program Outcome
  | .registerConnector body now => do
    let args ← registerArgs rt body
    Gateway.registerConnector rt args.1 args.2 now
  | .setConnectorStatus body now => do
    let args ← statusArgs rt body
    Gateway.setConnectorStatus rt args now
  | .ingest request now => do
    let args ← gatewayArgs rt request
    gatewayCall rt request .ingress .acceptedShadowOnly args.1 args.2 now
  | .stageEgress request now => do
    let args ← gatewayArgs rt request
    gatewayCall rt request .egress .stagedNotDelivered args.1 args.2 now

/-- The calls under way on one gateway. -/
abbrev Calls := Pool GatewayDb Statement Answer PyError Outcome

abbrev advance : Calls → Move Call → Calls := Pool.step (execute rt) (Call.program rt)

end

end Edon.Gateway
