import EdonPlatform.Cerebrum.Operations
import EdonPlatform.Gateway.Payload

/- The contracts of the agent gateway (edon/gateway/models.py): identifiers, times, trace
   contexts, the profile of a connector and the envelope of a message.

   An `Identifier` carries its form, so checking it again returns it (`identifier_text`), and an
   envelope has the identifiers of the profile it was made for (`create_connector`).

   Correspondence (Python ↔ Lean):
     `identifier`                  ↔ `Identifier`, `identifier`
     `utc_timestamp`               ↔ `utcTimestamp`
     `https_endpoint`              ↔ `httpsEndpoint`
     `validate_trace_context`      ↔ `validateTraceContext`
     `ConnectorProfile.from_dict`  ↔ `ConnectorProfile.fromDict`
     `GatewayEnvelope.create`      ↔ `GatewayEnvelope.create` -/
namespace Edon.Gateway
open PyValue

/-- What `urlparse` makes of a text. -/
structure ParsedUrl where
  scheme : String
  hostname : Option String
  username : Option String
  password : Option String
  fragment : String

/-- The functions of the runtime the gateway uses. `isoformat` is the text of a UTC instant. -/
structure GatewayRuntime extends Interpreter where
  fromisoformat : String → ParsedTime
  isoformat : Int → String
  urlparse : String → Except PyError ParsedUrl

/-! ## The enumerations -/

inductive Protocol where
  | mcp | a2a | rest | webhook | fhirR4Smart
  deriving DecidableEq, Repr

def Protocol.name : Protocol → String
  | .mcp => "MCP"
  | .a2a => "A2A"
  | .rest => "REST"
  | .webhook => "WEBHOOK"
  | .fhirR4Smart => "FHIR_R4_SMART"

/-- `PROTOCOL_VERSIONS`. -/
def Protocol.version : Protocol → String
  | .mcp => "2026-07-28"
  | .a2a => "1.0"
  | .rest => "1.0"
  | .webhook => "1.0"
  | .fhirR4Smart => "R4"

def protocols : List Protocol := [.mcp, .a2a, .rest, .webhook, .fhirR4Smart]

inductive ConnectorMode where
  | shadow | readOnly
  deriving DecidableEq, Repr

def ConnectorMode.name : ConnectorMode → String
  | .shadow => "SHADOW"
  | .readOnly => "READ_ONLY"

inductive ConnectorStatus where
  | disabled | enabled | suspended
  deriving DecidableEq, Repr

def ConnectorStatus.name : ConnectorStatus → String
  | .disabled => "DISABLED"
  | .enabled => "ENABLED"
  | .suspended => "SUSPENDED"

def connectorStatuses : List ConnectorStatus := [.disabled, .enabled, .suspended]

inductive AuthMethod where
  | oauth2ClientCredentials | oauth2AuthorizationCode | apiKey | mtls | smartBackendServices
  | smartUser | noneDevOnly
  deriving DecidableEq, Repr

def AuthMethod.name : AuthMethod → String
  | .oauth2ClientCredentials => "OAUTH2_CLIENT_CREDENTIALS"
  | .oauth2AuthorizationCode => "OAUTH2_AUTHORIZATION_CODE"
  | .apiKey => "API_KEY"
  | .mtls => "MTLS"
  | .smartBackendServices => "SMART_BACKEND_SERVICES"
  | .smartUser => "SMART_USER"
  | .noneDevOnly => "NONE_DEV_ONLY"

def authMethods : List AuthMethod :=
  [.oauth2ClientCredentials, .oauth2AuthorizationCode, .apiKey, .mtls, .smartBackendServices,
   .smartUser, .noneDevOnly]

inductive Sensitivity where
  | published | internal | confidential | restricted
  deriving DecidableEq, Repr

def Sensitivity.name : Sensitivity → String
  | .published => "PUBLIC"
  | .internal => "INTERNAL"
  | .confidential => "CONFIDENTIAL"
  | .restricted => "RESTRICTED"

def sensitivities : List Sensitivity := [.published, .internal, .confidential, .restricted]

/-- `ranking.index`. -/
def Sensitivity.rank (s : Sensitivity) : Nat := sensitivities.idxOf s

inductive Direction where
  | ingress | egress
  deriving DecidableEq, Repr

def Direction.name : Direction → String
  | .ingress => "INGRESS"
  | .egress => "EGRESS"

/-! ## Single values -/

def identifierChar (c : Char) : Bool :=
  c.isAlphanum || c == '.' || c == '_' || c == ':' || c == '-'

/-- `_IDENTIFIER`. -/
def isIdentifier (s : String) : Bool :=
  match s.toList with
  | [] => false
  | c :: cs => c.isAlphanum && cs.length ≤ 127 && cs.all identifierChar

structure Identifier where
  text : String
  valid : isIdentifier text = true

instance : DecidableEq Identifier := fun a b =>
  decidable_of_iff (a.text = b.text) ⟨fun h => by cases a; cases b; cases h; rfl, congrArg _⟩

def hexDigit (c : Char) : Bool := ('0' ≤ c && c ≤ '9') || ('a' ≤ c && c ≤ 'f')

/-- `_TRACEPARENT`, a test for every character. -/
def traceparentPattern : List (Char → Bool) :=
  List.replicate 2 hexDigit ++ (· == '-') :: List.replicate 32 hexDigit ++ (· == '-') ::
    List.replicate 16 hexDigit ++ (· == '-') :: List.replicate 2 hexDigit

def isTraceparent (s : String) : Bool :=
  s.toList.length = traceparentPattern.length &&
    (s.toList.zip traceparentPattern).all (fun e => e.2 e.1)

section
variable (rt : GatewayRuntime)

/-- `str(value or "")`. -/
def textOrEmpty (value : PyValue) : String :=
  if value.truthy then value.toStr rt.toInterpreter else ""

def identifier (value : PyValue) (field : String) : Except PyError Identifier :=
  let normalized := strip (textOrEmpty rt value)
  if h : isIdentifier normalized then .ok ⟨normalized, h⟩
  else .error (gatewayError (field ++
    " must contain 1-128 letters, digits, dots, underscores, colons, or hyphens"))

def utcTimestamp (value : PyValue) (field : String) : Except PyError String := do
  let normalized := strip (textOrEmpty rt value)
  require (normalized ≠ "") (gatewayError (field ++ " is required"))
  match rt.fromisoformat (replaceZ normalized) with
  | .invalid => .error (gatewayError (field ++ " must be an ISO-8601 timestamp"))
  | .naive => .error (gatewayError (field ++ " must include a timezone"))
  | .instant t => rt.isoformat <$> astimezone t

def httpsEndpoint (value : PyValue) : Except PyError String := do
  let endpoint := strip (textOrEmpty rt value)
  let parsed ← rt.urlparse endpoint
  require (parsed.scheme = "https" && parsed.hostname.any (· ≠ ""))
    (gatewayError "connector endpoint must be an absolute HTTPS URL")
  require (!(parsed.username.any (· ≠ "") || parsed.password.any (· ≠ "")))
    (gatewayError "connector endpoint must not contain credentials")
  require (parsed.fragment = "")
    (gatewayError "connector endpoint must not contain a fragment")
  return endpoint

/-- `validate_trace_context` of a dictionary. -/
def traceContextOf (kvs : List (String × PyValue)) : Except PyError (List (String × String)) := do
  require (kvs.all (fun e => e.1 = "traceparent" || e.1 = "tracestate"))
    (gatewayError "trace_context may contain traceparent and tracestate only")
  let get := fun key => ((Assoc.find kvs key).getD (.str "")).toStr rt.toInterpreter
  let traceparent := lower (get "traceparent")
  require (traceparent = "" || isTraceparent traceparent)
    (gatewayError "traceparent is not valid W3C trace context")
  let tracestate := get "tracestate"
  require (tracestate.utf8ByteSize ≤ 512) (gatewayError "tracestate exceeds 512 bytes")
  return [("traceparent", traceparent), ("tracestate", tracestate)].filter (fun e => e.2 ≠ "")

def validateTraceContext : PyValue → Except PyError (List (String × String))
  | .null => .ok []
  | .str "" => .ok []
  | .dict kvs => traceContextOf rt kvs
  | _ => .error (gatewayError "trace_context must be an object")
end

section
variable {rt : GatewayRuntime}

theorem isSpace_of_identifierChar {c : Char} (h : identifierChar c = true) : isSpace c = false := by
  simp only [identifierChar, Bool.or_eq_true, beq_iff_eq] at h
  rcases h with (((h | rfl) | rfl) | rfl) | rfl
  · exact isSpace_of_isAlphanum h
  all_goals decide

/-- An identifier that is checked again is itself. -/
theorem identifier_text (i : Identifier) (field : String) :
    identifier rt (.str i.text) field = .ok i := by
  obtain ⟨s, hs⟩ := i
  have hchars : ∀ c ∈ s.toList, identifierChar c = true := by
    unfold isIdentifier at hs
    split at hs
    · cases hs
    · next c cs hlist =>
      simp only [Bool.and_eq_true, List.all_eq_true] at hs
      intro d hd
      rw [hlist] at hd
      rcases List.mem_cons.mp hd with rfl | hd
      · simp [identifierChar, hs.1.1]
      · exact hs.2 d hd
  have hne : s ≠ "" := by
    rintro rfl
    cases hs
  have htext : textOrEmpty rt (.str s) = s := if_pos (decide_eq_true hne)
  have hstrip : strip s = s :=
    strip_of_not_space fun c hc => isSpace_of_identifierChar (hchars c hc)
  unfold identifier
  simp only [htext, hstrip]
  exact dif_pos hs

end

/-! ## Profiles -/

structure ConnectorProfile where
  connectorId : Identifier
  tenantId : Identifier
  vendorId : Identifier
  protocol : Protocol
  protocolVersion : String
  endpoint : String
  authMethod : AuthMethod
  credentialSecretRef : String
  allowedOperations : List String
  allowedTargets : List String
  mode : ConnectorMode
  sensitivityCeiling : Sensitivity
  dataResidency : String
  deriving DecidableEq

section
variable (rt : GatewayRuntime)

/-- `tuple(str(item) for item in value)`. -/
def textsOf (value : PyValue) : Except PyError (List String) := do
  let items ← value.iterate
  return items.map (toStr rt.toInterpreter)

/-- The profile of a dictionary with these entries. -/
def ConnectorProfile.ofEntries (kvs : List (String × PyValue)) :
    Except PyError ConnectorProfile := do
  let get := fun key default => (Assoc.find kvs key).getD default
  let text := fun key default => (get key (.str default)).toStr rt.toInterpreter
  let forbidden := credentialValueFields.filter (fun f => kvs.any (fun e => lower e.1 = f))
  require forbidden.isEmpty (gatewayError
    ("connector profile must reference a secret manager and cannot contain: " ++
      ", ".intercalate (sortedSet forbidden)))
  let protocolText := upper (text "protocol" "")
  let protocol ← orRaise (gatewayError ("unsupported gateway protocol: " ++
    if protocolText = "" then "<missing>" else protocolText))
    (named Protocol.name protocols protocolText)
  let version := text "protocol_version" ""
  require (version = protocol.version) (gatewayError
    (protocol.name ++ " connector must target protocol version " ++ protocol.version))
  let authMethod ← orRaise (gatewayError "unsupported connector auth_method")
    (named AuthMethod.name authMethods (upper (text "auth_method" "")))
  let secretRef := strip (text "credential_secret_ref" "")
  require (secretRef = "" || "secret://".toList.isPrefixOf secretRef.toList)
    (gatewayError "credential_secret_ref must use the secret:// reference scheme")
  let mode ← orRaise (gatewayError "connectors may operate only in SHADOW or READ_ONLY mode")
    (named ConnectorMode.name [.shadow, .readOnly] (upper (text "mode" "SHADOW")))
  let sensitivity ← orRaise (gatewayError "unsupported sensitivity ceiling")
    (named Sensitivity.name sensitivities (upper (text "sensitivity_ceiling" "INTERNAL")))
  let operations ← textsOf rt (get "allowed_operations" (.list []))
  require (!operations.isEmpty && operations.all (fun item => strip item ≠ ""))
    (gatewayError "allowed_operations must contain at least one operation")
  require operations.Nodup (gatewayError "allowed_operations must be unique")
  let targets ← textsOf rt (get "allowed_targets" (.list []))
  require (targets.all (fun item => strip item ≠ "") && decide targets.Nodup)
    (gatewayError "allowed_targets must contain unique non-empty values")
  require (!(get "enabled" .null matches .bool true))
    (gatewayError "new connectors must be registered disabled")
  let unbound ← Cerebrum.Operations.bindingAuthorityOk (get "binding_authority" .null)
  require unbound (gatewayError "gateway connector cannot carry binding authority")
  let connectorId ← identifier rt (get "connector_id" .null) "connector_id"
  let tenantId ← identifier rt (get "tenant_id" .null) "tenant_id"
  let vendorId ← identifier rt (get "vendor_id" .null) "vendor_id"
  let endpoint ← httpsEndpoint rt (get "endpoint" .null)
  let residency := strip (text "data_residency" "UNSPECIFIED")
  return {
    connectorId, tenantId, vendorId, protocol
    protocolVersion := version
    endpoint, authMethod
    credentialSecretRef := secretRef
    allowedOperations := operations
    allowedTargets := targets
    mode
    sensitivityCeiling := sensitivity
    dataResidency := if residency = "" then "UNSPECIFIED" else residency }

def ConnectorProfile.fromDict : PyValue → Except PyError ConnectorProfile
  | .dict kvs => ConnectorProfile.ofEntries rt kvs
  | _ => .error (gatewayError "connector profile must be an object")
end

def ConnectorProfile.asDict (p : ConnectorProfile) : PyValue := .dict
  [("schema_version", .str "edon-agent-gateway-connector.v1"),
   ("connector_id", .str p.connectorId.text),
   ("tenant_id", .str p.tenantId.text),
   ("vendor_id", .str p.vendorId.text),
   ("protocol", .str p.protocol.name),
   ("protocol_version", .str p.protocolVersion),
   ("endpoint", .str p.endpoint),
   ("auth_method", .str p.authMethod.name),
   ("credential_secret_ref", .str p.credentialSecretRef),
   ("allowed_operations", .list (p.allowedOperations.map .str)),
   ("allowed_targets", .list (p.allowedTargets.map .str)),
   ("mode", .str p.mode.name),
   ("sensitivity_ceiling", .str p.sensitivityCeiling.name),
   ("data_residency", .str p.dataResidency),
   ("enabled", .bool false),
   ("binding_authority", .bool false)]

/-! ## Envelopes -/

/-- What a protocol's normalizer returns. -/
structure NormalizedMessage where
  messageId : PyValue
  idempotencyKey : PyValue
  occurredAt : PyValue
  sensitivity : PyValue
  traceContext : PyValue
  messageType : String
  payload : PyValue

structure GatewayEnvelope where
  messageId : Identifier
  tenantId : Identifier
  connectorId : Identifier
  vendorId : Identifier
  protocol : Protocol
  protocolVersion : String
  direction : Direction
  messageType : Identifier
  occurredAt : String
  idempotencyKey : Identifier
  sensitivity : Sensitivity
  traceContext : List (String × String)
  payload : PyValue

section
variable (rt : GatewayRuntime)

def GatewayEnvelope.create (profile : ConnectorProfile) (direction : Direction)
    (m : NormalizedMessage) : Except PyError GatewayEnvelope := do
  let sensitivityText := textOrEmpty rt m.sensitivity
  let sensitivity ← orRaise (gatewayError "unsupported gateway message sensitivity")
    (named Sensitivity.name sensitivities
      (upper (if m.sensitivity.truthy then sensitivityText else "INTERNAL")))
  require (sensitivity.rank ≤ profile.sensitivityCeiling.rank)
    (gatewayError "message sensitivity exceeds connector ceiling")
  let messageId ← identifier rt m.messageId "message_id"
  let tenantId ← identifier rt (.str profile.tenantId.text) "tenant_id"
  let connectorId ← identifier rt (.str profile.connectorId.text) "connector_id"
  let vendorId ← identifier rt (.str profile.vendorId.text) "vendor_id"
  let messageType ← identifier rt (.str m.messageType) "message_type"
  let occurredAt ← utcTimestamp rt m.occurredAt "occurred_at"
  let idempotencyKey ← identifier rt m.idempotencyKey "idempotency_key"
  let traceContext ← validateTraceContext rt m.traceContext
  let payload ← validateUntrustedPayload rt.toInterpreter m.payload
  return {
    messageId, tenantId, connectorId, vendorId
    protocol := profile.protocol
    protocolVersion := profile.protocolVersion
    direction, messageType, occurredAt, idempotencyKey, sensitivity, traceContext, payload }

/-- The entries the hash of an envelope is taken of. -/
def GatewayEnvelope.core (e : GatewayEnvelope) : List (String × PyValue) :=
  [("schema_version", .str "edon-agent-gateway-envelope.v1"),
   ("message_id", .str e.messageId.text),
   ("tenant_id", .str e.tenantId.text),
   ("connector_id", .str e.connectorId.text),
   ("vendor_id", .str e.vendorId.text),
   ("protocol", .str e.protocol.name),
   ("protocol_version", .str e.protocolVersion),
   ("direction", .str e.direction.name),
   ("message_type", .str e.messageType.text),
   ("occurred_at", .str e.occurredAt),
   ("idempotency_key", .str e.idempotencyKey.text),
   ("sensitivity", .str e.sensitivity.name),
   ("trace_context", .dict (e.traceContext.map fun kv => (kv.1, .str kv.2))),
   ("payload", e.payload),
   ("binding_authority", .bool false),
   ("executed", .bool false)]

def GatewayEnvelope.sha256 (e : GatewayEnvelope) : String :=
  sha256Json rt.toInterpreter (.dict e.core)

def GatewayEnvelope.asDict (e : GatewayEnvelope) : PyValue :=
  .dict (e.core ++ [("envelope_sha256", .str (e.sha256 rt))])
end

/-- An envelope names the connector it was made for. -/
theorem create_connector {rt : GatewayRuntime} {profile : ConnectorProfile} {direction : Direction}
    {m : NormalizedMessage} {e : GatewayEnvelope}
    (h : GatewayEnvelope.create rt profile direction m = .ok e) :
    e.tenantId = profile.tenantId ∧ e.connectorId = profile.connectorId := by
  obtain ⟨_, _, h⟩ := bind_ok.mp h
  obtain ⟨_, _, h⟩ := bind_ok.mp h
  obtain ⟨_, _, h⟩ := bind_ok.mp h
  obtain ⟨tenantId, htenant, h⟩ := bind_ok.mp h
  obtain ⟨connectorId, hconnector, h⟩ := bind_ok.mp h
  obtain ⟨_, _, h⟩ := bind_ok.mp h
  obtain ⟨_, _, h⟩ := bind_ok.mp h
  obtain ⟨_, _, h⟩ := bind_ok.mp h
  obtain ⟨_, _, h⟩ := bind_ok.mp h
  obtain ⟨_, _, h⟩ := bind_ok.mp h
  obtain ⟨_, _, h⟩ := bind_ok.mp h
  rw [identifier_text] at htenant hconnector
  cases htenant
  cases hconnector
  cases h
  exact ⟨rfl, rfl⟩

end Edon.Gateway
