import EdonPlatform.Gateway.Models

/- The normalizers of the gateway's protocols (edon/gateway/protocols.py): MCP, A2A, REST and
   webhooks, and FHIR R4.

   Correspondence (Python ↔ Lean):
     `_common`                      ↔ `common`
     `_allowed`, `_target_allowed`  ↔ `allowed`, `targetAllowed`
     `normalize_protocol_message`   ↔ `normalizeProtocolMessage` -/
namespace Edon.Gateway
open PyValue

def fhirReadOperations : List String := ["READ", "SEARCH", "EVENT"]

def fhirWriteOperations : List String :=
  ["CREATE", "UPDATE", "PATCH", "DELETE", "TRANSACTION", "BATCH"]

/-- The entries of a request, and those of its body. -/
structure MessageRequest where
  entries : List (String × PyValue)
  body : List (String × PyValue)

section
variable (rt : GatewayRuntime)

/-- `request.get(key, default)`. -/
def field (kvs : List (String × PyValue)) (key : String) (default : PyValue) : PyValue :=
  (Assoc.find kvs key).getD default

/-- `str(request.get(key, ""))`. -/
def textField (kvs : List (String × PyValue)) (key : String) : String :=
  (field kvs key (.str "")).toStr rt.toInterpreter

def common : PyValue → Except PyError MessageRequest
  | .dict kvs =>
    match field kvs "body" .null with
    | .dict body => .ok ⟨kvs, body⟩
    | _ => .error (gatewayError "gateway message body must be an object")
  | _ => .error (gatewayError "gateway message request must be an object")

/-- `{**common, "message_type": ..., "payload": ...}`. -/
def MessageRequest.normalized (r : MessageRequest) (messageType : String)
    (payload : List (String × PyValue)) : NormalizedMessage where
  messageId := field r.entries "message_id" .null
  idempotencyKey := field r.entries "idempotency_key" .null
  occurredAt := field r.entries "occurred_at" .null
  sensitivity := field r.entries "sensitivity" (.str "INTERNAL")
  traceContext := field r.entries "trace_context" (.dict [])
  messageType
  payload := .dict payload

def allowed (profile : ConnectorProfile) (operation : String) : Except PyError Unit :=
  require (operation ∈ profile.allowedOperations)
    (gatewayError ("operation is not allowlisted for connector: " ++ operation))

def targetAllowed (profile : ConnectorProfile) (target : Option String) : Except PyError Unit :=
  let named := target.getD ""
  require (profile.allowedTargets.isEmpty || (named ≠ "" && named ∈ profile.allowedTargets))
    (gatewayError ("target is not allowlisted for connector: " ++
      if named = "" then "<missing>" else named))

/-- A value that is a dictionary, or the caller's error. -/
def objectOr (message : String) : PyValue → Except PyError PyValue
  | .dict kvs => .ok (.dict kvs)
  | _ => .error (gatewayError message)

/-- `str(target) if target is not None else None`. -/
def optionalText : PyValue → Option String
  | .null => none
  | v => some (v.toStr rt.toInterpreter)

/-- `.replace(old, "_")` of a character. -/
def underscored (old : List Char) (s : String) : String :=
  String.ofList (s.toList.map (fun c => if c ∈ old then '_' else c))

def normalizeMcp (profile : ConnectorProfile) (request : PyValue) :
    Except PyError NormalizedMessage := do
  let r ← common request
  require (field r.body "jsonrpc" .null matches .str "2.0")
    (gatewayError "MCP message must use JSON-RPC 2.0")
  let method := textField rt r.body "method"
  allowed profile method
  let params ← objectOr "MCP params must be an object" (field r.body "params" (.dict []))
  let target ← if method = "tools/call" then
      toStr rt.toInterpreter <$> params.getD "name" (.str "")
    else if method = "resources/read" ∨ method = "prompts/get" then do
      let uri ← params.getD "uri" .null
      let name ← params.getD "name" .null
      pure (if uri.truthy then uri.toStr rt.toInterpreter else textOrEmpty rt name)
    else pure ""
  if method = "tools/call" ∨ method = "resources/read" ∨ method = "prompts/get" then
    targetAllowed profile (if target = "" then none else some target)
  return r.normalized ("MCP_" ++ upper (underscored ['/', '.'] method))
    [("jsonrpc", .str "2.0"), ("id", field r.body "id" .null), ("method", .str method),
     ("params", params)]

def normalizeA2a (profile : ConnectorProfile) (request : PyValue) :
    Except PyError NormalizedMessage := do
  let r ← common request
  require (field r.body "jsonrpc" (.str "2.0") matches .str "2.0")
    (gatewayError "A2A JSON-RPC binding must use JSON-RPC 2.0")
  let named := field r.body "operation" .null
  let operation := if named.truthy then named.toStr rt.toInterpreter
    else textOrEmpty rt (field r.body "method" .null)
  allowed profile operation
  let skill := field r.body "skill_id" .null
  let target := if skill.truthy then skill else field r.body "target_skill" .null
  targetAllowed profile (optionalText rt target)
  let payload ← objectOr "A2A operation payload must be an object"
    (field r.body "params" (field r.body "payload" (.dict r.body)))
  return r.normalized ("A2A_" ++ upper (underscored ['/', '.'] operation))
    [("operation", .str operation), ("payload", payload)]

def normalizeRest (profile : ConnectorProfile) (request : PyValue) :
    Except PyError NormalizedMessage := do
  let r ← common request
  let operation := textField rt r.body "operation"
  allowed profile operation
  let target := field r.body "target" .null
  targetAllowed profile (optionalText rt target)
  let payload ← objectOr "REST/webhook payload must be an object"
    (field r.body "payload" (.dict []))
  return r.normalized (upper (underscored ['/'] (profile.protocol.name ++ "_" ++ operation)))
    [("operation", .str operation), ("target", target), ("payload", payload)]

def normalizeFhir (profile : ConnectorProfile) (request : PyValue) :
    Except PyError NormalizedMessage := do
  let r ← common request
  let operation := upper (textField rt r.body "operation")
  require (operation ∉ fhirWriteOperations)
    (gatewayError "FHIR writes are prohibited at the Agent Gateway boundary")
  require (operation ∈ fhirReadOperations)
    (gatewayError "FHIR gateway operation must be READ, SEARCH, or EVENT")
  allowed profile operation
  let resourceType := textField rt r.body "resource_type"
  targetAllowed profile (some resourceType)
  let payload ← objectOr "FHIR payload must be an object" (field r.body "payload" (.dict []))
  return r.normalized
    (upper ("FHIR_" ++ operation ++ "_" ++
      if resourceType = "" then "RESOURCE" else resourceType))
    [("operation", .str operation), ("resource_type", .str resourceType), ("payload", payload),
     ("write_permitted", .bool false)]

def normalizeProtocolMessage (profile : ConnectorProfile) (request : PyValue) :
    Except PyError NormalizedMessage :=
  match profile.protocol with
  | .mcp => normalizeMcp rt profile request
  | .a2a => normalizeA2a rt profile request
  | .rest => normalizeRest rt profile request
  | .webhook => normalizeRest rt profile request
  | .fhirR4Smart => normalizeFhir rt profile request

end

end Edon.Gateway
