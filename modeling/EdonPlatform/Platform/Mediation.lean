import EdonPlatform.Platform.Compiler

/- What the control plane does with a request before a handler has it, and which handler
   that is (apps/control-plane-api/src/server.ts). Who may do what is decided by one list of
   path patterns, `capabilityFor`; what is done is decided by another one, the conditions
   of the handlers, in the order they stand in the source.

   Correspondence (TypeScript ↔ Lean):
     a regular expression on paths     ↔ `Segment`, `testPath` and, without `^`, `testEnd`
     `capabilityFor`                   ↔ `capabilities`, `capabilityFor`
     `rolesForCapability`              ↔ `rolesForCapability`
     the conditions of the handlers    ↔ `Route`, `handlers`
     `validateBinding`                 ↔ `validateBinding`
     `getActorMembership`              ↔ `PlatformRecords.getActorMembership`
     lines 86 to 100 of the server     ↔ `mediate`
     the server's callback             ↔ `ControlPlane.handle`

   The handlers of `Server` and `Compiler` and the read of a state are what they are there;
   every other handler is a parameter, as is what is answered without an identity. A
   handler that throws has changed nothing. The tables are those of the tenant of the
   principal, as PostgreSQL keeps them. -/
namespace Edon.Platform
open Js Fallible

/-! ## Paths -/

/-- One part of a pattern between slashes: a text, one of several, or `[^/]+`. -/
inductive Segment where
  | text (t : String)
  | oneOf (ts : List String)
  | any

def Segment.test : Segment → String → Bool
  | .text t, x => x = t
  | .oneOf ts, x => x ∈ ts
  | .any, x => x ≠ ""

def testAll : List Segment → List String → Bool
  | [], [] => true
  | p :: ps, x :: xs => p.test x && testAll ps xs
  | _, _ => false

/-- `path.split('/')`. -/
def segments (path : String) : List String := (path.toList.splitOn '/').map String.ofList

/-- `/^\/a\/b$/.test(path)`, where `a` and `b` are the segments. -/
def testPath (ps : List Segment) (path : String) : Bool :=
  match segments path with
  | x :: xs => x = "" && testAll ps xs
  | [] => false

/-- `/\/a\/b$/.test(path)`. -/
def testEnd (ps : List Segment) (path : String) : Bool :=
  (segments path).tail.tails.any (testAll ps)

/-- `path === text`. -/
def isPath (text path : String) : Bool := path = text

def startsWith (start path : String) : Bool := start.toList.isPrefixOf path.toList

def endsWith (suffix path : String) : Bool := suffix.toList.isSuffixOf path.toList

/-! ## The two lists -/

/-- One line of `capabilityFor`. -/
structure Capability where
  method : String
  test : String → Bool
  capability : String → String

def capabilities : List Capability :=
  [⟨"POST", isPath "/v1/events", fun _ => "event:submit"⟩,
    ⟨"POST", isPath "/v1/proposals", fun _ => "proposal:create"⟩,
    ⟨"POST", isPath "/v1/reviews", fun _ => "review:approve"⟩,
    ⟨"POST", isPath "/v1/shadow-evaluations", fun _ => "shadow:evaluate"⟩,
    ⟨"POST", isPath "/v1/outcomes", fun _ => "outcome:record"⟩,
    ⟨"POST", isPath "/v1/executions", fun _ => "proposal:create"⟩,
    ⟨"POST", testPath [.text "v1", .text "executions", .any, .text "dispatch"],
      fun _ => "outcome:record"⟩,
    ⟨"POST", testPath [.text "v1", .text "executions", .any, .oneOf ["acknowledge", "outcome",
      "verify", "reconcile", "cancel", "compensate", "takeover"]], fun _ => "outcome:record"⟩,
    ⟨"POST", testPath [.text "v1", .text "outbox", .any, .text "requeue"],
      fun _ => "outbox:requeue"⟩,
    ⟨"POST", isPath "/v1/break-glass/requests", fun _ => "break-glass:request"⟩,
    ⟨"POST", testEnd [.text "v1", .text "break-glass", .any, .oneOf ["approve", "activate",
      "revoke"]],
      fun path => if endsWith "/revoke" path then "break-glass:revoke" else "break-glass:approve"⟩,
    ⟨"POST", testEnd [.text "v1", .text "break-glass", .any, .text "use"],
      fun _ => "break-glass:use"⟩,
    ⟨"GET", startsWith "/v1/break-glass/", fun _ => "break-glass:read"⟩,
    ⟨"GET", startsWith "/v1/reconstructions/", fun _ => "reconstruction:read"⟩,
    ⟨"POST", fun path => startsWith "/v1/reconstructions/" path && endsWith "/export" path,
      fun _ => "reconstruction:read"⟩,
    ⟨"GET", startsWith "/v1/receipts/", fun _ => "receipt:read"⟩,
    ⟨"GET", startsWith "/v1/model-releases", fun _ => "model-release:administer"⟩,
    ⟨"POST", testPath [.text "v1", .text "institutions", .any, .text "sources"],
      fun _ => "institution:compile"⟩,
    ⟨"GET", fun path => testPath [.text "v1", .text "institutions", .any, .text "sources"] path ||
      testPath [.text "v1", .text "institutions", .any, .text "sources", .any, .text "versions"] path,
      fun _ => "institution:read"⟩,
    ⟨"GET", isPath "/v1/institution-compilations", fun _ => "institution:read"⟩,
    ⟨"GET", testPath [.text "v1", .text "institution-compilations", .any],
      fun _ => "institution:read"⟩,
    ⟨"POST", testPath [.text "v1", .text "institution-releases", .any, .text "transition"],
      fun _ => "institution:compile"⟩,
    ⟨"GET", testPath [.text "v1", .text "institution-releases", .any], fun _ => "institution:read"⟩,
    ⟨"GET", fun path => startsWith "/v1/state/" path || startsWith "/v1/incidents/" path ||
      startsWith "/v1/proposals/" path || startsWith "/v1/decisions/" path ||
      startsWith "/v1/outcomes/" path || startsWith "/v1/executions/" path,
      fun _ => "evidence:read"⟩]

def capabilityFor (method path : String) : Option String :=
  (capabilities.find? fun c => c.method = method ∧ c.test path = true).map fun c => c.capability path

def rolesForCapability : String → List String
  | "event:submit" => ["operator", "connector"]
  | "evidence:read" => ["operator", "auditor", "investigator", "administrator"]
  | "evidence:restricted:read" => ["auditor", "investigator"]
  | "proposal:create" => ["operator", "administrator"]
  | "review:approve" => ["operator", "reviewer", "administrator"]
  | "shadow:evaluate" => ["operator", "administrator"]
  | "outcome:record" => ["operator", "connector", "administrator"]
  | "receipt:read" => ["operator", "auditor", "investigator", "administrator"]
  | "reconstruction:read" => ["auditor", "investigator", "administrator"]
  | "outbox:requeue" => ["auditor", "investigator", "administrator"]
  | "model-release:administer" => ["administrator"]
  | "institution:compile" => ["administrator"]
  | "institution:read" => ["administrator", "auditor", "investigator"]
  | "break-glass:request" => ["operator", "administrator"]
  | "break-glass:approve" => ["administrator"]
  | "break-glass:revoke" => ["administrator", "auditor"]
  | "break-glass:read" => ["operator", "auditor", "investigator", "administrator"]
  | "break-glass:use" => ["operator", "auditor", "investigator", "administrator"]
  | _ => []

inductive Route where
  | postEvents
  | postProposals
  | postReviews
  | postShadowEvaluations
  | postExecutions
  | postDispatch
  | postExecutionAction
  | postOutcomes
  | postBreakGlassRequests
  | postBreakGlassUse
  | postRequeue
  | getModelReleases
  | getModelRelease
  | postReleaseTransition
  | getRelease
  | postSources
  | getSources
  | getCompilationStatus
  | postCompilations
  | getCompilation
  | getState
  | getIncident
  | getReceipt
  | getProposal
  | getExecution
  | getDecision
  | getOutcome
  | getBreakGlass
  | postExport
  | getReconstruction
  deriving DecidableEq

/-- The condition of one handler. -/
structure RouteCondition where
  method : String
  test : String → Bool
  route : Route

def handlers : List RouteCondition :=
  [⟨"POST", isPath "/v1/events", .postEvents⟩,
    ⟨"POST", isPath "/v1/proposals", .postProposals⟩,
    ⟨"POST", isPath "/v1/reviews", .postReviews⟩,
    ⟨"POST", isPath "/v1/shadow-evaluations", .postShadowEvaluations⟩,
    ⟨"POST", isPath "/v1/executions", .postExecutions⟩,
    ⟨"POST", testPath [.text "v1", .text "executions", .any, .text "dispatch"], .postDispatch⟩,
    ⟨"POST", testPath [.text "v1", .text "executions", .any, .oneOf ["acknowledge", "outcome",
      "verify", "reconcile", "cancel", "compensate", "takeover"]], .postExecutionAction⟩,
    ⟨"POST", isPath "/v1/outcomes", .postOutcomes⟩,
    ⟨"POST", isPath "/v1/break-glass/requests", .postBreakGlassRequests⟩,
    ⟨"POST", testPath [.text "v1", .text "break-glass", .any, .text "use"], .postBreakGlassUse⟩,
    ⟨"POST", testPath [.text "v1", .text "outbox", .any, .text "requeue"], .postRequeue⟩,
    ⟨"GET", isPath "/v1/model-releases", .getModelReleases⟩,
    ⟨"GET", startsWith "/v1/model-releases/", .getModelRelease⟩,
    ⟨"POST", testPath [.text "v1", .text "institution-releases", .any, .text "transition"],
      .postReleaseTransition⟩,
    ⟨"GET", testPath [.text "v1", .text "institution-releases", .any], .getRelease⟩,
    ⟨"POST", testPath [.text "v1", .text "institutions", .any, .text "sources"], .postSources⟩,
    ⟨"GET", fun path => testPath [.text "v1", .text "institutions", .any, .text "sources"] path ||
      testPath [.text "v1", .text "institutions", .any, .text "sources", .any, .text "versions"] path,
      .getSources⟩,
    ⟨"GET", isPath "/v1/institution-compilations", .getCompilationStatus⟩,
    ⟨"POST", isPath "/v1/institution-compilations", .postCompilations⟩,
    ⟨"GET", testPath [.text "v1", .text "institution-compilations", .any], .getCompilation⟩,
    ⟨"GET", startsWith "/v1/state/", .getState⟩,
    ⟨"GET", startsWith "/v1/incidents/", .getIncident⟩,
    ⟨"GET", startsWith "/v1/receipts/", .getReceipt⟩,
    ⟨"GET", startsWith "/v1/proposals/", .getProposal⟩,
    ⟨"GET", startsWith "/v1/executions/", .getExecution⟩,
    ⟨"GET", startsWith "/v1/decisions/", .getDecision⟩,
    ⟨"GET", startsWith "/v1/outcomes/", .getOutcome⟩,
    ⟨"GET", startsWith "/v1/break-glass/", .getBreakGlass⟩,
    ⟨"POST", testPath [.text "v1", .text "reconstructions", .any, .text "export"], .postExport⟩,
    ⟨"GET", startsWith "/v1/reconstructions/", .getReconstruction⟩]

def routeOf (method path : String) : Option Route :=
  (handlers.find? fun c => c.method = method ∧ c.test path = true).map RouteCondition.route

/-! ## Requests -/

/-- What the identity verifier returns. -/
structure VerifiedPrincipal where
  tenantId : String
  actorId : String
  actorType : String
  roles : List String
  active : Option Bool

/-- A request with its headers, the principal it is verified as and the time it is handled at.
The body is what `JSON.parse` makes of it, where it is JSON. -/
structure HttpRequest where
  method : String
  path : String
  body : Option Value
  facilityScope : Option String
  correlationId : Option String
  principal : Option VerifiedPrincipal
  now : Int

structure ActorMembership where
  actorId : String
  role : String
  active : Bool
  facilityScope : Option String
  mandateExpiresAt : Option String
  financialLimit : Option Rat

def ActorMembership.key (m : ActorMembership) : String × String := (m.actorId, m.role)

/-- The tables of a tenant; `ρ` is what the handlers that are not modelled have for theirs. -/
structure PlatformRecords (ρ : Type) where
  db : Db := {}
  sources : Table InstitutionSource.key := ∅
  candidates : Table InstitutionCandidate.key := ∅
  memberships : Table ActorMembership.key := ∅
  rest : ρ

def PlatformRecords.getActorMembership {ρ : Type} (records : PlatformRecords ρ) (actorId role : String) :
    Option ActorMembership :=
  records.memberships.get (actorId, role)

/-- The binding of a request that has a valid one. -/
structure HttpBinding extends RequestBinding where
  tenantId : String
  contractVersion : String

/-- A text that is not empty. -/
def requiredText (v : Value) (key : String) : Option String :=
  match field v key with
  | some (.str t) => if t = "" then none else some t
  | _ => none

def validateBinding (v : Value) : Option HttpBinding := do
  let tenantId ← requiredText v "tenant_id"
  let actorId ← requiredText v "actor_id"
  let correlationId ← requiredText v "correlation_id"
  let traceId ← requiredText v "trace_id"
  let idempotencyKey ← requiredText v "idempotency_key"
  let contractVersion ← requiredText v "contract_version"
  let requestTimestamp ← requiredText v "request_timestamp"
  let expectedStateVersion ← match field v "expected_state_version" with
    | none => some none
    | some (.num n) => some (some n)
    | some _ => none
  match field v "evidence_references" with
  | none | some (.arr _) =>
    some ⟨⟨actorId, correlationId, traceId, idempotencyKey, expectedStateVersion, requestTimestamp⟩,
      tenantId, contractVersion⟩
  | some _ => none

/-! ## Mediation -/

/-- `failure`. -/
def failure (code message correlationId : String) : Reply :=
  let status :=
    if code = "INTERNAL_ERROR" then 500
    else if code = "VALIDATION_FAILED" then 400
    else if code = "PERMISSION_DENIED" then 403
    else if code = "STATE_STALE" then 409
    else 422
  ⟨status, .obj [("error", .obj [("code", .str code), ("message", .str message),
    ("correlation_id", .str correlationId)])]⟩

/-- The reply to a request whose handling throws. -/
def thrownReply (correlationId : String) : Thrown → Reply
  | .stateConflict =>
    failure "STATE_STALE" "State changed while projecting the event" correlationId
  | _ => failure "INTERNAL_ERROR" "Internal server error" "unknown"

def orReply {α : Type} : Except Thrown α → Except Reply α
  | .ok a => .ok a
  | .error e => .error (thrownReply "unknown" e)

/-- The correlation id of a binding that may not be valid. -/
def correlationOf (bind : Option Value) : String :=
  match bind.bind fun v => field v "correlation_id" with
  | some (.str t) => t
  | _ => "unknown"

section
variable {ρ : Type} (s : TransitionService)

/-- The body that is read: of a `POST` alone. -/
def HttpRequest.read (h : HttpRequest) : Except Reply Value :=
  if h.method = "POST" then
    match h.body with
    | some .null => .error (thrownReply "unknown" .typeError)
    | some body => .ok body
    | none => .error (failure "VALIDATION_FAILED" "Request body must be valid JSON" "unknown")
  else .ok (.obj [])

/-- The route asks for an identity. -/
def HttpRequest.authenticated (h : HttpRequest) : Bool := startsWith "/v1/" h.path

def HttpRequest.authenticate (h : HttpRequest) : Except Reply Unit :=
  if h.authenticated then
    match h.principal with
    | none => .error ⟨401, .obj [("error", .obj [("code", .str "AUTHENTICATION_REQUIRED"),
        ("message", .str "Authentication is required"),
        ("correlation_id", .str (h.correlationId.getD "unknown"))])]⟩
    | some p =>
      if p.active = some false then
        .error (failure "PERMISSION_DENIED" "Actor is inactive" "unknown")
      else .ok ()
  else .ok ()

/-- The binding of a `POST`, which names the identity that was verified. -/
def HttpRequest.binding (h : HttpRequest) (body : Value) : Except Reply (Option HttpBinding) :=
  if h.method = "POST" then
    let bind := field body "binding"
    let other (p : VerifiedPrincipal) : Bool := Js.truthy bind &&
      (!isText (bind.bind fun v => field v "tenant_id") p.tenantId ||
        !isText (bind.bind fun v => field v "actor_id") p.actorId)
    if h.principal.any other then
      .error (failure "PERMISSION_DENIED" "Request identity does not match verified identity"
        ((h.principal.map VerifiedPrincipal.actorId).getD "unknown"))
    else
      match bind.bind validateBinding with
      | some b =>
        if b.contractVersion = contractVersion then .ok (some b)
        else .error (failure "VALIDATION_FAILED" "Required request binding is missing or invalid"
          b.correlationId)
      | none => .error (failure "VALIDATION_FAILED"
          "Required request binding is missing or invalid" (correlationOf bind))
  else .ok none

/-- `mandate_expires_at && new Date(mandate_expires_at).getTime() <= Date.now()`. -/
def ActorMembership.expired (m : ActorMembership) (now : Int) : Bool :=
  match m.mandateExpiresAt with
  | none => false
  | some t => t ≠ "" ∧ (s.js.dateParse t).any (fun time => time ≤ now) = true

/-- The first of the principal's roles that has the capability. -/
def HttpRequest.matchingRole (h : HttpRequest) (capability : String) : Option String :=
  h.principal.bind fun p => p.roles.find? fun role => role ∈ rolesForCapability capability

/-- `String(body.scope_id ?? request.headers['x-facility-scope'] ?? '')`. -/
def HttpRequest.requestedScope (h : HttpRequest) (body : Value) : Except Thrown String :=
  toText s.js (orDefault (field body "scope_id") (.str (h.facilityScope.getD "")))

/-- The membership has a facility scope, and the request names another one. -/
def ActorMembership.outside (m : ActorMembership) (requestedScope : String) : Bool :=
  match m.facilityScope with
  | none => false
  | some f => f ≠ "" ∧ f ≠ "*" ∧ requestedScope ≠ "" ∧ f ≠ requestedScope

/-- The capability of the route, the membership it needs and its facility. -/
def HttpRequest.authorize (h : HttpRequest) (body : Value) (records : PlatformRecords ρ) :
    Except Reply Unit :=
  match capabilityFor h.method h.path with
  | none => .ok ()
  | some capability =>
    match h.principal, h.matchingRole capability with
    | some p, some role =>
      match records.getActorMembership p.actorId role with
      | some m =>
        if m.active ∧ m.expired s h.now = false then do
          let requestedScope ← orReply (h.requestedScope s body)
          if m.outside requestedScope then
            .error (failure "PERMISSION_DENIED"
              "The actor is outside the authorized facility scope" "unknown")
          else .ok ()
        else .error (failure "PERMISSION_DENIED" "The actor mandate is inactive or expired" "unknown")
      | none =>
        .error (failure "PERMISSION_DENIED" "The actor mandate is inactive or expired" "unknown")
    | _, _ => .error (failure "PERMISSION_DENIED"
        "The verified principal lacks the required capability" (h.correlationId.getD "unknown"))

/-- `String(body.scope_id ?? 'memphis-fulfillment')`. -/
def scopeOf (body : Value) : Except Thrown String :=
  toText s.js (orDefault (field body "scope_id") (.str "memphis-fulfillment"))

/-- The version a request expects is checked here, of all but events and reviews. -/
def HttpRequest.checkVersion (h : HttpRequest) (body : Value) (bind : Option HttpBinding)
    (db : Db) : Except Reply Unit :=
  match bind with
  | none => .ok ()
  | some b => do
    let scopeId ← orReply (scopeOf s body)
    if h.path ≠ "/v1/events" ∧ h.path ≠ "/v1/reviews" ∧
        b.toRequestBinding.stale (state s.service db scopeId).version = true then
      .error (failure "STATE_STALE" "Expected state version is stale" b.correlationId)
    else .ok ()

/-- The body and the binding of a request that is let through to the handlers. -/
def mediate (h : HttpRequest) (records : PlatformRecords ρ) :
    Except Reply (Value × Option HttpBinding) := do
  let body ← h.read
  h.authenticate
  let bind ← h.binding body
  h.authorize s body records
  h.checkVersion s body bind records.db
  return (body, bind)

end

/-! ## Handling -/

/-- What the model leaves open: what is answered without an identity, and the handlers of the
other routes. -/
structure ControlPlane (ρ : Type) where
  service : TransitionService
  publicReply : HttpRequest → Reply
  others : Route → HttpRequest → Value → Option HttpBinding → PlatformRecords ρ →
    Except Thrown (Reply × PlatformRecords ρ)

/-- `OPTIONS`, the API document and the two health checks. -/
def HttpRequest.isPublic (h : HttpRequest) : Bool :=
  h.method = "OPTIONS" ∨ (h.method = "GET" ∧
    (h.path = "/openapi.json" ∨ h.path = "/healthz" ∨ h.path = "/readyz"))

section
variable {ρ : Type}

/-- The request as a handler of its tenant has it. -/
def HttpRequest.call (h : HttpRequest) (p : VerifiedPrincipal) (body : Value)
    (bind : RequestBinding) (records : PlatformRecords ρ) : Request where
  body
  bind
  principal := {
    actorId := p.actorId
    actorType := p.actorType
    membership :=
      (records.getActorMembership p.actorId
        (if "administrator" ∈ p.roles then "administrator" else "operator")).map
        fun m => ⟨m.active, m.mandateExpiresAt, m.financialLimit⟩ }
  now := h.now

def PlatformRecords.onDb (records : PlatformRecords ρ) (result : Except Thrown (Reply × Db)) :
    Except Thrown (Reply × PlatformRecords ρ) := do
  let (reply, db) ← result
  return (reply, { records with db })

/-- The n-th part of the path. -/
def HttpRequest.part (h : HttpRequest) (n : Nat) : String := (segments h.path).getD n ""

/-- `path.split('/').at(-1)`. -/
def HttpRequest.last (h : HttpRequest) : String := (segments h.path).getLastD ""

def State.toJson (st : State) : Value :=
  .obj [("version", integer st.version), ("values", st.values.toJson)]

/-- The reply to a read. -/
def HttpRequest.dataReply (h : HttpRequest) (data : Value) : Reply :=
  ⟨200, .obj [("data", data), ("meta", .obj [
    ("correlation_id", .str (h.correlationId.getD "read")),
    ("contract_version", .str contractVersion)])]⟩

/-- `principal!` and `bind!`. -/
def bound {α : Type} (p : Option VerifiedPrincipal) (bind : Option HttpBinding)
    (f : VerifiedPrincipal → HttpBinding → Except Thrown α) : Except Thrown α :=
  match p, bind with
  | some p, some bind => f p bind
  | _, _ => .error .typeError

variable (c : ControlPlane ρ)

/-- The handlers, each in its transaction. -/
def ControlPlane.perform (h : HttpRequest) (body : Value) (bind : Option HttpBinding)
    (records : PlatformRecords ρ) : Route → Except Thrown (Reply × PlatformRecords ρ)
  | .postEvents => bound h.principal bind fun p b =>
    records.onDb (postEvents { c.service.service with tenantId := p.tenantId }
      (h.call p body b.toRequestBinding records) records.db)
  | .postProposals => bound h.principal bind fun p b =>
    records.onDb (postProposals { c.service.service with tenantId := p.tenantId }
      (h.call p body b.toRequestBinding records) records.db)
  | .postReviews => bound h.principal bind fun p b =>
    records.onDb (postReviews { c.service.service with tenantId := p.tenantId }
      (h.call p body b.toRequestBinding records) records.db)
  | .postSources => bound h.principal bind fun p b => do
    let (reply, outbox, store) ← postSources { c.service with tenantId := p.tenantId } (h.part 3)
      (h.call p body b.toRequestBinding records) records.db.outbox
      { sources := records.sources, candidates := records.candidates, journal := records.db.journal }
    return (reply, { records with db := { records.db with outbox }, sources := store.sources })
  | .postCompilations => bound h.principal bind fun p b => do
    let (reply, outbox) ← postCompilations { c.service with tenantId := p.tenantId }
      (h.call p body b.toRequestBinding records) records.db.outbox
    return (reply, { records with db := { records.db with outbox } })
  | .getState =>
    .ok (h.dataReply (state c.service.service records.db h.last).toJson, records)
  | route => c.others route h body bind records

/-- What the server does with a request. -/
def ControlPlane.handle (h : HttpRequest) (records : PlatformRecords ρ) : Reply × PlatformRecords ρ :=
  if h.isPublic then (c.publicReply h, records)
  else
    match mediate c.service h records with
    | .error reply => (reply, records)
    | .ok (body, bind) =>
      match routeOf h.method h.path with
      | none => (failure "VALIDATION_FAILED" "Route not found" "unknown", records)
      | some route =>
        match c.perform h body bind records route with
        | .ok (reply, records') => (reply, records')
        | .error e =>
          (thrownReply ((bind.map fun b => b.correlationId).getD "unknown") e, records)

end

end Edon.Platform
