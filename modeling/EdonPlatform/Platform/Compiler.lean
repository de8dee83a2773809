import EdonPlatform.Platform.Idempotency
import EdonPlatform.Platform.Worker

/- The institution compiler of the control plane: the routes that register a source or
   request a compilation (apps/control-plane-api/src/server.ts), the handler that compiles
   (apps/control-plane-api/src/worker.ts, `compileInstitution`), and the tables of one
   tenant they share (packages/platform-core/src/repositories.ts,
   `PostgreSQLPlatformRepositories`; migrations 013 and 014). Sources are loaded in one
   transaction, and the candidate is persisted with its event in another.

   Correspondence (TypeScript ↔ Lean):
     `institution_sources`              ↔ `InstitutionSource`
     `institution_ir_candidates`        ↔ `InstitutionCandidate`
     `putInstitutionSource`, `listInstitutionSources`, `createInstitutionCandidate`,
     `getInstitutionCompilationStatus`  ↔ the same names
     `compileInstitution`               ↔ `Compiling`, `compileInstitution` (`candidate` and
                                          `candidateEvent` are what it makes)
     `POST /v1/institutions/:id/sources`  ↔ `postSources`
     `POST /v1/institution-compilations`  ↔ `postCompilations`

   The queue moves by the actions of `Worker`; a handler may throw at any point, and the
   process may end at any point. Whatever else is on the outbox is enqueued by others and
   handled without a trace in these tables. With the store the model keeps what each
   transaction that persisted a candidate had loaded; the code does not. -/
namespace Edon.Platform
open Transition Js Fallible

structure InstitutionSource where
  institutionId : String
  sourceId : String
  sourceVersion : String
  ownerId : String
  provenance : String
  sensitivity : String
  effectiveFrom : String
  effectiveTo : Option String
  contentHash : String
  classificationStatus : String
  ingestionTimestamp : String
  payload : Value

def InstitutionSource.key (r : InstitutionSource) : String × String × String :=
  (r.institutionId, r.sourceId, r.sourceVersion)

structure InstitutionCandidate where
  institutionId : String
  candidateId : String
  version : String
  irHash : String
  compilerVersion : String
  inputSourceHashes : List String
  validationFindings : List Value
  controlGraphDiff : Value
  status : String
  payload : Value
  createdAt : Int

def InstitutionCandidate.key (r : InstitutionCandidate) : String × String :=
  (r.institutionId, r.candidateId)

structure CompilerStore where
  sources : Table InstitutionSource.key := ∅
  candidates : Table InstitutionCandidate.key := ∅
  journal : Table EventEnvelope.eventId := ∅

/-! ## Statements -/

section
variable (pg : Postgres)

/-- The source as it is read back. -/
def InstitutionSource.stored (r : InstitutionSource) : InstitutionSource :=
  { r with payload := Js.stored r.payload }

/-- Whether the source was inserted. -/
def CompilerStore.putInstitutionSource (source : InstitutionSource) (store : CompilerStore) :
    Except Thrown (Bool × CompilerStore) := do
  let _ ← timestamptz pg source.effectiveFrom
  let _ ← source.effectiveTo.toList.mapM (timestamptz pg)
  let _ ← timestamptz pg source.ingestionTimestamp
  return match store.sources.insert source.stored with
    | some sources => (true, { store with sources })
    | none => (false, store)

/-- `ORDER BY source_id, source_version`. -/
def listedBefore (a b : InstitutionSource) : Prop :=
  (a.sourceId ≠ b.sourceId ∧ pg.collate a.sourceId b.sourceId = true) ∨
    (a.sourceId = b.sourceId ∧ pg.collate a.sourceVersion b.sourceVersion = true)

instance : DecidableRel (listedBefore pg) := fun _ _ => by unfold listedBefore; infer_instance

/-- The sources of an institution among these rows. -/
def sourcesOf (institutionId : String) (rows : List InstitutionSource) : List InstitutionSource :=
  (rows.filter fun r => r.institutionId = institutionId).insertionSort (listedBefore pg)

def CompilerStore.listInstitutionSources (institutionId : String) (store : CompilerStore) :
    List InstitutionSource :=
  sourcesOf pg institutionId store.sources.rows

def InstitutionCandidate.stored (c : InstitutionCandidate) : InstitutionCandidate :=
  { c with
    validationFindings := storedList c.validationFindings
    controlGraphDiff := Js.stored c.controlGraphDiff
    payload := Js.stored c.payload }

/-- A candidate whose id is taken is dropped. -/
def CompilerStore.createInstitutionCandidate (c : InstitutionCandidate) (store : CompilerStore) :
    CompilerStore :=
  match store.candidates.insert c.stored with
  | some candidates => { store with candidates }
  | none => store

def CompilerStore.appendEvent (e : EventEnvelope) (store : CompilerStore) :
    Except Thrown CompilerStore := do
  let (_, db) ← ({ journal := store.journal } : Db).appendEvent pg e
  return { store with journal := db.journal }

/-- `ORDER BY created_at DESC, candidate_id DESC`, read from its end. -/
def candidateBefore (a b : InstitutionCandidate) : Prop :=
  a.createdAt < b.createdAt ∨
    (a.createdAt = b.createdAt ∧ pg.collate a.candidateId b.candidateId = true)

instance : DecidableRel (candidateBefore pg) := fun _ _ => by unfold candidateBefore; infer_instance

def CompilerStore.candidatesOf (institutionId : String) (store : CompilerStore) :
    List InstitutionCandidate :=
  store.candidates.rows.filter fun r => r.institutionId = institutionId

end

/-! ## Compilation -/

def InstitutionSource.extracted (r : InstitutionSource) : Value :=
  .obj [("source_id", .str r.sourceId), ("source_version", .str r.sourceVersion),
    ("content_hash", .str r.contentHash),
    ("objects", orDefault (field r.payload "objects") r.payload)]

/-- `ir`. -/
def compiledIr (institutionId : String) (ordered : List InstitutionSource) : Value :=
  .obj [("institution_id", .str institutionId),
    ("sources", .arr (ordered.map InstitutionSource.extracted)),
    ("compiler_version", .str "institution-compiler-v1"),
    ("stages", texts ["EXTRACTION", "IR_MAPPING", "VALIDATION"])]

def InstitutionSource.inputHash (r : InstitutionSource) : String :=
  r.sourceId ++ "@" ++ r.sourceVersion ++ ":" ++ r.contentHash

def InstitutionSource.finding (r : InstitutionSource) (code : String) : Value :=
  .obj [("code", .str code), ("source_id", .str r.sourceId),
    ("source_version", .str r.sourceVersion)]

def InstitutionSource.findings (r : InstitutionSource) : List Value :=
  (if r.contentHash = "" ∨ r.sourceVersion = "" ∨ r.provenance = "" ∨ r.ownerId = "" then
    [r.finding "SOURCE_METADATA_INCOMPLETE"] else []) ++
  (if r.classificationStatus = "REJECTED" then [r.finding "SOURCE_REJECTED"] else []) ++
  (if r.classificationStatus = "PENDING" then [r.finding "SOURCE_UNCLASSIFIED"] else [])

def validationFindings (institutionId : String) (ordered : List InstitutionSource) : List Value :=
  (if ordered = [] then
    [.obj [("code", .str "NO_SOURCES"), ("institution_id", .str institutionId)]] else []) ++
  ordered.flatMap InstitutionSource.findings

/-- What an extracted source adds to the graph. -/
def InstitutionSource.added (r : InstitutionSource) : List Value :=
  match orDefault (field r.payload "objects") r.payload with
  | .arr xs => xs
  | _ => []

def graphDiff (ordered : List InstitutionSource) : Value :=
  .obj [("added", .arr (ordered.flatMap InstitutionSource.added)), ("changed", .arr []),
    ("removed", .arr [])]

/-- `text.slice(-16)`. -/
def lastSixteen (text : String) : String :=
  String.ofList (text.toList.drop (text.toList.length - 16))

section
variable (s : TransitionService)

/-- The comparison of `source_id:source_version`, as its sort uses it. -/
def orderedBefore (a b : InstitutionSource) : Prop :=
  s.js.localeCompare (a.sourceId ++ ":" ++ a.sourceVersion) (b.sourceId ++ ":" ++ b.sourceVersion) ≤ 0

instance : DecidableRel (orderedBefore s) := fun _ _ => by unfold orderedBefore; infer_instance

/-- The IR of the sources that were loaded. -/
def irOf (institutionId : String) (sources : List InstitutionSource) : Value :=
  compiledIr institutionId (sources.insertionSort (orderedBefore s))

def candidateIdOf (ir : Value) : String := "candidate-" ++ lastSixteen (s.hash ir)

def candidate (now : Int) (m : OutboxMessage) (institutionId : String)
    (sources : List InstitutionSource) : InstitutionCandidate :=
  let ordered := sources.insertionSort (orderedBefore s)
  let findings := validationFindings institutionId ordered
  let ir := irOf s institutionId sources
  { institutionId
    candidateId := candidateIdOf s ir
    version := "1"
    irHash := s.hash ir
    compilerVersion := "institution-compiler-v1"
    inputSourceHashes := ordered.map InstitutionSource.inputHash
    validationFindings := findings
    controlGraphDiff := graphDiff ordered
    status := if findings = [] then "VALIDATED" else "DRAFT"
    payload := .obj [("ir", ir), ("source_count", integer ordered.length),
      ("deterministic", .bool true), ("correlation_id", .str m.correlationId),
      ("trace_id", .str m.traceId)]
    createdAt := now }

def InstitutionCandidate.toJson (c : InstitutionCandidate) : Value :=
  .obj [("tenant_id", .str s.tenantId), ("institution_id", .str c.institutionId),
    ("candidate_id", .str c.candidateId), ("version", .str c.version), ("ir_hash", .str c.irHash),
    ("compiler_version", .str c.compilerVersion),
    ("input_source_hashes", texts c.inputSourceHashes),
    ("validation_findings", .arr c.validationFindings),
    ("control_graph_diff", c.controlGraphDiff), ("status", .str c.status),
    ("payload", c.payload)]

def candidateEventId (candidateId : String) : String := "institution-candidate:" ++ candidateId

def candidateEvent (w : Worker) (recordedAt : String) (m : OutboxMessage)
    (c : InstitutionCandidate) : EventEnvelope where
  eventId := candidateEventId c.candidateId
  tenantId := s.tenantId
  eventType := .institutionCandidateCompiled
  actorId := w.workerId
  actorType := "WORKER"
  scopeId := c.institutionId
  incidentId := c.candidateId
  occurredAt := recordedAt
  observedAt := recordedAt
  availableToControllerAt := recordedAt
  recordedAt := recordedAt
  correlationId := m.correlationId
  traceId := m.traceId
  stateVersionBefore := 0
  stateVersionAfter := 0
  policyVersion := "institution-compiler-v1"
  payload := .obj [("candidate_id", .str c.candidateId), ("ir_hash", .str c.irHash),
    ("input_source_hashes", texts c.inputSourceHashes),
    ("validation_findings", .arr c.validationFindings),
    ("control_graph_diff", c.controlGraphDiff)]
  payloadHash := s.hash (c.toJson s)
  previousRecordHash := "sha256:institution-compiler-genesis"

/-- The transaction that persists a candidate with its event. -/
def persistCandidate (w : Worker) (recordedAt : String) (m : OutboxMessage)
    (c : InstitutionCandidate) (store : CompilerStore) : Except Thrown CompilerStore :=
  (store.createInstitutionCandidate c).appendEvent s.pg (candidateEvent s w recordedAt m c)

def OutboxMessage.compiles (m : OutboxMessage) : Bool :=
  m.topic = "INSTITUTION_SOURCE_CHANGED" ∨ m.topic = "INSTITUTION_COMPILE_REQUESTED"

/-- `String(message.payload.institution_id ?? message.aggregate_id)`. -/
def OutboxMessage.institutionId (m : OutboxMessage) : Except Thrown String :=
  toText s.js (orDefault (field m.payload "institution_id") (.str m.aggregateId))

/-- How far `handle` has come with a message. -/
inductive Compiling where
  | start
  | loaded (institutionId : String) (sources : List InstitutionSource)
  | returned

/-- One transaction of `compileInstitution`. What lies between the two computes only. -/
def compileInstitution (w : Worker) (now : Int) (recordedAt : String) (m : OutboxMessage)
    (store : CompilerStore) : Compiling → Except Thrown (Compiling × CompilerStore)
  | .start =>
    if m.compiles then do
      let institutionId ← m.institutionId s
      return (.loaded institutionId (store.listInstitutionSources s.pg institutionId), store)
    else .ok (.returned, store)
  | .loaded institutionId sources => do
    let store ← persistCandidate s w recordedAt m (candidate s now m institutionId sources) store
    return (.returned, store)
  | .returned => .ok (.returned, store)

/-! ## Status -/

structure CompilationStatus where
  institutionId : String
  status : String
  stage : String
  percent : Nat
  candidate : Option InstitutionCandidate := none
  error : Option String := none

/-- The candidate that is reported: the last one created. -/
def CompilerStore.reported (institutionId : String) (store : CompilerStore) :
    Option InstitutionCandidate :=
  Sorting.latest (candidateBefore s.pg) (store.candidatesOf institutionId)

/-- The compile messages of an institution. -/
def compileMessages (institutionId : String) (outbox : Outbox) : List OutboxRow :=
  outbox.rows.filter fun r => r.message.compiles ∧ r.message.aggregateId = institutionId

/-- The last compile message, of those that were enqueued at one time the one that is scanned
last. -/
def lastQueued (institutionId : String) (outbox : Outbox) : Option OutboxRow :=
  Sorting.latest (fun a b : OutboxRow => a.createdAt ≤ b.createdAt)
    (compileMessages institutionId outbox)

def getInstitutionCompilationStatus (institutionId : String) (outbox : Outbox)
    (store : CompilerStore) : CompilationStatus :=
  let queued := lastQueued institutionId outbox
  match store.reported s institutionId with
  | some candidate =>
    { institutionId, status := "COMPLETED", stage := "VALIDATION", percent := 100
      candidate := some candidate
      error := queued.bind OutboxRow.lastError }
  | none =>
    let (status, stage, percent) := match queued.map OutboxRow.status with
      | some .deadLetter => ("FAILED", "FAILED", 100)
      | some .processing => ("PROCESSING", "EXTRACTION", 40)
      | some .completed => ("COMPLETED", "QUEUED", 5)
      | some .pending | none => ("COMPILATION_REQUESTED", "QUEUED", 5)
    { institutionId, status, stage, percent
      error := queued.bind OutboxRow.lastError }

/-! ## Routes -/

def InstitutionSource.toJson (r : InstitutionSource) : Value :=
  .obj ([("tenant_id", .str s.tenantId), ("institution_id", .str r.institutionId),
    ("source_id", .str r.sourceId), ("source_version", .str r.sourceVersion),
    ("owner_id", .str r.ownerId), ("provenance", .str r.provenance),
    ("sensitivity", .str r.sensitivity), ("effective_from", .str r.effectiveFrom)] ++
    optional "effective_to" r.effectiveTo ++ [("content_hash", .str r.contentHash),
    ("classification_status", .str r.classificationStatus),
    ("ingestion_timestamp", .str r.ingestionTimestamp), ("payload", r.payload)])

/-- The body has a value for the key that is not falsy. -/
def Request.has (r : Request) (key : String) : Bool := Js.truthy (field r.body key)

/-- The source of a request, if the request has all that is required. -/
def Request.source (institutionId : String) (r : Request) :
    Except Thrown (Option InstitutionSource) := do
  let sourceId ← r.text s.service "source_id" ""
  let sourceVersion ← r.text s.service "source_version" ""
  let effectiveFrom ← r.text s.service "effective_from" ""
  let contentHash ← r.text s.service "content_hash" ""
  if sourceId = "" ∨ sourceVersion = "" ∨ effectiveFrom = "" ∨ contentHash = "" ∨
      r.has "provenance" = false ∨ r.has "sensitivity" = false then return none
  else
    let provenance ← r.text s.service "provenance" ""
    let sensitivity ← r.text s.service "sensitivity" ""
    let effectiveTo ← r.text s.service "effective_to" ""
    let classificationStatus ← r.text s.service "classification_status" "PENDING"
    return some {
      institutionId, sourceId, sourceVersion
      ownerId := r.principal.actorId
      provenance, sensitivity, effectiveFrom
      effectiveTo := if r.has "effective_to" then some effectiveTo else none
      contentHash, classificationStatus
      ingestionTimestamp := r.bind.requestTimestamp
      payload := match field r.body "payload" with
        | some (.obj kvs) => .obj kvs
        | some (.arr xs) => .arr xs
        | _ => .obj [] }

def InstitutionSource.dedupeKey (r : InstitutionSource) : String :=
  "institution-compile:" ++ r.institutionId ++ ":" ++ r.sourceId ++ ":" ++ r.sourceVersion

/-- The message that compiles the source. -/
def InstitutionSource.message (r : InstitutionSource) (request : Request) : OutboxMessage where
  outboxId := "compile-source-" ++ s.tenantId ++ "-" ++ r.institutionId ++ "-" ++ r.sourceId ++
    "-" ++ r.sourceVersion
  dedupeKey := r.dedupeKey
  topic := "INSTITUTION_COMPILE_REQUESTED"
  aggregateId := r.institutionId
  payload := .obj [("institution_id", .str r.institutionId), ("source_id", .str r.sourceId),
    ("source_version", .str r.sourceVersion), ("content_hash", .str r.contentHash),
    ("requested_by", .str request.principal.actorId)]
  correlationId := request.bind.correlationId
  traceId := request.bind.traceId
  stateVersion := some 0

/-- The registration of a source enqueues its compilation. -/
def postSources (institutionId : String) (r : Request) (outbox : Outbox) (store : CompilerStore) :
    Except Thrown (Reply × Outbox × CompilerStore) := do
  match ← r.source s institutionId with
  | none => return (r.failure "VALIDATION_FAILED" ("Source id, version, provenance, " ++
      "sensitivity, effective_from and content_hash are required"), outbox, store)
  | some source =>
    match ← store.putInstitutionSource s.pg source with
    | (false, store) =>
      return (r.failure "VALIDATION_FAILED" "Source version already exists", outbox, store)
    | (true, store) => do
      let (_, outbox) ← enqueueOutbox r.now (source.message s r) outbox
      return (r.reply 201 (source.toJson s), outbox, store)

/-- The message of a request to compile. -/
def requestMessage (institutionId : String) (r : Request) : OutboxMessage where
  outboxId := "compile-request-" ++ s.tenantId ++ "-" ++ institutionId ++ "-" ++
    r.bind.idempotencyKey
  dedupeKey := "institution-compile-request:" ++ institutionId ++ ":" ++ r.bind.idempotencyKey
  topic := "INSTITUTION_COMPILE_REQUESTED"
  aggregateId := institutionId
  payload := .obj [("institution_id", .str institutionId),
    ("requested_by", .str r.principal.actorId)]
  correlationId := r.bind.correlationId
  traceId := r.bind.traceId
  stateVersion := some 0

def postCompilations (r : Request) (outbox : Outbox) : Except Thrown (Reply × Outbox) := do
  let institutionId ← r.text s.service "institution_id" ""
  if institutionId = "" then
    return (r.failure "VALIDATION_FAILED" "institution_id is required", outbox)
  else
    let (queued, outbox) ← enqueueOutbox r.now (requestMessage s institutionId r) outbox
    return (r.reply (if queued then 202 else 200) (.obj [("institution_id", .str institutionId),
      ("queued", .bool queued), ("status", .str "COMPILATION_REQUESTED")]), outbox)

/-! ## All workers -/

/-- The queue with its workers, the tables, how far each handler is, and what was loaded for
each candidate that was persisted. -/
structure Compilations where
  queue : Queue
  store : CompilerStore
  handler : Nat → Compiling
  persisted : List (String × List InstitutionSource)

inductive CompilerMove where
  | postSources (institutionId : String) (r : Request)
  | postCompilations (r : Request)
  /-- An action of the queue. A handler may throw at any time, and returns when it is done. -/
  | queue (a : Action)
  /-- The next transaction of a handler, with the error it ends with if it throws. -/
  | handle (w : Nat) (now : Int) (recordedAt error : String)

variable (workers : Nat → Worker)

/-- What a handler persists next. -/
def Compiling.persists : Compiling → List (String × List InstitutionSource)
  | .loaded institutionId sources => [(institutionId, sources)]
  | _ => []

def Compilations.next (d : Compilations) : CompilerMove → Compilations
  | .postSources institutionId r =>
    match postSources s institutionId r d.queue.outbox d.store with
    | .ok (_, outbox, store) => { d with queue := { d.queue with outbox }, store }
    | .error _ => d
  | .postCompilations r =>
    match postCompilations s r d.queue.outbox with
    | .ok (_, outbox) => { d with queue := { d.queue with outbox } }
    | .error _ => d
  | .queue (.enqueue now message) =>
    -- the two routes alone enqueue compile messages
    if message.compiles then d
    else { d with queue := step workers d.queue (.enqueue now message) }
  | .queue (.finish w (.ok ())) =>
    match d.handler w with
    | .returned => { d with queue := step workers d.queue (.finish w (.ok ())) }
    | _ => d
  | .queue (.claim w now locked) =>
    match d.queue.phase w with
    | .idle => { d with
        queue := step workers d.queue (.claim w now locked)
        handler := Function.update d.handler w .start }
    | _ => d
  | .queue a => { d with queue := step workers d.queue a }
  | .handle w now recordedAt error =>
    match d.queue.phase w with
    | .running claim =>
      match compileInstitution s (workers w) now recordedAt claim.message d.store (d.handler w) with
      | .ok (h, store) => { d with
          store
          handler := Function.update d.handler w h
          persisted := d.persisted ++ (d.handler w).persists }
      | .error _ => { d with queue := step workers d.queue (.finish w (.error error)) }
    | _ => d

end

/-- Nothing in the tables, and no worker at work. -/
def Compilations.empty : Compilations := ⟨⟨∅, fun _ => .idle⟩, {}, fun _ => .returned, []⟩

end Edon.Platform
