import EdonPlatform.Platform.Repositories
import EdonPlatform.Lib.Representation

/- The repository interface and its two implementations
   (packages/platform-core/src/repositories.ts; the executor of
   apps/control-plane-api/src/start.ts; migrations 001 to 018): the methods that read
   events, states, reviews, decisions, outcomes, receipts and stored responses, and those
   that write what they read. Here the tables hold every tenant, unlike `Db`.

   Correspondence (TypeScript ↔ Lean):
     a call of a method               ↔ `RepositoryCall`, what it returns ↔ `Returned`
     `InMemoryPlatformRepositories`   ↔ `Memory`, `Memory.call`
     the tables                       ↔ `Tables`
     `PostgreSQLPlatformRepositories` ↔ `Tables.call`
     `current_setting('app.tenant_id')`, `now()` ↔ `Access`
     `transaction`                    ↔ `RepositoryStep`, `Sql.step`

   The tables have row level security: a statement sees the rows of the tenant of its
   transaction, and writes no others. Outside a transaction there is no tenant. A statement
   that fails leaves its transaction in a state where every other one fails, and a
   transaction in that state is rolled back, also if its error is caught. Every other method
   is `RepositoryCall.other`: what it writes is read by none of the methods here. -/
namespace Edon.Platform
open Js Fallible

/-- A record that is written as a whole: a receipt, an outcome or a stored response. -/
structure Document where
  tenantId : String
  id : String
  value : Value

def Document.key (d : Document) : String × String := (d.tenantId, d.id)

/-- `StoredReview & { tenant_id: string }`. -/
structure TenantReview where
  tenantId : String
  review : StoredReview

def TenantReview.proposal (r : TenantReview) : String × String := (r.tenantId, r.review.proposalId)

/-- `StoredKernelDecision`. -/
structure TenantDecision where
  tenantId : String
  decision : KernelDecision
  recordedAt : Option String

def TenantDecision.key (d : TenantDecision) : String × String := (d.tenantId, d.decision.decisionId)

def TenantDecision.proposal (d : TenantDecision) : String × String :=
  (d.tenantId, d.decision.proposalId)

/-- `decision.recorded_at ?? decision.evaluated_at`. -/
def TenantDecision.stored (d : TenantDecision) : StoredKernelDecision :=
  ⟨d.decision, d.recordedAt.getD d.decision.evaluatedAt⟩

/-- `ReceiptCustodyRecord`. -/
structure Custody where
  tenantId : String
  receiptId : String
  status : String
  digest : String
  signature : String
  algorithm : String
  keyId : String
  keyVersion : Option String
  signedAt : String

def Custody.key (c : Custody) : String × String := (c.tenantId, c.receiptId)

/-- What `putState` uses of an incident. -/
structure StoredIncident where
  tenantId : String
  scopeId : String
  stateVersion : Int
  values : Option Value
  stateHash : Option String

inductive RepositoryCall where
  | appendEvent (event : EventEnvelope)
  | getEvents (tenantId : String) (incidentId : Option String)
  | putState (incident : StoredIncident) (expectedVersion : Int)
  | getState (tenantId scopeId : String)
  | putReview (review : TenantReview)
  | getReview (tenantId proposalId : String)
  | putKernelDecision (decision : TenantDecision)
  | getKernelDecision (tenantId proposalId : String)
  | putOutcome (outcome : Document)
  | getOutcome (tenantId outcomeId : String)
  | putReceipt (receipt : Document)
  | getReceipt (tenantId receiptId : String)
  | putReceiptCustody (record : Custody)
  | claimIdempotency (tenantId key : String) (response : Option Value)
  | putIdempotencyResponse (tenantId key : String) (response : Option Value)
  | getIdempotency (tenantId key : String)
  | other (refused : Bool)

inductive Returned where
  | nothing
  | flag (b : Bool)
  | events (events : List EventEnvelope)
  | state (state : Option (Int × Value))
  | review (review : Option TenantReview)
  | decision (decision : Option TenantDecision)
  | document (value : Option Value)
  | claim (claimed : Bool) (response : Option Value)

/-- The same result, up to the order of events. -/
def Returned.Same : Returned → Returned → Prop
  | .events l, .events m => l.Perm m
  | a, b => a = b

/-! ## In memory -/

/-- The key of the maps: `${tenant}:${id}`. -/
def mapKey (k : String × String) : String := k.1 ++ ":" ++ k.2

structure Memory where
  events : List EventEnvelope := []
  states : Dict String (Int × Value) := ∅
  receipts : Dict String Value := ∅
  decisions : Dict String TenantDecision := ∅
  reviews : Dict String TenantReview := ∅
  outcomes : Dict String Value := ∅
  idempotency : Dict String (Option Value) := ∅
  custody : Dict String Custody := ∅

def Memory.call (m : Memory) : RepositoryCall → Returned × Memory
  | .appendEvent event =>
    if m.events.any fun e => e.tenantId = event.tenantId ∧ e.eventId = event.eventId then
      (.flag false, m)
    else (.flag true, { m with events := m.events ++ [event] })
  | .getEvents tenantId incidentId =>
    (.events (m.events.filter fun e => e.tenantId = tenantId ∧
      incidentId.all (fun i => i = "" ∨ e.incidentId = i) = true), m)
  | .putState incident expectedVersion =>
    if incident.stateVersion ≠ expectedVersion ∧ incident.stateVersion ≠ expectedVersion + 1 then
      (.flag false, m)
    else
      let state := (incident.stateVersion, incident.values.getD (.obj []))
      let states := m.states.set (mapKey (incident.tenantId, incident.scopeId)) state
      (.flag true, { m with states })
  | .getState _ _ => (.state none, m)
  | .putReview review =>
    (.nothing, { m with reviews := m.reviews.set (mapKey review.proposal) review })
  | .getReview tenantId proposalId => (.review (m.reviews.get (mapKey (tenantId, proposalId))), m)
  | .putKernelDecision decision =>
    (.nothing, { m with decisions := m.decisions.set (mapKey decision.proposal) decision })
  | .getKernelDecision tenantId proposalId =>
    (.decision (m.decisions.get (mapKey (tenantId, proposalId))), m)
  | .putOutcome outcome =>
    (.nothing, { m with outcomes := m.outcomes.set (mapKey outcome.key) outcome.value })
  | .getOutcome tenantId outcomeId => (.document (m.outcomes.get (mapKey (tenantId, outcomeId))), m)
  | .putReceipt receipt =>
    (.nothing, { m with receipts := m.receipts.set (mapKey receipt.key) receipt.value })
  | .getReceipt tenantId receiptId => (.document (m.receipts.get (mapKey (tenantId, receiptId))), m)
  | .putReceiptCustody record =>
    match m.custody.get (mapKey record.key) with
    | some _ => (.flag false, m)
    | none => (.flag true, { m with custody := m.custody.set (mapKey record.key) record })
  | .claimIdempotency tenantId key response =>
    match m.idempotency.get (mapKey (tenantId, key)) with
    | some first => (.claim false first, m)
    | none => (.claim true response,
        { m with idempotency := m.idempotency.set (mapKey (tenantId, key)) response })
  | .putIdempotencyResponse tenantId key response =>
    (.nothing, { m with idempotency := m.idempotency.set (mapKey (tenantId, key)) response })
  | .getIdempotency tenantId key =>
    (.document (m.idempotency.get (mapKey (tenantId, key))).join, m)
  | .other _ => (.nothing, m)

/-! ## In the database -/

structure ReviewRecord extends TenantReview where
  recordedAt : Int

def ReviewRecord.key (r : ReviewRecord) : String × String := (r.tenantId, r.review.reviewId)

structure StateSnapshot where
  tenantId : String
  scopeId : String
  version : Int
  values : Value
  stateHash : String

def StateSnapshot.key (s : StateSnapshot) : String × String := (s.tenantId, s.scopeId)

def eventKey (e : EventEnvelope) : String × String := (e.tenantId, e.eventId)

structure Tables where
  journal : Table eventKey := ∅
  snapshots : Table StateSnapshot.key := ∅
  reviews : Table ReviewRecord.key := ∅
  decisions : Table TenantDecision.key := ∅
  outcomes : Table Document.key := ∅
  receipts : Table Document.key := ∅
  custody : Table Custody.key := ∅
  idempotency : Table Document.key := ∅

/-- What a statement runs as: the tenant of its transaction and the time it began. -/
structure Access where
  tenantId : Option String
  now : Int

/-- The policy of every table. -/
def Access.sees (a : Access) (tenantId : String) : Bool := a.tenantId = some tenantId

/-- A row of another tenant is refused. -/
def Access.check (a : Access) (tenantId : String) : Except Thrown Unit :=
  require (a.sees tenantId) .database

/-- `INSERT INTO ... ON CONFLICT DO NOTHING`, of the value as `jsonb`. -/
def insertDocument (a : Access) (d : Document) (t : Table Document.key) :
    Except Thrown (Bool × Table Document.key) := do
  a.check d.tenantId
  return match t.insert { d with value := stored d.value } with
    | some t => (true, t)
    | none => (false, t)

/-- The row with the key, where it is seen. -/
def selectDocument (a : Access) (tenantId id : String) (t : Table Document.key) : Option Value :=
  if a.sees tenantId then (t.get (tenantId, id)).map Document.value else none

/-- `ORDER BY recorded_at`; which of two reviews of one time is first is not said. -/
def reviewedBefore (a b : ReviewRecord) : Prop := a.recordedAt ≤ b.recordedAt

instance : DecidableRel reviewedBefore := fun _ _ => inferInstanceAs (Decidable (_ ≤ _))

/-- The last review of the proposal. -/
def Tables.lastReview (t : Tables) (proposal : String × String) : Option TenantReview :=
  (Sorting.latest reviewedBefore (t.reviews.rows.filter fun r => r.proposal = proposal)).map
    ReviewRecord.toTenantReview

/-- The custody row's fields in the place of the receipt's own. -/
def Custody.sign (c : Custody) (receipt : Value) : Value :=
  match receipt with
  | .obj kvs =>
    let signed := [("signature_status", c.status), ("signature", c.signature), ("digest", c.digest),
      ("algorithm", c.algorithm), ("key_id", c.keyId)].foldl
        (fun kvs field => Assoc.put kvs field.1 (.str field.2)) kvs
    let versioned := match c.keyVersion with
      | some version => Assoc.put signed "key_version" (.str version)
      | none => Assoc.remove signed "key_version"
    .obj (Assoc.put versioned "signed_at" (.str c.signedAt))
  | v => v

section
variable (pg : Postgres)

/-- `ORDER BY recorded_at, decision_id`. -/
def decisionBefore (a b : TenantDecision) : Prop := decidedBefore pg a.stored b.stored

instance : DecidableRel (decisionBefore pg) := fun a b =>
  inferInstanceAs (Decidable (decidedBefore pg a.stored b.stored))

/-- The last decision on the proposal. -/
def Tables.lastDecision (t : Tables) (proposal : String × String) : Option TenantDecision :=
  Sorting.latest (decisionBefore pg) (t.decisions.rows.filter fun d => d.proposal = proposal)

/-- The update of the row that has the expected version, or else an insert. -/
def Tables.putState (a : Access) (incident : StoredIncident) (expectedVersion : Int) (t : Tables) :
    Except Thrown (Bool × Tables) :=
  let key := (incident.tenantId, incident.scopeId)
  let values := stored (incident.values.getD (.obj []))
  let stateHash := incident.stateHash.getD ""
  if incident.stateVersion ≠ expectedVersion + 1 then .ok (false, t)
  else if a.sees incident.tenantId ∧
      (t.snapshots.get key).any (fun row => row.version = expectedVersion) = true then
    let snapshots := t.snapshots.modify key
      (fun row => { row with version := incident.stateVersion, values, stateHash }) (fun _ => rfl)
    .ok (true, { t with snapshots })
  else do
    a.check incident.tenantId
    return match t.snapshots.insert
        ⟨incident.tenantId, incident.scopeId, incident.stateVersion, values, stateHash⟩ with
      | some snapshots => (true, { t with snapshots })
      | none => (false, t)

def Tables.call (a : Access) (t : Tables) : RepositoryCall → Except Thrown (Returned × Tables)
  | .appendEvent event => do
    a.check event.tenantId
    let _ ← timestamptz pg event.recordedAt
    return match t.journal.insert event.journaled with
      | some journal => (.flag true, { t with journal })
      | none => (.flag false, t)
  | .getEvents tenantId incidentId =>
    .ok (.events ((t.journal.rows.filter fun e => a.sees tenantId = true ∧ e.tenantId = tenantId ∧
      incidentId.all (e.incidentId = ·) = true).insertionSort (recordedBefore pg)), t)
  | .putState incident expectedVersion => do
    let (put, t) ← t.putState a incident expectedVersion
    return (.flag put, t)
  | .getState tenantId scopeId =>
    .ok (.state (if a.sees tenantId then
      (t.snapshots.get (tenantId, scopeId)).map fun row => (row.version, row.values) else none), t)
  | .putReview review => do
    a.check review.tenantId
    return match t.reviews.insert { review with recordedAt := a.now } with
      | some reviews => (.nothing, { t with reviews })
      | none => (.nothing, t)
  | .getReview tenantId proposalId =>
    .ok (.review (if a.sees tenantId then t.lastReview (tenantId, proposalId) else none), t)
  | .putKernelDecision decision => do
    a.check decision.tenantId
    let _ ← timestamptz pg decision.stored.recordedAt
    return match t.decisions.insert decision with
      | some decisions => (.nothing, { t with decisions })
      | none => (.nothing, t)
  | .getKernelDecision tenantId proposalId =>
    .ok (.decision (if a.sees tenantId then t.lastDecision pg (tenantId, proposalId) else none), t)
  | .putOutcome outcome => do
    let (_, outcomes) ← insertDocument a outcome t.outcomes
    return (.nothing, { t with outcomes })
  | .getOutcome tenantId outcomeId =>
    .ok (.document (selectDocument a tenantId outcomeId t.outcomes), t)
  | .putReceipt receipt => do
    let (_, receipts) ← insertDocument a receipt t.receipts
    return (.nothing, { t with receipts })
  | .getReceipt tenantId receiptId =>
    .ok (.document ((selectDocument a tenantId receiptId t.receipts).map fun receipt =>
      match t.custody.get (tenantId, receiptId) with
      | some c => c.sign receipt
      | none => receipt), t)
  | .putReceiptCustody record => do
    a.check record.tenantId
    match t.custody.insert record with
    | none => .ok (.flag false, t)
    | some custody =>
      -- the foreign key
      if (t.receipts.get record.key).isSome then .ok (.flag true, { t with custody })
      else .error .database
  | .claimIdempotency tenantId key response => do
    let value ← orRaise .database response
    let (inserted, idempotency) ← insertDocument a ⟨tenantId, key, value⟩ t.idempotency
    if inserted then .ok (.claim true response, { t with idempotency })
    else .ok (.claim false (selectDocument a tenantId key t.idempotency), t)
  | .putIdempotencyResponse tenantId key response =>
    if a.sees tenantId ∧ (t.idempotency.get (tenantId, key)).isSome = true then do
      let value ← orRaise .database response
      let idempotency := t.idempotency.modify (tenantId, key)
        (fun d => { d with value := stored value }) (fun _ => rfl)
      return (.nothing, { t with idempotency })
    else .ok (.nothing, t)
  | .getIdempotency tenantId key =>
    .ok (.document (selectDocument a tenantId key t.idempotency), t)
  | .other refused => if refused then .error .database else .ok (.nothing, t)

end

/-! ## Transactions -/

/-- An open transaction: the calls of `transaction` inside it that have not returned, whether a
statement of it has failed, and the tables as it sees them. -/
structure Session where
  tenantId : String
  now : Int
  depth : Nat
  failed : Bool
  tables : Tables

structure Sql where
  tables : Tables := {}
  session : Option Session := none

/-- A call of `transaction` begins, returns or throws; or another method is called. -/
inductive RepositoryStep where
  | enter (tenantId : String) (now : Int)
  | leave
  | throw
  | call (c : RepositoryCall)

/-- What a call runs as, and the tables it sees. -/
def Sql.access (q : Sql) : Access :=
  match q.session with
  | some s => ⟨some s.tenantId, s.now⟩
  | none => ⟨none, 0⟩

def Sql.current (q : Sql) : Tables :=
  match q.session with
  | some s => s.tables
  | none => q.tables

def Sql.failed (q : Sql) : Bool :=
  match q.session with
  | some s => s.failed
  | none => false

section
variable (pg : Postgres)

def Sql.call (q : Sql) (c : RepositoryCall) : Except Thrown (Returned × Tables) :=
  if q.failed then .error .database else q.current.call pg q.access c

/-- Only the outermost call of `transaction` begins and ends one. -/
def Sql.step (q : Sql) : RepositoryStep → Sql
  | .enter tenantId now =>
    match q.session with
    | none => { q with session := some ⟨tenantId, now, 0, false, q.tables⟩ }
    | some s => { q with session := some { s with depth := s.depth + 1 } }
  | .leave =>
    match q.session with
    | none => q
    | some s =>
      match s.depth with
      | depth + 1 => { q with session := some { s with depth } }
      | 0 => ⟨if s.failed then q.tables else s.tables, none⟩
  | .throw =>
    match q.session with
    | none => q
    | some s =>
      match s.depth with
      | depth + 1 => { q with session := some { s with depth } }
      | 0 => { q with session := none }
  | .call c =>
    match q.session, q.call pg c with
    | some s, .ok (_, tables) => { q with session := some { s with tables } }
    | some s, .error _ => { q with session := some { s with failed := true } }
    | none, .ok (_, tables) => { q with tables }
    | none, .error _ => q

end

/-- In memory a transaction is its calls. -/
def Memory.step (m : Memory) : RepositoryStep → Memory
  | .call c => (m.call c).2
  | _ => m

end Edon.Platform
