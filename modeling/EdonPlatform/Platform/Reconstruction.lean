import EdonPlatform.Platform.Executions
import EdonPlatform.Platform.Release
import EdonPlatform.Platform.Signing

/- The reconstruction of a case (packages/platform-core/src/reconstruction.ts,
   `ForensicReconstructionService`) from the tables of its tenant.

   Correspondence (TypeScript ↔ Lean):
     `ReconstructionOptions`, `Reconstruction` ↔ the same names
     `listReceipts`, `putReceipt`              ↔ `listReceipts`, `putReceipt`
     `reconstruct`                             ↔ `reconstruct` (`timeline` are its events)
     `exportPackage`                           ↔ `exportPackage` (`packageFiles` before the
                                                 manifest)
     the writes of the repositories            ↔ `Write` and `CaseStore.write`

   A comparison `<=` of two texts is one of their UTF-16 code units. -/
namespace Edon.Platform
open Js Fallible

/-- The tables a reconstruction reads. -/
structure CaseStore where
  db : Db := {}
  receipts : Table Receipt.receiptId := ∅
  executions : Executions := {}

/-- The service, with the text `->>` makes of a value that is no string, and its signer. -/
structure ForensicReconstructionService extends TransitionService where
  jsonbText : Value → String
  sign : String → Except Thrown SignatureEnvelope

structure ReconstructionOptions where
  caseId : String
  cutoff : Option String := none
  offset : Option Number := none
  includeRestricted : Bool := false
  legalHold : Option Bool := none

inductive ReconstructionError where
  | caseScopeRequired
  | legalHoldPolicyBlocked
  | signer (e : Thrown)
  deriving DecidableEq

structure Integrity where
  recordIntegrity : String := "HASH_CHAIN_REQUIRES_VERIFICATION"
  sourceVerification : String := "SEPARATE_FROM_INTEGRITY"
  evidenceStatus : String := "EXPLICIT_STATUS_REQUIRED"
  outcomeVerification : String := "SEPARATE_FROM_EVIDENCE"
  causalAdjudication : String := "NO_AUTOMATIC_CAUSATION"
  gaps : List String

structure Omission where
  resource : String
  reason : String

structure Reconstruction where
  caseId : String
  tenantId : String
  cutoff : String
  events : List EventEnvelope
  state : Option (Int × Value)
  receipts : List Value
  commands : List ExecutionCommand
  integrity : Integrity
  omissions : List Omission

/-! ## Reads -/

/-- The UTF-16 code units of a text. -/
def codeUnits (text : String) : List Nat :=
  text.toList.flatMap fun c =>
    if c.toNat < 0x10000 then [c.toNat]
    else [0xD800 + (c.toNat - 0x10000) / 0x400, 0xDC00 + (c.toNat - 0x10000) % 0x400]

/-- `!options.cutoff || recordedAt <= options.cutoff`. -/
def ReconstructionOptions.admits (o : ReconstructionOptions) (recordedAt : String) : Bool :=
  o.cutoff.all fun cutoff => cutoff = "" ∨ codeUnits recordedAt ≤ codeUnits cutoff

/-- The end of `slice(0, Math.max(0, offset))`; none where that is the whole list. -/
def sliceEnd : Number → Option Nat
  | .finite q => some q.floor.toNat
  | .posInf => none
  | .negInf => some 0
  | .nan => some 0

section
variable (s : ForensicReconstructionService)

/-- `payload->>'incident_id'`. -/
def incidentOf (payload : Value) : Option String :=
  match field payload "incident_id" with
  | none => none
  | some .null => none
  | some (.str text) => some text
  | some v => some (s.jsonbText v)

/-- `ORDER BY receipt_id`. -/
def receiptBefore (a b : Receipt) : Prop := s.pg.collate a.receiptId b.receiptId = true

instance : DecidableRel (receiptBefore s) := fun _ _ => inferInstanceAs (Decidable (_ = _))

def CaseStore.listReceipts (incidentId : String) (store : CaseStore) : List Value :=
  ((store.receipts.rows.filter (fun r => incidentOf s r.payload = some incidentId)).insertionSort
    (receiptBefore s)).map Receipt.payload

/-- The comparison of the timeline: `recorded_at`, then `event_id`. -/
def timelineBefore (a b : EventEnvelope) : Prop :=
  s.js.localeCompare a.recordedAt b.recordedAt < 0 ∨
    (s.js.localeCompare a.recordedAt b.recordedAt = 0 ∧
      s.js.localeCompare a.eventId b.eventId ≤ 0)

instance : DecidableRel (timelineBefore s) := fun _ _ =>
  inferInstanceAs (Decidable (_ < _ ∨ (_ = _ ∧ _ ≤ _)))

/-- The events of the case that the cutoff admits, in the order of the database. -/
def CaseStore.admitted (o : ReconstructionOptions) (store : CaseStore) : List EventEnvelope :=
  (store.db.getEvents s.pg (some o.caseId)).filter (fun e => o.admits e.recordedAt)

def CaseStore.timeline (o : ReconstructionOptions) (store : CaseStore) : List EventEnvelope :=
  let sorted := (store.admitted s o).insertionSort (timelineBefore s)
  match o.offset.bind sliceEnd with
  | some n => sorted.take n
  | none => sorted

/-- The commands of the case whose dispatch was requested by the cutoff. -/
def CaseStore.commands (o : ReconstructionOptions) (store : CaseStore) : List ExecutionCommand :=
  (store.executions.listExecutions s.pg o.caseId).filter
    (fun command => o.admits command.dispatchRequestedAt)

/-- The state of the one scope reconstructions report. -/
def CaseStore.state (store : CaseStore) : Option (Int × Value) :=
  (store.db.getState "memphis-fulfillment").map (fun row => (row.version, row.values))

/-! ## The reconstruction -/

/-- The reconstruction of a request that is not refused. -/
def CaseStore.reconstruction (o : ReconstructionOptions) (store : CaseStore) : Reconstruction :=
  let events := store.timeline s o
  { caseId := o.caseId
    tenantId := s.tenantId
    cutoff := o.cutoff.getD
      ((events.getLast?.map EventEnvelope.recordedAt).getD "1970-01-01T00:00:00.000Z")
    events
    state := store.state
    receipts := store.listReceipts s o.caseId
    commands := store.commands s o
    integrity := { gaps := if events = [] then ["NO_EVENTS_AT_CUTOFF"] else [] }
    omissions :=
      if o.includeRestricted then []
      else [⟨"restricted-evidence", "case authorization does not permit disclosure"⟩] }

def CaseStore.reconstruct (o : ReconstructionOptions) (store : CaseStore) :
    Except ReconstructionError Reconstruction := do
  require (o.caseId ≠ "") .caseScopeRequired
  require (o.legalHold ≠ some false) .legalHoldPolicyBlocked
  return store.reconstruction s o

/-! ## The package -/

def Integrity.toJson (i : Integrity) : Value :=
  .obj [("record_integrity", .str i.recordIntegrity),
    ("source_verification", .str i.sourceVerification),
    ("evidence_status", .str i.evidenceStatus),
    ("outcome_verification", .str i.outcomeVerification),
    ("causal_adjudication", .str i.causalAdjudication), ("gaps", texts i.gaps)]

def Omission.toJson (o : Omission) : Value :=
  .obj [("resource", .str o.resource), ("reason", .str o.reason)]

def omissionsJson (omissions : List Omission) : Value := .arr (omissions.map Omission.toJson)

def SignatureEnvelope.toJson (e : SignatureEnvelope) : Value :=
  .obj ([("signature", .str e.signature), ("key_id", .str e.keyId)] ++
    optional "key_version" e.keyVersion ++
    [("algorithm", .str e.algorithm), ("signed_at", .str e.signedAt), ("digest", .str e.digest)])

def jsonl (items : List Value) : String :=
  "\n".intercalate (items.map (canonicalize s.toTransitionService)) ++
    (if items = [] then "" else "\n")

/-- The events of these types, a line each. -/
def eventLines (r : Reconstruction) (types : List LifecycleEvent) : String :=
  jsonl s ((r.events.filter (fun e => e.eventType ∈ types)).map EventEnvelope.toJson)

def packageFiles (r : Reconstruction) : List (String × String) :=
  let write := canonicalize s.toTransitionService
  [("timeline.jsonl", jsonl s (r.events.map EventEnvelope.toJson)),
    ("state-snapshots.jsonl", jsonl s (r.state.toList.map fun state =>
      .obj [("version", integer state.1), ("values", state.2)])),
    ("state-diffs.jsonl", jsonl s []),
    ("evidence-index.json", write (.obj [("status", .str r.integrity.evidenceStatus),
      ("omissions", omissionsJson r.omissions)])),
    ("actors.json", write (.obj [("actors",
      texts (r.events.map EventEnvelope.actorId).eraseDups)])),
    ("authority.json", write (.obj [("authority_versions",
      texts (r.events.map EventEnvelope.policyVersion).eraseDups)])),
    ("model-invocations.jsonl", eventLines s r [.modelInvoked]),
    ("proposals.jsonl", eventLines s r [.proposalCreated]),
    ("kernel-decisions.jsonl", eventLines s r [.kernelDecided]),
    ("human-reviews.jsonl", eventLines s r [.humanReviewed]),
    ("commands.jsonl", jsonl s (r.commands.map ExecutionCommand.toJson)),
    ("outcomes.jsonl", eventLines s r [.outcomeObserved, .outcomeVerified]),
    ("integrity-report.json", write r.integrity.toJson),
    ("human-readable-report.pdf", "%PDF-1.4\n% Cerebrum signed reconstruction\n" ++
      "Case " ++ r.caseId ++ "\n" ++ "%%EOF\n")]

structure EvidencePackage where
  manifest : Value
  files : List (String × String)
  signature : SignatureEnvelope

def manifestOf (r : Reconstruction) : Value :=
  .obj [("format", .str "cerebrum-evidence-package-v1"), ("tenant_id", .str r.tenantId),
    ("case_id", .str r.caseId), ("cutoff", .str r.cutoff),
    ("files", .obj ((packageFiles s r).map fun f => (f.1, .str ("sha256:" ++ s.sha256 f.2)))),
    ("omissions", omissionsJson r.omissions), ("integrity", r.integrity.toJson)]

def signed {α : Type} : Except Thrown α → Except ReconstructionError α
  | .ok a => .ok a
  | .error e => .error (.signer e)

def CaseStore.exportPackage (o : ReconstructionOptions) (store : CaseStore) :
    Except ReconstructionError EvidencePackage := do
  let r ← store.reconstruct s o
  let manifest := manifestOf s r
  let signature ← signed (s.sign (canonicalize s.toTransitionService manifest))
  return {
    manifest
    files := packageFiles s r ++
      [("manifest.json", canonicalize s.toTransitionService manifest),
       ("signatures/manifest.signature.json",
        canonicalize s.toTransitionService signature.toJson)]
    signature }

/-! ## Writes -/

/-- A statement of the repositories that writes a table a reconstruction may read. -/
inductive Write where
  | appendEvent (event : EventEnvelope)
  | putReceipt (receipt : Receipt)
  | putState (scopeId : String) (version expectedVersion : Int) (values : Value)
      (stateHash : String)
  | putExecution (now : Int) (command : ExecutionCommand)
  | updateExecution (command : ExecutionCommand) (expectedStatus : ExecutionStatus)
  | putExecutionTransition (transition : ExecutionTransition)

/-- A receipt whose id is taken is dropped. -/
def CaseStore.putReceipt (receipt : Receipt) (store : CaseStore) : CaseStore :=
  match store.receipts.insert { receipt with payload := stored receipt.payload } with
  | some receipts => { store with receipts }
  | none => store

/-- The store after the statement; one that fails changes nothing. -/
def CaseStore.write (store : CaseStore) : Write → CaseStore
  | .appendEvent event =>
    match store.db.appendEvent s.pg event with
    | .ok (_, db) => { store with db }
    | .error _ => store
  | .putReceipt receipt => store.putReceipt receipt
  | .putState scopeId version expectedVersion values stateHash =>
    match store.db.putState scopeId version expectedVersion values stateHash with
    | some db => { store with db }
    | none => store
  | .putExecution now command =>
    match store.executions.putExecution now command with
    | .ok (_, executions) => { store with executions }
    | .error _ => store
  | .updateExecution command expectedStatus =>
    { store with executions := (store.executions.updateExecution command expectedStatus).2 }
  | .putExecutionTransition transition =>
    match store.executions.putExecutionTransition s.pg transition with
    | .ok (_, executions) => { store with executions }
    | .error _ => store

end
end Edon.Platform
