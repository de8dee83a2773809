import EdonPlatform.ActionNet.Store

/- Governed abstractions at the boundary of an institution
   (edon/actionnet/product/intake.py): what `GovernedAbstractionValidator` accepts, and the
   normalized form it keeps.

   Correspondence (Python ↔ Lean):
     `FORBIDDEN_SENSITIVE_KEYS` ↔ `forbiddenSensitiveKeys`
     `_scan`                    ↔ `scanSensitive`
     `normalize`                ↔ `normalizeAbstraction`

   `json.loads(json.dumps(document))` of a finite document is the document. -/
namespace Edon.ActionNet

def intakeError (message : String) : PyError := ⟨.governedIntakeError, message⟩

def intakeRightsBases : List String :=
  ["CONSENT", "CONTRACT", "LEGAL_OBLIGATION", "LEGITIMATE_INTEREST", "PUBLIC_SOURCE",
    "INTERNAL_AUTHORIZATION"]

def forbiddenSensitiveKeys : List String :=
  ["raw", "raw_payload", "raw_record", "raw_source", "customer_data", "patient_data",
    "patient_name", "customer_name", "full_name", "first_name", "last_name", "ssn",
    "social_security_number", "email", "phone", "address", "password", "secret", "access_token",
    "api_key", "biometric", "medical_record_number", "account_number"]

def governanceKeys : List String := ["raw_payload_retained_locally", "raw_payload_stored"]

def requiredAbstractionKeys : List String :=
  ["intake_id", "institution_ir_ref", "source_fingerprint", "local_processor", "rights_basis",
    "data_categories", "redaction_summary", "attestation", "mechanism_refs", "trajectory",
    "causal_trace", "provenance"]

def attestationControls : List String :=
  ["direct_identifiers_removed", "secrets_removed", "minimum_necessary",
    "raw_payload_retained_locally", "authorized_for_abstraction"]

section
variable (rt : Runtime)

/-- A key of raw or sensitive data. -/
def sensitiveKey (key : String) : Bool :=
  let normalized := rt.lower (strip key)
  forbiddenSensitiveKeys.contains normalized ||
    ("raw_".toList.isPrefixOf normalized.toList && !governanceKeys.contains normalized)

mutual
def scanSensitive (path : String) : Json → Except PyError Unit
  | .obj kvs => scanSensitiveFields path kvs
  | .arr xs => scanSensitiveItems path 0 xs
  | _ => .ok ()

def scanSensitiveFields (path : String) : List (String × Json) → Except PyError Unit
  | [] => .ok ()
  | (key, nested) :: kvs => do
    require (¬ sensitiveKey rt key)
      (intakeError ("governed abstraction cannot contain " ++ path ++ "." ++ key))
    scanSensitive (path ++ "." ++ key) nested
    scanSensitiveFields path kvs

def scanSensitiveItems (path : String) (index : Nat) : List Json → Except PyError Unit
  | [] => .ok ()
  | x :: xs => do
    scanSensitive (path ++ "[" ++ toString index ++ "]") x
    scanSensitiveItems path (index + 1) xs
end

/-- The normalized abstraction, before its digest is added. -/
structure GovernedAbstraction where
  intakeId : String
  institutionId : String
  institutionVersion : String
  sourceFingerprint : String
  processorId : String
  processorVersion : String
  rightsBasis : String
  dataCategories : List String
  redactionSummary : Json
  mechanismRefs : List Json
  trajectory : Json
  causalTrace : Json
  outcome : Json
  provenance : Json
  retentionClass : String

def GovernedAbstraction.fields (a : GovernedAbstraction) : List (String × Json) :=
  [("schema_version", .str "actionnet-governed-abstraction.v1"), ("intake_id", .str a.intakeId),
   ("institution_ir_ref", .obj [("institution_id", .str a.institutionId),
     ("version", .str a.institutionVersion)]),
   ("source_fingerprint", .str a.sourceFingerprint),
   ("local_processor", .obj [("processor_id", .str a.processorId),
     ("version", .str a.processorVersion)]),
   ("rights_basis", .str a.rightsBasis),
   ("data_categories", .arr (a.dataCategories.map .str)),
   ("redaction_summary", a.redactionSummary),
   ("attestation", .obj ((sortedSet attestationControls).map fun control => (control, .bool true))),
   ("mechanism_refs", .arr a.mechanismRefs), ("trajectory", a.trajectory),
   ("causal_trace", a.causalTrace), ("outcome", a.outcome), ("provenance", a.provenance),
   ("retention_class", .str a.retentionClass), ("raw_payload_stored", .bool false),
   ("authoritative", .bool false), ("training_eligible", .bool false),
   ("requires_privacy_review", .bool true), ("binding_authority", .bool false)]

/-- The abstraction as it is stored. -/
def GovernedAbstraction.toJson (a : GovernedAbstraction) : Json :=
  .obj (a.fields ++ [("abstraction_sha256", .str (Json.sha256Json rt.sha256 (.obj a.fields)))])

/-- The controls an attestation does not attest. -/
def failedControls (attestation : List (String × Json)) : List String :=
  sortedSet (attestationControls.filter fun control =>
    Assoc.find attestation control ≠ some (.bool true))

/-- Two texts of an object that has both keys, or the error. -/
def twoTexts (value : Json) (key key' message : String) : Except PyError (String × String) :=
  match value with
  | .obj kvs => do
    let a ← orRaise (intakeError message) (Assoc.find kvs key)
    let b ← orRaise (intakeError message) (Assoc.find kvs key')
    return (pyStr rt.toPython a, pyStr rt.toPython b)
  | _ => .error (intakeError message)

def fieldsOf (value : Json) (message : String) : Except PyError (List (String × Json)) :=
  match value with
  | .obj kvs => .ok kvs
  | _ => .error (intakeError message)

/-- The references of an abstraction, of which there is one. -/
def refsOf : Json → Except PyError (List Json)
  | .arr (x :: xs) => .ok (x :: xs)
  | _ => .error (intakeError "governed abstraction requires mechanism_refs")

def normalizeAbstraction (document : Json) : Except PyError GovernedAbstraction := do
  let record ← fieldsOf document "governed abstraction must be an object"
  scanSensitive rt "abstraction" (.obj record)
  let missing := sortedSet (requiredAbstractionKeys.filter fun key => key ∉ record.map Prod.fst)
  require missing.isEmpty
    (intakeError ("governed abstraction missing: " ++ ", ".intercalate missing))
  let field := fun key => (Assoc.find record key).getD .null
  let attestation ← fieldsOf (field "attestation") "attestation must be an object"
  require (failedControls attestation).isEmpty
    (intakeError ("governed abstraction attestation failed: " ++
      ", ".intercalate (failedControls attestation)))
  let rightsBasis := upper (pyStr rt.toPython (field "rights_basis"))
  require (intakeRightsBases.contains rightsBasis)
    (intakeError ("unsupported source rights basis: " ++ rightsBasis))
  let (institutionId, institutionVersion) ← twoTexts rt (field "institution_ir_ref")
    "institution_id" "version" "institution_ir_ref requires institution_id and version"
  let (processorId, processorVersion) ← twoTexts rt (field "local_processor")
    "processor_id" "version" "local_processor requires processor_id and version"
  let mechanismRefs ← refsOf (field "mechanism_refs")
  let dataCategories ← iterate (field "data_categories")
  return {
    intakeId := pyStr rt.toPython (field "intake_id")
    institutionId, institutionVersion, processorId, processorVersion, rightsBasis, mechanismRefs
    sourceFingerprint := pyStr rt.toPython (field "source_fingerprint")
    dataCategories := sortedSet (dataCategories.map (pyStr rt.toPython))
    redactionSummary := field "redaction_summary"
    trajectory := field "trajectory"
    causalTrace := field "causal_trace"
    outcome := (Assoc.find record "outcome").getD (.obj [])
    provenance := field "provenance"
    retentionClass := ((Assoc.find record "retention_class").map (pyStr rt.toPython)).getD
      "GOVERNED_ABSTRACTION" }

end
end Edon.ActionNet
