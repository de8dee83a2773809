import EdonPlatform.ActionNet.Generator
import EdonPlatform.Common.KeyScan
import EdonPlatform.Lib.Grouping

/- Qualification of ActionNet bundles (edon/qualification/engine.py): checks for contradictions,
   leaked labels, reachability, pivotal pairs and unsafe labels.

   Correspondence (Python ↔ Lean):
     `FORBIDDEN_PUBLIC_KEYS`, `REQUIRED_TASKS` ↔ `forbiddenPublicKeys`, `requiredTasks`
     `_forbidden_paths`   ↔ `forbiddenPaths`, the scan of `Common.KeyScan`
     `_oracle_decision`   ↔ `oracleDecision`
     `qualify_actionnet`  ↔ `qualifyActionnet`, one turn of its loop `inspect` -/
namespace Edon.Qualification
open Json Edon.Runtime

/-- `str.casefold`, character by character; one of ASCII has its lower case. -/
structure CaseFolding where
  fold : Char → List Char
  ascii : ∀ c, c.toNat < 128 → fold c = [c.toLower]

def CaseFolding.casefold (folding : CaseFolding) (text : String) : String :=
  String.ofList (text.toList.flatMap folding.fold)

def forbiddenPublicKeys : List String :=
  ["target", "label", "labels", "expected", "oracle", "completion"]

def requiredTasks : List String := ["CERTIFICATE", "TRANSITION", "QUEUE_TRACE", "PAIR_CONTRAST"]

section
variable (eng : Engine) (folding : CaseFolding)

def forbiddenTests : List (String → PyValue → Bool) :=
  [fun key _ => folding.casefold key ∈ forbiddenPublicKeys]

def forbiddenPaths (value : Json) : List String :=
  scan (forbiddenTests folding) (fun path key => path ++ "." ++ key) "$" (PyValue.ofJson value)

/-- `value.get(key)` where it is a text. -/
def textOf (fields : List (String × Json)) (key : String) : Option String :=
  match Assoc.find fields key with
  | some (.str text) => some text
  | _ => none

def oracleDecision (label : List (String × Json)) : Option String :=
  match textOf label "decision", Assoc.find label "certificate" with
  | some decision, _ => some decision
  | none, some (.obj certificate) => textOf certificate "decision"
  | none, _ => none

/-- A value that is put in a set or looked for in one. -/
def hashable : Json → Except PyError Json
  | .arr _ => .error ⟨.typeError, "unhashable type: 'list'"⟩
  | .obj _ => .error ⟨.typeError, "unhashable type: 'dict'"⟩
  | v => .ok v

/-- The members of a set. -/
def members : List Json → List Json
  | [] => []
  | v :: vs => if vs.any (pyEq v) then members vs else v :: members vs

/-- `labels.get(case_id)`. -/
def labelAt (labels caseId : Json) : Except PyError (Option Json) :=
  match labels with
  | .obj kvs => do
    let key ← hashable caseId
    return match key with
      | .str text => Assoc.find kvs text
      | _ => none
  | v => .error ⟨.attributeError, "'" ++ typeName v ++ "' object has no attribute 'get'"⟩

/-- What an input is labelled with. -/
structure Target where
  inputHash : String
  label : String
  deriving DecidableEq

/-- What is found of a case. -/
inductive Finding where
  | unreachable (caseId : String)
  | labelled (caseId : String) (target : Target) (unsafeAllow : Bool) (pairPath : Option String)

def inspect (labels case : Json) : Except PyError Finding := do
  let caseId ← dictGet case "case_id" .null
  let label ← labelAt labels caseId
  match label with
  | some (.obj fields) => do
    let observation ← dictGet case "observation" .null
    let query ← dictGet case "query" .null
    let taskType ← dictGet case "task_type" .null
    let observed ← dictGet case "observation" (.obj [])
    let scenario ← dictGet observed "scenario_class" .null
    let scenario ← hashable scenario
    return .labelled (pyStr eng.toPython caseId)
      { inputHash := sha256Json eng.sha256 (.obj [("observation", observation), ("query", query),
          ("task_type", taskType)])
        label := canonicalJson (.obj fields) }
      (decide (scenario = .str "FAILURE" ∨ scenario = .str "EDGE") &&
        decide (oracleDecision fields = some "ALLOW"))
      (if taskType = .str "PAIR_CONTRAST" ∧ Assoc.find fields "decision_changed" = some (.bool true)
        then some (pyStr eng.toPython ((Assoc.find fields "causal_path").getD .null))
        else none)
  | _ => return .unreachable (pyStr eng.toPython caseId)

def Finding.target? : Finding → Option Target
  | .unreachable _ => none
  | .labelled _ target _ _ => some target

def Finding.unreachable? : Finding → Option String
  | .unreachable caseId => some caseId
  | .labelled .. => none

def Finding.unsafe? : Finding → Option String
  | .labelled caseId _ true _ => some caseId
  | _ => none

def Finding.pairPath? : Finding → Option String
  | .labelled _ _ _ pairPath => pairPath
  | _ => none

/-- The inputs that have more than one target. -/
def conflictingInputs (targets : List Target) : List String :=
  ((Grouping.groupBy Target.inputHash targets).entries.filter fun e =>
    1 < (sortedSet (e.2.items.map Target.label)).length).map Prod.fst

/-- `f"{fact['subject']}.{fact['predicate']}"`. -/
def expectedPath : Json → Except PyError String
  | .obj fact => factPath eng fact
  | v => .error ⟨.typeError, "'" ++ typeName v ++ "' object is not subscriptable"⟩

structure Diagnostics where
  leakagePaths : List String
  conflictingInputHashes : List String
  unreachableCaseIds : List String
  unsafeCaseIds : List String
  missingPivotalPaths : List String
  taskTypes : List String

structure Report where
  mechanismId : Json
  checks : List (String × Bool)
  diagnostics : Diagnostics
  bundlePublicSha256 : Json

/-- `all(checks.values())`. -/
def Report.passed (r : Report) : Bool := r.checks.all Prod.snd

def Report.status (r : Report) : String :=
  if r.passed then "ACTIONNET_QUALIFIED" else "ACTIONNET_REJECTED"

def qualifyActionnet (mechanism bundle : Json) : Except PyError Report := do
  let shown ← dictGet bundle "public" (.obj [])
  let publicCases ← dictGet shown "cases" (.arr [])
  let hidden ← dictGet bundle "protected" (.obj [])
  let labels ← dictGet hidden "labels" (.obj [])
  let cases ← iterate publicCases
  let caseIds ← cases.mapM fun case => dictGet case "case_id" .null
  let leakagePaths := forbiddenPaths folding shown
  let tasks ← cases.mapM fun case => do
    let task ← dictGet case "task_type" .null
    hashable task
  let findings ← cases.mapM (inspect eng labels)
  let pairPaths := findings.filterMap Finding.pairPath?
  let facts ← dictGet mechanism "facts" (.arr [])
  let facts ← iterate facts
  let expectedPaths ← facts.mapM (expectedPath eng)
  let conflicts := conflictingInputs (findings.filterMap Finding.target?)
  let mechanismChecks ← validateApprovedMechanism eng mechanism
  let caseKeys ← caseIds.mapM hashable
  let caseCount ← Runtime.length publicCases
  let labelCount ← Runtime.length labels
  let manifest ← dictGet bundle "manifest" (.obj [])
  let publicSha256 ← dictGet manifest "public_sha256" .null
  let protectedSha256 ← dictGet manifest "protected_sha256" .null
  let separated ← dictGet manifest "labels_separated" .null
  let unreachable := findings.filterMap Finding.unreachable?
  let unsafeAllows := findings.filterMap Finding.unsafe?
  let mechanismId ← dictGet mechanism "mechanism_id" .null
  return {
    mechanismId
    checks := [
      ("mechanism_runtime_valid", mechanismChecks.all),
      ("public_cases_present", truthy publicCases),
      ("oracle_labels_present", truthy labels),
      ("case_ids_unique", caseIds.length = (members caseKeys).length),
      ("case_label_counts_match", caseCount = labelCount),
      ("no_public_label_leakage", leakagePaths.isEmpty),
      ("no_conflicting_targets_for_identical_inputs", conflicts.isEmpty),
      ("all_cases_reachable", unreachable.isEmpty),
      ("all_required_tasks_present", requiredTasks.all fun task => .str task ∈ tasks),
      ("all_constraints_have_pivotal_pairs", expectedPaths.all fun path => path ∈ pairPaths),
      ("zero_unsafe_failure_allows", unsafeAllows.isEmpty),
      ("public_and_protected_hashes_distinct", !pyEq publicSha256 protectedSha256),
      ("labels_separated", separated = .bool true)]
    diagnostics := {
      leakagePaths
      conflictingInputHashes := conflicts
      unreachableCaseIds := unreachable
      unsafeCaseIds := unsafeAllows
      missingPivotalPaths := sortedSet (expectedPaths.filter fun path => path ∉ pairPaths)
      taskTypes := ((members tasks).map (pyStr eng.toPython)).insertionSort (· ≤ ·) }
    bundlePublicSha256 := publicSha256 }

end
end Edon.Qualification
