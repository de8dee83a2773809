import EdonPlatform.Common.Python

/- The firewall between a model and the operations (edon/cerebrum/operations.py): what a
   provider answers to a context becomes a proposal only if it carries no authority and has
   the fields of its type. The provider is a parameter.

   What is proved: an accepted proposal is bound to the context it was made from
   (`propose_input`), and nothing the provider answered claims authority
   (`propose_no_authority`).

   Correspondence (Python ↔ Lean):
     `PROPOSAL_REQUIREMENTS`   ↔ `proposalRequirements`
     `FORBIDDEN_MODEL_FIELDS`  ↔ `forbiddenModelFields`
     `_forbidden_paths`        ↔ `forbiddenPaths`
     `OperationsProposalAdapter.propose` ↔ `propose` -/
namespace Edon.Cerebrum
open Json

def proposalError (message : String) : PyError := ⟨.operationsProposalError, message⟩

def proposalRequirements : List (String × List String) :=
  [("ABSTAIN", []),
   ("CREATE_GOAL", ["goal_id", "description"]),
   ("CREATE_PLAN", ["plan_id", "goal_id", "steps", "horizon_start"]),
   ("DISPATCH_STEP", ["plan_id", "step_id", "agent_id"]),
   ("REPLAN", ["old_plan_id", "new_plan_id", "steps", "horizon_start", "reason"]),
   ("CANCEL_STEP", ["plan_id", "step_id", "reason"])]

def forbiddenModelFields : List String :=
  ["authorization_ref", "execution_token", "kernel_token", "signature", "binding_eligible",
   "commit", "committed"]

/-- The paths of an entry that carries authority itself. -/
def forbiddenEntry (key path : String) (child : Json) : List String :=
  (if key ∈ forbiddenModelFields then [path] else []) ++
    match key, child with
    | "binding_authority", .bool true => [path]
    | _, _ => []

mutual
/-- `_forbidden_paths`. The prefix of the whole answer is empty. -/
def forbiddenPaths (pre : String) : Json → List String
  | .obj kvs => forbiddenEntries pre kvs
  | .arr xs => forbiddenItems pre 0 xs
  | _ => []

def forbiddenEntries (pre : String) : List (String × Json) → List String
  | [] => []
  | (key, child) :: kvs =>
    let path := if pre = "" then key else pre ++ "." ++ key
    forbiddenEntry key path child ++ forbiddenPaths path child ++ forbiddenEntries pre kvs

def forbiddenItems (pre : String) (index : Nat) : List Json → List String
  | [] => []
  | child :: xs =>
    forbiddenPaths (pre ++ "[" ++ toString index ++ "]") child ++ forbiddenItems pre (index + 1) xs
end

/-- `value not in {None, False}`. -/
def bindingAuthorityOk : Json → Except PyError Bool
  | .null => .ok true
  | .bool b => .ok !b
  | .int n => .ok (n = 0)
  | .float q => .ok (q = 0)
  | .str _ => .ok false
  | .arr _ => .error ⟨.typeError, "unhashable type: 'list'"⟩
  | .obj _ => .error ⟨.typeError, "unhashable type: 'dict'"⟩

/-- The confidence as the number it is, where it is one. -/
def confidenceOf : Json → Except PyError Rat
  | .int n => .ok n
  | .float q => .ok q
  | _ => .error (proposalError "proposal confidence must be numeric")

def payloadOf : Json → Except PyError (List (String × Json))
  | .obj kvs => .ok kvs
  | _ => .error (proposalError "proposal payload must be an object")

structure Proposal where
  proposalId : String
  proposalType : String
  payload : List (String × Json)
  rationale : String
  confidence : Rat
  modelLineage : String
  inputSha256 : String

/-- `proposal_core`. -/
def Proposal.core (p : Proposal) : List (String × Json) :=
  [("schema_version", .str "edon-cerebrum-operations-proposal.v1"),
   ("proposal_id", .str p.proposalId),
   ("proposal_type", .str p.proposalType),
   ("payload", .obj p.payload),
   ("rationale", .str p.rationale),
   ("confidence", .float p.confidence),
   ("model_lineage", .str p.modelLineage),
   ("input_sha256", .str p.inputSha256),
   ("binding_authority", .bool false)]

section
variable (py : Python)

def Proposal.sha256 (p : Proposal) : String := sha256Json py.sha256 (.obj p.core)

/-- What `propose` returns, and what a cycle stores. -/
def Proposal.toJson (p : Proposal) : Json :=
  .obj (p.core ++ [("proposal_sha256", .str (p.sha256 py))])

/-- The checks of an answer that is an object. -/
def proposalOf (modelLineage : String) (context : Json) (raw : List (String × Json)) :
    Except PyError Proposal := do
  let get (key : String) (default : Json) : Json := (Assoc.find raw key).getD default
  let forbidden := sortedSet (forbiddenPaths "" (.obj raw))
  require (forbidden.isEmpty) (proposalError
    ("provider attempted to emit authority fields: " ++ ", ".intercalate forbidden))
  let binding ← bindingAuthorityOk (get "binding_authority" .null)
  require binding (proposalError "C1 proposal cannot carry binding authority")
  let proposalType := upper (pyStr py (get "proposal_type" (.str "")))
  let required ← orRaise (proposalError ("unsupported operations proposal: " ++
      if proposalType = "" then "<missing>" else proposalType))
    (proposalRequirements.lookup proposalType)
  let payload ← payloadOf (get "payload" (.obj []))
  let missing := sortedSet (required.filter fun key => key ∉ payload.map Prod.fst)
  require missing.isEmpty
    (proposalError ("proposal payload is missing: " ++ ", ".intercalate missing))
  let rationale := strip (pyStr py (get "rationale" (.str "")))
  require (10 ≤ rationale.length ∧ rationale.length ≤ 10000)
    (proposalError "proposal rationale must contain between 10 and 10000 characters")
  let confidence ← confidenceOf (get "confidence" .null)
  require (0 ≤ confidence ∧ confidence ≤ 1)
    (proposalError "proposal confidence must be between 0 and 1")
  let proposalId := get "proposal_id" .null
  return {
    proposalId :=
      if truthy proposalId then pyStr py proposalId
      else "proposal:" ++ String.ofList
        ((py.sha256 (canonicalJson (.obj raw))).toList.take 24)
    proposalType, payload, rationale, confidence, modelLineage
    inputSha256 := sha256Json py.sha256 context }

def propose (provider : Json → Except PyError Json) (modelLineage : String) (context : Json) :
    Except PyError Proposal := do
  require (context matches .obj _) (proposalError "operations context must be an object")
  match ← provider context with
  | .obj raw => proposalOf py modelLineage context raw
  | _ => .error (proposalError "provider output must be an object")

end

section
variable {py : Python} {modelLineage : String} {context : Json} {p : Proposal}

theorem proposalOf_ok {raw : List (String × Json)}
    (h : proposalOf py modelLineage context raw = .ok p) :
    forbiddenPaths "" (.obj raw) = [] ∧ p.inputSha256 = sha256Json py.sha256 context := by
  obtain ⟨_, hforbidden, h⟩ := bind_ok.mp h
  obtain ⟨_, _, h⟩ := bind_ok.mp h
  obtain ⟨_, _, h⟩ := bind_ok.mp h
  obtain ⟨_, _, h⟩ := bind_ok.mp h
  obtain ⟨_, _, h⟩ := bind_ok.mp h
  obtain ⟨_, _, h⟩ := bind_ok.mp h
  obtain ⟨_, _, h⟩ := bind_ok.mp h
  obtain ⟨_, _, h⟩ := bind_ok.mp h
  obtain ⟨_, _, h⟩ := bind_ok.mp h
  cases h
  have hempty := List.isEmpty_iff.mp (require_ok.mp hforbidden)
  exact ⟨sortedSet_eq_nil.mp hempty, rfl⟩

theorem propose_ok {provider : Json → Except PyError Json}
    (h : propose py provider modelLineage context = .ok p) :
    ∃ raw, provider context = .ok (.obj raw) ∧
      proposalOf py modelLineage context raw = .ok p := by
  obtain ⟨_, _, h⟩ := bind_ok.mp h
  obtain ⟨answer, hanswer, h⟩ := bind_ok.mp h
  cases answer with
  | obj raw => exact ⟨raw, hanswer, h⟩
  | _ => cases h

/-- **A proposal is bound to the context it was made from.** -/
theorem propose_input {provider : Json → Except PyError Json}
    (h : propose py provider modelLineage context = .ok p) :
    p.inputSha256 = sha256Json py.sha256 context := by
  obtain ⟨raw, _, hraw⟩ := propose_ok h
  exact (proposalOf_ok hraw).2

/-- **An answer that is accepted claims no authority**, at any depth. -/
theorem propose_no_authority {provider : Json → Except PyError Json}
    (h : propose py provider modelLineage context = .ok p) :
    ∃ raw, provider context = .ok raw ∧ forbiddenPaths "" raw = [] := by
  obtain ⟨raw, hanswer, hraw⟩ := propose_ok h
  exact ⟨.obj raw, hanswer, (proposalOf_ok hraw).1⟩

end

end Edon.Cerebrum
