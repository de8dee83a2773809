import EdonPlatform.Common.KeyScan
import EdonPlatform.Cerebrum.Adapter

/- The operations adapter over all JSON documents, numbers that are not finite included
   (edon/cerebrum/operations.py). `Cerebrum.Adapter` has the same function over documents
   with finite numbers only.

   The scan compares keys as they are spelled and reports `binding_authority` only when its
   value is the constant `True`; the confidence is compared with 0 and 1, and no comparison
   with a NaN holds. `propose_lawful`: what an accepted answer needs for the firewall to have
   kept its promise.

   Correspondence (Python ↔ Lean):
     `_forbidden_paths`                  ↔ `forbiddenPaths`
     `OperationsProposalAdapter.propose` ↔ `propose` -/
namespace Edon.Cerebrum.Operations

def forbiddenTests : List (String → PyValue → Bool) :=
  [fun key _ => key ∈ forbiddenModelFields,
   fun key child => key = "binding_authority" && child matches .bool true]

/-- `_forbidden_paths`. -/
def forbiddenPaths (pre : String) (value : PyValue) : List String :=
  scan forbiddenTests dottedPath pre value

/-- `value not in {None, False}`, negated. Zero equals `False`. -/
def bindingAuthorityOk : PyValue → Except PyError Bool
  | .null => .ok true
  | .bool b => .ok !b
  | .int n => .ok (n = 0)
  | .float x => .ok (x = .finite 0)
  | .str _ => .ok false
  | .list _ => .error ⟨.typeError, "unhashable type: 'list'"⟩
  | .dict _ => .error ⟨.typeError, "unhashable type: 'dict'"⟩

/-- `float(confidence)` of a number. An integer past 2^53 is rounded, which leaves it as far
outside of [0, 1] as it is. -/
def confidenceOf : PyValue → Except PyError PyFloat
  | .int n =>
    if Doubles.overflowThreshold ≤ |(n : Rat)| then
      .error ⟨.overflowError, "int too large to convert to float"⟩
    else .ok (.finite n)
  | .float x => .ok x
  | _ => .error (proposalError "proposal confidence must be numeric")

def payloadOf : PyValue → Except PyError (List (String × PyValue))
  | .dict kvs => .ok kvs
  | _ => .error (proposalError "proposal payload must be an object")

structure Proposal where
  proposalId : String
  proposalType : String
  payload : List (String × PyValue)
  rationale : String
  confidence : PyFloat
  modelLineage : String
  inputSha256 : String

/-- `proposal_core`. -/
def Proposal.core (p : Proposal) : List (String × PyValue) :=
  [("schema_version", .str "edon-cerebrum-operations-proposal.v1"),
   ("proposal_id", .str p.proposalId),
   ("proposal_type", .str p.proposalType),
   ("payload", .dict p.payload),
   ("rationale", .str p.rationale),
   ("confidence", .float p.confidence),
   ("model_lineage", .str p.modelLineage),
   ("input_sha256", .str p.inputSha256),
   ("binding_authority", .bool false)]

section
variable (I : Interpreter)

/-- What `propose` returns. -/
def Proposal.toValue (p : Proposal) : PyValue :=
  .dict (p.core ++ [("proposal_sha256", .str (PyValue.sha256Json I (.dict p.core)))])

/-- The checks of an answer that is an object. -/
def proposalOf (modelLineage : String) (context : PyValue) (raw : List (String × PyValue)) :
    Except PyError Proposal := do
  let get (key : String) (default : PyValue) : PyValue := (Assoc.find raw key).getD default
  let forbidden := sortedSet (forbiddenPaths "" (.dict raw))
  require forbidden.isEmpty (proposalError
    ("provider attempted to emit authority fields: " ++ ", ".intercalate forbidden))
  let binding ← bindingAuthorityOk (get "binding_authority" .null)
  require binding (proposalError "C1 proposal cannot carry binding authority")
  let proposalType := upper ((get "proposal_type" (.str "")).toStr I)
  let required ← orRaise (proposalError ("unsupported operations proposal: " ++
      if proposalType = "" then "<missing>" else proposalType))
    (proposalRequirements.lookup proposalType)
  let payload ← payloadOf (get "payload" (.dict []))
  let missing := sortedSet (required.filter fun key => key ∉ payload.map Prod.fst)
  require missing.isEmpty
    (proposalError ("proposal payload is missing: " ++ ", ".intercalate missing))
  let rationale := strip ((get "rationale" (.str "")).toStr I)
  require (10 ≤ rationale.length ∧ rationale.length ≤ 10000)
    (proposalError "proposal rationale must contain between 10 and 10000 characters")
  let confidence ← confidenceOf (get "confidence" .null)
  require (!(confidence.lt (.finite 0) || PyFloat.lt (.finite 1) confidence))
    (proposalError "proposal confidence must be between 0 and 1")
  let proposalId := get "proposal_id" .null
  return {
    proposalId :=
      if proposalId.truthy then proposalId.toStr I
      else "proposal:" ++ String.ofList
        ((I.sha256 ((PyValue.dict raw).canonicalJson I)).toList.take 24)
    proposalType, payload, rationale, confidence, modelLineage
    inputSha256 := context.sha256Json I }

def propose (provider : PyValue → Except PyError PyValue) (modelLineage : String)
    (context : PyValue) : Except PyError Proposal := do
  require (context matches .dict _) (proposalError "operations context must be an object")
  match ← provider context with
  | .dict raw => proposalOf I modelLineage context raw
  | _ => .error (proposalError "provider output must be an object")

end

/-! ## Documents with finite numbers -/

theorem forbiddenEntry_ofJson (key path : String) (child : Json) :
    (forbiddenTests.filter fun test => test key (PyValue.ofJson child)).map (fun _ => path) =
      Cerebrum.forbiddenEntry key path child := by
  unfold forbiddenTests Cerebrum.forbiddenEntry
  rw [List.filter_cons, List.filter_cons, List.filter_nil]
  by_cases hbinding : key = "binding_authority"
  · subst hbinding
    cases child with
    | bool b => cases b <;> rfl
    | _ => rfl
  · simp only [hbinding, decide_false, Bool.false_and, Bool.false_eq_true, if_false]
    split <;> split <;> simp_all

/-- On such a document the scan is the one of the adapter over finite numbers. -/
theorem forbiddenPaths_ofJson (pre : String) (v : Json) :
    forbiddenPaths pre (PyValue.ofJson v) = Cerebrum.forbiddenPaths pre v := by
  have hitems : ∀ xs : List Json, (∀ x ∈ xs, ∀ pre, forbiddenPaths pre (PyValue.ofJson x) =
      Cerebrum.forbiddenPaths pre x) → ∀ pre i, scanItems forbiddenTests dottedPath pre i
        (PyValue.ofItems xs) = Cerebrum.forbiddenItems pre i xs := by
    intro xs ih
    induction xs with
    | nil => exact fun _ _ => rfl
    | cons x xs ihl =>
      intro pre i
      rw [PyValue.ofItems, scanItems, Cerebrum.forbiddenItems,
        ihl fun y hy => ih y (List.mem_cons_of_mem _ hy)]
      exact congrArg (· ++ _) (ih x List.mem_cons_self _)
  have hentries : ∀ kvs : List (String × Json), (∀ e ∈ kvs, ∀ pre, forbiddenPaths pre
      (PyValue.ofJson e.2) = Cerebrum.forbiddenPaths pre e.2) → ∀ pre, scanEntries forbiddenTests
        dottedPath pre (PyValue.ofEntries kvs) = Cerebrum.forbiddenEntries pre kvs := by
    intro kvs ih
    induction kvs with
    | nil => exact fun _ => rfl
    | cons e kvs ihl =>
      obtain ⟨key, child⟩ := e
      intro pre
      rw [PyValue.ofEntries, scanEntries, Cerebrum.forbiddenEntries,
        ihl fun e he => ih e (List.mem_cons_of_mem _ he), forbiddenEntry_ofJson]
      exact congrArg (_ ++ · ++ _) (ih (key, child) List.mem_cons_self _)
  induction v using Json.induct generalizing pre with
  | arr xs ih => exact hitems xs (fun x hx pre => ih x hx pre) pre 0
  | obj kvs ih => exact hentries kvs (fun e he pre => ih e he pre) pre
  | _ => rfl

/-! ## What the scan and the comparisons see -/

/-- An entry the scan reports where it should: a key of the forbidden set is in lower case,
and a key that reads `binding_authority` in some case has the value false, or is that word
with the value true. -/
def Recognised (key : String) (child : PyValue) : Prop :=
  (lower key ∈ forbiddenModelFields → key = lower key) ∧
    (lower key = "binding_authority" →
      child = .bool false ∨ key = "binding_authority" ∧ child = .bool true)

/-- A finite number between 0 and 1. -/
def InUnit (x : PyFloat) : Prop := ∃ q : Rat, x = .finite q ∧ 0 ≤ q ∧ q ≤ 1

theorem clean_of_recognised {key : String} {child : PyValue} (hpass : Passes forbiddenTests key child)
    (h : Recognised key child) :
    lower key ∉ forbiddenModelFields ∧ (lower key = "binding_authority" → child = .bool false) := by
  constructor
  · intro hmem
    have hkey : key ∉ forbiddenModelFields := of_decide_eq_false (hpass _ (List.mem_cons_self ..))
    rw [← h.1 hmem] at hmem
    exact hkey hmem
  · intro hbinding
    rcases h.2 hbinding with hfalse | ⟨hkey, htrue⟩
    · exact hfalse
    · have htest := hpass _ (List.mem_cons_of_mem _ (List.mem_cons_self ..))
      rw [hkey, htrue] at htest
      cases htest

theorem recognised_of_clean {key : String} {child : PyValue}
    (h : lower key ∉ forbiddenModelFields ∧
      (lower key = "binding_authority" → child = .bool false)) : Recognised key child :=
  ⟨fun hmem => absurd hmem h.1, fun hbinding => .inl (h.2 hbinding)⟩

theorem inUnit_iff {x : PyFloat}
    (h : (!(x.lt (.finite 0) || PyFloat.lt (.finite 1) x)) = true) : InUnit x ↔ x ≠ .nan := by
  constructor
  · intro hx hnan
    obtain ⟨q, hq, -⟩ := hx
    rw [hnan] at hq
    cases hq
  · intro hx
    cases x with
    | finite q =>
      rw [Bool.not_eq_true', Bool.or_eq_false_iff] at h
      exact ⟨q, rfl, not_lt.mp (of_decide_eq_false h.1), not_lt.mp (of_decide_eq_false h.2)⟩
    | infinite negative => cases negative <;> cases h
    | nan => exact absurd rfl hx

/-- Only a NaN becomes a NaN. -/
theorem confidenceOf_nan {value : PyValue} {x : PyFloat} (h : confidenceOf value = .ok x) :
    x = .nan ↔ value = .float .nan := by
  unfold confidenceOf at h
  split at h
  · split at h
    · cases h
    · cases h
      exact iff_of_false PyFloat.noConfusion PyValue.noConfusion
  · cases h
    rw [PyValue.float.injEq]
  · cases h

variable {I : Interpreter} {modelLineage : String} {context : PyValue} {p : Proposal}

theorem proposalOf_ok {raw : List (String × PyValue)}
    (h : proposalOf I modelLineage context raw = .ok p) :
    (PyValue.dict raw).Throughout (Passes forbiddenTests) ∧
      (InUnit p.confidence ↔ (PyValue.dict raw).getD "confidence" .null ≠ .ok (.float .nan)) := by
  obtain ⟨_, hscan, h⟩ := bind_ok.mp h
  obtain ⟨_, _, h⟩ := bind_ok.mp h
  obtain ⟨_, _, h⟩ := bind_ok.mp h
  obtain ⟨_, _, h⟩ := bind_ok.mp h
  obtain ⟨_, _, h⟩ := bind_ok.mp h
  obtain ⟨_, _, h⟩ := bind_ok.mp h
  obtain ⟨_, _, h⟩ := bind_ok.mp h
  obtain ⟨confidence, hconfidence, h⟩ := bind_ok.mp h
  obtain ⟨_, hunit, h⟩ := bind_ok.mp h
  cases h
  refine ⟨scan_checked hscan, ?_⟩
  rw [inUnit_iff (require_ok.mp hunit), ne_eq, confidenceOf_nan hconfidence, PyValue.getD, ne_eq,
    Except.ok.injEq]

/-- **What an accepted answer needs for the firewall to have kept its promise**: its
authority keys are spelled the way the scan spells them, and its confidence is a number. -/
theorem propose_lawful {provider : PyValue → Except PyError PyValue} {raw : PyValue}
    (hanswer : provider context = .ok raw) (h : propose I provider modelLineage context = .ok p) :
    raw.Clean forbiddenModelFields ∧ InUnit p.confidence ↔
      raw.Throughout Recognised ∧ raw.getD "confidence" .null ≠ .ok (.float .nan) := by
  obtain ⟨_, _, h⟩ := bind_ok.mp h
  obtain ⟨answer, hsame, h⟩ := bind_ok.mp h
  cases hanswer.symm.trans hsame
  cases raw with
  | dict kvs =>
    obtain ⟨hpasses, hunit⟩ := proposalOf_ok h
    rw [hunit]
    refine and_congr_left' ⟨fun hclean => hclean.imp fun _ _ => recognised_of_clean, ?_⟩
    intro hrecognised
    exact (PyValue.throughout_and.mpr ⟨hpasses, hrecognised⟩).imp fun _ _ hboth =>
      clean_of_recognised hboth.1 hboth.2
  | _ => cases h

end Edon.Cerebrum.Operations
