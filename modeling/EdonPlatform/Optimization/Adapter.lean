import EdonPlatform.Common.PyValue
import Mathlib.Data.Prod.Lex

/- What the optimization adapter accepts from a provider (edon/optimization/adapter.py):
   the candidate for a normalized request is searched for authority fields and then checked
   against the lanes, supplies and demands of the request. Sums and products are exact.

   What is proved: an accepted candidate has no authority field at any depth and in any
   letter case (`validateCandidate_clean`).

   Correspondence (Python ↔ Lean):
     `FORBIDDEN_AUTHORITY_KEYS` ↔ `forbiddenAuthorityKeys`
     `_identifier`, `_quantity` ↔ `identifierOf`, `quantityOf`
     `_reject_authority`        ↔ `rejectAuthority`
     `_validate_candidate`      ↔ `validateCandidate` -/
namespace Edon.Optimization

def optimizationError (message : String) : PyError := ⟨.optimizationError, message⟩

def forbiddenAuthorityKeys : List String :=
  ["authorization_ref", "execution_token", "kernel_token", "signature", "commit",
   "binding_authority", "approved", "authorized"]

/-- `1e-9`, the slack of every comparison of amounts. -/
def tolerance : Rat := 1 / 1000000000

/-- `_quantity`. -/
def quantityOf (value : PyValue) (label : String) : Except PyError Rat :=
  match value with
  | .int n =>
    if Doubles.overflowThreshold ≤ |(n : Rat)| then
      .error ⟨.overflowError, "int too large to convert to float"⟩
    else if n < 0 then .error (optimizationError (label ++ " must be finite and non-negative"))
    else .ok n
  | .float (.finite q) =>
    if q < 0 then .error (optimizationError (label ++ " must be finite and non-negative"))
    else .ok q
  | .float _ => .error (optimizationError (label ++ " must be finite and non-negative"))
  | _ => .error (optimizationError (label ++ " must be numeric"))

mutual
/-- `_reject_authority`. The path of the whole candidate is `candidate`. -/
def rejectAuthority (path : String) : PyValue → Except PyError Unit
  | .dict kvs => rejectEntries path kvs
  | .list xs => rejectItems path 0 xs
  | _ => .ok ()

def rejectEntries (path : String) : List (String × PyValue) → Except PyError Unit
  | [] => .ok ()
  | (key, nested) :: kvs => do
    require (lower key ∉ forbiddenAuthorityKeys) (optimizationError
      ("optimization output cannot contain authority field " ++ path ++ "." ++ key))
    rejectAuthority (path ++ "." ++ key) nested
    rejectEntries path kvs

def rejectItems (path : String) (i : Nat) : List PyValue → Except PyError Unit
  | [] => .ok ()
  | nested :: xs => do
    rejectAuthority (path ++ "[" ++ toString i ++ "]") nested
    rejectItems path (i + 1) xs
end

structure Demand where
  quantity : Rat
  priority : Int

structure Lane where
  unitCost : Rat
  maxQuantity : Rat

/-- What `_normalize_request` returns: the rows of a table sorted by their key, which no two
rows share. -/
structure Request where
  requestId : String
  tenantId : String
  scopeId : String
  supplies : Dict String Rat
  demands : Dict String Demand
  lanes : Dict (String ×ₗ String) Lane
  requireFullDemand : Bool
  stateBindings : List (String × PyValue)

structure Allocation where
  supplyId : String
  demandId : String
  quantity : Rat
  unitCost : Rat

/-- What the rows of a candidate add up to. -/
structure Tally where
  usedSupply : Dict String Rat
  servedDemand : Dict String Rat
  usedLane : Dict (String ×ₗ String) Rat
  totalCost : Rat
  allocations : List Allocation

inductive CandidateStatus where
  | feasible | partialDemand | infeasible
  deriving DecidableEq, Repr

structure Candidate where
  allocations : List Allocation
  unmetDemand : Dict String Rat
  totalCost : Rat
  status : CandidateStatus
  feasible : Bool

/-- `amounts[key] += quantity`. -/
def addAmount {κ : Type} [LinearOrder κ] (amounts : Dict κ Rat) (key : κ) (quantity : Rat) :
    Dict κ Rat :=
  amounts.set key ((amounts.get key).getD 0 + quantity)

/-- Nothing used yet. -/
def Tally.start (request : Request) : Tally where
  usedSupply := request.supplies.map fun _ _ => 0
  servedDemand := request.demands.map fun _ _ => 0
  usedLane := request.lanes.map fun _ _ => 0
  totalCost := 0
  allocations := []

section
variable (I : Interpreter)

/-- `_identifier`. -/
def identifierOf (value : PyValue) (label : String) : Except PyError String :=
  identifier .optimizationError (value.toStr I) label

/-- One row of the candidate. -/
def Tally.add (request : Request) (tally : Tally) (row : PyValue) : Except PyError Tally := do
  let supplyId ← identifierOf I (← row.index "supply_id") "candidate supply_id"
  let demandId ← identifierOf I (← row.index "demand_id") "candidate demand_id"
  let lane ← orRaise (optimizationError "candidate uses an unregistered lane")
    (request.lanes.get (toLex (supplyId, demandId)))
  let quantity ← quantityOf (← row.index "quantity") "candidate quantity"
  require (quantity ≤ lane.maxQuantity + tolerance)
    (optimizationError "candidate exceeds lane capacity")
  let suppliedCost ← quantityOf (← row.getD "unit_cost" (.float (.finite lane.unitCost)))
    "candidate unit_cost"
  require (|suppliedCost - lane.unitCost| ≤ tolerance)
    (optimizationError "candidate changed a registered lane cost")
  return {
    usedSupply := addAmount tally.usedSupply supplyId quantity
    servedDemand := addAmount tally.servedDemand demandId quantity
    usedLane := addAmount tally.usedLane (toLex (supplyId, demandId)) quantity
    totalCost := tally.totalCost + quantity * lane.unitCost
    allocations := tally.allocations ++ [⟨supplyId, demandId, quantity, lane.unitCost⟩] }

/-- Every amount stays within what its key has, up to the tolerance. -/
def withinLimits {κ α : Type} [LinearOrder κ] (amounts : Dict κ Rat) (limits : Dict κ α)
    (limit : α → Rat) : Bool :=
  amounts.entries.all fun e => (limits.get e.1).all fun a => e.2 ≤ limit a + tolerance

/-- What is left of every demand that is not served, up to the tolerance. -/
def unmetDemand (request : Request) (tally : Tally) : Dict String Rat :=
  Dict.ofList (request.demands.entries.filterMap fun e =>
    let missing := e.2.quantity - (tally.servedDemand.get e.1).getD 0
    if tolerance < missing then some (e.1, max 0 missing) else none)

def validateCandidate (request : Request) (candidate : PyValue) : Except PyError Candidate := do
  require (candidate matches .dict _)
    (optimizationError "optimization provider must return an object")
  rejectAuthority "candidate" candidate
  let rows ← (← candidate.getD "allocations" (.list [])).iterate
  let tally ← rows.foldlM (Tally.add I request) (Tally.start request)
  require (withinLimits tally.usedSupply request.supplies id)
    (optimizationError "candidate exceeds supply capacity")
  require (withinLimits tally.servedDemand request.demands Demand.quantity)
    (optimizationError "candidate overserves demand")
  require (withinLimits tally.usedLane request.lanes Lane.maxQuantity)
    (optimizationError "candidate exceeds cumulative lane capacity")
  let unmet := unmetDemand request tally
  let feasible := unmet.isEmpty
  let status :=
    if request.requireFullDemand && !feasible then CandidateStatus.infeasible
    else if feasible then .feasible
    else .partialDemand
  return {
    allocations := tally.allocations, unmetDemand := unmet, totalCost := tally.totalCost, status
    feasible }

end

/-! ## No authority field is accepted -/

/-- The key of an entry is not one of the forbidden ones. -/
def Unauthorized (key : String) (_ : PyValue) : Prop := lower key ∉ forbiddenAuthorityKeys

theorem rejectEntries_ok {kvs : List (String × PyValue)}
    (ih : ∀ e ∈ kvs, ∀ path, rejectAuthority path e.2 = .ok () ↔ e.2.Throughout Unauthorized)
    (path : String) : rejectEntries path kvs = .ok () ↔
      ∀ e ∈ kvs, Unauthorized e.1 e.2 ∧ e.2.Throughout Unauthorized := by
  induction kvs with
  | nil => simp [rejectEntries]
  | cons e kvs ihl =>
    obtain ⟨key, nested⟩ := e
    have hrest := ihl fun e he => ih e (List.mem_cons_of_mem _ he)
    have hnested := ih (key, nested) List.mem_cons_self (path ++ "." ++ key)
    rw [List.forall_mem_cons, ← hrest, ← hnested, rejectEntries, bind_ok]
    constructor
    · intro h
      obtain ⟨_, hkey, h⟩ := h
      obtain ⟨_, hchild, h⟩ := bind_ok.mp h
      have hown : lower key ∉ forbiddenAuthorityKeys := of_decide_eq_true (require_ok.mp hkey)
      exact ⟨⟨hown, hchild⟩, h⟩
    · intro h
      have hown : lower key ∉ forbiddenAuthorityKeys := h.1.1
      exact ⟨(), require_ok.mpr (decide_eq_true hown), bind_ok.mpr ⟨(), h.1.2, h.2⟩⟩

theorem rejectItems_ok {xs : List PyValue}
    (ih : ∀ x ∈ xs, ∀ path, rejectAuthority path x = .ok () ↔ x.Throughout Unauthorized)
    (path : String) (i : Nat) : rejectItems path i xs = .ok () ↔
      ∀ x ∈ xs, x.Throughout Unauthorized := by
  induction xs generalizing i with
  | nil => simp [rejectItems]
  | cons x xs ihl =>
    have hrest := ihl (fun y hy => ih y (List.mem_cons_of_mem _ hy)) (i + 1)
    rw [List.forall_mem_cons, ← hrest,
      ← ih x List.mem_cons_self (path ++ "[" ++ toString i ++ "]"), rejectItems, bind_ok]
    constructor
    · intro h
      obtain ⟨_, hx, h⟩ := h
      exact ⟨hx, h⟩
    · intro h
      exact ⟨(), h⟩

/-- **The search raises exactly when some key is forbidden**, however deep it is. -/
theorem rejectAuthority_ok (path : String) (v : PyValue) :
    rejectAuthority path v = .ok () ↔ v.Throughout Unauthorized := by
  induction v using PyValue.induct generalizing path with
  | list xs ih =>
    rw [rejectAuthority, rejectItems_ok ih, PyValue.throughout_list]
  | dict kvs ih =>
    rw [rejectAuthority, rejectEntries_ok ih, PyValue.throughout_dict]
  | _ =>
    refine iff_of_true rfl ?_
    intro key child hw
    cases hw

/-- **An accepted candidate is clean.** -/
theorem validateCandidate_clean {I : Interpreter} {request : Request} {candidate : PyValue}
    {out : Candidate} (h : validateCandidate I request candidate = .ok out) :
    candidate.Clean forbiddenAuthorityKeys := by
  obtain ⟨_, _, h⟩ := bind_ok.mp h
  obtain ⟨_, hreject, _⟩ := bind_ok.mp h
  refine ((rejectAuthority_ok _ _).mp hreject).imp fun key child hkey => ⟨hkey, ?_⟩
  intro hbinding
  refine absurd ?_ hkey
  rw [hbinding]
  decide

end Edon.Optimization
