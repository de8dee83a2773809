import EdonPlatform.Lib.Gathering
import EdonPlatform.Optimization.Adapter

/- How the optimization adapter reads a request (edon/optimization/adapter.py): the rows of the
   three tables are checked one after another and then sorted by their keys.

   What is proved:
     1. `normalizeRequest_reordered` — what is read of a request does not depend on the order in
        which its tables list their rows.
     2. `normalizeRequest_known` — in a request that was read, every lane has its supply and its
        demand, and no quantity is negative.

   Correspondence (Python ↔ Lean):
     `int(value)`          ↔ `intOf` (`parseInt` reads a text)
     `_normalize_request`  ↔ `normalizeRequest` (one definition for the rows of each table) -/
namespace Edon.Optimization

/-- `int(value)`. -/
def intOf (parseInt : String → Option Int) : PyValue → Except PyError Int
  | .int n => .ok n
  | .bool b => .ok (if b then 1 else 0)
  | .float (.finite q) => .ok (q.num.tdiv q.den)
  | .float (.infinite _) => .error ⟨.overflowError, "cannot convert float infinity to integer"⟩
  | .float .nan => .error ⟨.valueError, "cannot convert float NaN to integer"⟩
  | .str s => orRaise ⟨.valueError, "invalid literal for int() with base 10: '" ++ s ++ "'"⟩ (parseInt s)
  | v => .error ⟨.typeError, "int() argument must be a string, a bytes-like object or a real number, not '" ++
      v.typeName ++ "'"⟩

/-- `request.get(table, [])`, as a loop reads it. -/
def rowsOf (request : PyValue) (table : String) : Except PyError (List PyValue) := do
  (← request.getD table (.list [])).iterate

section
variable (I : Interpreter) (parseInt : String → Option Int)

def supplyKey (row : PyValue) : Except PyError String := do
  identifierOf I (← row.index "supply_id") "supply_id"

def capacityOf (row : PyValue) (_ : String) : Except PyError Rat := do
  quantityOf (← row.index "capacity") "capacity"

def demandKey (row : PyValue) : Except PyError String := do
  identifierOf I (← row.index "demand_id") "demand_id"

def demandOf (row : PyValue) (_ : String) : Except PyError Demand := do
  let priority ← intOf parseInt (← row.getD "priority" (.int 50))
  require (0 ≤ priority ∧ priority ≤ 100) (optimizationError "priority must be between 0 and 100")
  return { quantity := ← quantityOf (← row.index "quantity") "quantity", priority }

def laneKey (supplies : Dict String Rat) (demands : Dict String Demand) (row : PyValue) :
    Except PyError (String ×ₗ String) := do
  let supplyId ← identifierOf I (← row.index "supply_id") "lane supply_id"
  let demandId ← identifierOf I (← row.index "demand_id") "lane demand_id"
  require (supplies.contains supplyId && demands.contains demandId)
    (optimizationError "lane references an unknown supply or demand")
  return toLex (supplyId, demandId)

/-- A lane carries at most what its supply has, where the row gives no limit. -/
def laneOf (supplies : Dict String Rat) (row : PyValue) (key : String ×ₗ String) :
    Except PyError Lane := do
  let unitCost ← quantityOf (← row.index "unit_cost") "unit_cost"
  let maxQuantity ← quantityOf (← row.getD "max_quantity"
    (.float (.finite ((supplies.get (ofLex key).1).getD 0)))) "max_quantity"
  return { unitCost, maxQuantity }

/-- `_normalize_request`. -/
def normalizeRequest (request : PyValue) : Except PyError Request := do
  require (request matches .dict _)
    (optimizationError "optimization request must be a JSON object")
  let objective ← request.getD "objective" (.str "MINIMIZE_COST")
  require (upper (objective.toStr I) = "MINIMIZE_COST")
    (optimizationError "reference adapter supports MINIMIZE_COST only")
  let supplies ← (← rowsOf request "supplies").foldlM
    (Gathering.gather (supplyKey I) (optimizationError "duplicate supply_id") capacityOf) ∅
  let demands ← (← rowsOf request "demands").foldlM
    (Gathering.gather (demandKey I) (optimizationError "duplicate demand_id") (demandOf parseInt)) ∅
  require (!supplies.isEmpty && !demands.isEmpty)
    (optimizationError "at least one supply and demand are required")
  let lanes ← (← rowsOf request "lanes").foldlM
    (Gathering.gather (laneKey I supplies demands)
      (optimizationError "duplicate supply-demand lane") (laneOf supplies)) ∅
  require (!lanes.isEmpty) (optimizationError "at least one allocation lane is required")
  let bindings ← request.getD "state_bindings" (.dict [])
  require (bindings matches .dict _) (optimizationError "state_bindings must be an object")
  let stateBindings ← bindings.entries "items"
  let requestId ← identifierOf I (← request.index "request_id") "request_id"
  let tenantId ← identifierOf I (← request.index "tenant_id") "tenant_id"
  let scopeId ← identifierOf I (← request.index "scope_id") "scope_id"
  let requireFullDemand ← request.getD "require_full_demand" (.bool true)
  return {
    requestId, tenantId, scopeId, supplies, demands, lanes
    requireFullDemand := requireFullDemand.truthy
    stateBindings }

/-! ## The order of the rows -/

/-- The fields of a request that list rows. -/
def tables : List String := ["supplies", "demands", "lanes"]

/-- The same value, or the same rows in another order. -/
def SameRows (x y : PyValue) : Prop :=
  x = y ∨ ∃ xs ys, x = .list xs ∧ y = .list ys ∧ xs.Perm ys

/-- The same request, where the tables may list their rows in another order. -/
def Reordered (request other : PyValue) : Prop :=
  ∃ kvs kvs', request = .dict kvs ∧ other = .dict kvs' ∧
    (∀ key, key ∉ tables → Assoc.find kvs' key = Assoc.find kvs key) ∧
    ∀ key ∈ tables, Option.Rel SameRows (Assoc.find kvs key) (Assoc.find kvs' key)

variable {I parseInt}

theorem Reordered.getD {request other : PyValue} (h : Reordered request other) {key : String}
    (hkey : key ∉ tables) (default : PyValue) :
    other.getD key default = request.getD key default := by
  obtain ⟨kvs, kvs', rfl, rfl, hsame, _⟩ := h
  unfold PyValue.getD
  dsimp only
  rw [hsame key hkey]

theorem Reordered.index {request other : PyValue} (h : Reordered request other) {key : String}
    (hkey : key ∉ tables) : other.index key = request.index key := by
  obtain ⟨kvs, kvs', rfl, rfl, hsame, _⟩ := h
  unfold PyValue.index
  dsimp only
  rw [hsame key hkey]

theorem Reordered.rowsOf {request other : PyValue} (h : Reordered request other) {table : String}
    (htable : table ∈ tables) {rows : List PyValue}
    (hrows : Optimization.rowsOf request table = .ok rows) :
    ∃ rows', Optimization.rowsOf other table = .ok rows' ∧ rows.Perm rows' := by
  obtain ⟨kvs, kvs', rfl, rfl, _, hlists⟩ := h
  have hlists := hlists table htable
  unfold Optimization.rowsOf PyValue.getD at hrows ⊢
  dsimp only at hrows ⊢
  cases hfind : Assoc.find kvs table with
  | none =>
    rw [hfind] at hlists hrows
    cases hfind' : Assoc.find kvs' table with
    | none => exact ⟨rows, hrows, .refl rows⟩
    | some y =>
      rw [hfind'] at hlists
      cases hlists
  | some x =>
    rw [hfind] at hlists hrows
    cases hfind' : Assoc.find kvs' table with
    | none =>
      rw [hfind'] at hlists
      cases hlists
    | some y =>
      rw [hfind'] at hlists
      cases hlists with
      | some hsame =>
        rcases hsame with rfl | ⟨xs, ys, rfl, rfl, hperm⟩
        · exact ⟨rows, hrows, .refl rows⟩
        · cases hrows
          exact ⟨ys, rfl, hperm⟩

/-- **The request that is read does not depend on the order of the rows.** -/
theorem normalizeRequest_reordered {request other : PyValue} (h : Reordered request other)
    {normalized : Request} (hok : normalizeRequest I parseInt request = .ok normalized) :
    normalizeRequest I parseInt other = .ok normalized := by
  obtain ⟨kvs', rfl⟩ : ∃ kvs', other = .dict kvs' := by
    obtain ⟨_, kvs', _, hother, _⟩ := h
    exact ⟨kvs', hother⟩
  unfold normalizeRequest at hok ⊢
  obtain ⟨_, _, hok⟩ := bind_ok.mp hok
  refine bind_ok.mpr ⟨(), require_ok.mpr rfl, ?_⟩
  rw [h.getD (by decide)]
  obtain ⟨objective, hobjective, hok⟩ := bind_ok.mp hok
  refine bind_ok.mpr ⟨objective, hobjective, ?_⟩
  obtain ⟨_, hcost, hok⟩ := bind_ok.mp hok
  refine bind_ok.mpr ⟨(), hcost, ?_⟩
  -- each table is gathered to the same dictionary
  obtain ⟨supplyRows, hsupplyRows, hok⟩ := bind_ok.mp hok
  obtain ⟨supplies, hsupplies, hok⟩ := bind_ok.mp hok
  obtain ⟨supplyRows', hsupplyRows', hsupplyPerm⟩ := h.rowsOf (by decide) hsupplyRows
  refine bind_ok.mpr ⟨supplyRows', hsupplyRows', ?_⟩
  refine bind_ok.mpr ⟨supplies, Gathering.gather_perm hsupplyPerm hsupplies, ?_⟩
  obtain ⟨demandRows, hdemandRows, hok⟩ := bind_ok.mp hok
  obtain ⟨demands, hdemands, hok⟩ := bind_ok.mp hok
  obtain ⟨demandRows', hdemandRows', hdemandPerm⟩ := h.rowsOf (by decide) hdemandRows
  refine bind_ok.mpr ⟨demandRows', hdemandRows', ?_⟩
  refine bind_ok.mpr ⟨demands, Gathering.gather_perm hdemandPerm hdemands, ?_⟩
  obtain ⟨_, hsome, hok⟩ := bind_ok.mp hok
  refine bind_ok.mpr ⟨(), hsome, ?_⟩
  obtain ⟨laneRows, hlaneRows, hok⟩ := bind_ok.mp hok
  obtain ⟨lanes, hlanes, hok⟩ := bind_ok.mp hok
  obtain ⟨laneRows', hlaneRows', hlanePerm⟩ := h.rowsOf (by decide) hlaneRows
  refine bind_ok.mpr ⟨laneRows', hlaneRows', ?_⟩
  refine bind_ok.mpr ⟨lanes, Gathering.gather_perm hlanePerm hlanes, ?_⟩
  rw [h.getD (by decide), h.index (by decide), h.index (by decide), h.index (by decide),
    h.getD (by decide)]
  exact hok

/-! ## What a request that was read keeps -/

/-- Every lane has its supply and its demand, and no quantity is negative. -/
structure Request.Known (request : Request) : Prop where
  supply : ∀ s d lane, request.lanes.get (toLex (s, d)) = some lane →
    ∃ capacity, request.supplies.get s = some capacity
  demand : ∀ s d lane, request.lanes.get (toLex (s, d)) = some lane →
    ∃ demand, request.demands.get d = some demand
  capacity : ∀ s capacity, request.supplies.get s = some capacity → 0 ≤ capacity
  quantity : ∀ d demand, request.demands.get d = some demand → 0 ≤ demand.quantity
  lane : ∀ k lane, request.lanes.get k = some lane → 0 ≤ lane.unitCost ∧ 0 ≤ lane.maxQuantity
  supplyId : ∀ s capacity, request.supplies.get s = some capacity →
    ∃ value label, identifier .optimizationError value label = .ok s
  demandId : ∀ d demand, request.demands.get d = some demand →
    ∃ value label, identifier .optimizationError value label = .ok d

theorem quantityOf_nonneg {value : PyValue} {label : String} {q : Rat}
    (h : quantityOf value label = .ok q) : 0 ≤ q := by
  unfold quantityOf at h
  split at h
  · next n =>
    split at h
    · cases h
    · split at h
      · cases h
      · next hneg =>
        cases h
        exact_mod_cast not_lt.mp hneg
  · split at h
    · cases h
    · next hneg =>
      cases h
      exact not_lt.mp hneg
  · cases h
  · cases h

theorem normalizeRequest_known {request : PyValue} {normalized : Request}
    (h : normalizeRequest I parseInt request = .ok normalized) : normalized.Known := by
  unfold normalizeRequest at h
  obtain ⟨_, _, h⟩ := bind_ok.mp h
  obtain ⟨objective, _, h⟩ := bind_ok.mp h
  obtain ⟨_, _, h⟩ := bind_ok.mp h
  obtain ⟨supplyRows, _, h⟩ := bind_ok.mp h
  obtain ⟨supplies, hsupplies, h⟩ := bind_ok.mp h
  obtain ⟨demandRows, _, h⟩ := bind_ok.mp h
  obtain ⟨demands, hdemands, h⟩ := bind_ok.mp h
  obtain ⟨_, _, h⟩ := bind_ok.mp h
  obtain ⟨laneRows, _, h⟩ := bind_ok.mp h
  obtain ⟨lanes, hlanes, h⟩ := bind_ok.mp h
  obtain ⟨_, _, h⟩ := bind_ok.mp h
  obtain ⟨bindings, _, h⟩ := bind_ok.mp h
  obtain ⟨_, _, h⟩ := bind_ok.mp h
  obtain ⟨stateBindings, _, h⟩ := bind_ok.mp h
  obtain ⟨_, _, h⟩ := bind_ok.mp h
  obtain ⟨requestId, _, h⟩ := bind_ok.mp h
  obtain ⟨_, _, h⟩ := bind_ok.mp h
  obtain ⟨tenantId, _, h⟩ := bind_ok.mp h
  obtain ⟨_, _, h⟩ := bind_ok.mp h
  obtain ⟨scopeId, _, h⟩ := bind_ok.mp h
  obtain ⟨requireFullDemand, _, h⟩ := bind_ok.mp h
  cases h
  have hsupply : ∀ {s : String} {capacity : Rat}, supplies.get s = some capacity →
      ∃ row, supplyKey I row = .ok s ∧ capacityOf row s = .ok capacity := by
    intro s capacity hget
    rcases Gathering.gather_mem hsupplies hget with hnone | ⟨row, _, hrow⟩
    · cases hnone
    · exact ⟨row, hrow⟩
  have hdemand : ∀ {d : String} {demand : Demand}, demands.get d = some demand →
      ∃ row, demandKey I row = .ok d ∧ demandOf parseInt row d = .ok demand := by
    intro d demand hget
    rcases Gathering.gather_mem hdemands hget with hnone | ⟨row, _, hrow⟩
    · cases hnone
    · exact ⟨row, hrow⟩
  have hlane : ∀ {k : String ×ₗ String} {lane : Lane}, lanes.get k = some lane →
      ∃ row, laneKey I supplies demands row = .ok k ∧ laneOf supplies row k = .ok lane := by
    intro k lane hget
    rcases Gathering.gather_mem hlanes hget with hnone | ⟨row, _, hrow⟩
    · cases hnone
    · exact ⟨row, hrow⟩
  have hends : ∀ {s d : String} {lane : Lane}, lanes.get (toLex (s, d)) = some lane →
      supplies.contains s = true ∧ demands.contains d = true := by
    intro s d lane hget
    obtain ⟨row, hkey, _⟩ := hlane hget
    obtain ⟨_, _, hkey⟩ := bind_ok.mp hkey
    obtain ⟨supplyId, _, hkey⟩ := bind_ok.mp hkey
    obtain ⟨_, _, hkey⟩ := bind_ok.mp hkey
    obtain ⟨demandId, _, hkey⟩ := bind_ok.mp hkey
    obtain ⟨_, hknown, hkey⟩ := bind_ok.mp hkey
    cases hkey
    exact Bool.and_eq_true_iff.mp (require_ok.mp hknown)
  refine
    { supply := fun s d lane hget => Dict.contains_iff.mp (hends hget).1
      demand := fun s d lane hget => Dict.contains_iff.mp (hends hget).2
      capacity := ?_, quantity := ?_, lane := ?_, supplyId := ?_, demandId := ?_ }
  · intro s capacity hget
    obtain ⟨row, _, hcapacity⟩ := hsupply hget
    obtain ⟨_, _, hcapacity⟩ := bind_ok.mp hcapacity
    exact quantityOf_nonneg hcapacity
  · intro d demand hget
    obtain ⟨row, _, hvalue⟩ := hdemand hget
    obtain ⟨_, _, hvalue⟩ := bind_ok.mp hvalue
    obtain ⟨_, _, hvalue⟩ := bind_ok.mp hvalue
    obtain ⟨_, _, hvalue⟩ := bind_ok.mp hvalue
    obtain ⟨_, _, hvalue⟩ := bind_ok.mp hvalue
    obtain ⟨quantity, hquantity, hvalue⟩ := bind_ok.mp hvalue
    cases hvalue
    exact quantityOf_nonneg hquantity
  · intro k lane hget
    obtain ⟨row, _, hvalue⟩ := hlane hget
    obtain ⟨_, _, hvalue⟩ := bind_ok.mp hvalue
    obtain ⟨unitCost, hcost, hvalue⟩ := bind_ok.mp hvalue
    obtain ⟨_, _, hvalue⟩ := bind_ok.mp hvalue
    obtain ⟨maxQuantity, hmax, hvalue⟩ := bind_ok.mp hvalue
    cases hvalue
    exact ⟨quantityOf_nonneg hcost, quantityOf_nonneg hmax⟩
  · intro s capacity hget
    obtain ⟨row, hkey, _⟩ := hsupply hget
    obtain ⟨value, _, hkey⟩ := bind_ok.mp hkey
    exact ⟨value.toStr I, _, hkey⟩
  · intro d demand hget
    obtain ⟨row, hkey, _⟩ := hdemand hget
    obtain ⟨value, _, hkey⟩ := bind_ok.mp hkey
    exact ⟨value.toStr I, _, hkey⟩

end

end Edon.Optimization
