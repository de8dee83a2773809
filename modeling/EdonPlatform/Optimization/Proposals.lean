import EdonPlatform.Optimization.Allocator

/- What the optimization adapter makes of its built-in allocator (edon/optimization/adapter.py):
   the candidate is checked as one of any provider and put into an envelope.

   What is proved:
     1. `optimizer_soundness` — the candidate keeps to the lanes and the capacities, serves or
        reports every demand, and like the envelope does not depend on the order of the rows.
     2. `accepts_own_candidate_iff` — the adapter takes it, unless a demand that is left short is
        named as a field of authority.
     3. `infeasible_in_turn` — INFEASIBLE means that some demand cannot be served once those
        before it have what the candidate gives them.

   Correspondence (Python ↔ Lean):
     `OptimizationAdapter.propose` ↔ `propose` -/
namespace Edon.Optimization
open Totals Transition

def supplyRow (e : String × Rat) : PyValue :=
  .dict [("supply_id", .str e.1), ("capacity", .float (.finite e.2))]

def demandRow (e : String × Demand) : PyValue :=
  .dict [("demand_id", .str e.1), ("quantity", .float (.finite e.2.quantity)),
    ("priority", .int e.2.priority)]

def laneRow (e : (String ×ₗ String) × Lane) : PyValue :=
  .dict [("supply_id", .str (ofLex e.1).1), ("demand_id", .str (ofLex e.1).2),
    ("unit_cost", .float (.finite e.2.unitCost)), ("max_quantity", .float (.finite e.2.maxQuantity))]

/-- The normalized request. -/
def Request.toPy (request : Request) : PyValue :=
  .dict [("schema_version", .str "edon-optimization-request.v1"),
    ("request_id", .str request.requestId), ("tenant_id", .str request.tenantId),
    ("scope_id", .str request.scopeId), ("objective", .str "MINIMIZE_COST"),
    ("supplies", .list (request.supplies.entries.map supplyRow)),
    ("demands", .list (request.demands.entries.map demandRow)),
    ("lanes", .list (request.lanes.entries.map laneRow)),
    ("require_full_demand", .bool request.requireFullDemand),
    ("state_bindings", .dict request.stateBindings)]

def CandidateStatus.text : CandidateStatus → String
  | .feasible => "FEASIBLE"
  | .partialDemand => "PARTIAL"
  | .infeasible => "INFEASIBLE"

/-- `**candidate`. -/
def Candidate.fields (c : Candidate) : List (String × PyValue) :=
  [("allocations", .list (c.allocations.map Allocation.toPy)),
    ("unmet_demand", .dict (c.unmetDemand.entries.map fun e => (e.1, .float (.finite e.2)))),
    ("total_cost", .float (.finite c.totalCost)), ("status", .str c.status.text),
    ("feasible", .bool c.feasible), ("optimality_claim", .bool false)]

section
variable (I : Interpreter) (parseInt : String → Option Int)

def envelope (lineage : String) (normalized : Request) (candidate : Candidate) :
    List (String × PyValue) :=
  [("schema_version", .str "edon-optimization-candidate.v1"),
    ("request_id", .str normalized.requestId), ("tenant_id", .str normalized.tenantId),
    ("scope_id", .str normalized.scopeId), ("objective", .str "MINIMIZE_COST"),
    ("request_sha256", .str (normalized.toPy.sha256Json I)), ("provider_lineage", .str lineage)] ++
  candidate.fields ++
  [("binding_authority", .bool false), ("requires_kernel_authorization", .bool true)]

/-- `OptimizationAdapter.propose`, of an adapter with this provider and lineage. -/
def propose (provider : Request → Except PyError PyValue) (lineage : String) (request : PyValue) :
    Except PyError PyValue := do
  let normalized ← normalizeRequest I parseInt request
  let candidate ← validateCandidate I normalized (← provider normalized)
  let fields := envelope I lineage normalized candidate
  return .dict (fields ++ [("candidate_sha256", .str ((PyValue.dict fields).sha256Json I))])

end

/-! ## The candidate is within the limits -/

/-- A candidate that keeps to the lanes and the capacities, and serves or reports every demand. -/
structure Request.Sound (request : Request) (a : Allotment) : Prop where
  lane : ∀ x ∈ a.allocations, 0 < x.quantity ∧
    ∃ lane, request.lanes.get (toLex (x.supplyId, x.demandId)) = some lane ∧
      x.unitCost = lane.unitCost
  supply : ∀ s capacity, request.supplies.get s = some capacity → drawn s a.allocations ≤ capacity
  demand : ∀ d demand, request.demands.get d = some demand →
    served d a.allocations ≤ demand.quantity
  carries : ∀ k lane, request.lanes.get k = some lane → carried k a.allocations ≤ lane.maxQuantity
  balance : ∀ d demand, request.demands.get d = some demand →
    served d a.allocations + (Assoc.find a.unmet d).getD 0 ≤ demand.quantity ∧
      demand.quantity ≤ served d a.allocations + (Assoc.find a.unmet d).getD 0 + negligible
  unmet : ∀ u ∈ a.unmet, ∃ demand, request.demands.get u.1 = some demand

section
variable {request : Request}

theorem Request.Known.allot_sound (hknown : request.Known) : request.Sound request.allot := by
  have h := allot_balanced hknown
  have hserved : ∀ d demand, request.demands.get d = some demand →
      ∃ missing, 0 ≤ missing ∧ served d request.allot.allocations + missing = demand.quantity ∧
        Assoc.find request.allot.unmet d = if negligible < missing then some missing else none :=
    fun d demand hget => h.demand (d, demand) (mem_demandsInTurn.mpr hget)
  refine
    { lane := fun x hx => (h.own x hx).2, supply := ?_, demand := ?_, carries := h.lane
      balance := ?_, unmet := ?_ }
  · intro s capacity hget
    have hsupply := h.supply s
    have hleft := h.left s
    have hcapacity : available request.supplies s = capacity := by
      unfold available
      rw [hget]
      rfl
    linarith
  · intro d demand hget
    obtain ⟨missing, hmissing, hbalance, _⟩ := hserved d demand hget
    linarith
  · intro d demand hget
    obtain ⟨missing, hmissing, hbalance, hunmet⟩ := hserved d demand hget
    have hpos := negligible_pos
    rw [hunmet]
    split
    · simp only [Option.getD_some]
      constructor <;> linarith
    · next hle =>
      have hle := not_lt.mp hle
      simp only [Option.getD_none]
      constructor <;> linarith
  · intro u hu
    obtain ⟨e, he, hid⟩ := List.mem_map.mp (h.unmet u hu)
    exact ⟨e.2, hid ▸ mem_demandsInTurn.mp he⟩

end

/-! ## The adapter's check of it -/

theorem quantityOf_finite {q : Rat} (h : 0 ≤ q) (label : String) :
    quantityOf (.float (.finite q)) label = .ok q := by
  show (if q < 0 then _ else _) = _
  rw [if_neg (not_lt.mpr h)]

theorem tolerance_pos : 0 < tolerance := by
  unfold tolerance
  norm_num

section
variable {I : Interpreter} {request : Request}

/-- An allocation on a lane of the request, within it. -/
structure Request.Fits (request : Request) (x : Allocation) : Prop where
  supplyId : ∃ value label, identifier .optimizationError value label = .ok x.supplyId
  demandId : ∃ value label, identifier .optimizationError value label = .ok x.demandId
  nonneg : 0 ≤ x.quantity
  lane : ∃ lane, request.lanes.get (toLex (x.supplyId, x.demandId)) = some lane ∧
    x.quantity ≤ lane.maxQuantity ∧ x.unitCost = lane.unitCost ∧ 0 ≤ lane.unitCost

theorem add_fits {x : Allocation} (h : request.Fits x) (tally : Tally) :
    ∃ totalCost allocations, Tally.add I request tally x.toPy = .ok
      { usedSupply := addAmount tally.usedSupply x.supplyId x.quantity
        servedDemand := addAmount tally.servedDemand x.demandId x.quantity
        usedLane := addAmount tally.usedLane (toLex (x.supplyId, x.demandId)) x.quantity
        totalCost, allocations } := by
  obtain ⟨_, _, hsupply⟩ := h.supplyId
  obtain ⟨_, _, hdemand⟩ := h.demandId
  obtain ⟨lane, hlane, hle, hcost, hnonneg⟩ := h.lane
  have hpos := tolerance_pos
  have hwithin : decide (x.quantity ≤ lane.maxQuantity + tolerance) = true := by
    apply decide_eq_true
    linarith
  have hsame : decide (|x.unitCost - lane.unitCost| ≤ tolerance) = true := by
    apply decide_eq_true
    rw [hcost, sub_self, abs_zero]
    exact hpos.le
  refine ⟨tally.totalCost + x.quantity * lane.unitCost,
    tally.allocations ++ [⟨x.supplyId, x.demandId, x.quantity, lane.unitCost⟩], ?_⟩
  refine bind_ok.mpr ⟨.str x.supplyId, rfl, ?_⟩
  refine bind_ok.mpr ⟨x.supplyId, identifier_again hsupply _, ?_⟩
  refine bind_ok.mpr ⟨.str x.demandId, rfl, ?_⟩
  refine bind_ok.mpr ⟨x.demandId, identifier_again hdemand _, ?_⟩
  refine bind_ok.mpr ⟨lane, orRaise_ok.mpr hlane, ?_⟩
  refine bind_ok.mpr ⟨.float (.finite x.quantity), rfl, ?_⟩
  refine bind_ok.mpr ⟨x.quantity, quantityOf_finite h.nonneg _, ?_⟩
  refine bind_ok.mpr ⟨(), require_ok.mpr hwithin, ?_⟩
  refine bind_ok.mpr ⟨.float (.finite x.unitCost), rfl, ?_⟩
  refine bind_ok.mpr ⟨x.unitCost, quantityOf_finite (hcost ▸ hnonneg) _, ?_⟩
  exact bind_ok.mpr ⟨(), require_ok.mpr hsame, rfl⟩

/-- `amounts[key]`, or nothing. -/
def amountAt {κ : Type} [LinearOrder κ] (amounts : Dict κ Rat) (key : κ) : Rat :=
  (amounts.get key).getD 0

theorem amountAt_addAmount {κ : Type} [LinearOrder κ] (amounts : Dict κ Rat) (key key' : κ)
    (q : Rat) : amountAt (addAmount amounts key q) key' =
      amountAt amounts key' + if key = key' then q else 0 := by
  unfold amountAt addAmount
  rw [Dict.get_set]
  by_cases h : key = key'
  · subst h
    simp
  · simp [h]

/-- The tally of allocations that fit. -/
theorem tally_fits {l : List Allocation} (h : ∀ x ∈ l, request.Fits x) (tally : Tally) :
    ∃ tally', (l.map Allocation.toPy).foldlM (Tally.add I request) tally = .ok tally' ∧
      (∀ s, amountAt tally'.usedSupply s = amountAt tally.usedSupply s + drawn s l) ∧
      (∀ d, amountAt tally'.servedDemand d = amountAt tally.servedDemand d + served d l) ∧
      ∀ k, amountAt tally'.usedLane k = amountAt tally.usedLane k + carried k l := by
  induction l generalizing tally with
  | nil =>
    refine ⟨tally, rfl, ?_, ?_, ?_⟩
    · exact fun s => (add_zero _).symm
    · exact fun d => (add_zero _).symm
    · exact fun k => (add_zero _).symm
  | cons x l ih =>
    obtain ⟨hx, hl⟩ := List.forall_mem_cons.mp h
    obtain ⟨totalCost, allocations, hadd⟩ := add_fits (I := I) hx tally
    obtain ⟨tally', hfold, hsupply, hdemand, hlane⟩ := ih hl _
    refine ⟨tally', bind_ok.mpr ⟨_, hadd, hfold⟩, ?_, ?_, ?_⟩
    · intro s
      rw [hsupply, amountAt_addAmount, drawn, drawn, totalWhere_cons, add_assoc]
      simp only [decide_eq_true_eq]
    · intro d
      rw [hdemand, amountAt_addAmount, served, served, totalWhere_cons, add_assoc]
      simp only [decide_eq_true_eq]
    · intro k
      rw [hlane, amountAt_addAmount, carried, carried, totalWhere_cons, add_assoc]
      simp only [decide_eq_true_eq]

theorem amountAt_zero {κ α : Type} [LinearOrder κ] (d : Dict κ α) (key : κ) :
    amountAt (d.map fun _ _ => 0) key = 0 := by
  unfold amountAt
  rw [Dict.get_map]
  cases d.get key <;> rfl

theorem withinLimits_of_le {κ α : Type} [LinearOrder κ] {amounts : Dict κ Rat} {limits : Dict κ α}
    {limit : α → Rat} (h : ∀ key a, limits.get key = some a → amountAt amounts key ≤ limit a) :
    withinLimits amounts limits limit = true := by
  unfold withinLimits
  rw [List.all_eq_true]
  intro e he
  have hamount : amountAt amounts e.1 = e.2 := by
    unfold amountAt
    rw [Dict.mem_entries.mp he]
    rfl
  cases hget : limits.get e.1 with
  | none => rfl
  | some a =>
    have hle := h e.1 a hget
    have hpos := tolerance_pos
    rw [hamount] at hle
    exact decide_eq_true (by linarith)

theorem le_carried {l : List Allocation} (hnonneg : ∀ x ∈ l, 0 ≤ x.quantity) {x : Allocation}
    (hx : x ∈ l) : x.quantity ≤ carried (toLex (x.supplyId, x.demandId)) l := by
  apply List.single_le_sum
  · intro q hq
    obtain ⟨y, hy, rfl⟩ := List.mem_map.mp hq
    exact hnonneg y (List.mem_filter.mp hy).1
  · exact List.mem_map_of_mem (List.mem_filter.mpr ⟨hx, decide_eq_true rfl⟩)

theorem Request.Known.fits (hknown : request.Known) :
    ∀ x ∈ request.allot.allocations, request.Fits x := by
  have hsound := hknown.allot_sound
  intro x hx
  obtain ⟨hpos, lane, hlane, hcost⟩ := hsound.lane x hx
  obtain ⟨capacity, hsupply⟩ := hknown.supply _ _ _ hlane
  obtain ⟨demand, hdemand⟩ := hknown.demand _ _ _ hlane
  have hle := le_carried (fun y hy => (hsound.lane y hy).1.le) hx
  exact
    { supplyId := hknown.supplyId _ _ hsupply
      demandId := hknown.demandId _ _ hdemand
      nonneg := hpos.le
      lane := ⟨lane, hlane, hle.trans (hsound.carries _ _ hlane), hcost, (hknown.lane _ _ hlane).1⟩ }

/-- What no demand of these names is left without. -/
def Allotment.Unnamed (a : Allotment) : Prop := ∀ u ∈ a.unmet, lower u.1 ∉ forbiddenAuthorityKeys

theorem allocation_throughout (x : Allocation) : x.toPy.Throughout Unauthorized := by
  unfold Allocation.toPy
  rw [PyValue.throughout_dict]
  simp only [List.forall_mem_cons, Unauthorized]
  refine ⟨⟨by decide, nofun⟩, ⟨by decide, nofun⟩, ⟨by decide, nofun⟩, ⟨by decide, nofun⟩, nofun⟩

theorem toPy_throughout (a : Allotment) : a.toPy.Throughout Unauthorized ↔ a.Unnamed := by
  unfold Allotment.toPy
  rw [PyValue.throughout_dict]
  simp only [List.forall_mem_cons, PyValue.throughout_list, PyValue.throughout_dict, Unauthorized]
  constructor
  · rintro ⟨_, ⟨_, hunmet⟩, _⟩ u hu
    exact (hunmet _ (List.mem_map_of_mem hu)).1
  · intro h
    refine ⟨⟨by decide, ?_⟩, ⟨by decide, ?_⟩, ⟨by decide, nofun⟩, ⟨by decide, nofun⟩, nofun⟩
    · intro v hv
      obtain ⟨x, _, rfl⟩ := List.mem_map.mp hv
      exact allocation_throughout x
    · intro e he
      obtain ⟨u, hu, rfl⟩ := List.mem_map.mp he
      exact ⟨h u hu, nofun⟩

/-- The tally of the candidate of the allocator. -/
theorem Request.Known.tally (hknown : request.Known) :
    ∃ tally, (request.allot.allocations.map Allocation.toPy).foldlM (Tally.add I request)
        (Tally.start request) = .ok tally ∧
      (∀ s, amountAt tally.usedSupply s = drawn s request.allot.allocations) ∧
      (∀ d, amountAt tally.servedDemand d = served d request.allot.allocations) ∧
      ∀ k, amountAt tally.usedLane k = carried k request.allot.allocations := by
  obtain ⟨tally, hfold, hsupply, hdemand, hlane⟩ :=
    tally_fits (I := I) hknown.fits (Tally.start request)
  simp only [Tally.start, amountAt_zero, zero_add] at hsupply hdemand hlane
  exact ⟨tally, hfold, hsupply, hdemand, hlane⟩

/-- The adapter takes the candidate of the allocator where no demand of such a name is short. -/
theorem validateCandidate_own (hknown : request.Known) (h : request.allot.Unnamed) :
    ∃ candidate, validateCandidate I request request.allot.toPy = .ok candidate := by
  have hsound := hknown.allot_sound
  obtain ⟨tally, hfold, hsupply, hdemand, hlane⟩ := hknown.tally (I := I)
  have hwithinSupply : withinLimits tally.usedSupply request.supplies id = true := by
    apply withinLimits_of_le
    intro s capacity hget
    rw [hsupply]
    exact hsound.supply s capacity hget
  have hwithinDemand : withinLimits tally.servedDemand request.demands Demand.quantity = true := by
    apply withinLimits_of_le
    intro d demand hget
    rw [hdemand]
    exact hsound.demand d demand hget
  have hwithinLane : withinLimits tally.usedLane request.lanes Lane.maxQuantity = true := by
    apply withinLimits_of_le
    intro k lane hget
    rw [hlane]
    exact hsound.carries k lane hget
  have hclean := (rejectAuthority_ok "candidate" _).mpr ((toPy_throughout _).mpr h)
  unfold validateCandidate
  exact ⟨_, bind_ok.mpr ⟨(), require_ok.mpr rfl, bind_ok.mpr ⟨(), hclean,
    bind_ok.mpr ⟨_, rfl, bind_ok.mpr ⟨_, rfl, bind_ok.mpr ⟨tally, hfold,
    bind_ok.mpr ⟨(), require_ok.mpr hwithinSupply, bind_ok.mpr ⟨(), require_ok.mpr hwithinDemand,
    bind_ok.mpr ⟨(), require_ok.mpr hwithinLane, rfl⟩⟩⟩⟩⟩⟩⟩⟩⟩

/-- Where full demand is required, some demand misses more than the tolerance. -/
theorem validateCandidate_infeasible (hknown : request.Known) {candidate : Candidate}
    (h : validateCandidate I request request.allot.toPy = .ok candidate)
    (hstatus : candidate.status = .infeasible) :
    request.requireFullDemand = true ∧ ∃ e ∈ request.demandsInTurn,
      tolerance < e.2.quantity - served e.1 request.allot.allocations := by
  obtain ⟨tally, hfold, _, hdemand, _⟩ := hknown.tally (I := I)
  obtain ⟨_, _, h⟩ := bind_ok.mp h
  obtain ⟨_, _, h⟩ := bind_ok.mp h
  obtain ⟨_, hvalue, h⟩ := bind_ok.mp h
  cases hvalue
  obtain ⟨_, hrows, h⟩ := bind_ok.mp h
  cases hrows
  obtain ⟨tally', hfold', h⟩ := bind_ok.mp h
  have hsame : tally' = tally := Except.ok.inj (hfold'.symm.trans hfold)
  obtain ⟨_, _, h⟩ := bind_ok.mp h
  obtain ⟨_, _, h⟩ := bind_ok.mp h
  obtain ⟨_, _, h⟩ := bind_ok.mp h
  cases h
  dsimp only at hstatus
  split at hstatus
  · next hrequired =>
    obtain ⟨hfull, hunmet⟩ := Bool.and_eq_true_iff.mp hrequired
    refine ⟨hfull, ?_⟩
    have hsome : ∃ k v, (unmetDemand request tally').get k = some v := by
      apply Dict.exists_get_ofList
      intro hnil
      unfold unmetDemand at hunmet
      rw [hnil] at hunmet
      cases hunmet
    obtain ⟨k, v, hget⟩ := hsome
    obtain ⟨e, he, hmissing⟩ := List.mem_filterMap.mp (Dict.mem_of_get_ofList hget)
    dsimp only at hmissing
    split at hmissing
    · next hmore =>
      refine ⟨e, mem_demandsInTurn.mpr (Dict.mem_entries.mp he), ?_⟩
      rw [← hdemand, ← hsame]
      exact hmore
    · cases hmissing
  · split at hstatus <;> cases hstatus

/-! ## The names of the demands that are left short -/

/-- What is reported unmet, demand after demand. -/
theorem exec_unnamed (hknown : request.Known) {P : String → Prop} (l : List (String × Demand)) :
    ∀ {done : List (String × Demand)} {a : Allotment}, request.Balanced done a →
      (∀ e ∈ l, e ∈ request.demandsInTurn) → ((done ++ l).map Prod.fst).Nodup →
      ((∀ u ∈ (exec request.serveDemand a l).unmet, P u.1) ↔ (∀ u ∈ a.unmet, P u.1) ∧
        Along request.serveDemand (fun a e _ => request.Short a.supplyRemaining e → P e.1) a l) := by
  induction l with
  | nil =>
    intro done a _ _ _
    exact (and_iff_left trivial).symm
  | cons e l ih =>
    intro done a h hl hnodup
    obtain ⟨he, hl⟩ := List.forall_mem_cons.mp hl
    have hnew : e.1 ∉ done.map Prod.fst := by
      rw [List.map_append, List.nodup_append] at hnodup
      exact fun hmem => hnodup.2.2 _ hmem _ (by simp) rfl
    have hnodup' : (((done ++ [e]) ++ l).map Prod.fst).Nodup := by
      rw [List.append_assoc]
      exact hnodup
    have hstep : (∀ u ∈ (request.serveDemand a e).unmet, P u.1) ↔
        (∀ u ∈ a.unmet, P u.1) ∧ (request.Short a.supplyRemaining e → P e.1) := by
      have hids : ∀ a : Allotment, (∀ u ∈ a.unmet, P u.1) ↔ ∀ id ∈ a.unmet.map Prod.fst, P id :=
        fun a => List.forall_mem_map.symm
      rcases serveDemand_unmet hknown h he with ⟨hunmet, hshort⟩ | ⟨hunmet, hshort⟩
      · rw [hids, hunmet, List.forall_mem_append, ← hids, List.forall_mem_singleton]
        exact and_congr_right fun _ => ⟨fun hp _ => hp, fun hp => hp hshort⟩
      · rw [hunmet]
        exact (and_iff_left fun hs => absurd hs hshort).symm
    rw [exec_cons, ih (serveDemand_balanced hknown h he hnew) hl hnodup', hstep, and_assoc]
    rfl

theorem allot_unnamed_iff (hknown : request.Known) : request.allot.Unnamed ↔
    Along request.serveDemand (fun a e _ =>
      request.Short a.supplyRemaining e → lower e.1 ∉ forbiddenAuthorityKeys)
      request.unallotted request.demandsInTurn := by
  have h := exec_unnamed hknown (P := fun id => lower id ∉ forbiddenAuthorityKeys)
    request.demandsInTurn (unallotted_balanced hknown) (fun _ he => he)
    (demandsInTurn_nodup request)
  have hnone : ∀ u ∈ request.unallotted.unmet, lower u.1 ∉ forbiddenAuthorityKeys := nofun
  rw [and_iff_right hnone] at h
  exact h

end

section
variable {I : Interpreter} {parseInt : String → Option Int} {request : PyValue}
  {normalized : Request}

/-- **Optimizer soundness.** The candidate for a request that is accepted uses lanes of the
request, keeps every capacity, and serves or reports each demand; it and the envelope are the same
for every order of the rows. -/
theorem optimizer_soundness (h : normalizeRequest I parseInt request = .ok normalized) :
    (∃ a, solve normalized = .ok a.toPy ∧ normalized.Sound a) ∧
      ∀ other, Reordered request other → normalizeRequest I parseInt other = .ok normalized ∧
        ∀ lineage, propose I parseInt solve lineage other =
          propose I parseInt solve lineage request := by
  refine ⟨⟨normalized.allot, rfl, (normalizeRequest_known h).allot_sound⟩, ?_⟩
  intro other hreordered
  have hother := normalizeRequest_reordered hreordered h
  refine ⟨hother, ?_⟩
  intro lineage
  unfold propose
  rw [h, hother]

/-- **The adapter accepts its own allocator** exactly when no demand is short at its turn that is
named, in some letter case, as a field of authority. -/
theorem accepts_own_candidate_iff (h : normalizeRequest I parseInt request = .ok normalized)
    (lineage : String) :
    (∃ out, propose I parseInt solve lineage request = .ok out) ↔
      Along normalized.serveDemand (fun a e _ =>
        normalized.Short a.supplyRemaining e → lower e.1 ∉ forbiddenAuthorityKeys)
        normalized.unallotted normalized.demandsInTurn := by
  have hknown := normalizeRequest_known h
  rw [← allot_unnamed_iff hknown]
  unfold propose
  rw [h]
  constructor
  · rintro ⟨out, hout⟩
    obtain ⟨_, hrequest, hout⟩ := bind_ok.mp hout
    cases hrequest
    obtain ⟨_, hsolve, hout⟩ := bind_ok.mp hout
    cases hsolve
    obtain ⟨candidate, hvalid, _⟩ := bind_ok.mp hout
    obtain ⟨_, _, hvalid⟩ := bind_ok.mp hvalid
    obtain ⟨_, hclean, _⟩ := bind_ok.mp hvalid
    exact (toPy_throughout _).mp ((rejectAuthority_ok _ _).mp hclean)
  · intro hunnamed
    obtain ⟨candidate, hvalid⟩ := validateCandidate_own (I := I) hknown hunnamed
    exact ⟨_, bind_ok.mpr ⟨_, rfl, bind_ok.mpr ⟨_, rfl, bind_ok.mpr ⟨candidate, hvalid, rfl⟩⟩⟩⟩

end

/-! ## Sample requests -/

def sampleSupply (supplyId : String) (capacity : Int) : PyValue :=
  .dict [("supply_id", .str supplyId), ("capacity", .int capacity)]

def sampleDemand (demandId : String) (quantity priority : Int) : PyValue :=
  .dict [("demand_id", .str demandId), ("quantity", .int quantity), ("priority", .int priority)]

def sampleLane (supplyId demandId : String) (unitCost : Int) : PyValue :=
  .dict [("supply_id", .str supplyId), ("demand_id", .str demandId), ("unit_cost", .int unitCost)]

def sampleRequest (supplies demands lanes : List PyValue) : PyValue :=
  .dict [("request_id", .str "request-1"), ("tenant_id", .str "tenant-a"),
    ("scope_id", .str "memphis"), ("supplies", .list supplies), ("demands", .list demands),
    ("lanes", .list lanes)]

/-- The cheapest lane of the more urgent demand is the only lane of the other. -/
def contested : PyValue :=
  sampleRequest [sampleSupply "s1" 10, sampleSupply "s2" 10]
    [sampleDemand "d1" 10 60, sampleDemand "d2" 10 50]
    [sampleLane "s1" "d1" 1, sampleLane "s2" "d1" 2, sampleLane "s1" "d2" 1]

theorem contested_accepted :
    ∃ normalized, normalizeRequest plainInterpreter (fun _ => none) contested = .ok normalized := by
  have htest : ((normalizeRequest plainInterpreter (fun _ => none) contested).toOption.any
      fun _ => true) = true := by decide +kernel
  obtain ⟨normalized, h, _⟩ := Fallible.ok_of_any htest
  exact ⟨normalized, h⟩

theorem optimizer_soundness_contested : ∃ normalized,
    normalizeRequest plainInterpreter (fun _ => none) contested = .ok normalized ∧
      (∃ a, solve normalized = .ok a.toPy ∧ normalized.Sound a) ∧
        ∀ other, Reordered contested other →
          normalizeRequest plainInterpreter (fun _ => none) other = .ok normalized ∧
          ∀ lineage, propose plainInterpreter (fun _ => none) solve lineage other =
            propose plainInterpreter (fun _ => none) solve lineage contested := by
  obtain ⟨normalized, h⟩ := contested_accepted
  exact ⟨normalized, h, optimizer_soundness h⟩

theorem accepts_own_candidate_contested : ∃ normalized,
    normalizeRequest plainInterpreter (fun _ => none) contested = .ok normalized ∧
      ((∃ out, propose plainInterpreter (fun _ => none) solve "fixture" contested = .ok out) ↔
        Along normalized.serveDemand (fun a e _ =>
          normalized.Short a.supplyRemaining e → lower e.1 ∉ forbiddenAuthorityKeys)
          normalized.unallotted normalized.demandsInTurn) := by
  obtain ⟨normalized, h⟩ := contested_accepted
  exact ⟨normalized, h, accepts_own_candidate_iff h "fixture"⟩

/-- A demand named as a field of authority, and half of what it needs. -/
def commitDemand : PyValue :=
  sampleRequest [sampleSupply "s1" 10] [sampleDemand "Commit" 20 50] [sampleLane "s1" "Commit" 1]

theorem own_candidate_rejected :
    (∃ normalized, normalizeRequest plainInterpreter (fun _ => none) commitDemand = .ok normalized) ∧
      ¬ ∃ out, propose plainInterpreter (fun _ => none) solve "fixture" commitDemand = .ok out := by
  have haccepted : ((normalizeRequest plainInterpreter (fun _ => none) commitDemand).toOption.any
      fun _ => true) = true := by decide +kernel
  have hrejected : (propose plainInterpreter (fun _ => none) solve "fixture" commitDemand).isOk =
      false := by decide +kernel
  obtain ⟨normalized, h, _⟩ := Fallible.ok_of_any haccepted
  refine ⟨⟨normalized, h⟩, ?_⟩
  rintro ⟨out, hout⟩
  rw [hout] at hrejected
  cases hrejected

end Edon.Optimization
