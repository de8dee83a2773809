import EdonPlatform.Optimization.Proposals

/- What INFEASIBLE means in an envelope of the optimization adapter. A flow gives every lane an
   amount; the allocator finds a flow that serves the demands one after another, the most urgent
   first, and does not take back what an earlier demand was given.

   What is proved:
     1. `infeasible_in_turn` — some demand cannot be served by any flow that gives the demands
        before it at least what the candidate gives them.
     2. `greedy_infeasible` — although some flow serves all demand. -/
namespace Edon.Optimization
open Totals Transition

/-- An amount for every lane. -/
abbrev Flow := String ×ₗ String → Rat

section
variable (request : Request) (y : Flow)

/-- What flows out of a supply, and into a demand. -/
def Request.outflow (supplyId : String) : Rat :=
  totalWhere y (fun k => (ofLex k).1 = supplyId) request.lanes.keys

def Request.inflow (demandId : String) : Rat :=
  totalWhere y (fun k => (ofLex k).2 = demandId) request.lanes.keys

/-- The flow is within the capacities of the lanes and the supplies. -/
structure Request.Within : Prop where
  lane : ∀ e ∈ request.lanes.entries, 0 ≤ y e.1 ∧ y e.1 ≤ e.2.maxQuantity
  supply : ∀ e ∈ request.supplies.entries, request.outflow y e.1 ≤ e.2

end

variable {request : Request}

/-! ## The flow of a candidate -/

/-- What is allocated is what the lanes carry. -/
theorem total_by_lane (P : String ×ₗ String → Bool) {l : List Allocation}
    (h : ∀ x ∈ l, ∃ lane, request.lanes.get (toLex (x.supplyId, x.demandId)) = some lane) :
    totalWhere (fun k => carried k l) P request.lanes.keys =
      totalWhere Allocation.quantity (fun x => P (toLex (x.supplyId, x.demandId))) l := by
  have hkeys : ∀ x ∈ l, P (toLex (x.supplyId, x.demandId)) = true →
      toLex (x.supplyId, x.demandId) ∈ request.lanes.keys := by
    intro x hx _
    obtain ⟨lane, hlane⟩ := h x hx
    rw [Dict.mem_keys, hlane]
    rfl
  rw [← sum_by_key (fun x : Allocation => toLex (x.supplyId, x.demandId))
    request.lanes.keys_nodup hkeys, totalWhere_eq_sum]
  congr 1
  apply List.map_congr_left
  intro k _
  split
  · next hk =>
    apply totalWhere_congr
    intro x _
    rw [Bool.eq_iff_iff]
    simp only [decide_eq_true_eq, Bool.and_eq_true]
    constructor
    · intro hx
      rw [hx]
      exact ⟨hk, rfl⟩
    · exact fun hx => hx.2
  · next hk =>
    symm
    apply totalWhere_eq_zero
    intro x _
    rw [Bool.and_eq_false_iff]
    by_cases hx : toLex (x.supplyId, x.demandId) = k
    · rw [hx]
      exact .inl (Bool.eq_false_iff.mpr hk)
    · exact .inr (decide_eq_false hx)

/-- What flows into a demand, over its lanes as the allocator visits them. -/
theorem inflow_eq_sum (y : Flow) (d : String) :
    request.inflow y d = ((request.lanesOf d).map fun x => y (toLex (x.1, d))).sum := by
  have hperm := (List.perm_insertionSort cheaper (request.lanes.entries.filterMap fun e =>
    if (ofLex e.1).2 = d then some ((ofLex e.1).1, e.2) else none)).map
      fun x => y (toLex (x.1, d))
  unfold Request.lanesOf
  rw [hperm.sum_eq]
  unfold Request.inflow Dict.keys
  generalize request.lanes.entries = entries
  induction entries with
  | nil => rfl
  | cons e entries ih =>
    rw [List.map_cons, totalWhere_cons, ih, List.filterMap_cons]
    simp only [decide_eq_true_eq]
    by_cases hd : (ofLex e.1).2 = d
    · subst hd
      simp
    · simp [hd]

/-! ## What later demands leave alone -/

theorem serve_extends (d : String) (lanes : List (String × Lane)) (t : Turn) :
    ∃ added, (t.serve d lanes).allocations = t.allocations ++ added ∧
      ∀ x ∈ added, x.demandId = d := by
  induction lanes generalizing t with
  | nil => exact ⟨[], (List.append_nil _).symm, nofun⟩
  | cons e lanes ih =>
    obtain ⟨supplyId, lane⟩ := e
    rw [Turn.serve]
    split
    · exact ih t
    · split
      · exact ⟨_, rfl, fun x hx => by rw [List.mem_singleton.mp hx]⟩
      · obtain ⟨added, hadded, hids⟩ := ih (t.take d supplyId lane)
        refine ⟨⟨supplyId, d, t.amount supplyId lane, lane.unitCost⟩ :: added, ?_,
          List.forall_mem_cons.mpr ⟨rfl, hids⟩⟩
        rw [hadded, Turn.take, List.append_assoc]
        rfl

theorem exec_extends (l : List (String × Demand)) (a : Allotment) :
    ∃ added, (exec request.serveDemand a l).allocations = a.allocations ++ added ∧
      ∀ x ∈ added, x.demandId ∈ l.map Prod.fst := by
  induction l generalizing a with
  | nil => exact ⟨[], (List.append_nil _).symm, nofun⟩
  | cons e l ih =>
    obtain ⟨first, hfirst, hown⟩ := serve_extends e.1 (request.lanesOf e.1)
      ⟨a.supplyRemaining, e.2.quantity, a.allocations⟩
    obtain ⟨rest, hrest, hids⟩ := ih (request.serveDemand a e)
    refine ⟨first ++ rest, ?_, ?_⟩
    · rw [exec_cons, hrest, ← List.append_assoc]
      exact congrArg (· ++ rest) hfirst
    · rw [List.forall_mem_append]
      constructor
      · intro x hx
        rw [hown x hx]
        exact List.mem_cons_self
      · exact fun x hx => List.mem_cons_of_mem _ (hids x hx)

theorem carried_eq_zero {k : String ×ₗ String} {l : List Allocation}
    (h : ∀ x ∈ l, x.demandId ≠ (ofLex k).2) : carried k l = 0 := by
  apply totalWhere_eq_zero
  intro x hx
  apply decide_eq_false
  rintro rfl
  exact h x hx rfl

/-! ## A demand that is left short -/

/-- A flow that gives the demands before one what the candidate gives them has no more for it than
its lanes and their supplies have at its turn. -/
theorem flow_le_limit (hknown : request.Known) {y : Flow} (hy : request.Within y)
    {before after : List (String × Demand)} {e : String × Demand}
    (horder : request.demandsInTurn = before ++ e :: after)
    (hbefore : ∀ k, (ofLex k).2 ∈ before.map Prod.fst → carried k request.allot.allocations ≤ y k)
    {x : String × Lane} (hx : x ∈ request.lanesOf e.1) :
    y (toLex (x.1, e.1)) ≤
      limit (exec request.serveDemand request.unallotted before).supplyRemaining x := by
  have hnodup := demandsInTurn_nodup request
  rw [horder, List.map_append, List.nodup_append] at hnodup
  obtain ⟨hnodup, _, hdisjoint⟩ := hnodup
  have hmem : ∀ x ∈ before, x ∈ request.demandsInTurn := by
    intro x hx
    rw [horder]
    exact List.mem_append_left _ hx
  have h := exec_balanced hknown hmem hnodup
  set a := exec request.serveDemand request.unallotted before with ha
  have hlane := mem_lanesOf.mp hx
  obtain ⟨hnonneg, hmax⟩ := hy.lane _ (Dict.mem_entries.mpr hlane)
  obtain ⟨capacity, hcapacity⟩ := hknown.supply _ _ _ hlane
  have hflow : request.outflow y x.1 ≤ capacity := hy.supply _ (Dict.mem_entries.mpr hcapacity)
  refine le_min ?_ hmax
  -- what was drawn before is what the lanes to those demands carry in the end
  obtain ⟨rest, hrest, hids⟩ := @exec_extends request (e :: after) a
  have hfinal : request.allot.allocations = a.allocations ++ rest := by
    unfold Request.allot
    rw [horder, exec_append]
    exact hrest
  have hdrawn := @total_by_lane request (fun k => (ofLex k).1 = x.1) _
    (fun z hz => (h.own z hz).2.2.imp fun _ hlane => hlane.1)
  have hsupply := h.supply x.1
  have hkey : toLex (x.1, e.1) ∈ request.lanes.keys.filter fun k => (ofLex k).1 = x.1 := by
    refine List.mem_filter.mpr ⟨?_, decide_eq_true rfl⟩
    rw [Dict.mem_keys, hlane]
    rfl
  have hle : ∀ k ∈ request.lanes.keys.filter fun k => (ofLex k).1 = x.1,
      (if toLex (x.1, e.1) = k then y (toLex (x.1, e.1)) else 0) + carried k a.allocations ≤ y k := by
    intro k hk
    obtain ⟨lane, hlane⟩ := Option.isSome_iff_exists.mp (Dict.mem_keys.mp (List.mem_filter.mp hk).1)
    have hpos := (hy.lane _ (Dict.mem_entries.mpr hlane)).1
    by_cases hdone : (ofLex k).2 ∈ before.map Prod.fst
    · have hne : toLex (x.1, e.1) ≠ k := by
        rintro rfl
        exact hdisjoint _ hdone _ List.mem_cons_self rfl
      have hlater : carried k rest = 0 := by
        apply carried_eq_zero
        intro z hz hsame
        exact hdisjoint _ hdone _ (hids z hz) hsame.symm
      have hgiven := hbefore k hdone
      rw [hfinal, carried_append, hlater, add_zero] at hgiven
      rw [if_neg hne, zero_add]
      exact hgiven
    · have hnone : carried k a.allocations = 0 := by
        apply carried_eq_zero
        intro z hz hsame
        exact hdone (hsame ▸ (h.own z hz).1)
      rw [hnone, add_zero]
      split
      · next heq => exact heq ▸ le_refl _
      · exact hpos
  have hsum := List.sum_le_sum hle
  rw [sum_map_add, sum_single (request.lanes.keys_nodup.filter _) hkey] at hsum
  have hcap : available request.supplies x.1 = capacity := by
    unfold available
    rw [hcapacity]
    rfl
  have hbound : y (toLex (x.1, e.1)) + drawn x.1 a.allocations ≤ capacity := by
    calc y (toLex (x.1, e.1)) + drawn x.1 a.allocations
      _ = y (toLex (x.1, e.1)) + totalWhere (fun k => carried k a.allocations)
          (fun k => (ofLex k).1 = x.1) request.lanes.keys := by rw [hdrawn]; rfl
      _ ≤ request.outflow y x.1 := hsum
      _ ≤ capacity := hflow
  linarith

/-- **INFEASIBLE.** Some demand is served by no flow within the capacities that gives the demands
before it, in the order of the allocator, at least what the candidate gives them. -/
theorem infeasible_in_turn {I : Interpreter} {parseInt : String → Option Int} {lineage : String}
    {document out : PyValue} (h : propose I parseInt solve lineage document = .ok out)
    (hstatus : out.index "status" = .ok (.str "INFEASIBLE")) :
    ∃ request, normalizeRequest I parseInt document = .ok request ∧
      request.requireFullDemand = true ∧
      ∃ before e after, request.demandsInTurn = before ++ e :: after ∧
        ∀ y, request.Within y →
          (∀ k, (ofLex k).2 ∈ before.map Prod.fst → carried k request.allot.allocations ≤ y k) →
            request.inflow y e.1 + tolerance < e.2.quantity := by
  obtain ⟨request, hrequest, h⟩ := bind_ok.mp h
  obtain ⟨_, hsolve, h⟩ := bind_ok.mp h
  cases hsolve
  obtain ⟨candidate, hvalid, h⟩ := bind_ok.mp h
  cases h
  have hknown := normalizeRequest_known hrequest
  have hstatus : candidate.status = .infeasible := by
    have htext : candidate.status.text = "INFEASIBLE" := PyValue.str.inj (Except.ok.inj hstatus)
    cases hcase : candidate.status with
    | infeasible => rfl
    | _ =>
      rw [hcase] at htext
      exact absurd htext (by decide)
  obtain ⟨hfull, e, he, hmissing⟩ := validateCandidate_infeasible hknown hvalid hstatus
  obtain ⟨before, after, horder⟩ := List.append_of_mem he
  refine ⟨request, hrequest, hfull, before, e, after, horder, ?_⟩
  intro y hy hbefore
  have hnodup := demandsInTurn_nodup request
  rw [horder, List.map_append, List.nodup_append] at hnodup
  obtain ⟨hnodup, hnodup', hdisjoint⟩ := hnodup
  have hmem : ∀ x ∈ before, x ∈ request.demandsInTurn := by
    intro x hx
    rw [horder]
    exact List.mem_append_left _ hx
  have hbalanced := exec_balanced hknown hmem hnodup
  obtain ⟨t', added, hserves, hturn⟩ := serveDemand_serves hknown hbalanced.left he
  obtain ⟨rest, hrest, hids⟩ := @exec_extends request after
    (request.serveDemand (exec request.serveDemand request.unallotted before) e)
  have hserved : served e.1 request.allot.allocations = Turn.total added := by
    have hfinal : request.allot.allocations =
        (exec request.serveDemand request.unallotted before).allocations ++ added ++ rest := by
      unfold Request.allot
      rw [horder, exec_append, exec_cons, hrest, hturn]
    have hearlier : served e.1
        (exec request.serveDemand request.unallotted before).allocations = 0 := by
      apply totalWhere_eq_zero
      intro z hz
      apply decide_eq_false
      exact hdisjoint _ (hbalanced.own z hz).1 _ List.mem_cons_self
    have hlater : served e.1 rest = 0 := by
      apply totalWhere_eq_zero
      intro z hz
      apply decide_eq_false
      rintro hsame
      exact (List.nodup_cons.mp hnodup').1 (hsame ▸ hids z hz)
    have hown : served e.1 added = Turn.total added :=
      totalWhere_congr fun z hz => decide_eq_true (hserves.own z hz).1
    rw [hfinal, served_append, served_append, hearlier, hlater, hown, zero_add, add_zero]
  have hshort : negligible < t'.remaining := by
    have hdemand := hserves.demand
    have hless : negligible < tolerance := by
      unfold negligible tolerance
      norm_num
    dsimp only at hdemand
    rw [hserved] at hmissing
    linarith
  have hflow : request.inflow y e.1 ≤ Turn.total added := by
    rw [inflow_eq_sum, ← hserves.sum_drawn (lanesOf_nodup request e.1)]
    apply List.sum_le_sum
    intro x hx
    rw [hserves.saturated hshort x hx]
    exact flow_le_limit hknown hy horder hbefore hx
  rw [hserved] at hmissing
  linarith

/-- The status of an envelope. -/
def infeasible (out : PyValue) : Bool :=
  (out.index "status").toOption.any fun status => status matches .str "INFEASIBLE"

theorem status_of_infeasible {out : PyValue} (h : infeasible out = true) :
    out.index "status" = .ok (.str "INFEASIBLE") := by
  obtain ⟨status, hstatus, hmatch⟩ := Fallible.ok_of_any h
  split at hmatch
  · exact hstatus
  · cases hmatch

theorem contested_infeasible : ∃ out,
    propose plainInterpreter (fun _ => none) solve "fixture" contested = .ok out ∧
      out.index "status" = .ok (.str "INFEASIBLE") := by
  have htest : ((propose plainInterpreter (fun _ => none) solve "fixture" contested).toOption.any
      infeasible) = true := by decide +kernel
  obtain ⟨out, h, hstatus⟩ := Fallible.ok_of_any htest
  exact ⟨out, h, status_of_infeasible hstatus⟩

theorem infeasible_in_turn_contested : ∃ request,
    normalizeRequest plainInterpreter (fun _ => none) contested = .ok request ∧
      request.requireFullDemand = true ∧
      ∃ before e after, request.demandsInTurn = before ++ e :: after ∧
        ∀ y, request.Within y →
          (∀ k, (ofLex k).2 ∈ before.map Prod.fst → carried k request.allot.allocations ≤ y k) →
            request.inflow y e.1 + tolerance < e.2.quantity := by
  obtain ⟨out, h, hstatus⟩ := contested_infeasible
  exact infeasible_in_turn h hstatus

/-- A flow that serves both demands: the more urgent one from its dearer lane. -/
def contestedFlow : Flow := fun k =>
  if k = toLex ("s2", "d1") ∨ k = toLex ("s1", "d2") then 10 else 0

theorem greedy_infeasible : ∃ out request,
    propose plainInterpreter (fun _ => none) solve "fixture" contested = .ok out ∧
      out.index "status" = .ok (.str "INFEASIBLE") ∧
      normalizeRequest plainInterpreter (fun _ => none) contested = .ok request ∧
      ∃ y, request.Within y ∧ ∀ e ∈ request.demands.entries, e.2.quantity ≤ request.inflow y e.1 := by
  obtain ⟨out, h, hstatus⟩ := contested_infeasible
  have htest : ((normalizeRequest plainInterpreter (fun _ => none) contested).toOption.any
      fun request =>
        (decide (∀ e ∈ request.lanes.entries,
          0 ≤ contestedFlow e.1 ∧ contestedFlow e.1 ≤ e.2.maxQuantity) &&
        decide (∀ e ∈ request.supplies.entries, request.outflow contestedFlow e.1 ≤ e.2)) &&
        decide (∀ e ∈ request.demands.entries,
          e.2.quantity ≤ request.inflow contestedFlow e.1)) = true := by decide +kernel
  obtain ⟨request, hrequest, htest⟩ := Fallible.ok_of_any htest
  simp only [Bool.and_eq_true, decide_eq_true_eq] at htest
  exact ⟨out, request, h, hstatus, hrequest, contestedFlow, ⟨htest.1.1, htest.1.2⟩, htest.2⟩

end Edon.Optimization
