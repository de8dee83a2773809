import EdonPlatform.Lib.Run
import EdonPlatform.Lib.Totals
import EdonPlatform.Optimization.Requests
import Mathlib.Data.List.Sort

/- The built-in allocator of the optimization adapter (edon/optimization/adapter.py): demands are
   served one after another, the most urgent first, each from its lanes in the order of their
   costs. The balances are exact.

   What is proved:
     1. `Turn.serve_serves` — what one demand takes: at most what its lanes and their supplies
        have, and all of it where the demand is left short.
     2. `serve_short` — a demand is left short exactly when its lanes cannot carry enough.
     3. `allot_sound` — after every demand was served, each supply, demand and lane is balanced.

   Correspondence (Python ↔ Lean):
     `sorted(request["demands"], …)`            ↔ `Request.demandsInTurn`
     `sorted(lane_map.get(demand_id, []), …)`   ↔ `Request.lanesOf`
     the loop over the lanes                    ↔ `Turn.serve`
     the body of the loop over the demands      ↔ `Request.serveDemand`
     `DeterministicCapacityAllocator.solve`     ↔ `solve` -/
namespace Edon.Optimization
open Totals Transition

/-- `1e-12`, what a demand may miss. -/
def negligible : Rat := 1 / 1000000000000

/-- `supply_remaining[supply_id]`: a lane names a supply of the request. -/
def available (supplyRemaining : Dict String Rat) (supplyId : String) : Rat :=
  (supplyRemaining.get supplyId).getD 0

/-- `(unit_cost, supply_id)`, ascending. -/
def cheaper (a b : String × Lane) : Prop :=
  toLex (a.2.unitCost, a.1) ≤ toLex (b.2.unitCost, b.1)

instance : DecidableRel cheaper := fun a b =>
  inferInstanceAs (Decidable (toLex (a.2.unitCost, a.1) ≤ toLex (b.2.unitCost, b.1)))

/-- `(-priority, demand_id)`, ascending. -/
def moreUrgent (a b : String × Demand) : Prop :=
  toLex (-a.2.priority, a.1) ≤ toLex (-b.2.priority, b.1)

instance : DecidableRel moreUrgent := fun a b =>
  inferInstanceAs (Decidable (toLex (-a.2.priority, a.1) ≤ toLex (-b.2.priority, b.1)))

/-- The lanes of a demand by their supplies, the cheapest first. -/
def Request.lanesOf (request : Request) (demandId : String) : List (String × Lane) :=
  (request.lanes.entries.filterMap fun e =>
    if (ofLex e.1).2 = demandId then some ((ofLex e.1).1, e.2) else none).insertionSort cheaper

def Request.demandsInTurn (request : Request) : List (String × Demand) :=
  request.demands.entries.insertionSort moreUrgent

/-- What the loop over the lanes of a demand keeps. -/
structure Turn where
  supplyRemaining : Dict String Rat
  remaining : Rat
  allocations : List Allocation

def Turn.amount (t : Turn) (supplyId : String) (lane : Lane) : Rat :=
  min (min t.remaining (available t.supplyRemaining supplyId)) lane.maxQuantity

def Turn.take (t : Turn) (demandId supplyId : String) (lane : Lane) : Turn :=
  let amount := t.amount supplyId lane
  { supplyRemaining :=
      t.supplyRemaining.set supplyId (available t.supplyRemaining supplyId - amount)
    remaining := t.remaining - amount
    allocations := t.allocations ++ [⟨supplyId, demandId, amount, lane.unitCost⟩] }

def Turn.serve (demandId : String) (t : Turn) : List (String × Lane) → Turn
  | [] => t
  | (supplyId, lane) :: lanes =>
    if t.amount supplyId lane ≤ 0 then t.serve demandId lanes
    else if (t.take demandId supplyId lane).remaining ≤ negligible then
      t.take demandId supplyId lane
    else (t.take demandId supplyId lane).serve demandId lanes

/-- What the loop over the demands keeps. -/
structure Allotment where
  supplyRemaining : Dict String Rat
  allocations : List Allocation
  unmet : List (String × Rat)

def Request.serveDemand (request : Request) (a : Allotment) (e : String × Demand) : Allotment :=
  let t := Turn.serve e.1 ⟨a.supplyRemaining, e.2.quantity, a.allocations⟩ (request.lanesOf e.1)
  { supplyRemaining := t.supplyRemaining
    allocations := t.allocations
    unmet := if negligible < t.remaining then a.unmet ++ [(e.1, t.remaining)] else a.unmet }

def Request.unallotted (request : Request) : Allotment := ⟨request.supplies, [], []⟩

def Request.allot (request : Request) : Allotment :=
  exec request.serveDemand request.unallotted request.demandsInTurn

/-- A row of the candidate. -/
def Allocation.toPy (a : Allocation) : PyValue :=
  .dict [("supply_id", .str a.supplyId), ("demand_id", .str a.demandId),
    ("quantity", .float (.finite a.quantity)), ("unit_cost", .float (.finite a.unitCost))]

def Allotment.toPy (a : Allotment) : PyValue :=
  .dict [("allocations", .list (a.allocations.map Allocation.toPy)),
    ("unmet_demand", .dict (a.unmet.map fun e => (e.1, .float (.finite e.2)))),
    ("solver_status", .str (if a.unmet.isEmpty then "FEASIBLE" else "PARTIAL")),
    ("optimality_claim", .bool false)]

/-- `DeterministicCapacityAllocator.solve`. -/
def solve (request : Request) : Except PyError PyValue := .ok request.allot.toPy

/-! ## What the allocations amount to -/

/-- What is taken from a supply. -/
def drawn (supplyId : String) (l : List Allocation) : Rat :=
  totalWhere Allocation.quantity (fun a => a.supplyId = supplyId) l

/-- What a demand is given. -/
def served (demandId : String) (l : List Allocation) : Rat :=
  totalWhere Allocation.quantity (fun a => a.demandId = demandId) l

/-- What a lane carries. -/
def carried (key : String ×ₗ String) (l : List Allocation) : Rat :=
  totalWhere Allocation.quantity (fun a => toLex (a.supplyId, a.demandId) = key) l

def Turn.total (l : List Allocation) : Rat := totalWhere Allocation.quantity (fun _ => true) l

/-- What a lane can still carry. -/
def limit (supplyRemaining : Dict String Rat) (e : String × Lane) : Rat :=
  min (available supplyRemaining e.1) e.2.maxQuantity

/-- What one demand takes, with the allocations that are added for it. -/
structure Turn.Serves (demandId : String) (t : Turn) (lanes : List (String × Lane)) (t' : Turn)
    (added : List Allocation) : Prop where
  allocations : t'.allocations = t.allocations ++ added
  own : ∀ a ∈ added, a.demandId = demandId ∧ 0 < a.quantity ∧
    ∃ lane, (a.supplyId, lane) ∈ lanes ∧ a.unitCost = lane.unitCost
  within : ∀ e ∈ lanes, drawn e.1 added ≤ limit t.supplyRemaining e
  supply : ∀ s, drawn s added + available t'.supplyRemaining s = available t.supplyRemaining s
  demand : total added + t'.remaining = t.remaining
  remaining : 0 ≤ t'.remaining
  saturated : negligible < t'.remaining → ∀ e ∈ lanes, drawn e.1 added = limit t.supplyRemaining e

theorem available_set (d : Dict String Rat) (s s' : String) (q : Rat) :
    available (d.set s q) s' = if s = s' then q else available d s' := by
  unfold available
  rw [Dict.get_set]
  split <;> rfl

theorem drawn_append (s : String) (l m : List Allocation) :
    drawn s (l ++ m) = drawn s l + drawn s m := totalWhere_append l m

theorem served_append (d : String) (l m : List Allocation) :
    served d (l ++ m) = served d l + served d m := totalWhere_append l m

theorem carried_append (k : String ×ₗ String) (l m : List Allocation) :
    carried k (l ++ m) = carried k l + carried k m := totalWhere_append l m

theorem drawn_eq_zero {s : String} {l : List Allocation} (h : ∀ a ∈ l, a.supplyId ≠ s) :
    drawn s l = 0 :=
  totalWhere_eq_zero fun a ha => decide_eq_false (h a ha)

theorem fst_ne {s : String} {lanes : List (String × Lane)} (hfresh : s ∉ lanes.map Prod.fst)
    {e : String × Lane} (he : e ∈ lanes) : s ≠ e.1 := by
  rintro rfl
  exact hfresh (List.mem_map_of_mem he)

theorem negligible_pos : 0 < negligible := by
  unfold negligible
  norm_num

namespace Turn

theorem total_nonneg {l : List Allocation} (h : ∀ a ∈ l, 0 < a.quantity) : 0 ≤ total l :=
  totalWhere_nonneg fun a ha => (h a ha).le

/-- The turn that ends as soon as the demand has what it needs, or has no lane left. -/
theorem Serves.skip {demandId : String} {t t' : Turn} {e : String × Lane}
    {lanes : List (String × Lane)} {added : List Allocation}
    (hfresh : e.1 ∉ lanes.map Prod.fst) (hlimit : 0 ≤ limit t.supplyRemaining e)
    (hamount : t.amount e.1 e.2 ≤ 0) (h : Serves demandId t lanes t' added) :
    Serves demandId t (e :: lanes) t' added := by
  have hnone : drawn e.1 added = 0 := by
    apply drawn_eq_zero
    intro a ha heq
    obtain ⟨_, _, lane, hmem, _⟩ := h.own a ha
    exact fst_ne hfresh hmem heq.symm
  refine
    { allocations := h.allocations, own := ?_, within := ?_, supply := h.supply
      demand := h.demand, remaining := h.remaining, saturated := ?_ }
  · intro a ha
    obtain ⟨hdemand, hpos, lane, hmem, hcost⟩ := h.own a ha
    exact ⟨hdemand, hpos, lane, List.mem_cons_of_mem _ hmem, hcost⟩
  · rw [List.forall_mem_cons, hnone]
    exact ⟨hlimit, h.within⟩
  · intro hshort
    rw [List.forall_mem_cons, hnone]
    refine ⟨?_, h.saturated hshort⟩
    -- the demand still needs something, so the lane has nothing to give
    have hneeds : 0 < t.remaining := by
      have htotal := total_nonneg fun a ha => (h.own a ha).2.1
      have hpos := negligible_pos
      linarith [h.demand]
    unfold amount at hamount
    rw [min_assoc, min_le_iff] at hamount
    exact le_antisymm hlimit (hamount.resolve_left (not_le.mpr hneeds))

theorem take_supply (t : Turn) (demandId s : String) (lane : Lane) (s' : String) :
    available (t.take demandId s lane).supplyRemaining s' =
      available t.supplyRemaining s' - if s = s' then t.amount s lane else 0 := by
  unfold take
  dsimp only
  rw [available_set]
  by_cases h : s = s'
  · subst h
    simp
  · simp [h]

theorem amount_le_limit (t : Turn) (e : String × Lane) :
    t.amount e.1 e.2 ≤ limit t.supplyRemaining e := by
  unfold amount limit
  rw [min_assoc]
  exact min_le_right _ _

/-- One allocation. -/
theorem Serves.single {demandId : String} {t : Turn} {e : String × Lane}
    {lanes : List (String × Lane)} (hfresh : e.1 ∉ lanes.map Prod.fst)
    (hlimits : ∀ x ∈ lanes, 0 ≤ limit t.supplyRemaining x) (hamount : 0 < t.amount e.1 e.2)
    (henough : (t.take demandId e.1 e.2).remaining ≤ negligible) :
    Serves demandId t (e :: lanes) (t.take demandId e.1 e.2)
      [⟨e.1, demandId, t.amount e.1 e.2, e.2.unitCost⟩] := by
  refine
    { allocations := rfl, own := ?_, within := ?_, supply := ?_, demand := ?_, remaining := ?_
      saturated := fun hshort => absurd hshort (not_lt.mpr henough) }
  · intro a ha
    rw [List.mem_singleton.mp ha]
    exact ⟨rfl, hamount, e.2, List.mem_cons_self, rfl⟩
  · rw [List.forall_mem_cons]
    constructor
    · simpa [drawn, totalWhere_singleton] using t.amount_le_limit e
    · intro x hx
      rw [drawn_eq_zero]
      · exact hlimits x hx
      · intro a ha heq
        rw [List.mem_singleton.mp ha] at heq
        exact fst_ne hfresh hx heq
  · intro s
    rw [take_supply]
    simp [drawn, totalWhere_singleton]
  · simp [total, totalWhere_singleton, take]
  · have hle : t.amount e.1 e.2 ≤ t.remaining := (min_le_left _ _).trans (min_le_left _ _)
    simpa [take] using hle

/-- One allocation, and those that come after it. -/
theorem Serves.cons {demandId : String} {t t' : Turn} {e : String × Lane}
    {lanes : List (String × Lane)} {added : List Allocation}
    (hfresh : e.1 ∉ lanes.map Prod.fst) (hamount : 0 < t.amount e.1 e.2)
    (h : Serves demandId (t.take demandId e.1 e.2) lanes t' added) :
    Serves demandId t (e :: lanes) t'
      (⟨e.1, demandId, t.amount e.1 e.2, e.2.unitCost⟩ :: added) := by
  have hnone : drawn e.1 added = 0 := by
    apply drawn_eq_zero
    intro a ha heq
    obtain ⟨_, _, lane, hmem, _⟩ := h.own a ha
    exact fst_ne hfresh hmem heq.symm
  have hdrawn : ∀ s, drawn s (⟨e.1, demandId, t.amount e.1 e.2, e.2.unitCost⟩ :: added) =
      (if e.1 = s then t.amount e.1 e.2 else 0) + drawn s added := by
    intro s
    simp [drawn, totalWhere_cons]
  have hother : ∀ x ∈ lanes, e.1 ≠ x.1 ∧
      limit (t.take demandId e.1 e.2).supplyRemaining x = limit t.supplyRemaining x := by
    intro x hx
    have hne := fst_ne hfresh hx
    refine ⟨hne, ?_⟩
    unfold limit
    rw [take_supply, if_neg hne, sub_zero]
  refine
    { allocations := ?_, own := ?_, within := ?_, supply := ?_, demand := ?_
      remaining := h.remaining, saturated := ?_ }
  · rw [h.allocations]
    simp [take]
  · rw [List.forall_mem_cons]
    refine ⟨⟨rfl, hamount, e.2, List.mem_cons_self, rfl⟩, ?_⟩
    intro a ha
    obtain ⟨hdemand, hpos, lane, hmem, hcost⟩ := h.own a ha
    exact ⟨hdemand, hpos, lane, List.mem_cons_of_mem _ hmem, hcost⟩
  · rw [List.forall_mem_cons, hdrawn, if_pos rfl, hnone, add_zero]
    refine ⟨t.amount_le_limit e, ?_⟩
    intro x hx
    obtain ⟨hne, hlimit⟩ := hother x hx
    rw [hdrawn, if_neg hne, zero_add, ← hlimit]
    exact h.within x hx
  · intro s
    have hsupply := h.supply s
    rw [take_supply] at hsupply
    rw [hdrawn]
    linarith
  · have hdemand := h.demand
    simp only [take] at hdemand
    simp only [total, totalWhere_cons, if_true] at hdemand ⊢
    linarith
  · intro hshort
    rw [List.forall_mem_cons, hdrawn, if_pos rfl, hnone, add_zero]
    constructor
    · -- the demand was not filled by this lane, so the lane or its supply was
      have hneeds : t.amount e.1 e.2 < t.remaining := by
        have htotal := total_nonneg fun a ha => (h.own a ha).2.1
        have hdemand := h.demand
        have hpos := negligible_pos
        simp only [take] at hdemand
        linarith
      unfold amount at hneeds ⊢
      rw [min_assoc] at hneeds ⊢
      rcases min_lt_iff.mp hneeds with hself | hless
      · exact absurd hself (lt_irrefl _)
      · exact min_eq_right hless.le
    · intro x hx
      obtain ⟨hne, hlimit⟩ := hother x hx
      rw [hdrawn, if_neg hne, zero_add, ← hlimit]
      exact h.saturated hshort x hx

/-- **What one demand takes.** -/
theorem serve_serves (demandId : String) (t : Turn) (lanes : List (String × Lane))
    (hnodup : (lanes.map Prod.fst).Nodup) (hlimits : ∀ e ∈ lanes, 0 ≤ limit t.supplyRemaining e)
    (hremaining : 0 ≤ t.remaining) :
    ∃ added, Serves demandId t lanes (t.serve demandId lanes) added := by
  induction lanes generalizing t with
  | nil =>
    refine ⟨[], ?_⟩
    exact
      { allocations := (List.append_nil _).symm, own := nofun, within := nofun
        supply := fun s => zero_add _, demand := zero_add _, remaining := hremaining
        saturated := nofun }
  | cons e lanes ih =>
    obtain ⟨supplyId, lane⟩ := e
    obtain ⟨hfresh, hnodup⟩ := List.nodup_cons.mp hnodup
    obtain ⟨hlimit, hlimits⟩ := List.forall_mem_cons.mp hlimits
    rw [serve]
    split
    · next hamount =>
      obtain ⟨added, h⟩ := ih t hnodup hlimits hremaining
      exact ⟨added, h.skip hfresh hlimit hamount⟩
    · next hamount =>
      split
      · next henough => exact ⟨_, .single hfresh hlimits (not_le.mp hamount) henough⟩
      · next henough =>
        have hrest : ∀ x ∈ lanes, 0 ≤ limit (t.take demandId supplyId lane).supplyRemaining x := by
          intro x hx
          have hne := fst_ne hfresh hx
          unfold limit
          rw [take_supply, if_neg hne, sub_zero]
          exact hlimits x hx
        have hleft := negligible_pos.le.trans (not_le.mp henough).le
        obtain ⟨added, h⟩ := ih _ hnodup hrest hleft
        exact ⟨_, h.cons hfresh (not_le.mp hamount)⟩

/-- What the lanes of a demand carry for it is what was added. -/
theorem Serves.sum_drawn {demandId : String} {t t' : Turn} {lanes : List (String × Lane)}
    {added : List Allocation} (h : Serves demandId t lanes t' added)
    (hnodup : (lanes.map Prod.fst).Nodup) :
    (lanes.map fun e => drawn e.1 added).sum = total added := by
  have hkeys : ∀ a ∈ added, true = true → a.supplyId ∈ lanes.map Prod.fst := by
    intro a ha _
    obtain ⟨_, _, lane, hmem, _⟩ := h.own a ha
    exact List.mem_map_of_mem hmem
  have hsum : ((lanes.map Prod.fst).map fun k => totalWhere Allocation.quantity
      (fun a => true && a.supplyId = k) added).sum = totalWhere Allocation.quantity (fun _ => true) added :=
    sum_by_key Allocation.supplyId hnodup hkeys
  simp only [Bool.true_and, List.map_map] at hsum
  exact hsum

/-- A demand is left short when its lanes cannot carry enough. -/
theorem Serves.short_iff {demandId : String} {t t' : Turn} {lanes : List (String × Lane)}
    {added : List Allocation} (h : Serves demandId t lanes t' added)
    (hnodup : (lanes.map Prod.fst).Nodup) :
    negligible < t'.remaining ↔
      negligible < t.remaining - (lanes.map (limit t.supplyRemaining)).sum := by
  have hsum := h.sum_drawn hnodup
  have hdemand := h.demand
  constructor
  · intro hshort
    rw [List.map_congr_left (h.saturated hshort)] at hsum
    rw [hsum]
    linarith
  · intro hshort
    have hle := List.sum_le_sum h.within
    linarith

end Turn

/-! ## The lanes and the demands in their orders -/

theorem mem_lanesOf {request : Request} {s d : String} {lane : Lane} :
    (s, lane) ∈ request.lanesOf d ↔ request.lanes.get (toLex (s, d)) = some lane := by
  unfold Request.lanesOf
  rw [List.mem_insertionSort, List.mem_filterMap, ← Dict.mem_entries]
  constructor
  · rintro ⟨e, he, hsome⟩
    split at hsome
    · next hd =>
      cases hsome
      rw [← hd]
      exact he
    · cases hsome
  · intro h
    exact ⟨_, h, if_pos rfl⟩

theorem lanesOf_nodup (request : Request) (d : String) :
    ((request.lanesOf d).map Prod.fst).Nodup := by
  unfold Request.lanesOf
  have hperm := (List.perm_insertionSort cheaper (request.lanes.entries.filterMap fun e =>
    if (ofLex e.1).2 = d then some ((ofLex e.1).1, e.2) else none)).map Prod.fst
  rw [hperm.nodup_iff]
  apply List.pairwise_map.mpr
  apply List.Pairwise.filterMap _ _ request.lanes.ascending
  intro e e' hlt x hx y hy
  split at hx
  · next hd =>
    split at hy
    · next hd' =>
      cases hx
      cases hy
      -- both lanes lead to the demand, so their supplies differ
      intro heq
      exact ne_of_lt hlt (congrArg toLex (Prod.ext heq (hd.trans hd'.symm)))
    · cases hy
  · cases hx

theorem mem_demandsInTurn {request : Request} {e : String × Demand} :
    e ∈ request.demandsInTurn ↔ request.demands.get e.1 = some e.2 := by
  unfold Request.demandsInTurn
  rw [List.mem_insertionSort, ← Dict.mem_entries]

theorem demandsInTurn_nodup (request : Request) : (request.demandsInTurn.map Prod.fst).Nodup := by
  unfold Request.demandsInTurn
  rw [((List.perm_insertionSort moreUrgent request.demands.entries).map Prod.fst).nodup_iff]
  exact request.demands.keys_nodup

/-! ## One demand after another -/

/-- The demand cannot get enough from what its lanes and their supplies still have. -/
def Request.Short (request : Request) (supplyRemaining : Dict String Rat) (e : String × Demand) :
    Prop :=
  negligible < e.2.quantity - ((request.lanesOf e.1).map (limit supplyRemaining)).sum

/-- After the demands `done` were served, every supply, lane and demand is balanced. -/
structure Request.Balanced (request : Request) (done : List (String × Demand)) (a : Allotment) :
    Prop where
  supply : ∀ s, drawn s a.allocations + available a.supplyRemaining s = available request.supplies s
  left : ∀ s, 0 ≤ available a.supplyRemaining s
  own : ∀ x ∈ a.allocations, x.demandId ∈ done.map Prod.fst ∧ 0 < x.quantity ∧
    ∃ lane, request.lanes.get (toLex (x.supplyId, x.demandId)) = some lane ∧
      x.unitCost = lane.unitCost
  lane : ∀ k lane, request.lanes.get k = some lane → carried k a.allocations ≤ lane.maxQuantity
  demand : ∀ e ∈ done, ∃ missing, 0 ≤ missing ∧ served e.1 a.allocations + missing = e.2.quantity ∧
    Assoc.find a.unmet e.1 = if negligible < missing then some missing else none
  unmet : ∀ u ∈ a.unmet, u.1 ∈ done.map Prod.fst

section
variable {request : Request}

theorem Request.Known.limit_nonneg (hknown : request.Known) {supplyRemaining : Dict String Rat}
    (hleft : ∀ s, 0 ≤ available supplyRemaining s) {d : String} {e : String × Lane}
    (he : e ∈ request.lanesOf d) : 0 ≤ limit supplyRemaining e :=
  le_min (hleft e.1) (hknown.lane _ _ (mem_lanesOf.mp he)).2

/-- The turn of a demand, from what the allotment has. -/
theorem serveDemand_serves (hknown : request.Known) {a : Allotment}
    (hleft : ∀ s, 0 ≤ available a.supplyRemaining s) {e : String × Demand}
    (he : e ∈ request.demandsInTurn) :
    ∃ t' added, Turn.Serves e.1 ⟨a.supplyRemaining, e.2.quantity, a.allocations⟩
        (request.lanesOf e.1) t' added ∧
      request.serveDemand a e = { supplyRemaining := t'.supplyRemaining
                                  allocations := a.allocations ++ added
                                  unmet := if negligible < t'.remaining then
                                    a.unmet ++ [(e.1, t'.remaining)] else a.unmet } := by
  obtain ⟨added, h⟩ := Turn.serve_serves e.1 ⟨a.supplyRemaining, e.2.quantity, a.allocations⟩
    (request.lanesOf e.1) (lanesOf_nodup request e.1)
    (fun x hx => hknown.limit_nonneg hleft hx) (hknown.quantity _ _ (mem_demandsInTurn.mp he))
  refine ⟨_, added, h, ?_⟩
  unfold Request.serveDemand
  dsimp only
  rw [h.allocations]

theorem serveDemand_balanced (hknown : request.Known) {done : List (String × Demand)}
    {a : Allotment} (h : request.Balanced done a) {e : String × Demand}
    (he : e ∈ request.demandsInTurn) (hnew : e.1 ∉ done.map Prod.fst) :
    request.Balanced (done ++ [e]) (request.serveDemand a e) := by
  obtain ⟨t', added, hserves, heq⟩ := serveDemand_serves hknown h.left he
  rw [heq]
  have hids : (done ++ [e]).map Prod.fst = done.map Prod.fst ++ [e.1] := by simp
  have hnone : ∀ x ∈ a.allocations, x.demandId ≠ e.1 :=
    fun x hx hsame => hnew (hsame ▸ (h.own x hx).1)
  have hfree : Assoc.find a.unmet e.1 = none := by
    apply Assoc.find_eq_none.mpr
    intro hmem
    obtain ⟨u, hu, hsame⟩ := List.mem_map.mp hmem
    exact hnew (hsame ▸ h.unmet u hu)
  refine
    { supply := ?_, left := ?_, own := ?_, lane := ?_, demand := ?_, unmet := ?_ }
  · intro s
    have hbefore := h.supply s
    have hturn := hserves.supply s
    dsimp only at hturn ⊢
    rw [drawn_append]
    linarith
  · intro s
    have hturn := hserves.supply s
    dsimp only at hturn ⊢
    by_cases hs : s ∈ (request.lanesOf e.1).map Prod.fst
    · obtain ⟨x, hx, rfl⟩ := List.mem_map.mp hs
      have hwithin := (hserves.within x hx).trans (min_le_left _ _)
      dsimp only at hwithin
      linarith
    · have hzero : drawn s added = 0 := by
        apply drawn_eq_zero
        rintro x hx rfl
        obtain ⟨_, _, lane, hmem, _⟩ := hserves.own x hx
        exact hs (List.mem_map_of_mem hmem)
      have hbefore := h.left s
      linarith
  · intro x hx
    rw [hids]
    rcases List.mem_append.mp hx with hx | hx
    · obtain ⟨hdone, hrest⟩ := h.own x hx
      exact ⟨List.mem_append_left _ hdone, hrest⟩
    · obtain ⟨hdemand, hpos, lane, hmem, hcost⟩ := hserves.own x hx
      rw [hdemand]
      exact ⟨by simp, hpos, lane, mem_lanesOf.mp hmem, hcost⟩
  · intro k lane hlane
    rw [carried_append]
    by_cases hk : (ofLex k).2 = e.1
    · -- the lane leads to the demand: it carried nothing before
      have hbefore : carried k a.allocations = 0 := by
        apply totalWhere_eq_zero
        intro x hx
        apply decide_eq_false
        rintro rfl
        exact hnone x hx hk
      have hcarried : carried k added = drawn (ofLex k).1 added := by
        apply totalWhere_congr
        intro x hx
        obtain ⟨hdemand, _⟩ := hserves.own x hx
        rw [decide_eq_decide, hdemand, ← hk]
        constructor
        · intro hkey
          exact congrArg (fun k => (ofLex k).1) hkey
        · intro hsupply
          rw [hsupply]
          rfl
      have hmem : ((ofLex k).1, lane) ∈ request.lanesOf e.1 := by
        rw [mem_lanesOf, ← hk]
        exact hlane
      have hwithin := (hserves.within _ hmem).trans (min_le_right _ _)
      dsimp only at hwithin
      rw [hbefore, hcarried, zero_add]
      exact hwithin
    · have hadded : carried k added = 0 := by
        apply totalWhere_eq_zero
        intro x hx
        apply decide_eq_false
        rintro rfl
        exact hk (hserves.own x hx).1
      rw [hadded, add_zero]
      exact h.lane k lane hlane
  · intro x hx
    rw [served_append]
    rcases List.mem_append.mp hx with hx | hx
    · obtain ⟨missing, hmissing, hserved, hunmet⟩ := h.demand x hx
      have hne : e.1 ≠ x.1 := fun hsame => hnew (hsame ▸ List.mem_map_of_mem hx)
      have hadded : served x.1 added = 0 := by
        apply totalWhere_eq_zero
        intro y hy
        apply decide_eq_false
        rw [(hserves.own y hy).1]
        exact hne
      refine ⟨missing, hmissing, by rw [hadded, add_zero]; exact hserved, ?_⟩
      rw [← hunmet]
      split
      · rw [Assoc.find_concat, if_neg hne, Option.or_none]
      · rfl
    · cases List.mem_singleton.mp hx
      have hbefore : served e.1 a.allocations = 0 :=
        totalWhere_eq_zero fun y hy => decide_eq_false (hnone y hy)
      have hadded : served e.1 added = Turn.total added :=
        totalWhere_congr fun y hy => decide_eq_true (hserves.own y hy).1
      have hdemand := hserves.demand
      refine ⟨t'.remaining, hserves.remaining, ?_, ?_⟩
      · rw [hbefore, hadded, zero_add]
        exact hdemand
      · split
        · rw [Assoc.find_concat, hfree, if_pos rfl, Option.none_or]
        · exact hfree
  · intro u hu
    rw [hids]
    dsimp only at hu
    split at hu
    · rcases List.mem_append.mp hu with hu | hu
      · exact List.mem_append_left _ (h.unmet u hu)
      · rw [List.mem_singleton.mp hu]
        simp
    · exact List.mem_append_left _ (h.unmet u hu)

theorem unallotted_balanced (hknown : request.Known) :
    request.Balanced [] request.unallotted where
  supply s := zero_add _
  left s := by
    unfold available Request.unallotted
    cases hget : request.supplies.get s with
    | none => exact le_refl _
    | some capacity => exact hknown.capacity s capacity hget
  own := nofun
  lane k lane hlane := (hknown.lane k lane hlane).2
  demand := nofun
  unmet := nofun

/-- **After every demand that was served, everything is balanced.** -/
theorem exec_balanced (hknown : request.Known) {done : List (String × Demand)}
    (hdone : ∀ e ∈ done, e ∈ request.demandsInTurn) (hnodup : (done.map Prod.fst).Nodup) :
    request.Balanced done (exec request.serveDemand request.unallotted done) := by
  induction done using List.reverseRecOn with
  | nil => exact unallotted_balanced hknown
  | append_singleton done e ih =>
    rw [List.map_append, List.nodup_append] at hnodup
    obtain ⟨hnodup, _, hdisjoint⟩ := hnodup
    have hnew : e.1 ∉ done.map Prod.fst := fun hmem => hdisjoint _ hmem _ (by simp) rfl
    have h := ih (fun x hx => hdone x (List.mem_append_left _ hx)) hnodup
    rw [exec_append]
    exact serveDemand_balanced hknown h (hdone e (by simp)) hnew

theorem allot_balanced (hknown : request.Known) :
    request.Balanced request.demandsInTurn request.allot :=
  exec_balanced hknown (fun _ he => he) (demandsInTurn_nodup request)

/-- A demand is reported unmet when its turn finds it short. -/
theorem serveDemand_unmet (hknown : request.Known) {done : List (String × Demand)} {a : Allotment}
    (h : request.Balanced done a) {e : String × Demand} (he : e ∈ request.demandsInTurn) :
    (request.serveDemand a e).unmet.map Prod.fst = a.unmet.map Prod.fst ++ [e.1] ∧
        request.Short a.supplyRemaining e ∨
      (request.serveDemand a e).unmet = a.unmet ∧ ¬ request.Short a.supplyRemaining e := by
  obtain ⟨t', added, hserves, heq⟩ := serveDemand_serves hknown h.left he
  have hiff : negligible < t'.remaining ↔ request.Short a.supplyRemaining e :=
    hserves.short_iff (lanesOf_nodup request e.1)
  rw [heq]
  dsimp only
  split
  · next hshort => exact .inl ⟨by simp, hiff.mp hshort⟩
  · next hshort => exact .inr ⟨rfl, fun hs => hshort (hiff.mpr hs)⟩

end

end Edon.Optimization
