import Mathlib.Algebra.BigOperators.Group.List.Basic
import Mathlib.Data.List.Chain
import Mathlib.Data.List.Infix
import Mathlib.Data.List.Nodup

/- The simple paths of a graph, enumerated by extending a path with every successor that is not
   on it. The successors are a list, so a graph may have several edges between two nodes: a path
   is then found as often as there are ways to walk it (`count_visit`), and every simple path is
   found exactly once where no step of one can be made in two ways (`once_iff`). -/
namespace SimplePaths

variable {ν : Type} [DecidableEq ν]

/-- The paths that extend `path`, which ends in `current`, to the target; a path may have
`left - 1` nodes more. -/
def visit (next : ν → List ν) (target : ν) : Nat → ν → List ν → List (List ν)
  | 0, _, _ => []
  | left + 1, current, path =>
    if current = target then [path]
    else ((next current).filter fun c => c ∉ path).flatMap fun c =>
      visit next target left c (path ++ [c])

/-- The ways to walk along the nodes. -/
def ways (next : ν → List ν) : List ν → Nat
  | u :: v :: rest => (next u).count v * ways next (v :: rest)
  | _ => 1

/-- A path without repeated nodes and with at most `maxDepth` edges. -/
structure SimplePath (next : ν → List ν) (source target : ν) (maxDepth : Nat) (p : List ν) :
    Prop where
  head : p.head? = some source
  last : p.getLast? = some target
  steps : p.IsChain fun u v => v ∈ next u
  nodup : p.Nodup
  length : p.length ≤ maxDepth + 1

variable {next : ν → List ν} {target : ν}

theorem visit_extends {left : Nat} {current : ν} {path p : List ν}
    (h : p ∈ visit next target left current path) : ∃ rest, p = path ++ rest := by
  induction left generalizing current path with
  | zero => cases h
  | succ left ih =>
    rw [visit] at h
    split at h
    · exact ⟨[], by rw [List.mem_singleton.mp h, List.append_nil]⟩
    · obtain ⟨c, _, hp⟩ := List.mem_flatMap.mp h
      obtain ⟨rest, rfl⟩ := ih hp
      exact ⟨c :: rest, List.append_assoc ..⟩

/-- Only the branch of a node finds the paths that go on with it. -/
theorem count_branches {left : Nat} {path rest : List ν} {c : ν} (l : List ν) :
    (l.flatMap fun d => visit next target left d (path ++ [d])).count (path ++ c :: rest) =
      l.count c * (visit next target left c (path ++ [c])).count (path ++ c :: rest) := by
  induction l with
  | nil => simp
  | cons d l ih =>
    rw [List.flatMap_cons, List.count_append, ih, List.count_cons]
    by_cases hd : d = c
    · subst hd
      rw [beq_self_eq_true, if_pos rfl, Nat.succ_mul, Nat.add_comm]
    · have hnone : (visit next target left d (path ++ [d])).count (path ++ c :: rest) = 0 := by
        apply List.count_eq_zero.mpr
        intro hmem
        obtain ⟨rest', heq⟩ := visit_extends hmem
        rw [List.append_assoc, List.append_cancel_left_eq] at heq
        exact hd (List.cons.inj heq).1.symm
      rw [hnone, if_neg (by simpa using hd), Nat.zero_add, Nat.add_zero]

omit [DecidableEq ν] in
theorem notMem_of_nodup {l m : List ν} (h : (l ++ m).Nodup) {a : ν} (ha : a ∈ l) : a ∉ m :=
  fun hm => (List.nodup_append.mp h).2.2 a ha a hm rfl

/-- **How often a path is found.** -/
theorem count_visit {left : Nat} {current : ν} {path rest : List ν}
    (hlast : current ∈ path) (hnodup : path.Nodup) :
    (visit next target left current path).count (path ++ rest) =
      if rest.length < left ∧ rest.getLastD current = target ∧ (path ++ rest).Nodup then
        ways next (current :: rest) else 0 := by
  induction left generalizing current path rest with
  | zero => simp [visit]
  | succ left ih =>
    rw [visit]
    split
    · next htarget =>
      subst htarget
      cases rest with
      | nil => simp [hnodup, ways]
      | cons c rest =>
        -- a path that goes on does not come back to the target
        have hnot : ¬ ((c :: rest).getLastD current = current ∧ (path ++ c :: rest).Nodup) := by
          rintro ⟨hend, hall⟩
          have hmem : current ∈ c :: rest := by
            rw [List.getLastD_cons] at hend
            rw [← hend]
            exact List.getLastD_mem_cons
          exact notMem_of_nodup hall hlast hmem
        rw [if_neg fun h => hnot h.2]
        simp
    · next htarget =>
      cases rest with
      | nil =>
        rw [List.append_nil, if_neg fun h => htarget h.2.1]
        apply List.count_eq_zero.mpr
        intro hmem
        obtain ⟨c, _, hp⟩ := List.mem_flatMap.mp hmem
        obtain ⟨rest, heq⟩ := visit_extends hp
        have hlength := congrArg List.length heq
        simp at hlength
      | cons c rest =>
        rw [count_branches]
        by_cases hc : c ∈ path
        · have hcount : ((next current).filter fun c => c ∉ path).count c = 0 := by
            apply List.count_eq_zero.mpr
            intro hmem
            exact of_decide_eq_true (List.mem_filter.mp hmem).2 hc
          have hnot : ¬ (path ++ c :: rest).Nodup := fun hall =>
            notMem_of_nodup hall hc List.mem_cons_self
          rw [hcount, Nat.zero_mul, if_neg fun h => hnot h.2.2]
        · have hcount : ((next current).filter fun c => c ∉ path).count c = (next current).count c :=
            List.count_filter (decide_eq_true hc)
          have hnodup' : (path ++ [c]).Nodup := by
            rw [List.nodup_append]
            refine ⟨hnodup, List.nodup_singleton c, ?_⟩
            rintro a ha b hb rfl
            exact hc (List.mem_singleton.mp hb ▸ ha)
          have hassoc : path ++ c :: rest = (path ++ [c]) ++ rest := by simp
          rw [hcount, hassoc, ih (by simp) hnodup', ways]
          simp only [List.length_cons, List.getLastD_cons, Nat.add_lt_add_iff_right]
          split
          · rfl
          · exact Nat.mul_zero _

section
variable (next)

theorem ways_eq_one_iff {p : List ν} (h : p.IsChain fun u v => v ∈ next u) :
    ways next p = 1 ↔ ∀ u v, [u, v] <:+: p → (next u).count v = 1 := by
  induction p with
  | nil => simp [ways]
  | cons u p ih =>
    cases p with
    | nil => simp [ways, List.infix_cons_iff]
    | cons v rest =>
      rw [List.isChain_cons_cons] at h
      rw [ways]
      constructor
      · intro hone a b hab
        have hcount := Nat.eq_one_of_mul_eq_one_right hone
        have hrest := (ih h.2).mp (Nat.eq_one_of_mul_eq_one_left hone)
        rcases List.infix_cons_iff.mp hab with hprefix | hinfix
        · obtain ⟨rfl, hnext⟩ := List.cons_prefix_cons.mp hprefix
          obtain ⟨rfl, _⟩ := List.cons_prefix_cons.mp hnext
          exact hcount
        · exact hrest a b hinfix
      · intro hall
        have hrest : ways next (v :: rest) = 1 := by
          apply (ih h.2).mpr
          intro a b hab
          exact hall a b (List.infix_cons_iff.mpr (.inr hab))
        rw [hrest, hall u v (List.infix_cons_iff.mpr (.inl ⟨rest, rfl⟩))]

theorem ways_pos_iff {p : List ν} : 0 < ways next p ↔ p.IsChain fun u v => v ∈ next u := by
  induction p with
  | nil => simp [ways]
  | cons u p ih =>
    cases p with
    | nil => simp [ways]
    | cons v rest =>
      rw [ways, List.isChain_cons_cons, ← ih, ← List.count_pos_iff]
      constructor
      · exact fun h => ⟨Nat.pos_of_mul_pos_right h, Nat.pos_of_mul_pos_left h⟩
      · exact fun h => Nat.mul_pos h.1 h.2

/-- The enumeration, from a path of the source alone. -/
def paths (source target : ν) (maxDepth : Nat) : List (List ν) :=
  visit next target (maxDepth + 1) source [source]

variable {source : ν} {maxDepth : Nat}

theorem count_paths (p : List ν) (h : SimplePath next source target maxDepth p) :
    (paths next source target maxDepth).count p = ways next p := by
  obtain ⟨rest, rfl⟩ : ∃ rest, p = source :: rest := by
    cases p with
    | nil => exact absurd h.head (by simp)
    | cons a rest => exact ⟨rest, by rw [Option.some.inj h.head]⟩
  have hcount := @count_visit _ _ next target (maxDepth + 1) source
    [source] rest (List.mem_singleton_self source) (List.nodup_singleton source)
  unfold paths
  rw [List.singleton_append] at hcount
  rw [hcount, if_pos]
  refine ⟨Nat.lt_succ_of_le (Nat.le_of_succ_le_succ h.length), ?_, h.nodup⟩
  have hlast := h.last
  rw [List.getLast?_cons] at hlast
  rw [List.getLastD_eq_getLast?]
  exact Option.some.inj hlast

/-- **What is found are the simple paths.** -/
theorem mem_paths_iff {p : List ν} :
    p ∈ paths next source target maxDepth ↔ SimplePath next source target maxDepth p := by
  constructor
  · intro hmem
    obtain ⟨rest, rfl⟩ := visit_extends hmem
    have hpos := List.count_pos_iff.mpr hmem
    unfold paths at hpos
    rw [count_visit (List.mem_singleton_self source) (List.nodup_singleton source)] at hpos
    split at hpos
    · next hcondition =>
      obtain ⟨hlength, hlast, hnodup⟩ := hcondition
      refine ⟨rfl, ?_, (ways_pos_iff next).mp hpos, hnodup, Nat.succ_le_of_lt hlength⟩
      rw [List.singleton_append, List.getLast?_cons, ← List.getLastD_eq_getLast?, hlast]
    · exact absurd hpos (Nat.lt_irrefl 0)
  · intro h
    apply List.count_pos_iff.mp
    rw [count_paths next p h]
    exact (ways_pos_iff next).mpr h.steps

/-- **Every simple path is found once** exactly when no step of one can be made in two ways. -/
theorem once_iff : (paths next source target maxDepth).Nodup ↔
    ∀ p, SimplePath next source target maxDepth p → ∀ u v, [u, v] <:+: p → (next u).count v = 1 := by
  rw [List.nodup_iff_count_le_one]
  constructor
  · intro hle p h
    apply (ways_eq_one_iff next h.steps).mp
    have hpos := (ways_pos_iff next).mpr h.steps
    have hone := hle p
    rw [count_paths next p h] at hone
    omega
  · intro hall p
    by_cases hmem : p ∈ paths next source target maxDepth
    · have h := (mem_paths_iff next).mp hmem
      rw [count_paths next p h, (ways_eq_one_iff next h.steps).mpr (hall p h)]
    · rw [List.count_eq_zero.mpr hmem]
      exact Nat.zero_le 1

end

end SimplePaths
