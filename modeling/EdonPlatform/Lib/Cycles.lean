import EdonPlatform.Lib.Precedence
import Mathlib.Data.Fintype.Card
import Mathlib.Data.Set.Finite.Basic
import Mathlib.Order.WellFounded

/- Cycles of a dependency relation. A list in which every element comes after what it depends on
   has no element that depends on itself, however far (`Ordered.acyclic`); where no element of a
   list is free of dependencies in the list, one of them does (`exists_cycle`). -/
namespace Precedence

variable {α : Type} {depends : α → α → Prop}

/-- What an element depends on is in the part before it. -/
theorem Ordered.before {m : List α} (hm : Ordered depends m) {l r : List α} {x d : α}
    (heq : m = l ++ x :: r) (hd : depends x d) : d ∈ l := by
  induction hm generalizing r with
  | nil => exact absurd heq.symm (by simp)
  | @snoc m y _ hy ih =>
    rcases List.eq_nil_or_concat r with rfl | ⟨r, z, rfl⟩
    · obtain ⟨rfl, hlast⟩ := List.append_inj' heq rfl
      cases hlast
      exact hy d hd
    · rw [List.concat_eq_append, ← List.cons_append, ← List.append_assoc] at heq
      exact ih (List.append_inj' heq rfl).1

theorem Ordered.idxOf_lt [DecidableEq α] {m : List α} (hm : Ordered depends m) {x d : α} (hx : x ∈ m)
    (hd : depends x d) : m.idxOf d < m.idxOf x := by
  obtain ⟨l, r, heq, hfirst⟩ := List.eq_append_cons_of_mem hx
  have hbefore := hm.before heq hd
  rw [heq, List.idxOf_append_of_mem hbefore, List.idxOf_append_of_notMem hfirst]
  exact (List.idxOf_lt_length_of_mem hbefore).trans_le (Nat.le_add_right _ _)

theorem Ordered.acyclic {m : List α} (hm : Ordered depends m) {x : α} (hx : x ∈ m) :
    ¬ Relation.TransGen depends x x := by
  obtain ⟨l, r, heq, hfirst⟩ := List.eq_append_cons_of_mem hx
  have hbefore : ∀ y, Relation.TransGen depends x y → y ∈ l := by
    intro y hxy
    induction hxy with
    | single h => exact hm.before heq h
    | @tail y z _ hyz ih =>
      obtain ⟨a, b, rfl⟩ := List.append_of_mem ih
      rw [List.append_assoc, List.cons_append] at heq
      exact List.mem_append_left _ (hm.before heq hyz)
  exact fun hcycle => hfirst (hbefore x hcycle)

theorem exists_cycle {l : List α} (hne : l ≠ []) (h : ∀ x ∈ l, ∃ d ∈ l, depends x d) :
    ∃ x, Relation.TransGen depends x x := by
  by_contra hnone
  have hfinite : Finite {x // x ∈ l} := (List.finite_toSet l).to_subtype
  let below : {x // x ∈ l} → {x // x ∈ l} → Prop := fun d x => Relation.TransGen depends x.1 d.1
  have htrans : IsTrans {x // x ∈ l} below := ⟨fun _ _ _ hab hbc => hbc.trans hab⟩
  have hirrefl : Std.Irrefl below := ⟨fun x hx => hnone ⟨x.1, hx⟩⟩
  have hfounded := Finite.wellFounded_of_trans_of_irrefl below
  obtain ⟨x, hx⟩ := List.exists_mem_of_ne_nil l hne
  obtain ⟨⟨y, hy⟩, -, hleast⟩ := hfounded.has_min Set.univ ⟨⟨x, hx⟩, trivial⟩
  obtain ⟨d, hd, hyd⟩ := h y hy
  exact hleast ⟨d, hd⟩ trivial (.single hyd)

end Precedence
