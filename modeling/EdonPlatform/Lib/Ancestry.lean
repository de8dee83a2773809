import Mathlib.Data.List.Basic
import Mathlib.Data.List.Forall2
import Mathlib.Logic.Relation

/- Ancestors under a parent function. `Ancestor parent a s` says that going up from `s`, any number
   of times, leads to `a`. A `Line` of `s` lists its ancestors from `s` upwards, so the first
   element of a line that is on all other lines is an ancestor of all and has every other common
   ancestor above it (`least_of_find`). Where a rank falls from child to parent there is only one
   such element (`least_unique`). -/
namespace Ancestry
open Relation

variable {α : Type} (parent : α → Option α)

/-- `a` is `s` or above it. -/
def Ancestor (a s : α) : Prop := ReflTransGen (fun x y => parent x = some y) s a

/-- The list has `s` and all above it, from `s` upwards. -/
structure Line (s : α) (path : List α) : Prop where
  mem : ∀ a, a ∈ path ↔ Ancestor parent a s
  upward : path.Pairwise fun x y => Ancestor parent y x

/-- `a` is an ancestor of all, and every other is an ancestor of `a`. -/
structure Least (a : α) (scopes : List α) : Prop where
  common : ∀ s ∈ scopes, Ancestor parent a s
  least : ∀ c, (∀ s ∈ scopes, Ancestor parent c s) → Ancestor parent c a

variable {parent}

theorem Ancestor.refl (s : α) : Ancestor parent s s := ReflTransGen.refl

theorem Ancestor.trans {a b c : α} (hab : Ancestor parent a b) (hbc : Ancestor parent b c) :
    Ancestor parent a c :=
  ReflTransGen.trans hbc hab

theorem Ancestor.of_parent {s p : α} (h : parent s = some p) : Ancestor parent p s :=
  ReflTransGen.single h

/-- The ancestors of a scope with a parent: itself, and those of the parent. -/
theorem ancestor_iff_of_parent {a s p : α} (h : parent s = some p) :
    Ancestor parent a s ↔ a = s ∨ Ancestor parent a p := by
  constructor
  · intro ha
    rcases ReflTransGen.cases_head ha with rfl | ⟨q, hq, ha⟩
    · exact .inl rfl
    · cases h.symm.trans hq
      exact .inr ha
  · rintro (rfl | ha)
    · exact .refl a
    · exact ha.trans (.of_parent h)

theorem ancestor_iff_of_root {a s : α} (h : parent s = none) : Ancestor parent a s ↔ a = s := by
  constructor
  · intro ha
    rcases ReflTransGen.cases_head ha with rfl | ⟨q, hq, _⟩
    · rfl
    · cases h.symm.trans hq
  · rintro rfl
    exact .refl a

/-- More parents give more ancestors. -/
theorem Ancestor.mono {parent' : α → Option α}
    (h : ∀ x y, parent x = some y → parent' x = some y) {a s : α} (ha : Ancestor parent a s) :
    Ancestor parent' a s :=
  ReflTransGen.mono h _ _ ha

/-! ## Lines -/

theorem Line.root {s : α} (h : parent s = none) : Line parent s [s] where
  mem a := by rw [List.mem_singleton, ancestor_iff_of_root h]
  upward := List.pairwise_singleton _ _

theorem Line.cons {s p : α} {path : List α} (h : parent s = some p) (hp : Line parent p path) :
    Line parent s (s :: path) where
  mem a := by rw [List.mem_cons, hp.mem, ancestor_iff_of_parent h]
  upward := List.pairwise_cons.mpr
    ⟨fun a ha => ((hp.mem a).mp ha).trans (.of_parent h), hp.upward⟩

section
variable [BEq α] [LawfulBEq α] {s : α} {scopes : List α} {first : List α} {rest : List (List α)}

/-- Being on all lines is being an ancestor of all. -/
theorem on_all_iff (h : List.Forall₂ (Line parent) scopes rest) {c : α} :
    (rest.all fun path => c ∈ path) = true ↔ ∀ x ∈ scopes, Ancestor parent c x := by
  induction h with
  | nil => simp
  | cons hline _ ih => simp [hline.mem, ih]

theorem least_of_find (hfirst : Line parent s first) (hrest : List.Forall₂ (Line parent) scopes rest)
    {a : α} (h : (first.find? fun c => rest.all fun path => c ∈ path) = some a) :
    Least parent a (s :: scopes) where
  common x hx := by
    have hall := (on_all_iff hrest).mp (List.find?_eq_some_iff_append.mp h).1
    rcases List.mem_cons.mp hx with rfl | hx
    · exact (hfirst.mem a).mp (List.mem_of_find?_eq_some h)
    · exact hall x hx
  least c hc := by
    obtain ⟨hc, hothers⟩ := List.forall_mem_cons.mp hc
    obtain ⟨_, before, after, rfl, hbefore⟩ := List.find?_eq_some_iff_append.mp h
    rcases List.mem_append.mp ((hfirst.mem c).mpr hc) with hin | hin
    · -- an element before the first that is on all lines is not on all
      have hnot := hbefore c hin
      rw [(on_all_iff hrest).mpr hothers] at hnot
      cases hnot
    · rcases List.mem_cons.mp hin with rfl | hin
      · exact .refl c
      · exact (List.pairwise_cons.mp (List.pairwise_append.mp hfirst.upward).2.1).1 c hin

/-- Where there is a common ancestor the search finds one. -/
theorem find_of_common (hfirst : Line parent s first)
    (hrest : List.Forall₂ (Line parent) scopes rest) {c : α}
    (hc : ∀ x ∈ s :: scopes, Ancestor parent c x) :
    ∃ a, (first.find? fun c => rest.all fun path => c ∈ path) = some a := by
  obtain ⟨hc, hothers⟩ := List.forall_mem_cons.mp hc
  rw [← Option.isSome_iff_exists, List.find?_isSome]
  exact ⟨c, (hfirst.mem c).mpr hc, (on_all_iff hrest).mpr hothers⟩

end

/-! ## Ranks -/

section
variable {rank : α → Nat} (hrank : ∀ x y, parent x = some y → rank y < rank x)
include hrank

theorem eq_or_rank_lt {a s : α} (h : Ancestor parent a s) : a = s ∨ rank a < rank s := by
  induction h with
  | refl => exact .inl rfl
  | tail _ hstep ih =>
    rcases ih with rfl | hlt
    · exact .inr (hrank _ _ hstep)
    · exact .inr (Nat.lt_trans (hrank _ _ hstep) hlt)

theorem ancestor_antisymm {a b : α} (hab : Ancestor parent a b) (hba : Ancestor parent b a) :
    a = b := by
  rcases eq_or_rank_lt hrank hab with heq | hlt
  · exact heq
  · rcases eq_or_rank_lt hrank hba with heq | hgt
    · exact heq.symm
    · omega

/-- **There is one least common ancestor, whatever the order of the list.** -/
theorem least_unique {a b : α} {l m : List α} (ha : Least parent a l) (hb : Least parent b m)
    (hmem : ∀ x, x ∈ l ↔ x ∈ m) : a = b := by
  apply ancestor_antisymm hrank
  · exact hb.least a fun x hx => ha.common x ((hmem x).mpr hx)
  · exact ha.least b fun x hx => hb.common x ((hmem x).mp hx)

end
end Ancestry
