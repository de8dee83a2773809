import EdonPlatform.Lib.Fallible
import Mathlib.Data.List.Forall2
import Mathlib.Data.List.Perm.Basic

/- Loops that collect the results of a computation that may fail: the results stand in the order of
   the items (`forall₂_of_mapM`, `map_of_mapM`; with their numbers, `mem_zipIdx_of_mapM`), and the
   loop over the items in another order returns the results in another order, or fails as well
   (`mapM_perm`). -/
namespace Fallible

variable {ε α β : Type} {f : α → Except ε β} {l m : List α} {ys : List β}

theorem forall₂_of_mapM (h : l.mapM f = .ok ys) : List.Forall₂ (fun x y => f x = .ok y) l ys := by
  induction l generalizing ys with
  | nil =>
    cases h
    exact .nil
  | cons x l ih =>
    rw [List.mapM_cons] at h
    obtain ⟨y, hy, h⟩ := bind_ok.mp h
    obtain ⟨rest, hrest, h⟩ := bind_ok.mp h
    cases h
    exact .cons hy (ih hrest)

theorem mapM_of_forall₂ (h : List.Forall₂ (fun x y => f x = .ok y) l ys) : l.mapM f = .ok ys := by
  induction h with
  | nil => rfl
  | cons hy _ ih =>
    rw [List.mapM_cons, hy, ih]
    rfl

theorem mapM_map {γ : Type} {d : γ → α} {g : γ → β} {items : List γ}
    (h : ∀ x ∈ items, f (d x) = .ok (g x)) : (items.map d).mapM f = .ok (items.map g) := by
  refine mapM_of_forall₂ ?_
  rw [List.forall₂_map_left_iff, List.forall₂_map_right_iff, List.forall₂_same]
  exact h

/-- What the results show of the items. -/
theorem map_of_mapM {γ : Type} {g : α → γ} {k : β → γ} (h : l.mapM f = .ok ys)
    (hf : ∀ x y, f x = .ok y → k y = g x) : ys.map k = l.map g := by
  have heach := forall₂_of_mapM h
  induction heach with
  | nil => rfl
  | cons hxy _ ih =>
    rw [List.map_cons, List.map_cons, hf _ _ hxy, ih (mapM_of_forall₂ ‹_›)]

/-- A loop that keeps each item with its result. -/
theorem pairs_of_mapM {γ : Type} {g : α → γ} {zs : List (γ × β)}
    (h : (l.mapM fun x => do let y ← f x; return (g x, y)) = .ok zs) : ∃ rows : List (α × β),
      rows.map Prod.fst = l ∧ zs = rows.map (fun r => (g r.1, r.2)) ∧
      ∀ r ∈ rows, f r.1 = .ok r.2 := by
  induction forall₂_of_mapM h with
  | nil => exact ⟨[], rfl, rfl, fun r hr => absurd hr List.not_mem_nil⟩
  | @cons x z l zs hz hzs ih =>
    obtain ⟨y, hy, heq⟩ := bind_ok.mp hz
    cases heq
    obtain ⟨rows, hfst, rfl, hrows⟩ := ih (mapM_of_forall₂ hzs)
    exact ⟨(x, y) :: rows, congrArg _ hfst, rfl, List.forall_mem_cons.mpr ⟨hy, hrows⟩⟩


/-- What a loop over numbered items returned, by number. -/
theorem mem_zipIdx_of_mapM {g : α × Nat → Except ε β} {n : Nat} (h : (l.zipIdx n).mapM g = .ok ys) :
    ∀ e ∈ ys.zipIdx n, ∃ x ∈ l, g (x, e.2) = .ok e.1 := by
  induction l generalizing ys n with
  | nil =>
    cases h
    exact fun e he => absurd he List.not_mem_nil
  | cons x l ih =>
    rw [List.zipIdx_cons, List.mapM_cons] at h
    obtain ⟨y, hy, h⟩ := bind_ok.mp h
    obtain ⟨rest, hrest, h⟩ := bind_ok.mp h
    cases h
    intro e he
    rw [List.zipIdx_cons] at he
    rcases List.mem_cons.mp he with rfl | he
    · exact ⟨x, List.mem_cons_self, hy⟩
    · obtain ⟨z, hz, hok⟩ := ih hrest e he
      exact ⟨z, List.mem_cons_of_mem _ hz, hok⟩

/-- The same items in another order. -/
theorem mapM_perm (hperm : l.Perm m) (h : l.mapM f = .ok ys) :
    ∃ zs, m.mapM f = .ok zs ∧ ys.Perm zs := by
  obtain ⟨zs, hzs, hresults⟩ := List.perm_comp_forall₂ hperm.symm (forall₂_of_mapM h)
  exact ⟨zs, mapM_of_forall₂ hzs, hresults.symm⟩

end Fallible
