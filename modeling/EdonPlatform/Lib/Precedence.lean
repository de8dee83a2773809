import Mathlib.Data.List.Basic

/- Lists in which every element comes after what it depends on. Such a list is built
   from its end: an element may be appended when its dependencies are there.

   The rule is `Ordered.exists_first`: of the elements that lack a property one comes
   first, and what it depends on has the property. -/
namespace Precedence

variable {α : Type} {depends depends' : α → α → Prop}

/-- `depends x d` says that `d` comes before `x`. -/
inductive Ordered (depends : α → α → Prop) : List α → Prop where
  | nil : Ordered depends []
  | snoc {l : List α} {x : α} : Ordered depends l → (∀ d, depends x d → d ∈ l) →
      Ordered depends (l ++ [x])

theorem Ordered.mono (h : ∀ x d, depends' x d → depends x d) {l : List α}
    (hl : Ordered depends l) : Ordered depends' l := by
  induction hl with
  | nil => exact .nil
  | snoc _ hx ih => exact .snoc ih (fun d hd => hx d (h _ d hd))

/-- What an element depends on is in the list. -/
theorem Ordered.closed {l : List α} (hl : Ordered depends l) {x d : α} (hx : x ∈ l)
    (hd : depends x d) : d ∈ l := by
  induction hl with
  | nil => cases hx
  | @snoc l y _ hy ih =>
    rcases List.mem_append.mp hx with hx | hx
    · exact List.mem_append_left _ (ih hx)
    · rw [List.mem_singleton.mp hx] at hd
      exact List.mem_append_left _ (hy d hd)

/-- All elements have the property, or one lacks it whose dependencies have it. -/
theorem Ordered.exists_first {l : List α} (hl : Ordered depends l) (P : α → Prop) :
    (∀ x ∈ l, P x) ∨ ∃ x ∈ l, ¬ P x ∧ ∀ d, depends x d → d ∈ l ∧ P d := by
  induction hl with
  | nil => exact .inl (by simp)
  | @snoc l x _ hx ih =>
    rcases ih with hall | ⟨y, hy, hnot, hbefore⟩
    · by_cases hP : P x
      · left
        intro y hy
        rcases List.mem_append.mp hy with hy | hy
        · exact hall y hy
        · rw [List.mem_singleton.mp hy]
          exact hP
      · right
        refine ⟨x, by simp, hP, ?_⟩
        intro d hd
        exact ⟨List.mem_append_left _ (hx d hd), hall d (hx d hd)⟩
    · right
      refine ⟨y, List.mem_append_left _ hy, hnot, ?_⟩
      intro d hd
      exact ⟨List.mem_append_left _ (hbefore d hd).1, (hbefore d hd).2⟩

end Precedence
