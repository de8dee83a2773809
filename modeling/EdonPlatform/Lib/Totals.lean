import Mathlib.Algebra.BigOperators.Group.List.Basic
import Mathlib.Algebra.Order.BigOperators.Group.List
import Mathlib.Data.List.Nodup

/- What the items of a list with a property amount to. The total over a list whose items have
   keys is the sum, over the keys, of what the items with that key amount to (`sum_by_key`). -/
namespace Totals

variable {α κ M : Type} [AddCommMonoid M]

def totalWhere (amount : α → M) (p : α → Bool) (l : List α) : M := ((l.filter p).map amount).sum

variable {amount : α → M} {p q : α → Bool}

@[simp] theorem totalWhere_nil : totalWhere amount p [] = 0 := rfl

theorem totalWhere_cons (a : α) (l : List α) :
    totalWhere amount p (a :: l) = (if p a then amount a else 0) + totalWhere amount p l := by
  unfold totalWhere
  rw [List.filter_cons]
  split
  · rw [List.map_cons, List.sum_cons]
  · rw [zero_add]

theorem totalWhere_append (l m : List α) :
    totalWhere amount p (l ++ m) = totalWhere amount p l + totalWhere amount p m := by
  unfold totalWhere
  rw [List.filter_append, List.map_append, List.sum_append]

theorem totalWhere_singleton (a : α) :
    totalWhere amount p [a] = if p a then amount a else 0 := by
  rw [totalWhere_cons, totalWhere_nil, add_zero]

theorem totalWhere_eq_sum (l : List α) :
    totalWhere amount p l = (l.map fun a => if p a then amount a else 0).sum := by
  induction l with
  | nil => rfl
  | cons a l ih => rw [totalWhere_cons, ih, List.map_cons, List.sum_cons]

theorem totalWhere_congr {l : List α} (h : ∀ a ∈ l, p a = q a) :
    totalWhere amount p l = totalWhere amount q l := by
  unfold totalWhere
  rw [List.filter_congr h]

theorem totalWhere_eq_zero {l : List α} (h : ∀ a ∈ l, p a = false) :
    totalWhere amount p l = 0 := by
  unfold totalWhere
  rw [List.filter_eq_nil_iff.mpr fun a ha => Bool.eq_false_iff.mp (h a ha)]
  rfl

theorem totalWhere_nonneg [PartialOrder M] [IsOrderedAddMonoid M] {l : List α}
    (h : ∀ a ∈ l, 0 ≤ amount a) : 0 ≤ totalWhere amount p l := by
  apply List.sum_nonneg
  intro x hx
  obtain ⟨a, ha, rfl⟩ := List.mem_map.mp hx
  exact h a (List.mem_filter.mp ha).1

theorem sum_map_add (f g : κ → M) (ks : List κ) :
    (ks.map fun k => f k + g k).sum = (ks.map f).sum + (ks.map g).sum := by
  induction ks with
  | nil => simp
  | cons k ks ih =>
    simp only [List.map_cons, List.sum_cons, ih]
    exact add_add_add_comm ..

theorem sum_map_zero (ks : List κ) : (ks.map fun _ => (0 : M)).sum = 0 := by
  apply List.sum_eq_zero
  intro x hx
  obtain ⟨_, _, rfl⟩ := List.mem_map.mp hx
  rfl

/-- Of keys that are all different, one gives the amount. -/
theorem sum_single [DecidableEq κ] {ks : List κ} (hks : ks.Nodup) {j : κ} (hj : j ∈ ks) (x : M) :
    (ks.map fun k => if j = k then x else 0).sum = x := by
  induction ks with
  | nil => cases hj
  | cons k ks ih =>
    obtain ⟨hk, hks⟩ := List.nodup_cons.mp hks
    rw [List.map_cons, List.sum_cons]
    rcases List.mem_cons.mp hj with rfl | hj
    · rw [if_pos rfl, List.sum_eq_zero, add_zero]
      intro y hy
      obtain ⟨i, hi, rfl⟩ := List.mem_map.mp hy
      exact if_neg (ne_of_mem_of_not_mem hi hk).symm
    · rw [if_neg (ne_of_mem_of_not_mem hj hk), zero_add, ih hks hj]

theorem sum_by_key [DecidableEq κ] (key : α → κ) {ks : List κ} (hks : ks.Nodup) {l : List α}
    (h : ∀ a ∈ l, p a = true → key a ∈ ks) :
    (ks.map fun k => totalWhere amount (fun a => p a && key a = k) l).sum =
      totalWhere amount p l := by
  induction l with
  | nil => exact sum_map_zero ks
  | cons a l ih =>
    have ih := ih fun b hb => h b (List.mem_cons_of_mem _ hb)
    simp only [totalWhere_cons, sum_map_add, ih]
    congr 1
    cases hp : p a with
    | false =>
      simp only [Bool.false_and, Bool.false_eq_true, if_false]
      exact sum_map_zero ks
    | true =>
      simp only [Bool.true_and, decide_eq_true_eq, if_true]
      exact sum_single hks (h a List.mem_cons_self hp) (amount a)

end Totals
