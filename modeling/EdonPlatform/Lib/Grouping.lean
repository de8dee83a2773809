import EdonPlatform.Lib.Dict
import Mathlib.Algebra.Order.Group.Multiset
import Mathlib.Data.List.Induction

/- The elements of a list by a key, in the order of the keys. A group has an element, and
   its elements are those of the list with its key, in the order of the list (`items_of_get`). There
   is a group for every key of an element (`get_isSome_iff`), and the groups have the elements of
   the list between them (`perm_items`). Where nothing is part of two elements, a part has one owner
   (`length_owners`). -/
namespace Grouping

structure Members (α : Type) where
  first : α
  rest : List α

variable {κ α : Type} [LinearOrder κ]

def Members.items (g : Members α) : List α := g.first :: g.rest

def add (key : α → κ) (d : Dict κ (Members α)) (x : α) : Dict κ (Members α) :=
  match d.get (key x) with
  | none => d.set (key x) ⟨x, []⟩
  | some g => d.set (key x) ⟨g.first, g.rest ++ [x]⟩

def groupBy (key : α → κ) (l : List α) : Dict κ (Members α) := l.foldl (add key) ∅

def itemsAt (d : Dict κ (Members α)) (k : κ) : List α := (d.get k).elim [] Members.items

theorem itemsAt_add (key : α → κ) (d : Dict κ (Members α)) (x : α) (k : κ) :
    itemsAt (add key d x) k = itemsAt d k ++ if key x = k then [x] else [] := by
  unfold add itemsAt
  cases h : d.get (key x) with
  | none =>
    dsimp only
    rw [Dict.get_set]
    by_cases hk : key x = k
    · subst hk
      simp [h, Members.items]
    · simp [hk]
  | some g =>
    dsimp only
    rw [Dict.get_set]
    by_cases hk : key x = k
    · subst hk
      simp [h, Members.items]
    · simp [hk]

/-- The elements with a key. -/
theorem itemsAt_groupBy (key : α → κ) (l : List α) (k : κ) :
    itemsAt (groupBy key l) k = l.filter (fun x => key x = k) := by
  induction l using List.reverseRecOn with
  | nil => rfl
  | append_singleton l x ih =>
    rw [groupBy, List.foldl_concat, ← groupBy, itemsAt_add, ih, List.filter_append,
      List.filter_singleton]
    by_cases hk : key x = k <;> simp [hk]

/-- The elements of a group. -/
theorem items_of_get {key : α → κ} {l : List α} {k : κ} {g : Members α}
    (h : (groupBy key l).get k = some g) : g.items = l.filter (fun x => key x = k) := by
  rw [← itemsAt_groupBy, itemsAt, h]
  rfl

theorem key_of_get {key : α → κ} {l : List α} {k : κ} {g : Members α}
    (h : (groupBy key l).get k = some g) : ∀ x ∈ g.items, x ∈ l ∧ key x = k := by
  intro x hx
  rw [items_of_get h] at hx
  simpa using hx

/-- The first element with a key. -/
theorem first_groupBy (key : α → κ) (l : List α) (k : κ) :
    ((groupBy key l).get k).map Members.first = l.find? fun x => key x = k := by
  rw [← List.head?_filter, ← itemsAt_groupBy key l k, itemsAt]
  cases (groupBy key l).get k with
  | none => rfl
  | some g => rfl

theorem get_isSome_iff {key : α → κ} {l : List α} {k : κ} :
    ((groupBy key l).get k).isSome = true ↔ ∃ x ∈ l, key x = k := by
  have hitems := itemsAt_groupBy key l k
  unfold itemsAt at hitems
  cases h : (groupBy key l).get k with
  | none =>
    rw [h] at hitems
    refine iff_of_false Bool.false_ne_true ?_
    rintro ⟨x, hx, hk⟩
    have hmem : x ∈ l.filter fun x => key x = k := List.mem_filter.mpr ⟨hx, decide_eq_true hk⟩
    rw [← hitems] at hmem
    cases hmem
  | some g => exact iff_of_true rfl ⟨g.first, key_of_get h g.first List.mem_cons_self⟩

/-! ## All elements -/

/-- The elements of all groups, without their order. -/
def all (d : Dict κ (Members α)) : Multiset α := d.sum fun _ g => (g.items : Multiset α)

theorem all_add (key : α → κ) (d : Dict κ (Members α)) (x : α) : all (add key d x) = all d + {x} := by
  unfold add all
  cases h : d.get (key x) with
  | none => rw [Dict.sum_set_new _ _ h]; rfl
  | some g =>
    have hsum := Dict.sum_set (fun _ g => (g.items : Multiset α)) d (key x)
      ⟨g.first, g.rest ++ [x]⟩
    rw [h, Option.map_some, Option.getD_some] at hsum
    have hitems : ((⟨g.first, g.rest ++ [x]⟩ : Members α).items : Multiset α) =
        (g.items : Multiset α) + {x} := by
      unfold Members.items
      rw [← List.cons_append, ← Multiset.coe_add]
      rfl
    rw [hitems, add_comm (g.items : Multiset α), ← add_assoc] at hsum
    exact add_right_cancel hsum

/-- **The groups have the elements of the list between them.** -/
theorem perm_items (key : α → κ) (l : List α) :
    ((groupBy key l).values.flatMap Members.items).Perm l := by
  have hall : all (groupBy key l) = (l : Multiset α) := by
    induction l using List.reverseRecOn with
    | nil => rfl
    | append_singleton l x ih =>
      rw [groupBy, List.foldl_concat, ← groupBy, all_add, ih, ← Multiset.coe_add]
      rfl
  have hsum : ∀ entries : List (κ × Members α),
      (entries.map fun e => (e.2.items : Multiset α)).sum =
        ((entries.map Prod.snd).flatMap Members.items : Multiset α) := by
    intro entries
    induction entries with
    | nil => rfl
    | cons e entries ih =>
      rw [List.map_cons, List.sum_cons, ih, List.map_cons, List.flatMap_cons, Multiset.coe_add]
  exact Multiset.coe_eq_coe.mp ((hsum _).symm.trans hall)

/-! ## Owners -/

/-- Where the parts of the elements have no part in common, a part is that of one element. -/
theorem length_owners {β : Type} [DecidableEq β] {parts : α → List β} {l : List α} {x : β}
    (hnodup : (l.flatMap parts).Nodup) (hx : x ∈ l.flatMap parts) :
    (l.filter fun y => x ∈ parts y).length = 1 := by
  induction l with
  | nil => cases hx
  | cons y l ih =>
    rw [List.flatMap_cons] at hnodup hx
    obtain ⟨-, hrest, hdisjoint⟩ := List.nodup_append'.mp hnodup
    by_cases hy : x ∈ parts y
    · have hnone : (l.filter fun z => x ∈ parts z) = [] :=
        List.filter_eq_nil_iff.mpr fun z hz hin =>
          hdisjoint hy (List.mem_flatMap.mpr ⟨z, hz, of_decide_eq_true hin⟩)
      rw [List.filter_cons_of_pos (by simpa using hy), hnone]
      rfl
    · rw [List.filter_cons_of_neg (by simpa using hy)]
      exact ih hrest ((List.mem_append.mp hx).resolve_left hy)

end Grouping
