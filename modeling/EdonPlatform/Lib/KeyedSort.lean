import Mathlib.Data.List.Sort
import Mathlib.Data.Prod.Lex

/- Sorting by a key (`sorted(items, key=…)`): a stable sort by the order of the keys. Where the
   keys of the items are distinct the sort depends on the items alone (`sortBy_congr`), a part of
   the items stands in the sort as it does in a sort of its own (`filter_sortBy`), and two items stand
   in it as their keys do (`pair_sublist_iff`). -/
namespace KeyedSort

variable {α κ : Type}

/-- Two items of a list with one key are the same. -/
def Distinct (key : α → κ) (l : List α) : Prop := ∀ a ∈ l, ∀ b ∈ l, key a = key b → a = b

theorem Distinct.of_nodup {key : α → κ} {l : List α} (h : (l.map key).Nodup) : Distinct key l :=
  fun _ ha _ hb heq => List.inj_on_of_nodup_map h ha hb heq

theorem Distinct.perm {key : α → κ} {l m : List α} (h : Distinct key l) (hperm : l.Perm m) :
    Distinct key m :=
  fun a ha b hb => h a (hperm.mem_iff.mpr ha) b (hperm.mem_iff.mpr hb)

variable [LinearOrder κ] (key : α → κ)

def sortBy (l : List α) : List α := l.insertionSort fun a b => key a ≤ key b

variable {key} {l m : List α}

instance total_key : Std.Total fun a b : α => key a ≤ key b := ⟨fun a b => le_total (key a) (key b)⟩

instance trans_key : IsTrans α fun a b => key a ≤ key b := ⟨fun _ _ _ hab hbc => hab.trans hbc⟩

theorem perm_sortBy (l : List α) : (sortBy key l).Perm l := List.perm_insertionSort _ l

theorem mem_sortBy {a : α} : a ∈ sortBy key l ↔ a ∈ l := List.mem_insertionSort _

theorem pairwise_sortBy (l : List α) : (sortBy key l).Pairwise fun a b => key a ≤ key b :=
  List.pairwise_insertionSort _ l

theorem eq_of_perm_of_pairwise (hperm : l.Perm m) (hdistinct : Distinct key l)
    (hl : l.Pairwise fun a b => key a ≤ key b) (hm : m.Pairwise fun a b => key a ≤ key b) :
    l = m := by
  refine hperm.eq_of_pairwise (fun a b ha hb hab hba => ?_) hl hm
  exact hdistinct a ha b (hperm.mem_iff.mpr hb) (hab.antisymm hba)

/-- The order of the items does not show in the sort. -/
theorem sortBy_congr (hperm : l.Perm m) (hdistinct : Distinct key l) :
    sortBy key l = sortBy key m :=
  eq_of_perm_of_pairwise ((perm_sortBy l).trans (hperm.trans (perm_sortBy m).symm))
    (hdistinct.perm (perm_sortBy l).symm) (pairwise_sortBy l) (pairwise_sortBy m)

/-- Sorting what is sorted changes nothing. -/
theorem sortBy_of_pairwise (h : l.Pairwise fun a b => key a ≤ key b) : sortBy key l = l :=
  h.insertionSort_eq

theorem sortBy_sortBy (l : List α) : sortBy key (sortBy key l) = sortBy key l :=
  sortBy_of_pairwise (pairwise_sortBy l)

/-- Some of the items stand in the sort as in a sort of their own. -/
theorem filter_sortBy (hdistinct : Distinct key l) (p : α → Bool) :
    (sortBy key l).filter p = sortBy key (l.filter p) := by
  refine eq_of_perm_of_pairwise (((perm_sortBy l).filter p).trans (perm_sortBy _).symm) ?_
    ((pairwise_sortBy l).filter p) (pairwise_sortBy _)
  exact fun a ha b hb => hdistinct a (mem_sortBy.mp (List.mem_of_mem_filter ha)) b
    (mem_sortBy.mp (List.mem_of_mem_filter hb))

/-- In a list by ascending keys, two items stand as their keys do. -/
theorem pair_sublist_iff (h : l.Pairwise fun a b => key a < key b) {a b : α} (ha : a ∈ l)
    (hb : b ∈ l) : [a, b].Sublist l ↔ key a < key b := by
  constructor
  · intro hsublist
    exact (List.pairwise_cons.mp (h.sublist hsublist)).1 b List.mem_cons_self
  · intro hlt
    induction l with
    | nil => cases ha
    | cons x l ih =>
      obtain ⟨hhead, htail⟩ := List.pairwise_cons.mp h
      rcases List.mem_cons.mp ha with rfl | ha
      · have hb' : b ∈ l := (List.mem_cons.mp hb).resolve_left fun heq => (heq ▸ hlt).false
        exact (List.singleton_sublist.mpr hb').cons_cons a
      · have hb' : b ∈ l := (List.mem_cons.mp hb).resolve_left fun heq =>
          lt_asymm hlt (heq ▸ hhead a ha)
        exact (ih htail ha hb').cons x

end KeyedSort
