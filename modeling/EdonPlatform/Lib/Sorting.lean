import Mathlib.Data.List.Sort

/- Sorted lists. Where a total preorder `r` is antisymmetric on the elements of a list, a
   stable sort by it depends on the elements alone, not on the order they come in
   (`sort_congr`). `latest r l` is what the sort of `l` puts last: a greatest element
   (`le_latest`), which depends on the elements alone too (`latest_congr`).
   An element that is strictly after all others is what the sort puts last, whatever `r` is on
   the rest (`latest_of_forall`). `insertionSort_insert` says where a stable sort puts one
   element more, so an element with a property is the last such (`lastWith_concat`) if it comes
   last and no such element is after it. -/
namespace Sorting

variable {α : Type} (r : α → α → Prop) [DecidableRel r]

def latest (l : List α) : Option α := (l.insertionSort r).getLast?

variable {r}

theorem latest_eq_none {l : List α} : latest r l = none ↔ l = [] := by
  unfold latest
  rw [List.getLast?_eq_none_iff, ← List.length_eq_zero_iff, List.length_insertionSort,
    List.length_eq_zero_iff]

theorem latest_mem {l : List α} {x : α} (h : latest r l = some x) : x ∈ l :=
  (List.mem_insertionSort r).mp (List.mem_of_getLast? h)

/-! ## The last of a sort with a property -/

variable (r) in
/-- The last element of the sort of `l` that has the property. -/
def lastWith (p : α → Bool) (l : List α) : Option α :=
  ((l.insertionSort r).filter p).getLast?

theorem lastWith_eq_none {p : α → Bool} {l : List α} : lastWith r p l = none ↔ ∀ y ∈ l, p y = false := by
  unfold lastWith
  rw [List.getLast?_eq_none_iff, List.filter_eq_nil_iff]
  constructor
  · intro h y hy
    exact Bool.eq_false_iff.mpr (h y ((List.mem_insertionSort r).mpr hy))
  · intro h y hy
    exact Bool.eq_false_iff.mp (h y ((List.mem_insertionSort r).mp hy))

theorem lastWith_mem {p : α → Bool} {l : List α} {x : α} (h : lastWith r p l = some x) : x ∈ l ∧ p x = true := by
  obtain ⟨hmem, hp⟩ := List.mem_filter.mp (List.mem_of_getLast? h)
  exact ⟨(List.mem_insertionSort r).mp hmem, hp⟩

/-- A fold that keeps the value of the last element with the property. -/
theorem foldl_last {β : Type} (p : α → Bool) (value : α → β) (initial : β) (l : List α) :
    l.foldl (fun state x => if p x then value x else state) initial =
      ((l.filter p).getLast?.map value).getD initial := by
  induction l generalizing initial with
  | nil => rfl
  | cons x l ih =>
    rw [List.foldl_cons, ih]
    cases hp : p x with
    | false => rw [List.filter_cons_of_neg (Bool.eq_false_iff.mp hp), if_neg Bool.false_ne_true]
    | true =>
      rw [List.filter_cons_of_pos hp, if_pos rfl, List.getLast?_cons]
      cases (l.filter p).getLast? <;> rfl

section

/-! ## One element more -/

theorem orderedInsert_append_of_le {x : α} {l m : List α} (h : ∀ b ∈ m, r x b) :
    (l ++ m).orderedInsert r x = l.orderedInsert r x ++ m := by
  induction l with
  | nil =>
    cases m with
    | nil => rfl
    | cons b m =>
      rw [List.nil_append, List.orderedInsert_cons, if_pos (h b (List.mem_cons_self ..))]
      rfl
  | cons a l ih =>
    rw [List.cons_append, List.orderedInsert_cons, List.orderedInsert_cons, ih]
    split <;> rfl

theorem orderedInsert_append_of_not {x : α} {l m : List α} (h : ∀ a ∈ l, ¬ r x a) :
    (l ++ m).orderedInsert r x = l ++ m.orderedInsert r x := by
  induction l with
  | nil => rfl
  | cons a l ih =>
    rw [List.cons_append, List.orderedInsert_cons, if_neg (h a (List.mem_cons_self ..)),
      ih (fun b hb => h b (List.mem_cons_of_mem _ hb))]
    rfl

/-- An element that all others are before, and that is before none of them, comes last. -/
theorem latest_of_forall {l : List α} {x : α} (hnodup : l.Nodup) (hx : x ∈ l)
    (h : ∀ y ∈ l, y ≠ x → r y x ∧ ¬ r x y) : latest r l = some x := by
  suffices hlast : ∃ ys, l.insertionSort r = ys ++ [x] by
    obtain ⟨ys, hys⟩ := hlast
    unfold latest
    rw [hys, List.getLast?_concat]
  induction l with
  | nil => cases hx
  | cons a l ih =>
    obtain ⟨ha, hnodup⟩ := List.nodup_cons.mp hnodup
    rw [List.insertionSort_cons]
    by_cases hax : a = x
    · subst hax
      refine ⟨l.insertionSort r, ?_⟩
      have hnot : ∀ b ∈ l.insertionSort r, ¬ r a b := by
        intro b hb
        have hb := (List.mem_insertionSort r).mp hb
        have hne : b ≠ a := fun heq => ha (heq ▸ hb)
        exact (h b (List.mem_cons_of_mem _ hb) hne).2
      rw [← List.append_nil (l.insertionSort r), orderedInsert_append_of_not hnot,
        List.append_nil]
      rfl
    · have hx := (List.mem_cons.mp hx).resolve_left (Ne.symm hax)
      obtain ⟨ys, hys⟩ := ih hnodup hx (fun y hy => h y (List.mem_cons_of_mem _ hy))
      refine ⟨ys.orderedInsert r a, ?_⟩
      rw [hys, orderedInsert_append_of_le]
      intro b hb
      rw [List.mem_singleton.mp hb]
      exact (h a (List.mem_cons_self ..) hax).1

variable (r) in
/-- What a stable sort of `l ++ e :: m` puts before `e`, and after it. -/
def low (e : α) (l m : List α) : List α :=
  (l.filter (fun x => r x e) ++ m.filter (fun x => ¬ r e x)).insertionSort r

variable (r) in
def high (e : α) (l m : List α) : List α :=
  (l.filter (fun x => ¬ r x e) ++ m.filter (fun x => r e x)).insertionSort r

theorem mem_of_mem_low {e a : α} {l m : List α} (h : a ∈ low r e l m) : a ∈ l ∨ a ∈ m := by
  rcases List.mem_append.mp ((List.mem_insertionSort r).mp h) with h | h
  · exact .inl (List.mem_filter.mp h).1
  · exact .inr (List.mem_filter.mp h).1

theorem mem_of_mem_high {e b : α} {l m : List α} (h : b ∈ high r e l m) : b ∈ l ∨ b ∈ m := by
  rcases List.mem_append.mp ((List.mem_insertionSort r).mp h) with h | h
  · exact .inl (List.mem_filter.mp h).1
  · exact .inr (List.mem_filter.mp h).1

theorem length_low (e : α) (l m : List α) :
    (low r e l m).length = l.countP (fun x => r x e) + m.countP (fun x => ¬ r e x) := by
  unfold low
  rw [List.length_insertionSort, List.length_append, List.countP_eq_length_filter,
    List.countP_eq_length_filter]

theorem not_rel_of_mem_high {e b : α} {l : List α} (h : b ∈ high r e l []) : ¬ r b e := by
  rcases List.mem_append.mp ((List.mem_insertionSort r).mp h) with h | h
  · exact of_decide_eq_true (List.mem_filter.mp h).2
  · cases h

variable [Std.Total r]

theorem rel_of_mem_low {e a : α} {l m : List α} (h : a ∈ low r e l m) : r a e := by
  rcases List.mem_append.mp ((List.mem_insertionSort r).mp h) with h | h
  · exact of_decide_eq_true (List.mem_filter.mp h).2
  · have hnot := of_decide_eq_true (List.mem_filter.mp h).2
    exact (Std.Total.total a e).resolve_right hnot

theorem rel_of_mem_high {e b : α} {l m : List α} (h : b ∈ high r e l m) : r e b := by
  rcases List.mem_append.mp ((List.mem_insertionSort r).mp h) with h | h
  · have hnot := of_decide_eq_true (List.mem_filter.mp h).2
    exact (Std.Total.total e b).resolve_right hnot
  · exact of_decide_eq_true (List.mem_filter.mp h).2

variable [IsTrans α r]

/-- Where `x` goes in front of `l`, in the two parts and in any list that they are parts of. -/
theorem orderedInsert_low_high (e x : α) (l m : List α) {c : List α} (hc : c = [] ∨ c = [e]) :
    (low r e l m ++ (c ++ high r e l m)).orderedInsert r x =
      low r e (x :: l) m ++ (c ++ high r e (x :: l) m) := by
  by_cases hx : r x e
  · have hle : ∀ b ∈ c ++ high r e l m, r x b := by
      intro b hb
      rcases List.mem_append.mp hb with hb | hb
      · rcases hc with rfl | rfl
        · cases hb
        · rw [List.mem_singleton.mp hb]
          exact hx
      · exact IsTrans.trans _ _ _ hx (rel_of_mem_high hb)
    rw [orderedInsert_append_of_le hle]
    simp [low, high, hx]
  · have hnot : ∀ a ∈ low r e l m ++ c, ¬ r x a := by
      intro a ha hxa
      rcases List.mem_append.mp ha with ha | ha
      · exact hx (IsTrans.trans _ _ _ hxa (rel_of_mem_low ha))
      · rcases hc with rfl | rfl
        · cases ha
        · exact hx (List.mem_singleton.mp ha ▸ hxa)
    rw [← List.append_assoc, orderedInsert_append_of_not hnot, List.append_assoc]
    simp [low, high, hx]

theorem insertionSort_low_high (e : α) (l m : List α) :
    (l ++ m).insertionSort r = low r e l m ++ high r e l m := by
  induction l with
  | nil =>
    induction m with
    | nil => rfl
    | cons y m ih =>
      rw [List.nil_append] at ih ⊢
      rw [List.insertionSort_cons, ih]
      by_cases hy : r e y
      · rw [orderedInsert_append_of_not]
        · simp [low, high, hy]
        · intro a ha hya
          obtain ⟨_, ha⟩ := List.mem_filter.mp ((List.mem_insertionSort r).mp ha)
          exact of_decide_eq_true ha (IsTrans.trans _ _ _ hy hya)
      · have hye : r y e := (Std.Total.total y e).resolve_right hy
        rw [orderedInsert_append_of_le]
        · simp [low, high, hy]
        · intro b hb
          exact IsTrans.trans _ _ _ hye (rel_of_mem_high hb)
  | cons x l ih =>
    rw [List.cons_append, List.insertionSort_cons, ih]
    exact orderedInsert_low_high e x l m (.inl rfl)

/-- The sort of a list with one element more is the sort of the list with that element in
between. -/
theorem insertionSort_insert (e : α) (l m : List α) :
    (l ++ e :: m).insertionSort r = low r e l m ++ e :: high r e l m := by
  induction l with
  | nil =>
    rw [List.nil_append, List.insertionSort_cons, ← List.nil_append m,
      insertionSort_low_high e [] m, orderedInsert_append_of_not, List.nil_append]
    · congr 1
      cases hhigh : high r e [] m with
      | nil => rfl
      | cons b t =>
        rw [List.orderedInsert_cons, if_pos]
        exact rel_of_mem_high (l := []) (m := m) (hhigh ▸ List.mem_cons_self ..)
    · intro a ha
      obtain ⟨_, ha⟩ := List.mem_filter.mp ((List.mem_insertionSort r).mp ha)
      exact of_decide_eq_true ha
  | cons x l ih =>
    rw [List.cons_append, List.insertionSort_cons, ih]
    exact orderedInsert_low_high e x l m (.inr rfl)

theorem le_lastWith {p : α → Bool} {l : List α} {x : α} (h : lastWith r p l = some x) :
    ∀ y ∈ l, p y = true → r y x := by
  intro y hy hp
  have hsorted := (List.pairwise_insertionSort r l).filter p
  obtain ⟨ys, hys⟩ := List.getLast?_eq_some_iff.mp h
  have hy : y ∈ ys ++ [x] :=
    hys ▸ List.mem_filter.mpr ⟨(List.mem_insertionSort r).mpr hy, hp⟩
  rw [hys, List.pairwise_append] at hsorted
  rcases List.mem_append.mp hy with hy | hy
  · exact hsorted.2.2 y hy x (List.mem_singleton_self x)
  · rw [List.mem_singleton.mp hy]
    exact (Std.Total.total x x).elim id id

/-- An element with the property that no such element is after comes last if it is put last. -/
theorem lastWith_concat {p : α → Bool} {l : List α} {x : α} (hp : p x = true)
    (h : ∀ y ∈ l, p y = true → r y x) : lastWith r p (l ++ [x]) = some x := by
  have hhigh : (high r x l []).filter p = [] := by
    rw [List.filter_eq_nil_iff]
    intro y hy hpy
    have hmem : y ∈ l := (mem_of_mem_high hy).resolve_right List.not_mem_nil
    exact not_rel_of_mem_high hy (h y hmem hpy)
  unfold lastWith
  rw [insertionSort_insert x l [], List.filter_append, List.filter_cons_of_pos hp, hhigh,
    List.getLast?_concat]

end

/-! ## Antisymmetric on the elements -/

variable [Std.Total r] [IsTrans α r]

theorem sort_congr {l m : List α} (hperm : l.Perm m)
    (hanti : ∀ x ∈ l, ∀ y ∈ l, r x y → r y x → x = y) :
    l.insertionSort r = m.insertionSort r := by
  have hsorts : (l.insertionSort r).Perm (m.insertionSort r) :=
    (List.perm_insertionSort r l).trans (hperm.trans (List.perm_insertionSort r m).symm)
  apply hsorts.eq_of_pairwise _ (List.pairwise_insertionSort r l) (List.pairwise_insertionSort r m)
  intro x y hx hy
  exact hanti x ((List.mem_insertionSort r).mp hx) y
    (hperm.mem_iff.mpr ((List.mem_insertionSort r).mp hy))

theorem le_latest {l : List α} {x : α} (h : latest r l = some x) : ∀ y ∈ l, r y x := by
  intro y hy
  have hsorted := List.pairwise_insertionSort r l
  obtain ⟨ys, hys⟩ := List.getLast?_eq_some_iff.mp h
  rw [hys, List.pairwise_append] at hsorted
  have hy : y ∈ ys ++ [x] := hys ▸ (List.mem_insertionSort r).mpr hy
  rcases List.mem_append.mp hy with hy | hy
  · exact hsorted.2.2 y hy x (List.mem_singleton_self x)
  · rw [List.mem_singleton.mp hy]
    exact (Std.Total.total x x).elim id id

theorem latest_congr {l m : List α} (hmem : ∀ x, x ∈ l ↔ x ∈ m)
    (hanti : ∀ x ∈ l, ∀ y ∈ l, r x y → r y x → x = y) : latest r l = latest r m := by
  cases hl : latest r l with
  | none =>
    have hnil := latest_eq_none.mp hl
    symm
    rw [latest_eq_none, List.eq_nil_iff_forall_not_mem]
    intro x hx
    have hx := (hmem x).mpr hx
    rw [hnil] at hx
    cases hx
  | some x =>
    cases hm : latest r m with
    | none =>
      have hx := (hmem x).mp (latest_mem hl)
      rw [latest_eq_none.mp hm] at hx
      cases hx
    | some y =>
      have hx := latest_mem hl
      have hy := (hmem y).mpr (latest_mem hm)
      rw [hanti x hx y hy (le_latest hm x ((hmem x).mp hx)) (le_latest hl y hy)]

/-! ## The first elements -/

theorem mem_take_iff {lt : α → α → Bool} {l : List α} {a : α}
    (hsorted : l.Pairwise fun a b => lt a b = true ∧ lt b a = false)
    (hirrefl : ∀ a, lt a a = false) (ha : a ∈ l) (n : Nat) :
    a ∈ l.take n ↔ l.countP (fun b => lt b a) < n := by
  induction l generalizing n with
  | nil => cases ha
  | cons b l ih =>
    obtain ⟨hb, hsorted⟩ := List.pairwise_cons.mp hsorted
    cases n with
    | zero => simp
    | succ n =>
      rw [List.take_succ_cons, List.mem_cons, List.countP_cons]
      by_cases hab : a = b
      · subst hab
        have hnone : l.countP (fun b => lt b a) = 0 :=
          List.countP_eq_zero.mpr fun c hc => by simp [(hb c hc).2]
        simp [hnone, hirrefl a]
      · have ha : a ∈ l := (List.mem_cons.mp ha).resolve_left hab
        rw [if_pos (hb a ha).1, Nat.add_lt_add_iff_right, ← ih hsorted ha n]
        exact or_iff_right hab

end Sorting
