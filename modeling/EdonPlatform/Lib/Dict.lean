import Mathlib.Order.Defs.LinearOrder
import Mathlib.Order.Basic
import Mathlib.Data.List.Basic
import Mathlib.Algebra.BigOperators.Group.List.Basic
import Mathlib.Algebra.Order.BigOperators.Group.List
import Mathlib.Tactic.Abel

/- Dictionaries with ordered keys, twice. `Assoc` works on plain association lists,
   where the order of the entries is the order of insertion: `find`, `put` and
   `remove` are a dictionary's lookup, assignment and deletion, and `sortKeys` is the
   list with its keys in ascending order. Two lists with the same lookups have the
   same `sortKeys` (`sortKeys_eq_iff`), which is what makes the sorted list a
   canonical form. `Dict` is the sorted list as a structure: a value of it has its
   keys strictly ascending, so it is determined by its lookups (`Dict.ext_get`), and
   a sum over its entries changes under assignment by the assigned entry only
   (`Dict.sum_set`). -/

namespace Assoc
variable {κ α β : Type} [LinearOrder κ]

/-- The value of the first entry with key `k`. -/
def find : List (κ × α) → κ → Option α
  | [], _ => none
  | e :: l, k => if e.1 = k then some e.2 else find l k

/-- Assignment: an existing key keeps its place, a new one goes to the end. -/
def put : List (κ × α) → κ → α → List (κ × α)
  | [], k, v => [(k, v)]
  | e :: l, k, v => if e.1 = k then (k, v) :: l else e :: put l k v

def remove (l : List (κ × α)) (k : κ) : List (κ × α) := l.filter (fun e => e.1 ≠ k)

/-- Assignment into a list with ascending keys. -/
def insert : List (κ × α) → κ → α → List (κ × α)
  | [], k, v => [(k, v)]
  | e :: l, k, v =>
    if k < e.1 then (k, v) :: e :: l
    else if e.1 = k then (k, v) :: l
    else e :: insert l k v

/-- The entries with ascending keys, the first entry of a key winning. -/
def sortKeys (l : List (κ × α)) : List (κ × α) := l.foldr (fun e acc => insert acc e.1 e.2) []

/-- Keys strictly ascending. -/
def Ascending (l : List (κ × α)) : Prop := l.Pairwise (fun a b => a.1 < b.1)

@[simp] theorem find_nil (k : κ) : find ([] : List (κ × α)) k = none := rfl

theorem find_cons (e : κ × α) (l : List (κ × α)) (k : κ) :
    find (e :: l) k = if e.1 = k then some e.2 else find l k := rfl

theorem find_put (l : List (κ × α)) (k k' : κ) (v : α) :
    find (put l k v) k' = if k = k' then some v else find l k' := by
  induction l with
  | nil => rfl
  | cons e l ih =>
    by_cases he : e.1 = k
    · simp only [put, he, if_true, find_cons]
      split <;> rfl
    · simp only [put, he, if_false, find_cons, ih]
      by_cases hk : e.1 = k'
      · have : k ≠ k' := fun h => he (hk.trans h.symm)
        simp [hk, this]
      · simp [hk]

/-- Assigning the value a key has changes nothing. -/
theorem put_of_find {l : List (κ × α)} {k : κ} {v : α} (h : find l k = some v) :
    put l k v = l := by
  induction l with
  | nil => cases h
  | cons e l ih =>
    rw [find_cons] at h
    by_cases he : e.1 = k
    · rw [if_pos he, Option.some.injEq] at h
      subst he h
      rw [put, if_pos rfl]
    · rw [if_neg he] at h
      simp [put, he, ih h]

theorem mem_put_of_ne {l : List (κ × α)} {k : κ} {v : α} {e : κ × α} (h : e ∈ l)
    (hne : e.1 ≠ k) : e ∈ put l k v := by
  induction l with
  | nil => cases h
  | cons f l ih =>
    by_cases hf : f.1 = k
    · rw [put, if_pos hf]
      rcases List.mem_cons.mp h with rfl | h
      · exact absurd hf hne
      · exact List.mem_cons_of_mem _ h
    · rw [put, if_neg hf]
      rcases List.mem_cons.mp h with rfl | h
      · exact List.mem_cons_self
      · exact List.mem_cons_of_mem _ (ih h)

theorem mem_put {l : List (κ × α)} {k : κ} {v : α} {e : κ × α} (h : e ∈ put l k v) :
    e ∈ l ∨ e = (k, v) := by
  induction l with
  | nil => exact .inr (List.mem_singleton.mp h)
  | cons f l ih =>
    unfold put at h
    split at h
    · exact (List.mem_cons.mp h).symm.imp_left (List.mem_cons_of_mem _)
    · rcases List.mem_cons.mp h with rfl | h
      · exact .inl List.mem_cons_self
      · exact (ih h).imp_left (List.mem_cons_of_mem _)

theorem find_remove (l : List (κ × α)) (k k' : κ) :
    find (remove l k) k' = if k = k' then none else find l k' := by
  induction l with
  | nil => simp [remove]
  | cons e l ih =>
    simp only [remove, ne_eq, decide_not] at ih ⊢
    by_cases he : e.1 = k
    · simp only [List.filter_cons, he, decide_true, Bool.not_true, Bool.false_eq_true, if_false, ih,
        find_cons]
      split <;> simp [*]
    · simp only [List.filter_cons, he, decide_false, Bool.not_false, if_true, find_cons, ih]
      by_cases hk : e.1 = k'
      · have : k ≠ k' := fun h => he (hk.trans h.symm)
        simp [hk, this]
      · simp [hk]

theorem find_insert (l : List (κ × α)) (k k' : κ) (v : α) :
    find (insert l k v) k' = if k = k' then some v else find l k' := by
  induction l with
  | nil => rfl
  | cons e l ih =>
    simp only [insert]
    split
    · rfl
    · split
      · next he =>
        simp only [find_cons, he]
        split <;> rfl
      · next he =>
        simp only [find_cons, ih]
        by_cases hk : e.1 = k'
        · have : k ≠ k' := fun h => he (hk.trans h.symm)
          simp [hk, this]
        · simp [hk]

theorem find_sortKeys (l : List (κ × α)) (k : κ) : find (sortKeys l) k = find l k := by
  induction l with
  | nil => rfl
  | cons e l ih =>
    show find (insert (sortKeys l) e.1 e.2) k = find (e :: l) k
    rw [find_insert, find_cons, ih]

theorem mem_insert {l : List (κ × α)} {k : κ} {v : α} {x : κ × α} (h : x ∈ insert l k v) :
    x = (k, v) ∨ x ∈ l := by
  induction l with
  | nil => simpa [insert] using h
  | cons e l ih =>
    simp only [insert] at h
    split at h
    · simpa using h
    · split at h
      · rcases List.mem_cons.mp h with h | h
        · exact .inl h
        · exact .inr (List.mem_cons_of_mem _ h)
      · rcases List.mem_cons.mp h with h | h
        · exact .inr (by simp [h])
        · rcases ih h with h | h
          · exact .inl h
          · exact .inr (List.mem_cons_of_mem _ h)

theorem ascending_insert {l : List (κ × α)} (h : Ascending l) (k : κ) (v : α) :
    Ascending (insert l k v) := by
  induction l with
  | nil => exact List.pairwise_singleton _ _
  | cons e l ih =>
    obtain ⟨hhead, htail⟩ := List.pairwise_cons.mp h
    simp only [insert]
    split
    · next hlt =>
      refine List.pairwise_cons.mpr ⟨?_, h⟩
      intro x hx
      rcases List.mem_cons.mp hx with rfl | hx
      · exact hlt
      · exact lt_trans hlt (hhead x hx)
    · next hlt =>
      split
      · next he => exact List.pairwise_cons.mpr ⟨fun x hx => he ▸ hhead x hx, htail⟩
      · next he =>
        refine List.pairwise_cons.mpr ⟨?_, ih htail⟩
        intro x hx
        rcases mem_insert hx with rfl | hx
        · exact lt_of_le_of_ne (not_lt.mp hlt) he
        · exact hhead x hx

theorem ascending_sortKeys (l : List (κ × α)) : Ascending (sortKeys l) := by
  induction l with
  | nil => exact List.Pairwise.nil
  | cons e l ih => exact ascending_insert ih e.1 e.2

theorem ascending_remove {l : List (κ × α)} (h : Ascending l) (k : κ) : Ascending (remove l k) :=
  List.Pairwise.filter _ h

/-- In an ascending list no key below the head's is found. -/
theorem find_eq_none_of_lt {l : List (κ × α)} {k : κ} (h : ∀ x ∈ l, k < x.1) : find l k = none := by
  induction l with
  | nil => rfl
  | cons e l ih =>
    have hne : e.1 ≠ k := fun he => absurd (h e (by simp)) (by simp [he])
    rw [find_cons, if_neg hne]
    exact ih (fun x hx => h x (List.mem_cons_of_mem _ hx))

/-- Ascending lists are determined by their lookups. -/
theorem ascending_ext {l m : List (κ × α)} (hl : Ascending l) (hm : Ascending m)
    (h : ∀ k, find l k = find m k) : l = m := by
  induction l generalizing m with
  | nil =>
    cases m with
    | nil => rfl
    | cons f m => simpa [find_cons] using h f.1
  | cons e l ih =>
    obtain ⟨hle, hl'⟩ := List.pairwise_cons.mp hl
    cases m with
    | nil => simpa [find_cons] using h e.1
    | cons f m =>
      obtain ⟨hmf, hm'⟩ := List.pairwise_cons.mp hm
      have key : e.1 = f.1 := by
        rcases lt_trichotomy e.1 f.1 with hlt | heq | hgt
        · have hnone : find (f :: m) e.1 = none :=
            find_eq_none_of_lt (by
              intro x hx
              rcases List.mem_cons.mp hx with rfl | hx
              · exact hlt
              · exact lt_trans hlt (hmf x hx))
          have := h e.1
          rw [hnone, find_cons, if_pos rfl] at this
          cases this
        · exact heq
        · have hnone : find (e :: l) f.1 = none :=
            find_eq_none_of_lt (by
              intro x hx
              rcases List.mem_cons.mp hx with rfl | hx
              · exact hgt
              · exact lt_trans hgt (hle x hx))
          have := h f.1
          rw [hnone, find_cons, if_pos rfl] at this
          cases this
      have hval : e.2 = f.2 := by
        have := h e.1
        rw [find_cons, find_cons, if_pos rfl, if_pos key.symm] at this
        exact Option.some.inj this
      have htail : ∀ k, find l k = find m k := by
        intro k
        by_cases hk : e.1 = k
        · rw [find_eq_none_of_lt (fun x hx => hk ▸ hle x hx),
            find_eq_none_of_lt (fun x hx => hk ▸ key ▸ hmf x hx)]
        · have := h k
          rwa [find_cons, find_cons, if_neg hk, if_neg (key ▸ hk)] at this
      rw [ih hl' hm' htail, Prod.ext key hval]

theorem sortKeys_eq_iff {l m : List (κ × α)} :
    sortKeys l = sortKeys m ↔ ∀ k, find l k = find m k := by
  constructor
  · intro h k
    rw [← find_sortKeys l, ← find_sortKeys m, h]
  · intro h
    exact ascending_ext (ascending_sortKeys l) (ascending_sortKeys m)
      (fun k => by rw [find_sortKeys, find_sortKeys, h])

theorem sortKeys_of_ascending {l : List (κ × α)} (h : Ascending l) : sortKeys l = l :=
  ascending_ext (ascending_sortKeys l) h (find_sortKeys l)

theorem sortKeys_sortKeys (l : List (κ × α)) : sortKeys (sortKeys l) = sortKeys l :=
  sortKeys_of_ascending (ascending_sortKeys l)

theorem mem_of_find {l : List (κ × α)} {k : κ} {v : α} (h : find l k = some v) : (k, v) ∈ l := by
  induction l with
  | nil => cases h
  | cons e l ih =>
    rw [find_cons] at h
    split at h
    · next he =>
      cases h
      simp [← he]
    · exact List.mem_cons_of_mem _ (ih h)

theorem find_of_mem {l : List (κ × α)} (hl : Ascending l) {k : κ} {v : α} (h : (k, v) ∈ l) :
    find l k = some v := by
  induction l with
  | nil => cases h
  | cons e l ih =>
    obtain ⟨hhead, htail⟩ := List.pairwise_cons.mp hl
    rcases List.mem_cons.mp h with rfl | h
    · simp [find_cons]
    · have hne : e.1 ≠ k := ne_of_lt (hhead _ h)
      rw [find_cons, if_neg hne]
      exact ih htail h

theorem find_of_mem_nodup {l : List (κ × α)} (hl : (l.map Prod.fst).Nodup) {k : κ} {v : α}
    (h : (k, v) ∈ l) : find l k = some v := by
  induction l with
  | nil => cases h
  | cons f l ih =>
    obtain ⟨hnot, hnodup⟩ := List.nodup_cons.mp hl
    rw [find_cons]
    rcases List.mem_cons.mp h with rfl | h
    · exact if_pos rfl
    · have hne : f.1 ≠ k := by
        rintro rfl
        exact hnot (List.mem_map.mpr ⟨(f.1, v), h, rfl⟩)
      rw [if_neg hne]
      exact ih hnodup h

theorem find_isSome {l : List (κ × α)} {k : κ} :
    (find l k).isSome = true ↔ k ∈ l.map Prod.fst := by
  induction l with
  | nil => simp
  | cons e l ih =>
    simp only [find_cons, List.map_cons, List.mem_cons]
    split
    · next he => simp [he]
    · next he =>
      have : k ≠ e.1 := fun h => he h.symm
      simp [ih, this]

theorem find_eq_none {l : List (κ × α)} {k : κ} : find l k = none ↔ k ∉ l.map Prod.fst := by
  rw [← find_isSome, Option.not_isSome_iff_eq_none]

/-- Where a key has one value, neither the order of the entries nor how often they are there
matters. -/
theorem find_congr {l m : List (κ × α)} (hmem : ∀ e, e ∈ l ↔ e ∈ m)
    (hvalue : ∀ e ∈ l, ∀ f ∈ l, e.1 = f.1 → e.2 = f.2) (k : κ) : find l k = find m k := by
  cases hl : find l k with
  | none =>
    symm
    rw [find_eq_none]
    intro hin
    obtain ⟨e, he, rfl⟩ := List.mem_map.mp hin
    exact find_eq_none.mp hl (List.mem_map_of_mem ((hmem e).mpr he))
  | some v =>
    have hin := mem_of_find hl
    cases hm : find m k with
    | none => exact absurd (List.mem_map_of_mem ((hmem _).mp hin)) (find_eq_none.mp hm)
    | some w =>
      have hsame : v = w := hvalue _ hin _ ((hmem _).mpr (mem_of_find hm)) rfl
      rw [hsame]

/-- One entry more at the end. -/
theorem find_concat (l : List (κ × α)) (e : κ × α) (k : κ) :
    find (l ++ [e]) k = (find l k).or (if e.1 = k then some e.2 else none) := by
  induction l with
  | nil => rfl
  | cons f l ih =>
    rw [List.cons_append, find_cons, find_cons, ih]
    split <;> rfl

theorem find_map {β : Type} (f : α → β) (l : List (κ × α)) (k : κ) :
    find (l.map fun e => (e.1, f e.2)) k = (find l k).map f := by
  induction l with
  | nil => rfl
  | cons e l ih =>
    rw [List.map_cons, find_cons, find_cons, ih]
    split <;> rfl

end Assoc

/-- A dictionary with its keys in ascending order. -/
structure Dict (κ α : Type) [LinearOrder κ] where
  entries : List (κ × α)
  ascending : Assoc.Ascending entries

namespace Dict
variable {κ α β : Type} [LinearOrder κ]

def empty : Dict κ α := ⟨[], List.Pairwise.nil⟩

instance : EmptyCollection (Dict κ α) := ⟨empty⟩

instance [DecidableEq α] : DecidableEq (Dict κ α) := fun d d' =>
  decidable_of_iff (d.entries = d'.entries) (by cases d; cases d'; simp)

def get (d : Dict κ α) (k : κ) : Option α := Assoc.find d.entries k

def set (d : Dict κ α) (k : κ) (v : α) : Dict κ α :=
  ⟨Assoc.insert d.entries k v, Assoc.ascending_insert d.ascending k v⟩

def erase (d : Dict κ α) (k : κ) : Dict κ α :=
  ⟨Assoc.remove d.entries k, Assoc.ascending_remove d.ascending k⟩

def contains (d : Dict κ α) (k : κ) : Bool := (d.get k).isSome

def isEmpty (d : Dict κ α) : Bool := d.entries.isEmpty

def keys (d : Dict κ α) : List κ := d.entries.map Prod.fst

def values (d : Dict κ α) : List α := d.entries.map Prod.snd

/-- Change every value, with its key. -/
def map (f : κ → α → β) (d : Dict κ α) : Dict κ β where
  entries := d.entries.map (fun e => (e.1, f e.1 e.2))
  ascending := by
    apply List.Pairwise.map _ _ d.ascending
    exact fun _ _ h => h

/-- Change the value of every key that has an entry in `amounts`, with that entry. -/
def adjust (d : Dict κ α) (f : β → α → α) (amounts : Dict κ β) : Dict κ α :=
  d.map (fun k a => ((amounts.get k).map (fun b => f b a)).getD a)

/-- Assign the entries of `l` from left to right, a later entry of a key winning. -/
def ofList (l : List (κ × α)) : Dict κ α := l.foldl (fun d e => d.set e.1 e.2) ∅

@[simp] theorem get_empty (k : κ) : (∅ : Dict κ α).get k = none := rfl

@[simp] theorem entries_empty : (∅ : Dict κ α).entries = [] := rfl

theorem get_set (d : Dict κ α) (k k' : κ) (v : α) :
    (d.set k v).get k' = if k = k' then some v else d.get k' :=
  Assoc.find_insert d.entries k k' v

@[simp] theorem get_set_self (d : Dict κ α) (k : κ) (v : α) : (d.set k v).get k = some v := by
  simp [get_set]

theorem get_set_ne (d : Dict κ α) {k k' : κ} (v : α) (h : k ≠ k') :
    (d.set k v).get k' = d.get k' := by
  simp [get_set, h]

theorem get_erase (d : Dict κ α) (k k' : κ) :
    (d.erase k).get k' = if k = k' then none else d.get k' :=
  Assoc.find_remove d.entries k k'

theorem ext_get {d d' : Dict κ α} (h : ∀ k, d.get k = d'.get k) : d = d' := by
  cases d with
  | mk l hl =>
    cases d' with
    | mk m hm => simpa using Assoc.ascending_ext hl hm h

theorem mem_entries {d : Dict κ α} {k : κ} {v : α} : (k, v) ∈ d.entries ↔ d.get k = some v :=
  ⟨Assoc.find_of_mem d.ascending, Assoc.mem_of_find⟩

theorem mem_values {d : Dict κ α} {v : α} : v ∈ d.values ↔ ∃ k, d.get k = some v := by
  simp only [values, List.mem_map, Prod.exists, exists_eq_right, mem_entries]

theorem mem_keys {d : Dict κ α} {k : κ} : k ∈ d.keys ↔ (d.get k).isSome = true := by
  rw [keys, List.mem_map, Option.isSome_iff_exists]
  constructor
  · rintro ⟨⟨_, v⟩, hmem, rfl⟩
    exact ⟨v, mem_entries.mp hmem⟩
  · rintro ⟨v, hv⟩
    exact ⟨(k, v), mem_entries.mpr hv, rfl⟩

theorem keys_nodup (d : Dict κ α) : d.keys.Nodup := by
  apply List.pairwise_map.mpr
  exact d.ascending.imp ne_of_lt

theorem contains_iff {d : Dict κ α} {k : κ} : d.contains k = true ↔ ∃ v, d.get k = some v := by
  simp [contains, Option.isSome_iff_exists]

theorem get_map (f : κ → α → β) (d : Dict κ α) (k : κ) :
    (d.map f).get k = (d.get k).map (f k) := by
  obtain ⟨l, hl⟩ := d
  simp only [map, get]
  induction l with
  | nil => rfl
  | cons e l ih =>
    simp only [List.map_cons, Assoc.find_cons]
    split
    · next he => simp [← he]
    · exact ih (List.pairwise_cons.mp hl).2

theorem get_adjust (d : Dict κ α) (f : β → α → α) (amounts : Dict κ β) (k : κ) :
    (d.adjust f amounts).get k =
      (d.get k).map (fun a => ((amounts.get k).map (fun b => f b a)).getD a) :=
  get_map _ d k

/-- What `ofList` has under a key is one of the entries of that key. -/
theorem mem_of_get_ofList {l : List (κ × α)} {k : κ} {v : α} (h : (ofList l).get k = some v) :
    (k, v) ∈ l := by
  have hfold : ∀ (l : List (κ × α)) (d : Dict κ α),
      (l.foldl (fun d e => d.set e.1 e.2) d).get k = some v → (k, v) ∈ l ∨ d.get k = some v := by
    intro l
    induction l with
    | nil => exact fun d h => .inr h
    | cons e l ih =>
      intro d h
      rcases ih _ h with h | h
      · exact .inl (List.mem_cons_of_mem _ h)
      · rw [get_set] at h
        split at h
        · next he =>
          cases h
          exact .inl (by simp [← he])
        · exact .inr h
  rcases hfold l ∅ h with h | h
  · exact h
  · cases h

theorem exists_get_ofList {l : List (κ × α)} (h : l ≠ []) : ∃ k v, (ofList l).get k = some v := by
  obtain ⟨init, e, rfl⟩ := List.eq_nil_or_concat l |>.resolve_left h
  refine ⟨e.1, e.2, ?_⟩
  rw [List.concat_eq_append, ofList, List.foldl_append]
  exact get_set_self _ _ _

theorem get_ofList_of_nodup {l : List (κ × α)} (h : (l.map Prod.fst).Nodup) (k : κ) :
    (ofList l).get k = Assoc.find l k := by
  have hfold : ∀ (l : List (κ × α)) (d : Dict κ α), (l.map Prod.fst).Nodup →
      (l.foldl (fun d e => d.set e.1 e.2) d).get k = (Assoc.find l k).or (d.get k) := by
    intro l
    induction l with
    | nil => exact fun d _ => rfl
    | cons e l ih =>
      intro d hnodup
      obtain ⟨hnot, hnodup⟩ := List.nodup_cons.mp hnodup
      rw [List.foldl_cons, ih _ hnodup, get_set, Assoc.find_cons]
      by_cases hk : e.1 = k
      · rw [if_pos hk, if_pos hk, Assoc.find_eq_none.mpr (hk ▸ hnot)]
        rfl
      · rw [if_neg hk, if_neg hk]
  rw [ofList, hfold l ∅ h]
  exact Option.or_none

/-- The order of entries with keys of their own does not matter. -/
theorem ofList_perm {l m : List (κ × α)} (hl : (l.map Prod.fst).Nodup) (h : m.Perm l) :
    ofList m = ofList l := by
  have hm : (m.map Prod.fst).Nodup := (h.map Prod.fst).nodup_iff.mpr hl
  apply ext_get
  intro k
  rw [get_ofList_of_nodup hm, get_ofList_of_nodup hl]
  apply Option.ext
  intro v
  constructor
  · intro hfind
    exact Assoc.find_of_mem_nodup hl (h.mem_iff.mp (Assoc.mem_of_find hfind))
  · intro hfind
    exact Assoc.find_of_mem_nodup hm (h.mem_iff.mpr (Assoc.mem_of_find hfind))

/-- Every key of an entry is in the dictionary. -/
theorem isSome_get_ofList {l : List (κ × α)} {k : κ} (h : k ∈ l.map Prod.fst) :
    ((ofList l).get k).isSome = true := by
  have hfold : ∀ (l : List (κ × α)) (d : Dict κ α), k ∈ l.map Prod.fst ∨ (d.get k).isSome = true →
      ((l.foldl (fun d e => d.set e.1 e.2) d).get k).isSome = true := by
    intro l
    induction l with
    | nil => exact fun d h => h.resolve_left List.not_mem_nil
    | cons e l ih =>
      intro d h
      refine ih _ ?_
      rw [get_set]
      by_cases hk : e.1 = k
      · rw [if_pos hk]
        exact .inr rfl
      · rw [if_neg hk]
        exact h.imp_left fun h => (List.mem_cons.mp h).resolve_left fun heq => hk heq.symm
  exact hfold l ∅ (.inl h)

/-- Where a key has one value, neither the order of the entries nor how often they are there
matters. -/
theorem ofList_congr {l m : List (κ × α)} (hmem : ∀ e, e ∈ l ↔ e ∈ m)
    (hvalue : ∀ e ∈ l, ∀ f ∈ l, e.1 = f.1 → e.2 = f.2) : ofList l = ofList m := by
  apply ext_get
  intro k
  cases hl : (ofList l).get k with
  | none =>
    cases hm : (ofList m).get k with
    | none => rfl
    | some v =>
      have hin := (hmem _).mpr (mem_of_get_ofList hm)
      have hsome := isSome_get_ofList (@List.mem_map_of_mem _ _ _ _ Prod.fst hin)
      rw [hl] at hsome
      cases hsome
  | some v =>
    have hin := mem_of_get_ofList hl
    have hsome := isSome_get_ofList (@List.mem_map_of_mem _ _ _ _ Prod.fst ((hmem _).mp hin))
    obtain ⟨w, hw⟩ := Option.isSome_iff_exists.mp hsome
    have hsame : v = w := hvalue _ hin _ ((hmem _).mpr (mem_of_get_ofList hw)) rfl
    rw [hsame]
    exact hw.symm

/-- As many keys as there are entries: each entry has a key of its own. -/
theorem nodup_of_length {l : List (κ × α)} (h : (ofList l).keys.length = l.length) :
    (l.map Prod.fst).Nodup := by
  have hsubset : ∀ k ∈ (ofList l).keys, k ∈ l.map Prod.fst := by
    intro k hk
    obtain ⟨v, hv⟩ := Option.isSome_iff_exists.mp (mem_keys.mp hk)
    exact List.mem_map_of_mem (mem_of_get_ofList hv)
  have hsubperm := List.subperm_of_subset (ofList l).keys_nodup hsubset
  have hperm := hsubperm.perm_of_length_le (by rw [List.length_map, h])
  exact hperm.nodup_iff.mp (ofList l).keys_nodup

theorem length_ofList {l : List (κ × α)} (h : (l.map Prod.fst).Nodup) :
    (ofList l).entries.length = l.length := by
  have hperm : (ofList l).keys.Perm (l.map Prod.fst) := by
    refine (List.perm_ext_iff_of_nodup (keys_nodup _) h).mpr fun k => ?_
    rw [mem_keys, get_ofList_of_nodup h, Assoc.find_isSome]
  have hlength := hperm.length_eq
  rwa [keys, List.length_map, List.length_map] at hlength

theorem ofList_entries (d : Dict κ α) : ofList d.entries = d :=
  ext_get fun k => get_ofList_of_nodup d.keys_nodup k

theorem set_set (d : Dict κ α) (k : κ) (v w : α) : (d.set k v).set k w = d.set k w := by
  apply ext_get
  intro j
  simp only [get_set]
  split <;> rfl

theorem isEmpty_iff {d : Dict κ α} : d.isEmpty = true ↔ d = ∅ := by
  constructor
  · intro h
    apply ext_get
    intro k
    simp [get, List.isEmpty_iff.mp h]
  · rintro rfl
    rfl

/-! ## Sums over the entries -/

section Sum
variable {M : Type} [AddCommMonoid M]

def sum (f : κ → α → M) (d : Dict κ α) : M := (d.entries.map (fun e => f e.1 e.2)).sum

@[simp] theorem sum_empty (f : κ → α → M) : sum f (∅ : Dict κ α) = 0 := rfl

/-- Assignment takes the old entry of the key out of the sum and puts the new one in. -/
theorem sum_set (f : κ → α → M) (d : Dict κ α) (k : κ) (v : α) :
    sum f (d.set k v) + ((d.get k).map (f k)).getD 0 = sum f d + f k v := by
  obtain ⟨l, hl⟩ := d
  simp only [sum, set, get]
  induction l with
  | nil => simp [Assoc.insert]
  | cons e l ih =>
    obtain ⟨hhead, htail⟩ := List.pairwise_cons.mp hl
    have ih := ih htail
    simp only [Assoc.insert, Assoc.find_cons]
    split
    · next hlt =>
      -- the key is below every key of the list: nothing is replaced
      have hnone : Assoc.find l k = none :=
        Assoc.find_eq_none_of_lt (fun x hx => lt_trans hlt (hhead x hx))
      simp only [hnone, ne_of_gt hlt, if_false, List.map_cons, List.sum_cons, Option.map_none,
        Option.getD_none]
      abel
    · split
      · next he =>
        subst he
        simp only [List.map_cons, List.sum_cons, Option.map_some, Option.getD_some]
        abel
      · simp only [List.map_cons, List.sum_cons]
        rw [add_assoc, ih, add_assoc]

theorem sum_set_new (f : κ → α → M) {d : Dict κ α} {k : κ} (v : α) (h : d.get k = none) :
    sum f (d.set k v) = sum f d + f k v := by
  simpa [h] using sum_set f d k v

theorem sum_congr {f g : κ → α → M} {d : Dict κ α} (h : ∀ k v, d.get k = some v → f k v = g k v) :
    sum f d = sum g d := by
  unfold sum
  congr 1
  apply List.map_congr_left
  intro e he
  exact h e.1 e.2 (mem_entries.mp he)

theorem sum_nonneg [PartialOrder M] [IsOrderedAddMonoid M] {f : κ → α → M} {d : Dict κ α}
    (h : ∀ k v, d.get k = some v → 0 ≤ f k v) : 0 ≤ sum f d := by
  apply List.sum_nonneg
  intro x hx
  obtain ⟨e, he, rfl⟩ := List.mem_map.mp hx
  exact h e.1 e.2 (mem_entries.mp he)

theorem sum_eq_zero {f : κ → α → M} {d : Dict κ α} (h : ∀ k v, d.get k = some v → f k v = 0) :
    sum f d = 0 := by
  apply List.sum_eq_zero
  intro x hx
  obtain ⟨e, he, rfl⟩ := List.mem_map.mp hx
  exact h e.1 e.2 (mem_entries.mp he)

end Sum

end Dict
