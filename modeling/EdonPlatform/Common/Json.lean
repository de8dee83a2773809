import EdonPlatform.Lib.Dict
import Mathlib.Data.String.Basic
import Mathlib.Data.Rat.Defs
import Mathlib.Algebra.Order.Ring.Rat

/- JSON values as Python holds them after `json.loads`, with exact numbers: an
   integer literal is an `int`, a literal with a fraction or an exponent a `float`,
   here the rational it denotes. An object is the list of its entries in insertion
   order.

   `canon` sorts the keys of every object. It is what a value becomes when it is
   written with `canonical_json` (`sort_keys=True`) into a text column and read back
   with `json.loads`, so the columns of the stores hold canonical values. `Same`
   relates values that differ only in the order of their keys; Python's `==`
   (`pyEq`) ignores that order, and also equates a number with the bool of the same
   value. -/
namespace Edon

inductive Json where
  | null
  | bool (b : Bool)
  | int (n : Int)
  | float (q : Rat)
  | str (s : String)
  | arr (xs : List Json)
  | obj (kvs : List (String × Json))

namespace Json

/-- Induction over a value, with the hypothesis for every element and every entry. -/
theorem induct {P : Json → Prop} (null : P .null) (bool : ∀ b, P (.bool b))
    (int : ∀ n, P (.int n)) (float : ∀ q, P (.float q)) (str : ∀ s, P (.str s))
    (arr : ∀ xs, (∀ x ∈ xs, P x) → P (.arr xs))
    (obj : ∀ kvs, (∀ e ∈ kvs, P e.2) → P (.obj kvs)) : ∀ v, P v
  | .null => null
  | .bool b => bool b
  | .int n => int n
  | .float q => float q
  | .str s => str s
  | .arr xs => arr xs (fun x _ => induct null bool int float str arr obj x)
  | .obj kvs => obj kvs (fun e _ => induct null bool int float str arr obj e.2)
termination_by v => sizeOf v
decreasing_by
  · simp only [Json.arr.sizeOf_spec]
    have := List.sizeOf_lt_of_mem ‹x ∈ xs›
    omega
  · have h := List.sizeOf_lt_of_mem ‹e ∈ kvs›
    cases e
    simp only [Prod.mk.sizeOf_spec, Json.obj.sizeOf_spec] at h ⊢
    omega

/-! ## Equality of values, entry by entry -/

mutual
def beq : Json → Json → Bool
  | .null, .null => true
  | .bool a, .bool b => a == b
  | .int a, .int b => a == b
  | .float a, .float b => a == b
  | .str a, .str b => a == b
  | .arr xs, .arr ys => beqList xs ys
  | .obj kvs, .obj kws => beqFields kvs kws
  | _, _ => false

def beqList : List Json → List Json → Bool
  | [], [] => true
  | x :: xs, y :: ys => beq x y && beqList xs ys
  | _, _ => false

def beqFields : List (String × Json) → List (String × Json) → Bool
  | [], [] => true
  | (k, v) :: kvs, (l, w) :: kws => k == l && beq v w && beqFields kvs kws
  | _, _ => false
end

theorem beqList_iff {xs : List Json} (ih : ∀ x ∈ xs, ∀ y, beq x y = true ↔ x = y) :
    ∀ ys, beqList xs ys = true ↔ xs = ys := by
  induction xs with
  | nil => intro ys; cases ys <;> simp [beqList]
  | cons x xs ihl =>
    intro ys
    have ihl := ihl (fun x hx => ih x (List.mem_cons_of_mem _ hx))
    cases ys with
    | nil => simp [beqList]
    | cons y ys => simp [beqList, ih x List.mem_cons_self y, ihl ys]

theorem beqFields_iff {kvs : List (String × Json)}
    (ih : ∀ e ∈ kvs, ∀ y, beq e.2 y = true ↔ e.2 = y) :
    ∀ kws, beqFields kvs kws = true ↔ kvs = kws := by
  induction kvs with
  | nil => intro kws; cases kws <;> simp [beqFields]
  | cons e kvs ihl =>
    intro kws
    have ihl := ihl (fun x hx => ih x (List.mem_cons_of_mem _ hx))
    obtain ⟨k, v⟩ := e
    cases kws with
    | nil => simp [beqFields]
    | cons f kws =>
      obtain ⟨l, w⟩ := f
      simp [beqFields, ih (k, v) List.mem_cons_self w, ihl kws]

theorem beq_iff (v : Json) : ∀ w, beq v w = true ↔ v = w := by
  induction v using induct with
  | null => intro w; cases w <;> simp [beq]
  | bool b => intro w; cases w <;> simp [beq]
  | int n => intro w; cases w <;> simp [beq]
  | float q => intro w; cases w <;> simp [beq]
  | str s => intro w; cases w <;> simp [beq]
  | arr xs ih => intro w; cases w <;> simp [beq, beqList_iff ih]
  | obj kvs ih => intro w; cases w <;> simp [beq, beqFields_iff ih]

instance : DecidableEq Json := fun v w => decidable_of_iff (beq v w = true) (beq_iff v w)

/-! ## Key order -/

mutual
/-- The value as `json.loads` reads back what `canonical_json` wrote. -/
def canon : Json → Json
  | .null => .null
  | .bool b => .bool b
  | .int n => .int n
  | .float q => .float q
  | .str s => .str s
  | .arr xs => .arr (canonList xs)
  | .obj kvs => .obj (Assoc.sortKeys (canonFields kvs))

def canonList : List Json → List Json
  | [] => []
  | x :: xs => canon x :: canonList xs

def canonFields : List (String × Json) → List (String × Json)
  | [] => []
  | (k, v) :: kvs => (k, canon v) :: canonFields kvs
end

theorem canonList_eq_map (xs : List Json) : canonList xs = xs.map canon := by
  induction xs with
  | nil => rfl
  | cons x xs ih => rw [canonList, ih, List.map_cons]

theorem find_canonFields (kvs : List (String × Json)) (k : String) :
    Assoc.find (canonFields kvs) k = (Assoc.find kvs k).map canon := by
  induction kvs with
  | nil => rfl
  | cons e kvs ih =>
    obtain ⟨j, v⟩ := e
    simp only [canonFields, Assoc.find_cons, ih]
    split <;> rfl

theorem mem_canonFields {kvs : List (String × Json)} {e : String × Json}
    (h : e ∈ canonFields kvs) : ∃ f ∈ kvs, e = (f.1, canon f.2) := by
  induction kvs with
  | nil => cases h
  | cons f kvs ih =>
    obtain ⟨k, v⟩ := f
    rcases List.mem_cons.mp h with rfl | h
    · exact ⟨(k, v), by simp, rfl⟩
    · obtain ⟨f, hf, rfl⟩ := ih h
      exact ⟨f, List.mem_cons_of_mem _ hf, rfl⟩

/-- Equal up to the order of keys. -/
def Same (v w : Json) : Prop := canon v = canon w

/-- Objects equal up to the order of keys, here and inside their values. -/
def SameFields (kvs kws : List (String × Json)) : Prop :=
  ∀ k, (Assoc.find kvs k).map canon = (Assoc.find kws k).map canon

theorem same_obj_iff {kvs kws : List (String × Json)} :
    Same (.obj kvs) (.obj kws) ↔ SameFields kvs kws := by
  simp only [Same, canon, obj.injEq, Assoc.sortKeys_eq_iff, find_canonFields, SameFields]

theorem canon_canon (v : Json) : canon (canon v) = canon v := by
  induction v using induct with
  | arr xs ih =>
    simp only [canon, canonList_eq_map, List.map_map, arr.injEq]
    exact List.map_congr_left ih
  | obj kvs ih =>
    simp only [canon, obj.injEq, Assoc.sortKeys_eq_iff]
    intro k
    simp only [find_canonFields, Assoc.find_sortKeys, Option.map_map]
    cases hf : Assoc.find kvs k with
    | none => rfl
    | some v =>
      have := ih (k, v) (Assoc.mem_of_find hf)
      simpa using this
  | _ => rfl

theorem same_canon (v : Json) : Same (canon v) v := canon_canon v

theorem Same.refl (v : Json) : Same v v := rfl

theorem Same.symm {v w : Json} (h : Same v w) : Same w v := Eq.symm h

theorem Same.trans {u v w : Json} (h₁ : Same u v) (h₂ : Same v w) : Same u w := Eq.trans h₁ h₂

/-! ## Python's `==` -/

/-- The number a value counts as in a comparison. -/
def numeric : Json → Option Rat
  | .bool b => some (if b then 1 else 0)
  | .int n => some n
  | .float q => some q
  | _ => none

mutual
/-- `==` on values whose objects have their keys in the same order. -/
def eqv : Json → Json → Bool
  | .null, .null => true
  | .str a, .str b => a == b
  | .arr xs, .arr ys => eqvList xs ys
  | .obj kvs, .obj kws => eqvFields kvs kws
  | .arr _, _ => false
  | .obj _, _ => false
  | v, w =>
    match numeric v, numeric w with
    | some a, some b => a == b
    | _, _ => false

def eqvList : List Json → List Json → Bool
  | [], [] => true
  | x :: xs, y :: ys => eqv x y && eqvList xs ys
  | _, _ => false

def eqvFields : List (String × Json) → List (String × Json) → Bool
  | [], [] => true
  | (k, v) :: kvs, (l, w) :: kws => k == l && eqv v w && eqvFields kvs kws
  | _, _ => false
end

/-- Python's `v == w`: dictionaries are compared without regard to order. -/
def pyEq (v w : Json) : Bool := eqv (canon v) (canon w)

theorem pyEq_congr {v v' w w' : Json} (hv : Same v v') (hw : Same w w') :
    pyEq v w = pyEq v' w' := by
  unfold pyEq
  rw [hv, hw]

theorem eqvList_refl {xs : List Json} (ih : ∀ x ∈ xs, eqv x x = true) : eqvList xs xs = true := by
  induction xs with
  | nil => rfl
  | cons x xs ihl =>
    rw [eqvList, ih x List.mem_cons_self,
      ihl (fun x hx => ih x (List.mem_cons_of_mem _ hx))]
    rfl

theorem eqvFields_refl {kvs : List (String × Json)} (ih : ∀ e ∈ kvs, eqv e.2 e.2 = true) :
    eqvFields kvs kvs = true := by
  induction kvs with
  | nil => rfl
  | cons e kvs ihl =>
    obtain ⟨k, v⟩ := e
    rw [eqvFields, ih (k, v) List.mem_cons_self,
      ihl (fun x hx => ih x (List.mem_cons_of_mem _ hx))]
    simp

theorem eqv_refl (v : Json) : eqv v v = true := by
  induction v using induct with
  | arr xs ih => exact eqvList_refl ih
  | obj kvs ih => exact eqvFields_refl ih
  | _ => simp [eqv, numeric]

theorem pyEq_str {v : Json} {s : String} : pyEq v (.str s) = true ↔ v = .str s := by
  cases v <;> simp [pyEq, canon, eqv, numeric]

theorem pyEq_int {m n : Int} : pyEq (.int m) (.int n) = true ↔ m = n := by
  simp [pyEq, canon, eqv, numeric]

/-- Values equal up to key order are equal in Python. -/
theorem pyEq_of_same {v w : Json} (h : Same v w) : pyEq v w = true := by
  unfold pyEq
  rw [h]
  exact eqv_refl _

end Json
end Edon
