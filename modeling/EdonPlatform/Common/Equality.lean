import EdonPlatform.Common.Json

/- Python's `==` is an equivalence: values are equal exactly when they have the same plain form,
   with the keys of every object sorted and every number and truth value the float it counts as. -/
namespace Edon.Json

mutual
/-- The value with its numbers and truth values as floats. -/
def plain : Json → Json
  | .null => .null
  | .bool b => .float (if b then 1 else 0)
  | .int n => .float n
  | .float q => .float q
  | .str s => .str s
  | .arr xs => .arr (plainList xs)
  | .obj kvs => .obj (plainFields kvs)

def plainList : List Json → List Json
  | [] => []
  | x :: xs => plain x :: plainList xs

def plainFields : List (String × Json) → List (String × Json)
  | [] => []
  | (k, v) :: kvs => (k, plain v) :: plainFields kvs
end

theorem eqvList_iff {xs : List Json} (ih : ∀ x ∈ xs, ∀ y, eqv x y = true ↔ plain x = plain y) :
    ∀ ys, eqvList xs ys = true ↔ plainList xs = plainList ys := by
  induction xs with
  | nil => intro ys; cases ys <;> simp [eqvList, plainList]
  | cons x xs ihl =>
    intro ys
    have ihl := ihl (fun x hx => ih x (List.mem_cons_of_mem _ hx))
    cases ys with
    | nil => simp [eqvList, plainList]
    | cons y ys => simp [eqvList, plainList, ih x List.mem_cons_self y, ihl ys]

theorem eqvFields_iff {kvs : List (String × Json)}
    (ih : ∀ e ∈ kvs, ∀ y, eqv e.2 y = true ↔ plain e.2 = plain y) :
    ∀ kws, eqvFields kvs kws = true ↔ plainFields kvs = plainFields kws := by
  induction kvs with
  | nil => intro kws; cases kws <;> simp [eqvFields, plainFields]
  | cons e kvs ihl =>
    intro kws
    have ihl := ihl (fun x hx => ih x (List.mem_cons_of_mem _ hx))
    obtain ⟨k, v⟩ := e
    cases kws with
    | nil => simp [eqvFields, plainFields]
    | cons f kws =>
      obtain ⟨l, w⟩ := f
      simp [eqvFields, plainFields, ih (k, v) List.mem_cons_self w, ihl kws, and_assoc]

theorem eqv_iff (v : Json) : ∀ w, eqv v w = true ↔ plain v = plain w := by
  induction v using induct with
  | arr xs ih => intro w; cases w <;> simp [eqv, plain, eqvList_iff ih]
  | obj kvs ih => intro w; cases w <;> simp [eqv, plain, eqvFields_iff ih]
  | _ => intro w; cases w <;> simp [eqv, plain, numeric]

/-- **Python's `==` compares plain forms.** -/
theorem pyEq_iff {v w : Json} : pyEq v w = true ↔ plain (canon v) = plain (canon w) := eqv_iff _ _

theorem pyEq_refl (v : Json) : pyEq v v = true := pyEq_iff.mpr rfl

theorem pyEq_symm {v w : Json} (h : pyEq v w = true) : pyEq w v = true :=
  pyEq_iff.mpr (pyEq_iff.mp h).symm

theorem pyEq_trans {u v w : Json} (huv : pyEq u v = true) (hvw : pyEq v w = true) :
    pyEq u w = true :=
  pyEq_iff.mpr ((pyEq_iff.mp huv).trans (pyEq_iff.mp hvw))

end Edon.Json
