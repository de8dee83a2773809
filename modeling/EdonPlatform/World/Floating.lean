import EdonPlatform.Lib.Doubles
import EdonPlatform.World.Mutations

/- Mutations on doubles (edon/world/store.py, `normalize_mutations` and
   `apply_mutations`). `World.Mutations` has exact numbers, all of them finite; here a
   float is a double, so an INCREMENT may leave an infinity, and the checks with
   `json.dumps(.., allow_nan=False)` may fail.

   What is proved:
     1. `finite_applyAll` — mutations with finite values keep a state finite as long as
        no sum overflows.
     2. `applyMutations_ok` — what `apply_mutations` returns, and when.

   Correspondence (Python ↔ Lean):
     `json.dumps(value, allow_nan=False)` ↔ `Json.finite`
     `_json_object`                       ↔ `Floating.jsonObject`
     `normalize_mutations`                ↔ `Floating.normalizeMutations`
     `apply_mutations`                    ↔ `Floating.applyMutations`

   A NaN is turned away wherever an infinity is, and no sum of finite numbers is one,
   so the two infinities are the only values that are not finite. -/
namespace Edon

namespace Json

mutual
/-- Every float in the value is a finite double. -/
def finite : Json → Bool
  | .float q => Doubles.finite q
  | .arr xs => finiteList xs
  | .obj kvs => finiteFields kvs
  | _ => true

def finiteList : List Json → Bool
  | [] => true
  | x :: xs => finite x && finiteList xs

def finiteFields : List (String × Json) → Bool
  | [] => true
  | (_, v) :: kvs => finite v && finiteFields kvs
end

theorem finiteList_iff {xs : List Json} : finiteList xs = true ↔ ∀ x ∈ xs, finite x = true := by
  induction xs with
  | nil => simp [finiteList]
  | cons x xs ih => simp [finiteList, ih]

theorem finiteFields_iff {kvs : List (String × Json)} :
    finiteFields kvs = true ↔ ∀ e ∈ kvs, finite e.2 = true := by
  induction kvs with
  | nil => simp [finiteFields]
  | cons e kvs ih => simp [finiteFields, ih]

theorem mem_sortKeys {l : List (String × Json)} {x : String × Json} (h : x ∈ Assoc.sortKeys l) :
    x ∈ l := by
  induction l with
  | nil => cases h
  | cons e l ih =>
    rcases Assoc.mem_insert h with rfl | h
    · exact List.mem_cons_self
    · exact List.mem_cons_of_mem _ (ih h)

theorem finite_canon {v : Json} (h : v.finite = true) : v.canon.finite = true := by
  induction v using induct with
  | arr xs ih =>
    rw [finite, finiteList_iff] at h
    rw [canon, finite, finiteList_iff, canonList_eq_map]
    intro y hy
    obtain ⟨x, hx, rfl⟩ := List.mem_map.mp hy
    exact ih x hx (h x hx)
  | obj kvs ih =>
    rw [finite, finiteFields_iff] at h
    rw [canon, finite, finiteFields_iff]
    intro e he
    obtain ⟨f, hf, rfl⟩ := mem_canonFields (mem_sortKeys he)
    exact ih f hf (h f hf)
  | _ => exact h

end Json

namespace World

/-- The value a mutation carries, if any, is finite. -/
def Mutation.finite : Mutation → Bool
  | .edit _ _ value => value.finite
  | .delete _ => true
  | .replaceRoot value => value.finite

/-- The value at a path of keys. -/
def valueAt : List String → Fields → Option Json
  | [], _ => none
  | [key], node => Assoc.find node key
  | part :: rest, node =>
    match Assoc.find node part with
    | some (.obj child) => valueAt rest child
    | _ => none

namespace Floating
open Json Fallible Doubles

/-! ## Normalization -/

def jsonObject (value : Json) (label : String) : Except PyError Fields := do
  let fields ← World.jsonObject value label
  if value.finite then .ok fields
  else .error (worldError (label ++ " must contain only finite JSON values"))

section
variable (py : Python)

/-- The last check of the loop's body. -/
def normalizeMutation (index : Nat) (mutation : Json) : Except PyError Mutation := do
  let m ← World.normalizeMutation py index mutation
  if m.finite then .ok m else .error (worldError "mutation value must be finite JSON")

def normalizeFrom : Nat → List Json → Except PyError (List Mutation)
  | _, [] => .ok []
  | index, mutation :: rest => do
    let m ← normalizeMutation py index mutation
    let ms ← normalizeFrom (index + 1) rest
    return m :: ms

def normalizeMutations (mutations : List Json) : Except PyError (List Mutation) := do
  let normalized ← normalizeFrom py 0 mutations
  if normalized = [] then
    .error (worldError "an event must contain at least one mutation")
  else if normalized.any Mutation.isReplaceRoot ∧ normalized.length ≠ 1 then
    .error (worldError "REPLACE_ROOT cannot be combined with other mutations")
  else .ok normalized

end

/-! ## Application -/

section
variable (d : Rounding)

/-- `float(x)`, which raises on an integer past the doubles. -/
def double : Int ⊕ Rat → Except PyError Rat
  | .inl n => orRaise ⟨.overflowError, "int too large to convert to float"⟩ (d.ofInt n)
  | .inr q => .ok q

/-- Python's `+` on numbers: integers stay integers, others are added as doubles. -/
def add : Int ⊕ Rat → Int ⊕ Rat → Except PyError Json
  | .inl a, .inl b => .ok (.int (a + b))
  | a, b => do
    let p ← double d a
    let q ← double d b
    return .float (d.add p q)

def editValue (op : Edit) (path : List String) (current : Option Json) (value : Json) :
    Except PyError Json :=
  match op with
  | .increment =>
    match current.bind number with
    | none => .error (worldError ("increment target is not numeric: " ++ dotted path))
    | some a =>
      match number value with
      | none => .error (worldError "increment value must be numeric")
      | some b => add d a b
  | op => World.editValue op path current value

def applyEdit (op : Edit) (path : List String) (value : Json) (node : Fields) (key : String) :
    Except PyError Fields := do
  let value' ← editValue d op path (Assoc.find node key) value
  return Assoc.put node key value'

def applyMutation (state : Fields) : Mutation → Except PyError Fields
  | .edit op path value => atParent path (applyEdit d op path value) path state
  | .delete path => atParent path (applyDelete path) path state
  | .replaceRoot value => jsonObject value "replacement state"

def applyAll : Fields → List Mutation → Except PyError Fields
  | state, [] => .ok state
  | state, m :: ms => do
    let state' ← applyMutation d state m
    applyAll state' ms

def applyMutations (py : Python) (initialState : Json) (mutations : List Json) :
    Except PyError Json := do
  let state ← jsonObject initialState "initial_state"
  let normalized ← normalizeMutations py mutations
  return .obj (← applyAll d state normalized)

/-! ## Sums that overflow -/

/-- The two numbers are added as doubles, and their sum is past the finite ones. -/
def sumOverflows : Int ⊕ Rat → Int ⊕ Rat → Bool
  | .inl _, .inl _ => false
  | a, b =>
    match double d a, double d b with
    | .ok p, .ok q => overflows p q
    | _, _ => false

def incrementOverflows (state : Fields) : Mutation → Bool
  | .edit .increment path value =>
    match (valueAt path state).bind number, number value with
    | some a, some b => sumOverflows d a b
    | _, _ => false
  | _ => false

/-- Some INCREMENT of the mutations, where the ones before it have been applied, adds two
numbers whose sum overflows. -/
def someOverflows : Fields → List Mutation → Bool
  | _, [] => false
  | state, m :: ms =>
    incrementOverflows d state m ||
      match applyMutation d state m with
      | .ok state' => someOverflows state' ms
      | .error _ => false

end

/-! ## Normalization accepts the finite mutations -/

section
variable {py : Python}

theorem jsonObject_ok {value : Json} {label : String} {fields : Fields} :
    jsonObject value label = .ok fields ↔ value = .obj fields ∧ value.finite = true := by
  cases value <;> simp [jsonObject, World.jsonObject, bind, Except.bind]
  split <;> simp_all

theorem normalizeMutation_ok {index : Nat} {raw : Json} {m : Mutation} :
    normalizeMutation py index raw = .ok m ↔
      World.normalizeMutation py index raw = .ok m ∧ m.finite = true := by
  constructor
  · intro h
    obtain ⟨m', hm, h⟩ := bind_ok.mp h
    split at h
    · next hfinite =>
      cases h
      exact ⟨hm, hfinite⟩
    · cases h
  · rintro ⟨hm, hfinite⟩
    exact bind_ok.mpr ⟨m, hm, if_pos hfinite⟩

theorem normalizeFrom_ok {raws : List Json} : ∀ {index : Nat} {ms : List Mutation},
    normalizeFrom py index raws = .ok ms ↔
      World.normalizeFrom py index raws = .ok ms ∧ ∀ m ∈ ms, m.finite = true := by
  induction raws with
  | nil =>
    intro index ms
    constructor
    · intro h
      cases h
      exact ⟨rfl, by simp⟩
    · exact fun h => h.1
  | cons raw raws ih =>
    intro index ms
    constructor
    · intro h
      obtain ⟨m, hm, h⟩ := bind_ok.mp h
      obtain ⟨rest, hrest, h⟩ := bind_ok.mp h
      cases h
      obtain ⟨hm, hfinite⟩ := normalizeMutation_ok.mp hm
      obtain ⟨hrest, hall⟩ := ih.mp hrest
      refine ⟨bind_ok.mpr ⟨m, hm, bind_ok.mpr ⟨rest, hrest, rfl⟩⟩, ?_⟩
      intro n hn
      rcases List.mem_cons.mp hn with rfl | hn
      · exact hfinite
      · exact hall n hn
    · rintro ⟨h, hall⟩
      obtain ⟨m, hm, h⟩ := bind_ok.mp h
      obtain ⟨rest, hrest, h⟩ := bind_ok.mp h
      cases h
      have hhead := normalizeMutation_ok.mpr ⟨hm, hall m List.mem_cons_self⟩
      have htail := ih.mpr ⟨hrest, fun n hn => hall n (List.mem_cons_of_mem _ hn)⟩
      exact bind_ok.mpr ⟨m, hhead, bind_ok.mpr ⟨rest, htail, rfl⟩⟩

theorem normalizeMutations_ok {raws : List Json} {ms : List Mutation} :
    normalizeMutations py raws = .ok ms ↔
      World.normalizeMutations py raws = .ok ms ∧ ∀ m ∈ ms, m.finite = true := by
  constructor
  · intro h
    obtain ⟨normalized, hfrom, h⟩ := bind_ok.mp h
    obtain ⟨hfrom, hall⟩ := normalizeFrom_ok.mp hfrom
    have hsame : normalized = ms := by
      split at h
      · cases h
      · split at h
        · cases h
        · cases h
          rfl
    subst hsame
    exact ⟨bind_ok.mpr ⟨normalized, hfrom, h⟩, hall⟩
  · rintro ⟨h, hall⟩
    obtain ⟨normalized, hfrom, h⟩ := bind_ok.mp h
    have hsame : normalized = ms := by
      split at h
      · cases h
      · split at h
        · cases h
        · cases h
          rfl
    subst hsame
    exact bind_ok.mpr ⟨normalized, normalizeFrom_ok.mpr ⟨hfrom, hall⟩, h⟩

end

/-! ## Finite states stay finite -/

section
variable {d : Rounding}

theorem mem_put {l : Fields} {k : String} {v : Json} {x : String × Json}
    (h : x ∈ Assoc.put l k v) : x = (k, v) ∨ x ∈ l := by
  induction l with
  | nil => exact .inl (List.mem_singleton.mp h)
  | cons e l ih =>
    unfold Assoc.put at h
    split at h
    · rcases List.mem_cons.mp h with rfl | h
      · exact .inl rfl
      · exact .inr (List.mem_cons_of_mem _ h)
    · rcases List.mem_cons.mp h with rfl | h
      · exact .inr List.mem_cons_self
      · exact (ih h).imp_right (List.mem_cons_of_mem _)

theorem finite_put {l : Fields} {k : String} {v : Json} (hl : finiteFields l = true)
    (hv : v.finite = true) : finiteFields (Assoc.put l k v) = true := by
  rw [finiteFields_iff] at hl ⊢
  intro x hx
  rcases mem_put hx with rfl | hx
  · exact hv
  · exact hl x hx

theorem finite_remove {l : Fields} (k : String) (hl : finiteFields l = true) :
    finiteFields (Assoc.remove l k) = true := by
  rw [finiteFields_iff] at hl ⊢
  exact fun x hx => hl x (List.mem_of_mem_filter hx)

theorem finite_find {l : Fields} {k : String} {v : Json} (hl : finiteFields l = true)
    (h : Assoc.find l k = some v) : v.finite = true :=
  finiteFields_iff.mp hl _ (Assoc.mem_of_find h)

theorem finite_double {v : Json} {n : Int ⊕ Rat} {q : Rat} (hv : v.finite = true)
    (hn : number v = some n) (hq : double d n = .ok q) : Doubles.finite q = true := by
  cases v with
  | int n =>
    cases hn
    exact d.finite_ofInt (orRaise_ok.mp hq)
  | float p =>
    cases hn
    cases hq
    exact hv
  | _ => cases hn

/-- The two numbers are added as integers, or as doubles whose sum does not overflow. -/
theorem finite_sum {v w : Json} {a b : Int ⊕ Rat} {sum : Json} (hv : v.finite = true)
    (hw : w.finite = true) (ha : number v = some a) (hb : number w = some b)
    (hno : sumOverflows d a b = false) (h : add d a b = .ok sum) : sum.finite = true := by
  have hdoubles : ∀ p q, double d a = .ok p → double d b = .ok q → overflows p q = false →
      Doubles.finite (d.add p q) = true := fun p q hp hq =>
    d.finite_add (finite_double hv ha hp) (finite_double hw hb hq)
  cases a with
  | inl m =>
    cases b with
    | inl n =>
      cases h
      rfl
    | inr q =>
      obtain ⟨p, hp, h⟩ := bind_ok.mp h
      obtain ⟨q', hq, h⟩ := bind_ok.mp h
      cases h
      simp only [sumOverflows, hp, hq] at hno
      exact hdoubles p q' hp hq hno
  | inr p =>
    obtain ⟨p', hp, h⟩ := bind_ok.mp h
    obtain ⟨q, hq, h⟩ := bind_ok.mp h
    cases h
    simp only [sumOverflows, hp, hq] at hno
    exact hdoubles p' q hp hq hno

theorem finite_editValue {op : Edit} {path : List String} {current : Option Json}
    {value v : Json} (hcurrent : ∀ c, current = some c → c.finite = true)
    (hvalue : value.finite = true)
    (hno : op = .increment → ∀ a b, current.bind number = some a → number value = some b →
      sumOverflows d a b = false)
    (h : editValue d op path current value = .ok v) : v.finite = true := by
  cases op with
  | set =>
    cases h
    exact hvalue
  | increment =>
    simp only [editValue] at h
    split at h
    · cases h
    · next a ha =>
      obtain ⟨c, hc, hca⟩ := Option.bind_eq_some_iff.mp ha
      split at h
      · cases h
      · next b hb =>
        exact finite_sum (hcurrent c hc) hvalue hca hb (hno rfl a b ha hb) h
  | appendUnique =>
    simp only [editValue, World.editValue] at h
    split at h
    · next xs =>
      cases h
      have hxs := finiteList_iff.mp (hcurrent _ rfl)
      split
      · exact finiteList_iff.mpr hxs
      · refine finiteList_iff.mpr ?_
        intro x hx
        rcases List.mem_append.mp hx with hx | hx
        · exact hxs x hx
        · rw [List.mem_singleton.mp hx]
          exact hvalue
    · cases h
  | remove =>
    simp only [editValue, World.editValue] at h
    split at h
    · next xs =>
      cases h
      have hxs := finiteList_iff.mp (hcurrent _ rfl)
      exact finiteList_iff.mpr (fun x hx => hxs x (List.mem_of_mem_eraseP hx))
    · cases h

/-- The induction is on the path; `f` acts on the dictionary that holds its last key. -/
theorem finite_atParent {whole : List String} {f : Fields → String → Except PyError Fields}
    {path : List String} : ∀ {state state' : Fields}, finiteFields state = true →
    (∀ node key node', finiteFields node = true → Assoc.find node key = valueAt path state →
      f node key = .ok node' → finiteFields node' = true) →
    atParent whole f path state = .ok state' → finiteFields state' = true := by
  induction path with
  | nil =>
    intro state state' _ _ h
    cases h
  | cons part rest ih =>
    intro state state' hstate hf h
    cases rest with
    | nil => exact hf state part state' hstate rfl h
    | cons key rest =>
      simp only [atParent] at h
      split at h
      · next child hchild =>
        obtain ⟨child', hchild', h⟩ := bind_ok.mp h
        cases h
        have hat : valueAt (part :: key :: rest) state = valueAt (key :: rest) child := by
          simp only [valueAt, hchild]
        have hfinite : finiteFields child = true := finite_find hstate hchild
        exact finite_put hstate (ih hfinite (fun node k node' hnode hfind =>
          hf node k node' hnode (hfind.trans hat.symm)) hchild')
      · cases h

theorem finite_applyMutation {state state' : Fields} {m : Mutation}
    (hstate : finiteFields state = true) (hm : m.finite = true)
    (hno : incrementOverflows d state m = false) (h : applyMutation d state m = .ok state') :
    finiteFields state' = true := by
  cases m with
  | edit op path value =>
    refine finite_atParent hstate ?_ h
    intro node key node' hnode hfind hedit
    obtain ⟨v, hv, hedit⟩ := bind_ok.mp hedit
    cases hedit
    refine finite_put hnode (finite_editValue (fun c hc => finite_find hnode hc) hm ?_ hv)
    intro hop a b ha hb
    subst hop
    rw [hfind] at ha
    simp only [incrementOverflows, ha, hb] at hno
    exact hno
  | delete path =>
    refine finite_atParent hstate ?_ h
    intro node key node' hnode _ hdelete
    unfold applyDelete at hdelete
    split at hdelete
    · cases hdelete
      exact finite_remove key hnode
    · cases hdelete
  | replaceRoot value =>
    obtain ⟨rfl, hfinite⟩ := jsonObject_ok.mp h
    exact hfinite

/-- Mutations with finite values keep a state finite as long as no sum overflows. -/
theorem finite_applyAll {ms : List Mutation} : ∀ {state state' : Fields},
    finiteFields state = true → (∀ m ∈ ms, m.finite = true) → someOverflows d state ms = false →
    applyAll d state ms = .ok state' → finiteFields state' = true := by
  induction ms with
  | nil =>
    intro state state' hstate _ _ h
    cases h
    exact hstate
  | cons m ms ih =>
    intro state state' hstate hms hno h
    obtain ⟨next, hnext, h⟩ := bind_ok.mp h
    simp only [someOverflows, hnext, Bool.or_eq_false_iff] at hno
    have hfirst := finite_applyMutation hstate (hms m List.mem_cons_self) hno.1 hnext
    exact ih hfirst (fun n hn => hms n (List.mem_cons_of_mem _ hn)) hno.2 h

/-- What `apply_mutations` returns, and when. -/
theorem applyMutations_ok {py : Python} {initial : Json} {raws : List Json} {v : Json} :
    applyMutations d py initial raws = .ok v ↔ ∃ state ms state',
      initial = .obj state ∧ finiteFields state = true ∧
      normalizeMutations py raws = .ok ms ∧ applyAll d state ms = .ok state' ∧
      v = .obj state' := by
  constructor
  · intro h
    obtain ⟨state, hstate, h⟩ := bind_ok.mp h
    obtain ⟨ms, hms, h⟩ := bind_ok.mp h
    obtain ⟨state', happly, h⟩ := bind_ok.mp h
    cases h
    obtain ⟨hobj, hfinite⟩ := jsonObject_ok.mp hstate
    subst hobj
    exact ⟨state, ms, state', rfl, hfinite, hms, happly, rfl⟩
  · rintro ⟨state, ms, state', rfl, hfinite, hms, happly, rfl⟩
    have hstate : jsonObject (.obj state) "initial_state" = .ok state :=
      jsonObject_ok.mpr ⟨rfl, hfinite⟩
    exact bind_ok.mpr ⟨state, hstate, bind_ok.mpr ⟨ms, hms, bind_ok.mpr ⟨state', happly, rfl⟩⟩⟩

end

end Floating
end World
end Edon
