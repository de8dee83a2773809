import EdonPlatform.Common.Python

/- The mutations of an institutional world (edon/world/store.py, `normalize_mutations`
   and `apply_mutations`). A state is the entries of a JSON object. `normalizeMutations`
   checks the raw mutations of a request; `applyMutations` checks them again and
   applies them in order, and stops at the first that fails.

   Correspondence (Python ↔ Lean):
     `_json_object`         ↔ `jsonObject`
     `_path`                ↔ `mutationPath`
     `_parent`              ↔ the descent in `atParent`
     `normalize_mutations`  ↔ `normalizeMutations`
     `apply_mutations`      ↔ `applyMutations`

   The store writes a state with its keys sorted and reads it back before the next
   event, while the verifier folds the mutations in memory. `applyAll_congr` is why
   the two agree: applying mutations to states that differ in the order of their keys
   gives states that differ in the order of their keys, and the same error. -/
namespace Edon.World
open Json

abbrev Fields := List (String × Json)

def worldError (message : String) : PyError := ⟨.worldStateError, message⟩

/-- The operations that need a value and act on one key. -/
inductive Edit where
  | set | increment | appendUnique | remove
  deriving DecidableEq, Repr

def Edit.name : Edit → String
  | .set => "SET"
  | .increment => "INCREMENT"
  | .appendUnique => "APPEND_UNIQUE"
  | .remove => "REMOVE"

/-- A normalized mutation: each carries exactly what its operation needs. -/
inductive Mutation where
  | edit (op : Edit) (path : List String) (value : Json)
  | delete (path : List String)
  | replaceRoot (value : Json)
  deriving DecidableEq

def pathJson (path : List String) : Json := .arr (path.map .str)

/-- The dictionary `normalize_mutations` builds for the mutation. -/
def Mutation.toJson : Mutation → Json
  | .edit op path value => .obj [("op", .str op.name), ("path", pathJson path), ("value", value)]
  | .delete path => .obj [("op", .str "DELETE"), ("path", pathJson path)]
  | .replaceRoot value =>
    .obj [("op", .str "REPLACE_ROOT"), ("path", pathJson []), ("value", value)]

def mutationsJson (ms : List Mutation) : Json := .arr (ms.map Mutation.toJson)

/-- The mutation with its value as it is read back from the database. -/
def Mutation.canon : Mutation → Mutation
  | .edit op path value => .edit op path value.canon
  | .delete path => .delete path
  | .replaceRoot value => .replaceRoot value.canon

/-! ## Normalization -/

def jsonObject (value : Json) (label : String) : Except PyError Fields :=
  match value with
  | .obj kvs => .ok kvs
  | _ => .error (worldError (label ++ " must be a JSON object"))

def partOk (part : String) : Bool := part ≠ "" && part.length ≤ 200

section
variable (py : Python)

def mutationPath (value : Json) (allowRoot : Bool) : Except PyError (List String) :=
  match value with
  | .arr parts =>
    let parts := parts.map (pyStr py)
    if parts = [] ∧ ¬allowRoot then .error (worldError "mutation path cannot be empty")
    else if parts.all partOk then .ok parts
    else .error (worldError "mutation path contains an invalid key")
  | _ => .error (worldError "mutation path must be an array of keys")

/-- `mutation["value"]`, which the operation requires. -/
def requireValue (operation : String) (mutation : Fields) : Except PyError Json :=
  match Assoc.find mutation "value" with
  | some value => .ok value
  | none => .error (worldError (operation ++ " mutation requires value"))

def editNamed (operation : String) : Option Edit :=
  if operation = "SET" then some .set
  else if operation = "INCREMENT" then some .increment
  else if operation = "APPEND_UNIQUE" then some .appendUnique
  else if operation = "REMOVE" then some .remove
  else none

def normalizeMutation (index : Nat) (mutation : Json) : Except PyError Mutation :=
  match mutation with
  | .obj fields => do
    let operation := upper (pyStr py ((Assoc.find fields "op").getD (.str "")))
    let rawPath := (Assoc.find fields "path").getD (.arr [])
    if operation = "REPLACE_ROOT" then
      let path ← mutationPath py rawPath true
      if path ≠ [] then .error (worldError "REPLACE_ROOT requires an empty path")
      return .replaceRoot (← requireValue operation fields)
    else if operation = "DELETE" then
      return .delete (← mutationPath py rawPath false)
    else match editNamed operation with
      | some op =>
        let path ← mutationPath py rawPath false
        return .edit op path (← requireValue operation fields)
      | none =>
        .error (worldError ("unsupported mutation operation: " ++
          if operation = "" then "<missing>" else operation))
  | _ => .error (worldError ("mutation " ++ toString index ++ " must be an object"))

def normalizeFrom : Nat → List Json → Except PyError (List Mutation)
  | _, [] => .ok []
  | index, mutation :: rest => do
    let m ← normalizeMutation py index mutation
    let ms ← normalizeFrom (index + 1) rest
    return m :: ms

def Mutation.isReplaceRoot : Mutation → Bool
  | .replaceRoot _ => true
  | _ => false

def normalizeMutations (mutations : List Json) : Except PyError (List Mutation) := do
  let normalized ← normalizeFrom py 0 mutations
  if normalized = [] then
    .error (worldError "an event must contain at least one mutation")
  else if normalized.any Mutation.isReplaceRoot ∧ normalized.length ≠ 1 then
    .error (worldError "REPLACE_ROOT cannot be combined with other mutations")
  else .ok normalized

end

/-! ## Application -/

/-- A numeric value that is not a bool. -/
def number : Json → Option (Int ⊕ Rat)
  | .int n => some (.inl n)
  | .float q => some (.inr q)
  | _ => none

/-- Python's `+` on numbers: integers stay integers. -/
def add : Int ⊕ Rat → Int ⊕ Rat → Json
  | .inl a, .inl b => .int (a + b)
  | .inl a, .inr q => .float (a + q)
  | .inr p, .inl b => .float (p + b)
  | .inr p, .inr q => .float (p + q)

def dotted (path : List String) : String := ".".intercalate path

/-- The value an edit puts at the last key of `path`, where `current` is. -/
def editValue (op : Edit) (path : List String) (current : Option Json) (value : Json) :
    Except PyError Json :=
  match op with
  | .set => .ok value
  | .increment =>
    match current.bind number with
    | none => .error (worldError ("increment target is not numeric: " ++ dotted path))
    | some a =>
      match number value with
      | none => .error (worldError "increment value must be numeric")
      | some b => .ok (add a b)
  | .appendUnique =>
    match current with
    | some (.arr xs) => .ok (.arr (if xs.any (pyEq value) then xs else xs ++ [value]))
    | _ => .error (worldError ("list mutation target is not a list: " ++ dotted path))
  | .remove =>
    match current with
    | some (.arr xs) => .ok (.arr (xs.eraseP (pyEq value)))
    | _ => .error (worldError ("list mutation target is not a list: " ++ dotted path))

/-- Run `f` on the dictionary that holds the last key of the path, and on that key. -/
def atParent (whole : List String) (f : Fields → String → Except PyError Fields) :
    List String → Fields → Except PyError Fields
  | [], _ => .error (worldError "root mutation does not have a parent")
  | [key], node => f node key
  | part :: rest, node =>
    match Assoc.find node part with
    | some (.obj child) => do
      let child' ← atParent whole f rest child
      return Assoc.put node part (.obj child')
    | _ => .error (worldError ("mutation parent does not exist: " ++ dotted whole.dropLast))

def applyEdit (op : Edit) (path : List String) (value : Json) (node : Fields) (key : String) :
    Except PyError Fields := do
  let value' ← editValue op path (Assoc.find node key) value
  return Assoc.put node key value'

def applyDelete (path : List String) (node : Fields) (key : String) : Except PyError Fields :=
  match Assoc.find node key with
  | some _ => .ok (Assoc.remove node key)
  | none => .error (worldError ("cannot delete missing path: " ++ dotted path))

def applyMutation (state : Fields) : Mutation → Except PyError Fields
  | .edit op path value => atParent path (applyEdit op path value) path state
  | .delete path => atParent path (applyDelete path) path state
  | .replaceRoot value => jsonObject value "replacement state"

/-- The loop of `apply_mutations`, over normalized mutations. -/
def applyAll : Fields → List Mutation → Except PyError Fields
  | state, [] => .ok state
  | state, m :: ms => do
    let state' ← applyMutation state m
    applyAll state' ms

def applyMutations (py : Python) (initialState : Json) (mutations : List Json) :
    Except PyError Json := do
  let state ← jsonObject initialState "initial_state"
  let normalized ← normalizeMutations py mutations
  return .obj (← applyAll state normalized)

/-! ## Mutations do not see the order of keys -/

/-- Two runs that raise the same error or return related values. -/
inductive Related {α β : Type} (R : α → β → Prop) : Except PyError α → Except PyError β → Prop where
  | ok {a : α} {b : β} : R a b → Related R (.ok a) (.ok b)
  | error (e : PyError) : Related R (.error e) (.error e)

theorem Related.bind {α β γ δ : Type} {R : α → β → Prop} {S : γ → δ → Prop}
    {x : Except PyError α} {y : Except PyError β} {f : α → Except PyError γ}
    {g : β → Except PyError δ} (hxy : Related R x y)
    (hfg : ∀ a b, R a b → Related S (f a) (g b)) : Related S (x >>= f) (y >>= g) := by
  cases hxy with
  | ok h => exact hfg _ _ h
  | error e => exact .error e

theorem Related.of_ok {α β : Type} {R : α → β → Prop} {y : Except PyError β} {a : α}
    (h : Related R (.ok a) y) : ∃ b, y = .ok b ∧ R a b := by
  cases h with
  | ok h => exact ⟨_, rfl, h⟩

theorem same_put {a b : Fields} (h : SameFields a b) (k : String) {v w : Json} (hv : Same v w) :
    SameFields (Assoc.put a k v) (Assoc.put b k w) := by
  intro j
  simp only [Assoc.find_put]
  split
  · exact congrArg some hv
  · exact h j

theorem same_remove {a b : Fields} (h : SameFields a b) (k : String) :
    SameFields (Assoc.remove a k) (Assoc.remove b k) := by
  intro j
  simp only [Assoc.find_remove]
  split
  · rfl
  · exact h j

theorem number_congr {v w : Json} (h : Same v w) : number v = number w := by
  cases v <;> cases w <;> simp_all [Same, Json.canon, number]

theorem same_arr {xs : List Json} {w : Json} (h : Same (.arr xs) w) :
    ∃ ys, w = .arr ys ∧ xs.map Json.canon = ys.map Json.canon := by
  cases w with
  | arr ys => exact ⟨ys, rfl, by simpa [Same, Json.canon, canonList_eq_map] using h⟩
  | _ => simp [Same, Json.canon] at h

theorem any_congr {xs ys : List Json} (h : xs.map Json.canon = ys.map Json.canon)
    {v w : Json} (hv : Same v w) : xs.any (pyEq v) = ys.any (pyEq w) := by
  induction xs generalizing ys with
  | nil => cases ys with
    | nil => rfl
    | cons y ys => simp at h
  | cons x xs ih =>
    cases ys with
    | nil => simp at h
    | cons y ys =>
      obtain ⟨hx, hxs⟩ := List.cons.inj h
      rw [List.any_cons, List.any_cons, ih hxs, pyEq_congr hv hx]

theorem eraseP_congr {xs ys : List Json} (h : xs.map Json.canon = ys.map Json.canon)
    {v w : Json} (hv : Same v w) :
    (xs.eraseP (pyEq v)).map Json.canon = (ys.eraseP (pyEq w)).map Json.canon := by
  induction xs generalizing ys with
  | nil => cases ys with
    | nil => rfl
    | cons y ys => simp at h
  | cons x xs ih =>
    cases ys with
    | nil => simp at h
    | cons y ys =>
      obtain ⟨hx, hxs⟩ := List.cons.inj h
      rw [List.eraseP_cons, List.eraseP_cons, pyEq_congr hv hx]
      cases pyEq w y with
      | true => exact hxs
      | false => simp [ih hxs, hx]

theorem same_arr_intro {xs ys : List Json} (h : xs.map Json.canon = ys.map Json.canon) :
    Same (.arr xs) (.arr ys) := by
  simp [Same, Json.canon, canonList_eq_map, h]

theorem editValue_congr (op : Edit) (path : List String) {cur cur' : Option Json}
    (hcur : cur.map Json.canon = cur'.map Json.canon) {v v' : Json} (hv : Same v v') :
    Related Same (editValue op path cur v) (editValue op path cur' v') := by
  have hcases : (cur = none ∧ cur' = none) ∨ ∃ c c', cur = some c ∧ cur' = some c' ∧ Same c c' := by
    cases cur <;> cases cur' <;> simp_all [Same]
  cases op with
  | set => exact .ok hv
  | increment =>
    have hnum : cur.bind number = cur'.bind number := by
      rcases hcases with ⟨rfl, rfl⟩ | ⟨c, c', rfl, rfl, hc⟩
      · rfl
      · exact number_congr hc
    simp only [editValue, hnum, number_congr hv]
    split
    · exact .error _
    · split
      · exact .error _
      · exact .ok (.refl _)
  | appendUnique =>
    rcases hcases with ⟨rfl, rfl⟩ | ⟨c, c', rfl, rfl, hc⟩
    · exact .error _
    · cases c with
      | arr xs =>
        obtain ⟨ys, rfl, hxy⟩ := same_arr hc
        simp only [editValue, any_congr hxy hv]
        refine .ok (same_arr_intro ?_)
        split
        · exact hxy
        · rw [List.map_append, List.map_append, hxy, List.map_singleton, List.map_singleton, hv]
      | _ => cases c' <;> first | exact .error _ | simp [Same, Json.canon] at hc
  | remove =>
    rcases hcases with ⟨rfl, rfl⟩ | ⟨c, c', rfl, rfl, hc⟩
    · exact .error _
    · cases c with
      | arr xs =>
        obtain ⟨ys, rfl, hxy⟩ := same_arr hc
        exact .ok (same_arr_intro (eraseP_congr hxy hv))
      | _ => cases c' <;> first | exact .error _ | simp [Same, Json.canon] at hc

theorem atParent_congr (whole : List String) {f g : Fields → String → Except PyError Fields}
    (hfg : ∀ a b k, SameFields a b → Related SameFields (f a k) (g b k)) (path : List String) :
    ∀ {a b : Fields}, SameFields a b →
      Related SameFields (atParent whole f path a) (atParent whole g path b) := by
  induction path with
  | nil => exact fun _ => .error _
  | cons part rest ih =>
    intro a b hab
    cases rest with
    | nil => exact hfg a b part hab
    | cons key rest =>
      have hfind := hab part
      cases ha : Assoc.find a part with
      | none =>
        have hb : Assoc.find b part = none := by simpa [ha] using hfind.symm
        simp only [atParent, ha, hb]
        exact .error _
      | some c =>
        obtain ⟨d, hb, hcd⟩ : ∃ d, Assoc.find b part = some d ∧ Same c d := by
          rw [ha] at hfind
          cases hb : Assoc.find b part with
          | none => rw [hb] at hfind; cases hfind
          | some d => exact ⟨d, rfl, by simpa [hb, Same] using hfind⟩
        cases c with
        | obj child =>
          cases d with
          | obj child' =>
            simp only [atParent, ha, hb]
            refine Related.bind (ih (same_obj_iff.mp hcd)) ?_
            intro c c' hc
            exact .ok (same_put hab part (same_obj_iff.mpr hc))
          | _ => simp [Same, Json.canon] at hcd
        | _ =>
          cases d <;> first
            | (simp only [atParent, ha, hb]; exact .error _)
            | simp [Same, Json.canon] at hcd

theorem applyMutation_congr {a b : Fields} (hab : SameFields a b) (m : Mutation) :
    Related SameFields (applyMutation a m) (applyMutation b m.canon) := by
  cases m with
  | edit op path value =>
    refine atParent_congr path ?_ path hab
    intro a b k hab
    exact Related.bind (editValue_congr op path (hab k) (same_canon value).symm)
      (fun v w hvw => .ok (same_put hab k hvw))
  | delete path =>
    refine atParent_congr path ?_ path hab
    intro a b k hab
    have hk := hab k
    unfold applyDelete
    cases ha : Assoc.find a k <;> cases hb : Assoc.find b k <;> rw [ha, hb] at hk
    · exact .error _
    · cases hk
    · cases hk
    · exact .ok (same_remove hab k)
  | replaceRoot value =>
    cases value with
    | obj kvs => exact .ok (same_obj_iff.mp (same_canon (.obj kvs)).symm)
    | _ => exact .error _

theorem applyAll_congr (ms : List Mutation) : ∀ {a b : Fields}, SameFields a b →
    Related SameFields (applyAll a ms) (applyAll b (ms.map Mutation.canon)) := by
  induction ms with
  | nil => exact fun hab => .ok hab
  | cons m ms ih => exact fun hab => Related.bind (applyMutation_congr hab m) (fun _ _ h => ih h)

/-! ## Normalizing again

`apply_mutations` normalizes what `normalize_mutations` returned, before and after it
went through the database. -/

/-- What `normalizeMutation` promises of its result. -/
def Mutation.Normal : Mutation → Prop
  | .edit _ path _ => path ≠ [] ∧ path.all partOk = true
  | .delete path => path ≠ [] ∧ path.all partOk = true
  | .replaceRoot _ => True

/-- What `normalizeMutations` promises of its result. -/
def Normal (ms : List Mutation) : Prop :=
  ms ≠ [] ∧ ¬(ms.any Mutation.isReplaceRoot ∧ ms.length ≠ 1) ∧ ∀ m ∈ ms, m.Normal

theorem pathJson_canon (path : List String) : (pathJson path).canon = pathJson path := by
  have h : Json.canon ∘ Json.str = Json.str := rfl
  simp [pathJson, Json.canon, canonList_eq_map, h]

theorem toJson_canon (m : Mutation) : m.toJson.canon = m.canon.toJson := by
  have hop : ("op" : String) < "path" := by decide
  have hpath : ("path" : String) < "value" := by decide
  have hvalue : ("op" : String) < "value" := by decide
  cases m <;>
    simp [Mutation.toJson, Mutation.canon, Json.canon, canonFields, Assoc.sortKeys, Assoc.insert,
      pathJson_canon, hop, hpath]

theorem isReplaceRoot_canon (m : Mutation) : m.canon.isReplaceRoot = m.isReplaceRoot := by
  cases m <;> rfl

theorem Normal.canon {ms : List Mutation} (h : Normal ms) : Normal (ms.map Mutation.canon) := by
  obtain ⟨hne, halone, hall⟩ := h
  refine ⟨by simpa using hne, ?_, ?_⟩
  · have hcomp : Mutation.isReplaceRoot ∘ Mutation.canon = Mutation.isReplaceRoot :=
      funext isReplaceRoot_canon
    rwa [List.any_map, List.length_map, hcomp]
  · intro m hm
    obtain ⟨n, hn, rfl⟩ := List.mem_map.mp hm
    have := hall n hn
    cases n <;> exact this

section
variable {py : Python}

theorem mutationPath_pathJson (py : Python) {path : List String} (allowRoot : Bool)
    (hne : path ≠ [] ∨ allowRoot = true) (hall : path.all partOk = true) :
    mutationPath py (pathJson path) allowRoot = .ok path := by
  have hstr : (path.map Json.str).map (pyStr py) = path := by
    rw [List.map_map]
    exact List.map_id path
  simp only [mutationPath, pathJson, hstr, hall, if_true]
  rw [if_neg]
  rintro ⟨rfl, hroot⟩
  rcases hne with h | h
  · exact h rfl
  · exact hroot h

theorem upper_name (op : Edit) : upper op.name = op.name := by
  cases op <;> decide

theorem editNamed_name (op : Edit) : editNamed op.name = some op := by
  cases op <;> rfl

theorem name_ne (op : Edit) : op.name ≠ "REPLACE_ROOT" ∧ op.name ≠ "DELETE" := by
  cases op <;> decide

theorem normalizeMutation_toJson (py : Python) (index : Nat) {m : Mutation} (hm : m.Normal) :
    normalizeMutation py index m.toJson = .ok m := by
  cases m with
  | edit op path value =>
    have hpath := mutationPath_pathJson py false (.inl hm.1) hm.2
    simp [normalizeMutation, Mutation.toJson, Assoc.find, pyStr, upper_name, name_ne op,
      editNamed_name, hpath, requireValue, bind, Except.bind, pure, Except.pure]
  | delete path =>
    have hpath := mutationPath_pathJson py false (.inl hm.1) hm.2
    have hup : upper "DELETE" = "DELETE" := by decide
    simp [normalizeMutation, Mutation.toJson, Assoc.find, pyStr, hup, hpath, bind, Except.bind,
      pure, Except.pure]
  | replaceRoot value =>
    have hpath : mutationPath py (pathJson []) true = .ok [] :=
      mutationPath_pathJson py true (.inr rfl) rfl
    have hup : upper "REPLACE_ROOT" = "REPLACE_ROOT" := by decide
    simp [normalizeMutation, Mutation.toJson, Assoc.find, pyStr, hup, hpath, requireValue, bind,
      Except.bind, pure, Except.pure]

theorem normalizeFrom_toJson {ms : List Mutation} (h : ∀ m ∈ ms, m.Normal) (index : Nat) :
    normalizeFrom py index (ms.map Mutation.toJson) = .ok ms := by
  induction ms generalizing index with
  | nil => rfl
  | cons m ms ih =>
    have hm := normalizeMutation_toJson py index (h m (List.mem_cons_self ..))
    have hms := ih (fun m hm => h m (List.mem_cons_of_mem _ hm)) (index + 1)
    simp [normalizeFrom, hm, hms, bind, Except.bind, pure, Except.pure]

theorem normalizeMutations_toJson {ms : List Mutation} (h : Normal ms) :
    normalizeMutations py (ms.map Mutation.toJson) = .ok ms := by
  obtain ⟨hne, halone, hall⟩ := h
  simp only [normalizeMutations, normalizeFrom_toJson hall, bind, Except.bind]
  rw [if_neg hne, if_neg halone]

theorem mutationPath_ok {value : Json} {allowRoot : Bool} {path : List String}
    (h : mutationPath py value allowRoot = .ok path) :
    (path ≠ [] ∨ allowRoot = true) ∧ path.all partOk = true := by
  cases value with
  | arr parts =>
    simp only [mutationPath] at h
    split at h
    · cases h
    · next hroot =>
      split at h
      · next hall =>
        cases h
        refine ⟨?_, hall⟩
        by_cases hne : parts.map (pyStr py) = []
        · exact .inr (by simpa [hne] using hroot)
        · exact .inl hne
      · cases h
  | _ => cases h

theorem normalizeMutation_normal {index : Nat} {raw : Json} {m : Mutation}
    (h : normalizeMutation py index raw = .ok m) : m.Normal := by
  cases raw with
  | obj fields =>
    simp only [normalizeMutation] at h
    split at h
    · -- REPLACE_ROOT
      cases hp : mutationPath py ((Assoc.find fields "path").getD (.arr [])) true with
      | error e => simp [hp, bind, Except.bind] at h
      | ok path =>
        cases hv : requireValue "REPLACE_ROOT" fields with
        | error e =>
          simp only [hp, bind, Except.bind] at h
          split at h <;> simp_all
        | ok value =>
          simp only [hp, bind, Except.bind] at h
          split at h
          · cases h
          · simp_all [pure, Except.pure]
            cases h
            trivial
    · split at h
      · -- DELETE
        cases hp : mutationPath py ((Assoc.find fields "path").getD (.arr [])) false with
        | error e => simp [hp, bind, Except.bind] at h
        | ok path =>
          simp only [hp, bind, Except.bind, pure, Except.pure, Except.ok.injEq] at h
          subst h
          simpa [Mutation.Normal] using mutationPath_ok hp
      · split at h
        · next op _ =>
          cases hp : mutationPath py ((Assoc.find fields "path").getD (.arr [])) false with
          | error e => simp [hp, bind, Except.bind] at h
          | ok path =>
            simp only [hp, bind, Except.bind, pure, Except.pure] at h
            split at h
            · cases h
            · cases h
              simpa [Mutation.Normal] using mutationPath_ok hp
        · cases h
  | _ => cases h

theorem normalizeFrom_normal {raws : List Json} : ∀ {index : Nat} {ms : List Mutation},
    normalizeFrom py index raws = .ok ms → ∀ m ∈ ms, m.Normal := by
  induction raws with
  | nil =>
    intro index ms h
    cases h
    simp
  | cons raw raws ih =>
    intro index ms h
    simp only [normalizeFrom, bind, Except.bind, pure, Except.pure] at h
    split at h
    · cases h
    · next m hm =>
      split at h
      · cases h
      · next rest hrest =>
        cases h
        intro n hn
        rcases List.mem_cons.mp hn with rfl | hn
        · exact normalizeMutation_normal hm
        · exact ih hrest n hn

theorem normalizeMutations_normal {raws : List Json} {ms : List Mutation}
    (h : normalizeMutations py raws = .ok ms) : Normal ms := by
  simp only [normalizeMutations, bind, Except.bind] at h
  split at h
  · cases h
  · next normalized hfrom =>
    split at h
    · cases h
    · next hne =>
      split at h
      · cases h
      · next halone =>
        cases h
        exact ⟨hne, halone, normalizeFrom_normal hfrom⟩

/-- Applying a normal list is its fold. -/
theorem applyMutations_normal {ms : List Mutation} (h : Normal ms) (state : Fields) :
    applyMutations py (.obj state) (ms.map Mutation.toJson) =
      (applyAll state ms).map Json.obj := by
  simp only [applyMutations, jsonObject, normalizeMutations_toJson h, bind, Except.bind, pure,
    Except.pure]
  cases applyAll state ms <;> rfl

end

end Edon.World
