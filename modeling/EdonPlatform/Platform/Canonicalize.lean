import EdonPlatform.Common.JsText
import Mathlib.Data.List.Sort

/- The canonical text of a value (packages/platform-core/src/receipt-custody.ts and
   institution-transition-service.ts, `canonicalize`), which the signatures of receipts and
   the hashes of transitions are of.

   What is proved:
     1. `canonicalize_eq_iff` — two JSON values have one canonical text exactly when they are
        the same once the keys of their objects are sorted.
     2. `canonical_iff` — the text is stable under storage, is JSON and tells values apart up
        to the order of their keys exactly when no field is undefined and values that differ
        in the order of their keys are the same once sorted.
     3. `undefined_unstable` — an object with an undefined field.

   Correspondence (TypeScript ↔ Lean):
     plain data, `JSON.parse(JSON.stringify(v))` ↔ `Data`, `Data.parsed`
     `canonicalize`                              ↔ `canonicalize` -/
namespace Edon.Js
open Separated
open Json (quote)

/-- Plain data. A field of an object may be undefined. -/
inductive Data where
  | null
  | bool (b : Bool)
  | num (n : Number)
  | str (s : String)
  | arr (xs : List Data)
  | obj (kvs : List (String × Option Data))

mutual
/-- The value that is parsed from the text of the data: a number that is not finite has become
`null`, and what is undefined is gone. -/
def Data.parsed : Data → Value
  | .null => .null
  | .bool b => .bool b
  | .num n => match n with
    | .finite q => .num (.finite q)
    | _ => .null
  | .str s => .str s
  | .arr xs => .arr (parsedList xs)
  | .obj kvs => .obj (parsedFields kvs)

def parsedList : List Data → List Value
  | [] => []
  | x :: xs => x.parsed :: parsedList xs

def parsedFields : List (String × Option Data) → List (String × Value)
  | [] => []
  | (_, none) :: kvs => parsedFields kvs
  | (k, some v) :: kvs => (k, v.parsed) :: parsedFields kvs
end

mutual
/-- A parsed value as data. -/
def Value.data : Value → Data
  | .null => .null
  | .bool b => .bool b
  | .num n => .num n
  | .str s => .str s
  | .arr xs => .arr (dataList xs)
  | .obj kvs => .obj (dataFields kvs)

def dataList : List Value → List Data
  | [] => []
  | x :: xs => x.data :: dataList xs

def dataFields : List (String × Value) → List (String × Option Data)
  | [] => []
  | (k, v) :: kvs => (k, some v.data) :: dataFields kvs
end

mutual
/-- Some field is undefined. -/
def Data.hasUndefined : Data → Bool
  | .arr xs => hasUndefinedList xs
  | .obj kvs => hasUndefinedFields kvs
  | _ => false

def hasUndefinedList : List Data → Bool
  | [] => false
  | x :: xs => x.hasUndefined || hasUndefinedList xs

def hasUndefinedFields : List (String × Option Data) → Bool
  | [] => false
  | (_, none) :: _ => true
  | (_, some v) :: kvs => v.hasUndefined || hasUndefinedFields kvs
end

section
variable (js : Runtime)

/-- `sort(([a], [b]) => a.localeCompare(b))`, which is stable. -/
def sortEntries {α : Type} (entries : List (String × α)) : List (String × α) :=
  entries.insertionSort fun a b => js.localeCompare a.1 b.1 ≤ 0

mutual
/-- `JSON.stringify` of an undefined field is `undefined`, which the template writes. -/
def canonicalize : Data → List Char
  | .null => ['n', 'u', 'l', 'l']
  | .bool true => ['t', 'r', 'u', 'e']
  | .bool false => ['f', 'a', 'l', 's', 'e']
  | .num n => numberJson js n
  | .str s => quote s
  | .arr xs => '[' :: ([','].intercalate (canonicalizeList xs) ++ [']'])
  | .obj kvs => '{' :: ([','].intercalate
      ((sortEntries js (canonicalizeEntries kvs)).map fun e => quote e.1 ++ ':' :: e.2) ++ ['}'])

def canonicalizeList : List Data → List (List Char)
  | [] => []
  | x :: xs => canonicalize x :: canonicalizeList xs

def canonicalizeEntries : List (String × Option Data) → List (String × List Char)
  | [] => []
  | (k, none) :: kvs => (k, "undefined".toList) :: canonicalizeEntries kvs
  | (k, some v) :: kvs => (k, canonicalize v) :: canonicalizeEntries kvs
end

mutual
/-- The value with the keys of its objects sorted. -/
def sorted : Value → Value
  | .arr xs => .arr (sortedList xs)
  | .obj kvs => .obj (sortEntries js (sortedFields kvs))
  | v => v

def sortedList : List Value → List Value
  | [] => []
  | x :: xs => sorted x :: sortedList xs

def sortedFields : List (String × Value) → List (String × Value)
  | [] => []
  | (k, v) :: kvs => (k, sorted v) :: sortedFields kvs
end

end

/-! ## The lists of the definitions -/

section
variable {js : Runtime}

theorem sortedList_eq_map (xs : List Value) : sortedList js xs = xs.map (sorted js) := by
  induction xs with
  | nil => rfl
  | cons x xs ih => rw [sortedList, List.map_cons, ih]

theorem sortedFields_eq_map (kvs : Fields) :
    sortedFields js kvs = kvs.map fun e => (e.1, sorted js e.2) := by
  induction kvs with
  | nil => rfl
  | cons e kvs ih => rw [sortedFields, List.map_cons, ih]

theorem perm_sortEntries {α : Type} (entries : List (String × α)) :
    (sortEntries js entries).Perm entries := List.perm_insertionSort _ _

/-- What is done to the values leaves the order of the keys alone. -/
theorem map_sortEntries {α β : Type} (f : α → β) (entries : List (String × α)) :
    (sortEntries js entries).map (fun e => (e.1, f e.2)) =
      sortEntries js (entries.map fun e => (e.1, f e.2)) := by
  unfold sortEntries
  refine List.map_insertionSort _ _ _ _ ?_
  intro a _ b _
  rfl

end

theorem Data.induct {P : Data → Prop} (null : P .null) (bool : ∀ b, P (.bool b))
    (num : ∀ n, P (.num n)) (str : ∀ s, P (.str s)) (arr : ∀ xs, (∀ x ∈ xs, P x) → P (.arr xs))
    (obj : ∀ kvs : List (String × Option Data), (∀ e ∈ kvs, ∀ v, e.2 = some v → P v) → P (.obj kvs))
    (v : Data) : P v := by
  refine @Data.rec P (fun xs => ∀ x ∈ xs, P x) (fun kvs => ∀ e ∈ kvs, ∀ v, e.2 = some v → P v)
    (fun e => ∀ v, e.2 = some v → P v) (fun o => ∀ v, o = some v → P v)
    null bool num str (fun xs ih => arr xs ih) (fun kvs ih => obj kvs ih) ?_ ?_ ?_ ?_ ?_ ?_ ?_ v
  · intro x hx
    cases hx
  · intro x xs hx hxs
    exact List.forall_mem_cons.mpr ⟨hx, hxs⟩
  · intro e he
    cases he
  · intro e kvs he hkvs
    exact List.forall_mem_cons.mpr ⟨he, hkvs⟩
  · intro _ _ hv
    exact hv
  · intro v hv
    cases hv
  · intro v hv w hw
    cases hw
    exact hv

section
variable {js : Runtime}

theorem canonicalizeList_eq_map (xs : List Data) :
    canonicalizeList js xs = xs.map (canonicalize js) := by
  induction xs with
  | nil => rfl
  | cons x xs ih => rw [canonicalizeList, List.map_cons, ih]

theorem dataList_eq_map (xs : List Value) : dataList xs = xs.map Value.data := by
  induction xs with
  | nil => rfl
  | cons x xs ih => rw [dataList, List.map_cons, ih]

theorem parsedList_eq_map (xs : List Data) : parsedList xs = xs.map Data.parsed := by
  induction xs with
  | nil => rfl
  | cons x xs ih => rw [parsedList, List.map_cons, ih]

theorem canonicalizeEntries_dataFields (kvs : Fields) :
    canonicalizeEntries js (dataFields kvs) = kvs.map fun e => (e.1, canonicalize js e.2.data) := by
  induction kvs with
  | nil => rfl
  | cons e kvs ih => rw [dataFields, canonicalizeEntries, List.map_cons, ih]

/-! ## Values that are parsed -/

/-- The canonical text of a parsed value is the text of the value with its keys sorted. -/
theorem canonicalize_data (v : Value) : canonicalize js v.data = text js (sorted js v) := by
  induction v using Value.induct with
  | null => rfl
  | bool b => cases b <;> rfl
  | num n => rfl
  | str s => rfl
  | arr xs ih =>
    have hitems : (dataList xs).map (canonicalize js) = (sortedList js xs).map (text js) := by
      rw [dataList_eq_map, sortedList_eq_map, List.map_map, List.map_map]
      exact List.map_congr_left ih
    rw [Value.data, canonicalize, sorted, text, canonicalizeList_eq_map, textList_eq_map, hitems]
  | obj kvs ih =>
    have hentries : sortEntries js (canonicalizeEntries js (dataFields kvs)) =
        (sortEntries js (sortedFields js kvs)).map fun e => (e.1, text js e.2) := by
      rw [canonicalizeEntries_dataFields, sortedFields_eq_map, map_sortEntries, List.map_map]
      congr 1
      refine List.map_congr_left fun e he => ?_
      rw [ih e he]
      rfl
    rw [Value.data, canonicalize, sorted, text, textFields_eq_map, hentries, List.map_map]
    rfl

theorem finite_sorted (v : Value) : (sorted js v).finite = v.finite := by
  induction v using Value.induct with
  | null | bool _ | num _ | str _ => rfl
  | arr xs ih =>
    rw [Bool.eq_iff_iff, sorted, Value.finite, Value.finite, finiteList_iff, finiteList_iff,
      sortedList_eq_map, List.forall_mem_map]
    exact forall₂_congr fun x hx => by rw [ih x hx]
  | obj kvs ih =>
    rw [Bool.eq_iff_iff, sorted, Value.finite, Value.finite, finiteFields_iff, finiteFields_iff,
      sortedFields_eq_map]
    have hmem : ∀ P : String × Value → Prop,
        (∀ e ∈ sortEntries js (kvs.map fun e => (e.1, sorted js e.2)), P e) ↔
          ∀ e ∈ kvs, P (e.1, sorted js e.2) := by
      intro P
      refine (forall_congr' fun e => imp_congr_left (perm_sortEntries _).mem_iff).trans ?_
      exact List.forall_mem_map
    rw [hmem]
    exact forall₂_congr fun e he => by rw [ih e he]

/-- Two JSON values have one canonical text exactly when they are the same once sorted. -/
theorem canonicalize_eq_iff (hjs : js.Numerals) {v w : Value} (hv : v.finite = true)
    (hw : w.finite = true) :
    canonicalize js v.data = canonicalize js w.data ↔ sorted js v = sorted js w := by
  rw [canonicalize_data, canonicalize_data]
  constructor
  · intro h
    exact text_injective hjs ((finite_sorted v).trans hv) ((finite_sorted w).trans hw) h
  · intro h
    rw [h]

/-- A permutation of a mapped list is the mapped list of a permutation. -/
theorem exists_perm_of_map {α β : Type} {f : α → β} {l : List α} {m : List β}
    (h : (l.map f).Perm m) : ∃ l', l.Perm l' ∧ l'.map f = m := by
  induction m generalizing l with
  | nil =>
    rw [List.perm_nil, List.map_eq_nil_iff] at h
    exact ⟨[], h ▸ .refl _, rfl⟩
  | cons b m ih =>
    obtain ⟨a, ha, rfl⟩ := List.mem_map.mp (h.mem_iff.mpr List.mem_cons_self)
    obtain ⟨l₁, l₂, rfl⟩ := List.append_of_mem ha
    have hsplit : (l₁ ++ a :: l₂).Perm (a :: (l₁ ++ l₂)) := List.perm_middle
    obtain ⟨l', hperm, rfl⟩ := ih ((hsplit.map f).symm.trans h).cons_inv
    exact ⟨a :: l', hsplit.trans (hperm.cons a), rfl⟩

theorem forall₂_of_map_eq {α β γ : Type} {f : α → γ} {g : β → γ} {R : α → β → Prop} {l : List α}
    {m : List β} (h : l.map f = m.map g) (hR : ∀ a ∈ l, ∀ b, f a = g b → R a b) :
    List.Forall₂ R l m := by
  induction l generalizing m with
  | nil =>
    cases m with
    | nil => exact .nil
    | cons b m => cases h
  | cons a l ih =>
    cases m with
    | nil => cases h
    | cons b m =>
      obtain ⟨hhead, htail⟩ := List.cons.inj h
      exact .cons (hR a List.mem_cons_self b hhead)
        (ih htail fun a' ha' => hR a' (List.mem_cons_of_mem _ ha'))

/-- Values that are the same once sorted differ in the order of their properties alone. -/
theorem reordered_of_sorted (v w : Value) (h : sorted js v = sorted js w) : Reordered v w := by
  induction v using Value.induct generalizing w with
  | null =>
    cases w <;> cases h
    exact .null
  | bool b =>
    cases w <;> cases h
    exact .bool b
  | num n =>
    cases w <;> cases h
    exact .num n
  | str s =>
    cases w <;> cases h
    exact .str s
  | arr xs ih =>
    cases w with
    | arr ys =>
      have hitems := Value.arr.inj h
      rw [sortedList_eq_map, sortedList_eq_map] at hitems
      exact .arr (reorderedList_iff.mpr (forall₂_of_map_eq hitems fun x hx y => ih x hx y))
    | _ => cases h
  | obj kvs ih =>
    cases w with
    | obj kws =>
      have hentries := Value.obj.inj h
      rw [sortedFields_eq_map, sortedFields_eq_map] at hentries
      have hperm := ((perm_sortEntries _).symm.trans (List.Perm.of_eq hentries)).trans
        (@perm_sortEntries js _ (kws.map fun e => (e.1, sorted js e.2)))
      obtain ⟨kvs', hkvs, hmap⟩ := exists_perm_of_map hperm
      refine .obj hkvs (reorderedFields_iff.mpr (forall₂_of_map_eq hmap ?_))
      intro e he f hef
      obtain ⟨hkey, hvalue⟩ := Prod.mk.inj hef
      exact ⟨hkey, ih e (hkvs.mem_iff.mpr he) f.2 hvalue⟩
    | _ => cases h

/-! ## Undefined fields -/

theorem hasUndefinedList_false {xs : List Data} :
    hasUndefinedList xs = false ↔ ∀ x ∈ xs, x.hasUndefined = false := by
  induction xs with
  | nil => simp [hasUndefinedList]
  | cons x xs ih => simp [hasUndefinedList, ih]

/-- The entries of an object whose fields are all defined. -/
theorem parsedFields_defined {kvs : List (String × Option Data)}
    (h : hasUndefinedFields kvs = false) :
    ∃ entries : List (String × Data), kvs = entries.map (fun e => (e.1, some e.2)) ∧
      (∀ e ∈ entries, e.2.hasUndefined = false) ∧
      parsedFields kvs = entries.map (fun e => (e.1, e.2.parsed)) ∧
      canonicalizeEntries js kvs = entries.map (fun e => (e.1, canonicalize js e.2)) := by
  induction kvs with
  | nil => exact ⟨[], rfl, List.forall_mem_nil _, rfl, rfl⟩
  | cons e kvs ih =>
    obtain ⟨k, o⟩ := e
    cases o with
    | none => cases h
    | some v =>
      obtain ⟨hv, hkvs⟩ := Bool.or_eq_false_iff.mp h
      obtain ⟨entries, rfl, hall, hparsed, hcanonical⟩ := ih hkvs
      refine ⟨(k, v) :: entries, rfl, List.forall_mem_cons.mpr ⟨hv, hall⟩, ?_, ?_⟩
      · rw [parsedFields, hparsed, List.map_cons]
      · rw [canonicalizeEntries, hcanonical, List.map_cons]

theorem canonicalize_number (n : Number) :
    canonicalize js (Data.num n).parsed.data = canonicalize js (.num n) := by
  cases n <;> rfl

/-- Where every field is defined, storing the data does not change its canonical text. -/
theorem canonicalize_parsed (v : Data) (h : v.hasUndefined = false) :
    canonicalize js v.parsed.data = canonicalize js v := by
  induction v using Data.induct with
  | null | bool _ | str _ => rfl
  | num n => exact canonicalize_number n
  | arr xs ih =>
    have hall := hasUndefinedList_false.mp h
    have hitems : ((xs.map Data.parsed).map Value.data).map (canonicalize js) =
        xs.map (canonicalize js) := by
      rw [List.map_map, List.map_map]
      exact List.map_congr_left fun x hx => ih x hx (hall x hx)
    rw [Data.parsed, Value.data, canonicalize, canonicalize, canonicalizeList_eq_map,
      canonicalizeList_eq_map, dataList_eq_map, parsedList_eq_map, hitems]
  | obj kvs ih =>
    obtain ⟨entries, rfl, hall, hparsed, hcanonical⟩ := @parsedFields_defined js _ h
    have hentries : canonicalizeEntries js
        (dataFields (parsedFields (entries.map fun e => (e.1, some e.2)))) =
        canonicalizeEntries js (entries.map fun e => (e.1, some e.2)) := by
      rw [canonicalizeEntries_dataFields, hparsed, hcanonical, List.map_map]
      refine List.map_congr_left fun e he => ?_
      have hmem : (e.1, some e.2) ∈ entries.map fun e => (e.1, some e.2) :=
        List.mem_map.mpr ⟨e, he, rfl⟩
      exact congrArg (Prod.mk e.1) (ih _ hmem e.2 rfl (hall e he))
    rw [Data.parsed, Value.data, canonicalize, canonicalize, hentries]

/-- It is then JSON. -/
theorem jsonText_canonicalize (hjs : js.Numerals) (v : Data) (h : v.hasUndefined = false) :
    JsonText (canonicalize js v) := by
  rw [← canonicalize_parsed v h, canonicalize_data]
  exact jsonText_text hjs _

/-- What an entry adds to the length of the text of an object. -/
def entryLength (e : String × List Char) : Nat := (quote e.1).length + e.2.length + 2

theorem length_canonicalize_obj (kvs : List (String × Option Data)) :
    (canonicalize js (.obj kvs)).length =
      1 + max 1 ((canonicalizeEntries js kvs).map entryLength).sum := by
  have hbody := @length_intercalate ','
    ((sortEntries js (canonicalizeEntries js kvs)).map fun e => quote e.1 ++ ':' :: e.2)
  have hentries : ∀ e : String × List Char,
      (quote e.1 ++ ':' :: e.2).length + 1 = entryLength e := by
    intro e
    rw [List.length_append, List.length_cons]
    rfl
  rw [List.map_map] at hbody
  have hsum := ((@perm_sortEntries js _ (canonicalizeEntries js kvs)).map entryLength).sum_eq
  rw [canonicalize, List.length_cons, List.length_append, List.length_singleton, hbody, ← hsum,
    Nat.add_comm]
  congr 3
  exact List.map_congr_left fun e _ => hentries e

theorem length_canonicalize_arr (xs : List Data) : (canonicalize js (.arr xs)).length =
    1 + max 1 (xs.map fun x => (canonicalize js x).length + 1).sum := by
  have hbody := @length_intercalate ',' (xs.map (canonicalize js))
  rw [List.map_map] at hbody
  rw [canonicalize, canonicalizeList_eq_map, List.length_cons, List.length_append,
    List.length_singleton, hbody, Nat.add_comm]
  rfl

/-- Storing the data makes its text no longer, and shorter where a field is undefined. -/
def Shortens (js : Runtime) (v : Data) : Prop :=
  (canonicalize js v.parsed.data).length ≤ (canonicalize js v).length ∧
    (v.hasUndefined = true →
      (canonicalize js v.parsed.data).length < (canonicalize js v).length)

theorem shortens_list {xs : List Data} (h : ∀ x ∈ xs, Shortens js x) :
    (xs.map fun x => (canonicalize js x.parsed.data).length + 1).sum ≤
        (xs.map fun x => (canonicalize js x).length + 1).sum ∧
      (hasUndefinedList xs = true →
        (xs.map fun x => (canonicalize js x.parsed.data).length + 1).sum <
            (xs.map fun x => (canonicalize js x).length + 1).sum ∧
          1 ≤ (xs.map fun x => (canonicalize js x.parsed.data).length + 1).sum) := by
  induction xs with
  | nil =>
    refine ⟨Nat.le_refl _, fun hundefined => ?_⟩
    cases hundefined
  | cons x xs ih =>
    obtain ⟨hx, hxs⟩ := List.forall_mem_cons.mp h
    obtain ⟨hle, hlt⟩ := ih hxs
    obtain ⟨hxle, hxlt⟩ := hx
    simp only [List.map_cons, List.sum_cons]
    refine ⟨by omega, fun hundefined => ?_⟩
    rcases (Bool.or_eq_true_iff.mp hundefined) with hhead | htail
    · have := hxlt hhead
      omega
    · have := hlt htail
      omega

theorem shortens_fields {kvs : List (String × Option Data)}
    (h : ∀ e ∈ kvs, ∀ v, e.2 = some v → Shortens js v) :
    ((canonicalizeEntries js (dataFields (parsedFields kvs))).map entryLength).sum ≤
        ((canonicalizeEntries js kvs).map entryLength).sum ∧
      (hasUndefinedFields kvs = true →
        ((canonicalizeEntries js (dataFields (parsedFields kvs))).map entryLength).sum <
            ((canonicalizeEntries js kvs).map entryLength).sum ∧
          2 ≤ ((canonicalizeEntries js kvs).map entryLength).sum) := by
  induction kvs with
  | nil =>
    refine ⟨Nat.le_refl _, fun hundefined => ?_⟩
    cases hundefined
  | cons e kvs ih =>
    obtain ⟨he, hkvs⟩ := List.forall_mem_cons.mp h
    obtain ⟨hle, hlt⟩ := ih hkvs
    obtain ⟨k, o⟩ := e
    cases o with
    | none =>
      simp only [parsedFields, canonicalizeEntries, List.map_cons, List.sum_cons, entryLength]
      omega
    | some v =>
      obtain ⟨hvle, hvlt⟩ := he v rfl
      simp only [parsedFields, dataFields, canonicalizeEntries, List.map_cons, List.sum_cons,
        entryLength]
      refine ⟨by omega, fun hundefined => ?_⟩
      rcases (Bool.or_eq_true_iff.mp hundefined) with hhead | htail
      · have := hvlt hhead
        omega
      · have := hlt htail
        omega

theorem shortens (v : Data) : Shortens js v := by
  induction v using Data.induct with
  | null | bool _ | str _ => exact ⟨Nat.le_refl _, fun hundefined => by cases hundefined⟩
  | num n =>
    refine ⟨?_, fun hundefined => by cases hundefined⟩
    rw [canonicalize_number]
  | arr xs ih =>
    obtain ⟨hle, hlt⟩ := shortens_list ih
    have hparsed : (canonicalize js (Data.arr xs).parsed.data).length =
        1 + max 1 (xs.map fun x => (canonicalize js x.parsed.data).length + 1).sum := by
      rw [Data.parsed, Value.data, parsedList_eq_map, dataList_eq_map, List.map_map,
        length_canonicalize_arr, List.map_map]
      rfl
    unfold Shortens
    rw [hparsed, length_canonicalize_arr]
    refine ⟨by omega, fun hundefined => ?_⟩
    have := hlt hundefined
    omega
  | obj kvs ih =>
    obtain ⟨hle, hlt⟩ := shortens_fields ih
    unfold Shortens
    rw [Data.parsed, Value.data, length_canonicalize_obj, length_canonicalize_obj]
    refine ⟨by omega, fun hundefined => ?_⟩
    have := hlt hundefined
    omega

end

/-! ## The canonical form -/

/-- **Canonical form.** For all data and JSON values: the canonical text of the data is that of
the data as it is stored and is JSON, and two values have one canonical text exactly when they
differ in the order of their properties alone, if and only if no field of the data is undefined
and the two values, where they differ in that order alone, are the same once their keys are
sorted. -/
theorem canonical_iff (js : Runtime) (hjs : js.Numerals) (v : Data) (a b : Value)
    (ha : a.finite = true) (hb : b.finite = true) :
    (canonicalize js v.parsed.data = canonicalize js v ∧ JsonText (canonicalize js v) ∧
      (canonicalize js a.data = canonicalize js b.data ↔ Reordered a b)) ↔
    v.hasUndefined = false ∧ (Reordered a b → sorted js a = sorted js b) := by
  constructor
  · rintro ⟨hstable, -, htold⟩
    refine ⟨?_, fun hreordered => (canonicalize_eq_iff hjs ha hb).mp (htold.mpr hreordered)⟩
    cases hundefined : v.hasUndefined with
    | false => rfl
    | true =>
      have hshorter := (@shortens js v).2 hundefined
      rw [hstable] at hshorter
      exact absurd hshorter (Nat.lt_irrefl _)
  · rintro ⟨hdefined, hsorted⟩
    refine ⟨canonicalize_parsed v hdefined, jsonText_canonicalize hjs v hdefined, ?_⟩
    rw [canonicalize_eq_iff hjs ha hb]
    exact ⟨reordered_of_sorted a b, hsorted⟩

/-! ## An undefined field -/

/-- `{ a: undefined, n: 142 }`. -/
def undefinedField : Data := .obj [("a", none), ("n", some (.num (.finite 142)))]

def oneWay : Value := .obj [("a", .null), ("n", .num (.finite 142))]

def otherWay : Value := .obj [("n", .num (.finite 142)), ("a", .null)]

theorem canonical_iff_undefined :
    (canonicalize Runtime.decimal undefinedField.parsed.data =
        canonicalize Runtime.decimal undefinedField ∧
      JsonText (canonicalize Runtime.decimal undefinedField) ∧
      (canonicalize Runtime.decimal oneWay.data = canonicalize Runtime.decimal otherWay.data ↔
        Reordered oneWay otherWay)) ↔
    undefinedField.hasUndefined = false ∧
      (Reordered oneWay otherWay →
        sorted Runtime.decimal oneWay = sorted Runtime.decimal otherWay) :=
  canonical_iff Runtime.decimal decimal_numerals undefinedField oneWay otherWay rfl rfl

/-- The text `{"a":undefined,"n":142}` is not that of the stored object. -/
theorem undefined_unstable : canonicalize Runtime.decimal undefinedField.parsed.data ≠
    canonicalize Runtime.decimal undefinedField := by
  decide +kernel

end Edon.Js
