import EdonPlatform.Common.CanonicalJson
import EdonPlatform.Common.JsValue
import EdonPlatform.Lib.Separated
import Mathlib.Data.Bool.AllAny

/- The text `JSON.stringify` writes of a value, and the grammar of JSON texts.

   `isText_text`: what is written is a JSON text. `text_append_inj`: no other value with
   finite numbers has that text. `Reordered` are values with the same properties in another
   order, which a `jsonb` column may return; `length_text_reordered`: they have texts of
   one length. What the runtime is known to write of a number is `Runtime.Numerals`. -/
namespace Edon.Js
open Separated
open Json (quote)

theorem Value.induct {P : Value → Prop} (null : P .null) (bool : ∀ b, P (.bool b))
    (num : ∀ n, P (.num n)) (str : ∀ s, P (.str s)) (arr : ∀ xs, (∀ x ∈ xs, P x) → P (.arr xs))
    (obj : ∀ kvs : Fields, (∀ e ∈ kvs, P e.2) → P (.obj kvs)) (v : Value) : P v := by
  refine @Value.rec P (fun xs => ∀ x ∈ xs, P x) (fun kvs => ∀ e ∈ kvs, P e.2) (fun e => P e.2)
    null bool num str (fun xs ih => arr xs ih) (fun kvs ih => obj kvs ih) ?_ ?_ ?_ ?_ ?_ v
  · intro x hx
    cases hx
  · intro x xs hx hxs
    exact List.forall_mem_cons.mpr ⟨hx, hxs⟩
  · intro e he
    cases he
  · intro e kvs he hkvs
    exact List.forall_mem_cons.mpr ⟨he, hkvs⟩
  · intro _ _ hv
    exact hv

theorem isText_iff {value : Option Value} {s : String} :
    isText value s = true ↔ value = some (.str s) := by
  cases value with
  | none => simp [isText]
  | some v => cases v <;> simp [isText]

/-! ## The grammar -/

def Digits (cs : List Char) : Prop := cs ≠ [] ∧ ∀ c ∈ cs, c.isDigit = true

/-- A number: a sign, digits without a leading zero, a fraction and an exponent. -/
def JsonNumber (cs : List Char) : Prop :=
  ∃ sign whole fraction exponent, cs = sign ++ whole ++ fraction ++ exponent ∧
    (sign = [] ∨ sign = ['-']) ∧
    Digits whole ∧ (whole.head? = some '0' → whole = ['0']) ∧
    (fraction = [] ∨ ∃ ds, fraction = '.' :: ds ∧ Digits ds) ∧
    (exponent = [] ∨ ∃ e s ds, exponent = e :: s ++ ds ∧ e ∈ ['e', 'E'] ∧
      s ∈ [[], ['+'], ['-']] ∧ Digits ds)

/-- One character of a string: as it is, or escaped. -/
inductive JsonChar : List Char → Prop where
  | plain (c : Char) : 32 ≤ c.toNat → c ≠ '"' → c ≠ '\\' → JsonChar [c]
  | escaped (c : Char) : c ∈ ['"', '\\', '/', 'b', 'f', 'n', 'r', 't'] → JsonChar ['\\', c]
  | unicode (a b c d : Char) : (∀ x ∈ [a, b, c, d], x ∈ "0123456789abcdefABCDEF".toList) →
    JsonChar ['\\', 'u', a, b, c, d]

def JsonString (cs : List Char) : Prop :=
  ∃ parts : List (List Char), (∀ part ∈ parts, JsonChar part) ∧ cs = '"' :: (parts.flatten ++ ['"'])

def Blank (cs : List Char) : Prop := ∀ c ∈ cs, c ∈ [' ', '\t', '\n', '\r']

inductive JsonText : List Char → Prop where
  | null : JsonText ['n', 'u', 'l', 'l']
  | true : JsonText ['t', 'r', 'u', 'e']
  | false : JsonText ['f', 'a', 'l', 's', 'e']
  | number {cs : List Char} : JsonNumber cs → JsonText cs
  | string {cs : List Char} : JsonString cs → JsonText cs
  | array {xs : List (List Char)} : (∀ x ∈ xs, JsonText x) →
    JsonText ('[' :: ([','].intercalate xs ++ [']']))
  | object {es : List (List Char × List Char)} : (∀ e ∈ es, JsonString e.1) →
    (∀ e ∈ es, JsonText e.2) →
    JsonText ('{' :: ([','].intercalate (es.map fun e => e.1 ++ ':' :: e.2) ++ ['}']))
  | spaced {before cs after : List Char} : Blank before → Blank after → JsonText cs →
    JsonText (before ++ cs ++ after)

/-- What the runtime writes of finite numbers: JSON numbers, another one for every number. -/
structure Runtime.Numerals (js : Runtime) : Prop where
  number : ∀ q, JsonNumber (js.numberToString q).toList
  injective : Function.Injective js.numberToString

/-! ## Writing -/

section
variable (js : Runtime)

/-- What is not finite is written as `null`. -/
def numberJson : Number → List Char
  | .finite q => (js.numberToString q).toList
  | _ => ['n', 'u', 'l', 'l']

mutual
/-- `JSON.stringify`. -/
def text : Value → List Char
  | .null => ['n', 'u', 'l', 'l']
  | .bool true => ['t', 'r', 'u', 'e']
  | .bool false => ['f', 'a', 'l', 's', 'e']
  | .num n => numberJson js n
  | .str s => quote s
  | .arr xs => '[' :: ([','].intercalate (textList xs) ++ [']'])
  | .obj kvs => '{' :: ([','].intercalate (textFields kvs) ++ ['}'])

def textList : List Value → List (List Char)
  | [] => []
  | x :: xs => text x :: textList xs

def textFields : List (String × Value) → List (List Char)
  | [] => []
  | (k, v) :: kvs => (quote k ++ ':' :: text v) :: textFields kvs
end

def textField (e : String × Value) : List Char := quote e.1 ++ ':' :: text js e.2

theorem textList_eq_map (xs : List Value) : textList js xs = xs.map (text js) := by
  induction xs with
  | nil => rfl
  | cons x xs ih => rw [textList, List.map_cons, ih]

theorem textFields_eq_map (kvs : Fields) : textFields js kvs = kvs.map (textField js) := by
  induction kvs with
  | nil => rfl
  | cons e kvs ih => rw [textFields, List.map_cons, ih, textField]

end

mutual
/-- Every number in the value is finite, as it is where the value is JSON. -/
def Value.finite : Value → Bool
  | .num n => match n with
    | .finite _ => true
    | _ => false
  | .arr xs => finiteList xs
  | .obj kvs => finiteFields kvs
  | _ => true

def finiteList : List Value → Bool
  | [] => true
  | x :: xs => x.finite && finiteList xs

def finiteFields : List (String × Value) → Bool
  | [] => true
  | (_, v) :: kvs => v.finite && finiteFields kvs
end

theorem finiteList_iff {xs : List Value} : finiteList xs = true ↔ ∀ x ∈ xs, x.finite = true := by
  induction xs with
  | nil => simp [finiteList]
  | cons x xs ih => simp [finiteList, ih]

theorem finiteFields_iff {kvs : Fields} :
    finiteFields kvs = true ↔ ∀ e ∈ kvs, e.2.finite = true := by
  induction kvs with
  | nil => simp [finiteFields]
  | cons e kvs ih => simp [finiteFields, ih]

/-! ## What is written is JSON -/

theorem jsonChar_escape (c : Char) : JsonChar (Json.escape c) := by
  unfold Json.escape
  split
  · exact .escaped _ (by decide)
  split
  · exact .escaped _ (by decide)
  split
  · exact .escaped _ (by decide)
  split
  · exact .escaped _ (by decide)
  split
  · exact .escaped _ (by decide)
  split
  · exact .escaped _ (by decide)
  split
  · exact .escaped _ (by decide)
  split
  · next hlow =>
    generalize c.toNat = n at hlow
    refine .unicode _ _ _ _ ?_
    interval_cases n <;> exact List.all_iff_forall_prop.mp (by decide)
  · next hquote hback _ _ _ _ _ hlow => exact .plain c (by omega) hquote hback

theorem jsonString_quote (s : String) : JsonString (quote s) := by
  refine ⟨s.toList.map Json.escape, ?_, ?_⟩
  · intro part hpart
    obtain ⟨c, -, rfl⟩ := List.mem_map.mp hpart
    exact jsonChar_escape c
  · rw [quote, List.flatMap_def]

section
variable {js : Runtime}

theorem jsonText_numberJson (hjs : js.Numerals) (n : Number) : JsonText (numberJson js n) := by
  cases n with
  | finite q => exact .number (hjs.number q)
  | _ => exact .null

/-- What is written of a value is JSON. -/
theorem jsonText_text (hjs : js.Numerals) (v : Value) : JsonText (text js v) := by
  induction v using Value.induct with
  | null => exact .null
  | bool b =>
    cases b with
    | true => exact .true
    | false => exact .false
  | num n => exact jsonText_numberJson hjs n
  | str s => exact .string (jsonString_quote s)
  | arr xs ih =>
    rw [text, textList_eq_map]
    refine .array fun x hx => ?_
    obtain ⟨v, hv, rfl⟩ := List.mem_map.mp hx
    exact ih v hv
  | obj kvs ih =>
    have htexts : textFields js kvs =
        (kvs.map fun e => (quote e.1, text js e.2)).map fun e => e.1 ++ ':' :: e.2 := by
      rw [textFields_eq_map, List.map_map]
      rfl
    rw [text, htexts]
    refine .object ?_ ?_
    · intro e he
      obtain ⟨e, -, rfl⟩ := List.mem_map.mp he
      exact jsonString_quote e.1
    · intro e he
      obtain ⟨e, hmem, rfl⟩ := List.mem_map.mp he
      exact ih e hmem

/-! ## Telling texts apart -/

/-- The characters of a number. -/
def isNumeral (c : Char) : Bool := c.isDigit || c ∈ ['-', '+', '.', 'e', 'E']

/-- The text is empty or starts with what may follow a value. -/
def Ends (r : List Char) : Prop := ∀ c t, r = c :: t → isNumeral c = false

theorem ends_cons {c : Char} (h : isNumeral c = false) (r : List Char) : Ends (c :: r) := by
  intro d t heq
  cases heq
  exact h

theorem numeral_of_digits {cs : List Char} (h : Digits cs) : ∀ c ∈ cs, isNumeral c = true := by
  intro c hc
  rw [isNumeral, h.2 c hc, Bool.true_or]

theorem jsonNumber_numeral {cs : List Char} (h : JsonNumber cs) : ∀ c ∈ cs, isNumeral c = true := by
  obtain ⟨sign, whole, fraction, exponent, rfl, hsign, hwhole, -, hfraction, hexponent⟩ := h
  simp only [List.forall_mem_append]
  refine ⟨⟨⟨?_, numeral_of_digits hwhole⟩, ?_⟩, ?_⟩
  · rcases hsign with rfl | rfl <;> exact List.all_eq_true.mp (by decide)
  · rcases hfraction with rfl | ⟨ds, rfl, hds⟩
    · simp
    · exact List.forall_mem_cons.mpr ⟨by decide, numeral_of_digits hds⟩
  · rcases hexponent with rfl | ⟨e, s, ds, rfl, he, hs, hds⟩
    · simp
    · simp only [List.cons_append, List.forall_mem_cons, List.forall_mem_append]
      refine ⟨?_, ?_, numeral_of_digits hds⟩
      · simp only [List.mem_cons, List.not_mem_nil, or_false] at he
        rcases he with rfl | rfl <;> decide
      · simp only [List.mem_cons, List.not_mem_nil, or_false] at hs
        rcases hs with rfl | rfl | rfl <;> exact List.all_eq_true.mp (by decide)

/-- A number starts with a digit or a minus. -/
theorem jsonNumber_head {cs : List Char} (h : JsonNumber cs) :
    ∃ c t, cs = c :: t ∧ (c.isDigit = true ∨ c = '-') := by
  obtain ⟨sign, whole, fraction, exponent, rfl, hsign, ⟨hne, hdigits⟩, -⟩ := h
  rcases hsign with rfl | rfl
  · cases whole with
    | nil => exact absurd rfl hne
    | cons c whole => exact ⟨c, _, rfl, .inl (hdigits c List.mem_cons_self)⟩
  · exact ⟨'-', _, rfl, .inr rfl⟩

/-- What a value is, as the first character of its text shows. -/
def kind : Value → Nat
  | .null => 0
  | .bool _ => 1
  | .num _ => 2
  | .str _ => 3
  | .arr _ => 4
  | .obj _ => 5

def kindOf (c : Char) : Nat :=
  if c = 'n' then 0
  else if c = 't' ∨ c = 'f' then 1
  else if c = '"' then 3
  else if c = '[' then 4
  else if c = '{' then 5
  else if c.isDigit ∨ c = '-' then 2
  else 6

theorem kindOf_number {c : Char} (h : c.isDigit = true ∨ c = '-') : kindOf c = 2 := by
  rcases h with h | rfl
  · have hne : ∀ d : Char, d.isDigit = false → c ≠ d := by
      rintro d hd rfl
      rw [h] at hd
      cases hd
    unfold kindOf
    rw [if_neg (hne _ (by decide)), if_neg (not_or.mpr ⟨hne _ (by decide), hne _ (by decide)⟩),
      if_neg (hne _ (by decide)), if_neg (hne _ (by decide)), if_neg (hne _ (by decide)),
      if_pos (.inl h)]
  · decide

theorem text_head (hjs : js.Numerals) {v : Value} (hv : v.finite = true) :
    ∃ c t, text js v = c :: t ∧ kindOf c = kind v := by
  cases v with
  | null => exact ⟨_, _, rfl, by decide⟩
  | bool b => cases b <;> exact ⟨_, _, rfl, by decide⟩
  | num n =>
    cases n with
    | finite q =>
      obtain ⟨c, t, hc, hnumber⟩ := jsonNumber_head (hjs.number q)
      exact ⟨c, t, hc, kindOf_number hnumber⟩
    | _ => cases hv
  | str s => exact ⟨'"', _, rfl, rfl⟩
  | arr xs => exact ⟨'[', _, rfl, rfl⟩
  | obj kvs => exact ⟨'{', _, rfl, rfl⟩

/-- A quoted text is told apart from every other, whatever follows. -/
theorem quote_append_inj {s s' : String} {r r' : List Char} (h : quote s ++ r = quote s' ++ r') :
    s = s' ∧ r = r' := by
  have hread : ∀ (s : String) (r : List Char) (fuel : Nat),
      (s.toList.flatMap Json.escape).length < fuel →
      Json.readString fuel (s.toList.flatMap Json.escape ++ '"' :: r) = some (s.toList, r) :=
    fun s r fuel => Json.readString_quote s.toList r fuel
  have htail : s.toList.flatMap Json.escape ++ '"' :: r =
      s'.toList.flatMap Json.escape ++ '"' :: r' := by
    have hbodies := (List.cons.inj (List.cons_append ▸ List.cons_append ▸ h)).2
    rwa [List.append_assoc, List.append_assoc] at hbodies
  let fuel := (s.toList.flatMap Json.escape).length + (s'.toList.flatMap Json.escape).length + 1
  have hs := hread s r fuel (by omega)
  rw [htail, hread s' r' fuel (by omega)] at hs
  obtain ⟨hchars, hr⟩ := Prod.mk.inj (Option.some.inj hs)
  exact ⟨String.toList_inj.mp hchars.symm, hr.symm⟩

theorem numeral_append_inj {w w' r r' : List Char} (hw : ∀ c ∈ w, isNumeral c = true)
    (hw' : ∀ c ∈ w', isNumeral c = true) (hr : Ends r) (hr' : Ends r') (h : w ++ r = w' ++ r') :
    w = w' ∧ r = r' := by
  have hspan := Json.span_word hw hr
  rw [h, Json.span_word hw' hr'] at hspan
  obtain ⟨hword, hrest⟩ := Prod.mk.inj hspan
  exact ⟨hword.symm, hrest.symm⟩

theorem readable_field {e : String × Value}
    (h : Readable Ends (fun v => v.finite = true) (text js) e.2) :
    Readable Ends (fun e => e.2.finite = true) (textField js) e := by
  intro f hf r r' hr hr' heq
  unfold textField at heq
  rw [List.append_assoc, List.append_assoc] at heq
  obtain ⟨hkey, hrest⟩ := quote_append_inj heq
  obtain ⟨hvalue, hend⟩ := h f.2 hf r r' hr hr' (List.cons.inj hrest).2
  exact ⟨Prod.ext hkey hvalue, hend⟩

theorem kind_le (v : Value) : kind v ≤ 5 := by
  cases v <;> simp [kind]

theorem text_append_ne (hjs : js.Numerals) {v : Value} (hv : v.finite = true) {c : Char}
    (hc : kindOf c = 6) (r t : List Char) : text js v ++ r ≠ c :: t := by
  intro h
  obtain ⟨d, u, hd, hkind⟩ := text_head hjs hv
  rw [hd] at h
  rw [(List.cons.inj h).1, hc] at hkind
  have := kind_le v
  omega

/-- Values whose texts start alike are of one kind. -/
theorem kind_of_text (hjs : js.Numerals) {v w : Value} (hv : v.finite = true)
    (hw : w.finite = true) {r r' : List Char} (h : text js v ++ r = text js w ++ r') :
    kind v = kind w := by
  obtain ⟨c, t, hc, hkind⟩ := text_head hjs hv
  obtain ⟨d, u, hd, hkind'⟩ := text_head hjs hw
  rw [hc, hd] at h
  rw [← hkind, ← hkind', (List.cons.inj h).1]

theorem numberJson_append_inj (hjs : js.Numerals) {m n : Number}
    (hm : (Value.num m).finite = true) (hn : (Value.num n).finite = true) {r r' : List Char}
    (hr : Ends r) (hr' : Ends r') (h : numberJson js m ++ r = numberJson js n ++ r') :
    m = n ∧ r = r' := by
  cases m with
  | finite p =>
    cases n with
    | finite q =>
      obtain ⟨hword, hrest⟩ := numeral_append_inj (jsonNumber_numeral (hjs.number p))
        (jsonNumber_numeral (hjs.number q)) hr hr' h
      rw [hjs.injective (String.toList_inj.mp hword)]
      exact ⟨rfl, hrest⟩
    | _ => cases hn
  | _ => cases hm

/-- **Texts tell values apart.** A value is read off the front of a text in one way. -/
theorem readable_text (hjs : js.Numerals) (v : Value) (hv : v.finite = true) :
    Readable Ends (fun v => v.finite = true) (text js) v := by
  induction v using Value.induct with
  | null =>
    intro w hw r r' _ _ h
    have hkind := kind_of_text hjs hv hw h
    cases w <;> cases hkind
    exact ⟨rfl, List.append_cancel_left h⟩
  | bool b =>
    intro w hw r r' _ _ h
    have hkind := kind_of_text hjs hv hw h
    cases w <;> cases hkind
    next b' =>
      cases b <;> cases b'
      · exact ⟨rfl, List.append_cancel_left h⟩
      · cases h
      · cases h
      · exact ⟨rfl, List.append_cancel_left h⟩
  | num n =>
    intro w hw r r' hr hr' h
    have hkind := kind_of_text hjs hv hw h
    cases w <;> cases hkind
    next n' =>
      obtain ⟨rfl, hrest⟩ := numberJson_append_inj hjs hv hw hr hr' h
      exact ⟨rfl, hrest⟩
  | str s =>
    intro w hw r r' _ _ h
    have hkind := kind_of_text hjs hv hw h
    cases w <;> cases hkind
    next s' =>
      obtain ⟨rfl, hrest⟩ := quote_append_inj h
      exact ⟨rfl, hrest⟩
  | arr xs ih =>
    intro w hw r r' _ _ h
    have hkind := kind_of_text hjs hv hw h
    cases w <;> cases hkind
    next ys =>
      have hxs := finiteList_iff.mp hv
      have hys := finiteList_iff.mp hw
      rw [text, text, textList_eq_map, textList_eq_map] at h
      have hitems := (List.cons.inj h).2
      rw [List.append_eq, List.append_eq, List.append_assoc, List.append_assoc] at hitems
      obtain ⟨rfl, hrest⟩ := readable_list (ends_cons (by decide)) (ends_cons (by decide))
        (by decide) (fun v hv r t => text_append_ne hjs hv (by decide) r t)
        (fun x hx => ⟨hxs x hx, ih x hx (hxs x hx)⟩) hys hitems
      exact ⟨rfl, hrest⟩
  | obj kvs ih =>
    intro w hw r r' _ _ h
    have hkind := kind_of_text hjs hv hw h
    cases w <;> cases hkind
    next kws =>
      have hkvs := finiteFields_iff.mp hv
      have hkws := finiteFields_iff.mp hw
      rw [text, text, textFields_eq_map, textFields_eq_map] at h
      have hitems := (List.cons.inj h).2
      rw [List.append_eq, List.append_eq, List.append_assoc, List.append_assoc] at hitems
      have hquote : ∀ e : String × Value, e.2.finite = true → ∀ r t : List Char,
          textField js e ++ r ≠ '}' :: t := by
        intro e _ r t heq
        cases heq
      obtain ⟨rfl, hrest⟩ := readable_list (ends_cons (by decide)) (ends_cons (by decide))
        (by decide) hquote
        (fun e he => ⟨hkvs e he, readable_field (ih e he (hkvs e he))⟩) hkws hitems
      exact ⟨rfl, hrest⟩

theorem text_injective (hjs : js.Numerals) {v w : Value} (hv : v.finite = true)
    (hw : w.finite = true) (h : text js v = text js w) : v = w := by
  have hnil : Ends [] := by
    intro c t hc
    cases hc
  exact (readable_text hjs v hv w hw [] [] hnil hnil (by rw [h])).1

end

/-! ## Properties in another order -/

mutual
/-- The same value, with the properties of its objects in another order. -/
inductive Reordered : Value → Value → Prop where
  | null : Reordered .null .null
  | bool (b : Bool) : Reordered (.bool b) (.bool b)
  | num (n : Number) : Reordered (.num n) (.num n)
  | str (s : String) : Reordered (.str s) (.str s)
  | arr {xs ys : List Value} : ReorderedList xs ys → Reordered (.arr xs) (.arr ys)
  | obj {kvs kvs' kws : List (String × Value)} : kvs.Perm kvs' → ReorderedFields kvs' kws →
    Reordered (.obj kvs) (.obj kws)

inductive ReorderedList : List Value → List Value → Prop where
  | nil : ReorderedList [] []
  | cons {x y : Value} {xs ys : List Value} : Reordered x y → ReorderedList xs ys →
    ReorderedList (x :: xs) (y :: ys)

/-- Values of the same properties in the same order. -/
inductive ReorderedFields : List (String × Value) → List (String × Value) → Prop where
  | nil : ReorderedFields [] []
  | cons {k : String} {v w : Value} {kvs kws : List (String × Value)} : Reordered v w →
    ReorderedFields kvs kws → ReorderedFields ((k, v) :: kvs) ((k, w) :: kws)
end

theorem reorderedList_iff {xs ys : List Value} :
    ReorderedList xs ys ↔ List.Forall₂ Reordered xs ys := by
  induction xs generalizing ys with
  | nil =>
    constructor
    · intro h
      cases h
      exact .nil
    · intro h
      cases h
      exact .nil
  | cons x xs ih =>
    constructor
    · intro h
      cases h with
      | cons hx hxs => exact .cons hx (ih.mp hxs)
    · intro h
      cases h with
      | cons hx hxs => exact .cons hx (ih.mpr hxs)

theorem reorderedFields_iff {kvs kws : Fields} :
    ReorderedFields kvs kws ↔
      List.Forall₂ (fun e f => e.1 = f.1 ∧ Reordered e.2 f.2) kvs kws := by
  induction kvs generalizing kws with
  | nil =>
    constructor
    · intro h
      cases h
      exact .nil
    · intro h
      cases h
      exact .nil
  | cons e kvs ih =>
    constructor
    · intro h
      cases h with
      | cons hv hkvs => exact .cons ⟨rfl, hv⟩ (ih.mp hkvs)
    · intro h
      cases h with
      | cons hv hkvs =>
        obtain ⟨k, v⟩ := e
        obtain ⟨rfl, hv⟩ := hv
        exact .cons hv (ih.mpr hkvs)

theorem Reordered.refl (v : Value) : Reordered v v := by
  induction v using Value.induct with
  | null => exact .null
  | bool b => exact .bool b
  | num n => exact .num n
  | str s => exact .str s
  | arr xs ih => exact .arr (reorderedList_iff.mpr (List.forall₂_same.mpr ih))
  | obj kvs ih =>
    exact .obj (.refl _) (reorderedFields_iff.mpr (List.forall₂_same.mpr fun e he => ⟨rfl, ih e he⟩))

section
variable {js : Runtime}

theorem sum_forall₂ {α β : Type} {R : α → β → Prop} {f : α → Nat} {g : β → Nat} {l : List α}
    {m : List β} (h : List.Forall₂ R l m) (hfg : ∀ a ∈ l, ∀ b, R a b → f a = g b) :
    (l.map f).sum = (m.map g).sum := by
  induction h with
  | nil => rfl
  | cons hab _ ih =>
    rw [List.map_cons, List.map_cons, List.sum_cons, List.sum_cons, hfg _ List.mem_cons_self _ hab,
      ih fun a ha => hfg a (List.mem_cons_of_mem _ ha)]

theorem length_object (kvs : Fields) : (text js (.obj kvs)).length =
    1 + max 1 (kvs.map fun e => (textField js e).length + 1).sum := by
  have hbody := @length_intercalate ',' (kvs.map (textField js))
  rw [List.map_map] at hbody
  rw [text, textFields_eq_map, List.length_cons, List.length_append, List.length_singleton, hbody,
    Nat.add_comm]
  rfl

/-- Values that differ in the order of their properties have texts of one length. -/
theorem length_text_reordered (v w : Value) (h : Reordered v w) :
    (text js v).length = (text js w).length := by
  induction v using Value.induct generalizing w with
  | null | bool _ | num _ | str _ =>
    cases h
    rfl
  | arr xs ih =>
    cases h with
    | arr hitems =>
      next ys =>
      have hsum := sum_forall₂ (f := fun x => (text js x).length + 1)
        (g := fun x => (text js x).length + 1) (reorderedList_iff.mp hitems)
        (fun x hx y hxy => by rw [ih x hx y hxy])
      have hxs := @length_intercalate ',' (xs.map (text js))
      have hys := @length_intercalate ',' (ys.map (text js))
      rw [List.map_map] at hxs hys
      rw [text, text, textList_eq_map, textList_eq_map, List.length_cons, List.length_cons,
        List.length_append, List.length_append, List.length_singleton, hxs, hys]
      exact congrArg (fun n => max 1 n + 1) hsum
  | obj kvs ih =>
    cases h with
    | obj hperm hfields =>
      next kvs' kws =>
      have hsum := sum_forall₂ (f := fun e => (textField js e).length + 1)
        (g := fun e => (textField js e).length + 1) (reorderedFields_iff.mp hfields)
        (fun e he f hef => by
          unfold textField
          rw [List.length_append, List.length_append, List.length_cons, List.length_cons, hef.1,
            ih e (hperm.mem_iff.mpr he) f.2 hef.2])
      rw [length_object, length_object, (hperm.map _).sum_eq, hsum]

end

/-! ## A runtime -/

/-- A positive number has no leading zero. -/
theorem toDigits_head (n : Nat) (h : (Nat.toDigits 10 n).head? = some '0') : n = 0 := by
  induction n using Nat.strong_induction_on with
  | h n ih =>
    by_cases hsmall : n < 10
    · rw [Nat.toDigits_of_lt_base hsmall] at h
      exact Nat.digitChar_eq_zero.mp (Option.some.inj h)
    · have hbig : 10 ≤ n := by omega
      rw [Nat.toDigits_of_base_le (by decide) hbig, List.head?_append_of_ne_nil _
        Nat.toDigits_ne_nil] at h
      have := ih (n / 10) (by omega) h
      omega

theorem digits_toDigits (n : Nat) : Digits (Nat.toDigits 10 n) :=
  ⟨Nat.toDigits_ne_nil, fun _ hc => Nat.isDigit_of_mem_toDigits (by decide) (by decide) hc⟩

/-- An integer in decimal, and any other number as its numerator with its denominator for an
exponent. -/
def decimal (q : Rat) : List Char :=
  if q.den = 1 then Json.intText q.num else Json.intText q.num ++ 'e' :: Nat.toDigits 10 q.den

theorem jsonNumber_intText (n : Int) {exponent : List Char}
    (h : exponent = [] ∨ ∃ m, exponent = 'e' :: Nat.toDigits 10 m) :
    JsonNumber (Json.intText n ++ exponent) := by
  have hzero : (Nat.toDigits 10 n.natAbs).head? = some '0' → Nat.toDigits 10 n.natAbs = ['0'] := by
    intro hhead
    rw [toDigits_head _ hhead]
    rfl
  refine ⟨if n < 0 then ['-'] else [], Nat.toDigits 10 n.natAbs, [], exponent, ?_, ?_,
    digits_toDigits _, hzero, .inl rfl, ?_⟩
  · unfold Json.intText
    split <;> simp
  · split
    · exact .inr rfl
    · exact .inl rfl
  · refine h.imp_right ?_
    rintro ⟨m, rfl⟩
    exact ⟨'e', [], _, rfl, by decide, by decide, digits_toDigits m⟩

theorem decimal_injective : Function.Injective decimal := by
  have hint : ∀ n : Int, ∀ c ∈ Json.intText n, (c != 'e') = true := by
    intro n c hc
    rcases Json.intText_chars hc with rfl | hdigit
    · decide
    · refine bne_iff_ne.mpr ?_
      rintro rfl
      exact absurd hdigit (by decide)
  have hspan : ∀ q : Rat, (decimal q).span (· != 'e') =
      (Json.intText q.num, if q.den = 1 then [] else 'e' :: Nat.toDigits 10 q.den) := by
    intro q
    unfold decimal
    split
    · have := Json.span_word (p := (· != 'e')) (r := []) (hint q.num) (fun c t h => by cases h)
      rwa [List.append_nil] at this
    · exact Json.span_word (hint q.num) (fun c t h => by cases h; rfl)
  intro p q h
  have hparts := hspan p
  rw [h, hspan q] at hparts
  obtain ⟨hnum, hden⟩ := Prod.mk.inj hparts
  have hnums := congrArg Json.readInt hnum
  rw [Json.readInt_intText, Json.readInt_intText] at hnums
  refine Rat.ext hnums.symm ?_
  by_cases hp : p.den = 1 <;> by_cases hq : q.den = 1
  · rw [hp, hq]
  · rw [if_pos hp, if_neg hq] at hden
    cases hden
  · rw [if_neg hp, if_pos hq] at hden
    cases hden
  · rw [if_neg hp, if_neg hq] at hden
    have hdens := congrArg Json.readNat (List.cons.inj hden).2
    simpa only [Json.readNat, Nat.ofDigitChars_ten_toDigits] using hdens.symm

/-- A runtime whose numerals are those of integers. -/
def Runtime.decimal : Runtime :=
  { Runtime.sample with numberToString := fun q => String.ofList (Js.decimal q) }

theorem decimal_numerals : Runtime.decimal.Numerals where
  number q := by
    show JsonNumber (String.ofList (decimal q)).toList
    rw [String.toList_ofList]
    unfold Js.decimal
    split
    · have := jsonNumber_intText q.num (.inl rfl)
      rwa [List.append_nil] at this
    · exact jsonNumber_intText q.num (.inr ⟨_, rfl⟩)
  injective p q h := decimal_injective (String.ofList_injective h)

end Edon.Js
