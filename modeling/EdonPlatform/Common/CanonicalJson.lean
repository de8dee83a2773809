import EdonPlatform.Common.Json
import Mathlib.Data.Rat.Init
import Mathlib.Data.String.Basic
import Mathlib.Tactic.IntervalCases

/- The text `canonical_json` writes, `json.loads`, which reads it back, and the digest
   `sha256_json` takes of it (edon/common/hashing.py). `render` is `json.dumps` with the
   separators `,` and `:` and without ASCII escapes; `canonicalJson` sorts the keys
   first. A float is written as the fraction it denotes, since an exact number has no
   shortest decimal.

   `loads_canonicalJson`: reading a canonical text gives the value with its keys sorted.
   So two values with the same canonical text differ only in the order of their keys
   (`canonicalJson_injective`), which turns injectivity of SHA-256 on texts, an
   assumption, into injectivity of `sha256Json` up to key order. -/
namespace Edon
namespace Json

/-- The four hexadecimal digits of a code point below 32. -/
def hex4 (n : Nat) : List Char := ['0', '0', Nat.digitChar (n / 16), Nat.digitChar (n % 16)]

/-- One character inside a string literal, as `json.dumps(ensure_ascii=False)` writes it. -/
def escape (c : Char) : List Char :=
  if c = '"' then ['\\', '"']
  else if c = '\\' then ['\\', '\\']
  else if c = '\n' then ['\\', 'n']
  else if c = '\r' then ['\\', 'r']
  else if c = '\t' then ['\\', 't']
  else if c = Char.ofNat 12 then ['\\', 'f']
  else if c = Char.ofNat 8 then ['\\', 'b']
  else if c.toNat < 32 then '\\' :: 'u' :: hex4 c.toNat
  else [c]

def quote (s : String) : List Char := '"' :: (s.toList.flatMap escape ++ ['"'])

def intText (n : Int) : List Char :=
  if n < 0 then '-' :: Nat.toDigits 10 n.natAbs else Nat.toDigits 10 n.natAbs

def floatText (q : Rat) : List Char := intText q.num ++ '/' :: Nat.toDigits 10 q.den

mutual
def render : Json → List Char
  | .null => ['n', 'u', 'l', 'l']
  | .bool true => ['t', 'r', 'u', 'e']
  | .bool false => ['f', 'a', 'l', 's', 'e']
  | .int n => intText n
  | .float q => floatText q
  | .str s => quote s
  | .arr [] => ['[', ']']
  | .arr (x :: xs) => '[' :: (render x ++ renderList xs)
  | .obj [] => ['{', '}']
  | .obj ((k, v) :: kvs) => '{' :: (quote k ++ ':' :: (render v ++ renderFields kvs))

/-- The elements after the first, and the closing bracket. -/
def renderList : List Json → List Char
  | [] => [']']
  | x :: xs => ',' :: (render x ++ renderList xs)

def renderFields : List (String × Json) → List Char
  | [] => ['}']
  | (k, v) :: kvs => ',' :: (quote k ++ ':' :: (render v ++ renderFields kvs))
end

def canonicalJson (v : Json) : String := String.ofList (render (canon v))

/-- `sha256_json`, over the digest `sha256` of a text (its hexadecimal form). -/
def sha256Json (sha256 : String → String) (v : Json) : String := "sha256:" ++ sha256 (canonicalJson v)

example : canonicalJson (.obj [("b", .arr [.int 1, .int (-20)]), ("a", .str "x\n")]) =
    "\x7b\"a\":\"x\\n\",\"b\":[1,-20]\x7d" := by decide

/-! ## Reading -/

/-- One escaped character and what follows it. -/
def unescape : List Char → Option (Char × List Char)
  | '\\' :: 'u' :: _ :: _ :: a :: b :: r =>
    some (Char.ofNat (16 * (a.toNat - '0'.toNat) +
      (if b.toNat < 58 then b.toNat - '0'.toNat else b.toNat - 'a'.toNat + 10)), r)
  | '\\' :: 'n' :: r => some ('\n', r)
  | '\\' :: 'r' :: r => some ('\r', r)
  | '\\' :: 't' :: r => some ('\t', r)
  | '\\' :: 'f' :: r => some (Char.ofNat 12, r)
  | '\\' :: 'b' :: r => some (Char.ofNat 8, r)
  | '\\' :: c :: r => some (c, r)
  | c :: r => some (c, r)
  | [] => none

def readString : Nat → List Char → Option (List Char × List Char)
  | 0, _ => none
  | _ + 1, '"' :: r => some ([], r)
  | fuel + 1, cs => do
    let (c, r) ← unescape cs
    let (s, r) ← readString fuel r
    return (c :: s, r)

/-- The characters of a number's text. -/
def isNumberChar (c : Char) : Bool := c == '-' || c == '/' || (48 ≤ c.toNat && c.toNat ≤ 57)

def readNat (ds : List Char) : Nat := Nat.ofDigitChars 10 ds 0

def readInt : List Char → Int
  | '-' :: ds => -readNat ds
  | ds => readNat ds

/-- The number a text of number characters denotes. -/
def readNumber (w : List Char) : Json :=
  match w.span (· != '/') with
  | (num, _ :: den) => .float (mkRat (readInt num) (readNat den))
  | (num, []) => .int (readInt num)

mutual
/-- A value and what follows it. -/
def readValue : Nat → List Char → Option (Json × List Char)
  | 0, _ => none
  | _ + 1, [] => none
  | fuel + 1, c :: rest =>
    if isNumberChar c then
      let (w, r) := (c :: rest).span isNumberChar
      some (readNumber w, r)
    else match c, rest with
      | 'n', 'u' :: 'l' :: 'l' :: r => some (.null, r)
      | 't', 'r' :: 'u' :: 'e' :: r => some (.bool true, r)
      | 'f', 'a' :: 'l' :: 's' :: 'e' :: r => some (.bool false, r)
      | '"', r => do
        let (s, r) ← readString fuel r
        return (.str (String.ofList s), r)
      | '[', ']' :: r => some (.arr [], r)
      | '[', r => do
        let (x, r) ← readValue fuel r
        let (xs, r) ← readItems fuel r
        return (.arr (x :: xs), r)
      | '{', '}' :: r => some (.obj [], r)
      | '{', r => do
        let (e, r) ← readField fuel r
        let (es, r) ← readFields fuel r
        return (.obj (e :: es), r)
      | _, _ => none

/-- The elements after the first, and the closing bracket. -/
def readItems : Nat → List Char → Option (List Json × List Char)
  | 0, _ => none
  | fuel + 1, ',' :: r => do
    let (x, r) ← readValue fuel r
    let (xs, r) ← readItems fuel r
    return (x :: xs, r)
  | _ + 1, ']' :: r => some ([], r)
  | _ + 1, _ => none

def readField : Nat → List Char → Option ((String × Json) × List Char)
  | fuel + 1, '"' :: r => do
    let (k, r) ← readString fuel r
    match r with
    | ':' :: r =>
      let (v, r) ← readValue fuel r
      return ((String.ofList k, v), r)
    | _ => none
  | _, _ => none

def readFields : Nat → List Char → Option (List (String × Json) × List Char)
  | 0, _ => none
  | fuel + 1, ',' :: r => do
    let (e, r) ← readField fuel r
    let (es, r) ← readFields fuel r
    return (e :: es, r)
  | _ + 1, '}' :: r => some ([], r)
  | _ + 1, _ => none
end

/-- `json.loads`, on the texts `json.dumps` writes. -/
def loads (text : String) : Option Json :=
  match readValue (text.toList.length + 1) text.toList with
  | some (v, []) => some v
  | _ => none

/-! ## Reading a canonical text -/

theorem unescape_escape (c : Char) (r : List Char) : unescape (escape c ++ r) = some (c, r) := by
  unfold escape
  split
  · next h => subst h; rfl
  split
  · next h => subst h; rfl
  split
  · next h => subst h; rfl
  split
  · next h => subst h; rfl
  split
  · next h => subst h; rfl
  split
  · next h => subst h; rfl
  split
  · next h => subst h; rfl
  split
  · next h =>
    -- a control character: its code point is read from the two low digits
    have hc : Char.ofNat c.toNat = c := Char.ofNat_toNat c
    generalize c.toNat = n at h hc
    subst hc
    interval_cases n <;> rfl
  · next hquote hback _ _ _ _ _ _ =>
    show unescape (c :: r) = some (c, r)
    unfold unescape
    split <;> simp_all

theorem digit_cases {n : Nat} {c : Char} (h : c ∈ Nat.toDigits 10 n) : 48 ≤ c.toNat ∧ c.toNat ≤ 57 := by
  have := Nat.isDigit_of_mem_toDigits (by decide) (by decide) h
  simpa [Char.isDigit, UInt32.le_iff_toNat_le] using this

theorem intText_chars {n : Int} {c : Char} (h : c ∈ intText n) :
    c = '-' ∨ (48 ≤ c.toNat ∧ c.toNat ≤ 57) := by
  unfold intText at h
  split at h
  · rcases List.mem_cons.mp h with h | h
    · exact .inl h
    · exact .inr (digit_cases h)
  · exact .inr (digit_cases h)

theorem unescape_escape_ne (c : Char) (r : List Char) : ∃ d t, escape c ++ r = d :: t ∧ d ≠ '"' := by
  unfold escape
  repeat' split
  all_goals first
    | exact ⟨_, _, rfl, by decide⟩
    | exact ⟨c, r, rfl, by assumption⟩

theorem readString_quote (s r : List Char) (fuel : Nat)
    (h : (s.flatMap escape).length < fuel) :
    readString fuel (s.flatMap escape ++ '"' :: r) = some (s, r) := by
  induction s generalizing fuel with
  | nil =>
    cases fuel with
    | zero => simp at h
    | succ n => rfl
  | cons c s ih =>
    cases fuel with
    | zero => simp at h
    | succ n =>
      have hone : 0 < (escape c).length := by
        obtain ⟨d, t, ht, _⟩ := unescape_escape_ne c []
        rw [List.append_nil] at ht
        simp [ht]
      have hrest : (s.flatMap escape).length < n := by
        simp only [List.flatMap_cons, List.length_append] at h
        omega
      obtain ⟨d, t, ht, hd⟩ := unescape_escape_ne c (s.flatMap escape ++ '"' :: r)
      have hread := unescape_escape c (s.flatMap escape ++ '"' :: r)
      rw [ht] at hread
      rw [List.flatMap_cons, List.append_assoc, ht]
      have hstep : readString (n + 1) (d :: t) = (do
          let (c, r) ← unescape (d :: t)
          let (s, r) ← readString n r
          return (c :: s, r)) := by
        rw [readString]
        intro r he
        exact hd (List.cons.inj he).1
      rw [hstep, hread]
      simp [ih n hrest]

theorem isNumberChar_intText {n : Int} {c : Char} (h : c ∈ intText n) :
    isNumberChar c = true ∧ c ≠ '/' := by
  rcases intText_chars h with rfl | h
  · decide
  · refine ⟨by simp [isNumberChar, h], ?_⟩
    rintro rfl
    exact absurd h (by decide)

theorem readInt_intText (n : Int) : readInt (intText n) = n := by
  unfold intText
  split
  · simp only [readInt, readNat, Nat.ofDigitChars_ten_toDigits]
    omega
  · next hn =>
    have hdash : ∀ s, Nat.toDigits 10 n.natAbs ≠ '-' :: s := by
      intro s hs
      have := digit_cases (hs ▸ List.mem_cons_self : '-' ∈ Nat.toDigits 10 n.natAbs)
      exact absurd this (by decide)
    unfold readInt
    split
    · next s hs => exact absurd hs (hdash s)
    · simp only [readNat, Nat.ofDigitChars_ten_toDigits]
      omega

/-- The text is empty or starts with what may follow a value. -/
def Delimited (r : List Char) : Prop := ∀ c t, r = c :: t → isNumberChar c = false

theorem span_word {p : Char → Bool} {w r : List Char} (hw : ∀ c ∈ w, p c = true)
    (hr : ∀ c t, r = c :: t → p c = false) : (w ++ r).span p = (w, r) := by
  rw [List.span_eq_takeWhile_dropWhile]
  have hdrop : r.dropWhile p = r := by
    cases r with
    | nil => rfl
    | cons c t => simp [hr c t rfl]
  have htake : r.takeWhile p = [] := by
    cases r with
    | nil => rfl
    | cons c t => simp [hr c t rfl]
  rw [List.takeWhile_append_of_pos hw, List.dropWhile_append_of_pos hw, hdrop, htake,
    List.append_nil]

theorem readNumber_intText (n : Int) : readNumber (intText n) = .int n := by
  have hspan : (intText n).span (· != '/') = (intText n, []) := by
    have := span_word (p := (· != '/')) (w := intText n) (r := [])
      (fun c hc => by simp [(isNumberChar_intText hc).2]) nofun
    rwa [List.append_nil] at this
  unfold readNumber
  rw [hspan]
  simp only [readInt_intText]

theorem readNumber_floatText (q : Rat) : readNumber (floatText q) = .float q := by
  have hspan : (floatText q).span (· != '/') = (intText q.num, '/' :: Nat.toDigits 10 q.den) := by
    refine span_word (fun c hc => by simp [(isNumberChar_intText hc).2]) ?_
    intro c t h
    cases h
    rfl
  unfold readNumber
  rw [hspan]
  simp only [readInt_intText, readNat, Nat.ofDigitChars_ten_toDigits, Rat.mkRat_self]

/-- A number's text is read whole. -/
theorem readValue_number {w r : List Char} {fuel : Nat} (hne : w ≠ [])
    (hw : ∀ c ∈ w, isNumberChar c = true) (hr : Delimited r) :
    readValue (fuel + 1) (w ++ r) = some (readNumber w, r) := by
  cases w with
  | nil => exact absurd rfl hne
  | cons c w =>
    have hspan := span_word hw hr
    rw [List.cons_append] at hspan ⊢
    unfold readValue
    simp only [hw c List.mem_cons_self, if_true, hspan]

theorem intText_ne_nil (n : Int) : intText n ≠ [] := by
  unfold intText
  split
  · exact List.cons_ne_nil _ _
  · exact Nat.toDigits_ne_nil

theorem isNumberChar_floatText {q : Rat} {c : Char} (h : c ∈ floatText q) :
    isNumberChar c = true := by
  rcases List.mem_append.mp h with h | h
  · exact (isNumberChar_intText h).1
  · rcases List.mem_cons.mp h with rfl | h
    · decide
    · simp [isNumberChar, digit_cases h]

theorem delimited_renderList (xs : List Json) (r : List Char) : Delimited (renderList xs ++ r) := by
  intro c t h
  cases xs <;> (simp only [renderList, List.cons_append] at h; cases h; decide)

theorem delimited_renderFields (kvs : List (String × Json)) (r : List Char) :
    Delimited (renderFields kvs ++ r) := by
  intro c t h
  rcases kvs with _ | ⟨⟨k, v⟩, kvs⟩ <;>
    (simp only [renderFields, List.cons_append] at h; cases h; decide)

/-- No value's text starts with a closing bracket. -/
theorem render_head (v : Json) (r : List Char) : ∃ c t, render v ++ r = c :: t ∧ c ≠ ']' := by
  have hnum {w : List Char} (hne : w ≠ []) (hw : ∀ c ∈ w, isNumberChar c = true) :
      ∃ c t, w ++ r = c :: t ∧ c ≠ ']' := by
    cases w with
    | nil => exact absurd rfl hne
    | cons c w =>
      refine ⟨c, w ++ r, rfl, ?_⟩
      rintro rfl
      exact absurd (hw _ List.mem_cons_self) (by decide)
  match v with
  | .null => exact ⟨_, _, rfl, by decide⟩
  | .bool true => exact ⟨_, _, rfl, by decide⟩
  | .bool false => exact ⟨_, _, rfl, by decide⟩
  | .str s => exact ⟨_, _, rfl, by decide⟩
  | .arr [] => exact ⟨_, _, rfl, by decide⟩
  | .arr (x :: xs) => exact ⟨_, _, rfl, by decide⟩
  | .obj [] => exact ⟨_, _, rfl, by decide⟩
  | .obj (e :: es) => exact ⟨_, _, rfl, by decide⟩
  | .int n =>
    simp only [render]
    exact hnum (intText_ne_nil n) (fun c hc => (isNumberChar_intText hc).1)
  | .float q =>
    simp only [render]
    refine hnum ?_ (fun c hc => isNumberChar_floatText hc)
    exact fun h => intText_ne_nil q.num (List.append_eq_nil_iff.mp h).1

/-- With enough fuel the reader takes the value's text off the front. -/
def ReadBack (v : Json) : Prop :=
  ∀ (r : List Char) (fuel : Nat), Delimited r → (render v).length < fuel →
    readValue fuel (render v ++ r) = some (v, r)

theorem readItems_renderList {xs : List Json} (ih : ∀ x ∈ xs, ReadBack x) (r : List Char)
    (fuel : Nat) (h : (renderList xs).length < fuel) :
    readItems fuel (renderList xs ++ r) = some (xs, r) := by
  induction xs generalizing fuel with
  | nil =>
    cases fuel with
    | zero => simp at h
    | succ n => rfl
  | cons x xs ihxs =>
    cases fuel with
    | zero => simp at h
    | succ n =>
      simp only [renderList, List.length_cons, List.length_append] at h
      have hx := ih x List.mem_cons_self (renderList xs ++ r) n (delimited_renderList xs r) (by omega)
      have hxs := ihxs (fun y hy => ih y (List.mem_cons_of_mem _ hy)) n (by omega)
      simp [renderList, readItems, hx, hxs]

theorem readField_quote {k : String} {v : Json} (ih : ReadBack v) {r : List Char}
    (hr : Delimited r) (fuel : Nat) (h : (quote k).length + (render v).length + 1 < fuel) :
    readField fuel (quote k ++ ':' :: (render v ++ r)) = some ((k, v), r) := by
  cases fuel with
  | zero => simp at h
  | succ n =>
    simp only [quote, List.length_cons, List.length_append, List.length_nil] at h
    have hk := readString_quote k.toList (':' :: (render v ++ r)) n (by omega)
    have hv := ih r n hr (by omega)
    simp [quote, readField, hk, hv]

theorem readFields_renderFields {kvs : List (String × Json)} (ih : ∀ e ∈ kvs, ReadBack e.2)
    (r : List Char) (fuel : Nat) (h : (renderFields kvs).length < fuel) :
    readFields fuel (renderFields kvs ++ r) = some (kvs, r) := by
  induction kvs generalizing fuel with
  | nil =>
    cases fuel with
    | zero => simp at h
    | succ n => rfl
  | cons e kvs ihkvs =>
    obtain ⟨k, v⟩ := e
    cases fuel with
    | zero => simp at h
    | succ n =>
      simp only [renderFields, List.length_cons, List.length_append] at h
      have hv := readField_quote (k := k) (v := v) (ih (k, v) List.mem_cons_self)
        (delimited_renderFields kvs r) n (by omega)
      have hkvs := ihkvs (fun y hy => ih y (List.mem_cons_of_mem _ hy)) n (by omega)
      simp [renderFields, readFields, hv, hkvs]

theorem readBack (v : Json) : ReadBack v := by
  induction v using induct with
  | null => exact fun r fuel _ h => by cases fuel <;> [simp at h; rfl]
  | bool b =>
    intro r fuel _ h
    cases fuel with
    | zero => simp at h
    | succ n => cases b <;> rfl
  | int n =>
    intro r fuel hr h
    cases fuel with
    | zero => simp at h
    | succ m =>
      simp only [render]
      rw [readValue_number (intText_ne_nil n) (fun c hc => (isNumberChar_intText hc).1) hr,
        readNumber_intText]
  | float q =>
    intro r fuel hr h
    cases fuel with
    | zero => simp at h
    | succ m =>
      have hne : floatText q ≠ [] := fun h => intText_ne_nil q.num (List.append_eq_nil_iff.mp h).1
      simp only [render]
      rw [readValue_number hne (fun c hc => isNumberChar_floatText hc) hr, readNumber_floatText]
  | str s =>
    intro r fuel _ h
    cases fuel with
    | zero => simp at h
    | succ n =>
      simp only [render, quote, List.length_cons, List.length_append, List.length_nil] at h
      have hs := readString_quote s.toList r n (by omega)
      have hq : isNumberChar '"' = false := by decide
      simp [render, quote, readValue, hq, hs]
  | arr xs ih =>
    intro r fuel _ h
    cases fuel with
    | zero => simp at h
    | succ n =>
      have hq : isNumberChar '[' = false := by decide
      cases xs with
      | nil => rfl
      | cons x xs =>
        simp only [render, List.length_cons, List.length_append] at h
        have hx := ih x List.mem_cons_self (renderList xs ++ r) n (delimited_renderList xs r)
          (by omega)
        have hxs := readItems_renderList (fun y hy => ih y (List.mem_cons_of_mem _ hy)) r
          n (by omega)
        obtain ⟨c, t, ht, hc⟩ := render_head x (renderList xs ++ r)
        rw [ht] at hx
        simp only [render, List.cons_append, List.append_assoc, ht]
        unfold readValue
        simp [hq, hc, hx, hxs]
  | obj kvs ih =>
    intro r fuel _ h
    cases fuel with
    | zero => simp at h
    | succ n =>
      have hq : isNumberChar '{' = false := by decide
      rcases kvs with _ | ⟨⟨k, v⟩, kvs⟩
      · rfl
      · simp only [render, List.length_cons, List.length_append] at h
        have hv := readField_quote (k := k) (v := v) (ih (k, v) List.mem_cons_self)
          (delimited_renderFields kvs r) n (by omega)
        have hkvs := readFields_renderFields (fun y hy => ih y (List.mem_cons_of_mem _ hy)) r
          n (by omega)
        simp only [render, List.cons_append, List.append_assoc]
        simp only [quote, List.cons_append, List.append_assoc] at hv ⊢
        unfold readValue
        simp only [List.nil_append, Bool.false_eq_true, if_false, hq] at hv ⊢
        simp [hv, hkvs]

/-- **Canonical text is read back.** Reading it gives the value with its keys sorted. -/
theorem loads_canonicalJson (v : Json) : loads (canonicalJson v) = some (canon v) := by
  unfold loads canonicalJson
  rw [String.toList_ofList]
  have h := readBack (canon v) [] ((render (canon v)).length + 1) nofun (by omega)
  rw [List.append_nil] at h
  rw [h]

/-- Values with the same canonical text differ at most in the order of their keys. -/
theorem canonicalJson_injective {v w : Json} : canonicalJson v = canonicalJson w ↔ Same v w := by
  constructor
  · intro h
    have hw := loads_canonicalJson w
    rw [← h, loads_canonicalJson] at hw
    exact Option.some.inj hw
  · intro h
    unfold canonicalJson
    rw [show canon v = canon w from h]

theorem sha256Json_congr {v w : Json} (sha256 : String → String) (h : Same v w) :
    sha256Json sha256 v = sha256Json sha256 w := by
  unfold sha256Json
  rw [canonicalJson_injective.mpr h]

theorem sha256Json_canon (sha256 : String → String) (v : Json) :
    sha256Json sha256 (canon v) = sha256Json sha256 v :=
  sha256Json_congr sha256 (same_canon v)

theorem same_of_sha256Json {v w : Json} {sha256 : String → String}
    (hsha : Function.Injective sha256) (h : sha256Json sha256 v = sha256Json sha256 w) :
    Same v w := by
  unfold sha256Json at h
  rw [String.append_right_inj] at h
  exact canonicalJson_injective.mp (hsha h)

end Json
end Edon
