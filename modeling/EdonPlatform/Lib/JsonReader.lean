import EdonPlatform.Lib.Fallible
import Mathlib.Data.List.TakeDrop

/- A reader of JSON as `json.loads` is one: it takes `NaN` and the infinities for numbers, lets a
   surrogate stand alone, and gives up where values are nested too deep or an integer has too
   many digits.

   What is proved:
     1. `fueled` — with enough fuel reading a value takes characters away, and gives up only in a
        text that is longer than the limit it has reached.
     2. `loads_failure` — the fuel of `loads` is enough. -/
namespace JsonReader

/-- A parsed value: a text by its code points, a number with a fraction or an exponent as it is
written. -/
inductive Value where
  | null
  | bool (b : Bool)
  | int (n : Int)
  | float (text : List Char)
  | str (s : List Nat)
  | arr (xs : List Value)
  | obj (fields : List (List Nat × Value))

/-- How deep values may be nested, and how many digits an integer may have. -/
structure Limits where
  depth : Nat
  digits : Nat

inductive Failure where
  | malformed
  | tooDeep
  | tooLong
  /-- The fuel was not enough. -/
  | unfinished
  deriving DecidableEq, Repr

def isBlank (c : Char) : Bool := c = ' ' || c = '\t' || c = '\n' || c = '\r'

def skip (cs : List Char) : List Char := cs.dropWhile isBlank

/-! ## Texts -/

def hexDigit (c : Char) : Option Nat :=
  if 48 ≤ c.toNat ∧ c.toNat ≤ 57 then some (c.toNat - 48)
  else if 65 ≤ c.toNat ∧ c.toNat ≤ 70 then some (c.toNat - 55)
  else if 97 ≤ c.toNat ∧ c.toNat ≤ 102 then some (c.toNat - 87)
  else none

def hexQuad (a b c d : Char) : Option Nat := do
  let a ← hexDigit a
  let b ← hexDigit b
  let c ← hexDigit c
  let d ← hexDigit d
  return ((a * 16 + b) * 16 + c) * 16 + d

def escaped (c : Char) : Option Nat :=
  [('"', 34), ('\\', 92), ('/', 47), ('b', 8), ('f', 12), ('n', 10), ('r', 13), ('t', 9)].lookup c

/-- A high surrogate and a low one after it are one code point. -/
def join (n : Nat) : List Nat → List Nat
  | m :: s =>
    if 55296 ≤ n ∧ n < 56320 ∧ 56320 ≤ m ∧ m < 57344 then
      (65536 + (n - 55296) * 1024 + (m - 56320)) :: s
    else n :: m :: s
  | [] => [n]

/-- What follows the opening quote. -/
def scanString : List Char → Except Failure (List Nat × List Char)
  | [] => .error .malformed
  | '"' :: r => .ok ([], r)
  | '\\' :: 'u' :: a :: b :: c :: d :: r =>
    match hexQuad a b c d with
    | some n => (scanString r).map fun p => (join n p.1, p.2)
    | none => .error .malformed
  | '\\' :: c :: r =>
    match escaped c with
    | some n => (scanString r).map fun p => (n :: p.1, p.2)
    | none => .error .malformed
  | c :: r =>
    if c.toNat < 32 then .error .malformed
    else (scanString r).map fun p => (c.toNat :: p.1, p.2)

/-! ## Numbers -/

def fraction : List Char → List Char × List Char
  | '.' :: r =>
    let p := r.span Char.isDigit
    if p.1 = [] then ([], '.' :: r) else ('.' :: p.1, p.2)
  | cs => ([], cs)

def sign : List Char → List Char × List Char
  | '+' :: r => (['+'], r)
  | '-' :: r => (['-'], r)
  | cs => ([], cs)

def exponent : List Char → List Char × List Char
  | c :: r =>
    if c = 'e' ∨ c = 'E' then
      let s := sign r
      let p := s.2.span Char.isDigit
      if p.1 = [] then ([], c :: r) else (c :: (s.1 ++ p.1), p.2)
    else ([], c :: r)
  | [] => ([], [])

/-- An integer, where neither a fraction nor an exponent follows its digits. -/
def scanRest (l : Limits) (negative : Bool) (whole r : List Char) : Except Failure (Value × List Char) :=
  let f := fraction r
  let e := exponent f.2
  if f.1 = [] ∧ e.1 = [] then
    if l.digits < whole.length then .error .tooLong
    else
      let n : Int := Nat.ofDigitChars 10 whole 0
      .ok (.int (if negative then -n else n), r)
  else .ok (.float ((if negative then ['-'] else []) ++ whole ++ f.1 ++ e.1), e.2)

/-- The digits of an integer do not begin with a zero, unless it is zero. -/
def scanWhole (l : Limits) (negative : Bool) : List Char → Except Failure (Value × List Char)
  | '0' :: r => scanRest l negative ['0'] r
  | cs =>
    let p := cs.span Char.isDigit
    if p.1 = [] then .error .malformed else scanRest l negative p.1 p.2

def scanNumber (l : Limits) : List Char → Except Failure (Value × List Char)
  | '-' :: r => scanWhole l true r
  | cs => scanWhole l false cs

/-! ## Values -/

def literals : List (List Char × Value) :=
  [("null".toList, .null), ("true".toList, .bool true), ("false".toList, .bool false),
    ("NaN".toList, .float "NaN".toList), ("Infinity".toList, .float "Infinity".toList),
    ("-Infinity".toList, .float "-Infinity".toList)]

def scanLiteral (cs : List Char) : Option (Value × List Char) :=
  literals.findSome? fun e =>
    if e.1.isPrefixOf cs then some (e.2, cs.drop e.1.length) else none

/-- The last of the values of a key, where its first stood. -/
def assign {κ α : Type} [DecidableEq κ] (k : κ) (v : α) : List (κ × α) → List (κ × α)
  | [] => [(k, v)]
  | e :: l => if e.1 = k then (k, v) :: l else e :: assign k v l

def dict (members : List (List Nat × Value)) : List (List Nat × Value) :=
  members.foldl (fun d e => assign e.1 e.2 d) []

mutual
def scanValue (l : Limits) : Nat → Nat → List Char → Except Failure (Value × List Char)
  | 0, _, _ => .error .unfinished
  | fuel + 1, depth, cs =>
    match cs, depth with
    | '"' :: r, _ => (scanString r).map fun p => (.str p.1, p.2)
    | '[' :: _, 0 | '{' :: _, 0 => .error .tooDeep
    | '[' :: r, depth + 1 =>
      match skip r with
      | ']' :: r => .ok (.arr [], r)
      | r => (scanItems l fuel depth r).map fun p => (.arr p.1, p.2)
    | '{' :: r, depth + 1 =>
      match skip r with
      | '}' :: r => .ok (.obj [], r)
      | r => (scanMembers l fuel depth r).map fun p => (.obj (dict p.1), p.2)
    | cs, _ =>
      match scanLiteral cs with
      | some p => .ok p
      | none => scanNumber l cs

/-- The elements of an array, and its closing bracket. -/
def scanItems (l : Limits) : Nat → Nat → List Char → Except Failure (List Value × List Char)
  | 0, _, _ => .error .unfinished
  | fuel + 1, depth, cs => do
    let p ← scanValue l fuel depth cs
    match skip p.2 with
    | ']' :: r => return ([p.1], r)
    | ',' :: r => (scanItems l fuel depth (skip r)).map fun q => (p.1 :: q.1, q.2)
    | _ => .error .malformed

def scanMembers (l : Limits) : Nat → Nat → List Char → Except Failure (List (List Nat × Value) × List Char)
  | 0, _, _ => .error .unfinished
  | fuel + 1, depth, '"' :: cs => do
    let k ← scanString cs
    match skip k.2 with
    | ':' :: r => do
      let p ← scanValue l fuel depth (skip r)
      match skip p.2 with
      | '}' :: r => return ([(k.1, p.1)], r)
      | ',' :: r => (scanMembers l fuel depth (skip r)).map fun q => ((k.1, p.1) :: q.1, q.2)
      | _ => .error .malformed
    | _ => .error .malformed
  | _ + 1, _, _ => .error .malformed
end

/-- `json.loads`. -/
def loads (l : Limits) (text : List Char) : Except Failure Value :=
  if text.head? = some (Char.ofNat 65279) then .error .malformed
  else do
    let p ← scanValue l (2 * text.length + 1) l.depth (skip text)
    if skip p.2 = [] then return p.1 else .error .malformed

/-! ## Reading takes characters away -/

section
variable {α β : Type} {l : Limits}

variable (l) in
/-- What reading a text of `n` characters comes to: less than the text is left, or a limit is
reached that the text is longer than. -/
def Bounded (depth n : Nat) : Except Failure (α × List Char) → Prop
  | .ok p => p.2.length < n
  | .error .malformed => True
  | .error .tooDeep => depth < n
  | .error .tooLong => l.digits < n
  | .error .unfinished => False

theorem Bounded.mono {x : Except Failure (α × List Char)} {depth depth' m n : Nat}
    (h : Bounded l depth m x) (hlength : m ≤ n) (hdepth : depth' + m ≤ depth + n) :
    Bounded l depth' n x := by
  cases x with
  | ok p => exact Nat.lt_of_lt_of_le h hlength
  | error e =>
    cases e with
    | malformed => trivial
    | tooDeep =>
      have h : depth < m := h
      show depth' < n
      omega
    | tooLong => exact Nat.lt_of_lt_of_le h hlength
    | unfinished => exact h

theorem Bounded.longer {x : Except Failure (α × List Char)} {depth m n : Nat}
    (h : Bounded l depth m x) (hlength : m ≤ n) : Bounded l depth n x :=
  h.mono hlength (Nat.add_le_add_left hlength depth)

theorem Bounded.map {x : Except Failure (α × List Char)} {depth n : Nat} (h : Bounded l depth n x)
    {f : α × List Char → β × List Char} (hf : ∀ p, (f p).2 = p.2) :
    Bounded l depth n (x.map f) := by
  cases x with
  | ok p =>
    show (f p).2.length < n
    rw [hf]
    exact h
  | error e => cases e <;> exact h

theorem Bounded.bind {x : Except Failure (α × List Char)} {depth n : Nat}
    (h : Bounded l depth n x) {f : α × List Char → Except Failure (β × List Char)}
    (hf : ∀ p, x = .ok p → p.2.length < n → Bounded l depth n (f p)) :
    Bounded l depth n (x >>= f) := by
  cases x with
  | ok p => exact hf p rfl h
  | error e => cases e <;> exact h

theorem skip_length (cs : List Char) : (skip cs).length ≤ cs.length :=
  (List.dropWhile_sublist _).length_le

theorem bounded_scanString (depth : Nat) (cs : List Char) :
    Bounded l depth cs.length (scanString cs) := by
  fun_induction scanString cs with
  | case1 => trivial
  | case2 r => exact Nat.lt_succ_self _
  | case3 a b c d r n hn ih =>
    refine (ih.longer ?_).map fun _ => rfl
    simp only [List.length_cons]
    omega
  | case4 a b c d r hn => trivial
  | case5 c r _ n hn ih =>
    refine (ih.longer ?_).map fun _ => rfl
    simp only [List.length_cons]
    omega
  | case6 c r _ hn => trivial
  | case7 c r _ _ hc => trivial
  | case8 c r _ _ _ hc ih =>
    refine (ih.longer ?_).map fun _ => rfl
    simp only [List.length_cons]
    omega

/-! ## Numbers -/

theorem span_length (cs : List Char) (p : Char → Bool) :
    (cs.span p).1.length + (cs.span p).2.length = cs.length := by
  rw [List.span_eq_takeWhile_dropWhile, ← List.length_append, List.takeWhile_append_dropWhile]

theorem fraction_length (cs : List Char) : (fraction cs).2.length ≤ cs.length := by
  fun_cases fraction cs with
  | case1 r p hp => exact Nat.le_refl _
  | case2 r p hp =>
    have hspan := span_length r Char.isDigit
    show (r.span Char.isDigit).2.length ≤ r.length + 1
    omega
  | case3 => exact Nat.le_refl _

theorem sign_length (cs : List Char) : (sign cs).2.length ≤ cs.length := by
  fun_cases sign cs
  · exact Nat.le_succ _
  · exact Nat.le_succ _
  · exact Nat.le_refl _

theorem exponent_length (cs : List Char) : (exponent cs).2.length ≤ cs.length := by
  fun_cases exponent cs with
  | case1 c r hc s p hp => exact Nat.le_refl _
  | case2 c r hc s p hp =>
    have hsign := sign_length r
    have hspan := span_length (sign r).2 Char.isDigit
    show ((sign r).2.span Char.isDigit).2.length ≤ r.length + 1
    omega
  | case3 c r hc => exact Nat.le_refl _
  | case4 => exact Nat.le_refl _

theorem bounded_scanRest (depth : Nat) (negative : Bool) {whole r : List Char} {n : Nat}
    (hr : r.length < n) (hwhole : whole.length ≤ n) :
    Bounded l depth n (scanRest l negative whole r) := by
  have hfraction := fraction_length r
  have hexponent := exponent_length (fraction r).2
  unfold scanRest
  dsimp only
  split
  · split
    · next hlong => exact Nat.lt_of_lt_of_le hlong hwhole
    · exact hr
  · show (exponent (fraction r).2).2.length < n
    omega

theorem bounded_scanWhole (depth : Nat) (negative : Bool) (cs : List Char) :
    Bounded l depth cs.length (scanWhole l negative cs) := by
  fun_cases scanWhole l negative cs with
  | case1 r => exact bounded_scanRest depth negative (Nat.lt_succ_self _) (Nat.succ_pos _)
  | case2 _ _ p hp => trivial
  | case3 _ _ p hp =>
    have hlength := span_length cs Char.isDigit
    have hpos : 0 < (cs.span Char.isDigit).1.length := List.length_pos_of_ne_nil hp
    refine bounded_scanRest depth negative ?_ ?_
    · show (cs.span Char.isDigit).2.length < cs.length
      omega
    · show (cs.span Char.isDigit).1.length ≤ cs.length
      omega

theorem bounded_scanNumber (depth : Nat) (cs : List Char) :
    Bounded l depth cs.length (scanNumber l cs) := by
  fun_cases scanNumber l cs with
  | case1 r => exact (bounded_scanWhole depth true r).longer (Nat.le_succ _)
  | case2 _ _ => exact bounded_scanWhole depth false cs

theorem scanLiteral_length {cs : List Char} {p : Value × List Char} (h : scanLiteral cs = some p) :
    p.2.length < cs.length := by
  obtain ⟨e, he, hp⟩ := List.exists_of_findSome?_eq_some h
  split at hp
  · next hprefix =>
    cases hp
    have hpos : ∀ e ∈ literals, 0 < e.1.length := by decide
    have hlength := (List.isPrefixOf_iff_prefix.mp hprefix).length_le
    have := hpos e he
    rw [List.length_drop]
    omega
  · cases hp

/-! ## Values -/

/-- What the fuel is for: a value and the elements after it. -/
structure Fueled (l : Limits) (fuel : Nat) : Prop where
  value : ∀ depth cs, 2 * cs.length < fuel → Bounded l depth cs.length (scanValue l fuel depth cs)
  items : ∀ depth cs, 2 * cs.length + 1 < fuel →
    Bounded l depth cs.length (scanItems l fuel depth cs)
  members : ∀ depth cs, 2 * cs.length + 1 < fuel →
    Bounded l depth cs.length (scanMembers l fuel depth cs)

theorem bounded_scanValue {fuel : Nat} (ih : Fueled l fuel) (depth : Nat) (cs : List Char)
    (hfuel : 2 * cs.length < fuel + 1) :
    Bounded l depth cs.length (scanValue l (fuel + 1) depth cs) := by
  unfold scanValue
  split
  · next r =>
    exact ((bounded_scanString _ r).longer (Nat.le_succ _)).map fun _ => rfl
  · exact Nat.succ_pos _
  · exact Nat.succ_pos _
  · next r depth =>
    have hskip := skip_length r
    rw [List.length_cons] at hfuel ⊢
    split
    · next r' hr' =>
      rw [hr', List.length_cons] at hskip
      show r'.length < r.length + 1
      omega
    · refine ((ih.items depth _ ?_).mono ?_ ?_).map fun _ => rfl <;> omega
  · next r depth =>
    have hskip := skip_length r
    rw [List.length_cons] at hfuel ⊢
    split
    · next r' hr' =>
      rw [hr', List.length_cons] at hskip
      show r'.length < r.length + 1
      omega
    · refine ((ih.members depth _ ?_).mono ?_ ?_).map fun _ => rfl <;> omega
  · split
    · next hliteral => exact scanLiteral_length hliteral
    · exact bounded_scanNumber depth cs

theorem bounded_scanItems {fuel : Nat} (ih : Fueled l fuel) (depth : Nat) (cs : List Char)
    (hfuel : 2 * cs.length + 1 < fuel + 1) :
    Bounded l depth cs.length (scanItems l (fuel + 1) depth cs) := by
  unfold scanItems
  refine (ih.value depth cs (by omega)).bind fun p _ hp => ?_
  have hskip := skip_length p.2
  split
  · next r hr =>
    rw [hr, List.length_cons] at hskip
    show r.length < cs.length
    omega
  · next r hr =>
    rw [hr, List.length_cons] at hskip
    have hrest := skip_length r
    exact ((ih.items depth _ (by omega)).longer (by omega)).map fun _ => rfl
  · trivial

theorem bounded_scanMembers {fuel : Nat} (ih : Fueled l fuel) (depth : Nat) (cs : List Char)
    (hfuel : 2 * cs.length + 1 < fuel + 1) :
    Bounded l depth cs.length (scanMembers l (fuel + 1) depth cs) := by
  cases cs with
  | nil =>
    unfold scanMembers
    trivial
  | cons c cs =>
    by_cases hc : c = '"'
    · subst hc
      rw [List.length_cons] at hfuel ⊢
      unfold scanMembers
      refine ((bounded_scanString depth cs).longer (Nat.le_succ _)).bind fun k hk hlength => ?_
      have hskip := skip_length k.2
      split
      · next r hr =>
        rw [hr, List.length_cons] at hskip
        have hvalue := skip_length r
        refine ((ih.value depth _ ?_).longer ?_).bind fun p _ hp => ?_
        · omega
        · omega
        · have hafter := skip_length p.2
          split
          · next r' hr' =>
            rw [hr', List.length_cons] at hafter
            show r'.length < cs.length + 1
            omega
          · next r' hr' =>
            rw [hr', List.length_cons] at hafter
            have hrest := skip_length r'
            exact ((ih.members depth _ (by omega)).longer (by omega)).map fun _ => rfl
          · trivial
      · trivial
    · unfold scanMembers
      split
      · next hzero => cases hzero
      · next hquote => exact absurd (List.cons.inj hquote).1 hc
      · trivial

theorem fueled (fuel : Nat) : Fueled l fuel := by
  induction fuel with
  | zero => exact ⟨fun _ _ h => absurd h (Nat.not_lt_zero _), fun _ _ h => absurd h (Nat.not_lt_zero _),
      fun _ _ h => absurd h (Nat.not_lt_zero _)⟩
  | succ fuel ih => exact ⟨bounded_scanValue ih, bounded_scanItems ih, bounded_scanMembers ih⟩

/-- **What reading a text fails with.** The fuel is enough, and where the text is given up it is
longer than the limit. -/
theorem loads_failure {text : List Char} {e : Failure} (h : loads l text = .error e) :
    e = .malformed ∨ e = .tooDeep ∧ l.depth < text.length ∨
      e = .tooLong ∧ l.digits < text.length := by
  unfold loads at h
  split at h
  · cases h
    exact .inl rfl
  · have hskip := skip_length text
    have hscan := ((fueled (l := l) (2 * text.length + 1)).value l.depth (skip text)
      (by omega)).longer hskip
    cases hvalue : scanValue l (2 * text.length + 1) l.depth (skip text) with
    | ok p =>
      rw [hvalue] at h
      change (if skip p.2 = [] then _ else _) = _ at h
      split at h
      · cases h
      · cases h
        exact .inl rfl
    | error e' =>
      rw [hvalue] at h hscan
      cases h
      cases e with
      | malformed => exact .inl rfl
      | tooDeep => exact .inr (.inl ⟨rfl, hscan⟩)
      | tooLong => exact .inr (.inr ⟨rfl, hscan⟩)
      | unfinished => exact absurd hscan id

end

end JsonReader
