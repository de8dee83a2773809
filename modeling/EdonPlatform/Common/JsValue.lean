import EdonPlatform.Lib.Dict
import EdonPlatform.Lib.Fallible
import Mathlib.Data.String.Basic
import Mathlib.Data.Rat.Defs
import Mathlib.Algebra.Order.Ring.Rat

/- JavaScript values as `JSON.parse` makes them, and what the platform does with them:
   conversion to text and to a number, property access with `??`, and the value that
   comes back from a `jsonb` column. `JSON.parse` reads a literal that is too large as
   `Infinity`; `JSON.stringify` writes what is not finite as `null`. A number is
   otherwise the rational it denotes. -/
namespace Edon.Js
open Fallible

inductive Number where
  | finite (q : Rat)
  | nan
  | posInf
  | negInf
  deriving DecidableEq

inductive Value where
  | null
  | bool (b : Bool)
  | num (n : Number)
  | str (s : String)
  | arr (xs : List Value)
  | obj (kvs : List (String × Value))

abbrev Fields := List (String × Value)

namespace Number

/-- `n >= q`. -/
def ge (n : Number) (q : Rat) : Bool :=
  match n with
  | .finite x => q ≤ x
  | .posInf => true
  | _ => false

/-- `n <= q`. -/
def le (n : Number) (q : Rat) : Bool :=
  match n with
  | .finite x => x ≤ q
  | .negInf => true
  | _ => false

/-- `n > q`. -/
def gt (n : Number) (q : Rat) : Bool :=
  match n with
  | .finite x => q < x
  | .posInf => true
  | _ => false

/-- `n < q`. -/
def lt (n : Number) (q : Rat) : Bool :=
  match n with
  | .finite x => x < q
  | .negInf => true
  | _ => false

end Number

/-- A thrown exception: a `TypeError`, a rejected statement, or a conflict of states. -/
inductive Thrown where
  | typeError
  | database
  | stateConflict
  deriving DecidableEq, Repr

/-- What the runtime supplies: the text of a finite number, the number a text denotes,
the comparison of texts in a locale, which is consistent, the milliseconds of a date
(`Date.parse`, none for NaN) and the SHA-256 of `JSON.stringify(value)`. -/
structure Runtime where
  numberToString : Rat → String
  stringToNumber : String → Number
  localeCompare : String → String → Int
  compare_total : ∀ a b, localeCompare a b ≤ 0 ∨ localeCompare b a ≤ 0
  compare_trans : ∀ a b c, localeCompare a b ≤ 0 → localeCompare b c ≤ 0 → localeCompare a c ≤ 0
  dateParse : String → Option Int
  stableHash : Value → String

section
variable (js : Runtime)

def numberText : Number → String
  | .finite q => js.numberToString q
  | .nan => "NaN"
  | .posInf => "Infinity"
  | .negInf => "-Infinity"

mutual
/-- `String(value)`. An object with a property of its own named `toString`, which is
not a function here, has no text. -/
def toText : Value → Except Thrown String
  | .null => .ok "null"
  | .bool b => .ok (if b then "true" else "false")
  | .num n => .ok (numberText js n)
  | .str s => .ok s
  | .arr xs => do
    let parts ← elementTexts xs
    return ",".intercalate parts
  | .obj kvs =>
    if (Assoc.find kvs "toString").isSome then .error .typeError else .ok "[object Object]"

/-- The parts `Array.prototype.join` joins. -/
def elementTexts : List Value → Except Thrown (List String)
  | [] => .ok []
  | .null :: xs => do
    let parts ← elementTexts xs
    return "" :: parts
  | x :: xs => do
    let part ← toText x
    let parts ← elementTexts xs
    return part :: parts
end

/-- `Number(value)`. -/
def toNumber : Value → Except Thrown Number
  | .null => .ok (.finite 0)
  | .bool b => .ok (.finite (if b then 1 else 0))
  | .num n => .ok n
  | .str s => .ok (js.stringToNumber s)
  | .arr xs => do
    let text ← toText js (.arr xs)
    return js.stringToNumber text
  | .obj kvs =>
    if (Assoc.find kvs "toString").isSome then .error .typeError else .ok .nan

end

/- A conversion fails with a `TypeError` and with nothing else. -/
mutual
theorem toText_error {js : Runtime} {e : Thrown} :
    (v : Value) → toText js v = .error e → e = .typeError
  | .null, h => by cases h
  | .bool _, h => by cases h
  | .num _, h => by cases h
  | .str _, h => by cases h
  | .arr xs, h => by
    rcases bind_error.mp h with h | ⟨_, _, h⟩
    · exact elementTexts_error xs h
    · cases h
  | .obj kvs, h => by
    rw [toText] at h
    split at h
    · cases h
      rfl
    · cases h

theorem elementTexts_error {js : Runtime} {e : Thrown} :
    (xs : List Value) → elementTexts js xs = .error e → e = .typeError
  | [], h => by cases h
  | .null :: xs, h => by
    rcases bind_error.mp h with h | ⟨_, _, h⟩
    · exact elementTexts_error xs h
    · cases h
  | .bool _ :: xs, h | .num _ :: xs, h | .str _ :: xs, h => by
    rcases bind_error.mp h with h | ⟨_, _, h⟩
    · cases h
    · rcases bind_error.mp h with h | ⟨_, _, h⟩
      · exact elementTexts_error xs h
      · cases h
  | .arr ys :: xs, h => by
    rcases bind_error.mp h with h | ⟨_, _, h⟩
    · exact toText_error (.arr ys) h
    · rcases bind_error.mp h with h | ⟨_, _, h⟩
      · exact elementTexts_error xs h
      · cases h
  | .obj kvs :: xs, h => by
    rcases bind_error.mp h with h | ⟨_, _, h⟩
    · exact toText_error (.obj kvs) h
    · rcases bind_error.mp h with h | ⟨_, _, h⟩
      · exact elementTexts_error xs h
      · cases h
end

theorem toNumber_error {js : Runtime} {e : Thrown} {v : Value} (h : toNumber js v = .error e) :
    e = .typeError := by
  cases v with
  | arr xs =>
    rcases bind_error.mp h with h | ⟨_, _, h⟩
    · exact toText_error _ h
    · cases h
  | obj kvs =>
    rw [toNumber] at h
    split at h
    · cases h
      rfl
    · cases h
  | _ => cases h

/-- A property of the value; only objects have those that are asked for. -/
def field : Value → String → Option Value
  | .obj kvs, key => Assoc.find kvs key
  | _, _ => none

/-- `value ?? default`. -/
def orDefault (value : Option Value) (default : Value) : Value :=
  match value with
  | none => default
  | some .null => default
  | some v => v

/-- `value ?? undefined` as an option. -/
def present (value : Option Value) : Option Value :=
  match value with
  | some .null => none
  | v => v

/-- `Boolean(value)`. -/
def truthy : Option Value → Bool
  | none => false
  | some .null => false
  | some (.bool b) => b
  | some (.num n) => n ≠ .finite 0 ∧ n ≠ .nan
  | some (.str s) => s ≠ ""
  | some (.arr _) => true
  | some (.obj _) => true

/-- `value === s`. -/
def isText (value : Option Value) (s : String) : Bool :=
  match value with
  | some (.str t) => t = s
  | _ => false

/-- `value === b`. -/
def isBool (value : Option Value) (b : Bool) : Bool :=
  match value with
  | some (.bool c) => c = b
  | _ => false

/-- `text.slice(0, n)` counts UTF-16 code units. Half a surrogate pair at the end
reaches the database as U+FFFD. -/
def sliceChars : Nat → List Char → List Char
  | 0, _ => []
  | _ + 1, [] => []
  | 1, c :: _ => if c.val < 0x10000 then [c] else ['\uFFFD']
  | n + 2, c :: cs => if c.val < 0x10000 then c :: sliceChars (n + 1) cs else c :: sliceChars n cs

def slice (n : Nat) (text : String) : String := String.ofList (sliceChars n text.toList)

mutual
/-- The value as it is read back from a `jsonb` column. -/
def stored : Value → Value
  | .null => .null
  | .bool b => .bool b
  | .num (.finite q) => .num (.finite q)
  | .num _ => .null
  | .str s => .str s
  | .arr xs => .arr (storedList xs)
  | .obj kvs => .obj (storedFields kvs)

def storedList : List Value → List Value
  | [] => []
  | x :: xs => stored x :: storedList xs

def storedFields : List (String × Value) → List (String × Value)
  | [] => []
  | (k, v) :: kvs => (k, stored v) :: storedFields kvs
end

/- What is stored is read back as it is. -/
mutual
theorem stored_stored : (v : Value) → stored (stored v) = stored v
  | .null | .bool _ | .str _ => rfl
  | .num (.finite _) | .num .nan | .num .posInf | .num .negInf => rfl
  | .arr xs => congrArg Value.arr (storedList_storedList xs)
  | .obj kvs => congrArg Value.obj (storedFields_storedFields kvs)

theorem storedList_storedList : (xs : List Value) → storedList (storedList xs) = storedList xs
  | [] => rfl
  | x :: xs => by rw [storedList, storedList, stored_stored x, storedList_storedList xs]

theorem storedFields_storedFields :
    (kvs : List (String × Value)) → storedFields (storedFields kvs) = storedFields kvs
  | [] => rfl
  | (k, v) :: kvs => by
    rw [storedFields, storedFields, stored_stored v, storedFields_storedFields kvs]
end

theorem find_storedFields (kvs : Fields) (k : String) :
    Assoc.find (storedFields kvs) k = (Assoc.find kvs k).map stored := by
  induction kvs with
  | nil => rfl
  | cons e kvs ih =>
    obtain ⟨j, v⟩ := e
    simp only [storedFields, Assoc.find_cons, ih]
    split <;> rfl

/-- A property of the value that is read back. -/
theorem field_stored (v : Value) (k : String) : field (stored v) k = (field v k).map stored := by
  cases v with
  | obj kvs => exact find_storedFields kvs k
  | num n => cases n <;> rfl
  | _ => rfl

/-- A runtime that orders texts by code point and knows no dates. -/
def Runtime.sample : Runtime where
  numberToString q := if q = 0 then "0" else if q = 480 then "480" else "142"
  stringToNumber _ := .nan
  localeCompare a b := if a ≤ b then 0 else 1
  compare_total a b := by
    rcases le_total a b with h | h
    · exact .inl (by rw [if_pos h])
    · exact .inr (by rw [if_pos h])
  compare_trans a b c := by
    intro hab hbc
    have le_of {x y : String} (h : (if x ≤ y then (0 : Int) else 1) ≤ 0) : x ≤ y := by
      by_contra hne
      rw [if_neg hne] at h
      omega
    rw [if_pos (le_trans (le_of hab) (le_of hbc))]
  dateParse _ := none
  stableHash
    | .obj ((_, .num (.finite q)) :: _) => if q = 480 then "hash-480" else "hash"
    | _ => "hash-0"

end Edon.Js
