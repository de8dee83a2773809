import EdonPlatform.Common.Python
import EdonPlatform.Lib.Doubles

/- JSON documents as Python's `json` module reads and writes them by default: the
   constants `NaN`, `Infinity` and `-Infinity` are numbers of a document. Finite numbers
   are the rationals they denote. `Json` is the part without those three.

   `Within` says which entries a document has, at any depth, and `Clean` what a boundary
   wants to hold of all of them: no key of its forbidden set in any letter case, and no
   claim of binding authority. -/
namespace Edon

inductive PyFloat where
  | finite (q : Rat)
  | infinite (negative : Bool)
  | nan
  deriving DecidableEq, Repr

/-- `a < b`, which no NaN satisfies on either side. -/
def PyFloat.lt : PyFloat → PyFloat → Bool
  | .nan, _ => false
  | _, .nan => false
  | .finite p, .finite q => p < q
  | .infinite a, .infinite b => a && !b
  | .infinite a, .finite _ => a
  | .finite _, .infinite b => !b

inductive PyValue where
  | null
  | bool (b : Bool)
  | int (n : Int)
  | float (x : PyFloat)
  | str (s : String)
  | list (xs : List PyValue)
  | dict (kvs : List (String × PyValue))

/-- Functions of the runtime: `repr` is `str` of a value that is not a text, `floatText`
what `json.dumps` writes for a finite float, `parseFloat` the number `float` reads in a text,
`sha256` the hexadecimal digest of a text. -/
structure Interpreter where
  repr : PyValue → String
  floatText : Rat → String
  parseFloat : String → Option PyFloat
  sha256 : String → String

/-- An interpreter for small examples: the digest of a text is its length. -/
def plainInterpreter : Interpreter where
  repr _ := ""
  floatText _ := "0.5"
  parseFloat _ := none
  sha256 text := toString text.length

/-- `str.lower` of one character, exact wherever it is ASCII: the Kelvin sign is the only
other character with an ASCII lower case, the dotted capital I the only one whose lower case
has an ASCII letter in it. -/
def lowerChar (c : Char) : List Char :=
  if 'A' ≤ c ∧ c ≤ 'Z' then [c.toLower]
  else match c.toNat with
    | 0x130 => ['i', Char.ofNat 0x307]
    | 0x212a => ['k']
    | _ => [c]

/-- `str.lower`. The results are only compared with ASCII words. -/
def lower (s : String) : String := String.ofList (s.toList.flatMap lowerChar)

namespace PyValue

/-- Induction over a document, with the hypothesis for every element and every entry. -/
theorem induct {P : PyValue → Prop} (null : P .null) (bool : ∀ b, P (.bool b))
    (int : ∀ n, P (.int n)) (float : ∀ x, P (.float x)) (str : ∀ s, P (.str s))
    (list : ∀ xs, (∀ x ∈ xs, P x) → P (.list xs))
    (dict : ∀ kvs, (∀ e ∈ kvs, P e.2) → P (.dict kvs)) : ∀ v, P v
  | .null => null
  | .bool b => bool b
  | .int n => int n
  | .float x => float x
  | .str s => str s
  | .list xs => list xs (fun x _ => induct null bool int float str list dict x)
  | .dict kvs => dict kvs (fun e _ => induct null bool int float str list dict e.2)
termination_by v => sizeOf v
decreasing_by
  · simp only [PyValue.list.sizeOf_spec]
    have := List.sizeOf_lt_of_mem ‹x ∈ xs›
    omega
  · have h := List.sizeOf_lt_of_mem ‹e ∈ kvs›
    cases e
    simp only [Prod.mk.sizeOf_spec, PyValue.dict.sizeOf_spec] at h ⊢
    omega

mutual
/-- A document with finite numbers only. -/
def ofJson : Json → PyValue
  | .null => .null
  | .bool b => .bool b
  | .int n => .int n
  | .float q => .float (.finite q)
  | .str s => .str s
  | .arr xs => .list (ofItems xs)
  | .obj kvs => .dict (ofEntries kvs)

def ofItems : List Json → List PyValue
  | [] => []
  | x :: xs => ofJson x :: ofItems xs

def ofEntries : List (String × Json) → List (String × PyValue)
  | [] => []
  | (key, child) :: kvs => (key, ofJson child) :: ofEntries kvs
end

/-- `bool(value)`. -/
def truthy : PyValue → Bool
  | .null => false
  | .bool b => b
  | .int n => n ≠ 0
  | .float x => x ≠ .finite 0
  | .str s => s ≠ ""
  | .list xs => !xs.isEmpty
  | .dict kvs => !kvs.isEmpty

/-- `type(value).__name__`. -/
def typeName : PyValue → String
  | .null => "NoneType"
  | .bool _ => "bool"
  | .int _ => "int"
  | .float _ => "float"
  | .str _ => "str"
  | .list _ => "list"
  | .dict _ => "dict"

/-- `len(value)`. -/
def len : PyValue → Except PyError Nat
  | .str s => .ok s.length
  | .list xs => .ok xs.length
  | .dict kvs => .ok kvs.length
  | v => .error ⟨.typeError, "object of type '" ++ v.typeName ++ "' has no len()"⟩

/-- The entries of a dictionary, through its method `method`. -/
def entries (value : PyValue) (method : String) : Except PyError (List (String × PyValue)) :=
  match value with
  | .dict kvs => .ok kvs
  | v => .error ⟨.attributeError, "'" ++ v.typeName ++ "' object has no attribute '" ++ method ++ "'"⟩

/-- `for x in value`. -/
def iterate : PyValue → Except PyError (List PyValue)
  | .list xs => .ok xs
  | .str s => .ok (s.toList.map fun c => .str (String.singleton c))
  | .dict kvs => .ok (kvs.map fun e => .str e.1)
  | v => .error ⟨.typeError, "'" ++ v.typeName ++ "' object is not iterable"⟩

/-- `value[key]`, for a key that is a text. -/
def index (value : PyValue) (key : String) : Except PyError PyValue :=
  match value with
  | .dict kvs => orRaise (keyError key) (Assoc.find kvs key)
  | .list _ => .error ⟨.typeError, "list indices must be integers or slices, not str"⟩
  | .str _ => .error ⟨.typeError, "string indices must be integers, not 'str'"⟩
  | v => .error ⟨.typeError, "'" ++ v.typeName ++ "' object is not subscriptable"⟩

/-- `value.get(key, default)`. -/
def getD (value : PyValue) (key : String) (default : PyValue) : Except PyError PyValue :=
  match value with
  | .dict kvs => .ok ((Assoc.find kvs key).getD default)
  | v => .error ⟨.attributeError, "'" ++ v.typeName ++ "' object has no attribute 'get'"⟩

mutual
/-- What `json.dumps(value, allow_nan=False)` accepts. -/
def finite : PyValue → Bool
  | .float (.finite _) => true
  | .float _ => false
  | .list xs => finiteList xs
  | .dict kvs => finiteEntries kvs
  | _ => true

def finiteList : List PyValue → Bool
  | [] => true
  | x :: xs => finite x && finiteList xs

def finiteEntries : List (String × PyValue) → Bool
  | [] => true
  | (_, child) :: kvs => finite child && finiteEntries kvs
end

section
variable (I : Interpreter)

/-- `str(value)`. -/
def toStr : PyValue → String
  | .str s => s
  | v => I.repr v

def numberText : PyFloat → String
  | .finite q => I.floatText q
  | .infinite false => "Infinity"
  | .infinite true => "-Infinity"
  | .nan => "NaN"

def quoted (s : String) : String := String.ofList (Json.quote s)

mutual
/-- `canonical_json`: `json.dumps` with sorted keys, no blanks and no ASCII escapes. -/
def canonicalJson : PyValue → String
  | .null => "null"
  | .bool b => if b then "true" else "false"
  | .int n => String.ofList (Json.intText n)
  | .float x => numberText I x
  | .str s => quoted s
  | .list xs => "[" ++ ",".intercalate (listTexts xs) ++ "]"
  | .dict kvs => "\x7b" ++ ",".intercalate ((Assoc.sortKeys (entryTexts kvs)).map fun e =>
      quoted e.1 ++ ":" ++ e.2) ++ "\x7d"

def listTexts : List PyValue → List String
  | [] => []
  | x :: xs => canonicalJson x :: listTexts xs

def entryTexts : List (String × PyValue) → List (String × String)
  | [] => []
  | (key, child) :: kvs => (key, canonicalJson child) :: entryTexts kvs
end

/-- `sha256_json`. -/
def sha256Json (value : PyValue) : String := "sha256:" ++ I.sha256 (value.canonicalJson I)

end

/-! ## The entries of a document -/

/-- The entry `key: child` occurs in the document, at some depth. -/
inductive Within : PyValue → String → PyValue → Prop
  | entry {kvs : List (String × PyValue)} {key : String} {child : PyValue} :
      (key, child) ∈ kvs → Within (.dict kvs) key child
  | inDict {kvs : List (String × PyValue)} {name key : String} {v child : PyValue} :
      (name, v) ∈ kvs → Within v key child → Within (.dict kvs) key child
  | inList {xs : List PyValue} {x : PyValue} {key : String} {child : PyValue} :
      x ∈ xs → Within x key child → Within (.list xs) key child

/-- A property of every entry, at any depth. -/
def Throughout (P : String → PyValue → Prop) (v : PyValue) : Prop :=
  ∀ key child, Within v key child → P key child

variable {P Q : String → PyValue → Prop}

theorem throughout_dict {kvs : List (String × PyValue)} :
    Throughout P (.dict kvs) ↔ ∀ e ∈ kvs, P e.1 e.2 ∧ Throughout P e.2 := by
  constructor
  · intro h e he
    exact ⟨h e.1 e.2 (.entry he), fun key child hw => h key child (.inDict he hw)⟩
  · intro h key child hw
    cases hw with
    | entry he => exact (h _ he).1
    | inDict he hw => exact (h _ he).2 key child hw

theorem throughout_list {xs : List PyValue} :
    Throughout P (.list xs) ↔ ∀ x ∈ xs, Throughout P x := by
  constructor
  · intro h x hx key child hw
    exact h key child (.inList hx hw)
  · intro h key child hw
    cases hw with
    | inList hx hw => exact h _ hx key child hw

theorem Throughout.imp (himp : ∀ key child, P key child → Q key child) {v : PyValue}
    (h : Throughout P v) : Throughout Q v :=
  fun key child hw => himp key child (h key child hw)

theorem throughout_and {v : PyValue} :
    Throughout (fun key child => P key child ∧ Q key child) v ↔ Throughout P v ∧ Throughout Q v :=
  ⟨fun h => ⟨h.imp fun _ _ hpq => hpq.1, h.imp fun _ _ hpq => hpq.2⟩,
    fun h key child hw => ⟨h.1 key child hw, h.2 key child hw⟩⟩

/-- No key of the set in any letter case, and no claim of binding authority: such a key has
the value false. -/
def Clean (fields : List String) : PyValue → Prop :=
  Throughout fun key child =>
    lower key ∉ fields ∧ (lower key = "binding_authority" → child = .bool false)

end PyValue

end Edon
