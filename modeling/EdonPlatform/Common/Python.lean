import EdonPlatform.Lib.Fallible
import EdonPlatform.Common.CanonicalJson
import Mathlib.Data.List.DropRight

/- The pieces of the Python runtime the stores are written in: exceptions with their
   class and text, `str.strip` and `str.upper`, the identifier checks every store
   makes, and the runtime functions nothing below looks inside (`Python`). -/
namespace Edon

inductive ErrorClass where
  | worldStateError | operationsError | outboxError | kernelTokenError | memoryStoreError
  | actionNetPlatformError | governedIntakeError | learningNetworkError | registryError
  | compilerInputError | runtimeExecutionError | supervisorError | operationsProposalError
  | agentGatewayError | federationError | optimizationError | provenanceGraphError
  | stateEngineError | compositionExecutionError | institutionalIRError
  | counterfactualGenerationError | actionNetGenerationError | closedLoopEnvironmentError
  | integrityError | keyError | typeError | valueError | overflowError | attributeError
  | stopIteration | indexError
  deriving DecidableEq, Repr

/-- A raised exception. -/
structure PyError where
  cls : ErrorClass
  message : String
  deriving DecidableEq, Repr

export Fallible (bind_ok require require_ok orRaise orRaise_ok mem_of_mapM result_of_mapM
  forM_ok forM_succeeds)

/-- `d[key]` of a dictionary without the key. -/
def keyError (key : String) : PyError := ⟨.keyError, key⟩

/-- What `datetime.fromisoformat` makes of a text: it rejects it, or reads a time
without a timezone, or an instant (microseconds since the epoch, UTC). -/
inductive ParsedTime where
  | invalid
  | naive
  | instant (t : Int)
  deriving DecidableEq, Repr

/-- A time argument: absent, a `datetime` or a text. -/
inductive TimeArg where
  | absent
  | datetime (t : ParsedTime)
  | text (s : String)
  deriving DecidableEq, Repr

/-- The instants a `datetime` in UTC can hold: the years 1 to 9999. -/
def instantRange (t : Int) : Bool := -62135596800000000 ≤ t ∧ t ≤ 253402300799999999

/-- Functions of the runtime and its standard library. `repr` is `str` of a value
that is not a string, `sha256` the hexadecimal digest of a text, `isoformat` the text
of a UTC instant. -/
structure Python where
  repr : Json → String
  sha256 : String → String
  fromisoformat : String → ParsedTime
  isoformat : Int → String

/-- `str(value)`. -/
def pyStr (py : Python) : Json → String
  | .str s => s
  | v => py.repr v

/-- `bool(value)`. -/
def truthy : Json → Bool
  | .null => false
  | .bool b => b
  | .int n => n ≠ 0
  | .float q => q ≠ 0
  | .str s => s ≠ ""
  | .arr xs => !xs.isEmpty
  | .obj kvs => !kvs.isEmpty

/-- What `for x in value` runs over. -/
def iterate : Json → Except PyError (List Json)
  | .arr xs => .ok xs
  | .str s => .ok (s.toList.map (fun c => .str (String.singleton c)))
  | .obj kvs => .ok (kvs.map (fun e => .str e.1))
  | .null => .error ⟨.typeError, "'NoneType' object is not iterable"⟩
  | .bool _ => .error ⟨.typeError, "'bool' object is not iterable"⟩
  | .int _ => .error ⟨.typeError, "'int' object is not iterable"⟩
  | .float _ => .error ⟨.typeError, "'float' object is not iterable"⟩

/-- `type(value).__name__`. -/
def typeName : Json → String
  | .null => "NoneType"
  | .bool _ => "bool"
  | .int _ => "int"
  | .float _ => "float"
  | .str _ => "str"
  | .arr _ => "list"
  | .obj _ => "dict"

/-- `value.get(key, default)` of a value that should be a dictionary. -/
def dictGet (value : Json) (key : String) (default : Json) : Except PyError Json :=
  match value with
  | .obj kvs => .ok ((Assoc.find kvs key).getD default)
  | v => .error ⟨.attributeError, "'" ++ typeName v ++ "' object has no attribute 'get'"⟩

/-- `value[key]` of a value that should be a dictionary. -/
def dictIndex (value : Json) (key : String) : Except PyError Json :=
  match value with
  | .obj kvs => orRaise (keyError key) (Assoc.find kvs key)
  | v => .error ⟨.typeError, "'" ++ typeName v ++ "' object is not subscriptable"⟩

/-- `set(value)`, as the list of its elements: they have to be hashable. -/
def setOf (value : Json) : Except PyError (List Json) := do
  let items ← iterate value
  items.mapM (fun
    | .arr _ => .error ⟨.typeError, "unhashable type: 'list'"⟩
    | .obj _ => .error ⟨.typeError, "unhashable type: 'dict'"⟩
    | v => .ok v)

/-- A pair of the sequence `dict(value)` reads. Keys that are not texts cannot be sorted
with those that are, so no dictionary that gets a text key as well can be serialised. -/
def pairOf (item : Json) : Except PyError (String × Json) := do
  match ← iterate item with
  | [.str key, value] => .ok (key, value)
  | [_, _] => .error ⟨.typeError, "'<' not supported between instances of the keys"⟩
  | _ => .error ⟨.valueError, "dictionary update sequence element has the wrong length"⟩

/-- `dict(value)`. -/
def dictOf (value : Json) : Except PyError (List (String × Json)) :=
  match value with
  | .obj kvs => .ok kvs
  | v => do
    let items ← iterate v
    let pairs ← items.mapM pairOf
    return pairs.foldl (fun kvs e => Assoc.put kvs e.1 e.2) []

/-- `timestamp or _now()`. -/
def orNow (py : Python) (timestamp : Option String) (now : Int) : String :=
  match timestamp with
  | some t => if t = "" then py.isoformat now else t
  | none => py.isoformat now

/-- `sha256_json(value).split(":", 1)[1][:20]`. -/
def shortSha256 (py : Python) (value : Json) : String :=
  String.ofList ((py.sha256 (Json.canonicalJson value)).toList.take 20)

/-- The member with this name: the value of an enumeration, or the test `name in NAMES`. -/
def named {α : Type} (name : α → String) (all : List α) (text : String) : Option α :=
  all.find? (fun a => name a = text)

/-- The characters `str.strip` removes. -/
def isSpace (c : Char) : Bool :=
  let n := c.toNat
  (9 ≤ n && n ≤ 13) || (28 ≤ n && n ≤ 32) || n == 0x85 || n == 0xa0 || n == 0x1680 ||
    (0x2000 ≤ n && n ≤ 0x200a) || n == 0x2028 || n == 0x2029 || n == 0x202f || n == 0x205f ||
    n == 0x3000

def strip (s : String) : String :=
  String.ofList ((s.toList.dropWhile isSpace).rdropWhile isSpace)

/-- The upper case of one character, exact wherever it is ASCII: the last ten are the
only characters outside ASCII whose upper case is. -/
def upperChar (c : Char) : List Char :=
  if 'a' ≤ c ∧ c ≤ 'z' then [c.toUpper]
  else match c.toNat with
    | 0xdf => ['S', 'S']
    | 0x131 => ['I']
    | 0x17f => ['S']
    | 0xfb00 => ['F', 'F']
    | 0xfb01 => ['F', 'I']
    | 0xfb02 => ['F', 'L']
    | 0xfb03 => ['F', 'F', 'I']
    | 0xfb04 => ['F', 'F', 'L']
    | 0xfb05 => ['S', 'T']
    | 0xfb06 => ['S', 'T']
    | _ => [c]

/-- `str.upper`. The results are only compared with ASCII words. -/
def upper (s : String) : String := String.ofList (s.toList.flatMap upperChar)

/-- A stripped text of 1 to `limit` characters, or the caller's error. -/
def bounded (e : PyError) (limit : Nat) (value : String) : Except PyError String :=
  let normalized := strip value
  if normalized = "" ∨ limit < normalized.length then .error e else .ok normalized

/-- `_identifier`, which every store has with its own exception class. -/
def identifier (cls : ErrorClass) (value label : String) : Except PyError String :=
  bounded ⟨cls, label ++ " must contain between 1 and 200 characters"⟩ 200 value

/-- `sorted({...})`. -/
def sortedSet (xs : List String) : List String :=
  (Assoc.sortKeys (xs.map (fun x => (x, ())))).map Prod.fst

/-- `value.replace("Z", "+00:00")`. -/
def replaceZ (s : String) : String :=
  String.ofList (s.toList.flatMap (fun c => if c = 'Z' then "+00:00".toList else [c]))

def overflow : PyError := ⟨.overflowError, "date value out of range"⟩

/-- `.astimezone(UTC)` of an aware time. -/
def astimezone (t : Int) : Except PyError Int := if instantRange t then .ok t else .error overflow

/-- `t + timedelta(seconds=n)`. -/
def addSeconds (t n : Int) : Except PyError Int := astimezone (t + n * 1000000)

theorem mem_sortedSet {xs : List String} {x : String} : x ∈ sortedSet xs ↔ x ∈ xs := by
  unfold sortedSet
  rw [← Assoc.find_isSome, Assoc.find_sortKeys, Assoc.find_isSome]
  simp

/-- A sorted set of texts shows nothing but its members. -/
theorem sortedSet_congr {l m : List String} (h : ∀ x, x ∈ l ↔ x ∈ m) : sortedSet l = sortedSet m := by
  unfold sortedSet
  refine congrArg (List.map Prod.fst) (Assoc.sortKeys_eq_iff.mpr fun k => ?_)
  have hmem : ∀ l : List String,
      (Assoc.find (l.map fun x => (x, ())) k).isSome = true ↔ k ∈ l := by
    intro l
    rw [Assoc.find_isSome]
    simp
  refine Option.ext fun u => ?_
  have hiff := (hmem l).trans ((h k).trans (hmem m).symm)
  rw [Option.isSome_iff_exists, Option.isSome_iff_exists] at hiff
  constructor
  · intro hl
    obtain ⟨u', hu'⟩ := hiff.mp ⟨u, hl⟩
    exact hu'
  · intro hm
    obtain ⟨u', hu'⟩ := hiff.mpr ⟨u, hm⟩
    exact hu'

theorem nodup_sortedSet (xs : List String) : (sortedSet xs).Nodup := by
  have hascending := Assoc.ascending_sortKeys (xs.map (fun x => (x, ())))
  exact List.pairwise_map.mpr (hascending.imp (fun h => ne_of_lt h))

theorem sortedSet_length_le (xs : List String) : (sortedSet xs).length ≤ xs.length :=
  (List.subperm_of_subset (nodup_sortedSet xs) (fun _ hx => mem_sortedSet.mp hx)).length_le

theorem sortedSet_eq_nil {xs : List String} : sortedSet xs = [] ↔ xs = [] := by
  simp only [List.eq_nil_iff_forall_not_mem, mem_sortedSet]

/-! ## Fields of a dictionary -/

theorem dictGet_default {v value : Json} {key : String} (h : dictGet v key .null = .ok value)
    (hne : value ≠ .null) (default : Json) : dictGet v key default = .ok value := by
  cases v with
  | obj kvs =>
    have hvalue : (Assoc.find kvs key).getD .null = value := Except.ok.inj h
    cases hfind : Assoc.find kvs key with
    | none =>
      rw [hfind] at hvalue
      exact absurd hvalue.symm hne
    | some w =>
      rw [hfind] at hvalue
      show Except.ok ((Assoc.find kvs key).getD default) = _
      rw [hfind]
      exact congrArg Except.ok hvalue
  | _ => cases h

theorem dictGet_of_index {v value : Json} {key : String} (h : dictIndex v key = .ok value)
    (default : Json) : dictGet v key default = .ok value := by
  cases v with
  | obj kvs =>
    show Except.ok ((Assoc.find kvs key).getD default) = _
    rw [orRaise_ok.mp h]
    rfl
  | _ => cases h

/-! ## Stripping twice is stripping once -/

theorem strip_strip (s : String) : strip (strip s) = strip s := by
  have hfix : ((s.toList.dropWhile isSpace).rdropWhile isSpace).dropWhile isSpace =
      (s.toList.dropWhile isSpace).rdropWhile isSpace := by
    rw [List.dropWhile_eq_self_iff]
    intro hl
    have hpre := List.rdropWhile_prefix isSpace (s.toList.dropWhile isSpace)
    have hne : (s.toList.dropWhile isSpace).rdropWhile isSpace ≠ [] := List.ne_nil_of_length_pos hl
    have hhead := List.head_dropWhile_not isSpace (hpre.ne_nil hne)
    rw [← List.head_eq_getElem hne, hpre.head hne, hhead]
    decide
  unfold strip
  rw [String.toList_ofList, hfix, List.rdropWhile_idempotent]

/-- Stripping a text without whitespace changes nothing. -/
theorem strip_of_not_space {s : String} (h : ∀ c ∈ s.toList, isSpace c = false) : strip s = s := by
  have hfront : s.toList.dropWhile isSpace = s.toList := by
    rw [List.dropWhile_eq_self_iff]
    intro hl
    simp [h _ (List.getElem_mem hl)]
  have hback : s.toList.rdropWhile isSpace = s.toList := by
    rw [List.rdropWhile_eq_self_iff]
    intro hne
    simp [h _ (List.getLast_mem hne)]
  unfold strip
  rw [hfront, hback, String.ofList_toList]

theorem isSpace_of_isAlphanum {c : Char} (h : c.isAlphanum = true) : isSpace c = false := by
  -- letters and digits are between 48 and 122
  have hrange : 48 ≤ c.toNat ∧ c.toNat ≤ 122 := by
    delta Char.isAlphanum Char.isAlpha Char.isUpper Char.isLower Char.isDigit at h
    simp only [Bool.or_eq_true, Bool.and_eq_true, decide_eq_true_eq, ge_iff_le,
      UInt32.le_iff_toNat_le] at h
    simp at h
    omega
  simp [isSpace]
  omega

theorem bounded_ok {e : PyError} {limit : Nat} {value normalized : String}
    (h : bounded e limit value = .ok normalized) :
    normalized = strip value ∧ normalized ≠ "" ∧ normalized.length ≤ limit := by
  simp only [bounded] at h
  split at h
  · cases h
  · next hc =>
    cases h
    exact ⟨rfl, fun he => hc (.inl he), not_lt.mp (fun hl => hc (.inr hl))⟩

theorem identifier_ok {cls : ErrorClass} {value label normalized : String}
    (h : identifier cls value label = .ok normalized) : normalized = strip value :=
  (bounded_ok h).1

/-- A text that passed the check passes it unchanged. -/
theorem bounded_again {e : PyError} {limit : Nat} {value normalized : String}
    (h : bounded e limit value = .ok normalized) (e' : PyError) :
    bounded e' limit normalized = .ok normalized := by
  obtain ⟨rfl, hne, hlen⟩ := bounded_ok h
  simp only [bounded, strip_strip]
  rw [if_neg]
  rintro (h | h)
  · exact hne h
  · omega

theorem identifier_again {cls cls' : ErrorClass} {value label normalized : String}
    (h : identifier cls value label = .ok normalized) (label' : String) :
    identifier cls' normalized label' = .ok normalized :=
  bounded_again h _

end Edon
