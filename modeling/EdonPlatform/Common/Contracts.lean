import EdonPlatform.Common.PyValue

/- Checks that the modules about state, provenance and compositions make of their arguments,
   each with its own exception class and texts.

   Correspondence (Python ↔ Lean):
     `_identifier`        ↔ `boundedText`
     `_timestamp`         ↔ `timestampOf`
     `_sha256`            ↔ `digestOf`
     `json.dumps(value, allow_nan=False)` and its `except` ↔ `finiteValue` -/
namespace Edon

/-- An interpreter with dates and hexadecimal numbers: `isoformat` is the text of a UTC instant,
`parseHex` what `int(text, 16)` reads. -/
structure DatedInterpreter extends Interpreter where
  fromisoformat : String → ParsedTime
  isoformat : Int → String
  parseHex : String → Option Int

section
variable (rt : DatedInterpreter) (cls : ErrorClass)

/-- `str(value or "")`. -/
def textOr (value : PyValue) : String :=
  if value.truthy then value.toStr rt.toInterpreter else ""

/-- A stripped text of 1 to `limit` characters. -/
def boundedText (limit : Nat) (value : PyValue) (label : String) : Except PyError String :=
  bounded ⟨cls, label ++ " must contain between 1 and " ++ toString limit ++ " characters"⟩ limit
    (textOr rt value)

/-- An aware time, as the text of its UTC instant. -/
def timestampOf (value : PyValue) (label : String) : Except PyError String :=
  match rt.fromisoformat (replaceZ (value.toStr rt.toInterpreter)) with
  | .invalid => .error ⟨cls, label ++ " must be an ISO-8601 timestamp"⟩
  | .naive => .error ⟨cls, label ++ " must include a timezone"⟩
  | .instant t => do
    return rt.isoformat (← astimezone t)

/-- A digest with its prefix. -/
def digestOf (value : PyValue) (label : String) : Except PyError String := do
  let normalized := strip (textOr rt value)
  let e : PyError := ⟨cls, label ++ " must be a prefixed SHA-256 digest"⟩
  require ("sha256:".toList.isPrefixOf normalized.toList && normalized.length == 71) e
  let _ ← orRaise e (rt.parseHex (String.ofList (normalized.toList.drop 7)))
  return normalized

/-- A value that can be written as JSON. -/
def finiteValue (value : PyValue) (label : String) : Except PyError PyValue := do
  require value.finite ⟨cls, label ++ " must contain finite JSON values"⟩
  return value

end

variable {rt : DatedInterpreter} {cls : ErrorClass}

/-- What a time check returns is the text of an instant that a UTC `datetime` can hold. -/
theorem timestampOf_ok {value : PyValue} {label text : String}
    (h : timestampOf rt cls value label = .ok text) :
    ∃ t, rt.fromisoformat (replaceZ (value.toStr rt.toInterpreter)) = .instant t ∧
      instantRange t = true ∧ text = rt.isoformat t := by
  unfold timestampOf at h
  split at h
  · cases h
  · cases h
  · next t hparsed =>
    obtain ⟨u, hrange, h⟩ := bind_ok.mp h
    unfold astimezone at hrange
    split at hrange
    · next hin =>
      cases hrange
      cases h
      exact ⟨t, hparsed, hin, rfl⟩
    · cases hrange

end Edon
