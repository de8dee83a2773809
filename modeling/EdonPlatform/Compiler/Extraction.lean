import Mathlib
import EdonPlatform.Common.Digests
import EdonPlatform.Common.PyValue
import EdonPlatform.Compiler.Reconciliation
import EdonPlatform.Lib.Traversal

/- The statements of a source (edon/compiler/extraction.py): the rows of a structured document, or
   the lines of an annotated text, each with an id that is the hash of where it stands and what it
   says. A value is kept up to the order of the keys of its objects, which neither `==` nor
   `canonical_json` sees.

   `extractAll_perm`: sources in another order give the same statements in another order, or fail
   as well. `statementIds_nodup`: the statements of sources with distinct identities have distinct
   ids, where no two of the texts that were hashed share the digits an id keeps.

   Correspondence (Python ↔ Lean):
     `SourceDocument`       ↔ `SourceDocument`
     `_primitive_from_row`  ↔ `primitiveFromRow`, its `normalized` `statementIdentity`
     `_structured_rows`     ↔ `structuredRows`
     `_annotated_rows`      ↔ `annotatedRows`, one line of it `annotatedRow`
     `extract_source`, `extract_all` ↔ `extractSource`, `extractAll` -/
namespace Edon.Compiler
open Json

inductive SourceFormat where
  | structuredJson | edonAnnotatedText
  deriving DecidableEq, Repr

structure SourceDocument where
  sourceId : String
  version : String
  truthLayer : TruthLayer
  sourceFormat : SourceFormat
  content : Json
  sha256 : String
  locator : String

/-- What no two sources of an input share. -/
def SourceDocument.identity (s : SourceDocument) : String × String := (s.sourceId, s.version)

def SourceDocument.reference (s : SourceDocument) : SourceReference :=
  ⟨s.sourceId, s.version, s.sha256, s.locator⟩

/-- The runtime with `float` of a text, and the rows `csv.reader` finds in a text that is
delimited by bars. -/
structure Reader extends Runtime where
  parseFloat : String → Option PyFloat
  csvRows : String → Except PyError (List (List String))

def compilerError (message : String) : PyError := ⟨.compilerInputError, message⟩

abbrev Row := List (String × Json)

def primitiveTypes : List PrimitiveType :=
  [.actor, .role, .authority, .policy, .evidenceRequirement, .resource, .workflowStep, .approval,
   .deadline, .revocation, .jurisdiction, .escalation, .consequence]

def riskClasses : List RiskClass := [.unclassified, .low, .moderate, .high, .critical]

/-- What the id of a statement is the hash of. -/
def statementIdentity (source : SourceDocument) (index : Nat) (mechanismId : String)
    (primitiveType : PrimitiveType) (subject predicate : String) (value : Json) : Json :=
  .obj [("source_id", .str source.sourceId), ("version", .str source.version),
    ("index", .int index), ("mechanism_id", .str mechanismId),
    ("primitive_type", .str primitiveType.value), ("subject", .str subject),
    ("predicate", .str predicate), ("value", value)]

section
variable (rd : Reader)

/-- `float(value)`. -/
def toFloat : Json → Except PyError PyFloat
  | .bool b => .ok (.finite (if b then 1 else 0))
  | .int n =>
    if Doubles.overflowThreshold ≤ |(n : Rat)| then
      .error ⟨.overflowError, "int too large to convert to float"⟩
    else .ok (.finite n)
  | .float q => .ok (.finite q)
  | .str s => orRaise ⟨.valueError, "could not convert string to float: " ++ s⟩ (rd.parseFloat s)
  | v => .error ⟨.typeError,
      "float() argument must be a string or a real number, not '" ++ typeName v ++ "'"⟩

def confidenceOf (label : String) (value : Json) : Except PyError Rat := do
  let e := compilerError (label ++ " confidence is out of range")
  match ← toFloat rd value with
  | .finite q => do
    require (0 ≤ q ∧ q ≤ 1) e
    return q
  | _ => .error e

def primitiveFromRow (source : SourceDocument) (row : Row) (index : Nat) (span : String) :
    Except PyError ExtractedPrimitive := do
  let label := source.sourceId ++ " statement " ++ toString index
  let get key := (Assoc.find row key).getD .null
  let missing := ["mechanism_id", "primitive_type", "subject", "predicate", "value"].filter
    fun field => (Assoc.find row field).isNone
  require missing.isEmpty (compilerError (label ++ " missing: " ++ ", ".intercalate missing))
  let invalid := compilerError (label ++ " has an invalid enum")
  let primitiveType ← orRaise invalid
    (named PrimitiveType.value primitiveTypes (pyStr rd.toPython (get "primitive_type")))
  let riskClass ← orRaise invalid (named RiskClass.value riskClasses
    (pyStr rd.toPython ((Assoc.find row "risk_class").getD (.str "UNCLASSIFIED"))))
  let confidence ← confidenceOf rd label ((Assoc.find row "confidence").getD (.float 1))
  let mechanismId := strip (pyStr rd.toPython (get "mechanism_id"))
  let subject := strip (pyStr rd.toPython (get "subject"))
  let predicate := strip (pyStr rd.toPython (get "predicate"))
  require (mechanismId ≠ "" ∧ subject ≠ "" ∧ predicate ≠ "")
    (compilerError (label ++ " contains an empty key field"))
  let value := canon (get "value")
  return {
    statementId := "statement-" ++ shortSha256 rd.toPython
      (statementIdentity source index mechanismId primitiveType subject predicate value)
    mechanismId, primitiveType, subject, predicate, value, confidence, riskClass
    truthLayer := source.truthLayer
    sourceReference := source.reference
    sourceSpan := span }

/-- `all(isinstance(row, dict) for row in rows)`, with the rows. -/
def objectRows (source : SourceDocument) (rows : List Json) : Except PyError (List Row) :=
  rows.mapM fun
    | .obj row => .ok row
    | _ => .error (compilerError (source.sourceId ++ " statements must be objects"))

def structuredRows (source : SourceDocument) : Except PyError (List Row) :=
  let rows := match source.content with
    | .obj kvs => (Assoc.find kvs "statements").getD .null
    | content => content
  match rows with
  | .arr rows => objectRows source rows
  | _ => .error
      (compilerError (source.sourceId ++ " structured content must contain a statements array"))

/-- The row of one line: none of a blank line or a comment. -/
def annotatedRow (source : SourceDocument) (fields : List String) (lineNumber : Nat) :
    Except PyError (Option (Row × Nat)) :=
  if fields = [] ∨ strip ("".intercalate fields) = "" ∨
      ((fields.headD "").toList.dropWhile isSpace).head? = some '#' then .ok none
  else match fields.map strip with
    | ["EDON", mechanism, type, subject, predicate, value, confidence, risk] =>
      .ok (some ([("mechanism_id", .str mechanism), ("primitive_type", .str type),
        ("subject", .str subject), ("predicate", .str predicate), ("value", .str value),
        ("confidence", .str confidence),
        ("risk_class", .str (if risk = "" then "UNCLASSIFIED" else risk)),
        ("_line", .int lineNumber)], lineNumber))
    | _ => .error (compilerError (source.sourceId ++ " line " ++ toString lineNumber ++
        " must have EDON|mechanism|type|subject|predicate|value|confidence|risk"))

/-- The rows of an annotated text, with the numbers of their lines. -/
def annotatedRows (source : SourceDocument) : Except PyError (List (Row × Nat)) :=
  match source.content with
  | .str text => do
    let lines ← rd.csvRows text
    let rows ← (lines.zipIdx 1).mapM fun line => annotatedRow source line.1 line.2
    return rows.filterMap id
  | _ => .error (compilerError (source.sourceId ++ " annotated content must be text"))

/-- The rows of a source, with the place each was found at. -/
def rowsOf (source : SourceDocument) : Except PyError (List (Row × String)) :=
  match source.sourceFormat with
  | .structuredJson => do
    let rows ← structuredRows source
    return rows.zipIdx.map fun row => (row.1, "statements/" ++ toString row.2)
  | .edonAnnotatedText => do
    let rows ← annotatedRows rd source
    return rows.map fun row => (row.1, "line/" ++ toString row.2)

def extractSource (source : SourceDocument) : Except PyError (List ExtractedPrimitive) := do
  let rows ← rowsOf rd source
  rows.zipIdx.mapM fun row => primitiveFromRow rd source row.1.1 row.2 row.1.2

def extractAll (sources : List SourceDocument) : Except PyError (List ExtractedPrimitive) := do
  let primitives ← sources.mapM (extractSource rd)
  require (!primitives.flatten.isEmpty)
    (compilerError "no institutional primitives were extracted")
  return primitives.flatten

end

/-! ## What a statement says of its source -/

section
variable {rd : Reader} {source : SourceDocument}

/-- The statement of a row. -/
structure StatementOf (rd : Reader) (source : SourceDocument) (index : Nat)
    (p : ExtractedPrimitive) : Prop where
  statementId : p.statementId = "statement-" ++ shortSha256 rd.toPython (statementIdentity source
    index p.mechanismId p.primitiveType p.subject p.predicate p.value)
  reference : p.sourceReference = source.reference
  value : canon p.value = p.value

theorem primitiveFromRow_ok {row : Row} {index : Nat} {span : String} {p : ExtractedPrimitive}
    (h : primitiveFromRow rd source row index span = .ok p) : StatementOf rd source index p := by
  obtain ⟨_, _, h⟩ := bind_ok.mp h
  obtain ⟨_, _, h⟩ := bind_ok.mp h
  obtain ⟨_, _, h⟩ := bind_ok.mp h
  obtain ⟨_, _, h⟩ := bind_ok.mp h
  obtain ⟨_, _, h⟩ := bind_ok.mp h
  cases h
  exact ⟨rfl, rfl, canon_canon _⟩

theorem statementOf_mem {primitives : List ExtractedPrimitive}
    (h : extractSource rd source = .ok primitives) {p : ExtractedPrimitive} (hp : p ∈ primitives) :
    ∃ index, StatementOf rd source index p := by
  obtain ⟨rows, _, h⟩ := bind_ok.mp h
  obtain ⟨row, _, hrow⟩ := Fallible.mem_of_mapM h p hp
  exact ⟨row.2, primitiveFromRow_ok hrow⟩

theorem extractAll_ok {sources : List SourceDocument} {primitives : List ExtractedPrimitive}
    (h : extractAll rd sources = .ok primitives) : primitives ≠ [] ∧
      ∃ parts, sources.mapM (extractSource rd) = .ok parts ∧ primitives = parts.flatten := by
  obtain ⟨parts, hparts, h⟩ := bind_ok.mp h
  obtain ⟨_, hne, h⟩ := bind_ok.mp h
  cases h
  have hne := require_ok.mp hne
  refine ⟨fun hnil => ?_, parts, hparts, rfl⟩
  rw [hnil] at hne
  cases hne

/-- Every statement is one of a source. -/
theorem mem_extractAll {sources : List SourceDocument} {primitives : List ExtractedPrimitive}
    (h : extractAll rd sources = .ok primitives) {p : ExtractedPrimitive} (hp : p ∈ primitives) :
    ∃ s ∈ sources, ∃ index, StatementOf rd s index p := by
  obtain ⟨-, parts, hparts, rfl⟩ := extractAll_ok h
  obtain ⟨part, hpart, hp⟩ := List.mem_flatten.mp hp
  obtain ⟨s, hs, hextract⟩ := Fallible.mem_of_mapM hparts part hpart
  exact ⟨s, hs, statementOf_mem hextract hp⟩

/-! ## The order of the sources -/

/-- **Sources in another order give the same statements in another order.** -/
theorem extractAll_perm {sources sources' : List SourceDocument}
    {primitives : List ExtractedPrimitive} (hperm : sources.Perm sources')
    (h : extractAll rd sources = .ok primitives) :
    ∃ primitives', extractAll rd sources' = .ok primitives' ∧ primitives.Perm primitives' := by
  obtain ⟨hne, parts, hparts, rfl⟩ := extractAll_ok h
  obtain ⟨parts', hparts', hsame⟩ := Fallible.mapM_perm hperm hparts
  have hflat : parts.flatten.Perm parts'.flatten := hsame.flatten
  have hne' : (!parts'.flatten.isEmpty) = true := by
    cases hempty : parts'.flatten with
    | nil => exact absurd (hempty ▸ hflat).eq_nil hne
    | cons p rest => rfl
  refine ⟨parts'.flatten, ?_, hflat⟩
  unfold extractAll
  rw [hparts']
  exact bind_ok.mpr ⟨parts', rfl, bind_ok.mpr ⟨(), require_ok.mpr hne', rfl⟩⟩

/-! ## Ids -/

/-- The text that the id of a statement is the digest of. -/
def statementText (source : SourceDocument) (p : ExtractedPrimitive × Nat) : String :=
  canonicalJson (statementIdentity source p.2 p.1.mechanismId p.1.primitiveType p.1.subject
    p.1.predicate p.1.value)

/-- The texts of a source's statements. -/
def sourceTexts (rd : Reader) (source : SourceDocument) : List String :=
  ((extractSource rd source).toOption.getD []).zipIdx.map (statementText source)

def statementTexts (rd : Reader) (sources : List SourceDocument) : List String :=
  sources.flatMap (sourceTexts rd)

/-- A text tells where its statement stands. -/
theorem place_of_statementText {s t : SourceDocument} {p q : ExtractedPrimitive × Nat}
    (h : statementText s p = statementText t q) : s.identity = t.identity ∧ p.2 = q.2 := by
  have hfields := same_obj_iff.mp (canonicalJson_injective.mp h)
  have hid : s.sourceId = t.sourceId := Json.str.inj (Option.some.inj (hfields "source_id"))
  have hversion : s.version = t.version := Json.str.inj (Option.some.inj (hfields "version"))
  have hindex : (p.2 : Int) = q.2 := Json.int.inj (Option.some.inj (hfields "index"))
  exact ⟨Prod.ext hid hversion, Int.ofNat.inj hindex⟩

theorem sourceTexts_nodup (rd : Reader) (source : SourceDocument) :
    (sourceTexts rd source).Nodup := by
  unfold sourceTexts
  generalize (extractSource rd source).toOption.getD [] = primitives
  have hindexes : (primitives.zipIdx.map Prod.snd).Nodup := by
    rw [List.zipIdx_map_snd]
    exact List.nodup_range' _
  exact List.pairwise_map.mpr ((List.pairwise_map.mp hindexes).imp fun hne h =>
    hne (place_of_statementText h).2)

/-- The texts of distinct sources are distinct. -/
theorem statementTexts_nodup {sources : List SourceDocument}
    (hdistinct : (sources.map SourceDocument.identity).Nodup) :
    (statementTexts rd sources).Nodup := by
  refine List.nodup_flatMap.mpr ⟨fun s _ => sourceTexts_nodup rd s, ?_⟩
  refine (List.pairwise_map.mp hdistinct).imp fun {s t} hne => ?_
  rw [Function.onFun, List.disjoint_left]
  intro text hs ht
  obtain ⟨p, _, hp⟩ := List.mem_map.mp hs
  obtain ⟨q, _, hq⟩ := List.mem_map.mp ht
  exact hne (place_of_statementText (hp.trans hq.symm)).1

/-- The ids of a source's statements, from their texts. -/
theorem ids_of_extractSource {primitives : List ExtractedPrimitive}
    (h : extractSource rd source = .ok primitives) :
    primitives.map ExtractedPrimitive.statementId =
      (sourceTexts rd source).map fun text => "statement-" ++ String.ofList (shortDigest rd.toPython text) := by
  obtain ⟨rows, _, hrows⟩ := bind_ok.mp h
  have hplace := Fallible.mem_zipIdx_of_mapM hrows
  have htexts : sourceTexts rd source = primitives.zipIdx.map (statementText source) := by
    unfold sourceTexts
    rw [h]
    rfl
  rw [htexts, List.map_map]
  calc primitives.map ExtractedPrimitive.statementId
      = (primitives.zipIdx.map Prod.fst).map ExtractedPrimitive.statementId := by
        rw [List.zipIdx_map_fst]
    _ = primitives.zipIdx.map fun e => e.1.statementId := by
        rw [List.map_map]
        rfl
    _ = primitives.zipIdx.map ((fun text => "statement-" ++ String.ofList (shortDigest rd.toPython text)) ∘
          statementText source) := by
        refine List.map_congr_left fun e he => ?_
        obtain ⟨row, _, hrow⟩ := hplace e he
        exact (primitiveFromRow_ok hrow).statementId

/-- The ids of all statements, from their texts. -/
theorem ids_of_extractAll {sources : List SourceDocument} {primitives : List ExtractedPrimitive}
    (h : extractAll rd sources = .ok primitives) :
    primitives.map ExtractedPrimitive.statementId = (statementTexts rd sources).map
      fun text => "statement-" ++ String.ofList (shortDigest rd.toPython text) := by
  obtain ⟨-, parts, hparts, rfl⟩ := extractAll_ok h
  have heach := Fallible.forall₂_of_mapM hparts
  clear h hparts
  unfold statementTexts
  induction heach with
  | nil => rfl
  | cons hs _ ih =>
    rw [List.flatten_cons, List.map_append, List.flatMap_cons, List.map_append,
      ids_of_extractSource hs, ih]

/-- **The statements of distinct sources have distinct ids.** -/
theorem statementIds_nodup {sources : List SourceDocument} {primitives : List ExtractedPrimitive}
    (hdistinct : (sources.map SourceDocument.identity).Nodup)
    (hsha : CollisionFree (shortDigest rd.toPython) (statementTexts rd sources))
    (h : extractAll rd sources = .ok primitives) :
    (primitives.map ExtractedPrimitive.statementId).Nodup := by
  rw [ids_of_extractAll h]
  refine List.Nodup.map_on (fun t ht u hu hid => ?_) (statementTexts_nodup hdistinct)
  rw [String.append_right_inj] at hid
  exact hsha t ht u hu (String.ofList_injective hid)

end
end Edon.Compiler
