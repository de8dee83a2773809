import EdonPlatform.Common.Python
import EdonPlatform.Lib.Doubles
import EdonPlatform.Lib.Grouping
import EdonPlatform.Lib.Sorting
import Mathlib.Data.Prod.Lex

/- Statements of sources and the facts they are reconciled to (edon/compiler/models.py and
   reconciliation.py). A fact has the statements of one mechanism, primitive type, subject
   and predicate, in three evidence layers; its selected value is the value of the first
   layer whose statements agree.

   A layer whose statements do not agree is passed over, so where the normative layer
   conflicts a lower layer is asked next. `precedence_iff`: the value of a fact with
   normative statements is the one they agree on, or none, exactly when the fact does not
   fall through to a lower layer that way.

   Correspondence (Python ↔ Lean):
     `TruthLayer`, `PrimitiveType`, `RiskClass`, `ConflictKind` ↔ the same names
     `ExtractedPrimitive.fact_key`    ↔ `ExtractedPrimitive.factKey`
     `_unique_values`, `_conflict`    ↔ `uniqueValues`, `conflict`
     the body of the loop of `reconcile` ↔ `factConflicts`, `selectedValue`, `factOf`
     `reconcile`                      ↔ `reconcile` -/
namespace Edon.Compiler
open Json Doubles Grouping

/-! ## Statements -/

inductive TruthLayer where
  | normative | operational | behavioral
  deriving DecidableEq, Repr

def TruthLayer.value : TruthLayer → String
  | .normative => "NORMATIVE"
  | .operational => "OPERATIONAL"
  | .behavioral => "BEHAVIORAL"

def layerOrder : List TruthLayer := [.normative, .operational, .behavioral]

inductive PrimitiveType where
  | actor | role | authority | policy | evidenceRequirement | resource | workflowStep | approval
  | deadline | revocation | jurisdiction | escalation | consequence
  deriving DecidableEq, Repr

def PrimitiveType.value : PrimitiveType → String
  | .actor => "ACTOR"
  | .role => "ROLE"
  | .authority => "AUTHORITY"
  | .policy => "POLICY"
  | .evidenceRequirement => "EVIDENCE_REQUIREMENT"
  | .resource => "RESOURCE"
  | .workflowStep => "WORKFLOW_STEP"
  | .approval => "APPROVAL"
  | .deadline => "DEADLINE"
  | .revocation => "REVOCATION"
  | .jurisdiction => "JURISDICTION"
  | .escalation => "ESCALATION"
  | .consequence => "CONSEQUENCE"

def sensitivePrimitives : List PrimitiveType :=
  [.authority, .approval, .revocation, .jurisdiction, .consequence]

inductive RiskClass where
  | unclassified | low | moderate | high | critical
  deriving DecidableEq, Repr

def RiskClass.value : RiskClass → String
  | .unclassified => "UNCLASSIFIED"
  | .low => "LOW"
  | .moderate => "MODERATE"
  | .high => "HIGH"
  | .critical => "CRITICAL"

inductive ConflictKind where
  | normativeConflict | crossLayerMismatch | missingNormative
  deriving DecidableEq, Repr

def ConflictKind.value : ConflictKind → String
  | .normativeConflict => "NORMATIVE_CONFLICT"
  | .crossLayerMismatch => "CROSS_LAYER_MISMATCH"
  | .missingNormative => "MISSING_NORMATIVE"

structure SourceReference where
  sourceId : String
  version : String
  sha256 : String
  locator : String
  deriving DecidableEq

structure ExtractedPrimitive where
  statementId : String
  mechanismId : String
  primitiveType : PrimitiveType
  subject : String
  predicate : String
  value : Json
  truthLayer : TruthLayer
  sourceReference : SourceReference
  confidence : Rat
  riskClass : RiskClass
  sourceSpan : String

structure CompilerSettings where
  minimumReviewConfidence : Rat := 9 / 10
  requireNormativeLayer : Bool := true

structure ConflictRecord where
  conflictId : String
  mechanismId : String
  kind : ConflictKind
  primitiveType : PrimitiveType
  subject : String
  predicate : String
  valuesByLayer : List (TruthLayer × List Json)
  sourceIds : List String
  severity : String
  requiresReview : Bool := true

structure ReconciledFact where
  mechanismId : String
  primitiveType : PrimitiveType
  subject : String
  predicate : String
  selectedValue : Json
  agreementState : String
  layers : List TruthLayer
  confidence : Rat
  statementIds : List String
  sourceReferences : List SourceReference
  conflictIds : List String

/-- The Python runtime, with `str.casefold` and the rounding of its floats. -/
structure Runtime extends Python where
  casefold : String → String
  rounding : Rounding

/-- A tuple of four texts, in the order of tuples. -/
abbrev FactKey := String ×ₗ String ×ₗ String ×ₗ String

/-! ## The values of a layer -/

def inLayer (layer : TruthLayer) (records : List ExtractedPrimitive) : List ExtractedPrimitive :=
  records.filter fun r => r.truthLayer = layer

/-- Distinct by their text, and in its order; the first statement with a text gives the value. -/
def uniqueValues (records : List ExtractedPrimitive) : List Json :=
  (Assoc.sortKeys (records.map fun r => (canonicalJson r.value, r.value))).map Prod.snd

def valuesByLayer (records : List ExtractedPrimitive) : List (TruthLayer × List Json) :=
  (layerOrder.filter fun layer => inLayer layer records ≠ []).map fun layer =>
    (layer, uniqueValues (inLayer layer records))

def sole : List Json → Option Json
  | [value] => some value
  | _ => none

/-- The value of the first layer that has exactly one; Python's `None` is `null`. -/
def selectedValue (records : List ExtractedPrimitive) : Json :=
  (layerOrder.findSome? fun layer => sole (uniqueValues (inLayer layer records))).getD .null

/-! ## Floats -/

def floatMul (d : Rounding) (p q : Rat) : Rat := d.round (p * q)

/-- `statistics.fmean` of floats: the sum is exact before it is rounded. -/
def fmean (d : Rounding) (l : List Rat) : Rat := d.round (d.round l.sum / l.length)

def roundHalfEven (q : Rat) : Int :=
  let below := q.floor
  let rest := q - below
  if rest < 1 / 2 then below
  else if 1 / 2 < rest then below + 1
  else if below % 2 = 0 then below else below + 1

/-- `round(x, 6)`. -/
def sixPlaces (d : Rounding) (q : Rat) : Rat := d.round (roundHalfEven (q * 10 ^ 6) / 10 ^ 6)

/-! ## Facts -/

section
variable (rt : Runtime)

def ExtractedPrimitive.factKey (p : ExtractedPrimitive) : FactKey :=
  toLex (p.mechanismId, toLex (p.primitiveType.value,
    toLex (rt.casefold (strip p.subject), rt.casefold (strip p.predicate))))

/-- The tuple, as `json.dumps` writes it. -/
def FactKey.json (key : FactKey) : Json :=
  let (mechanismId, rest) := ofLex key
  let (primitiveType, rest) := ofLex rest
  let (subject, predicate) := ofLex rest
  .arr [.str mechanismId, .str primitiveType, .str subject, .str predicate]

def valuesJson (values : List (TruthLayer × List Json)) : Json :=
  .obj (values.map fun e => (e.1.value, .arr e.2))

def conflict (group : Members ExtractedPrimitive) (kind : ConflictKind) : ConflictRecord :=
  let first := group.first
  let values := valuesByLayer group.items
  let identity : Json := .obj [
    ("fact_key", FactKey.json (first.factKey rt)),
    ("kind", .str kind.value), ("values_by_layer", valuesJson values)]
  { conflictId := "conflict-" ++ shortSha256 rt.toPython identity
    mechanismId := first.mechanismId
    kind
    primitiveType := first.primitiveType
    subject := first.subject
    predicate := first.predicate
    valuesByLayer := values
    sourceIds := sortedSet (group.items.map fun r => r.sourceReference.sourceId)
    severity := if first.primitiveType ∈ sensitivePrimitives then "HIGH" else "MODERATE" }

/-- The texts of the values of all layers. -/
def distinctTexts (records : List ExtractedPrimitive) : List String :=
  sortedSet ((valuesByLayer records).flatMap fun e => e.2.map canonicalJson)

def factConflicts (settings : CompilerSettings) (group : Members ExtractedPrimitive) :
    List ConflictRecord :=
  let normativeValues := uniqueValues (inLayer .normative group.items)
  (if 1 < normativeValues.length then [conflict rt group .normativeConflict] else []) ++
  (if 1 < (distinctTexts group.items).length then [conflict rt group .crossLayerMismatch]
    else []) ++
  (if settings.requireNormativeLayer && normativeValues.isEmpty then
    [conflict rt group .missingNormative] else [])

def factConfidence (group : Members ExtractedPrimitive) (observed : Nat) (contested : Bool) : Rat :=
  let d := rt.rounding
  let extraction := fmean d (group.items.map ExtractedPrimitive.confidence)
  let coverage := d.round (observed / layerOrder.length)
  let agreement := if contested then d.round (35 / 100) else 1
  let weighted := d.add (d.add (floatMul d (d.round (65 / 100)) extraction)
    (floatMul d (d.round (20 / 100)) coverage)) (floatMul d (d.round (15 / 100)) agreement)
  max 0 (min 1 weighted)

/-- One reference for each source and version, the last one, in their order. -/
def referencesOf (records : List ExtractedPrimitive) : List SourceReference :=
  (Dict.ofList (records.map fun r =>
    ((toLex (r.sourceReference.sourceId, r.sourceReference.version) : String ×ₗ String),
      r.sourceReference))).values

def factOf (settings : CompilerSettings) (group : Members ExtractedPrimitive) : ReconciledFact :=
  let conflicts := factConflicts rt settings group
  let observed := layerOrder.filter fun layer => inLayer layer group.items ≠ []
  { mechanismId := group.first.mechanismId
    primitiveType := group.first.primitiveType
    subject := group.first.subject
    predicate := group.first.predicate
    selectedValue := selectedValue group.items
    agreementState :=
      if conflicts ≠ [] then "CONTESTED"
      else if observed.length = layerOrder.length then "AGREED"
      else "PARTIAL_AGREEMENT"
    layers := observed
    confidence := sixPlaces rt.rounding (factConfidence rt group observed.length (conflicts ≠ []))
    statementIds :=
      (group.items.map ExtractedPrimitive.statementId).insertionSort (fun s t => s ≤ t)
    sourceReferences := referencesOf group.items
    conflictIds := conflicts.map ConflictRecord.conflictId }

def reconcile (primitives : List ExtractedPrimitive) (settings : CompilerSettings) :
    List ReconciledFact × List ConflictRecord :=
  let groups := (groupBy (ExtractedPrimitive.factKey rt) primitives).values
  (groups.map (factOf rt settings), groups.flatMap (factConflicts rt settings))

/-- The key that the statements of a fact have. -/
def ReconciledFact.factKey (fact : ReconciledFact) : FactKey :=
  toLex (fact.mechanismId, toLex (fact.primitiveType.value,
    toLex (rt.casefold (strip fact.subject), rt.casefold (strip fact.predicate))))

def ReconciledFact.statements (fact : ReconciledFact) (primitives : List ExtractedPrimitive) :
    List ExtractedPrimitive := primitives.filter fun p => p.factKey rt = fact.factKey rt

end

/-! ## What the layers agree on -/

/-- There are statements, and they have one value. -/
def Agreed (records : List ExtractedPrimitive) : Prop :=
  records ≠ [] ∧ ∀ p ∈ records, ∀ q ∈ records, Same p.value q.value

theorem mem_uniqueValues {records : List ExtractedPrimitive} {value : Json}
    (h : value ∈ uniqueValues records) : ∃ p ∈ records, value = p.value := by
  obtain ⟨e, he, rfl⟩ := List.mem_map.mp h
  have hfind := Assoc.find_of_mem (Assoc.ascending_sortKeys _) he
  rw [Assoc.find_sortKeys] at hfind
  obtain ⟨p, hp, heq⟩ := List.mem_map.mp (Assoc.mem_of_find hfind)
  exact ⟨p, hp, (congrArg Prod.snd heq).symm⟩

/-- Every statement's value is among the unique ones, up to the order of keys. -/
theorem text_mem_sortKeys {records : List ExtractedPrimitive} {p : ExtractedPrimitive}
    (hp : p ∈ records) : canonicalJson p.value ∈
      (Assoc.sortKeys (records.map fun r => (canonicalJson r.value, r.value))).map Prod.fst := by
  rw [← Assoc.find_isSome, Assoc.find_sortKeys, Assoc.find_isSome, List.map_map]
  exact List.mem_map_of_mem hp

theorem agreed_iff {records : List ExtractedPrimitive} :
    Agreed records ↔ ∃ value, uniqueValues records = [value] := by
  unfold uniqueValues
  have htext : ∀ e ∈ Assoc.sortKeys (records.map fun r => (canonicalJson r.value, r.value)),
      ∃ p ∈ records, e.1 = canonicalJson p.value := by
    intro e he
    have hfind := Assoc.find_of_mem (Assoc.ascending_sortKeys _) he
    rw [Assoc.find_sortKeys] at hfind
    obtain ⟨p, hp, heq⟩ := List.mem_map.mp (Assoc.mem_of_find hfind)
    exact ⟨p, hp, (congrArg Prod.fst heq).symm⟩
  have hascending := Assoc.ascending_sortKeys
    (records.map fun r => (canonicalJson r.value, r.value))
  have hmem := @text_mem_sortKeys records
  revert htext hascending hmem
  generalize Assoc.sortKeys (records.map fun r => (canonicalJson r.value, r.value)) = entries
  intro htext hascending hmem
  constructor
  · intro ⟨hne, hsame⟩
    obtain ⟨p, hp⟩ := List.exists_mem_of_ne_nil records hne
    cases entries with
    | nil => cases hmem hp
    | cons e rest =>
      cases rest with
      | nil => exact ⟨e.2, rfl⟩
      | cons f rest =>
        obtain ⟨q, hq, heq⟩ := htext e (List.mem_cons_self ..)
        obtain ⟨r, hr, hfr⟩ := htext f (List.mem_cons_of_mem _ (List.mem_cons_self ..))
        have hlt : e.1 < f.1 := (List.pairwise_cons.mp hascending).1 f (List.mem_cons_self ..)
        rw [heq, hfr, canonicalJson_injective.mpr (hsame q hq r hr)] at hlt
        exact absurd hlt (lt_irrefl _)
  · intro ⟨value, hvalue⟩
    obtain ⟨e, rfl, -⟩ := List.map_eq_singleton_iff.mp hvalue
    have hkey : ∀ p ∈ records, canonicalJson p.value = e.1 := by
      intro p hp
      exact List.mem_singleton.mp (hmem hp)
    refine ⟨?_, fun p hp q hq => canonicalJson_injective.mp ((hkey p hp).trans (hkey q hq).symm)⟩
    rintro rfl
    obtain ⟨p, hp, -⟩ := htext e (List.mem_singleton.mpr rfl)
    cases hp

/-- The value a layer's statements have when they agree. -/
theorem sole_agreed {records : List ExtractedPrimitive} (h : Agreed records) :
    ∃ p ∈ records, sole (uniqueValues records) = some p.value := by
  obtain ⟨value, hvalue⟩ := agreed_iff.mp h
  obtain ⟨p, hp, rfl⟩ := mem_uniqueValues (hvalue ▸ List.mem_singleton_self value)
  refine ⟨p, hp, ?_⟩
  rw [hvalue]
  rfl

theorem sole_of_not_agreed {records : List ExtractedPrimitive} (h : ¬ Agreed records) :
    sole (uniqueValues records) = none := by
  cases hvalues : uniqueValues records with
  | nil => rfl
  | cons v rest =>
    cases rest with
    | nil => exact absurd (agreed_iff.mpr ⟨v, hvalues⟩) h
    | cons w rest => rfl

theorem selectedValue_eq (records : List ExtractedPrimitive) :
    selectedValue records = ((sole (uniqueValues (inLayer .normative records))).or
      ((sole (uniqueValues (inLayer .operational records))).or
        (sole (uniqueValues (inLayer .behavioral records))))).getD .null := by
  unfold selectedValue layerOrder
  simp only [List.findSome?_cons, List.findSome?_nil]
  cases sole (uniqueValues (inLayer .normative records)) <;>
    cases sole (uniqueValues (inLayer .operational records)) <;>
    cases sole (uniqueValues (inLayer .behavioral records)) <;> rfl

/-! ## Precedence of the normative layer -/

/-- What the normative statements say about the value of their fact. -/
structure NormativeFirst (records : List ExtractedPrimitive) (selected : Json) : Prop where
  agreed : Agreed (inLayer .normative records) →
    ∃ p ∈ inLayer .normative records, selected = p.value
  conflicting : inLayer .normative records ≠ [] → ¬ Agreed (inLayer .normative records) →
    selected = .null

/-- The statements of a layer agree on a value that is not null. -/
def Settles (layer : TruthLayer) (records : List ExtractedPrimitive) : Prop :=
  Agreed (inLayer layer records) ∧ ∃ p ∈ inLayer layer records, p.value ≠ .null

/-- The normative statements conflict, and the first lower layer that agrees has a value. -/
def FallsThrough (records : List ExtractedPrimitive) : Prop :=
  inLayer .normative records ≠ [] ∧ ¬ Agreed (inLayer .normative records) ∧
    (Settles .operational records ∨
      ¬ Agreed (inLayer .operational records) ∧ Settles .behavioral records)

theorem eq_null_of_same {value : Json} (h : Same .null value) : value = .null := by
  cases value <;> simp_all [Same, canon]

/-- The sole value of a layer that agrees on null, or does not agree, is no value. -/
theorem sole_null_iff {layer : TruthLayer} {records : List ExtractedPrimitive} :
    (sole (uniqueValues (inLayer layer records))).getD .null = .null ↔
      ¬ Settles layer records := by
  by_cases hagreed : Agreed (inLayer layer records)
  · obtain ⟨p, hp, hsole⟩ := sole_agreed hagreed
    rw [hsole, Option.getD_some]
    constructor
    · intro hnull hsettles
      obtain ⟨-, q, hq, hne⟩ := hsettles
      have hsame := hagreed.2 p hp q hq
      rw [hnull] at hsame
      exact hne (eq_null_of_same hsame)
    · intro hnot
      by_contra hne
      exact hnot ⟨hagreed, p, hp, hne⟩
  · rw [sole_of_not_agreed hagreed]
    exact iff_of_true rfl fun h => hagreed h.1

theorem normativeFirst_iff (records : List ExtractedPrimitive) :
    NormativeFirst records (selectedValue records) ↔ ¬ FallsThrough records := by
  rw [selectedValue_eq]
  by_cases hnormative : Agreed (inLayer .normative records)
  · obtain ⟨p, hp, hsole⟩ := sole_agreed hnormative
    refine iff_of_true ⟨fun _ => ⟨p, hp, ?_⟩, fun _ hnot => absurd hnormative hnot⟩
      fun h => h.2.1 hnormative
    rw [hsole]
    rfl
  · have hlower : NormativeFirst records (((sole (uniqueValues (inLayer .normative records))).or
        ((sole (uniqueValues (inLayer .operational records))).or
          (sole (uniqueValues (inLayer .behavioral records))))).getD .null) ↔
        (inLayer .normative records ≠ [] →
          ((sole (uniqueValues (inLayer .operational records))).or
            (sole (uniqueValues (inLayer .behavioral records)))).getD .null = .null) := by
      rw [sole_of_not_agreed hnormative, Option.none_or]
      exact ⟨fun h hne => h.conflicting hne hnormative,
        fun h => ⟨fun hagreed => absurd hagreed hnormative, fun hne _ => h hne⟩⟩
    rw [hlower]
    by_cases hoperational : Agreed (inLayer .operational records)
    · obtain ⟨q, _, hsole⟩ := sole_agreed hoperational
      have hnull := @sole_null_iff .operational records
      rw [hsole] at hnull ⊢
      rw [Option.some_or, hnull]
      constructor
      · intro h hfalls
        rcases hfalls.2.2 with hsettles | ⟨hnot, -⟩
        · exact h hfalls.1 hsettles
        · exact hnot hoperational
      · intro h hne hsettles
        exact h ⟨hne, hnormative, .inl hsettles⟩
    · rw [sole_of_not_agreed hoperational, Option.none_or, sole_null_iff]
      constructor
      · intro h hfalls
        rcases hfalls.2.2 with hsettles | ⟨-, hsettles⟩
        · exact hoperational hsettles.1
        · exact h hfalls.1 hsettles
      · intro h hne hsettles
        exact h ⟨hne, hnormative, .inr ⟨hoperational, hsettles⟩⟩

/-! ## The facts of a reconciliation -/

section
variable {rt : Runtime} {primitives : List ExtractedPrimitive} {settings : CompilerSettings}

/-- A fact is computed from its statements. -/
theorem fact_of_mem {fact : ReconciledFact}
    (h : fact ∈ (reconcile rt primitives settings).1) :
    ∃ group : Members ExtractedPrimitive, fact = factOf rt settings group ∧
      group.items = fact.statements rt primitives := by
  obtain ⟨group, hgroup, rfl⟩ := List.mem_map.mp h
  obtain ⟨key, hget⟩ := Dict.mem_values.mp hgroup
  refine ⟨group, rfl, ?_⟩
  have hfirst := (key_of_get hget group.first (List.mem_cons_self ..)).2
  have hkey : (factOf rt settings group).factKey rt = key := hfirst
  rw [items_of_get hget, ReconciledFact.statements, hkey]

end

/-- **The normative statements of a fact decide its value exactly when it does not fall through
to a lower layer.** -/
theorem precedence_iff (rt : Runtime) (primitives : List ExtractedPrimitive)
    (settings : CompilerSettings) : ∀ fact ∈ (reconcile rt primitives settings).1,
      (NormativeFirst (fact.statements rt primitives) fact.selectedValue ↔
        ¬ FallsThrough (fact.statements rt primitives)) := by
  intro fact hfact
  obtain ⟨group, hgroup, hitems⟩ := fact_of_mem hfact
  have hselected : fact.selectedValue = selectedValue (fact.statements rt primitives) := by
    rw [← hitems, hgroup]
    rfl
  rw [hselected]
  exact normativeFirst_iff _

/-! ### Two policies and a deployed system -/

/-- A runtime for texts in ASCII lower case; its digests are lengths. -/
def plainRuntime : Runtime where
  repr _ := ""
  sha256 text := toString text.length
  fromisoformat _ := .invalid
  isoformat _ := ""
  casefold text := text
  rounding :=
    { round := id
      finite_round := by
        intro q h
        have hbelow : overflowThreshold < infinity := by decide +kernel
        exact decide_eq_true (h.trans hbelow) }

/-- A source of the layer says who may approve a discharge. -/
def approverIs (truthLayer : TruthLayer) (sourceId role : String) : ExtractedPrimitive where
  statementId := "statement-" ++ sourceId
  mechanismId := "discharge"
  primitiveType := .approval
  subject := "discharge"
  predicate := "approver"
  value := .str role
  truthLayer := truthLayer
  sourceReference := ⟨sourceId, "1", "sha256:0", "inline"⟩
  confidence := 1
  riskClass := .unclassified
  sourceSpan := "statements/0"

/-- Two policies name different approvers, and what the system does is selected. -/
def contestedApprover : List ExtractedPrimitive :=
  [approverIs .normative "policy-a" "attending", approverIs .normative "policy-b" "head nurse",
    approverIs .operational "ehr" "any clinician"]

theorem precedence_iff_contested : ∃ fact ∈ (reconcile plainRuntime contestedApprover {}).1,
    (NormativeFirst (fact.statements plainRuntime contestedApprover) fact.selectedValue ↔
      ¬ FallsThrough (fact.statements plainRuntime contestedApprover)) := by
  have hrun : (reconcile plainRuntime contestedApprover {}).1.isEmpty = false := by decide +kernel
  obtain ⟨fact, hfact⟩ := List.exists_mem_of_ne_nil _ (List.isEmpty_eq_false_iff.mp hrun)
  exact ⟨fact, hfact, precedence_iff plainRuntime contestedApprover {} fact hfact⟩

theorem operational_value_selected :
    ¬ ∀ fact ∈ (reconcile plainRuntime contestedApprover {}).1,
      NormativeFirst (fact.statements plainRuntime contestedApprover) fact.selectedValue := by
  intro h
  let key := (approverIs .normative "policy-a" "attending").factKey plainRuntime
  have hrun : (reconcile plainRuntime contestedApprover {}).1.map
      (fun fact => (fact.selectedValue, fact.factKey plainRuntime)) =
        [(.str "any clinician", key)] := by decide +kernel
  obtain ⟨fact, hfacts, hfact⟩ := List.map_eq_singleton_iff.mp hrun
  obtain ⟨hvalue, hkey⟩ := Prod.mk.inj hfact
  have hall : fact.statements plainRuntime contestedApprover = contestedApprover := by
    unfold ReconciledFact.statements
    rw [hkey]
    refine List.filter_eq_self.mpr fun p hp => decide_eq_true ?_
    simp only [contestedApprover, List.mem_cons, List.not_mem_nil, or_false] at hp
    rcases hp with rfl | rfl | rfl <;> rfl
  have hfirst := h fact (hfacts ▸ List.mem_singleton_self fact)
  rw [hall, hvalue] at hfirst
  have hdisagree : ¬ Agreed (inLayer .normative contestedApprover) := by
    intro hagreed
    have hsame := hagreed.2 (approverIs .normative "policy-a" "attending") (List.mem_cons_self ..)
      (approverIs .normative "policy-b" "head nurse") (List.mem_cons_of_mem _ (List.mem_cons_self ..))
    simp [approverIs, Same, canon] at hsame
  cases hfirst.conflicting (List.cons_ne_nil _ _) hdisagree

end Edon.Compiler
