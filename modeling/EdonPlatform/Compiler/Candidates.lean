import EdonPlatform.Compiler.Reconciliation
import EdonPlatform.Registry.Store

/- The candidates the compiler makes of reconciled facts (edon/compiler/pipeline.py): one for
   each mechanism, with the fragments of the mechanism, its risk class, the checks it failed
   and the reviewer it is routed to.

   The risk class is the highest one that a statement declares; where none declares one, it
   comes from the types of the statements. `riskForMechanism_mono_iff`: more statements never
   lower the risk class, or the approvals a promotion needs, exactly when no declaration
   displaces a higher class that came from the types.

   Correspondence (Python ↔ Lean):
     `RISK_ORDER`, `IR_FIELDS`      ↔ `RiskClass.order`, `irFields`
     `_render_fact`                 ↔ `renderFact`
     `_risk_for_mechanism`          ↔ `riskForMechanism`
     `_reviewer_for`                ↔ `reviewerFor`
     `_mechanism_dict`, `_fact_dict` ↔ `InstitutionalMechanism.dict`, `ReconciledFact.dict`
     `_candidate_for`               ↔ `candidateFor`, its row `CompilerCandidate.row` -/
namespace Edon.Compiler
open Json

/-! ## Risk -/

def RiskClass.order : RiskClass → Nat
  | .unclassified => 0
  | .low => 1
  | .moderate => 2
  | .high => 3
  | .critical => 4

/-- `max(declared, key=RISK_ORDER.__getitem__, default=UNCLASSIFIED)`. -/
def highestRisk (declared : List RiskClass) : RiskClass :=
  declared.foldr (fun risk highest => if highest.order ≤ risk.order then risk else highest)
    .unclassified

def ofMechanism (mechanismId : String) (primitives : List ExtractedPrimitive) :
    List ExtractedPrimitive := primitives.filter fun p => p.mechanismId = mechanismId

/-- The class that the types of the statements give. -/
def defaultRisk (records : List ExtractedPrimitive) : RiskClass :=
  if records.any fun p => p.primitiveType ∈ sensitivePrimitives then .high
  else if records ≠ [] then .moderate else .unclassified

def riskForMechanism (mechanismId : String) (primitives : List ExtractedPrimitive) : RiskClass :=
  let records := ofMechanism mechanismId primitives
  let highest := highestRisk (records.map ExtractedPrimitive.riskClass)
  if highest ≠ .unclassified then highest else defaultRisk records

def reviewerFor : RiskClass → String
  | .critical => "EXECUTIVE_RISK_OWNER"
  | .high => "DOMAIN_AND_SAFETY_REVIEWER"
  | _ => "INSTITUTIONAL_REVIEWER"

theorem le_highestRisk {declared : List RiskClass} {risk : RiskClass} (h : risk ∈ declared) :
    risk.order ≤ (highestRisk declared).order := by
  induction declared with
  | nil => cases h
  | cons r declared ih =>
    unfold highestRisk at ih ⊢
    rw [List.foldr_cons]
    rcases List.mem_cons.mp h with rfl | h
    · split
      · exact le_refl _
      · omega
    · have := ih h
      split <;> omega

theorem highestRisk_mem (declared : List RiskClass) :
    highestRisk declared ∈ declared ∨ highestRisk declared = .unclassified := by
  induction declared with
  | nil => exact .inr rfl
  | cons r declared ih =>
    unfold highestRisk at ih ⊢
    rw [List.foldr_cons]
    split
    · exact .inl (List.mem_cons_self ..)
    · exact ih.imp_left (List.mem_cons_of_mem _)

theorem unclassified_of_order {risk : RiskClass} (h : risk.order ≤ 0) : risk = .unclassified := by
  cases risk <;> first | rfl | exact absurd h (by decide)

/-- No class is declared exactly when none is the highest. -/
theorem highestRisk_unclassified {declared : List RiskClass} :
    highestRisk declared = .unclassified ↔ ∀ risk ∈ declared, risk = .unclassified := by
  constructor
  · intro h risk hrisk
    have hle := le_highestRisk hrisk
    rw [h] at hle
    exact unclassified_of_order hle
  · intro h
    exact (highestRisk_mem declared).elim (h _) id

theorem defaultRisk_mono {old new : List ExtractedPrimitive} (h : old ⊆ new) :
    (defaultRisk old).order ≤ (defaultRisk new).order := by
  have hnot_high : (defaultRisk old).order ≤ 3 := by
    unfold defaultRisk
    split
    · exact le_refl _
    · split <;> decide
  by_cases hsensitive : ∃ p ∈ new, p.primitiveType ∈ sensitivePrimitives
  · have hhigh : defaultRisk new = .high := by
      refine if_pos (List.any_eq_true.mpr ?_)
      obtain ⟨p, hp, hp'⟩ := hsensitive
      exact ⟨p, hp, decide_eq_true hp'⟩
    rw [hhigh]
    exact hnot_high
  · have hnone : ∀ l : List ExtractedPrimitive, l ⊆ new →
        defaultRisk l = if l ≠ [] then .moderate else .unclassified := by
      intro l hl
      refine if_neg fun hany => hsensitive ?_
      obtain ⟨p, hp, hp'⟩ := List.any_eq_true.mp hany
      exact ⟨p, hl hp, of_decide_eq_true hp'⟩
    rw [hnone old h, hnone new (List.Subset.refl new)]
    by_cases hempty : old = []
    · rw [if_neg (not_not_intro hempty)]
      exact Nat.zero_le _
    · have hnew : new ≠ [] := by
        intro hnew
        rw [hnew] at h
        exact hempty (List.subset_nil.mp h)
      rw [if_pos hempty, if_pos hnew]

theorem ofMechanism_mono {old new : List ExtractedPrimitive} (h : old ⊆ new)
    (mechanismId : String) : ofMechanism mechanismId old ⊆ ofMechanism mechanismId new := by
  intro p hp
  obtain ⟨hmem, hid⟩ := List.mem_filter.mp hp
  exact List.mem_filter.mpr ⟨h hmem, hid⟩

/-- No statement declared a class, the new ones do, and all they declare is below the class that
the types of the old ones gave. -/
structure Displaced (mechanismId : String) (old new : List ExtractedPrimitive) : Prop where
  undeclared : ∀ p ∈ ofMechanism mechanismId old, p.riskClass = .unclassified
  declared : ∃ p ∈ ofMechanism mechanismId new, p.riskClass ≠ .unclassified
  below : ∀ p ∈ ofMechanism mechanismId new,
    p.riskClass.order < (defaultRisk (ofMechanism mechanismId old)).order

theorem risk_le_iff {old new : List ExtractedPrimitive} (h : old ⊆ new) (mechanismId : String) :
    (riskForMechanism mechanismId old).order ≤ (riskForMechanism mechanismId new).order ↔
      ¬ Displaced mechanismId old new := by
  have hsub := ofMechanism_mono h mechanismId
  have hclass : ∀ {l : List ExtractedPrimitive} {p : ExtractedPrimitive}, p ∈ l →
      p.riskClass ∈ l.map ExtractedPrimitive.riskClass := List.mem_map_of_mem
  unfold riskForMechanism
  dsimp only
  by_cases hold : highestRisk ((ofMechanism mechanismId old).map ExtractedPrimitive.riskClass) =
      .unclassified
  · have hundeclared : ∀ p ∈ ofMechanism mechanismId old, p.riskClass = .unclassified :=
      fun p hp => highestRisk_unclassified.mp hold _ (hclass hp)
    rw [if_neg (not_not_intro hold)]
    by_cases hnew : highestRisk ((ofMechanism mechanismId new).map ExtractedPrimitive.riskClass) =
        .unclassified
    · rw [if_neg (not_not_intro hnew)]
      refine iff_of_true (defaultRisk_mono hsub) fun hdisplaced => ?_
      obtain ⟨p, hp, hne⟩ := hdisplaced.declared
      exact hne (highestRisk_unclassified.mp hnew _ (hclass hp))
    · rw [if_pos hnew]
      obtain ⟨p, hp, hrisk⟩ := List.mem_map.mp ((highestRisk_mem _).resolve_right hnew)
      constructor
      · intro hle hdisplaced
        have hbelow := hdisplaced.below p hp
        rw [hrisk] at hbelow
        omega
      · intro hnot
        by_contra hlt
        refine hnot ⟨hundeclared, ⟨p, hp, hrisk ▸ hnew⟩, fun q hq => ?_⟩
        have hle := le_highestRisk (hclass hq)
        omega
  · rw [if_pos hold]
    obtain ⟨p, hp, hrisk⟩ := List.mem_map.mp ((highestRisk_mem _).resolve_right hold)
    have hle := le_highestRisk (hclass (hsub hp))
    rw [hrisk] at hle
    have hnew : highestRisk ((ofMechanism mechanismId new).map ExtractedPrimitive.riskClass) ≠
        .unclassified := by
      intro hnew
      rw [hnew] at hle
      exact hold (unclassified_of_order hle)
    rw [if_pos hnew]
    exact iff_of_true hle fun hdisplaced => hold (hrisk ▸ hdisplaced.undeclared p hp)

/-- A higher class needs no fewer approvals. -/
theorem requiredApprovals_mono {old new : RiskClass} (h : old.order ≤ new.order) :
    Registry.requiredApprovals old.value ≤ Registry.requiredApprovals new.value := by
  revert h
  cases old <;> cases new <;> decide

/-- **More statements lower neither the risk class of a mechanism nor the approvals it needs
exactly when no declaration displaces the class that came from the types.** -/
theorem riskForMechanism_mono_iff (mechanismId : String) (old new : List ExtractedPrimitive)
    (h : old ⊆ new) :
    ((riskForMechanism mechanismId old).order ≤ (riskForMechanism mechanismId new).order ∧
      Registry.requiredApprovals (riskForMechanism mechanismId old).value ≤
        Registry.requiredApprovals (riskForMechanism mechanismId new).value) ↔
      ¬ Displaced mechanismId old new := by
  rw [← risk_le_iff h mechanismId]
  exact ⟨fun hle => hle.1, fun hle => ⟨hle, requiredApprovals_mono hle⟩⟩

/-- An approver and, with it, an actor whose statement says the risk is low. -/
def lowRiskActor : ExtractedPrimitive :=
  { approverIs .normative "policy-a" "attending" with
    primitiveType := .actor
    riskClass := .low }

theorem riskForMechanism_mono_iff_witness :
    ((riskForMechanism "discharge" []).order ≤
        (riskForMechanism "discharge" [lowRiskActor]).order ∧
      Registry.requiredApprovals (riskForMechanism "discharge" []).value ≤
        Registry.requiredApprovals (riskForMechanism "discharge" [lowRiskActor]).value) ↔
      ¬ Displaced "discharge" [] [lowRiskActor] :=
  riskForMechanism_mono_iff "discharge" [] [lowRiskActor] (List.nil_subset _)

/-- A single declaration takes the class from high to low, and one approval away. -/
theorem declaration_lowers_risk :
    ¬ ∀ old new : List ExtractedPrimitive, old ⊆ new →
      (riskForMechanism "discharge" old).order ≤ (riskForMechanism "discharge" new).order ∧
        Registry.requiredApprovals (riskForMechanism "discharge" old).value ≤
          Registry.requiredApprovals (riskForMechanism "discharge" new).value := by
  intro h
  have hless := (h [approverIs .normative "policy-a" "attending"]
    [approverIs .normative "policy-a" "attending", lowRiskActor]
    (fun p hp => List.mem_append_left [lowRiskActor] hp)).2
  exact absurd hless (by decide)

/-! ## Candidates -/

/-- `IR_FIELDS`, in the order of `_mechanism_dict`. -/
def irFields : List (String × PrimitiveType) :=
  [("actors", .actor), ("roles", .role), ("authority", .authority), ("policies", .policy),
   ("evidence_requirements", .evidenceRequirement), ("resources", .resource),
   ("workflow_steps", .workflowStep), ("approvals", .approval), ("deadlines", .deadline),
   ("revocations", .revocation), ("jurisdictions", .jurisdiction), ("escalations", .escalation),
   ("consequences", .consequence)]

def renderFact (fact : ReconciledFact) : String :=
  let rendered := match fact.selectedValue with
    | .str s => s
    | value => canonicalJson value
  fact.subject ++ ":" ++ fact.predicate ++ ":" ++ rendered

def SourceReference.dict (r : SourceReference) : Json :=
  .obj [("source_id", .str r.sourceId), ("version", .str r.version), ("sha256", .str r.sha256),
    ("locator", .str r.locator)]

def textsJson (texts : List String) : Json := .arr (texts.map .str)

def ReconciledFact.dict (fact : ReconciledFact) : Json :=
  .obj [("primitive_type", .str fact.primitiveType.value), ("subject", .str fact.subject),
    ("predicate", .str fact.predicate), ("selected_value", fact.selectedValue),
    ("agreement_state", .str fact.agreementState),
    ("observed_layers", textsJson (fact.layers.map TruthLayer.value)),
    ("confidence", .float fact.confidence), ("statement_ids", textsJson fact.statementIds),
    ("source_references", .arr (fact.sourceReferences.map SourceReference.dict)),
    ("conflict_ids", textsJson fact.conflictIds)]

/-- A mechanism as the compiler emits it: not approved. -/
structure InstitutionalMechanism where
  mechanismId : String
  version : String
  fragments : PrimitiveType → List String
  sourceReferences : List SourceReference
  riskClass : RiskClass
  factCount : Nat
  conflictCount : Nat

def InstitutionalMechanism.dict (m : InstitutionalMechanism) : Json :=
  .obj ([("mechanism_id", .str m.mechanismId), ("version", .str m.version)] ++
    irFields.map (fun field => (field.1, textsJson (m.fragments field.2))) ++
    [("source_references", .arr (m.sourceReferences.map SourceReference.dict)),
     ("risk_class", .str m.riskClass.value), ("approved", .bool false),
     ("metadata", .obj [("fact_count", .int m.factCount), ("conflict_count", .int m.conflictCount),
       ("compiler_version", .str "0.1.0")])])

structure CompilerCandidate where
  candidateId : String
  mechanism : InstitutionalMechanism
  facts : List ReconciledFact
  observedLayers : List TruthLayer
  confidence : Rat
  conflicts : List String
  requiredReviewerRole : String
  failedChecks : List String

def CompilerCandidate.row (c : CompilerCandidate) : Json :=
  .obj [("candidate_id", .str c.candidateId), ("mechanism", c.mechanism.dict),
    ("facts", .arr (c.facts.map ReconciledFact.dict)),
    ("observed_layers", textsJson (c.observedLayers.map TruthLayer.value)),
    ("confidence", .float c.confidence), ("conflict_ids", textsJson c.conflicts),
    ("focused_review_required", .bool (c.failedChecks ≠ [])),
    ("promotion_review_required", .bool true),
    ("required_reviewer_role", .str c.requiredReviewerRole),
    ("failed_checks", textsJson c.failedChecks), ("binding_authority", .bool false)]

/-- The fragments of the facts that have a value. -/
def fragmentsOf (facts : List ReconciledFact) (type : PrimitiveType) : List String :=
  sortedSet ((facts.filter fun fact => fact.selectedValue ≠ .null && fact.primitiveType = type).map
    renderFact)

def failedChecks (observed : List TruthLayer) (conflicts : List String) (confidence threshold : Rat)
    (risk : RiskClass) (facts : List ReconciledFact) : List String :=
  (if .normative ∈ observed then [] else ["NORMATIVE_SOURCE_MISSING"]) ++
  (if conflicts ≠ [] then ["CONFLICTS_REQUIRE_RESOLUTION"] else []) ++
  (if confidence < threshold then ["CONFIDENCE_BELOW_REVIEW_THRESHOLD"] else []) ++
  (if risk = .high ∨ risk = .critical then ["HIGH_RISK_REVIEW_MANDATORY"] else []) ++
  (if facts.any fun fact => fact.selectedValue = .null then ["UNRESOLVED_FACT_VALUE"] else [])

/-- `_candidate_for`, with the range checks that `CompilerCandidate` makes of its floats. -/
def candidateFor (rt : Runtime) (mechanismId institutionVersion : String)
    (facts : List ReconciledFact) (primitives : List ExtractedPrimitive) (threshold : Rat) :
    Except PyError CompilerCandidate := do
  let risk := riskForMechanism mechanismId primitives
  let confidence := sixPlaces rt.rounding (fmean rt.rounding (facts.map ReconciledFact.confidence))
  let conflicts := sortedSet (facts.flatMap ReconciledFact.conflictIds)
  let observed := layerOrder.filter fun layer => facts.any fun fact => layer ∈ fact.layers
  let identity : Json := .obj [("mechanism_id", .str mechanismId),
    ("version", .str institutionVersion), ("facts", .arr (facts.map ReconciledFact.dict))]
  let references := (Dict.ofList ((facts.flatMap ReconciledFact.sourceReferences).map fun r =>
    ((toLex (r.sourceId, r.version) : String ×ₗ String), r))).values
  require (0 ≤ confidence ∧ confidence ≤ 1)
    ⟨.valueError, "candidate confidence must be between zero and one"⟩
  require (0 ≤ threshold ∧ threshold ≤ 1)
    ⟨.valueError, "candidate review threshold must be between zero and one"⟩
  return {
    candidateId := "candidate-" ++ shortSha256 rt.toPython identity
    mechanism :=
      { mechanismId
        version := institutionVersion
        fragments := fragmentsOf facts
        sourceReferences := references
        riskClass := risk
        factCount := facts.length
        conflictCount := conflicts.length }
    facts
    observedLayers := observed
    confidence, conflicts
    requiredReviewerRole := reviewerFor risk
    failedChecks := failedChecks observed conflicts confidence threshold risk facts }

end Edon.Compiler
