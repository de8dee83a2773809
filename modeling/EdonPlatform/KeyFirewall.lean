import EdonPlatform.Cerebrum.Operations
import EdonPlatform.Gateway.Payload
import EdonPlatform.ActionNet.GlobalExperience
import EdonPlatform.Optimization.Adapter

/- The four boundaries that keep authority out of what models and outside systems send:
   the operations adapter, the payload check of the gateway, the normalization of a global
   experience, and the optimization adapter. `firewall_iff` says for every boundary and every
   document it accepts when the document is free of the keys the boundary forbids. The gateway
   and the optimization adapter keep them all out. The operations adapter misses keys in other
   letter cases, claims of binding authority that are not the constant `True`, and a NaN as
   confidence; the network misses what it turns into text before it looks. -/
namespace Edon.KeyFirewall

/-- A boundary, with what else its check reads. -/
inductive Boundary where
  | operations (provider : PyValue → Except PyError PyValue) (modelLineage : String)
      (context : PyValue)
  | gateway
  | globalExperience
  | optimization (request : Optimization.Request)

namespace Boundary

/-- The keys the boundary forbids. -/
def forbidden : Boundary → List String
  | .operations .. => Cerebrum.forbiddenModelFields
  | .gateway => Gateway.credentialValueFields ++ Gateway.authorityFields
  | .globalExperience => LearningNetwork.forbiddenGlobalFields
  | .optimization _ => Optimization.forbiddenAuthorityKeys

section
variable (I : Interpreter)

/-- The document passes the boundary. The document of the operations adapter is what its
provider answers. -/
def Accepts : Boundary → PyValue → Prop
  | .operations provider modelLineage context, raw =>
    provider context = .ok raw ∧
      ∃ p, Cerebrum.Operations.propose I provider modelLineage context = .ok p
  | .gateway, payload => ∃ out, Gateway.validateUntrustedPayload I payload = .ok out
  | .globalExperience, value =>
    ∃ out, LearningNetwork.normalizeGlobalExperience I value = .ok out
  | .optimization request, candidate =>
    ∃ out, Optimization.validateCandidate I request candidate = .ok out

/-- Every confidence the boundary passes on is a finite number between 0 and 1. -/
def ConfidenceInUnit : Boundary → Prop
  | .operations provider modelLineage context =>
    ∀ p, Cerebrum.Operations.propose I provider modelLineage context = .ok p →
      Cerebrum.Operations.InUnit p.confidence
  | _ => True

/-- What a boundary promises of a document it accepts. -/
def Lawful (b : Boundary) (document : PyValue) : Prop :=
  document.Clean b.forbidden ∧ b.ConfidenceInUnit I

end

/-- The check of the boundary sees all of the document there is to see. -/
def Recognises : Boundary → PyValue → Prop
  | .operations .., raw => raw.Throughout Cerebrum.Operations.Recognised ∧
      raw.getD "confidence" .null ≠ .ok (.float .nan)
  | .globalExperience, value => ∀ v ∈ LearningNetwork.unscanned value,
      v.Clean LearningNetwork.forbiddenGlobalFields
  | _, _ => True

/-- **A document a boundary accepts is free of what the boundary forbids exactly when its
check sees all of it.** -/
theorem firewall_iff {I : Interpreter} {b : Boundary} {document : PyValue}
    (h : b.Accepts I document) : b.Lawful I document ↔ b.Recognises document := by
  cases b with
  | operations provider modelLineage context =>
    obtain ⟨hanswer, p, hp⟩ := h
    have hconfidence : ConfidenceInUnit I (.operations provider modelLineage context) ↔
        Cerebrum.Operations.InUnit p.confidence := by
      constructor
      · intro hall
        exact hall p hp
      · intro hunit q hq
        cases hp.symm.trans hq
        exact hunit
    exact (and_congr_right' hconfidence).trans (Cerebrum.Operations.propose_lawful hanswer hp)
  | gateway =>
    obtain ⟨out, hout⟩ := h
    exact iff_of_true ⟨Gateway.validateUntrustedPayload_clean hout, trivial⟩ trivial
  | globalExperience =>
    obtain ⟨out, hout⟩ := h
    exact (and_iff_left trivial).trans (LearningNetwork.normalizeGlobalExperience_clean hout)
  | optimization request =>
    obtain ⟨out, hout⟩ := h
    exact iff_of_true ⟨Optimization.validateCandidate_clean hout, trivial⟩ trivial

/-! ## Answers that pass -/

/-- The interpreter on the few values below. -/
def console : Interpreter where
  repr _ := "\x7b'tenant_id': 'clinic-7'\x7d"
  floatText _ := "0.5"
  parseFloat _ := none
  sha256 _ := "44136fa355b3678a1146ad16f7e8649e94fb4fc21fe77e8310c060f61caaff8a"

/-- An answer of a provider, with one more entry and a confidence. -/
def answer (entry : String × PyValue) (confidence : PyValue) : PyValue :=
  .dict [("proposal_id", .str "proposal-1"), ("proposal_type", .str "ABSTAIN"),
    ("payload", .dict [entry]), ("rationale", .str "nothing is ready"),
    ("confidence", confidence)]

def half : PyValue := .float (.finite (1 / 2))

def operationsOf (raw : PyValue) : Boundary := .operations (fun _ => .ok raw) "c1" (.dict [])

/-- An experience whose institution is a dictionary. -/
def experience (institution : PyValue) : PyValue :=
  .dict [("institution_type", institution), ("mechanism_families", .list [.str "triage"]),
    ("trajectory_summary", .dict []), ("outcome_summary", .dict []),
    ("generalized_pattern", .dict []), ("provenance_commitments", .dict [])]

theorem exists_ok {α : Type} {x : Except PyError α} (h : x.isOk = true) : ∃ a, x = .ok a := by
  cases x with
  | error e => cases h
  | ok a => exact ⟨a, rfl⟩

theorem firewall_iff_answer :
    (operationsOf (answer ("note", .str "wait") half)).Lawful console
        (answer ("note", .str "wait") half) ↔
      (operationsOf (answer ("note", .str "wait") half)).Recognises
        (answer ("note", .str "wait") half) :=
  firewall_iff ⟨rfl, exists_ok (by decide +kernel)⟩

/-- An answer with a token under a key with a capital letter is accepted, so are one that
gives a claim of authority as a number and one whose confidence is a NaN; so is an experience
that names a tenant inside its institution. -/
theorem authority_passes :
    (∀ raw ∈ [answer ("Kernel_Token", .str "t") half, answer ("binding_authority", .int 1) half,
        answer ("note", .str "wait") (.float .nan)],
      (operationsOf raw).Accepts console raw ∧ ¬ (operationsOf raw).Lawful console raw) ∧
    Accepts console .globalExperience (experience (.dict [("tenant_id", .str "clinic-7")])) ∧
    ¬ Lawful console .globalExperience (experience (.dict [("tenant_id", .str "clinic-7")])) := by
  have hentry (entry : String × PyValue) : (answer entry half).Within entry.1 entry.2 :=
    .inDict (show ("payload", PyValue.dict [entry]) ∈ _ by simp) (.entry (by simp))
  refine ⟨?_, exists_ok (by decide +kernel), ?_⟩
  · intro raw hraw
    rw [List.mem_cons, List.mem_cons, List.mem_singleton] at hraw
    rcases hraw with rfl | rfl | rfl
    · refine ⟨⟨rfl, exists_ok (by decide +kernel)⟩, fun hlawful => ?_⟩
      exact (hlawful.1 _ _ (hentry _)).1 (by decide)
    · refine ⟨⟨rfl, exists_ok (by decide +kernel)⟩, fun hlawful => ?_⟩
      exact PyValue.noConfusion ((hlawful.1 _ _ (hentry _)).2 (by decide))
    · have haccepts : (operationsOf (answer ("note", .str "wait") (.float .nan))).Accepts console
          (answer ("note", .str "wait") (.float .nan)) := ⟨rfl, exists_ok (by decide +kernel)⟩
      exact ⟨haccepts, fun hlawful =>
        ((firewall_iff haccepts).mp hlawful).2 rfl⟩
  · intro hlawful
    have htenant : (experience (.dict [("tenant_id", .str "clinic-7")])).Within "tenant_id"
        (.str "clinic-7") := .inDict (List.mem_cons_self ..) (.entry (by simp))
    exact (hlawful.1 _ _ htenant).1 (by decide)

end Boundary

end Edon.KeyFirewall
