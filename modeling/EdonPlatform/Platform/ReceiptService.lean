import EdonPlatform.Platform.Canonicalize
import EdonPlatform.Platform.Signing

/- Receipts as they are issued, stored and verified
   (packages/platform-core/src/receipt-service.ts, repositories.ts and
   apps/control-plane-api/src/server.ts, `POST /v1/outcomes`).

   What is proved:
     1. `unsealed_longer` — the body of a stored receipt is another text than the one that was
        hashed: it has the tenant.
     2. `stored_verifies_iff` — so a receipt that is read back verifies exactly when the hash of
        the two texts collides and its custody record, if it has one, leaves nothing empty.
     3. `stored_unverified` — a receipt that does not verify.

   Correspondence (TypeScript ↔ Lean):
     `receiptHash`                       ↔ `receiptHash`
     `HashLinkedReceiptService.issue`    ↔ `issue` (`receiptBody` is its `body`)
     `HashLinkedReceiptService.verify`   ↔ `verifyReceipt`
     `POST /v1/outcomes`, `putReceipt`   ↔ `storedReceipt`
     `getReceipt`                        ↔ `readReceipt`

   A column may return the properties of its objects in any order. -/
namespace Edon.Platform
open Js
open Separated

/-! ## Issuing -/

/-- What is read of the context of a proposal. -/
structure ReceiptContext where
  stateVersion : Option Number
  evidenceVersions : Option Fields
  c1Release : Option String
  policyVersion : Option String
  authorityVersion : Option String

/-- What is read of a proposal. -/
structure ReceiptProposal where
  proposalId : String
  incidentId : String
  proposalHash : Option String
  stateVersion : Number
  policyVersion : String
  context : Option ReceiptContext

section
variable (js : Runtime)

/-- The UTF-16 code units of a text. -/
def utf16Units (cs : List Char) : List Nat :=
  cs.flatMap fun c =>
    if c.toNat < 65536 then [c.toNat]
    else [55296 + (c.toNat - 65536) / 1024, 56320 + (c.toNat - 65536) % 1024]

/-- `hash = Math.imul(hash ^ unit, 16777619)`, on 32 bits. -/
def fnvStep (hash unit : Nat) : Nat := (hash ^^^ unit) * 16777619 % 4294967296

def receiptHash (body : Fields) : String :=
  let hash := (utf16Units (Js.text js (.obj body))).foldl fnvStep 2166136261
  String.ofList ("sha256:sim-".toList ++ Nat.toDigits 16 hash)

def receiptBody (proposal : ReceiptProposal) (decisionId : String) (reviewId : Option String)
    (outcomeId : Option Value) : List (String × Option Data) :=
  [("receipt_id", some (.str ("RCP-" ++ proposal.proposalId))),
    ("incident_id", some (.str proposal.incidentId)),
    ("proposal_id", some (.str proposal.proposalId)),
    ("kernel_decision_id", some (.str decisionId)),
    ("human_reviewed", some (.bool (Js.truthy (reviewId.map Value.str)))),
    ("shadow_only", some (.bool true)),
    ("outcome_id", outcomeId.map Value.data),
    ("event_ids", some (.arr [.str "evt-19001", .str "evt-19002", .str "evt-19003",
      .str "evt-19004", .str "evt-19005", .str "evt-19006"])),
    ("proposal_hash", proposal.proposalHash.map .str),
    ("state_version", some (.num
      ((proposal.context.bind ReceiptContext.stateVersion).getD proposal.stateVersion))),
    ("evidence_versions", (proposal.context.bind ReceiptContext.evidenceVersions).map
      fun kvs => (Value.obj kvs).data),
    ("model_release", (proposal.context.bind ReceiptContext.c1Release).map .str),
    ("policy_version", some (.str
      ((proposal.context.bind ReceiptContext.policyVersion).getD proposal.policyVersion))),
    ("authority_version", (proposal.context.bind ReceiptContext.authorityVersion).map .str),
    ("simulated", some (.bool true))]

def issue (body : List (String × Option Data)) : List (String × Option Data) :=
  body ++ [("receipt_hash", some (.str (receiptHash js (parsedFields body)))),
    ("signature", some (.str "")), ("signature_status", some (.str "SIGNATURE_PENDING"))]

/-- `{ ...receipt, tenant_id }`, as it is written to its column. -/
def storedReceipt (tenantId : String) (body : List (String × Option Data)) : Value :=
  .obj (parsedFields (issue js body ++ [("tenant_id", some (.str tenantId))]))

/-- The receipt, with what its custody record says. -/
def readReceipt (payload : Value) (custody : Option ReceiptCustodyRecord) : Value :=
  match custody with
  | some c => Records.withSignature payload c
  | none => payload

/-! ## Verifying -/

/-- The properties that `verify` takes out before it hashes. -/
def seals : List String :=
  ["receipt_hash", "signature", "signature_status", "digest", "algorithm", "key_id", "key_version",
    "signed_at"]

def unsealed (kvs : Fields) : Fields := kvs.filter fun e => e.1 ∉ seals

def fieldsOf : Value → Fields
  | .obj kvs => kvs
  | _ => []

def verifyReceipt (receipt : Value) : Bool :=
  isText (field receipt "receipt_hash") (receiptHash js (unsealed (fieldsOf receipt))) &&
    (isText (field receipt "signature_status") "SIGNATURE_PENDING" ||
      ["signature", "digest", "algorithm", "key_id", "key_version", "signed_at"].all
        fun key => Js.truthy (field receipt key))

/-- Nothing in the record is empty. -/
def ReceiptCustodyRecord.complete (c : ReceiptCustodyRecord) : Bool :=
  c.envelope.signature ≠ "" && c.envelope.digest ≠ "" && c.envelope.algorithm ≠ "" &&
    c.envelope.keyId ≠ "" && c.envelope.keyVersion.any (· ≠ "") && c.envelope.signedAt ≠ ""

end

/-! ## Objects of a column -/

theorem filter_forall₂ {α β : Type} {R : α → β → Prop} {p : α → Bool} {q : β → Bool} {l : List α}
    {m : List β} (h : List.Forall₂ R l m) (hpq : ∀ a b, R a b → p a = q b) :
    List.Forall₂ R (l.filter p) (m.filter q) := by
  induction h with
  | nil => exact .nil
  | cons hab _ ih =>
    rw [List.filter_cons, List.filter_cons, hpq _ _ hab]
    split
    · exact .cons hab ih
    · exact ih

/-- What is left of an object without some of its keys. -/
theorem reordered_filter {kvs kws : Fields} (p : String → Bool)
    (h : Reordered (.obj kvs) (.obj kws)) :
    Reordered (.obj (kvs.filter fun e => p e.1)) (.obj (kws.filter fun e => p e.1)) := by
  cases h with
  | obj hperm hfields =>
    refine .obj (hperm.filter _) (reorderedFields_iff.mpr ?_)
    refine filter_forall₂ (reorderedFields_iff.mp hfields) ?_
    intro e f hef
    rw [hef.1]

theorem reordered_keys {kvs kws : Fields} (h : Reordered (.obj kvs) (.obj kws)) :
    (kvs.map Prod.fst).Perm (kws.map Prod.fst) := by
  cases h with
  | obj hperm hfields =>
    refine (hperm.map Prod.fst).trans (List.Perm.of_eq ?_)
    have hsame := reorderedFields_iff.mp hfields
    clear hperm hfields
    induction hsame with
    | nil => rfl
    | cons hef _ ih => rw [List.map_cons, List.map_cons, hef.1, ih]

theorem find_of_mem_nodup {kvs : Fields} (hkeys : (kvs.map Prod.fst).Nodup) {k : String} {v : Value}
    (h : (k, v) ∈ kvs) : Assoc.find kvs k = some v := by
  induction kvs with
  | nil => cases h
  | cons e kvs ih =>
    rw [List.map_cons, List.nodup_cons] at hkeys
    rw [Assoc.find_cons]
    rcases List.mem_cons.mp h with rfl | h
    · exact if_pos rfl
    · rw [if_neg]
      · exact ih hkeys.2 h
      · intro hkey
        exact hkeys.1 (List.mem_map.mpr ⟨_, h, hkey.symm⟩)

/-- A text is found under its key in whatever order the object is returned. -/
theorem find_reordered {kvs kws : Fields} (h : Reordered (.obj kvs) (.obj kws))
    (hkeys : (kvs.map Prod.fst).Nodup) {k s : String} (hmem : (k, Value.str s) ∈ kvs) :
    Assoc.find kws k = some (.str s) := by
  refine find_of_mem_nodup ((reordered_keys h).nodup_iff.mp hkeys) ?_
  cases h with
  | obj hperm hfields =>
    have hsame := reorderedFields_iff.mp hfields
    have hmem := hperm.mem_iff.mp hmem
    clear hperm hfields
    induction hsame with
    | nil => cases hmem
    | cons hef _ ih =>
      next e f _ _ _ =>
      rcases List.mem_cons.mp hmem with rfl | hmem
      · obtain ⟨k', w⟩ := f
        obtain ⟨hkey, hvalue⟩ := hef
        cases hkey
        cases hvalue
        exact List.mem_cons_self
      · exact List.mem_cons_of_mem _ (ih hmem)

/-! ## The body of a stored receipt -/

theorem parsedFields_append (kvs kws : List (String × Option Data)) :
    parsedFields (kvs ++ kws) = parsedFields kvs ++ parsedFields kws := by
  induction kvs with
  | nil => rfl
  | cons e kvs ih =>
    obtain ⟨k, o⟩ := e
    cases o with
    | none => exact ih
    | some v =>
      rw [List.cons_append, parsedFields, parsedFields, ih]
      rfl

theorem parsedFields_keys (kvs : List (String × Option Data)) :
    ((parsedFields kvs).map Prod.fst).Sublist (kvs.map Prod.fst) := by
  induction kvs with
  | nil => exact .slnil
  | cons e kvs ih =>
    obtain ⟨k, o⟩ := e
    cases o with
    | none => exact ih.cons k
    | some v => exact ih.cons_cons k

def bodyKeys : List String :=
  ["receipt_id", "incident_id", "proposal_id", "kernel_decision_id", "human_reviewed",
    "shadow_only", "outcome_id", "event_ids", "proposal_hash", "state_version",
    "evidence_versions", "model_release", "policy_version", "authority_version", "simulated"]

/-- The properties of a receipt's body, of which some may be undefined. -/
def IsBody (body : List (String × Option Data)) : Prop := body.map Prod.fst = bodyKeys

section
variable {js : Runtime} {tenantId : String} {body : List (String × Option Data)} {kws : Fields}

theorem stored_keys (hbody : IsBody body) :
    ((fieldsOf (storedReceipt js tenantId body)).map Prod.fst).Sublist
      (bodyKeys ++ ["receipt_hash", "signature", "signature_status", "tenant_id"]) := by
  have hkeys : (issue js body ++ [("tenant_id", some (Data.str tenantId))]).map Prod.fst =
      bodyKeys ++ ["receipt_hash", "signature", "signature_status", "tenant_id"] := by
    rw [issue, List.map_append, List.map_append, hbody]
    rfl
  rw [← hkeys]
  exact parsedFields_keys _

theorem fieldsOf_stored : fieldsOf (storedReceipt js tenantId body) = parsedFields body ++
    [("receipt_hash", .str (receiptHash js (parsedFields body))), ("signature", .str ""),
      ("signature_status", .str "SIGNATURE_PENDING"), ("tenant_id", .str tenantId)] := by
  show parsedFields (issue js body ++ _) = _
  rw [issue, List.append_assoc, parsedFields_append]
  rfl

theorem unsealed_stored (hbody : IsBody body) :
    unsealed (fieldsOf (storedReceipt js tenantId body)) =
      parsedFields body ++ [("tenant_id", .str tenantId)] := by
  have hkeys : ∀ k ∈ bodyKeys, k ∉ seals := by decide
  have hkept : unsealed (parsedFields body) = parsedFields body := by
    refine List.filter_eq_self.mpr fun e he => decide_eq_true (hkeys _ ?_)
    rw [← hbody]
    exact (parsedFields_keys body).subset (List.mem_map_of_mem he)
  have hrest : unsealed [("receipt_hash", .str (receiptHash js (parsedFields body))),
      ("signature", .str ""), ("signature_status", .str "SIGNATURE_PENDING"),
      ("tenant_id", .str tenantId)] = [("tenant_id", .str tenantId)] := by
    rfl
  rw [fieldsOf_stored, unsealed, List.filter_append]
  exact congrArg₂ (· ++ ·) hkept hrest

/-- The text of the body is longer by the tenant. -/
theorem unsealed_longer (hbody : IsBody body)
    (hstored : Reordered (storedReceipt js tenantId body) (.obj kws)) :
    (Js.text js (.obj (parsedFields body))).length < (Js.text js (.obj (unsealed kws))).length := by
  have hobject : storedReceipt js tenantId body =
      .obj (fieldsOf (storedReceipt js tenantId body)) := rfl
  rw [hobject] at hstored
  have hsame := @length_text_reordered js _ _ (reordered_filter (fun k => k ∉ seals) hstored)
  have hunsealed : (fieldsOf (storedReceipt js tenantId body)).filter (fun e => e.1 ∉ seals) =
      parsedFields body ++ [("tenant_id", .str tenantId)] := unsealed_stored hbody
  have htenant : 2 ≤ (textField js ("tenant_id", .str tenantId)).length + 1 := by
    rw [textField, List.length_append, List.length_cons]
    omega
  rw [hunsealed, length_object, List.map_append, List.sum_append, List.map_singleton,
    List.sum_singleton] at hsame
  rw [length_object, unsealed, ← hsame]
  omega

theorem filter_put {kvs : Fields} {k : String} (v : Value) (hk : k ∈ seals) :
    unsealed (Assoc.put kvs k v) = unsealed kvs := by
  unfold unsealed
  induction kvs with
  | nil => rw [Assoc.put, List.filter_cons_of_neg (by simpa using hk)]
  | cons e kvs ih =>
    by_cases he : e.1 = k
    · rw [Assoc.put, if_pos he, List.filter_cons_of_neg (by simpa using hk),
        List.filter_cons_of_neg (by simpa [he] using hk)]
    · rw [Assoc.put, if_neg he, List.filter_cons, List.filter_cons, ih]

theorem unsealed_puts {sealing : Fields} (h : ∀ e ∈ sealing, e.1 ∈ seals) (kvs : Fields) :
    unsealed (sealing.foldl (fun kvs f => Assoc.put kvs f.1 f.2) kvs) = unsealed kvs := by
  induction sealing generalizing kvs with
  | nil => rfl
  | cons e sealing ih =>
    rw [List.foldl_cons, ih (fun f hf => h f (List.mem_cons_of_mem _ hf)),
      filter_put _ (h e List.mem_cons_self)]

end

/-! ## Verification -/

section
variable {js : Runtime} {tenantId : String} {body : List (String × Option Data)} {kws : Fields}

/-- What is not in an issued receipt is not found in it. -/
theorem stored_absent (hbody : IsBody body)
    (hstored : Reordered (storedReceipt js tenantId body) (.obj kws)) {k : String}
    (hk : k ∉ bodyKeys ++ ["receipt_hash", "signature", "signature_status", "tenant_id"]) :
    Assoc.find kws k = none := by
  have hobject : Reordered (.obj (fieldsOf (storedReceipt js tenantId body))) (.obj kws) := hstored
  rw [← Option.not_isSome_iff_eq_none, Assoc.find_isSome]
  intro hmem
  exact hk ((stored_keys hbody).subset ((reordered_keys hobject).mem_iff.mpr hmem))

theorem stored_nodup (hbody : IsBody body)
    (hstored : Reordered (storedReceipt js tenantId body) (.obj kws)) :
    (kws.map Prod.fst).Nodup := by
  have hobject : Reordered (.obj (fieldsOf (storedReceipt js tenantId body))) (.obj kws) := hstored
  exact (reordered_keys hobject).nodup_iff.mp ((stored_keys hbody).nodup (by decide))

/-- The texts of a stored receipt. -/
theorem stored_found (hbody : IsBody body)
    (hstored : Reordered (storedReceipt js tenantId body) (.obj kws)) {k s : String}
    (h : (k, Value.str s) ∈ fieldsOf (storedReceipt js tenantId body)) :
    Assoc.find kws k = some (.str s) := by
  have hobject : Reordered (.obj (fieldsOf (storedReceipt js tenantId body))) (.obj kws) := hstored
  exact find_reordered hobject ((stored_keys hbody).nodup (by decide)) h

theorem stored_fields (hbody : IsBody body)
    (hstored : Reordered (storedReceipt js tenantId body) (.obj kws)) :
    Assoc.find kws "receipt_hash" = some (.str (receiptHash js (parsedFields body))) ∧
      Assoc.find kws "signature" = some (.str "") ∧
      Assoc.find kws "signature_status" = some (.str "SIGNATURE_PENDING") := by
  refine ⟨stored_found hbody hstored ?_, stored_found hbody hstored ?_,
    stored_found hbody hstored ?_⟩ <;>
    · rw [fieldsOf_stored]
      simp

/-- A receipt with its custody record. -/
theorem verify_signed (c : ReceiptCustodyRecord) {hash : String}
    (hhash : Assoc.find kws "receipt_hash" = some (.str hash))
    (hversion : Assoc.find kws "key_version" = none) :
    verifyReceipt js (Records.withSignature (.obj kws) c) =
      (hash = receiptHash js (unsealed kws) && c.complete) := by
  obtain ⟨receiptId, signature, keyId, keyVersion, algorithm, signedAt, digest⟩ := c
  unfold verifyReceipt Records.withSignature ReceiptCustodyRecord.complete
  cases keyVersion with
  | none =>
    have hunsealed : unsealed ([("signature_status", .str "SIGNED"), ("signature", .str signature),
        ("digest", .str digest), ("algorithm", .str algorithm), ("key_id", .str keyId),
        ("signed_at", .str signedAt)].foldl (fun kvs f => Assoc.put kvs f.1 f.2) kws) =
        unsealed kws := unsealed_puts (by simp [seals]) kws
    simp only [List.foldl_cons, List.foldl_nil] at hunsealed
    simp [field, fieldsOf, hunsealed, Assoc.find_put, hhash, hversion, isText, Js.truthy]
  | some version =>
    have hunsealed : unsealed ([("signature_status", .str "SIGNED"), ("signature", .str signature),
        ("digest", .str digest), ("algorithm", .str algorithm), ("key_id", .str keyId),
        ("key_version", .str version), ("signed_at", .str signedAt)].foldl
          (fun kvs f => Assoc.put kvs f.1 f.2) kws) = unsealed kws :=
      unsealed_puts (by simp [seals]) kws
    simp only [List.foldl_cons, List.foldl_nil] at hunsealed
    simp [field, fieldsOf, hunsealed, Assoc.find_put, hhash, isText, Js.truthy, eq_comm, Bool.and_assoc]

theorem verify_unsigned {hash : String}
    (hhash : Assoc.find kws "receipt_hash" = some (.str hash))
    (hstatus : Assoc.find kws "signature_status" = some (.str "SIGNATURE_PENDING")) :
    verifyReceipt js (.obj kws) = true ↔ hash = receiptHash js (unsealed kws) := by
  unfold verifyReceipt
  rw [Bool.and_eq_true, isText_iff, Bool.or_eq_true, isText_iff]
  refine (and_iff_left (.inl hstatus)).trans ?_
  show Assoc.find kws "receipt_hash" = _ ↔ _
  rw [hhash, Option.some.injEq, Value.str.injEq]
  rfl

end

/-- **Stored receipts.** For every proposal, decision and outcome: a receipt that is issued, stored
by any column that keeps its defined properties, and read back with or without a custody record,
verifies exactly when the hash of the body that is read is that of the body that was issued,
which is another text, and nothing in the record is empty. -/
theorem stored_verifies_iff (js : Runtime) (tenantId : String) (proposal : ReceiptProposal)
    (decisionId : String) (reviewId : Option String) (outcomeId : Option Value) (kws : Fields)
    (hstored : Reordered
      (storedReceipt js tenantId (receiptBody proposal decisionId reviewId outcomeId)) (.obj kws))
    (custody : Option ReceiptCustodyRecord) :
    (verifyReceipt js (readReceipt (.obj kws) custody) = true ↔
      receiptHash js (unsealed kws) =
          receiptHash js (parsedFields (receiptBody proposal decisionId reviewId outcomeId)) ∧
        custody.all ReceiptCustodyRecord.complete = true) ∧
    Js.text js (.obj (unsealed kws)) ≠
      Js.text js (.obj (parsedFields (receiptBody proposal decisionId reviewId outcomeId))) := by
  have hbody : IsBody (receiptBody proposal decisionId reviewId outcomeId) := rfl
  generalize receiptBody proposal decisionId reviewId outcomeId = body at hstored hbody ⊢
  obtain ⟨hhash, -, hstatus⟩ := stored_fields hbody hstored
  have hversion : Assoc.find kws "key_version" = none :=
    stored_absent hbody hstored (by decide)
  constructor
  · cases custody with
    | none =>
      rw [readReceipt, verify_unsigned hhash hstatus]
      exact eq_comm.trans (and_iff_left rfl).symm
    | some c =>
      rw [readReceipt, verify_signed c hhash hversion, Bool.and_eq_true, decide_eq_true_eq]
      exact and_congr_left' eq_comm
  · intro hsame
    have hlonger := unsealed_longer hbody hstored
    rw [hsame] at hlonger
    exact absurd hlonger (Nat.lt_irrefl _)

/-! ## A receipt that is read back -/

def receiptProposal : ReceiptProposal where
  proposalId := "P-1"
  incidentId := "INC-1042"
  proposalHash := none
  stateVersion := .finite 142
  policyVersion := "v18"
  context := none

def sampleReceiptBody : List (String × Option Data) :=
  receiptBody receiptProposal "DEC-1" none (some (.str "OUT-1"))

theorem stored_verifies_iff_read :
    (verifyReceipt Runtime.decimal
        (readReceipt (storedReceipt Runtime.decimal "tenant-a" sampleReceiptBody) none) = true ↔
      receiptHash Runtime.decimal
          (unsealed (fieldsOf (storedReceipt Runtime.decimal "tenant-a" sampleReceiptBody))) =
        receiptHash Runtime.decimal (parsedFields sampleReceiptBody) ∧ true = true) ∧
    Js.text Runtime.decimal
        (.obj (unsealed (fieldsOf (storedReceipt Runtime.decimal "tenant-a" sampleReceiptBody)))) ≠
      Js.text Runtime.decimal (.obj (parsedFields sampleReceiptBody)) :=
  stored_verifies_iff Runtime.decimal "tenant-a" receiptProposal "DEC-1" none (some (.str "OUT-1"))
    (fieldsOf (storedReceipt Runtime.decimal "tenant-a" sampleReceiptBody)) (.refl _) none

/-- A receipt of a column that keeps the order of its properties. -/
theorem stored_unverified : verifyReceipt Runtime.decimal
    (readReceipt (storedReceipt Runtime.decimal "tenant-a" sampleReceiptBody) none) ≠ true := by
  decide +kernel

end Edon.Platform
