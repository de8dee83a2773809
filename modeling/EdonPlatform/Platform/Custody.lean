import EdonPlatform.Platform.ReceiptService

/- The signature of a stored receipt (apps/control-plane-api/src/worker.ts, `RECEIPT_SIGN`, and
   server.ts, `GET /v1/receipts/:id`). The worker signs the canonical text of the stored
   receipt; the route rebuilds that text from the receipt with its custody record.

   What is proved:
     1. `rebuilt_signed` — the receipt that is rebuilt is the one that was stored.
     2. `custody_signed` — in every run, a custody record holds the signature of the stored
        receipt.
     3. `rebuilt_altered` — the text rebuilt from another receipt is another text.
     4. `signature_round_trip` — the three together, with what the route returns.

   Correspondence (TypeScript ↔ Lean):
     `ReceiptSigner`               ↔ `ReceiptSigner`
     `sign(canonicalize(receipt))` ↔ `SigningMove.sign`
     `unsigned` of the route       ↔ `rebuilt`
     `GET /v1/receipts/:id`        ↔ `getReceiptRoute` -/
namespace Edon.Platform
open Transition Js Fallible

structure ReceiptSigner where
  /-- What `sign` may answer to a text. -/
  signs : String → SignatureEnvelope → Prop
  verify : String → String → String → Option String → Bool

/-- The signer verifies what it signed. -/
def ReceiptSigner.Verifies (signer : ReceiptSigner) : Prop :=
  ∀ payload e, signer.signs payload e →
    signer.verify payload e.signature e.keyId e.keyVersion = true

section
variable (js : Runtime)

def canonicalText (receipt : Value) : String := String.ofList (Js.canonicalize js receipt.data)

/-- A move, and what the signer answers if the move calls it. -/
structure SigningMove where
  answer : String → SignatureEnvelope
  move : Move

/-- `sign(canonicalize(receipt))`. -/
def SigningMove.sign (m : SigningMove) (receipt : Value) : SignatureEnvelope :=
  m.answer (canonicalText js receipt)

def Deployment.signNext (workers : Nat → Worker) (d : Deployment) (m : SigningMove) : Deployment :=
  d.next js (m.sign js) workers m.move

/-- The properties that the route deletes. -/
def deleted : List String := ["digest", "algorithm", "key_id", "key_version", "signed_at"]

/-- `{ ...receipt, signature: '', signature_status: 'SIGNATURE_PENDING' }` without them. -/
def rebuilt (receipt : Fields) : Fields :=
  (Assoc.put (Assoc.put receipt "signature" (.str "")) "signature_status"
    (.str "SIGNATURE_PENDING")).filter fun e => e.1 ∉ deleted

inductive ReceiptReply where
  | notFound
  | integrityFailed
  | found (receipt : Value)

/-- A text property, where it is one. -/
def textOf (value : Option Value) : Option String :=
  match value with
  | some (.str s) => some s
  | _ => none

/-- The text that is verified. -/
def rebuiltText (receipt : Value) : String :=
  canonicalText js (.obj (rebuilt (fieldsOf receipt)))

def getReceiptRoute (signer : ReceiptSigner) (r : Records) (receiptId : String) : ReceiptReply :=
  match r.getReceipt receiptId with
  | none => .notFound
  | some receipt =>
    if isText (field receipt "signature_status") "SIGNED" then
      if signer.verify (rebuiltText js receipt)
          ((textOf (field receipt "signature")).getD "") ((textOf (field receipt "key_id")).getD "")
          (textOf (field receipt "key_version")) then .found receipt
      else .integrityFailed
    else .found receipt

/-- A receipt as `POST /v1/outcomes` stores it and the column returns it. -/
def Receipt.Issued (tenantId : String) (r : Receipt) : Prop :=
  ∃ proposal decisionId reviewId outcomeId kws, r.payload = .obj kws ∧
    Reordered (storedReceipt js tenantId (receiptBody proposal decisionId reviewId outcomeId))
      (.obj kws)

end

/-! ## Rebuilding -/

section
variable {kvs : Fields}

theorem put_put (k : String) (v w : Value) :
    Assoc.put (Assoc.put kvs k v) k w = Assoc.put kvs k w := by
  induction kvs with
  | nil => simp [Assoc.put]
  | cons e kvs ih =>
    by_cases he : e.1 = k
    · simp [Assoc.put, he]
    · simp [Assoc.put, he, ih]

theorem put_absent {k : String} (v : Value) (h : Assoc.find kvs k = none) :
    Assoc.put kvs k v = kvs ++ [(k, v)] := by
  induction kvs with
  | nil => rfl
  | cons e kvs ih =>
    rw [Assoc.find_cons] at h
    split at h
    · cases h
    · next he => rw [Assoc.put, if_neg he, ih h, List.cons_append]

theorem put_append {k : String} (v : Value) (kws : Fields) (h : Assoc.find kvs k ≠ none) :
    Assoc.put (kvs ++ kws) k v = Assoc.put kvs k v ++ kws := by
  induction kvs with
  | nil => exact absurd rfl h
  | cons e kvs ih =>
    rw [Assoc.find_cons] at h
    by_cases he : e.1 = k
    · simp [Assoc.put, he]
    · rw [if_neg he] at h
      simp [Assoc.put, he, ih h]

/-- Properties that are not there are added at the end, in their order. -/
theorem puts_absent {added : Fields} (hdistinct : (added.map Prod.fst).Nodup)
    (h : ∀ e ∈ added, Assoc.find kvs e.1 = none) :
    added.foldl (fun kvs f => Assoc.put kvs f.1 f.2) kvs = kvs ++ added := by
  induction added generalizing kvs with
  | nil => rw [List.foldl_nil, List.append_nil]
  | cons e added ih =>
    rw [List.map_cons, List.nodup_cons] at hdistinct
    rw [List.foldl_cons, ih hdistinct.2, put_absent _ (h e List.mem_cons_self), List.append_assoc,
      List.singleton_append]
    intro f hf
    rw [Assoc.find_put, if_neg]
    · exact h f (List.mem_cons_of_mem _ hf)
    · intro hsame
      exact hdistinct.1 (List.mem_map.mpr ⟨f, hf, hsame.symm⟩)

/-- What the record adds after the status and the signature. -/
def sealing (e : SignatureEnvelope) : Fields :=
  [("digest", .str e.digest), ("algorithm", .str e.algorithm), ("key_id", .str e.keyId)] ++
    (e.keyVersion.toList.map fun v => ("key_version", .str v)) ++ [("signed_at", .str e.signedAt)]

theorem withSignature_obj (c : ReceiptCustodyRecord) : Records.withSignature (.obj kvs) c =
    .obj ((sealing c.envelope).foldl (fun kvs f => Assoc.put kvs f.1 f.2)
      (Assoc.put (Assoc.put kvs "signature_status" (.str "SIGNED")) "signature"
        (.str c.envelope.signature))) := rfl

theorem sealing_keys (e : SignatureEnvelope) :
    ((sealing e).map Prod.fst).Nodup ∧ ∀ f ∈ sealing e, f.1 ∈ deleted := by
  unfold sealing
  cases e.keyVersion with
  | none => exact ⟨by simp, by simp [deleted]⟩
  | some v => exact ⟨by simp, by simp [deleted]⟩

/-- A receipt that was not signed yet. -/
structure Unsigned (kvs : Fields) : Prop where
  signature : Assoc.find kvs "signature" = some (.str "")
  status : Assoc.find kvs "signature_status" = some (.str "SIGNATURE_PENDING")
  unsealed : ∀ k ∈ deleted, Assoc.find kvs k = none

/-- **Rebuilding.** From a receipt with its custody record the receipt is rebuilt as it was. -/
theorem rebuilt_signed (h : Unsigned kvs) (c : ReceiptCustodyRecord) :
    rebuilt (fieldsOf (Records.withSignature (.obj kvs) c)) = kvs := by
  obtain ⟨hdistinct, hdeleted⟩ := sealing_keys c.envelope
  have hstatus : "signature_status" ∉ deleted := by decide
  have hsignature : "signature" ∉ deleted := by decide
  have hread : fieldsOf (Records.withSignature (.obj kvs) c) =
      Assoc.put (Assoc.put kvs "signature_status" (.str "SIGNED")) "signature"
        (.str c.envelope.signature) ++ sealing c.envelope := by
    rw [withSignature_obj]
    refine puts_absent hdistinct fun e he => ?_
    have hkey := hdeleted e he
    rw [Assoc.find_put, if_neg (ne_of_mem_of_not_mem hkey hsignature).symm, Assoc.find_put,
      if_neg (ne_of_mem_of_not_mem hkey hstatus).symm]
    exact h.unsealed e.1 hkey
  have hpending : Assoc.put (Assoc.put (fieldsOf (Records.withSignature (.obj kvs) c))
      "signature" (.str "")) "signature_status" (.str "SIGNATURE_PENDING") =
        kvs ++ sealing c.envelope := by
    have hsame : Assoc.find (Assoc.put kvs "signature_status" (.str "SIGNED")) "signature" =
        some (.str "") := by
      rw [Assoc.find_put, if_neg (by decide)]
      exact h.signature
    rw [hread, put_append, put_put, Assoc.put_of_find hsame, put_append, put_put,
      Assoc.put_of_find h.status]
    · rw [Assoc.find_put, if_pos rfl]
      exact Option.some_ne_none _
    · rw [Assoc.find_put, if_pos rfl]
      exact Option.some_ne_none _
  have hkept : kvs.filter (fun e => e.1 ∉ deleted) = kvs := by
    refine List.filter_eq_self.mpr fun e he => decide_eq_true fun hkey => ?_
    have hsome : (Assoc.find kvs e.1).isSome = true :=
      Assoc.find_isSome.mpr (List.mem_map_of_mem he)
    rw [h.unsealed e.1 hkey] at hsome
    cases hsome
  have hgone : (sealing c.envelope).filter (fun e => e.1 ∉ deleted) = [] := by
    refine List.filter_eq_nil_iff.mpr fun e he hkey => ?_
    exact of_decide_eq_true hkey (hdeleted e he)
  rw [rebuilt, hpending, List.filter_append, hkept, hgone, List.append_nil]

end

/-! ## What is stored -/

theorem exists_of_forall₂ {α β : Type} {R : α → β → Prop} {l : List α} {m : List β}
    (h : List.Forall₂ R l m) {b : β} (hb : b ∈ m) : ∃ a ∈ l, R a b := by
  induction h with
  | nil => cases hb
  | cons hab _ ih =>
    rcases List.mem_cons.mp hb with rfl | hb
    · exact ⟨_, List.mem_cons_self, hab⟩
    · obtain ⟨a, ha, hab⟩ := ih hb
      exact ⟨a, List.mem_cons_of_mem _ ha, hab⟩

section
variable {js : Runtime} {tenantId : String}

theorem finite_reordered (v w : Value) (h : Reordered v w) (hv : v.finite = true) :
    w.finite = true := by
  induction v using Value.induct generalizing w with
  | null | bool _ | num _ | str _ =>
    cases h
    exact hv
  | arr xs ih =>
    cases h with
    | arr hitems =>
      have hxs := finiteList_iff.mp hv
      refine finiteList_iff.mpr fun y hy => ?_
      obtain ⟨x, hx, hxy⟩ := exists_of_forall₂ (reorderedList_iff.mp hitems) hy
      exact ih x hx y hxy (hxs x hx)
  | obj kvs ih =>
    cases h with
    | obj hperm hfields =>
      have hkvs := finiteFields_iff.mp hv
      refine finiteFields_iff.mpr fun f hf => ?_
      obtain ⟨e, he, hef⟩ := exists_of_forall₂ (reorderedFields_iff.mp hfields) hf
      have he := hperm.mem_iff.mpr he
      exact ih e he f.2 hef.2 (hkvs e he)

theorem finite_parsedFields {kvs : List (String × Option Data)}
    (h : ∀ e ∈ kvs, ∀ v, e.2 = some v → v.parsed.finite = true) :
    finiteFields (parsedFields kvs) = true := by
  induction kvs with
  | nil => rfl
  | cons e kvs ih =>
    obtain ⟨he, hkvs⟩ := List.forall_mem_cons.mp h
    obtain ⟨k, o⟩ := e
    cases o with
    | none => exact ih hkvs
    | some v =>
      rw [parsedFields, finiteFields, he v rfl, ih hkvs]
      rfl

/-- What is stored is JSON. -/
theorem finite_parsed (v : Data) : v.parsed.finite = true := by
  induction v using Data.induct with
  | null | bool _ | str _ => rfl
  | num n => cases n <;> rfl
  | arr xs ih =>
    rw [Data.parsed, Value.finite, parsedList_eq_map, finiteList_iff, List.forall_mem_map]
    exact ih
  | obj kvs ih =>
    rw [Data.parsed, Value.finite]
    exact finite_parsedFields ih

theorem issued_unsigned {r : Receipt} (h : r.Issued js tenantId) :
    ∃ kws, r.payload = .obj kws ∧ Unsigned kws ∧ (kws.map Prod.fst).Nodup ∧
      (Value.obj kws).finite = true := by
  obtain ⟨proposal, decisionId, reviewId, outcomeId, kws, hpayload, hstored⟩ := h
  have hbody : IsBody (receiptBody proposal decisionId reviewId outcomeId) := rfl
  obtain ⟨-, hsignature, hstatus⟩ := stored_fields hbody hstored
  have habsent : ∀ k ∈ deleted,
      k ∉ bodyKeys ++ ["receipt_hash", "signature", "signature_status", "tenant_id"] := by decide
  refine ⟨kws, hpayload, ⟨hsignature, hstatus, fun k hk => ?_⟩, stored_nodup hbody hstored, ?_⟩
  · exact stored_absent hbody hstored (habsent k hk)
  · exact finite_reordered _ _ hstored (finite_parsed (.obj _))

end

/-! ## Runs -/

section
variable (js : Runtime) (signer : ReceiptSigner) (tenantId : String)

/-- Receipts are kept as they are, custody records are not removed, and a receipt that is new was
issued. -/
structure Records.Grows (r r' : Records) : Prop where
  receipts : ∀ receiptId receipt, r.receipts.get receiptId = some receipt →
    r'.receipts.get receiptId = some receipt
  custody : ∀ receiptId, r'.custody.get receiptId = none → r.custody.get receiptId = none
  issued : ∀ receiptId receipt, r'.receipts.get receiptId = some receipt →
    r.receipts.get receiptId = some receipt ∨ receipt.Issued js tenantId

/-- The receipt is stored, with that payload. -/
def Records.Stores (r : Records) (receiptId : String) (payload : Value) : Prop :=
  r.receipts.get receiptId = some ⟨receiptId, payload⟩

/-- Every custody record holds what the signer answered to the text of the stored receipt. -/
def Records.Custodial (r : Records) : Prop :=
  ∀ receiptId c, r.custody.get receiptId = some c →
    ∃ payload, r.Stores receiptId payload ∧ signer.signs (canonicalText js payload) c.envelope

/-- What a handler has read, and what was signed for it. -/
def Handler.Holds (r : Records) : Handler → Prop
  | .getCustody receiptId receipt => ∃ payload, r.Stores receiptId payload ∧
      (r.custody.get receiptId = none → receipt = payload)
  | .claimSigning receiptId receipt | .sign receiptId receipt => r.Stores receiptId receipt
  | .putCustody receiptId envelope => ∃ payload, r.Stores receiptId payload ∧
      signer.signs (canonicalText js payload) envelope
  | .verify | .handle | .completeSigning _ | .returned => True

/-- The signer answers, and the receipt that is put is one that was issued. -/
structure SigningMove.Sound (m : SigningMove) : Prop where
  answer : ∀ payload, signer.signs payload (m.answer payload)
  receipt : ∀ receipt, m.move = .putReceipt receipt → receipt.Issued js tenantId

structure Deployment.Custodial (d : Deployment) : Prop where
  issued : ∀ receiptId receipt, d.records.receipts.get receiptId = some receipt →
    receipt.Issued js tenantId
  custodial : d.records.Custodial js signer
  handler : ∀ w, (d.handler w).Holds js signer d.records

variable {js signer tenantId} {r r' : Records}

theorem Records.Grows.refl (r : Records) : r.Grows js tenantId r :=
  ⟨fun _ _ h => h, fun _ h => h, fun _ _ h => .inl h⟩

theorem stores_of_get {receiptId : String} {receipt : Receipt}
    (h : r.receipts.get receiptId = some receipt) : r.Stores receiptId receipt.payload := by
  obtain rfl := Table.get_key h
  exact h

theorem Handler.Holds.grow {h : Handler} (hs : h.Holds js signer r) (hgrows : r.Grows js tenantId r') :
    h.Holds js signer r' := by
  have hstores : ∀ {receiptId payload}, r.Stores receiptId payload → r'.Stores receiptId payload :=
    fun hstored => hgrows.receipts _ _ hstored
  cases h with
  | getCustody receiptId receipt =>
    obtain ⟨payload, hstored, hraw⟩ := hs
    exact ⟨payload, hstores hstored, fun hnone => hraw (hgrows.custody receiptId hnone)⟩
  | claimSigning receiptId receipt => exact hstores hs
  | sign receiptId receipt => exact hstores hs
  | putCustody receiptId envelope =>
    obtain ⟨payload, hstored, hsigned⟩ := hs
    exact ⟨payload, hstores hstored, hsigned⟩
  | _ => trivial

/-- Tables of the same receipts and the same custody records. -/
theorem Records.Custodial.of_same (tenantId : String) (h : r.Custodial js signer)
    (hreceipts : r'.receipts = r.receipts)
    (hcustody : r'.custody = r.custody) : r'.Custodial js signer ∧ r.Grows js tenantId r' := by
  obtain ⟨receipts, custody, signingClaims, stateVersions⟩ := r'
  obtain rfl : receipts = r.receipts := hreceipts
  obtain rfl : custody = r.custody := hcustody
  exact ⟨h, fun _ _ h => h, fun _ h => h, fun _ _ h => .inl h⟩

theorem claimReceiptSigning_receipts (r : Records) (now leaseMs : Int)
    (receiptId workerId : String) :
    (r.claimReceiptSigning now leaseMs receiptId workerId).2.receipts = r.receipts := by
  unfold Records.claimReceiptSigning
  split
  · rfl
  · split
    · split <;> rfl
    · rfl

theorem putReceiptCustody_custodial (tenantId : String) {receiptId : String}
    {envelope : SignatureEnvelope} (h : r.Custodial js signer)
    (hs : (Handler.putCustody receiptId envelope).Holds js signer r) :
    (r.putReceiptCustody ⟨receiptId, envelope⟩).Custodial js signer ∧
      r.Grows js tenantId (r.putReceiptCustody ⟨receiptId, envelope⟩) := by
  unfold Records.putReceiptCustody
  split
  · next custody hinsert =>
    refine ⟨?_, fun _ _ h => h, ?_, fun _ _ h => .inl h⟩
    · intro receiptId' c hget
      change custody.get receiptId' = some c at hget
      rw [Table.get_insert hinsert] at hget
      split at hget
      · next hid =>
        cases hget
        have hid : receiptId = receiptId' := hid
        rw [← hid]
        exact hs
      · exact h receiptId' c hget
    · intro receiptId' hnone
      change custody.get receiptId' = none at hnone
      rw [Table.get_insert hinsert] at hnone
      split at hnone
      · cases hnone
      · exact hnone
  · exact ⟨h, .refl r⟩

/-- **One transaction of a handler.** Custody records hold the signatures of the receipts. -/
theorem handle_custodial {w : Worker} {now : Int} {m : OutboxMessage} {sign : Value → SignatureEnvelope}
    {h h' : Handler} (hsign : ∀ v, signer.signs (canonicalText js v) (sign v))
    (hr : r.Custodial js signer) (hs : h.Holds js signer r)
    (hok : handle js sign w now m r h = .ok (h', r')) :
    r'.Custodial js signer ∧ r.Grows js tenantId r' ∧ h'.Holds js signer r' := by
  cases h with
  | verify =>
    obtain ⟨_, _, hok⟩ := bind_ok.mp hok
    cases hok
    exact ⟨hr, .refl r, trivial⟩
  | handle =>
    obtain ⟨_, _, hok⟩ := bind_ok.mp hok
    split at hok
    · obtain ⟨receiptId, _, hok⟩ := bind_ok.mp hok
      obtain ⟨receipt, hreceipt, hok⟩ := bind_ok.mp hok
      cases hok
      obtain ⟨row, hget, rfl⟩ := Option.map_eq_some_iff.mp (orRaise_ok.mp hreceipt)
      refine ⟨hr, .refl r, row.payload, stores_of_get hget, fun hnone => ?_⟩
      rw [hnone]
    · cases hok
      exact ⟨hr, .refl r, trivial⟩
  | getCustody receiptId receipt =>
    obtain ⟨payload, hstored, hraw⟩ := hs
    simp only [handle] at hok
    split at hok
    · cases hok
      exact ⟨hr, .refl r, trivial⟩
    · next hnone =>
      cases hok
      obtain rfl := hraw hnone
      exact ⟨hr, .refl r, hstored⟩
  | claimSigning receiptId receipt =>
    have hsame := hr.of_same tenantId
      (claimReceiptSigning_receipts r now w.leaseMs receiptId w.workerId)
      (claimReceiptSigning_custody r now w.leaseMs receiptId w.workerId)
    simp only [handle] at hok
    split at hok
    · next hclaim =>
      cases hok
      rw [hclaim] at hsame
      exact ⟨hsame.1, hsame.2, hs.grow hsame.2⟩
    · next hclaim =>
      cases hok
      rw [hclaim] at hsame
      exact ⟨hsame.1, hsame.2, trivial⟩
  | sign receiptId receipt =>
    cases hok
    exact ⟨hr, .refl r, receipt, hs, hsign receipt⟩
  | putCustody receiptId envelope =>
    cases hok
    have hput := putReceiptCustody_custodial tenantId hr hs
    exact ⟨hput.1, hput.2, trivial⟩
  | completeSigning receiptId =>
    cases hok
    have hsame : (r.completeReceiptSigning now receiptId).Custodial js signer ∧
        r.Grows js tenantId (r.completeReceiptSigning now receiptId) := hr.of_same tenantId rfl rfl
    exact ⟨hsame.1, hsame.2, trivial⟩
  | returned =>
    cases hok
    exact ⟨hr, .refl r, trivial⟩

variable {workers : Nat → Worker} {d : Deployment}

theorem Deployment.Custodial.grow (h : d.Custodial js signer tenantId) (queue : Queue)
    {handler : Nat → Handler} (hr : r.Custodial js signer) (hgrows : d.records.Grows js tenantId r)
    (hhandler : ∀ w, handler w = d.handler w ∨ (handler w).Holds js signer r) :
    (Deployment.mk queue r handler).Custodial js signer tenantId := by
  refine ⟨?_, hr, ?_⟩
  · intro receiptId receipt hget
    rcases hgrows.issued receiptId receipt hget with hget | hissued
    · exact h.issued receiptId receipt hget
    · exact hissued
  · intro w
    rcases hhandler w with hsame | hholds
    · show (handler w).Holds js signer r
      rw [hsame]
      exact (h.handler w).grow hgrows
    · exact hholds

/-- One handler goes on. -/
theorem update_cases {handler : Nat → Handler} {w : Nat} {h : Handler} {P : Handler → Prop}
    (hh : P h) (w' : Nat) :
    Function.update handler w h w' = handler w' ∨ P (Function.update handler w h w') := by
  by_cases hw : w' = w
  · rw [hw, Function.update_self]
    exact .inr hh
  · exact .inl (Function.update_of_ne hw _ _)

theorem insert_grows {receipt : Receipt} {receipts : Table Receipt.receiptId}
    (hinsert : r.receipts.insert receipt = some receipts) (hissued : receipt.Issued js tenantId) :
    r.Grows js tenantId { r with receipts } := by
  refine ⟨?_, fun _ h => h, ?_⟩
  · intro receiptId row hget
    show receipts.get receiptId = some row
    rw [Table.get_insert hinsert, if_neg]
    · exact hget
    · rintro rfl
      rw [(Table.rows_insert hinsert).2] at hget
      cases hget
  · intro receiptId row hget
    change receipts.get receiptId = some row at hget
    rw [Table.get_insert hinsert] at hget
    split at hget
    · cases hget
      exact .inr hissued
    · exact .inl hget

theorem custodial_next {m : SigningMove} (h : d.Custodial js signer tenantId)
    (hm : m.Sound js signer tenantId) :
    (d.signNext js workers m).Custodial js signer tenantId := by
  obtain ⟨answer, move⟩ := m
  unfold Deployment.signNext
  dsimp only
  have hqueue : ∀ q, Deployment.Custodial js signer tenantId { d with queue := q } :=
    fun q => h.grow q h.custodial (.refl _) fun _ => .inl rfl
  cases move with
  | queue a =>
    unfold Deployment.next
    split
    · split
      · exact hqueue _
      · exact h
    · split
      · exact h.grow _ h.custodial (.refl _) (update_cases trivial)
      · exact h
    · exact hqueue _
    · next heq => cases heq
    · next heq => cases heq
    · next heq => cases heq
  | handle w now =>
    simp only [Deployment.next]
    split
    · split
      · next h' records hok =>
        obtain ⟨hnext, hgrows, hholds⟩ :=
          handle_custodial (fun v => hm.answer _) h.custodial (h.handler w) hok
        exact h.grow _ hnext hgrows (update_cases hholds)
      · exact hqueue _
    · exact h
  | putReceipt receipt =>
    simp only [Deployment.next]
    split
    · next receipts hinsert =>
      have hgrows := insert_grows hinsert (hm.receipt receipt rfl)
      refine h.grow _ ?_ hgrows fun _ => .inl rfl
      intro receiptId c hget
      obtain ⟨payload, hstored, hsigned⟩ := h.custodial receiptId c hget
      exact ⟨payload, hgrows.receipts _ _ hstored, hsigned⟩
    · exact h
  | putState scopeId version =>
    exact h.grow _ h.custodial ⟨fun _ _ h => h, fun _ h => h, fun _ _ h => .inl h⟩
      fun _ => .inl rfl

theorem custodial_empty : Deployment.empty.Custodial js signer tenantId := by
  refine ⟨?_, ?_, fun _ => trivial⟩
  · intro receiptId receipt hget
    cases hget
  · intro receiptId c hget
    cases hget

/-- **Runs.** In every interleaving of workers, whose signers may fail, a custody record holds the
signature of the stored receipt. -/
theorem custody_signed {moves : List SigningMove} (h : d.Custodial js signer tenantId)
    (hmoves : ∀ m ∈ moves, m.Sound js signer tenantId) :
    (exec (Deployment.signNext js workers) d moves).Custodial js signer tenantId := by
  induction moves generalizing d with
  | nil => exact h
  | cons m moves ih =>
    obtain ⟨hm, hmoves⟩ := List.forall_mem_cons.mp hmoves
    exact ih (custodial_next h hm) hmoves

end

/-! ## Receipts that are altered -/

/-- The properties that a custody record sets. -/
def sealedKeys : List String := "signature" :: "signature_status" :: deleted

/-- Some other property is not what it was, in whatever order its objects are returned. -/
def Altered (payload altered : Value) : Prop :=
  ∃ k ∉ sealedKeys, ¬ Option.Rel Reordered (field payload k) (field altered k)

section
variable {js : Runtime} {kvs kws : Fields}

theorem find_perm (h : kvs.Perm kws) (hkeys : (kvs.map Prod.fst).Nodup) (k : String) :
    Assoc.find kvs k = Assoc.find kws k := by
  have hkeys' : (kws.map Prod.fst).Nodup := (h.map Prod.fst).nodup_iff.mp hkeys
  cases hfind : Assoc.find kws k with
  | some v => exact find_of_mem_nodup hkeys (h.mem_iff.mpr (Assoc.mem_of_find hfind))
  | none =>
    rw [← Option.not_isSome_iff_eq_none, Assoc.find_isSome, (h.map Prod.fst).mem_iff,
      ← Assoc.find_isSome, Option.not_isSome_iff_eq_none]
    exact hfind

/-- What is found in objects that differ in the order of their properties. -/
theorem rel_find (h : Reordered (.obj kvs) (.obj kws)) (hkeys : (kvs.map Prod.fst).Nodup)
    (k : String) : Option.Rel Reordered (Assoc.find kvs k) (Assoc.find kws k) := by
  cases h with
  | obj hperm hfields =>
    rw [find_perm hperm hkeys]
    have hsame := reorderedFields_iff.mp hfields
    clear hperm hfields hkeys
    induction hsame with
    | nil => exact .none
    | cons hef _ ih =>
      rw [Assoc.find_cons, Assoc.find_cons, hef.1]
      split
      · exact .some hef.2
      · exact ih

theorem find_filter {p : String → Bool} {k : String} (hk : p k = true) :
    Assoc.find (kvs.filter fun e => p e.1) k = Assoc.find kvs k := by
  induction kvs with
  | nil => rfl
  | cons e kvs ih =>
    rw [Assoc.find_cons, List.filter_cons]
    split
    · rw [Assoc.find_cons, ih]
    · next hp =>
      rw [ih, if_neg]
      rintro rfl
      exact hp hk

theorem find_puts {added : Fields} {k : String} (h : ∀ e ∈ added, e.1 ≠ k) :
    Assoc.find (added.foldl (fun kvs f => Assoc.put kvs f.1 f.2) kvs) k = Assoc.find kvs k := by
  induction added generalizing kvs with
  | nil => rfl
  | cons e added ih =>
    obtain ⟨he, hadded⟩ := List.forall_mem_cons.mp h
    rw [List.foldl_cons, ih hadded, Assoc.find_put, if_neg he]

/-- The other properties are rebuilt as they are. -/
theorem find_rebuilt (c : ReceiptCustodyRecord) {k : String} (hk : k ∉ sealedKeys) :
    Assoc.find (rebuilt (fieldsOf (Records.withSignature (.obj kvs) c))) k =
      Assoc.find kvs k := by
  obtain ⟨hsignature, hk⟩ := List.ne_and_not_mem_of_not_mem_cons hk
  obtain ⟨hstatus, hk⟩ := List.ne_and_not_mem_of_not_mem_cons hk
  have hsealing : ∀ e ∈ sealing c.envelope, e.1 ≠ k :=
    fun e he => ne_of_mem_of_not_mem ((sealing_keys c.envelope).2 e he) hk
  rw [rebuilt, find_filter (p := fun k => k ∉ deleted) (decide_eq_true hk), Assoc.find_put,
    if_neg (Ne.symm hstatus), Assoc.find_put, if_neg (Ne.symm hsignature), withSignature_obj,
    fieldsOf, find_puts hsealing, Assoc.find_put, if_neg (Ne.symm hsignature), Assoc.find_put,
    if_neg (Ne.symm hstatus)]

theorem finite_put {k : String} {v : Value} (h : finiteFields kvs = true) (hv : v.finite = true) :
    finiteFields (Assoc.put kvs k v) = true := by
  induction kvs with
  | nil => rw [Assoc.put, finiteFields, hv]; rfl
  | cons e kvs ih =>
    obtain ⟨he, hkvs⟩ := Bool.and_eq_true_iff.mp h
    by_cases hkey : e.1 = k
    · rw [Assoc.put, if_pos hkey, finiteFields, hv, hkvs]; rfl
    · rw [Assoc.put, if_neg hkey, finiteFields, he, ih hkvs]; rfl

theorem finite_puts {added : Fields} (hadded : ∀ e ∈ added, e.2.finite = true)
    (h : finiteFields kvs = true) :
    finiteFields (added.foldl (fun kvs f => Assoc.put kvs f.1 f.2) kvs) = true := by
  induction added generalizing kvs with
  | nil => exact h
  | cons e added ih =>
    obtain ⟨he, hadded⟩ := List.forall_mem_cons.mp hadded
    exact ih hadded (finite_put h he)

theorem finite_rebuilt (c : ReceiptCustodyRecord) (h : (Value.obj kvs).finite = true) :
    (Value.obj (rebuilt (fieldsOf (Records.withSignature (.obj kvs) c)))).finite = true := by
  have hsealing : ∀ e ∈ sealing c.envelope, e.2.finite = true := by
    unfold sealing
    cases c.envelope.keyVersion <;> simp [Value.finite]
  have hsigned : finiteFields (Assoc.put (Assoc.put kvs "signature_status" (.str "SIGNED"))
      "signature" (.str c.envelope.signature)) = true := finite_put (finite_put h rfl) rfl
  have hput : finiteFields (Assoc.put (Assoc.put
      (fieldsOf (Records.withSignature (.obj kvs) c)) "signature" (.str "")) "signature_status"
        (.str "SIGNATURE_PENDING")) = true := by
    rw [withSignature_obj]
    exact finite_put (finite_put (finite_puts hsealing hsigned) rfl) rfl
  refine finiteFields_iff.mpr fun e he => ?_
  exact finiteFields_iff.mp hput e (List.mem_of_mem_filter he)

/-- **Altered receipts.** From a receipt of which another property is altered another text is
rebuilt than was signed. -/
theorem rebuilt_altered (hjs : js.Numerals) (hkeys : (kws.map Prod.fst).Nodup)
    (hfinite : (Value.obj kws).finite = true) (haltered : Altered (.obj kws) (.obj kvs))
    (hkvs : (Value.obj kvs).finite = true) (c : ReceiptCustodyRecord) :
    rebuiltText js (Records.withSignature (.obj kvs) c) ≠ canonicalText js (.obj kws) := by
  obtain ⟨k, hk, haltered⟩ := haltered
  intro htext
  have hsorted := (canonicalize_eq_iff hjs hfinite (finite_rebuilt c hkvs)).mp
    (String.ofList_injective htext.symm)
  have hfound := rel_find (reordered_of_sorted _ _ hsorted) hkeys k
  rw [find_rebuilt c hk] at hfound
  exact haltered hfound

/-! ## The route -/

/-- What the route reads of a receipt with its custody record. -/
theorem withSignature_read (h : Unsigned kws) (c : ReceiptCustodyRecord) :
    isText (field (Records.withSignature (.obj kws) c) "signature_status") "SIGNED" = true ∧
      textOf (field (Records.withSignature (.obj kws) c) "signature") =
        some c.envelope.signature ∧
      textOf (field (Records.withSignature (.obj kws) c) "key_id") = some c.envelope.keyId ∧
      textOf (field (Records.withSignature (.obj kws) c) "key_version") =
        c.envelope.keyVersion := by
  have hversion : Assoc.find kws "key_version" = none := h.unsealed _ (by decide)
  rw [withSignature_obj, sealing]
  cases c.envelope.keyVersion <;> simp [field, Assoc.find_put, isText, textOf, hversion]

/-- A receipt that is verified under its own text is found. -/
theorem route_found {signer : ReceiptSigner} (hverifies : signer.Verifies) {r : Records}
    {receiptId : String} {c : ReceiptCustodyRecord} (hstored : r.Stores receiptId (.obj kws))
    (hcustody : r.custody.get receiptId = some c) (h : Unsigned kws)
    (hsigned : signer.signs (canonicalText js (.obj kws)) c.envelope) :
    getReceiptRoute js signer r receiptId = .found (Records.withSignature (.obj kws) c) := by
  obtain ⟨hstatus, hsignature, hkey, hversion⟩ := withSignature_read h c
  have hget : r.getReceipt receiptId = some (Records.withSignature (.obj kws) c) := by
    unfold Records.getReceipt
    rw [hstored, hcustody]
    rfl
  have hverified := hverifies _ _ hsigned
  rw [getReceiptRoute, hget]
  dsimp only
  rw [if_pos hstatus, hsignature, hkey, hversion, rebuiltText, rebuilt_signed h]
  exact if_pos hverified

end

/-- **Signatures of receipts.** In every interleaving of workers whose signer verifies what it
signed: a custody record is the signature of the text of its stored receipt, from which with the
record that text is rebuilt and the receipt returned; and from every receipt that is altered
afterwards, in a property that the record does not set, another text is rebuilt. -/
theorem signature_round_trip (js : Runtime) (hjs : js.Numerals) (signer : ReceiptSigner)
    (hverifies : signer.Verifies) (tenantId : String) (workers : Nat → Worker)
    (moves : List SigningMove) (hmoves : ∀ m ∈ moves, m.Sound js signer tenantId)
    (receiptId : String) (c : ReceiptCustodyRecord) (d : Deployment)
    (hrun : exec (Deployment.signNext js workers) .empty moves = d)
    (hcustody : d.records.custody.get receiptId = some c) :
    ∃ payload, d.records.Stores receiptId payload ∧
      signer.signs (canonicalText js payload) c.envelope ∧
      rebuiltText js (Records.withSignature payload c) = canonicalText js payload ∧
      getReceiptRoute js signer d.records receiptId =
        .found (Records.withSignature payload c) ∧
      ∀ (r : Records) (kvs : Fields), r.custody.get receiptId = some c →
        r.Stores receiptId (.obj kvs) → (Value.obj kvs).finite = true → Altered payload (.obj kvs) →
        ∃ receipt, r.getReceipt receiptId = some receipt ∧
          rebuiltText js receipt ≠ canonicalText js payload := by
  have hd : d.Custodial js signer tenantId := by
    rw [← hrun]
    exact custody_signed custodial_empty hmoves
  obtain ⟨payload, hstored, hsigned⟩ := hd.custodial receiptId c hcustody
  obtain ⟨kws, hpayload, hunsigned, hkeys, hfinite⟩ := issued_unsigned (hd.issued _ _ hstored)
  obtain rfl : payload = .obj kws := hpayload
  refine ⟨.obj kws, hstored, hsigned, ?_, route_found hverifies hstored hcustody hunsigned hsigned,
    ?_⟩
  · rw [rebuiltText, rebuilt_signed hunsigned]
  · intro r kvs hrecord hkvs hvalue haltered
    refine ⟨Records.withSignature (.obj kvs) c, ?_, rebuilt_altered hjs hkeys hfinite haltered hvalue c⟩
    unfold Records.getReceipt
    rw [hkvs, hrecord]
    rfl

/-! ## The local signer -/

/-- `LocalReceiptSigner`, whose digests are those of a function. -/
def localEnvelope (digest : String → String) (payload : String) : SignatureEnvelope where
  signature := "local:local-test-key-v1:" ++ digest payload
  keyId := "local-test-key-v1"
  keyVersion := some "1"
  algorithm := "TEST-HASH"
  signedAt := "1970-01-01T00:00:00.000Z"
  digest := digest payload

def localReceiptSigner (digest : String → String) : ReceiptSigner where
  signs payload e := e = localEnvelope digest payload
  verify payload signature keyId _ :=
    keyId = "local-test-key-v1" && signature = "local:local-test-key-v1:" ++ digest payload

theorem local_verifies (digest : String → String) : (localReceiptSigner digest).Verifies := by
  intro payload e he
  obtain rfl : e = localEnvelope digest payload := he
  have hkey : (localEnvelope digest payload).keyId = "local-test-key-v1" := rfl
  have hsignature : (localEnvelope digest payload).signature =
      "local:local-test-key-v1:" ++ digest payload := rfl
  exact Bool.and_eq_true_iff.mpr ⟨decide_eq_true hkey, decide_eq_true hsignature⟩

/-- Any function of the text. -/
def sampleDigest (payload : String) : String := "sha256:" ++ payload

def signedReceipt : Receipt where
  receiptId := "RCP-1"
  payload := storedReceipt Runtime.decimal "tenant-a"
    (receiptBody { receiptProposal with proposalId := "1" } "DEC-1" none none)

/-- A receipt is issued, claimed and signed. -/
def signingRun : List SigningMove :=
  (.putReceipt signedReceipt :: .queue (.enqueue 0 signingMessage) ::
    (claimsSigning 0 ++ signs 500)).map fun move => ⟨localEnvelope sampleDigest, move⟩

def signedDeployment : Deployment :=
  exec (Deployment.signNext Runtime.decimal twoWorkers) .empty signingRun

theorem signingRun_sound : ∀ m ∈ signingRun,
    m.Sound Runtime.decimal (localReceiptSigner sampleDigest) "tenant-a" := by
  intro m hm
  obtain ⟨move, hmove, rfl⟩ := List.mem_map.mp hm
  refine ⟨fun _ => rfl, ?_⟩
  rintro receipt rfl
  have hreceipt : receipt = signedReceipt := by
    simpa [claimsSigning, signs] using hmove
  rw [hreceipt]
  exact ⟨_, _, _, _, _, rfl, .refl _⟩

theorem signature_round_trip_local : ∃ c payload,
    signedDeployment.records.Stores "RCP-1" payload ∧
      (localReceiptSigner sampleDigest).signs (canonicalText Runtime.decimal payload) c.envelope ∧
      rebuiltText Runtime.decimal (Records.withSignature payload c) =
        canonicalText Runtime.decimal payload ∧
      getReceiptRoute Runtime.decimal (localReceiptSigner sampleDigest) signedDeployment.records
        "RCP-1" = .found (Records.withSignature payload c) ∧
      ∀ (r : Records) (kvs : Fields), r.custody.get "RCP-1" = some c →
        r.Stores "RCP-1" (.obj kvs) → (Value.obj kvs).finite = true → Altered payload (.obj kvs) →
        ∃ receipt, r.getReceipt "RCP-1" = some receipt ∧
          rebuiltText Runtime.decimal receipt ≠ canonicalText Runtime.decimal payload := by
  have hsigned : (signedDeployment.records.custody.get "RCP-1").isSome = true := by decide +kernel
  obtain ⟨c, hcustody⟩ := Option.isSome_iff_exists.mp hsigned
  exact ⟨c, signature_round_trip Runtime.decimal decimal_numerals _ (local_verifies sampleDigest)
    "tenant-a" twoWorkers signingRun signingRun_sound "RCP-1" c signedDeployment rfl hcustody⟩

end Edon.Platform
