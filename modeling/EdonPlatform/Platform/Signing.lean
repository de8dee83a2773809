import EdonPlatform.Platform.Worker
import EdonPlatform.Lib.Fallible

/- What the workers of the control plane do with a message
   (apps/control-plane-api/src/worker.ts, `verify` and `handle`), and the custody of
   receipt signatures (packages/platform-core/src/repositories.ts; migrations 009 and
   011). A receipt is signed under a lease of its own, taken in a transaction of its
   own, so a handler is a phase and one action for each of its transactions.

   Correspondence (TypeScript ↔ Lean):
     `receipts`, `receipt_custody`  ↔ `Receipt`, `ReceiptCustodyRecord`
     `receipt_signing_claims`       ↔ `SigningClaim`
     `getReceipt`                   ↔ `Records.getReceipt`
     `putReceiptCustody`            ↔ `Records.putReceiptCustody`
     `getReceiptCustody`            ↔ `Records.getReceiptCustody`
     `claimReceiptSigning`          ↔ `Records.claimReceiptSigning`
     `completeReceiptSigning`       ↔ `Records.completeReceiptSigning`
     `verify`                       ↔ `Records.verify`
     `handle`                       ↔ `Handler`, `handle`

   Of the other topics only the end of their handlers is modelled, since they write
   neither receipts nor custody. The queue moves by the actions of `Worker`, whatever
   the handlers do (`queue_step`).

   What is proved:
     1. `signed_when_granted` — no signing message is completed before its receipt has
        a custody record, if every signing claim that a handler asks for without a
        record is granted.
     2. `refused_claim_acknowledged` — the signer fails once and the message is retried
        while the failed attempt still holds the signing claim: the message is
        completed and the receipt has no custody record. -/
namespace Edon.Platform
open Transition Js Fallible

structure Receipt where
  receiptId : String
  payload : Value

/-- What the signer returns. -/
structure SignatureEnvelope where
  signature : String
  keyId : String
  keyVersion : Option String
  algorithm : String
  signedAt : String
  digest : String

/-- The status of every record is `SIGNED`. -/
structure ReceiptCustodyRecord where
  receiptId : String
  envelope : SignatureEnvelope

inductive SigningStatus where
  | claimed
  | completed
  deriving DecidableEq, Repr

structure SigningClaim where
  receiptId : String
  workerId : String
  status : SigningStatus := .claimed
  leaseExpiresAt : Int

/-- The tables the handlers read and write; of a snapshot, its version. -/
structure Records where
  receipts : Table Receipt.receiptId := ∅
  custody : Table ReceiptCustodyRecord.receiptId := ∅
  signingClaims : Table SigningClaim.receiptId := ∅
  stateVersions : Dict String Int := ∅

namespace Records

/-- `{ ...payload, signature_status, signature, digest, algorithm, ... }`. -/
def withSignature (payload : Value) (c : ReceiptCustodyRecord) : Value :=
  let e := c.envelope
  let fields : Fields :=
    [("signature_status", .str "SIGNED"), ("signature", .str e.signature), ("digest", .str e.digest),
      ("algorithm", .str e.algorithm), ("key_id", .str e.keyId)] ++
    (e.keyVersion.toList.map fun v => ("key_version", .str v)) ++ [("signed_at", .str e.signedAt)]
  match payload with
  | .obj kvs => .obj (fields.foldl (fun kvs f => Assoc.put kvs f.1 f.2) kvs)
  | _ => .obj fields

def getReceipt (r : Records) (receiptId : String) : Option Value :=
  (r.receipts.get receiptId).map fun receipt =>
    match r.custody.get receiptId with
    | some c => withSignature receipt.payload c
    | none => receipt.payload

def getReceiptCustody (r : Records) (receiptId : String) : Option ReceiptCustodyRecord :=
  r.custody.get receiptId

/-- A record that is there already is kept. -/
def putReceiptCustody (r : Records) (record : ReceiptCustodyRecord) : Records :=
  match r.custody.insert record with
  | some custody => { r with custody }
  | none => r

/-- The claim is granted where there is none, or one that is open and expired. -/
def claimReceiptSigning (r : Records) (now leaseMs : Int) (receiptId workerId : String) :
    Bool × Records :=
  match r.signingClaims.insert ⟨receiptId, workerId, .claimed, now + leaseMs⟩ with
  | some signingClaims => (true, { r with signingClaims })
  | none =>
    match r.signingClaims.get receiptId with
    | some c =>
      if c.status = .claimed ∧ c.leaseExpiresAt ≤ now then
        (true, { r with
          signingClaims := r.signingClaims.modify receiptId
            (fun c => { c with workerId, leaseExpiresAt := now + leaseMs }) (fun _ => rfl) })
      else (false, r)
    | none => (false, r)

def completeReceiptSigning (r : Records) (now : Int) (receiptId : String) : Records :=
  { r with
    signingClaims := r.signingClaims.modify receiptId
      (fun c => if c.status = .claimed then
        { c with status := .completed, leaseExpiresAt := now } else c)
      (fun c => by split <;> rfl) }

end Records

/-! ## One handler -/

/-- The next transaction of the handler. -/
inductive Handler where
  | verify
  | handle
  | getCustody (receiptId : String) (receipt : Value)
  | claimSigning (receiptId : String) (receipt : Value)
  | sign (receiptId : String) (receipt : Value)
  | putCustody (receiptId : String) (envelope : SignatureEnvelope)
  | completeSigning (receiptId : String)
  | returned

section
variable (js : Runtime)

/-- `String(value)` where the error that is thrown is known by its message. -/
def text (value : Option Value) (default : String) : Except String String :=
  match toText js (orDefault value (.str default)) with
  | .ok s => .ok s
  | .error _ => .error "Cannot convert object to primitive value"

/-- `String(message.payload.receipt_id ?? '')`. -/
def OutboxMessage.receiptId (m : OutboxMessage) : Except String String :=
  text js (field m.payload "receipt_id") ""

/-- The message is bound to the version of its scope's snapshot. -/
def Records.verify (r : Records) (m : OutboxMessage) : Except String Unit :=
  match m.stateVersion with
  | none => .ok ()
  | some version =>
    if 0 < version then do
      let scopeId ← text js (field m.payload "scope_id") "memphis-fulfillment"
      match r.stateVersions.get scopeId with
      | none => .ok ()
      | some v => require (v = version) "STATE_VERSION_BINDING_MISMATCH"
    else .ok ()

variable (sign : Value → SignatureEnvelope)

/-- One transaction, or the call of the signer. -/
def handle (w : Worker) (now : Int) (m : OutboxMessage) (r : Records) :
    Handler → Except String (Handler × Records)
  | .verify => do
    r.verify js m
    return (.handle, r)
  | .handle => do
    require (m.topic ≠ "TEST_PERMANENT_FAILURE") "TEST_PERMANENT_FAILURE"
    if m.topic = "RECEIPT_SIGN" then do
      let receiptId ← m.receiptId js
      let receipt ← orRaise "RECEIPT_NOT_FOUND" (r.getReceipt receiptId)
      return (.getCustody receiptId receipt, r)
    else return (.returned, r)
  | .getCustody receiptId receipt =>
    match r.getReceiptCustody receiptId with
    | some _ => .ok (.returned, r)
    | none => .ok (.claimSigning receiptId receipt, r)
  | .claimSigning receiptId receipt =>
    match r.claimReceiptSigning now w.leaseMs receiptId w.workerId with
    | (true, r) => .ok (.sign receiptId receipt, r)
    -- a refused claim is passed over
    | (false, r) => .ok (.returned, r)
  | .sign receiptId receipt => .ok (.putCustody receiptId (sign receipt), r)
  | .putCustody receiptId envelope =>
    .ok (.completeSigning receiptId, r.putReceiptCustody ⟨receiptId, envelope⟩)
  | .completeSigning receiptId => .ok (.returned, r.completeReceiptSigning now receiptId)
  | .returned => .ok (.returned, r)

/-! ## All workers -/

/-- The queue with its workers, the tables of the handlers and how far each handler is. -/
structure Deployment where
  queue : Queue
  records : Records
  handler : Nat → Handler

inductive Move where
  /-- An action of the queue. A handler may throw at any time, and returns when it is done. -/
  | queue (a : Action)
  | handle (w : Nat) (now : Int)
  | putReceipt (receipt : Receipt)
  | putState (scopeId : String) (version : Int)

variable (workers : Nat → Worker)

/-- A handler that throws, or an action its worker is not ready for, leaves the tables alone. -/
def Deployment.next (d : Deployment) : Move → Deployment
  | .queue (.finish w (.ok ())) =>
    match d.handler w with
    | .returned => { d with queue := step workers d.queue (.finish w (.ok ())) }
    | _ => d
  | .queue (.claim w now locked) =>
    match d.queue.phase w with
    | .idle => { d with
        queue := step workers d.queue (.claim w now locked)
        handler := Function.update d.handler w .verify }
    | _ => d
  | .queue a => { d with queue := step workers d.queue a }
  | .handle w now =>
    match d.queue.phase w with
    | .running claim =>
      match handle js sign (workers w) now claim.message d.records (d.handler w) with
      | .ok (h, records) => { d with records, handler := Function.update d.handler w h }
      | .error error => { d with queue := step workers d.queue (.finish w (.error error)) }
    | _ => d
  | .putReceipt receipt =>
    match d.records.receipts.insert receipt with
    | some receipts => { d with records := { d.records with receipts } }
    | none => d
  | .putState scopeId version =>
    { d with records := { d.records with stateVersions := d.records.stateVersions.set scopeId version } }

/-- A deployment moves its queue by the actions of the queue. -/
theorem queue_next (d : Deployment) (m : Move) :
    (d.next js sign workers m).queue = d.queue ∨
      ∃ a, (d.next js sign workers m).queue = step workers d.queue a := by
  cases m with
  | queue a =>
    unfold Deployment.next
    split
    · next w heq =>
      cases heq
      split
      · exact .inr ⟨.finish w (.ok ()), rfl⟩
      · exact .inl rfl
    · next w now locked heq =>
      cases heq
      split
      · exact .inr ⟨.claim w now locked, rfl⟩
      · exact .inl rfl
    · next heq =>
      cases heq
      exact .inr ⟨a, rfl⟩
    · next heq => cases heq
    · next heq => cases heq
    · next heq => cases heq
  | handle w now =>
    simp only [Deployment.next]
    split
    · split
      · exact .inl rfl
      · next error _ => exact .inr ⟨.finish w (.error error), rfl⟩
    · exact .inl rfl
  | putReceipt receipt =>
    simp only [Deployment.next]
    split <;> exact .inl rfl
  | putState scopeId version => exact .inl rfl

/-- **Refinement.** Whatever the handlers do, the queue of a deployment runs as a queue. -/
theorem queue_run (d : Deployment) (moves : List Move) :
    ∃ actions, (exec (Deployment.next js sign workers) d moves).queue =
      exec (step workers) d.queue actions := by
  induction moves generalizing d with
  | nil => exact ⟨[], rfl⟩
  | cons m moves ih =>
    obtain ⟨actions, hactions⟩ := ih (d.next js sign workers m)
    rw [exec_cons, hactions]
    rcases queue_next js sign workers d m with h | ⟨a, h⟩
    · exact ⟨actions, by rw [h]⟩
    · exact ⟨a :: actions, by rw [h]; rfl⟩

/-! ## Signed messages -/

/-- The receipt of the message has a custody record. -/
def Records.Signed (r : Records) (m : OutboxMessage) : Prop :=
  ∃ receiptId, m.receiptId js = .ok receiptId ∧ (r.custody.get receiptId).isSome = true

/-- What a handler of a signing message has established. -/
def Handler.Sound (r : Records) (m : OutboxMessage) : Handler → Prop
  | .verify | .handle => True
  | .getCustody receiptId _ | .claimSigning receiptId _ | .sign receiptId _
  | .putCustody receiptId _ => m.receiptId js = .ok receiptId
  | .completeSigning _ | .returned => r.Signed js m

/-- The signing claim that is asked for without a custody record is granted: nobody has
claimed the receipt, or the claim is open and its lease has expired. -/
def Handler.Granted (r : Records) (now : Int) : Handler → Prop
  | .claimSigning receiptId _ => (r.custody.get receiptId).isNone = true →
    ∀ c ∈ r.signingClaims.get receiptId, c.status = .claimed ∧ c.leaseExpiresAt ≤ now
  | _ => True

instance (r : Records) (now : Int) : (h : Handler) → Decidable (h.Granted r now)
  | .claimSigning receiptId _ => inferInstanceAs (Decidable (_ = _ →
      ∀ c ∈ r.signingClaims.get receiptId, c.status = .claimed ∧ c.leaseExpiresAt ≤ now))
  | .verify | .handle | .getCustody .. | .sign .. | .putCustody .. | .completeSigning _
  | .returned => inferInstanceAs (Decidable True)

/-- The same, of the handler that moves. -/
def Deployment.Granted (d : Deployment) : Move → Prop
  | .handle w now => (d.handler w).Granted d.records now
  | _ => True

instance (d : Deployment) : (m : Move) → Decidable (d.Granted m)
  | .handle w now => inferInstanceAs (Decidable ((d.handler w).Granted d.records now))
  | .queue _ | .putReceipt _ | .putState .. => inferInstanceAs (Decidable True)

/-- Every signing message that is completed has its receipt signed. -/
def Deployment.Acknowledged (d : Deployment) : Prop :=
  ∀ outboxId row, d.queue.outbox.get outboxId = some row → row.message.topic = "RECEIPT_SIGN" →
    row.status = .completed → d.records.Signed js row.message

/-- Custody records are never removed. -/
def Records.Keeps (r r' : Records) : Prop :=
  ∀ receiptId, (r.custody.get receiptId).isSome = true → (r'.custody.get receiptId).isSome = true

/-- What holds between the queue, the handlers and the custody records. -/
structure Deployment.Sound (d : Deployment) : Prop where
  acknowledged : d.Acknowledged js
  message : ∀ w claim, (d.queue.phase w).claim = some claim →
    ∃ row, d.queue.outbox.get claim.outboxId = some row ∧ row.message = claim.message
  handled : ∀ w claim, d.queue.phase w = .handled claim → claim.message.topic = "RECEIPT_SIGN" →
    d.records.Signed js claim.message
  running : ∀ w claim, d.queue.phase w = .running claim → claim.message.topic = "RECEIPT_SIGN" →
    (d.handler w).Sound js d.records claim.message

variable {js}

theorem Records.Signed.keep {r r' : Records} {m : OutboxMessage} (h : r.Signed js m)
    (hkeep : r.Keeps r') : r'.Signed js m := by
  obtain ⟨receiptId, hid, hsigned⟩ := h
  exact ⟨receiptId, hid, hkeep receiptId hsigned⟩

theorem Handler.Sound.keep {r r' : Records} {m : OutboxMessage} {h : Handler}
    (hs : h.Sound js r m) (hkeep : r.Keeps r') : h.Sound js r' m := by
  cases h with
  | completeSigning _ => exact Records.Signed.keep hs hkeep
  | returned => exact Records.Signed.keep hs hkeep
  | _ => exact hs

theorem putReceiptCustody_custody (r : Records) (record : ReceiptCustodyRecord) :
    ((r.putReceiptCustody record).custody.get record.receiptId).isSome = true ∧
      r.Keeps (r.putReceiptCustody record) := by
  unfold Records.putReceiptCustody
  cases hinsert : r.custody.insert record with
  | none =>
    refine ⟨?_, fun _ h => h⟩
    cases hget : r.custody.get record.receiptId with
    | none =>
      obtain ⟨custody, h⟩ := Table.insert_of_get hget
      rw [hinsert] at h
      cases h
    | some _ => rfl
  | some custody =>
    refine ⟨?_, ?_⟩
    · simp [Table.get_insert hinsert]
    · intro receiptId h
      show (custody.get receiptId).isSome = true
      rw [Table.get_insert hinsert]
      split
      · rfl
      · exact h

theorem claimReceiptSigning_custody (r : Records) (now leaseMs : Int) (receiptId workerId : String) :
    (r.claimReceiptSigning now leaseMs receiptId workerId).2.custody = r.custody := by
  unfold Records.claimReceiptSigning
  split
  · rfl
  · split
    · split <;> rfl
    · rfl

theorem claimReceiptSigning_granted {r : Records} {now : Int} (leaseMs : Int) {receiptId : String}
    (workerId : String) (h : ∀ c ∈ r.signingClaims.get receiptId,
      c.status = .claimed ∧ c.leaseExpiresAt ≤ now) :
    (r.claimReceiptSigning now leaseMs receiptId workerId).1 = true := by
  unfold Records.claimReceiptSigning
  cases hget : r.signingClaims.get receiptId with
  | none =>
    obtain ⟨claims, hinsert⟩ :=
      Table.insert_of_get (r := (⟨receiptId, workerId, .claimed, now + leaseMs⟩ : SigningClaim)) hget
    rw [hinsert]
  | some c =>
    split
    · rfl
    · simp only
      rw [if_pos (h c hget)]

/-- A handler keeps the custody records, whatever its topic. -/
theorem handle_keeps {w : Worker} {now : Int} {m : OutboxMessage} {r r' : Records}
    {h h' : Handler} (hok : handle js sign w now m r h = .ok (h', r')) : r.Keeps r' := by
  have hkeep : r.Keeps r := fun _ h => h
  cases h with
  | verify =>
    obtain ⟨_, _, hok⟩ := bind_ok.mp hok
    cases hok
    exact hkeep
  | handle =>
    obtain ⟨_, _, hok⟩ := bind_ok.mp hok
    split at hok
    · obtain ⟨_, _, hok⟩ := bind_ok.mp hok
      obtain ⟨_, _, hok⟩ := bind_ok.mp hok
      cases hok
      exact hkeep
    · cases hok
      exact hkeep
  | getCustody receiptId receipt =>
    simp only [handle] at hok
    split at hok <;> cases hok <;> exact hkeep
  | claimSigning receiptId receipt =>
    have hcustody := claimReceiptSigning_custody r now w.leaseMs receiptId w.workerId
    simp only [handle] at hok
    split at hok
    · next hclaim =>
      cases hok
      rw [hclaim] at hcustody
      exact fun id h => by rw [hcustody]; exact h
    · next hclaim =>
      cases hok
      rw [hclaim] at hcustody
      exact fun id h => by rw [hcustody]; exact h
  | sign receiptId receipt =>
    cases hok
    exact hkeep
  | putCustody receiptId envelope =>
    cases hok
    exact (putReceiptCustody_custody r ⟨receiptId, envelope⟩).2
  | completeSigning receiptId =>
    cases hok
    exact hkeep
  | returned =>
    cases hok
    exact hkeep

/-- **One transaction of a handler.** What it has established is so afterwards, if the
claim it asks for is granted. -/
theorem handle_sound {w : Worker} {now : Int} {m : OutboxMessage} {r r' : Records}
    {h h' : Handler} (htopic : m.topic = "RECEIPT_SIGN") (hs : h.Sound js r m)
    (hgranted : h.Granted r now) (hok : handle js sign w now m r h = .ok (h', r')) :
    h'.Sound js r' m := by
  have hkeep := handle_keeps sign hok
  cases h with
  | verify =>
    obtain ⟨_, _, hok⟩ := bind_ok.mp hok
    cases hok
    trivial
  | handle =>
    obtain ⟨_, _, hok⟩ := bind_ok.mp hok
    rw [if_pos htopic] at hok
    obtain ⟨receiptId, hid, hok⟩ := bind_ok.mp hok
    obtain ⟨receipt, _, hok⟩ := bind_ok.mp hok
    cases hok
    exact hid
  | getCustody receiptId receipt =>
    simp only [handle] at hok
    split at hok
    · next hcustody =>
      cases hok
      have hcustody : r.custody.get receiptId = some _ := hcustody
      exact ⟨receiptId, hs, by rw [hcustody]; rfl⟩
    · cases hok
      exact hs
  | claimSigning receiptId receipt =>
    simp only [handle] at hok
    split at hok
    · cases hok
      exact hs
    · next hclaim =>
      cases hok
      refine ⟨receiptId, hs, hkeep receiptId ?_⟩
      -- the claim was refused, so the record is there
      by_contra hnone
      have hclaimed := claimReceiptSigning_granted w.leaseMs w.workerId
        (hgranted (by simpa using hnone))
      rw [hclaim] at hclaimed
      cases hclaimed
  | sign receiptId receipt =>
    cases hok
    exact hs
  | putCustody receiptId envelope =>
    cases hok
    exact ⟨receiptId, hs, (putReceiptCustody_custody r ⟨receiptId, envelope⟩).1⟩
  | completeSigning receiptId =>
    cases hok
    exact Records.Signed.keep hs hkeep
  | returned =>
    cases hok
    exact hs

/-! ## The deployment -/

/-- The queue acts: a handler that is over has returned, and one that begins is at its start. -/
theorem Deployment.Sound.queue {d : Deployment} (h : d.Sound js) {a : Action} {q : Queue}
    {handler : Nat → Handler} (heffect : Effect workers d.queue a q)
    (hreturned : ∀ w, a = .finish w (.ok ()) → d.handler w = .returned)
    (hhandler : ∀ w, handler w = d.handler w ∨ handler w = .verify)
    (hclaim : ∀ w now locked, a = .claim w now locked → handler w = .verify) :
    Deployment.Sound js ⟨q, d.records, handler⟩ := by
  refine ⟨?_, ?_, ?_, ?_⟩
  · intro outboxId row' hget' htopic hstatus
    cases hget : d.queue.outbox.get outboxId with
    | none =>
      rw [(new_row_effect heffect hget hget').1] at hstatus
      cases hstatus
    | some row =>
      obtain ⟨row'', hget'', hmessage, hcompleted⟩ := row_effect heffect hget
      rw [hget'] at hget''
      cases hget''
      rw [hmessage] at htopic ⊢
      rcases hcompleted hstatus with hcompleted | ⟨w, claim, hphase, hid⟩
      · exact h.acknowledged outboxId row hget htopic hcompleted
      · -- the worker that completes the row has handled the row's message
        obtain ⟨row₁, hget₁, hmessage₁⟩ := h.message w claim (by rw [hphase]; rfl)
        rw [hid, hget] at hget₁
        cases hget₁
        rw [hmessage₁] at htopic ⊢
        exact h.handled w claim hphase htopic
  · intro w claim hclaim
    have hrow : ∃ row, d.queue.outbox.get claim.outboxId = some row ∧
        row.message = claim.message := by
      rcases claim_effect heffect hclaim with hclaim | hrow
      · exact h.message w claim hclaim
      · exact hrow
    obtain ⟨row, hget, hmessage⟩ := hrow
    obtain ⟨row', hget', hmessage', _⟩ := row_effect heffect hget
    exact ⟨row', hget', hmessage'.trans hmessage⟩
  · intro w claim hphase htopic
    rcases handled_effect heffect hphase with hphase | ⟨ha, hphase⟩
    · exact h.handled w claim hphase htopic
    · have hs := h.running w claim hphase htopic
      rw [hreturned w ha] at hs
      exact hs
  · intro w claim hphase htopic
    show (handler w).Sound js d.records claim.message
    rcases hhandler w with hsame | hverify
    · rw [hsame]
      rcases running_effect heffect hphase with hphase | ⟨now, locked, ha⟩
      · exact h.running w claim hphase htopic
      · rw [← hsame, hclaim w now locked ha]
        trivial
    · rw [hverify]
      trivial

/-- The tables of the handlers change, and keep the custody records. -/
theorem Deployment.Sound.keep {d : Deployment} (h : d.Sound js) {r : Records}
    (hkeep : d.records.Keeps r) {handler : Nat → Handler}
    (hrunning : ∀ w claim, d.queue.phase w = .running claim →
      claim.message.topic = "RECEIPT_SIGN" → (handler w).Sound js r claim.message) :
    Deployment.Sound js ⟨d.queue, r, handler⟩ := by
  refine ⟨?_, h.message, ?_, hrunning⟩
  · intro outboxId row hget htopic hstatus
    exact (h.acknowledged outboxId row hget htopic hstatus).keep hkeep
  · intro w claim hphase htopic
    exact (h.handled w claim hphase htopic).keep hkeep

theorem sound_next {d : Deployment} {m : Move} (h : d.Sound js) (hgranted : d.Granted m) :
    (d.next js sign workers m).Sound js := by
  cases m with
  | queue a =>
    unfold Deployment.next
    split
    · next w heq =>
      cases heq
      split
      · next hreturned =>
        refine h.queue workers (step_effect workers d.queue _) ?_ (fun _ => .inl rfl) ?_
        · intro w' ha
          cases ha
          exact hreturned
        · intro w' now locked ha
          cases ha
      · exact h
    · next w now locked heq =>
      cases heq
      split
      · refine h.queue workers (step_effect workers d.queue _) ?_ ?_ ?_
        · intro w' ha
          cases ha
        · intro w'
          by_cases hw : w' = w
          · right
            rw [hw, Function.update_self]
          · left
            rw [Function.update_of_ne hw]
        · intro w' now' locked' ha
          cases ha
          rw [Function.update_self]
      · exact h
    · next a' hfinish hclaim heq =>
      cases heq
      refine h.queue workers (step_effect workers d.queue _) ?_ (fun _ => .inl rfl) ?_
      · intro w ha
        exact absurd ha (hfinish w)
      · intro w now locked ha
        exact absurd ha (hclaim w now locked)
    · next heq => cases heq
    · next heq => cases heq
    · next heq => cases heq
  | handle w now =>
    simp only [Deployment.next]
    split
    · next claim hphase =>
      split
      · next h' records hok =>
        have hkeep := handle_keeps sign hok
        refine h.keep hkeep ?_
        intro w' claim' hphase' htopic
        by_cases hw : w' = w
        · subst hw
          rw [hphase] at hphase'
          cases hphase'
          rw [Function.update_self]
          exact handle_sound sign htopic (h.running w' claim hphase htopic) hgranted hok
        · rw [Function.update_of_ne hw]
          exact (h.running w' claim' hphase' htopic).keep hkeep
      · next error _ =>
        refine h.queue workers (step_effect workers d.queue (.finish w (.error error))) ?_
          (fun _ => .inl rfl) ?_
        · intro w' ha
          cases ha
        · intro w' now' locked ha
          cases ha
    · exact h
  | putReceipt receipt =>
    simp only [Deployment.next]
    split
    · next receipts _ =>
      exact h.keep (r := { d.records with receipts }) (fun _ hr => hr) h.running
    · exact h
  | putState scopeId version =>
    exact h.keep (r := { d.records with
      stateVersions := d.records.stateVersions.set scopeId version }) (fun _ hr => hr) h.running

end

/-- Nothing in the tables, and no worker at work. -/
def Deployment.empty : Deployment := ⟨⟨∅, fun _ => .idle⟩, {}, fun _ => .returned⟩

theorem sound_empty (js : Runtime) : Deployment.empty.Sound js := by
  refine ⟨?_, ?_, ?_, ?_⟩
  · intro outboxId row hget
    cases hget
  · intro w claim hclaim
    cases hclaim
  · intro w claim hphase
    cases hphase
  · intro w claim hphase
    cases hphase

/-- **No unsigned receipt is acknowledged**, over any interleaving of any number of
workers, with signers that fail and workers that stop, if every signing claim that is
asked for without a custody record is granted. -/
theorem signed_when_granted (js : Runtime) (sign : Value → SignatureEnvelope)
    (workers : Nat → Worker) (moves : List Move)
    (hgranted : Along (Deployment.next js sign workers) (fun d m _ => d.Granted m) .empty moves) :
    Along (Deployment.next js sign workers) (fun _ _ d => d.Acknowledged js) .empty moves := by
  refine Along.of_invariant (I := Deployment.Sound js) ?_ (sound_empty js) hgranted
  intro d m h hm
  have hnext := sound_next sign workers h hm
  exact ⟨hnext.acknowledged, hnext⟩

/-! ## A signer that fails -/

def sampleEnvelope : Value → SignatureEnvelope :=
  fun _ => ⟨"kms:kms-test-key:v1:sha256:0", "kms-test-key", some "v1", "KMS-SHA256-RSA-PSS",
    "2026-09-24T00:00:00.000Z", "sha256:0"⟩

def signingMessage : OutboxMessage :=
  ⟨"outbox-receipt-sign-RCP-1", "receipt-sign:RCP-1", "RECEIPT_SIGN", "RCP-1",
    .obj [("receipt_id", .str "RCP-1")], "corr-1", "trace-1", none⟩

/-- A worker takes the message up to the point where the signer is called. -/
def claimsSigning (now : Int) : List Move :=
  [.queue (.claim 0 now []), .handle 0 now, .handle 0 now, .handle 0 now, .handle 0 now]

def issued : List Move :=
  [.putReceipt ⟨"RCP-1", .obj [("receipt_id", .str "RCP-1")]⟩, .queue (.enqueue 0 signingMessage)]

/-- The signer answers: the record is put, the claim closed and the message completed. -/
def signs (now : Int) : List Move :=
  [.handle 0 now, .handle 0 now, .handle 0 now, .queue (.finish 0 (.ok ())),
    .queue (.complete 0 now)]

theorem signed_when_granted_once :
    ∃ d, d = exec (Deployment.next Runtime.sample sampleEnvelope twoWorkers) .empty
        (issued ++ claimsSigning 0 ++ signs 500) ∧
      d.queue.status "outbox-receipt-sign-RCP-1" = some .completed ∧
      Along (Deployment.next Runtime.sample sampleEnvelope twoWorkers)
        (fun _ _ d => d.Acknowledged Runtime.sample) .empty (issued ++ claimsSigning 0 ++ signs 500) :=
  ⟨_, rfl, by decide +kernel, signed_when_granted _ _ _ _ (by decide +kernel)⟩

/-- The signer fails, and the message is taken up again 700 milliseconds later. The claim
is refused, since the first attempt holds it for 30 seconds. -/
def retriedTooSoon : List Move :=
  issued ++ claimsSigning 0 ++ [.queue (.finish 0 (.error "KMS_UNAVAILABLE")),
    .queue (.readAttempts 0), .queue (.retry 0 200 0)] ++
  claimsSigning 900 ++ [.queue (.finish 0 (.ok ())), .queue (.complete 0 950)]

theorem refused_claim_acknowledged :
    ¬ ∀ (js : Runtime) (sign : Value → SignatureEnvelope) (workers : Nat → Worker)
      (moves : List Move), (exec (Deployment.next js sign workers) .empty moves).Acknowledged js := by
  intro hall
  generalize hd : exec (Deployment.next Runtime.sample sampleEnvelope twoWorkers) .empty
    retriedTooSoon = d
  have hcompleted : (d.queue.outbox.get "outbox-receipt-sign-RCP-1").map
      (fun r => (r.message.topic, r.message.receiptId Runtime.sample, r.status)) =
        some ("RECEIPT_SIGN", .ok "RCP-1", .completed) := by
    rw [← hd]
    decide +kernel
  have hcustody : (d.records.custody.get "RCP-1").isSome = false := by
    rw [← hd]
    decide +kernel
  obtain ⟨row, hget, hrow⟩ := Option.map_eq_some_iff.mp hcompleted
  simp only [Prod.mk.injEq] at hrow
  obtain ⟨htopic, hreceipt, hstatus⟩ := hrow
  have hsigned := hall Runtime.sample sampleEnvelope twoWorkers retriedTooSoon
  rw [hd] at hsigned
  obtain ⟨receiptId, hid, hrecord⟩ := hsigned _ row hget htopic hstatus
  rw [hreceipt] at hid
  cases hid
  rw [hcustody] at hrecord
  cases hrecord

end Edon.Platform
