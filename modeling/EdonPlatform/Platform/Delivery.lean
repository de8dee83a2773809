import EdonPlatform.Platform.EffectiveDecision
import EdonPlatform.Platform.Signing

/- The outbox workers beside the request handlers
   (apps/control-plane-api/src/worker.ts, `verify`; packages/platform-core/src/outbox-worker.ts;
   apps/control-plane-api/src/server.ts, `POST /v1/outcomes`).

   A worker checks a message against the snapshot of a scope before it handles it: the scope
   that the payload names, and memphis-fulfillment where it names none. The messages of
   proposals, reviews and outcomes name none. What `handle` does is left out: it takes any time
   and does not throw.

   What is proved:
     1. `deliverable_until_stale` — a message is not moved to DEAD_LETTER while the worker that
        has it on its last attempt finds the state it is bound to; and where the state has
        another version, that worker moves it to DEAD_LETTER.
     2. `second_event_kills_first` — two events on one scope before the worker runs: the message
        of the first one is a dead letter.

   Correspondence (TypeScript ↔ Lean):
     `POST /v1/outcomes`  ↔ `postOutcomes`
     `verify`             ↔ `Db.verify`
     `processOnce`        ↔ `Delivery.Move.work` (`Action`) and `Delivery.Move.verify` -/
namespace Edon.Platform
open Js Transition Fallible

/-! ## POST /v1/outcomes -/

section
variable (s : Service)

/-- `String(body.outcome_id)`; the column that keeps it is not null. -/
def Request.outcomeId (r : Request) : Except Thrown String :=
  match field r.body "outcome_id" with
  | none | some .null => .error .database
  | some v => toText s.js v

def outcomeMessage (r : Request) (outcomeId proposalId : String)
    (proposal : Option ActionProposal) : OutboxMessage where
  outboxId := "outbox-outcome-" ++ outcomeId
  dedupeKey := "outcome:" ++ outcomeId
  topic := "OUTCOME_OBSERVED"
  aggregateId := (proposal.map ActionProposal.incidentId).getD proposalId
  payload := .obj [("outcome_id", .str outcomeId), ("proposal_id", .str proposalId)]
  correlationId := r.bind.correlationId
  traceId := r.bind.traceId
  stateVersion := proposal.map ActionProposal.stateVersion

def signMessage (r : Request) (proposalId : String) (p : ActionProposal) : OutboxMessage where
  outboxId := "outbox-receipt-sign-" ++ ("RCP-" ++ p.proposalId)
  dedupeKey := "receipt-sign:" ++ ("RCP-" ++ p.proposalId)
  topic := "RECEIPT_SIGN"
  aggregateId := "RCP-" ++ p.proposalId
  payload := .obj [("receipt_id", .str ("RCP-" ++ p.proposalId)), ("proposal_id", .str proposalId),
    ("state_version", integer p.stateVersion)]
  correlationId := r.bind.correlationId
  traceId := r.bind.traceId
  stateVersion := some p.stateVersion

/-- The receipt is issued, and put into a table that is not read here, where the proposal
has a decision. -/
def enqueueSigning (r : Request) (proposalId : String) (proposal : Option ActionProposal)
    (db : Db) : Except Thrown Db :=
  match proposal with
  | none => .ok db
  | some p =>
    match db.getKernelDecision s.pg p.proposalId with
    | none => .ok db
    | some _ => db.enqueueOutbox r.now (signMessage r proposalId p)

def postOutcomes (r : Request) (db : Db) : Except Thrown (Reply × Db) := do
  let proposalId ← r.proposalId s
  let proposal := db.getProposal proposalId
  let outcomeId ← r.outcomeId s
  let db ← db.enqueueOutbox r.now (outcomeMessage r outcomeId proposalId proposal)
  let db ← enqueueSigning s r proposalId proposal db
  return (r.reply 201 r.body, db)

end

/-! ## The check of a message -/

section
variable (js : Runtime)

/-- `String(message.payload.scope_id ?? 'memphis-fulfillment')`. -/
def OutboxMessage.boundScope (m : OutboxMessage) : Except String String :=
  text js (field m.payload "scope_id") "memphis-fulfillment"

/-- The message is bound to the version of the snapshot of its scope. -/
def Db.verify (db : Db) (m : OutboxMessage) : Except String Unit :=
  match m.stateVersion with
  | none => .ok ()
  | some version =>
    if 0 < version then do
      let scopeId ← m.boundScope js
      match db.getState scopeId with
      | none => .ok ()
      | some state => require (state.version = version) "STATE_VERSION_BINDING_MISMATCH"
    else .ok ()

/-- The state that the message is checked against has the version it is bound to. -/
def Db.Binds (db : Db) (m : OutboxMessage) : Prop :=
  ∀ version, m.stateVersion = some version → 0 < version →
    ∃ scopeId, m.boundScope js = .ok scopeId ∧
      ∀ state, db.getState scopeId = some state → state.version = version

theorem verify_ok_iff {db : Db} {m : OutboxMessage} : db.verify js m = .ok () ↔ db.Binds js m := by
  unfold Db.verify Db.Binds
  cases m.stateVersion with
  | none => simp
  | some version =>
    by_cases hpositive : 0 < version
    · simp only [if_pos hpositive]
      constructor
      · intro h version' hversion _
        cases hversion
        obtain ⟨scopeId, hscope, h⟩ := bind_ok.mp h
        refine ⟨scopeId, hscope, ?_⟩
        intro state hstate
        rw [hstate] at h
        exact of_decide_eq_true (require_ok.mp h)
      · intro h
        obtain ⟨scopeId, hscope, hstate⟩ := h version rfl hpositive
        refine bind_ok.mpr ⟨scopeId, hscope, ?_⟩
        cases hget : db.getState scopeId with
        | none => rfl
        | some state => exact require_ok.mpr (decide_eq_true (hstate state hget))
    · simp only [if_neg hpositive, true_iff]
      intro version' hversion hpositive'
      cases hversion
      exact absurd hpositive' hpositive

end

/-! ## All moves -/

/-- The tables, and how far each worker is. -/
structure Delivery where
  db : Db := {}
  phase : Nat → Phase := fun _ => .idle

namespace Delivery

def queue (d : Delivery) : Queue := ⟨d.db.outbox, d.phase⟩

def withQueue (d : Delivery) (q : Queue) : Delivery :=
  ⟨{ d.db with outbox := q.outbox }, q.phase⟩

inductive Move where
  | call (c : Call)
  | outcomes (r : Request)
  /-- Another handler appends an event. -/
  | append (event : EventEnvelope)
  | verify (w : Nat)
  /-- A transaction of `processOnce`, a governed requeue, or the message of another handler. -/
  | work (a : Action)

variable (s : Service) (workers : Nat → Worker)

/-- A worker whose check has passed is at its handler, and then at `completeOutbox`. -/
def next (d : Delivery) : Move → Delivery
  | .call (.events r) => { d with db := committed d.db (postEvents s r d.db) }
  | .call (.proposals r) => { d with db := committed d.db (postProposals s r d.db) }
  | .call (.reviews r) => { d with db := committed d.db (postReviews s r d.db) }
  | .outcomes r => { d with db := committed d.db (postOutcomes s r d.db) }
  | .append event =>
    match d.db.appendEvent s.pg event with
    | .ok (_, db) => { d with db }
    | .error _ => d
  | .verify w =>
    match d.phase w with
    | .running claim => d.withQueue (step workers d.queue
        (.finish w (d.db.verify s.js claim.message)))
    | _ => d
  | .work a => d.withQueue (step workers d.queue a)

/-- No handler throws, `completeOutbox` commits, and a worker ends its claim within the lease
unless it stops. -/
def Orderly (d : Delivery) : Move → Prop
  | .work (.finish _ _) => False
  | .work (.completeThrows _ _) => False
  | .work a => d.queue.Exclusive a
  | _ => True

/-- A worker that checks the message on its last attempt finds the state it is bound to. -/
def Bound (d : Delivery) (outboxId : String) (m : Move) : Prop :=
  ∀ w claim, m = .verify w → d.phase w = .running claim → claim.outboxId = outboxId →
    (workers w).maxAttempts ≤ claim.attempts → d.db.Binds s.js claim.message

def status (d : Delivery) (outboxId : String) : Option OutboxStatus := d.queue.status outboxId

end Delivery

/-! ## What the requests do to the outbox -/

/-- The rows that were there are there, and the new ones are pending. -/
structure Outbox.Extends (outbox outbox' : Outbox) : Prop where
  kept : ∀ outboxId row, outbox.get outboxId = some row → outbox'.get outboxId = some row
  fresh : ∀ outboxId row, outbox.get outboxId = none → outbox'.get outboxId = some row →
    row.status = .pending

theorem Outbox.Extends.refl (outbox : Outbox) : outbox.Extends outbox where
  kept _ _ h := h
  fresh outboxId row hnone hsome := by
    rw [hnone] at hsome
    cases hsome

theorem Outbox.Extends.trans {outbox outbox' outbox'' : Outbox} (h : outbox.Extends outbox')
    (h' : outbox'.Extends outbox'') : outbox.Extends outbox'' where
  kept outboxId row hget := h'.kept outboxId row (h.kept outboxId row hget)
  fresh outboxId row hnone hsome := by
    cases hmiddle : outbox'.get outboxId with
    | none => exact h'.fresh outboxId row hmiddle hsome
    | some row' =>
      have hkept := h'.kept outboxId row' hmiddle
      rw [hsome] at hkept
      cases hkept
      exact h.fresh outboxId row hnone hmiddle

theorem enqueueOutbox_extends {now : Int} {message : OutboxMessage} {outbox outbox' : Outbox}
    {inserted : Bool} (h : enqueueOutbox now message outbox = .ok (inserted, outbox')) :
    outbox.Extends outbox' where
  kept _ _ hget := enqueueOutbox_get h hget
  fresh outboxId row hnone hsome := by
    rcases enqueueOutbox_cases h with ⟨_, rfl⟩ | ⟨_, hinsert⟩
    · rw [hnone] at hsome
      cases hsome
    · rw [Table.get_insert hinsert] at hsome
      split at hsome
      · cases hsome
        rfl
      · rw [hnone] at hsome
        cases hsome

section
variable {s : Service} {db db' : Db} {r : Request} {reply : Reply}

theorem Db.enqueueOutbox_extends {now : Int} {message : OutboxMessage}
    (h : db.enqueueOutbox now message = .ok db') : db.outbox.Extends db'.outbox := by
  obtain ⟨⟨inserted, outbox⟩, henqueue, h⟩ := bind_ok.mp h
  cases h
  exact Platform.enqueueOutbox_extends henqueue

theorem extends_of_eq (h : db'.outbox = db.outbox) : db.outbox.Extends db'.outbox :=
  h ▸ .refl _

theorem journalEvidence_outbox {event : EventEnvelope} {records : List EvidenceRecord}
    (h : journalEvidence s event records db = .ok db') : db'.outbox = db.outbox := by
  induction records generalizing db with
  | nil =>
    cases h
    rfl
  | cons record records ih =>
    obtain ⟨_, _, h⟩ := bind_ok.mp h
    obtain ⟨⟨_, db₁⟩, happend, h⟩ := bind_ok.mp h
    exact (ih h).trans (appendEvent_keeps happend).2

theorem putState_outbox {scopeId : String} {version expectedVersion : Int} {values : Value}
    {stateHash : String}
    (h : db.putState scopeId version expectedVersion values stateHash = some db') :
    db'.outbox = db.outbox := by
  unfold Db.putState at h
  dsimp only at h
  split at h
  · split at h
    · split at h <;> cases h
      rfl
    · cases h
      rfl
  · cases h

theorem advance_extends {event : EventEnvelope} (h : advance s r event db = .ok (reply, db')) :
    db.outbox.Extends db'.outbox := by
  obtain ⟨_, _, h⟩ := bind_ok.mp h
  obtain ⟨⟨_, db₁⟩, happend, h⟩ := bind_ok.mp h
  obtain ⟨db₂, hput, h⟩ := bind_ok.mp h
  obtain ⟨db₃, henqueue, h⟩ := bind_ok.mp h
  cases h
  have houtbox : db₂.outbox = db.outbox :=
    (putState_outbox (orRaise_ok.mp hput)).trans (appendEvent_keeps happend).2
  exact houtbox ▸ Db.enqueueOutbox_extends henqueue

theorem recordObservation_extends {event : EventEnvelope}
    (h : recordObservation s r event db = .ok (reply, db')) : db.outbox.Extends db'.outbox := by
  obtain ⟨⟨appended, db₁⟩, happend, h⟩ := bind_ok.mp h
  have hfirst : db₁.outbox = db.outbox := (appendEvent_keeps happend).2
  cases appended with
  | false =>
    cases h
    exact extends_of_eq hfirst
  | true =>
    obtain ⟨db₂, hevidence, h⟩ := bind_ok.mp h
    have hsecond : db₂.outbox = db.outbox := (journalEvidence_outbox hevidence).trans hfirst
    split at h
    · exact hsecond ▸ advance_extends h
    · cases h
      exact extends_of_eq hsecond

theorem postEvents_extends (h : postEvents s r db = .ok (reply, db')) :
    db.outbox.Extends db'.outbox := by
  obtain ⟨event, _, h⟩ := bind_ok.mp h
  unfold submit at h
  split at h
  · cases h
    exact .refl _
  · split at h
    · cases h
      exact .refl _
    · have hclaimed := (claimIdempotency_keeps ("POST:/v1/events:" ++ r.bind.idempotencyKey)
        event.toJson db).2
      split at h <;> next heq =>
        rw [heq] at hclaimed
        first
        | exact hclaimed ▸ recordObservation_extends h
        | cases h
          exact extends_of_eq hclaimed

theorem putProposal_outbox (p : ActionProposal) (db : Db) : (db.putProposal p).outbox = db.outbox := by
  unfold Db.putProposal
  split <;> rfl

theorem recordProposal_extends {scopeId : String} {version : Int} {release : C1ModelRelease}
    {p : ActionProposal} (h : recordProposal s r scopeId version release p db = .ok (reply, db')) :
    db.outbox.Extends db'.outbox := by
  obtain ⟨db₁, hdecision, h⟩ := bind_ok.mp h
  obtain ⟨⟨_, db₂⟩, hproposed, h⟩ := bind_ok.mp h
  obtain ⟨⟨_, db₃⟩, hdecided, h⟩ := bind_ok.mp h
  obtain ⟨db₄, henqueue, h⟩ := bind_ok.mp h
  cases h
  have houtbox : db₃.outbox = db.outbox :=
    (appendEvent_keeps hdecided).2.trans <| (appendEvent_keeps hproposed).2.trans <|
      (putKernelDecision_keeps hdecision).2.trans (putProposal_outbox p db)
  exact houtbox ▸ Db.enqueueOutbox_extends henqueue

theorem postProposals_extends (h : postProposals s r db = .ok (reply, db')) :
    db.outbox.Extends db'.outbox := by
  obtain ⟨scopeId, _, h⟩ := bind_ok.mp h
  dsimp only at h
  split at h
  · cases h
    exact .refl _
  split at h
  · cases h
    exact .refl _
  obtain ⟨active, _, h⟩ := bind_ok.mp h
  split at h
  · cases h
    exact .refl _
  split at h
  · cases h
    exact .refl _
  obtain ⟨p, _, h⟩ := bind_ok.mp h
  split at h
  · cases h
    exact .refl _
  · exact recordProposal_extends h

theorem recordReview_extends {v : Reviewing} (h : recordReview s r v db = .ok (reply, db')) :
    db.outbox.Extends db'.outbox := by
  obtain ⟨db₁, hdecision, h⟩ := bind_ok.mp h
  obtain ⟨⟨_, db₂⟩, happend, h⟩ := bind_ok.mp h
  obtain ⟨db₃, henqueue, h⟩ := bind_ok.mp h
  cases h
  have houtbox : db₂.outbox = db.outbox :=
    (appendEvent_keeps happend).2.trans <| (claimIdempotency_keeps _ _ _).2.trans <|
      (putReview_keeps _ _).2.trans (putKernelDecision_keeps hdecision).2
  exact houtbox ▸ Db.enqueueOutbox_extends henqueue

theorem postReviews_extends (h : postReviews s r db = .ok (reply, db')) :
    db.outbox.Extends db'.outbox := by
  obtain ⟨proposalId, _, h⟩ := bind_ok.mp h
  split at h
  · cases h
    exact .refl _
  obtain ⟨checked, _, h⟩ := bind_ok.mp h
  split at h
  · cases h
    exact .refl _
  · exact recordReview_extends h

theorem postOutcomes_extends (h : postOutcomes s r db = .ok (reply, db')) :
    db.outbox.Extends db'.outbox := by
  obtain ⟨proposalId, _, h⟩ := bind_ok.mp h
  obtain ⟨outcomeId, _, h⟩ := bind_ok.mp h
  obtain ⟨db₁, henqueue, h⟩ := bind_ok.mp h
  obtain ⟨db₂, hsign, h⟩ := bind_ok.mp h
  cases h
  have hfirst := Db.enqueueOutbox_extends henqueue
  unfold enqueueSigning at hsign
  split at hsign
  · cases hsign
    exact hfirst
  split at hsign
  · cases hsign
    exact hfirst
  · exact hfirst.trans (Db.enqueueOutbox_extends hsign)

theorem committed_extends {result : Except Thrown (Reply × Db)}
    (h : ∀ reply db', result = .ok (reply, db') → db.outbox.Extends db'.outbox) :
    db.outbox.Extends (committed db result).outbox := by
  cases result with
  | error e => exact .refl _
  | ok result => exact h result.1 result.2 rfl

end

/-! ## A message that is spared -/

/-- The row is no dead letter, and no worker that is about to give it up will make it one. -/
structure Queue.Spares (workers : Nat → Worker) (q : Queue) (outboxId : String) : Prop where
  row : ∀ row, q.outbox.get outboxId = some row → row.status ≠ .deadLetter
  failed : ∀ w claim error, q.phase w = .failed claim error → claim.outboxId = outboxId →
    claim.attempts < (workers w).maxAttempts
  retrying : ∀ w claim error attempts, q.phase w = .retrying claim error attempts →
    claim.outboxId = outboxId → attempts < (workers w).maxAttempts

section
variable {workers : Nat → Worker} {q : Queue} {outboxId : String}

theorem modify_spared {outbox : Outbox} {k : String} {f : OutboxRow → OutboxRow}
    (hf : ∀ r, (f r).outboxId = r.outboxId)
    (hrow : ∀ row, outbox.get outboxId = some row → row.status ≠ .deadLetter)
    (hstatus : k = outboxId → ∀ row, outbox.get outboxId = some row →
      (f row).status ≠ .deadLetter) (row' : OutboxRow)
    (hget : (outbox.modify k f hf).get outboxId = some row') : row'.status ≠ .deadLetter := by
  by_cases hk : k = outboxId
  · cases hbefore : outbox.get outboxId with
    | none =>
      rw [Table.get_modify, hbefore] at hget
      split at hget <;> cases hget
    | some row =>
      rw [hk, Table.get_modify_self hf hbefore] at hget
      cases hget
      exact hstatus hk row hbefore
  · rw [Table.get_modify_ne hf hk] at hget
    exact hrow row' hget

theorem Queue.Spares.extends (h : q.Spares workers outboxId) {outbox : Outbox}
    (hextends : q.outbox.Extends outbox) : ({ q with outbox } : Queue).Spares workers outboxId where
  row row hget := by
    cases hbefore : q.outbox.get outboxId with
    | none =>
      have hpending := hextends.fresh outboxId row hbefore hget
      simp [hpending]
    | some row' =>
      have hkept := hextends.kept outboxId row' hbefore
      rw [hget] at hkept
      cases hkept
      exact h.row row hbefore
  failed := h.failed
  retrying := h.retrying

/-- A worker enters a phase in which it does not give the message up on its last attempt. -/
theorem Queue.Spares.enter (h : q.Spares workers outboxId) {w : Nat} {p : Phase} {outbox : Outbox}
    (hrow : ∀ row, outbox.get outboxId = some row → row.status ≠ .deadLetter)
    (hfailed : ∀ claim error, p = .failed claim error → claim.outboxId = outboxId →
      claim.attempts < (workers w).maxAttempts)
    (hretrying : ∀ claim error attempts, p = .retrying claim error attempts →
      claim.outboxId = outboxId → attempts < (workers w).maxAttempts) :
    (({ q with outbox } : Queue).enter w p).Spares workers outboxId where
  row := hrow
  failed w' claim error hphase hid := by
    rcases enter_phase hphase with hbefore | ⟨rfl, hentered⟩
    · exact h.failed w' claim error hbefore hid
    · exact hfailed claim error hentered hid
  retrying w' claim error attempts hphase hid := by
    rcases enter_phase hphase with hbefore | ⟨rfl, hentered⟩
    · exact h.retrying w' claim error attempts hbefore hid
    · exact hretrying claim error attempts hentered hid

/-- **One action.** Only a worker that gives the message up on its last attempt fails it. -/
theorem spares_step (hcurrent : q.Current) (h : q.Spares workers outboxId) {a : Action}
    (hfinish : ∀ w error claim, a = .finish w (.error error) → q.phase w = .running claim →
      claim.outboxId = outboxId → claim.attempts < (workers w).maxAttempts)
    (hthrows : ∀ w error, a ≠ .completeThrows w error) :
    (step workers q a).Spares workers outboxId := by
  cases a with
  | enqueue now message =>
    simp only [step]
    split
    · next henqueue => exact h.extends (enqueueOutbox_extends henqueue)
    · exact h
  | requeue now id =>
    refine ⟨?_, h.failed, h.retrying⟩
    refine modify_spared (OutboxRow.requeued_outboxId now) h.row ?_
    intro _ row hget
    unfold OutboxRow.requeued
    split
    · simp
    · exact h.row row hget
  | claim w now locked =>
    simp only [step, claimOutbox]
    cases hphase : q.phase w with
    | idle =>
      cases nextOutbox now locked q.outbox with
      | none => exact h
      | some row =>
        refine h.enter ?_ (by simp) (by simp)
        exact modify_spared _ h.row (fun _ _ _ => by simp [OutboxRow.claimed])
    | _ => exact h
  | finish w outcome =>
    simp only [step]
    split
    · exact h.enter h.row (by simp) (by simp)
    · next row error hphase =>
      refine h.enter h.row ?_ (by simp)
      intro claim _ hfailed hid
      cases hfailed
      exact hfinish w error row rfl hphase hid
    · exact h
  | complete w now =>
    simp only [step]
    split
    · next claim hphase =>
      refine h.enter ?_ (by simp) (by simp)
      refine modify_spared _ h.row ?_
      intro _ row hget
      unfold OutboxRow.completed
      split
      · simp
      · exact h.row row hget
    · exact h
  | completeThrows w error => exact absurd rfl (hthrows w error)
  | readAttempts w =>
    simp only [step]
    split
    · next claim error hphase =>
      refine h.enter h.row (by simp) ?_
      intro claim' _ attempts hretrying hid
      cases hretrying
      -- the row still has the attempts of the claim
      obtain ⟨row, hget, hattempts⟩ := hcurrent w claim (by rw [hphase]; rfl)
      have hleft := h.failed w claim error hphase hid
      unfold readAttempts
      rw [hget]
      simpa [hattempts] using hleft
    · exact h
  | retry w now random =>
    simp only [step]
    split
    · next claim error attempts hphase =>
      refine h.enter ?_ (by simp) (by simp)
      refine modify_spared _ h.row ?_
      intro hid row _
      have hleft := h.retrying w claim error attempts hphase hid
      simp [OutboxRow.retried, Nat.not_le.mpr hleft]
    · exact h
  | stop w => exact h.enter h.row (by simp) (by simp)

/-- A worker gives the message up on its last attempt. -/
theorem last_attempt_deadLetter (hcurrent : q.Current) {w : Nat} {claim : OutboxRow}
    (hphase : q.phase w = .running claim)
    (hlast : (workers w).maxAttempts ≤ claim.attempts) (error : String) (now : Int) (random : Rat) :
    (exec (step workers) q [.finish w (.error error), .readAttempts w, .retry w now random]).status
      claim.outboxId = some .deadLetter := by
  obtain ⟨row, hget, hattempts⟩ := hcurrent w claim (by rw [hphase]; rfl)
  have hfinish : step workers q (.finish w (.error error)) = q.enter w (.failed claim error) := by
    simp only [step, hphase]
  have hread : step workers (q.enter w (.failed claim error)) (.readAttempts w) =
      (q.enter w (.failed claim error)).enter w (.retrying claim error claim.attempts) := by
    have hphase' : (q.enter w (.failed claim error)).phase w = .failed claim error :=
      Function.update_self _ _ _
    simp only [step, hphase']
    have houtbox : (q.enter w (.failed claim error)).outbox = q.outbox := rfl
    rw [houtbox, readAttempts, hget]
    simp only [hattempts]
  simp only [exec_cons, exec_nil]
  rw [hfinish, hread]
  generalize hq : (q.enter w (.failed claim error)).enter w
    (.retrying claim error claim.attempts) = q'
  have hphase' : q'.phase w = .retrying claim error claim.attempts := by
    rw [← hq]
    exact Function.update_self _ _ _
  have houtbox : q'.outbox = q.outbox := by
    rw [← hq]
    rfl
  simp only [step, hphase', houtbox]
  unfold Queue.status
  show ((retryOutbox now (delayMs claim.attempts random) claim.outboxId error
    (workers w).maxAttempts claim.attempts q.outbox).get claim.outboxId).map OutboxRow.status = _
  rw [retryOutbox, Table.get_modify_self (OutboxRow.retried_outboxId _ _ _ _ _) hget]
  simp [OutboxRow.retried, hlast]

end

/-! ## Whole runs -/

theorem Queue.Sound.extends {workers : Nat → Worker} {q : Queue} (h : q.Sound workers)
    {outbox : Outbox} (hextends : q.outbox.Extends outbox) :
    ({ q with outbox } : Queue).Sound workers := by
  refine h.of_rows (fun _ _ hclaim => hclaim) ?_
  intro w claim row _ hget
  exact ⟨row, hextends.kept _ _ hget, rfl, fun _ hstatus => ⟨hstatus, rfl⟩⟩

theorem Queue.Current.extends {q : Queue} (h : q.Current) {outbox : Outbox}
    (hextends : q.outbox.Extends outbox) : ({ q with outbox } : Queue).Current :=
  h.of_rows (fun _ _ hclaim => hclaim)
    (fun _ row hget => ⟨row, hextends.kept _ _ hget, rfl⟩)

namespace Delivery
section
variable (s : Service) (workers : Nat → Worker)

/-- What a move does to the queue: a request adds rows, and the rest is an action of the queue. -/
theorem queue_next (d : Delivery) (m : Move) :
    (∃ outbox, d.queue.outbox.Extends outbox ∧
      (d.next s workers m).queue = { d.queue with outbox }) ∨
    (∃ a, m = .work a ∧ (d.next s workers m).queue = step workers d.queue a) ∨
    ∃ w claim, m = .verify w ∧ d.phase w = .running claim ∧
      (d.next s workers m).queue =
        step workers d.queue (.finish w (d.db.verify s.js claim.message)) := by
  cases m with
  | call c =>
    cases c with
    | events r => exact .inl ⟨_, committed_extends fun _ _ => postEvents_extends, rfl⟩
    | proposals r => exact .inl ⟨_, committed_extends fun _ _ => postProposals_extends, rfl⟩
    | reviews r => exact .inl ⟨_, committed_extends fun _ _ => postReviews_extends, rfl⟩
  | outcomes r => exact .inl ⟨_, committed_extends fun _ _ => postOutcomes_extends, rfl⟩
  | append event =>
    simp only [next]
    split
    · next happend => exact .inl ⟨_, extends_of_eq (appendEvent_keeps happend).2, rfl⟩
    · exact .inl ⟨_, .refl _, rfl⟩
  | verify w =>
    simp only [next]
    split
    · next claim hphase => exact .inr (.inr ⟨w, claim, rfl, hphase, rfl⟩)
    · exact .inl ⟨_, .refl _, rfl⟩
  | work a => exact .inr (.inl ⟨a, rfl, rfl⟩)

/-- The workers are in step with the outbox. -/
def Kept (d : Delivery) : Prop := d.queue.Sound workers ∧ d.queue.Current

variable {s workers}

theorem Kept.action {d : Delivery} (h : d.Kept workers) {a : Action} (hexclusive : d.queue.Exclusive a) :
    (step workers d.queue a).Sound workers ∧ (step workers d.queue a).Current :=
  ⟨sound_effect h.1 (step_effect workers d.queue a) (not_endsOvertaken h.2 a),
    current_effect h.1 h.2 (step_effect workers d.queue a) hexclusive⟩

theorem exclusive_finish (q : Queue) (w : Nat) (outcome : Except String Unit) :
    q.Exclusive (.finish w outcome) := by
  intro _ _ _ _ ha
  cases ha

theorem Kept.next {d : Delivery} (h : d.Kept workers) {m : Move} (horderly : d.Orderly m) :
    (d.next s workers m).Kept workers := by
  unfold Kept
  rcases queue_next s workers d m with ⟨outbox, hextends, hqueue⟩ | ⟨a, rfl, hqueue⟩ |
    ⟨w, claim, rfl, _, hqueue⟩
  · rw [hqueue]
    exact ⟨h.1.extends hextends, h.2.extends hextends⟩
  · rw [hqueue]
    refine h.action ?_
    cases a with
    | finish w outcome => exact exclusive_finish _ w outcome
    | completeThrows w error => exact absurd horderly id
    | _ => exact horderly
  · rw [hqueue]
    exact h.action (exclusive_finish _ _ _)

theorem spares_next {d : Delivery} (h : d.Kept workers) {outboxId : String}
    (hspares : d.queue.Spares workers outboxId) {m : Move} (horderly : d.Orderly m)
    (hbound : d.Bound s workers outboxId m) :
    (d.next s workers m).queue.Spares workers outboxId := by
  rcases queue_next s workers d m with ⟨outbox, hextends, hqueue⟩ | ⟨a, rfl, hqueue⟩ |
    ⟨w, claim, rfl, hphase, hqueue⟩
  · rw [hqueue]
    exact hspares.extends hextends
  · rw [hqueue]
    apply spares_step h.2 hspares
    · rintro w error claim rfl
      exact absurd horderly id
    · rintro w error rfl
      exact absurd horderly id
  · rw [hqueue]
    apply spares_step h.2 hspares
    · intro w' error claim' ha hphase' hid
      obtain ⟨rfl, hverify⟩ := Action.finish.inj ha
      have hphase' : d.phase w = .running claim' := hphase'
      rw [hphase] at hphase'
      cases hphase'
      -- the check failed, so this was not the last attempt
      by_contra hlast
      have hbinds := hbound w claim rfl hphase hid (Nat.not_lt.mp hlast)
      rw [(verify_ok_iff s.js).mpr hbinds] at hverify
      cases hverify
    · intro w' error ha
      cases ha

theorem kept_empty : ({} : Delivery).Kept workers := by
  refine ⟨sound_idle (fun _ => rfl), ?_⟩
  intro w claim hclaim
  cases hclaim

theorem spares_empty (outboxId : String) : ({} : Delivery).queue.Spares workers outboxId where
  row row hget := by cases hget
  failed w claim error hphase := by cases hphase
  retrying w claim error attempts hphase := by cases hphase

end
end Delivery

/-- **Deliverability.** Over any interleaving of requests and workers in which no handler throws
and claims end within their leases: a message is never a dead letter while each worker that
checks it on its last attempt finds the state it is bound to. A worker that finds another
version there moves it to DEAD_LETTER. -/
theorem deliverable_until_stale (s : Service) (workers : Nat → Worker) (outboxId : String)
    (moves : List Delivery.Move) :
    (Along (Delivery.next s workers) (fun d m _ => d.Orderly m ∧ d.Bound s workers outboxId m) {}
        moves →
      Along (Delivery.next s workers) (fun _ _ d => d.status outboxId ≠ some .deadLetter) {}
        moves) ∧
    (Along (Delivery.next s workers) (fun d m _ => d.Orderly m) {} moves →
      ∀ d, d = exec (Delivery.next s workers) {} moves →
        ∀ w claim now random, d.phase w = .running claim → claim.outboxId = outboxId →
          (workers w).maxAttempts ≤ claim.attempts → ¬ d.db.Binds s.js claim.message →
          (exec (Delivery.next s workers) d [.verify w, .work (.readAttempts w),
            .work (.retry w now random)]).status outboxId = some .deadLetter) := by
  constructor
  · refine Along.of_invariant
      (I := fun d => d.Kept workers ∧ d.queue.Spares workers outboxId) ?_
      ⟨Delivery.kept_empty, Delivery.spares_empty outboxId⟩
    rintro d m ⟨hkept, hspares⟩ ⟨horderly, hbound⟩
    have hnext := Delivery.spares_next hkept hspares horderly hbound
    refine ⟨?_, hkept.next horderly, hnext⟩
    intro hdead
    obtain ⟨row, hget, hstatus⟩ := Option.map_eq_some_iff.mp hdead
    exact hnext.row row hget hstatus
  · rintro horderly d rfl w claim now random hphase rfl hlast hstale
    have hkept : (exec (Delivery.next s workers) {} moves).Kept workers :=
      Along.invariant (fun d m h horderly => h.next horderly) Delivery.kept_empty horderly
    generalize exec (Delivery.next s workers) {} moves = d at *
    cases hverify : d.db.verify s.js claim.message with
    | ok u => exact absurd ((verify_ok_iff s.js).mp hverify) hstale
    | error error =>
      have hdead := last_attempt_deadLetter hkept.2 hphase hlast error now random
      have hnext : d.next s workers (.verify w) =
          d.withQueue (step workers d.queue (.finish w (.error error))) := by
        unfold Delivery.next
        simp only [hphase, hverify]
      rw [exec_cons, hnext]
      exact hdead

/-! ## Two events on one scope -/

namespace Delivery

/-- What is claimed next, if anything, is claimed for the first time or given back, and no
handler throws. -/
def unhurried (d : Delivery) : Move → Bool
  | .work (.finish _ _) => false
  | .work (.completeThrows _ _) => false
  | .work (.claim _ now locked) =>
    (nextOutbox now locked d.db.outbox).all (fun row => row.status = .pending)
  | _ => true

theorem orderly_of_unhurried {d : Delivery} {m : Move} (h : d.unhurried m = true) :
    d.Orderly m := by
  cases m with
  | work a =>
    cases a with
    | finish w outcome => cases h
    | completeThrows w error => cases h
    | claim w now locked =>
      intro w' now' locked' row ha hnext hprocessing
      cases ha
      have h : (nextOutbox now locked d.db.outbox).all (fun row => row.status = .pending) = true := h
      have hnext : nextOutbox now locked d.db.outbox = some row := hnext
      rw [hnext] at h
      have hpending := of_decide_eq_true h
      rw [hprocessing] at hpending
      cases hpending
    | _ =>
      intro _ _ _ _ ha
      cases ha
  | _ => trivial

end Delivery

/-- One attempt of the first worker, which ends in a retry. -/
def attempt (now : Int) : List Delivery.Move :=
  [.work (.claim 0 now []), .verify 0, .work (.readAttempts 0), .work (.retry 0 now 0)]

/-- Two events are committed before the worker runs, and its five attempts follow. -/
def secondEvent : List Delivery.Move :=
  [.call (.events (observed "key-1" "evt-1" 300 0)),
    .call (.events (observed "key-2" "evt-2" 200 0))] ++
    [0, 30000, 60000, 90000, 120000].flatMap attempt

/-- The message of the first event is a dead letter. -/
theorem second_event_kills_first :
    ¬ ∀ (s : Service) (workers : Nat → Worker) (outboxId : String) (moves : List Delivery.Move),
      Along (Delivery.next s workers) (fun d m _ => d.Orderly m) {} moves →
      Along (Delivery.next s workers) (fun _ _ d => d.status outboxId ≠ some .deadLetter) {}
        moves := by
  intro hall
  have hunhurried : Along (Delivery.next Service.sample twoWorkers)
      (fun d m _ => d.unhurried m = true) {} secondEvent := by
    decide +kernel
  have horderly : Along (Delivery.next Service.sample twoWorkers) (fun d m _ => d.Orderly m) {}
      secondEvent := by
    refine Along.mono ?_ hunhurried
    intro d m h
    exact Delivery.orderly_of_unhurried h
  have hnever := hall Service.sample twoWorkers "outbox-evt-1" secondEvent horderly
  have hdead : ¬ Along (Delivery.next Service.sample twoWorkers)
      (fun _ _ d => d.status "outbox-evt-1" ≠ some .deadLetter) {} secondEvent := by
    decide +kernel
  exact hdead hnever

end Edon.Platform
