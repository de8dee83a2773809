import EdonPlatform.Platform.Agreement
import Mathlib.Data.Rat.Encodable

/- Reviews of proposals under runs of `POST /v1/events`, `/v1/proposals` and `/v1/reviews`.
   A proposal is bound to the state of the scope it was created in, by a hash of the
   relevant part of that state; a review reads the state of the scope it names itself, or
   of the incident of the proposal.

   What is proved:
     1. `no_stale_approval_iff` — over every run, an ALLOW is given only while the state of
        the scope the proposal was created in has the hash of its context, exactly when
        every review that would be allowed reads the relevant state of that scope.
     2. `other_scope_approved` — an ALLOW of a review without a scope, after the state of the scope of
        the proposal has moved.

   A reply that repeats an earlier decision is no review of its own. -/
namespace Edon.Platform
open Transition Js Fallible

inductive Call where
  | events (r : Request)
  | proposals (r : Request)
  | reviews (r : Request)

/-- The database, and the scope each proposal was created in. -/
structure Tenancy where
  db : Db := {}
  createdIn : Dict String String := ∅

section
variable (s : Service)

/-- The database after a handler; one that throws changes nothing. -/
def committed (db : Db) : Except Thrown (Reply × Db) → Db
  | .ok (_, db') => db'
  | .error _ => db

/-- The proposal the request created, with the scope it named. -/
def Request.created (r : Request) (db db' : Db) : Option (String × String) :=
  match r.text s "proposal_id" "PROP-1042", r.text s "scope_id" "memphis-fulfillment" with
  | .ok proposalId, .ok scopeId =>
    if (db.getProposal proposalId).isNone && (db'.getProposal proposalId).isSome then
      some (proposalId, scopeId)
    else none
  | _, _ => none

def Tenancy.call (q : Tenancy) : Call → Tenancy
  | .events r => { q with db := committed q.db (postEvents s r q.db) }
  | .reviews r => { q with db := committed q.db (postReviews s r q.db) }
  | .proposals r =>
    let db := committed q.db (postProposals s r q.db)
    { db
      createdIn := match r.created s q.db db with
        | some (proposalId, scopeId) => q.createdIn.set proposalId scopeId
        | none => q.createdIn }

/-- The review is decided and committed, and the decision on the proposal is ALLOW. -/
structure Request.Allows (r : Request) (db : Db) (p : ActionProposal) : Prop where
  proposal : ∃ id, r.proposalId s = .ok id ∧ db.getProposal id = some p
  decided : ∃ v, checkReview s r p db = .ok (.inr v) ∧
    (v.decision r.approved).disposition = .allow ∧
    ∃ reply db', recordReview s r v db = .ok (reply, db')

/-- An ALLOW of the step, if it gives one, is bound to what the scope of the proposal holds. -/
def Tenancy.Fresh (q : Tenancy) (c : Call) : Prop :=
  ∀ r p, c = .reviews r → r.Allows s q.db p →
    ∃ scopeId, q.createdIn.get p.proposalId = some scopeId ∧
      s.js.stableHash (state s q.db scopeId).values.relevant = p.context.stateHash

/-- What an ALLOW takes: a first review that names the proposal by its hashes and agrees to
it, while the state of the scope it names has the hash of the context, by a reviewer whose
mandate covers the cost, and at a time and under keys the database accepts. -/
structure Request.Approves (r : Request) (db : Db) (p : ActionProposal) (scopeId : String) :
    Prop where
  proposal : ∃ id, r.proposalId s = .ok id ∧ db.getProposal id = some p
  first : replay s r p db = none
  binds : r.binds p = true
  scope : r.text s "scope_id" p.context.incidentId = .ok scopeId
  current : p.context.stateHash = s.js.stableHash (state s db scopeId).values.relevant
  active : p.context.active = true
  mandate : ∃ limit, r.mandate s = some limit ∧ p.modeledCost ≤ limit
  approved : r.approved = true
  model : modelInvalid p = false
  instant : (s.pg.instant r.bind.requestTimestamp).isSome = true
  outbox : (∃ row ∈ db.outbox.rows, row.message.dedupeKey =
      "review:" ++ p.proposalId ++ ":" ++ p.proposalHash.getD "undefined") ∨
    db.outbox.get ("outbox-review-" ++ p.proposalId) = none

/-- A review that would be allowed reads the state the proposal was bound to. -/
def Tenancy.SameState (q : Tenancy) (c : Call) : Prop :=
  ∀ r p scopeId created, c = .reviews r → r.Approves s q.db p scopeId →
    q.createdIn.get p.proposalId = some created →
    (state s q.db scopeId).values.relevant = (state s q.db created).values.relevant

/-! ## Decisions -/

variable {s}

/-- The kernel allows an approved proposal whose cost the mandate covers. The version the
proposal was made at is replaced before the kernel runs, so it is never stale. -/
theorem decision_allow {v : Reviewing}
    (hversion : v.proposal.stateVersion = v.proposal.context.stateVersion) {approved : Bool} :
    (v.decision approved).disposition = .allow ↔ approved = true ∧
      modelInvalid v.proposal = false ∧ v.proposal.modeledCost ≤ v.mandateLimit := by
  have hkernel : ∀ p : ActionProposal, p.stateVersion = v.state.version →
      p.assumptions = v.proposal.assumptions → p.modeledCost = v.proposal.modeledCost →
      ((reevaluate p approved v.state.version v.mandateLimit).disposition = .allow ↔
        approved = true ∧ modelInvalid v.proposal = false ∧
          v.proposal.modeledCost ≤ v.mandateLimit) := by
    intro p hp hassumptions hcost
    have hmodel : modelInvalid p = modelInvalid v.proposal := by
      unfold modelInvalid
      rw [hassumptions]
    unfold reevaluate evaluateAt
    simp only [hp, hmodel, hcost, ne_eq, not_true_eq_false, decide_false, Bool.false_eq_true,
      false_or]
    cases hinvalid : modelInvalid v.proposal with
    | true => simp
    | false =>
      cases approved with
      | false => simp
      | true =>
        by_cases hover : v.mandateLimit < v.proposal.modeledCost
        · simp [hover]
        · simp [hover, not_lt.mp hover]
  unfold Reviewing.decision
  split
  · exact hkernel _ rfl rfl rfl
  · next heq => exact hkernel _ (hversion.trans (not_not.mp heq)) rfl rfl

/-- The checks of a review pass in the order they are made. -/
theorem checkReview_decides {r : Request} {p : ActionProposal} {db : Db} {v : Reviewing} :
    checkReview s r p db = .ok (.inr v) ↔ replay s r p db = none ∧ r.binds p = true ∧
      r.text s "scope_id" p.context.incidentId = .ok v.scopeId ∧
      p.context.stateHash = s.js.stableHash (state s db v.scopeId).values.relevant ∧
      p.context.active = true ∧ r.mandate s = some v.mandateLimit ∧
      v.proposal = p ∧ v.state = state s db v.scopeId := by
  constructor
  · intro h
    unfold checkReview at h
    split at h
    · cases h
    · next hreplay =>
      split at h
      · next hbinds =>
        obtain ⟨scopeId, hscope, h⟩ := bind_ok.mp h
        dsimp only at h
        split at h
        · cases h
        · next hhash =>
          split at h
          · cases h
          · next hactive =>
            split at h
            · cases h
            · next limit hlimit =>
              cases h
              exact ⟨hreplay, hbinds, hscope, not_not.mp hhash, by simpa using hactive, hlimit,
                rfl, rfl⟩
      · cases h
  · obtain ⟨proposal, scopeId, st, limit⟩ := v
    dsimp only
    rintro ⟨hreplay, hbinds, hscope, hhash, hactive, hlimit, rfl, rfl⟩
    unfold checkReview
    rw [hreplay]
    simp only [hbinds, if_true]
    refine bind_ok.mpr ⟨scopeId, hscope, ?_⟩
    simp only [← hhash, ne_eq, not_true_eq_false, if_false, hactive, hlimit, Bool.true_eq_false]

/-- A message is refused when its id is taken and its dedupe key is not. -/
theorem enqueueOutbox_ok (now : Int) {message : OutboxMessage} {outbox : Outbox} :
    (∃ result, enqueueOutbox now message outbox = .ok result) ↔
      (∃ row ∈ outbox.rows, row.message.dedupeKey = message.dedupeKey) ∨
        outbox.get message.outboxId = none := by
  have hany : outbox.rows.any (fun r => r.message.dedupeKey = message.dedupeKey) = true ↔
      ∃ row ∈ outbox.rows, row.message.dedupeKey = message.dedupeKey := by
    simp
  unfold enqueueOutbox
  rw [← hany]
  split
  · next htaken => exact ⟨fun _ => .inl htaken, fun _ => ⟨_, rfl⟩⟩
  · next hfree =>
    split
    · next hinsert =>
      exact ⟨fun _ => .inr (Table.rows_insert hinsert).2, fun _ => ⟨_, rfl⟩⟩
    · next hinsert =>
      constructor
      · rintro ⟨_, h⟩
        cases h
      · rintro (htaken | hnone)
        · exact absurd htaken hfree
        · obtain ⟨_, hinsert'⟩ := Table.insert_of_get (t := outbox)
            (r := { message, availableAt := now, createdAt := now }) hnone
          rw [hinsert] at hinsert'
          cases hinsert'

theorem enqueueOutbox_refused {now : Int} {message : OutboxMessage} {outbox : Outbox} {e : Thrown}
    (h : enqueueOutbox now message outbox = .error e) :
    ¬ ((∃ row ∈ outbox.rows, row.message.dedupeKey = message.dedupeKey) ∨
      outbox.get message.outboxId = none) := by
  intro haccepts
  obtain ⟨_, hok⟩ := (enqueueOutbox_ok now).mpr haccepts
  rw [h] at hok
  cases hok

theorem appendEvent_refused {event : EventEnvelope} {db : Db} {e : Thrown}
    (h : db.appendEvent s.pg event = .error e) : s.pg.instant event.recordedAt = none := by
  rcases bind_error.mp h with h | ⟨_, _, h⟩
  · unfold timestamptz orRaise at h
    split at h
    · cases h
    · assumption
  · cases h

theorem append_right_inj (p : String) {a b : String} : p ++ a = p ++ b ↔ a = b := by
  rw [← String.toList_inj, ← String.toList_inj, String.toList_append, String.toList_append]
  exact List.append_cancel_left_eq _ _ _ |>.to_iff

/-! ## What the handlers leave as it is -/

/-- A relation that the writes to the journal, the snapshots and the outbox respect. -/
structure Db.Frame (R : Db → Db → Prop) : Prop where
  refl : ∀ db, R db db
  trans : ∀ {db db' db''}, R db db' → R db' db'' → R db db''
  journal : ∀ (db : Db) (e : EventEnvelope) journal, db.journal.insert e.journaled = some journal →
    R db { db with journal }
  snapshots : ∀ (db : Db) snapshots, R db { db with snapshots }
  outbox : ∀ (db : Db) outbox, R db { db with outbox }

namespace Db.Frame
variable {R : Db → Db → Prop} {db db' : Db}

theorem appendEvent (hR : Db.Frame R) {e : EventEnvelope} {appended : Bool}
    (h : db.appendEvent s.pg e = .ok (appended, db')) : R db db' := by
  rcases appendEvent_ok h with ⟨_, journal, hinsert, rfl⟩ | ⟨_, rfl⟩
  · exact hR.journal _ _ _ hinsert
  · exact hR.refl _

theorem enqueueOutbox (hR : Db.Frame R) {now : Int} {message : OutboxMessage}
    (h : db.enqueueOutbox now message = .ok db') : R db db' := by
  obtain ⟨_, _, h⟩ := bind_ok.mp h
  cases h
  exact hR.outbox _ _

theorem putState (hR : Db.Frame R) {scopeId : String} {version expectedVersion : Int}
    {values : Value} {stateHash : String}
    (h : db.putState scopeId version expectedVersion values stateHash = some db') : R db db' := by
  unfold Db.putState at h
  dsimp only at h
  split at h
  · split at h
    · split at h <;> cases h
      exact hR.snapshots _ _
    · cases h
      exact hR.snapshots _ _
  · cases h

theorem journalEvidence (hR : Db.Frame R) {event : EventEnvelope} {records : List EvidenceRecord}
    (h : journalEvidence s event records db = .ok db') : R db db' := by
  induction records generalizing db with
  | nil =>
    cases h
    exact hR.refl _
  | cons record records ih =>
    obtain ⟨_, _, h⟩ := bind_ok.mp h
    obtain ⟨⟨_, db₁⟩, happend, h⟩ := bind_ok.mp h
    exact hR.trans (hR.appendEvent happend) (ih h)

theorem advance (hR : Db.Frame R) {r : Request} {event : EventEnvelope} {reply : Reply}
    (h : advance s r event db = .ok (reply, db')) : R db db' := by
  obtain ⟨_, _, h⟩ := bind_ok.mp h
  obtain ⟨⟨_, db₁⟩, happend, h⟩ := bind_ok.mp h
  obtain ⟨db₂, hput, h⟩ := bind_ok.mp h
  obtain ⟨db₃, henqueue, h⟩ := bind_ok.mp h
  cases h
  have hput : R db₁ db₂ := hR.putState (orRaise_ok.mp hput)
  exact hR.trans (hR.appendEvent happend) (hR.trans hput (hR.enqueueOutbox henqueue))

theorem recordObservation (hR : Db.Frame R) {r : Request} {event : EventEnvelope} {reply : Reply}
    (h : recordObservation s r event db = .ok (reply, db')) : R db db' := by
  obtain ⟨⟨appended, db₁⟩, happend, h⟩ := bind_ok.mp h
  have hfirst := hR.appendEvent happend
  cases appended with
  | false =>
    cases h
    exact hfirst
  | true =>
    obtain ⟨db₂, hevidence, h⟩ := bind_ok.mp h
    have hfirst := hR.trans hfirst (hR.journalEvidence hevidence)
    split at h
    · exact hR.trans hfirst (hR.advance h)
    · cases h
      exact hfirst

theorem postEvents (hR : Db.Frame R) (hclaim : ∀ (db : Db) idempotency, R db { db with idempotency })
    {r : Request} {reply : Reply} (h : postEvents s r db = .ok (reply, db')) : R db db' := by
  obtain ⟨event, _, h⟩ := bind_ok.mp h
  unfold submit at h
  split at h
  · cases h
    exact hR.refl _
  · split at h
    · cases h
      exact hR.refl _
    · have hclaimed : R db (db.claimIdempotency ("POST:/v1/events:" ++ r.bind.idempotencyKey)
          event.toJson).2.2 := by
        unfold Db.claimIdempotency
        split
        · exact hclaim _ _
        · exact hR.refl _
      split at h <;> next heq =>
        rw [heq] at hclaimed
        first
        | exact hR.trans hclaimed (hR.recordObservation h)
        | cases h
          exact hclaimed

end Db.Frame

/-- The proposals and the outbox are the same, and what was journaled came from `stored`. -/
structure Db.Keeps (db db' : Db) : Prop where
  proposals : db'.proposals = db.proposals
  journal : ∀ e ∈ db'.journal.rows, e ∈ db.journal.rows ∨ ∃ payload, e.payload = stored payload

theorem Db.Keeps.refl (db : Db) : db.Keeps db := ⟨rfl, fun _ he => .inl he⟩

theorem Db.Keeps.trans {db db' db'' : Db} (h : db.Keeps db') (h' : db'.Keeps db'') :
    db.Keeps db'' := by
  refine ⟨h'.proposals.trans h.proposals, ?_⟩
  intro e he
  rcases h'.journal e he with he | hstored
  · exact h.journal e he
  · exact .inr hstored

theorem appendEvent_keeps {e : EventEnvelope} {db db' : Db} {appended : Bool}
    (h : db.appendEvent s.pg e = .ok (appended, db')) : db.Keeps db' ∧ db'.outbox = db.outbox := by
  rcases appendEvent_ok h with ⟨_, journal, hinsert, rfl⟩ | ⟨_, rfl⟩
  · refine ⟨⟨rfl, ?_⟩, rfl⟩
    intro x hx
    rcases (Table.mem_insert hinsert).mp hx with hx | rfl
    · exact .inl hx
    · exact .inr ⟨e.payload, rfl⟩
  · exact ⟨.refl _, rfl⟩

theorem putKernelDecision_keeps {d : StoredKernelDecision} {db db' : Db}
    (h : db.putKernelDecision s.pg d = .ok db') : db.Keeps db' ∧ db'.outbox = db.outbox := by
  obtain ⟨_, _, h⟩ := bind_ok.mp h
  cases h
  split <;> exact ⟨⟨rfl, fun _ => .inl⟩, rfl⟩

theorem enqueueOutbox_keeps {now : Int} {message : OutboxMessage} {db db' : Db}
    (h : db.enqueueOutbox now message = .ok db') : db.Keeps db' := by
  obtain ⟨_, _, h⟩ := bind_ok.mp h
  cases h
  exact ⟨rfl, fun _ => .inl⟩

theorem putReview_keeps (review : StoredReview) (db : Db) :
    db.Keeps (db.putReview review) ∧ (db.putReview review).outbox = db.outbox := by
  unfold Db.putReview
  split <;> exact ⟨⟨rfl, fun _ => .inl⟩, rfl⟩

theorem claimIdempotency_keeps (key : String) (response : Value) (db : Db) :
    db.Keeps (db.claimIdempotency key response).2.2 ∧
      (db.claimIdempotency key response).2.2.outbox = db.outbox := by
  unfold Db.claimIdempotency
  split <;> exact ⟨⟨rfl, fun _ => .inl⟩, rfl⟩

/-- What was written before the message is put into the outbox. -/
theorem recordReview_keeps {r : Request} {v : Reviewing} {db db' : Db} {reply : Reply}
    (h : recordReview s r v db = .ok (reply, db')) : db.Keeps db' := by
  obtain ⟨db₁, hdecision, h⟩ := bind_ok.mp h
  obtain ⟨⟨_, db₂⟩, happend, h⟩ := bind_ok.mp h
  obtain ⟨db₃, henqueue, h⟩ := bind_ok.mp h
  cases h
  exact (putKernelDecision_keeps hdecision).1.trans <| (putReview_keeps _ _).1.trans <|
    (claimIdempotency_keeps _ _ _).1.trans <| (appendEvent_keeps happend).1.trans <|
    enqueueOutbox_keeps henqueue

/-- A decision is committed when the database accepts the time and the message. -/
theorem recordReview_ok {r : Request} {v : Reviewing} {db : Db} :
    (∃ reply db', recordReview s r v db = .ok (reply, db')) ↔
      (s.pg.instant r.bind.requestTimestamp).isSome = true ∧
        ((∃ row ∈ db.outbox.rows, row.message.dedupeKey =
          "review:" ++ v.proposal.proposalId ++ ":" ++ v.proposal.proposalHash.getD "undefined") ∨
        db.outbox.get ("outbox-review-" ++ v.proposal.proposalId) = none) := by
  constructor
  · rintro ⟨reply, db', h⟩
    obtain ⟨db₁, hdecision, h⟩ := bind_ok.mp h
    obtain ⟨⟨_, db₂⟩, happend, h⟩ := bind_ok.mp h
    obtain ⟨db₃, henqueue, _⟩ := bind_ok.mp h
    obtain ⟨result, henqueue, _⟩ := bind_ok.mp henqueue
    have hframe : db₂.outbox = db.outbox :=
      (appendEvent_keeps happend).2.trans <| (claimIdempotency_keeps _ _ _).2.trans <|
        (putReview_keeps _ _).2.trans (putKernelDecision_keeps hdecision).2
    obtain ⟨time, htime, _⟩ := bind_ok.mp hdecision
    refine ⟨Option.isSome_iff_exists.mpr ⟨time, orRaise_ok.mp htime⟩, ?_⟩
    have houtbox := (enqueueOutbox_ok _).mp ⟨_, henqueue⟩
    rw [hframe] at houtbox
    exact houtbox
  · rintro ⟨hinstant, houtbox⟩
    obtain ⟨time, htime⟩ := Option.isSome_iff_exists.mp hinstant
    -- no statement of the handler can fail
    cases hresult : recordReview s r v db with
    | ok result => exact ⟨result.1, result.2, rfl⟩
    | error e =>
      exfalso
      rcases bind_error.mp hresult with h | ⟨db₁, hdecision, h⟩
      · rcases bind_error.mp h with h | ⟨_, _, h⟩
        · unfold timestamptz at h
          rw [htime] at h
          cases h
        · cases h
      rcases bind_error.mp h with happend | ⟨⟨_, db₂⟩, happend, h⟩
      · have hnone : s.pg.instant r.bind.requestTimestamp = none := appendEvent_refused happend
        rw [htime] at hnone
        cases hnone
      have hframe : db₂.outbox = db.outbox :=
        (appendEvent_keeps happend).2.trans <| (claimIdempotency_keeps _ _ _).2.trans <|
          (putReview_keeps _ _).2.trans (putKernelDecision_keeps hdecision).2
      rcases bind_error.mp h with h | ⟨_, _, h⟩
      · rcases bind_error.mp h with h | ⟨_, _, h⟩
        · rw [← hframe] at houtbox
          exact enqueueOutbox_refused h houtbox
        · cases h
      · cases h

theorem keeps_frame : Db.Frame Db.Keeps where
  refl := .refl
  trans := .trans
  journal _ e _ hinsert := by
    refine ⟨rfl, ?_⟩
    intro x hx
    rcases (Table.mem_insert hinsert).mp hx with hx | rfl
    · exact .inl hx
    · exact .inr ⟨e.payload, rfl⟩
  snapshots _ _ := ⟨rfl, fun _ => .inl⟩
  outbox _ _ := ⟨rfl, fun _ => .inl⟩

theorem postEvents_keeps {r : Request} {db db' : Db} {reply : Reply}
    (h : postEvents s r db = .ok (reply, db')) : db.Keeps db' :=
  keeps_frame.postEvents (fun _ _ => ⟨rfl, fun _ => .inl⟩) h

theorem postReviews_keeps {r : Request} {db db' : Db} {reply : Reply}
    (h : postReviews s r db = .ok (reply, db')) : db.Keeps db' := by
  obtain ⟨proposalId, _, h⟩ := bind_ok.mp h
  split at h
  · cases h
    exact .refl _
  · obtain ⟨result, _, h⟩ := bind_ok.mp h
    cases result with
    | inl reply' =>
      cases h
      exact .refl _
    | inr v => exact recordReview_keeps h

/-! ## Proposals -/

theorem generate_ok {r : Request} {st : State} {release : C1ModelRelease}
    {capability : C1Capability} {records : List EvidenceRecord} {p : ActionProposal}
    (h : generate s r st release capability records = .ok p) :
    r.text s "proposal_id" "PROP-1042" = .ok p.proposalId ∧
      p.stateVersion = p.context.stateVersion := by
  obtain ⟨proposalId, hproposal, h⟩ := bind_ok.mp h
  obtain ⟨_, _, h⟩ := bind_ok.mp h
  obtain ⟨_, _, h⟩ := bind_ok.mp h
  obtain ⟨_, _, h⟩ := bind_ok.mp h
  obtain ⟨_, _, h⟩ := bind_ok.mp h
  obtain ⟨_, _, h⟩ := bind_ok.mp h
  cases h
  exact ⟨hproposal, rfl⟩

/-- A proposal is put under an id that was free. -/
theorem recordProposal_effect {r : Request} {scopeId : String} {version : Int}
    {release : C1ModelRelease} {p : ActionProposal} {db db' : Db} {reply : Reply}
    (hfree : db.getProposal p.proposalId = none)
    (h : recordProposal s r scopeId version release p db = .ok (reply, db')) :
    ∃ proposals, db.proposals.insert p = some proposals ∧
      ({ db with proposals } : Db).Keeps db' := by
  obtain ⟨proposals, hinsert⟩ := Table.insert_of_get (t := db.proposals) (r := p) hfree
  refine ⟨proposals, hinsert, ?_⟩
  have hput : db.putProposal p = { db with proposals } := by
    unfold Db.putProposal
    rw [hinsert]
  obtain ⟨db₁, hdecision, h⟩ := bind_ok.mp h
  obtain ⟨⟨_, db₂⟩, hproposed, h⟩ := bind_ok.mp h
  obtain ⟨⟨_, db₃⟩, hdecided, h⟩ := bind_ok.mp h
  obtain ⟨db₄, henqueue, h⟩ := bind_ok.mp h
  cases h
  rw [hput] at hdecision
  exact (putKernelDecision_keeps hdecision).1.trans <| (appendEvent_keeps hproposed).1.trans <|
    (appendEvent_keeps hdecided).1.trans <| enqueueOutbox_keeps henqueue

/-- At most one proposal is added: that of the request, made in the scope it names. -/
theorem postProposals_effect {r : Request} {db db' : Db} {reply : Reply}
    (h : postProposals s r db = .ok (reply, db')) :
    db.Keeps db' ∨ ∃ scopeId p proposals,
      r.text s "scope_id" "memphis-fulfillment" = .ok scopeId ∧
      r.text s "proposal_id" "PROP-1042" = .ok p.proposalId ∧
      db.proposals.insert p = some proposals ∧ p.stateVersion = p.context.stateVersion ∧
      ({ db with proposals } : Db).Keeps db' := by
  obtain ⟨scopeId, hscope, h⟩ := bind_ok.mp h
  dsimp only at h
  split at h
  · cases h
    exact .inl (.refl _)
  split at h
  · cases h
    exact .inl (.refl _)
  obtain ⟨active, _, h⟩ := bind_ok.mp h
  split at h
  · cases h
    exact .inl (.refl _)
  split at h
  · cases h
    exact .inl (.refl _)
  obtain ⟨p, hgenerate, h⟩ := bind_ok.mp h
  obtain ⟨hproposal, hversion⟩ := generate_ok hgenerate
  split at h
  · cases h
    exact .inl (.refl _)
  · next hfree =>
    obtain ⟨proposals, hinsert, hkeeps⟩ :=
      recordProposal_effect (p := bindProposal s p _) hfree h
    exact .inr ⟨scopeId, bindProposal s p _, proposals, hscope, hproposal, hinsert, hversion, hkeeps⟩

/-! ## Allowed reviews -/

theorem allows_iff {r : Request} {db : Db} {p : ActionProposal}
    (hversion : p.stateVersion = p.context.stateVersion) :
    r.Allows s db p ↔ ∃ scopeId, r.Approves s db p scopeId := by
  constructor
  · rintro ⟨hproposal, v, hcheck, hallow, hcommits⟩
    obtain ⟨hfirst, hbinds, hscope, hcurrent, hactive, hmandate, rfl, hstate⟩ :=
      checkReview_decides.mp hcheck
    obtain ⟨happroved, hmodel, hcost⟩ := (decision_allow hversion).mp hallow
    obtain ⟨hinstant, houtbox⟩ := recordReview_ok.mp hcommits
    exact ⟨v.scopeId, hproposal, hfirst, hbinds, hscope, hcurrent, hactive,
      ⟨v.mandateLimit, hmandate, hcost⟩, happroved, hmodel, hinstant, houtbox⟩
  · rintro ⟨scopeId, h⟩
    obtain ⟨limit, hmandate, hcost⟩ := h.mandate
    refine ⟨h.proposal, ⟨p, scopeId, state s db scopeId, limit⟩, ?_, ?_, ?_⟩
    · exact checkReview_decides.mpr
        ⟨h.first, h.binds, h.scope, h.current, h.active, hmandate, rfl, rfl⟩
    · exact (decision_allow hversion).mpr ⟨h.approved, h.model, hcost⟩
    · exact recordReview_ok.mpr ⟨h.instant, h.outbox⟩

/-! ## Runs -/

/-- The numbers of the state are finite, and every proposal has a scope it was created in. -/
structure Tenancy.Tracked (q : Tenancy) : Prop where
  stored : ∀ e ∈ q.db.journal.rows, ∃ payload, e.payload = stored payload
  created : ∀ p ∈ q.db.proposals.rows, (q.createdIn.get p.proposalId).isSome = true
  version : ∀ p ∈ q.db.proposals.rows, p.stateVersion = p.context.stateVersion

theorem tracked_empty : ({} : Tenancy).Tracked where
  stored := by simp
  created := by simp
  version := by simp

theorem tracked_keeps {q : Tenancy} {db : Db} (h : q.Tracked) (hkeeps : q.db.Keeps db) :
    ({ q with db } : Tenancy).Tracked := by
  refine ⟨?_, ?_, ?_⟩
  · intro e he
    rcases hkeeps.journal e he with he | hstored
    · exact h.stored e he
    · exact hstored
  · intro p hp
    exact h.created p (hkeeps.proposals ▸ hp)
  · intro p hp
    exact h.version p (hkeeps.proposals ▸ hp)

theorem keeps_committed {db : Db} {result : Except Thrown (Reply × Db)}
    (h : ∀ reply db', result = .ok (reply, db') → db.Keeps db') :
    db.Keeps (committed db result) := by
  cases result with
  | error e => exact .refl _
  | ok result => exact h result.1 result.2 rfl

theorem created_keeps {r : Request} {db db' : Db} (h : db.Keeps db') :
    r.created s db db' = none := by
  unfold Request.created Db.getProposal
  rw [h.proposals]
  split
  · next id scopeId _ _ => cases db.proposals.get id <;> simp
  · rfl

theorem created_insert {r : Request} {db db' : Db} {p : ActionProposal} {scopeId : String}
    {proposals : Table ActionProposal.proposalId} (hinsert : db.proposals.insert p = some proposals)
    (hproposal : r.text s "proposal_id" "PROP-1042" = .ok p.proposalId)
    (hscope : r.text s "scope_id" "memphis-fulfillment" = .ok scopeId)
    (h : db'.proposals = proposals) : r.created s db db' = some (p.proposalId, scopeId) := by
  unfold Request.created Db.getProposal
  have hbefore : db.proposals.get p.proposalId = none := (Table.rows_insert hinsert).2
  have hafter : proposals.get p.proposalId = some p := by
    rw [Table.get_insert hinsert, if_pos rfl]
  simp [hproposal, hscope, h, hbefore, hafter]

theorem tracked_call {q : Tenancy} (h : q.Tracked) (c : Call) : (q.call s c).Tracked := by
  cases c with
  | events r => exact tracked_keeps h (keeps_committed fun _ _ => postEvents_keeps)
  | reviews r => exact tracked_keeps h (keeps_committed fun _ _ => postReviews_keeps)
  | proposals r =>
    have still : q.db.Keeps (committed q.db (postProposals s r q.db)) →
        (q.call s (.proposals r)).Tracked := by
      intro hkeeps
      unfold Tenancy.call
      dsimp only
      rw [created_keeps hkeeps]
      exact tracked_keeps h hkeeps
    cases hpost : postProposals s r q.db with
    | error e =>
      apply still
      rw [hpost]
      exact .refl _
    | ok result =>
      obtain ⟨reply, db'⟩ := result
      rcases postProposals_effect hpost with hkeeps |
        ⟨scopeId, p, proposals, hscope, hproposal, hinsert, hversion, hkeeps⟩
      · apply still
        rw [hpost]
        exact hkeeps
      · have hcall : q.call s (.proposals r) =
            { db := db', createdIn := q.createdIn.set p.proposalId scopeId } := by
          unfold Tenancy.call
          dsimp only
          rw [hpost]
          simp only [committed, created_insert hinsert hproposal hscope hkeeps.proposals]
        rw [hcall]
        -- the proposals before, with the new one and its scope
        refine ⟨?_, ?_, ?_⟩
        · intro e he
          rcases hkeeps.journal e he with he | hstored
          · exact h.stored e he
          · exact hstored
        · intro x hx
          show ((q.createdIn.set p.proposalId scopeId).get x.proposalId).isSome = true
          rw [Dict.get_set]
          split
          · rfl
          · next hne =>
            rw [hkeeps.proposals] at hx
            rcases (Table.mem_insert hinsert).mp hx with hx | rfl
            · exact h.created x hx
            · exact absurd rfl hne
        · intro x hx
          rw [hkeeps.proposals] at hx
          rcases (Table.mem_insert hinsert).mp hx with hx | rfl
          · exact h.version x hx
          · exact hversion

theorem number_field_stored {v : Value} {key : String} {n : Number}
    (h : number (field (stored v) key) = some n) : ∃ q, n = .finite q := by
  rw [field_stored] at h
  cases hfield : field v key with
  | none =>
    rw [hfield] at h
    cases h
  | some w =>
    rw [hfield] at h
    cases w with
    | num m =>
      have h := (number_stored m).symm.trans h
      cases m with
      | finite q => exact ⟨q, (Option.some.inj h).symm⟩
      | _ => cases h
    | _ => cases h

/-- The numbers of a state are finite: they were read from the journal. -/
theorem state_finite {q : Tenancy} (h : q.Tracked) (scopeId : String) : ∃ a b : Rat,
    (state s q.db scopeId).values.memphisCapacity = .finite a ∧
      (state s q.db scopeId).values.commitmentsAtRisk = .finite b := by
  unfold state
  rcases project_cases s.js ((q.db.getEvents s.pg none).filter fun e => e.scopeId = scopeId) with
    ⟨hinitial, _⟩ | ⟨e, he, haccepted, hof, _⟩
  · rw [hinitial]
    exact ⟨480, 0, rfl, rfl⟩
  · rw [hof]
    obtain ⟨payload, hpayload⟩ := h.stored e ((mem_events s).mp he).1
    obtain ⟨_, _, hsome⟩ := of_decide_eq_true haccepted
    obtain ⟨⟨capacity, commitments⟩, hprojected⟩ := Option.isSome_iff_exists.mp hsome
    unfold State.of
    rw [hprojected]
    unfold projected at hprojected
    rw [hpayload] at hprojected
    split at hprojected
    · next hcapacity hcommitments =>
      split at hprojected <;> cases hprojected
      obtain ⟨a, rfl⟩ := number_field_stored hcapacity
      obtain ⟨b, rfl⟩ := number_field_stored hcommitments
      exact ⟨a, b, rfl, rfl⟩
    · cases hprojected

end

/-- **No stale approval.** Over every run, each ALLOW is given while the state of the scope the
proposal was created in has the hash of its context, exactly when each review that would be
allowed reads the relevant state of that scope. -/
theorem no_stale_approval_iff (s : Service)
    (hash : ∀ a b c d : Rat, s.js.stableHash (StateValues.relevant ⟨.finite a, "", .finite b⟩) =
      s.js.stableHash (StateValues.relevant ⟨.finite c, "", .finite d⟩) → a = c ∧ b = d)
    (calls : List Call) :
    Along (Tenancy.call s) (fun q c _ => q.Fresh s c) {} calls ↔
      Along (Tenancy.call s) (fun q c _ => q.SameState s c) {} calls := by
  have step : ∀ q : Tenancy, q.Tracked → ∀ c, q.Fresh s c ↔ q.SameState s c := by
    intro q h c
    constructor
    · intro hfresh r p scopeId created hc happroves hcreated
      obtain ⟨_, _, hproposal⟩ := happroves.proposal
      have hversion := h.version p (Table.mem_of_get hproposal)
      obtain ⟨created', hcreated', hhash⟩ :=
        hfresh r p hc ((allows_iff hversion).mpr ⟨scopeId, happroves⟩)
      rw [hcreated] at hcreated'
      cases hcreated'
      -- both states have the hash of the context
      have hhash := happroves.current.symm.trans hhash.symm
      obtain ⟨a, b, ha, hb⟩ := state_finite (s := s) h scopeId
      obtain ⟨c, d, hc, hd⟩ := state_finite (s := s) h created
      unfold StateValues.relevant at hhash ⊢
      rw [ha, hb, hc, hd] at hhash ⊢
      obtain ⟨rfl, rfl⟩ := hash a b c d hhash
      rfl
    · intro hsame r p hc hallows
      obtain ⟨_, _, hproposal⟩ := hallows.proposal
      have hmem := Table.mem_of_get hproposal
      obtain ⟨scopeId, happroves⟩ := (allows_iff (h.version p hmem)).mp hallows
      obtain ⟨created, hcreated⟩ := Option.isSome_iff_exists.mp (h.created p hmem)
      refine ⟨created, hcreated, ?_⟩
      rw [happroves.current, hsame r p scopeId created hc happroves hcreated]
  constructor
  · apply Along.of_invariant (I := Tenancy.Tracked) _ tracked_empty
    intro q c h hfresh
    exact ⟨(step q h c).mp hfresh, tracked_call h c⟩
  · apply Along.of_invariant (I := Tenancy.Tracked) _ tracked_empty
    intro q c h hsame
    exact ⟨(step q h c).mpr hsame, tracked_call h c⟩

def sampleBinding : RequestBinding :=
  ⟨"operator", "corr-1", "trace-1", "key-1", none, "2026-09-24T00:00:00Z"⟩

def sampleProposal : Request where
  body := .obj []
  bind := sampleBinding
  principal := ⟨"operator", "HUMAN", none⟩
  now := 0

/-- A service whose hash tells the numbers of a state apart. -/
def Service.injective : Service :=
  { Service.sample with
    js := { Runtime.sample with
      stableHash
        | .obj [(_, .num (.finite a)), (_, .num (.finite b))] =>
          String.ofList (List.replicate (Encodable.encode (a, b)) 'x')
        | _ => "" } }

theorem no_stale_approval_sample :
    Along (Tenancy.call Service.injective) (fun q c _ => q.Fresh Service.injective c) {}
        [.proposals sampleProposal, .events (observed "key-2" "evt-1" 100 0)] ↔
      Along (Tenancy.call Service.injective) (fun q c _ => q.SameState Service.injective c) {}
        [.proposals sampleProposal, .events (observed "key-2" "evt-1" 100 0)] := by
  apply no_stale_approval_iff
  intro a b c d h
  have hlength := congrArg String.length h
  simp only [StateValues.relevant, Service.injective, String.length_ofList,
    List.length_replicate] at hlength
  have hpair := Encodable.encode_injective hlength
  exact Prod.mk.inj hpair

section
variable (s : Service)

/-- `Request.Allows`, of a proposal that is stored. -/
def Request.allowed (r : Request) (db : Db) (p : ActionProposal) : Bool :=
  match checkReview s r p db with
  | .ok (.inr v) => (v.decision r.approved).disposition = .allow && (recordReview s r v db).isOk
  | _ => false

theorem allows_of_allowed {r : Request} {db : Db} {p : ActionProposal} {id : String}
    (hid : r.proposalId s = .ok id) (hproposal : db.getProposal id = some p)
    (h : r.allowed s db p = true) : r.Allows s db p := by
  unfold Request.allowed at h
  split at h
  · next v hcheck =>
    obtain ⟨hallow, hcommits⟩ := Bool.and_eq_true_iff.mp h
    refine ⟨⟨id, hid, hproposal⟩, v, hcheck, of_decide_eq_true hallow, ?_⟩
    cases hrecord : recordReview s r v db with
    | ok result => exact ⟨result.1, result.2, rfl⟩
    | error e =>
      rw [hrecord] at hcommits
      cases hcommits
  · cases h

end

/-- It names no scope, so the scope of the incident is read. -/
def sampleReview : Request where
  body := .obj [("proposal_id", .str "PROP-1042"), ("proposal_hash", .str "hash-0"),
    ("context_hash", .str "hash-480"), ("approved", .bool true)]
  bind := sampleBinding
  principal := ⟨"operator", "HUMAN", some ⟨true, none, none⟩⟩
  now := 0

/-- A proposal in the default scope, and then the fall of its capacity. -/
def sampleTenancy : Tenancy :=
  (Tenancy.call Service.sample {} (.proposals sampleProposal)).call Service.sample
    (.events (observed "key-2" "evt-1" 100 0))

/-- The review is allowed although the capacity of the scope of the proposal has moved. -/
theorem other_scope_approved : ¬ Along (Tenancy.call Service.sample)
    (fun q c _ => q.Fresh Service.sample c) {}
    [.proposals sampleProposal, .events (observed "key-2" "evt-1" 100 0), .reviews sampleReview] := by
  rintro ⟨_, _, hfresh, _⟩
  have htest : (sampleTenancy.db.getProposal "PROP-1042").any (fun p =>
      sampleReview.allowed Service.sample sampleTenancy.db p &&
      sampleTenancy.createdIn.get p.proposalId = some "memphis-fulfillment" &&
      Service.sample.js.stableHash (state Service.sample sampleTenancy.db
        "memphis-fulfillment").values.relevant ≠ p.context.stateHash) = true := by
    decide +kernel
  obtain ⟨p, hp, htest⟩ := (Option.any_eq_true _ _).mp htest
  simp only [Bool.and_eq_true, decide_eq_true_eq] at htest
  obtain ⟨⟨hallowed, hcreated⟩, hmoved⟩ := htest
  obtain ⟨scopeId, hscope, hhash⟩ := hfresh sampleReview p rfl (allows_of_allowed _ rfl hp hallowed)
  have hscope : sampleTenancy.createdIn.get p.proposalId = some scopeId := hscope
  rw [hcreated] at hscope
  cases hscope
  exact hmoved hhash

end Edon.Platform
