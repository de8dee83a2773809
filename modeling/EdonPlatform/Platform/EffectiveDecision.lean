import EdonPlatform.Platform.Review

/- The decision on a reviewed proposal, as `getKernelDecision` reads it, under runs of
   `POST /v1/events`, `/v1/proposals` and `/v1/reviews`. The decision of a review is dropped
   where its id is taken, and the one that is read is the last in the order of the times the
   clients gave.

   What is proved:
     1. `effective_decision_iff` — over every run the decision of a committed review is the one
        that is read from then on, exactly when each review that commits finds its id free and
        no decision on the proposal after it.
     2. `earlier_review_ineffective` — a review that names an earlier time than the proposal. -/
namespace Edon.Platform
open Transition Js Fallible

/-- The database, and the decisions of the reviews that were committed. -/
structure Docket where
  db : Db := {}
  decided : List (String × KernelDecision) := []

/-- `decision_id` of the decision a review of the proposal makes. -/
def reviewDecisionId (proposalId : String) : String :=
  "DEC-" ++ proposalId ++ "-" ++ ("review-" ++ proposalId)

def initialDecisionId (proposalId : String) : String := "DEC-" ++ proposalId ++ "-" ++ "initial"

section
variable (s : Service)

/-- The proposal the request reviews and the decision on it, where one is committed. -/
def Request.decided (r : Request) (db : Db) : Option (ActionProposal × KernelDecision) :=
  match r.proposalId s with
  | .error _ => none
  | .ok proposalId =>
    match db.getProposal proposalId with
    | none => none
    | some p =>
      match checkReview s r p db with
      | .ok (.inr v) =>
        if (recordReview s r v db).isOk then some (p, v.decision r.approved) else none
      | _ => none

def Docket.call (q : Docket) : Call → Docket
  | .events r => { q with db := committed q.db (postEvents s r q.db) }
  | .proposals r => { q with db := committed q.db (postProposals s r q.db) }
  | .reviews r =>
    { db := committed q.db (postReviews s r q.db)
      decided := match r.decided s q.db with
        | some (p, decision) => (p.proposalId, decision) :: q.decided
        | none => q.decided }

/-- Every reviewed proposal has the decision of its review. -/
def Docket.Effective (q : Docket) : Prop :=
  ∀ e ∈ q.decided, (q.db.getKernelDecision s.pg e.1).map StoredKernelDecision.decision = some e.2

/-- The decision is recorded before the request, in the order of the times and the ids. -/
def Request.After (r : Request) (p : ActionProposal) (old : StoredKernelDecision) : Prop :=
  (s.pg.instant old.recordedAt).getD 0 < (s.pg.instant r.bind.requestTimestamp).getD 0 ∨
    ((s.pg.instant old.recordedAt).getD 0 = (s.pg.instant r.bind.requestTimestamp).getD 0 ∧
      s.pg.collate old.decisionId (reviewDecisionId p.proposalId) = true)

/-- A review that commits finds its id free, and every decision on the proposal before it. -/
def Docket.Settled (q : Docket) (c : Call) : Prop :=
  ∀ r p decision, c = .reviews r → r.decided s q.db = some (p, decision) →
    q.db.decisions.get (reviewDecisionId p.proposalId) = none ∧
      ∀ old ∈ q.db.decisions.rows, old.decision.proposalId = p.proposalId → r.After s p old

end

/-! ## What the handlers do to the decisions -/

/-- The tables of proposals, reviews and decisions are the same. -/
structure Db.SameRecords (db db' : Db) : Prop where
  proposals : db'.proposals = db.proposals
  reviews : db'.reviews = db.reviews
  decisions : db'.decisions = db.decisions

theorem sameRecords_frame : Db.Frame Db.SameRecords where
  refl _ := ⟨rfl, rfl, rfl⟩
  trans h h' := ⟨h'.proposals.trans h.proposals, h'.reviews.trans h.reviews,
    h'.decisions.trans h.decisions⟩
  journal _ _ _ _ := ⟨rfl, rfl, rfl⟩
  snapshots _ _ := ⟨rfl, rfl, rfl⟩
  outbox _ _ := ⟨rfl, rfl, rfl⟩

/-- The decision is added, or dropped where its id is taken. -/
def Db.Decides (db : Db) (d : StoredKernelDecision) (db' : Db) : Prop :=
  db.decisions.insert d = some db'.decisions ∨
    db.decisions.get d.decisionId ≠ none ∧ db'.decisions = db.decisions

section
variable {s : Service} {db db' : Db}

theorem putKernelDecision_decides {d : StoredKernelDecision}
    (h : db.putKernelDecision s.pg d = .ok db') :
    db.Decides d db' ∧ db'.proposals = db.proposals ∧ db'.reviews = db.reviews := by
  obtain ⟨_, _, h⟩ := bind_ok.mp h
  have h := Except.ok.inj h
  split at h
  · next hinsert =>
    cases h
    exact ⟨.inl hinsert, rfl, rfl⟩
  · next hinsert =>
    cases h
    exact ⟨.inr ⟨Table.get_of_insert hinsert, rfl⟩, rfl, rfl⟩

theorem Db.Decides.then {d : StoredKernelDecision} {db'' : Db} (h : db.Decides d db')
    (hsame : db''.decisions = db'.decisions) : db.Decides d db'' := by
  unfold Db.Decides at h ⊢
  rw [hsame]
  exact h

/-- A new proposal gets its first decision. -/
structure Db.Proposes (db : Db) (p : ActionProposal) (d : StoredKernelDecision) (db' : Db) :
    Prop where
  proposals : db.proposals.insert p = some db'.proposals
  reviews : db'.reviews = db.reviews
  decides : db.Decides d db'
  proposalId : d.decision.proposalId = p.proposalId
  decisionId : d.decisionId = initialDecisionId p.proposalId

theorem recordProposal_proposes {r : Request} {scopeId : String} {version : Int}
    {release : C1ModelRelease} {p : ActionProposal} {reply : Reply}
    (hfree : db.getProposal p.proposalId = none)
    (h : recordProposal s r scopeId version release p db = .ok (reply, db')) :
    ∃ d, db.Proposes p d db' := by
  obtain ⟨proposals, hinsert⟩ := Table.insert_of_get (t := db.proposals) (r := p) hfree
  have hput : db.putProposal p = { db with proposals } := by
    unfold Db.putProposal
    rw [hinsert]
  obtain ⟨db₁, hdecision, h⟩ := bind_ok.mp h
  obtain ⟨⟨_, db₂⟩, hproposed, h⟩ := bind_ok.mp h
  obtain ⟨⟨_, db₃⟩, hdecided, h⟩ := bind_ok.mp h
  obtain ⟨db₄, henqueue, h⟩ := bind_ok.mp h
  cases h
  rw [hput] at hdecision
  obtain ⟨hdecides, hproposals, hreviews⟩ := putKernelDecision_decides hdecision
  have hsame : db₁.SameRecords db' := sameRecords_frame.trans
    (sameRecords_frame.appendEvent hproposed) (sameRecords_frame.trans
      (sameRecords_frame.appendEvent hdecided) (sameRecords_frame.enqueueOutbox henqueue))
  exact ⟨_,
    { proposals := by rw [hsame.proposals, hproposals]; exact hinsert
      reviews := hsame.reviews.trans hreviews
      decides := hdecides.then hsame.decisions
      proposalId := rfl
      decisionId := rfl }⟩

theorem postProposals_records {r : Request} {reply : Reply}
    (h : postProposals s r db = .ok (reply, db')) :
    db.SameRecords db' ∨ ∃ p d, db.Proposes p d db' := by
  obtain ⟨scopeId, _, h⟩ := bind_ok.mp h
  dsimp only at h
  split at h
  · cases h
    exact .inl (sameRecords_frame.refl _)
  split at h
  · cases h
    exact .inl (sameRecords_frame.refl _)
  obtain ⟨active, _, h⟩ := bind_ok.mp h
  split at h
  · cases h
    exact .inl (sameRecords_frame.refl _)
  split at h
  · cases h
    exact .inl (sameRecords_frame.refl _)
  obtain ⟨p, _, h⟩ := bind_ok.mp h
  split at h
  · cases h
    exact .inl (sameRecords_frame.refl _)
  · next hfree =>
    obtain ⟨d, hproposes⟩ := recordProposal_proposes (p := bindProposal s p _) hfree h
    exact .inr ⟨_, d, hproposes⟩

/-- A committed review adds its decision, and is the review of its proposal from then on. -/
structure Request.Reviews (s : Service) (r : Request) (db : Db) (p : ActionProposal)
    (decision : KernelDecision) (db' : Db) : Prop where
  proposal : db.getProposal p.proposalId = some p
  first : replay s r p db = none
  proposals : db'.proposals = db.proposals
  reviews : ∃ review : StoredReview, review.proposalId = p.proposalId ∧
    review.reviewId = "review-" ++ p.proposalId ∧
    (db.reviews.insert review = some db'.reviews ∨
      db.reviews.get review.reviewId ≠ none ∧ db'.reviews = db.reviews)
  decides : db.Decides ⟨decision, r.bind.requestTimestamp⟩ db'
  proposalId : decision.proposalId = p.proposalId
  decisionId : decision.decisionId = reviewDecisionId p.proposalId

theorem decision_ids (v : Reviewing) (approved : Bool) :
    (v.decision approved).proposalId = v.proposal.proposalId ∧
      (v.decision approved).decisionId = reviewDecisionId v.proposal.proposalId := by
  unfold Reviewing.decision
  split <;> exact ⟨rfl, rfl⟩

theorem putReview_records (review : StoredReview) (db : Db) :
    (db.putReview review).proposals = db.proposals ∧
      (db.putReview review).decisions = db.decisions ∧
      (db.reviews.insert review = some (db.putReview review).reviews ∨
        db.reviews.get review.reviewId ≠ none ∧ (db.putReview review).reviews = db.reviews) := by
  unfold Db.putReview
  split
  · next hinsert => exact ⟨rfl, rfl, .inl hinsert⟩
  · next hinsert => exact ⟨rfl, rfl, .inr ⟨Table.get_of_insert hinsert, rfl⟩⟩

theorem claimIdempotency_sameRecords (key : String) (response : Value) (db : Db) :
    db.SameRecords (db.claimIdempotency key response).2.2 := by
  unfold Db.claimIdempotency
  split <;> exact ⟨rfl, rfl, rfl⟩

theorem recordReview_reviews {r : Request} {v : Reviewing} {reply : Reply}
    (hproposal : db.getProposal v.proposal.proposalId = some v.proposal)
    (hfirst : replay s r v.proposal db = none)
    (h : recordReview s r v db = .ok (reply, db')) :
    r.Reviews s db v.proposal (v.decision r.approved) db' := by
  obtain ⟨db₁, hdecision, h⟩ := bind_ok.mp h
  obtain ⟨⟨_, db₂⟩, happend, h⟩ := bind_ok.mp h
  obtain ⟨db₃, henqueue, h⟩ := bind_ok.mp h
  cases h
  obtain ⟨hdecides, hproposals, hreviews⟩ := putKernelDecision_decides hdecision
  let review : StoredReview := {
    reviewId := "review-" ++ v.proposal.proposalId
    proposalId := v.proposal.proposalId
    actorId := r.bind.actorId
    approved := r.approved
    recordedAt := r.bind.requestTimestamp
    proposalHash := v.proposal.proposalHash
    contextHash := v.proposal.context.stateHash }
  have hput := putReview_records review db₁
  have hsame := sameRecords_frame.trans (claimIdempotency_sameRecords _ _ _)
    (sameRecords_frame.trans (sameRecords_frame.appendEvent happend)
      (sameRecords_frame.enqueueOutbox henqueue))
  obtain ⟨hputProposals, hputDecisions, hputReviews⟩ := hput
  rw [← hsame.reviews, hreviews] at hputReviews
  exact
    { proposal := hproposal
      first := hfirst
      proposals := hsame.proposals.trans (hputProposals.trans hproposals)
      reviews := ⟨_, rfl, rfl, hputReviews⟩
      decides := hdecides.then (hsame.decisions.trans hputDecisions)
      proposalId := (decision_ids v _).1
      decisionId := (decision_ids v _).2 }

/-- What a review leaves: nothing new, or a decision that was committed. -/
theorem postReviews_records (r : Request) (db : Db) :
    (r.decided s db = none ∧ committed db (postReviews s r db) = db) ∨
      ∃ p decision, r.decided s db = some (p, decision) ∧
        r.Reviews s db p decision (committed db (postReviews s r db)) := by
  unfold Request.decided postReviews
  cases hid : r.proposalId s with
  | error e => exact .inl ⟨rfl, rfl⟩
  | ok proposalId =>
    dsimp only [bind, Except.bind]
    cases hp : db.getProposal proposalId with
    | none => exact .inl ⟨rfl, rfl⟩
    | some p =>
      dsimp only
      cases hcheck : checkReview s r p db with
      | error e => exact .inl ⟨rfl, rfl⟩
      | ok result =>
        cases result with
        | inl reply => exact .inl ⟨rfl, rfl⟩
        | inr v =>
          obtain ⟨hfirst, _, _, _, _, _, rfl, _⟩ := checkReview_decides.mp hcheck
          dsimp only
          cases hrecord : recordReview s r v db with
          | error e => exact .inl ⟨rfl, rfl⟩
          | ok result =>
            have hkey : v.proposal.proposalId = proposalId := Table.get_key hp
            exact .inr ⟨_, _, rfl, recordReview_reviews (hkey ▸ hp) hfirst hrecord⟩

/-! ## Which decision is read -/

/-- The decisions on a proposal, in the order they were stored. -/
def Db.decisionsOn (db : Db) (proposalId : String) : List StoredKernelDecision :=
  db.decisions.rows.filter fun d => d.decision.proposalId = proposalId

theorem mem_decisionsOn {proposalId : String} {d : StoredKernelDecision} :
    d ∈ db.decisionsOn proposalId ↔ d ∈ db.decisions.rows ∧ d.decision.proposalId = proposalId := by
  simp [Db.decisionsOn]

/-- A decision on another proposal does not change what is read. -/
theorem Db.Decides.getKernelDecision_ne {d : StoredKernelDecision} (h : db.Decides d db')
    {proposalId : String} (hne : d.decision.proposalId ≠ proposalId) :
    db'.getKernelDecision s.pg proposalId = db.getKernelDecision s.pg proposalId := by
  unfold Db.getKernelDecision
  rcases h with hinsert | ⟨_, hsame⟩
  · rw [(Table.rows_insert hinsert).1, List.filter_append, List.filter_singleton]
    simp [hne]
  · rw [hsame]

theorem decisionsOn_insert {d : StoredKernelDecision}
    (h : db.decisions.insert d = some db'.decisions) :
    db'.decisionsOn d.decision.proposalId = db.decisionsOn d.decision.proposalId ++ [d] := by
  unfold Db.decisionsOn
  rw [(Table.rows_insert h).1, List.filter_append, List.filter_singleton]
  simp

theorem latest_pair {a b : StoredKernelDecision} :
    Sorting.latest (decidedBefore s.pg) [a, b] = if decidedBefore s.pg a b then some b else some a := by
  unfold Sorting.latest
  simp only [List.insertionSort_cons, List.insertionSort_nil, List.orderedInsert_nil,
    List.orderedInsert_cons]
  split <;> rfl

theorem initial_ne_review (proposalId : String) :
    initialDecisionId proposalId ≠ reviewDecisionId proposalId := by
  intro h
  have h := congrArg String.toList h
  simp [initialDecisionId, reviewDecisionId] at h

/-! ## Reachable states -/

structure Docket.Sound (q : Docket) : Prop where
  ids : ∀ d ∈ q.db.decisions.rows, d.decisionId = initialDecisionId d.decision.proposalId ∨
    d.decisionId = reviewDecisionId d.decision.proposalId ∧
      ∃ decision, (d.decision.proposalId, decision) ∈ q.decided
  known : ∀ d ∈ q.db.decisions.rows, q.db.getProposal d.decision.proposalId ≠ none
  reviews : ∀ review ∈ q.db.reviews.rows, review.reviewId = "review-" ++ review.proposalId
  reviewed : ∀ e ∈ q.decided, q.db.getProposal e.1 ≠ none ∧
    ∃ review ∈ q.db.reviews.rows, review.proposalId = e.1

theorem Docket.sound_empty : ({} : Docket).Sound where
  ids := nofun
  known := nofun
  reviews := nofun
  reviewed := nofun

variable {q : Docket} {r : Request} {p : ActionProposal} {decision : KernelDecision}

/-- A proposal whose review is effective is not reviewed again. -/
theorem Docket.Sound.undecided (h : q.Sound) (heffective : q.Effective s)
    (hfirst : replay s r p q.db = none) (decision : KernelDecision) :
    (p.proposalId, decision) ∉ q.decided := by
  intro hdecided
  obtain ⟨_, review, hreview, hproposal⟩ := h.reviewed _ hdecided
  obtain ⟨d, hd, _⟩ := Option.map_eq_some_iff.mp (heffective _ hdecided)
  have hget : q.db.getReview p.proposalId ≠ none := by
    intro hnone
    have hother := List.find?_eq_none.mp hnone review (List.mem_reverse.mpr hreview)
    exact hother (decide_eq_true hproposal)
  unfold replay at hfirst
  split at hfirst
  · cases hfirst
  · split at hfirst
    · rw [hd] at hfirst
      cases hfirst
    · next hnone => exact hget hnone

/-- The only decision on a proposal that was not reviewed is its first. -/
theorem Docket.Sound.decisionsOn (h : q.Sound) {proposalId : String}
    (hnew : ∀ decision, (proposalId, decision) ∉ q.decided) :
    q.db.decisionsOn proposalId = [] ∨
      ∃ old, q.db.decisionsOn proposalId = [old] ∧ old.decisionId = initialDecisionId proposalId := by
  have hinitial : ∀ d ∈ q.db.decisionsOn proposalId, d.decisionId = initialDecisionId proposalId := by
    intro d hd
    obtain ⟨hmem, rfl⟩ := mem_decisionsOn.mp hd
    rcases h.ids d hmem with hid | ⟨_, decision, hdecided⟩
    · exact hid
    · exact absurd hdecided (hnew decision)
  have hnodup : ((q.db.decisionsOn proposalId).map StoredKernelDecision.decisionId).Nodup :=
    (List.filter_sublist.map _).nodup q.db.decisions.unique
  cases hl : q.db.decisionsOn proposalId with
  | nil => exact .inl rfl
  | cons a l =>
    rw [hl] at hinitial hnodup
    cases l with
    | nil => exact .inr ⟨a, rfl, hinitial a List.mem_cons_self⟩
    | cons b l =>
      exfalso
      have hsame : a.decisionId = b.decisionId :=
        (hinitial a (by simp)).trans (hinitial b (by simp)).symm
      rw [List.map_cons, List.map_cons, hsame] at hnodup
      simp at hnodup

/-- **A review is effective** exactly when its id is free and no decision comes after it. -/
theorem Request.Reviews.effective_iff (hreviews : r.Reviews s q.db p decision db')
    (hnew : ∀ decision, (p.proposalId, decision) ∉ q.decided) (h : q.Sound) :
    (db'.getKernelDecision s.pg p.proposalId).map StoredKernelDecision.decision = some decision ↔
      q.db.decisions.get (reviewDecisionId p.proposalId) = none ∧
        ∀ old ∈ q.db.decisions.rows, old.decision.proposalId = p.proposalId → r.After s p old := by
  have hid : (⟨decision, r.bind.requestTimestamp⟩ : StoredKernelDecision).decisionId =
    reviewDecisionId p.proposalId := hreviews.decisionId
  have hafter : ∀ old : StoredKernelDecision, r.After s p old ↔
      decidedBefore s.pg old ⟨decision, r.bind.requestTimestamp⟩ := by
    intro old
    unfold Request.After decidedBefore
    rw [hid]
  have hold : ∀ old ∈ q.db.decisionsOn p.proposalId, old.decision ≠ decision := by
    rintro old hmem rfl
    rcases h.decisionsOn hnew with hnil | ⟨x, hx, hinitial⟩
    · rw [hnil] at hmem
      cases hmem
    · rw [hx, List.mem_singleton] at hmem
      subst hmem
      exact initial_ne_review _ (hinitial.symm.trans hreviews.decisionId)
  rcases hreviews.decides with hinsert | ⟨htaken, hsame⟩
  · have hfree := (Table.rows_insert hinsert).2
    rw [hid] at hfree
    have hrows := decisionsOn_insert hinsert
    rw [hreviews.proposalId] at hrows
    have hget : db'.getKernelDecision s.pg p.proposalId =
      Sorting.latest (decidedBefore s.pg) (db'.decisionsOn p.proposalId) := rfl
    have hmem : ∀ old, old ∈ q.db.decisions.rows ∧ old.decision.proposalId = p.proposalId ↔
      old ∈ q.db.decisionsOn p.proposalId := fun _ => mem_decisionsOn.symm
    rw [hget, hrows]
    rcases h.decisionsOn hnew with hnil | ⟨old, hone, _⟩
    · rw [hnil]
      refine iff_of_true rfl ⟨hfree, ?_⟩
      intro old hrow hproposal
      have := (hmem old).mp ⟨hrow, hproposal⟩
      rw [hnil] at this
      cases this
    · have hmember : old ∈ q.db.decisionsOn p.proposalId := hone ▸ List.mem_singleton_self old
      rw [hone, List.singleton_append, latest_pair]
      constructor
      · intro heffective
        refine ⟨hfree, ?_⟩
        intro old' hrow hproposal
        have hold' := (hmem old').mp ⟨hrow, hproposal⟩
        rw [hone, List.mem_singleton] at hold'
        subst hold'
        by_contra hnot
        rw [if_neg (fun hbefore => hnot ((hafter _).mpr hbefore))] at heffective
        exact hold _ hmember (Option.some.inj heffective)
      · rintro ⟨_, hbefore⟩
        have hrow := (hmem old).mpr hmember
        rw [if_pos ((hafter old).mp (hbefore old hrow.1 hrow.2))]
        rfl
  · rw [hid] at htaken
    refine iff_of_false ?_ (fun hsettled => htaken hsettled.1)
    intro heffective
    obtain ⟨x, hx, hdecision⟩ := Option.map_eq_some_iff.mp heffective
    have hmem : x ∈ db'.decisionsOn p.proposalId := Sorting.latest_mem hx
    unfold Db.decisionsOn at hmem
    rw [hsame] at hmem
    exact hold x hmem hdecision

/-! ## Steps -/

/-- What a call does to the records: nothing, a new proposal, or a committed review. -/
theorem call_cases (q : Docket) (c : Call) :
    ((q.call s c).decided = q.decided ∧ q.db.SameRecords (q.call s c).db) ∨
      ((q.call s c).decided = q.decided ∧ ∃ p d, q.db.Proposes p d (q.call s c).db) ∨
      ∃ r p decision, c = .reviews r ∧ r.decided s q.db = some (p, decision) ∧
        (q.call s c).decided = (p.proposalId, decision) :: q.decided ∧
        r.Reviews s q.db p decision (q.call s c).db := by
  cases c with
  | events r =>
    refine .inl ⟨rfl, ?_⟩
    dsimp only [Docket.call]
    cases h : postEvents s r q.db with
    | error e => exact sameRecords_frame.refl _
    | ok result => exact sameRecords_frame.postEvents (fun _ _ => ⟨rfl, rfl, rfl⟩) h
  | proposals r =>
    dsimp only [Docket.call]
    cases h : postProposals s r q.db with
    | error e => exact .inl ⟨rfl, sameRecords_frame.refl _⟩
    | ok result =>
      rcases postProposals_records h with hsame | hproposes
      · exact .inl ⟨rfl, hsame⟩
      · exact .inr (.inl ⟨rfl, hproposes⟩)
  | reviews r =>
    dsimp only [Docket.call]
    rcases postReviews_records (s := s) r q.db with ⟨hnone, hsame⟩ | ⟨p, decision, hsome, hreviews⟩
    · rw [hnone, hsame]
      exact .inl ⟨rfl, sameRecords_frame.refl _⟩
    · refine .inr (.inr ⟨r, p, decision, rfl, hsome, ?_, hreviews⟩)
      rw [hsome]

/-- Of a call that commits no review nothing is asked. -/
theorem settled_of_decided {c : Call} (h : (q.call s c).decided = q.decided) : q.Settled s c := by
  rintro r p decision rfl hdecided
  dsimp only [Docket.call] at h
  rw [hdecided] at h
  exact absurd h (List.cons_ne_self _ _)

theorem Db.SameRecords.getKernelDecision (h : db.SameRecords db') (proposalId : String) :
    db'.getKernelDecision s.pg proposalId = db.getKernelDecision s.pg proposalId := by
  unfold Db.getKernelDecision
  rw [h.decisions]

theorem mem_of_decides {d x : StoredKernelDecision} (h : db.Decides d db')
    (hx : x ∈ db'.decisions.rows) : x ∈ db.decisions.rows ∨ x = d := by
  rcases h with hinsert | ⟨_, hsame⟩
  · exact (Table.mem_insert hinsert).mp hx
  · exact .inl (hsame ▸ hx)

theorem Docket.Sound.step (h : q.Sound) (c : Call) : (q.call s c).Sound := by
  rcases call_cases (s := s) q c with ⟨hdecided, hsame⟩ | ⟨hdecided, p, d, hproposes⟩ |
    ⟨r, p, decision, _, _, hdecided, hreviews⟩
  · refine ⟨?_, ?_, ?_, ?_⟩
    · rw [hsame.decisions, hdecided]
      exact h.ids
    · unfold Db.getProposal
      rw [hsame.decisions, hsame.proposals]
      exact h.known
    · rw [hsame.reviews]
      exact h.reviews
    · unfold Db.getProposal
      rw [hdecided, hsame.reviews, hsame.proposals]
      exact h.reviewed
  · have hproposal : ∀ proposalId, q.db.getProposal proposalId ≠ none →
        (q.call s c).db.getProposal proposalId ≠ none := by
      intro proposalId hne
      exact (Table.taken_insert hproposes.proposals proposalId).mpr (.inl hne)
    refine ⟨?_, ?_, ?_, ?_⟩
    · intro x hx
      rw [hdecided]
      rcases mem_of_decides hproposes.decides hx with hx | rfl
      · exact h.ids x hx
      · rw [hproposes.proposalId]
        exact .inl hproposes.decisionId
    · intro x hx
      rcases mem_of_decides hproposes.decides hx with hx | rfl
      · exact hproposal _ (h.known x hx)
      · rw [hproposes.proposalId]
        exact (Table.taken_insert hproposes.proposals _).mpr (.inr rfl)
    · rw [hproposes.reviews]
      exact h.reviews
    · rw [hdecided, hproposes.reviews]
      intro e he
      exact ⟨hproposal _ (h.reviewed e he).1, (h.reviewed e he).2⟩
  · obtain ⟨review, hproposalId, hreviewId, hput⟩ := hreviews.reviews
    have hsameProposals : ∀ proposalId, (q.call s c).db.getProposal proposalId =
        q.db.getProposal proposalId := by
      intro proposalId
      unfold Db.getProposal
      rw [hreviews.proposals]
    -- the review of the proposal is there, put now or before
    have hreview : ∃ x ∈ (q.call s c).db.reviews.rows, x.proposalId = p.proposalId := by
      rcases hput with hinsert | ⟨htaken, hsame⟩
      · exact ⟨review, (Table.mem_insert hinsert).mpr (.inr rfl), hproposalId⟩
      · obtain ⟨x, hx⟩ := Option.ne_none_iff_exists'.mp htaken
        have hmem := Table.mem_of_get hx
        refine ⟨x, hsame ▸ hmem, ?_⟩
        have hids := (h.reviews x hmem).symm.trans ((Table.get_key hx).trans hreviewId)
        exact (append_right_inj _).mp hids
    have hkept : ∀ x ∈ q.db.reviews.rows, x ∈ (q.call s c).db.reviews.rows := by
      intro x hx
      rcases hput with hinsert | ⟨_, hsame⟩
      · exact (Table.mem_insert hinsert).mpr (.inl hx)
      · exact hsame ▸ hx
    refine ⟨?_, ?_, ?_, ?_⟩
    · intro x hx
      rw [hdecided]
      rcases mem_of_decides hreviews.decides hx with hx | rfl
      · rcases h.ids x hx with hid | ⟨hid, old, hmem⟩
        · exact .inl hid
        · exact .inr ⟨hid, old, List.mem_cons_of_mem _ hmem⟩
      · refine .inr ⟨?_, decision, ?_⟩
        · rw [hreviews.proposalId]
          exact hreviews.decisionId
        · rw [hreviews.proposalId]
          exact List.mem_cons_self
    · intro x hx
      rw [hsameProposals]
      rcases mem_of_decides hreviews.decides hx with hx | rfl
      · exact h.known x hx
      · rw [hreviews.proposalId, hreviews.proposal]
        exact Option.some_ne_none p
    · intro x hx
      rcases hput with hinsert | ⟨_, hsame⟩
      · rcases (Table.mem_insert hinsert).mp hx with hx | rfl
        · exact h.reviews x hx
        · rw [hreviewId, hproposalId]
      · exact h.reviews x (hsame ▸ hx)
    · rw [hdecided]
      intro e he
      rw [hsameProposals]
      rcases List.mem_cons.mp he with rfl | he
      · rw [hreviews.proposal]
        exact ⟨Option.some_ne_none p, hreview⟩
      · obtain ⟨hknown, x, hx, hxe⟩ := h.reviewed e he
        exact ⟨hknown, x, hkept x hx, hxe⟩

/-- From an effective state, a call keeps every review effective exactly when it is settled. -/
theorem Docket.Effective.step_iff (heffective : q.Effective s) (h : q.Sound) (c : Call) :
    (q.call s c).Effective s ↔ q.Settled s c := by
  rcases call_cases (s := s) q c with ⟨hdecided, hsame⟩ | ⟨hdecided, p, d, hproposes⟩ |
    ⟨r, p, decision, rfl, hsome, hdecided, hreviews⟩
  · refine iff_of_true ?_ (settled_of_decided hdecided)
    unfold Docket.Effective
    rw [hdecided]
    intro e he
    rw [hsame.getKernelDecision]
    exact heffective e he
  · refine iff_of_true ?_ (settled_of_decided hdecided)
    unfold Docket.Effective
    rw [hdecided]
    intro e he
    have hne : d.decision.proposalId ≠ e.1 := by
      intro heq
      have hfree := (Table.rows_insert hproposes.proposals).2
      rw [hproposes.proposalId] at heq
      exact (h.reviewed e he).1 (heq ▸ hfree)
    rw [hproposes.decides.getKernelDecision_ne hne]
    exact heffective e he
  · have hnew := h.undecided heffective hreviews.first
    have hiff := hreviews.effective_iff hnew h
    have hsettled : q.Settled s (.reviews r) ↔
        q.db.decisions.get (reviewDecisionId p.proposalId) = none ∧
          ∀ old ∈ q.db.decisions.rows, old.decision.proposalId = p.proposalId → r.After s p old := by
      constructor
      · intro hsettled
        exact hsettled r p decision rfl hsome
      · rintro hcondition r' p' decision' hr hsome'
        cases hr
        rw [hsome] at hsome'
        cases hsome'
        exact hcondition
    rw [hsettled, ← hiff]
    unfold Docket.Effective
    rw [hdecided]
    constructor
    · intro hall
      exact hall _ List.mem_cons_self
    · intro hone e he
      rcases List.mem_cons.mp he with rfl | he
      · exact hone
      · have hne : decision.proposalId ≠ e.1 := by
          intro heq
          rw [hreviews.proposalId] at heq
          exact hnew e.2 (heq ▸ he)
        rw [hreviews.decides.getKernelDecision_ne hne]
        exact heffective e he

end

/-- **Effective decision.** Over every run the decision that is read of a reviewed proposal is
that of its review, exactly when each review that commits finds its decision id free and every
decision on its proposal before it, in the order of the times the clients gave and the ids. -/
theorem effective_decision_iff (s : Service) (calls : List Call) :
    Along (Docket.call s) (fun _ _ q => q.Effective s) {} calls ↔
      Along (Docket.call s) (fun q c _ => q.Settled s c) {} calls := by
  have hstart : ({} : Docket).Effective s ∧ ({} : Docket).Sound :=
    ⟨nofun, Docket.sound_empty⟩
  have hiff : Along (Docket.call s) (fun _ _ q => q.Effective s ∧ q.Sound) {} calls ↔
      Along (Docket.call s) (fun q c _ => q.Settled s c) {} calls := by
    apply along_keeps_iff (I := fun q : Docket => q.Effective s ∧ q.Sound) _ hstart
    rintro q c ⟨heffective, h⟩
    rw [and_iff_left (h.step c)]
    exact heffective.step_iff h c
  rw [← hiff]
  constructor
  · apply Along.of_invariant (I := Docket.Sound) _ Docket.sound_empty
    intro q c h heffective
    exact ⟨⟨heffective, h.step c⟩, h.step c⟩
  · intro hboth
    exact hboth.mono fun _ _ h => h.1

/-! ## A review that names an earlier time -/

/-- A database that reads the instants of one day. -/
def Service.dated : Service :=
  { Service.sample with
    pg := ⟨fun time => if time = "2026-09-23T00:00:00Z" then some 0 else some 1,
      fun a b => decide (a ≤ b)⟩ }

/-- The proposal is made on the 24th, and its review says the 23rd. -/
def earlierReview : Request :=
  { sampleReview with bind := { sampleBinding with requestTimestamp := "2026-09-23T00:00:00Z" } }

/-- The ids of the decisions of the committed reviews, and of the decisions that are read. -/
def Docket.summary (s : Service) (q : Docket) : List (String × Option String) :=
  q.decided.map fun e =>
    (e.2.decisionId, (q.db.getKernelDecision s.pg e.1).map StoredKernelDecision.decisionId)

/-- The first decision of the proposal is still the one that is read. -/
theorem earlier_review_ineffective : ¬ Along (Docket.call Service.dated)
    (fun _ _ q => q.Effective Service.dated) {}
    [.proposals sampleProposal, .reviews earlierReview] := by
  rintro ⟨_, heffective, _⟩
  have hsummary : (((({} : Docket).call Service.dated (.proposals sampleProposal)).call
      Service.dated (.reviews earlierReview)).summary Service.dated) =
        [("DEC-PROP-1042-review-PROP-1042", some "DEC-PROP-1042-initial")] := by
    decide +kernel
  obtain ⟨e, he, hids⟩ := List.map_eq_singleton_iff.mp hsummary
  have hread := heffective e (he ▸ List.mem_singleton_self e)
  obtain ⟨hdecided, hfound⟩ := Prod.mk.inj hids
  obtain ⟨d, hd, hid⟩ := Option.map_eq_some_iff.mp hfound
  rw [hd] at hread
  have hsame := congrArg (Option.map KernelDecision.decisionId) hread
  have hsame : d.decisionId = e.2.decisionId := Option.some.inj hsame
  rw [hid, hdecided] at hsame
  exact absurd hsame (by decide)

end Edon.Platform
