import EdonPlatform.Platform.Review
import EdonPlatform.Platform.Transitions

/- The idempotency keys of a tenant, under runs of the three handlers that keep their
   answers there: `POST /v1/events`, `POST /v1/reviews` and
   `GovernedInstitutionTransitionService.transition`. A handler that finds an answer under
   its key returns it before it compares anything of the request.

   What is proved:
     1. `own_answers_iff` — over every run, a request is only answered with what was
        recorded for its own operation, exactly when no request has a key that collides
        with that of a recorded request for another operation.
     2. `operationKey_eq_iff` — which keys collide. Those of different handlers never do;
        those of transitions do not tell where the id of the release ends.
     3. `another_event_answered` — two observations under one key.

   Correspondence (TypeScript ↔ Lean):
     `operationKey`           ↔ `KeyedRequest.operationKey`
     `getIdempotency` (a hit) ↔ `KeyedRequest.Answered`

   No other route and no worker writes `idempotency_keys`. -/
namespace Edon.Platform
open Transition Js Fallible

inductive KeyedRequest where
  | events (r : Request)
  | reviews (r : Request)
  | transition (a : Attempt)

/-- What a request asks for: an event by the id the body gives it, if it gives one, and its
payload; a proposal and whether it is approved; a release, its next state and its version. -/
inductive Operation where
  | event (eventId : Option String) (payload : Value)
  | review (proposalId : String) (approved : Bool)
  | transition (releaseId nextState : String) (expectedVersion : Number)

def KeyedRequest.operationKey : KeyedRequest → String
  | .events r => "POST:/v1/events:" ++ r.bind.idempotencyKey
  | .reviews r => "POST:/v1/reviews:" ++ r.bind.idempotencyKey
  | .transition a => a.request.operationKey

/-- The requests use one key, as they were sent. -/
def KeyedRequest.Collides : KeyedRequest → KeyedRequest → Prop
  | .events r, .events r' => r.bind.idempotencyKey = r'.bind.idempotencyKey
  | .reviews r, .reviews r' => r.bind.idempotencyKey = r'.bind.idempotencyKey
  | .transition a, .transition a' =>
    a.request.releaseId ++ ":" ++ a.request.idempotencyKey =
      a'.request.releaseId ++ ":" ++ a'.request.idempotencyKey
  | _, _ => False

section
variable (s : TransitionService)

def TransitionService.service : Service := ⟨s.js, s.pg, s.tenantId⟩

/-- The id the body gives the event; one that it does not give is made up when the request is
handled. -/
def Request.eventId (r : Request) : Option String :=
  (present (field r.body "event_id")).bind fun v => (toText s.js v).toOption

def KeyedRequest.operation : KeyedRequest → Operation
  | .events r => .event (r.eventId s) r.payload
  | .reviews r => .review (((r.proposalId s.service).toOption).getD "") r.approved
  | .transition a => .transition a.request.releaseId a.request.nextState a.request.expectedVersion

/-- The handler gets as far as the lookup of the key. -/
def KeyedRequest.Reaches (store : ReleaseStore) : KeyedRequest → Prop
  | .events r => ∃ event, observation s.service r store.db = .ok event
  | .reviews r => ∃ proposalId p, r.proposalId s.service = .ok proposalId ∧
      store.db.getProposal proposalId = some p
  | .transition a => a.request.idempotencyKey ≠ ""

/-- The request is answered with what is stored under its key. -/
def KeyedRequest.Answered (store : ReleaseStore) (c : KeyedRequest) (response : Value) : Prop :=
  c.Reaches s store ∧ store.db.getIdempotency c.operationKey = some response

/-- What the request returns, with the tables it commits. -/
def KeyedRequest.handle (store : ReleaseStore) :
    KeyedRequest → Except TransitionError (Value × ReleaseStore)
  | .events r => do
    let (reply, db) ← lift (postEvents s.service r store.db)
    return (reply.body, { store with db })
  | .reviews r => do
    let (reply, db) ← lift (postReviews s.service r store.db)
    return (reply.body, { store with db })
  | .transition a => Platform.transition s a store

/-- The tables after the request; one that throws changes nothing. -/
def KeyedRequest.after (store : ReleaseStore) (c : KeyedRequest) : ReleaseStore :=
  match c.handle s store with
  | .ok (_, store') => store'
  | .error _ => store

/-- The body of a reply with a stored answer. -/
def KeyedRequest.body (response : Value) : KeyedRequest → Value
  | .events r => (r.reply 200 response).body
  | .reviews r => (r.reply 200 response).body
  | .transition _ => response

end

/-- A request whose answer was stored, with the answer. -/
structure Recorded where
  request : KeyedRequest
  response : Value

/-- What happens to the tenant: a request under a key, or anything else, which leaves the
idempotency keys as they are. -/
inductive Occurrence where
  | request (c : KeyedRequest)
  | other (store : ReleaseStore)

/-- The tables, and which request each stored answer was recorded for. -/
structure History where
  store : ReleaseStore := {}
  recorded : List Recorded := []

section
variable (s : TransitionService)

/-- The answer that appeared under the key of the request, if one did. -/
def KeyedRequest.recorded (before after : ReleaseStore) (c : KeyedRequest) : Option Recorded :=
  match before.db.getIdempotency c.operationKey, after.db.getIdempotency c.operationKey with
  | none, some response => some ⟨c, response⟩
  | _, _ => none

def History.next (h : History) : Occurrence → History
  | .request c =>
    { store := c.after s h.store
      recorded := (c.recorded h.store (c.after s h.store)).toList ++ h.recorded }
  | .other store =>
    { h with store := { store with db := { store.db with idempotency := h.store.db.idempotency } } }

/-- A request that is answered from the idempotency keys is answered with what was recorded
for its own operation. -/
def History.Own (h : History) : Occurrence → Prop
  | .request c => ∀ response, c.Answered s h.store response →
      ∃ e ∈ h.recorded, e.request.operationKey = c.operationKey ∧ e.response = response ∧
        e.request.operation s = c.operation s
  | .other _ => True

/-- What was recorded under a key that collides with that of the request was recorded for the
operation it asks for. -/
def History.Consistent (h : History) : Occurrence → Prop
  | .request c => c.Reaches s h.store → ∀ e ∈ h.recorded, e.request.Collides c →
      e.request.operation s = c.operation s
  | .other _ => True

end

section
variable {s : TransitionService}

/-! ## Keys -/

/-- Texts that start differently are different. -/
theorem append_ne {p q : String} (h : ¬ p.toList <+: q.toList) (h' : ¬ q.toList <+: p.toList)
    (a b : String) : p ++ a ≠ q ++ b := by
  intro heq
  have hlists : p.toList ++ a.toList = q.toList ++ b.toList := by
    rw [← String.toList_append, ← String.toList_append, heq]
  have hp : p.toList <+: q.toList ++ b.toList := hlists ▸ List.prefix_append _ _
  rcases List.prefix_or_prefix_of_prefix hp (List.prefix_append _ _) with hprefix | hprefix
  · exact h hprefix
  · exact h' hprefix

theorem operationKey_transition (a : Attempt) :
    (KeyedRequest.transition a).operationKey = "institution-release-transition:" ++
      (a.request.releaseId ++ ":" ++ a.request.idempotencyKey) := by
  show "institution-release-transition:" ++ a.request.releaseId ++ ":" ++ a.request.idempotencyKey = _
  rw [String.append_assoc, String.append_assoc, String.append_assoc]

/-- **Which keys collide.** Handlers do not share keys, and the key of a transition is that of
another when the id of the release and the key of the client make the same text. -/
theorem operationKey_eq_iff (c c' : KeyedRequest) :
    c.operationKey = c'.operationKey ↔ c.Collides c' := by
  cases c with
  | events r =>
    cases c' with
    | events r' => exact append_right_inj _
    | reviews r' => exact iff_of_false (append_ne (by decide) (by decide) _ _) id
    | transition a' =>
      rw [operationKey_transition]
      exact iff_of_false (append_ne (by decide) (by decide) _ _) id
  | reviews r =>
    cases c' with
    | events r' => exact iff_of_false (append_ne (by decide) (by decide) _ _) id
    | reviews r' => exact append_right_inj _
    | transition a' =>
      rw [operationKey_transition]
      exact iff_of_false (append_ne (by decide) (by decide) _ _) id
  | transition a =>
    rw [operationKey_transition]
    cases c' with
    | events r' => exact iff_of_false (append_ne (by decide) (by decide) _ _) id
    | reviews r' => exact iff_of_false (append_ne (by decide) (by decide) _ _) id
    | transition a' =>
      rw [operationKey_transition]
      exact append_right_inj _

/-! ## What the handlers do with their keys -/

theorem putKernelDecision_idempotency {pg : Postgres} {d : StoredKernelDecision} {db db' : Db}
    (h : db.putKernelDecision pg d = .ok db') : db'.idempotency = db.idempotency := by
  obtain ⟨_, _, h⟩ := bind_ok.mp h
  cases h
  split <;> rfl

theorem putReview_idempotency (review : StoredReview) (db : Db) :
    (db.putReview review).idempotency = db.idempotency := by
  unfold Db.putReview
  split <;> rfl

variable {v : Service}

theorem idempotency_frame : Db.Frame fun db db' => db'.idempotency = db.idempotency where
  refl _ := rfl
  trans h h' := h'.trans h
  journal _ _ _ _ := rfl
  snapshots _ _ := rfl
  outbox _ _ := rfl

/-- The keys are the same, or one that was free has an answer now. -/
def Claims (key : String) (db db' : Db) : Prop :=
  db'.idempotency = db.idempotency ∨ db.idempotency.get key = none ∧
    ∃ response, db'.idempotency = db.idempotency.set key response

theorem claimIdempotency_claims (key : String) (response : Value) (db : Db) :
    Claims key db (db.claimIdempotency key response).2.2 := by
  rcases claimIdempotency_cases key response db with ⟨existing, _, hclaim⟩ | ⟨hfree, hclaim⟩
  · rw [hclaim]
    exact .inl rfl
  · rw [hclaim]
    exact .inr ⟨hfree, _, rfl⟩

theorem Claims.between {key : String} {db db₁ db₂ db' : Db}
    (hbefore : db₁.idempotency = db.idempotency) (h : Claims key db₁ db₂)
    (hafter : db'.idempotency = db₂.idempotency) : Claims key db db' := by
  unfold Claims at h ⊢
  rw [hafter, ← hbefore]
  exact h

/-- The answer of an observation is stored under its key. -/
theorem postEvents_claims {r : Request} {db db' : Db} {reply : Reply}
    (h : postEvents v r db = .ok (reply, db')) :
    Claims ("POST:/v1/events:" ++ r.bind.idempotencyKey) db db' := by
  obtain ⟨event, _, h⟩ := bind_ok.mp h
  unfold submit at h
  split at h
  · cases h
    exact .inl rfl
  · split at h
    · cases h
      exact .inl rfl
    · have hclaims := claimIdempotency_claims ("POST:/v1/events:" ++ r.bind.idempotencyKey)
        event.toJson db
      split at h <;> next hclaim =>
        rw [hclaim] at hclaims
        first
        | exact hclaims.between rfl (idempotency_frame.recordObservation h)
        | cases h
          exact hclaims

/-- So is the decision of a review. -/
theorem postReviews_claims {r : Request} {db db' : Db} {reply : Reply}
    (h : postReviews v r db = .ok (reply, db')) :
    Claims ("POST:/v1/reviews:" ++ r.bind.idempotencyKey) db db' := by
  obtain ⟨proposalId, _, h⟩ := bind_ok.mp h
  split at h
  · cases h
    exact .inl rfl
  · obtain ⟨result, _, h⟩ := bind_ok.mp h
    cases result with
    | inl reply' =>
      cases h
      exact .inl rfl
    | inr reviewing =>
      obtain ⟨db₁, hdecision, h⟩ := bind_ok.mp h
      obtain ⟨⟨_, db₂⟩, happend, h⟩ := bind_ok.mp h
      obtain ⟨db₃, henqueue, h⟩ := bind_ok.mp h
      cases h
      exact .between
        ((putReview_idempotency _ _).trans (putKernelDecision_idempotency hdecision))
        (claimIdempotency_claims _ _ _)
        ((idempotency_frame.enqueueOutbox henqueue).trans (idempotency_frame.appendEvent happend))

theorem claims_after (store : ReleaseStore) (c : KeyedRequest) :
    Claims c.operationKey store.db (c.after s store).db := by
  unfold KeyedRequest.after
  cases hhandle : c.handle s store with
  | error e => exact .inl rfl
  | ok result =>
    obtain ⟨v, store'⟩ := result
    cases c with
    | events r =>
      obtain ⟨⟨reply, db⟩, hpost, hhandle⟩ := bind_ok.mp hhandle
      cases hhandle
      exact postEvents_claims (lift_ok hpost)
    | reviews r =>
      obtain ⟨⟨reply, db⟩, hpost, hhandle⟩ := bind_ok.mp hhandle
      cases hhandle
      exact postReviews_claims (lift_ok hpost)
    | transition a =>
      obtain ⟨_, ⟨rfl, _⟩ | ⟨hfree, release, state, _, hmoves⟩⟩ := transition_cases hhandle
      · exact .inl rfl
      · refine .inr ⟨hfree, (a.request.result s release).toJson, ?_⟩
        apply Dict.ext_get
        intro key
        rw [hmoves.idempotency, Dict.get_set]
        simp only [eq_comm]
        rfl

/-- An answered request returns the answer and changes nothing. -/
theorem answered_handle {store : ReleaseStore} {c : KeyedRequest} {response : Value}
    (h : c.Answered s store response) :
    c.handle s store = .ok (c.body response, store) := by
  obtain ⟨hreaches, hstored⟩ := h
  cases c with
  | events r =>
    obtain ⟨event, hobserved⟩ := hreaches
    have hpost : postEvents s.service r store.db = .ok (r.reply 200 response, store.db) := by
      refine bind_ok.mpr ⟨event, hobserved, ?_⟩
      unfold submit
      have hstored : store.db.getIdempotency ("POST:/v1/events:" ++ r.bind.idempotencyKey) =
        some response := hstored
      rw [hstored]
    show (do
      let (reply, db) ← lift (postEvents s.service r store.db)
      return (reply.body, { store with db })) = _
    rw [hpost]
    rfl
  | reviews r =>
    obtain ⟨proposalId, p, hid, hproposal⟩ := hreaches
    have hpost : postReviews s.service r store.db = .ok (r.reply 200 response, store.db) := by
      refine bind_ok.mpr ⟨proposalId, hid, ?_⟩
      rw [hproposal]
      have hstored : store.db.getIdempotency ("POST:/v1/reviews:" ++ r.bind.idempotencyKey) =
        some response := hstored
      refine bind_ok.mpr ⟨.inl (r.reply 200 response), ?_, rfl⟩
      unfold checkReview replay
      rw [hstored]
    show (do
      let (reply, db) ← lift (postReviews s.service r store.db)
      return (reply.body, { store with db })) = _
    rw [hpost]
    rfl
  | transition a => exact transition_repeated hreaches hstored

/-! ## Runs -/

/-- The answers that are stored are those that were recorded, one for each key. -/
structure History.Accounted (h : History) : Prop where
  answers : ∀ key response, h.store.db.getIdempotency key = some response ↔
    ∃ e ∈ h.recorded, e.request.operationKey = key ∧ e.response = response
  unique : ∀ e ∈ h.recorded, ∀ e' ∈ h.recorded,
    e.request.operationKey = e'.request.operationKey → e = e'

theorem accounted_empty : ({} : History).Accounted where
  answers key response := by
    constructor
    · intro h
      have h : (∅ : Dict String Value).get key = some response := h
      cases h
    · rintro ⟨e, he, _⟩
      exact absurd he List.not_mem_nil
  unique e he := absurd he List.not_mem_nil

theorem recorded_same {before after : ReleaseStore} (c : KeyedRequest)
    (h : after.db.idempotency = before.db.idempotency) : c.recorded before after = none := by
  unfold KeyedRequest.recorded Db.getIdempotency
  rw [h]
  cases before.db.idempotency.get c.operationKey <;> rfl

theorem recorded_claimed {before after : ReleaseStore} {c : KeyedRequest} {response : Value}
    (hfree : before.db.idempotency.get c.operationKey = none)
    (h : after.db.idempotency = before.db.idempotency.set c.operationKey response) :
    c.recorded before after = some ⟨c, response⟩ := by
  unfold KeyedRequest.recorded Db.getIdempotency
  rw [h, hfree, Dict.get_set_self]

theorem mem_recorded {before after : ReleaseStore} {c : KeyedRequest} {e : Recorded}
    (h : e ∈ (c.recorded before after).toList) : e.request = c := by
  unfold KeyedRequest.recorded at h
  split at h
  · rw [List.mem_singleton.mp h]
  · cases h

theorem accounted_next {h : History} (ha : h.Accounted) (o : Occurrence) :
    (h.next s o).Accounted := by
  cases o with
  | other store => exact ⟨ha.answers, ha.unique⟩
  | request c =>
    unfold History.next
    dsimp only
    rcases claims_after (s := s) h.store c with hsame | ⟨hfree, response, hset⟩
    · rw [recorded_same c hsame]
      refine ⟨?_, ha.unique⟩
      intro key response
      show (c.after s h.store).db.idempotency.get key = some response ↔ _
      rw [hsame]
      exact ha.answers key response
    · rw [recorded_claimed hfree hset]
      -- nothing was recorded under the key before
      have hnew : ∀ e ∈ h.recorded, e.request.operationKey ≠ c.operationKey := by
        intro e he hkey
        have htaken := (ha.answers _ _).mpr ⟨e, he, hkey, rfl⟩
        rw [Db.getIdempotency, hfree] at htaken
        cases htaken
      constructor
      · intro key response'
        show (c.after s h.store).db.idempotency.get key = some response' ↔
          ∃ e ∈ ⟨c, response⟩ :: h.recorded, _
        simp only [hset, Dict.get_set, List.mem_cons, exists_eq_or_imp]
        split
        · next hkey =>
          subst hkey
          constructor
          · intro hresponse
            exact .inl ⟨rfl, Option.some.inj hresponse⟩
          · rintro (⟨_, hresponse⟩ | ⟨e, he, hkey, _⟩)
            · exact congrArg some hresponse
            · exact absurd hkey (hnew e he)
        · next hkey =>
          rw [or_iff_right (fun hfirst => hkey hfirst.1)]
          exact ha.answers key response'
      · intro e he e' he' hkey
        rcases List.mem_cons.mp he with rfl | he
        · rcases List.mem_cons.mp he' with rfl | he'
          · rfl
          · exact absurd hkey.symm (hnew e' he')
        · rcases List.mem_cons.mp he' with rfl | he'
          · exact absurd hkey (hnew e he)
          · exact ha.unique e he e' he' hkey

theorem own_iff {h : History} (ha : h.Accounted) (o : Occurrence) :
    h.Own s o ↔ h.Consistent s o := by
  cases o with
  | other store => exact Iff.rfl
  | request c =>
    constructor
    · intro hown hreaches e he hcollides
      have hkey : e.request.operationKey = c.operationKey := (operationKey_eq_iff _ _).mpr hcollides
      obtain ⟨e', he', hkey', _, hoperation⟩ :=
        hown e.response ⟨hreaches, (ha.answers _ _).mpr ⟨e, he, hkey, rfl⟩⟩
      rw [ha.unique e he e' he' (hkey.trans hkey'.symm)]
      exact hoperation
    · rintro hconsistent response ⟨hreaches, hstored⟩
      obtain ⟨e, he, hkey, hresponse⟩ := (ha.answers _ _).mp hstored
      exact ⟨e, he, hkey, hresponse,
        hconsistent hreaches e he ((operationKey_eq_iff _ _).mp hkey)⟩

/-- **A stored answer is given for the operation it was recorded for**, in every run of the
handlers among anything else that happens, exactly when no request collides with one that was
recorded for another operation. -/
theorem own_answers_iff (s : TransitionService) (occurrences : List Occurrence) :
    Along (History.next s) (fun h o _ => h.Own s o) {} occurrences ↔
      Along (History.next s) (fun h o _ => h.Consistent s o) {} occurrences := by
  constructor
  · apply Along.of_invariant (I := History.Accounted) _ accounted_empty
    intro h o ha hown
    exact ⟨(own_iff ha o).mp hown, accounted_next ha o⟩
  · apply Along.of_invariant (I := History.Accounted) _ accounted_empty
    intro h o ha hconsistent
    exact ⟨(own_iff ha o).mpr hconsistent, accounted_next ha o⟩

end

/-- Two observations of one key. The second is answered with the first. -/
def sameKey : List Occurrence :=
  [.request (.events (observed "key-1" "evt-1" 100 0)),
    .request (.events (observed "key-1" "evt-2" 300 0))]

/-- Another event is answered. -/
theorem another_event_answered :
    ¬ ∀ (s : TransitionService) (occurrences : List Occurrence),
      Along (History.next s) (fun h o _ => h.Own s o) {} occurrences := by
  intro h
  obtain ⟨_, hown, _⟩ := h sampleService sameKey
  have hstored : (((History.next sampleService {} (.request (.events
      (observed "key-1" "evt-1" 100 0)))).store.db.getIdempotency
        "POST:/v1/events:key-1").isSome) = true := by
    decide +kernel
  obtain ⟨response, hresponse⟩ := Option.isSome_iff_exists.mp hstored
  obtain ⟨e, he, _, _, hoperation⟩ := hown response ⟨⟨_, rfl⟩, hresponse⟩
  have he := List.mem_append.mp he
  have hrequest := mem_recorded (he.resolve_right List.not_mem_nil)
  rw [hrequest] at hoperation
  have hid := (Operation.event.inj hoperation).1
  exact absurd hid (by decide)

end Edon.Platform
