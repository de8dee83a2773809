import EdonPlatform.Platform.Idempotency

/- Repeated submissions of an event (apps/control-plane-api/src/server.ts,
   `POST /v1/events`). The event is stored as the answer before its evidence is admitted and
   the state projected, which decide what the first answer is.

   What is proved:
     1. `repeated_kept` — after any other requests, a repeated submission is answered with
        what the first one stored, and changes nothing.
     2. `submission_replays_iff` — so its data is that of the first answer exactly when the
        first request was itself answered from the key, or its event id was taken.
     3. `projected_answer_differs` — an observation that projects a state. -/
namespace Edon.Platform
open Transition Js Fallible

def Request.answerKey (r : Request) : String := "POST:/v1/events:" ++ r.bind.idempotencyKey

/-- `data` of a reply, as it is sent. -/
def Reply.data (reply : Reply) : Option Value := (field reply.body "data").map stored

/-- The handler completed the request. -/
def Reply.success (reply : Reply) : Prop := reply.status < 300

/-- The request under the same key with the same body, by anyone and at any time. -/
structure Request.Repeats (r r' : Request) : Prop where
  body : r'.body = r.body
  key : r'.bind.idempotencyKey = r.bind.idempotencyKey

section
variable (s : Service)

/-- The request returns the data of the first reply and changes nothing. -/
def Replays (db : Db) (r : Request) (first : Reply) : Prop :=
  ∃ reply, postEvents s r db = .ok (reply, db) ∧ reply.success ∧ reply.data = first.data

/-- Nothing is left to decide: the key has an answer, or the id of the event is taken. -/
def Request.Settled (db : Db) (r : Request) : Prop :=
  db.getIdempotency r.answerKey ≠ none ∨
    ∃ eventId, r.text s "event_id" ("evt-" ++ toString r.now) = .ok eventId ∧
      db.journal.get eventId ≠ none

end

section
variable {s : Service} {r r' : Request} {db db' : Db}

/-! ## The first request -/

theorem observation_eventId {event : EventEnvelope} (h : observation s r db = .ok event) :
    r.text s "event_id" ("evt-" ++ toString r.now) = .ok event.eventId := by
  obtain ⟨_, _, h⟩ := bind_ok.mp h
  obtain ⟨eventId, heventId, h⟩ := bind_ok.mp h
  obtain ⟨_, _, h⟩ := bind_ok.mp h
  obtain ⟨_, _, h⟩ := bind_ok.mp h
  cases h
  exact heventId

/-- A repeated request observes an event too. -/
theorem observation_again (hr : r.Repeats r') {event : EventEnvelope}
    (h : observation s r db = .ok event) : ∃ event', observation s r' db' = .ok event' := by
  have htext : ∀ key default default' text, r.text s key default = .ok text →
      ∃ text', r'.text s key default' = .ok text' := by
    intro key default default' text htext
    unfold Request.text at htext ⊢
    rw [hr.body]
    cases hfield : field r.body key with
    | none => exact ⟨default', rfl⟩
    | some v =>
      rw [hfield] at htext
      cases v with
      | null => exact ⟨default', rfl⟩
      | _ => exact ⟨text, htext⟩
  obtain ⟨scopeId, hscope, h⟩ := bind_ok.mp h
  obtain ⟨eventId, heventId, h⟩ := bind_ok.mp h
  obtain ⟨incidentId, hincident, h⟩ := bind_ok.mp h
  obtain ⟨policyVersion, hpolicy, -⟩ := bind_ok.mp h
  obtain ⟨_, hscope⟩ := htext _ _ "memphis-fulfillment" _ hscope
  obtain ⟨_, heventId⟩ := htext _ _ ("evt-" ++ toString r'.now) _ heventId
  obtain ⟨_, hincident⟩ := htext _ _ "INC-1042" _ hincident
  obtain ⟨_, hpolicy⟩ := htext _ _ "POL-LOG-07 v18" _ hpolicy
  exact ⟨_, bind_ok.mpr ⟨_, hscope, bind_ok.mpr ⟨_, heventId,
    bind_ok.mpr ⟨_, hincident, bind_ok.mpr ⟨_, hpolicy, rfl⟩⟩⟩⟩⟩

theorem reply_data (r : Request) (status : Nat) (data : Value) :
    (r.reply status data).data = some (stored data) := rfl

theorem observation_version {event : EventEnvelope} (h : observation s r db = .ok event) :
    event.stateVersionAfter = event.stateVersionBefore := by
  obtain ⟨_, _, h⟩ := bind_ok.mp h
  obtain ⟨_, _, h⟩ := bind_ok.mp h
  obtain ⟨_, _, h⟩ := bind_ok.mp h
  obtain ⟨_, _, h⟩ := bind_ok.mp h
  cases h
  rfl

/-- The answer of a projected state names the next version. -/
theorem advanced_ne {event : EventEnvelope}
    (h : event.stateVersionAfter = event.stateVersionBefore) :
    stored { event with stateVersionAfter := event.stateVersionBefore + 1 }.toJson ≠
      stored event.toJson := by
  intro hsame
  have hversions := congrArg (field · "state_version_after") hsame
  simp only [field_stored] at hversions
  have hrats : ((event.stateVersionBefore + 1 : Int) : Rat) = (event.stateVersionAfter : Rat) :=
    Number.finite.inj (Value.num.inj (Option.some.inj hversions))
  have hints := Rat.intCast_inj.mp hrats
  omega

theorem storedFields_length (kvs : Fields) : (storedFields kvs).length = kvs.length := by
  induction kvs with
  | nil => rfl
  | cons e kvs ih => rw [storedFields, List.length_cons, List.length_cons, ih]

/-- An answer with a property more is another answer. -/
theorem extended_ne (kvs : Fields) (e : String × Value) :
    stored (.obj (kvs ++ [e])) ≠ stored (.obj kvs) := by
  intro hsame
  have hlength := congrArg List.length (Value.obj.inj hsame)
  rw [storedFields_length, storedFields_length, List.length_append, List.length_singleton] at hlength
  omega

/-- The answer where the event was appended is not the event. -/
theorem admitObservation_data {event : EventEnvelope} {reply : Reply}
    (hversion : event.stateVersionAfter = event.stateVersionBefore)
    (h : admitObservation s r event db = .ok (reply, db')) :
    reply.data ≠ some (stored event.toJson) := by
  obtain ⟨db₁, _, h⟩ := bind_ok.mp h
  split at h
  · obtain ⟨_, _, h⟩ := bind_ok.mp h
    obtain ⟨⟨_, db₂⟩, _, h⟩ := bind_ok.mp h
    obtain ⟨db₃, _, h⟩ := bind_ok.mp h
    obtain ⟨db₄, _, h⟩ := bind_ok.mp h
    cases h
    rw [reply_data]
    exact fun hsame => advanced_ne hversion (Option.some.inj hsame)
  · cases h
    rw [reply_data]
    exact fun hsame => extended_ne _ _ (Option.some.inj hsame)

theorem appended_iff {pg : Postgres} {event : EventEnvelope} {appended : Bool}
    (h : db.appendEvent pg event = .ok (appended, db')) :
    appended = true ↔ db.journal.get event.eventId = none := by
  obtain ⟨time, htime, -⟩ := bind_ok.mp h
  have hinstant : (pg.instant event.recordedAt).isSome = true := by
    rw [orRaise_ok.mp htime]
    rfl
  obtain ⟨appended', db'', happend, hiff⟩ :=
    appendEvent_total (s := ⟨Runtime.sample, pg, ""⟩) hinstant db
  cases Except.ok.inj (happend.symm.trans h)
  exact hiff

/-- What a submission that was completed leaves under its key: what it was answered with, or
the event as it was made. -/
theorem postEvents_answer {first : Reply} (h : postEvents s r db = .ok (first, db'))
    (hsuccess : first.success) : ∃ response, db'.getIdempotency r.answerKey = some response ∧
      (first.data = some (stored response) ↔ r.Settled s db) := by
  obtain ⟨event, hobserved, h⟩ := bind_ok.mp h
  have heventId := observation_eventId hobserved
  unfold submit at h
  split at h
  · next response hresponse =>
    cases h
    have hstored : db.getIdempotency r.answerKey = some response := hresponse
    refine ⟨response, hstored, iff_of_true (reply_data ..) (.inl ?_)⟩
    rw [hstored]
    exact Option.some_ne_none _
  · next hfree =>
    replace hfree : db.getIdempotency r.answerKey = none := hfree
    split at h
    · cases h
      have hstale : (409 : Nat) < 300 := hsuccess
      omega
    · rcases claimIdempotency_cases r.answerKey event.toJson db with
        ⟨existing, hexisting, -⟩ | ⟨-, hclaim⟩
      · rw [Db.getIdempotency, hexisting] at hfree
        cases hfree
      · replace hclaim : db.claimIdempotency ("POST:/v1/events:" ++ r.bind.idempotencyKey)
          event.toJson = _ := hclaim
        rw [hclaim] at h
        have hkept := idempotency_frame.recordObservation h
        refine ⟨stored event.toJson, ?_, ?_⟩
        · rw [Db.getIdempotency, hkept]
          exact Dict.get_set_self ..
        · rw [stored_stored]
          obtain ⟨⟨appended, db₁⟩, happend, h⟩ := bind_ok.mp h
          have htaken := appended_iff happend
          have hunsettled : r.Settled s db ↔ db.journal.get event.eventId ≠ none := by
            constructor
            · rintro (hkey | ⟨eventId, hid, htaken⟩)
              · exact absurd hfree hkey
              · rwa [Except.ok.inj (hid.symm.trans heventId)] at htaken
            · intro htaken
              exact .inr ⟨event.eventId, heventId, htaken⟩
          rw [hunsettled]
          cases appended with
          | false =>
            cases h
            refine iff_of_true (reply_data ..) ?_
            intro hnone
            exact Bool.false_ne_true (htaken.mpr hnone)
          | true =>
            exact iff_of_false (admitObservation_data (observation_version hobserved) h)
              (not_not.mpr (htaken.mp rfl))

/-! ## The repeated request -/

/-- An answer that is stored stays. -/
theorem answer_kept {t : TransitionService} {h : History} {key : String} {response : Value}
    (hstored : h.store.db.getIdempotency key = some response) (occurrences : List Occurrence) :
    (exec (History.next t) h occurrences).store.db.getIdempotency key = some response := by
  refine exec_invariant (I := fun h : History => h.store.db.getIdempotency key = some response)
    ?_ hstored occurrences
  intro h o hstored
  cases o with
  | other store => exact hstored
  | request c =>
    show (c.after t h.store).db.idempotency.get key = some response
    rcases claims_after (s := t) h.store c with hsame | ⟨hfree, other, hset⟩
    · rw [hsame]
      exact hstored
    · rw [hset, Dict.get_set, if_neg]
      · exact hstored
      · rintro rfl
        rw [Db.getIdempotency, hfree] at hstored
        cases hstored

/-- A repeated request is answered with what is stored. -/
theorem repeated_answered {first r' : Request} (hr : first.Repeats r') {event : EventEnvelope}
    {before : Db} (hobserved : observation s first before = .ok event) {response : Value}
    (hstored : db.getIdempotency first.answerKey = some response) :
    postEvents s r' db = .ok (r'.reply 200 response, db) := by
  have hagain : ∃ event', observation s r' db = .ok event' := observation_again hr hobserved
  obtain ⟨event', hevent'⟩ := hagain
  refine bind_ok.mpr ⟨event', hevent', ?_⟩
  unfold submit
  have hkey : "POST:/v1/events:" ++ r'.bind.idempotencyKey = first.answerKey := by
    rw [hr.key]
    rfl
  rw [hkey, hstored]

theorem answer_replays_iff {first : Reply} {response : Value} {event : EventEnvelope} {before : Db}
    (hr : r.Repeats r') (hobserved : observation s r before = .ok event)
    (hstored : db.getIdempotency r.answerKey = some response) :
    Replays s db r' first ↔ first.data = some (stored response) := by
  have hanswered := repeated_answered hr hobserved hstored
  constructor
  · rintro ⟨reply, hreply, -, hdata⟩
    cases (Except.ok.inj (hanswered.symm.trans hreply))
    exact hdata.symm
  · intro hdata
    exact ⟨_, hanswered, by show (200 : Nat) < 300; decide, hdata.symm⟩

/-- A request that was completed leaves its table. -/
theorem request_after {t : TransitionService} {h : History} {first : Reply}
    (hfirst : postEvents t.service r h.store.db = .ok (first, db)) :
    (History.next t h (.request (.events r))).store.db = db := by
  show ((KeyedRequest.events r).after t h.store).db = db
  unfold KeyedRequest.after KeyedRequest.handle
  dsimp only
  rw [hfirst]
  rfl

end

/-- **Repeated submissions.** In every history, a request that was completed and is repeated
with its body and key, after any other requests, returns the data of the first answer and
changes nothing, exactly when nothing was left to decide at the first one. -/
theorem submission_replays_iff (t : TransitionService) (before later : List Occurrence)
    (r r' : Request) (hr : r.Repeats r') (first : Reply) (db : Db)
    (hfirst : postEvents t.service r (exec (History.next t) {} before).store.db = .ok (first, db))
    (hsuccess : first.success) :
    Replays t.service
        (exec (History.next t) {} (before ++ .request (.events r) :: later)).store.db r' first ↔
      r.Settled t.service (exec (History.next t) {} before).store.db := by
  obtain ⟨response, hstored, hiff⟩ := postEvents_answer hfirst hsuccess
  obtain ⟨event, hobserved, -⟩ := bind_ok.mp hfirst
  rw [exec_append, exec_cons]
  generalize exec (History.next t) {} before = h at hfirst hiff hobserved ⊢
  rw [← request_after hfirst] at hstored
  rw [← hiff]
  exact answer_replays_iff hr hobserved (answer_kept hstored later)

/-! ## An observation that projects a state -/

/-- The event of the observation. -/
def firstObservation : Request := observed "key-1" "evt-1" 100 0

theorem firstObservation_completed : ∃ first db,
    postEvents sampleService.service firstObservation (exec (History.next sampleService) {} []).store.db =
      .ok (first, db) ∧ first.success := by
  have hstatus : ((postEvents sampleService.service firstObservation
      (exec (History.next sampleService) {} []).store.db).toOption.map fun p => p.1.status) =
        some 201 := by decide +kernel
  obtain ⟨⟨first, db⟩, hfirst, hcreated⟩ := Option.map_eq_some_iff.mp hstatus
  refine ⟨first, db, toOption_ok.mp hfirst, ?_⟩
  show first.status < 300
  rw [hcreated]
  decide

theorem submission_replays_iff_observed : ∃ first,
    (Replays sampleService.service (exec (History.next sampleService) {}
        ([] ++ .request (.events firstObservation) :: [])).store.db firstObservation first ↔
      firstObservation.Settled sampleService.service
        (exec (History.next sampleService) {} []).store.db) := by
  obtain ⟨first, db, hfirst, hsuccess⟩ := firstObservation_completed
  exact ⟨first, submission_replays_iff sampleService [] [] firstObservation firstObservation
    ⟨rfl, rfl⟩ first db hfirst hsuccess⟩

/-- The first answer names the next version of the state, the repeated one the version before. -/
theorem projected_answer_differs : ∃ first db,
    postEvents sampleService.service firstObservation
        (exec (History.next sampleService) {} []).store.db = .ok (first, db) ∧ first.success ∧
      ¬ Replays sampleService.service (exec (History.next sampleService) {}
        [.request (.events firstObservation)]).store.db firstObservation first := by
  obtain ⟨first, db, hfirst, hsuccess⟩ := firstObservation_completed
  refine ⟨first, db, hfirst, hsuccess, ?_⟩
  obtain ⟨response, hstored, hiff⟩ := postEvents_answer hfirst hsuccess
  obtain ⟨event, hobserved, -⟩ := bind_ok.mp hfirst
  rw [← request_after hfirst] at hstored
  rw [exec_cons, exec_nil]
  intro hagain
  have hsame := (@answer_replays_iff _ firstObservation firstObservation _ first _ _ _ ⟨rfl, rfl⟩
    hobserved hstored).mp hagain
  rcases hiff.mp hsame with hkey | ⟨eventId, -, htaken⟩
  · exact hkey rfl
  · exact htaken rfl

end Edon.Platform
