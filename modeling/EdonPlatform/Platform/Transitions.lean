import EdonPlatform.Lib.Run
import EdonPlatform.Platform.Release

/- Runs of the transition service. A transition writes the release, the journal, the
   outbox and the idempotency record in one transaction; attempts come in any order, with
   any faults, and repeat or share their keys.

   What is proved:
     1. `release_protocol` — after every run, the events of each release are a path of the
        transition table from its first state to its state, as long as its version has
        grown; every event has one message; an attempt that fails has changed nothing; and
        an attempt that succeeded returns the same result whenever it is repeated. -/
namespace Edon.Platform
open Transition Js Fallible

/-- The events, in this order, lead from one state and version of a release to another. -/
inductive Path : InstitutionReleaseState → Int → List EventEnvelope →
    InstitutionReleaseState → Int → Prop where
  | nil (state : InstitutionReleaseState) (version : Int) : Path state version [] state version
  | snoc {first state next : InstitutionReleaseState} {initial version : Int}
      {events : List EventEnvelope} {e : EventEnvelope} :
      Path first initial events state version → next ∈ state.transitions →
      e.stateVersionBefore = version → e.stateVersionAfter = version + 1 →
      field e.payload "previous_state" = some (.str state.name) →
      field e.payload "next_state" = some (.str next.name) →
      Path first initial (events ++ [e]) next (version + 1)

theorem Path.version {first last : InstitutionReleaseState} {initial version : Int}
    {events : List EventEnvelope} (h : Path first initial events last version) :
    version = initial + events.length := by
  induction h with
  | nil => simp
  | snoc _ _ _ _ _ _ ih =>
    rw [ih, List.length_append, List.length_singleton]
    push_cast
    omega

/-- The transitions of the release with the key, in the order of the journal. -/
def ReleaseStore.transitions (store : ReleaseStore) (key : String × String) :
    List EventEnvelope :=
  store.db.journal.rows.filter fun e =>
    e.eventType = .institutionReleaseTransitioned ∧ (e.scopeId, e.incidentId) = key

/-- No transition has been journaled or announced. -/
structure ReleaseStore.Untouched (store : ReleaseStore) : Prop where
  journal : ∀ e ∈ store.db.journal.rows, e.eventType ≠ .institutionReleaseTransitioned
  outbox : ∀ row ∈ store.db.outbox.rows, ∀ result : TransitionResult,
    row.message.payload ≠ result.toJson

section
variable {s : TransitionService}

/-! ## One transition -/

theorem assertInstitutionTransition_ok {current state : InstitutionReleaseState} {next : String}
    {gate : InstitutionGate} {expectedVersion : Number} {actualVersion : Int}
    (h : assertInstitutionTransition current next gate expectedVersion actualVersion = .ok state) :
    expectedVersion = .finite actualVersion ∧ state ∈ current.transitions ∧ state.name = next := by
  obtain ⟨_, hversion, h⟩ := bind_ok.mp h
  obtain ⟨found, hfound, h⟩ := bind_ok.mp h
  obtain ⟨_, _, h⟩ := bind_ok.mp h
  cases h
  have hfind := orRaise_ok.mp hfound
  exact ⟨of_decide_eq_true (require_ok.mp hversion), List.mem_of_find?_eq_some hfind,
    by simpa using List.find?_some hfind⟩

/-- What an attempt that is admitted may rely on. -/
structure Admitted (a : Attempt) (store : ReleaseStore) (release : InstitutionRelease)
    (state : InstitutionReleaseState) : Prop where
  mem : release ∈ store.releases.rows
  key : release.key = (a.request.institutionId, a.request.releaseId)
  expectedState : release.lifecycleState.name = a.request.expectedState
  expectedVersion : a.request.expectedVersion = .finite release.version
  next : state ∈ release.lifecycleState.transitions
  nextState : state.name = a.request.nextState

theorem admitted_ok {a : Attempt} {store : ReleaseStore} {release : InstitutionRelease}
    {state : InstitutionReleaseState} (h : a.admitted store = .ok (release, state)) :
    Admitted a store release state := by
  obtain ⟨found, hfound, h⟩ := bind_ok.mp h
  obtain ⟨_, hinstitution, h⟩ := bind_ok.mp h
  obtain ⟨_, _, h⟩ := bind_ok.mp h
  obtain ⟨next, hassert, h⟩ := bind_ok.mp h
  obtain ⟨_, hexpected, h⟩ := bind_ok.mp h
  cases h
  obtain ⟨hversion, hnext, hname⟩ := assertInstitutionTransition_ok hassert
  have hmem := List.mem_of_getElem? (orRaise_ok.mp hfound)
  obtain ⟨hmem, hid⟩ := List.mem_filter.mp hmem
  exact {
    mem := hmem
    key := Prod.ext (of_decide_eq_true (require_ok.mp hinstitution)) (of_decide_eq_true hid)
    expectedState := of_decide_eq_true (require_ok.mp hexpected)
    expectedVersion := hversion
    next := hnext
    nextState := hname }

theorem Admitted.of_releases {a : Attempt} {store store' : ReleaseStore}
    {release : InstitutionRelease} {state : InstitutionReleaseState}
    (h : Admitted a store release state) (hreleases : store.releases = store'.releases) :
    Admitted a store' release state :=
  { h with mem := hreleases ▸ h.mem }

/-- The release is the only row that the update selects. -/
theorem selected_unique {rows : List InstitutionRelease} {p : InstitutionRelease → Bool}
    {release : InstitutionRelease} (hlength : (rows.filter p).length = 1)
    (hmem : release ∈ rows.filter p) : ∀ r ∈ rows, p r = true → r = release := by
  obtain ⟨only, honly⟩ := List.length_eq_one_iff.mp hlength
  rw [honly, List.mem_singleton] at hmem
  intro r hr hp
  have hr : r ∈ rows.filter p := List.mem_filter.mpr ⟨hr, hp⟩
  rw [honly, List.mem_singleton] at hr
  rw [hr, hmem]

/-- Where one row was updated, it was the release that was admitted. -/
theorem transitioned_get {a : Attempt} {store : ReleaseStore} {release : InstitutionRelease}
    {state : InstitutionReleaseState} (hadmitted : Admitted a store release state)
    (h : (transitionInstitutionRelease a.request.releaseId a.request.expectedState
      a.request.expectedVersion state a.request.correlationId a.request.traceId store).1 = true)
    (key : String × String) :
    (transitionInstitutionRelease a.request.releaseId a.request.expectedState
      a.request.expectedVersion state a.request.correlationId a.request.traceId store).2.releases.get
        key =
      if key = release.key then
        some (release.moved state a.request.correlationId a.request.traceId)
      else store.releases.get key := by
  have hselected : release.selected a.request.releaseId a.request.expectedState
      a.request.expectedVersion = true := by
    have hid : release.releaseId = a.request.releaseId := congrArg Prod.snd hadmitted.key
    exact decide_eq_true ⟨hid, hadmitted.expectedState, hadmitted.expectedVersion.symm⟩
  have honly := selected_unique (of_decide_eq_true h)
    (List.mem_filter.mpr ⟨hadmitted.mem, hselected⟩)
  unfold transitionInstitutionRelease
  dsimp only
  rw [Table.get_update]
  split
  · next hkey =>
    subst hkey
    rw [Table.get_of_mem hadmitted.mem, Option.map_some, if_pos hselected]
  · next hkey =>
    cases hget : store.releases.get key with
    | none => rfl
    | some r =>
      rw [Option.map_some, if_neg]
      intro hr
      apply hkey
      rw [← Table.get_key hget, honly r (Table.mem_of_get hget) hr]

/-- What a transition writes. -/
structure Moves (s : TransitionService) (a : Attempt) (store store' : ReleaseStore)
    (release : InstitutionRelease) (state : InstitutionReleaseState) : Prop where
  admitted : Admitted a store release state
  releases : ∀ key, store'.releases.get key =
    if key = release.key then
      some (release.moved state a.request.correlationId a.request.traceId)
    else store.releases.get key
  journal : ∃ db : Db, store'.db.journal.rows =
    store.db.journal.rows ++ [(a.event s (a.request.result s release) db).journaled]
  outbox : store'.db.outbox.rows = store.db.outbox.rows ++
    [{ message := s.message (a.request.result s release), availableAt := a.now, createdAt := a.now }]
  idempotency : ∀ key, store'.db.idempotency.get key =
    if key = a.request.operationKey then some (a.request.result s release).toJson
    else store.db.idempotency.get key

theorem stored_result (result : TransitionResult) : stored result.toJson = result.toJson := rfl

theorem enqueueOutbox_enqueued {now : Int} {message : OutboxMessage} {outbox outbox' : Outbox}
    (h : enqueueOutbox now message outbox = .ok (true, outbox')) :
    outbox'.rows = outbox.rows ++ [{ message, availableAt := now, createdAt := now }] := by
  unfold enqueueOutbox at h
  split at h
  · cases h
  · split at h
    · next hinsert =>
      cases h
      exact (Table.rows_insert hinsert).1
    · cases h

theorem appendEvent_appended {e : EventEnvelope} {db db' : Db}
    (h : db.appendEvent s.pg e = .ok (true, db')) :
    ∃ journal, db.journal.insert e.journaled = some journal ∧ db' = { db with journal } := by
  obtain ⟨_, _, h⟩ := bind_ok.mp h
  have h := Except.ok.inj h
  split at h
  · next hinsert =>
    cases h
    exact ⟨_, hinsert, rfl⟩
  · cases h

theorem putIdempotencyResponse_claimed (db : Db) {key : String} {claimed : Value}
    (h : db.idempotency.get key = some claimed) (response : Value) :
    (db.putIdempotencyResponse key response).journal = db.journal ∧
      (db.putIdempotencyResponse key response).outbox = db.outbox ∧
      ∀ key', (db.putIdempotencyResponse key response).idempotency.get key' =
        if key' = key then some (stored response) else db.idempotency.get key' := by
  unfold Db.putIdempotencyResponse
  rw [h]
  refine ⟨rfl, rfl, ?_⟩
  intro key'
  rw [Dict.get_set]
  simp only [eq_comm]

theorem lift_ok {α : Type} {x : Except Thrown α} {v : α} (h : lift x = .ok v) : x = .ok v := by
  unfold lift at h
  split at h <;> cases h
  rfl

theorem write_ok {a : Attempt} {release : InstitutionRelease} {state : InstitutionReleaseState}
    {store store' : ReleaseStore} {v : Value} (hadmitted : Admitted a store release state)
    (hclaimed : (store.db.idempotency.get a.request.operationKey).isSome = true)
    (h : a.write s release state store = .ok (v, store')) :
    v = (a.request.result s release).toJson ∧ Moves s a store store' release state := by
  obtain ⟨_, hupdated, h⟩ := bind_ok.mp h
  obtain ⟨_, _, h⟩ := bind_ok.mp h
  obtain ⟨⟨appended, db⟩, happend, h⟩ := bind_ok.mp h
  obtain ⟨_, happended, h⟩ := bind_ok.mp h
  obtain ⟨_, _, h⟩ := bind_ok.mp h
  obtain ⟨⟨enqueued, outbox⟩, henqueue, h⟩ := bind_ok.mp h
  obtain ⟨_, henqueued, h⟩ := bind_ok.mp h
  obtain ⟨_, _, h⟩ := bind_ok.mp h
  cases h
  have happended : appended = true := require_ok.mp happended
  have henqueued : enqueued = true := require_ok.mp henqueued
  subst happended henqueued
  obtain ⟨journal, hinsert, rfl⟩ := appendEvent_appended (lift_ok happend)
  have houtbox := enqueueOutbox_enqueued (lift_ok henqueue)
  obtain ⟨claimed, hclaimed⟩ := Option.isSome_iff_exists.mp hclaimed
  obtain ⟨hjournal, hmessages, hresponses⟩ := putIdempotencyResponse_claimed
    { store.db with journal, outbox } hclaimed (a.request.result s release).toJson
  refine ⟨rfl, hadmitted, transitioned_get hadmitted (require_ok.mp hupdated),
    ⟨store.db, ?_⟩, ?_, hresponses⟩
  · exact (congrArg Table.rows hjournal).trans (Table.rows_insert hinsert).1
  · exact (congrArg Table.rows hmessages).trans houtbox

theorem claimIdempotency_cases (key : String) (response : Value) (db : Db) :
    (∃ existing, db.idempotency.get key = some existing ∧
      db.claimIdempotency key response = (false, existing, db)) ∨
    (db.idempotency.get key = none ∧ db.claimIdempotency key response =
      (true, response, { db with idempotency := db.idempotency.set key (stored response) })) := by
  unfold Db.claimIdempotency
  cases hget : db.idempotency.get key with
  | none => exact .inr ⟨rfl, rfl⟩
  | some existing => exact .inl ⟨existing, rfl, rfl⟩

/-- The claim finds a response and returns it, or it is followed by the transition. -/
theorem claim_cases {a : Attempt} {store store' : ReleaseStore} {v : Value}
    (h : a.claim s store = .ok (v, store')) :
    (store' = store ∧ store.db.idempotency.get a.request.operationKey = some v) ∨
      store.db.idempotency.get a.request.operationKey = none ∧ ∃ release state,
        v = (a.request.result s release).toJson ∧ Moves s a store store' release state := by
  unfold Attempt.claim at h
  rcases claimIdempotency_cases a.request.operationKey (.obj [("status", .str "PROCESSING")])
    store.db with ⟨existing, hexisting, hclaim⟩ | ⟨hnone, hclaim⟩
  · simp only [hclaim] at h
    split at h <;> cases h
    exact .inl ⟨rfl, hexisting⟩
  · simp only [hclaim] at h
    obtain ⟨⟨release, state⟩, hadmitted, h⟩ := bind_ok.mp h
    have hadmitted := admitted_ok hadmitted
    obtain ⟨hv, hmoves⟩ := write_ok hadmitted (by simp) h
    refine .inr ⟨hnone, release, state, hv, ?_⟩
    -- before the claim of the key everything else was the same
    refine ⟨hadmitted.of_releases rfl, hmoves.releases, hmoves.journal, hmoves.outbox, ?_⟩
    intro key
    rw [hmoves.idempotency key]
    split
    · rfl
    · next hne =>
      rw [Dict.get_set_ne]
      exact fun heq => hne heq.symm

/-- An attempt repeats an earlier one and changes nothing, or it is a transition. -/
theorem transition_cases {a : Attempt} {store store' : ReleaseStore} {v : Value}
    (h : transition s a store = .ok (v, store')) :
    a.request.idempotencyKey ≠ "" ∧
      ((store' = store ∧ store.db.idempotency.get a.request.operationKey = some v) ∨
        store.db.idempotency.get a.request.operationKey = none ∧ ∃ release state,
          v = (a.request.result s release).toJson ∧ Moves s a store store' release state) := by
  obtain ⟨_, hkey, h⟩ := bind_ok.mp h
  refine ⟨of_decide_eq_true (require_ok.mp hkey), ?_⟩
  split at h
  · next existing hexisting =>
    split at h
    · cases h
      exact .inl ⟨rfl, hexisting⟩
    · exact claim_cases h
  · exact claim_cases h

/-- An attempt whose key has a response returns it. -/
theorem transition_repeated {a : Attempt} {store : ReleaseStore} {v : Value}
    (hkey : a.request.idempotencyKey ≠ "")
    (h : store.db.idempotency.get a.request.operationKey = some v) :
    transition s a store = .ok (v, store) := by
  refine bind_ok.mpr ⟨(), require_ok.mpr (decide_eq_true hkey), ?_⟩
  have hget : store.db.getIdempotency a.request.operationKey = some v := h
  simp only [hget]
  cases htruthy : Js.truthy (some v) with
  | true => rfl
  | false =>
    -- what reads as false is no object
    have hstatus : isText (field v "status") "PROCESSING" = false := by
      cases v with
      | obj kvs => cases htruthy
      | _ => rfl
    show a.claim s store = _
    unfold Attempt.claim Db.claimIdempotency
    simp [h, hstatus]

/-! ## Whole runs -/

/-- What every run keeps, from the store it starts with. -/
structure Governed (start store : ReleaseStore) : Prop where
  paths : ∀ key release, start.releases.get key = some release → ∃ release',
    store.releases.get key = some release' ∧
      Path release.lifecycleState release.version (store.transitions key)
        release'.lifecycleState release'.version
  releases : ∀ key, start.releases.get key = none → store.releases.get key = none
  announced : ∀ e ∈ store.db.journal.rows, e.eventType = .institutionReleaseTransitioned →
    ∃ result : TransitionResult, e.payload = result.toJson ∧ result.outboxId = e.eventId ∧
      ∃ row ∈ store.db.outbox.rows, row.message.payload = e.payload
  messages : ∀ row ∈ store.db.outbox.rows, row ∈ start.db.outbox.rows ∨
    ∃ result : TransitionResult, row.message.payload = result.toJson ∧
      row.outboxId = result.outboxId

theorem governed_start {start : ReleaseStore} (h : start.Untouched) : Governed start start where
  paths key release hget := by
    refine ⟨release, hget, ?_⟩
    have hnil : start.transitions key = [] := by
      apply List.filter_eq_nil_iff.mpr
      intro e he
      simp [h.journal e he]
    rw [hnil]
    exact .nil _ _
  releases _ := id
  announced e he htype := absurd htype (h.journal e he)
  messages row hrow := .inl hrow

/-- The event of a transition continues the path of its release and of no other. -/
theorem transitions_moves {store store' : ReleaseStore} {a : Attempt}
    {release : InstitutionRelease} {state : InstitutionReleaseState}
    (hmoves : Moves s a store store' release state) (key : String × String) :
    ∃ e : EventEnvelope, e.payload = (a.request.result s release).toJson ∧
      e.stateVersionBefore = release.version ∧ e.stateVersionAfter = release.version + 1 ∧
      store'.transitions key = store.transitions key ++ if key = release.key then [e] else [] := by
  obtain ⟨db, hjournal⟩ := hmoves.journal
  refine ⟨(a.event s (a.request.result s release) db).journaled, rfl, rfl, rfl, ?_⟩
  unfold ReleaseStore.transitions
  rw [hjournal, List.filter_append, hmoves.admitted.key]
  congr 1
  split
  · next hkey =>
    apply List.filter_cons_of_pos
    exact decide_eq_true ⟨rfl, hkey.symm⟩
  · next hkey =>
    apply List.filter_cons_of_neg
    intro hmatch
    exact hkey (of_decide_eq_true hmatch).2.symm

theorem governed_moves {start store store' : ReleaseStore} {a : Attempt}
    {release : InstitutionRelease} {state : InstitutionReleaseState} (h : Governed start store)
    (hmoves : Moves s a store store' release state) : Governed start store' := by
  have hrow : ∃ row ∈ store'.db.outbox.rows,
      row.message = s.message (a.request.result s release) := by
    rw [hmoves.outbox]
    exact ⟨_, List.mem_append_right _ (List.mem_singleton.mpr rfl), rfl⟩
  refine ⟨?_, ?_, ?_, ?_⟩
  · intro key first hfirst
    obtain ⟨last, hlast, hpath⟩ := h.paths key first hfirst
    obtain ⟨e, hpayload, hbefore, hafter, htransitions⟩ := transitions_moves hmoves key
    rw [hmoves.releases, htransitions]
    split
    · next hkey =>
      rw [hkey, Table.get_of_mem hmoves.admitted.mem] at hlast
      cases hlast
      refine ⟨_, rfl, .snoc hpath hmoves.admitted.next hbefore hafter ?_ ?_⟩
      · rw [hpayload, hmoves.admitted.expectedState]
        rfl
      · show _ = some (Value.str state.name)
        rw [hpayload, hmoves.admitted.nextState]
        rfl
    · rw [List.append_nil]
      exact ⟨last, hlast, hpath⟩
  · intro key hnone
    rw [hmoves.releases]
    split
    · next hkey =>
      have hget := h.releases key hnone
      rw [hkey, Table.get_of_mem hmoves.admitted.mem] at hget
      cases hget
    · exact h.releases key hnone
  · intro e he htype
    obtain ⟨db, hjournal⟩ := hmoves.journal
    rw [hjournal] at he
    rcases List.mem_append.mp he with he | he
    · obtain ⟨result, hpayload, hid, row, hmem, hsame⟩ := h.announced e he htype
      refine ⟨result, hpayload, hid, row, ?_, hsame⟩
      rw [hmoves.outbox]
      exact List.mem_append_left _ hmem
    · obtain ⟨row, hmem, hmessage⟩ := hrow
      rw [List.mem_singleton.mp he]
      exact ⟨a.request.result s release, rfl, rfl, row, hmem, by rw [hmessage]; rfl⟩
  · intro row hmem
    rw [hmoves.outbox] at hmem
    rcases List.mem_append.mp hmem with hmem | hmem
    · exact h.messages row hmem
    · rw [List.mem_singleton.mp hmem]
      exact .inr ⟨a.request.result s release, rfl, rfl⟩

theorem afterAttempt_error {a : Attempt} {store : ReleaseStore} {e : TransitionError}
    (h : transition s a store = .error e) : afterAttempt s store a = store := by
  unfold afterAttempt
  rw [h]

theorem governed_attempt {start store : ReleaseStore} (h : Governed start store) (a : Attempt) :
    Governed start (afterAttempt s store a) := by
  unfold afterAttempt
  cases hresult : transition s a store with
  | error e => exact h
  | ok result =>
    obtain ⟨v, store'⟩ := result
    obtain ⟨_, ⟨rfl, _⟩ | ⟨_, release, state, _, hmoves⟩⟩ := transition_cases hresult
    · exact h
    · exact governed_moves h hmoves

/-- Two messages with the payload of one transition are the same. -/
theorem message_unique {start store : ReleaseStore} (huntouched : start.Untouched)
    (h : Governed start store) {e : EventEnvelope} (he : e ∈ store.db.journal.rows)
    (htype : e.eventType = .institutionReleaseTransitioned) :
    ∃! row, row ∈ store.db.outbox.rows ∧ row.message.payload = e.payload := by
  obtain ⟨result, hpayload, _, row, hmem, hsame⟩ := h.announced e he htype
  have hid : ∀ row ∈ store.db.outbox.rows, row.message.payload = e.payload →
      row.outboxId = result.outboxId := by
    intro row hmem hsame
    rcases h.messages row hmem with hstart | ⟨result', hpayload', hid⟩
    · exact absurd (hsame.trans hpayload) (huntouched.outbox row hstart result)
    · have hjson := hpayload'.symm.trans (hsame.trans hpayload)
      have hfield := congrArg (fun v => field v "outbox_id") hjson
      exact hid.trans (Value.str.inj (Option.some.inj hfield))
  refine ⟨row, ⟨hmem, hsame⟩, ?_⟩
  rintro other ⟨hother, hsame'⟩
  exact Table.eq_of_key hother hmem ((hid other hother hsame').trans (hid row hmem hsame).symm)

/-- A response, once there, stays. -/
theorem idempotency_kept {store : ReleaseStore} {key : String} {v : Value}
    (h : store.db.idempotency.get key = some v) (a : Attempt) :
    (afterAttempt s store a).db.idempotency.get key = some v := by
  unfold afterAttempt
  cases hresult : transition s a store with
  | error e => exact h
  | ok result =>
    obtain ⟨v', store'⟩ := result
    obtain ⟨_, ⟨rfl, _⟩ | ⟨hnone, release, state, _, hmoves⟩⟩ := transition_cases hresult
    · exact h
    · show store'.db.idempotency.get key = some v
      rw [hmoves.idempotency, if_neg, h]
      rintro rfl
      rw [hnone] at h
      cases h

end

/-- What holds of every store that is reached from the first. -/
structure ReleaseStore.Consistent (start store : ReleaseStore) : Prop where
  releases : ∀ release ∈ start.releases.rows, ∃ release' ∈ store.releases.rows,
    release'.key = release.key ∧
    release'.version = release.version + (store.transitions release.key).length ∧
    Path release.lifecycleState release.version (store.transitions release.key)
      release'.lifecycleState release'.version
  known : ∀ release ∈ store.releases.rows, ∃ release' ∈ start.releases.rows,
    release'.key = release.key
  messages : ∀ e ∈ store.db.journal.rows, e.eventType = .institutionReleaseTransitioned →
    ∃! row, row ∈ store.db.outbox.rows ∧ row.message.payload = e.payload

theorem consistent_governed {start store : ReleaseStore} (huntouched : start.Untouched)
    (h : Governed start store) : start.Consistent store where
  releases release hmem := by
    obtain ⟨release', hget, hpath⟩ := h.paths release.key release (Table.get_of_mem hmem)
    exact ⟨release', Table.mem_of_get hget, Table.get_key hget, hpath.version, hpath⟩
  known release hmem := by
    have hget := Table.get_of_mem hmem
    cases hstart : start.releases.get release.key with
    | none =>
      rw [h.releases _ hstart] at hget
      cases hget
    | some release' => exact ⟨release', Table.mem_of_get hstart, Table.get_key hstart⟩
  messages e he htype := message_unique huntouched h he htype

/-- **Release transitions.** After every run, the releases, their events and their messages
fit together; an attempt that fails leaves every table as it is; and a request that
succeeded returns the same result whenever it is repeated, and changes nothing. -/
theorem release_protocol (s : TransitionService) (start : ReleaseStore) (h : start.Untouched)
    (attempts : List Attempt) :
    start.Consistent (exec (afterAttempt s) start attempts) ∧
    ∀ a,
      (∀ e, transition s a (exec (afterAttempt s) start attempts) = .error e →
        exec (afterAttempt s) start (attempts ++ [a]) = exec (afterAttempt s) start attempts) ∧
      (∀ v store, transition s a (exec (afterAttempt s) start attempts) = .ok (v, store) →
        ∀ later a', a'.request = a.request →
          transition s a' (exec (afterAttempt s) store later) =
            .ok (v, exec (afterAttempt s) store later)) := by
  have hgoverned : Governed start (exec (afterAttempt s) start attempts) :=
    exec_invariant (I := Governed start) (fun _ a h => governed_attempt h a) (governed_start h)
      attempts
  refine ⟨consistent_governed h hgoverned, ?_⟩
  intro a
  constructor
  · intro e herror
    rw [exec_append]
    exact afterAttempt_error herror
  · intro v store hok later a' hsame
    obtain ⟨hkey, hcases⟩ := transition_cases hok
    have hresponse : store.db.idempotency.get a.request.operationKey = some v := by
      rcases hcases with ⟨rfl, hget⟩ | ⟨_, release, state, rfl, hmoves⟩
      · exact hget
      · rw [hmoves.idempotency, if_pos rfl]
    have hlater := exec_invariant (f := afterAttempt s)
      (I := fun store => store.db.idempotency.get a.request.operationKey = some v)
      (fun _ a h => idempotency_kept h a) hresponse later
    apply transition_repeated
    · rw [hsame]
      exact hkey
    · rw [hsame]
      exact hlater

/-- A release that was just created. -/
def sampleRelease : InstitutionRelease where
  institutionId := "northstar"
  releaseId := "REL-1"
  candidateId := "CAND-1"
  version := 1
  lifecycleState := .draft
  manifestHash := "sha256:manifest"
  signatureStatus := "SIGNATURE_PENDING"
  correlationId := none
  traceId := none
  payload := .obj []

def sampleStore : ReleaseStore := { releases := ⟨[sampleRelease], by simp⟩ }

def sampleService : TransitionService where
  js := { Runtime.sample with numberToString := fun q => toString q.num }
  pg := ⟨fun _ => some 0, fun a b => decide (a ≤ b)⟩
  tenantId := "tenant"
  sha256 := id
  stringify
    | .str text => text
    | _ => ""

/-- The release is extracted; the first time a fault is raised after the journal append. -/
def sampleAttempt (fault : Bool) : Attempt where
  request := {
    institutionId := "northstar", releaseId := "REL-1", expectedState := "DRAFT"
    expectedVersion := .finite 1, nextState := "EXTRACTED", actorId := "operator"
    actorType := "HUMAN", reason := "sources read", correlationId := "corr-1"
    traceId := "trace-1", idempotencyKey := "key-1", occurredAt := "2026-09-24T00:00:00Z"
    gate := none }
  recordedAt := "2026-09-24T00:00:00Z"
  now := 0
  faults point := fault && point = .afterJournalAppend
  order := 0

theorem release_protocol_sample : sampleStore.Consistent
    (exec (afterAttempt sampleService) sampleStore [sampleAttempt true, sampleAttempt false]) :=
  (release_protocol sampleService sampleStore
    ⟨fun _ he => absurd he (by simp [sampleStore]), fun _ hrow => absurd hrow (by simp [sampleStore])⟩
    [sampleAttempt true, sampleAttempt false]).1

/-- The fault is rolled back and the second attempt succeeds. -/
example : ((exec (afterAttempt sampleService) sampleStore
    [sampleAttempt true, sampleAttempt false]).releases.rows.map InstitutionRelease.version,
    ((exec (afterAttempt sampleService) sampleStore
      [sampleAttempt true, sampleAttempt false]).transitions sampleRelease.key).length) =
    ([2], 1) := by
  decide +kernel

end Edon.Platform
