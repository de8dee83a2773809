import EdonPlatform.Lib.Run
import EdonPlatform.Platform.Server

/- The journal and the snapshots under runs of `POST /v1/events`. The state of a scope is
   kept twice: as the projection of its events, and as its row in `state_snapshots`.

   What is proved:
     1. `agreement_iff` — over every sequence of requests, on any scopes, the two agree
        after every committed request and none fails on a conflict of states, exactly
        when every request that moves the state carries numbers the projector accepts
        and finds the id of its projection free.
     2. `negative_commitments_diverge` — a request with a negative number of commitments
        at risk: the snapshot moves and the projection does not. -/
namespace Edon.Platform
open Transition Js Fallible

section
variable (s : Service)

/-- The projection of the scope's journal is what its snapshot holds; a scope without a
snapshot is at version 141. -/
def Db.Agrees (db : Db) (scopeId : String) : Prop :=
  match db.snapshots.get scopeId with
  | some row => row.version = (state s db scopeId).version ∧
      row.values = (state s db scopeId).values.toJson
  | none => (state s db scopeId).version = 141

/-- The database after the request; a handler that throws changes nothing. -/
def afterEvents (db : Db) (r : Request) : Db :=
  match postEvents s r db with
  | .ok (_, db') => db'
  | .error _ => db

/-- Every scope agrees, and the request did not fail on a conflict. -/
def Db.AgreesAfter (db : Db) (r : Request) (db' : Db) : Prop :=
  (∀ scopeId, db'.Agrees s scopeId) ∧ postEvents s r db ≠ .error .stateConflict

/-- The request is new, up to date and carries evidence that moves the state. -/
structure Request.Moves (r : Request) (db : Db) (event : EventEnvelope) : Prop where
  observed : observation s r db = .ok event
  key : db.idempotency.get ("POST:/v1/events:" ++ r.bind.idempotencyKey) = none
  current : r.bind.stale event.stateVersionBefore = false
  instant : (s.pg.instant r.bind.requestTimestamp).isSome = true
  fresh : db.journal.get event.eventId = none
  admissible : (evidence event).any EvidenceRecord.admissible = true
  named : ∀ record ∈ evidence event, ∃ text, toText s.js record.evidenceId = .ok text

/-- The numbers of the payload are such that the projector accepts them once they are
stored, and the id of the projection is free. -/
def Request.Projectable (r : Request) (db : Db) : Prop :=
  ∀ event capacity commitments, r.Moves s db event →
    number (field event.payload "capacity_units") = some capacity →
    toNumber s.js (orDefault (field event.payload "commitments_at_risk") (.num (.finite 0))) =
      .ok commitments →
    capacity ≠ .nan ∧ (∃ q, 0 ≤ q ∧ commitments = .finite q) ∧
      db.journal.get (event.eventId ++ ":state") = none

/-! ## The events of a scope -/

theorem mem_events {db : Db} {scopeId : String} {e : EventEnvelope} :
    e ∈ (db.getEvents s.pg none).filter (fun e => e.scopeId = scopeId) ↔
      e ∈ db.journal.rows ∧ e.scopeId = scopeId := by
  unfold Db.getEvents
  rw [List.mem_filter, List.mem_insertionSort, List.mem_filter]
  simp

/-- No two accepted events of a scope have the same version. -/
def Db.Distinct (db : Db) : Prop :=
  ∀ x ∈ db.journal.rows, ∀ y ∈ db.journal.rows, x.accepted = true → y.accepted = true →
    x.scopeId = y.scopeId → x.stateVersionAfter = y.stateVersionAfter → x = y

theorem Db.Distinct.scope {db : Db} (h : db.Distinct) (scopeId : String) :
    Platform.Distinct ((db.getEvents s.pg none).filter (fun e => e.scopeId = scopeId)) := by
  intro x hx y hy hxa hya hversion
  obtain ⟨hx, hxs⟩ := (mem_events s).mp hx
  obtain ⟨hy, hys⟩ := (mem_events s).mp hy
  exact h x hx y hy hxa hya (hxs.trans hys.symm) hversion

theorem state_congr {db db' : Db} (hdistinct : db.Distinct) {scopeId : String}
    (h : ∀ e, e.accepted = true → e.scopeId = scopeId →
      (e ∈ db.journal.rows ↔ e ∈ db'.journal.rows)) :
    state s db scopeId = state s db' scopeId := by
  apply project_congr s.js (hdistinct.scope s scopeId)
  intro e he
  rw [mem_events, mem_events]
  constructor
  · rintro ⟨hmem, hs⟩
    exact ⟨(h e he hs).mp hmem, hs⟩
  · rintro ⟨hmem, hs⟩
    exact ⟨(h e he hs).mpr hmem, hs⟩

/-! ## Events that project nothing -/

/-- The two databases have the same snapshots and messages, and the same accepted events. -/
structure Db.SameState (db db' : Db) : Prop where
  snapshots : db'.snapshots = db.snapshots
  outbox : db'.outbox = db.outbox
  accepted : ∀ e, e.accepted = true → (e ∈ db'.journal.rows ↔ e ∈ db.journal.rows)

theorem Db.SameState.refl (db : Db) : db.SameState db := ⟨rfl, rfl, fun _ _ => Iff.rfl⟩

theorem Db.SameState.trans {db db' db'' : Db} (h : db.SameState db') (h' : db'.SameState db'') :
    db.SameState db'' :=
  ⟨h'.snapshots.trans h.snapshots, h'.outbox.trans h.outbox,
    fun e he => (h'.accepted e he).trans (h.accepted e he)⟩

variable {s}

theorem Db.SameState.distinct {db db' : Db} (h : db.SameState db') (hd : db.Distinct) :
    db'.Distinct := by
  intro x hx y hy hxa hya
  exact hd x ((h.accepted x hxa).mp hx) y ((h.accepted y hya).mp hy) hxa hya

theorem Db.SameState.state {db db' : Db} (h : db.SameState db') (hd : db.Distinct)
    (scopeId : String) : state s db' scopeId = state s db scopeId :=
  (state_congr s hd (fun e he _ => (h.accepted e he).symm)).symm

theorem appendEvent_ok {e : EventEnvelope} {db db' : Db} {appended : Bool}
    (h : db.appendEvent s.pg e = .ok (appended, db')) :
    (appended = true ∧ ∃ journal, db.journal.insert e.journaled =
      some journal ∧ db' = { db with journal }) ∨ (appended = false ∧ db' = db) := by
  obtain ⟨_, _, h⟩ := bind_ok.mp h
  have h := Except.ok.inj h
  split at h
  · next hinsert =>
    cases h
    exact .inl ⟨rfl, _, hinsert, rfl⟩
  · cases h
    exact .inr ⟨rfl, rfl⟩

theorem appendEvent_total {e : EventEnvelope} (h : (s.pg.instant e.recordedAt).isSome = true)
    (db : Db) : ∃ appended db', db.appendEvent s.pg e = .ok (appended, db') ∧
      (appended = true ↔ db.journal.get e.eventId = none) := by
  obtain ⟨time, htime⟩ := Option.isSome_iff_exists.mp h
  unfold Db.appendEvent timestamptz
  rw [htime]
  cases hinsert : db.journal.insert e.journaled with
  | some journal =>
    refine ⟨true, { db with journal }, rfl, ?_⟩
    simp only [true_iff]
    exact (Table.rows_insert hinsert).2
  | none =>
    refine ⟨false, db, rfl, ?_⟩
    simp only [Bool.false_eq_true, false_iff]
    intro hnone
    obtain ⟨journal, hj⟩ := Table.insert_of_get (r := e.journaled) hnone
    rw [hinsert] at hj
    cases hj

/-- An event of another type is appended without moving any state. -/
theorem sameState_append {e : EventEnvelope} {db db' : Db} {appended : Bool}
    (h : db.appendEvent s.pg e = .ok (appended, db')) (htype : e.eventType ≠ .stateProjected) :
    db.SameState db' ∧ ∀ k, k ≠ e.eventId → db'.journal.get k = db.journal.get k := by
  rcases appendEvent_ok h with ⟨_, journal, hinsert, rfl⟩ | ⟨_, rfl⟩
  · refine ⟨⟨rfl, rfl, ?_⟩, ?_⟩
    · intro x hx
      rw [Table.mem_insert hinsert]
      refine ⟨fun h => h.resolve_right ?_, .inl⟩
      rintro rfl
      exact htype (of_decide_eq_true hx).1
    · intro k hk
      show journal.get k = _
      rw [Table.get_insert hinsert, if_neg (fun he => hk he.symm)]
  · exact ⟨.refl _, fun _ _ => rfl⟩

theorem evidenceEvent_ok {event admitted : EventEnvelope} {record : EvidenceRecord}
    (h : evidenceEvent s event record = .ok admitted) :
    admitted.eventType = .evidenceAdmitted ∧ admitted.recordedAt = event.recordedAt ∧
      ∃ text, admitted.eventId = event.eventId ++ ":evidence:" ++ text := by
  obtain ⟨text, _, h⟩ := bind_ok.mp h
  cases h
  exact ⟨rfl, rfl, text, rfl⟩

/-- The id of a projection is the id of no observation and of no evidence of the same event. -/
theorem state_id_ne (id text : String) : id ++ ":state" ≠ id ++ ":evidence:" ++ text := by
  intro h
  rw [String.append_assoc, String.append_right_inj] at h
  have h := congrArg String.toList h
  rw [String.toList_append] at h
  cases h

theorem state_id_ne_self (id : String) : id ++ ":state" ≠ id := by
  intro h
  have h := congrArg String.length h
  rw [String.length_append] at h
  have hlength : ":state".length = 6 := rfl
  omega

theorem sameState_evidence {event : EventEnvelope} {records : List EvidenceRecord} {db db' : Db}
    (h : journalEvidence s event records db = .ok db') :
    db.SameState db' ∧
      db'.journal.get (event.eventId ++ ":state") = db.journal.get (event.eventId ++ ":state") := by
  induction records generalizing db with
  | nil =>
    cases h
    exact ⟨.refl _, rfl⟩
  | cons record records ih =>
    obtain ⟨admitted, hadmitted, h⟩ := bind_ok.mp h
    obtain ⟨⟨appended, db₁⟩, happend, h⟩ := bind_ok.mp h
    obtain ⟨htype, _, text, hid⟩ := evidenceEvent_ok hadmitted
    obtain ⟨hsame, hframe⟩ := sameState_append happend (by simp [htype])
    obtain ⟨hsame', hget⟩ := ih h
    refine ⟨hsame.trans hsame', hget.trans (hframe _ ?_)⟩
    rw [hid]
    exact state_id_ne _ _

theorem journalEvidence_total {event : EventEnvelope}
    (hinstant : (s.pg.instant event.recordedAt).isSome = true) {records : List EvidenceRecord}
    (hnamed : ∀ record ∈ records, ∃ text, toText s.js record.evidenceId = .ok text) (db : Db) :
    ∃ db', journalEvidence s event records db = .ok db' := by
  induction records generalizing db with
  | nil => exact ⟨db, rfl⟩
  | cons record records ih =>
    obtain ⟨text, htext⟩ := hnamed record (by simp)
    have hadmitted : ∃ admitted, evidenceEvent s event record = .ok admitted := by
      unfold evidenceEvent
      rw [htext]
      exact ⟨_, rfl⟩
    obtain ⟨admitted, hadmitted⟩ := hadmitted
    obtain ⟨_, hrecorded, _⟩ := evidenceEvent_ok hadmitted
    obtain ⟨appended, db₁, happend, _⟩ := appendEvent_total (hrecorded ▸ hinstant) db
    obtain ⟨db', h⟩ := ih (fun r hr => hnamed r (List.mem_cons_of_mem _ hr)) db₁
    refine ⟨db', ?_⟩
    unfold journalEvidence
    rw [hadmitted]
    show (db.appendEvent s.pg admitted >>= _) = _
    rw [happend]
    exact h

/-! ## The event of a request -/

theorem observation_ok {r : Request} {db : Db} {event : EventEnvelope}
    (h : observation s r db = .ok event) :
    event.eventType = .observationReceived ∧ event.recordedAt = r.bind.requestTimestamp ∧
      event.stateVersionBefore = (state s db event.scopeId).version := by
  obtain ⟨_, _, h⟩ := bind_ok.mp h
  obtain ⟨_, _, h⟩ := bind_ok.mp h
  obtain ⟨_, _, h⟩ := bind_ok.mp h
  obtain ⟨_, _, h⟩ := bind_ok.mp h
  cases h
  exact ⟨rfl, rfl, rfl⟩

theorem admit_capacity {candidate : Value} {record : EvidenceRecord}
    (h : record ∈ admitEvidence candidate) : ∃ capacity,
      number (field candidate "capacity_units") = some capacity ∧ capacity.lt 0 = false ∧
        capacity.gt 10000 = false := by
  unfold admitEvidence at h
  split at h
  · next capacity hcapacity =>
    split at h
    · cases h
    · next hrange =>
      simp only [not_or, Bool.not_eq_true] at hrange
      exact ⟨capacity, hcapacity, hrange.2⟩
  · cases h

/-- Admitted evidence vouches for the capacity of the payload. -/
theorem evidence_capacity {event : EventEnvelope} {record : EvidenceRecord}
    (h : record ∈ evidence event) : ∃ capacity,
      number (field event.payload "capacity_units") = some capacity ∧ capacity.lt 0 = false ∧
        capacity.gt 10000 = false := by
  obtain ⟨capacity, hcapacity, hrange⟩ := admit_capacity h
  refine ⟨capacity, ?_, hrange⟩
  cases hpayload : event.payload with
  | obj kvs =>
    rw [hpayload] at hcapacity
    simp only [field, Assoc.find_put] at hcapacity ⊢
    exact hcapacity
  | null | bool _ | num _ | str _ | arr _ =>
    rw [hpayload] at hcapacity
    cases hcapacity

theorem number_field {v : Option Value} {n : Number} (h : number v = some n) :
    v = some (.num n) := by
  unfold number at h
  split at h <;> cases h
  rfl

theorem projectedEvent_ok {event : EventEnvelope} {capacity commitments : Number}
    (hcapacity : number (field event.payload "capacity_units") = some capacity)
    (hcommitments : toNumber s.js (orDefault (field event.payload "commitments_at_risk")
      (.num (.finite 0))) = .ok commitments) :
    projectedEvent s event = .ok (projection event capacity commitments) := by
  unfold projectedEvent
  rw [number_field hcapacity, hcommitments]
  rfl

/-- A number that is stored stays one if it is finite. -/
theorem number_stored (n : Number) : number (some (stored (.num n))) =
    match n with
    | .finite q => some (.finite q)
    | _ => none := by
  cases n <;> rfl

/-- What the projector makes of a projection that has been stored. -/
theorem projected_stored (event : EventEnvelope) {capacity : Number} (commitments : Number)
    (hlow : capacity.lt 0 = false) (hhigh : capacity.gt 10000 = false) :
    (projected (stored (projection event capacity commitments).payload) = some (capacity, commitments) ∧
      capacity ≠ .nan ∧ ∃ q, 0 ≤ q ∧ commitments = .finite q) ∨
    (projected (stored (projection event capacity commitments).payload) = none ∧
      ¬ (capacity ≠ .nan ∧ ∃ q, 0 ≤ q ∧ commitments = .finite q)) := by
  have hcapacity : field (stored (projection event capacity commitments).payload) "capacity_units" =
      some (stored (.num capacity)) := field_stored _ _
  have hcommitments : field (stored (projection event capacity commitments).payload)
      "commitments_at_risk" = some (stored (.num commitments)) := field_stored _ _
  unfold projected
  rw [hcapacity, hcommitments, number_stored, number_stored]
  cases capacity with
  | finite c =>
    have hlow : 0 ≤ c := by simpa [Number.lt] using hlow
    have hhigh : c ≤ 10000 := by simpa [Number.gt] using hhigh
    cases commitments with
    | finite q =>
      by_cases hq : 0 ≤ q
      · refine .inl ⟨?_, by simp, q, hq, rfl⟩
        simp [Number.ge, Number.le, hlow, hhigh, hq]
      · refine .inr ⟨by simp [Number.ge, hq], ?_⟩
        rintro ⟨_, q', hq', heq⟩
        cases heq
        exact hq hq'
    | _ =>
      refine .inr ⟨rfl, ?_⟩
      rintro ⟨_, q', _, heq⟩
      cases heq
  | nan => exact .inr ⟨rfl, fun h => h.1 rfl⟩
  | posInf => simp [Number.gt] at hhigh
  | negInf => simp [Number.lt] at hlow

/-! ## One request -/

variable (s) in
/-- What every run keeps. -/
structure Db.Synced (db : Db) : Prop where
  agrees : ∀ scopeId, db.Agrees s scopeId
  distinct : db.Distinct
  outbox : ∀ row ∈ db.outbox.rows, ∃ id, row.message.outboxId = "outbox-" ++ id ∧
    row.message.dedupeKey = "event:" ++ id ++ ":projected"

theorem synced_of_sameState {db db' : Db} (h : db.Synced s) (hsame : db.SameState db') :
    db'.Synced s := by
  refine ⟨?_, hsame.distinct h.distinct, ?_⟩
  · intro scopeId
    have hagrees := h.agrees scopeId
    unfold Db.Agrees at hagrees ⊢
    rw [hsame.snapshots, hsame.state h.distinct scopeId]
    exact hagrees
  · rw [hsame.outbox]
    exact h.outbox

/-- The message of a projection is enqueued, or was before. -/
theorem enqueue_projection (db : Db) (h : ∀ row ∈ db.outbox.rows, ∃ id,
      row.message.outboxId = "outbox-" ++ id ∧
      row.message.dedupeKey = "event:" ++ id ++ ":projected") (now : Int) (event : EventEnvelope) :
    ∃ outbox, db.enqueueOutbox now (projectionMessage event) = .ok { db with outbox } ∧
      ∀ row ∈ outbox.rows, ∃ id, row.message.outboxId = "outbox-" ++ id ∧
        row.message.dedupeKey = "event:" ++ id ++ ":projected" := by
  unfold Db.enqueueOutbox Platform.enqueueOutbox
  split
  · exact ⟨db.outbox, rfl, h⟩
  · next hdedupe =>
    split
    · next outbox hinsert =>
      refine ⟨outbox, rfl, ?_⟩
      intro row hrow
      rcases (Table.mem_insert hinsert).mp hrow with hrow | rfl
      · exact h row hrow
      · exact ⟨event.eventId, rfl, rfl⟩
    · next hinsert =>
      -- a taken id belongs to the same event, which has the same dedupe key
      exfalso
      apply hdedupe
      rw [List.any_eq_true]
      by_contra hnone
      obtain ⟨outbox, hinsert'⟩ := Table.insert_of_get (t := db.outbox)
        (r := (⟨{ projectionMessage event with payload := stored (projectionMessage event).payload },
          .pending, 0, now, none, none, none, now, none, none, none, none⟩ : OutboxRow)) (by
        rw [Table.get_eq_none]
        intro row hrow hid
        obtain ⟨id, houtbox, hkey⟩ := h row hrow
        have hid : row.message.outboxId = "outbox-" ++ event.eventId := hid
        rw [houtbox, String.append_right_inj] at hid
        apply hnone
        refine ⟨row, hrow, ?_⟩
        rw [decide_eq_true_eq, hkey, hid]
        rfl)
      rw [hinsert] at hinsert'
      cases hinsert'

theorem putState_of_version {db : Db} {scopeId : String} {version : Int}
    (h : ∀ row, db.snapshots.get scopeId = some row → row.version = version) (values : Value)
    (stateHash : String) : db.putState scopeId (version + 1) version values stateHash =
      some { db with
        snapshots := db.snapshots.set scopeId ⟨version + 1, stored values, stateHash⟩ } := by
  simp only [Db.putState, if_true]
  cases hget : db.snapshots.get scopeId with
  | none => rfl
  | some row => exact if_pos (h row hget)

/-- The snapshot of the scope moves to the next version, whatever the journal projects to. -/
theorem putProjection_ok {db₀ : Db} (h : db₀.Synced s) (db : Db) (hsnapshots : db.snapshots = db₀.snapshots)
    (houtbox : db.outbox = db₀.outbox) (r : Request) {event : EventEnvelope}
    (hversion : event.stateVersionBefore = (state s db₀ event.scopeId).version) :
    ∃ reply outbox, putProjection s r event db = .ok (reply, { db with
        outbox
        snapshots := db.snapshots.set event.scopeId ⟨event.stateVersionBefore + 1,
          stored (state s db event.scopeId).values.toJson,
          s.js.stableHash (state s db event.scopeId).values.toJson⟩ }) ∧
      ∀ row ∈ outbox.rows, ∃ id, row.message.outboxId = "outbox-" ++ id ∧
        row.message.dedupeKey = "event:" ++ id ++ ":projected" := by
  have hput : db.putState event.scopeId (event.stateVersionBefore + 1) event.stateVersionBefore
      (state s db event.scopeId).values.toJson
      (s.js.stableHash (state s db event.scopeId).values.toJson) = some { db with
        snapshots := db.snapshots.set event.scopeId ⟨event.stateVersionBefore + 1,
          stored (state s db event.scopeId).values.toJson,
          s.js.stableHash (state s db event.scopeId).values.toJson⟩ } := by
    apply putState_of_version
    intro row hrow
    have hagrees := h.agrees event.scopeId
    unfold Db.Agrees at hagrees
    rw [hsnapshots] at hrow
    rw [hrow] at hagrees
    exact hagrees.1.trans hversion.symm
  obtain ⟨outbox, henqueue, hrows⟩ := enqueue_projection
    ({ db with snapshots := db.snapshots.set event.scopeId ⟨event.stateVersionBefore + 1,
      stored (state s db event.scopeId).values.toJson,
      s.js.stableHash (state s db event.scopeId).values.toJson⟩ })
    (by rw [show db.outbox = db₀.outbox from houtbox]; exact h.outbox) r.now event
  exact ⟨_, outbox, bind_ok.mpr ⟨_, orRaise_ok.mpr hput, bind_ok.mpr ⟨_, henqueue, rfl⟩⟩, hrows⟩

/-- What a request finds when it comes to project: the state it read still stands. -/
structure Ready (s : Service) (db : Db) (event : EventEnvelope) (capacity : Number) : Prop where
  synced : db.Synced s
  version : event.stateVersionBefore = (state s db event.scopeId).version
  instant : (s.pg.instant event.recordedAt).isSome = true
  payload : number (field event.payload "capacity_units") = some capacity
  low : capacity.lt 0 = false
  high : capacity.gt 10000 = false

/-- An accepted event ahead of every other of its scope becomes the state of the scope. -/
theorem state_append {db : Db} {e : EventEnvelope} {journal : Table EventEnvelope.eventId}
    (hinsert : db.journal.insert e = some journal) (haccepted : e.accepted = true)
    (hdistinct : db.Distinct)
    (hahead : (state s db e.scopeId).version < e.stateVersionAfter) :
    ({ db with journal } : Db).Distinct ∧
      state s { db with journal } e.scopeId = State.of e ∧
      ∀ scopeId, scopeId ≠ e.scopeId → state s { db with journal } scopeId = state s db scopeId := by
  have hbehind : ∀ x ∈ db.journal.rows, x.accepted = true → x.scopeId = e.scopeId →
      x.stateVersionAfter < e.stateVersionAfter := by
    intro x hx hxa hxs
    exact lt_of_le_of_lt (project_version_le s.js ((mem_events s).mpr ⟨hx, hxs⟩) hxa) hahead
  refine ⟨?_, ?_, ?_⟩
  · intro x hx y hy hxa hya hscopes hversions
    rcases (Table.mem_insert hinsert).mp hx with hx | rfl <;>
      rcases (Table.mem_insert hinsert).mp hy with hy | rfl
    · exact hdistinct x hx y hy hxa hya hscopes hversions
    · exact absurd hversions (hbehind x hx hxa hscopes).ne
    · exact absurd hversions.symm (hbehind y hy hya hscopes.symm).ne
    · rfl
  · apply project_newest s.js
    · exact (mem_events s).mpr ⟨(Table.mem_insert hinsert).mpr (.inr rfl), rfl⟩
    · exact haccepted
    · intro x hx hxa hne
      obtain ⟨hx, hxs⟩ := (mem_events s).mp hx
      rcases (Table.mem_insert hinsert).mp hx with hx | rfl
      · exact hbehind x hx hxa hxs
      · exact absurd rfl hne
  · intro scopeId hne
    symm
    apply state_congr s hdistinct
    intro x _ hxs
    show x ∈ db.journal.rows ↔ x ∈ journal.rows
    rw [Table.mem_insert hinsert]
    refine ⟨.inl, fun hx => hx.resolve_right ?_⟩
    rintro rfl
    exact hne hxs.symm

/-- The snapshot that is put holds the state of its scope. -/
theorem agrees_set {db : Db} {scopeId : String} {row : Snapshot}
    (hversion : row.version = (state s db scopeId).version)
    (hvalues : row.values = (state s db scopeId).values.toJson)
    (hother : ∀ scopeId', scopeId' ≠ scopeId → db.Agrees s scopeId') (outbox : Outbox)
    (scopeId' : String) :
    ({ db with outbox, snapshots := db.snapshots.set scopeId row } : Db).Agrees s scopeId' := by
  have hget := Dict.get_set db.snapshots scopeId scopeId' row
  by_cases hs : scopeId = scopeId'
  · subst hs
    rw [if_pos rfl] at hget
    unfold Db.Agrees
    simp only [hget]
    exact ⟨hversion, hvalues⟩
  · rw [if_neg hs] at hget
    have hagrees := hother scopeId' (fun h => hs h.symm)
    unfold Db.Agrees at hagrees ⊢
    simp only [hget]
    exact hagrees

/-- The projection is accepted and new: journal and snapshot move together. -/
theorem advance_synced {db : Db} {event : EventEnvelope} {capacity : Number} {q : Rat}
    (h : Ready s db event capacity) (hnan : capacity ≠ .nan) (hq : 0 ≤ q)
    (hcommitments : toNumber s.js (orDefault (field event.payload "commitments_at_risk")
      (.num (.finite 0))) = .ok (.finite q))
    (hfree : db.journal.get (event.eventId ++ ":state") = none) (r : Request) :
    ∃ reply db', advance s r event db = .ok (reply, db') ∧ db'.Synced s := by
  have hprojected : projected (stored (projection event capacity (.finite q)).payload) =
      some (capacity, .finite q) := by
    rcases projected_stored event (.finite q) h.low h.high with ⟨hp, _⟩ | ⟨_, hn⟩
    · exact hp
    · exact absurd ⟨hnan, q, hq, rfl⟩ hn
  obtain ⟨appended, db₂, happend, hiff⟩ := appendEvent_total (s := s)
    (e := projection event capacity (.finite q)) h.instant db
  rcases appendEvent_ok happend with ⟨_, journal, hinsert, rfl⟩ | ⟨hfalse, _⟩
  · have hge := project_version_ge s.js
      ((db.getEvents s.pg none).filter fun x => x.scopeId = event.scopeId)
    have hversion : event.stateVersionBefore = (project s.js _).version := h.version
    have haccepted : (projection event capacity (.finite q)).journaled.accepted = true := by
      refine decide_eq_true ⟨rfl, ?_, ?_⟩
      · show 141 < event.stateVersionBefore + 1
        omega
      · exact Option.isSome_iff_exists.mpr ⟨_, hprojected⟩
    obtain ⟨hdistinct, hstate, hother⟩ := state_append (s := s) hinsert haccepted h.synced.distinct
      (by
        show (state s db event.scopeId).version < event.stateVersionBefore + 1
        have := h.version
        omega)
    have hof : State.of (projection event capacity (.finite q)).journaled =
        ⟨event.stateVersionBefore + 1, capacity, "at_risk", .finite q⟩ := by
      unfold State.of EventEnvelope.journaled
      simp only [hprojected]
      rfl
    have hstate : state s { db with journal } event.scopeId = _ := hstate.trans hof
    obtain ⟨reply, outbox, hput, hrows⟩ := putProjection_ok h.synced { db with journal }
      rfl rfl r h.version
    refine ⟨reply, _, bind_ok.mpr ⟨_, projectedEvent_ok h.payload hcommitments,
      bind_ok.mpr ⟨_, happend, hput⟩⟩, ?_, hdistinct, hrows⟩
    apply agrees_set
    · rw [hstate]
    · rw [hstate]
      cases capacity with
      | finite c => rfl
      | nan => exact absurd rfl hnan
      | posInf => exact absurd h.high (by simp [Number.gt])
      | negInf => exact absurd h.low (by simp [Number.lt])
    · intro scopeId hne
      have hagrees := h.synced.agrees scopeId
      unfold Db.Agrees at hagrees ⊢
      rw [hother scopeId hne]
      exact hagrees
  · have htrue := hiff.mpr hfree
    rw [hfalse] at htrue
    cases htrue

/-- The projection is dropped, by its id or by the projector: the snapshot moves alone. -/
theorem advance_diverges {db : Db} {event : EventEnvelope} {capacity commitments : Number}
    (h : Ready s db event capacity)
    (hcommitments : toNumber s.js (orDefault (field event.payload "commitments_at_risk")
      (.num (.finite 0))) = .ok commitments)
    (hbad : ¬ (capacity ≠ .nan ∧ (∃ q, 0 ≤ q ∧ commitments = .finite q) ∧
      db.journal.get (event.eventId ++ ":state") = none)) (r : Request) :
    ∃ reply db', advance s r event db = .ok (reply, db') ∧ ¬ db'.Agrees s event.scopeId := by
  obtain ⟨appended, db₂, happend, hiff⟩ := appendEvent_total (s := s)
    (e := projection event capacity commitments) h.instant db
  have hsame : db.SameState db₂ := by
    rcases appendEvent_ok happend with ⟨htrue, journal, hinsert, rfl⟩ | ⟨_, rfl⟩
    · refine ⟨rfl, rfl, ?_⟩
      intro x hx
      rw [Table.mem_insert hinsert]
      refine ⟨fun hmem => hmem.resolve_right ?_, .inl⟩
      rintro rfl
      obtain ⟨_, _, hsome⟩ := of_decide_eq_true hx
      have hsome : (projected (stored (projection event capacity commitments).payload)).isSome = true :=
        hsome
      rcases projected_stored event commitments h.low h.high with
        ⟨_, hgood⟩ | ⟨hn, _⟩
      · exact hbad ⟨hgood.1, hgood.2, hiff.mp htrue⟩
      · rw [hn] at hsome
        cases hsome
    · exact .refl _
  obtain ⟨reply, outbox, hput, _⟩ := putProjection_ok h.synced db₂ hsame.snapshots hsame.outbox r
    h.version
  refine ⟨reply, _, bind_ok.mpr ⟨_, projectedEvent_ok h.payload hcommitments,
    bind_ok.mpr ⟨_, happend, hput⟩⟩, ?_⟩
  intro hagrees
  have hget := Dict.get_set db₂.snapshots event.scopeId event.scopeId
    (⟨event.stateVersionBefore + 1, stored (state s db₂ event.scopeId).values.toJson,
      s.js.stableHash (state s db₂ event.scopeId).values.toJson⟩ : Snapshot)
  rw [if_pos rfl] at hget
  unfold Db.Agrees at hagrees
  simp only [hget] at hagrees
  have hversion : event.stateVersionBefore + 1 = (state s db₂ event.scopeId).version := hagrees.1
  rw [hsame.state h.synced.distinct, ← h.version] at hversion
  omega

/-- A request that moves the state comes to project it. -/
theorem postEvents_moves {db : Db} {r : Request} {event : EventEnvelope} (hm : r.Moves s db event) :
    ∃ db', db.SameState db' ∧ db'.journal.get (event.eventId ++ ":state") =
        db.journal.get (event.eventId ++ ":state") ∧
      postEvents s r db = advance s r event db' := by
  obtain ⟨htype, hrecorded, _⟩ := observation_ok hm.observed
  obtain ⟨appended, db₂, happend, hiff⟩ := appendEvent_total (s := s) (hrecorded ▸ hm.instant)
    { db with
      idempotency := db.idempotency.set ("POST:/v1/events:" ++ r.bind.idempotencyKey)
        (stored event.toJson) }
  have htrue : appended = true := hiff.mpr hm.fresh
  subst htrue
  obtain ⟨hsame, hframe⟩ := sameState_append happend (by simp [htype])
  obtain ⟨db₃, hevidence⟩ := journalEvidence_total (s := s) (hrecorded ▸ hm.instant) hm.named db₂
  obtain ⟨hsame', hget⟩ := sameState_evidence hevidence
  refine ⟨db₃, ⟨hsame'.snapshots.trans hsame.snapshots, hsame'.outbox.trans hsame.outbox,
    fun e he => (hsame'.accepted e he).trans (hsame.accepted e he)⟩,
    hget.trans (hframe _ (state_id_ne_self _)), ?_⟩
  unfold postEvents
  rw [hm.observed]
  show submit s r event db = _
  unfold submit Db.getIdempotency
  rw [hm.key]
  simp only [hm.current, Bool.false_eq_true, if_false, Db.claimIdempotency, hm.key]
  unfold recordObservation
  rw [happend]
  show admitObservation s r event db₂ = _
  unfold admitObservation
  rw [hevidence]
  show (if _ then _ else _) = _
  rw [if_pos hm.admissible]

theorem projectedEvent_error {event : EventEnvelope} {capacity : Number} {e : Thrown}
    (hcapacity : number (field event.payload "capacity_units") = some capacity)
    (h : toNumber s.js (orDefault (field event.payload "commitments_at_risk")
      (.num (.finite 0))) = .error e) : projectedEvent s event = .error e := by
  unfold projectedEvent
  rw [number_field hcapacity, h]
  rfl

theorem evidenceEvent_error {event : EventEnvelope} {record : EvidenceRecord} {e : Thrown}
    (h : evidenceEvent s event record = .error e) : e = .typeError := by
  rcases bind_error.mp h with h | ⟨_, _, h⟩
  · exact toText_error _ h
  · cases h

theorem appendEvent_error {event : EventEnvelope} {db : Db} {e : Thrown}
    (h : db.appendEvent s.pg event = .error e) : e = .database := by
  rcases bind_error.mp h with h | ⟨_, _, h⟩
  · unfold timestamptz orRaise at h
    split at h <;> cases h
    rfl
  · cases h

theorem journalEvidence_error {event : EventEnvelope} {records : List EvidenceRecord} {db : Db}
    {e : Thrown} (h : journalEvidence s event records db = .error e) : e ≠ .stateConflict := by
  induction records generalizing db with
  | nil => cases h
  | cons record records ih =>
    rcases bind_error.mp h with h | ⟨_, _, h⟩
    · simp [evidenceEvent_error h]
    · rcases bind_error.mp h with h | ⟨_, _, h⟩
      · simp [appendEvent_error h]
      · exact ih h

theorem observation_error {r : Request} {db : Db} {e : Thrown}
    (h : observation s r db = .error e) : e = .typeError := by
  rcases bind_error.mp h with h | ⟨_, _, h⟩
  · exact toText_error _ h
  rcases bind_error.mp h with h | ⟨_, _, h⟩
  · exact toText_error _ h
  rcases bind_error.mp h with h | ⟨_, _, h⟩
  · exact toText_error _ h
  rcases bind_error.mp h with h | ⟨_, _, h⟩
  · exact toText_error _ h
  · cases h

/-- Evidence that was journaled had a text for its id. -/
theorem journalEvidence_named {event : EventEnvelope} {records : List EvidenceRecord} {db db' : Db}
    (h : journalEvidence s event records db = .ok db') :
    ∀ record ∈ records, ∃ text, toText s.js record.evidenceId = .ok text := by
  induction records generalizing db with
  | nil => simp
  | cons record records ih =>
    obtain ⟨admitted, hadmitted, h⟩ := bind_ok.mp h
    obtain ⟨_, _, h⟩ := bind_ok.mp h
    obtain ⟨text, htext, _⟩ := bind_ok.mp hadmitted
    intro x hx
    rcases List.mem_cons.mp hx with rfl | hx
    · exact ⟨text, htext⟩
    · exact ih h x hx

/-- What comes of a request that moves no state. -/
def Db.Still (db : Db) (result : Except Thrown (Reply × Db)) : Prop :=
  match result with
  | .ok (_, db') => db.SameState db'
  | .error e => e ≠ .stateConflict

theorem Db.Still.of_sameState {db db' : Db} {result : Except Thrown (Reply × Db)}
    (hsame : db.SameState db') (h : db'.Still result) : db.Still result := by
  cases result with
  | error e => exact h
  | ok result => exact hsame.trans h

theorem still_recordObservation {db : Db} {r : Request} {event : EventEnvelope}
    (htype : event.eventType ≠ .stateProjected)
    (hm : ∀ db₂ db₃, db.appendEvent s.pg event = .ok (true, db₂) →
      journalEvidence s event (evidence event) db₂ = .ok db₃ →
      (evidence event).any EvidenceRecord.admissible = false) :
    db.Still (recordObservation s r event db) := by
  unfold recordObservation
  cases happend : db.appendEvent s.pg event with
  | error e =>
    show e ≠ .stateConflict
    simp [appendEvent_error happend]
  | ok result =>
    obtain ⟨appended, db₂⟩ := result
    obtain ⟨hsame, _⟩ := sameState_append happend htype
    cases appended with
    | false => exact hsame
    | true =>
      show db.Still (admitObservation s r event db₂)
      unfold admitObservation
      cases hevidence : journalEvidence s event (evidence event) db₂ with
      | error e => exact journalEvidence_error hevidence
      | ok db₃ =>
        show db.Still (if _ then _ else _)
        rw [if_neg (by simp [hm db₂ db₃ happend hevidence])]
        exact hsame.trans (sameState_evidence hevidence).1

/-- A request that moves no state leaves every state as it is, and meets no conflict. -/
theorem postEvents_still {db : Db} {r : Request} (hm : ∀ event, ¬ r.Moves s db event) :
    db.Still (postEvents s r db) := by
  unfold postEvents
  cases hobserved : observation s r db with
  | error e =>
    show e ≠ .stateConflict
    simp [observation_error hobserved]
  | ok event =>
    obtain ⟨htype, hrecorded, _⟩ := observation_ok hobserved
    show db.Still (submit s r event db)
    unfold submit
    cases hkey : db.getIdempotency ("POST:/v1/events:" ++ r.bind.idempotencyKey) with
    | some response => exact .refl db
    | none =>
      have hidempotency : db.idempotency.get ("POST:/v1/events:" ++ r.bind.idempotencyKey) = none :=
        hkey
      cases hstale : r.bind.stale event.stateVersionBefore with
      | true => exact .refl db
      | false =>
        simp only [Bool.false_eq_true, if_false, Db.claimIdempotency, hidempotency]
        have htype' : event.eventType ≠ .stateProjected := by simp [htype]
        have hclaimed : db.SameState { db with
            idempotency := db.idempotency.set ("POST:/v1/events:" ++ r.bind.idempotencyKey)
              (stored event.toJson) } := ⟨rfl, rfl, fun _ _ => Iff.rfl⟩
        apply Db.Still.of_sameState hclaimed
        apply still_recordObservation htype'
        intro db₂ db₃ happend hevidence
        by_contra hadmissible
        -- otherwise the request moves the state
        obtain ⟨_, journal, hinsert, _⟩ | ⟨hfalse, _⟩ := appendEvent_ok happend
        · obtain ⟨_, htime, _⟩ := bind_ok.mp happend
          have hinstant : (s.pg.instant r.bind.requestTimestamp).isSome = true := by
            rw [← hrecorded]
            exact Option.isSome_iff_exists.mpr ⟨_, orRaise_ok.mp htime⟩
          exact hm event ⟨hobserved, hidempotency, hstale, hinstant, (Table.rows_insert hinsert).2,
            by simpa using hadmissible, journalEvidence_named hevidence⟩
        · cases hfalse

/-! ## Whole runs -/

/-- A request that moves the state, up to where it projects: it throws and nothing is
committed, or it projects and the two move together, or the snapshot moves alone. -/
theorem agreesAfter_moves {db : Db} {r : Request} {event : EventEnvelope} (h : db.Synced s)
    (hm : r.Moves s db event) :
    (db.AgreesAfter s r (afterEvents s db r) ↔ r.Projectable s db) ∧
      (r.Projectable s db → (afterEvents s db r).Synced s) := by
  obtain ⟨db₁, hsame, hget, hpost⟩ := postEvents_moves hm
  obtain ⟨_, hrecorded, hversion⟩ := observation_ok hm.observed
  obtain ⟨record, hrecord, _⟩ := List.any_eq_true.mp hm.admissible
  obtain ⟨capacity, hcapacity, hlow, hhigh⟩ := evidence_capacity hrecord
  have hready : Ready s db₁ event capacity :=
    { synced := synced_of_sameState h hsame
      version := hversion.trans (by rw [hsame.state h.distinct])
      instant := hrecorded ▸ hm.instant
      payload := hcapacity
      low := hlow
      high := hhigh }
  have hevent : ∀ event', r.Moves s db event' → event' = event := by
    intro event' hm'
    have hobserved := hm'.observed
    rw [hm.observed] at hobserved
    exact (Except.ok.inj hobserved).symm
  unfold Db.AgreesAfter afterEvents
  rw [hpost]
  cases hcommitments : toNumber s.js (orDefault (field event.payload "commitments_at_risk")
      (.num (.finite 0))) with
  | error e =>
    have hthrows : advance s r event db₁ = .error .typeError := by
      apply bind_error.mpr
      left
      rw [← toNumber_error hcommitments]
      exact projectedEvent_error hcapacity hcommitments
    rw [hthrows]
    refine ⟨⟨fun _ => ?_, fun _ => ⟨h.agrees, by simp⟩⟩, fun _ => h⟩
    intro event' _ _ hm' _ hok
    rw [hevent event' hm', hcommitments] at hok
    cases hok
  | ok commitments =>
    by_cases hgood : capacity ≠ .nan ∧ (∃ q, 0 ≤ q ∧ commitments = .finite q) ∧
        db.journal.get (event.eventId ++ ":state") = none
    · obtain ⟨hnan, ⟨q, hq, rfl⟩, hfree⟩ := hgood
      obtain ⟨reply, db', hadvance, hsynced⟩ :=
        advance_synced hready hnan hq hcommitments (hget.trans hfree) r
      rw [hadvance]
      refine ⟨⟨fun _ => ?_, fun _ => ⟨hsynced.agrees, by simp⟩⟩, fun _ => hsynced⟩
      intro event' capacity' commitments' hm' hcapacity' hcommitments'
      rw [hevent event' hm'] at hcapacity' hcommitments' ⊢
      rw [hcapacity] at hcapacity'
      rw [hcommitments] at hcommitments'
      cases hcapacity'
      cases hcommitments'
      exact ⟨hnan, ⟨q, hq, rfl⟩, hfree⟩
    · have hnot : ¬ r.Projectable s db := fun hp =>
        hgood (hp event capacity commitments hm hcapacity hcommitments)
      obtain ⟨reply, db', hadvance, hdiverges⟩ :=
        advance_diverges hready hcommitments (by rw [hget]; exact hgood) r
      rw [hadvance]
      exact ⟨⟨fun hagrees => absurd (hagrees.1 event.scopeId) hdiverges,
        fun hp => absurd hp hnot⟩, fun hp => absurd hp hnot⟩

/-- Where every scope agrees, they agree after the request and it meets no conflict exactly
when it is projectable. -/
theorem agreesAfter_iff {db : Db} {r : Request} (h : db.Synced s) :
    (db.AgreesAfter s r (afterEvents s db r) ↔ r.Projectable s db) ∧
      (r.Projectable s db → (afterEvents s db r).Synced s) := by
  by_cases hm : ∃ event, r.Moves s db event
  · obtain ⟨event, hm⟩ := hm
    exact agreesAfter_moves h hm
  · have hstill : db.Still (postEvents s r db) :=
      postEvents_still (fun event hevent => hm ⟨event, hevent⟩)
    have hprojectable : r.Projectable s db := fun event _ _ hevent => absurd ⟨event, hevent⟩ hm
    have hafter : (afterEvents s db r).Synced s ∧ postEvents s r db ≠ .error .stateConflict := by
      unfold afterEvents
      cases hpost : postEvents s r db with
      | ok result =>
        rw [hpost] at hstill
        exact ⟨synced_of_sameState h hstill, by simp⟩
      | error e =>
        rw [hpost] at hstill
        exact ⟨h, by simpa [Db.Still] using hstill⟩
    exact ⟨⟨fun _ => hprojectable, fun _ => ⟨hafter.1.agrees, hafter.2⟩⟩, fun _ => hafter.1⟩

theorem synced_empty : ({} : Db).Synced s where
  agrees _ := rfl
  distinct := by
    intro x hx
    cases hx
  outbox := by
    intro row hrow
    cases hrow

end

/-- **Agreement.** From the empty database, over every sequence of requests, the projection
and the snapshot of every scope agree after every request and none of them fails on a
conflict of states, exactly when every request is projectable where it is handled. -/
theorem agreement_iff (s : Service) (requests : List Request) :
    Along (afterEvents s) (fun db r db' => db.AgreesAfter s r db') {} requests ↔
      Along (afterEvents s) (fun db r _ => r.Projectable s db) {} requests := by
  constructor
  · apply Along.of_invariant (I := Db.Synced s) _ synced_empty
    intro db r h hagrees
    have hprojectable := (agreesAfter_iff h).1.mp hagrees
    exact ⟨hprojectable, (agreesAfter_iff h).2 hprojectable⟩
  · apply Along.of_invariant (I := Db.Synced s) _ synced_empty
    intro db r h hprojectable
    exact ⟨(agreesAfter_iff h).1.mpr hprojectable, (agreesAfter_iff h).2 hprojectable⟩

/-- An observation of the capacity, with the commitments at risk. -/
def observed (key eventId : String) (capacity commitments : Rat) : Request where
  body := .obj [("event_id", .str eventId),
    ("payload", .obj [("capacity_units", .num (.finite capacity)),
      ("commitments_at_risk", .num (.finite commitments))])]
  bind := ⟨"gateway", "corr-1", "trace-1", key, none, "2026-09-24T00:00:00Z"⟩
  principal := ⟨"gateway", "CONNECTOR", none⟩
  now := 0

def conflicts : Except Thrown (Reply × Db) → Bool
  | .error .stateConflict => true
  | _ => false

/-- Admission does not look at the commitments at risk, the projector drops a negative number
of them, and the snapshot moves: the two disagree, and the next request, with a new key and
a new event, fails on the conflict. -/
theorem negative_commitments_diverge :
    ¬ Along (afterEvents Service.sample) (fun db r db' => db.AgreesAfter Service.sample r db') {}
        [observed "key-1" "evt-1" 300 (-1)] ∧
      ¬ Along (afterEvents Service.sample)
        (fun db r _ => postEvents Service.sample r db ≠ .error .stateConflict) {}
        [observed "key-1" "evt-1" 300 (-1), observed "key-2" "evt-2" 300 0] := by
  constructor
  · rintro ⟨⟨hagrees, _⟩, _⟩
    have hagrees := hagrees "memphis-fulfillment"
    have hprojected : (state Service.sample (afterEvents Service.sample {}
        (observed "key-1" "evt-1" 300 (-1))) "memphis-fulfillment").version = 141 := by
      decide +kernel
    have hsnapshot : ((afterEvents Service.sample {}
        (observed "key-1" "evt-1" 300 (-1))).snapshots.get "memphis-fulfillment").map
          Snapshot.version = some 142 := by
      decide +kernel
    obtain ⟨row, hrow, hversion⟩ := Option.map_eq_some_iff.mp hsnapshot
    unfold Db.Agrees at hagrees
    simp only [hrow, hprojected, hversion] at hagrees
    exact absurd hagrees.1 (by decide)
  · rintro ⟨_, hconflict, _⟩
    have hthrown : conflicts (postEvents Service.sample (observed "key-2" "evt-2" 300 0)
        (afterEvents Service.sample {} (observed "key-1" "evt-1" 300 (-1)))) = true := by
      decide +kernel
    unfold conflicts at hthrown
    split at hthrown
    · next h => exact hconflict h
    · cases hthrown

end Edon.Platform
