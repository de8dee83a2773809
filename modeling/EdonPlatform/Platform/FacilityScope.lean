import EdonPlatform.Platform.CompleteMediation

/- Facility scopes: whether an actor whose membership is confined to one facility writes and
   reads the events and the state of that facility alone. The check compares the facility
   with the scope in the body or the header, if there is one; the handlers of events and
   proposals take the scope of the body or a default, and the read of a state takes the
   last part of the path.

   What is proved:
     1. `facility_scope_iff` — a request of a confined actor writes and reads within the
        facility, exactly when it is not let through without a scope of its own to a
        handler that journals another one, nor to the state of a scope that differs.
     2. `default_scope_written` — an actor of another facility who names no scope writes
        to the default one. -/
namespace Edon.Platform
open Js Fallible

section
variable {ρ : Type}

/-- The membership the request is checked against is active and confined to a facility. -/
def HttpRequest.Confined (h : HttpRequest) (records : PlatformRecords ρ) (facility : String) :
    Prop :=
  ∃ p capability role m, h.principal = some p ∧ capabilityFor h.method h.path = some capability ∧
    h.matchingRole capability = some role ∧
    records.getActorMembership p.actorId role = some m ∧ m.active = true ∧
    m.facilityScope = some facility ∧ facility ≠ "" ∧ facility ≠ "*"

/-- What differs between the two is of the scope. -/
structure Db.Within (db db' : Db) (scopeId : String) : Prop where
  journal : ∀ e ∈ db'.journal.rows, e ∈ db.journal.rows ∨ e.scopeId = scopeId
  snapshots : ∀ k, db'.snapshots.get k = db.snapshots.get k ∨ k = scopeId

variable (c : ControlPlane ρ)

/-- Events and proposals are written within the facility, and the state that is read is that of
the facility. -/
structure HttpRequest.WithinFacility (h : HttpRequest) (records : PlatformRecords ρ)
    (facility : String) : Prop where
  writes : routeOf h.method h.path = some .postEvents ∨
      routeOf h.method h.path = some .postProposals →
    records.db.Within (c.handle h records).2.db facility
  reads : routeOf h.method h.path = some .getState → (c.handle h records).1.status = 200 →
    (c.handle h records).1 =
      h.dataReply (state c.service.service records.db facility).toJson

end

/-! ## What the handlers journal -/

section
variable (s : Service)

/-- The message is on the outbox already, or its id is free. -/
def Outbox.Accepts (outbox : Outbox) (m : OutboxMessage) : Prop :=
  (∃ row ∈ outbox.rows, row.message.dedupeKey = m.dedupeKey) ∨ outbox.get m.outboxId = none

/-- The event is recorded: it is new, its evidence has texts for ids and, where the evidence is
admissible, the state can be projected and its snapshot stands at the version that was read. -/
structure EventEnvelope.Recordable (event : EventEnvelope) (db : Db) : Prop where
  instant : (s.pg.instant event.recordedAt).isSome = true
  fresh : db.journal.get event.eventId = none
  named : ∀ record ∈ evidence event, ∃ text, toText s.js record.evidenceId = .ok text
  projects : (evidence event).any EvidenceRecord.admissible = true →
    ∃ projected, projectedEvent s event = .ok projected
  current : (evidence event).any EvidenceRecord.admissible = true →
    ∀ row, db.snapshots.get event.scopeId = some row → row.version = event.stateVersionBefore
  accepts : (evidence event).any EvidenceRecord.admissible = true →
    db.outbox.Accepts (projectionMessage event)

/-- The request is new and up to date, and its event is recorded. -/
structure Request.Submits (r : Request) (db : Db) (event : EventEnvelope) : Prop
    extends EventEnvelope.Recordable s event db where
  observed : observation s r db = .ok event
  key : db.idempotency.get ("POST:/v1/events:" ++ r.bind.idempotencyKey) = none
  upToDate : r.bind.stale event.stateVersionBefore = false

/-- The request creates a new proposal in the scope, under a qualified release, and one of the
two events of it is new. -/
structure Request.Proposes (r : Request) (db : Db) (scopeId : String) (release : C1ModelRelease)
    (capability : C1Capability) (p : ActionProposal) : Prop where
  scope : r.text s "scope_id" "memphis-fulfillment" = .ok scopeId
  upToDate : r.bind.stale (state s db scopeId).version = false
  active : r.inactiveDependency = false
  qualified : activeRelease s r = .ok (some (release, capability))
  evidence : committedEvidence s (state s db scopeId) ≠ []
  generated : generate s r (state s db scopeId) release capability
    (committedEvidence s (state s db scopeId)) = .ok p
  fresh : db.getProposal p.proposalId = none
  instant : (s.pg.instant r.bind.requestTimestamp).isSome = true
  accepts : (∃ row ∈ db.outbox.rows, row.message.dedupeKey = "proposal:" ++ p.proposalId) ∨
    db.outbox.get ("outbox-" ++ p.proposalId) = none
  journals : db.journal.get ("proposal:" ++ p.proposalId) = none ∨
    db.journal.get ("decision:" ++ ("DEC-" ++ p.proposalId ++ "-" ++ "initial")) = none

/-- The body names no scope and the default is not the facility, or it names an empty one. -/
def Unscoped (body : Value) (facility : String) : Prop :=
  match present (field body "scope_id") with
  | none => facility ≠ "memphis-fulfillment"
  | some v => toText s.js v = .ok ""

/-- The request is let through without a scope of its own and submits an event or creates a
proposal, or it reads the state of a scope in the path that is not that of the facility. -/
inductive HttpRequest.Strays {ρ : Type} (c : ControlPlane ρ) (h : HttpRequest)
    (records : PlatformRecords ρ) (facility : String) : Prop where
  | submits (body : Value) (b : HttpBinding) (p : VerifiedPrincipal) (event : EventEnvelope) :
      routeOf h.method h.path = some .postEvents →
      mediate c.service h records = .ok (body, some b) → h.principal = some p →
      Unscoped c.service.service body facility →
      (h.call p body b.toRequestBinding records).Submits
        { c.service.service with tenantId := p.tenantId } records.db event →
      h.Strays c records facility
  | proposes (body : Value) (b : HttpBinding) (p : VerifiedPrincipal) (scopeId : String)
      (release : C1ModelRelease) (capability : C1Capability) (proposal : ActionProposal) :
      routeOf h.method h.path = some .postProposals →
      mediate c.service h records = .ok (body, some b) → h.principal = some p →
      Unscoped c.service.service body facility →
      (h.call p body b.toRequestBinding records).Proposes
        { c.service.service with tenantId := p.tenantId } records.db scopeId release capability
        proposal →
      h.Strays c records facility
  | reads (body : Value) (bind : Option HttpBinding) :
      routeOf h.method h.path = some .getState → mediate c.service h records = .ok (body, bind) →
      (state c.service.service records.db h.last).toJson ≠
        (state c.service.service records.db facility).toJson →
      h.Strays c records facility

variable {s}

/-! ### Frames -/

theorem Db.Within.refl (db : Db) (scopeId : String) : db.Within db scopeId :=
  ⟨fun _ he => .inl he, fun _ => .inl rfl⟩

theorem Db.Within.trans {db db' db'' : Db} {scopeId : String} (h : db.Within db' scopeId)
    (h' : db'.Within db'' scopeId) : db.Within db'' scopeId where
  journal e he := by
    rcases h'.journal e he with he | hs
    · exact h.journal e he
    · exact .inr hs
  snapshots k := by
    rcases h'.snapshots k with hk | hs
    · rw [hk]
      exact h.snapshots k
    · exact .inr hs

theorem Db.Within.of_same {db db' : Db} (hjournal : db'.journal = db.journal)
    (hsnapshots : db'.snapshots = db.snapshots) (scopeId : String) : db.Within db' scopeId := by
  refine ⟨?_, ?_⟩
  · rw [hjournal]
    exact fun _ he => .inl he
  · rw [hsnapshots]
    exact fun _ => .inl rfl

theorem appendEvent_within {e : EventEnvelope} {db db' : Db} {appended : Bool}
    (h : db.appendEvent s.pg e = .ok (appended, db')) : db.Within db' e.scopeId := by
  rcases appendEvent_ok h with ⟨_, journal, hinsert, rfl⟩ | ⟨_, rfl⟩
  · refine ⟨?_, fun _ => .inl rfl⟩
    intro x hx
    rcases (Table.mem_insert hinsert).mp hx with hx | rfl
    · exact .inl hx
    · exact .inr rfl
  · exact .refl _ _

theorem evidenceEvent_scope {event admitted : EventEnvelope} {record : EvidenceRecord}
    (h : evidenceEvent s event record = .ok admitted) : admitted.scopeId = event.scopeId := by
  obtain ⟨_, _, h⟩ := bind_ok.mp h
  cases h
  rfl

theorem journalEvidence_within {event : EventEnvelope} {records : List EvidenceRecord} {db db' : Db}
    (h : journalEvidence s event records db = .ok db') : db.Within db' event.scopeId := by
  induction records generalizing db with
  | nil =>
    cases h
    exact .refl _ _
  | cons record records ih =>
    obtain ⟨admitted, hadmitted, h⟩ := bind_ok.mp h
    obtain ⟨⟨_, db₁⟩, happend, h⟩ := bind_ok.mp h
    rw [← evidenceEvent_scope hadmitted] at ih ⊢
    exact (appendEvent_within happend).trans (ih h)

theorem putState_within {scopeId : String} {version expectedVersion : Int} {values : Value}
    {stateHash : String} {db db' : Db}
    (h : db.putState scopeId version expectedVersion values stateHash = some db') :
    db.Within db' scopeId ∧ db'.outbox = db.outbox ∧
      ∀ row, db.snapshots.get scopeId = some row → row.version = expectedVersion := by
  have hset : ∀ row, db.Within { db with snapshots := db.snapshots.set scopeId row } scopeId := by
    intro row
    refine ⟨fun _ he => .inl he, ?_⟩
    intro k
    by_cases hk : k = scopeId
    · exact .inr hk
    · exact .inl (Dict.get_set_ne _ _ (Ne.symm hk))
  unfold Db.putState at h
  dsimp only at h
  split at h
  · split at h
    · next row hrow =>
      split at h
      · next hversion =>
        cases h
        refine ⟨hset _, rfl, ?_⟩
        rw [hrow]
        rintro _ ⟨⟩
        exact hversion
      · cases h
    · next hnone =>
      cases h
      refine ⟨hset _, rfl, ?_⟩
      rw [hnone]
      exact nofun
  · cases h

theorem accepts_iff (now : Int) {message : OutboxMessage} {outbox : Outbox} :
    outbox.Accepts message ↔ ∃ result, enqueueOutbox now message outbox = .ok result :=
  (enqueueOutbox_ok now).symm

theorem enqueueOutbox_frame {now : Int} {message : OutboxMessage} {db db' : Db}
    (h : db.enqueueOutbox now message = .ok db') :
    db'.journal = db.journal ∧ db'.snapshots = db.snapshots ∧ db.outbox.Accepts message := by
  obtain ⟨result, henqueue, h⟩ := bind_ok.mp h
  cases h
  have haccepts : db.outbox.Accepts { message with payload := stored message.payload } :=
    (accepts_iff now).mpr ⟨_, henqueue⟩
  exact ⟨rfl, rfl, haccepts⟩

theorem enqueueOutbox_of_accepts {message : OutboxMessage} {db : Db}
    (h : db.outbox.Accepts message) (now : Int) :
    ∃ outbox, db.enqueueOutbox now message = .ok { db with outbox } := by
  have haccepts : db.outbox.Accepts { message with payload := stored message.payload } := h
  obtain ⟨result, henqueue⟩ := (accepts_iff now).mp haccepts
  unfold Db.enqueueOutbox
  rw [henqueue]
  exact ⟨_, rfl⟩

/-! ### Events -/

theorem projectedEvent_scope {event projected : EventEnvelope}
    (h : projectedEvent s event = .ok projected) :
    projected.scopeId = event.scopeId ∧ projected.recordedAt = event.recordedAt := by
  unfold projectedEvent at h
  split at h
  · obtain ⟨_, _, h⟩ := bind_ok.mp h
    obtain ⟨_, _, h⟩ := bind_ok.mp h
    cases h
    exact ⟨rfl, rfl⟩
  · obtain ⟨_, _, h⟩ := bind_ok.mp h
    obtain ⟨_, _, h⟩ := bind_ok.mp h
    cases h
    exact ⟨rfl, rfl⟩

/-- The projection is written in the scope, on a snapshot that stood at the version read. -/
theorem advance_ok {r : Request} {event : EventEnvelope} {db db' : Db} {reply : Reply}
    (h : advance s r event db = .ok (reply, db')) :
    db.Within db' event.scopeId ∧ (∃ projected, projectedEvent s event = .ok projected) ∧
      (∀ row, db.snapshots.get event.scopeId = some row → row.version = event.stateVersionBefore) ∧
      db.outbox.Accepts (projectionMessage event) := by
  obtain ⟨projected, hprojected, h⟩ := bind_ok.mp h
  obtain ⟨⟨appended, db₁⟩, happend, h⟩ := bind_ok.mp h
  obtain ⟨db₂, hput, h⟩ := bind_ok.mp h
  obtain ⟨db₃, henqueue, h⟩ := bind_ok.mp h
  cases h
  obtain ⟨hscope, _⟩ := projectedEvent_scope hprojected
  have happended := appendEvent_within happend
  rw [hscope] at happended
  have hsame : db₁.snapshots = db.snapshots ∧ db₁.outbox = db.outbox := by
    rcases appendEvent_ok happend with ⟨_, _, _, rfl⟩ | ⟨_, rfl⟩ <;> exact ⟨rfl, rfl⟩
  obtain ⟨hput, houtbox, hversion⟩ := putState_within (orRaise_ok.mp hput)
  obtain ⟨hjournal, hsnapshots, haccepts⟩ := enqueueOutbox_frame henqueue
  rw [houtbox, hsame.2] at haccepts
  rw [hsame.1] at hversion
  exact ⟨(happended.trans hput).trans (.of_same hjournal hsnapshots _), ⟨projected, hprojected⟩,
    hversion, haccepts⟩

theorem advance_total {r : Request} {event : EventEnvelope} {db : Db}
    (hinstant : (s.pg.instant event.recordedAt).isSome = true)
    (hprojects : ∃ projected, projectedEvent s event = .ok projected)
    (hcurrent : ∀ row, db.snapshots.get event.scopeId = some row →
      row.version = event.stateVersionBefore)
    (haccepts : db.outbox.Accepts (projectionMessage event)) :
    ∃ reply db', advance s r event db = .ok (reply, db') ∧
      ∀ e ∈ db.journal.rows, e ∈ db'.journal.rows := by
  obtain ⟨projected, hprojected⟩ := hprojects
  obtain ⟨_, hrecorded⟩ := projectedEvent_scope hprojected
  obtain ⟨appended, db₁, happend, _⟩ := appendEvent_total (hrecorded ▸ hinstant) db
  have hsame : db₁.snapshots = db.snapshots ∧ db₁.outbox = db.outbox ∧
      ∀ e ∈ db.journal.rows, e ∈ db₁.journal.rows := by
    rcases appendEvent_ok happend with ⟨_, journal, hinsert, rfl⟩ | ⟨_, rfl⟩
    · exact ⟨rfl, rfl, fun e he => (Table.mem_insert hinsert).mpr (.inl he)⟩
    · exact ⟨rfl, rfl, fun _ he => he⟩
  obtain ⟨hsnapshots, houtbox, hkept⟩ := hsame
  rw [← hsnapshots] at hcurrent
  rw [← houtbox] at haccepts
  let values := (state s db₁ event.scopeId).values.toJson
  have hput := putState_of_version hcurrent values (s.js.stableHash values)
  let row : Snapshot := ⟨event.stateVersionBefore + 1, stored values, s.js.stableHash values⟩
  let db₂ : Db := { db₁ with snapshots := db₁.snapshots.set event.scopeId row }
  have haccepts : db₂.outbox.Accepts (projectionMessage event) := haccepts
  obtain ⟨outbox, henqueue⟩ := enqueueOutbox_of_accepts haccepts r.now
  refine ⟨r.reply 201 { event with stateVersionAfter := event.stateVersionBefore + 1 }.toJson,
    { db₂ with outbox }, ?_, hkept⟩
  exact bind_ok.mpr ⟨projected, hprojected, bind_ok.mpr ⟨(appended, db₁), happend,
    bind_ok.mpr ⟨db₂, orRaise_ok.mpr hput, bind_ok.mpr ⟨_, henqueue, rfl⟩⟩⟩⟩

/-- Evidence leaves the snapshots and the outbox alone, and drops nothing of the journal. -/
theorem journalEvidence_frame {event : EventEnvelope} {records : List EvidenceRecord} {db db' : Db}
    (h : journalEvidence s event records db = .ok db') :
    db'.snapshots = db.snapshots ∧ db'.outbox = db.outbox ∧
      ∀ e ∈ db.journal.rows, e ∈ db'.journal.rows := by
  induction records generalizing db with
  | nil =>
    cases h
    exact ⟨rfl, rfl, fun _ he => he⟩
  | cons record records ih =>
    obtain ⟨_, _, h⟩ := bind_ok.mp h
    obtain ⟨⟨_, db₁⟩, happend, h⟩ := bind_ok.mp h
    obtain ⟨hsnapshots, houtbox, hkept⟩ := ih h
    rcases appendEvent_ok happend with ⟨_, journal, hinsert, rfl⟩ | ⟨_, rfl⟩
    · exact ⟨hsnapshots, houtbox, fun e he => hkept e ((Table.mem_insert hinsert).mpr (.inl he))⟩
    · exact ⟨hsnapshots, houtbox, hkept⟩

/-- What is recorded is of the scope of the event; and where something is, the event was
recordable. -/
theorem recordObservation_ok {r : Request} {event : EventEnvelope} {db db' : Db} {reply : Reply}
    (h : recordObservation s r event db = .ok (reply, db')) :
    db.Within db' event.scopeId ∧ (db' = db ∨ event.Recordable s db) := by
  obtain ⟨⟨appended, db₁⟩, happend, h⟩ := bind_ok.mp h
  have hwithin := appendEvent_within happend
  have hinstant : (s.pg.instant event.recordedAt).isSome = true := by
    obtain ⟨time, htime, _⟩ := bind_ok.mp happend
    exact Option.isSome_iff_exists.mpr ⟨time, orRaise_ok.mp htime⟩
  cases appended with
  | false =>
    obtain ⟨hfalse, _⟩ | ⟨_, hsame⟩ := appendEvent_ok happend
    · cases hfalse
    · cases h
      exact ⟨hwithin, .inl hsame⟩
  | true =>
    obtain ⟨_, journal, hinsert, hdb⟩ | ⟨hfalse, _⟩ := appendEvent_ok happend
    · obtain ⟨db₂, hevidence, h⟩ := bind_ok.mp h
      have hwithin := hwithin.trans (journalEvidence_within hevidence)
      obtain ⟨hsnapshots, houtbox, _⟩ := journalEvidence_frame hevidence
      rw [hdb] at hsnapshots houtbox
      have hfresh : db.journal.get event.eventId = none := (Table.rows_insert hinsert).2
      have hnamed := journalEvidence_named hevidence
      split at h
      · obtain ⟨hadvanced, hprojects, hcurrent, haccepts⟩ := advance_ok h
        rw [hsnapshots] at hcurrent
        rw [houtbox] at haccepts
        exact ⟨hwithin.trans hadvanced, .inr ⟨hinstant, hfresh, hnamed, fun _ => hprojects,
          fun _ => hcurrent, fun _ => haccepts⟩⟩
      · next hadmissible =>
        cases h
        exact ⟨hwithin, .inr ⟨hinstant, hfresh, hnamed, fun h => absurd h hadmissible,
          fun h => absurd h hadmissible, fun h => absurd h hadmissible⟩⟩
    · cases hfalse

/-- An event that is recordable is recorded. -/
theorem recordObservation_total {r : Request} {event : EventEnvelope} {db : Db}
    (h : event.Recordable s db) :
    ∃ reply db', recordObservation s r event db = .ok (reply, db') ∧
      event.journaled ∈ db'.journal.rows := by
  obtain ⟨appended, db₁, happend, hiff⟩ := appendEvent_total h.instant db
  have htrue : appended = true := hiff.mpr h.fresh
  subst htrue
  obtain ⟨_, journal, hinsert, rfl⟩ | ⟨hfalse, _⟩ := appendEvent_ok happend
  · have hjournaled : event.journaled ∈ journal.rows := (Table.mem_insert hinsert).mpr (.inr rfl)
    obtain ⟨db₂, hevidence⟩ := journalEvidence_total h.instant h.named { db with journal }
    obtain ⟨hsnapshots, houtbox, hkept⟩ := journalEvidence_frame hevidence
    unfold recordObservation
    rw [happend]
    show ∃ reply db', admitObservation s r event { db with journal } = .ok (reply, db') ∧ _
    by_cases hadmissible : (evidence event).any EvidenceRecord.admissible = true
    · obtain ⟨reply, db', hadvance, hkept'⟩ := advance_total (r := r) h.instant
        (h.projects hadmissible) (hsnapshots ▸ h.current hadmissible)
        (houtbox ▸ h.accepts hadmissible)
      refine ⟨reply, db', ?_, hkept' _ (hkept _ hjournaled)⟩
      refine bind_ok.mpr ⟨db₂, hevidence, ?_⟩
      rw [if_pos hadmissible, hadvance]
    · have hadmitted : ∃ reply, admitObservation s r event { db with journal } =
          .ok (reply, db₂) := by
        unfold admitObservation
        rw [hevidence]
        simp only [bind, Except.bind, if_neg hadmissible]
        exact ⟨_, rfl⟩
      obtain ⟨reply, hadmitted⟩ := hadmitted
      exact ⟨reply, db₂, hadmitted, hkept _ hjournaled⟩
  · cases hfalse

theorem claimIdempotency_same (key : String) (response : Value) (db : Db) :
    ∃ idempotency, (db.claimIdempotency key response).2.2 = { db with idempotency } := by
  unfold Db.claimIdempotency
  split
  · exact ⟨_, rfl⟩
  · exact ⟨db.idempotency, rfl⟩

/-- The handler writes in the scope of the event, and only where it submits it. -/
theorem postEvents_effect {r : Request} {db db' : Db} {reply : Reply}
    (h : postEvents s r db = .ok (reply, db')) :
    ∃ event, observation s r db = .ok event ∧ db.Within db' event.scopeId ∧
      ((db'.journal = db.journal ∧ db'.snapshots = db.snapshots) ∨ r.Submits s db event) := by
  obtain ⟨event, hobserved, h⟩ := bind_ok.mp h
  refine ⟨event, hobserved, ?_⟩
  unfold submit at h
  split at h
  · cases h
    exact ⟨.refl _ _, .inl ⟨rfl, rfl⟩⟩
  · next hkey =>
    split at h
    · cases h
      exact ⟨.refl _ _, .inl ⟨rfl, rfl⟩⟩
    · next hstale =>
      obtain ⟨idempotency, hclaimed⟩ := claimIdempotency_same
        ("POST:/v1/events:" ++ r.bind.idempotencyKey) event.toJson db
      split at h
      · next heq =>
        rw [heq] at hclaimed
        dsimp only at hclaimed
        cases h
        rw [hclaimed]
        exact ⟨⟨fun _ => .inl, fun _ => .inl rfl⟩, .inl ⟨rfl, rfl⟩⟩
      · next heq =>
        rw [heq] at hclaimed
        dsimp only at hclaimed
        rw [hclaimed] at h
        obtain ⟨hwithin, hsame | hrecordable⟩ := recordObservation_ok h
        · rw [hsame]
          exact ⟨⟨fun _ => .inl, fun _ => .inl rfl⟩, .inl ⟨rfl, rfl⟩⟩
        · -- the claim of the key leaves what the event depends on as it was
          exact ⟨⟨hwithin.journal, hwithin.snapshots⟩, .inr {
            instant := hrecordable.instant, fresh := hrecordable.fresh
            named := hrecordable.named, projects := hrecordable.projects
            current := hrecordable.current, accepts := hrecordable.accepts
            observed := hobserved, key := hkey, upToDate := Bool.eq_false_iff.mpr hstale }⟩

theorem postEvents_of_submits {r : Request} {db : Db} {event : EventEnvelope}
    (h : r.Submits s db event) : ∃ reply db', postEvents s r db = .ok (reply, db') ∧
      event.journaled ∈ db'.journal.rows := by
  let idempotency := db.idempotency.set ("POST:/v1/events:" ++ r.bind.idempotencyKey)
    (stored event.toJson)
  have hrecordable : event.Recordable s { db with idempotency } :=
    ⟨h.instant, h.fresh, h.named, h.projects, h.current, h.accepts⟩
  obtain ⟨reply, db', hrecorded, hjournaled⟩ := recordObservation_total (r := r) hrecordable
  refine ⟨reply, db', bind_ok.mpr ⟨event, h.observed, ?_⟩, hjournaled⟩
  unfold submit Db.getIdempotency
  rw [h.key]
  simp only [h.upToDate, Bool.false_eq_true, if_false, Db.claimIdempotency, h.key]
  exact hrecorded

/-! ### Proposals -/

theorem putKernelDecision_frame {d : StoredKernelDecision} {db db' : Db}
    (h : db.putKernelDecision s.pg d = .ok db') :
    db'.journal = db.journal ∧ db'.snapshots = db.snapshots := by
  obtain ⟨_, _, h⟩ := bind_ok.mp h
  cases h
  split <;> exact ⟨rfl, rfl⟩

theorem putProposal_frame (p : ActionProposal) (db : Db) : (db.putProposal p).journal = db.journal ∧
    (db.putProposal p).snapshots = db.snapshots ∧ (db.putProposal p).outbox = db.outbox := by
  unfold Db.putProposal
  split <;> exact ⟨rfl, rfl, rfl⟩

/-- The two events of a new proposal are of its scope; where none of their ids is free, none is
journaled. -/
theorem recordProposal_ok {r : Request} {scopeId : String} {version : Int}
    {release : C1ModelRelease} {p : ActionProposal} {db db' : Db} {reply : Reply}
    (h : recordProposal s r scopeId version release p db = .ok (reply, db')) :
    db.Within db' scopeId ∧ db'.snapshots = db.snapshots ∧
      (s.pg.instant r.bind.requestTimestamp).isSome = true ∧
      ((∃ row ∈ db.outbox.rows, row.message.dedupeKey = "proposal:" ++ p.proposalId) ∨
        db.outbox.get ("outbox-" ++ p.proposalId) = none) ∧
      (db'.journal = db.journal ∨ db.journal.get ("proposal:" ++ p.proposalId) = none ∨
        db.journal.get ("decision:" ++ ("DEC-" ++ p.proposalId ++ "-" ++ "initial")) = none) := by
  obtain ⟨db₁, hdecision, h⟩ := bind_ok.mp h
  obtain ⟨⟨_, db₂⟩, hproposed, h⟩ := bind_ok.mp h
  obtain ⟨⟨_, db₃⟩, hdecided, h⟩ := bind_ok.mp h
  obtain ⟨db₄, henqueue, h⟩ := bind_ok.mp h
  cases h
  obtain ⟨hjournal₀, hsnapshots₀, houtbox₀⟩ := putProposal_frame p db
  obtain ⟨hjournal₁, hsnapshots₁⟩ := putKernelDecision_frame hdecision
  have houtbox₁ := (putKernelDecision_keeps hdecision).2
  obtain ⟨time, htime, _⟩ := bind_ok.mp hdecision
  obtain ⟨hjournal₄, hsnapshots₄, haccepts⟩ := enqueueOutbox_frame henqueue
  rw [(appendEvent_keeps hdecided).2, (appendEvent_keeps hproposed).2, houtbox₁, houtbox₀] at haccepts
  have hwithin : db.Within db' scopeId :=
    (Db.Within.of_same (hjournal₁.trans hjournal₀) (hsnapshots₁.trans hsnapshots₀) scopeId).trans <|
      (appendEvent_within hproposed).trans <| (appendEvent_within hdecided).trans <|
      .of_same hjournal₄ hsnapshots₄ scopeId
  refine ⟨hwithin, ?_, Option.isSome_iff_exists.mpr ⟨time, orRaise_ok.mp htime⟩, haccepts, ?_⟩
  · rw [hsnapshots₄, ← hsnapshots₀, ← hsnapshots₁]
    rcases appendEvent_ok hdecided with ⟨_, _, _, rfl⟩ | ⟨_, rfl⟩ <;>
      rcases appendEvent_ok hproposed with ⟨_, _, _, rfl⟩ | ⟨_, rfl⟩ <;> rfl
  · rw [hjournal₄, ← hjournal₀, ← hjournal₁]
    rcases appendEvent_ok hproposed with ⟨_, _, hinsert, _⟩ | ⟨_, rfl⟩
    · exact .inr (.inl (Table.rows_insert hinsert).2)
    · rcases appendEvent_ok hdecided with ⟨_, _, hinsert, _⟩ | ⟨_, rfl⟩
      · exact .inr (.inr (Table.rows_insert hinsert).2)
      · exact .inl rfl

theorem putKernelDecision_total {d : StoredKernelDecision}
    (h : (s.pg.instant d.recordedAt).isSome = true) (db : Db) :
    ∃ db', db.putKernelDecision s.pg d = .ok db' := by
  obtain ⟨time, htime⟩ := Option.isSome_iff_exists.mp h
  unfold Db.putKernelDecision timestamptz
  rw [htime]
  exact ⟨_, rfl⟩

/-- An event is in the journal after it is appended, if its id was free; nothing leaves it. -/
theorem appendEvent_journaled {e : EventEnvelope} {db db' : Db} {appended : Bool}
    (h : db.appendEvent s.pg e = .ok (appended, db')) :
    (∀ x ∈ db.journal.rows, x ∈ db'.journal.rows) ∧
      (db.journal.get e.eventId = none → e.journaled ∈ db'.journal.rows) ∧
      (db.journal.get e.eventId ≠ none → db' = db) := by
  rcases appendEvent_ok h with ⟨_, journal, hinsert, rfl⟩ | ⟨rfl, rfl⟩
  · refine ⟨fun x hx => (Table.mem_insert hinsert).mpr (.inl hx),
      fun _ => (Table.mem_insert hinsert).mpr (.inr rfl), fun htaken => ?_⟩
    exact absurd (Table.rows_insert hinsert).2 htaken
  · refine ⟨fun _ hx => hx, fun hfree => ?_, fun _ => rfl⟩
    obtain ⟨time, _, hinsert⟩ := bind_ok.mp h
    obtain ⟨journal, hnew⟩ := Table.insert_of_get (r := e.journaled) hfree
    rw [hnew] at hinsert
    cases hinsert

/-- The event is new in the journal. -/
theorem fresh_of_get {e : EventEnvelope} {db : Db} (h : db.journal.get e.eventId = none) :
    e.journaled ∉ db.journal.rows :=
  fun hmem => Table.get_eq_none.mp h _ hmem rfl

/-- Where the proposal can be written, an event of its scope is. -/
theorem recordProposal_total {r : Request} (scopeId : String) (version : Int)
    (release : C1ModelRelease) {p : ActionProposal} {db : Db}
    (hinstant : (s.pg.instant r.bind.requestTimestamp).isSome = true)
    (haccepts : (∃ row ∈ db.outbox.rows, row.message.dedupeKey = "proposal:" ++ p.proposalId) ∨
      db.outbox.get ("outbox-" ++ p.proposalId) = none)
    (hjournals : db.journal.get ("proposal:" ++ p.proposalId) = none ∨
      db.journal.get ("decision:" ++ ("DEC-" ++ p.proposalId ++ "-" ++ "initial")) = none) :
    ∃ reply db', recordProposal s r scopeId version release p db = .ok (reply, db') ∧
      ∃ e ∈ db'.journal.rows, e ∉ db.journal.rows ∧ e.scopeId = scopeId := by
  let decision := evaluateAt p version 30000 none
  let event : EventEnvelope := {
    requestEvent s r scopeId p.incidentId version p.policyVersion with
    modelRelease := some release.releaseId }
  let proposed : EventEnvelope := { event with
    eventId := "proposal:" ++ p.proposalId
    payload := .obj [("proposal", .obj (p.fields ++ [("tenant_id", .str s.tenantId)]))]
    payloadHash := p.proposalHash.getD ""
    previousRecordHash := "sha256:proposal" }
  let decided : EventEnvelope := { event with
    eventId := "decision:" ++ decision.decisionId
    eventType := .kernelDecided
    actorId := "institutional-kernel"
    actorType := "KERNEL"
    payload := decision.toJson
    payloadHash := s.js.stableHash decision.toJson
    previousRecordHash := p.proposalHash.getD "" }
  obtain ⟨hjournal₀, _, houtbox₀⟩ := putProposal_frame p db
  obtain ⟨db₁, hdecision⟩ := putKernelDecision_total (s := s)
    (d := ⟨decision, r.bind.requestTimestamp⟩) hinstant (db.putProposal p)
  obtain ⟨hjournal₁, _⟩ := putKernelDecision_frame hdecision
  have hjournal : db₁.journal = db.journal := hjournal₁.trans hjournal₀
  obtain ⟨_, db₂, hproposed, _⟩ := appendEvent_total (s := s) (e := proposed) hinstant db₁
  obtain ⟨_, db₃, hdecided, _⟩ := appendEvent_total (s := s) (e := decided) hinstant db₂
  have houtbox : db₃.outbox = db.outbox :=
    (appendEvent_keeps hdecided).2.trans <| (appendEvent_keeps hproposed).2.trans <|
      (putKernelDecision_keeps hdecision).2.trans houtbox₀
  rw [← houtbox] at haccepts
  let created : OutboxMessage := {
    outboxId := "outbox-" ++ p.proposalId
    dedupeKey := "proposal:" ++ p.proposalId
    topic := "PROPOSAL_CREATED"
    aggregateId := p.incidentId
    payload := .obj [("proposal_id", .str p.proposalId), ("state_version", integer version)]
    correlationId := r.bind.correlationId
    traceId := r.bind.traceId
    stateVersion := some version }
  have haccepts : db₃.outbox.Accepts created := haccepts
  obtain ⟨outbox, henqueue⟩ := enqueueOutbox_of_accepts haccepts r.now
  have hrecord : ∃ reply, recordProposal s r scopeId version release p db =
      .ok (reply, { db₃ with outbox }) :=
    ⟨_, bind_ok.mpr ⟨db₁, hdecision, bind_ok.mpr ⟨_, hproposed, bind_ok.mpr ⟨_, hdecided,
      bind_ok.mpr ⟨_, henqueue, rfl⟩⟩⟩⟩⟩
  obtain ⟨reply, hrecord⟩ := hrecord
  refine ⟨reply, _, hrecord, ?_⟩
  obtain ⟨_, hnew₂, hsame₂⟩ := appendEvent_journaled hproposed
  obtain ⟨hkept₃, hnew₃, _⟩ := appendEvent_journaled hdecided
  rw [hjournal] at hnew₂ hsame₂
  by_cases hfree : db.journal.get proposed.eventId = none
  · exact ⟨proposed.journaled, hkept₃ _ (hnew₂ hfree), fresh_of_get hfree, rfl⟩
  · have hdecision : db.journal.get decided.eventId = none := hjournals.resolve_left hfree
    refine ⟨decided.journaled, hnew₃ ?_, fresh_of_get hdecision, rfl⟩
    rw [hsame₂ hfree, hjournal]
    exact hdecision

/-- The handler writes in the scope that is named, and only where a proposal is created. -/
theorem postProposals_within {r : Request} {db db' : Db} {reply : Reply}
    (h : postProposals s r db = .ok (reply, db')) :
    ∃ scopeId, r.text s "scope_id" "memphis-fulfillment" = .ok scopeId ∧ db.Within db' scopeId ∧
      ((db'.journal = db.journal ∧ db'.snapshots = db.snapshots) ∨
        ∃ release capability p, r.Proposes s db scopeId release capability p) := by
  obtain ⟨scopeId, hscope, h⟩ := bind_ok.mp h
  refine ⟨scopeId, hscope, ?_⟩
  have hnothing : db.Within db scopeId ∧ ((db.journal = db.journal ∧ db.snapshots = db.snapshots) ∨
      ∃ release capability p, r.Proposes s db scopeId release capability p) :=
    ⟨.refl _ _, .inl ⟨rfl, rfl⟩⟩
  dsimp only at h
  split at h
  · cases h
    exact hnothing
  next hstale =>
  split at h
  · cases h
    exact hnothing
  next hactive =>
  obtain ⟨active, hqualified, h⟩ := bind_ok.mp h
  split at h
  · cases h
    exact hnothing
  next release capability =>
  split at h
  · cases h
    exact hnothing
  next hevidence =>
  obtain ⟨p, hgenerated, h⟩ := bind_ok.mp h
  split at h
  · cases h
    exact hnothing
  · next hfresh =>
    obtain ⟨hwithin, hsnapshots, hinstant, haccepts, hjournal | hjournals⟩ := recordProposal_ok h
    · exact ⟨hwithin, .inl ⟨hjournal, hsnapshots⟩⟩
    · exact ⟨hwithin, .inr ⟨release, capability, p, hscope, Bool.eq_false_iff.mpr hstale,
        Bool.eq_false_iff.mpr hactive, hqualified, hevidence, hgenerated, hfresh, hinstant,
        haccepts, hjournals⟩⟩

theorem postProposals_of_proposes {r : Request} {db : Db} {scopeId : String}
    {release : C1ModelRelease} {capability : C1Capability} {p : ActionProposal}
    (h : r.Proposes s db scopeId release capability p) :
    ∃ reply db', postProposals s r db = .ok (reply, db') ∧
      ∃ e ∈ db'.journal.rows, e ∉ db.journal.rows ∧ e.scopeId = scopeId := by
  obtain ⟨reply, db', hrecord, hnew⟩ := recordProposal_total scopeId
    (state s db scopeId).version release (p := bindProposal s p (state s db scopeId).version)
    h.instant h.accepts h.journals
  refine ⟨reply, db', bind_ok.mpr ⟨scopeId, h.scope, ?_⟩, hnew⟩
  dsimp only
  simp only [h.upToDate, h.active, Bool.false_eq_true, if_false]
  refine bind_ok.mpr ⟨_, h.qualified, ?_⟩
  dsimp only
  split
  · next hnone => exact absurd hnone h.evidence
  · refine bind_ok.mpr ⟨p, h.generated, ?_⟩
    rw [h.fresh]
    exact hrecord

end

/-! ## Requests of a confined actor -/

section
variable {ρ : Type} {c : ControlPlane ρ} {h : HttpRequest} {records : PlatformRecords ρ}
  {facility : String}

theorem failure_status (code message correlationId : String) :
    (failure code message correlationId).status ≠ 200 := by
  unfold failure
  dsimp only
  split_ifs <;> simp

theorem thrownReply_status (correlationId : String) (e : Thrown) :
    (thrownReply correlationId e).status ≠ 200 := by
  cases e <;> exact failure_status _ _ _

theorem orReply_status {α : Type} {x : Except Thrown α} {reply : Reply}
    (h : orReply x = .error reply) : reply.status ≠ 200 := by
  cases x with
  | ok a => cases h
  | error e =>
    cases h
    exact thrownReply_status _ _

/-- What is not let through is refused. -/
theorem mediate_refused {s : TransitionService} {reply : Reply}
    (hrefused : mediate s h records = .error reply) : reply.status ≠ 200 := by
  rcases bind_error.mp hrefused with hread | ⟨body, _, hrefused⟩
  · unfold HttpRequest.read at hread
    split at hread
    · split at hread
      · cases hread
        exact thrownReply_status _ _
      · cases hread
      · cases hread
        exact failure_status _ _ _
    · cases hread
  rcases bind_error.mp hrefused with hauthenticate | ⟨_, _, hrefused⟩
  · unfold HttpRequest.authenticate at hauthenticate
    split at hauthenticate
    · split at hauthenticate
      · cases hauthenticate
        simp
      · split at hauthenticate
        · cases hauthenticate
          exact failure_status _ _ _
        · cases hauthenticate
    · cases hauthenticate
  rcases bind_error.mp hrefused with hbinding | ⟨bind, _, hrefused⟩
  · unfold HttpRequest.binding at hbinding
    split at hbinding
    · dsimp only at hbinding
      split at hbinding
      · cases hbinding
        exact failure_status _ _ _
      · split at hbinding
        · split at hbinding
          · cases hbinding
          · cases hbinding
            exact failure_status _ _ _
        · cases hbinding
          exact failure_status _ _ _
    · cases hbinding
  rcases bind_error.mp hrefused with hauthorize | ⟨_, _, hrefused⟩
  · unfold HttpRequest.authorize at hauthorize
    split at hauthorize
    · cases hauthorize
    · split at hauthorize
      · split at hauthorize
        · split at hauthorize
          · rcases bind_error.mp hauthorize with htext | ⟨_, _, houtside⟩
            · exact orReply_status htext
            · split at houtside
              · cases houtside
                exact failure_status _ _ _
              · cases houtside
          · cases hauthorize
            exact failure_status _ _ _
        · cases hauthorize
          exact failure_status _ _ _
      · cases hauthorize
        exact failure_status _ _ _
  rcases bind_error.mp hrefused with hversion | ⟨_, _, hrefused⟩
  · unfold HttpRequest.checkVersion at hversion
    split at hversion
    · cases hversion
    · rcases bind_error.mp hversion with htext | ⟨_, _, hstale⟩
      · exact orReply_status htext
      · split at hstale
        · cases hstale
          exact failure_status _ _ _
        · cases hstale
  · cases hrefused

theorem not_public {route : Route} (hroute : routeOf h.method h.path = some route) :
    h.isPublic = false := by
  rw [Bool.eq_false_iff]
  intro hpublic
  have hnone : routeOf h.method h.path = none := by
    unfold HttpRequest.isPublic at hpublic
    rcases of_decide_eq_true hpublic with hmethod | ⟨hmethod, hpath | hpath | hpath⟩
    · rw [hmethod]
      simp [routeOf, handlers]
    all_goals
      rw [hmethod, hpath]
      decide +kernel
  rw [hnone] at hroute
  cases hroute

/-- The scope of the check is the facility, or no scope is checked. -/
theorem requestedScope_of_mediate {s : TransitionService} (hconfined : h.Confined records facility)
    {body : Value} {bind : Option HttpBinding}
    (hmediate : mediate s h records = .ok (body, bind)) :
    h.requestedScope s body = .ok "" ∨ h.requestedScope s body = .ok facility := by
  obtain ⟨p, capability, role, m, hp, hcapability, hrole, hm, _, hscope, hempty, hstar⟩ := hconfined
  obtain ⟨_, _, _, hauthorize, _⟩ := mediate_ok hmediate
  unfold HttpRequest.authorize at hauthorize
  rw [hcapability] at hauthorize
  dsimp only at hauthorize
  rw [hp, hrole] at hauthorize
  dsimp only at hauthorize
  rw [hm] at hauthorize
  dsimp only at hauthorize
  split at hauthorize
  · obtain ⟨requested, hrequested, hauthorize⟩ := bind_ok.mp hauthorize
    have hrequested : h.requestedScope s body = .ok requested := by
      cases hx : h.requestedScope s body with
      | ok x =>
        rw [hx] at hrequested
        cases hrequested
        rfl
      | error e =>
        rw [hx] at hrequested
        cases hrequested
    rw [hrequested]
    unfold ActorMembership.outside at hauthorize
    rw [hscope] at hauthorize
    by_cases hnone : requested = ""
    · exact .inl (congrArg _ hnone)
    · by_cases hsame : facility = requested
      · exact .inr (congrArg _ hsame.symm)
      · simp [hempty, hstar, hnone, hsame] at hauthorize
  · cases hauthorize

/-- The scope a handler takes is the facility, unless the request has none of its own. -/
theorem scope_iff {s : TransitionService} (hconfined : h.Confined records facility) {body : Value}
    {bind : Option HttpBinding} (hmediate : mediate s h records = .ok (body, bind))
    {scopeId : String} (hscope : scopeOf s body = .ok scopeId) :
    scopeId ≠ facility ↔ Unscoped s.service body facility := by
  have hrequested := requestedScope_of_mediate hconfined hmediate
  obtain ⟨_, _, _, _, _, _, _, _, _, _, hempty, _⟩ := hconfined
  unfold HttpRequest.requestedScope at hrequested
  unfold scopeOf at hscope
  unfold Unscoped
  cases hbody : field body "scope_id" with
  | none =>
    rw [hbody] at hscope
    cases hscope
    exact ne_comm
  | some v =>
    rw [hbody] at hscope hrequested
    cases v with
    | null =>
      cases hscope
      exact ne_comm
    | _ =>
      dsimp only [orDefault, present, TransitionService.service] at hscope hrequested ⊢
      rw [hscope] at hrequested ⊢
      simp only [Except.ok.injEq] at hrequested ⊢
      rcases hrequested with rfl | rfl
      · exact iff_of_true hempty.symm rfl
      · exact iff_of_false (absurd rfl) hempty

/-- A handler of the tables that are modelled has a principal, a binding and a result. -/
theorem bound_onDb {principal : Option VerifiedPrincipal} {bind : Option HttpBinding}
    {f : VerifiedPrincipal → HttpBinding → Except Thrown (Reply × Db)} {reply : Reply}
    {records' : PlatformRecords ρ} :
    bound principal bind (fun p b => records.onDb (f p b)) = .ok (reply, records') ↔
      ∃ p b db', principal = some p ∧ bind = some b ∧ f p b = .ok (reply, db') ∧
        records' = { records with db := db' } := by
  constructor
  · intro hbound
    cases principal with
    | none => cases hbound
    | some p =>
      cases bind with
      | none => cases hbound
      | some b =>
        obtain ⟨⟨reply', db'⟩, hf, hbound⟩ := bind_ok.mp hbound
        cases hbound
        exact ⟨p, b, db', rfl, rfl, hf, rfl⟩
  · rintro ⟨p, b, db', rfl, rfl, hf, rfl⟩
    exact bind_ok.mpr ⟨_, hf, rfl⟩

theorem observation_scope {s : Service} {r : Request} {db : Db} {event : EventEnvelope}
    (hobserved : observation s r db = .ok event) :
    r.text s "scope_id" "memphis-fulfillment" = .ok event.scopeId := by
  obtain ⟨scopeId, hscope, hobserved⟩ := bind_ok.mp hobserved
  obtain ⟨_, _, hobserved⟩ := bind_ok.mp hobserved
  obtain ⟨_, _, hobserved⟩ := bind_ok.mp hobserved
  obtain ⟨_, _, hobserved⟩ := bind_ok.mp hobserved
  cases hobserved
  exact hscope

/-- What a handler of a request that is let through writes is in the facility, or the request
has no scope of its own and the handler writes where `Strays` says. -/
theorem writes_of_perform (hconfined : h.Confined records facility)
    (hnot : ¬ h.Strays c records facility) {body : Value} {bind : Option HttpBinding} {route : Route}
    {reply : Reply} {records' : PlatformRecords ρ}
    (hmediate : mediate c.service h records = .ok (body, bind))
    (hroute : routeOf h.method h.path = some route)
    (hwrites : route = .postEvents ∨ route = .postProposals)
    (hperform : c.perform h body bind records route = .ok (reply, records')) :
    records.db.Within records'.db facility := by
  rcases hwrites with rfl | rfl
  · obtain ⟨p, b, db', hp, rfl, hpost, rfl⟩ := bound_onDb.mp hperform
    obtain ⟨event, hobserved, hwithin, ⟨hjournal, hsnapshots⟩ | hsubmits⟩ := postEvents_effect hpost
    · exact .of_same hjournal hsnapshots _
    · have hscope : scopeOf c.service body = .ok event.scopeId := observation_scope hobserved
      have hfacility : event.scopeId = facility := by
        by_contra hne
        exact hnot (.submits body b p event hroute hmediate hp
          ((scope_iff hconfined hmediate hscope).mp hne) hsubmits)
      exact hfacility ▸ hwithin
  · obtain ⟨p, b, db', hp, rfl, hpost, rfl⟩ := bound_onDb.mp hperform
    obtain ⟨scopeId, htext, hwithin, ⟨hjournal, hsnapshots⟩ | ⟨release, capability, proposal,
      hproposes⟩⟩ := postProposals_within hpost
    · exact .of_same hjournal hsnapshots _
    · have hscope : scopeOf c.service body = .ok scopeId := htext
      have hfacility : scopeId = facility := by
        by_contra hne
        exact hnot (.proposes body b p scopeId release capability proposal hroute hmediate hp
          ((scope_iff hconfined hmediate hscope).mp hne) hproposes)
      exact hfacility ▸ hwithin

/-- An event in the journal of another scope is not within the facility. -/
theorem not_within {db db' : Db} {e : EventEnvelope} (hmem : e ∈ db'.journal.rows)
    (hnew : e ∉ db.journal.rows) (hscope : e.scopeId ≠ facility) : ¬ db.Within db' facility := by
  intro hwithin
  rcases hwithin.journal e hmem with hold | hsame
  · exact hnew hold
  · exact hscope hsame

theorem not_within_of_strays (hconfined : h.Confined records facility)
    (hstrays : h.Strays c records facility) : ¬ h.WithinFacility c records facility := by
  intro hwithin
  cases hstrays with
  | submits body b p event hroute hmediate hp hunscoped hsubmits =>
    obtain ⟨reply, db', hpost, hmem⟩ := postEvents_of_submits hsubmits
    have hperform : c.perform h body (some b) records .postEvents =
        .ok (reply, { records with db := db' }) :=
      bound_onDb.mpr ⟨p, b, db', hp, rfl, hpost, rfl⟩
    have hwrites := hwithin.writes (.inl hroute)
    rw [handle_of_perform c (not_public hroute) hmediate hroute hperform] at hwrites
    have hscope : scopeOf c.service body = .ok event.scopeId := observation_scope hsubmits.observed
    exact not_within hmem (fresh_of_get hsubmits.fresh)
      ((scope_iff hconfined hmediate hscope).mpr hunscoped) hwrites
  | proposes body b p scopeId release capability proposal hroute hmediate hp hunscoped hproposes =>
    obtain ⟨reply, db', hpost, e, hmem, hnew, rfl⟩ := postProposals_of_proposes hproposes
    have hperform : c.perform h body (some b) records .postProposals =
        .ok (reply, { records with db := db' }) :=
      bound_onDb.mpr ⟨p, b, db', hp, rfl, hpost, rfl⟩
    have hwrites := hwithin.writes (.inr hroute)
    rw [handle_of_perform c (not_public hroute) hmediate hroute hperform] at hwrites
    have hscope : scopeOf c.service body = .ok e.scopeId := hproposes.scope
    exact not_within hmem hnew ((scope_iff hconfined hmediate hscope).mpr hunscoped) hwrites
  | reads body bind hroute hmediate hother =>
    have hreads := hwithin.reads hroute
    rw [handle_of_perform c (not_public hroute) hmediate hroute rfl] at hreads
    have hsame := hreads rfl
    simp only [HttpRequest.dataReply, Reply.mk.injEq, true_and, Value.obj.injEq, List.cons.injEq,
      Prod.mk.injEq, and_true] at hsame
    exact hother hsame

/-- **Confined writes and reads** up to the scopes that are not checked: a request of an actor
confined to a facility writes events and proposals and reads the state of that facility alone,
exactly when it does not stray. -/
theorem facility_scope_iff (c : ControlPlane ρ) (h : HttpRequest) (records : PlatformRecords ρ)
    (facility : String) (hconfined : h.Confined records facility) :
    h.WithinFacility c records facility ↔ ¬ h.Strays c records facility := by
  constructor
  · exact fun hwithin hstrays => not_within_of_strays hconfined hstrays hwithin
  · intro hnot
    constructor
    · intro hwrites
      by_cases hsame : (c.handle h records).2 = records
      · rw [hsame]
        exact .refl _ _
      · obtain ⟨body, bind, route, reply, records', hmediate, hroute, hperform, _⟩ :=
          handle_changes c hsame
        rw [handle_of_perform c (not_public hroute) hmediate hroute hperform]
        rw [hroute, Option.some.injEq, Option.some.injEq] at hwrites
        exact writes_of_perform hconfined hnot hmediate hroute hwrites hperform
    · intro hroute hstatus
      cases hmediate : mediate c.service h records with
      | error reply =>
        have hhandle : (c.handle h records).1 = reply := by
          unfold ControlPlane.handle
          rw [not_public hroute, hmediate]
          rfl
        rw [hhandle] at hstatus
        exact absurd hstatus (mediate_refused hmediate)
      | ok admitted =>
        obtain ⟨body, bind⟩ := admitted
        rw [handle_of_perform c (not_public hroute) hmediate hroute rfl]
        have hsame : (state c.service.service records.db h.last).toJson =
            (state c.service.service records.db facility).toJson := by
          by_contra hother
          exact hnot (.reads body bind hroute hmediate hother)
        exact congrArg h.dataReply hsame

end
/-! ## An actor of another facility -/

def nashvilleOperator : ActorMembership :=
  ⟨"user-1", "operator", true, some "nashville", none, none⟩

def nashvilleRecords : PlatformRecords Unit where
  memberships := ⟨[nashvilleOperator], List.pairwise_singleton _ _⟩
  rest := ()

/-- An event of the operator, in the scope if there is one. -/
def operatorEvent (scope : Fields) : HttpRequest where
  method := "POST"
  path := "/v1/events"
  body := some (.obj (scope ++ [("binding", sampleHttpBinding), ("event_id", .str "e"),
    ("payload", .obj [])]))
  facilityScope := none
  correlationId := none
  principal := some (samplePrincipal ["operator"])
  now := 0

theorem operatorEvent_confined (scope : Fields) :
    (operatorEvent scope).Confined nashvilleRecords "nashville" := by
  have hcapability : capabilityFor "POST" "/v1/events" = some "event:submit" := by decide +kernel
  have hrole : ["operator"].find? (fun role => role ∈ rolesForCapability "event:submit") =
      some "operator" := by decide +kernel
  exact ⟨samplePrincipal ["operator"], "event:submit", "operator", nashvilleOperator, rfl,
    hcapability, hrole, rfl, rfl, rfl, by decide, by decide⟩

theorem facility_scope_nashville :
    (operatorEvent [("scope_id", .str "nashville")]).Confined nashvilleRecords "nashville" ∧
    ((operatorEvent [("scope_id", .str "nashville")]).WithinFacility sampleControlPlane
        nashvilleRecords "nashville" ↔
      ¬ (operatorEvent [("scope_id", .str "nashville")]).Strays sampleControlPlane
        nashvilleRecords "nashville") :=
  ⟨operatorEvent_confined _, facility_scope_iff _ _ _ _ (operatorEvent_confined _)⟩

/-- The operator is confined to Nashville, and the event is journaled for Memphis. -/
theorem default_scope_written : (operatorEvent []).Confined nashvilleRecords "nashville" ∧
    ¬ (operatorEvent []).WithinFacility sampleControlPlane nashvilleRecords "nashville" := by
  refine ⟨operatorEvent_confined _, fun hwithin => ?_⟩
  have hscopes : ((sampleControlPlane.handle (operatorEvent []) nashvilleRecords).2.db.journal.rows.map
      fun e => e.scopeId).contains "memphis-fulfillment" = true := by decide +kernel
  obtain ⟨e, he, hscope⟩ := List.mem_map.mp (List.contains_iff_mem.mp hscopes)
  have hroute : routeOf "POST" "/v1/events" = some .postEvents := by decide +kernel
  rcases (hwithin.writes (.inl hroute)).journal e he with hold | hsame
  · cases hold
  · rw [hscope] at hsame
    revert hsame
    decide

end Edon.Platform
