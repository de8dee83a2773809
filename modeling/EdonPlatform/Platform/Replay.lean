import EdonPlatform.Platform.Events

/- The in-memory journal and its replay (packages/platform-core/src/event-journal.ts),
   compared with the projection of the same events (state-projector.ts).

   What is proved:
     1. `replay_cases` — the replay is the version of a newest projected state, or the
        initial one where no event projects a state.
     2. `replay_agreement_iff` — the replay and the projection have one version, in every
        order the events may be appended in, exactly when each newest projected state has
        the version of the projection.
     3. `late_projection_disagrees` — a state that occurred before one of a lower version.

   Correspondence (TypeScript ↔ Lean):
     `AppendOnlyJournal`          ↔ `AppendOnlyJournal` (`append`, `all`, `replay`)
     `ReplayableStateProjector`   ↔ `project`

   The fingerprints of the journal are read by `verifyIntegrity` alone and are left out. -/
namespace Edon.Platform
open Js

/-! ## The journal -/

/-- The records of the journal; no two have the same id. -/
structure AppendOnlyJournal where
  records : List EventEnvelope
  distinct : (records.map EventEnvelope.eventId).Nodup

namespace AppendOnlyJournal

def empty : AppendOnlyJournal := ⟨[], List.nodup_nil⟩

/-- Whether the event was appended; one whose id is taken is not. -/
def append (event : EventEnvelope) (j : AppendOnlyJournal) : Bool × AppendOnlyJournal :=
  if h : event.eventId ∈ j.records.map EventEnvelope.eventId then (false, j)
  else (true, ⟨j.records ++ [event], by
    rw [List.map_append, List.nodup_append']
    exact ⟨j.distinct, List.nodup_singleton _, by simpa using h⟩⟩)

def all (j : AppendOnlyJournal) : List EventEnvelope := j.records

/-- The journal the events are appended to, in this order. -/
def ofEvents (events : List EventEnvelope) : AppendOnlyJournal :=
  events.foldl (fun j event => (j.append event).2) empty

end AppendOnlyJournal

/-- `event.event_type === 'STATE_PROJECTED'`. -/
def EventEnvelope.projects (e : EventEnvelope) : Bool := e.eventType = .stateProjected

section
variable (js : Runtime)

/-- `a.occurred_at.localeCompare(b.occurred_at)` does not put `b` first. -/
def occursBefore (a b : EventEnvelope) : Prop := js.localeCompare a.occurredAt b.occurredAt ≤ 0

instance : DecidableRel (occursBefore js) := fun _ _ => inferInstanceAs (Decidable (_ ≤ _))

instance : Std.Total (occursBefore js) where
  total a b := js.compare_total a.occurredAt b.occurredAt

instance : IsTrans EventEnvelope (occursBefore js) where
  trans a b c := js.compare_trans a.occurredAt b.occurredAt c.occurredAt

def AppendOnlyJournal.replay (j : AppendOnlyJournal) : Int :=
  (j.records.insertionSort (occursBefore js)).foldl
    (fun state event => if event.projects then event.stateVersionAfter else state) 141

/-- A projected state that no other is later than. -/
def Newest (events : List EventEnvelope) (e : EventEnvelope) : Prop :=
  e ∈ events ∧ e.projects = true ∧ ∀ x ∈ events, x.projects = true → occursBefore js x e

end

/-- The event has the greatest version of those that the projection accepts, or the initial
one where it accepts none. -/
def Current (events : List EventEnvelope) (e : EventEnvelope) : Prop :=
  (∀ x ∈ events, x.accepted = true → x.stateVersionAfter ≤ e.stateVersionAfter) ∧
    ((∃ x ∈ events, x.accepted = true ∧ x.stateVersionAfter = e.stateVersionAfter) ∨
      ((∀ x ∈ events, x.accepted = false) ∧ e.stateVersionAfter = 141))

theorem EventEnvelope.projects_of_accepted {e : EventEnvelope} (h : e.accepted = true) :
    e.projects = true := decide_eq_true (of_decide_eq_true h).1

section
variable {js : Runtime}

/-! ## What the replay is -/

theorem replay_eq (j : AppendOnlyJournal) : j.replay js =
    ((Sorting.lastWith (occursBefore js) EventEnvelope.projects j.records).map
      EventEnvelope.stateVersionAfter).getD 141 :=
  Sorting.foldl_last EventEnvelope.projects EventEnvelope.stateVersionAfter 141 _

/-- The replay is the version of a newest projected state, or the initial one where no event
projects a state. -/
theorem replay_cases (j : AppendOnlyJournal) :
    (j.replay js = 141 ∧ ∀ e ∈ j.records, e.projects = false) ∨
      ∃ e, Newest js j.records e ∧ j.replay js = e.stateVersionAfter := by
  rw [replay_eq]
  cases hlast : Sorting.lastWith (occursBefore js) EventEnvelope.projects j.records with
  | none => exact .inl ⟨rfl, Sorting.lastWith_eq_none.mp hlast⟩
  | some e =>
    obtain ⟨hmem, hprojects⟩ := Sorting.lastWith_mem hlast
    exact .inr ⟨e, ⟨hmem, hprojects, Sorting.le_lastWith hlast⟩, rfl⟩

/-- Appended last, a newest projected state is the one the replay ends in. -/
theorem replay_concat {j : AppendOnlyJournal} {l : List EventEnvelope} {e : EventEnvelope}
    (hj : j.records = l ++ [e]) (he : Newest js j.records e) :
    j.replay js = e.stateVersionAfter := by
  obtain ⟨-, hprojects, hnewest⟩ := he
  rw [replay_eq, hj, Sorting.lastWith_concat hprojects]
  · rfl
  · intro x hx
    exact hnewest x (hj ▸ List.mem_append_left _ hx)

theorem Newest.of_perm {l m : List EventEnvelope} {e : EventEnvelope} (hperm : l.Perm m)
    (h : Newest js l e) : Newest js m e :=
  ⟨hperm.mem_iff.mp h.1, h.2.1, fun x hx => h.2.2 x (hperm.mem_iff.mpr hx)⟩

theorem project_version_perm {l m : List EventEnvelope} (hperm : l.Perm m) :
    (project js l).version = (project js m).version := by
  have hle : ∀ {l m : List EventEnvelope}, l.Perm m →
      (project js l).version ≤ (project js m).version := by
    intro l m hperm
    rcases project_cases js l with ⟨h, -⟩ | ⟨e, he, haccepted, h, -⟩
    · rw [h]
      exact project_version_ge js m
    · rw [h, of_version haccepted]
      exact project_version_le js (hperm.mem_iff.mp he) haccepted
  exact le_antisymm (hle hperm) (hle hperm.symm)

/-- The version of an event is that of the projection exactly when it is current. -/
theorem current_iff {events : List EventEnvelope} {e : EventEnvelope} :
    e.stateVersionAfter = (project js events).version ↔ Current events e := by
  rcases project_cases js events with ⟨h, hnone⟩ | ⟨x, hx, haccepted, h, -⟩
  · rw [h]
    constructor
    · intro hversion
      refine ⟨?_, .inr ⟨hnone, hversion⟩⟩
      intro x hx haccepted
      rw [hnone x hx] at haccepted
      cases haccepted
    · rintro ⟨-, ⟨x, hx, haccepted, -⟩ | ⟨-, hversion⟩⟩
      · rw [hnone x hx] at haccepted
        cases haccepted
      · exact hversion
  · have hversion : (project js events).version = x.stateVersionAfter := by
      rw [h, of_version haccepted]
    rw [hversion]
    constructor
    · intro he
      refine ⟨?_, .inl ⟨x, hx, haccepted, he.symm⟩⟩
      intro y hy hya
      rw [he, ← hversion]
      exact project_version_le js hy hya
    · rintro ⟨hle, ⟨y, hy, hya, hsame⟩ | ⟨hnone, -⟩⟩
      · refine le_antisymm ?_ (hle x hx haccepted)
        rw [← hsame, ← hversion]
        exact project_version_le js hy hya
      · rw [hnone x hx] at haccepted
        cases haccepted

end

/-- The journal of events with distinct ids has them as they were appended. -/
theorem ofEvents_records {events : List EventEnvelope}
    (h : (events.map EventEnvelope.eventId).Nodup) :
    (AppendOnlyJournal.ofEvents events).records = events := by
  suffices hfrom : ∀ (events : List EventEnvelope) (j : AppendOnlyJournal),
      ((j.records ++ events).map EventEnvelope.eventId).Nodup →
      (events.foldl (fun j event => (j.append event).2) j).records = j.records ++ events from
    hfrom events AppendOnlyJournal.empty h
  intro events
  induction events with
  | nil =>
    intro j _
    exact (List.append_nil _).symm
  | cons e events ih =>
    intro j hnodup
    have hnew : e.eventId ∉ j.records.map EventEnvelope.eventId := by
      intro hmem
      rw [List.map_append, List.map_cons, List.nodup_append'] at hnodup
      exact hnodup.2.2 hmem (List.mem_cons_self ..)
    have happend : (j.append e).2.records = j.records ++ [e] := by
      unfold AppendOnlyJournal.append
      rw [dif_neg hnew]
    rw [List.foldl_cons, ih, happend, List.append_assoc, List.singleton_append]
    rw [happend, List.append_assoc, List.singleton_append]
    exact hnodup

/-- **Agreement of the replays.** In every order the events of a journal may be appended in,
the replay of the journal is the version of their projection, and neither changes with the
order, exactly when every newest projected state is current. -/
theorem replay_agreement_iff (js : Runtime) (j : AppendOnlyJournal) :
    (j.replay js = (project js j.all).version ∧
      ∀ j' : AppendOnlyJournal, j'.records.Perm j.records → j'.replay js = j.replay js ∧
        (project js j'.all).version = (project js j.all).version) ↔
    ∀ e, Newest js j.records e → Current j.records e := by
  constructor
  · rintro ⟨hagree, hall⟩ e he
    rw [← @current_iff js]
    -- with the event appended last, the replay ends in it
    obtain ⟨l, m, hsplit⟩ := List.append_of_mem he.1
    have hperm : (l ++ m ++ [e]).Perm j.records := by
      rw [hsplit, List.append_assoc]
      exact (List.perm_append_comm).append_left l
    have hdistinct : ((l ++ m ++ [e]).map EventEnvelope.eventId).Nodup :=
      (hperm.map EventEnvelope.eventId).nodup_iff.mpr j.distinct
    have hlast := replay_concat (j := ⟨l ++ m ++ [e], hdistinct⟩) rfl (he.of_perm hperm.symm)
    rw [← hlast, (hall ⟨l ++ m ++ [e], hdistinct⟩ hperm).1, hagree]
    rfl
  · intro hcurrent
    have hagree : ∀ j' : AppendOnlyJournal, j'.records.Perm j.records →
        j'.replay js = (project js j.records).version := by
      intro j' hperm
      rcases @replay_cases js j' with ⟨hreplay, hnone⟩ | ⟨e, he, hreplay⟩
      · rcases project_cases js j.records with ⟨h, -⟩ | ⟨x, hx, haccepted, -⟩
        · rw [hreplay, h]
          rfl
        · have hx := hnone x (hperm.mem_iff.mpr hx)
          rw [x.projects_of_accepted haccepted] at hx
          cases hx
      · rw [hreplay]
        exact current_iff.mpr (hcurrent e (he.of_perm hperm))
    refine ⟨hagree j (List.Perm.refl _), ?_⟩
    intro j' hperm
    exact ⟨(hagree j' hperm).trans (hagree j (List.Perm.refl _)).symm, project_version_perm hperm⟩

/-! ## A late projection -/

/-- A projected state of this version, which occurred at this time. -/
def projectedState (id : String) (version : Int) (occurredAt : String) : EventEnvelope where
  eventId := id
  tenantId := "northstar"
  eventType := .stateProjected
  actorId := "control-plane"
  actorType := "SYSTEM"
  scopeId := "memphis-fulfillment"
  incidentId := "INC-1042"
  occurredAt := occurredAt
  observedAt := occurredAt
  availableToControllerAt := occurredAt
  recordedAt := occurredAt
  correlationId := "corr-1"
  traceId := "trace-1"
  stateVersionBefore := version - 1
  stateVersionAfter := version
  policyVersion := "POL-LOG-07 v18"
  payload := .obj [("capacity_units", integer 320), ("commitments_at_risk", integer 2)]
  payloadHash := "sha256:payload"
  previousRecordHash := "sha256:previous"

/-- Version 143 occurred before version 142. -/
def lateProjection : AppendOnlyJournal := .ofEvents
  [projectedState "evt-1" 142 "2026-09-24T15:31:00Z", projectedState "evt-2" 143 "2026-09-24T15:30:00Z"]

theorem late_projection_disagrees :
    ¬ (lateProjection.replay Runtime.sample = (project Runtime.sample lateProjection.all).version ∧
      ∀ j' : AppendOnlyJournal, j'.records.Perm lateProjection.records →
        j'.replay Runtime.sample = lateProjection.replay Runtime.sample ∧
        (project Runtime.sample j'.all).version =
          (project Runtime.sample lateProjection.all).version) := by
  rintro ⟨hagree, -⟩
  have hreplay : lateProjection.replay Runtime.sample = 142 := by decide +kernel
  have hproject : (project Runtime.sample lateProjection.all).version = 143 := by decide +kernel
  rw [hreplay, hproject] at hagree
  exact absurd hagree (by decide)

end Edon.Platform
