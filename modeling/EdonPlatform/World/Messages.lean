import EdonPlatform.World.Verification

/- The outbox of the world store, over every sequence of calls.

   What is proved:
     1. `enqueueWorldEvent_new` — a message is written, not ignored, when no message in
        the outbox is of an event with its ids: a digest shared with another message, or
        with another event, would give them the same ids.
     2. `Announced.record` — recording an event appends its message.
     3. `outbox_complete` — after any calls the outbox holds, event row by event row, one
        message that names its hash, ids, versions and mutations, and nothing else.

   Assumed: SHA-256 is injective on texts. -/
namespace Edon.World
open Json Transition

/-- The entry of a message's payload under a key. -/
def OutboxRow.names (m : OutboxRow) (key : String) : Option Json :=
  match m.payload with
  | .obj fields => Assoc.find fields key
  | _ => none

/-- A message that names the event of a row. -/
structure Announces (r : EventRow) (m : OutboxRow) : Prop where
  eventHash : m.names "event_hash" = some (.str r.eventHash)
  tenant : m.names "tenant_id" = some (.str r.tenantId)
  world : m.names "world_id" = some (.str r.worldId)
  event : m.names "event_id" = some (.str r.eventId)
  expected : m.names "expected_version" = some (.int r.expectedVersion)
  resulting : m.names "resulting_version" = some (.int r.resultingVersion)
  mutations : m.names "mutations" = some (.arr r.mutations)

section
variable {py : Python}

/-! ## What a digest pins down -/

theorem afterColon_sha256Json (v : Json) :
    afterColon (sha256Json py.sha256 v) = py.sha256 (canonicalJson v) := by
  have htext : (sha256Json py.sha256 v).toList =
      ['s', 'h', 'a', '2', '5', '6', ':'] ++ (py.sha256 (canonicalJson v)).toList :=
    String.toList_append
  unfold afterColon
  rw [htext]
  exact String.ofList_toList

/-- The entry of an object under a key is fixed by the object up to the order of keys. -/
theorem find_of_same {a b : Fields} (h : Same (.obj a) (.obj b)) (key : String) :
    (Assoc.find a key).map canon = (Assoc.find b key).map canon :=
  same_obj_iff.mp h key

theorem key_of_same {e e' : Event} (h : Same e.toJson e'.toJson) :
    (e.tenantId, e.worldId, e.eventId) = (e'.tenantId, e'.worldId, e'.eventId) := by
  have htenant := find_of_same h "tenant_id"
  have hworld := find_of_same h "world_id"
  have hevent := find_of_same h "event_id"
  simp [Request.fields, Assoc.find, canon] at htenant hworld hevent
  rw [htenant, hworld, hevent]

theorem key_of_same_message {e e' : Event} {hash hash' : String}
    (h : Same (outboxMessage py e hash) (outboxMessage py e' hash')) :
    (e.tenantId, e.worldId, e.eventId) = (e'.tenantId, e'.worldId, e'.eventId) := by
  have htenant := find_of_same h "tenant_id"
  have hworld := find_of_same h "world_id"
  have hevent := find_of_same h "event_id"
  simp [Assoc.find, canon] at htenant hworld hevent
  rw [htenant, hworld, hevent]

/-! ## Enqueueing -/

/-- The message of an event, as `_enqueue_world_event` writes it. -/
def messageOf (py : Python) (e : Event) : OutboxRow :=
  outboxRow py e (sha256Json py.sha256 e.toJson)

/-- Every event has its message, in the order they were recorded. -/
def Announced (py : Python) (db : WorldDb) : Prop :=
  ∃ events : List Event, db.worldEvents.rows = events.map (eventRow py) ∧
    db.worldOutbox.rows = events.map (messageOf py)

/-- Neither constraint of the outbox can hold back a message of an event with new ids. -/
theorem enqueueWorldEvent_new (hinj : Function.Injective py.sha256) {events : List Event}
    {event : Event} {outbox : Table OutboxRow.key}
    (hrows : outbox.rows = events.map (messageOf py))
    (hnew : ∀ e ∈ events,
      (e.tenantId, e.worldId, e.eventId) ≠ (event.tenantId, event.worldId, event.eventId)) :
    (enqueueWorldEvent py event (sha256Json py.sha256 event.toJson) outbox).rows =
      outbox.rows ++ [messageOf py event] := by
  have hpayload : outbox.rows.any (fun r => r.topic = (messageOf py event).topic ∧
      r.payloadSha256 = (messageOf py event).payloadSha256) = false := by
    rw [List.any_eq_false]
    intro m hm
    rw [hrows] at hm
    obtain ⟨e, he, rfl⟩ := List.mem_map.mp hm
    intro hsame
    exact hnew e he (key_of_same_message (same_of_sha256Json hinj (of_decide_eq_true hsame).2))
  have hid : outbox.get (messageOf py event).key = none := by
    rw [Table.get_eq_none]
    intro m hm
    rw [hrows] at hm
    obtain ⟨e, he, rfl⟩ := List.mem_map.mp hm
    intro hsame
    have hdigest : afterColon (sha256Json py.sha256 e.toJson) =
        afterColon (sha256Json py.sha256 event.toJson) := String.append_right_inj _ |>.mp hsame
    rw [afterColon_sha256Json, afterColon_sha256Json] at hdigest
    exact hnew e he (key_of_same (canonicalJson_injective.mp (hinj hdigest)))
  obtain ⟨outbox', hinsert⟩ := Table.insert_of_get hid
  unfold enqueueWorldEvent
  unfold messageOf at hpayload hinsert ⊢
  dsimp only
  rw [hpayload, hinsert]
  exact (Table.rows_insert hinsert).1

theorem Announced.record (hinj : Function.Injective py.sha256) {event : Event} {state : Json}
    {db db' : WorldDb} (h : Announced py db) (hrec : Records py event state db db') :
    Announced py db' := by
  obtain ⟨events, hevents, houtbox⟩ := h
  have hnew : ∀ e ∈ events,
      (e.tenantId, e.worldId, e.eventId) ≠ (event.tenantId, event.worldId, event.eventId) := by
    intro e he hkey
    have hmem : eventRow py e ∈ db.worldEvents.rows := hevents ▸ List.mem_map_of_mem he
    exact Table.get_eq_none.mp hrec.fresh _ hmem hkey
  refine ⟨events ++ [event], ?_, ?_⟩
  · rw [hrec.events, hevents, List.map_append]
    rfl
  · rw [hrec.outbox, enqueueWorldEvent_new hinj houtbox hnew, houtbox, List.map_append]
    rfl

theorem announced_afterCalls (hinj : Function.Injective py.sha256) (calls : List Call) :
    Announced py (afterCalls py calls) := by
  apply exec_invariant _ ⟨[], rfl, rfl⟩
  intro db c h
  rcases c.records py db with hsame | ⟨event, state, hrec⟩
  · rw [hsame]
    exact h
  · exact h.record hinj hrec

/-- The payload is the message with its keys sorted, which moves no entry. -/
theorem messageOf_names {e : Event} {key : String} {fields : Fields}
    (h : outboxMessage py e (sha256Json py.sha256 e.toJson) = .obj fields) :
    (messageOf py e).names key = (Assoc.find fields key).map canon := by
  have hpayload : (messageOf py e).payload = .obj (Assoc.sortKeys (canonFields fields)) := by
    show (outboxMessage py e (sha256Json py.sha256 e.toJson)).canon = _
    rw [h, canon]
  unfold OutboxRow.names
  rw [hpayload]
  dsimp only
  rw [Assoc.find_sortKeys, find_canonFields]

theorem announces_messageOf (e : Event) : Announces (eventRow py e) (messageOf py e) := by
  have hmutations : (Json.arr e.mutations).canon = .arr (eventRow py e).mutations := by
    rw [canon, canonList_eq_map]
    rfl
  exact
    { eventHash := messageOf_names rfl
      tenant := messageOf_names rfl
      world := messageOf_names rfl
      event := messageOf_names rfl
      expected := messageOf_names rfl
      resulting := messageOf_names rfl
      mutations := (messageOf_names rfl).trans (congrArg some hmutations) }

end

/-- **Completeness of the outbox.** After any calls the outbox holds one message for
each event row, in their order, that names the event, and no other row. -/
theorem outbox_complete (py : Python) (hinj : Function.Injective py.sha256) (calls : List Call) :
    List.Forall₂ Announces (afterCalls py calls).worldEvents.rows
      (afterCalls py calls).worldOutbox.rows := by
  obtain ⟨events, hevents, houtbox⟩ := announced_afterCalls hinj calls
  rw [hevents, houtbox, List.forall₂_map_left_iff, List.forall₂_map_right_iff, List.forall₂_same]
  exact fun e _ => announces_messageOf e

theorem outbox_complete_createdWard :
    List.Forall₂ Announces createdWard.worldEvents.rows createdWard.worldOutbox.rows :=
  outbox_complete textPython Function.injective_id _

end Edon.World
