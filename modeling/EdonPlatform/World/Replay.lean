import EdonPlatform.World.Growth
import EdonPlatform.World.Restorability

/- Repeating a write of the world store (edon/world/store.py, `create_world`,
   `append_event` and `restore_version`), after any other operations on its tables.

   What is proved:
     1. `Intact.operate` — an operation keeps every event row and every snapshot, and a
        world's row changes only with its log, whose events raise its version one by one.
     2. `append_again`, `restore_replays` — an append or a restore is answered from its
        stored event and snapshot, which no later operation changes.
     3. `create_again` — a creation is answered from the current row of its world.
     4. `replays_iff` — so a repeated call changes nothing and gives its first answer
        exactly when it is not a creation, or its world has no event since.

   Correspondence (Python ↔ Lean):
     `duplicate` of `append_event`  ↔ the first branch of `Floating.appendTx`
     `existing` of `create_world`   ↔ the first branch of `World.createTx`
     the operations of the outbox   ↔ `Outbox.Op`, with the writes on doubles (`operate`) -/
namespace Edon.World.Floating
open Json Fallible Doubles Transition

/-! ## Histories -/

section
variable (d : Rounding) (py : Python)

/-- An operation on the tables: a write of the world store, or a call of a worker. -/
def operate (db : WorldDb) : Outbox.Op → WorldDb
  | .world c => next d py db c
  | op => op.run py db

/-- The tables after the operations, from empty ones. -/
def after (ops : List Outbox.Op) : WorldDb := exec (operate d py) ∅ ops

end

/-- The same call at another time. -/
def Call.again (now : String) (timestamp : Option String) : Call → Call
  | .createWorld _ t w state actor auth lineage _ =>
    .createWorld now t w state actor auth lineage timestamp
  | .appendEvent _ t w event type mutations actor expected auth lineage _ =>
    .appendEvent now t w event type mutations actor expected auth lineage timestamp
  | .restoreVersion _ t w target event actor expected auth _ =>
    .restoreVersion now t w target event actor expected auth timestamp

/-- What a snapshot says of its world. -/
structure Answer where
  version : Int
  state : Json
  stateSha256 : String
  eventHash : Option String
  deriving DecidableEq

def answer (s : Snapshot) : Answer where
  version := s.version
  state := s.state
  stateSha256 := s.stateSha256
  eventHash := s.eventHash

/-- A call that changes nothing and answers `a`. -/
def Replays (d : Rounding) (py : Python) (db : WorldDb) (c : Call) (a : Answer) : Prop :=
  next d py db c = db ∧ ∃ s, (run d py c db).1 = .ok s ∧ answer s = a

/-- A call that does not create a world, or whose world has the same events in `db'` as it
had in `db`. -/
def Untouched (c : Call) (db db' : WorldDb) : Prop :=
  match c with
  | .createWorld _ t w _ _ _ _ _ =>
    eventRows db' (strip t) (strip w) = eventRows db (strip t) (strip w)
  | _ => True

section
variable {d : Rounding} {py : Python} {event : Event} {state : Json} {db db' : WorldDb}

theorem Intact.next_free (hdb : Intact py db) {k : String × String} {version : Int}
    (h : ∀ row, db.worlds.get k = some row → version = row.currentVersion + 1) :
    db.worldSnapshots.get (k.1, k.2, version) = none := by
  rw [Table.get_eq_none]
  intro s hs hkey
  obtain ⟨-, row, hrow, hle⟩ := hdb.snapshots s hs
  have ht : s.tenantId = k.1 := congrArg Prod.fst hkey
  have hw : s.worldId = k.2 := congrArg (fun k => k.2.1) hkey
  have hv : s.version = version := congrArg (fun k => k.2.2) hkey
  rw [ht, hw] at hrow
  have hnext := h row hrow
  omega

/-! ## Every operation -/

theorem append_grows (hdb : Intact py db) (now tenantId worldId eventId eventType : String)
    (mutations : List Json) (actorId : String) (expectedVersion : Int)
    (authorizationRef : String) (sourceLineage : List String) (timestamp : Option String) :
    Grows db (appendEvent d py now tenantId worldId eventId eventType mutations actorId
      expectedVersion authorizationRef sourceLineage timestamp db).2 := by
  rcases appendEvent_cases d py now tenantId worldId eventId eventType mutations actorId
    expectedVersion authorizationRef sourceLineage timestamp db with
    h | ⟨request, world, state, _, hworld, _, _, hrec⟩
  · rw [h]
    exact .refl db
  · have hcurrent : ∀ row, db.worlds.get (request.tenantId, request.worldId) = some row →
        world.currentVersion + 1 = row.currentVersion + 1 := by
      intro row hrow
      cases hrow.symm.trans hworld
      rfl
    exact hrec.grows (hdb.next_free hcurrent) hcurrent

theorem Grows.next (hdb : Intact py db) (c : Call) : Grows db (next d py db c) := by
  cases c with
  | createWorld now t w state actor auth lineage timestamp =>
    unfold Floating.next run
    rcases createWorld_cases py now t w state actor auth lineage timestamp db with
      h | ⟨request, fields, _, hnone, hrec⟩
    · dsimp only
      rw [h]
      exact .refl db
    · have hcurrent : ∀ row, db.worlds.get (request.tenantId, request.worldId) = some row →
          0 = row.currentVersion + 1 := by
        intro row hrow
        cases hnone.symm.trans hrow
      exact hrec.grows (hdb.next_free hcurrent) hcurrent
  | appendEvent => exact append_grows hdb ..
  | restoreVersion =>
    simp only [Floating.next, run, restoreVersion]
    split
    · exact .refl db
    · exact append_grows hdb ..

/-- An operation is a write of the world store, or leaves the worlds alone. -/
theorem operate_cases (db : WorldDb) (op : Outbox.Op) :
    (∃ c, operate d py db op = next d py db c) ∨ SameWorlds db (operate d py db op) := by
  rcases sameWorlds_outbox py db op with ⟨c, rfl⟩ | h
  · exact .inl ⟨c, rfl⟩
  · cases op with
    | world c => exact .inl ⟨c, rfl⟩
    | _ => exact .inr h

theorem intact_of_sameWorlds (h : SameWorlds db db') (hdb : Intact py db) : Intact py db' where
  events := h.events ▸ hdb.events
  worlds := h.worlds ▸ hdb.worlds
  snapshots := by
    rw [h.snapshots, h.worlds]
    exact hdb.snapshots

theorem Intact.operate (hdb : Intact py db) (op : Outbox.Op) :
    Intact py (operate d py db op) ∧ Grows db (Floating.operate d py db op) := by
  rcases @operate_cases d py db op with ⟨c, h⟩ | h
  · rw [h]
    exact ⟨(call_keeps c hdb).1, Grows.next hdb c⟩
  · exact ⟨intact_of_sameWorlds h hdb, h.grows⟩

theorem Intact.run (hdb : Intact py db) (ops : List Outbox.Op) :
    Intact py (exec (Floating.operate d py) db ops) ∧
      Grows db (exec (Floating.operate d py) db ops) := by
  induction ops generalizing db with
  | nil => exact ⟨hdb, .refl db⟩
  | cons op ops ih =>
    obtain ⟨hintact, hgrows⟩ := hdb.operate (d := d) op
    obtain ⟨hintact', hgrows'⟩ := ih hintact
    exact ⟨hintact', hgrows.trans hgrows'⟩

/-! ## What answers a call -/

theorem appendTx_replay {request : Request} {createdAt : String} {s : Snapshot}
    (h : appendTx d py request createdAt db = .ok (some s, db')) :
    db' = db ∧ ∃ row, Stored py db request row ∧ s = row.snapshot := by
  simp only [appendTx] at h
  split at h
  · next duplicate hevent =>
    split at h
    · cases h
    · next hhash =>
      split at h
      · next row hsnapshot =>
        cases h
        exact ⟨rfl, row, ⟨duplicate, hevent, not_not.mp hhash, hsnapshot⟩, rfl⟩
      · cases h
  · split at h
    · cases h
    · split at h
      · cases h
      · obtain ⟨state, _, h⟩ := bind_ok.mp h
        obtain ⟨db₁, _, h⟩ := bind_ok.mp h
        cases h

/-- An append that answered left a stored event and snapshot, which it answered with. -/
theorem append_answer {now tenantId worldId eventId eventType : String} {mutations : List Json}
    {actorId : String} {expectedVersion : Int} {authorizationRef : String}
    {sourceLineage : List String} {timestamp : Option String} {s : Snapshot}
    (h : (appendEvent d py now tenantId worldId eventId eventType mutations actorId
      expectedVersion authorizationRef sourceLineage timestamp db).1 = .ok s) :
    ∃ request row, appendRequest py tenantId worldId eventId eventType mutations actorId
        expectedVersion authorizationRef sourceLineage = .ok request ∧
      Stored py (appendEvent d py now tenantId worldId eventId eventType mutations actorId
        expectedVersion authorizationRef sourceLineage timestamp db).2 request row ∧
      s = row.snapshot := by
  unfold appendEvent at h ⊢
  split at h
  · cases h
  · next request hrequest =>
    rw [hrequest]
    unfold committing at h ⊢
    split at h
    · cases h
    · next snapshot db₁ htx =>
      cases h
      obtain ⟨rfl, row, hstored, hs⟩ := appendTx_replay htx
      exact ⟨request, row, rfl, hstored, hs⟩
    · next db₁ htx =>
      rcases appendTx_ok htx with ⟨hne, _⟩ | ⟨_, world, state, hworld, hversion, _, hrec⟩
      · exact absurd rfl hne
      obtain ⟨t, w, e, ty, a, auth, ms, ls, ht, hw, -, -, -, -, -, -, hfields⟩ :=
        appendRequest_ok.mp hrequest
      have hagain : worldIdentifier request.tenantId "tenant_id" = .ok request.tenantId ∧
          worldIdentifier request.worldId "world_id" = .ok request.worldId := by
        rw [hfields]
        exact ⟨identifier_again ht _, identifier_again hw _⟩
      have hread := hrec.stateAt_eq hagain.1 hagain.2
      replace h : stateAt db₁ request.tenantId request.worldId (world.currentVersion + 1) =
          .ok s := hversion ▸ h
      exact ⟨request, _, rfl, ⟨_, hrec.event_added, rfl, hrec.snapshot_added⟩,
        Except.ok.inj (h.symm.trans hread)⟩

/-- A stored event answers the append again, whatever the time. -/
theorem append_again {tenantId worldId eventId eventType : String} {mutations : List Json}
    {actorId : String} {expectedVersion : Int} {authorizationRef : String}
    {sourceLineage : List String} {request : Request} {row : SnapshotRow}
    (hrequest : appendRequest py tenantId worldId eventId eventType mutations actorId
      expectedVersion authorizationRef sourceLineage = .ok request)
    (hstored : Stored py db request row) (now : String) (timestamp : Option String) :
    appendEvent d py now tenantId worldId eventId eventType mutations actorId expectedVersion
      authorizationRef sourceLineage timestamp db = (.ok row.snapshot, db) := by
  obtain ⟨duplicate, hevent, hhash, hsnapshot⟩ := hstored.event
  have htx : appendTx d py request (World.orNow timestamp now) db =
      .ok (some row.snapshot, db) := by
    unfold appendTx
    rw [hevent]
    dsimp only
    rw [if_neg (not_not.mpr hhash), hsnapshot]
  unfold appendEvent
  rw [hrequest]
  dsimp only
  unfold committing
  rw [htx]

/-- The rows that answer the repetition of a creation. -/
structure CreatedRows (py : Python) (db : WorldDb) (request : Request) (row : WorldRow)
    (created : EventRow) : Prop where
  world : db.worlds.get (request.tenantId, request.worldId) = some row
  event : db.worldEvents.get (request.tenantId, request.worldId, "WORLD_CREATED") = some created
  request : created.requestSha256 = sha256Json py.sha256 request.toJson

/-- What the current row of a world and its first event say. -/
def rowAnswer (row : WorldRow) (created : EventRow) : Answer where
  version := row.currentVersion
  state := row.state
  stateSha256 := row.stateSha256
  eventHash := some created.eventHash

theorem createTx_replay {request : Request} {fields : Fields} {createdAt : String} {s : Snapshot}
    (h : createTx py request fields createdAt db = .ok (some s, db')) :
    db' = db ∧ ∃ row created, CreatedRows py db request row created ∧
      answer s = rowAnswer row created := by
  simp only [createTx] at h
  split at h
  · next row created hworld hevent =>
    split at h
    · next hhash =>
      cases h
      exact ⟨rfl, row, created, ⟨hworld, hevent, hhash⟩, rfl⟩
    · cases h
  · obtain ⟨worlds, _, h⟩ := bind_ok.mp h
    obtain ⟨db₁, _, h⟩ := bind_ok.mp h
    obtain ⟨db₂, _, h⟩ := bind_ok.mp h
    cases h

theorem createRequest_identifiers {tenantId worldId : String} {initialState : Json}
    {actorId authorizationRef : String} {sourceLineage : List String} {request : Request}
    {fields : Fields} (h : createRequest tenantId worldId initialState actorId authorizationRef
      sourceLineage = .ok (request, fields)) :
    worldIdentifier request.tenantId "tenant_id" = .ok request.tenantId ∧
    worldIdentifier request.worldId "world_id" = .ok request.worldId ∧
    request.eventId = "WORLD_CREATED" ∧ request.tenantId = strip tenantId ∧
    request.worldId = strip worldId := by
  obtain ⟨t, ht, h⟩ := bind_ok.mp h
  obtain ⟨w, hw, h⟩ := bind_ok.mp h
  obtain ⟨a, _, h⟩ := bind_ok.mp h
  obtain ⟨auth, _, h⟩ := bind_ok.mp h
  obtain ⟨st, _, h⟩ := bind_ok.mp h
  obtain ⟨ls, _, h⟩ := bind_ok.mp h
  cases h
  exact ⟨identifier_again ht _, identifier_again hw _, rfl, identifier_ok ht, identifier_ok hw⟩

/-- A creation that answered said what the row of its world and its first event say. -/
theorem create_answer {now tenantId worldId : String} {initialState : Json}
    {actorId authorizationRef : String} {sourceLineage : List String} {timestamp : Option String}
    {s : Snapshot}
    (h : (createWorld py now tenantId worldId initialState actorId authorizationRef sourceLineage
      timestamp db).1 = .ok s) :
    ∃ request fields row created,
      createRequest tenantId worldId initialState actorId authorizationRef sourceLineage =
        .ok (request, fields) ∧
      CreatedRows py (createWorld py now tenantId worldId initialState actorId authorizationRef
        sourceLineage timestamp db).2 request row created ∧
      answer s = rowAnswer row created := by
  unfold createWorld at h ⊢
  split at h
  · cases h
  · next request fields hrequest =>
    rw [hrequest]
    unfold committing at h ⊢
    split at h
    · cases h
    · next snapshot db₁ htx =>
      cases h
      obtain ⟨rfl, row, created, hcreated, hs⟩ := createTx_replay htx
      exact ⟨request, fields, row, created, rfl, hcreated, hs⟩
    · next db₁ htx =>
      rcases createTx_ok htx with ⟨hne, _⟩ | ⟨_, _, hrec⟩
      · exact absurd rfl hne
      obtain ⟨row, hrow, hversion, hstate, hsha⟩ := hrec.world
      have hchecked := createRequest_identifiers hrequest
      have hread := hrec.stateAt_eq hchecked.1 hchecked.2.1
      have hevent := hrec.event_added
      refine ⟨request, fields, row,
        eventRow py (createdEvent py request fields (World.orNow timestamp now)), rfl, ?_, ?_⟩
      · refine ⟨hrow, ?_, rfl⟩
        rw [← hchecked.2.2.1]
        exact hevent
      · rw [Except.ok.inj (h.symm.trans hread)]
        unfold answer rowAnswer
        rw [hversion, hstate, hsha]
        rfl

/-- The rows of its world answer a creation again, whatever the time. -/
theorem create_again {tenantId worldId : String} {initialState : Json}
    {actorId authorizationRef : String} {sourceLineage : List String} {request : Request}
    {fields : Fields} {row : WorldRow} {created : EventRow}
    (hrequest : createRequest tenantId worldId initialState actorId authorizationRef
      sourceLineage = .ok (request, fields)) (hcreated : CreatedRows py db request row created)
    (now : String) (timestamp : Option String) :
    ∃ s, createWorld py now tenantId worldId initialState actorId authorizationRef sourceLineage
      timestamp db = (.ok s, db) ∧ answer s = rowAnswer row created := by
  have htx : ∃ s, createTx py request fields (World.orNow timestamp now) db = .ok (some s, db) ∧
      answer s = rowAnswer row created := by
    unfold createTx
    rw [hcreated.world, hcreated.event]
    dsimp only
    rw [if_pos hcreated.request]
    exact ⟨_, rfl, rfl⟩
  obtain ⟨s, htx, hs⟩ := htx
  refine ⟨s, ?_, hs⟩
  unfold createWorld
  rw [hrequest]
  dsimp only
  unfold committing
  rw [htx]

/-! ## Repeating a call -/

/-- An append is repeated in every later state. -/
theorem append_replays {now tenantId worldId eventId eventType : String} {mutations : List Json}
    {actorId : String} {expectedVersion : Int} {authorizationRef : String}
    {sourceLineage : List String} {timestamp : Option String} {s : Snapshot}
    (h : (appendEvent d py now tenantId worldId eventId eventType mutations actorId
      expectedVersion authorizationRef sourceLineage timestamp db).1 = .ok s)
    (hgrows : Grows (appendEvent d py now tenantId worldId eventId eventType mutations actorId
      expectedVersion authorizationRef sourceLineage timestamp db).2 db')
    (now' : String) (timestamp' : Option String) :
    appendEvent d py now' tenantId worldId eventId eventType mutations actorId expectedVersion
      authorizationRef sourceLineage timestamp' db' = (.ok s, db') := by
  obtain ⟨request, row, hrequest, hstored, rfl⟩ := append_answer h
  exact append_again hrequest (hstored.mono hgrows) now' timestamp'

/-- A restore reads the same target again, so it makes the same append. -/
theorem restore_replays {now tenantId worldId : String} {targetVersion : Int}
    {eventId actorId : String} {expectedVersion : Int} {authorizationRef : String}
    {timestamp : Option String} {s : Snapshot} (hdb : Intact py db)
    (h : (restoreVersion d py now tenantId worldId targetVersion eventId actorId expectedVersion
      authorizationRef timestamp db).1 = .ok s)
    (hgrows : Grows (restoreVersion d py now tenantId worldId targetVersion eventId actorId
      expectedVersion authorizationRef timestamp db).2 db')
    (now' : String) (timestamp' : Option String) :
    restoreVersion d py now' tenantId worldId targetVersion eventId actorId expectedVersion
      authorizationRef timestamp' db' = (.ok s, db') := by
  unfold restoreVersion at h hgrows
  split at h
  · cases h
  · next target htarget =>
    rw [htarget] at hgrows
    have hfirst := append_grows (d := d) hdb now tenantId worldId eventId "WORLD_RESTORED"
      [(Mutation.replaceRoot target.state).toJson] actorId expectedVersion authorizationRef
      [snapshotLineage worldId targetVersion target.stateSha256] timestamp
    have hagain := stateAt_mono (hfirst.trans hgrows) htarget
    unfold restoreVersion
    rw [hagain]
    exact append_replays h hgrows now' timestamp'

/-- A creation is repeated exactly when its world has no event since. -/
theorem create_replays_iff {now tenantId worldId : String} {initialState : Json}
    {actorId authorizationRef : String} {sourceLineage : List String} {timestamp : Option String}
    {s : Snapshot}
    (h : (createWorld py now tenantId worldId initialState actorId authorizationRef sourceLineage
      timestamp db).1 = .ok s)
    (hgrows : Grows (createWorld py now tenantId worldId initialState actorId authorizationRef
      sourceLineage timestamp db).2 db')
    (now' : String) (timestamp' : Option String) :
    ((createWorld py now' tenantId worldId initialState actorId authorizationRef sourceLineage
        timestamp' db').2 = db' ∧
      ∃ s', (createWorld py now' tenantId worldId initialState actorId authorizationRef
        sourceLineage timestamp' db').1 = .ok s' ∧ answer s' = answer s) ↔
    eventRows db' (strip tenantId) (strip worldId) =
      eventRows (createWorld py now tenantId worldId initialState actorId authorizationRef
        sourceLineage timestamp db).2 (strip tenantId) (strip worldId) := by
  obtain ⟨request, fields, row, created, hrequest, hcreated, hs⟩ := create_answer h
  generalize (createWorld py now tenantId worldId initialState actorId authorizationRef
    sourceLineage timestamp db).2 = mid at hgrows hcreated ⊢
  obtain ⟨-, -, -, ht, hw⟩ := createRequest_identifiers hrequest
  obtain ⟨row', rows, hrow', hevents, hversion, hsame⟩ := hgrows.worlds _ _ row hcreated.world
  have hlater : CreatedRows py db' request row' created :=
    ⟨hrow', hgrows.events _ _ hcreated.event, hcreated.request⟩
  obtain ⟨s', hagain, hs'⟩ := create_again hrequest hlater now' timestamp'
  rw [hagain, ← ht, ← hw, hevents, hs]
  constructor
  · rintro ⟨-, s'', hs'', hanswer⟩
    -- the answers have one version, so no event was added
    cases hs''
    rw [hs'] at hanswer
    have hversions : row'.currentVersion = row.currentVersion := congrArg Answer.version hanswer
    have hlength : rows.length = 0 := by omega
    rw [List.eq_nil_of_length_eq_zero hlength, List.append_nil]
  · intro hnone
    have hnil : rows = [] := List.append_right_eq_self.mp hnone
    rw [hsame hnil] at hs'
    exact ⟨rfl, s', rfl, hs'⟩

/-- A call that was answered, in a state its writes have only grown since. -/
theorem replays_iff_untouched (hdb : Intact py db) (c : Call) {s : Snapshot}
    (h : (run d py c db).1 = .ok s) (hgrows : Grows (next d py db c) db') (now : String)
    (timestamp : Option String) :
    Replays d py db' (Call.again now timestamp c) (answer s) ↔
      Untouched c (next d py db c) db' := by
  cases c with
  | createWorld now₀ t w state actor auth lineage timestamp₀ =>
    exact create_replays_iff h hgrows now timestamp
  | appendEvent now₀ t w event type mutations actor expected auth lineage timestamp₀ =>
    have hagain := append_replays h hgrows now timestamp
    exact ⟨fun _ => trivial, fun _ => ⟨congrArg Prod.snd hagain, s, congrArg Prod.fst hagain, rfl⟩⟩
  | restoreVersion now₀ t w target event actor expected auth timestamp₀ =>
    have hagain := restore_replays hdb h hgrows now timestamp
    exact ⟨fun _ => trivial, fun _ => ⟨congrArg Prod.snd hagain, s, congrArg Prod.fst hagain, rfl⟩⟩

end

theorem after_concat (d : Rounding) (py : Python) (ops : List Outbox.Op) (c : Call) :
    after d py (ops ++ [.world c]) = next d py (after d py ops) c :=
  exec_append (operate d py) ∅ ops [.world c]

/-- **Repeating a write.** In every history of the tables, a call that was answered and is
repeated at any later time changes nothing and is answered the same, exactly when it is not a
creation or its world has the events it had after the first call. -/
theorem replays_iff (d : Rounding) (py : Python) (ops later : List Outbox.Op) (c : Call)
    (s : Snapshot) (now : String) (timestamp : Option String)
    (h : (run d py c (after d py ops)).1 = .ok s) :
    Replays d py (after d py (ops ++ .world c :: later)) (Call.again now timestamp c) (answer s) ↔
      Untouched c (after d py (ops ++ [.world c])) (after d py (ops ++ .world c :: later)) := by
  have hsplit : after d py (ops ++ .world c :: later) =
      exec (operate d py) (next d py (after d py ops) c) later :=
    exec_append (operate d py) ∅ ops (.world c :: later)
  obtain ⟨hintact, -⟩ := @Intact.run d py _ intact_empty ops
  have hgrows : Grows (next d py (after d py ops) c) (after d py (ops ++ .world c :: later)) :=
    hsplit ▸ ((call_keeps c hintact).1.run later).2
  rw [after_concat]
  exact replays_iff_untouched hintact c h hgrows now timestamp

def setLevelTo1 : Mutation := .edit .set ["level"] (.int 1)

/-- An empty ward is given a level. -/
def setLevel : Call :=
  .appendEvent "2026-01-01T00:01:00Z" "clinic" "ward" "event-1" "LEVEL_SET"
    ([setLevelTo1].map Mutation.toJson) "kernel" 0 "token-2" [] none

/-- The tables with the empty ward. -/
def created : WorldDb := next exactRounding textPython ∅ createEmptyWard

/-- The tables with the ward after its level was set. -/
def levelled : WorldDb := next exactRounding textPython created setLevel

theorem after_created : after exactRounding textPython [.world createEmptyWard] = created :=
  after_concat exactRounding textPython [] createEmptyWard

theorem after_levelled :
    after exactRounding textPython [.world createEmptyWard, .world setLevel] = levelled := by
  have hlast := after_concat exactRounding textPython [.world createEmptyWard] setLevel
  rwa [after_created] at hlast

theorem intact_created : Intact textPython created := (call_keeps createEmptyWard intact_empty).1

theorem setLevel_recorded :
    ∃ s event, (run exactRounding textPython setLevel created).1 = .ok s ∧
      event.tenantId = "clinic" ∧ event.worldId = "ward" ∧
      Records textPython event (.obj [("level", .int 1)]) created levelled := by
  obtain ⟨ward, hward⟩ : ∃ ward, created.worlds.get ("clinic", "ward") = some ward :=
    Option.isSome_iff_exists.mp (by decide +kernel)
  have hstart : (created.worlds.get ("clinic", "ward")).map
      (fun r => (r.currentVersion, r.state)) = some (0, .obj []) := by decide +kernel
  rw [hward, Option.map_some, Option.some.injEq, Prod.mk.injEq] at hstart
  have hms : normalizeMutations textPython ([setLevelTo1].map Mutation.toJson) =
      .ok [setLevelTo1] :=
    normalizeMutations_ok.mpr ⟨normalizeMutations_toJson
      ⟨by simp, by decide, by intro m hm; rw [List.mem_singleton.mp hm]; exact ⟨by simp, by decide⟩⟩,
      by decide +kernel⟩
  have hrequest : appendRequest textPython "clinic" "ward" "event-1" "LEVEL_SET"
      ([setLevelTo1].map Mutation.toJson) "kernel" ward.currentVersion "token-2" [] = .ok _ :=
    appendRequest_ok.mpr ⟨"clinic", "ward", "event-1", "LEVEL_SET", "kernel", "token-2",
      [setLevelTo1], [], by decide +kernel, by decide +kernel, by decide +kernel,
      by decide +kernel, by decide +kernel, by decide +kernel, hms, rfl, rfl⟩
  have happly : applyMutations exactRounding textPython ward.state
      ([setLevelTo1].map Mutation.toJson) = .ok (.obj [("level", .int 1)]) :=
    applyMutations_ok.mpr ⟨_, _, _, hstart.2, by decide +kernel, hms, by decide +kernel, rfl⟩
  have hfresh : created.worldEvents.get ("clinic", "ward", "event-1") = none := by decide +kernel
  obtain ⟨s, db', happend, hrec⟩ := appendEvent_succeeds Function.injective_id intact_created
    "2026-01-01T00:01:00Z" none hrequest hfresh hward happly
  rw [hstart.1] at happend
  have hresult : run exactRounding textPython setLevel created = (.ok s, db') := by
    rw [setLevel]
    exact happend
  have hafter : levelled = db' := by
    rw [levelled, next, hresult]
  rw [hafter, hresult]
  refine ⟨s, _, rfl, ?_, ?_, hrec⟩
  · rfl
  · rfl

/-- The level is set, and set again with the same arguments a minute later. -/
theorem replays_iff_setLevel :
    ∃ s, Replays exactRounding textPython
        (after exactRounding textPython [.world createEmptyWard, .world setLevel])
        (Call.again "2026-01-01T00:02:00Z" none setLevel) (answer s) ↔
      Untouched setLevel
        (after exactRounding textPython [.world createEmptyWard, .world setLevel])
        (after exactRounding textPython [.world createEmptyWard, .world setLevel]) := by
  obtain ⟨s, -, hs, -⟩ := setLevel_recorded
  rw [← after_created] at hs
  exact ⟨s, replays_iff exactRounding textPython [.world createEmptyWard] [] setLevel s
    "2026-01-01T00:02:00Z" none hs⟩

/-- The ward is created, given a level, and created again with the same arguments: the answer
is not the first one. -/
theorem created_again_answers_otherwise :
    ∃ s, (run exactRounding textPython createEmptyWard (after exactRounding textPython [])).1 =
        .ok s ∧
      ¬ Replays exactRounding textPython
        (after exactRounding textPython [.world createEmptyWard, .world setLevel])
        (Call.again "2026-01-01T00:02:00Z" none createEmptyWard) (answer s) := by
  have hisOk : (run exactRounding textPython createEmptyWard ∅).1.toOption.isSome = true := by
    decide +kernel
  obtain ⟨s, hs⟩ := Option.isSome_iff_exists.mp hisOk
  replace hs := Fallible.toOption_ok.mp hs
  refine ⟨s, hs, ?_⟩
  rw [after_levelled]
  intro hreplays
  obtain ⟨-, event, -, ht, hw, hrec⟩ := setLevel_recorded
  have hsame : Untouched createEmptyWard created levelled :=
    (replays_iff_untouched intact_empty createEmptyWard hs (Grows.next intact_created setLevel)
      "2026-01-01T00:02:00Z" none).mp hreplays
  -- the log of the ward has one event more
  have hlog := hrec.eventRows_eq (strip "clinic") (strip "ward")
  rw [if_pos ⟨ht.trans (by decide), hw.trans (by decide)⟩] at hlog
  exact List.cons_ne_nil _ _ (List.append_right_eq_self.mp (hlog.symm.trans hsame))

end Edon.World.Floating
