import EdonPlatform.World.Store

/- What one transaction of the world store can do. `createTx` and `appendTx` raise,
   or return early and write nothing, or record one event: `Records` says what every
   table holds afterwards, and the two specifications say which event. Everything
   later about the store is derived from these, and no proof unfolds the
   transactions again. -/
namespace Edon.World
open Json

section
variable {py : Python}

/-- `db'` is `db` after the event was recorded: its row is the last one, its snapshot
is new, its world has the new state, and its message is enqueued. -/
structure Records (py : Python) (event : Event) (state : Json) (db db' : WorldDb) : Prop where
  events : db'.worldEvents.rows = db.worldEvents.rows ++ [eventRow py event]
  fresh : db.worldEvents.get (event.tenantId, event.worldId, event.eventId) = none
  snapshots : ∀ k, db'.worldSnapshots.get k =
    if (event.tenantId, event.worldId, event.resultingVersion) = k then
      some (snapshotRow py event state)
    else db.worldSnapshots.get k
  world : ∃ row, db'.worlds.get (event.tenantId, event.worldId) = some row ∧
    row.currentVersion = event.resultingVersion ∧ row.state = state.canon ∧
    row.stateSha256 = event.resultingStateSha256
  worlds : ∀ k, (event.tenantId, event.worldId) ≠ k → db'.worlds.get k = db.worlds.get k
  outbox : db'.worldOutbox =
    enqueueWorldEvent py event (sha256Json py.sha256 event.toJson) db.worldOutbox
  audit : db'.outboxDeliveryAudit = db.outboxDeliveryAudit

theorem orIntegrity_ok {α : Type} {constraint : String} {o : Option α} {a : α} :
    orIntegrity constraint o = .ok a ↔ o = some a := by
  cases o <;> simp [orIntegrity]

theorem insertEvent_ok {row : EventRow} {db db' : WorldDb} (h : insertEvent row db = .ok db') :
    ∃ t, db.worldEvents.insert row = some t ∧ db' = { db with worldEvents := t } := by
  unfold insertEvent at h
  split at h
  · cases h
  · obtain ⟨t, ht, hdb⟩ := bind_ok.mp h
    cases hdb
    exact ⟨t, orIntegrity_ok.mp ht, rfl⟩

theorem insertSnapshot_ok {row : SnapshotRow} {db db' : WorldDb}
    (h : insertSnapshot row db = .ok db') :
    ∃ t, db.worldSnapshots.insert row = some t ∧ db' = { db with worldSnapshots := t } := by
  obtain ⟨t, ht, hdb⟩ := bind_ok.mp h
  cases hdb
  exact ⟨t, orIntegrity_ok.mp ht, rfl⟩

/-- The event of a world that did not exist. -/
def createdEvent (py : Python) (request : Request) (state : Fields) (createdAt : String) : Event :=
  { request with
    resultingVersion := 0
    resultingStateSha256 := sha256Json py.sha256 (.obj state)
    previousHash := "GENESIS"
    createdAt }

/-- The event an append records at `version`, after `rows`. -/
def appendedEvent (py : Python) (request : Request) (version : Int) (state : Json)
    (createdAt : String) (rows : List EventRow) : Event :=
  { request with
    resultingVersion := version + 1
    resultingStateSha256 := sha256Json py.sha256 state
    previousHash := (rows.getLast?.map EventRow.eventHash).getD "GENESIS"
    createdAt }

theorem createTx_ok {request : Request} {state : Fields} {createdAt : String} {db db' : WorldDb}
    {out : Option Snapshot}
    (h : createTx py request state createdAt db = .ok (out, db')) :
    (out ≠ none ∧ db' = db) ∨
    (out = none ∧ db.worlds.get (request.tenantId, request.worldId) = none ∧
      Records py (createdEvent py request state createdAt) (.obj state) db db') := by
  simp only [createTx] at h
  split at h
  · -- the world is there
    split at h
    · cases h
      exact .inl ⟨by simp, rfl⟩
    · cases h
  · obtain ⟨worlds, hworlds, h⟩ := bind_ok.mp h
    obtain ⟨db₁, hevent, h⟩ := bind_ok.mp h
    obtain ⟨db₂, hsnapshot, h⟩ := bind_ok.mp h
    cases h
    replace hworlds := orIntegrity_ok.mp hworlds
    obtain ⟨events, hevents, rfl⟩ := insertEvent_ok hevent
    obtain ⟨snapshots, hsnapshots, rfl⟩ := insertSnapshot_ok hsnapshot
    refine .inr ⟨rfl, (Table.rows_insert hworlds).2, ?_⟩
    exact
      { events := (Table.rows_insert hevents).1
        fresh := (Table.rows_insert hevents).2
        snapshots := Table.get_insert hsnapshots
        world := ⟨_, (Table.get_insert hworlds _).trans (if_pos rfl), rfl, rfl, rfl⟩
        worlds := fun k hk => (Table.get_insert hworlds k).trans (if_neg hk)
        outbox := rfl
        audit := rfl }

theorem appendTx_ok {request : Request} {createdAt : String} {db db' : WorldDb}
    {out : Option Snapshot} (h : appendTx py request createdAt db = .ok (out, db')) :
    (out ≠ none ∧ db' = db ∧
      ∃ row, db.worldEvents.get (request.tenantId, request.worldId, request.eventId) = some row ∧
        row.requestSha256 = sha256Json py.sha256 request.toJson) ∨
    (out = none ∧ ∃ world state,
      db.worlds.get (request.tenantId, request.worldId) = some world ∧
      world.currentVersion = request.expectedVersion ∧
      applyMutations py world.state request.mutations = .ok state ∧
      Records py (appendedEvent py request world.currentVersion state createdAt
        (eventRows db request.tenantId request.worldId)) state db db') := by
  simp only [appendTx] at h
  split at h
  · -- the event is there
    next duplicate hdup =>
    split at h
    · cases h
    · next hhash =>
      split at h
      · cases h
        exact .inl ⟨by simp, rfl, duplicate, hdup, not_not.mp hhash⟩
      · cases h
  · split at h
    · cases h
    · next world hworld =>
      split at h
      · cases h
      · next hversion =>
        have hversion : world.currentVersion = request.expectedVersion := not_not.mp hversion
        obtain ⟨state, hstate, h⟩ := bind_ok.mp h
        obtain ⟨db₁, hevent, h⟩ := bind_ok.mp h
        obtain ⟨db₂, hsnapshot, h⟩ := bind_ok.mp h
        cases h
        obtain ⟨events, hevents, rfl⟩ := insertEvent_ok hevent
        obtain ⟨snapshots, hsnapshots, rfl⟩ := insertSnapshot_ok hsnapshot
        refine .inr ⟨rfl, world, state, hworld, hversion, hstate, ?_⟩
        exact
          { events := (Table.rows_insert hevents).1
            fresh := (Table.rows_insert hevents).2
            snapshots := Table.get_insert hsnapshots
            world := ⟨_, Table.get_modify_self (WorldRow.advance_key _ _) hworld, rfl, rfl, rfl⟩
            worlds := fun k hk => Table.get_modify_ne (WorldRow.advance_key _ _) hk
            outbox := rfl
            audit := rfl }

/-! ## Checked requests -/

/-- A request whose fields are the arguments of a call after their checks. -/
structure Checked (py : Python) (tenantId worldId eventId eventType actorId : String)
    (expectedVersion : Int) (mutations : List Json) (authorizationRef : String)
    (request : Request) : Prop where
  tenant : worldIdentifier tenantId "tenant_id" = .ok request.tenantId
  world : worldIdentifier worldId "world_id" = .ok request.worldId
  event : worldIdentifier eventId "event_id" = .ok request.eventId
  type : worldIdentifier eventType "event_type" = .ok request.eventType
  actor : worldIdentifier actorId "actor_id" = .ok request.actorId
  expected : request.expectedVersion = expectedVersion
  mutations : ∃ ms, normalizeMutations py mutations = .ok ms ∧
    request.mutations = ms.map Mutation.toJson
  authorization : worldAuthorizationRef authorizationRef = .ok request.authorizationRef

namespace Checked
variable {t w e ty a auth : String} {v : Int} {ms : List Json} {request : Request}

theorem tenant_again (h : Checked py t w e ty a v ms auth request) :
    worldIdentifier request.tenantId "tenant_id" = .ok request.tenantId :=
  identifier_again h.tenant _

theorem world_again (h : Checked py t w e ty a v ms auth request) :
    worldIdentifier request.worldId "world_id" = .ok request.worldId :=
  identifier_again h.world _

end Checked

theorem createRequest_ok (py : Python) {tenantId worldId : String} {initialState : Json}
    {actorId authorizationRef : String} {sourceLineage : List String} {request : Request}
    {state : Fields} (h : createRequest tenantId worldId initialState actorId authorizationRef
      sourceLineage = .ok (request, state)) :
    Checked py tenantId worldId "WORLD_CREATED" "WORLD_CREATED" actorId (-1)
      [(Mutation.replaceRoot initialState).toJson] authorizationRef request ∧
    initialState = .obj state ∧ request.eventType = "WORLD_CREATED" ∧
    request.mutations = [Mutation.replaceRoot (.obj state)].map Mutation.toJson := by
  obtain ⟨t, ht, h⟩ := bind_ok.mp h
  obtain ⟨w, hw, h⟩ := bind_ok.mp h
  obtain ⟨a, ha, h⟩ := bind_ok.mp h
  obtain ⟨auth, hauth, h⟩ := bind_ok.mp h
  obtain ⟨st, hst, h⟩ := bind_ok.mp h
  obtain ⟨ls, _, h⟩ := bind_ok.mp h
  cases h
  have hobj : initialState = .obj state := by
    cases initialState with
    | obj kvs =>
      cases hst
      rfl
    | _ => cases hst
  subst hobj
  have hnormal : Normal [Mutation.replaceRoot (.obj state)] :=
    ⟨by simp, by simp, by simp [Mutation.Normal]⟩
  refine ⟨?_, rfl, rfl, rfl⟩
  exact
    { tenant := ht
      world := hw
      event := rfl
      type := rfl
      actor := ha
      expected := rfl
      mutations := ⟨_, normalizeMutations_toJson hnormal, rfl⟩
      authorization := hauth }

theorem appendRequest_ok {tenantId worldId eventId eventType : String} {mutations : List Json}
    {actorId : String} {expectedVersion : Int} {authorizationRef : String}
    {sourceLineage : List String} {request : Request}
    (h : appendRequest py tenantId worldId eventId eventType mutations actorId expectedVersion
      authorizationRef sourceLineage = .ok request) :
    Checked py tenantId worldId eventId eventType actorId expectedVersion mutations
      authorizationRef request := by
  obtain ⟨t, ht, h⟩ := bind_ok.mp h
  obtain ⟨w, hw, h⟩ := bind_ok.mp h
  obtain ⟨e, he, h⟩ := bind_ok.mp h
  obtain ⟨ty, hty, h⟩ := bind_ok.mp h
  obtain ⟨a, ha, h⟩ := bind_ok.mp h
  obtain ⟨auth, hauth, h⟩ := bind_ok.mp h
  obtain ⟨ms, hms, h⟩ := bind_ok.mp h
  obtain ⟨ls, _, h⟩ := bind_ok.mp h
  cases h
  exact ⟨ht, hw, he, hty, ha, rfl, ⟨ms, hms, rfl⟩, hauth⟩

/-! ## Whole calls -/

/-- A created world: its request passed the checks and its event was recorded. -/
def Created (py : Python) (checked : Except PyError (Request × Fields)) (createdAt : String)
    (db : WorldDb) (result : Except PyError Snapshot × WorldDb) : Prop :=
  ∃ request state, checked = .ok (request, state) ∧
    db.worlds.get (request.tenantId, request.worldId) = none ∧
    Records py (createdEvent py request state createdAt) (.obj state) db result.2 ∧
    result.1 = stateAt result.2 request.tenantId request.worldId 0

/-- An appended event: its request passed the checks, expects the version of its world,
and was recorded with the state its mutations lead to. -/
def Appended (py : Python) (checked : Except PyError Request) (createdAt : String)
    (db : WorldDb) (result : Except PyError Snapshot × WorldDb) : Prop :=
  ∃ request world state, checked = .ok request ∧
    db.worlds.get (request.tenantId, request.worldId) = some world ∧
    world.currentVersion = request.expectedVersion ∧
    applyMutations py world.state request.mutations = .ok state ∧
    Records py (appendedEvent py request world.currentVersion state createdAt
      (eventRows db request.tenantId request.worldId)) state db result.2 ∧
    result.1 = stateAt result.2 request.tenantId request.worldId (world.currentVersion + 1)

theorem createWorld_cases (py : Python) (now tenantId worldId : String) (initialState : Json)
    (actorId authorizationRef : String) (sourceLineage : List String)
    (timestamp : Option String) (db : WorldDb) :
    (createWorld py now tenantId worldId initialState actorId authorizationRef sourceLineage
      timestamp db).2 = db ∨
    Created py (createRequest tenantId worldId initialState actorId authorizationRef sourceLineage)
      (orNow timestamp now) db (createWorld py now tenantId worldId initialState actorId
        authorizationRef sourceLineage timestamp db) := by
  unfold createWorld
  split
  · exact .inl rfl
  · next request state hrequest =>
    unfold committing
    split
    · exact .inl rfl
    · next snapshot db' htx =>
      rcases createTx_ok htx with ⟨_, rfl⟩ | ⟨h, _⟩
      · exact .inl rfl
      · cases h
    · next db' htx =>
      rcases createTx_ok htx with ⟨h, _⟩ | ⟨_, hnone, hrec⟩
      · exact absurd rfl h
      · exact .inr ⟨request, state, hrequest, hnone, hrec, rfl⟩

theorem appendEvent_cases (py : Python) (now tenantId worldId eventId eventType : String)
    (mutations : List Json) (actorId : String) (expectedVersion : Int)
    (authorizationRef : String) (sourceLineage : List String) (timestamp : Option String)
    (db : WorldDb) :
    (appendEvent py now tenantId worldId eventId eventType mutations actorId expectedVersion
      authorizationRef sourceLineage timestamp db).2 = db ∨
    Appended py (appendRequest py tenantId worldId eventId eventType mutations actorId
      expectedVersion authorizationRef sourceLineage) (orNow timestamp now) db
      (appendEvent py now tenantId worldId eventId eventType mutations actorId expectedVersion
        authorizationRef sourceLineage timestamp db) := by
  unfold appendEvent
  split
  · exact .inl rfl
  · next request hrequest =>
    unfold committing
    split
    · exact .inl rfl
    · next snapshot db' htx =>
      rcases appendTx_ok htx with ⟨_, rfl, _⟩ | ⟨h, _⟩
      · exact .inl rfl
      · cases h
    · next db' htx =>
      rcases appendTx_ok htx with ⟨h, _⟩ | ⟨_, world, state, hworld, hversion, happly, hrec⟩
      · exact absurd rfl h
      · exact .inr ⟨request, world, state, hrequest, hworld, hversion, happly, hrec,
          by rw [hversion]⟩

/-- A call of one of the three operations, with the time its clock reads. -/
inductive Call where
  | createWorld (now tenantId worldId : String) (initialState : Json)
      (actorId authorizationRef : String) (sourceLineage : List String)
      (timestamp : Option String)
  | appendEvent (now tenantId worldId eventId eventType : String) (mutations : List Json)
      (actorId : String) (expectedVersion : Int) (authorizationRef : String)
      (sourceLineage : List String) (timestamp : Option String)
  | restoreVersion (now tenantId worldId : String) (targetVersion : Int)
      (eventId actorId : String) (expectedVersion : Int) (authorizationRef : String)
      (timestamp : Option String)

def Call.run (py : Python) : Call → WorldDb → Except PyError Snapshot × WorldDb
  | .createWorld now t w state actor auth lineage timestamp =>
    World.createWorld py now t w state actor auth lineage timestamp
  | .appendEvent now t w event type mutations actor expected auth lineage timestamp =>
    World.appendEvent py now t w event type mutations actor expected auth lineage timestamp
  | .restoreVersion now t w target event actor expected auth timestamp =>
    World.restoreVersion py now t w target event actor expected auth timestamp

/-- A call writes nothing or records one event. -/
theorem Call.records (py : Python) (c : Call) (db : WorldDb) :
    (c.run py db).2 = db ∨ ∃ event state, Records py event state db (c.run py db).2 := by
  have happend : ∀ now t w event type mutations actor expected auth lineage timestamp,
      (World.appendEvent py now t w event type mutations actor expected auth lineage timestamp
        db).2 = db ∨ ∃ e state, Records py e state db
          (World.appendEvent py now t w event type mutations actor expected auth lineage timestamp
            db).2 := by
    intro now t w event type mutations actor expected auth lineage timestamp
    rcases appendEvent_cases py now t w event type mutations actor expected auth lineage
      timestamp db with h | ⟨_, _, _, _, _, _, _, hrec, _⟩
    · exact .inl h
    · exact .inr ⟨_, _, hrec⟩
  cases c with
  | createWorld now t w state actor auth lineage timestamp =>
    rcases createWorld_cases py now t w state actor auth lineage timestamp db with
      h | ⟨_, _, _, _, hrec, _⟩
    · exact .inl h
    · exact .inr ⟨_, _, hrec⟩
  | appendEvent => exact happend ..
  | restoreVersion =>
    simp only [Call.run, World.restoreVersion]
    split
    · exact .inl rfl
    · exact happend ..

end
end Edon.World
