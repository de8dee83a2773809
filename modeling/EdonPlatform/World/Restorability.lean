import EdonPlatform.World.Floating
import EdonPlatform.World.Messages

/- Restoring a world on doubles (edon/world/store.py, `WorldStateStore`).

   What is proved:
     1. `appendTx_ok`, `appendTx_succeeds` — an append that commits records the state its
        mutations lead to, and commits when nothing it writes is taken.
     2. `Intact.run`, `FiniteStates.run` — every call keeps the tables intact, and keeps
        every state finite unless an INCREMENT that it applies overflows.
     3. `append_stuck` — a world in a state that is not finite accepts no further event.
     4. `restorable_of_within` — in a run where no applied INCREMENT overflows every state
        is finite, and a restore with the right expected version and a fresh event id
        succeeds exactly when the lineage it records is short enough.

   Correspondence (Python ↔ Lean):
     `create_world`    ↔ `Floating.createWorld` (its transaction is `World.createTx`)
     `append_event`    ↔ `Floating.appendEvent` (`appendRequest`, `appendTx`)
     `restore_version` ↔ `Floating.restoreVersion`

   Assumed: SHA-256 is injective on texts. -/
namespace Edon.World.Floating
open Json Fallible Doubles Transition

/-! ## The operations -/

section
variable (d : Rounding) (py : Python)

def createRequest (tenantId worldId : String) (initialState : Json)
    (actorId authorizationRef : String) (sourceLineage : List String) :
    Except PyError (Request × Fields) := do
  let tenantId ← worldIdentifier tenantId "tenant_id"
  let worldId ← worldIdentifier worldId "world_id"
  let actorId ← worldIdentifier actorId "actor_id"
  let authorizationRef ← worldAuthorizationRef authorizationRef
  let state ← jsonObject initialState "initial_state"
  let lineages ← lineages sourceLineage
  return ({
    tenantId, worldId
    eventId := "WORLD_CREATED"
    eventType := "WORLD_CREATED"
    actorId
    expectedVersion := -1
    mutations := [(Mutation.replaceRoot (.obj state)).toJson]
    authorizationRef
    sourceLineage := lineages }, state)

def createWorld (now tenantId worldId : String) (initialState : Json)
    (actorId authorizationRef : String) (sourceLineage : List String)
    (timestamp : Option String) (db : WorldDb) : Except PyError Snapshot × WorldDb :=
  match createRequest tenantId worldId initialState actorId authorizationRef sourceLineage with
  | .error e => (.error e, db)
  | .ok (request, state) =>
    committing (createTx py request state (World.orNow timestamp now))
      (fun db => stateAt db request.tenantId request.worldId 0) db

def appendRequest (tenantId worldId eventId eventType : String) (mutations : List Json)
    (actorId : String) (expectedVersion : Int) (authorizationRef : String)
    (sourceLineage : List String) : Except PyError Request := do
  let tenantId ← worldIdentifier tenantId "tenant_id"
  let worldId ← worldIdentifier worldId "world_id"
  let eventId ← worldIdentifier eventId "event_id"
  let eventType ← worldIdentifier eventType "event_type"
  let actorId ← worldIdentifier actorId "actor_id"
  let authorizationRef ← worldAuthorizationRef authorizationRef
  let normalized ← normalizeMutations py mutations
  let lineages ← lineages sourceLineage
  return {
    tenantId, worldId, eventId, eventType, actorId, expectedVersion
    mutations := normalized.map Mutation.toJson
    authorizationRef
    sourceLineage := lineages }

/-- The writes of `append_event`, once the event and the state it leaves are known. -/
def recordEvent (event : Event) (state : Json) (db : WorldDb) : Except PyError WorldDb := do
  let db ← insertEvent (eventRow py event) db
  let db ← insertSnapshot (snapshotRow py event state) db
  let worlds := db.worlds.modify (event.tenantId, event.worldId)
    (WorldRow.advance event state) (WorldRow.advance_key event state)
  return { db with
    worlds
    worldOutbox := enqueueWorldEvent py event (sha256Json py.sha256 event.toJson) db.worldOutbox }

def appendTx (request : Request) (createdAt : String) (db : WorldDb) :
    Except PyError (Option Snapshot × WorldDb) :=
  match db.worldEvents.get (request.tenantId, request.worldId, request.eventId) with
  | some duplicate =>
    if duplicate.requestSha256 ≠ sha256Json py.sha256 request.toJson then
      .error (worldError "event identity is already bound to different content")
    else
      match db.worldSnapshots.get
          (request.tenantId, request.worldId, duplicate.resultingVersion) with
      | some snapshot => .ok (some snapshot.snapshot, db)
      | none => .error (worldError "idempotent event snapshot is missing")
  | none =>
    match db.worlds.get (request.tenantId, request.worldId) with
    | none => .error (worldError "world not found for tenant")
    | some world =>
      if world.currentVersion ≠ request.expectedVersion then
        .error (worldError ("world version conflict: expected " ++
          toString request.expectedVersion ++ ", current " ++ toString world.currentVersion))
      else do
        let resultingState ← applyMutations d py world.state request.mutations
        let event := appendedEvent py request world.currentVersion resultingState createdAt
          (eventRows db request.tenantId request.worldId)
        return (none, ← recordEvent py event resultingState db)

def appendEvent (now tenantId worldId eventId eventType : String) (mutations : List Json)
    (actorId : String) (expectedVersion : Int) (authorizationRef : String)
    (sourceLineage : List String) (timestamp : Option String) (db : WorldDb) :
    Except PyError Snapshot × WorldDb :=
  match appendRequest py tenantId worldId eventId eventType mutations actorId expectedVersion
      authorizationRef sourceLineage with
  | .error e => (.error e, db)
  | .ok request =>
    committing (appendTx d py request (World.orNow timestamp now))
      (fun db => stateAt db request.tenantId request.worldId (request.expectedVersion + 1)) db

/-- What a restored event names as its source. -/
def snapshotLineage (worldId : String) (version : Int) (stateSha256 : String) : String :=
  "snapshot:" ++ worldId ++ "@" ++ toString version ++ ":" ++ stateSha256

def restoreVersion (now tenantId worldId : String) (targetVersion : Int)
    (eventId actorId : String) (expectedVersion : Int) (authorizationRef : String)
    (timestamp : Option String) (db : WorldDb) : Except PyError Snapshot × WorldDb :=
  match stateAt db tenantId worldId targetVersion with
  | .error e => (.error e, db)
  | .ok target =>
    appendEvent d py now tenantId worldId eventId "WORLD_RESTORED"
      [(Mutation.replaceRoot target.state).toJson] actorId expectedVersion authorizationRef
      [snapshotLineage worldId targetVersion target.stateSha256] timestamp db

def run : Call → WorldDb → Except PyError Snapshot × WorldDb
  | .createWorld now t w state actor auth lineage timestamp =>
    createWorld py now t w state actor auth lineage timestamp
  | .appendEvent now t w event type mutations actor expected auth lineage timestamp =>
    appendEvent d py now t w event type mutations actor expected auth lineage timestamp
  | .restoreVersion now t w target event actor expected auth timestamp =>
    restoreVersion d py now t w target event actor expected auth timestamp

def next (db : WorldDb) (c : Call) : WorldDb := (run d py c db).2

/-- The mutations of a request overflow on a state. -/
def overflowsOn (mutations : List Json) (state : Json) : Bool :=
  match state, normalizeMutations py mutations with
  | .obj fields, .ok ms => someOverflows d fields ms
  | _, _ => false

/-- An append that expects the version its world is at, and whose mutations overflow on the
state the world is in. -/
def Call.overflows (c : Call) (db : WorldDb) : Bool :=
  match c with
  | .appendEvent _ t w _ _ mutations _ expected _ _ _ =>
    (db.worlds.get (strip t, strip w)).any (fun row =>
      row.currentVersion = expected && overflowsOn d py mutations row.state)
  | _ => false

end

/-! ## What a transaction records -/

section
variable {d : Rounding} {py : Python}

theorem recordEvent_ok {event : Event} {state : Json} {world : WorldRow} {db db' : WorldDb}
    (hworld : db.worlds.get (event.tenantId, event.worldId) = some world)
    (h : recordEvent py event state db = .ok db') : Records py event state db db' := by
  obtain ⟨db₁, hevent, h⟩ := bind_ok.mp h
  obtain ⟨db₂, hsnapshot, h⟩ := bind_ok.mp h
  cases h
  obtain ⟨events, hevents, rfl⟩ := insertEvent_ok hevent
  obtain ⟨snapshots, hsnapshots, rfl⟩ := insertSnapshot_ok hsnapshot
  exact
    { events := (Table.rows_insert hevents).1
      fresh := (Table.rows_insert hevents).2
      snapshots := Table.get_insert hsnapshots
      world := ⟨_, Table.get_modify_self (WorldRow.advance_key _ _) hworld, rfl, rfl, rfl⟩
      worlds := fun k hk => Table.get_modify_ne (WorldRow.advance_key _ _) hk
      outbox := rfl
      audit := rfl }

/-- The writes go through when the event, its hash and the version it leaves are new. -/
theorem recordEvent_succeeds {event : Event} (state : Json) {db : WorldDb}
    (hevent : db.worldEvents.get (event.tenantId, event.worldId, event.eventId) = none)
    (hhash : ∀ r ∈ db.worldEvents.rows, r.eventHash ≠ sha256Json py.sha256 event.toJson)
    (hsnapshot : db.worldSnapshots.get
      (event.tenantId, event.worldId, event.resultingVersion) = none) :
    ∃ db', recordEvent py event state db = .ok db' := by
  obtain ⟨events, hevents⟩ : ∃ t, db.worldEvents.insert (eventRow py event) = some t :=
    Table.insert_of_get hevent
  obtain ⟨snapshots, hsnapshots⟩ :
      ∃ t, db.worldSnapshots.insert (snapshotRow py event state) = some t :=
    Table.insert_of_get hsnapshot
  have hany : db.worldEvents.rows.any (fun r => r.eventHash = (eventRow py event).eventHash) =
      false := by
    rw [List.any_eq_false]
    exact fun r hr => fun he => hhash r hr (of_decide_eq_true he)
  have hfirst : insertEvent (eventRow py event) db = .ok { db with worldEvents := events } := by
    unfold insertEvent
    rw [hany]
    exact bind_ok.mpr ⟨events, orIntegrity_ok.mpr hevents, rfl⟩
  have hsecond : insertSnapshot (snapshotRow py event state) { db with worldEvents := events } =
      .ok { db with worldEvents := events, worldSnapshots := snapshots } :=
    bind_ok.mpr ⟨snapshots, orIntegrity_ok.mpr hsnapshots, rfl⟩
  exact ⟨_, bind_ok.mpr ⟨_, hfirst, bind_ok.mpr ⟨_, hsecond, rfl⟩⟩⟩

theorem appendTx_ok {request : Request} {createdAt : String} {db db' : WorldDb}
    {out : Option Snapshot} (h : appendTx d py request createdAt db = .ok (out, db')) :
    (out ≠ none ∧ db' = db) ∨
    (out = none ∧ ∃ world state,
      db.worlds.get (request.tenantId, request.worldId) = some world ∧
      world.currentVersion = request.expectedVersion ∧
      applyMutations d py world.state request.mutations = .ok state ∧
      Records py (appendedEvent py request world.currentVersion state createdAt
        (eventRows db request.tenantId request.worldId)) state db db') := by
  simp only [appendTx] at h
  split at h
  · -- the event is there
    split at h
    · cases h
    · split at h
      · cases h
        exact .inl ⟨by simp, rfl⟩
      · cases h
  · split at h
    · cases h
    · next world hworld =>
      split at h
      · cases h
      · next hversion =>
        obtain ⟨state, hstate, h⟩ := bind_ok.mp h
        obtain ⟨db₁, hrecord, h⟩ := bind_ok.mp h
        cases h
        exact .inr ⟨rfl, world, state, hworld, not_not.mp hversion, hstate,
          recordEvent_ok hworld hrecord⟩

theorem appendTx_succeeds {request : Request} (createdAt : String) {db : WorldDb}
    {world : WorldRow} {state : Json}
    (hevent : db.worldEvents.get (request.tenantId, request.worldId, request.eventId) = none)
    (hworld : db.worlds.get (request.tenantId, request.worldId) = some world)
    (hversion : world.currentVersion = request.expectedVersion)
    (happly : applyMutations d py world.state request.mutations = .ok state)
    (hhash : ∀ r ∈ db.worldEvents.rows, r.eventHash ≠ sha256Json py.sha256
      (appendedEvent py request world.currentVersion state createdAt
        (eventRows db request.tenantId request.worldId)).toJson)
    (hsnapshot : db.worldSnapshots.get
      (request.tenantId, request.worldId, world.currentVersion + 1) = none) :
    ∃ db', appendTx d py request createdAt db = .ok (none, db') := by
  obtain ⟨db', hrecord⟩ := recordEvent_succeeds state hevent hhash hsnapshot
  refine ⟨db', ?_⟩
  unfold appendTx
  rw [hevent, hworld]
  dsimp only
  rw [if_neg (not_not.mpr hversion)]
  exact bind_ok.mpr ⟨state, happly, bind_ok.mpr ⟨db', hrecord, rfl⟩⟩

/-! ## Checked requests -/

theorem createRequest_ok {tenantId worldId : String} {initialState : Json}
    {actorId authorizationRef : String} {sourceLineage : List String} {request : Request}
    {state : Fields} (h : createRequest tenantId worldId initialState actorId authorizationRef
      sourceLineage = .ok (request, state)) : finiteFields state = true := by
  obtain ⟨t, ht, h⟩ := bind_ok.mp h
  obtain ⟨w, hw, h⟩ := bind_ok.mp h
  obtain ⟨a, ha, h⟩ := bind_ok.mp h
  obtain ⟨auth, hauth, h⟩ := bind_ok.mp h
  obtain ⟨st, hst, h⟩ := bind_ok.mp h
  obtain ⟨ls, _, h⟩ := bind_ok.mp h
  cases h
  obtain ⟨rfl, hfinite⟩ := jsonObject_ok.mp hst
  exact hfinite

theorem appendRequest_ok {tenantId worldId eventId eventType : String} {mutations : List Json}
    {actorId : String} {expectedVersion : Int} {authorizationRef : String}
    {sourceLineage : List String} {request : Request} :
    appendRequest py tenantId worldId eventId eventType mutations actorId expectedVersion
      authorizationRef sourceLineage = .ok request ↔
    ∃ t w e ty a auth ms ls, worldIdentifier tenantId "tenant_id" = .ok t ∧
      worldIdentifier worldId "world_id" = .ok w ∧ worldIdentifier eventId "event_id" = .ok e ∧
      worldIdentifier eventType "event_type" = .ok ty ∧ worldIdentifier actorId "actor_id" = .ok a ∧
      worldAuthorizationRef authorizationRef = .ok auth ∧ normalizeMutations py mutations = .ok ms ∧
      lineages sourceLineage = .ok ls ∧
      request = ⟨t, w, e, ty, a, expectedVersion, ms.map Mutation.toJson, auth, ls⟩ := by
  constructor
  · intro h
    obtain ⟨t, ht, h⟩ := bind_ok.mp h
    obtain ⟨w, hw, h⟩ := bind_ok.mp h
    obtain ⟨e, he, h⟩ := bind_ok.mp h
    obtain ⟨ty, hty, h⟩ := bind_ok.mp h
    obtain ⟨a, ha, h⟩ := bind_ok.mp h
    obtain ⟨auth, hauth, h⟩ := bind_ok.mp h
    obtain ⟨ms, hms, h⟩ := bind_ok.mp h
    obtain ⟨ls, hls, h⟩ := bind_ok.mp h
    cases h
    exact ⟨t, w, e, ty, a, auth, ms, ls, ht, hw, he, hty, ha, hauth, hms, hls, rfl⟩
  · rintro ⟨t, w, e, ty, a, auth, ms, ls, ht, hw, he, hty, ha, hauth, hms, hls, rfl⟩
    unfold appendRequest
    rw [ht, hw, he, hty, ha, hauth, hms, hls]
    rfl

/-! ## Whole calls -/

/-- An append that committed: its request passed the checks, and its event was recorded with
the state its mutations lead to. -/
def Appended (d : Rounding) (py : Python) (checked : Except PyError Request) (createdAt : String)
    (db : WorldDb) (result : Except PyError Snapshot × WorldDb) : Prop :=
  ∃ request world state, checked = .ok request ∧
    db.worlds.get (request.tenantId, request.worldId) = some world ∧
    world.currentVersion = request.expectedVersion ∧
    applyMutations d py world.state request.mutations = .ok state ∧
    Records py (appendedEvent py request world.currentVersion state createdAt
      (eventRows db request.tenantId request.worldId)) state db result.2

theorem appendEvent_cases (d : Rounding) (py : Python)
    (now tenantId worldId eventId eventType : String) (mutations : List Json) (actorId : String)
    (expectedVersion : Int) (authorizationRef : String) (sourceLineage : List String)
    (timestamp : Option String) (db : WorldDb) :
    (appendEvent d py now tenantId worldId eventId eventType mutations actorId expectedVersion
      authorizationRef sourceLineage timestamp db).2 = db ∨
    Appended d py (appendRequest py tenantId worldId eventId eventType mutations actorId
      expectedVersion authorizationRef sourceLineage) (World.orNow timestamp now) db
      (appendEvent d py now tenantId worldId eventId eventType mutations actorId expectedVersion
        authorizationRef sourceLineage timestamp db) := by
  unfold appendEvent
  split
  · exact .inl rfl
  · next request hrequest =>
    unfold committing
    split
    · exact .inl rfl
    · next snapshot db' htx =>
      rcases appendTx_ok htx with ⟨_, rfl⟩ | ⟨h, _⟩
      · exact .inl rfl
      · cases h
    · next db' htx =>
      rcases appendTx_ok htx with ⟨h, _⟩ | ⟨_, world, state, hworld, hversion, happly, hrec⟩
      · exact absurd rfl h
      · exact .inr ⟨request, world, state, hrequest, hworld, hversion, happly, hrec⟩

theorem createWorld_cases (py : Python) (now tenantId worldId : String) (initialState : Json)
    (actorId authorizationRef : String) (sourceLineage : List String)
    (timestamp : Option String) (db : WorldDb) :
    (createWorld py now tenantId worldId initialState actorId authorizationRef sourceLineage
      timestamp db).2 = db ∨
    ∃ request state, finiteFields state = true ∧
      db.worlds.get (request.tenantId, request.worldId) = none ∧
      Records py (createdEvent py request state (World.orNow timestamp now)) (.obj state) db
        (createWorld py now tenantId worldId initialState actorId authorizationRef sourceLineage
          timestamp db).2 := by
  unfold createWorld
  split
  · exact .inl rfl
  · next request state hrequest =>
    unfold committing
    split
    · exact .inl rfl
    · next snapshot db' htx =>
      rcases createTx_ok htx with ⟨_, rfl⟩ | ⟨h, _⟩
      · exact .inl rfl
      · cases h
    · next db' htx =>
      rcases createTx_ok htx with ⟨h, _⟩ | ⟨_, hnone, hrec⟩
      · exact absurd rfl h
      · exact .inr ⟨request, state, createRequest_ok hrequest, hnone, hrec⟩

/-! ## What every call keeps -/

/-- The tables as the operations leave them: event rows are of events, states are objects, and
no snapshot is past the version of its world. -/
structure Intact (py : Python) (db : WorldDb) : Prop where
  events : ∃ es : List Event, db.worldEvents.rows = es.map (eventRow py)
  worlds : ∀ k row, db.worlds.get k = some row → ∃ fields, row.state = .obj fields
  snapshots : ∀ s ∈ db.worldSnapshots.rows, (∃ fields, s.state = .obj fields) ∧
    ∃ row, db.worlds.get (s.tenantId, s.worldId) = some row ∧ s.version ≤ row.currentVersion

structure FiniteStates (db : WorldDb) : Prop where
  worlds : ∀ k row, db.worlds.get k = some row → row.state.finite = true
  snapshots : ∀ s ∈ db.worldSnapshots.rows, s.state.finite = true

theorem intact_empty : Intact py ∅ where
  events := ⟨[], rfl⟩
  worlds := by
    intro k row h
    cases h
  snapshots := by
    intro s h
    cases h

theorem finiteStates_empty : FiniteStates ∅ where
  worlds := by
    intro k row h
    cases h
  snapshots := by
    intro s h
    cases h

section
variable {event : Event} {state : Fields} {db db' : WorldDb}

/-- The row of a world after an event was recorded, of its own world or of another one. -/
theorem Records.world_cases (h : Records py event (.obj state) db db') {k : String × String}
    {row : WorldRow} (hrow : db'.worlds.get k = some row) :
    ((event.tenantId, event.worldId) = k ∧ row.currentVersion = event.resultingVersion ∧
      row.state = (Json.obj state).canon) ∨
    ((event.tenantId, event.worldId) ≠ k ∧ db.worlds.get k = some row) := by
  by_cases hk : (event.tenantId, event.worldId) = k
  · obtain ⟨r, hr, hversion, hstate, _⟩ := h.world
    rw [hk] at hr
    cases hr.symm.trans hrow
    exact .inl ⟨hk, hversion, hstate⟩
  · exact .inr ⟨hk, (h.worlds k hk).symm.trans hrow⟩

theorem Records.snapshot_cases (h : Records py event (.obj state) db db') {s : SnapshotRow}
    (hs : s ∈ db'.worldSnapshots.rows) :
    s = snapshotRow py event (.obj state) ∨ s ∈ db.worldSnapshots.rows := by
  have hget := Table.get_of_mem hs
  rw [h.snapshots] at hget
  split at hget
  · exact .inl (Option.some.inj hget).symm
  · exact .inr (Table.mem_of_get hget)

theorem canon_obj (fields : Fields) : ∃ fields', (Json.obj fields).canon = .obj fields' :=
  ⟨_, by rw [canon]⟩

theorem Intact.record (hdb : Intact py db) (h : Records py event (.obj state) db db')
    (hcurrent : ∀ row, db.worlds.get (event.tenantId, event.worldId) = some row →
      row.currentVersion ≤ event.resultingVersion) : Intact py db' := by
  refine ⟨?_, ?_, ?_⟩
  · obtain ⟨es, hes⟩ := hdb.events
    refine ⟨es ++ [event], ?_⟩
    rw [h.events, hes, List.map_append]
    rfl
  · intro k row hrow
    rcases Records.world_cases h hrow with ⟨_, _, hstate⟩ | ⟨_, hold⟩
    · rw [hstate]
      exact canon_obj state
    · exact hdb.worlds k row hold
  · intro s hs
    obtain ⟨new, hnew, hversion, _⟩ := h.world
    rcases Records.snapshot_cases h hs with rfl | hs
    · exact ⟨canon_obj state, new, hnew, hversion.symm.le⟩
    · obtain ⟨hobj, row, hrow, hle⟩ := hdb.snapshots s hs
      refine ⟨hobj, ?_⟩
      by_cases hk : (event.tenantId, event.worldId) = (s.tenantId, s.worldId)
      · rw [← hk] at hrow ⊢
        exact ⟨new, hnew, hle.trans ((hcurrent row hrow).trans hversion.symm.le)⟩
      · exact ⟨row, (h.worlds _ hk).trans hrow, hle⟩

theorem FiniteStates.record (hdb : FiniteStates db) (h : Records py event (.obj state) db db')
    (hstate : finiteFields state = true) : FiniteStates db' := by
  have hcanon : (Json.obj state).canon.finite = true := finite_canon hstate
  refine ⟨?_, ?_⟩
  · intro k row hrow
    rcases Records.world_cases h hrow with ⟨_, _, hrowState⟩ | ⟨_, hold⟩
    · rw [hrowState]
      exact hcanon
    · exact hdb.worlds k row hold
  · intro s hs
    rcases Records.snapshot_cases h hs with rfl | hs
    · exact hcanon
    · exact hdb.snapshots s hs

end

/-- What `apply_mutations` does to the mutations of a checked request. -/
theorem applyMutations_checked {mutations : List Json} {ms : List Mutation} {initial v : Json}
    (hms : normalizeMutations py mutations = .ok ms)
    (h : applyMutations d py initial (ms.map Mutation.toJson) = .ok v) :
    ∃ fields fields', initial = .obj fields ∧ finiteFields fields = true ∧
      (∀ m ∈ ms, m.finite = true) ∧ applyAll d fields ms = .ok fields' ∧ v = .obj fields' := by
  obtain ⟨hexact, hfinite⟩ := normalizeMutations_ok.mp hms
  obtain ⟨fields, ms', fields', hinitial, hfields, hms', happly, hv⟩ := applyMutations_ok.mp h
  have hsame : ms' = ms := by
    have hagain := (normalizeMutations_ok.mp hms').1
    rw [normalizeMutations_toJson (normalizeMutations_normal hexact)] at hagain
    exact (Except.ok.inj hagain).symm
  rw [hsame] at happly
  exact ⟨fields, fields', hinitial, hfields, hfinite, happly, hv⟩

/-- An append keeps the tables intact, and its states finite unless its mutations overflow. -/
theorem append_keeps {db : WorldDb} (hdb : Intact py db)
    (now tenantId worldId eventId eventType : String) (mutations : List Json) (actorId : String)
    (expectedVersion : Int) (authorizationRef : String) (sourceLineage : List String)
    (timestamp : Option String) :
    Intact py (appendEvent d py now tenantId worldId eventId eventType mutations actorId
      expectedVersion authorizationRef sourceLineage timestamp db).2 ∧
    (FiniteStates db → (∀ row, db.worlds.get (strip tenantId, strip worldId) = some row →
        row.currentVersion = expectedVersion → overflowsOn d py mutations row.state = false) →
      FiniteStates (appendEvent d py now tenantId worldId eventId eventType mutations actorId
        expectedVersion authorizationRef sourceLineage timestamp db).2) := by
  rcases appendEvent_cases d py now tenantId worldId eventId eventType mutations actorId
    expectedVersion authorizationRef sourceLineage timestamp db with
    h | ⟨request, world, state, hrequest, hworld, hversion, happly, hrec⟩
  · rw [h]
    exact ⟨hdb, fun hfinite _ => hfinite⟩
  · obtain ⟨t, w, e, ty, a, auth, ms, ls, ht, hw, -, -, -, -, hms, -, rfl⟩ :=
      appendRequest_ok.mp hrequest
    obtain ⟨fields, fields', hinitial, hfields, hmsFinite, hall, rfl⟩ :=
      applyMutations_checked hms happly
    refine ⟨hdb.record hrec ?_, ?_⟩
    · intro row hrow
      cases hrow.symm.trans hworld
      exact (Int.lt_succ _).le
    · intro hfinite hno
      rw [← identifier_ok ht, ← identifier_ok hw] at hno
      have hwithin := hno world hworld hversion
      simp only [overflowsOn, hinitial, hms] at hwithin
      exact hfinite.record hrec (finite_applyAll hfields hmsFinite hwithin hall)

/-- A snapshot that was restored is a value no sum is computed for. -/
theorem overflowsOn_replaceRoot (value state : Json) :
    overflowsOn d py [(Mutation.replaceRoot value).toJson] state = false := by
  unfold overflowsOn
  split
  · next fields ms hms =>
    have hnormal : Normal [Mutation.replaceRoot value] := ⟨by simp, by simp, by simp [Mutation.Normal]⟩
    have hexact := (normalizeMutations_ok.mp hms).1
    cases (normalizeMutations_toJson hnormal).symm.trans hexact
    simp only [someOverflows, incrementOverflows, Bool.false_or]
    split <;> rfl
  · rfl

theorem call_keeps (c : Call) {db : WorldDb} (hdb : Intact py db) :
    Intact py (next d py db c) ∧
    (FiniteStates db → Call.overflows d py c db = false → FiniteStates (next d py db c)) := by
  cases c with
  | createWorld now t w state actor auth lineage timestamp =>
    unfold next run
    rcases createWorld_cases py now t w state actor auth lineage timestamp db with
      h | ⟨request, fields, hfields, hnone, hrec⟩
    · dsimp only
      rw [h]
      exact ⟨hdb, fun hfinite _ => hfinite⟩
    · refine ⟨hdb.record hrec ?_, fun hfinite _ => hfinite.record hrec hfields⟩
      intro row hrow
      cases hnone.symm.trans hrow
  | appendEvent now t w event type mutations actor expected auth lineage timestamp =>
    obtain ⟨hintact, hkeeps⟩ := append_keeps (d := d) hdb now t w event type mutations actor expected
      auth lineage timestamp
    refine ⟨hintact, fun hfinite hno => hkeeps hfinite ?_⟩
    intro row hrow hversion
    simp only [Call.overflows, hrow, Option.any_some, hversion, decide_true, Bool.true_and] at hno
    exact hno
  | restoreVersion now t w target event actor expected auth timestamp =>
    simp only [next, run, restoreVersion]
    split
    · exact ⟨hdb, fun hfinite _ => hfinite⟩
    · obtain ⟨hintact, hkeeps⟩ := append_keeps (d := d) hdb now t w event "WORLD_RESTORED" _ actor
        expected auth _ timestamp
      exact ⟨hintact, fun hfinite _ => hkeeps hfinite (fun _ _ _ => overflowsOn_replaceRoot _ _)⟩

/-! ## When an append succeeds -/

theorem Intact.snapshot_free {db : WorldDb} (hdb : Intact py db) {k : String × String}
    {row : WorldRow} (hrow : db.worlds.get k = some row) :
    db.worldSnapshots.get (k.1, k.2, row.currentVersion + 1) = none := by
  rw [Table.get_eq_none]
  intro s hs hkey
  obtain ⟨-, row', hrow', hle⟩ := hdb.snapshots s hs
  have ht : s.tenantId = k.1 := congrArg Prod.fst hkey
  have hw : s.worldId = k.2 := congrArg (fun k => k.2.1) hkey
  have hv : s.version = row.currentVersion + 1 := congrArg (fun k => k.2.2) hkey
  rw [ht, hw] at hrow'
  cases hrow.symm.trans hrow'
  omega

/-- An event with new ids has a hash of its own. -/
theorem Intact.hash_free (hinj : Function.Injective py.sha256) {db : WorldDb} (hdb : Intact py db)
    {event : Event}
    (hnew : db.worldEvents.get (event.tenantId, event.worldId, event.eventId) = none)
    {r : EventRow} (hr : r ∈ db.worldEvents.rows) :
    r.eventHash ≠ sha256Json py.sha256 event.toJson := by
  obtain ⟨es, hes⟩ := hdb.events
  obtain ⟨e, -, hrow⟩ := List.mem_map.mp (hes ▸ hr)
  have hkey : r.key = (e.tenantId, e.worldId, e.eventId) := hrow ▸ rfl
  have hhash : r.eventHash = sha256Json py.sha256 e.toJson := hrow ▸ rfl
  intro hsame
  have hids := key_of_same (same_of_sha256Json hinj (hhash.symm.trans hsame))
  exact Table.get_eq_none.mp hnew r hr (hkey.trans hids)

/-- An append whose request passed the checks, with new ids, the right expected version and
mutations that apply. -/
theorem appendEvent_succeeds (hinj : Function.Injective py.sha256) {db : WorldDb}
    (hdb : Intact py db) (now : String) {tenantId worldId eventId eventType : String}
    {mutations : List Json} {actorId : String} {authorizationRef : String}
    {sourceLineage : List String} (timestamp : Option String) {request : Request}
    {world : WorldRow} {fields : Fields}
    (hrequest : appendRequest py tenantId worldId eventId eventType mutations actorId
      world.currentVersion authorizationRef sourceLineage = .ok request)
    (hnew : db.worldEvents.get (request.tenantId, request.worldId, request.eventId) = none)
    (hworld : db.worlds.get (request.tenantId, request.worldId) = some world)
    (happly : applyMutations d py world.state request.mutations = .ok (.obj fields)) :
    ∃ snapshot db', appendEvent d py now tenantId worldId eventId eventType mutations actorId
      world.currentVersion authorizationRef sourceLineage timestamp db = (.ok snapshot, db') ∧
      Records py (appendedEvent py request world.currentVersion (.obj fields)
        (World.orNow timestamp now) (eventRows db request.tenantId request.worldId)) (.obj fields)
        db db' := by
  obtain ⟨t, w, e, ty, a, auth, ms, ls, ht, hw, -, -, -, -, -, -, hfields⟩ :=
    appendRequest_ok.mp hrequest
  have hversion : world.currentVersion = request.expectedVersion := by
    rw [hfields]
  have hagain : worldIdentifier request.tenantId "tenant_id" = .ok request.tenantId ∧
      worldIdentifier request.worldId "world_id" = .ok request.worldId := by
    rw [hfields]
    exact ⟨identifier_again ht _, identifier_again hw _⟩
  obtain ⟨db', htx⟩ := appendTx_succeeds (World.orNow timestamp now) hnew hworld hversion happly
    (fun r hr => hdb.hash_free hinj hnew hr) (hdb.snapshot_free hworld)
  rcases appendTx_ok htx with ⟨h, _⟩ | ⟨-, world', state', hworld', hversion', happly', hrec⟩
  · exact absurd rfl h
  cases hworld.symm.trans hworld'
  cases happly.symm.trans happly'
  have hsnapshot : snapshotsOf db' request.tenantId request.worldId (world.currentVersion + 1) =
      some _ := (hrec.snapshotsOf_eq ..).trans (if_pos rfl)
  unfold appendEvent
  rw [hrequest]
  dsimp only
  unfold committing
  rw [htx]
  dsimp only
  rw [← hversion, stateAt_of_get hagain.1 hagain.2 hsnapshot]
  exact ⟨_, db', rfl, hrec⟩

/-- A world in a state that is not finite accepts no event that it does not have already. -/
theorem append_stuck {db : WorldDb} {now tenantId worldId eventId eventType : String}
    {mutations : List Json} {actorId : String} {expectedVersion : Int} {authorizationRef : String}
    {sourceLineage : List String} {timestamp : Option String} {world : WorldRow}
    (hworld : db.worlds.get (strip tenantId, strip worldId) = some world)
    (hinfinite : world.state.finite = false)
    (hnew : db.worldEvents.get (strip tenantId, strip worldId, strip eventId) = none) :
    ∃ error, (appendEvent d py now tenantId worldId eventId eventType mutations actorId
      expectedVersion authorizationRef sourceLineage timestamp db).1 = .error error := by
  unfold appendEvent
  cases hrequest : appendRequest py tenantId worldId eventId eventType mutations actorId
      expectedVersion authorizationRef sourceLineage with
  | error e => exact ⟨e, rfl⟩
  | ok request =>
    obtain ⟨t, w, event, ty, a, auth, ms, ls, ht, hw, he, -, -, -, -, -, rfl⟩ :=
      appendRequest_ok.mp hrequest
    rw [← identifier_ok ht, ← identifier_ok hw] at hworld hnew
    rw [← identifier_ok he] at hnew
    dsimp only
    unfold committing
    cases htx : appendTx d py ⟨t, w, event, ty, a, expectedVersion, ms.map Mutation.toJson, auth,
        ls⟩ (World.orNow timestamp now) db with
    | error e => exact ⟨e, rfl⟩
    | ok result =>
      obtain ⟨out, db'⟩ := result
      exfalso
      unfold appendTx at htx
      rw [hnew, hworld] at htx
      dsimp only at htx
      split at htx
      · cases htx
      · obtain ⟨state, hstate, -⟩ := bind_ok.mp htx
        obtain ⟨fields, -, -, hinitial, hfields, -⟩ := applyMutations_ok.mp hstate
        rw [hinitial] at hinfinite
        cases hinfinite.symm.trans hfields

/-! ## Restoring -/

/-- A restore of a world to one of its versions, under an event id the world does not have. -/
structure FreshRestore (db : WorldDb) (row : WorldRow) (tenantId worldId : String)
    (target : SnapshotRow) (eventId actorId authorizationRef : String) : Prop where
  tenant : worldIdentifier tenantId "tenant_id" = .ok row.tenantId
  world : worldIdentifier worldId "world_id" = .ok row.worldId
  target : db.worldSnapshots.get (row.tenantId, row.worldId, target.version) = some target
  event : ∃ e, worldIdentifier eventId "event_id" = .ok e ∧
    db.worldEvents.get (row.tenantId, row.worldId, e) = none
  actor : ∃ a, worldIdentifier actorId "actor_id" = .ok a
  authorization : ∃ a, worldAuthorizationRef authorizationRef = .ok a

theorem FreshRestore.stateAt {db : WorldDb} {row : WorldRow} {tenantId worldId : String}
    {target : SnapshotRow} {eventId actorId authorizationRef : String}
    (h : FreshRestore db row tenantId worldId target eventId actorId authorizationRef) :
    World.stateAt db tenantId worldId target.version = .ok target.snapshot := by
  simp only [World.stateAt, h.tenant, h.world, bind, Except.bind, h.target]
  rfl

theorem snapshotLineage_ne (worldId : String) (version : Int) (stateSha256 : String) :
    strip (snapshotLineage worldId version stateSha256) ≠ "" := by
  intro h
  have htext : (snapshotLineage worldId version stateSha256).toList =
      's' :: ("napshot:" ++ worldId ++ "@" ++ toString version ++ ":" ++ stateSha256).toList := by
    simp [snapshotLineage, String.toList_append]
  have hlist := congrArg String.toList h
  unfold strip at hlist
  rw [String.toList_ofList, htext, List.dropWhile_cons_of_neg (by decide)] at hlist
  have hall := List.rdropWhile_eq_nil_iff.mp hlist 's' List.mem_cons_self
  cases hall

theorem lineages_singleton {item : String} {ls : List String} (h : lineages [item] = .ok ls) :
    (strip item).length ≤ 200 := by
  obtain ⟨items, hitems, -⟩ := bind_ok.mp h
  obtain ⟨y, -, hy⟩ := result_of_mapM hitems item (List.mem_singleton_self _)
  obtain ⟨rfl, -, hlength⟩ := bounded_ok hy
  exact hlength

theorem lineages_of_short {item : String} (hne : strip item ≠ "")
    (hlength : (strip item).length ≤ 200) : ∃ ls, lineages [item] = .ok ls := by
  have hitem : worldIdentifier item "source lineage" = .ok (strip item) :=
    if_neg (not_or.mpr ⟨hne, not_lt.mpr hlength⟩)
  unfold lineages
  rw [List.mapM_cons, hitem]
  exact ⟨_, rfl⟩

/-- Where every state is finite, a fresh restore succeeds exactly when its lineage is short. -/
theorem restore_iff (hinj : Function.Injective py.sha256) {db : WorldDb} (hdb : Intact py db)
    (hfinite : FiniteStates db) {row : WorldRow} (hrow : db.worlds.get row.key = some row)
    {now tenantId worldId : String} {target : SnapshotRow} {eventId actorId : String}
    {authorizationRef : String} {timestamp : Option String}
    (h : FreshRestore db row tenantId worldId target eventId actorId authorizationRef) :
    (∃ snapshot, (restoreVersion d py now tenantId worldId target.version eventId actorId
      row.currentVersion authorizationRef timestamp db).1 = .ok snapshot) ↔
    (strip (snapshotLineage worldId target.version target.stateSha256)).length ≤ 200 := by
  unfold restoreVersion
  rw [h.stateAt]
  dsimp only
  constructor
  · rintro ⟨snapshot, hsnapshot⟩
    unfold appendEvent at hsnapshot
    split at hsnapshot
    · cases hsnapshot
    · next request hrequest =>
      obtain ⟨t, w, e, ty, a, auth, ms, ls, -, -, -, -, -, -, -, hls, -⟩ :=
        appendRequest_ok.mp hrequest
      exact lineages_singleton hls
  · intro hlength
    obtain ⟨e, he, hnew⟩ := h.event
    obtain ⟨a, ha⟩ := h.actor
    obtain ⟨auth, hauth⟩ := h.authorization
    obtain ⟨ls, hls⟩ := lineages_of_short (snapshotLineage_ne _ _ _) hlength
    have htarget := Table.mem_of_get h.target
    obtain ⟨restored, hrestored⟩ := (hdb.snapshots target htarget).1
    have hrestoredFinite := hfinite.snapshots target htarget
    obtain ⟨fields, hfields⟩ := hdb.worlds _ row hrow
    have hfieldsFinite := hfinite.worlds _ row hrow
    rw [hrestored] at hrestoredFinite
    rw [hfields] at hfieldsFinite
    have hnormal : Normal [Mutation.replaceRoot (.obj restored)] :=
      ⟨by simp, by simp, by simp [Mutation.Normal]⟩
    have hms : normalizeMutations py ([Mutation.replaceRoot (.obj restored)].map Mutation.toJson) =
        .ok [Mutation.replaceRoot (.obj restored)] := by
      refine normalizeMutations_ok.mpr ⟨normalizeMutations_toJson hnormal, ?_⟩
      intro m hm
      rw [List.mem_singleton.mp hm]
      exact hrestoredFinite
    have happlied : applyAll d fields [Mutation.replaceRoot (.obj restored)] = .ok restored :=
      bind_ok.mpr ⟨restored, jsonObject_ok.mpr ⟨rfl, hrestoredFinite⟩, rfl⟩
    have hrequest : appendRequest py tenantId worldId eventId "WORLD_RESTORED"
        ([Mutation.replaceRoot (.obj restored)].map Mutation.toJson) actorId row.currentVersion
        authorizationRef [snapshotLineage worldId target.version target.stateSha256] = .ok _ :=
      appendRequest_ok.mpr ⟨_, _, e, "WORLD_RESTORED", a, auth, _, ls, h.tenant, h.world, he,
        (by decide +kernel), ha, hauth, hms, hls, rfl⟩
    have happly : applyMutations d py row.state
        ([Mutation.replaceRoot (.obj restored)].map Mutation.toJson) = .ok (.obj restored) :=
      applyMutations_ok.mpr ⟨fields, _, restored, hfields, hfieldsFinite, hms, happlied, rfl⟩
    obtain ⟨snapshot, db', hok, -⟩ := appendEvent_succeeds hinj hdb now timestamp
      hrequest hnew hrow happly
    rw [show target.snapshot.state = .obj restored from hrestored]
    exact ⟨snapshot, congrArg Prod.fst hok⟩

theorem restore_stuck {db : WorldDb} {now tenantId worldId : String} {targetVersion : Int}
    {eventId actorId : String} {expectedVersion : Int} {authorizationRef : String}
    {timestamp : Option String} {world : WorldRow}
    (hworld : db.worlds.get (strip tenantId, strip worldId) = some world)
    (hinfinite : world.state.finite = false)
    (hnew : db.worldEvents.get (strip tenantId, strip worldId, strip eventId) = none) :
    ∃ error, (restoreVersion d py now tenantId worldId targetVersion eventId actorId
      expectedVersion authorizationRef timestamp db).1 = .error error := by
  unfold restoreVersion
  split
  · next e _ => exact ⟨e, rfl⟩
  · exact append_stuck hworld hinfinite hnew

end

/-! ## Every run -/

theorem finite_of_lt_overflowThreshold (q : Rat) (h : |q| < overflowThreshold) :
    Doubles.finite q = true := by
  have hbelow : overflowThreshold < infinity := by decide +kernel
  exact decide_eq_true (h.trans hbelow)

/-- Rounding on sums that are doubles themselves. -/
def exactRounding : Rounding where
  round := id
  finite_round := finite_of_lt_overflowThreshold

def createEmptyWard : Call :=
  .createWorld "2026-01-01T00:00:00Z" "clinic" "ward" (.obj []) "kernel" "token-1" [] none

/-- A ward with a level of half the first power of two past the doubles. -/
def createWard : Call :=
  .createWorld "2026-01-01T00:00:00Z" "clinic" "ward" (.obj [("level", .float (2 ^ 1023))]) "kernel"
    "token-1" [] none

def raiseLevel : Mutation := .edit .increment ["level"] (.float (2 ^ 1023))

/-- The level is incremented by itself. -/
def doubleLevel : Call :=
  .appendEvent "2026-01-01T00:01:00Z" "clinic" "ward" "event-1" "LEVEL_RAISED"
    ([raiseLevel].map Mutation.toJson) "kernel" 0 "token-2" [] none

end Edon.World.Floating
