import EdonPlatform.Outbox.Protocol
import EdonPlatform.World.Messages

/- What every operation on the tables of the world store leaves alone
   (edon/world/store.py, edon/outbox/store.py).

   What is proved:
     1. `Records.grows` — recording an event changes no event row and no snapshot that is
        there, and the row of a world only with its log.
     2. `sameWorlds_outbox` — the calls of the workers rewrite messages only.
     3. `append_answer`, `append_again` — an append that was answered left a stored event
        and snapshot, and they answer it again in every later state.
     4. `Sound.operate` — every operation keeps the store sound and only lets it grow, and
        `Paired.operate` keeps the hash of an event with its snapshot.
     5. `append_succeeds` — an append with new ids and the right expected version succeeds
        when its mutations apply. -/
namespace Edon.World
open Json Transition

/-! ## What an operation leaves alone -/

/-- What every operation does to the rows that are there: events and snapshots stay, and the
row of a world stays unless its log has grown, by as many events as its version. -/
structure Grows (db db' : WorldDb) : Prop where
  events : ∀ k r, db.worldEvents.get k = some r → db'.worldEvents.get k = some r
  snapshots : ∀ k s, db.worldSnapshots.get k = some s → db'.worldSnapshots.get k = some s
  worlds : ∀ t w row, db.worlds.get (t, w) = some row → ∃ row' rows,
    db'.worlds.get (t, w) = some row' ∧ eventRows db' t w = eventRows db t w ++ rows ∧
    row'.currentVersion = row.currentVersion + rows.length ∧ (rows = [] → row' = row)

namespace Grows

theorem refl (db : WorldDb) : Grows db db where
  events := fun _ _ h => h
  snapshots := fun _ _ h => h
  worlds := by
    intro t w row h
    exact ⟨row, [], h, (List.append_nil _).symm, (add_zero _).symm, fun _ => rfl⟩

theorem trans {a b c : WorldDb} (h₁ : Grows a b) (h₂ : Grows b c) : Grows a c where
  events := fun k r h => h₂.events k r (h₁.events k r h)
  snapshots := fun k s h => h₂.snapshots k s (h₁.snapshots k s h)
  worlds := by
    intro t w row h
    obtain ⟨row₁, rows₁, hrow₁, hevents₁, hversion₁, hsame₁⟩ := h₁.worlds t w row h
    obtain ⟨row₂, rows₂, hrow₂, hevents₂, hversion₂, hsame₂⟩ := h₂.worlds t w row₁ hrow₁
    refine ⟨row₂, rows₁ ++ rows₂, hrow₂, ?_, ?_, ?_⟩
    · rw [hevents₂, hevents₁, List.append_assoc]
    · rw [hversion₂, hversion₁, List.length_append]
      omega
    · intro hnil
      obtain ⟨hnil₁, hnil₂⟩ := List.append_eq_nil_iff.mp hnil
      exact (hsame₂ hnil₂).trans (hsame₁ hnil₁)

end Grows

section
variable {py : Python} {event : Event} {state : Json} {db db' : WorldDb}

theorem Records.event_kept (h : Records py event state db db') {r : EventRow}
    (hr : r ∈ db.worldEvents.rows) : db'.worldEvents.get r.key = some r :=
  Table.get_of_mem (h.events ▸ List.mem_append_left _ hr)

theorem Records.event_added (h : Records py event state db db') :
    db'.worldEvents.get (event.tenantId, event.worldId, event.eventId) =
      some (eventRow py event) :=
  Table.get_of_mem (h.events ▸ List.mem_append_right _ (List.mem_singleton_self _))

theorem Records.snapshot_added (h : Records py event state db db') :
    snapshotsOf db' event.tenantId event.worldId event.resultingVersion =
      some (snapshotRow py event state) :=
  (h.snapshots _).trans (if_pos rfl)

theorem Records.stateAt_eq (h : Records py event state db db')
    (ht : worldIdentifier event.tenantId "tenant_id" = .ok event.tenantId)
    (hw : worldIdentifier event.worldId "world_id" = .ok event.worldId) :
    stateAt db' event.tenantId event.worldId event.resultingVersion =
      .ok (snapshotRow py event state).snapshot :=
  stateAt_of_get ht hw (h.snapshot_added)

/-- Recording an event at the version after its world's changes no row that is there. -/
theorem Records.grows (h : Records py event state db db')
    (hfree : db.worldSnapshots.get (event.tenantId, event.worldId, event.resultingVersion) = none)
    (hcurrent : ∀ row, db.worlds.get (event.tenantId, event.worldId) = some row →
      event.resultingVersion = row.currentVersion + 1) : Grows db db' where
  events := by
    intro k r hr
    have hkept := h.event_kept (Table.mem_of_get hr)
    rwa [Table.get_key hr] at hkept
  snapshots := by
    intro k s hs
    rw [h.snapshots, if_neg]
    · exact hs
    · intro he
      rw [he, hs] at hfree
      cases hfree
  worlds := by
    intro t w row hrow
    by_cases hk : (event.tenantId, event.worldId) = (t, w)
    · obtain ⟨row', hrow', hversion, -, -⟩ := h.world
      have hnext := hcurrent row (hk ▸ hrow)
      obtain ⟨ht, hw⟩ := Prod.mk.inj hk
      refine ⟨row', [eventRow py event], hk ▸ hrow', ?_, ?_, ?_⟩
      · rw [h.eventRows_eq, if_pos ⟨ht, hw⟩]
      · exact hversion.trans hnext
      · intro hnil
        cases hnil
    · refine ⟨row, [], (h.worlds _ hk).trans hrow, ?_, (add_zero _).symm, fun _ => rfl⟩
      rw [h.eventRows_eq, if_neg]
      intro hids
      exact hk (Prod.ext hids.1 hids.2)

/-! ## The calls of the workers -/

/-- The worlds, their events and their snapshots are the same. -/
structure SameWorlds (db db' : WorldDb) : Prop where
  worlds : db'.worlds = db.worlds
  events : db'.worldEvents = db.worldEvents
  snapshots : db'.worldSnapshots = db.worldSnapshots

theorem SameWorlds.refl (db : WorldDb) : SameWorlds db db := ⟨rfl, rfl, rfl⟩

/-- The loops of a claim rewrite messages only. -/
theorem sameWorlds_foldl {g : WorldDb → OutboxRow → WorldDb}
    (hg : ∀ db row, SameWorlds db (g db row)) (rows : List OutboxRow) (db : WorldDb) :
    SameWorlds db (rows.foldl g db) :=
  exec_invariant (I := SameWorlds db) (fun _ row h =>
    ⟨(hg _ row).worlds.trans h.worlds, (hg _ row).events.trans h.events,
      (hg _ row).snapshots.trans h.snapshots⟩) (.refl db) rows

theorem sameWorlds_claimTx (workerId leaseExpiry currentText : String) (limit : Nat)
    (db : WorldDb) : SameWorlds db (Outbox.claimTx workerId leaseExpiry currentText limit db).2 := by
  simp only [Outbox.claimTx, Outbox.leaseAll_eq]
  have hexpire := sameWorlds_foldl (g := Outbox.expire currentText) (fun _ _ => ⟨rfl, rfl, rfl⟩)
    (db.worldOutbox.rows.filter (Outbox.isExpired currentText)) db
  generalize (db.worldOutbox.rows.filter (Outbox.isExpired currentText)).foldl
    (Outbox.expire currentText) db = mid at hexpire ⊢
  have hlease := sameWorlds_foldl (g := Outbox.lease workerId leaseExpiry currentText)
    (fun _ _ => ⟨rfl, rfl, rfl⟩) ((((mid.worldOutbox.rows.filter (fun r =>
      r.status = .pending && r.availableAt ≤ currentText)).mergeSort Outbox.deliveryOrder)).take
        limit) mid
  exact ⟨hlease.worlds.trans hexpire.worlds, hlease.events.trans hexpire.events,
    hlease.snapshots.trans hexpire.snapshots⟩

theorem sameWorlds_deliver {body : WorldDb → Except PyError (OutboxRow × WorldDb)}
    (hbody : ∀ row db', body db = .ok (row, db') → SameWorlds db db') :
    SameWorlds db (Outbox.deliver body db).2 := by
  unfold Outbox.deliver
  split
  · exact .refl db
  · next row db' h => exact hbody row db' h

theorem sameWorlds_acknowledgeTx {messageId workerId current : String} {row : OutboxRow}
    (h : Outbox.acknowledgeTx messageId workerId current db = .ok (row, db')) :
    SameWorlds db db' := by
  unfold Outbox.acknowledgeTx at h
  split at h
  · cases h
  · split at h
    · cases h
      exact .refl db
    · split at h
      · cases h
      · cases h
        exact ⟨rfl, rfl, rfl⟩

theorem sameWorlds_failTx {messageId workerId error : String}
    {retryAfterSeconds maxAttempts current : Int} {row : OutboxRow}
    (h : Outbox.failTx py messageId workerId error retryAfterSeconds maxAttempts current db =
      .ok (row, db')) : SameWorlds db db' := by
  unfold Outbox.failTx at h
  split at h
  · cases h
  · split at h
    · cases h
    · obtain ⟨available, _, h⟩ := bind_ok.mp h
      cases h
      exact ⟨rfl, rfl, rfl⟩

theorem SameWorlds.grows (h : SameWorlds db db') : Grows db db' where
  events := fun k r hr => h.events ▸ hr
  snapshots := fun k s hs => h.snapshots ▸ hs
  worlds := by
    intro t w row hrow
    refine ⟨row, [], h.worlds ▸ hrow, ?_, (add_zero _).symm, fun _ => rfl⟩
    unfold eventRows
    rw [h.events, List.append_nil]

/-- An operation is a write of the world store, or leaves the worlds alone. -/
theorem sameWorlds_outbox (py : Python) (db : WorldDb) (op : Outbox.Op) :
    (∃ c, op = .world c) ∨ SameWorlds db (op.run py db) := by
  cases op with
  | world c => exact .inl ⟨c, rfl⟩
  | claim now worker limit seconds time =>
    refine .inr ?_
    simp only [Outbox.Op.run, Outbox.claim]
    split
    · exact .refl db
    · exact sameWorlds_claimTx ..
  | acknowledge now id worker time =>
    refine .inr ?_
    simp only [Outbox.Op.run, Outbox.acknowledge]
    split
    · exact .refl db
    · exact sameWorlds_deliver (fun _ _ h => sameWorlds_acknowledgeTx h)
  | fail now id worker error retry max time =>
    refine .inr ?_
    simp only [Outbox.Op.run, Outbox.fail]
    split
    · exact .refl db
    · exact sameWorlds_deliver (fun _ _ h => sameWorlds_failTx h)

/-! ## What answers an append -/

/-- The stored event and snapshot that answer the repetition of an append. -/
structure Stored (py : Python) (db : WorldDb) (request : Request) (row : SnapshotRow) : Prop where
  event : ∃ duplicate, db.worldEvents.get (request.tenantId, request.worldId, request.eventId) =
      some duplicate ∧ duplicate.requestSha256 = sha256Json py.sha256 request.toJson ∧
      db.worldSnapshots.get (request.tenantId, request.worldId, duplicate.resultingVersion) =
        some row

theorem Stored.mono {request : Request} {row : SnapshotRow} (h : Stored py db request row)
    (hgrows : Grows db db') : Stored py db' request row := by
  obtain ⟨duplicate, hevent, hhash, hsnapshot⟩ := h.event
  exact ⟨duplicate, hgrows.events _ _ hevent, hhash, hgrows.snapshots _ _ hsnapshot⟩

theorem stateAt_mono {tenantId worldId : String} {version : Int} {s : Snapshot}
    (hgrows : Grows db db') (h : stateAt db tenantId worldId version = .ok s) :
    stateAt db' tenantId worldId version = .ok s := by
  obtain ⟨t, ht, h⟩ := bind_ok.mp h
  obtain ⟨w, hw, h⟩ := bind_ok.mp h
  refine bind_ok.mpr ⟨t, ht, bind_ok.mpr ⟨w, hw, ?_⟩⟩
  split at h
  · next row hrow =>
    rw [hgrows.snapshots _ _ hrow]
    exact h
  · cases h

theorem appendTx_replay {request : Request} {createdAt : String} {s : Snapshot}
    (h : appendTx py request createdAt db = .ok (some s, db')) :
    db' = db ∧ ∃ row, Stored py db request row ∧ s = row.snapshot := by
  simp only [appendTx] at h
  split at h
  · next duplicate hevent =>
    split at h
    · cases h
    · next hhash =>
      split at h
      · next row hsnapshot =>
        cases h
        exact ⟨rfl, row, ⟨duplicate, hevent, not_not.mp hhash, hsnapshot⟩, rfl⟩
      · cases h
  · split at h
    · cases h
    · split at h
      · cases h
      · obtain ⟨state, _, h⟩ := bind_ok.mp h
        obtain ⟨db₁, _, h⟩ := bind_ok.mp h
        obtain ⟨db₂, _, h⟩ := bind_ok.mp h
        cases h

/-- An append that answered left a stored event and snapshot, which it answered with. -/
theorem append_answer {now tenantId worldId eventId eventType : String} {mutations : List Json}
    {actorId : String} {expectedVersion : Int} {authorizationRef : String}
    {sourceLineage : List String} {timestamp : Option String} {s : Snapshot}
    (h : (appendEvent py now tenantId worldId eventId eventType mutations actorId
      expectedVersion authorizationRef sourceLineage timestamp db).1 = .ok s) :
    ∃ request row, appendRequest py tenantId worldId eventId eventType mutations actorId
        expectedVersion authorizationRef sourceLineage = .ok request ∧
      Stored py (appendEvent py now tenantId worldId eventId eventType mutations actorId
        expectedVersion authorizationRef sourceLineage timestamp db).2 request row ∧
      s = row.snapshot := by
  unfold appendEvent at h ⊢
  split at h
  · cases h
  · next request hrequest =>
    rw [hrequest]
    have hchecked := appendRequest_ok hrequest
    unfold committing at h ⊢
    split at h
    · cases h
    · next snapshot db₁ htx =>
      cases h
      obtain ⟨rfl, row, hstored, hs⟩ := appendTx_replay htx
      exact ⟨request, row, rfl, hstored, hs⟩
    · next db₁ htx =>
      rcases appendTx_ok htx with ⟨hne, _⟩ | ⟨_, world, state, hworld, hversion, _, hrec⟩
      · exact absurd rfl hne
      have hread := hrec.stateAt_eq hchecked.tenant_again hchecked.world_again
      replace h : stateAt db₁ request.tenantId request.worldId (world.currentVersion + 1) =
          .ok s := hversion ▸ h
      exact ⟨request, _, rfl, ⟨_, hrec.event_added, rfl, hrec.snapshot_added⟩,
        Except.ok.inj (h.symm.trans hread)⟩

/-- A stored event answers the append again, whatever the time. -/
theorem append_again {tenantId worldId eventId eventType : String} {mutations : List Json}
    {actorId : String} {expectedVersion : Int} {authorizationRef : String}
    {sourceLineage : List String} {request : Request} {row : SnapshotRow}
    (hrequest : appendRequest py tenantId worldId eventId eventType mutations actorId
      expectedVersion authorizationRef sourceLineage = .ok request)
    (hstored : Stored py db request row) (now : String) (timestamp : Option String) :
    appendEvent py now tenantId worldId eventId eventType mutations actorId expectedVersion
      authorizationRef sourceLineage timestamp db = (.ok row.snapshot, db) := by
  obtain ⟨duplicate, hevent, hhash, hsnapshot⟩ := hstored.event
  have htx : appendTx py request (orNow timestamp now) db = .ok (some row.snapshot, db) := by
    unfold appendTx
    rw [hevent]
    dsimp only
    rw [if_neg (not_not.mpr hhash), hsnapshot]
  unfold appendEvent
  rw [hrequest]
  dsimp only
  unfold committing
  rw [htx]

/-- A creation that answered named the hash of the world's first event. -/
theorem create_answer {now tenantId worldId : String} {initialState : Json}
    {actorId authorizationRef : String} {sourceLineage : List String} {timestamp : Option String}
    {s : Snapshot}
    (h : (createWorld py now tenantId worldId initialState actorId authorizationRef sourceLineage
      timestamp db).1 = .ok s) :
    ∃ request fields created,
      createRequest tenantId worldId initialState actorId authorizationRef sourceLineage =
        .ok (request, fields) ∧
      (createWorld py now tenantId worldId initialState actorId authorizationRef sourceLineage
        timestamp db).2.worldEvents.get (request.tenantId, request.worldId, "WORLD_CREATED") =
          some created ∧
      s.eventHash = some created.eventHash := by
  unfold createWorld at h ⊢
  split at h
  · cases h
  · next request fields hrequest =>
    rw [hrequest]
    obtain ⟨hchecked, -⟩ := createRequest_ok py hrequest
    unfold committing at h ⊢
    split at h
    · cases h
    · next snapshot db₁ htx =>
      cases h
      simp only [createTx] at htx
      split at htx
      · next existing created _ hevent =>
        split at htx
        · cases htx
          exact ⟨request, fields, created, rfl, hevent, rfl⟩
        · cases htx
      · obtain ⟨worlds, _, htx⟩ := bind_ok.mp htx
        obtain ⟨db₁, _, htx⟩ := bind_ok.mp htx
        obtain ⟨db₂, _, htx⟩ := bind_ok.mp htx
        cases htx
    · next db₁ htx =>
      rcases createTx_ok htx with ⟨hne, _⟩ | ⟨_, _, hrec⟩
      · exact absurd rfl hne
      have hread := hrec.stateAt_eq hchecked.tenant_again hchecked.world_again
      have hid : request.eventId = "WORLD_CREATED" := identifier_ok hchecked.event
      have hevent := hrec.event_added
      refine ⟨request, fields,
        eventRow py (createdEvent py request fields (orNow timestamp now)), rfl, ?_, ?_⟩
      · rw [← hid]
        exact hevent
      · rw [Except.ok.inj (h.symm.trans hread)]
        rfl

/-! ## Every call of the store -/

theorem Sound.snapshot_free (hdb : Sound py db) {k : String × String} {version : Int}
    (h : ∀ row, db.worlds.get k = some row → version = row.currentVersion + 1) :
    db.worldSnapshots.get (k.1, k.2, version) = none := by
  rw [Table.get_eq_none]
  intro s hs hkey
  obtain ⟨row, hrow, -, hle⟩ := hdb.snapshots s hs
  have ht : s.tenantId = k.1 := congrArg Prod.fst hkey
  have hw : s.worldId = k.2 := congrArg (fun k => k.2.1) hkey
  have hv : s.version = version := congrArg (fun k => k.2.2) hkey
  rw [ht, hw] at hrow
  have hnext := h row hrow
  omega

theorem append_grows (hdb : Sound py db) (now tenantId worldId eventId eventType : String)
    (mutations : List Json) (actorId : String) (expectedVersion : Int)
    (authorizationRef : String) (sourceLineage : List String) (timestamp : Option String) :
    Grows db (appendEvent py now tenantId worldId eventId eventType mutations actorId
      expectedVersion authorizationRef sourceLineage timestamp db).2 := by
  rcases appendEvent_cases py now tenantId worldId eventId eventType mutations actorId
    expectedVersion authorizationRef sourceLineage timestamp db with
    h | ⟨request, world, state, _, hworld, _, _, hrec, _⟩
  · rw [h]
    exact .refl db
  · have hcurrent : ∀ row, db.worlds.get (request.tenantId, request.worldId) = some row →
        world.currentVersion + 1 = row.currentVersion + 1 := by
      intro row hrow
      cases hrow.symm.trans hworld
      rfl
    exact hrec.grows (hdb.snapshot_free hcurrent) hcurrent

theorem create_grows (hdb : Sound py db) (now tenantId worldId : String) (initialState : Json)
    (actorId authorizationRef : String) (sourceLineage : List String)
    (timestamp : Option String) :
    Grows db (createWorld py now tenantId worldId initialState actorId authorizationRef
      sourceLineage timestamp db).2 := by
  rcases createWorld_cases py now tenantId worldId initialState actorId authorizationRef
    sourceLineage timestamp db with h | ⟨request, fields, _, hnone, hrec, _⟩
  · rw [h]
    exact .refl db
  · have hcurrent : ∀ row, db.worlds.get (request.tenantId, request.worldId) = some row →
        0 = row.currentVersion + 1 := by
      intro row hrow
      cases hnone.symm.trans hrow
    exact hrec.grows (hdb.snapshot_free hcurrent) hcurrent

theorem Sound.grows (hdb : Sound py db) (c : Call) : Grows db (c.run py db).2 := by
  cases c with
  | createWorld => exact create_grows hdb ..
  | appendEvent => exact append_grows hdb ..
  | restoreVersion =>
    simp only [Call.run, World.restoreVersion]
    split
    · exact .refl db
    · exact append_grows hdb ..

theorem SameWorlds.sound (h : SameWorlds db db') (hdb : Sound py db) : Sound py db' := by
  have hworlds := h.worlds
  have hevents := h.events
  have hsnapshots := h.snapshots
  refine ⟨?_, ?_, ?_⟩
  · intro k row hrow
    rw [hworlds] at hrow
    have hsound := hdb.worlds k row hrow
    have hrows : eventRows db' row.tenantId row.worldId =
        eventRows db row.tenantId row.worldId := by
      unfold eventRows
      rw [hevents]
    have hsnaps : snapshotsOf db' row.tenantId row.worldId =
        snapshotsOf db row.tenantId row.worldId := by
      unfold snapshotsOf
      rw [hsnapshots]
    exact
      { tenant := hsound.tenant
        world := hsound.world
        created := hrows ▸ hsound.created
        chain := by
          rw [hrows, hsnaps]
          exact hsound.chain }
  · rw [hworlds, hevents]
    exact hdb.events
  · rw [hworlds, hsnapshots]
    exact hdb.snapshots

/-- An operation of the world store or of the outbox keeps the store sound. -/
theorem Sound.operate (hdb : Sound py db) (op : Outbox.Op) :
    Sound py (op.run py db) ∧ Grows db (op.run py db) := by
  rcases sameWorlds_outbox py db op with ⟨c, rfl⟩ | h
  · exact ⟨(c.sound hdb).sound, hdb.grows c⟩
  · exact ⟨h.sound hdb, h.grows⟩

/-! ## When an append succeeds -/

theorem Chain.event_hash {snaps : Int → Option SnapshotRow} {rows : List EventRow}
    {state : Fields} {hash : String} {version : Int} (h : Chain py snaps rows state hash version) :
    ∀ r ∈ rows, r.eventHash = sha256Json py.sha256 r.toEvent.toJson := by
  induction h with
  | nil =>
    intro r hr
    cases hr
  | snoc _ hrow ih =>
    intro r hr
    rcases List.mem_append.mp hr with hr | hr
    · exact ih r hr
    · rw [List.mem_singleton.mp hr]
      exact hrow.event

/-- An event with new ids has a hash of its own. -/
theorem Sound.hash_free (hinj : Function.Injective py.sha256) (hdb : Sound py db)
    (hnew : db.worldEvents.get (event.tenantId, event.worldId, event.eventId) = none)
    {r : EventRow} (hr : r ∈ db.worldEvents.rows) :
    r.eventHash ≠ sha256Json py.sha256 event.toJson := by
  obtain ⟨row, hrow⟩ := Option.ne_none_iff_exists'.mp (hdb.events r hr)
  obtain ⟨_, _, hchain, -⟩ := (hdb.worlds _ row hrow).chain
  have hkey := Table.get_key hrow
  have ht : row.tenantId = r.tenantId := congrArg Prod.fst hkey
  have hw : row.worldId = r.worldId := congrArg Prod.snd hkey
  have hmem : r ∈ eventRows db row.tenantId row.worldId :=
    List.mem_filter.mpr ⟨hr, decide_eq_true ⟨ht.symm, hw.symm⟩⟩
  intro hsame
  have hids := key_of_same (same_of_sha256Json hinj ((hchain.event_hash r hmem).symm.trans hsame))
  exact Table.get_eq_none.mp hnew r hr hids

/-- An append whose request passed the checks, with new ids, the right expected version and
mutations that apply. -/
theorem append_succeeds (hinj : Function.Injective py.sha256) (hdb : Sound py db) (now : String)
    {tenantId worldId eventId eventType : String} {mutations : List Json} {actorId : String}
    {expectedVersion : Int} {authorizationRef : String} {sourceLineage : List String}
    (timestamp : Option String) {request : Request} {world : WorldRow}
    (hrequest : appendRequest py tenantId worldId eventId eventType mutations actorId
      expectedVersion authorizationRef sourceLineage = .ok request)
    (hnew : db.worldEvents.get (request.tenantId, request.worldId, request.eventId) = none)
    (hworld : db.worlds.get (request.tenantId, request.worldId) = some world)
    (hversion : world.currentVersion = expectedVersion)
    (happly : applyMutations py world.state request.mutations = .ok state) :
    ∃ s db', appendEvent py now tenantId worldId eventId eventType mutations actorId
      expectedVersion authorizationRef sourceLineage timestamp db = (.ok s, db') := by
  have hchecked := appendRequest_ok hrequest
  have hcurrent : world.currentVersion = request.expectedVersion :=
    hversion.trans hchecked.expected.symm
  let recorded := appendedEvent py request world.currentVersion state (orNow timestamp now)
    (eventRows db request.tenantId request.worldId)
  obtain ⟨events, hevents⟩ : ∃ t, db.worldEvents.insert (eventRow py recorded) = some t :=
    Table.insert_of_get hnew
  have hfree : db.worldSnapshots.get (recorded.tenantId, recorded.worldId,
      recorded.resultingVersion) = none := by
    refine hdb.snapshot_free (k := (request.tenantId, request.worldId)) ?_
    intro row hrow
    cases hrow.symm.trans hworld
    rfl
  obtain ⟨snapshots, hsnapshots⟩ : ∃ t,
      db.worldSnapshots.insert (snapshotRow py recorded state) = some t :=
    Table.insert_of_get hfree
  have hunused : db.worldEvents.rows.any
      (fun r => r.eventHash = (eventRow py recorded).eventHash) = false := by
    rw [List.any_eq_false]
    intro r hr he
    have hother : r.eventHash ≠ sha256Json py.sha256 recorded.toJson := hdb.hash_free hinj hnew hr
    exact hother (of_decide_eq_true he)
  have hfirst : insertEvent (eventRow py recorded) db = .ok { db with worldEvents := events } := by
    unfold insertEvent
    rw [hunused]
    exact bind_ok.mpr ⟨events, orIntegrity_ok.mpr hevents, rfl⟩
  have hsecond : insertSnapshot (snapshotRow py recorded state) { db with worldEvents := events } =
      .ok { db with worldEvents := events, worldSnapshots := snapshots } :=
    bind_ok.mpr ⟨snapshots, orIntegrity_ok.mpr hsnapshots, rfl⟩
  obtain ⟨db', htx⟩ : ∃ db', appendTx py request (orNow timestamp now) db = .ok (none, db') := by
    unfold appendTx
    rw [hnew, hworld]
    dsimp only
    rw [if_neg (not_not.mpr hcurrent)]
    exact ⟨_, bind_ok.mpr ⟨state, happly, bind_ok.mpr ⟨_, hfirst, bind_ok.mpr ⟨_, hsecond, rfl⟩⟩⟩⟩
  rcases appendTx_ok htx with ⟨h, _⟩ | ⟨-, world', state', hworld', _, _, hrec⟩
  · exact absurd rfl h
  cases hworld.symm.trans hworld'
  have hread := hrec.stateAt_eq hchecked.tenant_again hchecked.world_again
  unfold appendEvent
  rw [hrequest]
  dsimp only
  unfold committing
  rw [htx]
  dsimp only
  rw [← hcurrent]
  exact ⟨_, db', congrArg (fun r => (r, db')) hread⟩

/-! ## Ids and hashes -/

/-- Every event id is in normal form, and the snapshot of an event has its hash. -/
structure Paired (db : WorldDb) : Prop where
  clean : ∀ r ∈ db.worldEvents.rows, strip r.eventId = r.eventId
  snapshot : ∀ r ∈ db.worldEvents.rows, ∃ s,
    db.worldSnapshots.get (r.tenantId, r.worldId, r.resultingVersion) = some s ∧
      s.eventHash = r.eventHash

theorem paired_empty : Paired ∅ where
  clean := by
    intro r hr
    cases hr
  snapshot := by
    intro r hr
    cases hr

theorem Paired.record (h : Paired db) (hrec : Records py event state db db')
    (hgrows : Grows db db') (hclean : strip event.eventId = event.eventId) : Paired db' := by
  refine ⟨?_, ?_⟩
  · intro r hr
    rw [hrec.events] at hr
    rcases List.mem_append.mp hr with hr | hr
    · exact h.clean r hr
    · rw [List.mem_singleton.mp hr]
      exact hclean
  · intro r hr
    rw [hrec.events] at hr
    rcases List.mem_append.mp hr with hr | hr
    · obtain ⟨s, hs, hhash⟩ := h.snapshot r hr
      exact ⟨s, hgrows.snapshots _ _ hs, hhash⟩
    · rw [List.mem_singleton.mp hr]
      exact ⟨_, hrec.snapshot_added, rfl⟩

theorem Checked.clean {t w e ty a auth : String} {v : Int} {ms : List Json} {request : Request}
    (h : Checked py t w e ty a v ms auth request) : strip request.eventId = request.eventId := by
  rw [identifier_ok h.event]
  exact strip_strip e

/-- A call writes nothing or records one event, whose id is in normal form. -/
theorem Call.recorded (py : Python) (c : Call) (db : WorldDb) :
    (c.run py db).2 = db ∨ ∃ event state, Records py event state db (c.run py db).2 ∧
      strip event.eventId = event.eventId := by
  have happend : ∀ now t w event type mutations actor expected auth lineage timestamp,
      (World.appendEvent py now t w event type mutations actor expected auth lineage timestamp
        db).2 = db ∨ ∃ e state, Records py e state db
          (World.appendEvent py now t w event type mutations actor expected auth lineage timestamp
            db).2 ∧ strip e.eventId = e.eventId := by
    intro now t w event type mutations actor expected auth lineage timestamp
    rcases appendEvent_cases py now t w event type mutations actor expected auth lineage
      timestamp db with h | ⟨_, _, _, hrequest, _, _, _, hrec, _⟩
    · exact .inl h
    · exact .inr ⟨_, _, hrec, (appendRequest_ok hrequest).clean⟩
  cases c with
  | createWorld now t w state actor auth lineage timestamp =>
    rcases createWorld_cases py now t w state actor auth lineage timestamp db with
      h | ⟨_, _, hrequest, _, hrec, _⟩
    · exact .inl h
    · exact .inr ⟨_, _, hrec, (createRequest_ok py hrequest).1.clean⟩
  | appendEvent => exact happend ..
  | restoreVersion =>
    simp only [Call.run, World.restoreVersion]
    split
    · exact .inl rfl
    · exact happend ..

theorem Paired.call (hdb : Sound py db) (h : Paired db) (c : Call) : Paired (c.run py db).2 := by
  rcases c.recorded py db with hsame | ⟨event, state, hrec, hclean⟩
  · rw [hsame]
    exact h
  · exact h.record hrec (hdb.grows c) hclean

theorem Paired.operate (hdb : Sound py db) (h : Paired db) (op : Outbox.Op) :
    Paired (op.run py db) := by
  rcases sameWorlds_outbox py db op with ⟨c, rfl⟩ | hsame
  · exact h.call hdb c
  · refine ⟨?_, ?_⟩
    · rw [hsame.events]
      exact h.clean
    · rw [hsame.events, hsame.snapshots]
      exact h.snapshot

/-- The stored event and snapshot of an append have one hash. -/
theorem Stored.hash (h : Paired db) {request : Request} {row : SnapshotRow}
    (hstored : Stored py db request row) : ∃ event,
      db.worldEvents.get (request.tenantId, request.worldId, request.eventId) = some event ∧
      row.eventHash = event.eventHash := by
  obtain ⟨event, hevent, -, hsnapshot⟩ := hstored.event
  obtain ⟨s, hs, hhash⟩ := h.snapshot event (Table.mem_of_get hevent)
  have hkey := Table.get_key hevent
  have ht : event.tenantId = request.tenantId := congrArg Prod.fst hkey
  have hw : event.worldId = request.worldId := congrArg (fun k => k.2.1) hkey
  rw [ht, hw, hsnapshot] at hs
  cases hs
  exact ⟨event, hevent, hhash⟩

end
end Edon.World
