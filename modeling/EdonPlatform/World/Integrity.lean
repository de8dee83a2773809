import EdonPlatform.Lib.Run
import EdonPlatform.World.Transactions

/- Integrity of the world store, over every sequence of calls.

   What is proved:
     1. `Sound.record` — recording an event that continues the chain of its world keeps
        every world of the store sound; `create_sound`, `append_sound` and
        `restore_sound` are the three calls.
     2. `Chain.verifies` — the verifier, folding the log from nothing, agrees with the
        writer on a chain: every check passes, and its state is the chain's.
     3. `store_integrity` — after any calls, each world's versions count from 0, its
        state and every snapshot are the fold of its events, `verify_world` passes, and
        a call that raises changes nothing.

   A world is described by a chain (`Chain`), built at the end like the log itself:
   its states are the verifier's, so the writer's states only have to be the same up to
   the order of keys. No assumption on the hash function is needed. -/
namespace Edon.World
open Json Transition

/-- The left fold of `apply_mutations` over events, from the empty state. -/
def replay (py : Python) (rows : List EventRow) : Except PyError Json :=
  rows.foldlM (fun state row => applyMutations py state row.mutations) (.obj [])

def snapshotsOf (db : WorldDb) (t w : String) (version : Int) : Option SnapshotRow :=
  db.worldSnapshots.get (t, w, version)

section
variable {py : Python}

/-- `row` continues a log that ends in `state`, `hash` and `version`, and leaves
`state'`: what the verifier checks of one row. `snaps` is the snapshot stored for a
version. -/
structure Continues (py : Python) (snaps : Int → Option SnapshotRow) (state : Fields)
    (hash : String) (version : Int) (row : EventRow) (state' : Fields) : Prop where
  mutations : ∃ ms, Normal ms ∧ row.mutations = ms.map Mutation.toJson ∧
    applyAll state ms = .ok state'
  expected : row.expectedVersion = version
  resulting : row.resultingVersion = version + 1
  previous : row.previousHash = hash
  request : row.requestSha256 = sha256Json py.sha256 row.toRequest.toJson
  event : row.eventHash = sha256Json py.sha256 row.toEvent.toJson
  stateHash : row.resultingStateSha256 = sha256Json py.sha256 (.obj state')
  snapshot : ∃ s, snaps (version + 1) = some s ∧ s.state = (Json.obj state').canon ∧
    s.stateSha256 = sha256Json py.sha256 (.obj state')

/-- The rows of a world in order, with the state, last hash and last version they lead
to. -/
inductive Chain (py : Python) (snaps : Int → Option SnapshotRow) :
    List EventRow → Fields → String → Int → Prop where
  | nil : Chain py snaps [] [] "GENESIS" (-1)
  | snoc {rows : List EventRow} {state state' : Fields} {hash : String} {version : Int}
      {row : EventRow} : Chain py snaps rows state hash version →
      Continues py snaps state hash version row state' →
      Chain py snaps (rows ++ [row]) state' row.eventHash (version + 1)

theorem Continues.apply {snaps : Int → Option SnapshotRow} {state state' : Fields}
    {hash : String} {version : Int} {row : EventRow}
    (h : Continues py snaps state hash version row state') :
    applyMutations py (.obj state) row.mutations = .ok (.obj state') := by
  obtain ⟨ms, hms, hrow, happly⟩ := h.mutations
  rw [hrow, applyMutations_normal hms, happly]
  rfl

namespace Chain
variable {snaps : Int → Option SnapshotRow} {rows : List EventRow} {state : Fields}
  {hash : String} {version : Int}

theorem mono {snaps' : Int → Option SnapshotRow} (h : Chain py snaps rows state hash version)
    (hsnaps : ∀ v s, snaps v = some s → snaps' v = some s) :
    Chain py snaps' rows state hash version := by
  induction h with
  | nil => exact .nil
  | snoc _ hrow ih =>
    obtain ⟨s, hs, hrest⟩ := hrow.snapshot
    exact .snoc ih { hrow with snapshot := ⟨s, hsnaps _ _ hs, hrest⟩ }

/-- The hash a chain ends in is the one an append reads. -/
theorem hash_eq (h : Chain py snaps rows state hash version) :
    hash = (rows.getLast?.map EventRow.eventHash).getD "GENESIS" := by
  cases h <;> simp

theorem version_eq (h : Chain py snaps rows state hash version) : version + 1 = rows.length := by
  induction h with
  | nil => rfl
  | snoc _ _ ih =>
    rw [List.length_append, List.length_singleton, Nat.cast_add, ← ih]
    rfl

theorem versions (h : Chain py snaps rows state hash version) :
    rows.map (·.resultingVersion) = (List.range rows.length).map Int.ofNat := by
  induction h with
  | nil => rfl
  | snoc hchain hrow ih =>
    rw [List.map_append, ih, List.length_append, List.length_singleton, List.range_succ,
      List.map_append, List.map_singleton, List.map_singleton, hrow.resulting, hchain.version_eq]
    rfl

theorem replay_eq (h : Chain py snaps rows state hash version) :
    replay py rows = .ok (.obj state) := by
  induction h with
  | nil => rfl
  | snoc _ hrow ih =>
    unfold replay at ih ⊢
    rw [List.foldlM_append, ih]
    simp only [List.foldlM, bind, Except.bind, pure, Except.pure, hrow.apply]

/-- The snapshot of each version is the fold up to it. -/
theorem snapshot_eq (h : Chain py snaps rows state hash version) {v : Int} (h0 : 0 ≤ v)
    (hv : v ≤ version) : ∃ s, snaps v = some s ∧
      ∃ w, replay py (rows.take (v.toNat + 1)) = .ok w ∧ s.state = w.canon := by
  induction h with
  | nil => omega
  | @snoc rows state state' hash version row hchain hrow ih =>
    have hlen := hchain.version_eq
    by_cases hlast : v = version + 1
    · -- the last row's own snapshot
      obtain ⟨s, hs, hstate, _⟩ := hrow.snapshot
      refine ⟨s, hlast ▸ hs, .obj state', ?_, hstate⟩
      have hwhole : (rows ++ [row]).length ≤ v.toNat + 1 := by
        rw [List.length_append, List.length_singleton]
        omega
      rw [List.take_of_length_le hwhole]
      exact (hchain.snoc hrow).replay_eq
    · obtain ⟨s, hs, w, hw, hsw⟩ := ih (by omega)
      refine ⟨s, hs, w, ?_, hsw⟩
      rwa [List.take_append_of_le_length (by omega)]

end Chain

/-! ## The verifier agrees with a chain -/

theorem verifyRecords_append (db : WorldDb) (t w : String) (rows rows' : List EventRow)
    (r : Replay) : verifyRecords py db t w r (rows ++ rows') =
      verifyRecords py db t w r rows >>= fun r' => verifyRecords py db t w r' rows' := by
  induction rows generalizing r with
  | nil => rfl
  | cons row rows ih =>
    simp only [List.cons_append, verifyRecords, bind, Except.bind] at ih ⊢
    cases verifyRecord py db t w r row with
    | error e => rfl
    | ok r' => exact ih r'

theorem stateAt_of_get {db : WorldDb} {t w : String} {v : Int} {row : SnapshotRow}
    (ht : worldIdentifier t "tenant_id" = .ok t) (hw : worldIdentifier w "world_id" = .ok w)
    (h : snapshotsOf db t w v = some row) : stateAt db t w v = .ok row.snapshot := by
  unfold snapshotsOf at h
  simp only [stateAt, ht, hw, bind, Except.bind, h]
  rfl

theorem pyEq_canon (v : Json) : pyEq v.canon v = true := pyEq_of_same (same_canon v)

/-- One row of a chain passes every check, and the verifier's state stays the chain's. -/
theorem verifyRecord_ok {db : WorldDb} {t w : String} {state state' : Fields} {hash : String}
    {version : Int} {row : EventRow} {r : Replay}
    (ht : worldIdentifier t "tenant_id" = .ok t) (hw : worldIdentifier w "world_id" = .ok w)
    (h : Continues py (snapshotsOf db t w) state hash version row state')
    (hstate : r.state.getD (.obj []) = .obj state) (hhash : r.previousHash = hash)
    (hversion : r.previousVersion = version) :
    verifyRecord py db t w r row = .ok
      { checks := r.checks
        previousHash := row.eventHash
        state := some (.obj state')
        previousVersion := version + 1 } := by
  obtain ⟨s, hs, hsstate, hssha⟩ := h.snapshot
  have hat := stateAt_of_get ht hw hs
  have heq : pyEq s.snapshot.state (.obj state') = true := by
    rw [show s.snapshot.state = s.state from rfl, hsstate]
    exact pyEq_canon _
  have hsha : s.snapshot.stateSha256 = sha256Json py.sha256 (.obj state') := hssha
  simp [verifyRecord, hstate, h.apply, bind, Except.bind, pure, Except.pure, hat, heq, hsha,
    h.request, h.event, h.previous, h.expected, h.resulting, h.stateHash, hhash, hversion]

theorem Chain.verifies {db : WorldDb} {t w : String} {rows : List EventRow} {state : Fields}
    {hash : String} {version : Int} (checks : Checks)
    (ht : worldIdentifier t "tenant_id" = .ok t) (hw : worldIdentifier w "world_id" = .ok w)
    (h : Chain py (snapshotsOf db t w) rows state hash version) :
    ∃ last, verifyRecords py db t w
        { checks, previousHash := "GENESIS", state := none, previousVersion := -1 } rows =
        .ok { checks, previousHash := hash, state := last, previousVersion := version } ∧
      last.getD (.obj []) = .obj state ∧ (rows ≠ [] → last = some (.obj state)) := by
  induction h with
  | nil => exact ⟨none, rfl, rfl, fun h => absurd rfl h⟩
  | snoc _ hrow ih =>
    obtain ⟨last, hlast, hstate, _⟩ := ih
    have hstep := verifyRecord_ok ht hw hrow (r := ⟨checks, _, last, _⟩) hstate rfl rfl
    refine ⟨_, ?_, rfl, fun _ => rfl⟩
    rw [verifyRecords_append, hlast]
    simp only [bind, Except.bind, verifyRecords, hstep]

/-! ## Soundness of the store -/

/-- What holds of the row of a world. -/
structure WorldSound (py : Python) (db : WorldDb) (row : WorldRow) : Prop where
  tenant : worldIdentifier row.tenantId "tenant_id" = .ok row.tenantId
  world : worldIdentifier row.worldId "world_id" = .ok row.worldId
  created : (eventRows db row.tenantId row.worldId).head?.map (·.eventType) = some "WORLD_CREATED"
  chain : ∃ state hash,
    Chain py (snapshotsOf db row.tenantId row.worldId)
      (eventRows db row.tenantId row.worldId) state hash row.currentVersion ∧
    row.state = (Json.obj state).canon ∧ row.stateSha256 = sha256Json py.sha256 (.obj state)

structure Sound (py : Python) (db : WorldDb) : Prop where
  worlds : ∀ k row, db.worlds.get k = some row → WorldSound py db row
  events : ∀ r ∈ db.worldEvents.rows, db.worlds.get (r.tenantId, r.worldId) ≠ none
  snapshots : ∀ s ∈ db.worldSnapshots.rows, ∃ row,
    db.worlds.get (s.tenantId, s.worldId) = some row ∧ 0 ≤ s.version ∧
      s.version ≤ row.currentVersion

theorem sound_empty : Sound py ∅ where
  worlds := by
    intro k row h
    cases h
  events := by
    intro r h
    cases h
  snapshots := by
    intro s h
    cases h

section
variable {event : Event} {state : Json} {db db' : WorldDb}

theorem Records.eventRows_eq (h : Records py event state db db') (t w : String) :
    eventRows db' t w = eventRows db t w ++
      if event.tenantId = t ∧ event.worldId = w then [eventRow py event] else [] := by
  have hrow : (eventRow py event).tenantId = event.tenantId ∧
      (eventRow py event).worldId = event.worldId := ⟨rfl, rfl⟩
  unfold eventRows
  rw [h.events, List.filter_append, List.filter_singleton]
  simp only [hrow.1, hrow.2]
  by_cases hc : event.tenantId = t ∧ event.worldId = w
  · simp [hc]
  · simp [hc]

theorem Records.snapshotsOf_eq (h : Records py event state db db') (t w : String) (v : Int) :
    snapshotsOf db' t w v = if (event.tenantId, event.worldId, event.resultingVersion) = (t, w, v)
      then some (snapshotRow py event state) else snapshotsOf db t w v :=
  h.snapshots (t, w, v)

/-- A world the event is not of keeps its row, its log and its snapshots. -/
theorem WorldSound.frame (h : Records py event state db db') {row : WorldRow}
    (hrow : WorldSound py db row) (hne : (event.tenantId, event.worldId) ≠ row.key) :
    WorldSound py db' row := by
  have hcond : ¬(event.tenantId = row.tenantId ∧ event.worldId = row.worldId) :=
    fun ⟨ht, hw⟩ => hne (Prod.ext ht hw)
  have hrows : eventRows db' row.tenantId row.worldId = eventRows db row.tenantId row.worldId := by
    rw [h.eventRows_eq, if_neg hcond, List.append_nil]
  have hsnaps : snapshotsOf db' row.tenantId row.worldId =
      snapshotsOf db row.tenantId row.worldId := by
    funext v
    rw [h.snapshotsOf_eq, if_neg]
    intro he
    simp only [Prod.mk.injEq] at he
    exact hcond ⟨he.1, he.2.1⟩
  exact
    { tenant := hrow.tenant
      world := hrow.world
      created := hrows ▸ hrow.created
      chain := by
        rw [hrows, hsnaps]
        exact hrow.chain }

theorem same_toJson_stored (e : Event) : Same e.toJson e.stored.toJson := by
  simp [Same, Event.toJson, Event.stored, Request.fields, Json.canon, canonFields,
    canonList_eq_map, Function.comp_def, canon_canon]

theorem same_request_stored (e : Event) : Same e.toRequest.toJson e.stored.toRequest.toJson := by
  simp [Same, Request.toJson, Event.stored, Request.fields, Json.canon, canonFields,
    canonList_eq_map, Function.comp_def, canon_canon]

theorem map_toJson_canon (ms : List Mutation) :
    (ms.map Mutation.toJson).map Json.canon = (ms.map Mutation.canon).map Mutation.toJson := by
  rw [List.map_map, List.map_map]
  exact List.map_congr_left (fun m _ => toJson_canon m)

/-- The row of an event continues the log whose last state the event's mutations were
applied to, up to the order of keys. -/
theorem continues_eventRow {snaps : Int → Option SnapshotRow} {ms : List Mutation}
    {prior base after : Fields} (hms : Normal ms) (hmut : event.mutations = ms.map Mutation.toJson)
    (hsame : SameFields prior base) (happly : applyAll prior ms = .ok after)
    (hversion : event.resultingVersion = event.expectedVersion + 1)
    (hhash : event.resultingStateSha256 = sha256Json py.sha256 (.obj after))
    (hsnap : snaps event.resultingVersion = some (snapshotRow py event (.obj after))) :
    ∃ state', SameFields after state' ∧
      Continues py snaps base event.previousHash event.expectedVersion (eventRow py event) state' := by
  obtain ⟨state', hstate', hsame'⟩ := (happly ▸ applyAll_congr ms hsame).of_ok
  have hobj : Same (.obj after) (.obj state') := same_obj_iff.mpr hsame'
  refine ⟨state', hsame', ?_⟩
  exact
    { mutations := ⟨ms.map Mutation.canon, hms.canon,
        (congrArg (List.map Json.canon) hmut).trans (map_toJson_canon ms), hstate'⟩
      expected := rfl
      resulting := hversion
      previous := rfl
      request := sha256Json_congr _ (same_request_stored event)
      event := sha256Json_congr _ (same_toJson_stored event)
      stateHash := hhash.trans (sha256Json_congr _ hobj)
      snapshot := ⟨snapshotRow py event (.obj after), hversion ▸ hsnap, hobj,
        hhash.trans (sha256Json_congr _ hobj)⟩ }

/-- Recording an event that continues the log of its world keeps the store sound. -/
theorem Sound.record {ms : List Mutation} {prior base after : Fields} {hash : String}
    (hdb : Sound py db) (hrec : Records py event (.obj after) db db')
    (ht : worldIdentifier event.tenantId "tenant_id" = .ok event.tenantId)
    (hw : worldIdentifier event.worldId "world_id" = .ok event.worldId)
    (hchain : Chain py (snapshotsOf db event.tenantId event.worldId)
      (eventRows db event.tenantId event.worldId) base hash event.expectedVersion)
    (hcurrent : ∀ row, db.worlds.get (event.tenantId, event.worldId) = some row →
      row.currentVersion = event.expectedVersion)
    (hfirst : ((eventRows db event.tenantId event.worldId).head?.map (·.eventType)).getD
      event.eventType = "WORLD_CREATED")
    (hms : Normal ms) (hmut : event.mutations = ms.map Mutation.toJson)
    (hsame : SameFields prior base) (happly : applyAll prior ms = .ok after)
    (hversion : event.resultingVersion = event.expectedVersion + 1)
    (hprev : event.previousHash = hash)
    (hhash : event.resultingStateSha256 = sha256Json py.sha256 (.obj after)) :
    Sound py db' := by
  obtain ⟨row, hrow, hrowVersion, hrowState, hrowHash⟩ := hrec.world
  -- snapshots of the event's world are not newer than the version it expects
  have hold : ∀ s ∈ db.worldSnapshots.rows, (s.tenantId, s.worldId) = (event.tenantId, event.worldId) →
      0 ≤ s.version ∧ s.version ≤ event.expectedVersion := by
    intro s hs he
    obtain ⟨r, hr, h0, hle⟩ := hdb.snapshots s hs
    exact ⟨h0, hcurrent r (he ▸ hr) ▸ hle⟩
  have hnonneg : 0 ≤ event.resultingVersion := by
    have := hchain.version_eq
    omega
  have hkey : ∀ k r, db'.worlds.get k = some r → r.key = k := fun k r h => Table.get_key h
  refine ⟨?_, ?_, ?_⟩
  · intro k r hr
    by_cases hk : (event.tenantId, event.worldId) = k
    · -- the event's own world
      have hr' : r = row := Option.some.inj (hr.symm.trans (hk ▸ hrow))
      have hrk : (event.tenantId, event.worldId) = r.key := hk.trans (hkey k r hr).symm
      have hrt : event.tenantId = r.tenantId := congrArg Prod.fst hrk
      have hrw : event.worldId = r.worldId := congrArg Prod.snd hrk
      have hsnap : snapshotsOf db' event.tenantId event.worldId event.resultingVersion =
          some (snapshotRow py event (.obj after)) := by
        rw [hrec.snapshotsOf_eq, if_pos rfl]
      obtain ⟨state', hstate', hcont⟩ :=
        continues_eventRow hms hmut hsame happly hversion hhash hsnap
      have hmono : Chain py (snapshotsOf db' event.tenantId event.worldId)
          (eventRows db event.tenantId event.worldId) base hash event.expectedVersion := by
        refine hchain.mono ?_
        intro v s hs
        rw [hrec.snapshotsOf_eq, if_neg]
        · exact hs
        · intro he
          have hsk := Table.get_key hs
          simp only [SnapshotRow.key, Prod.mk.injEq] at hsk he
          have := hold s (Table.mem_of_get hs) (Prod.ext hsk.1 hsk.2.1)
          omega
      have hrows : eventRows db' event.tenantId event.worldId =
          eventRows db event.tenantId event.worldId ++ [eventRow py event] := by
        rw [hrec.eventRows_eq, if_pos ⟨rfl, rfl⟩]
      subst hr'
      refine ⟨hrt ▸ ht, hrw ▸ hw, ?_, state', (eventRow py event).eventHash, ?_, ?_, ?_⟩
      · rw [← hrt, ← hrw, hrows]
        cases hl : eventRows db event.tenantId event.worldId with
        | nil =>
          rw [hl] at hfirst
          exact congrArg some hfirst
        | cons first rest =>
          rw [hl] at hfirst
          exact congrArg some hfirst
      · rw [← hrt, ← hrw, hrows, hrowVersion, hversion]
        exact hmono.snoc (hprev ▸ hcont)
      · rw [hrowState]
        exact same_obj_iff.mpr hstate'
      · rw [hrowHash, hhash]
        exact sha256Json_congr _ (same_obj_iff.mpr hstate')
    · rw [hrec.worlds k hk] at hr
      exact (hdb.worlds k r hr).frame hrec (fun h => hk (h.trans (Table.get_key hr)))
  · intro e he
    rw [hrec.events, List.mem_append, List.mem_singleton] at he
    rcases he with he | rfl
    · by_cases hk : (event.tenantId, event.worldId) = (e.tenantId, e.worldId)
      · rw [← hk, hrow]
        exact Option.some_ne_none row
      · rw [hrec.worlds _ hk]
        exact hdb.events e he
    · exact ne_of_eq_of_ne hrow (Option.some_ne_none row)
  · intro s hs
    have hget := Table.get_of_mem hs
    rw [hrec.snapshots] at hget
    split at hget
    · -- the new snapshot
      cases hget
      exact ⟨row, hrow, hnonneg, hrowVersion.symm.le⟩
    · have hmem := Table.mem_of_get hget
      by_cases hk : (event.tenantId, event.worldId) = (s.tenantId, s.worldId)
      · obtain ⟨h0, hle⟩ := hold s hmem hk.symm
        refine ⟨row, hk ▸ hrow, h0, ?_⟩
        omega
      · obtain ⟨r, hr, hbounds⟩ := hdb.snapshots s hmem
        exact ⟨r, (hrec.worlds _ hk).trans hr, hbounds⟩

end

/-! ## The calls keep the store sound -/

theorem eventRows_nil {db : WorldDb} (hdb : Sound py db) {t w : String}
    (h : db.worlds.get (t, w) = none) : eventRows db t w = [] := by
  refine List.filter_eq_nil_iff.mpr ?_
  intro e he hc
  obtain ⟨rfl, rfl⟩ := of_decide_eq_true hc
  exact hdb.events e he h

theorem create_sound {request : Request} {state : Fields} {createdAt : String} {db db' : WorldDb}
    (hdb : Sound py db)
    (ht : worldIdentifier request.tenantId "tenant_id" = .ok request.tenantId)
    (hw : worldIdentifier request.worldId "world_id" = .ok request.worldId)
    (htype : request.eventType = "WORLD_CREATED") (hversion : request.expectedVersion = -1)
    (hmut : request.mutations = [Mutation.replaceRoot (.obj state)].map Mutation.toJson)
    (hnone : db.worlds.get (request.tenantId, request.worldId) = none)
    (hrec : Records py (createdEvent py request state createdAt) (.obj state) db db') :
    Sound py db' := by
  have hrows : eventRows db request.tenantId request.worldId = [] := eventRows_nil hdb hnone
  have hnormal : Normal [Mutation.replaceRoot (.obj state)] :=
    ⟨by simp, by simp, by simp [Mutation.Normal]⟩
  have hsame : SameFields [] [] := fun _ => rfl
  have happly : applyAll [] [Mutation.replaceRoot (.obj state)] = .ok state := rfl
  refine hdb.record hrec ht hw ?_ ?_ ?_ hnormal hmut hsame happly ?_ rfl rfl
  · show Chain py _ (eventRows db request.tenantId request.worldId) [] _ request.expectedVersion
    rw [hrows, hversion]
    exact .nil
  · intro row hrow
    cases hnone.symm.trans hrow
  · show ((eventRows db request.tenantId request.worldId).head?.map _).getD request.eventType = _
    rw [hrows]
    exact htype
  · show (0 : Int) = request.expectedVersion + 1
    rw [hversion]
    rfl

theorem append_sound {request : Request} {ms : List Mutation} {world : WorldRow} {state : Json}
    {createdAt : String} {db db' : WorldDb} (hdb : Sound py db)
    (ht : worldIdentifier request.tenantId "tenant_id" = .ok request.tenantId)
    (hw : worldIdentifier request.worldId "world_id" = .ok request.worldId)
    (hms : Normal ms) (hmut : request.mutations = ms.map Mutation.toJson)
    (hworld : db.worlds.get (request.tenantId, request.worldId) = some world)
    (hversion : world.currentVersion = request.expectedVersion)
    (happly : applyMutations py world.state request.mutations = .ok state)
    (hrec : Records py (appendedEvent py request world.currentVersion state createdAt
      (eventRows db request.tenantId request.worldId)) state db db') :
    Sound py db' := by
  have hrow := hdb.worlds _ _ hworld
  have hkey := Table.get_key hworld
  have hwt : world.tenantId = request.tenantId := congrArg Prod.fst hkey
  have hww : world.worldId = request.worldId := congrArg Prod.snd hkey
  obtain ⟨base, hash, hchain, hstate, _⟩ := hrow.chain
  have hcreated := hrow.created
  rw [hwt, hww] at hchain hcreated
  -- the state the mutations were applied to is the canonical form of the chain's
  rw [hstate, Json.canon, hmut, applyMutations_normal hms] at happly
  cases hafter : applyAll (Assoc.sortKeys (canonFields base)) ms with
  | error e =>
    rw [hafter] at happly
    cases happly
  | ok after =>
    rw [hafter] at happly
    cases happly
    have hsame : SameFields (Assoc.sortKeys (canonFields base)) base :=
      same_obj_iff.mp (same_canon (.obj base))
    refine hdb.record hrec ht hw (hversion ▸ hchain) ?_ ?_ hms hmut hsame hafter ?_
      hchain.hash_eq.symm rfl
    · intro r hr
      exact (congrArg WorldRow.currentVersion (Option.some.inj (hr.symm.trans hworld))).trans hversion
    · show ((eventRows db request.tenantId request.worldId).head?.map _).getD _ = _
      rw [hcreated]
      rfl
    · exact congrArg (· + 1) hversion

/-- What a call leaves behind: a sound store, and the store as it was when it raised. -/
structure CallSound (py : Python) (db : WorldDb) (result : Except PyError Snapshot × WorldDb) :
    Prop where
  sound : Sound py result.2
  raised : ∀ e, result.1 = .error e → result.2 = db

theorem CallSound.unchanged {db : WorldDb} {result : Except PyError Snapshot × WorldDb}
    (hdb : Sound py db) (h : result.2 = db) : CallSound py db result :=
  ⟨h ▸ hdb, fun _ _ => h⟩

theorem createWorld_sound {db : WorldDb} (hdb : Sound py db) (now tenantId worldId : String)
    (initialState : Json) (actorId authorizationRef : String) (sourceLineage : List String)
    (timestamp : Option String) :
    CallSound py db (createWorld py now tenantId worldId initialState actorId authorizationRef
      sourceLineage timestamp db) := by
  rcases createWorld_cases py now tenantId worldId initialState actorId authorizationRef
    sourceLineage timestamp db with h | ⟨request, state, hrequest, hnone, hrec, hresult⟩
  · exact .unchanged hdb h
  · obtain ⟨hchecked, _, htype, hmut⟩ := createRequest_ok py hrequest
    refine ⟨create_sound hdb hchecked.tenant_again hchecked.world_again htype hchecked.expected hmut
      hnone hrec, ?_⟩
    intro e he
    have hget := stateAt_of_get (v := 0) hchecked.tenant_again hchecked.world_again ((hrec.snapshotsOf_eq ..).trans (if_pos rfl))
    cases (hresult.trans hget).symm.trans he

theorem appendEvent_sound {db : WorldDb} (hdb : Sound py db)
    (now tenantId worldId eventId eventType : String) (mutations : List Json)
    (actorId : String) (expectedVersion : Int) (authorizationRef : String)
    (sourceLineage : List String) (timestamp : Option String) :
    CallSound py db (appendEvent py now tenantId worldId eventId eventType mutations actorId
      expectedVersion authorizationRef sourceLineage timestamp db) := by
  rcases appendEvent_cases py now tenantId worldId eventId eventType mutations actorId
    expectedVersion authorizationRef sourceLineage timestamp db with
    h | ⟨request, world, state, hrequest, hworld, hversion, happly, hrec, hresult⟩
  · exact .unchanged hdb h
  · have hchecked := appendRequest_ok hrequest
    obtain ⟨ms, hms, hmut⟩ := hchecked.mutations
    refine ⟨append_sound hdb hchecked.tenant_again hchecked.world_again
      (normalizeMutations_normal hms) hmut hworld hversion happly hrec, ?_⟩
    intro e he
    have hget := stateAt_of_get (v := world.currentVersion + 1) hchecked.tenant_again
      hchecked.world_again ((hrec.snapshotsOf_eq ..).trans (if_pos rfl))
    cases (hresult.trans hget).symm.trans he

theorem restoreVersion_sound {db : WorldDb} (hdb : Sound py db) (now tenantId worldId : String)
    (targetVersion : Int) (eventId actorId : String) (expectedVersion : Int)
    (authorizationRef : String) (timestamp : Option String) :
    CallSound py db (restoreVersion py now tenantId worldId targetVersion eventId actorId
      expectedVersion authorizationRef timestamp db) := by
  unfold restoreVersion
  split
  · exact .unchanged hdb rfl
  · exact appendEvent_sound hdb ..

end

/-! ## Every sequence of calls -/

section
variable (py : Python)

/-- The store after the calls, from an empty one. -/
def afterCalls (calls : List Call) : WorldDb := exec (fun db c => (c.run py db).2) ∅ calls

/-- The integrity of one world. A stored state is a text: it is the canonical text of
the fold. -/
structure WorldIntegrity (db : WorldDb) (row : WorldRow) : Prop where
  versions : (eventRows db row.tenantId row.worldId).map (·.resultingVersion) =
    (List.range (eventRows db row.tenantId row.worldId).length).map Int.ofNat
  nonempty : eventRows db row.tenantId row.worldId ≠ []
  current : row.currentVersion + 1 = (eventRows db row.tenantId row.worldId).length
  state : ∃ state, replay py (eventRows db row.tenantId row.worldId) = .ok state ∧
    row.state = state.canon
  snapshots : ∀ s ∈ db.worldSnapshots.rows, s.tenantId = row.tenantId → s.worldId = row.worldId →
    0 ≤ s.version ∧ s.version ≤ row.currentVersion ∧
    ∃ state, replay py ((eventRows db row.tenantId row.worldId).take (s.version.toNat + 1)) =
      .ok state ∧ s.state = state.canon
  snapshotted : ∀ v, 0 ≤ v → v ≤ row.currentVersion →
    ∃ s, db.worldSnapshots.get (row.tenantId, row.worldId, v) = some s
  verified : ∃ v, verifyWorld py db row.tenantId row.worldId = .ok v ∧ v.passed = true

end

section
variable {py : Python}

theorem Call.sound (c : Call) {db : WorldDb} (hdb : Sound py db) : CallSound py db (c.run py db) := by
  cases c with
  | createWorld => exact createWorld_sound hdb ..
  | appendEvent => exact appendEvent_sound hdb ..
  | restoreVersion => exact restoreVersion_sound hdb ..

theorem afterCalls_sound (calls : List Call) : Sound py (afterCalls py calls) :=
  exec_invariant (fun _ c h => (c.sound h).sound) sound_empty calls

theorem WorldSound.verified {db : WorldDb} {row : WorldRow} (h : WorldSound py db row)
    (hget : db.worlds.get row.key = some row) :
    ∃ v, verifyWorld py db row.tenantId row.worldId = .ok v ∧ v.passed = true := by
  obtain ⟨state, hash, hchain, hstate, hsha⟩ := h.chain
  have hne : eventRows db row.tenantId row.worldId ≠ [] := by
    intro hnil
    have hc := h.created
    rw [hnil] at hc
    cases hc
  have hfirst : ∃ first rest, eventRows db row.tenantId row.worldId = first :: rest ∧
      first.eventType = "WORLD_CREATED" := by
    cases hl : eventRows db row.tenantId row.worldId with
    | nil => exact absurd hl hne
    | cons first rest =>
      have hc := h.created
      rw [hl] at hc
      exact ⟨first, rest, rfl, Option.some.inj hc⟩
  obtain ⟨first, rest, hrows, htype⟩ := hfirst
  obtain ⟨last, hverify, -, hlast⟩ := hchain.verifies ⟨true, true, true, true, true⟩
    h.tenant h.world
  have hworld : getWorld db row.tenantId row.worldId = .ok { row.snapshot with
      eventHash := (eventRows db row.tenantId row.worldId).getLast?.map EventRow.eventHash
      createdAt := row.updatedAt } := by
    have hg : db.worlds.get (row.tenantId, row.worldId) = some row := hget
    simp only [getWorld, h.tenant, h.world, bind, Except.bind, hg]
    rfl
  have hcur : pyEq row.snapshot.state (.obj state) = true := by
    rw [show row.snapshot.state = row.state from rfl, hstate]
    exact pyEq_canon _
  have hcurSha : row.snapshot.stateSha256 = sha256Json py.sha256 (.obj state) := hsha
  rw [hlast hne] at hverify
  simp only [hrows] at hverify hworld
  refine ⟨⟨row.tenantId, row.worldId, (first :: rest).length, ⟨true, true, true, true, true⟩, true,
    false⟩, ?_, rfl⟩
  simp [verifyWorld, events, h.tenant, h.world, hrows, bind, Except.bind, pure, Except.pure, htype,
    hverify, hworld, hcur, hcurSha, Checks.passed]

theorem Sound.integrity {db : WorldDb} (hdb : Sound py db) {row : WorldRow}
    (hrow : row ∈ db.worlds.rows) : WorldIntegrity py db row := by
  have hget := Table.get_of_mem hrow
  have hworld := hdb.worlds _ _ hget
  obtain ⟨state, hash, hchain, hstate, _⟩ := hworld.chain
  refine ⟨hchain.versions, ?_, hchain.version_eq, ⟨_, hchain.replay_eq, hstate⟩, ?_, ?_,
    hworld.verified hget⟩
  · intro hnil
    have hc := hworld.created
    rw [hnil] at hc
    cases hc
  · intro s hs ht hw
    obtain ⟨r, hr, h0, hle⟩ := hdb.snapshots s hs
    have hrr : r = row := Option.some.inj (hr.symm.trans (by rw [ht, hw]; exact hget))
    rw [hrr] at hle
    obtain ⟨s', hs', w, hw', hsw⟩ := hchain.snapshot_eq h0 hle
    have hss : s' = s := by
      have hself := Table.get_of_mem hs
      simp only [SnapshotRow.key, ht, hw] at hself
      exact Option.some.inj (hs'.symm.trans hself)
    exact ⟨h0, hle, w, hw', hss ▸ hsw⟩
  · intro v h0 hv
    obtain ⟨s, hs, _⟩ := hchain.snapshot_eq h0 hv
    exact ⟨s, hs⟩

end

/-- **Integrity of the world store.** After any calls, every world is the fold of its
log at every version and passes verification, and a call that raises has changed
nothing. -/
theorem store_integrity (py : Python) (calls : List Call) :
    (∀ row ∈ (afterCalls py calls).worlds.rows, WorldIntegrity py (afterCalls py calls) row) ∧
    ∀ (c : Call) (e : PyError), (c.run py (afterCalls py calls)).1 = .error e →
      (c.run py (afterCalls py calls)).2 = afterCalls py calls :=
  ⟨fun _ hrow => (afterCalls_sound calls).integrity hrow,
    fun c e he => (c.sound (afterCalls_sound calls)).raised e he⟩

end Edon.World
