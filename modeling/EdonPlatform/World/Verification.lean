import EdonPlatform.World.Integrity

/- What `verify_world` vouches for, over every content of the world tables.

   What is proved:
     1. `verifyRecords_ok` — a loop whose versions were contiguous has read versions
        that count up from the one it started with, and carries the fold of the
        mutations it read.
     2. `verifyWorld_passed` — so the state of a world that passes is Python-equal to the
        fold of its events, and its `state_sha256` is the hash of that fold.
     3. `verifyWorld_withVersion` — no check reads `worlds.current_version`.
     4. `vouched_iff` — a world that passes is at the version of its last event, in the
        state of its events, with snapshots of its events, exactly when the columns the
        verifier leaves unread agree with the others (`Unaltered`).

   Correspondence: `verify_world`, `get_world`, `state_at`, `events` of
   edon/world/store.py are the definitions of `World.Store`. -/
namespace Edon.World
open Json

section
variable (py : Python)

/-- What a report that passed is to say of a world. -/
structure Vouched (db : WorldDb) (row : WorldRow) : Prop where
  version : (eventRows db row.tenantId row.worldId).getLast?.map (·.resultingVersion) =
    some row.currentVersion
  state : ∃ state, replay py (eventRows db row.tenantId row.worldId) = .ok state ∧
    Same row.state state
  snapshots : ∀ s ∈ db.worldSnapshots.rows, s.tenantId = row.tenantId → s.worldId = row.worldId →
    ∃ e ∈ eventRows db row.tenantId row.worldId,
      e.resultingVersion = s.version ∧ s.eventHash = e.eventHash

/-- The columns `verify_world` leaves unread, as the store writes them: the version
counts the events, the state's text is the one its own hash is of, and the snapshot at a
version carries the hash of the event at that position. -/
structure Unaltered (db : WorldDb) (row : WorldRow) : Prop where
  version : row.currentVersion + 1 = (eventRows db row.tenantId row.worldId).length
  state : row.stateSha256 = sha256Json py.sha256 row.state
  snapshots : ∀ s ∈ db.worldSnapshots.rows, s.tenantId = row.tenantId → s.worldId = row.worldId →
    ∃ i : Nat, s.version = i ∧
      (eventRows db row.tenantId row.worldId)[i]?.map EventRow.eventHash = some s.eventHash

end

section
variable {py : Python}

/-! ## The loop -/

/-- What the loop has done between two of its states. -/
structure Reads (py : Python) (rows : List EventRow) (r r' : Replay) : Prop where
  state : rows.foldlM (fun state row => applyMutations py state row.mutations)
    (r.state.getD (.obj [])) = .ok (r'.state.getD (.obj []))
  read : rows ≠ [] → r'.state ≠ none
  contiguous : r'.checks.versionsContiguous = true → r.checks.versionsContiguous = true ∧
    ∀ i : Nat, ∀ row, rows[i]? = some row → row.resultingVersion = r.previousVersion + 1 + i

theorem verifyRecord_reads {db : WorldDb} {t w : String} {r r' : Replay} {row : EventRow}
    (h : verifyRecord py db t w r row = .ok r') :
    applyMutations py (r.state.getD (.obj [])) row.mutations = .ok (r'.state.getD (.obj [])) ∧
    r'.state ≠ none ∧ r'.previousVersion = row.resultingVersion ∧
    (r'.checks.versionsContiguous = true → r.checks.versionsContiguous = true ∧
      row.resultingVersion = r.previousVersion + 1) := by
  unfold verifyRecord at h
  obtain ⟨state, hstate, h⟩ := bind_ok.mp h
  cases h
  refine ⟨hstate, Option.some_ne_none _, rfl, ?_⟩
  intro hc
  obtain ⟨hbefore, hhere⟩ := Bool.and_eq_true_iff.mp hc
  exact ⟨hbefore, (of_decide_eq_true hhere).2⟩

/-- The induction is on the rows; the version a row is compared with is the one before it. -/
theorem verifyRecords_ok {db : WorldDb} {t w : String} {rows : List EventRow} :
    ∀ {r r' : Replay}, verifyRecords py db t w r rows = .ok r' → Reads py rows r r' := by
  induction rows with
  | nil =>
    intro r r' h
    cases h
    exact ⟨rfl, fun hne => absurd rfl hne, fun hc => ⟨hc, fun i row hi => by cases hi⟩⟩
  | cons first rest ih =>
    intro r r' h
    obtain ⟨r₁, hfirst, hrest⟩ := bind_ok.mp h
    obtain ⟨hstate, hsome, hversion, hcontiguous⟩ := verifyRecord_reads hfirst
    have hreads := ih hrest
    refine ⟨?_, ?_, ?_⟩
    · rw [List.foldlM_cons, hstate]
      exact hreads.state
    · intro _
      cases rest with
      | nil =>
        cases hrest
        exact hsome
      | cons next rest => exact hreads.read (List.cons_ne_nil _ _)
    · intro hc
      obtain ⟨hc₁, hversions⟩ := hreads.contiguous hc
      obtain ⟨hc₀, hhere⟩ := hcontiguous hc₁
      refine ⟨hc₀, ?_⟩
      intro i row hi
      cases i with
      | zero =>
        cases hi
        omega
      | succ i =>
        have hlater := hversions i row hi
        omega

/-! ## The report -/

theorem events_ok {db : WorldDb} {t w : String} {records : List EventRow}
    (h : events db t w = .ok records) :
    worldIdentifier t "tenant_id" = .ok (strip t) ∧ worldIdentifier w "world_id" = .ok (strip w) ∧
      records = eventRows db (strip t) (strip w) := by
  obtain ⟨t', ht, h⟩ := bind_ok.mp h
  obtain ⟨w', hw, h⟩ := bind_ok.mp h
  cases h
  have ht' : t' = strip t := identifier_ok ht
  have hw' : w' = strip w := identifier_ok hw
  subst ht' hw'
  exact ⟨ht, hw, rfl⟩

theorem getWorld_ok {db : WorldDb} {t w : String} {current : Snapshot}
    (ht : worldIdentifier t "tenant_id" = .ok (strip t))
    (hw : worldIdentifier w "world_id" = .ok (strip w)) (h : getWorld db t w = .ok current) :
    ∃ row, db.worlds.get (strip t, strip w) = some row ∧ current.state = row.state ∧
      current.stateSha256 = row.stateSha256 := by
  simp only [getWorld, ht, hw, bind, Except.bind] at h
  split at h
  · cases h
  · next row hrow =>
    cases h
    exact ⟨row, hrow, rfl, rfl⟩

/-- What the checks of a report that passed establish: the versions of the events count
from 0, and the world's row holds a value Python-equal to their fold, with its hash. -/
structure Passed (py : Python) (db : WorldDb) (row : WorldRow) (state : Json) : Prop where
  nonempty : eventRows db row.tenantId row.worldId ≠ []
  versions : ∀ i : Nat, ∀ e, (eventRows db row.tenantId row.worldId)[i]? = some e →
    e.resultingVersion = i
  replayed : replay py (eventRows db row.tenantId row.worldId) = .ok state
  equal : pyEq row.state state = true
  stateHash : row.stateSha256 = sha256Json py.sha256 state

theorem verifyWorld_passed {db : WorldDb} {t w : String} {v : Verification}
    (h : verifyWorld py db t w = .ok v) (hp : v.passed = true) :
    ∃ row state, db.worlds.get (strip t, strip w) = some row ∧ Passed py db row state := by
  unfold verifyWorld at h
  obtain ⟨records, hrecords, h⟩ := bind_ok.mp h
  obtain ⟨ht, hw, hrows⟩ := events_ok hrecords
  obtain ⟨r, hloop, h⟩ := bind_ok.mp h
  cases h
  simp only [Checks.passed, Bool.and_eq_true] at hp
  obtain ⟨⟨⟨⟨hcreated, _⟩, hcontiguous⟩, _⟩, _, hcurrent⟩ := hp
  have hreads := verifyRecords_ok hloop
  split at hcurrent
  · next current state hworld hstate =>
    obtain ⟨row, hrow, hrowState, hrowHash⟩ := getWorld_ok ht hw hworld
    have hkey := Table.get_key hrow
    have hkt : row.tenantId = strip t := congrArg Prod.fst hkey
    have hkw : row.worldId = strip w := congrArg Prod.snd hkey
    have hfold := hreads.state
    rw [hstate] at hfold
    rw [Bool.and_eq_true, decide_eq_true_eq, hrowState, hrowHash] at hcurrent
    refine ⟨row, state, hrow, ?_⟩
    rw [← hkt, ← hkw] at hrows
    subst hrows
    refine ⟨?_, ?_, hfold, hcurrent.1, hcurrent.2⟩
    · intro hnil
      have hnone := hreads.state
      rw [hnil] at hloop
      cases hloop
      cases hstate
    · intro i e he
      have hversion := (hreads.contiguous hcontiguous).2 i e he
      rw [hversion]
      exact zero_add _
  · cases hcurrent

/-! ## What is left unread -/

def WorldRow.withVersion (version : Int) (r : WorldRow) : WorldRow :=
  { r with currentVersion := version }

theorem WorldRow.withVersion_key (version : Int) (r : WorldRow) :
    (r.withVersion version).key = r.key := rfl

/-- `UPDATE worlds SET current_version = ? WHERE tenant_id = ? AND world_id = ?`. -/
def WorldDb.withVersion (db : WorldDb) (key : String × String) (version : Int) : WorldDb :=
  let worlds := db.worlds.modify key (WorldRow.withVersion version)
    (WorldRow.withVersion_key version)
  { db with worlds }

theorem getWorld_withVersion (db : WorldDb) (key : String × String) (version : Int)
    (t w : String) : getWorld (db.withVersion key version) t w = (getWorld db t w).map
      (fun s => if key = (s.tenantId, s.worldId) then { s with version } else s) := by
  unfold getWorld
  cases worldIdentifier t "tenant_id" with
  | error e => rfl
  | ok t' =>
    cases worldIdentifier w "world_id" with
    | error e => rfl
    | ok w' =>
      have hget : (db.withVersion key version).worlds.get (t', w') =
          if key = (t', w') then (db.worlds.get (t', w')).map (WorldRow.withVersion version)
          else db.worlds.get (t', w') :=
        Table.get_modify _ _ _ _ (WorldRow.withVersion_key version)
      simp only [bind, Except.bind, hget]
      cases hrow : db.worlds.get (t', w') with
      | none => rw [Option.map_none, ite_self]; rfl
      | some row =>
        have hkey : row.key = (t', w') := Table.get_key hrow
        have hself : (row.snapshot.tenantId, row.snapshot.worldId) = (t', w') := hkey
        by_cases hk : key = (t', w')
        · simp only [if_pos hk, Option.map_some, pure, Except.pure, Except.map, hself]
          rfl
        · simp only [if_neg hk, pure, Except.pure, Except.map, hself]
          rfl

theorem verifyRecords_withVersion (db : WorldDb) (key : String × String) (version : Int)
    (t w : String) (rows : List EventRow) : ∀ r, verifyRecords py (db.withVersion key version) t w
      r rows = verifyRecords py db t w r rows := by
  induction rows with
  | nil => exact fun _ => rfl
  | cons row rows ih =>
    intro r
    show (verifyRecord py db t w r row >>= fun r' =>
      verifyRecords py (db.withVersion key version) t w r' rows) = _
    simp only [ih]
    rfl

/-- A world may claim any version: the report is the same. -/
theorem verifyWorld_withVersion (db : WorldDb) (key : String × String) (version : Int)
    (t w : String) : verifyWorld py (db.withVersion key version) t w = verifyWorld py db t w := by
  have hevents : events (db.withVersion key version) t w = events db t w := rfl
  unfold verifyWorld
  simp only [hevents, verifyRecords_withVersion, getWorld_withVersion]
  refine bind_congr fun records => bind_congr fun replay => ?_
  cases getWorld db t w with
  | error e => rfl
  | ok s =>
    -- the state and its hash are the same whether the row was altered or not
    by_cases hk : key = (s.tenantId, s.worldId)
    · simp only [Except.map, if_pos hk]
      cases replay.state <;> rfl
    · simp only [Except.map, if_neg hk]

/-! ## What a report is worth -/

/-- The event at the position a snapshot's version names is the one that produced it. -/
theorem Passed.snapshot_iff {db : WorldDb} {row : WorldRow} {state : Json}
    (h : Passed py db row state) (s : SnapshotRow) :
    (∃ e ∈ eventRows db row.tenantId row.worldId,
      e.resultingVersion = s.version ∧ s.eventHash = e.eventHash) ↔
    ∃ i : Nat, s.version = i ∧
      (eventRows db row.tenantId row.worldId)[i]?.map EventRow.eventHash = some s.eventHash := by
  constructor
  · rintro ⟨e, he, hversion, hhash⟩
    obtain ⟨i, hi⟩ := List.mem_iff_getElem?.mp he
    have hei := h.versions i e hi
    refine ⟨i, hversion.symm.trans hei, ?_⟩
    rw [hi, hhash]
    rfl
  · rintro ⟨i, hversion, hhash⟩
    obtain ⟨e, hi, hhash⟩ := Option.map_eq_some_iff.mp hhash
    refine ⟨e, List.mem_of_getElem? hi, ?_, hhash.symm⟩
    rw [h.versions i e hi, hversion]

theorem Passed.version_iff {db : WorldDb} {row : WorldRow} {state : Json}
    (h : Passed py db row state) :
    (eventRows db row.tenantId row.worldId).getLast?.map (·.resultingVersion) =
      some row.currentVersion ↔
    row.currentVersion + 1 = (eventRows db row.tenantId row.worldId).length := by
  have hpos : 0 < (eventRows db row.tenantId row.worldId).length :=
    List.length_pos_iff.mpr h.nonempty
  obtain ⟨last, hlast⟩ : ∃ last, (eventRows db row.tenantId row.worldId).getLast? = some last :=
    ⟨_, List.getLast?_eq_getLast_of_ne_nil h.nonempty⟩
  have hversion := h.versions _ last (List.getLast?_eq_getElem? ▸ hlast)
  rw [hlast, Option.map_some, Option.some.injEq, hversion]
  omega

theorem Passed.vouched_iff_unaltered (hinj : Function.Injective py.sha256) {db : WorldDb} {row : WorldRow}
    {state : Json} (h : Passed py db row state) : Vouched py db row ↔ Unaltered py db row := by
  have hstate : (∃ state, replay py (eventRows db row.tenantId row.worldId) = .ok state ∧
      Same row.state state) ↔ row.stateSha256 = sha256Json py.sha256 row.state := by
    constructor
    · rintro ⟨state', hstate', hsame⟩
      cases h.replayed.symm.trans hstate'
      exact h.stateHash.trans (sha256Json_congr _ hsame.symm)
    · intro hhash
      exact ⟨state, h.replayed, same_of_sha256Json hinj (hhash.symm.trans h.stateHash)⟩
  constructor
  · intro hv
    exact ⟨h.version_iff.mp hv.version, hstate.mp hv.state,
      fun s hs ht hw => (h.snapshot_iff s).mp (hv.snapshots s hs ht hw)⟩
  · intro hu
    exact ⟨h.version_iff.mpr hu.version, hstate.mpr hu.state,
      fun s hs ht hw => (h.snapshot_iff s).mpr (hu.snapshots s hs ht hw)⟩

end

/-- **What a report is worth.** On every content of the tables that passes, the world is
at the version of its last event, in the state its events fold to, with the snapshots of
its events, exactly when the columns the verifier leaves unread agree. -/
theorem vouched_iff (py : Python) (hinj : Function.Injective py.sha256) (db : WorldDb)
    (tenantId worldId : String) (v : Verification)
    (h : verifyWorld py db tenantId worldId = .ok v) (hp : v.passed = true) :
    ∃ row, db.worlds.get (strip tenantId, strip worldId) = some row ∧
      (Vouched py db row ↔ Unaltered py db row) := by
  obtain ⟨row, state, hrow, hpassed⟩ := verifyWorld_passed h hp
  exact ⟨row, hrow, hpassed.vouched_iff_unaltered hinj⟩

/-- A runtime whose digest of a text is the text. -/
def textPython : Python where
  repr := fun _ => ""
  sha256 := id
  fromisoformat := fun _ => .invalid
  isoformat := fun _ => ""

/-- One world, created and left alone. -/
def createdWard : WorldDb := afterCalls textPython
  [.createWorld "2026-01-01T00:00:00Z" "clinic" "ward" (.obj []) "kernel" "token-1" [] none]

theorem createdWard_passes :
    ∃ v, verifyWorld textPython createdWard "clinic" "ward" = .ok v ∧ v.passed = true := by
  obtain ⟨row, hrow, hkey⟩ : ∃ row, createdWard.worlds.rows = [row] ∧
      row.tenantId = "clinic" ∧ row.worldId = "ward" := ⟨_, rfl, by decide, by decide⟩
  have hmem : row ∈ createdWard.worlds.rows := hrow ▸ List.mem_singleton_self _
  have hverified := ((afterCalls_sound _).integrity hmem).verified
  rwa [hkey.1, hkey.2] at hverified

theorem vouched_iff_createdWard :
    ∃ row, createdWard.worlds.get (strip "clinic", strip "ward") = some row ∧
      (Vouched textPython createdWard row ↔ Unaltered textPython createdWard row) := by
  obtain ⟨v, hv, hp⟩ := createdWard_passes
  exact vouched_iff textPython Function.injective_id createdWard "clinic" "ward" v hv hp

/-- The ward claims to be at version 7, passes, and is at version 0 by its only event. -/
theorem altered_version_passes :
    (∃ v, verifyWorld textPython (createdWard.withVersion ("clinic", "ward") 7) "clinic" "ward" =
      .ok v ∧ v.passed = true) ∧
    ¬ ∃ row, (createdWard.withVersion ("clinic", "ward") 7).worlds.get ("clinic", "ward") =
        some row ∧ Vouched textPython (createdWard.withVersion ("clinic", "ward") 7) row := by
  refine ⟨?_, ?_⟩
  · rw [verifyWorld_withVersion]
    exact createdWard_passes
  · rintro ⟨row, hrow, hvouched⟩
    have hlast : (eventRows createdWard "clinic" "ward").getLast?.map (·.resultingVersion) =
      some 0 := by decide +kernel
    have hrow' : ((createdWard.withVersion ("clinic", "ward") 7).worlds.get
      ("clinic", "ward")).map (·.currentVersion) = some 7 := by decide +kernel
    rw [hrow, Option.map_some, Option.some.injEq] at hrow'
    have hkey : row.key = ("clinic", "ward") := Table.get_key hrow
    have ht : row.tenantId = "clinic" := congrArg Prod.fst hkey
    have hw : row.worldId = "ward" := congrArg Prod.snd hkey
    have hversion := hvouched.version
    rw [ht, hw, hrow'] at hversion
    cases hlast.symm.trans hversion

end Edon.World
