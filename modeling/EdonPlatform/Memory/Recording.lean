import EdonPlatform.Memory.Store

/- What recording an episode does. `record_episode` is idempotent in the content of the
   episode: an identity that is free gets a row and one audit event, an identity that has
   this content already is answered with its row, and everything else raises and writes
   nothing.

   What is proved: `recordEpisode_error` and `recordEpisode_ok`, the two outcomes of a
   call, and `contentSha256_eq`, that rows with one content hash are of one world and
   have the same source events. -/
namespace Edon.Memory
open Json

section
variable {py : Python} {db db' : MemoryDb}

/-! ## Content -/

theorem map_str_injective : Function.Injective (List.map Json.str) := by
  apply List.map_injective_iff.mpr
  intro s t h
  exact Json.str.inj h

variable (py) in
theorem toJson_fields (e : Episode) : ∃ kvs, e.toJson py = .obj kvs ∧
    Assoc.find kvs "world_id" = some (.str e.worldId) ∧
    Assoc.find kvs "source_event_ids" = some (.arr (e.sourceEventIds.map .str)) :=
  ⟨_, rfl, rfl, rfl⟩

/-- Rows with one content hash agree on the content; here the two parts others refer to. -/
theorem contentSha256_eq {e e' : Episode} (hsha : Function.Injective py.sha256)
    (h : e.contentSha256 py = e'.contentSha256 py) :
    e.worldId = e'.worldId ∧ e.sourceEventIds = e'.sourceEventIds := by
  obtain ⟨kvs, hkvs, hworld, hsources⟩ := toJson_fields py e
  obtain ⟨kvs', hkvs', hworld', hsources'⟩ := toJson_fields py e'
  have hsame := same_of_sha256Json hsha h
  rw [hkvs, hkvs', same_obj_iff] at hsame
  have hw := hsame "world_id"
  have hs := hsame "source_event_ids"
  rw [hworld, hworld'] at hw
  rw [hsources, hsources'] at hs
  refine ⟨Json.str.inj (Option.some.inj hw), map_str_injective ?_⟩
  have harr := Json.arr.inj (Option.some.inj hs)
  rw [canonList_eq_map, canonList_eq_map, List.map_map, List.map_map] at harr
  exact harr

/-- A value that one of two branches computes and the rest of the function uses. -/
theorem branch_ok {α β : Type} {c : Prop} [Decidable c] {x y : Except PyError α}
    {f : α → Except PyError β} {b : β}
    (h : (if c then x >>= f else y >>= f) = .ok b) : ∃ a, f a = .ok b := by
  split at h
  · obtain ⟨a, _, h⟩ := bind_ok.mp h
    exact ⟨a, h⟩
  · obtain ⟨a, _, h⟩ := bind_ok.mp h
    exact ⟨a, h⟩

theorem episodeOf_ok {tenantId memoryId worldId episodeType summary : String} {payload : Json}
    {occurredAt sensitivity actorId authorizationRef : String} {sourceEventIds : List String}
    {provenance : Json} {retentionUntil : Option String} {e : Episode}
    (h : episodeOf py tenantId memoryId worldId episodeType summary payload occurredAt sensitivity
      actorId authorizationRef sourceEventIds provenance retentionUntil = .ok e) :
    e.key = (strip tenantId, strip memoryId) ∧ e.worldId = strip worldId ∧
      ∀ id ∈ sourceEventIds, strip id ∈ e.sourceEventIds := by
  obtain ⟨tenant, htenant, h⟩ := bind_ok.mp h
  obtain ⟨memory, hmemory, h⟩ := bind_ok.mp h
  obtain ⟨world, hworld, h⟩ := bind_ok.mp h
  obtain ⟨_, _, h⟩ := bind_ok.mp h
  obtain ⟨_, _, h⟩ := bind_ok.mp h
  obtain ⟨_, _, h⟩ := bind_ok.mp h
  obtain ⟨_, _, h⟩ := bind_ok.mp h
  obtain ⟨_, _, h⟩ := bind_ok.mp h
  -- the provenance is checked or left empty
  obtain ⟨_, h⟩ := branch_ok h
  obtain ⟨_, _, h⟩ := bind_ok.mp h
  obtain ⟨_, _, h⟩ := bind_ok.mp h
  obtain ⟨_, _, h⟩ := bind_ok.mp h
  obtain ⟨_, _, h⟩ := bind_ok.mp h
  obtain ⟨sources, hsources, h⟩ := bind_ok.mp h
  obtain ⟨_, _, h⟩ := bind_ok.mp h
  cases h
  refine ⟨?_, identifier_ok hworld, ?_⟩
  · show (tenant, memory) = (strip tenantId, strip memoryId)
    rw [identifier_ok htenant, identifier_ok hmemory]
  · intro id hid
    obtain ⟨source, hsource, hok⟩ := result_of_mapM hsources id hid
    rw [← identifier_ok hok]
    exact mem_sortedSet.mpr hsource

/-! ## The store -/

/-- The store got this one episode, with its audit event, and nothing else. -/
structure MemoryDb.Remembers (db : MemoryDb) (key : String × String) (db' : MemoryDb) : Prop where
  fresh : db.entries.get key = none
  row : ∃ row : EpisodeRow, row.key = key ∧ db'.entries.rows = db.entries.rows ++ [row]
  tombstones : db'.tombstones = db.tombstones
  audit : ∃ event : AuditRow, event.action = .recorded ∧ (event.tenantId, event.memoryId) = key ∧
    db'.audit = db.audit ++ [event]

theorem appendAudit_eq {e : AuditEvent} {audit audit' : List AuditRow}
    (h : appendAudit py e audit = .ok audit') :
    ∃ row : AuditRow, row.action = e.action ∧ row.tenantId = e.tenantId ∧
      row.memoryId = e.memoryId ∧ audit' = audit ++ [row] := by
  unfold appendAudit at h
  dsimp only at h
  split at h
  · cases h
  · cases h
    exact ⟨_, rfl, rfl, rfl, rfl⟩

theorem recordTx_ok {e : Episode} {createdAt : String} {row : EpisodeRow}
    (h : recordTx py e createdAt db = .ok (row, db')) :
    db'.entries.get e.key = some row ∧ row.contentSha256 py = e.contentSha256 py ∧
      (db' = db ∨ db.Remembers e.key db') := by
  unfold recordTx at h
  split at h
  · next existing hexisting =>
    split at h
    · cases h
    · next hhash =>
      cases h
      exact ⟨hexisting, not_not.mp hhash, .inl rfl⟩
  · next hfresh =>
    obtain ⟨entries, hentries, h⟩ := bind_ok.mp h
    obtain ⟨audit, haudit, h⟩ := bind_ok.mp h
    cases h
    have hinsert : db.entries.insert { e with createdAt } = some entries := by
      cases hi : db.entries.insert { e with createdAt } with
      | none => rw [hi] at hentries; cases hentries
      | some t => rw [hi] at hentries; cases hentries; rfl
    obtain ⟨event, haction, htenant, hmemory, happend⟩ := appendAudit_eq haudit
    refine ⟨?_, rfl, .inr ⟨hfresh, ⟨{ e with createdAt }, rfl, (Table.rows_insert hinsert).1⟩, rfl,
      event, haction, ?_, happend⟩⟩
    · rw [Table.get_insert hinsert]
      exact if_pos rfl
    · rw [htenant, hmemory]
      rfl

variable {now : Instant} {tenantId memoryId worldId episodeType summary : String} {payload : Json}
  {occurredAt sensitivity actorId authorizationRef : String} {sourceEventIds : List String}
  {provenance : Json} {retentionUntil timestamp : Option String}

/-- A call that raises writes nothing. -/
theorem recordEpisode_error {e : PyError}
    (h : recordEpisode py now tenantId memoryId worldId episodeType summary payload occurredAt
      sensitivity actorId authorizationRef sourceEventIds provenance retentionUntil timestamp db =
        (.error e, db')) : db' = db := by
  unfold recordEpisode at h
  split at h
  · cases h
    rfl
  · unfold committing at h
    split at h
    · cases h
      rfl
    · cases h

/-- A call that returns leaves a row of this identity, in this world and with these source
events, and writes at most that. -/
theorem recordEpisode_ok {row : EpisodeRow} (hsha : Function.Injective py.sha256)
    (h : recordEpisode py now tenantId memoryId worldId episodeType summary payload occurredAt
      sensitivity actorId authorizationRef sourceEventIds provenance retentionUntil timestamp db =
        (.ok row, db')) :
    db'.entries.get (strip tenantId, strip memoryId) = some row ∧ row.worldId = strip worldId ∧
      (∀ id ∈ sourceEventIds, strip id ∈ row.sourceEventIds) ∧
      (db' = db ∨ db.Remembers (strip tenantId, strip memoryId) db') := by
  unfold recordEpisode at h
  split at h
  · cases h
  · next e he =>
    unfold committing at h
    split at h
    · cases h
    · next row' db'' htx =>
      cases h
      obtain ⟨hkey, hworld, hsources⟩ := episodeOf_ok he
      obtain ⟨hget, hhash, hwrote⟩ := recordTx_ok htx
      obtain ⟨hworld', hsources'⟩ := contentSha256_eq hsha hhash
      rw [hkey] at hget hwrote
      rw [hworld', hsources']
      exact ⟨hget, hworld, hsources, hwrote⟩

end
end Edon.Memory
