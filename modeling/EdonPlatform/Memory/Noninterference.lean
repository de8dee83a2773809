import EdonPlatform.Memory.Store
import EdonPlatform.Lib.Run

/- What a reader of the episodic memory learns. `get_episode` and `query` look at the
   entries of the caller's tenant that have no tombstone, and drop those whose
   sensitivity is not among the allowed ones and those whose retention has ended before
   they count, rank or cut anything.

   What is proved: `memory_noninterference`, that two stores with the same live entries of
   a tenant and of the allowed sensitivities answer the two reads of that tenant alike,
   whatever else is in them. The one thing a read shares with the rest of the store is
   the audit, where a hash may occur only once: `appendAudit_ok` shows that it never
   refuses an event, since in the audit of every store the operations lead to each event
   names the hash of an earlier one (`linked_exec`). -/
namespace Edon.Memory
open Json Transition

/-! ## The audit -/

/-- Every row has the hash of its event, which no other has, and names an earlier one. -/
inductive Linked (py : Python) : List AuditRow → Prop where
  | nil : Linked py []
  | snoc {rows : List AuditRow} {row : AuditRow} : Linked py rows →
      (∃ e : AuditEvent, e.tenantId = row.tenantId ∧
        row.auditHash = sha256Json py.sha256 (auditJson e row.previousHash)) →
      (row.previousHash = "GENESIS" ∨ ∃ r ∈ rows, r.auditHash = row.previousHash) →
      (∀ r ∈ rows, r.auditHash ≠ row.auditHash) → Linked py (rows ++ [row])

section
variable {py : Python} {audit : List AuditRow}

/-- The hash of an event tells its tenant and the hash it names. -/
theorem auditJson_eq {e e' : AuditEvent} {p p' : String} (hsha : Function.Injective py.sha256)
    (h : sha256Json py.sha256 (auditJson e p) = sha256Json py.sha256 (auditJson e' p')) :
    e.tenantId = e'.tenantId ∧ p = p' := by
  have hsame := same_obj_iff.mp (same_of_sha256Json hsha h)
  have htenant := hsame "tenant_id"
  have hprevious := hsame "previous_hash"
  exact ⟨by simpa [Assoc.find, canon] using htenant, by simpa [Assoc.find, canon] using hprevious⟩

theorem sha256Json_ne_genesis (sha256 : String → String) (v : Json) :
    sha256Json sha256 v ≠ "GENESIS" := by
  intro h
  have hchars := congrArg String.toList h
  unfold sha256Json at hchars
  rw [String.toList_append] at hchars
  exact absurd (congrArg List.head? hchars) (by simp)

theorem Linked.hashed (h : Linked py audit) {r : AuditRow} (hr : r ∈ audit) :
    ∃ e : AuditEvent, e.tenantId = r.tenantId ∧
      r.auditHash = sha256Json py.sha256 (auditJson e r.previousHash) := by
  induction h with
  | nil => cases hr
  | snoc _ hhash _ _ ih =>
    rcases List.mem_append.mp hr with hr | hr
    · exact ih hr
    · rw [List.mem_singleton.mp hr]
      exact hhash

theorem Linked.previous (h : Linked py audit) {r : AuditRow} (hr : r ∈ audit) :
    r.previousHash = "GENESIS" ∨ ∃ s ∈ audit, s.auditHash = r.previousHash := by
  induction h with
  | nil => cases hr
  | @snoc rows row _ _ hprevious _ ih =>
    have hmem : r.previousHash = "GENESIS" ∨ ∃ s ∈ rows, s.auditHash = r.previousHash := by
      rcases List.mem_append.mp hr with hr | hr
      · exact ih hr
      · rw [List.mem_singleton.mp hr]
        exact hprevious
    rcases hmem with hgenesis | ⟨s, hs, heq⟩
    · exact .inl hgenesis
    · exact .inr ⟨s, List.mem_append_left _ hs, heq⟩

theorem lastHash_snoc (rows : List AuditRow) (row : AuditRow) (tenantId : String) :
    lastHash (rows ++ [row]) tenantId =
      if row.tenantId = tenantId then row.auditHash else lastHash rows tenantId := by
  unfold lastHash
  rw [List.filter_append]
  by_cases h : row.tenantId = tenantId
  · simp [h]
  · simp [h]

theorem lastHash_mem (audit : List AuditRow) (tenantId : String) :
    lastHash audit tenantId = "GENESIS" ∨
      ∃ r ∈ audit, r.auditHash = lastHash audit tenantId := by
  unfold lastHash
  cases hlast : (audit.filter (fun r => r.tenantId = tenantId)).getLast? with
  | none => exact .inl rfl
  | some r => exact .inr ⟨r, List.mem_of_mem_filter (List.mem_of_getLast? hlast), rfl⟩

/-- No event of the tenant names its last hash yet. -/
theorem Linked.previous_ne_last (h : Linked py audit) {tenantId : String} {r : AuditRow}
    (hr : r ∈ audit) (htenant : r.tenantId = tenantId) :
    r.previousHash ≠ lastHash audit tenantId := by
  induction h with
  | nil => cases hr
  | @snoc rows row hrows hhash hprevious hfresh ih =>
    -- the hash of the new row is none of the earlier ones, and not that of the start
    have hnew : ∀ p, (p = "GENESIS" ∨ ∃ s ∈ rows, s.auditHash = p) → p ≠ row.auditHash := by
      rintro p (hp | ⟨s, hs, hp⟩) heq
      · obtain ⟨e, _, he⟩ := hhash
        rw [hp, he] at heq
        exact sha256Json_ne_genesis _ _ heq.symm
      · exact hfresh s hs (hp.trans heq)
    rw [lastHash_snoc]
    split
    · rcases List.mem_append.mp hr with hr | hr
      · exact hnew _ (hrows.previous hr)
      · rw [List.mem_singleton.mp hr]
        exact hnew _ hprevious
    · next hother =>
      rcases List.mem_append.mp hr with hr | hr
      · exact ih hr
      · rw [List.mem_singleton.mp hr] at htenant
        exact absurd htenant hother

/-- The audit takes every event. -/
theorem appendAudit_ok (h : Linked py audit) (hsha : Function.Injective py.sha256)
    (e : AuditEvent) : ∃ audit', appendAudit py e audit = .ok audit' ∧ Linked py audit' := by
  have hfresh : ∀ r ∈ audit,
      r.auditHash ≠ sha256Json py.sha256 (auditJson e (lastHash audit e.tenantId)) := by
    intro r hr heq
    obtain ⟨e', htenant, hhash⟩ := h.hashed hr
    rw [hhash] at heq
    obtain ⟨hsame, hprevious⟩ := auditJson_eq hsha heq
    exact h.previous_ne_last hr (htenant.symm.trans hsame) hprevious
  unfold appendAudit
  dsimp only
  rw [if_neg]
  · exact ⟨_, rfl, h.snoc ⟨e, rfl, rfl⟩ (lastHash_mem audit e.tenantId) hfresh⟩
  · intro hany
    obtain ⟨r, hr, heq⟩ := List.any_eq_true.mp hany
    exact hfresh r hr (of_decide_eq_true heq)

/-- An event that was taken leaves the audit linked, whatever the hash function is. -/
theorem appendAudit_linked {e : AuditEvent} {audit' : List AuditRow} (h : Linked py audit)
    (happend : appendAudit py e audit = .ok audit') : Linked py audit' := by
  unfold appendAudit at happend
  dsimp only at happend
  split at happend
  · cases happend
  · next hnone =>
    cases happend
    apply h.snoc ⟨e, rfl, rfl⟩ (lastHash_mem audit e.tenantId)
    intro r hr heq
    exact hnone (List.any_eq_true.mpr ⟨r, hr, by simpa using heq⟩)

end

/-! ## The operations keep the audit linked -/

/-- A call of the store. -/
inductive Call where
  | recordEpisode (now : Instant) (tenantId memoryId worldId episodeType summary : String)
      (payload : Json) (occurredAt sensitivity actorId authorizationRef : String)
      (sourceEventIds : List String) (provenance : Json)
      (retentionUntil timestamp : Option String)
  | getEpisode (now : Instant) (tenantId memoryId actorId : String) (allowed : List String)
      (asOf timestamp : Option String)
  | query (now : Instant) (tenantId text actorId : String) (allowed : List String)
      (worldId : Option String) (episodeTypes : List String) (limit : Int)
      (asOf timestamp : Option String)
  | tombstone (now : Instant) (tenantId memoryId actorId reason authorizationRef : String)
      (timestamp : Option String)

/-- The store after a call, whatever the call returned. -/
def MemoryDb.call (py : Runtime) (db : MemoryDb) : Call → MemoryDb
  | .recordEpisode now tenantId memoryId worldId episodeType summary payload occurredAt sensitivity
      actorId authorizationRef sourceEventIds provenance retentionUntil timestamp =>
    (recordEpisode py.toPython now tenantId memoryId worldId episodeType summary payload occurredAt
      sensitivity actorId authorizationRef sourceEventIds provenance retentionUntil timestamp db).2
  | .getEpisode now tenantId memoryId actorId allowed asOf timestamp =>
    (getEpisode py.toPython now tenantId memoryId actorId allowed asOf timestamp db).2
  | .query now tenantId text actorId allowed worldId episodeTypes limit asOf timestamp =>
    (query py now tenantId text actorId allowed worldId episodeTypes limit asOf timestamp db).2
  | .tombstone now tenantId memoryId actorId reason authorizationRef timestamp =>
    (tombstone py.toPython now tenantId memoryId actorId reason authorizationRef timestamp db).2

section
variable {py : Runtime} {db : MemoryDb}

theorem committing_linked {α : Type} {body : MemoryDb → Except PyError (α × MemoryDb)}
    (h : Linked py.toPython db.audit)
    (hbody : ∀ a db', body db = .ok (a, db') → Linked py.toPython db'.audit) :
    Linked py.toPython (committing body db).2.audit := by
  unfold committing
  split
  · exact h
  · next a db' hok => exact hbody a db' hok

theorem recordTx_linked {e : Episode} {createdAt : String} (h : Linked py.toPython db.audit)
    {row : EpisodeRow} {db' : MemoryDb}
    (hok : recordTx py.toPython e createdAt db = .ok (row, db')) :
    Linked py.toPython db'.audit := by
  unfold recordTx at hok
  split at hok
  · split at hok
    · cases hok
    · cases hok
      exact h
  · obtain ⟨_, _, hok⟩ := bind_ok.mp hok
    obtain ⟨audit, haudit, hok⟩ := bind_ok.mp hok
    cases hok
    exact appendAudit_linked h haudit

theorem getTx_linked {tenantId memoryId actorId : String} {allowed : List Sensitivity}
    {currentTime : Instant} {createdAt : String} (h : Linked py.toPython db.audit) {entry : Entry}
    {db' : MemoryDb}
    (hok : getTx py.toPython tenantId memoryId actorId allowed currentTime createdAt db =
      .ok (entry, db')) : Linked py.toPython db'.audit := by
  obtain ⟨_, _, hok⟩ := bind_ok.mp hok
  obtain ⟨audit, haudit, hok⟩ := bind_ok.mp hok
  cases hok
  exact appendAudit_linked h haudit

theorem queryTx_linked {q : QueryArgs} {createdAt : String} (h : Linked py.toPython db.audit)
    {found : List Entry} {db' : MemoryDb} (hok : queryTx py q createdAt db = .ok (found, db')) :
    Linked py.toPython db'.audit := by
  obtain ⟨audit, haudit, hok⟩ := bind_ok.mp hok
  cases hok
  exact appendAudit_linked h haudit

theorem tombstoneTx_linked {row : TombstoneRow} (h : Linked py.toPython db.audit)
    {result : Tombstoned} {db' : MemoryDb}
    (hok : tombstoneTx py.toPython row db = .ok (result, db')) : Linked py.toPython db'.audit := by
  obtain ⟨entry, _, hok⟩ := bind_ok.mp hok
  split at hok
  · cases hok
    exact h
  · obtain ⟨_, _, hok⟩ := bind_ok.mp hok
    obtain ⟨audit, haudit, hok⟩ := bind_ok.mp hok
    cases hok
    exact appendAudit_linked h haudit

theorem call_linked (h : Linked py.toPython db.audit) (c : Call) :
    Linked py.toPython (db.call py c).audit := by
  cases c with
  | recordEpisode =>
    simp only [MemoryDb.call, recordEpisode]
    split
    · exact h
    · exact committing_linked h (fun _ _ => recordTx_linked h)
  | getEpisode =>
    simp only [MemoryDb.call, getEpisode]
    split
    · exact h
    · exact committing_linked h (fun _ _ => getTx_linked h)
  | query =>
    simp only [MemoryDb.call, query]
    split
    · exact h
    · exact committing_linked h (fun _ _ => queryTx_linked h)
  | tombstone =>
    simp only [MemoryDb.call, tombstone]
    split
    · exact h
    · exact committing_linked h (fun _ _ => tombstoneTx_linked h)

/-- The audit of every store the operations lead to is linked. -/
theorem linked_exec (py : Runtime) (calls : List Call) :
    Linked py.toPython (exec (MemoryDb.call py) ∅ calls).audit := by
  refine exec_invariant (I := fun db : MemoryDb => Linked py.toPython db.audit) ?_ .nil calls
  exact fun _ c h => call_linked h c

end

/-! ## Reads -/

/-- The entries of a tenant a reader may see: no tombstone, an allowed sensitivity, and a
retention that has not ended. -/
def MemoryDb.Live (db : MemoryDb) (tenantId : String) (allowed : List Sensitivity) (t : Instant)
    (row : EpisodeRow) : Prop :=
  row ∈ db.standingRows tenantId ∧ row.sensitivity ∈ allowed ∧ row.expired t = false

/-- The stores have the same live entries. -/
def Agree (tenantId : String) (allowed : List Sensitivity) (t : Instant) (a b : MemoryDb) : Prop :=
  ∀ row, a.Live tenantId allowed t row ↔ b.Live tenantId allowed t row

section
variable {a b : MemoryDb} {tenantId : String} {allowed : List Sensitivity} {t : Instant}

theorem mem_standingRows {db : MemoryDb} {row : EpisodeRow} :
    row ∈ db.standingRows tenantId ↔ row ∈ db.entries.rows ∧ row.tenantId = tenantId ∧
      db.tombstones.get (row.tenantId, row.memoryId) = none := by
  unfold MemoryDb.standingRows
  simp [List.mem_filter]

theorem standing_iff {db : MemoryDb} {memoryId : String} {row : EpisodeRow} :
    db.standing tenantId memoryId = some row ↔
      row ∈ db.standingRows tenantId ∧ row.memoryId = memoryId := by
  rw [mem_standingRows]
  unfold MemoryDb.standing
  constructor
  · intro h
    split at h
    · cases h
    · next hnone =>
      obtain ⟨hmem, hkey⟩ := Table.get_eq_some.mp h
      obtain ⟨rfl, rfl⟩ := Prod.mk.inj hkey
      exact ⟨⟨hmem, rfl, hnone⟩, rfl⟩
  · rintro ⟨⟨hmem, rfl, hnone⟩, rfl⟩
    rw [hnone]
    exact Table.get_eq_some.mpr ⟨hmem, rfl⟩

/-- The row a get may return. -/
theorem visible_eq (h : Agree tenantId allowed t a b) (memoryId : String) :
    (a.standing tenantId memoryId).filter (fun row => row.sensitivity ∈ allowed ∧ ¬ row.expired t) =
      (b.standing tenantId memoryId).filter
        (fun row => row.sensitivity ∈ allowed ∧ ¬ row.expired t) := by
  have hsome : ∀ (db : MemoryDb) row, (db.standing tenantId memoryId).filter
      (fun row => row.sensitivity ∈ allowed ∧ ¬ row.expired t) = some row ↔
        db.Live tenantId allowed t row ∧ row.memoryId = memoryId := by
    intro db row
    rw [Option.filter_eq_some_iff, standing_iff]
    unfold MemoryDb.Live
    simp only [decide_eq_true_eq, Bool.not_eq_true]
    tauto
  apply Option.ext
  intro row
  rw [hsome, hsome, h row]

theorem getTx_eq {py : Python} (hsha : Function.Injective py.sha256) (ha : Linked py a.audit)
    (hb : Linked py b.audit) (h : Agree tenantId allowed t a b) (memoryId actorId createdAt : String) :
    (committing (getTx py tenantId memoryId actorId allowed t createdAt) a).1 =
      (committing (getTx py tenantId memoryId actorId allowed t createdAt) b).1 := by
  unfold committing getTx
  rw [visible_eq h memoryId]
  cases (b.standing tenantId memoryId).filter
      (fun row => row.sensitivity ∈ allowed ∧ ¬ row.expired t) with
  | none => rfl
  | some row =>
    obtain ⟨_, heqa, _⟩ := appendAudit_ok ha hsha (row.readBy py actorId createdAt)
    obtain ⟨_, heqb, _⟩ := appendAudit_ok hb hsha (row.readBy py actorId createdAt)
    simp only [orRaise, bind, Except.bind, heqa, heqb]
    rfl

end

/-! ## Queries -/

section
variable (py : Runtime)

instance : Std.Total (rankedBefore py) where
  total x y := by
    unfold rankedBefore
    rcases lt_trichotomy x.1 y.1 with h | h | h
    · exact .inr (.inl h)
    · rcases lt_trichotomy (py.timestamp x.2.occurredAt) (py.timestamp y.2.occurredAt) with
        ht | ht | ht
      · exact .inr (.inr ⟨h.symm, .inl ht⟩)
      · rcases le_total x.2.memoryId y.2.memoryId with hid | hid
        · exact .inl (.inr ⟨h, .inr ⟨ht, hid⟩⟩)
        · exact .inr (.inr ⟨h.symm, .inr ⟨ht.symm, hid⟩⟩)
      · exact .inl (.inr ⟨h, .inl ht⟩)
    · exact .inl (.inl h)

instance : IsTrans (Nat × EpisodeRow) (rankedBefore py) where
  trans x y z hxy hyz := by
    unfold rankedBefore at hxy hyz ⊢
    rcases hxy with hxy | ⟨hxy, hxy'⟩
    · rcases hyz with hyz | ⟨hyz, _⟩
      · exact .inl (lt_trans hyz hxy)
      · exact .inl (hyz ▸ hxy)
    · rcases hyz with hyz | ⟨hyz, hyz'⟩
      · exact .inl (hxy ▸ hyz)
      · refine .inr ⟨hxy.trans hyz, ?_⟩
        rcases hxy' with hxy' | ⟨hxy', hid⟩
        · rcases hyz' with hyz' | ⟨hyz', _⟩
          · exact .inl (lt_trans hyz' hxy')
          · exact .inl (hyz' ▸ hxy')
        · rcases hyz' with hyz' | ⟨hyz', hid'⟩
          · exact .inl (hxy' ▸ hyz')
          · exact .inr ⟨hxy'.trans hyz', le_trans hid hid'⟩

/-- Two rows that rank alike have the same id and the same score. -/
theorem rankedBefore_antisymm {x y : Nat × EpisodeRow} (h : rankedBefore py x y)
    (h' : rankedBefore py y x) : x.1 = y.1 ∧ x.2.memoryId = y.2.memoryId := by
  unfold rankedBefore at h h'
  rcases h with h | ⟨hscore, h | ⟨htime, hid⟩⟩
  · rcases h' with h' | ⟨h', _⟩ <;> omega
  · rcases h' with h' | ⟨_, h' | ⟨h', _⟩⟩
    · omega
    · exact absurd (lt_trans h h') (lt_irrefl _)
    · exact absurd h (h' ▸ lt_irrefl _)
  · rcases h' with h' | ⟨_, h' | ⟨_, hid'⟩⟩
    · omega
    · exact absurd h' (htime ▸ lt_irrefl _)
    · exact ⟨hscore, le_antisymm hid hid'⟩

variable {py} {a b : MemoryDb} {q : QueryArgs}

/-- Whose live entries a query reads, and when. -/
theorem queryArgs_ok {now : Instant} {tenantId text actorId : String} {allowedValues : List String}
    {worldId : Option String} {episodeTypes : List String} {limit : Int} {asOf : Option String}
    (h : queryArgs py now tenantId text actorId allowedValues worldId episodeTypes limit asOf =
      .ok q) : ∃ t, allowedSensitivities allowedValues = .ok q.allowed ∧
        optionalTime py.toPython asOf "as_of" = .ok t ∧
        q.tenantId = strip tenantId ∧ q.currentTime = t.getD now := by
  obtain ⟨_, htenant, h⟩ := bind_ok.mp h
  obtain ⟨_, _, h⟩ := bind_ok.mp h
  obtain ⟨_, _, h⟩ := bind_ok.mp h
  obtain ⟨_, hallowed, h⟩ := bind_ok.mp h
  obtain ⟨_, _, h⟩ := bind_ok.mp h
  obtain ⟨_, _, h⟩ := bind_ok.mp h
  obtain ⟨t, ht, h⟩ := bind_ok.mp h
  cases h
  exact ⟨t, hallowed, ht, identifier_ok htenant, rfl⟩

theorem standingRows_nodup (db : MemoryDb) (tenantId : String) :
    (db.standingRows tenantId).Nodup :=
  (List.Nodup.of_map _ db.entries.unique).filter _

/-- A row a query admits is live for its tenant. -/
theorem live_of_admits {db : MemoryDb} {row : EpisodeRow}
    (hrow : row ∈ db.standingRows q.tenantId) (hadmits : q.admits row = true) :
    db.Live q.tenantId q.allowed q.currentTime row := by
  unfold QueryArgs.admits at hadmits
  rw [decide_eq_true_eq] at hadmits
  exact ⟨hrow, hadmits.1, by simpa using hadmits.2.2.2⟩

/-- Both stores have the rows a query looks at, in some order. -/
theorem scored_perm (h : Agree q.tenantId q.allowed q.currentTime a b) :
    (q.scored py (a.standingRows q.tenantId)).Perm (q.scored py (b.standingRows q.tenantId)) := by
  have hrows : ((a.standingRows q.tenantId).filter q.admits).Perm
      ((b.standingRows q.tenantId).filter q.admits) := by
    rw [List.perm_ext_iff_of_nodup ((standingRows_nodup a _).filter _)
      ((standingRows_nodup b _).filter _)]
    intro row
    simp only [List.mem_filter]
    constructor
    · rintro ⟨hrow, hadmits⟩
      exact ⟨((h row).mp (live_of_admits hrow hadmits)).1, hadmits⟩
    · rintro ⟨hrow, hadmits⟩
      exact ⟨((h row).mpr (live_of_admits hrow hadmits)).1, hadmits⟩
  exact (hrows.map _).filter _

/-- The rows of one tenant are told apart by their ids. -/
theorem scored_antisymm {db : MemoryDb} : ∀ x ∈ q.scored py (db.standingRows q.tenantId),
    ∀ y ∈ q.scored py (db.standingRows q.tenantId),
    rankedBefore py x y → rankedBefore py y x → x = y := by
  have hmem : ∀ x ∈ q.scored py (db.standingRows q.tenantId),
      x.2 ∈ db.entries.rows ∧ x.2.tenantId = q.tenantId := by
    intro x hx
    obtain ⟨row, hrow, rfl⟩ := List.mem_map.mp (List.mem_filter.mp hx).1
    obtain ⟨hrow, htenant, _⟩ := mem_standingRows.mp (List.mem_filter.mp hrow).1
    exact ⟨hrow, htenant⟩
  intro x hx y hy h h'
  obtain ⟨hscore, hid⟩ := rankedBefore_antisymm py h h'
  obtain ⟨hrow, htenant⟩ := hmem x hx
  obtain ⟨hrow', htenant'⟩ := hmem y hy
  have hkey : x.2.key = y.2.key := Prod.ext (htenant.trans htenant'.symm) hid
  exact Prod.ext hscore (Table.eq_of_key hrow hrow' hkey)

theorem queryTx_eq (hsha : Function.Injective py.sha256) (ha : Linked py.toPython a.audit)
    (hb : Linked py.toPython b.audit) (h : Agree q.tenantId q.allowed q.currentTime a b)
    (createdAt : String) : (committing (queryTx py q createdAt) a).1 =
      (committing (queryTx py q createdAt) b).1 := by
  have hsorted : (q.scored py (a.standingRows q.tenantId)).insertionSort (rankedBefore py) =
      (q.scored py (b.standingRows q.tenantId)).insertionSort (rankedBefore py) :=
    Sorting.sort_congr (scored_perm h) scored_antisymm
  unfold committing queryTx
  dsimp only
  rw [hsorted]
  generalize ((q.scored py (b.standingRows q.tenantId)).insertionSort (rankedBefore py)).take
    q.limit.toNat = selected
  obtain ⟨_, heqa, _⟩ := appendAudit_ok ha hsha (q.event py createdAt selected.length)
  obtain ⟨_, heqb, _⟩ := appendAudit_ok hb hsha (q.event py createdAt selected.length)
  simp only [heqa, heqb, bind, Except.bind]
  rfl

end

/-! ## Noninterference -/

/-- **Memory noninterference.** Two stores that have the same live entries of a tenant and
of the allowed sensitivities at a time give the reads of that tenant at that time the
same answers: the same episode or the same refusal, and for a query the same episodes in
the same order with the same scores. -/
theorem memory_noninterference {py : Runtime} (hsha : Function.Injective py.sha256)
    {a b : MemoryDb} (ha : Linked py.toPython a.audit) (hb : Linked py.toPython b.audit)
    (now : Instant) (tenantId actorId : String) (allowedValues : List String)
    (asOf timestamp : Option String)
    (hagree : ∀ allowed t, allowedSensitivities allowedValues = .ok allowed →
      optionalTime py.toPython asOf "as_of" = .ok t →
      Agree (strip tenantId) allowed (t.getD now) a b) :
    (∀ memoryId,
      (getEpisode py.toPython now tenantId memoryId actorId allowedValues asOf timestamp a).1 =
        (getEpisode py.toPython now tenantId memoryId actorId allowedValues asOf timestamp b).1) ∧
    ∀ text worldId episodeTypes limit,
      (query py now tenantId text actorId allowedValues worldId episodeTypes limit asOf timestamp
        a).1 =
      (query py now tenantId text actorId allowedValues worldId episodeTypes limit asOf timestamp
        b).1 := by
  constructor
  · intro memoryId
    unfold getEpisode
    split
    · rfl
    · next tenant _ _ allowed t hargs =>
      obtain ⟨_, htenant, hargs⟩ := bind_ok.mp hargs
      obtain ⟨_, _, hargs⟩ := bind_ok.mp hargs
      obtain ⟨_, _, hargs⟩ := bind_ok.mp hargs
      obtain ⟨_, hallowed, hargs⟩ := bind_ok.mp hargs
      obtain ⟨_, ht, hargs⟩ := bind_ok.mp hargs
      cases hargs
      cases identifier_ok htenant
      exact getTx_eq hsha ha hb (hagree _ _ hallowed ht) _ _ _
  · intro text worldId episodeTypes limit
    unfold query
    split
    · rfl
    · next q hargs =>
      obtain ⟨t, hallowed, ht, htenant, htime⟩ := queryArgs_ok hargs
      apply queryTx_eq hsha ha hb
      rw [htenant, htime]
      exact hagree q.allowed t hallowed ht

theorem agree_of_filter {a b : MemoryDb} {tenantId : String} {allowed : List Sensitivity}
    {t : Instant}
    (h : (a.standingRows tenantId).filter
        (fun row => row.sensitivity ∈ allowed ∧ row.expired t = false) =
      (b.standingRows tenantId).filter
        (fun row => row.sensitivity ∈ allowed ∧ row.expired t = false)) :
    Agree tenantId allowed t a b := by
  have hlive : ∀ (db : MemoryDb) row, db.Live tenantId allowed t row ↔
      row ∈ (db.standingRows tenantId).filter
        (fun row => row.sensitivity ∈ allowed ∧ row.expired t = false) := by
    intro db row
    rw [List.mem_filter, decide_eq_true_eq]
    rfl
  intro row
  rw [hlive, hlive, h]

/-- A runtime that knows one timestamp. -/
def sampleRuntime : Runtime where
  repr := fun _ => ""
  sha256 := id
  fromisoformat := fun s =>
    if s = "2026-01-01T00:00:00+00:00" then .instant 1767225600000000 else .invalid
  isoformat := fun _ => "2026-01-01T00:00:00+00:00"
  lower := id
  dumps := fun _ => "\x7b\x7d"
  timestamp := fun t => t

def sampleRow (tenantId memoryId : String) (sensitivity : Sensitivity) : EpisodeRow where
  tenantId := tenantId
  memoryId := memoryId
  worldId := "world-1"
  episodeType := "OBSERVATION"
  summary := "the pump runs again"
  payload := .obj []
  occurredAt := 1767225600000000
  sensitivity := sensitivity
  retentionUntil := none
  sourceEventIds := ["event-1"]
  provenance := .obj []
  createdBy := "operator"
  authorizationRef := "approval-1"
  createdAt := "2026-01-01T00:00:00+00:00"

/-- A store with one internal episode of a tenant. -/
def sampleMemory : MemoryDb where
  entries := ⟨[sampleRow "tenant-1" "memory-1" .internal], by decide⟩
  tombstones := ∅
  audit := []

/-- The same with an episode of another tenant, a restricted one and one with a
tombstone. -/
def sampleFullerMemory : MemoryDb where
  entries :=
    ⟨[sampleRow "tenant-2" "memory-1" .internal, sampleRow "tenant-1" "memory-2" .restricted,
      sampleRow "tenant-1" "memory-1" .internal, sampleRow "tenant-1" "memory-3" .internal],
     by decide⟩
  tombstones :=
    ⟨[{ tenantId := "tenant-1"
        memoryId := "memory-3"
        reason := "recorded twice"
        actorId := "operator"
        authorizationRef := "approval-2"
        createdAt := "2026-01-01T00:00:00+00:00" }], by decide⟩
  audit := []

theorem sampleMemory_agrees :
    Agree "tenant-1" [.internal] 1767225600000000 sampleMemory sampleFullerMemory := by
  apply agree_of_filter
  decide +kernel

theorem memory_noninterference_sample :
    (∀ memoryId,
      (getEpisode sampleRuntime.toPython 1767225600000000 "tenant-1" memoryId "reader" ["INTERNAL"]
        none none sampleMemory).1 =
      (getEpisode sampleRuntime.toPython 1767225600000000 "tenant-1" memoryId "reader" ["INTERNAL"]
        none none sampleFullerMemory).1) ∧
    ∀ text worldId episodeTypes limit,
      (query sampleRuntime 1767225600000000 "tenant-1" text "reader" ["INTERNAL"] worldId
        episodeTypes limit none none sampleMemory).1 =
      (query sampleRuntime 1767225600000000 "tenant-1" text "reader" ["INTERNAL"] worldId
        episodeTypes limit none none sampleFullerMemory).1 := by
  apply memory_noninterference (fun _ _ h => h) .nil .nil
  intro allowed t hallowed ht
  have hinternal : allowedSensitivities ["INTERNAL"] = .ok [.internal] := by decide +kernel
  rw [hinternal] at hallowed
  cases hallowed
  cases ht
  exact sampleMemory_agrees

end Edon.Memory
