import EdonPlatform.Memory.Noninterference
import EdonPlatform.Memory.Recording
import EdonPlatform.Lib.HashChain
import EdonPlatform.Lib.Interleaving

/- Calls of the episodic memory that overlap. `record_episode` and `tombstone` take the
   write lock before they read. `get_episode` and `query` do not: what they select, the
   hash of the last audit event included, is read outside any transaction, and the
   transaction of their `INSERT` begins and ends with it.

   What is proved:
     1. `audit_chain_iff` — after every interleaving of calls the audit of every tenant
        verifies, exactly when no event was inserted after another one of its tenant had
        been committed since the hash it names was read.
     2. `run_program` — without interleaving a call is the operation of `Memory.Store`.
     3. `audit_chain_forks` — two queries at once.

   Correspondence (Python ↔ Lean):
     the statements of an operation ↔ `Statement`
     `_append_audit` of a read      ↔ `readAudit`
     `verify_audit_chain`           ↔ `MemoryDb.verifyAuditChain` -/
namespace Edon.Memory
open Json Fallible Interleaving Transition

section
variable (py : Python)

/-- What `verify_audit_chain` compares. -/
def auditLinks : HashChain.Links AuditRow String where
  genesis := "GENESIS"
  previous := AuditRow.previousHash
  carried := AuditRow.auditHash
  content r := sha256Json py.sha256 (auditJson r.toAuditEvent r.previousHash)

def auditOf (audit : List AuditRow) (tenantId : String) : List AuditRow :=
  audit.filter (fun r => r.tenantId = tenantId)

def MemoryDb.verifyAuditChain (db : MemoryDb) (tenantId : String) : Bool :=
  HashChain.verify (auditLinks py) (auditOf db.audit tenantId)

/-- The `INSERT` of an event that names the hash that was read. -/
def insertAudit (e : AuditEvent) (previousHash : String) (audit : List AuditRow) :
    Except PyError (List AuditRow) :=
  let auditHash := sha256Json py.sha256 (auditJson e previousHash)
  if audit.any (fun r => r.auditHash = auditHash) then
    .error ⟨.integrityError, "UNIQUE constraint failed: memory_audit.audit_hash"⟩
  else .ok (audit ++ [{ e with payload := e.payload.canon, previousHash, auditHash }])

def insertTx (e : AuditEvent) (previousHash : String) (db : MemoryDb) :
    Except PyError (Unit × MemoryDb) := do
  let audit ← insertAudit py e previousHash db.audit
  return ((), { db with audit })

/-! ## Statements -/

inductive Statement where
  | record (e : Episode) (createdAt : String)
  | standing (tenantId memoryId : String)
  | standingRows (tenantId : String)
  | lastHash (tenantId : String)
  | insert (e : AuditEvent) (previousHash : String)
  | tombstone (row : TombstoneRow)

abbrev Answer : Statement → Type
  | .record _ _ => Except PyError EpisodeRow
  | .standing _ _ => Option EpisodeRow
  | .standingRows _ => List EpisodeRow
  | .lastHash _ => String
  | .insert _ _ => Except PyError Unit
  | .tombstone _ => Except PyError Tombstoned

def execute : (c : Statement) → MemoryDb → Answer c × MemoryDb
  | .record e createdAt, db => committing (recordTx py e createdAt) db
  | .standing tenantId memoryId, db => (db.standing tenantId memoryId, db)
  | .standingRows tenantId, db => (db.standingRows tenantId, db)
  | .lastHash tenantId, db => (Memory.lastHash db.audit tenantId, db)
  | .insert e previousHash, db => committing (insertTx py e previousHash) db
  | .tombstone row, db => committing (tombstoneTx py row) db

abbrev Program := Prog Statement Answer PyError

abbrev sql (c : Statement) : Program (Answer c) := Prog.statement c

/-- `_append_audit` where no transaction is open yet. -/
def readAudit (e : AuditEvent) : Program Unit := do
  let previousHash ← sql (.lastHash e.tenantId)
  let result ← sql (.insert e previousHash)
  liftM result

/-! ## Operations -/

/-- What a call returns. -/
inductive Outcome where
  | episode (row : EpisodeRow)
  | entry (e : Entry)
  | entries (es : List Entry)
  | tombstoned (t : Tombstoned)

/-- The checks of `get_episode` before it connects. -/
def getArgs (now : Instant) (tenantId memoryId actorId : String) (allowedValues : List String)
    (asOf : Option String) :
    Except PyError (String × String × String × List Sensitivity × Instant) := do
  let tenantId ← memoryIdentifier tenantId "tenant_id"
  let memoryId ← memoryIdentifier memoryId "memory_id"
  let actorId ← memoryIdentifier actorId "actor_id"
  let allowed ← allowedSensitivities allowedValues
  let currentTime ← optionalTime py asOf "as_of"
  return (tenantId, memoryId, actorId, allowed, currentTime.getD now)

def getProgram (tenantId memoryId actorId : String) (allowed : List Sensitivity)
    (currentTime : Instant) (createdAt : String) : Program Outcome := do
  let row ← sql (.standing tenantId memoryId)
  let row ← orRaise (memoryError "memory not found or access denied")
    (row.filter (fun row => row.sensitivity ∈ allowed ∧ ¬ row.expired currentTime))
  readAudit (row.readBy py actorId createdAt)
  return .entry (row.entry py none)

/-- The checks of `tombstone` before it connects. -/
def tombstoneArgs (now : Instant) (tenantId memoryId actorId reason authorizationRef : String)
    (timestamp : Option String) : Except PyError TombstoneRow := do
  let tenantId ← memoryIdentifier tenantId "tenant_id"
  let memoryId ← memoryIdentifier memoryId "memory_id"
  let actorId ← memoryIdentifier actorId "actor_id"
  let authorizationRef ← memoryIdentifier authorizationRef "authorization_ref"
  let reason := strip reason
  require (5 ≤ reason.length) (memoryError "tombstone reason must be explicit")
  return { tenantId, memoryId, reason, actorId, authorizationRef
           createdAt := orNow py timestamp now }

end

section
variable (py : Runtime)

def queryProgram (q : QueryArgs) (createdAt : String) : Program Outcome := do
  let rows ← sql (.standingRows q.tenantId)
  let selected := ((q.scored py rows).insertionSort (rankedBefore py)).take q.limit.toNat
  readAudit (q.event py createdAt selected.length)
  return .entries (selected.map (fun e => e.2.entry py.toPython (some e.1)))

def Call.program : Call → Program Outcome
  | .recordEpisode now tenantId memoryId worldId episodeType summary payload occurredAt sensitivity
      actorId authorizationRef sourceEventIds provenance retentionUntil timestamp => do
    let e ← episodeOf py.toPython tenantId memoryId worldId episodeType summary payload occurredAt
      sensitivity actorId authorizationRef sourceEventIds provenance retentionUntil
    let result ← sql (.record e (orNow py.toPython timestamp now))
    let row ← result
    return .episode row
  | .getEpisode now tenantId memoryId actorId allowed asOf timestamp => do
    let (tenantId, memoryId, actorId, allowed, currentTime) ←
      getArgs py.toPython now tenantId memoryId actorId allowed asOf
    getProgram py.toPython tenantId memoryId actorId allowed currentTime
      (orNow py.toPython timestamp now)
  | .query now tenantId text actorId allowed worldId episodeTypes limit asOf timestamp => do
    let q ← queryArgs py now tenantId text actorId allowed worldId episodeTypes limit asOf
    queryProgram py q (orNow py.toPython timestamp now)
  | .tombstone now tenantId memoryId actorId reason authorizationRef timestamp => do
    let row ← tombstoneArgs py.toPython now tenantId memoryId actorId reason authorizationRef
      timestamp
    let result ← sql (.tombstone row)
    let tombstoned ← result
    return .tombstoned tombstoned

/-- The calls under way on one memory. -/
abbrev Calls := Pool MemoryDb Statement Answer PyError Outcome

abbrev advance : Calls → Move Call → Calls :=
  Pool.step (execute py.toPython) (Call.program py)

end

/-! ## A call alone -/

section
variable {py : Runtime}

/-- The audit of a read, when nothing happens between its two statements. -/
theorem run_readAudit (e : AuditEvent) (db : MemoryDb) :
    (readAudit e).run (execute py.toPython) db =
      match appendAudit py.toPython e db.audit with
      | .ok audit => (.ok (), { db with audit })
      | .error error => (.error error, db) := by
  show (liftM (committing (insertTx py.toPython e (lastHash db.audit e.tenantId)) db).1 :
    Program Unit).run (execute py.toPython)
      (committing (insertTx py.toPython e (lastHash db.audit e.tenantId)) db).2 = _
  have hinsert : insertAudit py.toPython e (lastHash db.audit e.tenantId) db.audit =
    appendAudit py.toPython e db.audit := rfl
  unfold committing insertTx
  rw [hinsert]
  cases appendAudit py.toPython e db.audit with
  | ok audit => rfl
  | error error => rfl

/-- What follows the last statement of a call changes nothing. -/
theorem run_result {α : Type} (f : α → Outcome) (result : Except PyError α) (db : MemoryDb) :
    ((liftM result >>= fun a => pure (f a) : Program Outcome).run (execute py.toPython) db).2 = db := by
  cases result <;> rfl

theorem run_getProgram (tenantId memoryId actorId : String) (allowed : List Sensitivity)
    (currentTime : Instant) (createdAt : String) (db : MemoryDb) :
    ((getProgram py.toPython tenantId memoryId actorId allowed currentTime createdAt).run
        (execute py.toPython) db).2 =
      (committing (getTx py.toPython tenantId memoryId actorId allowed currentTime createdAt) db).2 := by
  unfold committing getTx getProgram sql
  rw [Prog.run_statement]
  dsimp only [execute]
  cases orRaise (memoryError "memory not found or access denied")
    ((db.standing tenantId memoryId).filter (fun row => row.sensitivity ∈ allowed ∧
      ¬ row.expired currentTime)) with
  | error e => rfl
  | ok row =>
    show ((readAudit (row.readBy py.toPython actorId createdAt) >>= fun _ => _).run
      (execute py.toPython) db).2 = _
    rw [Prog.run_bind, run_readAudit]
    dsimp only [bind, Except.bind]
    cases appendAudit py.toPython (row.readBy py.toPython actorId createdAt) db.audit <;> rfl

theorem run_queryProgram (q : QueryArgs) (createdAt : String) (db : MemoryDb) :
    ((queryProgram py q createdAt).run (execute py.toPython) db).2 =
      (committing (queryTx py q createdAt) db).2 := by
  unfold committing queryTx queryProgram sql
  rw [Prog.run_statement]
  dsimp only [execute]
  rw [Prog.run_bind, run_readAudit]
  cases appendAudit py.toPython (q.event py createdAt (((q.scored py
    (db.standingRows q.tenantId)).insertionSort (rankedBefore py)).take q.limit.toNat).length)
      db.audit <;> rfl

theorem getEpisode_eq (py : Python) (now : Instant) (tenantId memoryId actorId : String)
    (allowedValues : List String) (asOf timestamp : Option String) (db : MemoryDb) :
    getEpisode py now tenantId memoryId actorId allowedValues asOf timestamp db =
      match getArgs py now tenantId memoryId actorId allowedValues asOf with
      | Except.error e => (Except.error e, db)
      | Except.ok (tenantId, memoryId, actorId, allowed, currentTime) =>
        committing (getTx py tenantId memoryId actorId allowed currentTime
          (orNow py timestamp now)) db := by
  unfold getEpisode
  rfl

theorem tombstone_eq (py : Python) (now : Instant)
    (tenantId memoryId actorId reason authorizationRef : String) (timestamp : Option String)
    (db : MemoryDb) :
    tombstone py now tenantId memoryId actorId reason authorizationRef timestamp db =
      match tombstoneArgs py now tenantId memoryId actorId reason authorizationRef timestamp with
      | Except.error e => (Except.error e, db)
      | Except.ok row => committing (tombstoneTx py row) db := by
  unfold tombstone
  rfl

/-- **A call that is not interrupted is the operation of the store.** -/
theorem run_program (c : Call) (db : MemoryDb) :
    ((c.program py).run (execute py.toPython) db).2 = db.call py c := by
  cases c with
  | recordEpisode now tenantId memoryId worldId episodeType summary payload occurredAt sensitivity
      actorId authorizationRef sourceEventIds provenance retentionUntil timestamp =>
    dsimp only [Call.program, MemoryDb.call, recordEpisode]
    cases episodeOf py.toPython tenantId memoryId worldId episodeType summary payload occurredAt
      sensitivity actorId authorizationRef sourceEventIds provenance retentionUntil with
    | error e => rfl
    | ok e => exact run_result _ _ _
  | getEpisode now tenantId memoryId actorId allowed asOf timestamp =>
    show _ = (getEpisode py.toPython now tenantId memoryId actorId allowed asOf timestamp db).2
    rw [getEpisode_eq]
    dsimp only [Call.program]
    cases getArgs py.toPython now tenantId memoryId actorId allowed asOf with
    | error e => rfl
    | ok args => exact run_getProgram _ _ _ _ _ _ db
  | query now tenantId text actorId allowed worldId episodeTypes limit asOf timestamp =>
    dsimp only [Call.program, MemoryDb.call, query]
    cases queryArgs py now tenantId text actorId allowed worldId episodeTypes limit asOf with
    | error e => rfl
    | ok q => exact run_queryProgram q _ db
  | tombstone now tenantId memoryId actorId reason authorizationRef timestamp =>
    show _ = (tombstone py.toPython now tenantId memoryId actorId reason authorizationRef timestamp
      db).2
    rw [tombstone_eq]
    dsimp only [Call.program]
    cases tombstoneArgs py.toPython now tenantId memoryId actorId reason authorizationRef
      timestamp with
    | error e => rfl
    | ok row => exact run_result _ _ _

end

section
variable {py : Python} {db : MemoryDb}

/-! ## What a statement does to the chains -/

/-- The audit of every tenant verifies. -/
def Verified (py : Python) (audit : List AuditRow) : Prop :=
  ∀ tenantId, HashChain.verify (auditLinks py) (auditOf audit tenantId) = true

theorem verified_nil : Verified py [] := fun _ => rfl

/-- The row names the last hash of its tenant and carries its own. -/
abbrev Joins (py : Python) (audit : List AuditRow) (row : AuditRow) : Prop :=
  HashChain.Joins (auditLinks py) (lastHash audit row.tenantId) row

theorem verified_snoc {audit : List AuditRow} {row : AuditRow} :
    Verified py (audit ++ [row]) ↔ Verified py audit ∧ Joins py audit row := by
  have hown : auditOf (audit ++ [row]) row.tenantId = auditOf audit row.tenantId ++ [row] := by
    simp [auditOf]
  have hother : ∀ tenantId, row.tenantId ≠ tenantId →
      auditOf (audit ++ [row]) tenantId = auditOf audit tenantId := by
    intro tenantId hne
    simp [auditOf, hne]
  constructor
  · intro h
    have hrow := h row.tenantId
    rw [hown, HashChain.verify_snoc] at hrow
    refine ⟨?_, hrow.2⟩
    intro tenantId
    by_cases hne : row.tenantId = tenantId
    · exact hne ▸ hrow.1
    · rw [← hother tenantId hne]
      exact h tenantId
  · rintro ⟨h, hjoins⟩ tenantId
    by_cases hne : row.tenantId = tenantId
    · subst hne
      rw [hown, HashChain.verify_snoc]
      exact ⟨h _, hjoins⟩
    · rw [hother tenantId hne]
      exact h tenantId

/-- An event that is inserted joins the chain of its tenant when it names the last hash. -/
theorem insertAudit_ok {e : AuditEvent} {previousHash : String} {audit audit' : List AuditRow}
    (h : insertAudit py e previousHash audit = .ok audit') :
    Verified py audit' ↔ Verified py audit ∧ previousHash = lastHash audit e.tenantId := by
  unfold insertAudit at h
  dsimp only at h
  split at h
  · cases h
  · cases h
    rw [verified_snoc]
    refine and_congr_right (fun _ => and_iff_left ?_)
    apply sha256Json_congr
    -- the payload is stored in canonical form
    show canon _ = canon _
    simp only [auditJson, canon, canonFields, canon_canon]

theorem appendAudit_verified {e : AuditEvent} {audit audit' : List AuditRow}
    (h : appendAudit py e audit = .ok audit') : Verified py audit' ↔ Verified py audit := by
  have hinsert : insertAudit py e (lastHash audit e.tenantId) audit = .ok audit' := h
  rw [insertAudit_ok hinsert]
  exact and_iff_left rfl

theorem recordTx_verified {e : Episode} {createdAt : String} {row : EpisodeRow} {t : MemoryDb}
    (h : recordTx py e createdAt db = .ok (row, t)) : Verified py t.audit ↔ Verified py db.audit := by
  unfold recordTx at h
  split at h
  · split at h <;> cases h
    exact Iff.rfl
  · obtain ⟨_, _, h⟩ := bind_ok.mp h
    obtain ⟨audit, haudit, h⟩ := bind_ok.mp h
    cases h
    exact appendAudit_verified haudit

theorem tombstoneTx_verified {row : TombstoneRow} {result : Tombstoned} {t : MemoryDb}
    (h : tombstoneTx py row db = .ok (result, t)) : Verified py t.audit ↔ Verified py db.audit := by
  obtain ⟨entry, _, h⟩ := bind_ok.mp h
  split at h
  · cases h
    exact Iff.rfl
  · obtain ⟨_, _, h⟩ := bind_ok.mp h
    obtain ⟨audit, haudit, h⟩ := bind_ok.mp h
    cases h
    exact appendAudit_verified haudit

/-- An event is inserted although another one of its tenant was committed since the hash it
names was read. -/
def Statement.Overtaken (py : Python) (db : MemoryDb) : Statement → Prop
  | .insert e previousHash => (insertAudit py e previousHash db.audit).isOk = true ∧
      previousHash ≠ Memory.lastHash db.audit e.tenantId
  | _ => False

theorem committing_verified {α : Type} {body : MemoryDb → Except PyError (α × MemoryDb)}
    (h : ∀ a t, body db = .ok (a, t) → (Verified py t.audit ↔ Verified py db.audit)) :
    Verified py (committing body db).2.audit ↔ Verified py db.audit := by
  unfold committing
  split
  · exact Iff.rfl
  · next a t hok => exact h a t hok

theorem execute_verified_iff (c : Statement) (db : MemoryDb) :
    Verified py (execute py c db).2.audit ↔ Verified py db.audit ∧ ¬ c.Overtaken py db := by
  cases c with
  | record e createdAt =>
    rw [and_iff_left (show ¬ Statement.Overtaken py db (.record e createdAt) from id)]
    exact committing_verified (fun _ _ => recordTx_verified)
  | tombstone row =>
    rw [and_iff_left (show ¬ Statement.Overtaken py db (.tombstone row) from id)]
    exact committing_verified (fun _ _ => tombstoneTx_verified)
  | standing tenantId memoryId => exact (and_iff_left id).symm
  | standingRows tenantId => exact (and_iff_left id).symm
  | lastHash tenantId => exact (and_iff_left id).symm
  | insert e previousHash =>
    unfold Statement.Overtaken
    dsimp only [execute, committing, insertTx]
    cases hinsert : insertAudit py e previousHash db.audit with
    | error error => exact (and_iff_left (fun h => by cases h.1)).symm
    | ok audit =>
      show Verified py audit ↔ _
      rw [insertAudit_ok hinsert, and_iff_right (show (Except.ok audit).isOk = true from rfl),
        ne_eq, not_not]

end

section
variable (py : Runtime)

/-- The move does not insert an event that was overtaken. -/
def InOrder (p : Calls) (m : Move Call) (_ : Calls) : Prop :=
  ∀ c ∈ p.pending m, ¬ c.Overtaken py.toPython p.state

theorem verified_advance_iff (p : Calls) (m : Move Call) :
    Verified py.toPython (advance py p m).state.audit ↔
      Verified py.toPython p.state.audit ∧ InOrder py p m (advance py p m) := by
  unfold InOrder
  rw [Pool.step_state]
  cases p.pending m with
  | none =>
    have hnone : ∀ c ∈ (none : Option Statement), ¬ c.Overtaken py.toPython p.state :=
      fun c hc => nomatch hc
    exact (and_iff_left hnone).symm
  | some c =>
    simp only [Option.mem_some_iff, forall_eq']
    exact execute_verified_iff c p.state

/-- **The audit verifies after an interleaving of calls** exactly when every event was inserted
before another one of its tenant could be. -/
theorem audit_chain_iff (moves : List (Move Call)) :
    (∀ tenantId : String, (exec (advance py) ⟨∅, []⟩ moves).state.verifyAuditChain py.toPython
        tenantId = true) ↔
      Along (advance py) (InOrder py) ⟨∅, []⟩ moves := by
  have hrun := exec_iff_along (I := fun p : Calls => Verified py.toPython p.state.audit)
    (verified_advance_iff py) ⟨∅, []⟩ moves
  exact hrun.trans (and_iff_right verified_nil)

/-- Two queries of one tenant. Both read the last hash before either inserts its event. -/
def overlapping : List (Move Call) :=
  let query (actorId : String) : Move Call :=
    .call (.query 0 "t" "" actorId ["PUBLIC"] none [] 1 none (some "1"))
  [query "a", query "b", .resume 0, .resume 0, .resume 1, .resume 1, .resume 0, .resume 1]

theorem overlapping_forks :
    (exec (advance sampleRuntime) ⟨∅, []⟩ overlapping).state.verifyAuditChain
      sampleRuntime.toPython "t" = false := by
  decide +kernel

/-- The audit of an interleaving of reads does not verify. -/
theorem audit_chain_forks :
    ¬ ∀ (py : Runtime) (moves : List (Move Call)) (tenantId : String),
      (exec (advance py) ⟨∅, []⟩ moves).state.verifyAuditChain py.toPython tenantId = true := by
  intro h
  exact absurd (h sampleRuntime overlapping "t") (by rw [overlapping_forks]; decide)

end

end Edon.Memory
