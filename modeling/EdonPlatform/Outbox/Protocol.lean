import EdonPlatform.Outbox.Store
import EdonPlatform.World.Integrity

/- The lease protocol of the outbox, over every interleaving of claims,
   acknowledgements and failures by any workers, and of the world events that enqueue
   new messages.

   What is proved:
     1. `Sound.move` — a status change written together with its audit row keeps every
        message in step with its audit rows; each write of the three operations is such
        a move (`expire_moves`, `lease_moves`, ...).
     2. `lease_protocol` — after any calls each message has the status its audit rows
        replay to, as many attempts as CLAIMED rows, at most one DELIVERED row, and a
        lease exactly when it is LEASED; a DELIVERED or DEAD message never changes.

   The abstract protocol is `AuditAction.next`, a partial function: replaying the audit
   rows of a message also checks that each was written from a status that allows it. -/
namespace Edon.Outbox
open Json World Transition

/-! ## The abstract protocol -/

/-- The status an action leads to, from the statuses it is possible in. -/
def next : AuditAction → MessageStatus → Option MessageStatus
  | .claimed, .pending => some .leased
  | .leaseExpired, .leased => some .pending
  | .retryScheduled, .leased => some .pending
  | .delivered, .leased => some .delivered
  | .dead, .leased => some .dead
  | _, _ => none

/-- The status after the actions, from a message just enqueued. -/
def replayStatus (actions : List AuditAction) : Option MessageStatus :=
  actions.foldlM (fun status action => next action status) .pending

def Terminal (status : MessageStatus) : Prop := status = .delivered ∨ status = .dead

theorem next_terminal {status : MessageStatus} (h : Terminal status) (a : AuditAction) :
    next a status = none := by
  rcases h with rfl | rfl <;> cases a <;> rfl

theorem replayStatus_append (actions : List AuditAction) (a : AuditAction) :
    replayStatus (actions ++ [a]) = (replayStatus actions).bind (next a) := by
  unfold replayStatus
  rw [List.foldlM_append]
  cases actions.foldlM (fun status action => next action status) MessageStatus.pending with
  | none => rfl
  | some s =>
    simp only [List.foldlM, bind, Option.bind]
    cases next a s <;> rfl

/-- A replay has delivered once if it ends delivered, and otherwise never. -/
theorem count_delivered {actions : List AuditAction} : ∀ {status : MessageStatus},
    replayStatus actions = some status →
    actions.count .delivered = if status = .delivered then 1 else 0 := by
  induction actions using List.reverseRecOn with
  | nil =>
    intro status h
    cases h
    rfl
  | append_singleton actions a ih =>
    intro status h
    rw [replayStatus_append] at h
    obtain ⟨before, hbefore, hnext⟩ := Option.bind_eq_some_iff.mp h
    rw [List.count_append, ih hbefore]
    cases a <;> cases before <;> cases hnext <;> rfl

/-! ## Messages in step with their audit rows -/

/-- The actions recorded for a message, in order. -/
def history (db : WorldDb) (messageId : String) : List AuditAction :=
  (db.outboxDeliveryAudit.filter (fun a => a.messageId = messageId)).map AuditRow.action

/-- A message is in step with the actions recorded for it. -/
structure InStep (actions : List AuditAction) (row : OutboxRow) : Prop where
  status : replayStatus actions = some row.status
  attempts : row.attemptCount = actions.count .claimed
  leased : row.status = .leased → row.leaseOwner.isSome ∧ row.leaseExpiresAt.isSome
  free : row.status ≠ .leased → row.leaseOwner = none ∧ row.leaseExpiresAt = none

structure Sound (db : WorldDb) : Prop where
  messages : ∀ id row, db.worldOutbox.get id = some row → InStep (history db id) row
  audited : ∀ a ∈ db.outboxDeliveryAudit, db.worldOutbox.get a.messageId ≠ none

/-- What a message keeps once it is delivered or dead. -/
def Keeps (db db' : WorldDb) : Prop :=
  ∀ id row, db.worldOutbox.get id = some row → Terminal row.status → db'.worldOutbox.get id = some row

theorem Keeps.refl (db : WorldDb) : Keeps db db := fun _ _ h _ => h

theorem Keeps.trans {a b c : WorldDb} (h₁ : Keeps a b) (h₂ : Keeps b c) : Keeps a c :=
  fun id row h ht => h₂ id row (h₁ id row h ht) ht

theorem history_audit (db : WorldDb) (id id' : String) (action : AuditAction) (worker : String)
    (detail : Json) (at' : String) : history (audit id action worker detail at' db) id' =
      if id = id' then history db id' ++ [action] else history db id' := by
  simp only [history, audit, List.filter_append, List.map_append]
  by_cases h : id = id' <;> simp [h]

/-- **One move.** A status change the protocol allows, written with its audit row, keeps
every message in step and touches no other message. -/
theorem Sound.move {db : WorldDb} (hdb : Sound db) {row : OutboxRow} {f : OutboxRow → OutboxRow}
    {hf : ∀ r, (f r).key = r.key} {id worker at' : String} {action : AuditAction} {detail : Json}
    (hrow : db.worldOutbox.get id = some row) (hnext : next action row.status = some (f row).status)
    (hattempts : (f row).attemptCount = row.attemptCount + if action = .claimed then 1 else 0)
    (hleased : (f row).status = .leased → (f row).leaseOwner.isSome ∧ (f row).leaseExpiresAt.isSome)
    (hfree : (f row).status ≠ .leased → (f row).leaseOwner = none ∧ (f row).leaseExpiresAt = none) :
    Sound (audit id action worker detail at' (update id f hf db)) ∧
      Keeps db (audit id action worker detail at' (update id f hf db)) := by
  have hget : ∀ k, (audit id action worker detail at' (update id f hf db)).worldOutbox.get k =
      if id = k then some (f row) else db.worldOutbox.get k := by
    intro k
    by_cases hk : id = k
    · subst hk
      rw [if_pos rfl]
      exact Table.get_modify_self hf hrow
    · rw [if_neg hk]
      exact Table.get_modify_ne hf hk
  have hhist : ∀ k, history (update id f hf db) k = history db k := fun _ => rfl
  refine ⟨⟨?_, ?_⟩, ?_⟩
  · intro k r hr
    rw [hget] at hr
    rw [history_audit, hhist]
    by_cases hk : id = k
    · subst hk
      rw [if_pos rfl] at hr ⊢
      cases hr
      have hstep := hdb.messages id row hrow
      refine ⟨?_, ?_, hleased, hfree⟩
      · rw [replayStatus_append, hstep.status]
        exact hnext
      · rw [hattempts, hstep.attempts, List.count_append]
        cases action <;> rfl
    · rw [if_neg hk] at hr ⊢
      exact hdb.messages k r hr
  · intro a ha
    rw [hget]
    split
    · exact Option.some_ne_none _
    · next hne =>
      rcases List.mem_append.mp ha with ha | ha
      · exact hdb.audited a ha
      · cases List.mem_singleton.mp ha
        exact absurd rfl hne
  · intro k r hr hterm
    rw [hget]
    by_cases hk : id = k
    · subst hk
      cases hrow.symm.trans hr
      rw [next_terminal hterm] at hnext
      cases hnext
    · rwa [if_neg hk]

/-! ## The writes are moves -/

theorem frame_update {db : WorldDb} {id k worker at' : String} {f : OutboxRow → OutboxRow}
    {hf : ∀ r, (f r).key = r.key} {action : AuditAction} {detail : Json} (hne : id ≠ k) :
    (audit id action worker detail at' (update id f hf db)).worldOutbox.get k =
      db.worldOutbox.get k :=
  Table.get_modify_ne hf hne

theorem expire_moves {db : WorldDb} (hdb : Sound db) {row : OutboxRow} {currentText : String}
    (hrow : db.worldOutbox.get row.messageId = some row)
    (hexpired : isExpired currentText row = true) :
    Sound (expire currentText db row) ∧ Keeps db (expire currentText db row) := by
  have hstatus : row.status = .leased := by
    unfold isExpired at hexpired
    exact of_decide_eq_true (Bool.and_eq_true_iff.mp hexpired).1
  exact hdb.move hrow (by rw [hstatus]; rfl) rfl nofun (fun _ => ⟨rfl, rfl⟩)

theorem lease_moves {db : WorldDb} (hdb : Sound db) {row : OutboxRow}
    {workerId leaseExpiry currentText : String}
    (hrow : db.worldOutbox.get row.messageId = some row) (hstatus : row.status = .pending) :
    Sound (lease workerId leaseExpiry currentText db row) ∧
      Keeps db (lease workerId leaseExpiry currentText db row) := by
  refine hdb.move hrow ?_ ?_ ?_ ?_
  · simp only [hstatus, if_true]
    rfl
  · simp only [hstatus, if_true]
  · simp only [hstatus, if_true]
    exact fun _ => ⟨rfl, rfl⟩
  · simp only [hstatus, if_true]
    exact fun h => absurd rfl h

/-- A loop over rows, each rewriting its own row. -/
theorem foldl_moves {g : WorldDb → OutboxRow → WorldDb} {P : OutboxRow → Prop}
    (hstep : ∀ db row, Sound db → db.worldOutbox.get row.messageId = some row → P row →
      Sound (g db row) ∧ Keeps db (g db row))
    (hframe : ∀ db row k, row.messageId ≠ k → (g db row).worldOutbox.get k = db.worldOutbox.get k)
    {rows : List OutboxRow} (hnodup : (rows.map OutboxRow.key).Nodup) (hP : ∀ r ∈ rows, P r)
    {db : WorldDb} (hdb : Sound db)
    (hget : ∀ r ∈ rows, db.worldOutbox.get r.messageId = some r) :
    Sound (rows.foldl g db) ∧ Keeps db (rows.foldl g db) := by
  induction rows generalizing db with
  | nil => exact ⟨hdb, .refl db⟩
  | cons row rows ih =>
    obtain ⟨hrow, hrows⟩ := List.nodup_cons.mp hnodup
    obtain ⟨hsound, hkeeps⟩ :=
      hstep db row hdb (hget row List.mem_cons_self) (hP row List.mem_cons_self)
    have hrest : ∀ r ∈ rows, (g db row).worldOutbox.get r.messageId = some r := by
      intro r hr
      rw [hframe]
      · exact hget r (List.mem_cons_of_mem _ hr)
      · intro he
        exact hrow (List.mem_map.mpr ⟨r, hr, he.symm⟩)
    obtain ⟨hsound', hkeeps'⟩ :=
      ih hrows (fun r hr => hP r (List.mem_cons_of_mem _ hr)) hsound hrest
    exact ⟨hsound', hkeeps.trans hkeeps'⟩

theorem leaseAll_eq (workerId leaseExpiry currentText : String) (rows : List OutboxRow)
    (db : WorldDb) : (leaseAll workerId leaseExpiry currentText rows db).2 =
      rows.foldl (lease workerId leaseExpiry currentText) db := by
  induction rows generalizing db with
  | nil => rfl
  | cons row rows ih => exact ih _

theorem claimTx_sound {db : WorldDb} (hdb : Sound db) (workerId leaseExpiry currentText : String)
    (limit : Nat) : Sound (claimTx workerId leaseExpiry currentText limit db).2 ∧
      Keeps db (claimTx workerId leaseExpiry currentText limit db).2 := by
  simp only [claimTx, leaseAll_eq]
  obtain ⟨hsound, hkeeps⟩ := foldl_moves (g := expire currentText)
    (P := fun r => isExpired currentText r = true) (fun _ _ h hr hp => expire_moves h hr hp)
    (fun _ _ _ => frame_update)
    (db.worldOutbox.unique.sublist (List.filter_sublist.map _))
    (fun r hr => (List.mem_filter.mp hr).2) hdb
    (fun r hr => Table.get_of_mem (List.mem_filter.mp hr).1)
  generalize (db.worldOutbox.rows.filter (isExpired currentText)).foldl (expire currentText) db =
    mid at hsound hkeeps ⊢
  have hperm := List.mergeSort_perm (mid.worldOutbox.rows.filter
    (fun r => r.status = .pending && r.availableAt ≤ currentText)) deliveryOrder
  have hmem : ∀ r ∈ ((mid.worldOutbox.rows.filter (fun r => r.status = .pending &&
      r.availableAt ≤ currentText)).mergeSort deliveryOrder).take limit,
      r ∈ mid.worldOutbox.rows ∧ r.status = .pending := by
    intro r hr
    obtain ⟨hr, hp⟩ := List.mem_filter.mp (hperm.mem_iff.mp (List.mem_of_mem_take hr))
    exact ⟨hr, of_decide_eq_true (Bool.and_eq_true_iff.mp hp).1⟩
  obtain ⟨hsound', hkeeps'⟩ := foldl_moves (g := lease workerId leaseExpiry currentText)
    (P := fun r => r.status = .pending) (fun _ _ h hr hp => lease_moves h hr hp)
    (fun _ _ _ => frame_update)
    ((hperm.map _).nodup_iff.mpr (mid.worldOutbox.unique.sublist (List.filter_sublist.map _)) |>.sublist
      ((List.take_sublist limit _).map _))
    (fun r hr => (hmem r hr).2) hsound (fun r hr => Table.get_of_mem (hmem r hr).1)
  exact ⟨hsound', hkeeps.trans hkeeps'⟩

theorem acknowledgeTx_sound {db db' : WorldDb} {messageId workerId current : String}
    {row : OutboxRow} (hdb : Sound db)
    (h : acknowledgeTx messageId workerId current db = .ok (row, db')) :
    Sound db' ∧ Keeps db db' := by
  unfold acknowledgeTx at h
  split at h
  · cases h
  · next before hbefore =>
    split at h
    · -- already delivered
      cases h
      exact ⟨hdb, .refl db⟩
    · split at h
      · cases h
      · next hleased =>
        cases h
        have hstatus : before.status = .leased := not_not.mp fun hne => hleased (.inl hne)
        exact hdb.move hbefore (by rw [hstatus]; rfl) rfl (fun h => by cases h) (fun _ => ⟨rfl, rfl⟩)

theorem failTx_sound {py : Python} {db db' : WorldDb} {messageId workerId error : String}
    {retryAfterSeconds maxAttempts current : Int} {row : OutboxRow} (hdb : Sound db)
    (h : failTx py messageId workerId error retryAfterSeconds maxAttempts current db =
      .ok (row, db')) : Sound db' ∧ Keeps db db' := by
  unfold failTx at h
  split at h
  · cases h
  · next before hbefore =>
    split at h
    · cases h
    · next hleased =>
      obtain ⟨available, -, h⟩ := bind_ok.mp h
      cases h
      have hstatus : before.status = .leased := not_not.mp fun hne => hleased (.inl hne)
      cases hdead : decide (maxAttempts ≤ before.attemptCount) with
      | true => exact hdb.move hbefore (by rw [hstatus]; rfl) rfl nofun (fun _ => ⟨rfl, rfl⟩)
      | false => exact hdb.move hbefore (by rw [hstatus]; rfl) rfl nofun (fun _ => ⟨rfl, rfl⟩)

theorem deliver_sound {db : WorldDb} {body : WorldDb → Except PyError (OutboxRow × WorldDb)}
    (hdb : Sound db) (h : ∀ row db', body db = .ok (row, db') → Sound db' ∧ Keeps db db') :
    Sound (deliver body db).2 ∧ Keeps db (deliver body db).2 := by
  unfold deliver
  split
  · exact ⟨hdb, .refl db⟩
  · next row db' hbody => exact h row db' hbody

/-! ## New messages -/

theorem enqueue_cases (py : Python) (event : Event) (eventHash : String)
    (outbox : Table OutboxRow.key) :
    enqueueWorldEvent py event eventHash outbox = outbox ∨
      outbox.insert (outboxRow py event eventHash) =
        some (enqueueWorldEvent py event eventHash outbox) := by
  simp only [enqueueWorldEvent]
  split
  · exact .inl rfl
  · cases h : outbox.insert (outboxRow py event eventHash) with
    | none => exact .inl rfl
    | some t => exact .inr rfl

/-- A new message is pending, and no audit row mentions it yet. -/
theorem Sound.enqueue {py : Python} {event : Event} {state : Json} {db db' : WorldDb}
    (hdb : Sound db) (hrec : Records py event state db db') : Sound db' ∧ Keeps db db' := by
  have hhist : ∀ k, history db' k = history db k := by
    intro k
    unfold history
    rw [hrec.audit]
  rcases enqueue_cases py event (sha256Json py.sha256 event.toJson) db.worldOutbox with h | h
  · have hsame : db'.worldOutbox = db.worldOutbox := hrec.outbox.trans h
    refine ⟨⟨?_, ?_⟩, ?_⟩
    · intro k row hrow
      rw [hhist]
      exact hdb.messages k row (hsame ▸ hrow)
    · rw [hrec.audit, hsame]
      exact hdb.audited
    · intro k row hrow _
      exact hsame ▸ hrow
  · rw [← hrec.outbox] at h
    have hget := Table.get_insert h
    refine ⟨⟨?_, ?_⟩, ?_⟩
    · intro k row hrow
      rw [hget] at hrow
      rw [hhist]
      split at hrow
      · next hk =>
        -- the key was free, so nothing was recorded for it
        cases hrow
        have hempty : history db k = [] := by
          refine List.map_eq_nil_iff.mpr (List.filter_eq_nil_iff.mpr ?_)
          intro a ha hid
          refine hdb.audited a ha ?_
          rw [of_decide_eq_true hid, ← hk]
          exact (Table.rows_insert h).2
        rw [hempty]
        exact ⟨rfl, rfl, (fun h => by cases h), fun _ => ⟨rfl, rfl⟩⟩
      · exact hdb.messages k row hrow
    · rw [hrec.audit]
      intro a ha
      rw [hget]
      split
      · exact Option.some_ne_none _
      · exact hdb.audited a ha
    · intro k row hrow _
      rw [hget]
      split
      · next hk =>
        rw [← hk, (Table.rows_insert h).2] at hrow
        cases hrow
      · exact hrow

theorem sound_empty : Sound ∅ := ⟨nofun, nofun⟩

/-! ## Every interleaving -/

/-- A call of a worker, or an operation of the world store; `now` is what its clock
reads. -/
inductive Op where
  | world (c : World.Call)
  | claim (now : Int) (workerId : String) (limit leaseSeconds : Int) (time : TimeArg)
  | acknowledge (now : Int) (messageId workerId : String) (time : TimeArg)
  | fail (now : Int) (messageId workerId error : String) (retryAfterSeconds maxAttempts : Int)
      (time : TimeArg)

def Op.run (py : Python) (db : WorldDb) : Op → WorldDb
  | .world c => (c.run py db).2
  | .claim now worker limit seconds time => (Outbox.claim py now worker limit seconds time db).2
  | .acknowledge now id worker time => (Outbox.acknowledge py now id worker time db).2
  | .fail now id worker error retry max time =>
    (Outbox.fail py now id worker error retry max time db).2

theorem Op.sound (py : Python) (op : Op) {db : WorldDb} (hdb : Sound db) :
    Sound (op.run py db) ∧ Keeps db (op.run py db) := by
  cases op with
  | world c =>
    rcases c.records py db with h | ⟨event, state, hrec⟩
    · simp only [Op.run, h]
      exact ⟨hdb, .refl db⟩
    · exact hdb.enqueue hrec
  | claim now worker limit seconds time =>
    simp only [Op.run, Outbox.claim]
    split
    · exact ⟨hdb, .refl db⟩
    · exact claimTx_sound hdb ..
  | acknowledge now id worker time =>
    simp only [Op.run, Outbox.acknowledge]
    split
    · exact ⟨hdb, .refl db⟩
    · exact deliver_sound hdb (fun _ _ h => acknowledgeTx_sound hdb h)
  | fail now id worker error retry max time =>
    simp only [Op.run, Outbox.fail]
    split
    · exact ⟨hdb, .refl db⟩
    · exact deliver_sound hdb (fun _ _ h => failTx_sound hdb h)

theorem run_sound (py : Python) (ops : List Op) {db : WorldDb} (hdb : Sound db) :
    Sound (exec (Op.run py) db ops) ∧ Keeps db (exec (Op.run py) db ops) := by
  induction ops generalizing db with
  | nil => exact ⟨hdb, .refl db⟩
  | cons op ops ih =>
    obtain ⟨hsound, hkeeps⟩ := op.sound py hdb
    obtain ⟨hsound', hkeeps'⟩ := ih hsound
    exact ⟨hsound', hkeeps.trans hkeeps'⟩

/-- What the lease protocol promises of a message. -/
structure MessageProtocol (db : WorldDb) (row : OutboxRow) : Prop where
  status : replayStatus (history db row.messageId) = some row.status
  attempts : row.attemptCount = (history db row.messageId).count .claimed
  delivered : (history db row.messageId).count .delivered ≤ 1
  leased : row.status = .leased ↔ row.leaseOwner.isSome ∧ row.leaseExpiresAt.isSome

theorem InStep.protocol {db : WorldDb} {row : OutboxRow}
    (h : InStep (history db row.messageId) row) : MessageProtocol db row := by
  refine ⟨h.status, h.attempts, ?_, h.leased, ?_⟩
  · rw [count_delivered h.status]
    split <;> decide
  · rintro ⟨howner, _⟩
    by_contra hne
    rw [(h.free hne).1] at howner
    cases howner

/-- **The lease protocol.** After any interleaving of calls by any workers at any times,
every message is in step with its audit rows, and no later call changes one that is
DELIVERED or DEAD. -/
theorem lease_protocol (py : Python) (ops : List Op) :
    (∀ row ∈ (exec (Op.run py) ∅ ops).worldOutbox.rows,
      MessageProtocol (exec (Op.run py) ∅ ops) row) ∧
    ∀ (later : List Op), ∀ row ∈ (exec (Op.run py) ∅ ops).worldOutbox.rows, Terminal row.status →
      row ∈ (exec (Op.run py) ∅ (ops ++ later)).worldOutbox.rows := by
  obtain ⟨hsound, -⟩ := run_sound py ops sound_empty
  refine ⟨?_, ?_⟩
  · intro row hrow
    exact (hsound.messages _ _ (Table.get_of_mem hrow)).protocol
  · intro later row hrow hterm
    rw [exec_append]
    exact Table.mem_of_get ((run_sound py later hsound).2 _ _ (Table.get_of_mem hrow) hterm)

end Edon.Outbox
