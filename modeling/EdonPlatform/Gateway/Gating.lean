import EdonPlatform.Gateway.Store
import EdonPlatform.Lib.Run

/- Gateway calls and status changes that overlap. A gateway call reads its connector in one
   statement and records the message in a later one; an administrator may take the connector
   out of service in between.

   What is proved:
     1. `connector_gating` — over every interleaving an enabled connector carries a review
        reference, and every message is recorded while its connector is enabled when no
        connector is taken out of service while a call that has read it may still record.
     2. `suspended_before_record` — a connector is suspended between the two statements.

   A status request whose `security_review_ref` is null carries the text "None". -/
namespace Edon.Gateway
open Fallible Interleaving Transition

/-- The program may still record a message of this connector without reading it again. -/
inductive Holds (key : ConnectorKey) : Program Outcome → Prop
  | record {e : GatewayEnvelope} {status : ReceiptStatus} {actorId : Identifier}
      {createdAt : String} {next : Except PyError Receipt → Program Outcome} :
    e.connector = key → Holds key (.ask (.record e status actorId createdAt) next)
  | later {c : Statement} {next : Answer c → Program Outcome} (a : Answer c) :
    (∀ k, c ≠ .connector k) → Holds key (next a) → Holds key (.ask c next)

/-- A connector that is taken out of service is held by no call. -/
def Undisturbed (p : Calls) (m : Move Call) : Prop :=
  ∀ w, p.pending m = some (.setStatus w) → w.status ≠ .enabled →
    ∀ t ∈ p.threads, ¬ Holds w.connector t

def GatewayDb.Enabled (db : GatewayDb) (key : ConnectorKey) : Prop :=
  ∃ row, db.connectors.get key = some row ∧ row.status = .enabled

/-- Every message the step records has a connector that is enabled before the step. -/
def Gated (db db' : GatewayDb) : Prop :=
  ∀ row ∈ db'.messages.rows, row ∈ db.messages.rows ∨ db.Enabled row.envelope.connector

def Reviewed (db : GatewayDb) : Prop :=
  ∀ row ∈ db.connectors.rows, row.status = .enabled →
    ∃ review, row.securityReviewRef = some review ∧ review ≠ ""

/-! ## What the programs are like -/

/-- What a statement is made with, and what becomes of its answer. -/
def Lawful : (c : Statement) → (Answer c → Program Outcome) → Prop
  | .connector key, next =>
    (∀ k, ¬ Holds k (next none)) ∧
      ∀ row, row.key = key → ∀ k, Holds k (next (some row)) → k = key ∧ row.status = .enabled
  | .setStatus w, _ => w.status = .enabled → ∃ review, w.review = some review ∧ review ≠ ""
  | _, _ => True

/-- Every statement of the program is lawful. -/
def Checked : Program Outcome → Prop
  | .done _ => True
  | .fail _ => True
  | .ask c next => Lawful c next ∧ ∀ a, Checked (next a)

section
variable {rt : GatewayRuntime} {key : ConnectorKey} {α : Type}

theorem not_holds_connector {k : ConnectorKey} {next : Option ConnectorRow → Program Outcome} :
    ¬ Holds key (.ask (.connector k) next) := by
  intro h
  cases h with
  | later a hne _ => exact hne k rfl

theorem not_holds_done {o : Outcome} : ¬ Holds key (.done o) := nofun

theorem not_holds_fail {e : PyError} : ¬ Holds key (.fail e) := nofun

/-- A computation between two statements. -/
theorem holds_lift {x : Except PyError α} {f : α → Program Outcome} :
    Holds key ((liftM x : Program α) >>= f) ↔ ∃ a, x = .ok a ∧ Holds key (f a) := by
  cases x with
  | error e => exact ⟨fun h => absurd h not_holds_fail, nofun⟩
  | ok a => exact ⟨fun h => ⟨a, rfl, h⟩, fun ⟨_, ha, h⟩ => by cases ha; exact h⟩

theorem checked_lift {x : Except PyError α} {f : α → Program Outcome}
    (h : ∀ a, x = .ok a → Checked (f a)) : Checked ((liftM x : Program α) >>= f) := by
  cases x with
  | error e => trivial
  | ok a => exact h a rfl

/-- What follows the last statement of a call. -/
theorem checked_last {x : Except PyError α} {f : α → Outcome} :
    Checked ((liftM x : Program α) >>= fun a => pure (f a)) := checked_lift fun _ _ => trivial

theorem not_holds_last {x : Except PyError α} {f : α → Outcome} :
    ¬ Holds key ((liftM x : Program α) >>= fun a => pure (f a)) := by
  intro h
  obtain ⟨_, _, h⟩ := holds_lift.mp h
  exact not_holds_done h

/-- A call that reads a connector holds nothing yet. -/
theorem not_holds_read {k : ConnectorKey} {f : ConnectorRow → Program Outcome} :
    ¬ Holds key (readConnector k >>= f) := not_holds_connector

/-- What follows a read holds the connector it read, as it read it. -/
theorem checked_read {k : ConnectorKey} {f : ConnectorRow → Program Outcome}
    (hholds : ∀ row, row.key = k → ∀ key, Holds key (f row) → key = k ∧ row.status = .enabled)
    (hchecked : ∀ row, Checked (f row)) : Checked (readConnector k >>= f) := by
  refine ⟨⟨fun _ h => not_holds_fail h, hholds⟩, ?_⟩
  intro existing
  cases existing with
  | none => trivial
  | some row => exact hchecked row

/-- A record of an envelope is a record for its connector. -/
theorem holds_recordEnvelope {e : GatewayEnvelope} {status : ReceiptStatus} {actorId : Identifier}
    {now : Int} (h : Holds key (recordEnvelope rt e status actorId now)) : key = e.connector := by
  cases h with
  | later a _ h =>
    cases a with
    | some row => exact absurd h not_holds_last
    | none =>
      cases h with
      | later a _ h =>
        cases a with
        | some row => exact absurd h not_holds_last
        | none =>
          cases h with
          | record he => exact he.symm
          | later a _ h => exact absurd h not_holds_last

theorem checked_recordEnvelope (e : GatewayEnvelope) (status : ReceiptStatus)
    (actorId : Identifier) (now : Int) : Checked (recordEnvelope rt e status actorId now) := by
  refine ⟨trivial, ?_⟩
  intro existing
  cases existing with
  | some row => exact checked_last
  | none =>
    refine ⟨trivial, ?_⟩
    intro existing
    cases existing with
    | some row => exact checked_last
    | none => exact ⟨trivial, fun _ => checked_last⟩

/-- An envelope is made for the connector that was read, and only where it is enabled. -/
theorem envelopeOf_ok {row : ConnectorRow} {request : PyValue} {direction : Direction}
    {e : GatewayEnvelope} (h : envelopeOf rt row request direction = .ok e) :
    row.status = .enabled ∧ e.connector = row.key := by
  obtain ⟨_, henabled, h⟩ := bind_ok.mp h
  obtain ⟨_, _, h⟩ := bind_ok.mp h
  obtain ⟨_, _, h⟩ := bind_ok.mp h
  obtain ⟨_, _, h⟩ := bind_ok.mp h
  obtain ⟨_, _, h⟩ := bind_ok.mp h
  obtain ⟨normalized, _, h⟩ := bind_ok.mp h
  obtain ⟨htenant, hconnector⟩ := create_connector h
  exact ⟨of_decide_eq_true (require_ok.mp henabled), Prod.ext htenant hconnector⟩

theorem checked_gatewayCall (request : PyValue) (direction : Direction) (status : ReceiptStatus)
    (connector : ConnectorKey) (actorId : Identifier) (now : Int) :
    Checked (gatewayCall rt request direction status connector actorId now) := by
  apply checked_read
  · intro row hrow key h
    obtain ⟨e, he, h⟩ := holds_lift.mp h
    obtain ⟨henabled, hconnector⟩ := envelopeOf_ok he
    exact ⟨(holds_recordEnvelope h).trans (hconnector.trans hrow), henabled⟩
  · intro row
    exact checked_lift fun e _ => checked_recordEnvelope e status actorId now

theorem checked_registerConnector (profile : ConnectorProfile) (actorId : Identifier) (now : Int) :
    Checked (registerConnector rt profile actorId now) := by
  have hnone : ∀ k, ¬ Holds k (.ask (.register profile actorId (rt.isoformat now)) fun result =>
      (liftM result : Program ConnectorRow) >>= fun row => pure (.connector (some row))) := by
    intro k h
    cases h with
    | later a _ h => exact not_holds_last h
  refine ⟨⟨hnone, ?_⟩, ?_⟩
  · intro row _ k h
    exact absurd h not_holds_last
  · intro existing
    cases existing with
    | some row => exact checked_last
    | none => exact ⟨trivial, fun _ => checked_last⟩

theorem reviewOf_ne_empty {value : PyValue} {review : String} (h : reviewOf rt value = some review) :
    review ≠ "" := by
  unfold reviewOf at h
  dsimp only at h
  split at h
  · cases h
  · next hne =>
    cases h
    exact hne

/-- A request that enables a connector gives a review. -/
theorem enablement_review {row : ConnectorRow} {a : StatusArgs} {u : Unit}
    (h : enablement row a = .ok u) (henabled : a.status = .enabled) :
    a.review.isSome = true := by
  unfold enablement at h
  rw [if_pos henabled] at h
  obtain ⟨_, hreview, _⟩ := bind_ok.mp h
  exact require_ok.mp hreview

theorem checked_setConnectorStatus {a : StatusArgs}
    (hreview : ∀ review, a.review = some review → review ≠ "") (now : Int) :
    Checked (setConnectorStatus rt a now) := by
  apply checked_read
  · intro row _ key h
    obtain ⟨_, _, h⟩ := holds_lift.mp h
    exact absurd h not_holds_read
  intro checked
  apply checked_lift
  intro _ hallowed
  apply checked_read
  · intro row _ key h
    cases h with
    | later a _ h => exact absurd h not_holds_last
  intro row
  refine ⟨?_, fun _ => checked_last⟩
  intro henabled
  obtain ⟨review, hsome⟩ := Option.isSome_iff_exists.mp (enablement_review hallowed henabled)
  refine ⟨review, ?_, hreview review hsome⟩
  show (a.review <|> row.securityReviewRef) = some review
  rw [hsome]
  rfl

theorem statusArgs_review {body : PyValue} {a : StatusArgs} (h : statusArgs rt body = .ok a)
    {review : String} (hreview : a.review = some review) : review ≠ "" := by
  obtain ⟨_, _, h⟩ := bind_ok.mp h
  obtain ⟨_, _, h⟩ := bind_ok.mp h
  obtain ⟨_, _, h⟩ := bind_ok.mp h
  obtain ⟨_, _, h⟩ := bind_ok.mp h
  obtain ⟨_, _, h⟩ := bind_ok.mp h
  obtain ⟨value, _, h⟩ := bind_ok.mp h
  cases h
  exact reviewOf_ne_empty hreview

theorem checked_program (c : Call) : Checked (c.program rt) := by
  cases c with
  | registerConnector body now =>
    exact checked_lift fun args _ => checked_registerConnector args.1 args.2 now
  | setConnectorStatus body now =>
    exact checked_lift fun args hargs =>
      checked_setConnectorStatus (fun _ => statusArgs_review hargs) now
  | ingest request now => exact checked_lift fun args _ => checked_gatewayCall _ _ _ _ _ now
  | stageEgress request now => exact checked_lift fun args _ => checked_gatewayCall _ _ _ _ _ now

/-- A call reads its connector first. -/
theorem not_holds_program (c : Call) : ¬ Holds key (c.program rt) := by
  intro h
  cases c with
  | registerConnector body now =>
    obtain ⟨_, _, h⟩ := holds_lift.mp h
    exact not_holds_connector h
  | setConnectorStatus body now =>
    obtain ⟨_, _, h⟩ := holds_lift.mp h
    exact not_holds_read h
  | ingest request now =>
    obtain ⟨_, _, h⟩ := holds_lift.mp h
    exact not_holds_read h
  | stageEgress request now =>
    obtain ⟨_, _, h⟩ := holds_lift.mp h
    exact not_holds_read h

end

/-! ## What the statements do -/

section
variable {rt : GatewayRuntime} {db db' : GatewayDb} {key : ConnectorKey}

theorem registerTx_ok {profile : ConnectorProfile} {actorId : Identifier} {createdAt : String}
    {row : ConnectorRow} (h : registerTx rt profile actorId createdAt db = .ok (row, db')) :
    db.connectors.insert row = some db'.connectors ∧ row.status = .disabled ∧
      db'.messages = db.messages := by
  obtain ⟨connectors, hinsert, h⟩ := bind_ok.mp h
  obtain ⟨audit, _, h⟩ := bind_ok.mp h
  cases h
  exact ⟨orRaise_ok.mp hinsert, rfl, rfl⟩

theorem statusTx_ok {w : StatusWrite} {row : Option ConnectorRow}
    (h : statusTx rt w db = .ok (row, db')) :
    db'.connectors = db.connectors.modify w.connector w.apply (fun _ => rfl) ∧
      db'.messages = db.messages := by
  obtain ⟨audit, _, h⟩ := bind_ok.mp h
  cases h
  exact ⟨rfl, rfl⟩

theorem recordTx_ok {e : GatewayEnvelope} {status : ReceiptStatus} {actorId : Identifier}
    {createdAt : String} {receipt : Receipt}
    (h : recordTx rt e status actorId createdAt db = .ok (receipt, db')) :
    db'.connectors = db.connectors ∧
      ∃ row, row.envelope = e ∧ db.messages.insert row = some db'.messages := by
  obtain ⟨_, _, h⟩ := bind_ok.mp h
  obtain ⟨messages, hinsert, h⟩ := bind_ok.mp h
  obtain ⟨_, _, h⟩ := bind_ok.mp h
  obtain ⟨audit, _, h⟩ := bind_ok.mp h
  cases h
  exact ⟨rfl, _, rfl, orRaise_ok.mp hinsert⟩

/-- Everything a statement can do. -/
inductive Effect (db : GatewayDb) : Statement → GatewayDb → Prop
  | unchanged (c : Statement) : Effect db c db
  | registered {profile : ConnectorProfile} {actorId : Identifier} {createdAt : String}
      {row : ConnectorRow} {db' : GatewayDb} :
    db.connectors.insert row = some db'.connectors → row.status = .disabled →
    db'.messages = db.messages → Effect db (.register profile actorId createdAt) db'
  | status {w : StatusWrite} {db' : GatewayDb} :
    db'.connectors = db.connectors.modify w.connector w.apply (fun _ => rfl) →
    db'.messages = db.messages → Effect db (.setStatus w) db'
  | recorded {status : ReceiptStatus} {actorId : Identifier} {createdAt : String}
      {row : MessageRow} {db' : GatewayDb} :
    db'.connectors = db.connectors → db.messages.insert row = some db'.messages →
    Effect db (.record row.envelope status actorId createdAt) db'

theorem effect_execute (c : Statement) (db : GatewayDb) : Effect db c (execute rt c db).2 := by
  cases c with
  | connector k => exact .unchanged _
  | byIdempotencyKey e => exact .unchanged _
  | byMessageId e => exact .unchanged _
  | register profile actorId createdAt =>
    rcases transaction_cases (registerTx rt profile actorId createdAt) db with
      ⟨e, _, htx⟩ | ⟨inserted, db', hok, htx⟩
    · rw [execute, htx]
      exact .unchanged _
    · rw [execute, htx]
      obtain ⟨hinsert, hdisabled, hmessages⟩ := registerTx_ok hok
      exact .registered hinsert hdisabled hmessages
  | setStatus w =>
    rcases transaction_cases (statusTx rt w) db with ⟨e, _, htx⟩ | ⟨updated, db', hok, htx⟩
    · rw [execute, htx]
      exact .unchanged _
    · rw [execute, htx]
      obtain ⟨hconnectors, hmessages⟩ := statusTx_ok hok
      exact .status hconnectors hmessages
  | record e status actorId createdAt =>
    rcases transaction_cases (recordTx rt e status actorId createdAt) db with
      ⟨e, _, htx⟩ | ⟨receipt, db', hok, htx⟩
    · rw [execute, htx]
      exact .unchanged _
    · rw [execute, htx]
      obtain ⟨hconnectors, added, rfl, hinsert⟩ := recordTx_ok hok
      exact .recorded hconnectors hinsert

theorem Effect.of_connector (h : Effect db (.connector key) db') : db' = db := by
  cases h
  rfl

/-- A statement keeps a connector enabled unless it takes it out of service. -/
theorem Effect.enabled {c : Statement} (heffect : Effect db c db') (h : db.Enabled key)
    (hkeep : ∀ w, c = .setStatus w → w.connector = key → w.status = .enabled) :
    db'.Enabled key := by
  obtain ⟨row, hrow, henabled⟩ := h
  cases heffect with
  | unchanged => exact ⟨row, hrow, henabled⟩
  | registered hinsert _ _ =>
    refine ⟨row, ?_, henabled⟩
    rw [Table.get_insert hinsert, if_neg, hrow]
    rintro rfl
    rw [(Table.rows_insert hinsert).2] at hrow
    cases hrow
  | @status w _ hconnectors _ =>
    unfold GatewayDb.Enabled
    rw [hconnectors]
    by_cases hkey : w.connector = key
    · subst hkey
      exact ⟨w.apply row, Table.get_modify_self _ hrow, hkeep w rfl rfl⟩
    · exact ⟨row, (Table.get_modify_ne _ hkey).trans hrow, henabled⟩
  | recorded hconnectors _ =>
    unfold GatewayDb.Enabled
    rw [hconnectors]
    exact ⟨row, hrow, henabled⟩

/-- A statement keeps every enabled connector reviewed when it enables none without a review. -/
theorem Effect.reviewed {c : Statement} (heffect : Effect db c db') (h : Reviewed db)
    (hlawful : ∀ w, c = .setStatus w → w.status = .enabled →
      ∃ review, w.review = some review ∧ review ≠ "") : Reviewed db' := by
  intro row hrow henabled
  cases heffect with
  | unchanged => exact h row hrow henabled
  | registered hinsert hdisabled _ =>
    rcases (Table.mem_insert hinsert).mp hrow with hrow | rfl
    · exact h row hrow henabled
    · rw [hdisabled] at henabled
      cases henabled
  | @status w _ hconnectors _ =>
    rw [hconnectors] at hrow
    rcases Table.mem_modify.mp hrow with ⟨hrow, _⟩ | ⟨old, _, _, rfl⟩
    · exact h row hrow henabled
    · exact hlawful w rfl henabled
  | recorded hconnectors _ =>
    rw [hconnectors] at hrow
    exact h row hrow henabled

/-- Only a record adds a message, and it adds that of its envelope. -/
theorem Effect.messages {c : Statement} (heffect : Effect db c db') {row : MessageRow}
    (h : row ∈ db'.messages.rows) :
    row ∈ db.messages.rows ∨
      ∃ status actorId createdAt, c = .record row.envelope status actorId createdAt := by
  cases heffect with
  | unchanged => exact .inl h
  | registered _ _ hmessages => exact .inl (hmessages ▸ h)
  | status _ hmessages => exact .inl (hmessages ▸ h)
  | recorded _ hinsert =>
    rcases (Table.mem_insert hinsert).mp h with h | rfl
    · exact .inl h
    · exact .inr ⟨_, _, _, rfl⟩

end

/-! ## Runs -/

section
variable {rt : GatewayRuntime}

/-- What a move does: a call begins, or the statement it executes has its effect. -/
theorem advance_cases (p : Calls) (m : Move Call) :
    ((advance rt p m).state = p.state ∧
      ∀ t ∈ (advance rt p m).threads, t ∈ p.threads ∨ ∃ k : Call, t = k.program rt) ∨
    ∃ c next, p.pending m = some c ∧ .ask c next ∈ p.threads ∧
      Effect p.state c (advance rt p m).state ∧
      ∀ t ∈ (advance rt p m).threads, t ∈ p.threads ∨ t = next (execute rt c p.state).1 := by
  cases m with
  | call k =>
    refine .inl ⟨rfl, ?_⟩
    intro t ht
    rcases List.mem_append.mp ht with ht | ht
    · exact .inl ht
    · exact .inr ⟨k, List.mem_singleton.mp ht⟩
  | resume i =>
    cases hi : p.threads[i]? with
    | none =>
      have hstep : advance rt p (.resume i) = p := by simp only [Pool.step, hi]
      exact .inl ⟨congrArg _ hstep, fun t ht => .inl (hstep ▸ ht)⟩
    | some t =>
      cases t with
      | done o =>
        have hstep : advance rt p (.resume i) = p := by simp only [Pool.step, hi]
        exact .inl ⟨congrArg _ hstep, fun t ht => .inl (hstep ▸ ht)⟩
      | fail e =>
        have hstep : advance rt p (.resume i) = p := by simp only [Pool.step, hi]
        exact .inl ⟨congrArg _ hstep, fun t ht => .inl (hstep ▸ ht)⟩
      | ask c next =>
        refine .inr ⟨c, next, ?_, List.mem_of_getElem? hi, ?_, ?_⟩
        · simp only [Pool.pending, hi]
          rfl
        · simp only [Pool.step, hi]
          exact effect_execute c p.state
        · simp only [Pool.step, hi]
          intro t ht
          exact List.mem_or_eq_of_mem_set ht

/-- Every call under way is checked. -/
def AllChecked (p : Calls) : Prop := ∀ t ∈ p.threads, Checked t

theorem AllChecked.step {p : Calls} (h : AllChecked p) (m : Move Call) :
    AllChecked (advance rt p m) := by
  intro t ht
  rcases advance_cases p m with ⟨_, hthreads⟩ | ⟨c, next, _, hmem, _, hthreads⟩
  · rcases hthreads t ht with ht | ⟨k, rfl⟩
    · exact h t ht
    · exact checked_program k
  · rcases hthreads t ht with ht | rfl
    · exact h t ht
    · exact (h _ hmem).2 _

theorem Reviewed.step {p : Calls} (hchecked : AllChecked p) (h : Reviewed p.state)
    (m : Move Call) : Reviewed (advance rt p m).state := by
  rcases advance_cases p m with ⟨hstate, _⟩ | ⟨c, next, _, hmem, heffect, _⟩
  · rw [hstate]
    exact h
  · apply heffect.reviewed h
    rintro w rfl henabled
    exact (hchecked _ hmem).1 henabled

/-- A connector a call holds is enabled. -/
def Held (p : Calls) : Prop := ∀ t ∈ p.threads, ∀ key, Holds key t → p.state.Enabled key

theorem Held.step {p : Calls} (hchecked : AllChecked p) (h : Held p) {m : Move Call}
    (hm : Undisturbed p m) : Held (advance rt p m) := by
  intro t ht key hholds
  rcases advance_cases p m with ⟨hstate, hthreads⟩ | ⟨c, next, hpending, hmem, heffect, hthreads⟩
  · rw [hstate]
    rcases hthreads t ht with ht | ⟨k, rfl⟩
    · exact h t ht key hholds
    · exact absurd hholds (not_holds_program k)
  · -- a connector that was held before the statement stays enabled
    have hkeep : ∀ t ∈ p.threads, Holds key t → (advance rt p m).state.Enabled key := by
      intro t ht hholds
      apply heffect.enabled (h t ht key hholds)
      rintro w rfl rfl
      by_contra hout
      exact hm w hpending hout t ht hholds
    rcases hthreads t ht with ht | rfl
    · exact hkeep t ht hholds
    · by_cases hread : ∃ k, c = .connector k
      · obtain ⟨k, rfl⟩ := hread
        obtain ⟨hnone, hsome⟩ := (hchecked _ hmem).1
        rw [heffect.of_connector]
        change Holds key (next (p.state.connectors.get k)) at hholds
        cases hget : p.state.connectors.get k with
        | none =>
          rw [hget] at hholds
          exact absurd hholds (hnone key)
        | some row =>
          rw [hget] at hholds
          obtain ⟨rfl, henabled⟩ := hsome row (Table.get_key hget) key hholds
          exact ⟨row, hget, henabled⟩
      · exact hkeep _ hmem (.later _ (fun k hk => hread ⟨k, hk⟩) hholds)

/-- A record of a call that is held back by nothing is made while its connector is enabled. -/
theorem Held.gated {p : Calls} (h : Held p) (m : Move Call) :
    Gated p.state (advance rt p m).state := by
  intro row hrow
  rcases advance_cases p m with ⟨hstate, _⟩ | ⟨c, next, _, hmem, heffect, _⟩
  · exact .inl (hstate ▸ hrow)
  · rcases heffect.messages hrow with hrow | ⟨status, actorId, createdAt, rfl⟩
    · exact .inl hrow
    · exact .inr (h _ hmem _ (.record rfl))

end

/-- **Connector gating.** Whatever the interleaving, an enabled connector carries a review
reference; and no message is recorded of a connector that is not enabled, when no connector is
taken out of service while a call that has read it may still record. -/
theorem connector_gating (rt : GatewayRuntime) (moves : List (Move Call)) :
    Along (advance rt) (fun _ _ q => Reviewed q.state) ⟨∅, []⟩ moves ∧
      (Along (advance rt) (fun p m _ => Undisturbed p m) ⟨∅, []⟩ moves →
        Along (advance rt) (fun p _ q => Gated p.state q.state) ⟨∅, []⟩ moves) := by
  have hchecked : AllChecked ⟨∅, []⟩ := by
    intro t ht
    exact absurd ht List.not_mem_nil
  have hreviewed : Reviewed ∅ := by
    intro row hrow
    exact absurd hrow List.not_mem_nil
  have hheld : Held ⟨∅, []⟩ := by
    intro t ht
    exact absurd ht List.not_mem_nil
  constructor
  · apply along_of_invariant (I := fun p : Calls => AllChecked p ∧ Reviewed p.state) ?_
      ⟨hchecked, hreviewed⟩
    rintro p m ⟨hchecked, hreviewed⟩
    have hnext : Reviewed (advance rt p m).state := hreviewed.step hchecked m
    exact ⟨hnext, hchecked.step m, hnext⟩
  · apply Along.of_invariant (I := fun p : Calls => AllChecked p ∧ Held p) ?_ ⟨hchecked, hheld⟩
    rintro p m ⟨hchecked, hheld⟩ hundisturbed
    exact ⟨hheld.gated m, hchecked.step m, hheld.step hchecked hundisturbed⟩

/-! ## A connector that is suspended in between -/

/-- A runtime for small examples: the digest of a text is the text. -/
def sampleRuntime : GatewayRuntime where
  repr _ := ""
  floatText _ := "0.5"
  parseFloat _ := none
  sha256 := id
  fromisoformat _ := .instant 0
  isoformat _ := "2026-08-29T12:00:00+00:00"
  urlparse _ := .ok ⟨"https", some "agents.example.test", none, none, ""⟩

def sampleKey : ConnectorKey := (⟨"tenant-a", by decide +kernel⟩, ⟨"rest-main", by decide +kernel⟩)

def sampleConnector : PyValue := .dict
  [("tenant_id", .str "tenant-a"), ("connector_id", .str "rest-main"),
   ("vendor_id", .str "test-vendor"), ("protocol", .str "REST"), ("protocol_version", .str "1.0"),
   ("endpoint", .str "https://agents.example.test/gateway"), ("auth_method", .str "API_KEY"),
   ("credential_secret_ref", .str "secret://gateway/rest-main"),
   ("allowed_operations", .list [.str "OBSERVATION_RECEIVED"]), ("actor_id", .str "gateway-admin")]

def sampleStatus (status : String) : PyValue := .dict
  [("tenant_id", .str "tenant-a"), ("connector_id", .str "rest-main"), ("status", .str status),
   ("security_review_ref", .str "review-1"), ("actor_id", .str "gateway-admin")]

def sampleMessage : PyValue := .dict
  [("tenant_id", .str "tenant-a"), ("connector_id", .str "rest-main"), ("protocol", .str "REST"),
   ("protocol_version", .str "1.0"), ("message_id", .str "message-1"),
   ("idempotency_key", .str "request-1"), ("occurred_at", .str "2026-08-29T12:00:00Z"),
   ("actor_id", .str "gateway-ingress"),
   ("body", .dict [("operation", .str "OBSERVATION_RECEIVED"), ("payload", .dict [])])]

/-- A connector is registered and enabled, and a message has read it. -/
def readMoves : List (Move Call) :=
  [.call (.registerConnector sampleConnector 0), .resume 0, .resume 0,
   .call (.setConnectorStatus (sampleStatus "ENABLED") 0), .resume 1, .resume 1, .resume 1,
   .call (.ingest sampleMessage 0), .resume 2]

/-- It is suspended, and the message looks for an earlier one. -/
def suspendMoves : List (Move Call) :=
  [.call (.setConnectorStatus (sampleStatus "SUSPENDED") 0), .resume 3, .resume 3, .resume 3,
   .resume 2, .resume 2]

def suspendedCalls : Calls := exec (advance sampleRuntime) ⟨∅, []⟩ (readMoves ++ suspendMoves)

/-- The move takes a connector out of service. -/
def takesOut (p : Calls) (m : Move Call) : Bool :=
  match p.pending m with
  | some (.setStatus w) => w.status ≠ .enabled
  | _ => false

theorem undisturbed_of_takesOut {p : Calls} {m : Move Call} (h : takesOut p m = false) :
    Undisturbed p m := by
  intro w hpending hstatus
  unfold takesOut at h
  rw [hpending] at h
  exact absurd hstatus (of_decide_eq_false h)

/-- A message recorded while its connector stays enabled. -/
theorem gated_enabled : Along (advance sampleRuntime) (fun p _ q => Gated p.state q.state) ⟨∅, []⟩
    (readMoves ++ [.resume 2, .resume 2, .resume 2]) := by
  apply (connector_gating sampleRuntime _).2
  have hstays : Along (advance sampleRuntime) (fun p m _ => takesOut p m = false) ⟨∅, []⟩
      (readMoves ++ [.resume 2, .resume 2, .resume 2]) := by decide +kernel
  refine Along.mono ?_ hstays
  intro p m h
  exact undisturbed_of_takesOut h

/-- **A message of a suspended connector is recorded.** -/
theorem suspended_before_record : ¬ ∀ (rt : GatewayRuntime) (moves : List (Move Call)),
    Along (advance rt) (fun p _ q => Gated p.state q.state ∧ Reviewed q.state) ⟨∅, []⟩ moves := by
  intro h
  have hrun := h sampleRuntime (readMoves ++ suspendMoves ++ [.resume 2])
  have hgated : Gated suspendedCalls.state
      (advance sampleRuntime suspendedCalls (.resume 2)).state :=
    ((along_append _ _ _ _ _).mp hrun).2.1.1
  have hbefore : suspendedCalls.state.messages.rows.length = 0 := by decide +kernel
  have hsuspended : (suspendedCalls.state.connectors.get sampleKey).map (·.status) =
      some .suspended := by decide +kernel
  have hafter : (advance sampleRuntime suspendedCalls (.resume 2)).state.messages.rows.map
      (fun r => r.envelope.connector) = [sampleKey] := by decide +kernel
  obtain ⟨row, hrow, hkey⟩ : ∃ row ∈ (advance sampleRuntime suspendedCalls
      (.resume 2)).state.messages.rows, row.envelope.connector = sampleKey :=
    List.mem_map.mp (hafter ▸ List.mem_singleton_self sampleKey)
  rcases hgated row hrow with hold | ⟨connector, hget, henabled⟩
  · rw [List.length_eq_zero_iff.mp hbefore] at hold
    exact List.not_mem_nil hold
  · rw [hkey] at hget
    rw [hget, Option.map_some, henabled] at hsuspended
    cases hsuspended

end Edon.Gateway
