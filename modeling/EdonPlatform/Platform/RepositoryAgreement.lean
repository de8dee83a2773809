import EdonPlatform.Platform.RepositoryCalls
import EdonPlatform.Lib.Run

/- The two repositories against each other: over the same calls and transactions, whether
   events, states, reviews, decisions, outcomes, receipts and stored responses read the
   same. The maps in memory take the last value that is put, under a text that two keys
   can share, and keep what a transaction wrote that throws; the tables keep the first row
   of a key, of one tenant at a time, and read a receipt with its custody.

   What is proved:
     1. `repositories_agree` — in every run of calls and transactions each of which is
        `Sound` for the tables as they are, every read gives the same in both.
     2. `aborted_write_read` — a receipt that a transaction puts before it throws is read
        in memory, and is not in the database.

   What carries the run is that the memory stands for the tables of the open transaction,
   or of the last one that was committed (`Memory.Represents`). -/
namespace Edon.Platform
open Js Fallible Transition Dict

structure RepositoryPair where
  memory : Memory := {}
  sql : Sql := {}

def RepositoryCall.isRead : RepositoryCall → Bool
  | .getEvents .. | .getState .. | .getReview .. | .getKernelDecision .. | .getOutcome ..
  | .getReceipt .. | .getIdempotency .. => true
  | _ => false

section
variable (pg : Postgres)

def RepositoryPair.step (b : RepositoryPair) (s : RepositoryStep) : RepositoryPair :=
  ⟨b.memory.step s, b.sql.step pg s⟩

/-- A read returns in both, and returns the same. -/
def SameRead (b : RepositoryPair) : RepositoryStep → RepositoryPair → Prop
  | .call c, _ => c.isRead = true → ∃ r tables, b.sql.call pg c = .ok (r, tables) ∧
      (b.memory.call c).1.Same r
  | _, _ => True

/-! ## The condition -/

/-- A record that is written once: it is seen, no other record shares its text, and it is the
first of its key, in values that JSON has, or the same again. -/
structure Document.Once (d : Document) (a : Access) (t : Table Document.key) : Prop where
  seen : a.sees d.tenantId = true
  alone : Unshared mapKey (t.rows.map Document.key) d.key
  first : ∀ row, t.get d.key = some row → row.value = d.value
  json : t.get d.key = none → stored d.value = d.value

/-- The review is new and later than those of its proposal, or it is the last one again. -/
structure TenantReview.Last (r : TenantReview) (a : Access) (t : Tables) : Prop where
  seen : a.sees r.tenantId = true
  alone : Unshared mapKey (t.reviews.rows.map fun row => row.proposal) r.proposal
  last : t.lastReview r.proposal = some r ∨
    (t.reviews.get (r.tenantId, r.review.reviewId) = none ∧
      ∀ row ∈ t.reviews.rows, row.proposal = r.proposal → row.recordedAt < a.now)

/-- The decision is new and later than those on its proposal, or it is the last one again. -/
structure TenantDecision.Last (d : TenantDecision) (a : Access) (t : Tables) : Prop where
  seen : a.sees d.tenantId = true
  instant : (pg.instant d.stored.recordedAt).isSome = true
  alone : Unshared mapKey (t.decisions.rows.map TenantDecision.proposal) d.proposal
  last : t.lastDecision pg d.proposal = some d ∨
    (t.decisions.get d.key = none ∧ ∀ row ∈ t.decisions.rows, row.proposal = d.proposal →
      decisionBefore pg row d ∧ ¬ decisionBefore pg d row)

/-- The record of the key is seen, and no other shares its text. -/
def Readable (a : Access) (keys : List (String × String)) (tenantId id : String) : Prop :=
  a.sees tenantId = true ∧ Unshared mapKey keys (tenantId, id)

/-- The condition on a call, in the tables it sees. -/
def RepositoryCall.Sound (a : Access) (t : Tables) : RepositoryCall → Prop
  | .appendEvent e => a.sees e.tenantId = true ∧ (pg.instant e.recordedAt).isSome = true ∧
      (t.journal.get (eventKey e) = none → stored e.payload = e.payload)
  | .getEvents tenantId incidentId => a.sees tenantId = true ∧
      (incidentId = some "" → ∀ e ∈ t.journal.rows, e.tenantId = tenantId → e.incidentId = "")
  | .putState incident expectedVersion =>
      incident.stateVersion = expectedVersion + 1 → a.sees incident.tenantId = true
  | .getState tenantId scopeId =>
      a.sees tenantId = true → t.snapshots.get (tenantId, scopeId) = none
  | .putReview review => review.Last a t
  | .getReview tenantId proposalId =>
      Readable a (t.reviews.rows.map fun row => row.proposal) tenantId proposalId
  | .putKernelDecision decision => decision.Last pg a t
  | .getKernelDecision tenantId proposalId =>
      Readable a (t.decisions.rows.map TenantDecision.proposal) tenantId proposalId
  | .putOutcome outcome => outcome.Once a t.outcomes
  | .getOutcome tenantId outcomeId =>
      Readable a (t.outcomes.rows.map Document.key) tenantId outcomeId
  | .putReceipt receipt => receipt.Once a t.receipts
  | .getReceipt tenantId receiptId =>
      Readable a (t.receipts.rows.map Document.key) tenantId receiptId ∧
      ∀ row c, t.receipts.get (tenantId, receiptId) = some row →
        t.custody.get (tenantId, receiptId) = some c → c.sign row.value = row.value
  | .putReceiptCustody record => a.sees record.tenantId = true ∧
      (t.custody.get record.key = none → (t.receipts.get record.key).isSome = true)
  | .claimIdempotency tenantId key response =>
      Readable a (t.idempotency.rows.map Document.key) tenantId key ∧
      ∃ v, response = some v ∧ (t.idempotency.get (tenantId, key) = none → stored v = v)
  | .putIdempotencyResponse tenantId key response =>
      Readable a (t.idempotency.rows.map Document.key) tenantId key ∧
      (t.idempotency.get (tenantId, key)).isSome = true ∧
      ∃ v, response = some v ∧ stored v = v
  | .getIdempotency tenantId key =>
      Readable a (t.idempotency.rows.map Document.key) tenantId key
  | .other refused => refused = false

/-- The tables that are in memory too are the same. -/
structure Tables.SameRecords (t t' : Tables) : Prop where
  journal : t.journal = t'.journal
  reviews : t.reviews = t'.reviews
  decisions : t.decisions = t'.decisions
  outcomes : t.outcomes = t'.outcomes
  receipts : t.receipts = t'.receipts
  idempotency : t.idempotency = t'.idempotency

/-- A call meets its condition, and a transaction that throws has written nothing that is in
memory too. -/
def RepositoryStep.Sound (q : Sql) : RepositoryStep → Prop
  | .call c => c.Sound pg q.access q.current
  | .throw => ∀ s, q.session = some s → s.depth = 0 → s.tables.SameRecords q.tables
  | _ => True

/-! ## The memory stands for the tables -/

structure Memory.Represents (m : Memory) (t : Tables) : Prop where
  events : m.events = t.journal.rows
  receipts : m.receipts.Represents mapKey fun k => (t.receipts.get k).map fun d => d.value
  outcomes : m.outcomes.Represents mapKey fun k => (t.outcomes.get k).map fun d => d.value
  idempotency :
    m.idempotency.Represents mapKey fun k => (t.idempotency.get k).map fun d => some d.value
  reviews : m.reviews.Represents mapKey t.lastReview
  decisions : m.decisions.Represents mapKey (t.lastDecision pg)

theorem represents_initial : Memory.Represents pg {} {} where
  events := rfl
  receipts := represents_empty mapKey
  outcomes := represents_empty mapKey
  idempotency := represents_empty mapKey
  reviews := represents_empty mapKey
  decisions := represents_empty mapKey

variable {pg}

theorem Tables.SameRecords.represents {m : Memory} {t t' : Tables} (h : t.SameRecords t')
    (hm : m.Represents pg t) : m.Represents pg t' where
  events := h.journal ▸ hm.events
  receipts := h.receipts ▸ hm.receipts
  outcomes := h.outcomes ▸ hm.outcomes
  idempotency := h.idempotency ▸ hm.idempotency
  reviews := by
    have hreviews := hm.reviews
    unfold Tables.lastReview at hreviews ⊢
    rw [← h.reviews]
    exact hreviews
  decisions := by
    have hdecisions := hm.decisions
    unfold Tables.lastDecision at hdecisions ⊢
    rw [← h.decisions]
    exact hdecisions

/-! ### Records that are written once -/

theorem check_seen {a : Access} {tenantId : String} (h : a.sees tenantId = true) :
    a.check tenantId = .ok () := require_ok.mpr h

theorem get_key_mem {α β κ : Type} [DecidableEq κ] {key : α → κ} {t : Table key} {f : α → β} (k : κ)
    (v : β) (h : (t.get k).map f = some v) : k ∈ t.rows.map key := by
  obtain ⟨row, hrow, _⟩ := Option.map_eq_some_iff.mp h
  obtain ⟨hmem, rfl⟩ := Table.get_eq_some.mp hrow
  exact List.mem_map_of_mem hmem

theorem insert_taken {α κ : Type} [DecidableEq κ] {key : α → κ} {t : Table key} {r row : α}
    (h : t.get (key r) = some row) : t.insert r = none := by
  cases hinsert : t.insert r with
  | none => rfl
  | some u =>
    rw [(Table.rows_insert hinsert).2] at h
    cases h

theorem insertDocument_free {t : Table Document.key} {d : Document} {a : Access}
    (hseen : a.sees d.tenantId = true) (hget : t.get d.key = none) :
    ∃ t', t.insert { d with value := stored d.value } = some t' ∧
      insertDocument a d t = .ok (true, t') := by
  obtain ⟨t', hinsert⟩ :=
    Table.insert_of_get (r := ({ d with value := stored d.value } : Document)) hget
  refine ⟨t', hinsert, ?_⟩
  unfold insertDocument
  simp only [bind, Except.bind, pure, Except.pure, check_seen hseen, hinsert]

theorem insertDocument_taken {t : Table Document.key} {d row : Document} {a : Access}
    (hseen : a.sees d.tenantId = true) (hget : t.get d.key = some row) :
    insertDocument a d t = .ok (false, t) := by
  have htaken : t.insert { d with value := stored d.value } = none := insert_taken hget
  unfold insertDocument
  simp only [bind, Except.bind, pure, Except.pure, check_seen hseen, htaken]

/-- Both keep the record under its key, the first one or the same again. -/
theorem insertDocument_represents {α : Type} (f : Value → α) {m : Dict String α}
    {t : Table Document.key} {d : Document} {a : Access}
    (h : m.Represents mapKey fun k => (t.get k).map fun x => f x.value) (honce : d.Once a t) :
    ∃ t', insertDocument a d t = .ok ((t.get d.key).isNone, t') ∧
      (m.set (mapKey d.key) (f d.value)).Represents mapKey
        fun k => (t'.get k).map fun x => f x.value := by
  cases hget : t.get d.key with
  | none =>
    obtain ⟨t', hinsert, hcall⟩ := insertDocument_free honce.seen hget
    refine ⟨t', hcall, h.set get_key_mem honce.alone fun j => ?_⟩
    rw [Table.get_insert hinsert, honce.json hget]
    show Option.map _ (if d.key = j then some d else t.get j) = _
    split <;> rfl
  | some first =>
    refine ⟨t, insertDocument_taken honce.seen hget, h.set get_key_mem honce.alone fun j => ?_⟩
    split
    · next hj =>
      subst hj
      rw [hget]
      show some (f first.value) = some (f d.value)
      rw [honce.first first hget]
    · rfl

theorem selectDocument_seen {a : Access} {tenantId id : String} (h : a.sees tenantId = true)
    (t : Table Document.key) :
    selectDocument a tenantId id t = (t.get (tenantId, id)).map Document.value := if_pos h

/-! ### Reviews and decisions -/

/-- The last row of a group, after a row is inserted that is later than the others of its
group. -/
theorem latest_insert {α κ γ : Type} [DecidableEq κ] [DecidableEq γ] {key : α → κ} {t u : Table key}
    {x : α} {r : α → α → Prop} [DecidableRel r] (hinsert : t.insert x = some u) (group : α → γ)
    (hlast : ∀ y ∈ t.rows, group y = group x → r y x ∧ ¬ r x y) (k : γ) :
    Sorting.latest r (u.rows.filter fun y => group y = k) =
      if group x = k then some x else Sorting.latest r (t.rows.filter fun y => group y = k) := by
  have hrows := (Table.rows_insert hinsert).1
  have hnodup : u.rows.Nodup := List.Nodup.of_map key u.unique
  rw [hrows] at hnodup ⊢
  split
  · next hk =>
    apply Sorting.latest_of_forall (hnodup.filter _)
    · simp [hk]
    · intro y hy hne
      obtain ⟨hmem, hgroup⟩ := List.mem_filter.mp hy
      rw [decide_eq_true_eq] at hgroup
      rcases List.mem_append.mp hmem with hmem | hmem
      · exact hlast y hmem (hgroup.trans hk.symm)
      · exact absurd (List.mem_singleton.mp hmem) hne
  · next hk =>
    rw [List.filter_append, List.filter_singleton]
    simp [hk]

theorem lastReview_mem {t : Tables} (k : String × String) (v : TenantReview)
    (h : t.lastReview k = some v) : k ∈ t.reviews.rows.map fun row => row.proposal := by
  obtain ⟨row, hlatest, _⟩ := Option.map_eq_some_iff.mp h
  obtain ⟨hmem, hproposal⟩ := List.mem_filter.mp (Sorting.latest_mem hlatest)
  exact List.mem_map.mpr ⟨row, hmem, of_decide_eq_true hproposal⟩

theorem lastDecision_mem {t : Tables} (k : String × String) (v : TenantDecision)
    (h : t.lastDecision pg k = some v) : k ∈ t.decisions.rows.map TenantDecision.proposal := by
  obtain ⟨hmem, hproposal⟩ := List.mem_filter.mp (Sorting.latest_mem h)
  exact List.mem_map.mpr ⟨v, hmem, of_decide_eq_true hproposal⟩

/-- A review that is the last one of its proposal is in the table. -/
theorem review_taken {t : Tables} {r : TenantReview} (h : t.lastReview r.proposal = some r) :
    ∃ row, t.reviews.get (r.tenantId, r.review.reviewId) = some row := by
  obtain ⟨row, hlatest, hrow⟩ := Option.map_eq_some_iff.mp h
  obtain ⟨hmem, _⟩ := List.mem_filter.mp (Sorting.latest_mem hlatest)
  have hkey : row.key = (r.tenantId, r.review.reviewId) := by
    rw [← hrow]
    rfl
  exact ⟨row, Table.get_eq_some.mpr ⟨hmem, hkey⟩⟩

theorem decision_taken {t : Tables} {d : TenantDecision}
    (h : t.lastDecision pg d.proposal = some d) : t.decisions.get d.key = some d :=
  Table.get_of_mem (List.mem_filter.mp (Sorting.latest_mem h)).1

/-! ### One call -/

variable {m : Memory} {t : Tables} {a : Access}

theorem appendEvent_agrees (h : m.Represents pg t) {e : EventEnvelope}
    (hsound : (RepositoryCall.appendEvent e).Sound pg a t) :
    ∃ r t', t.call pg a (.appendEvent e) = .ok (r, t') ∧
      (m.call (.appendEvent e)).2.Represents pg t' := by
  obtain ⟨hseen, hinstant, hjson⟩ := hsound
  obtain ⟨time, htime⟩ := Option.isSome_iff_exists.mp hinstant
  have hany : (m.events.any fun x => x.tenantId = e.tenantId ∧ x.eventId = e.eventId) = true ↔
      t.journal.get (eventKey e) ≠ none := by
    rw [h.events, ne_eq, Table.get_eq_none, List.any_eq_true]
    simp [eventKey]
  unfold Tables.call Memory.call
  simp only [bind, Except.bind, pure, Except.pure, check_seen hseen, timestamptz, htime, orRaise]
  cases hget : t.journal.get (eventKey e) with
  | none =>
    have hjournaled : e.journaled = e := by
      unfold EventEnvelope.journaled
      rw [hjson hget]
    obtain ⟨journal, hinsert⟩ := Table.insert_of_get (r := e) hget
    rw [hjournaled, hinsert, if_neg (hany.not.mpr (not_not.mpr hget))]
    refine ⟨_, _, rfl, { h with events := ?_ }⟩
    show m.events ++ [e] = journal.rows
    rw [(Table.rows_insert hinsert).1, h.events]
  | some first =>
    have htaken : t.journal.get (eventKey e.journaled) = some first := hget
    rw [insert_taken htaken, if_pos (hany.mpr (by simp [hget]))]
    exact ⟨_, _, rfl, h⟩

theorem getEvents_agrees (h : m.Represents pg t) {tenantId : String} {incidentId : Option String}
    (hsound : (RepositoryCall.getEvents tenantId incidentId).Sound pg a t) :
    ∃ r, t.call pg a (.getEvents tenantId incidentId) = .ok (r, t) ∧
      (m.call (.getEvents tenantId incidentId)).1.Same r := by
  obtain ⟨hseen, hempty⟩ := hsound
  refine ⟨_, rfl, ?_⟩
  show List.Perm _ _
  rw [h.events]
  refine List.Perm.trans (List.Perm.of_eq ?_) (List.perm_insertionSort _ _).symm
  apply List.filter_congr
  intro e he
  cases incidentId with
  | none => simp [hseen]
  | some incident =>
    by_cases hincident : incident = ""
    · subst hincident
      have hsame := hempty rfl e he
      simp only [hseen, Option.all_some, true_and, true_or, decide_true, and_true]
      by_cases htenant : e.tenantId = tenantId
      · simp [htenant, hsame htenant]
      · simp [htenant]
    · simp [hseen, hincident]

theorem putState_agrees (h : m.Represents pg t) {incident : StoredIncident} {expectedVersion : Int}
    (hsound : (RepositoryCall.putState incident expectedVersion).Sound pg a t) :
    ∃ r t', t.call pg a (.putState incident expectedVersion) = .ok (r, t') ∧
      (m.call (.putState incident expectedVersion)).2.Represents pg t' := by
  have hmemory : (m.call (.putState incident expectedVersion)).2.Represents pg t := by
    unfold Memory.call
    dsimp only
    split
    · exact h
    · exact { h with }
  have hput : ∃ put snapshots, t.putState a incident expectedVersion =
      .ok (put, { t with snapshots }) := by
    unfold Tables.putState
    dsimp only
    split
    · exact ⟨_, t.snapshots, rfl⟩
    · next hversion =>
      split
      · exact ⟨_, _, rfl⟩
      · rw [check_seen (hsound (not_not.mp hversion))]
        simp only [bind, Except.bind, pure, Except.pure]
        split
        · exact ⟨_, _, rfl⟩
        · exact ⟨_, t.snapshots, rfl⟩
  obtain ⟨put, snapshots, hput⟩ := hput
  refine ⟨.flag put, { t with snapshots }, ?_, { hmemory with }⟩
  unfold Tables.call
  dsimp only
  rw [hput]
  rfl

theorem putReview_agrees (h : m.Represents pg t) {r : TenantReview} (hlast : r.Last a t) :
    ∃ res t', t.call pg a (.putReview r) = .ok (res, t') ∧
      (m.call (.putReview r)).2.Represents pg t' := by
  unfold Tables.call
  simp only [bind, Except.bind, pure, Except.pure, check_seen hlast.seen]
  rcases hlast.last with hagain | ⟨hfree, hlater⟩
  · obtain ⟨row, hrow⟩ := review_taken hagain
    rw [insert_taken (r := ({ r with recordedAt := a.now } : ReviewRecord)) hrow]
    refine ⟨_, _, rfl, { h with reviews := h.reviews.set lastReview_mem hlast.alone fun j => ?_ }⟩
    split
    · next hj => rw [← hj, hagain]
    · rfl
  · obtain ⟨reviews, hinsert⟩ :=
      Table.insert_of_get (r := ({ r with recordedAt := a.now } : ReviewRecord)) hfree
    rw [hinsert]
    refine ⟨_, _, rfl, { h with reviews := h.reviews.set lastReview_mem hlast.alone fun j => ?_ }⟩
    have hlatest := latest_insert (r := reviewedBefore) hinsert (fun row => row.proposal)
      (fun y hy hsame => by
        have hlt := hlater y hy hsame
        exact ⟨le_of_lt hlt, not_le_of_gt hlt⟩) j
    unfold Tables.lastReview
    rw [hlatest]
    show Option.map _ (if r.proposal = j then _ else _) = _
    split <;> rfl

theorem putKernelDecision_agrees (h : m.Represents pg t) {d : TenantDecision}
    (hlast : d.Last pg a t) : ∃ res t', t.call pg a (.putKernelDecision d) = .ok (res, t') ∧
      (m.call (.putKernelDecision d)).2.Represents pg t' := by
  obtain ⟨time, htime⟩ := Option.isSome_iff_exists.mp hlast.instant
  unfold Tables.call
  simp only [bind, Except.bind, pure, Except.pure, check_seen hlast.seen, timestamptz, htime, orRaise]
  rcases hlast.last with hagain | ⟨hfree, hlater⟩
  · rw [insert_taken (decision_taken hagain)]
    refine ⟨_, _, rfl, { h with
      decisions := h.decisions.set lastDecision_mem hlast.alone fun j => ?_ }⟩
    split
    · next hj => rw [← hj, hagain]
    · rfl
  · obtain ⟨decisions, hinsert⟩ := Table.insert_of_get (r := d) hfree
    rw [hinsert]
    refine ⟨_, _, rfl, { h with
      decisions := h.decisions.set lastDecision_mem hlast.alone fun j => ?_ }⟩
    exact latest_insert hinsert TenantDecision.proposal hlater j

theorem putOutcome_agrees (h : m.Represents pg t) {d : Document} (honce : d.Once a t.outcomes) :
    ∃ r t', t.call pg a (.putOutcome d) = .ok (r, t') ∧
      (m.call (.putOutcome d)).2.Represents pg t' := by
  obtain ⟨outcomes, hinsert, hset⟩ := insertDocument_represents id h.outcomes honce
  exact ⟨.nothing, { t with outcomes }, bind_ok.mpr ⟨_, hinsert, rfl⟩, { h with outcomes := hset }⟩

theorem putReceipt_agrees (h : m.Represents pg t) {d : Document} (honce : d.Once a t.receipts) :
    ∃ r t', t.call pg a (.putReceipt d) = .ok (r, t') ∧
      (m.call (.putReceipt d)).2.Represents pg t' := by
  obtain ⟨receipts, hinsert, hset⟩ := insertDocument_represents id h.receipts honce
  exact ⟨.nothing, { t with receipts }, bind_ok.mpr ⟨_, hinsert, rfl⟩, { h with receipts := hset }⟩

theorem putReceiptCustody_agrees (h : m.Represents pg t) {record : Custody}
    (hsound : (RepositoryCall.putReceiptCustody record).Sound pg a t) :
    ∃ r t', t.call pg a (.putReceiptCustody record) = .ok (r, t') ∧
      (m.call (.putReceiptCustody record)).2.Represents pg t' := by
  obtain ⟨hseen, hreferenced⟩ := hsound
  have hmemory : (m.call (.putReceiptCustody record)).2.Represents pg t := by
    unfold Memory.call
    dsimp only
    split
    · exact h
    · exact { h with }
  have hcall : ∃ r custody, t.call pg a (.putReceiptCustody record) = .ok (r, { t with custody }) := by
    unfold Tables.call
    simp only [bind, Except.bind, check_seen hseen]
    cases hinsert : t.custody.insert record with
    | none => exact ⟨_, t.custody, rfl⟩
    | some custody =>
      dsimp only
      rw [if_pos (hreferenced (Table.rows_insert hinsert).2)]
      exact ⟨_, custody, rfl⟩
  obtain ⟨r, custody, hcall⟩ := hcall
  exact ⟨r, _, hcall, { hmemory with }⟩

theorem claimIdempotency_agrees (h : m.Represents pg t) {tenantId key : String}
    {response : Option Value}
    (hsound : (RepositoryCall.claimIdempotency tenantId key response).Sound pg a t) :
    ∃ r t', t.call pg a (.claimIdempotency tenantId key response) = .ok (r, t') ∧
      (m.call (.claimIdempotency tenantId key response)).2.Represents pg t' := by
  obtain ⟨⟨hseen, halone⟩, v, rfl, hjson⟩ := hsound
  have hmemory := h.idempotency.get get_key_mem halone
  unfold Tables.call Memory.call
  dsimp only
  rw [hmemory]
  simp only [orRaise, bind, Except.bind]
  cases hget : t.idempotency.get (tenantId, key) with
  | none =>
    have honce : (⟨tenantId, key, v⟩ : Document).Once a t.idempotency :=
      ⟨hseen, halone, fun row hrow => (by cases hget.symm.trans hrow), hjson⟩
    obtain ⟨idempotency, hinsert, hset⟩ := insertDocument_represents some h.idempotency honce
    have hfree : t.idempotency.get (Document.key ⟨tenantId, key, v⟩) = none := hget
    rw [hinsert, hfree]
    exact ⟨_, _, rfl, { h with idempotency := hset }⟩
  | some first =>
    have htaken : t.idempotency.get (Document.key ⟨tenantId, key, v⟩) = some first := hget
    rw [insertDocument_taken hseen htaken]
    exact ⟨_, _, rfl, h⟩

theorem putIdempotencyResponse_agrees (h : m.Represents pg t) {tenantId key : String}
    {response : Option Value}
    (hsound : (RepositoryCall.putIdempotencyResponse tenantId key response).Sound pg a t) :
    ∃ r t', t.call pg a (.putIdempotencyResponse tenantId key response) = .ok (r, t') ∧
      (m.call (.putIdempotencyResponse tenantId key response)).2.Represents pg t' := by
  obtain ⟨⟨hseen, halone⟩, hsome, v, rfl, hjson⟩ := hsound
  obtain ⟨row, hrow⟩ := Option.isSome_iff_exists.mp hsome
  unfold Tables.call
  dsimp only
  rw [if_pos ⟨hseen, hsome⟩]
  refine ⟨_, _, rfl, { h with
    idempotency := h.idempotency.set get_key_mem halone fun j => ?_ }⟩
  have hkey : ∀ d : Document, Document.key { d with value := stored v } = d.key := fun _ => rfl
  show Option.map _ ((t.idempotency.modify (tenantId, key) _ hkey).get j) = _
  rw [Table.get_modify]
  split
  · next hj =>
    rw [← hj, hrow]
    show some (some (stored v)) = some (some v)
    rw [hjson]
  · rfl

/-- A read of a sound call gives the same in both, and changes nothing. -/
theorem read_agrees (h : m.Represents pg t) {c : RepositoryCall} (hread : c.isRead = true)
    (hsound : c.Sound pg a t) : ∃ r, t.call pg a c = .ok (r, t) ∧ (m.call c).1.Same r ∧
      (m.call c).2 = m := by
  cases c with
  | getEvents tenantId incidentId =>
    obtain ⟨r, hcall, hsame⟩ := getEvents_agrees h hsound
    exact ⟨r, hcall, hsame, rfl⟩
  | getState tenantId scopeId =>
    refine ⟨_, rfl, ?_, rfl⟩
    show Returned.state none = _
    split
    · next hseen => rw [hsound hseen, Option.map_none]
    · rfl
  | getReview tenantId proposalId =>
    refine ⟨_, rfl, ?_, rfl⟩
    rw [if_pos hsound.1]
    exact congrArg Returned.review (h.reviews.get lastReview_mem hsound.2)
  | getKernelDecision tenantId proposalId =>
    refine ⟨_, rfl, ?_, rfl⟩
    rw [if_pos hsound.1]
    exact congrArg Returned.decision (h.decisions.get lastDecision_mem hsound.2)
  | getOutcome tenantId outcomeId =>
    refine ⟨_, rfl, ?_, rfl⟩
    rw [selectDocument_seen hsound.1]
    exact congrArg Returned.document (h.outcomes.get get_key_mem hsound.2)
  | getReceipt tenantId receiptId =>
    obtain ⟨⟨hseen, halone⟩, hcustody⟩ := hsound
    refine ⟨_, rfl, ?_, rfl⟩
    rw [selectDocument_seen hseen]
    show Returned.document _ = _
    rw [h.receipts.get get_key_mem halone]
    cases hrow : t.receipts.get (tenantId, receiptId) with
    | none => rfl
    | some row =>
      cases hc : t.custody.get (tenantId, receiptId) with
      | none => rfl
      | some c =>
        show Returned.document (some row.value) = .document (some (c.sign row.value))
        rw [hcustody row c hrow hc]
  | getIdempotency tenantId key =>
    refine ⟨_, rfl, ?_, rfl⟩
    rw [selectDocument_seen hsound.1]
    show Returned.document _ = _
    rw [h.idempotency.get get_key_mem hsound.2]
    cases t.idempotency.get (tenantId, key) <;> rfl
  | _ => cases hread

/-- **One call.** A sound call is answered by the database, a read as in memory, and the memory
stands for the tables after it. -/
theorem call_agrees (h : m.Represents pg t) {c : RepositoryCall} (hsound : c.Sound pg a t) :
    ∃ r t', t.call pg a c = .ok (r, t') ∧ (m.call c).2.Represents pg t' ∧
      (c.isRead = true → (m.call c).1.Same r) := by
  have hwrite : (∃ r t', t.call pg a c = .ok (r, t') ∧ (m.call c).2.Represents pg t') →
      c.isRead = false → ∃ r t', t.call pg a c = .ok (r, t') ∧ (m.call c).2.Represents pg t' ∧
        (c.isRead = true → (m.call c).1.Same r) := by
    rintro ⟨r, t', hcall, hrepresents⟩ hread
    exact ⟨r, t', hcall, hrepresents, fun h => absurd h (by simp [hread])⟩
  cases c with
  | appendEvent e => exact hwrite (appendEvent_agrees h hsound) rfl
  | putState incident expectedVersion => exact hwrite (putState_agrees h hsound) rfl
  | putReview review => exact hwrite (putReview_agrees h hsound) rfl
  | putKernelDecision decision => exact hwrite (putKernelDecision_agrees h hsound) rfl
  | putOutcome outcome => exact hwrite (putOutcome_agrees h hsound) rfl
  | putReceipt receipt => exact hwrite (putReceipt_agrees h hsound) rfl
  | putReceiptCustody record => exact hwrite (putReceiptCustody_agrees h hsound) rfl
  | claimIdempotency tenantId key response => exact hwrite (claimIdempotency_agrees h hsound) rfl
  | putIdempotencyResponse tenantId key response =>
    exact hwrite (putIdempotencyResponse_agrees h hsound) rfl
  | other refused =>
    have hrefused : refused = false := hsound
    subst hrefused
    exact hwrite ⟨.nothing, t, rfl, h⟩ rfl
  | _ =>
    obtain ⟨r, hcall, hsame, hmemory⟩ := read_agrees h rfl hsound
    exact ⟨r, t, hcall, hmemory ▸ h, fun _ => hsame⟩

/-! ## Runs -/

/-- No statement of the open transaction has failed, and the memory stands for what it sees. -/
structure RepositoryPair.Agreed (pg : Postgres) (b : RepositoryPair) : Prop where
  answers : b.sql.failed = false
  represents : b.memory.Represents pg b.sql.current

theorem agreed_initial : RepositoryPair.Agreed pg {} := ⟨rfl, represents_initial pg⟩

theorem agreed_call {b : RepositoryPair} (h : b.Agreed pg) {c : RepositoryCall}
    (hsound : c.Sound pg b.sql.access b.sql.current) :
    SameRead pg b (.call c) (b.step pg (.call c)) ∧ (b.step pg (.call c)).Agreed pg := by
  obtain ⟨r, t, hcall, hrepresents, hread⟩ := call_agrees h.represents hsound
  have hsql : b.sql.call pg c = .ok (r, t) := by
    unfold Sql.call
    rw [h.answers]
    exact hcall
  refine ⟨fun hc => ⟨r, t, hsql, hread hc⟩, ?_⟩
  have hstep : (b.sql.step pg (.call c)).failed = false ∧ (b.sql.step pg (.call c)).current = t := by
    have hanswers := h.answers
    cases hsession : b.sql.session with
    | none =>
      simp only [Sql.step, hsql, hsession]
      simp [Sql.failed, Sql.current]
    | some s =>
      simp only [Sql.step, hsql, hsession]
      simp only [Sql.failed, hsession] at hanswers
      exact ⟨hanswers, rfl⟩
  constructor
  · exact hstep.1
  · show (b.memory.call c).2.Represents pg (b.sql.step pg (.call c)).current
    rw [hstep.2]
    exact hrepresents

/-- A transaction that begins, returns or throws leaves the memory as it is; the tables that are
seen keep the records, also where it throws. -/
theorem agreed_transaction {q : Sql} (s : RepositoryStep) (hs : ∀ c, s ≠ .call c)
    (hanswers : q.failed = false) (hsound : s.Sound pg q) :
    (q.step pg s).failed = false ∧ q.current.SameRecords (q.step pg s).current := by
  have hrefl : q.current.SameRecords q.current := ⟨rfl, rfl, rfl, rfl, rfl, rfl⟩
  cases hsession : q.session with
  | none =>
    have hcurrent : q.current = q.tables := by simp [Sql.current, hsession]
    cases s with
    | call c => exact absurd rfl (hs c)
    | enter tenantId now =>
      simp only [Sql.step, hsession]
      exact ⟨rfl, hcurrent ▸ hrefl⟩
    | leave | throw =>
      simp only [Sql.step, hsession]
      exact ⟨hanswers, hrefl⟩
  | some session =>
    have hcurrent : q.current = session.tables := by simp [Sql.current, hsession]
    have hfailed : session.failed = false := by simpa [Sql.failed, hsession] using hanswers
    cases s with
    | call c => exact absurd rfl (hs c)
    | enter tenantId now =>
      simp only [Sql.step, hsession]
      exact ⟨hfailed, hcurrent ▸ hrefl⟩
    | leave =>
      cases hdepth : session.depth with
      | succ depth =>
        simp only [Sql.step, hsession, hdepth]
        exact ⟨hfailed, hcurrent ▸ hrefl⟩
      | zero =>
        simp only [Sql.step, hsession, hdepth, hfailed, Bool.false_eq_true, if_false]
        exact ⟨rfl, hcurrent ▸ hrefl⟩
    | throw =>
      cases hdepth : session.depth with
      | succ depth =>
        simp only [Sql.step, hsession, hdepth]
        exact ⟨hfailed, hcurrent ▸ hrefl⟩
      | zero =>
        simp only [Sql.step, hsession, hdepth]
        refine ⟨rfl, ?_⟩
        rw [hcurrent]
        exact hsound session hsession hdepth

theorem agreed_step {b : RepositoryPair} {s : RepositoryStep} (h : b.Agreed pg)
    (hsound : s.Sound pg b.sql) : SameRead pg b s (b.step pg s) ∧ (b.step pg s).Agreed pg := by
  have htransaction : (∀ c, s ≠ .call c) → b.memory.step s = b.memory →
      (b.step pg s).Agreed pg := by
    intro hs hmemory
    obtain ⟨hanswers, hsame⟩ := agreed_transaction s hs h.answers hsound
    refine ⟨hanswers, ?_⟩
    show (b.memory.step s).Represents pg _
    rw [hmemory]
    exact hsame.represents h.represents
  cases s with
  | call c => exact agreed_call h hsound
  | enter tenantId now => exact ⟨trivial, htransaction (fun _ => nofun) rfl⟩
  | leave => exact ⟨trivial, htransaction (fun _ => nofun) rfl⟩
  | throw => exact ⟨trivial, htransaction (fun _ => nofun) rfl⟩

/-- **The repositories agree** along every run that is sound: each read returns in both, and
returns the same up to the order of events. -/
theorem repositories_agree (pg : Postgres) (steps : List RepositoryStep)
    (hsound : Along (RepositoryPair.step pg) (fun b s _ => s.Sound pg b.sql) {} steps) :
    Along (RepositoryPair.step pg) (SameRead pg) {} steps :=
  Along.of_invariant (fun _ _ h hsound => agreed_step h hsound) agreed_initial hsound

end

/-! ## Two runs -/

def sampleReceipt : Document := ⟨"northstar", "R-1", .obj [("receipt_id", .str "R-1")]⟩

/-- A receipt is put in a transaction that returns, and read in the next one. -/
def receiptRead : List RepositoryStep :=
  [.enter "northstar" 0, .call (.putReceipt sampleReceipt), .leave,
    .enter "northstar" 1, .call (.getReceipt "northstar" "R-1"), .leave]

def samplePostgres : Postgres := ⟨fun _ => some 0, fun a b => decide (a ≤ b)⟩

theorem repositories_agree_receipt :
    Along (RepositoryPair.step samplePostgres) (SameRead samplePostgres) {} receiptRead := by
  apply repositories_agree
  refine ⟨trivial, ⟨rfl, ?_, ?_, fun _ => rfl⟩, trivial, trivial, ⟨⟨rfl, ?_⟩, ?_⟩, trivial, trivial⟩
  · exact fun j hj => absurd hj List.not_mem_nil
  · exact fun row hrow => absurd hrow nofun
  · intro j hj _
    exact List.mem_singleton.mp hj
  · exact fun row c _ hc => absurd hc nofun

/-- The same, but the transaction throws after the receipt is put. -/
def receiptAborted : List RepositoryStep :=
  [.enter "northstar" 0, .call (.putReceipt sampleReceipt), .throw,
    .enter "northstar" 1, .call (.getReceipt "northstar" "R-1")]

theorem aborted_write_read :
    ¬ Along (RepositoryPair.step samplePostgres) (SameRead samplePostgres) {} receiptAborted := by
  rintro ⟨_, _, _, _, hread, _⟩
  obtain ⟨r, tables, hcall, hsame⟩ := hread rfl
  cases hcall
  cases hsame

end Edon.Platform
