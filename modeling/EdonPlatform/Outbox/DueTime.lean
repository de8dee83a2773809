import EdonPlatform.Lib.Sorting
import EdonPlatform.Outbox.Protocol
import Mathlib.Data.Prod.Lex
import Mathlib.Data.String.Basic

/- When a claim returns a message (edon/outbox/store.py, `claim`). The claim compares the texts
   of the table, where the world store has put the timestamp its caller gave it; a message is
   due by the instants that these texts are of.

   What is proved:
     1. `claimTx_ids` — a claim returns the first messages of those that are due by their texts.
     2. `claim_in_time_iff` — it returns messages that are due, and all of them if it returns
        fewer than it may, exactly when no message whose text and instant disagree makes a
        difference.
     3. `offset_not_claimed` — a message of an event with another offset.

   Correspondence (Python ↔ Lean):
     `WHERE status = 'PENDING' AND available_at <= ?`, after the expired leases are
     released                               ↔ `dueByText`
     `ORDER BY created_at, message_id`      ↔ `before` -/
namespace Edon.Outbox
open Json World Transition

/-! ## Messages that are due -/

section
variable (py : Python)

/-- The instant that `_time` reads in a text. -/
def instantOf (text : String) : Option Int :=
  match py.fromisoformat (replaceZ text) with
  | .instant t => some t
  | _ => none

/-- The message is available, or its lease has expired. -/
def Due (current : Int) (row : OutboxRow) : Prop :=
  (row.status = .pending ∧ ∃ t ∈ instantOf py row.availableAt, t ≤ current) ∨
    (row.status = .leased ∧
      ∃ text ∈ row.leaseExpiresAt, ∃ t ∈ instantOf py text, t < current)

/-- A claim returns messages that are due, and fewer than its limit only if there is no other. -/
def Timely (current : Int) (limit : Nat) (db : WorldDb) (claimed : List OutboxRow) : Prop :=
  (∀ m ∈ claimed, ∃ row, db.worldOutbox.get m.messageId = some row ∧ Due py current row) ∧
    (claimed.length < limit → ∀ row ∈ db.worldOutbox.rows, Due py current row →
      row.messageId ∈ claimed.map OutboxRow.messageId)

/-- The message is due by its texts. -/
def dueByText (currentText : String) (row : OutboxRow) : Bool :=
  (row.status = .pending || isExpired currentText row) && row.availableAt ≤ currentText

/-- The message is delivered before the other. -/
def before (r s : OutboxRow) : Bool := deliveryOrder r s && r.messageId ≠ s.messageId

/-- A message that is due by its texts alone comes after `limit` messages that are due by theirs,
and there is a message that is due by its instants alone only besides as many. -/
structure InTime (current : Int) (limit : Nat) (db : WorldDb) : Prop where
  early : ∀ row ∈ db.worldOutbox.rows, dueByText (py.isoformat current) row = true →
    ¬ Due py current row →
    limit ≤ db.worldOutbox.rows.countP fun r =>
      dueByText (py.isoformat current) r && before r row
  late : ∀ row ∈ db.worldOutbox.rows, Due py current row →
    dueByText (py.isoformat current) row = false →
    limit ≤ db.worldOutbox.rows.countP (dueByText (py.isoformat current))

end

/-! ## Releasing the expired leases -/

section
variable {db : WorldDb} {currentText : String}

def released (row : OutboxRow) : OutboxRow :=
  { row with status := .pending, leaseOwner := none, leaseExpiresAt := none }

theorem foldl_expire_rows (rows : List OutboxRow) :
    (rows.foldl (expire currentText) db).worldOutbox.rows =
      db.worldOutbox.rows.map fun r =>
        if r.messageId ∈ rows.map OutboxRow.messageId then released r else r := by
  induction rows generalizing db with
  | nil => simp
  | cons row rows ih =>
    have hrows : (expire currentText db row).worldOutbox.rows = db.worldOutbox.rows.map fun r =>
        if r.messageId = row.messageId then released r else r :=
      Table.rows_modify db.worldOutbox row.messageId released fun _ => rfl
    rw [List.foldl_cons, ih, hrows, List.map_map]
    refine List.map_congr_left fun r _ => ?_
    by_cases hrow : r.messageId = row.messageId
    · have hkey : (released r).messageId = r.messageId := rfl
      simp only [Function.comp_apply, hrow, if_true, List.map_cons, List.mem_cons, true_or]
      split <;> rfl
    · simp [hrow]

/-- The messages after the first loop of a claim. -/
theorem expired_rows :
    ((db.worldOutbox.rows.filter (isExpired currentText)).foldl (expire currentText)
      db).worldOutbox.rows = db.worldOutbox.rows.map fun r =>
        if isExpired currentText r then released r else r := by
  rw [foldl_expire_rows]
  refine List.map_congr_left fun r hr => ?_
  have hmem : r.messageId ∈ (db.worldOutbox.rows.filter (isExpired currentText)).map
      OutboxRow.messageId ↔ isExpired currentText r = true := by
    rw [List.mem_map]
    constructor
    · rintro ⟨s, hs, hkey⟩
      obtain ⟨hs, hexpired⟩ := List.mem_filter.mp hs
      rwa [← Table.eq_of_key hs hr hkey]
    · intro hexpired
      exact ⟨r, List.mem_filter.mpr ⟨hr, hexpired⟩, rfl⟩
  by_cases hexpired : isExpired currentText r = true
  · rw [if_pos hexpired, if_pos (hmem.mpr hexpired)]
  · rw [if_neg hexpired, if_neg (hexpired ∘ hmem.mp)]

/-! ## What is claimed -/

theorem deliveryOrder_iff {r s : OutboxRow} : deliveryOrder r s = true ↔
    toLex (r.createdAt, r.messageId) ≤ toLex (s.createdAt, s.messageId) := by
  rw [Prod.Lex.toLex_le_toLex, deliveryOrder, Bool.or_eq_true, Bool.and_eq_true,
    decide_eq_true_eq, decide_eq_true_eq, decide_eq_true_eq]

theorem deliveryOrder_trans (r s t : OutboxRow) (hrs : deliveryOrder r s = true)
    (hst : deliveryOrder s t = true) : deliveryOrder r t = true := by
  rw [deliveryOrder_iff] at hrs hst ⊢
  exact hrs.trans hst

theorem deliveryOrder_total (r s : OutboxRow) : (deliveryOrder r s || deliveryOrder s r) = true := by
  rw [Bool.or_eq_true, deliveryOrder_iff, deliveryOrder_iff]
  exact le_total _ _

/-- The order of messages with different ids is strict. -/
theorem deliveryOrder_antisymm {r s : OutboxRow} (hrs : deliveryOrder r s = true)
    (hsr : deliveryOrder s r = true) : r.messageId = s.messageId := by
  rw [deliveryOrder_iff] at hrs hsr
  exact congrArg (fun p => (ofLex p).2) (le_antisymm hrs hsr)

variable (currentText) in
/-- The messages that are due by their texts, in the order of delivery. -/
def dueTexts (db : WorldDb) : List OutboxRow :=
  (db.worldOutbox.rows.filter (dueByText currentText)).mergeSort deliveryOrder

theorem mem_dueTexts {row : OutboxRow} : row ∈ dueTexts currentText db ↔
    row ∈ db.worldOutbox.rows ∧ dueByText currentText row = true := by
  rw [dueTexts, (List.mergeSort_perm _ _).mem_iff, List.mem_filter]

theorem length_dueTexts : (dueTexts currentText db).length =
    db.worldOutbox.rows.countP (dueByText currentText) := by
  rw [dueTexts, (List.mergeSort_perm _ _).length_eq, List.countP_eq_length_filter]

/-- The messages that the second query of a claim finds. -/
theorem pending_released : ((db.worldOutbox.rows.map fun r =>
      if isExpired currentText r then released r else r).filter fun r =>
        r.status = .pending && r.availableAt ≤ currentText).mergeSort deliveryOrder =
    (dueTexts currentText db).map fun r => if isExpired currentText r then released r else r := by
  have hdue : (fun r : OutboxRow => r.status = .pending && r.availableAt ≤ currentText) ∘
      (fun r => if isExpired currentText r then released r else r) = dueByText currentText := by
    funext r
    by_cases hexpired : isExpired currentText r = true
    · simp [dueByText, hexpired, released]
    · simp [dueByText, hexpired]
  rw [dueTexts, List.map_mergeSort, List.filter_map, hdue]
  intro r _ s _
  split <;> split <;> rfl

theorem lease_key {workerId leaseExpiry : String} {row : OutboxRow} {id : String} :
    (lease workerId leaseExpiry currentText db row).worldOutbox.get id = none ↔
      db.worldOutbox.get id = none := by
  unfold lease audit update
  dsimp only
  rw [Table.get_modify]
  split
  · exact Option.map_eq_none_iff
  · exact Iff.rfl

/-- A claim returns the messages that it leases. -/
theorem leaseAll_ids (workerId leaseExpiry : String) {rows : List OutboxRow}
    (h : ∀ r ∈ rows, db.worldOutbox.get r.messageId ≠ none) :
    (leaseAll workerId leaseExpiry currentText rows db).1.map OutboxRow.messageId =
      rows.map OutboxRow.messageId := by
  induction rows generalizing db with
  | nil => rfl
  | cons row rows ih =>
    obtain ⟨hrow, hrows⟩ := List.forall_mem_cons.mp h
    have hlease : ∀ {id : String}, db.worldOutbox.get id ≠ none →
        (lease workerId leaseExpiry currentText db row).worldOutbox.get id ≠ none :=
      fun hid => hid ∘ lease_key.mp
    obtain ⟨row', hget⟩ := Option.ne_none_iff_exists'.mp (hlease hrow)
    rw [leaseAll]
    dsimp only
    rw [hget, Option.toList_some, List.singleton_append, List.map_cons, List.map_cons,
      ih fun r hr => hlease (hrows r hr)]
    exact congrArg (· :: _) (Table.get_key hget)

/-- **What a claim returns.** The first messages of those that are due by their texts. -/
theorem claimTx_ids (workerId leaseExpiry : String) (limit : Nat) :
    (claimTx workerId leaseExpiry currentText limit db).1.map OutboxRow.messageId =
      ((dueTexts currentText db).take limit).map OutboxRow.messageId := by
  have hkey : ∀ r : OutboxRow,
      (if isExpired currentText r then released r else r).messageId = r.messageId := by
    intro r
    split <;> rfl
  unfold claimTx
  dsimp only
  rw [leaseAll_ids, expired_rows, pending_released, ← List.map_take, List.map_map]
  · exact List.map_congr_left fun r _ => hkey r
  · intro r hr
    have hr := List.mem_of_mem_take hr
    rw [(List.mergeSort_perm _ _).mem_iff] at hr
    have hr := Table.get_of_mem (List.mem_of_mem_filter hr)
    exact fun hnone => Option.some_ne_none r (hr.symm.trans hnone)

/-! ## Claims in time -/

theorem sorted_dueTexts :
    (dueTexts currentText db).Pairwise fun r s => before r s = true ∧ before s r = false := by
  have hsorted : (dueTexts currentText db).Pairwise fun r s => deliveryOrder r s = true :=
    List.pairwise_mergeSort deliveryOrder_trans deliveryOrder_total _
  have hunique : (dueTexts currentText db).Pairwise fun r s => r.messageId ≠ s.messageId := by
    have hnodup : ((dueTexts currentText db).map OutboxRow.key).Nodup :=
      ((List.mergeSort_perm _ _).map _).nodup_iff.mpr
        (db.worldOutbox.unique.sublist (List.filter_sublist.map _))
    exact List.pairwise_map.mp hnodup
  refine hsorted.imp₂ ?_ hunique
  intro r s hrs hne
  refine ⟨Bool.and_eq_true_iff.mpr ⟨hrs, decide_eq_true hne⟩, ?_⟩
  rw [Bool.eq_false_iff]
  intro hsr
  exact hne (deliveryOrder_antisymm hrs (Bool.and_eq_true_iff.mp hsr).1)

theorem before_irrefl (r : OutboxRow) : before r r = false := by
  simp [before]

/-- A message that is due by its texts is among the first of them where few are before it. -/
theorem mem_take_dueTexts {row : OutboxRow} (h : row ∈ dueTexts currentText db) (limit : Nat) :
    row ∈ (dueTexts currentText db).take limit ↔
      db.worldOutbox.rows.countP (fun r => dueByText currentText r && before r row) < limit := by
  have hcount : (dueTexts currentText db).countP (fun r => before r row) =
      db.worldOutbox.rows.countP (fun r => dueByText currentText r && before r row) := by
    rw [dueTexts, (List.mergeSort_perm _ _).countP_eq, List.countP_filter]
    exact List.countP_congr fun r _ => by rw [Bool.and_comm]
  rw [Sorting.mem_take_iff sorted_dueTexts before_irrefl h, hcount]

variable {py : Python} {current : Int} {limit : Nat} {claimed : List OutboxRow}

/-- The messages that are claimed are due. -/
theorem early_iff (hids : claimed.map OutboxRow.messageId =
      ((dueTexts currentText db).take limit).map OutboxRow.messageId) :
    (∀ m ∈ claimed, ∃ row, db.worldOutbox.get m.messageId = some row ∧ Due py current row) ↔
      ∀ row ∈ db.worldOutbox.rows, dueByText currentText row = true → ¬ Due py current row →
        limit ≤ db.worldOutbox.rows.countP fun r =>
          dueByText currentText r && before r row := by
  have hclaimed : (∀ m ∈ claimed, ∃ row, db.worldOutbox.get m.messageId = some row ∧
      Due py current row) ↔ ∀ id ∈ ((dueTexts currentText db).take limit).map
        OutboxRow.messageId, ∃ row, db.worldOutbox.get id = some row ∧ Due py current row := by
    rw [← hids, List.forall_mem_map]
  rw [hclaimed, List.forall_mem_map]
  constructor
  · intro h row hrow htext hnot
    by_contra hfew
    have htake := (mem_take_dueTexts (mem_dueTexts.mpr ⟨hrow, htext⟩) limit).mpr (by omega)
    obtain ⟨row', hget, hdue⟩ := h row htake
    obtain rfl := Option.some.inj (hget.symm.trans (Table.get_of_mem hrow))
    exact hnot hdue
  · intro h row htake
    have hmem := List.mem_of_mem_take htake
    obtain ⟨hrow, htext⟩ := mem_dueTexts.mp hmem
    refine ⟨row, Table.get_of_mem hrow, ?_⟩
    by_contra hnot
    have hfew := (mem_take_dueTexts hmem limit).mp htake
    have := h row hrow htext hnot
    omega

/-- If fewer are claimed than may be, all that are due are. -/
theorem late_iff (hids : claimed.map OutboxRow.messageId =
      ((dueTexts currentText db).take limit).map OutboxRow.messageId) :
    (claimed.length < limit → ∀ row ∈ db.worldOutbox.rows, Due py current row →
        row.messageId ∈ claimed.map OutboxRow.messageId) ↔
      ∀ row ∈ db.worldOutbox.rows, Due py current row → dueByText currentText row = false →
        limit ≤ db.worldOutbox.rows.countP (dueByText currentText) := by
  have hlength : claimed.length =
      min limit (db.worldOutbox.rows.countP (dueByText currentText)) := by
    have hlengths := congrArg List.length hids
    rwa [List.length_map, List.length_map, List.length_take, length_dueTexts] at hlengths
  have hmem : ∀ row ∈ db.worldOutbox.rows,
      row.messageId ∈ (dueTexts currentText db).map OutboxRow.messageId ↔
        dueByText currentText row = true := by
    intro row hrow
    rw [List.mem_map]
    constructor
    · rintro ⟨r, hr, hkey⟩
      obtain ⟨hr, htext⟩ := mem_dueTexts.mp hr
      rwa [← Table.eq_of_key hr hrow hkey]
    · intro htext
      exact ⟨row, mem_dueTexts.mpr ⟨hrow, htext⟩, rfl⟩
  constructor
  · intro h row hrow hdue htext
    by_contra hfew
    have hall : (dueTexts currentText db).take limit = dueTexts currentText db :=
      List.take_of_length_le (by rw [length_dueTexts]; omega)
    have hclaimed := h (by omega) row hrow hdue
    rw [hids, hall, hmem row hrow, htext] at hclaimed
    cases hclaimed
  · intro h hfew row hrow hdue
    have hall : (dueTexts currentText db).take limit = dueTexts currentText db :=
      List.take_of_length_le (by rw [length_dueTexts]; omega)
    rw [hids, hall, hmem row hrow]
    by_contra htext
    have := h row hrow hdue (Bool.eq_false_iff.mpr htext)
    omega

end

/-- **Claims in time.** For every content of the tables and every claim that succeeds: it returns
only messages that are due, and fewer than its limit only if no other is, exactly when the
messages whose texts and instants disagree make no difference. -/
theorem claim_in_time_iff (py : Python) (now : Int) (workerId : String) (limit leaseSeconds : Int)
    (time : TimeArg) (db db' : WorldDb) (claimed : List OutboxRow)
    (h : claim py now workerId limit leaseSeconds time db = (.ok claimed, db')) :
    ∃ current, outboxTime py now time = .ok current ∧
      (Timely py current limit.toNat db claimed ↔ InTime py current limit.toNat db) := by
  simp only [claim] at h
  split at h
  · cases h
  · next workerId' current expiry hchecks =>
    obtain ⟨_, _, hchecks⟩ := bind_ok.mp hchecks
    split at hchecks
    · cases hchecks
    · split at hchecks
      · cases hchecks
      · obtain ⟨instant, htime, hchecks⟩ := bind_ok.mp hchecks
        obtain ⟨_, _, hchecks⟩ := bind_ok.mp hchecks
        cases hchecks
        cases h
        have hids := @claimTx_ids db (py.isoformat current) workerId'
          (py.isoformat expiry) limit.toNat
        refine ⟨current, htime, ?_⟩
        constructor
        · intro htimely
          exact ⟨(early_iff hids).mp htimely.1, (late_iff hids).mp htimely.2⟩
        · intro hin
          exact ⟨(early_iff hids).mpr hin.early, (late_iff hids).mpr hin.late⟩

/-! ## A timestamp with another offset -/

/-- The runtime, on the times of the run below. -/
def offsetPython : Python where
  repr := fun _ => ""
  sha256 := fun s => toString s.utf8ByteSize
  fromisoformat := fun s =>
    if s = "2026-01-01T05:00:00+05:00" then .instant 1767225600000000
    else if s = "2026-01-01T01:00:00+00:00" then .instant 1767229200000000
    else .invalid
  isoformat := fun t =>
    if t = 1767229200000000 then "2026-01-01T01:00:00+00:00" else "2026-01-01T01:00:30+00:00"

/-- A world is created at midnight, as a clock that is five hours ahead tells it. -/
def offsetWard : WorldDb := exec (Op.run offsetPython) ∅
  [.world (.createWorld "2026-01-01T00:00:00+00:00" "clinic" "ward" (.obj []) "kernel" "token-1" []
    (some "2026-01-01T05:00:00+05:00"))]

/-- A worker claims messages an hour later. -/
def offsetClaim : Except PyError (List OutboxRow) × WorldDb :=
  claim offsetPython 1767229200000000 "worker-1" 100 30 (.text "2026-01-01T01:00:00+00:00") offsetWard

theorem offsetClaim_ok : ∃ db', offsetClaim = (.ok [], db') := by
  have hclaimed : offsetClaim.1 = .ok [] := by decide +kernel
  exact ⟨offsetClaim.2, Prod.ext hclaimed rfl⟩

theorem claim_in_time_iff_offset : ∃ db' current,
    outboxTime offsetPython 1767229200000000 (.text "2026-01-01T01:00:00+00:00") = .ok current ∧
      offsetClaim = (.ok [], db') ∧
      (Timely offsetPython current 100 offsetWard [] ↔ InTime offsetPython current 100 offsetWard) := by
  obtain ⟨db', hclaim⟩ := offsetClaim_ok
  obtain ⟨current, htime, hiff⟩ := claim_in_time_iff offsetPython 1767229200000000 "worker-1" 100 30
    (.text "2026-01-01T01:00:00+00:00") offsetWard db' [] hclaim
  exact ⟨db', current, htime, hclaim, hiff⟩

/-- The message is due, and is not claimed: its text is after that of the claim. -/
theorem offset_not_claimed : ¬ ∀ (py : Python) (ops : List Op) (now : Int) (workerId : String)
    (limit leaseSeconds : Int) (time : TimeArg) (db' : WorldDb) (claimed : List OutboxRow),
    (∀ row ∈ (exec (Op.run py) ∅ ops).worldOutbox.rows, (instantOf py row.availableAt).isSome ∧
      ∀ text ∈ row.leaseExpiresAt, (instantOf py text).isSome) →
    claim py now workerId limit leaseSeconds time (exec (Op.run py) ∅ ops) = (.ok claimed, db') →
    ∃ current, outboxTime py now time = .ok current ∧
      Timely py current limit.toNat (exec (Op.run py) ∅ ops) claimed := by
  intro hall
  obtain ⟨db', hclaim⟩ := offsetClaim_ok
  have hrows : ∃ row, offsetWard.worldOutbox.rows = [row] ∧ row.status = .pending ∧
      instantOf offsetPython row.availableAt = some 1767225600000000 ∧
      row.leaseExpiresAt = none := ⟨_, rfl, by decide +kernel, by decide +kernel, by decide +kernel⟩
  obtain ⟨row, hrows, hstatus, hinstant, hlease⟩ := hrows
  have htimes : ∀ row ∈ offsetWard.worldOutbox.rows,
      (instantOf offsetPython row.availableAt).isSome ∧
        ∀ text ∈ row.leaseExpiresAt, (instantOf offsetPython text).isSome := by
    rw [hrows, List.forall_mem_singleton, hinstant, hlease]
    exact ⟨rfl, fun text h => by cases h⟩
  obtain ⟨current, htime, htimely⟩ := hall offsetPython _ 1767229200000000 "worker-1" 100 30
    (.text "2026-01-01T01:00:00+00:00") db' [] htimes hclaim
  have hcurrent : outboxTime offsetPython 1767229200000000 (.text "2026-01-01T01:00:00+00:00") =
      .ok 1767229200000000 := by decide +kernel
  obtain rfl := Except.ok.inj (hcurrent.symm.trans htime)
  have hdue : Due offsetPython 1767229200000000 row :=
    .inl ⟨hstatus, _, hinstant, by decide⟩
  have hclaimed := htimely.2 (by decide) row (hrows ▸ List.mem_singleton_self row) hdue
  cases hclaimed

end Edon.Outbox
