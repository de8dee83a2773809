import EdonPlatform.Common.JsValue
import EdonPlatform.Lib.Table
import Mathlib.Data.List.MinMax

/- The transactional outbox of one tenant, as PostgreSQL keeps it
   (packages/platform-core/src/repositories.ts, `PostgreSQLPlatformRepositories`;
   migrations 005 and 006).

   Correspondence (TypeScript ↔ Lean):
     `transactional_outbox`  ↔ `OutboxRow`, `Outbox`
     `OutboxMessage`         ↔ `OutboxMessage` (what a handler enqueues)
     `enqueueOutbox`         ↔ `enqueueOutbox`
     `claimOutbox`           ↔ `claimOutbox` (`nextOutbox` is its inner SELECT)
     `completeOutbox`        ↔ `completeOutbox`
     `retryOutbox`           ↔ `readAttempts` and `retryOutbox` (its two statements)
     `requeueOutbox`         ↔ `requeueOutbox`

   `now` is what `now()` reads in the transaction of the statement, in milliseconds.
   `FOR UPDATE SKIP LOCKED` passes over the rows that other transactions hold; which
   rows these are is an argument. -/
namespace Edon.Platform
open Js

inductive OutboxStatus where
  | pending
  | processing
  | completed
  | deadLetter
  deriving DecidableEq, Repr

structure OutboxMessage where
  outboxId : String
  dedupeKey : String
  topic : String
  aggregateId : String
  payload : Value
  correlationId : String
  traceId : String
  stateVersion : Option Int

structure OutboxRow where
  message : OutboxMessage
  status : OutboxStatus := .pending
  attempts : Nat := 0
  availableAt : Int
  lockedAt : Option Int := none
  completedAt : Option Int := none
  lastError : Option String := none
  createdAt : Int
  leaseExpiresAt : Option Int := none
  workerId : Option String := none
  lastErrorCode : Option String := none
  lastErrorMetadata : Option Value := none

def OutboxRow.outboxId (r : OutboxRow) : String := r.message.outboxId

/-- The rows by `outbox_id`. -/
abbrev Outbox := Table OutboxRow.outboxId

/-- Whether the row was inserted. The dedupe key is the conflict the statement names; a
taken `outbox_id` under another dedupe key is an error. -/
def enqueueOutbox (now : Int) (message : OutboxMessage) (outbox : Outbox) :
    Except Thrown (Bool × Outbox) :=
  if outbox.rows.any (fun r => r.message.dedupeKey = message.dedupeKey) then .ok (false, outbox)
  else
    match outbox.insert { message, availableAt := now, createdAt := now } with
    | some outbox => .ok (true, outbox)
    | none => .error .database

/-- `lease_expires_at <= now()`, which is not true of NULL. -/
def OutboxRow.leaseExpired (now : Int) (r : OutboxRow) : Bool :=
  match r.leaseExpiresAt with
  | some expiry => expiry ≤ now
  | none => false

def OutboxRow.claimable (now : Int) (r : OutboxRow) : Bool :=
  r.availableAt ≤ now ∧
    (r.status = .pending ∨ (r.status = .processing ∧ r.leaseExpired now = true))

-- the whole library also derives this order from one that cannot be evaluated
local instance preorderInt : Preorder Int := Int.instLinearOrder.toPreorder

/-- The oldest claimable row that no other transaction has locked. -/
def nextOutbox (now : Int) (locked : List String) (outbox : Outbox) : Option OutboxRow :=
  (outbox.rows.filter (fun r => r.claimable now ∧ r.outboxId ∉ locked)).argmin OutboxRow.createdAt

def OutboxRow.claimed (now leaseMs : Int) (workerId : String) (r : OutboxRow) : OutboxRow :=
  { r with
    status := .processing
    attempts := r.attempts + 1
    lockedAt := some now
    leaseExpiresAt := some (now + leaseMs)
    workerId := some workerId }

theorem OutboxRow.claimed_outboxId (now leaseMs : Int) (workerId : String) (r : OutboxRow) :
    (r.claimed now leaseMs workerId).outboxId = r.outboxId := rfl

/-- The row as the claim leaves it, when there is one. -/
def claimOutbox (now leaseMs : Int) (workerId : String) (locked : List String) (outbox : Outbox) :
    Option OutboxRow × Outbox :=
  match nextOutbox now locked outbox with
  | none => (none, outbox)
  | some r =>
    (some (r.claimed now leaseMs workerId),
      outbox.modify r.outboxId (OutboxRow.claimed now leaseMs workerId)
        (OutboxRow.claimed_outboxId now leaseMs workerId))

def OutboxRow.completed (now : Int) (r : OutboxRow) : OutboxRow :=
  if r.status = .processing then
    { r with status := .completed, completedAt := some now, leaseExpiresAt := none }
  else r

theorem OutboxRow.completed_outboxId (now : Int) (r : OutboxRow) :
    (r.completed now).outboxId = r.outboxId := by
  unfold OutboxRow.completed
  split <;> rfl

/-- The update names the status and nothing of the worker that issues it. -/
def completeOutbox (now : Int) (outboxId : String) (outbox : Outbox) : Outbox :=
  outbox.modify outboxId (OutboxRow.completed now) (OutboxRow.completed_outboxId now)

/-- The attempts `retryOutbox` reads first. -/
def readAttempts (outboxId : String) (maxAttempts : Nat) (outbox : Outbox) : Nat :=
  match outbox.get outboxId with
  | some r => r.attempts
  | none => maxAttempts

/-- What the update of `retryOutbox` sets, from the attempts that were read. -/
def OutboxRow.retried (now delayMs : Int) (error : String) (maxAttempts attempts : Nat)
    (r : OutboxRow) : OutboxRow :=
  let dead := maxAttempts ≤ attempts
  { r with
    status := if dead then .deadLetter else .pending
    availableAt := now + if dead then 0 else delayMs
    leaseExpiresAt := none
    lastError := some (slice 1000 error)
    lastErrorCode := some (if dead then "WORKER_EXHAUSTED" else "WORKER_RETRY")
    lastErrorMetadata := some (.obj [("attempts", .num (.finite attempts)),
      ("max_attempts", .num (.finite maxAttempts))]) }

theorem OutboxRow.retried_outboxId (now delayMs : Int) (error : String)
    (maxAttempts attempts : Nat) (r : OutboxRow) :
    (r.retried now delayMs error maxAttempts attempts).outboxId = r.outboxId := rfl

/-- The update names the row and neither its status nor its worker. -/
def retryOutbox (now delayMs : Int) (outboxId error : String) (maxAttempts attempts : Nat)
    (outbox : Outbox) : Outbox :=
  outbox.modify outboxId (OutboxRow.retried now delayMs error maxAttempts attempts)
    (OutboxRow.retried_outboxId now delayMs error maxAttempts attempts)

def OutboxRow.requeued (now : Int) (r : OutboxRow) : OutboxRow :=
  if r.status = .deadLetter then
    { r with
      status := .pending
      availableAt := now
      leaseExpiresAt := none
      lastErrorCode := some "GOVERNED_REQUEUE" }
  else r

theorem OutboxRow.requeued_outboxId (now : Int) (r : OutboxRow) :
    (r.requeued now).outboxId = r.outboxId := by
  unfold OutboxRow.requeued
  split <;> rfl

def requeueOutbox (now : Int) (outboxId : String) (outbox : Outbox) : Outbox :=
  outbox.modify outboxId (OutboxRow.requeued now) (OutboxRow.requeued_outboxId now)

/-! ## What the statements do to a row -/

theorem enqueueOutbox_cases {now : Int} {message : OutboxMessage} {outbox outbox' : Outbox}
    {inserted : Bool} (h : enqueueOutbox now message outbox = .ok (inserted, outbox')) :
    (inserted = false ∧ outbox' = outbox) ∨
      (inserted = true ∧
        outbox.insert { message, availableAt := now, createdAt := now } = some outbox') := by
  unfold enqueueOutbox at h
  split at h
  · cases h
    exact .inl ⟨rfl, rfl⟩
  · split at h
    · next hinsert =>
      cases h
      exact .inr ⟨rfl, hinsert⟩
    · cases h

/-- A row that is already there is not touched by an insert. -/
theorem enqueueOutbox_get {now : Int} {message : OutboxMessage} {outbox outbox' : Outbox}
    {inserted : Bool} (h : enqueueOutbox now message outbox = .ok (inserted, outbox'))
    {outboxId : String} {r : OutboxRow} (hr : outbox.get outboxId = some r) :
    outbox'.get outboxId = some r := by
  rcases enqueueOutbox_cases h with ⟨_, rfl⟩ | ⟨_, hinsert⟩
  · exact hr
  · rw [Table.get_insert hinsert, if_neg, hr]
    intro heq
    rw [← heq, (Table.rows_insert hinsert).2] at hr
    cases hr

theorem nextOutbox_some {now : Int} {locked : List String} {outbox : Outbox} {r : OutboxRow}
    (h : nextOutbox now locked outbox = some r) :
    outbox.get r.outboxId = some r ∧ r.claimable now = true := by
  have hmem := List.argmin_mem h
  rw [List.mem_filter] at hmem
  obtain ⟨hmem, hclaimable⟩ := hmem
  exact ⟨Table.get_of_mem hmem, (of_decide_eq_true hclaimable).1⟩

theorem OutboxRow.claimable_status {now : Int} {r : OutboxRow} (h : r.claimable now = true) :
    r.status = .pending ∨ r.status = .processing := by
  obtain ⟨_, hstatus⟩ := of_decide_eq_true h
  exact hstatus.imp_right (fun h => h.1)

theorem OutboxRow.completed_of_ne {now : Int} {r : OutboxRow} (h : r.status ≠ .processing) :
    r.completed now = r := if_neg h

theorem OutboxRow.requeued_of_ne {now : Int} {r : OutboxRow} (h : r.status ≠ .deadLetter) :
    r.requeued now = r := if_neg h

@[simp] theorem OutboxRow.completed_message (now : Int) (r : OutboxRow) :
    (r.completed now).message = r.message := by
  unfold OutboxRow.completed
  split <;> rfl

@[simp] theorem OutboxRow.completed_attempts (now : Int) (r : OutboxRow) :
    (r.completed now).attempts = r.attempts := by
  unfold OutboxRow.completed
  split <;> rfl

@[simp] theorem OutboxRow.requeued_message (now : Int) (r : OutboxRow) :
    (r.requeued now).message = r.message := by
  unfold OutboxRow.requeued
  split <;> rfl

@[simp] theorem OutboxRow.requeued_attempts (now : Int) (r : OutboxRow) :
    (r.requeued now).attempts = r.attempts := by
  unfold OutboxRow.requeued
  split <;> rfl

end Edon.Platform
