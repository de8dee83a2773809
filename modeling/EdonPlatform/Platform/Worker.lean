import EdonPlatform.Lib.Run
import EdonPlatform.Platform.Outbox
import Mathlib.Data.Rat.Floor

/- Any number of outbox workers on one outbox (packages/platform-core/src/outbox-worker.ts,
   `DurableOutboxWorker`), with the handlers that enqueue and the governed requeue.

   `processOnce` runs several transactions with external work between them, so it is a
   phase of its worker and one action for each transaction. What `verify` and `handle`
   do is left open here: they take any time and return or throw. A worker can stop at
   any point. A transaction that throws has changed nothing.

   Correspondence (TypeScript ↔ Lean):
     `new DurableOutboxWorker(...)`   ↔ `Worker`
     `processOnce`                    ↔ `Phase`, `Action`, `step`
     `base`, `jittered`               ↔ `delayMs`

   What is proved:
     1. `lease_safety_iff` — a completed message stays completed, and the updates of
        `completeOutbox` and `retryOutbox` select a row only for the holder of its
        lease, exactly when no worker ends a claim that another claim has overtaken;
        which is so when a lease is taken over only from a worker that has stopped.
     2. `slow_worker_reopens` — two workers, the first of them slow: the message the
        second one completed is pending again. -/
namespace Edon.Platform
open Transition

structure Worker where
  workerId : String
  maxAttempts : Nat
  leaseMs : Int

/-- How far `processOnce` has come with the row it claimed. -/
inductive Phase where
  | idle
  /-- `verify` and `handle` are at work. -/
  | running (row : OutboxRow)
  /-- They returned; `completeOutbox` is next. -/
  | handled (row : OutboxRow)
  /-- Something threw; `retryOutbox` is next. -/
  | failed (row : OutboxRow) (error : String)
  /-- `retryOutbox` has read the attempts; its update is next. -/
  | retrying (row : OutboxRow) (error : String) (attempts : Nat)

def Phase.claim : Phase → Option OutboxRow
  | .idle => none
  | .running row | .handled row | .failed row _ | .retrying row _ _ => some row

structure Queue where
  outbox : Outbox
  phase : Nat → Phase

def Queue.enter (q : Queue) (w : Nat) (p : Phase) : Queue :=
  { q with phase := Function.update q.phase w p }

inductive Action where
  | enqueue (now : Int) (message : OutboxMessage)
  | requeue (now : Int) (outboxId : String)
  | claim (w : Nat) (now : Int) (locked : List String)
  /-- `verify` and `handle` return, or one of them throws. -/
  | finish (w : Nat) (outcome : Except String Unit)
  | complete (w : Nat) (now : Int)
  /-- The transaction of `completeOutbox` throws. -/
  | completeThrows (w : Nat) (error : String)
  | readAttempts (w : Nat)
  | retry (w : Nat) (now : Int) (random : Rat)
  /-- The process ends, or `retryOutbox` throws. -/
  | stop (w : Nat)

/-- `Math.round(base * (0.8 + Math.random() * 0.4))`. -/
def delayMs (attempts : Nat) (random : Rat) : Int :=
  let base : Nat := min 30000 (250 * 2 ^ (attempts - 1))
  ⌊(base : Rat) * (4 / 5 + random * (2 / 5)) + 1 / 2⌋

/-- One action; an action its worker is not ready for changes nothing. -/
def step (workers : Nat → Worker) (q : Queue) : Action → Queue
  | .enqueue now message =>
    match enqueueOutbox now message q.outbox with
    | .ok (_, outbox) => { q with outbox }
    | .error _ => q
  | .requeue now outboxId => { q with outbox := requeueOutbox now outboxId q.outbox }
  | .claim w now locked =>
    match q.phase w with
    | .idle =>
      match claimOutbox now (workers w).leaseMs (workers w).workerId locked q.outbox with
      | (some row, outbox) => { q with outbox }.enter w (.running row)
      | (none, _) => q
    | _ => q
  | .finish w outcome =>
    match q.phase w, outcome with
    | .running row, .ok () => q.enter w (.handled row)
    | .running row, .error error => q.enter w (.failed row error)
    | _, _ => q
  | .complete w now =>
    match q.phase w with
    | .handled row =>
      { q with outbox := completeOutbox now row.outboxId q.outbox }.enter w .idle
    | _ => q
  | .completeThrows w error =>
    match q.phase w with
    | .handled row => q.enter w (.failed row error)
    | _ => q
  | .readAttempts w =>
    match q.phase w with
    | .failed row error =>
      q.enter w (.retrying row error (readAttempts row.outboxId (workers w).maxAttempts q.outbox))
    | _ => q
  | .retry w now random =>
    match q.phase w with
    | .retrying row error attempts =>
      { q with
        outbox := retryOutbox now (delayMs row.attempts random) row.outboxId error
          (workers w).maxAttempts attempts q.outbox }.enter w .idle
    | _ => q
  | .stop w => q.enter w .idle

/-- The queue after the claim of a row. -/
def Queue.claimed (workers : Nat → Worker) (q : Queue) (w : Nat) (now : Int) (row : OutboxRow) :
    Queue :=
  { q with
    outbox := q.outbox.modify row.outboxId
      (OutboxRow.claimed now (workers w).leaseMs (workers w).workerId)
      (OutboxRow.claimed_outboxId now (workers w).leaseMs (workers w).workerId) }.enter w
    (.running (row.claimed now (workers w).leaseMs (workers w).workerId))

/-- Everything an action can do. -/
inductive Effect (workers : Nat → Worker) (q : Queue) : Action → Queue → Prop where
  | none {a : Action} : Effect workers q a q
  | enqueue {now : Int} {message : OutboxMessage} {inserted : Bool} {outbox : Outbox}
      (henqueue : enqueueOutbox now message q.outbox = .ok (inserted, outbox)) :
      Effect workers q (.enqueue now message) { q with outbox }
  | requeue (now : Int) (outboxId : String) :
      Effect workers q (.requeue now outboxId) { q with outbox := requeueOutbox now outboxId q.outbox }
  | claim {w : Nat} {now : Int} {locked : List String} {row : OutboxRow}
      (hidle : q.phase w = .idle) (hnext : nextOutbox now locked q.outbox = some row) :
      Effect workers q (.claim w now locked) (q.claimed workers w now row)
  | move {a : Action} {w : Nat} {p : Phase}
      (hp : ∀ claim, p.claim = some claim → (q.phase w).claim = some claim)
      (hover : ∀ claim, p ≠ .running claim ∧ p ≠ .handled claim) : Effect workers q a (q.enter w p)
  | returned {w : Nat} {claim : OutboxRow} (hphase : q.phase w = .running claim) :
      Effect workers q (.finish w (.ok ())) (q.enter w (.handled claim))
  | complete {w : Nat} {now : Int} {claim : OutboxRow} (hphase : q.phase w = .handled claim) :
      Effect workers q (.complete w now)
        ({ q with outbox := completeOutbox now claim.outboxId q.outbox }.enter w .idle)
  | retry {w : Nat} {now : Int} {random : Rat} {claim : OutboxRow} {error : String} {attempts : Nat}
      (hphase : q.phase w = .retrying claim error attempts) :
      Effect workers q (.retry w now random)
        ({ q with
          outbox := retryOutbox now (delayMs claim.attempts random) claim.outboxId error
            (workers w).maxAttempts attempts q.outbox }.enter w .idle)

theorem step_effect (workers : Nat → Worker) (q : Queue) (a : Action) :
    Effect workers q a (step workers q a) := by
  cases a with
  | enqueue now message =>
    simp only [step]
    split
    · next henqueue => exact .enqueue henqueue
    · exact .none
  | requeue now outboxId => exact .requeue now outboxId
  | claim w now locked =>
    simp only [step, claimOutbox]
    cases hphase : q.phase w with
    | idle =>
      cases hnext : nextOutbox now locked q.outbox with
      | none => exact .none
      | some row => exact .claim hphase hnext
    | _ => exact .none
  | finish w outcome =>
    simp only [step]
    split
    · next hphase => exact .returned hphase
    · next hphase => exact .move (fun _ hclaim => by rw [hphase]; exact hclaim) (by simp)
    · exact .none
  | complete w now =>
    simp only [step]
    split
    · next hphase => exact .complete hphase
    · exact .none
  | completeThrows w error =>
    simp only [step]
    split
    · next hphase => exact .move (fun _ hclaim => by rw [hphase]; exact hclaim) (by simp)
    · exact .none
  | readAttempts w =>
    simp only [step]
    split
    · next hphase => exact .move (fun _ hclaim => by rw [hphase]; exact hclaim) (by simp)
    · exact .none
  | retry w now random =>
    simp only [step]
    split
    · next hphase => exact .retry hphase
    · exact .none
  | stop w => exact .move (fun _ hclaim => by cases hclaim) (by simp)

/-! ## Messages and phases -/

theorem enter_claim {q : Queue} {w w' : Nat} {p : Phase} {claim : OutboxRow}
    (h : ((q.enter w p).phase w').claim = some claim) :
    (w' = w ∧ p.claim = some claim) ∨ (w' ≠ w ∧ (q.phase w').claim = some claim) := by
  have h : (Function.update q.phase w p w').claim = some claim := h
  by_cases hw : w' = w
  · subst hw
    rw [Function.update_self] at h
    exact .inl ⟨rfl, h⟩
  · rw [Function.update_of_ne hw] at h
    exact .inr ⟨hw, h⟩

theorem enter_same_claim {q : Queue} {w w' : Nat} {p : Phase}
    (hp : ∀ claim, p.claim = some claim → (q.phase w).claim = some claim) {claim : OutboxRow}
    (h : ((q.enter w p).phase w').claim = some claim) : (q.phase w').claim = some claim := by
  rcases enter_claim h with ⟨hw, h⟩ | ⟨_, h⟩
  · rw [hw]
    exact hp claim h
  · exact h

section
variable {workers : Nat → Worker} {q q' : Queue} {a : Action}

/-- An action keeps the message of a row, and completes a row only by a worker that has
handled it. -/
theorem row_effect (heffect : Effect workers q a q') {outboxId : String} {row : OutboxRow}
    (hget : q.outbox.get outboxId = some row) :
    ∃ row', q'.outbox.get outboxId = some row' ∧ row'.message = row.message ∧
      (row'.status = .completed → row.status = .completed ∨
        ∃ w claim, q.phase w = .handled claim ∧ claim.outboxId = outboxId) := by
  have hmodify : ∀ {k : String} {f : OutboxRow → OutboxRow} (hf : ∀ r, (f r).outboxId = r.outboxId),
      (∀ r, (f r).message = r.message) → (k = outboxId → (f row).status = .completed →
        row.status = .completed ∨ ∃ w claim, q.phase w = .handled claim ∧
          claim.outboxId = outboxId) →
      ∃ row', (q.outbox.modify k f hf).get outboxId = some row' ∧ row'.message = row.message ∧
        (row'.status = .completed → row.status = .completed ∨
          ∃ w claim, q.phase w = .handled claim ∧ claim.outboxId = outboxId) := by
    intro k f hf hmessage hstatus
    by_cases hk : k = outboxId
    · exact ⟨f row, hk ▸ Table.get_modify_self hf (hk ▸ hget), hmessage row, hstatus hk⟩
    · exact ⟨row, (Table.get_modify_ne hf hk).trans hget, rfl, .inl⟩
  have hsame : ∃ row', q.outbox.get outboxId = some row' ∧ row'.message = row.message ∧
      (row'.status = .completed → row.status = .completed ∨
        ∃ w claim, q.phase w = .handled claim ∧ claim.outboxId = outboxId) :=
    ⟨row, hget, rfl, .inl⟩
  cases heffect with
  | none => exact hsame
  | enqueue henqueue => exact ⟨row, enqueueOutbox_get henqueue hget, rfl, .inl⟩
  | requeue now id =>
    apply hmodify (OutboxRow.requeued_outboxId now) (by simp)
    intro _ hstatus
    unfold OutboxRow.requeued at hstatus
    split at hstatus
    · cases hstatus
    · exact .inl hstatus
  | claim _ _ =>
    apply hmodify (OutboxRow.claimed_outboxId _ _ _) (fun _ => rfl)
    intro _ hstatus
    cases hstatus
  | move _ _ => exact hsame
  | returned _ => exact hsame
  | complete hphase =>
    exact hmodify (OutboxRow.completed_outboxId _) (by simp) (fun hid _ => .inr ⟨_, _, hphase, hid⟩)
  | retry _ =>
    apply hmodify (OutboxRow.retried_outboxId _ _ _ _ _) (fun _ => rfl)
    intro _ hstatus
    unfold OutboxRow.retried at hstatus
    simp only at hstatus
    split at hstatus <;> cases hstatus

/-- A row that was not there before is pending, and was enqueued. -/
theorem new_row_effect (heffect : Effect workers q a q') {outboxId : String} {row' : OutboxRow}
    (hget : q.outbox.get outboxId = none) (hget' : q'.outbox.get outboxId = some row') :
    row'.status = .pending ∧ ∃ now, a = .enqueue now row'.message := by
  have hmodify : ∀ {k : String} {f : OutboxRow → OutboxRow} (hf : ∀ r, (f r).outboxId = r.outboxId),
      (q.outbox.modify k f hf).get outboxId = none := by
    intro k f hf
    rw [Table.get_modify, hget]
    split <;> rfl
  have hnone : ∀ {outbox : Outbox}, outbox.get outboxId = none →
      outbox.get outboxId ≠ some row' := by
    intro outbox hn hs
    rw [hn] at hs
    cases hs
  cases heffect with
  | none => exact absurd hget' (hnone hget)
  | enqueue henqueue =>
    rcases enqueueOutbox_cases henqueue with ⟨_, rfl⟩ | ⟨_, hinsert⟩
    · exact absurd hget' (hnone hget)
    · rw [Table.get_insert hinsert] at hget'
      split at hget'
      · cases hget'
        exact ⟨rfl, _, rfl⟩
      · exact absurd hget' (hnone hget)
  | requeue now id => exact absurd hget' (hnone (hmodify (OutboxRow.requeued_outboxId now)))
  | claim _ _ => exact absurd hget' (hnone (hmodify (OutboxRow.claimed_outboxId _ _ _)))
  | move _ _ => exact absurd hget' (hnone hget)
  | returned _ => exact absurd hget' (hnone hget)
  | complete _ => exact absurd hget' (hnone (hmodify (OutboxRow.completed_outboxId _)))
  | retry _ => exact absurd hget' (hnone (hmodify (OutboxRow.retried_outboxId _ _ _ _ _)))

/-- A claim in hand is an earlier one, or carries the message of its row. -/
theorem claim_effect (heffect : Effect workers q a q') {w : Nat} {claim : OutboxRow}
    (hclaim : (q'.phase w).claim = some claim) :
    (q.phase w).claim = some claim ∨
      ∃ row, q.outbox.get claim.outboxId = some row ∧ row.message = claim.message := by
  cases heffect with
  | none => exact .inl hclaim
  | enqueue _ => exact .inl hclaim
  | requeue now id => exact .inl hclaim
  | claim _ hnext =>
    rcases enter_claim hclaim with ⟨_, hclaim⟩ | ⟨_, hclaim⟩
    · cases hclaim
      exact .inr ⟨_, (nextOutbox_some hnext).1, rfl⟩
    · exact .inl hclaim
  | move hp _ => exact .inl (enter_same_claim hp hclaim)
  | returned hphase =>
    exact .inl (enter_same_claim (fun _ hc => by rw [hphase]; exact hc) hclaim)
  | complete _ => exact .inl (enter_same_claim (fun _ hc => by cases hc) hclaim)
  | retry _ => exact .inl (enter_same_claim (fun _ hc => by cases hc) hclaim)

/-- The phase of a worker after it, or another one, entered a phase. -/
theorem enter_phase {q : Queue} {w w' : Nat} {p r : Phase} (h : (q.enter w' p).phase w = r) :
    q.phase w = r ∨ (w = w' ∧ p = r) := by
  have h : Function.update q.phase w' p w = r := h
  by_cases hw : w = w'
  · subst hw
    rw [Function.update_self] at h
    exact .inr ⟨rfl, h⟩
  · rw [Function.update_of_ne hw] at h
    exact .inl h

/-- A handler begins with a claim. -/
theorem running_effect (heffect : Effect workers q a q') {w : Nat} {claim : OutboxRow}
    (h : q'.phase w = .running claim) :
    q.phase w = .running claim ∨ ∃ now locked, a = .claim w now locked := by
  cases heffect with
  | none => exact .inl h
  | enqueue _ => exact .inl h
  | requeue now id => exact .inl h
  | @claim w' now locked row _ _ =>
    rcases enter_phase h with h | ⟨rfl, _⟩
    · exact .inl h
    · exact .inr ⟨now, locked, rfl⟩
  | move _ hover =>
    rcases enter_phase h with h | ⟨_, h⟩
    · exact .inl h
    · exact absurd h (hover claim).1
  | returned _ =>
    rcases enter_phase h with h | ⟨_, h⟩
    · exact .inl h
    · cases h
  | complete _ =>
    rcases enter_phase h with h | ⟨_, h⟩
    · exact .inl h
    · cases h
  | retry _ =>
    rcases enter_phase h with h | ⟨_, h⟩
    · exact .inl h
    · cases h

/-- A message has been handled when its handler returned. -/
theorem handled_effect (heffect : Effect workers q a q') {w : Nat} {claim : OutboxRow}
    (h : q'.phase w = .handled claim) :
    q.phase w = .handled claim ∨ (a = .finish w (.ok ()) ∧ q.phase w = .running claim) := by
  cases heffect with
  | none => exact .inl h
  | enqueue _ => exact .inl h
  | requeue now id => exact .inl h
  | claim _ _ =>
    rcases enter_phase h with h | ⟨_, h⟩
    · exact .inl h
    · cases h
  | move _ hover =>
    rcases enter_phase h with h | ⟨_, h⟩
    · exact .inl h
    · exact absurd h (hover claim).2
  | @returned w' row hphase =>
    rcases enter_phase h with h | ⟨hw, h⟩
    · exact .inl h
    · cases h
      rw [hw]
      exact .inr ⟨rfl, hphase⟩
  | complete _ =>
    rcases enter_phase h with h | ⟨_, h⟩
    · exact .inl h
    · cases h
  | retry _ =>
    rcases enter_phase h with h | ⟨_, h⟩
    · exact .inl h
    · cases h

end

/-! ## What is asked of a run -/

section
variable (workers : Nat → Worker)

/-- The worker holds the lease of what it claimed. Every claim adds one to the attempts,
so the row has the attempts of the claim while it has not been claimed again. -/
def Queue.Holds (q : Queue) (w : Nat) (claim : OutboxRow) : Prop :=
  ∃ row, q.outbox.get claim.outboxId = some row ∧ row.status = .processing ∧
    row.workerId = some (workers w).workerId ∧ row.attempts = claim.attempts

/-- The update the worker is about to issue selects this row, for this claim. -/
inductive Queue.Ends (q : Queue) : Action → Nat → OutboxRow → OutboxRow → Prop where
  | complete {w : Nat} {now : Int} {claim row : OutboxRow} (hphase : q.phase w = .handled claim)
      (hrow : q.outbox.get claim.outboxId = some row) (hstatus : row.status = .processing) :
      Queue.Ends q (.complete w now) w claim row
  | retry {w : Nat} {now : Int} {random : Rat} {claim row : OutboxRow} {error : String}
      {attempts : Nat} (hphase : q.phase w = .retrying claim error attempts)
      (hrow : q.outbox.get claim.outboxId = some row) :
      Queue.Ends q (.retry w now random) w claim row

/-- A completed row stays completed, and the worker that ends a claim holds its lease. -/
structure Queue.Safe (q : Queue) (a : Action) (q' : Queue) : Prop where
  completed : ∀ outboxId row, q.outbox.get outboxId = some row → row.status = .completed →
    ∃ row', q'.outbox.get outboxId = some row' ∧ row'.status = .completed
  holder : ∀ w claim row, q.Ends a w claim row → q.Holds workers w claim

/-- The worker ends a claim after another claim took the message over. -/
def Queue.EndsOvertaken (q : Queue) (a : Action) : Prop :=
  ∃ w claim row, q.Ends a w claim row ∧ row.attempts ≠ claim.attempts

/-- A row that is still in processing is claimed only when no worker has it in hand. -/
def Queue.Exclusive (q : Queue) (a : Action) : Prop :=
  ∀ w now locked row, a = .claim w now locked → nextOutbox now locked q.outbox = some row →
    row.status = .processing → ∀ w' claim, (q.phase w').claim = some claim →
      claim.outboxId ≠ row.outboxId

/-! ## One action -/

/-- A claim in hand against its row: the row has moved on, or the worker holds its lease;
and no two workers have the same claim. -/
structure Queue.Sound (q : Queue) : Prop where
  row : ∀ w claim, (q.phase w).claim = some claim →
    ∃ row, q.outbox.get claim.outboxId = some row ∧ claim.attempts ≤ row.attempts ∧
      (row.attempts = claim.attempts →
        row.status = .processing ∧ row.workerId = some (workers w).workerId)
  unique : ∀ w w' claim claim', (q.phase w).claim = some claim → (q.phase w').claim = some claim' →
    claim.outboxId = claim'.outboxId → claim.attempts = claim'.attempts → w = w'

variable {workers}

theorem sound_idle {q : Queue} (h : ∀ w, (q.phase w).claim = none) : q.Sound workers := by
  refine ⟨?_, ?_⟩
  · intro w claim hclaim
    rw [h w] at hclaim
    cases hclaim
  · intro w w' claim claim' hclaim
    rw [h w] at hclaim
    cases hclaim

/-- No new claim is taken, and the rows of the claims that are left keep their leases. -/
theorem Queue.Sound.of_rows {q q' : Queue} (h : q.Sound workers)
    (hphase : ∀ w claim, (q'.phase w).claim = some claim → (q.phase w).claim = some claim)
    (hrow : ∀ w claim row, (q'.phase w).claim = some claim →
      q.outbox.get claim.outboxId = some row →
      ∃ row', q'.outbox.get claim.outboxId = some row' ∧ row'.attempts = row.attempts ∧
        (row.attempts = claim.attempts → row.status = .processing →
          row'.status = .processing ∧ row'.workerId = row.workerId)) : q'.Sound workers := by
  refine ⟨?_, ?_⟩
  · intro w claim hclaim
    obtain ⟨row, hget, hle, hholds⟩ := h.row w claim (hphase w claim hclaim)
    obtain ⟨row', hget', hattempts, hkeep⟩ := hrow w claim row hclaim hget
    refine ⟨row', hget', by omega, ?_⟩
    intro heq
    obtain ⟨hstatus, hworker⟩ := hholds (by omega)
    obtain ⟨hstatus', hworker'⟩ := hkeep (by omega) hstatus
    exact ⟨hstatus', hworker'.trans hworker⟩
  · intro w w' claim claim' hclaim hclaim'
    exact h.unique w w' claim claim' (hphase w claim hclaim) (hphase w' claim' hclaim')

/-- A worker goes on with the claim it has, or drops it. -/
theorem Queue.Sound.enter {q : Queue} (h : q.Sound workers) {w : Nat} {p : Phase}
    (hp : ∀ claim, p.claim = some claim → (q.phase w).claim = some claim) :
    (q.enter w p).Sound workers := by
  apply h.of_rows (fun _ _ hclaim => enter_same_claim hp hclaim)
  intro w' claim row _ hget
  exact ⟨row, hget, rfl, fun _ hstatus => ⟨hstatus, rfl⟩⟩

theorem Queue.Sound.claim {q : Queue} (h : q.Sound workers) {w : Nat} {now : Int}
    {row : OutboxRow} (hget : q.outbox.get row.outboxId = some row) :
    (q.claimed workers w now row).Sound workers := by
  have hget' : (q.claimed workers w now row).outbox.get row.outboxId =
      some (row.claimed now (workers w).leaseMs (workers w).workerId) :=
    Table.get_modify_self (OutboxRow.claimed_outboxId _ _ _) hget
  -- every older claim on the row is behind the new one
  have hbehind : ∀ w' claim, (q.phase w').claim = some claim → claim.outboxId = row.outboxId →
      claim.attempts < row.attempts + 1 := by
    intro w' claim hclaim hid
    obtain ⟨row', hrow, hle, _⟩ := h.row w' claim hclaim
    rw [hid, hget] at hrow
    cases hrow
    omega
  refine ⟨?_, ?_⟩
  · intro w' claim hclaim
    rcases enter_claim hclaim with ⟨rfl, hclaim⟩ | ⟨_, hclaim⟩
    · cases hclaim
      exact ⟨_, hget', le_rfl, fun _ => ⟨rfl, rfl⟩⟩
    · by_cases hid : claim.outboxId = row.outboxId
      · have hlt := hbehind w' claim hclaim hid
        rw [hid]
        refine ⟨_, hget', Nat.le_of_lt hlt, ?_⟩
        intro heq
        have heq : row.attempts + 1 = claim.attempts := heq
        omega
      · obtain ⟨row', hrow, hrest⟩ := h.row w' claim hclaim
        exact ⟨row', (Table.get_modify_ne (OutboxRow.claimed_outboxId _ _ _) (Ne.symm hid)).trans hrow,
          hrest⟩
  · intro w₁ w₂ claim₁ claim₂ h₁ h₂ hid hattempts
    rcases enter_claim h₁ with ⟨rfl, h₁⟩ | ⟨_, h₁⟩ <;>
      rcases enter_claim h₂ with ⟨rfl, h₂⟩ | ⟨_, h₂⟩
    · rfl
    · cases h₁
      exact absurd hattempts.symm (hbehind w₂ claim₂ h₂ hid.symm).ne
    · cases h₂
      exact absurd hattempts (hbehind w₁ claim₁ h₁ hid).ne
    · exact h.unique w₁ w₂ claim₁ claim₂ h₁ h₂ hid hattempts

/-- A worker ends its claim; where the update changes the row, the claim was not overtaken. -/
theorem Queue.Sound.close {q : Queue} (h : q.Sound workers) {w : Nat} {claim : OutboxRow}
    (hclaim : (q.phase w).claim = some claim) {f : OutboxRow → OutboxRow}
    (hkey : ∀ r, (f r).outboxId = r.outboxId) (hattempts : ∀ r, (f r).attempts = r.attempts)
    (hf : ∀ row, q.outbox.get claim.outboxId = some row → f row = row ∨
      row.attempts = claim.attempts) :
    ({ q with outbox := q.outbox.modify claim.outboxId f hkey }.enter w .idle).Sound workers := by
  apply h.of_rows
  · intro w' claim' hclaim'
    exact enter_same_claim (fun _ hc => by cases hc) hclaim'
  · intro w' claim' row hclaim' hget
    rcases enter_claim hclaim' with ⟨_, hclaim'⟩ | ⟨hne, hclaim'⟩
    · cases hclaim'
    by_cases hid : claim.outboxId = claim'.outboxId
    · rw [← hid] at hget ⊢
      refine ⟨f row, Table.get_modify_self hkey hget, hattempts row, ?_⟩
      intro heq hstatus
      rcases hf row hget with hsame | hcurrent
      · rw [hsame]
        exact ⟨hstatus, rfl⟩
      · -- both claims would be the one the row was last claimed under
        exact absurd (h.unique w' w claim' claim hclaim' hclaim hid.symm (by omega)) hne
    · exact ⟨row, (Table.get_modify_ne hkey hid).trans hget, rfl, fun _ hstatus => ⟨hstatus, rfl⟩⟩

/-- **One action.** If no worker ends a claim that was overtaken, the invariant is kept. -/
theorem sound_effect {q q' : Queue} {a : Action} (h : q.Sound workers)
    (heffect : Effect workers q a q') (hends : ¬ q.EndsOvertaken a) : q'.Sound workers := by
  cases heffect with
  | none => exact h
  | enqueue henqueue =>
    refine h.of_rows (fun _ _ hclaim => hclaim) ?_
    intro w claim row _ hget
    exact ⟨row, enqueueOutbox_get henqueue hget, rfl, fun _ hstatus => ⟨hstatus, rfl⟩⟩
  | requeue now outboxId =>
    refine h.of_rows (fun _ _ hclaim => hclaim) ?_
    intro w claim row _ hget
    by_cases hid : outboxId = claim.outboxId
    · subst hid
      refine ⟨_, Table.get_modify_self (OutboxRow.requeued_outboxId now) hget, by simp, ?_⟩
      intro _ hstatus
      rw [OutboxRow.requeued_of_ne (by simp [hstatus])]
      exact ⟨hstatus, rfl⟩
    · exact ⟨row, (Table.get_modify_ne (OutboxRow.requeued_outboxId now) hid).trans hget, rfl,
        fun _ hstatus => ⟨hstatus, rfl⟩⟩
  | claim _ hnext => exact h.claim (nextOutbox_some hnext).1
  | move hp _ => exact h.enter hp
  | returned hphase => exact h.enter (fun _ hclaim => by rw [hphase]; exact hclaim)
  | complete hphase =>
    refine h.close (by rw [hphase]; rfl) _ (by simp) ?_
    intro row hget
    by_cases hstatus : row.status = .processing
    · right
      by_contra hne
      exact hends ⟨_, _, row, .complete hphase hget hstatus, hne⟩
    · exact .inl (OutboxRow.completed_of_ne hstatus)
  | retry hphase =>
    refine h.close (by rw [hphase]; rfl) _ (fun _ => rfl) ?_
    intro row hget
    right
    by_contra hne
    exact hends ⟨_, _, row, .retry hphase hget, hne⟩

theorem Queue.Ends.claim {q : Queue} {a : Action} {w : Nat} {claim row : OutboxRow}
    (h : q.Ends a w claim row) :
    (q.phase w).claim = some claim ∧ q.outbox.get claim.outboxId = some row := by
  cases h with
  | complete hphase hrow _ => exact ⟨by rw [hphase]; rfl, hrow⟩
  | retry hphase hrow => exact ⟨by rw [hphase]; rfl, hrow⟩

/-- A claim that was not overtaken is held. -/
theorem Queue.Sound.holds {q : Queue} (h : q.Sound workers) {w : Nat} {claim row : OutboxRow}
    (hclaim : (q.phase w).claim = some claim) (hget : q.outbox.get claim.outboxId = some row)
    (hattempts : row.attempts = claim.attempts) :
    row.status = .processing ∧ q.Holds workers w claim := by
  obtain ⟨row', hget', _, hholds⟩ := h.row w claim hclaim
  rw [hget] at hget'
  cases hget'
  obtain ⟨hstatus, hworker⟩ := hholds hattempts
  exact ⟨hstatus, row, hget, hstatus, hworker, hattempts⟩

/-- A completed row is out of reach of every action but the retry of an overtaken claim. -/
theorem completed_effect {q q' : Queue} {a : Action} (h : q.Sound workers)
    (heffect : Effect workers q a q') (hends : ¬ q.EndsOvertaken a) {outboxId : String}
    {row : OutboxRow} (hget : q.outbox.get outboxId = some row) (hstatus : row.status = .completed) :
    q'.outbox.get outboxId = some row := by
  have hne : ∀ {s : OutboxStatus}, s ≠ .completed → row.status ≠ s := by
    rintro s hs rfl
    exact hs hstatus
  -- an update of the row leaves it alone
  have hmodify : ∀ {k : String} {f : OutboxRow → OutboxRow} (hf : ∀ r, (f r).outboxId = r.outboxId),
      (k = outboxId → f row = row) → (q.outbox.modify k f hf).get outboxId = some row := by
    intro k f hf hkeep
    by_cases hk : k = outboxId
    · rw [hk, Table.get_modify_self hf hget, hkeep hk]
    · exact (Table.get_modify_ne hf hk).trans hget
  cases heffect with
  | none => exact hget
  | enqueue henqueue => exact enqueueOutbox_get henqueue hget
  | requeue now id =>
    exact hmodify (OutboxRow.requeued_outboxId now)
      (fun _ => OutboxRow.requeued_of_ne (hne (by simp)))
  | claim _ hnext =>
    obtain ⟨hr, hclaimable⟩ := nextOutbox_some hnext
    apply hmodify (OutboxRow.claimed_outboxId _ _ _)
    intro hid
    -- the statement selects no completed row
    rw [hid, hget] at hr
    cases hr
    rcases OutboxRow.claimable_status hclaimable with hs | hs
    · exact absurd hs (hne (by simp))
    · exact absurd hs (hne (by simp))
  | move _ _ => exact hget
  | returned _ => exact hget
  | complete _ =>
    exact hmodify (OutboxRow.completed_outboxId _)
      (fun _ => OutboxRow.completed_of_ne (hne (by simp)))
  | @retry _ _ _ claim _ _ hphase =>
    apply hmodify (OutboxRow.retried_outboxId _ _ _ _ _)
    rintro rfl
    -- only the holder may retry, and the holder's row is in processing
    have hattempts : row.attempts = claim.attempts := by
      by_contra hne
      exact hends ⟨_, _, row, .retry hphase hget, hne⟩
    exact absurd (h.holds (by rw [hphase]; rfl) hget hattempts).1 (hne (by simp))

theorem safe_effect_iff {q q' : Queue} {a : Action} (h : q.Sound workers)
    (heffect : Effect workers q a q') : q.Safe workers a q' ↔ ¬ q.EndsOvertaken a := by
  constructor
  · rintro hsafe ⟨w, claim, row, hends, hne⟩
    obtain ⟨row', hget', _, _, hattempts⟩ := hsafe.holder w claim row hends
    rw [hends.claim.2] at hget'
    cases hget'
    exact hne hattempts
  · intro hends
    refine ⟨fun _ row hget hstatus =>
      ⟨row, completed_effect h heffect hends hget hstatus, hstatus⟩, ?_⟩
    intro w claim row hclaim
    obtain ⟨hphase, hget⟩ := hclaim.claim
    refine (h.holds hphase hget ?_).2
    by_contra hne
    exact hends ⟨w, claim, row, hclaim, hne⟩

/-! ## Whole runs -/

/-- Every claim in hand is the latest one on its row. -/
def Queue.Current (q : Queue) : Prop :=
  ∀ w claim, (q.phase w).claim = some claim →
    ∃ row, q.outbox.get claim.outboxId = some row ∧ row.attempts = claim.attempts

theorem not_endsOvertaken {q : Queue} (h : q.Current) (a : Action) : ¬ q.EndsOvertaken a := by
  rintro ⟨w, claim, row, hends, hne⟩
  obtain ⟨hclaim, hget⟩ := hends.claim
  obtain ⟨row', hget', hattempts⟩ := h w claim hclaim
  rw [hget] at hget'
  cases hget'
  exact hne hattempts

/-- Claims stay current where no claim is taken and no attempts are counted. -/
theorem Queue.Current.of_rows {q q' : Queue} (h : q.Current)
    (hphase : ∀ w claim, (q'.phase w).claim = some claim → (q.phase w).claim = some claim)
    (hrow : ∀ outboxId row, q.outbox.get outboxId = some row →
      ∃ row', q'.outbox.get outboxId = some row' ∧ row'.attempts = row.attempts) : q'.Current := by
  intro w claim hclaim
  obtain ⟨row, hget, hattempts⟩ := h w claim (hphase w claim hclaim)
  obtain ⟨row', hget', hattempts'⟩ := hrow _ row hget
  exact ⟨row', hget', hattempts'.trans hattempts⟩

theorem attempts_modify {outbox : Outbox} {k outboxId : String} {f : OutboxRow → OutboxRow}
    (hf : ∀ r, (f r).outboxId = r.outboxId) (hattempts : ∀ r, (f r).attempts = r.attempts)
    {row : OutboxRow} (hget : outbox.get outboxId = some row) :
    ∃ row', (outbox.modify k f hf).get outboxId = some row' ∧ row'.attempts = row.attempts := by
  by_cases hk : k = outboxId
  · exact ⟨f row, hk ▸ Table.get_modify_self hf (hk ▸ hget), hattempts row⟩
  · exact ⟨row, (Table.get_modify_ne hf hk).trans hget, rfl⟩

theorem current_effect {q q' : Queue} {a : Action} (hsound : q.Sound workers) (h : q.Current)
    (heffect : Effect workers q a q') (hexclusive : q.Exclusive a) : q'.Current := by
  cases heffect with
  | none => exact h
  | enqueue henqueue =>
    exact h.of_rows (fun _ _ hclaim => hclaim)
      (fun _ row hget => ⟨row, enqueueOutbox_get henqueue hget, rfl⟩)
  | requeue now outboxId =>
    exact h.of_rows (fun _ _ hclaim => hclaim)
      (fun _ _ hget => attempts_modify (OutboxRow.requeued_outboxId now) (by simp) hget)
  | @claim w now locked row _ hnext =>
    obtain ⟨hget, hclaimable⟩ := nextOutbox_some hnext
    intro w' claim hclaim
    rcases enter_claim hclaim with ⟨rfl, hclaim⟩ | ⟨_, hclaim⟩
    · cases hclaim
      exact ⟨_, Table.get_modify_self (OutboxRow.claimed_outboxId _ _ _) hget, rfl⟩
    · -- nobody has the claimed row in hand: it is pending, or the claim is exclusive
      have hid : claim.outboxId ≠ row.outboxId := by
        intro hid
        rcases OutboxRow.claimable_status hclaimable with hpending | hprocessing
        · obtain ⟨row', hget', hattempts⟩ := h w' claim hclaim
          obtain ⟨hstatus, _⟩ := hsound.holds hclaim hget' hattempts
          rw [hid, hget] at hget'
          cases hget'
          simp [hpending] at hstatus
        · exact hexclusive w now locked row rfl hnext hprocessing w' claim hclaim hid
      obtain ⟨row', hget', hattempts⟩ := h w' claim hclaim
      exact ⟨row', (Table.get_modify_ne (OutboxRow.claimed_outboxId _ _ _) hid.symm).trans hget',
        hattempts⟩
  | move hp _ =>
    exact h.of_rows (fun _ _ hclaim => enter_same_claim hp hclaim)
      (fun _ row hget => ⟨row, hget, rfl⟩)
  | returned hphase =>
    exact h.of_rows
      (fun _ _ hclaim => enter_same_claim (fun _ hc => by rw [hphase]; exact hc) hclaim)
      (fun _ row hget => ⟨row, hget, rfl⟩)
  | complete _ =>
    exact h.of_rows (fun _ _ hclaim => enter_same_claim (fun _ hc => by cases hc) hclaim)
      (fun _ _ hget => attempts_modify (OutboxRow.completed_outboxId _) (by simp) hget)
  | retry _ =>
    exact h.of_rows (fun _ _ hclaim => enter_same_claim (fun _ hc => by cases hc) hclaim)
      (fun _ _ hget => attempts_modify (OutboxRow.retried_outboxId _ _ _ _ _) (fun _ => rfl) hget)

end

/-- **Lease safety.** From any outbox that no worker is at work on, over any interleaving:
a completed message stays completed and a row is selected by the update of a completion
or a retry only for the holder of its lease, exactly when no worker ends a claim that
another claim has overtaken. This is so when a row that is still in processing is
claimed only after the worker before has ended or stopped. -/
theorem lease_safety_iff (workers : Nat → Worker) (outbox : Outbox) (actions : List Action) :
    let q : Queue := ⟨outbox, fun _ => .idle⟩
    (Along (step workers) (Queue.Safe workers) q actions ↔
      Along (step workers) (fun q a _ => ¬ q.EndsOvertaken a) q actions) ∧
    (Along (step workers) (fun q a _ => q.Exclusive a) q actions →
      Along (step workers) (Queue.Safe workers) q actions) := by
  intro q
  have hsound : q.Sound workers := sound_idle (fun _ => rfl)
  have hsafe : Along (step workers) (fun q a _ => ¬ q.EndsOvertaken a) q actions →
      Along (step workers) (Queue.Safe workers) q actions := by
    refine Along.of_invariant (I := Queue.Sound workers) ?_ hsound
    intro q a h hends
    exact ⟨(safe_effect_iff h (step_effect workers q a)).mpr hends,
      sound_effect h (step_effect workers q a) hends⟩
  refine ⟨⟨?_, hsafe⟩, ?_⟩
  · refine Along.of_invariant (I := Queue.Sound workers) ?_ hsound
    intro q a h hs
    have hends := (safe_effect_iff h (step_effect workers q a)).mp hs
    exact ⟨hends, sound_effect h (step_effect workers q a) hends⟩
  · intro hexclusive
    apply hsafe
    refine Along.of_invariant (I := fun q => q.Sound workers ∧ q.Current) ?_ ⟨hsound, ?_⟩ hexclusive
    · rintro q a ⟨h, hcurrent⟩ hexclusive
      have hends := not_endsOvertaken hcurrent a
      exact ⟨hends, sound_effect h (step_effect workers q a) hends,
        current_effect h hcurrent (step_effect workers q a) hexclusive⟩
    · intro w claim hclaim
      cases hclaim

/-! ## A slow worker -/

/-- Two workers with a lease of 30 seconds. -/
def twoWorkers : Nat → Worker
  | 0 => ⟨"worker-1", 5, 30000⟩
  | _ => ⟨"worker-2", 5, 30000⟩

def slowMessage : OutboxMessage :=
  ⟨"outbox-evt-1", "event:evt-1:projected", "STATE_PROJECTED", "INC-1042",
    .obj [("event_id", .str "evt-1")], "corr-1", "trace-1", none⟩

/-- The first worker is still handling the message when its lease expires, and the second
one completes it. -/
def overtaken : List Action :=
  [.enqueue 0 slowMessage, .claim 0 0 [], .claim 1 30000 [], .finish 1 (.ok ()),
    .complete 1 30100]

/-- The first worker gives up. -/
def lateRetry : List Action := [.finish 0 (.error "timeout"), .readAttempts 0, .retry 0 40000 0]

def Queue.status (q : Queue) (outboxId : String) : Option OutboxStatus :=
  (q.outbox.get outboxId).map OutboxRow.status

theorem status_of_safe {q : Queue} {actions : List Action} {outboxId : String}
    (h : Along (step twoWorkers) (Queue.Safe twoWorkers) q actions)
    (hstatus : q.status outboxId = some .completed) :
    (exec (step twoWorkers) q actions).status outboxId = some .completed := by
  have hrelates := Along.relates (f := step twoWorkers)
    (R := fun q q' => q.status outboxId = some .completed → q'.status outboxId = some .completed)
    (fun _ h => h) (fun _ _ _ h₁ h₂ h => h₂ (h₁ h)) (h.mono ?_)
  · exact hrelates hstatus
  · intro q a hsafe hstatus
    obtain ⟨row, hget, hrow⟩ := Option.map_eq_some_iff.mp hstatus
    obtain ⟨row', hget', hrow'⟩ := hsafe.completed outboxId row hget hrow
    exact Option.map_eq_some_iff.mpr ⟨row', hget', hrow'⟩

/-- The message the second worker completed is pending again. -/
theorem slow_worker_reopens :
    ¬ ∀ workers outbox actions, Along (step workers) (Queue.Safe workers)
      ⟨outbox, fun _ => .idle⟩ actions := by
  intro hall
  have hlate := ((along_append _ _ _ _ _).mp (hall twoWorkers ∅ (overtaken ++ lateRetry))).2
  have hcompleted : (exec (step twoWorkers) ⟨∅, fun _ => .idle⟩ overtaken).status
      "outbox-evt-1" = some .completed := by decide +kernel
  have hpending : (exec (step twoWorkers) (exec (step twoWorkers) ⟨∅, fun _ => .idle⟩ overtaken)
      lateRetry).status "outbox-evt-1" = some .pending := by decide +kernel
  rw [status_of_safe hlate hcompleted] at hpending
  cases hpending

end Edon.Platform
