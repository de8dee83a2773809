import EdonPlatform.Platform.Repositories

/- The execution commands of one tenant and the log of their transitions
   (packages/platform-core/src/repositories.ts; migration 012).

   Correspondence (TypeScript ↔ Lean):
     `ExecutionCommand`, `ExecutionTransition` ↔ `ExecutionCommand`, `ExecutionTransition`
     `execution_commands`                      ↔ `Executions.commands` and `ExecutionRow`
     `execution_transitions`                   ↔ `Executions.transitions`
     `putExecution`, `updateExecution`         ↔ the same names
     `putExecutionTransition`                  ↔ `putExecutionTransition`
     `listExecutions`                          ↔ `listExecutions`

   The column `payload` is the whole command; the columns an update does not set keep what
   the insert wrote. The trigger of the table compares those columns, so it never fires. -/
namespace Edon.Platform
open Js Fallible

inductive ExecutionStatus where
  | dispatchPending | dispatched | acknowledged | outcomeReported | outcomeVerified | completed
  | dispatchRejected | dispatchFailed | outcomeUnknown | reconciliationRequired
  | partiallyCompleted | compensationRequired | cancelled | expired
  deriving DecidableEq, Repr

def ExecutionStatus.name : ExecutionStatus → String
  | .dispatchPending => "DISPATCH_PENDING"
  | .dispatched => "DISPATCHED"
  | .acknowledged => "ACKNOWLEDGED"
  | .outcomeReported => "OUTCOME_REPORTED"
  | .outcomeVerified => "OUTCOME_VERIFIED"
  | .completed => "COMPLETED"
  | .dispatchRejected => "DISPATCH_REJECTED"
  | .dispatchFailed => "DISPATCH_FAILED"
  | .outcomeUnknown => "OUTCOME_UNKNOWN"
  | .reconciliationRequired => "RECONCILIATION_REQUIRED"
  | .partiallyCompleted => "PARTIALLY_COMPLETED"
  | .compensationRequired => "COMPENSATION_REQUIRED"
  | .cancelled => "CANCELLED"
  | .expired => "EXPIRED"

/-- `details` are the optional properties that nothing here reads. -/
structure ExecutionCommand where
  commandId : String
  incidentId : String
  proposalId : String
  status : ExecutionStatus
  commandHash : String
  authorizationId : String
  proposalHash : String
  stateVersion : Int
  externalIdempotencyKey : String
  connector : String
  resource : String
  credentialScope : String
  dispatchRequestedAt : String
  expiresAt : String
  details : Fields := []

def ExecutionCommand.toJson (c : ExecutionCommand) : Value :=
  .obj ([("command_id", .str c.commandId), ("incident_id", .str c.incidentId),
    ("proposal_id", .str c.proposalId), ("status", .str c.status.name),
    ("command_hash", .str c.commandHash), ("authorization_id", .str c.authorizationId),
    ("proposal_hash", .str c.proposalHash), ("state_version", integer c.stateVersion),
    ("external_idempotency_key", .str c.externalIdempotencyKey),
    ("connector", .str c.connector), ("resource", .str c.resource),
    ("credential_scope", .str c.credentialScope),
    ("dispatch_requested_at", .str c.dispatchRequestedAt), ("expires_at", .str c.expiresAt)] ++
    c.details)

/-- The command as it is read back from its column. -/
def ExecutionCommand.kept (c : ExecutionCommand) : ExecutionCommand :=
  { c with details := storedFields c.details }

structure ExecutionRow where
  commandId : String
  incidentId : String
  status : ExecutionStatus
  externalIdempotencyKey : String
  payload : ExecutionCommand
  createdAt : Int

structure ExecutionTransition where
  transitionId : String
  commandId : String
  fromStatus : Option ExecutionStatus
  toStatus : ExecutionStatus
  payload : Value
  recordedAt : String

structure Executions where
  commands : Table ExecutionRow.commandId := ∅
  transitions : Table ExecutionTransition.transitionId := ∅

def ExecutionCommand.row (now : Int) (c : ExecutionCommand) : ExecutionRow where
  commandId := c.commandId
  incidentId := c.incidentId
  status := c.status
  externalIdempotencyKey := c.externalIdempotencyKey
  payload := c.kept
  createdAt := now

/-- What an update sets. -/
def ExecutionRow.update (c : ExecutionCommand) (r : ExecutionRow) : ExecutionRow :=
  { r with status := c.status, payload := c.kept }

theorem ExecutionRow.update_commandId (c : ExecutionCommand) (r : ExecutionRow) :
    (r.update c).commandId = r.commandId := rfl

/-- Whether the command was inserted; the key of its external effects is unique. -/
def Executions.putExecution (now : Int) (c : ExecutionCommand) (t : Executions) :
    Except Thrown (Bool × Executions) :=
  match t.commands.insert (c.row now) with
  | none => .ok (false, t)
  | some commands =>
    if t.commands.rows.any (fun r => r.externalIdempotencyKey = c.externalIdempotencyKey) then
      .error .database
    else .ok (true, { t with commands })

/-- Whether the command had the expected status. -/
def Executions.updateExecution (c : ExecutionCommand) (expectedStatus : ExecutionStatus)
    (t : Executions) : Bool × Executions :=
  match t.commands.get c.commandId with
  | some row =>
    if row.status = expectedStatus then
      (true, { t with
        commands := t.commands.modify c.commandId (ExecutionRow.update c)
          (ExecutionRow.update_commandId c) })
    else (false, t)
  | none => (false, t)

section
variable (pg : Postgres)

def Executions.putExecutionTransition (transition : ExecutionTransition) (t : Executions) :
    Except Thrown (Bool × Executions) := do
  let _ ← timestamptz pg transition.recordedAt
  return match t.transitions.insert { transition with payload := stored transition.payload } with
    | some transitions => (true, { t with transitions })
    | none => (false, t)

/-- `ORDER BY created_at, command_id`. -/
def createdBefore (a b : ExecutionRow) : Prop :=
  a.createdAt < b.createdAt ∨
    (a.createdAt = b.createdAt ∧ pg.collate a.commandId b.commandId = true)

instance : DecidableRel (createdBefore pg) := fun _ _ =>
  inferInstanceAs (Decidable (_ < _ ∨ (_ = _ ∧ _ = _)))

/-- The rows of a case, in the order they are listed in. -/
def Executions.rowsOf (incidentId : String) (t : Executions) : List ExecutionRow :=
  (t.commands.rows.filter (fun r => r.incidentId = incidentId)).insertionSort (createdBefore pg)

def Executions.listExecutions (incidentId : String) (t : Executions) : List ExecutionCommand :=
  (t.rowsOf pg incidentId).map ExecutionRow.payload

end
end Edon.Platform
