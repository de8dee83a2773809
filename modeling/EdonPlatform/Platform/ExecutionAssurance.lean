import EdonPlatform.Platform.Executions

/- Creation, dispatch and transition of execution commands
   (packages/platform-core/src/execution-assurance.ts), over the repository of a tenant: the
   database, or the maps in memory.

   What is proved:
     1. `create_honest_iff` — the command that a creation returns is the one that is stored
        exactly when none was stored under its id, or that one already was.
     2. `recreation_dishonest` — a second creation under one id, for another proposal.

   Correspondence (TypeScript ↔ Lean):
     `PlatformRepositories` (executions) ↔ `ExecutionRepositories`
     `PostgresPlatformRepositories`      ↔ `postgres`
     `InMemoryPlatformRepositories`      ↔ `inMemory`
     `transitions`                       ↔ `ExecutionStatus.transitions`
     `ShadowExecutionAssurance`          ↔ `ShadowExecutionAssurance` (`create`, `dispatch`,
                                           `transition`)

   A call that throws leaves the store as it was: the API makes each in a transaction. -/
namespace Edon.Platform
open Js Fallible

/-! ## The repositories -/

/-- What is done to the executions of a tenant. `find` reads the status column and the command
of an id; `log` is the list of the transitions in the order they were recorded. -/
structure ExecutionRepositories (σ ν : Type) where
  tenantId : String
  putExecution : Int → ExecutionCommand → σ → Except Thrown (Bool × σ)
  updateExecution : ExecutionCommand → ExecutionStatus → σ → Bool × σ
  putExecutionTransition : ExecutionTransition → σ → Except Thrown (Bool × σ)
  find : String → σ → Option (ExecutionStatus × ν)
  log : σ → List ExecutionTransition
  taken : String → σ → Prop
  kept : ExecutionCommand → ν

def postgres (pg : Postgres) (tenantId : String) :
    ExecutionRepositories Executions ExecutionCommand where
  tenantId
  putExecution := Executions.putExecution
  updateExecution := Executions.updateExecution
  putExecutionTransition := Executions.putExecutionTransition pg
  find id t := (t.commands.get id).map fun row => (row.status, row.payload)
  log t := t.transitions.rows
  taken id t := t.transitions.get id ≠ none
  kept := ExecutionCommand.kept

/-- A transition with the tenant it is stored for. -/
structure TenantTransition where
  tenantId : String
  transition : ExecutionTransition

def TenantTransition.key (r : TenantTransition) : String :=
  r.tenantId ++ ":" ++ r.transition.transitionId

/-- The two maps of all tenants; a key is the tenant and the id with a colon between them. -/
structure ExecutionMaps where
  executions : Dict String (String × ExecutionCommand) := ∅
  transitions : Table TenantTransition.key := ∅

section
variable (tenantId : String)

def executionKey (commandId : String) : String := tenantId ++ ":" ++ commandId

def ExecutionMaps.putExecution (c : ExecutionCommand) (m : ExecutionMaps) : Bool × ExecutionMaps :=
  if m.executions.contains (executionKey tenantId c.commandId) then (false, m)
  else (true, { m with
    executions := m.executions.set (executionKey tenantId c.commandId) (tenantId, c) })

def ExecutionMaps.updateExecution (c : ExecutionCommand) (expectedStatus : ExecutionStatus)
    (m : ExecutionMaps) : Bool × ExecutionMaps :=
  match m.executions.get (executionKey tenantId c.commandId) with
  | some current =>
    if current.2.status = expectedStatus then (true, { m with
      executions := m.executions.set (executionKey tenantId c.commandId) (tenantId, c) })
    else (false, m)
  | none => (false, m)

def ExecutionMaps.putExecutionTransition (r : ExecutionTransition) (m : ExecutionMaps) :
    Bool × ExecutionMaps :=
  match m.transitions.insert ⟨tenantId, r⟩ with
  | some transitions => (true, { m with transitions })
  | none => (false, m)

def inMemory : ExecutionRepositories ExecutionMaps (String × ExecutionCommand) where
  tenantId
  putExecution _ c m := .ok (m.putExecution tenantId c)
  updateExecution c expectedStatus m := m.updateExecution tenantId c expectedStatus
  putExecutionTransition r m := .ok (m.putExecutionTransition tenantId r)
  find id m := (m.executions.get (executionKey tenantId id)).map fun e => (e.2.status, e)
  log m := (m.transitions.rows.filter (fun r => r.tenantId = tenantId)).map
    TenantTransition.transition
  taken id m := m.transitions.get (tenantId ++ ":" ++ id) ≠ none
  kept c := (tenantId, c)

end

/-! ## The class -/

/-- The table `transitions`. -/
def ExecutionStatus.transitions : ExecutionStatus → List ExecutionStatus
  | .dispatchPending => [.dispatched, .dispatchRejected, .dispatchFailed, .expired, .cancelled]
  | .dispatched => [.acknowledged, .outcomeUnknown, .dispatchFailed, .expired]
  | .acknowledged => [.outcomeReported, .outcomeUnknown, .reconciliationRequired]
  | .outcomeReported =>
    [.outcomeVerified, .partiallyCompleted, .compensationRequired, .reconciliationRequired]
  | .outcomeVerified => [.completed, .partiallyCompleted, .compensationRequired]
  | .completed => []
  | .dispatchRejected => []
  | .dispatchFailed => []
  | .outcomeUnknown => [.acknowledged, .reconciliationRequired, .cancelled]
  | .reconciliationRequired =>
    [.acknowledged, .outcomeReported, .partiallyCompleted, .compensationRequired, .cancelled]
  | .partiallyCompleted => [.outcomeVerified, .compensationRequired, .completed]
  | .compensationRequired => [.dispatchPending, .cancelled, .completed]
  | .cancelled => []
  | .expired => []

/-- No status is entered from itself. -/
theorem not_mem_transitions (status : ExecutionStatus) : status ∉ status.transitions := by
  cases status <;> decide

/-- The command without its status and hash. -/
structure ExecutionRequest where
  commandId : String
  incidentId : String
  proposalId : String
  authorizationId : String
  proposalHash : String
  stateVersion : Int
  externalIdempotencyKey : String
  connector : String
  resource : String
  credentialScope : String
  dispatchRequestedAt : String
  expiresAt : String
  details : Fields := []

inductive ExecutionError where
  | invalid (origin : Option ExecutionStatus) (target : ExecutionStatus)
  | stale
  | repository (e : Thrown)

/-- `text.slice(-n)`; a digest is ASCII. -/
def sliceLast (n : Nat) (text : String) : String :=
  String.ofList (text.toList.drop (text.length - n))

/-- `{ ...command, status: 'DISPATCH_PENDING' }`, as the API handler orders it. -/
def ExecutionRequest.toJson (tenantId : String) (r : ExecutionRequest) : Value :=
  .obj ([("tenant_id", .str tenantId), ("command_id", .str r.commandId),
    ("incident_id", .str r.incidentId), ("proposal_id", .str r.proposalId),
    ("authorization_id", .str r.authorizationId), ("proposal_hash", .str r.proposalHash),
    ("state_version", integer r.stateVersion),
    ("external_idempotency_key", .str r.externalIdempotencyKey),
    ("connector", .str r.connector), ("resource", .str r.resource),
    ("credential_scope", .str r.credentialScope),
    ("dispatch_requested_at", .str r.dispatchRequestedAt), ("expires_at", .str r.expiresAt)] ++
    r.details ++ [("status", .str ExecutionStatus.dispatchPending.name)])

/-- `{ reason: 'shadow_mode_pending', credentials: 'NONE' }`. -/
def pendingPayload : Value :=
  .obj [("reason", .str "shadow_mode_pending"), ("credentials", .str "NONE")]

/-- `{ code: 'SHADOW_DISPATCH_DISABLED', credentials: 'NONE' }`. -/
def rejectedPayload : Value :=
  .obj [("code", .str "SHADOW_DISPATCH_DISABLED"), ("credentials", .str "NONE")]

structure ShadowExecutionAssurance (σ ν : Type) where
  js : Runtime
  repositories : ExecutionRepositories σ ν

namespace ShadowExecutionAssurance
variable {σ ν : Type} (a : ShadowExecutionAssurance σ ν)

/-- `sha256:` and the digest of `JSON.stringify(value)`. -/
def hash (value : Value) : String := "sha256:" ++ a.js.stableHash value

def transitionId (commandId : String) (target : ExecutionStatus) (payload : Value) : String :=
  commandId ++ ":" ++ target.name ++ ":" ++ sliceLast 12 (a.hash payload)

/-- Whether the status was the expected one, which is then replaced; nothing is expected of a
command that is being created. -/
def updated (origin : Option ExecutionStatus) (next : ExecutionCommand) (t : σ) : Bool × σ :=
  match origin with
  | none => (true, t)
  | some expected => a.repositories.updateExecution next expected t

def transition (recordedAt : String) (command : ExecutionCommand)
    (origin : Option ExecutionStatus) (target : ExecutionStatus) (payload : Value) (t : σ) :
    Except ExecutionError (ExecutionCommand × σ) := do
  require (origin.all fun status => target ∈ status.transitions) (.invalid origin target)
  let next := { command with status := target }
  let (updated, t) := a.updated origin next t
  require updated .stale
  let (_, t) ← (a.repositories.putExecutionTransition
    { transitionId := a.transitionId command.commandId target payload
      commandId := command.commandId, fromStatus := origin, toStatus := target
      payload, recordedAt } t).mapError ExecutionError.repository
  return (next, t)

/-- The command that a request creates. -/
def pending (r : ExecutionRequest) : ExecutionCommand :=
  { r with
    status := .dispatchPending
    commandHash := a.hash (r.toJson a.repositories.tenantId) }

def create (now : Int) (recordedAt : String) (r : ExecutionRequest) (t : σ) :
    Except ExecutionError (ExecutionCommand × σ) := do
  let result := a.pending r
  let (_, t) ← (a.repositories.putExecution now result t).mapError ExecutionError.repository
  let (_, t) ← a.transition recordedAt result none .dispatchPending pendingPayload t
  return (result, t)

def dispatch (recordedAt : String) (command : ExecutionCommand) (t : σ) :
    Except ExecutionError (ExecutionCommand × σ) :=
  a.transition recordedAt command (some command.status) .dispatchRejected rejectedPayload t

end ShadowExecutionAssurance

/-! ## What the repositories do -/

section
variable {σ ν : Type} (repo : ExecutionRepositories σ ν)

/-- What writing a command does where `done`, and what it leaves alone. -/
structure ExecutionRepositories.Writes (done : Prop) (c : ExecutionCommand) (t t' : σ) : Prop where
  here : done → repo.find c.commandId t' = some (c.status, repo.kept c)
  elsewhere : ∀ id, ¬ (done ∧ id = c.commandId) → repo.find id t' = repo.find id t
  log : repo.log t' = repo.log t
  taken : ∀ id, repo.taken id t' ↔ repo.taken id t

/-- What recording a transition does: nothing where its id is taken. -/
structure ExecutionRepositories.Records (r : ExecutionTransition) (t t' : σ) : Prop where
  find : ∀ id, repo.find id t' = repo.find id t
  new : ¬ repo.taken r.transitionId t → ∃ payload, repo.log t' = repo.log t ++ [{ r with payload }]
  old : repo.taken r.transitionId t → repo.log t' = repo.log t
  taken : ∀ id, repo.taken id t' ↔ repo.taken id t ∨ id = r.transitionId

/-- A command is inserted once and replaced under its status alone; an id is recorded once. -/
structure ExecutionRepositories.Lawful : Prop where
  put : ∀ {now c t b t'}, repo.putExecution now c t = .ok (b, t') →
    repo.Writes (repo.find c.commandId t = none) c t t'
  update : ∀ {c s t b t'}, repo.updateExecution c s t = (b, t') →
    (b = true → ∃ value, repo.find c.commandId t = some (s, value)) ∧ repo.Writes (b = true) c t t'
  record : ∀ {r t b t'}, repo.putExecutionTransition r t = .ok (b, t') → repo.Records r t t'

end

theorem postgres_lawful (pg : Postgres) (tenantId : String) : (postgres pg tenantId).Lawful where
  put := by
    intro now c t b t' h
    replace h : t.putExecution now c = .ok (b, t') := h
    unfold Executions.putExecution at h
    split at h
    · next htaken =>
      cases h
      exact ⟨fun hfree => absurd (Option.map_eq_none_iff.mp hfree) (Table.get_of_insert htaken),
        fun _ _ => rfl, rfl, fun _ => Iff.rfl⟩
    · next commands hinsert =>
      split at h
      · cases h
      · cases h
        obtain ⟨-, hfree⟩ := Table.rows_insert hinsert
        refine ⟨?_, ?_, rfl, fun _ => Iff.rfl⟩
        · intro _
          have hhere : commands.get c.commandId = some (c.row now) :=
            (Table.get_insert hinsert c.commandId).trans (if_pos rfl)
          show (commands.get c.commandId).map _ = _
          rw [hhere]
          rfl
        · intro id hid
          show (commands.get id).map _ = (t.commands.get id).map _
          rw [Table.get_insert hinsert, if_neg]
          rintro rfl
          refine hid ⟨?_, rfl⟩
          show (t.commands.get (c.row now).commandId).map _ = none
          rw [hfree]
          rfl
  update := by
    intro c s t b t' h
    replace h : t.updateExecution c s = (b, t') := h
    unfold Executions.updateExecution at h
    split at h
    · next row hrow =>
      split at h
      · next hstatus =>
        cases h
        refine ⟨fun _ => ⟨row.payload, ?_⟩, ?_, ?_, rfl, fun _ => Iff.rfl⟩
        · show (t.commands.get c.commandId).map _ = _
          rw [hrow, ← hstatus]
          rfl
        · intro _
          have hhere := Table.get_modify_self (ExecutionRow.update_commandId c) hrow
          show Option.map _ (Table.get _ _) = _
          rw [hhere]
          rfl
        · intro id hid
          have hother : c.commandId ≠ id := fun hsame => hid ⟨rfl, hsame.symm⟩
          have hsame := Table.get_modify_ne (t := t.commands) (ExecutionRow.update_commandId c) hother
          show Option.map _ (Table.get _ _) = Option.map _ (Table.get _ _)
          rw [hsame]
      · cases h
        exact ⟨fun hb => absurd hb (by decide), fun hb => absurd hb (by decide),
          fun _ _ => rfl, rfl, fun _ => Iff.rfl⟩
    · cases h
      exact ⟨fun hb => absurd hb (by decide), fun hb => absurd hb (by decide),
        fun _ _ => rfl, rfl, fun _ => Iff.rfl⟩
  record := by
    intro r t b t' h
    obtain ⟨_, -, h⟩ := bind_ok.mp h
    split at h
    · next transitions hinsert =>
      cases h
      obtain ⟨hrows, hfree⟩ := Table.rows_insert hinsert
      refine ⟨fun _ => rfl, fun _ => ⟨stored r.payload, hrows⟩, fun htaken => absurd hfree htaken, ?_⟩
      intro id
      have htaken := Table.taken_insert hinsert id
      exact htaken
    · next hinsert =>
      cases h
      have htaken := Table.get_of_insert hinsert
      refine ⟨fun _ => rfl, fun hfree => absurd htaken hfree, fun _ => rfl, ?_⟩
      intro id
      refine (or_iff_left_of_imp ?_).symm
      rintro rfl
      exact htaken

theorem executionKey_injective (tenantId : String) : Function.Injective (executionKey tenantId) := by
  intro a b h
  exact String.append_right_inj _ |>.mp h

theorem inMemory_lawful (tenantId : String) : (inMemory tenantId).Lawful where
  put := by
    intro now c m b m' h
    cases hput : m.putExecution tenantId c with
    | mk done m₁ =>
      replace h : Except.ok (m.putExecution tenantId c) = .ok (b, m') := h
      rw [hput] at h
      cases h
      unfold ExecutionMaps.putExecution at hput
      split at hput
      · next htaken =>
        cases hput
        obtain ⟨e, he⟩ := Dict.contains_iff.mp htaken
        refine ⟨?_, fun _ _ => rfl, rfl, fun _ => Iff.rfl⟩
        intro hfree
        have hnone := Option.map_eq_none_iff.mp hfree
        rw [he] at hnone
        cases hnone
      · next hfree =>
        cases hput
        refine ⟨fun _ => ?_, ?_, rfl, fun _ => Iff.rfl⟩
        · show Option.map _ (Dict.get _ _) = _
          rw [Dict.get_set_self]
          rfl
        · intro id hid
          have hnone : m.executions.get (executionKey tenantId c.commandId) = none := by
            cases hget : m.executions.get (executionKey tenantId c.commandId) with
            | none => rfl
            | some e => exact absurd (Dict.contains_iff.mpr ⟨e, hget⟩) hfree
          have hother : executionKey tenantId c.commandId ≠ executionKey tenantId id := by
            intro hsame
            refine hid ⟨?_, (executionKey_injective tenantId hsame).symm⟩
            show Option.map _ (Dict.get _ _) = none
            rw [hnone]
            rfl
          show Option.map _ (Dict.get _ _) = Option.map _ (Dict.get _ _)
          rw [Dict.get_set_ne _ _ hother]
  update := by
    intro c s m b m' h
    replace h : m.updateExecution tenantId c s = (b, m') := h
    unfold ExecutionMaps.updateExecution at h
    split at h
    · next current hcurrent =>
      split at h
      · next hstatus =>
        cases h
        refine ⟨fun _ => ⟨current, ?_⟩, ?_, ?_, rfl, fun _ => Iff.rfl⟩
        · show Option.map _ (Dict.get _ _) = _
          rw [hcurrent, ← hstatus]
          rfl
        · intro _
          show Option.map _ (Dict.get _ _) = _
          rw [Dict.get_set_self]
          rfl
        · intro id hid
          have hother : executionKey tenantId c.commandId ≠ executionKey tenantId id :=
            fun hsame => hid ⟨rfl, (executionKey_injective tenantId hsame).symm⟩
          show Option.map _ (Dict.get _ _) = Option.map _ (Dict.get _ _)
          rw [Dict.get_set_ne _ _ hother]
      · cases h
        exact ⟨fun hb => absurd hb (by decide), fun hb => absurd hb (by decide),
          fun _ _ => rfl, rfl, fun _ => Iff.rfl⟩
    · cases h
      exact ⟨fun hb => absurd hb (by decide), fun hb => absurd hb (by decide),
        fun _ _ => rfl, rfl, fun _ => Iff.rfl⟩
  record := by
    intro r m b m' h
    replace h : m.putExecutionTransition tenantId r = (b, m') := Except.ok.inj h
    unfold ExecutionMaps.putExecutionTransition at h
    split at h
    · next transitions hinsert =>
      cases h
      obtain ⟨hrows, hfree⟩ := Table.rows_insert hinsert
      refine ⟨fun _ => rfl, fun _ => ⟨r.payload, ?_⟩, fun htaken => absurd hfree htaken, ?_⟩
      · show (transitions.rows.filter _).map _ = _
        have hown : [TenantTransition.mk tenantId r].filter (fun r => r.tenantId = tenantId) = [⟨tenantId, r⟩] := by
          simp
        rw [hrows, List.filter_append, List.map_append, hown]
        rfl
      · intro id
        have htaken := Table.taken_insert hinsert (tenantId ++ ":" ++ id)
        refine htaken.trans (or_congr_right ?_)
        exact (executionKey_injective tenantId).eq_iff
    · next hinsert =>
      cases h
      have htaken := Table.get_of_insert hinsert
      refine ⟨fun _ => rfl, fun hfree => absurd htaken hfree, fun _ => rfl, ?_⟩
      intro id
      refine (or_iff_left_of_imp ?_).symm
      rintro rfl
      exact htaken

/-! ## One call -/

theorem mapError_ok {α ε ε' : Type} {f : ε → ε'} {x : Except ε α} {y : α} :
    x.mapError f = .ok y ↔ x = .ok y := by
  cases x <;> simp [Except.mapError]

section
variable {σ ν : Type}

/-- The status of a command, as its column has it. -/
def ExecutionRepositories.status (repo : ExecutionRepositories σ ν) (id : String) (t : σ) :
    Option ExecutionStatus := (repo.find id t).map Prod.fst

/-- The record that a transition makes. -/
def ShadowExecutionAssurance.record (a : ShadowExecutionAssurance σ ν) (recordedAt : String)
    (command : ExecutionCommand) (origin : Option ExecutionStatus) (target : ExecutionStatus)
    (payload : Value) : ExecutionTransition where
  transitionId := a.transitionId command.commandId target payload
  commandId := command.commandId
  fromStatus := origin
  toStatus := target
  payload
  recordedAt

end

section
variable {σ ν : Type} {a : ShadowExecutionAssurance σ ν} {recordedAt : String}
  {command returned : ExecutionCommand} {origin : Option ExecutionStatus}
  {target : ExecutionStatus} {payload : Value} {t t' : σ}

theorem updated_ok (hlaws : a.repositories.Lawful)
    (h : a.updated origin command t = (true, t')) :
    (∀ status, origin = some status → a.repositories.status command.commandId t = some status) ∧
      a.repositories.Writes (origin ≠ none) command t t' := by
  cases origin with
  | none =>
    cases h
    exact ⟨fun _ hnone => (Option.some_ne_none _ hnone.symm).elim,
      fun hsome => absurd rfl hsome, fun _ _ => rfl, rfl, fun _ => Iff.rfl⟩
  | some expected =>
    obtain ⟨hexpected, hwrites⟩ := hlaws.update h
    obtain ⟨value, hfind⟩ := hexpected rfl
    refine ⟨?_, fun _ => hwrites.here rfl, fun id hid => hwrites.elsewhere id ?_, hwrites.log,
      hwrites.taken⟩
    · intro status hstatus
      cases hstatus
      rw [ExecutionRepositories.status, hfind]
      rfl
    · exact fun hhere => hid ⟨Option.some_ne_none _, hhere.2⟩

/-- A transition writes the command, where a status is expected of it, and then records. -/
theorem transition_ok (hlaws : a.repositories.Lawful)
    (h : a.transition recordedAt command origin target payload t = .ok (returned, t')) :
    (∀ status, origin = some status → target ∈ status.transitions ∧
      a.repositories.status command.commandId t = some status) ∧
    ∃ t₁, a.repositories.Writes (origin ≠ none) { command with status := target } t t₁ ∧
      a.repositories.Records (a.record recordedAt command origin target payload) t₁ t' := by
  obtain ⟨_, hallowed, h⟩ := bind_ok.mp h
  have hallowed := require_ok.mp hallowed
  obtain ⟨_, hupdated, h⟩ := bind_ok.mp h
  have hupdated := require_ok.mp hupdated
  obtain ⟨⟨b, t₂⟩, hrecord, h⟩ := bind_ok.mp h
  have hrecord := hlaws.record (mapError_ok.mp hrecord)
  cases h
  have hchanged : a.updated origin { command with status := target } t =
      (true, (a.updated origin { command with status := target } t).2) := Prod.ext hupdated rfl
  obtain ⟨hstatus, hwrites⟩ := updated_ok hlaws hchanged
  refine ⟨?_, _, hwrites, hrecord⟩
  intro status horigin
  refine ⟨?_, hstatus status horigin⟩
  rw [horigin] at hallowed
  exact of_decide_eq_true hallowed

/-- A creation writes the command where there is none under its id, and then records. -/
theorem create_ok (hlaws : a.repositories.Lawful) {now : Int} {r : ExecutionRequest}
    (h : a.create now recordedAt r t = .ok (returned, t')) :
    returned = a.pending r ∧
    ∃ t₁, a.repositories.Writes (a.repositories.find r.commandId t = none) (a.pending r) t t₁ ∧
      a.repositories.Records
        (a.record recordedAt (a.pending r) none .dispatchPending pendingPayload) t₁ t' := by
  obtain ⟨⟨b, t₁⟩, hput, h⟩ := bind_ok.mp h
  obtain ⟨⟨_, t₂⟩, htransition, h⟩ := bind_ok.mp h
  cases h
  have hwrites := hlaws.put (mapError_ok.mp hput)
  obtain ⟨-, t₂, hsame, hrecords⟩ := transition_ok hlaws htransition
  refine ⟨rfl, t₁, hwrites, ?_⟩
  exact {
    find := fun id => (hrecords.find id).trans (hsame.elsewhere id fun hhere => hhere.1 rfl)
    new := fun hfree => by
      rw [← hsame.log]
      exact hrecords.new fun htaken => hfree ((hsame.taken _).mp htaken)
    old := fun htaken => (hrecords.old ((hsame.taken _).mpr htaken)).trans hsame.log
    taken := fun id => (hrecords.taken id).trans (or_congr_left (hsame.taken id)) }

end

/-! ## Creation -/

section
variable {σ ν : Type} {a : ShadowExecutionAssurance σ ν}

/-- The command is the one that is stored under its id. -/
def ExecutionRepositories.Holds (repo : ExecutionRepositories σ ν) (c : ExecutionCommand)
    (t : σ) : Prop := (repo.find c.commandId t).map Prod.snd = some (repo.kept c)

theorem create_holds_iff (hlaws : a.repositories.Lawful) {now : Int} {recordedAt : String}
    {r : ExecutionRequest} {returned : ExecutionCommand} {t t' : σ}
    (h : a.create now recordedAt r t = .ok (returned, t')) :
    a.repositories.Holds returned t' ↔
      a.repositories.find returned.commandId t = none ∨ a.repositories.Holds returned t := by
  obtain ⟨rfl, t₁, hwrites, hrecords⟩ := create_ok hlaws h
  have hid : (a.pending r).commandId = r.commandId := rfl
  unfold ExecutionRepositories.Holds
  rw [hrecords.find]
  by_cases hfree : a.repositories.find r.commandId t = none
  · rw [hwrites.here hfree]
    exact iff_of_true rfl (.inl hfree)
  · rw [hwrites.elsewhere _ fun hhere => hfree hhere.1]
    exact (or_iff_right hfree).symm

end

/-- **Honest creation.** In every state, the command that a creation returns is the one that is
stored under its id, in the database as in memory, exactly when no command was stored under the
id, or that command was. -/
theorem create_honest_iff (js : Runtime) (tenantId recordedAt : String) (now : Int)
    (r : ExecutionRequest) :
    (∀ pg t returned t',
      ShadowExecutionAssurance.create ⟨js, postgres pg tenantId⟩ now recordedAt r t =
        .ok (returned, t') →
      ((postgres pg tenantId).Holds returned t' ↔
        (postgres pg tenantId).find returned.commandId t = none ∨
          (postgres pg tenantId).Holds returned t)) ∧
    ∀ m returned m',
      ShadowExecutionAssurance.create ⟨js, inMemory tenantId⟩ now recordedAt r m =
        .ok (returned, m') →
      ((inMemory tenantId).Holds returned m' ↔
        (inMemory tenantId).find returned.commandId m = none ∨
          (inMemory tenantId).Holds returned m) :=
  ⟨fun pg _ _ _ h => create_holds_iff (postgres_lawful pg tenantId) h,
    fun _ _ _ h => create_holds_iff (inMemory_lawful tenantId) h⟩

/-! ## One id for two proposals -/

def executionRequest (proposalId externalIdempotencyKey : String) : ExecutionRequest where
  commandId := "cmd-1"
  incidentId := "INC-1042"
  proposalId
  authorizationId := "DEC-" ++ proposalId
  proposalHash := "h-" ++ proposalId
  stateVersion := 142
  externalIdempotencyKey
  connector := "none"
  resource := "INC-1042"
  credentialScope := "NONE"
  dispatchRequestedAt := "2026-07-24T16:00:00Z"
  expiresAt := "2026-07-24T16:05:00Z"

def sampleAssurance : ShadowExecutionAssurance Executions ExecutionCommand where
  js := Runtime.sample
  repositories := postgres ⟨fun _ => some 0, fun a b => decide (a ≤ b)⟩ "tenant-a"

/-- A second creation under the id returns a command for the second proposal. -/
theorem recreated : ∃ t returned t',
    sampleAssurance.create 0 "2026-07-24T16:00:01Z" (executionRequest "P-2" "key-2") t =
      .ok (returned, t') ∧
    returned.proposalId = "P-2" ∧
    (sampleAssurance.repositories.find "cmd-1" t').map (·.2.proposalId) = some "P-1" := by
  have hruns : ((do
      let p ← sampleAssurance.create 0 "2026-07-24T16:00:00Z" (executionRequest "P-1" "key-1") {}
      let q ← sampleAssurance.create 0 "2026-07-24T16:00:01Z" (executionRequest "P-2" "key-2") p.2
      return (q.1.proposalId,
        (sampleAssurance.repositories.find "cmd-1" q.2).map (·.2.proposalId))) :
        Except ExecutionError _).toOption = some ("P-2", some "P-1") := by
    decide +kernel
  obtain ⟨p, -, hsecond⟩ := bind_ok.mp (toOption_ok.mp hruns)
  obtain ⟨q, hcreate, hq⟩ := bind_ok.mp hsecond
  have hq := Prod.mk.inj (Except.ok.inj hq)
  exact ⟨p.2, q.1, q.2, hcreate, hq.1, hq.2⟩

theorem create_honest_iff_recreated : ∃ t returned t',
    (sampleAssurance.repositories.Holds returned t' ↔
      sampleAssurance.repositories.find returned.commandId t = none ∨
        sampleAssurance.repositories.Holds returned t) := by
  obtain ⟨t, returned, t', hcreate, -⟩ := recreated
  exact ⟨t, returned, t', (create_honest_iff _ _ _ _ _).1 _ t returned t' hcreate⟩

/-- The command that is returned is not the stored one. -/
theorem recreation_dishonest : ∃ t returned t',
    sampleAssurance.create 0 "2026-07-24T16:00:01Z" (executionRequest "P-2" "key-2") t =
      .ok (returned, t') ∧ ¬ sampleAssurance.repositories.Holds returned t' := by
  obtain ⟨t, returned, t', hcreate, hreturned, hstored⟩ := recreated
  refine ⟨t, returned, t', hcreate, ?_⟩
  obtain ⟨rfl, -⟩ := create_ok (postgres_lawful _ _) hcreate
  intro hholds
  have hsame := congrArg (Option.map ExecutionCommand.proposalId) hholds
  rw [Option.map_map] at hsame
  have hproposals : some "P-1" = some "P-2" := hstored.symm.trans hsame
  exact absurd hproposals (by decide)

end Edon.Platform
