import EdonPlatform.Cerebrum.Adapter
import EdonPlatform.Operations.Goals
import EdonPlatform.Operations.Document
import EdonPlatform.Lib.Interleaving
import EdonPlatform.Lib.Table

/- One cycle of the shadow supervisor (edon/supervisor/loop.py) and the store of its
   cycles (edon/supervisor/store.py). A cycle reads the world five times, each time in a
   transaction of its own: for the operations, the alerts, the ready steps, and twice for
   the assignment proposals, which list the ready steps again. Others write to the world
   in between.

   With a recorded cycle the model keeps its arguments, what it read, and its context;
   the code keeps the hash of the context and the proposal.

   What is proved:
     1. `snapshot_consistent_iff` — over every interleaving of cycles and writers, every
        recorded cycle is the one its first reading determines, exactly when what the
        later readings showed was what the first one would have shown.
     2. `torn_context` — a goal is created between two readings of one cycle.

   Correspondence (Python ↔ Lean):
     `get_world`, as the control plane sees it ↔ `World`
     `ShadowSupervisor.run_cycle`              ↔ `runCycle`
     `ShadowCycleStore.record`                 ↔ `record` -/
namespace Edon.Supervisor
open Json Operations Interleaving Transition

def supervisorError (message : String) : PyError := ⟨.supervisorError, message⟩

/-- A world as the control plane reads it. -/
structure World where
  version : Int
  stateSha256 : String
  operations : Option OperationalState

/-! ## The context -/

/-- A call of `run_cycle`, with the clock readings it makes where `at` is not given. -/
structure CycleArgs where
  tenantId : String
  worldId : String
  cycleId : String
  timestamp : Option String
  alertsNow : Instant
  readyNow : Instant
  proposalsNow : Instant
  recordNow : Instant

/-- What the five readings of a cycle returned. -/
structure Readings where
  operations : World
  alerts : World
  readySteps : World
  proposals : World
  proposedSteps : World

structure Context where
  tenantId : String
  worldId : String
  worldVersion : Int
  worldStateSha256 : String
  operations : OperationalState
  alerts : List Alert
  readySteps : List ReadyStep
  assignmentProposals : List AssignmentProposal

section
variable (py : Python) (a : CycleArgs)

/-- `monitor` of a world. -/
def alertsOf (w : World) : Except PyError (List Alert) := do
  let s ← snapshot w.operations
  let current ← timestampOr py a.timestamp a.alertsNow "at"
  return monitor py s current

/-- `ready_steps` of a world. -/
def readyStepsOf (now : Instant) (w : World) : Except PyError (List ReadyStep) := do
  let s ← snapshot w.operations
  let current ← timestampOr py a.timestamp now "at"
  readySteps s current

/-- `assignment_proposals` of a world, with the one its ready steps are read from. -/
def proposalsOf (w ready : World) : Except PyError (List AssignmentProposal) := do
  let s ← snapshot w.operations
  let ready ← readyStepsOf py a a.proposalsNow ready
  return assignmentProposals py s ready

/-- The context these readings make. -/
def contextFrom (r : Readings) : Except PyError Context := do
  let operations ← snapshot r.operations.operations
  let alerts ← alertsOf py a r.alerts
  let ready ← readyStepsOf py a a.readyNow r.readySteps
  let assignmentProposals ← proposalsOf py a r.proposals r.proposedSteps
  return {
    tenantId := a.tenantId
    worldId := a.worldId
    worldVersion := r.operations.version
    worldStateSha256 := r.operations.stateSha256
    operations, alerts
    readySteps := ready
    assignmentProposals }

/-- The context of one world. -/
def contextOf (w : World) : Except PyError Context := contextFrom py a ⟨w, w, w, w, w⟩

/-- The later readings showed what the first one would have. -/
def Steady (r : Readings) : Prop :=
  alertsOf py a r.alerts = alertsOf py a r.operations ∧
  readyStepsOf py a a.readyNow r.readySteps = readyStepsOf py a a.readyNow r.operations ∧
  proposalsOf py a r.proposals r.proposedSteps = proposalsOf py a r.operations r.operations

end

section
variable {py : Python} {a : CycleArgs}

/-- **A context is that of the world of its first reading** exactly when the later ones showed
the same. -/
theorem contextOf_iff {r : Readings} {context : Context}
    (h : contextFrom py a r = .ok context) :
    contextOf py a r.operations = .ok context ↔ Steady py a r := by
  obtain ⟨operations, hoperations, h⟩ := bind_ok.mp h
  obtain ⟨alerts, halerts, h⟩ := bind_ok.mp h
  obtain ⟨ready, hready, h⟩ := bind_ok.mp h
  obtain ⟨proposals, hproposals, h⟩ := bind_ok.mp h
  cases h
  unfold Steady
  rw [halerts, hready, hproposals]
  constructor
  · intro hone
    obtain ⟨_, _, hone⟩ := bind_ok.mp hone
    obtain ⟨_, halerts', hone⟩ := bind_ok.mp hone
    obtain ⟨_, hready', hone⟩ := bind_ok.mp hone
    obtain ⟨_, hproposals', hone⟩ := bind_ok.mp hone
    cases hone
    exact ⟨halerts'.symm, hready'.symm, hproposals'.symm⟩
  · rintro ⟨halerts', hready', hproposals'⟩
    unfold contextOf contextFrom
    dsimp only
    rw [hoperations, ← halerts', ← hready', ← hproposals']
    rfl

end

/-! ## The store of cycles -/

structure CycleRow where
  cycleId : String
  tenantId : String
  worldId : String
  worldVersion : Int
  worldStateSha256 : String
  contextSha256 : String
  proposalJson : Json
  proposalSha256 : String
  requestSha256 : String
  createdAt : String

/-- A row of `shadow_cycles`, and what it was made from. -/
structure Cycle where
  row : CycleRow
  args : CycleArgs
  readings : Readings
  context : Context
  proposal : Cerebrum.Proposal

def Cycle.key (c : Cycle) : String := c.row.cycleId

structure System where
  worlds : String × String → Option World
  cycles : Table Cycle.key

section
variable (py : Python) (provider : Json → Except PyError Json) (modelLineage : String)

/-- What is hashed, and what the provider is shown. -/
def Context.toJson (context : Context) : Json := .obj
  [("schema_version", .str "edon-shadow-supervisor-context.v1"),
   ("tenant_id", .str context.tenantId),
   ("world_id", .str context.worldId),
   ("world_version", .int context.worldVersion),
   ("world_state_sha256", .str context.worldStateSha256),
   ("operations", context.operations.toJson py),
   ("alerts", .arr (context.alerts.map (Alert.toJson py))),
   ("ready_steps", .arr (context.readySteps.map (ReadyStep.toJson py))),
   ("assignment_proposals",
     .arr (context.assignmentProposals.map AssignmentProposal.toJson)),
   ("mode", .str "SHADOW"),
   ("binding_authority", .bool false)]

def contextSha256 (context : Context) : String := sha256Json py.sha256 (context.toJson py)

def proposalFor (context : Context) : Except PyError Cerebrum.Proposal :=
  Cerebrum.propose py provider modelLineage (context.toJson py)

/-- The dictionary `run_cycle` gives to `record`. -/
def cycleRequest (a : CycleArgs) (context : Context) (proposal : Cerebrum.Proposal) : Json :=
  .obj [("cycle_id", .str a.cycleId),
    ("tenant_id", .str a.tenantId),
    ("world_id", .str a.worldId),
    ("world_version", .int context.worldVersion),
    ("world_state_sha256", .str context.worldStateSha256),
    ("context_sha256", .str (contextSha256 py context)),
    ("proposal", proposal.toJson py),
    ("executed", .bool false),
    ("binding_authority", .bool false)]

/-- The row of a cycle. -/
def cycleRow (a : CycleArgs) (context : Context) (proposal : Cerebrum.Proposal) : CycleRow where
  cycleId := strip a.cycleId
  tenantId := a.tenantId
  worldId := a.worldId
  worldVersion := context.worldVersion
  worldStateSha256 := context.worldStateSha256
  contextSha256 := contextSha256 py context
  proposalJson := (proposal.toJson py).canon
  proposalSha256 := proposal.sha256 py
  requestSha256 := sha256Json py.sha256 (cycleRequest py a context proposal)
  createdAt := orNow py a.timestamp a.recordNow

/-- The cycle is a function of one world: the one whose version and hash it records. -/
structure Cycle.Consistent (c : Cycle) (w : World) : Prop where
  version : c.row.worldVersion = w.version
  stateSha256 : c.row.worldStateSha256 = w.stateSha256
  context : contextOf py c.args w = .ok c.context
  contextSha256 : c.row.contextSha256 = contextSha256 py c.context
  proposal : proposalFor py provider modelLineage c.context = .ok c.proposal
  row : c.row = cycleRow py c.args c.context c.proposal

/-! ## Statements -/

inductive Statement where
  | getWorld (tenantId worldId : String)
  | write (tenantId worldId : String) (w : World)
  | cycle (cycleId : String)
  | insert (c : Cycle)

abbrev Answer : Statement → Type
  | .getWorld _ _ => Option World
  | .write _ _ _ => Unit
  | .cycle _ => Option Cycle
  | .insert _ => Except PyError Unit

def execute : (c : Statement) → System → Answer c × System
  | .getWorld tenantId worldId, s => (s.worlds (tenantId, worldId), s)
  | .write tenantId worldId w, s =>
    ((), { s with worlds := Function.update s.worlds (tenantId, worldId) (some w) })
  | .cycle cycleId, s => (s.cycles.get cycleId, s)
  | .insert c, s =>
    match s.cycles.insert c with
    | none => (.error ⟨.integrityError, "UNIQUE constraint failed: shadow_cycles.cycle_id"⟩, s)
    | some cycles => (.ok (), { s with cycles })

abbrev Program := Prog Statement Answer PyError

abbrev sql (c : Statement) : Program (Answer c) := Prog.statement c

/-- `get_world`, after its checks. -/
def getWorld (tenantId worldId : String) : Program World := do
  let tenantId ← World.worldIdentifier tenantId "tenant_id"
  let worldId ← World.worldIdentifier worldId "world_id"
  let row ← sql (.getWorld tenantId worldId)
  orRaise (World.worldError "world not found for tenant") row

def record (c : Cycle) : Program CycleRow := do
  require (c.row.cycleId ≠ "") (supervisorError "cycle_id is required")
  match ← sql (.cycle c.row.cycleId) with
  | some existing => do
    require (existing.row.requestSha256 = c.row.requestSha256)
      (supervisorError "cycle identity is already bound to different content")
    return existing.row
  | none => do
    let result ← sql (.insert c)
    result
    return c.row

/-- Each part is computed where it is read, so that a part that fails ends the cycle there; the
context puts them together. -/
def runCycle (a : CycleArgs) : Program CycleRow := do
  let operations ← getWorld a.tenantId a.worldId
  let _ ← snapshot operations.operations
  let alerts ← getWorld a.tenantId a.worldId
  let _ ← alertsOf py a alerts
  let readySteps ← getWorld a.tenantId a.worldId
  let _ ← readyStepsOf py a a.readyNow readySteps
  let proposals ← getWorld a.tenantId a.worldId
  let _ ← snapshot proposals.operations
  let proposedSteps ← getWorld a.tenantId a.worldId
  let readings : Readings := { operations, alerts, readySteps, proposals, proposedSteps }
  let context ← contextFrom py a readings
  let proposal ← proposalFor py provider modelLineage context
  record {
    row := cycleRow py a context proposal
    args := a
    readings, context, proposal }

inductive Call where
  | runCycle (a : CycleArgs)
  | write (tenantId worldId : String) (w : World)

def Call.program : Call → Program (Option CycleRow)
  | .runCycle a => some <$> Supervisor.runCycle py provider modelLineage a
  | .write tenantId worldId w => do
    sql (.write tenantId worldId w)
    return none

/-- Cycles and writers under way. -/
abbrev Calls := Pool System Statement Answer PyError (Option CycleRow)

abbrev advance : Calls → Move Call → Calls :=
  Pool.step execute (Call.program py provider modelLineage)

end

/-! ## What a cycle knows when it records -/

section
variable {py : Python} {provider : Json → Except PyError Json} {modelLineage : String}

/-- The cycle was made from its readings. -/
structure Cycle.Made (py : Python) (provider : Json → Except PyError Json)
    (modelLineage : String) (c : Cycle) : Prop where
  context : contextFrom py c.args c.readings = .ok c.context
  proposal : proposalFor py provider modelLineage c.context = .ok c.proposal
  row : c.row = cycleRow py c.args c.context c.proposal

theorem Cycle.Made.consistent_iff {c : Cycle} (h : c.Made py provider modelLineage) :
    c.Consistent py provider modelLineage c.readings.operations ↔
      Steady py c.args c.readings := by
  rw [← contextOf_iff h.context]
  constructor
  · intro hc
    exact hc.context
  · intro hcontext
    obtain ⟨operations, hoperations, hmade⟩ := bind_ok.mp h.context
    obtain ⟨_, _, hmade⟩ := bind_ok.mp hmade
    obtain ⟨_, _, hmade⟩ := bind_ok.mp hmade
    obtain ⟨_, _, hmade⟩ := bind_ok.mp hmade
    have hversion : c.context.worldVersion = c.readings.operations.version := by
      rw [← Except.ok.inj hmade]
    have hsha : c.context.worldStateSha256 = c.readings.operations.stateSha256 := by
      rw [← Except.ok.inj hmade]
    exact {
      version := by rw [h.row]; exact hversion
      stateSha256 := by rw [h.row]; exact hsha
      context := hcontext
      contextSha256 := by rw [h.row]; rfl
      proposal := h.proposal
      row := h.row }

def Statement.Known (py : Python) (provider : Json → Except PyError Json)
    (modelLineage : String) : Statement → Prop
  | .insert c => c.Made py provider modelLineage
  | _ => True

/-- The obligations of a program: what it inserts was made from its readings. -/
abbrev Obliged (py : Python) (provider : Json → Except PyError Json)
    (modelLineage : String) {α : Type} (p : Program α)
    (s : System) : Prop :=
  p.Meets execute (fun _ _ => True)
    (fun _ c => c.Known py provider modelLineage) (fun _ _ => True) (fun _ => True) s

theorem obliged_getWorld {α : Type} {tenantId worldId : String} {f : World → Program α}
    {s : System} (h : ∀ w t, Obliged py provider modelLineage (f w) t) :
    Obliged py provider modelLineage (getWorld tenantId worldId >>= f) s := by
  unfold getWorld
  simp only [bind_assoc]
  apply Prog.Meets.lift trivial
  intro tenantId _
  apply Prog.Meets.lift trivial
  intro worldId _
  apply Prog.Meets.ask
  intro t _
  refine ⟨trivial, ?_⟩
  apply Prog.Meets.lift trivial
  intro w _
  exact h w _

theorem obliged_record {c : Cycle} (h : c.Made py provider modelLineage)
    (s : System) : Obliged py provider modelLineage (record c) s := by
  apply Prog.Meets.lift trivial
  intro _ _
  apply Prog.Meets.ask
  intro t _
  refine ⟨trivial, ?_⟩
  split
  · apply Prog.Meets.lift trivial
    intro _ _
    exact Prog.meets_pure.mpr trivial
  · apply Prog.Meets.ask
    intro u _
    refine ⟨h, ?_⟩
    apply Prog.Meets.lift trivial
    intro _ _
    exact Prog.meets_pure.mpr trivial

theorem obliged_runCycle (a : CycleArgs) (s : System) :
    Obliged py provider modelLineage
      (runCycle py provider modelLineage a) s := by
  apply obliged_getWorld
  intro operations _
  apply Prog.Meets.lift trivial
  intro _ _
  apply obliged_getWorld
  intro alerts _
  apply Prog.Meets.lift trivial
  intro _ _
  apply obliged_getWorld
  intro readySteps _
  apply Prog.Meets.lift trivial
  intro _ _
  apply obliged_getWorld
  intro proposals _
  apply Prog.Meets.lift trivial
  intro _ _
  apply obliged_getWorld
  intro proposedSteps _
  apply Prog.Meets.lift trivial
  intro context hcontext
  apply Prog.Meets.lift trivial
  intro proposal hproposal
  exact obliged_record ⟨hcontext, hproposal, rfl⟩ _

theorem obliged_program (c : Call) (s : System) :
    Obliged py provider modelLineage
      (c.program py provider modelLineage) s := by
  cases c with
  | runCycle a =>
    dsimp only [Call.program]
    rw [map_eq_pure_bind]
    apply Prog.meets_bind.mpr
    exact (obliged_runCycle a s).mono (fun _ _ _ => Prog.meets_pure.mpr trivial)
  | write tenantId worldId w =>
    apply Prog.Meets.ask
    intro t _
    exact ⟨trivial, Prog.meets_pure.mpr trivial⟩

/-! ## Interleavings -/

/-- Every recorded cycle is a function of the world of its first reading. -/
def System.Consistent (py : Python) (provider : Json → Except PyError Json)
    (modelLineage : String) (s : System) : Prop :=
  ∀ c ∈ s.cycles.rows,
    c.Consistent py provider modelLineage c.readings.operations

/-- What the later readings of a cycle that is recorded showed is what its first one would have
shown. -/
def Statement.Steady (py : Python) (s : System) : Statement → Prop
  | .insert c => s.cycles.get c.key = none → Supervisor.Steady py c.args c.readings
  | _ => True

theorem execute_consistent_iff {c : Statement} {s : System}
    (hknown : c.Known py provider modelLineage) :
    (execute c s).2.Consistent py provider modelLineage ↔
      s.Consistent py provider modelLineage ∧ c.Steady py s := by
  cases c with
  | getWorld tenantId worldId => exact (and_iff_left trivial).symm
  | write tenantId worldId w => exact (and_iff_left trivial).symm
  | cycle cycleId => exact (and_iff_left trivial).symm
  | insert c =>
    have hmade : c.Made py provider modelLineage := hknown
    unfold Statement.Steady
    dsimp only [execute]
    cases hinsert : s.cycles.insert c with
    | none =>
      -- the id is taken: nothing is recorded
      refine (and_iff_left ?_).symm
      intro hfree
      obtain ⟨cycles, hcycles⟩ := Table.insert_of_get hfree
      rw [hinsert] at hcycles
      cases hcycles
    | some cycles =>
      obtain ⟨hrows, hfree⟩ := Table.rows_insert hinsert
      rw [forall_prop_of_true hfree, ← hmade.consistent_iff]
      unfold System.Consistent
      simp only [hrows, List.forall_mem_append, List.forall_mem_singleton]

variable (py provider modelLineage) in
def SteadyMove (p : Calls) (m : Move Call) (_ : Calls) : Prop :=
  ∀ c ∈ p.pending m, c.Steady py p.state

variable (py provider modelLineage) in
/-- Every program under way meets its obligations. -/
abbrev Informed (p : Calls) : Prop :=
  p.Sound execute (fun _ _ => True) (fun _ c => c.Known py provider modelLineage)

theorem informed_advance {p : Calls} (h : Informed py provider modelLineage p)
    (m : Move Call) :
    Informed py provider modelLineage
      (advance py provider modelLineage p m) :=
  h.step (fun _ => trivial) (fun _ _ _ _ _ => trivial) (fun _ _ => trivial) obliged_program m

theorem consistent_advance_iff {p : Calls}
    (h : Informed py provider modelLineage p) (m : Move Call) :
    (advance py provider modelLineage p m).state.Consistent py provider
        modelLineage ↔
      p.state.Consistent py provider modelLineage ∧
        SteadyMove py p m (advance py provider modelLineage p m) := by
  unfold SteadyMove
  rw [Pool.step_state]
  cases hpending : p.pending m with
  | none =>
    have hnone : ∀ c ∈ (none : Option Statement), c.Steady py p.state := fun c hc => nomatch hc
    exact (and_iff_left hnone).symm
  | some c =>
    have hknown := h.pre (fun _ => trivial) hpending
    simp only [Option.mem_some_iff, forall_eq']
    exact execute_consistent_iff hknown

end

/-! ## A goal between two readings -/

/-- A world as it is after these operations. -/
def worldOf (l : Ledger) : World :=
  ⟨l.version, "sha256:" ++ toString l.version, l.state⟩

/-- The world in which a goal that is due at once was created. -/
def goalCreated : Ledger :=
  next samplePython sampleLedger (.createGoal "goal-1" "Restore the service" 50
    (some "2026-01-01T00:00:00+00:00") [] none none [] true, sampleKeywords "event-1" 0)

def lateCycle : CycleArgs where
  tenantId := "tenant"
  worldId := "world"
  cycleId := "cycle-1"
  timestamp := none
  alertsNow := 1767225600000001
  readyNow := 1767225600000001
  proposalsNow := 1767225600000001
  recordNow := 1767225600000001

/-- The goal is created after the cycle has read the operations, before it reads the alerts. -/
def tornSchedule : List (Move Call) :=
  [.call (.runCycle lateCycle), .resume 0,
   .call (.write "tenant" "world" (worldOf goalCreated)), .resume 1,
   .resume 0, .resume 0, .resume 0, .resume 0, .resume 0, .resume 0]

/-- A provider that finds nothing to propose. -/
def abstaining : Json → Except PyError Json := fun _ => .ok (.obj [
  ("proposal_type", .str "ABSTAIN"),
  ("payload", .obj []),
  ("rationale", .str "No currently ready and feasible operational assignment was identified."),
  ("confidence", .float 1),
  ("binding_authority", .bool false)])

def sampleWorlds : String × String → Option World :=
  Function.update (fun _ => none) ("tenant", "world") (some (worldOf sampleLedger))

/-- How many alerts a cycle recorded, and how many its first reading has. -/
def Cycle.alertCounts (py : Python) (c : Cycle) : Nat × Option Nat :=
  (c.context.alerts.length,
    (contextOf py c.args c.readings.operations).toOption.map (fun one => one.alerts.length))

theorem torn_alerts :
    (exec (advance samplePython abstaining "lineage") ⟨⟨sampleWorlds, ∅⟩, []⟩
      tornSchedule).state.cycles.rows.map (Cycle.alertCounts samplePython) = [(1, some 0)] := by
  decide +kernel

end Edon.Supervisor
