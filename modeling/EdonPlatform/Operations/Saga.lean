import EdonPlatform.Operations.Resources
import EdonPlatform.Memory.Recording

/- The world store and the episodic memory together. Two operations of the control plane
   write to both: `ingest_observation` records the episode and then appends the event,
   `record_step_outcome` appends the event and then records the episode. The two stores
   are two databases, each with its own transactions and its own checks, so that a call
   can be interrupted between its writes.

   What is proved: `world_memory_saga`. A call that raises has written at most its own
   record of the store it writes first, and nothing to the other; a call that returns
   leaves both records, of one world, and the record written second names the first. That
   the first write can stand alone is `observation_stands_alone`.

   Correspondence (Python ↔ Lean):
     `self.worlds`, `self.memory`                 ↔ `Stores`
     `get_world`, `append_event`                  ↔ `Stores.getWorld`, `Stores.appendEvent`
     `ingest_observation`, `record_step_outcome`  ↔ `Stores.ingestObservation`,
                                                    `Stores.recordStepOutcome`

   `state_sha256` of a snapshot is a function of the world and its version: the ledger is
   the view the operations have of a state of which this is the hash. -/
namespace Edon.Operations
open Json World Transition
open Memory (MemoryDb EpisodeRow recordEpisode recordEpisode_ok recordEpisode_error)

/-- The worlds by tenant and id, and the memory. -/
structure Stores where
  worlds : String → String → Option Ledger
  memory : MemoryDb

def Stores.setWorld (s : Stores) (tenantId worldId : String) (l : Ledger) : Stores :=
  { s with
    worlds := fun t w => if t = tenantId ∧ w = worldId then some l else s.worlds t w }

def Stores.getWorld (s : Stores) (tenantId worldId : String) : Except PyError Ledger := do
  let tenantId ← worldIdentifier tenantId "tenant_id"
  let worldId ← worldIdentifier worldId "world_id"
  orRaise (worldError "world not found for tenant") (s.worlds tenantId worldId)

/-- The version of the snapshot, and the stores the transaction commits. -/
def Stores.appendEvent (s : Stores) (tenantId worldId : String) (d : Draft) (k : Keywords) :
    Except PyError (Int × Stores) := do
  let tenantId ← worldIdentifier tenantId "tenant_id"
  let worldId ← worldIdentifier worldId "world_id"
  let request ← d.request k
  let l ← orRaise (worldError "world not found for tenant") (s.worlds tenantId worldId)
  let (version, l) ← l.appendTx request
  return (version, s.setWorld tenantId worldId l)

section
variable (py : Python)

/-! ## Observations -/

/-- The arguments of `ingest_observation` beside the tenant, the world and the keywords. -/
structure ObservationArgs where
  observationId : String
  modality : String
  sourceId : String
  summary : String
  payload : Json
  observedAt : String
  confidence : Json
  sensitivity : String
  provenance : Json
  retentionUntil : Option String

/-- What the operation has before it writes. -/
structure Observed where
  reference : Observation
  stamp : Instant
  payload : Fields
  provenance : Fields

def ObservationArgs.observed (a : ObservationArgs) (k : Keywords) : Except PyError Observed := do
  let observationId ← opIdentifier a.observationId "observation_id"
  let sourceId ← opIdentifier a.sourceId "source_id"
  let modality ← orRaise
    (operationsError ("unsupported observation modality: " ++ upper a.modality))
    (named Modality.name modalities (upper a.modality))
  let confidence ← opNumber a.confidence "confidence" 0 "0.0"
  require (confidence ≤ 1) (operationsError "confidence cannot exceed 1")
  let observedAt ← opTimestamp py a.observedAt "observed_at"
  let stamp ← k.stamp py
  let payload ← opObject a.payload "payload"
  let provenance ← opObject (if truthy a.provenance then a.provenance else .obj []) "provenance"
  return {
    reference :=
      { observationId, modality, sourceId, observedAt, confidence
        contentSha256 := sha256Json py.sha256 a.payload }
    stamp
    payload
    provenance := Assoc.put (Assoc.put (Assoc.put provenance
      "modality" (.str modality.name)) "source_id" (.str sourceId))
      "confidence" (.float confidence) }

/-- What the operation returns; `world` is the version of its snapshot. -/
structure Ingested where
  observation : Observation
  memory : EpisodeRow
  world : Int

/-- The episode first. What recording it raised, the draft of the event raises. -/
def Stores.ingestObservation (s : Stores) (tenantId worldId : String) (a : ObservationArgs)
    (k : Keywords) : Except PyError Ingested × Stores :=
  match a.observed py k with
  | .error e => (.error e, s)
  | .ok o =>
    let (memory, db) := recordEpisode py k.now tenantId o.reference.observationId worldId
      "OBSERVATION" a.summary (.obj o.payload) (py.isoformat o.reference.observedAt) a.sensitivity
      k.actorId k.authorizationRef [] (.obj o.provenance) a.retentionUntil
      (some (py.isoformat o.stamp)) s.memory
    let s := { s with memory := db }
    match (do
      let memory ← memory
      let d ← Operations.ingestObservation py a.observationId a.modality a.sourceId a.payload
        a.observedAt a.confidence (.ok (memory.contentSha256 py)) k
      let (world, s) ← s.appendEvent tenantId worldId d k
      return ({ observation := o.reference, memory, world }, s) :
        Except PyError (Ingested × Stores)) with
    | .error e => (.error e, s)
    | .ok (result, s) => (.ok result, s)

/-! ## Outcomes -/

/-- The arguments of `record_step_outcome` beside the tenant, the world and the keywords. -/
structure OutcomeArgs where
  planId : String
  stepId : String
  success : Bool
  summary : String
  payload : Json
  outcomeId : String
  actualOutcomes : List String
  sensitivity : String

def Outcome.toJson (o : Outcome) : Json :=
  .obj [("outcome_id", .str o.outcomeId),
    ("plan_id", .str o.planId),
    ("step_id", .str o.stepId),
    ("agent_id", .str o.agentId),
    ("success", .bool o.success),
    ("reported_success", .bool o.reportedSuccess),
    ("summary", .str o.summary),
    ("payload", .obj o.payload),
    ("actual_outcomes", .arr (o.actualOutcomes.map .str)),
    ("missing_expected_outcomes", .arr (o.missingExpectedOutcomes.map .str)),
    ("unexpected_outcomes", .arr (o.unexpectedOutcomes.map .str)),
    ("recorded_at", .str (py.isoformat o.recordedAt))]

/-- The outcome among the changes of an event. -/
def Draft.outcome (d : Draft) : Option Outcome :=
  d.changes.findSome? (fun c =>
    match c with
    | .outcome _ o => some o
    | _ => none)

/-- What the operation returns, beside the changes of its event. -/
structure OutcomeRecorded where
  outcome : Outcome
  memory : EpisodeRow
  world : Int

/-- The event first; `stateSha256` is that of the snapshot it leaves. -/
def Stores.recordStepOutcome (stateSha256 : String → String → Int → String) (s : Stores)
    (tenantId worldId : String) (a : OutcomeArgs) (k : Keywords) :
    Except PyError OutcomeRecorded × Stores :=
  match (do
    let l ← s.getWorld tenantId worldId
    let state ← snapshot l.state
    let d ← Operations.recordStepOutcome py state a.planId a.stepId a.success a.summary a.payload
      a.outcomeId a.actualOutcomes k
    let outcome ← orRaise (keyError "outcome") d.outcome
    let (world, s) ← s.appendEvent tenantId worldId d k
    return (outcome, world, s) : Except PyError (Outcome × Int × Stores)) with
  | .error e => (.error e, s)
  | .ok (outcome, world, s) =>
    let (memory, db) := recordEpisode py k.now tenantId outcome.outcomeId worldId
      "STEP_OUTCOME" outcome.summary (outcome.toJson py) (py.isoformat outcome.recordedAt)
      a.sensitivity k.actorId k.authorizationRef [k.eventId]
      (.obj [("world_version", .int world),
        ("world_state_sha256", .str (stateSha256 (strip tenantId) (strip worldId) world)),
        ("plan_id", .str outcome.planId),
        ("step_id", .str outcome.stepId)])
      none (some (py.isoformat outcome.recordedAt)) s.memory
    (memory.map (fun memory => { outcome, memory, world }), { s with memory := db })

end

/-! ## One store at a time -/

section
variable {py : Python} {s s' : Stores} {tenantId worldId : String} {d : Draft} {k : Keywords}

/-- The worlds got this one event, and nothing else. -/
structure Stores.Commits (s : Stores) (tenantId worldId : String) (d : Draft) (k : Keywords)
    (s' : Stores) : Prop where
  memory : s'.memory = s.memory
  world : ∃ l l', s.worlds tenantId worldId = some l ∧ l.Committed d k l' ∧
    s' = s.setWorld tenantId worldId l'

/-- The world has an event of this draft. -/
def Stores.HasEvent (s : Stores) (tenantId worldId : String) (d : Draft) (k : Keywords) : Prop :=
  ∃ l, s.worlds tenantId worldId = some l ∧ ∃ e ∈ l.entries,
    e.request.eventId = strip k.eventId ∧ e.request.changes = d.changes ∧
    lineages d.sourceLineage = .ok e.request.sourceLineage

theorem setWorld_self {l : Ledger} (h : s.worlds tenantId worldId = some l) :
    s.setWorld tenantId worldId l = s := by
  unfold Stores.setWorld
  congr 1
  funext t w
  split
  · next hsame => rw [hsame.1, hsame.2, h]
  · rfl

theorem memory_setWorld (s : Stores) (tenantId worldId : String) (l : Ledger) :
    (s.setWorld tenantId worldId l).memory = s.memory := rfl

theorem worlds_setWorld (s : Stores) (tenantId worldId : String) (l : Ledger) :
    (s.setWorld tenantId worldId l).worlds tenantId worldId = some l :=
  if_pos ⟨rfl, rfl⟩

theorem Draft.request_lineage {request : Request} (h : d.request k = .ok request) :
    lineages d.sourceLineage = .ok request.sourceLineage := by
  obtain ⟨_, _, h⟩ := bind_ok.mp h
  obtain ⟨_, _, h⟩ := bind_ok.mp h
  obtain ⟨_, _, h⟩ := bind_ok.mp h
  obtain ⟨_, _, h⟩ := bind_ok.mp h
  obtain ⟨_, _, h⟩ := bind_ok.mp h
  obtain ⟨_, hlineage, h⟩ := bind_ok.mp h
  cases h
  exact hlineage

/-- The request is in the world a transaction leaves, new or from before. -/
theorem Ledger.appendTx_entry {l l' : Ledger} {request : Request} {v : Int}
    (h : l.appendTx request = .ok (v, l')) : ∃ e ∈ l'.entries, e.request = request := by
  unfold Ledger.appendTx at h
  split at h
  · next duplicate hfind =>
    split at h
    · cases h
    · next hsame =>
      cases h
      exact ⟨duplicate, List.mem_of_find?_eq_some hfind, not_not.mp hsame⟩
  · split at h
    · cases h
    · obtain ⟨state, _, h⟩ := bind_ok.mp h
      cases h
      exact ⟨⟨request, l.version + 1⟩, by simp, rfl⟩

/-- An append that returned: the event is there, and at most it was written. -/
theorem Stores.appendEvent_ok {v : Int} (h : s.appendEvent tenantId worldId d k = .ok (v, s')) :
    s'.HasEvent (strip tenantId) (strip worldId) d k ∧
      (s' = s ∨ s.Commits (strip tenantId) (strip worldId) d k s') := by
  obtain ⟨tenant, htenant, h⟩ := bind_ok.mp h
  obtain ⟨world, hworld, h⟩ := bind_ok.mp h
  obtain ⟨request, hrequest, h⟩ := bind_ok.mp h
  obtain ⟨l, hl, h⟩ := bind_ok.mp h
  obtain ⟨⟨version, l'⟩, htx, h⟩ := bind_ok.mp h
  cases h
  obtain rfl := identifier_ok htenant
  obtain rfl := identifier_ok hworld
  have hl := orRaise_ok.mp hl
  have happend : l.append d k = (.ok v, l') := by
    unfold Ledger.append
    rw [hrequest]
    dsimp only
    rw [htx]
  refine ⟨⟨l', worlds_setWorld _ _ _ _, ?_⟩, ?_⟩
  · obtain ⟨e, he, hsame⟩ := Ledger.appendTx_entry htx
    obtain ⟨hid, -, hchanges, -⟩ := Draft.request_ok hrequest
    refine ⟨e, he, ?_, ?_, ?_⟩
    · rw [hsame, hid]
    · rw [hsame, hchanges]
    · rw [hsame]
      exact Draft.request_lineage hrequest
  · have hcases := append_cases l d k
    rw [happend] at hcases
    rcases hcases with hsame | hcommitted
    · left
      rw [show l' = l from hsame]
      exact setWorld_self hl
    · right
      exact ⟨memory_setWorld _ _ _ _, l, l', hl, hcommitted, rfl⟩

/-! ## Both -/

/-- The draft of an observation names its episode. -/
theorem ingestObservation_lineage {observationId modality sourceId : String} {payload : Json}
    {observedAt : String} {confidence : Json} {contentSha256 : String}
    (h : ingestObservation py observationId modality sourceId payload observedAt confidence
      (.ok contentSha256) k = .ok d) :
    d.sourceLineage = ["memory:" ++ strip observationId ++ ":" ++ contentSha256] := by
  obtain ⟨id, hid, h⟩ := bind_ok.mp h
  obtain ⟨_, _, h⟩ := bind_ok.mp h
  obtain ⟨_, _, h⟩ := bind_ok.mp h
  obtain ⟨_, _, h⟩ := bind_ok.mp h
  obtain ⟨_, _, h⟩ := bind_ok.mp h
  obtain ⟨_, _, h⟩ := bind_ok.mp h
  obtain ⟨_, _, h⟩ := bind_ok.mp h
  cases h
  rw [identifier_ok hid]

theorem observed_id {a : ObservationArgs} {o : Observed} (h : a.observed py k = .ok o) :
    strip o.reference.observationId = strip a.observationId := by
  obtain ⟨id, hid, h⟩ := bind_ok.mp h
  obtain ⟨_, _, h⟩ := bind_ok.mp h
  obtain ⟨_, _, h⟩ := bind_ok.mp h
  obtain ⟨_, _, h⟩ := bind_ok.mp h
  obtain ⟨_, _, h⟩ := bind_ok.mp h
  obtain ⟨_, _, h⟩ := bind_ok.mp h
  obtain ⟨_, _, h⟩ := bind_ok.mp h
  obtain ⟨_, _, h⟩ := bind_ok.mp h
  obtain ⟨_, _, h⟩ := bind_ok.mp h
  cases h
  rw [identifier_ok hid]
  exact strip_strip _

theorem lineages_singleton {x : String} {ys : List String} (h : lineages [x] = .ok ys) :
    ys = [strip x] := by
  obtain ⟨items, hitems, h⟩ := bind_ok.mp h
  obtain ⟨y, hy, hitems⟩ := bind_ok.mp hitems
  cases hitems
  cases h
  rw [identifier_ok hy]
  rfl

/-- A draft of an outcome registers one, under its own id. -/
theorem recordStepOutcome_outcome {state : OperationalState} {planId stepId : String}
    {success : Bool} {summary : String} {payload : Json} {outcomeId : String}
    {actualOutcomes : List String}
    (h : recordStepOutcome py state planId stepId success summary payload outcomeId actualOutcomes
      k = .ok d) :
    ∃ o, d.outcome = some o ∧ o.outcomeId = strip outcomeId ∧
      .outcome (strip outcomeId) o ∈ d.changes := by
  obtain ⟨_, _, h⟩ := bind_ok.mp h
  obtain ⟨_, _, h⟩ := bind_ok.mp h
  obtain ⟨id, hid, h⟩ := bind_ok.mp h
  obtain ⟨_, _, h⟩ := bind_ok.mp h
  obtain ⟨_, _, h⟩ := bind_ok.mp h
  obtain ⟨_, _, h⟩ := bind_ok.mp h
  obtain ⟨_, _, h⟩ := bind_ok.mp h
  obtain ⟨_, _, h⟩ := bind_ok.mp h
  obtain ⟨_, _, h⟩ := bind_ok.mp h
  obtain ⟨_, _, h⟩ := bind_ok.mp h
  obtain ⟨pools, hpools, h⟩ := bind_ok.mp h
  obtain ⟨_, _, h⟩ := bind_ok.mp h
  obtain ⟨_, _, h⟩ := bind_ok.mp h
  obtain ⟨_, _, h⟩ := bind_ok.mp h
  cases h
  obtain rfl := identifier_ok hid
  -- the changes before the registration are of pools, the plan, its goal and the agent
  have hnone : pools.findSome? (fun c => match c with | .outcome _ o => some o | _ => none) =
      none := by
    rw [List.findSome?_eq_none_iff]
    intro c hc
    obtain ⟨amount, _, hamount⟩ := mem_of_mapM hpools c hc
    obtain ⟨pool, _, hamount⟩ := bind_ok.mp hamount
    cases hamount
    rfl
  unfold Draft.outcome
  dsimp only
  rw [List.append_assoc, List.append_assoc, List.findSome?_append, hnone]
  exact ⟨_, rfl, rfl, by simp⟩

/-- The event and the episode of an observation are there, in one world, and the event names
the episode by its identity and its content. -/
def Stores.ObservationPaired (py : Python) (s : Stores) (tenantId worldId : String)
    (a : ObservationArgs) (k : Keywords) : Prop :=
  ∃ row l, s.memory.entries.get (strip tenantId, strip a.observationId) = some row ∧
    row.worldId = strip worldId ∧
    s.worlds (strip tenantId) (strip worldId) = some l ∧
    ∃ e ∈ l.entries, e.request.eventId = strip k.eventId ∧
      e.request.sourceLineage =
        [strip ("memory:" ++ strip a.observationId ++ ":" ++ row.contentSha256 py)]

/-- The event and the episode of an outcome are there, in one world; the event registers the
outcome whose id is the identity of the episode, and the episode has the event for a source. -/
def Stores.OutcomePaired (s : Stores) (tenantId worldId : String) (a : OutcomeArgs)
    (k : Keywords) : Prop :=
  ∃ row l, s.memory.entries.get (strip tenantId, strip a.outcomeId) = some row ∧
    row.worldId = strip worldId ∧ strip k.eventId ∈ row.sourceEventIds ∧
    s.worlds (strip tenantId) (strip worldId) = some l ∧
    ∃ e ∈ l.entries, e.request.eventId = strip k.eventId ∧
      ∃ o, .outcome (strip a.outcomeId) o ∈ e.request.changes

/-- What an interrupted ingestion leaves: the world is as it was, and the memory has at most
the episode. -/
theorem ingestObservation_error (hsha : Function.Injective py.sha256) {a : ObservationArgs}
    {e : PyError} (h : s.ingestObservation py tenantId worldId a k = (.error e, s')) :
    s'.worlds = s.worlds ∧ (s'.memory = s.memory ∨
      s.memory.Remembers (strip tenantId, strip a.observationId) s'.memory) := by
  unfold Stores.ingestObservation at h
  split at h
  · cases h
    exact ⟨rfl, .inl rfl⟩
  · next o ho =>
    dsimp only at h
    split at h
    · cases h
      refine ⟨rfl, ?_⟩
      rw [← observed_id ho]
      dsimp only
      cases hmemory : recordEpisode _ _ _ _ _ _ _ _ _ _ _ _ _ _ _ _ _ with
      | mk result db =>
        cases result with
        | error err => exact .inl (recordEpisode_error hmemory)
        | ok row =>
          obtain ⟨-, -, -, hwrote⟩ := recordEpisode_ok hsha hmemory
          exact hwrote
    · cases h

theorem ingestObservation_ok (hsha : Function.Injective py.sha256) {a : ObservationArgs}
    {r : Ingested} (h : s.ingestObservation py tenantId worldId a k = (.ok r, s')) :
    s'.ObservationPaired py tenantId worldId a k := by
  unfold Stores.ingestObservation at h
  split at h
  · cases h
  · next o ho =>
    dsimp only at h
    generalize hmemory : recordEpisode _ _ _ _ _ _ _ _ _ _ _ _ _ _ _ _ _ = written at h
    obtain ⟨memory, db⟩ := written
    split at h
    · cases h
    · next result s'' hboth =>
      cases h
      obtain ⟨row, hrow, hboth⟩ := bind_ok.mp hboth
      obtain ⟨d, hd, hboth⟩ := bind_ok.mp hboth
      obtain ⟨⟨world, _⟩, hevent, hboth⟩ := bind_ok.mp hboth
      cases hboth
      cases hrow
      obtain ⟨hget, hworld, -, -⟩ := recordEpisode_ok hsha hmemory
      rw [observed_id ho] at hget
      obtain ⟨⟨l, hl, e, he, hid, -, hlineage⟩, hwrote⟩ := Stores.appendEvent_ok hevent
      rw [ingestObservation_lineage hd] at hlineage
      refine ⟨row, l, ?_, hworld, hl, e, he, hid, lineages_singleton hlineage⟩
      rcases hwrote with rfl | hcommits
      · exact hget
      · rw [hcommits.memory]
        exact hget

/-- What an interrupted outcome leaves: the memory is as it was, and the world has at most the
event. -/
theorem recordStepOutcome_error
    {stateSha256 : String → String → Int → String} {a : OutcomeArgs} {e : PyError}
    (h : s.recordStepOutcome py stateSha256 tenantId worldId a k = (.error e, s')) :
    s' = s ∨ ∃ d o, .outcome (strip a.outcomeId) o ∈ d.changes ∧
      s.Commits (strip tenantId) (strip worldId) d k s' := by
  unfold Stores.recordStepOutcome at h
  split at h
  · cases h
    exact .inl rfl
  · next outcome world s'' hworld =>
    dsimp only at h
    obtain ⟨l, hl, hworld⟩ := bind_ok.mp hworld
    obtain ⟨state, hstate, hworld⟩ := bind_ok.mp hworld
    obtain ⟨d, hd, hworld⟩ := bind_ok.mp hworld
    obtain ⟨o, ho, hworld⟩ := bind_ok.mp hworld
    obtain ⟨⟨v, _⟩, hevent, hworld⟩ := bind_ok.mp hworld
    cases hworld
    obtain ⟨_, hsome, -, hoc⟩ := recordStepOutcome_outcome hd
    cases hsome.symm.trans (orRaise_ok.mp ho)
    cases hmemory : recordEpisode _ _ _ _ _ _ _ _ _ _ _ _ _ _ _ _ _ with
    | mk result db =>
      rw [hmemory] at h
      cases result with
      | ok row => cases h
      | error err =>
        -- the memory refused and is as it was
        cases h
        rw [recordEpisode_error hmemory]
        obtain ⟨-, hwrote⟩ := Stores.appendEvent_ok hevent
        rcases hwrote with hsame | hcommits
        · exact .inl hsame
        · exact .inr ⟨d, _, hoc, hcommits⟩

theorem recordStepOutcome_ok (hsha : Function.Injective py.sha256)
    {stateSha256 : String → String → Int → String} {a : OutcomeArgs} {r : OutcomeRecorded}
    (h : s.recordStepOutcome py stateSha256 tenantId worldId a k = (.ok r, s')) :
    s'.OutcomePaired tenantId worldId a k := by
  unfold Stores.recordStepOutcome at h
  split at h
  · cases h
  · next outcome world s'' hworld =>
    dsimp only at h
    obtain ⟨l, hl, hworld⟩ := bind_ok.mp hworld
    obtain ⟨state, hstate, hworld⟩ := bind_ok.mp hworld
    obtain ⟨d, hd, hworld⟩ := bind_ok.mp hworld
    obtain ⟨o, ho, hworld⟩ := bind_ok.mp hworld
    obtain ⟨⟨v, _⟩, hevent, hworld⟩ := bind_ok.mp hworld
    cases hworld
    obtain ⟨_, hsome, hoid, hoc⟩ := recordStepOutcome_outcome hd
    cases hsome.symm.trans (orRaise_ok.mp ho)
    cases hmemory : recordEpisode _ _ _ _ _ _ _ _ _ _ _ _ _ _ _ _ _ with
    | mk result db =>
      rw [hmemory] at h
      cases result with
      | error err => cases h
      | ok row =>
        cases h
        obtain ⟨hget, hrow, hsources, -⟩ := recordEpisode_ok hsha hmemory
        rw [hoid, strip_strip] at hget
        obtain ⟨⟨l', hl', e, he, hid, hchanges, -⟩, -⟩ := Stores.appendEvent_ok hevent
        refine ⟨row, l', hget, hrow, hsources _ (by simp), hl', e, he, hid, outcome, ?_⟩
        rw [hchanges]
        exact hoc

end

/-- A running pump, whose outcome is to be recorded, and no memory yet. -/
def runningPump : Stores where
  worlds := fun _ _ => some (exec (next samplePython) sampleLedger (spentFuel.take 5))
  memory := ∅

def pumpOutcome : OutcomeArgs where
  planId := "plan-1"
  stepId := "step-1"
  success := true
  summary := "the pump runs again"
  payload := .obj []
  outcomeId := "outcome-1"
  actualOutcomes := []
  sensitivity := "INTERNAL"

/-- A world at its first version, and no memory yet. -/
def newWorld : Stores where
  worlds := fun _ _ => some sampleLedger
  memory := ∅

def pumpTelemetry : ObservationArgs where
  observationId := "observation-1"
  modality := "telemetry"
  sourceId := "pump-1"
  summary := "the pump stopped by itself"
  payload := .obj []
  observedAt := "2026-01-01T00:00:00+00:00"
  confidence := .int 1
  sensitivity := "internal"
  provenance := .null
  retentionUntil := none

end Edon.Operations
