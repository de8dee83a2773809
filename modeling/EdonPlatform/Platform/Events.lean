import EdonPlatform.Common.JsValue
import EdonPlatform.Lib.Sorting

/- The events of the journal, the state they project to and the admission of evidence
   (packages/contracts/src/index.ts; packages/platform-core/src/state-projector.ts and
   evidence-admission.ts).

   Correspondence (TypeScript ↔ Lean):
     `EventEnvelope`                       ↔ `EventEnvelope` (`toJson` is its JSON)
     `ReplayableStateProjector.project`    ↔ `project` (`accepted` and `sortsBefore` are its
                                             filter and its comparison)
     `EvidenceRecord`                      ↔ `EvidenceRecord`
     `DeterministicEvidenceAdmission.admit` ↔ `admitEvidence`

   What is proved: the projection is a greatest accepted event (`project_version_le`),
   and it depends on the accepted events alone where no two have the same version
   (`project_congr`). -/
namespace Edon.Platform
open Js

inductive LifecycleEvent where
  | observationReceived | evidenceAdmitted | stateProjected | modelInvoked | proposalCreated
  | kernelDecided | humanReviewed | shadowRecommendationRecorded | outcomeObserved
  | outcomeVerified | receiptIssued | correctionRecorded | breakGlassRequested
  | breakGlassApproved | breakGlassActivated | breakGlassUsed | breakGlassExpired
  | breakGlassRevoked | dispatchRequested | dispatched | dispatchRejected | dispatchFailed
  | acknowledged | outcomeReported | reconciliationRequired | compensationStarted
  | humanTakeover | kmsKeyRotated | institutionCandidateCompiled | institutionReleaseTransitioned
  deriving DecidableEq, Repr

def LifecycleEvent.name : LifecycleEvent → String
  | .observationReceived => "OBSERVATION_RECEIVED"
  | .evidenceAdmitted => "EVIDENCE_ADMITTED"
  | .stateProjected => "STATE_PROJECTED"
  | .modelInvoked => "MODEL_INVOKED"
  | .proposalCreated => "PROPOSAL_CREATED"
  | .kernelDecided => "KERNEL_DECIDED"
  | .humanReviewed => "HUMAN_REVIEWED"
  | .shadowRecommendationRecorded => "SHADOW_RECOMMENDATION_RECORDED"
  | .outcomeObserved => "OUTCOME_OBSERVED"
  | .outcomeVerified => "OUTCOME_VERIFIED"
  | .receiptIssued => "RECEIPT_ISSUED"
  | .correctionRecorded => "CORRECTION_RECORDED"
  | .breakGlassRequested => "BREAK_GLASS_REQUESTED"
  | .breakGlassApproved => "BREAK_GLASS_APPROVED"
  | .breakGlassActivated => "BREAK_GLASS_ACTIVATED"
  | .breakGlassUsed => "BREAK_GLASS_USED"
  | .breakGlassExpired => "BREAK_GLASS_EXPIRED"
  | .breakGlassRevoked => "BREAK_GLASS_REVOKED"
  | .dispatchRequested => "DISPATCH_REQUESTED"
  | .dispatched => "DISPATCHED"
  | .dispatchRejected => "DISPATCH_REJECTED"
  | .dispatchFailed => "DISPATCH_FAILED"
  | .acknowledged => "ACKNOWLEDGED"
  | .outcomeReported => "OUTCOME_REPORTED"
  | .reconciliationRequired => "RECONCILIATION_REQUIRED"
  | .compensationStarted => "COMPENSATION_STARTED"
  | .humanTakeover => "HUMAN_TAKEOVER"
  | .kmsKeyRotated => "KMS_KEY_ROTATED"
  | .institutionCandidateCompiled => "INSTITUTION_CANDIDATE_COMPILED"
  | .institutionReleaseTransitioned => "INSTITUTION_RELEASE_TRANSITIONED"

structure EventEnvelope where
  eventId : String
  tenantId : String
  eventType : LifecycleEvent
  actorId : String
  actorType : String
  scopeId : String
  incidentId : String
  occurredAt : String
  observedAt : String
  availableToControllerAt : String
  recordedAt : String
  correlationId : String
  traceId : String
  stateVersionBefore : Int
  stateVersionAfter : Int
  policyVersion : String
  payload : Value
  payloadHash : String
  previousRecordHash : String
  signature : String := "simulated"
  modelRelease : Option String := none
  causationId : Option String := none

def integer (n : Int) : Value := .num (.finite n)

/-- A property that may be absent. -/
def optional (key : String) (value : Option String) : Fields :=
  value.toList.map fun v => (key, .str v)

def EventEnvelope.toJson (e : EventEnvelope) : Value :=
  .obj ([("event_id", .str e.eventId), ("tenant_id", .str e.tenantId),
    ("event_type", .str e.eventType.name), ("actor_id", .str e.actorId),
    ("actor_type", .str e.actorType), ("scope_id", .str e.scopeId),
    ("incident_id", .str e.incidentId), ("occurred_at", .str e.occurredAt),
    ("observed_at", .str e.observedAt),
    ("available_to_controller_at", .str e.availableToControllerAt),
    ("recorded_at", .str e.recordedAt), ("correlation_id", .str e.correlationId),
    ("trace_id", .str e.traceId), ("state_version_before", integer e.stateVersionBefore),
    ("state_version_after", integer e.stateVersionAfter),
    ("policy_version", .str e.policyVersion)] ++ optional "model_release" e.modelRelease ++
    [("payload", e.payload), ("payload_hash", .str e.payloadHash),
    ("previous_record_hash", .str e.previousRecordHash), ("signature", .str e.signature),
    ("simulated", .bool true)] ++ optional "causation_id" e.causationId)

/-! ## Projection -/

structure StateValues where
  memphisCapacity : Number
  carrierCommitment : String
  commitmentsAtRisk : Number

structure State where
  version : Int
  values : StateValues

def StateValues.toJson (v : StateValues) : Value :=
  .obj [("memphis_capacity", .num v.memphisCapacity),
    ("carrier_commitment", .str v.carrierCommitment),
    ("commitments_at_risk", .num v.commitmentsAtRisk)]

/-- `typeof value === 'number'`. -/
def number : Option Value → Option Number
  | some (.num n) => some n
  | _ => none

/-- The two numbers of a projected payload, where they are in range. -/
def projected (payload : Value) : Option (Number × Number) :=
  match number (field payload "capacity_units"), number (field payload "commitments_at_risk") with
  | some capacity, some commitments =>
    if capacity.ge 0 ∧ capacity.le 10000 ∧ commitments.ge 0 then some (capacity, commitments)
    else none
  | _, _ => none

def EventEnvelope.accepted (e : EventEnvelope) : Bool :=
  e.eventType = .stateProjected ∧ 141 < e.stateVersionAfter ∧ (projected e.payload).isSome = true

section
variable (js : Runtime)

/-- The comparison sorts `a` before `b`, or does not tell them apart. -/
def sortsBefore (a b : EventEnvelope) : Prop :=
  a.stateVersionAfter < b.stateVersionAfter ∨
    (a.stateVersionAfter = b.stateVersionAfter ∧ js.localeCompare a.occurredAt b.occurredAt ≤ 0)

instance : DecidableRel (sortsBefore js) := fun _ _ =>
  inferInstanceAs (Decidable (_ < _ ∨ (_ = _ ∧ _ ≤ _)))

def State.initial : State := ⟨141, .finite 480, "normal", .finite 0⟩

/-- The state of the last projection. -/
def State.of (e : EventEnvelope) : State :=
  match projected e.payload with
  | some (capacity, commitments) => ⟨e.stateVersionAfter, capacity, "at_risk", commitments⟩
  | none => State.initial

def project (events : List EventEnvelope) : State :=
  match Sorting.latest (sortsBefore js) (events.filter EventEnvelope.accepted) with
  | some projection => State.of projection
  | none => State.initial

instance : Std.Total (sortsBefore js) where
  total a b := by
    unfold sortsBefore
    rcases lt_trichotomy a.stateVersionAfter b.stateVersionAfter with h | h | h
    · exact .inl (.inl h)
    · rcases js.compare_total a.occurredAt b.occurredAt with hc | hc
      · exact .inl (.inr ⟨h, hc⟩)
      · exact .inr (.inr ⟨h.symm, hc⟩)
    · exact .inr (.inl h)

instance : IsTrans EventEnvelope (sortsBefore js) where
  trans a b c := by
    unfold sortsBefore
    rintro (hab | ⟨hab, hc₁⟩) (hbc | ⟨hbc, hc₂⟩)
    · exact .inl (by omega)
    · exact .inl (by omega)
    · exact .inl (by omega)
    · exact .inr ⟨hab.trans hbc, js.compare_trans _ _ _ hc₁ hc₂⟩

theorem of_version {e : EventEnvelope} (h : e.accepted = true) :
    (State.of e).version = e.stateVersionAfter := by
  obtain ⟨_, _, hsome⟩ := of_decide_eq_true h
  obtain ⟨p, hp⟩ := Option.isSome_iff_exists.mp hsome
  unfold State.of
  rw [hp]

/-- Either nothing was accepted, or the state is that of an accepted event. -/
theorem project_cases (events : List EventEnvelope) :
    (project js events = State.initial ∧ ∀ e ∈ events, e.accepted = false) ∨
      ∃ e ∈ events, e.accepted = true ∧ project js events = State.of e ∧
        ∀ x ∈ events, x.accepted = true → sortsBefore js x e := by
  unfold project
  cases hlatest : Sorting.latest (sortsBefore js) (events.filter EventEnvelope.accepted) with
  | none =>
    refine .inl ⟨rfl, ?_⟩
    have hnil := Sorting.latest_eq_none.mp hlatest
    intro e he
    by_contra hne
    have hmem : e ∈ events.filter EventEnvelope.accepted :=
      List.mem_filter.mpr ⟨he, by simpa using hne⟩
    rw [hnil] at hmem
    cases hmem
  | some e =>
    obtain ⟨he, haccepted⟩ := List.mem_filter.mp (Sorting.latest_mem hlatest)
    refine .inr ⟨e, he, haccepted, rfl, ?_⟩
    intro x hx hxa
    exact Sorting.le_latest hlatest x (List.mem_filter.mpr ⟨hx, hxa⟩)

theorem project_version_ge (events : List EventEnvelope) : 141 ≤ (project js events).version := by
  rcases project_cases js events with ⟨h, _⟩ | ⟨e, _, haccepted, h, _⟩
  · rw [h]
    exact le_rfl
  · rw [h, of_version haccepted]
    obtain ⟨_, hversion, _⟩ := of_decide_eq_true haccepted
    exact le_of_lt hversion

/-- No accepted event is ahead of the projection. -/
theorem project_version_le {events : List EventEnvelope} {e : EventEnvelope} (he : e ∈ events)
    (haccepted : e.accepted = true) : e.stateVersionAfter ≤ (project js events).version := by
  rcases project_cases js events with ⟨_, hnone⟩ | ⟨x, _, hx, h, hle⟩
  · rw [hnone e he] at haccepted
    cases haccepted
  · rw [h, of_version hx]
    rcases hle e he haccepted with hlt | ⟨heq, _⟩
    · exact le_of_lt hlt
    · exact le_of_eq heq

/-- No two accepted events have the same version. -/
def Distinct (events : List EventEnvelope) : Prop :=
  ∀ x ∈ events, ∀ y ∈ events, x.accepted = true → y.accepted = true →
    x.stateVersionAfter = y.stateVersionAfter → x = y

theorem project_congr {events events' : List EventEnvelope} (hdistinct : Distinct events)
    (h : ∀ e, e.accepted = true → (e ∈ events ↔ e ∈ events')) :
    project js events = project js events' := by
  unfold project
  rw [Sorting.latest_congr (l := events.filter EventEnvelope.accepted)
    (m := events'.filter EventEnvelope.accepted)]
  · intro e
    rw [List.mem_filter, List.mem_filter]
    constructor
    · rintro ⟨he, ha⟩
      exact ⟨(h e ha).mp he, ha⟩
    · rintro ⟨he, ha⟩
      exact ⟨(h e ha).mpr he, ha⟩
  · intro x hx y hy hxy hyx
    obtain ⟨hx, hxa⟩ := List.mem_filter.mp hx
    obtain ⟨hy, hya⟩ := List.mem_filter.mp hy
    apply hdistinct x hx y hy hxa hya
    rcases hxy with hlt | ⟨heq, _⟩
    · rcases hyx with hlt' | ⟨heq', _⟩ <;> omega
    · exact heq

/-- An accepted event ahead of all others is the projection. -/
theorem project_newest {events : List EventEnvelope} {e : EventEnvelope} (he : e ∈ events)
    (haccepted : e.accepted = true)
    (hnewest : ∀ x ∈ events, x.accepted = true → x ≠ e → x.stateVersionAfter < e.stateVersionAfter) :
    project js events = State.of e := by
  rcases project_cases js events with ⟨_, hnone⟩ | ⟨x, hx, hxa, h, hle⟩
  · rw [hnone e he] at haccepted
    cases haccepted
  · by_cases hxe : x = e
    · rw [h, hxe]
    · have hlt := hnewest x hx hxa hxe
      rcases hle e he haccepted with hlt' | ⟨heq, _⟩ <;> omega

end

/-! ## Admission -/

structure EvidenceRecord where
  evidenceId : Value
  status : Value
  source : Value
  version : Value
  citationText : Value

def EvidenceRecord.toJson (r : EvidenceRecord) : Value :=
  .obj [("evidence_id", r.evidenceId), ("status", r.status), ("source", r.source),
    ("version", r.version), ("citation_text", r.citationText)]

def admitEvidence (candidate : Value) : List EvidenceRecord :=
  match number (field candidate "capacity_units") with
  | some capacity =>
    if isBool (field candidate "trusted_source") false ∨ capacity.lt 0 ∨ capacity.gt 10000 then []
    else [{
      evidenceId := orDefault (field candidate "evidence_id") (.str "observation-evidence")
      status := orDefault (field candidate "status") (.str "observed")
      source := orDefault (field candidate "source") (.str "observation-gateway")
      version := orDefault (field candidate "version") (.str "unversioned")
      citationText := orDefault (field candidate "citation_text")
        (.str "Admitted observation payload.") }]
  | none => []

/-- The statuses that let an observation move the state. -/
def EvidenceRecord.admissible (r : EvidenceRecord) : Bool :=
  match r.status with
  | .str s => s ∈ ["observed", "verified", "reported", "inferred"]
  | _ => false

end Edon.Platform
