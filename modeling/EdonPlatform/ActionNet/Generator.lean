import EdonPlatform.Common.Digests
import EdonPlatform.Lib.Doubles
import EdonPlatform.Lib.Traversal
import EdonPlatform.Runtime.Engine

/- Generation of ActionNet cases from an approved mechanism (edon/actionnet/generator.py). Every
   case shows the model a state of the institution, and the oracle labels it with what the runtime
   decides there.

   What is proved:
     1. `generated` — what a bundle has: the cases of its scenarios, each with its label.
     2. `decision_normal`, `decision_failure`, `decision_edge` — the labels of the states: the
        expected facts are allowed, a missing fact is not, and a mutated fact is allowed exactly
        when Python finds it equal to the expected one.

   Correspondence (Python ↔ Lean):
     `_mutated`           ↔ `mutated`
     `_case_id`           ↔ `Origin.caseId`, the text it is the digest of `Origin.idText`
     `_public_case`       ↔ `PublicCase`, `PublicCase.dict`
     `generate_actionnet` ↔ `generateActionnet`, the cases of its loop `Scenario` -/
namespace Edon.ActionNet
open Json Edon.Runtime

/-- The runtime, with the rounding of its floats. -/
structure Generator extends Engine where
  rounding : Doubles.Rounding

section
variable (gen : Generator)

def mutated : Json → Json
  | .bool b => .bool !b
  | .int n => .int (n + 1)
  | .float q => .float (gen.rounding.add q 1)
  | .str s => .str ("NOT_" ++ s)
  | .null => .str "NOT_NULL"
  | v => .obj [("mutated_from_sha256", .str (sha256Json gen.sha256 v))]

/-! ## Cases -/

structure PublicCase where
  caseId : String
  observation : List (String × Json)
  query : String
  taskType : String
  institutionLineage : String
  sourceLineage : String

def PublicCase.dict (c : PublicCase) : Json :=
  .obj [("case_id", .str c.caseId), ("observation", .obj c.observation), ("query", .str c.query),
    ("task_type", .str c.taskType), ("institution_lineage", .str c.institutionLineage),
    ("source_lineage", .str c.sourceLineage)]

/-- What the cases of a mechanism are made of. -/
structure Origin where
  mechanism : Json
  mechanismId : Json
  version : Json
  expected : Dict String Json
  sourceLineage : String
  seed : Int

/-- What a case is about: of a fact its path, its value and, for an event, its place. -/
inductive Scenario where
  | normal
  | failure (path : String) (value : Json)
  | edge (path : String)
  | pair (path : String) (value : Json)
  | transition (index : Nat) (path : String) (value : Json)
  | queue (path : String) (value : Json)
  deriving DecidableEq

/-- The scenario as `_case_id` names it. -/
def Scenario.name : Scenario → String
  | .normal => "NORMAL"
  | .failure .. => "FAILURE"
  | .edge .. => "EDGE_MISSING"
  | .pair .. => "PAIR_CONTRAST"
  | .transition .. => "TRANSITION"
  | .queue .. => "QUEUE_TRACE"

def Scenario.path? : Scenario → Option String
  | .normal => none
  | .failure path _ | .edge path | .pair path _ | .transition _ path _ | .queue path _ => some path

/-- The identity that `_case_id` hashes. -/
def Scenario.identity (seed : Int) (s : Scenario) : Json :=
  match s.path? with
  | none => .int seed
  | some path => .obj [("path", .str path), ("seed", .int seed)]

def stateOf (facts : List (String × Json)) : Json := .obj [("facts", .obj facts)]

def setEvent (eventId : String) (sequence priority : Int) (path : String) (value : Json) : Json :=
  .obj [("event_id", .str eventId), ("sequence", .int sequence), ("priority", .int priority),
    ("action", .str "SET"), ("path", .str path), ("value", value)]

/-- `f"event-{index:04d}-invalidate"`. -/
def invalidationId (index : Nat) : String :=
  let digits := Nat.toDigits 10 index
  "event-" ++ String.ofList (List.replicate (4 - digits.length) '0' ++ digits) ++ "-invalidate"

namespace Origin
variable (o : Origin)

def institutionLineage : String :=
  pyStr gen.toPython o.mechanismId ++ "@" ++ pyStr gen.toPython o.version

def idText (s : Scenario) : String :=
  canonicalJson (.obj [("mechanism_id", o.mechanismId), ("version", o.version),
    ("scenario", .str s.name), ("identity", s.identity o.seed)])

def caseId (s : Scenario) : String :=
  "case-" ++ String.ofList (shortDigest gen.toPython (o.idText s))

def pairId (path : String) : String :=
  "pair-" ++ shortSha256 gen.toPython
    (.obj [("mechanism", .str (o.institutionLineage gen)), ("path", .str path)])

def baseState : Json := stateOf o.expected.entries

def failureState (path : String) (value : Json) : Json :=
  stateOf (Assoc.put o.expected.entries path (mutated gen value))

def edgeState (path : String) : Json := stateOf (Assoc.remove o.expected.entries path)

def invalidation (index : Nat) (path : String) (value : Json) : Json :=
  setEvent (invalidationId index) 0 0 path (mutated gen value)

def queueEvents (path : String) (value : Json) : List Json :=
  [setEvent "queue-restore-low-priority" 0 1 path (mutated gen value),
    setEvent "queue-restore-authoritative" 1 10 path value]

/-- The observation of a case. -/
def observation : Scenario → List (String × Json)
  | .normal => [("mechanism_id", o.mechanismId), ("scenario_class", .str "NORMAL"),
      ("state", o.baseState)]
  | .failure path value => [("mechanism_id", o.mechanismId), ("scenario_class", .str "FAILURE"),
      ("intervention_path", .str path), ("state", o.failureState gen path value)]
  | .edge path => [("mechanism_id", o.mechanismId), ("scenario_class", .str "EDGE"),
      ("intervention_path", .str path), ("state", o.edgeState path)]
  | .pair path value => [("mechanism_id", o.mechanismId),
      ("scenario_class", .str "COUNTERFACTUAL"), ("pair_id", .str (o.pairId gen path)),
      ("base", o.baseState), ("comparison", o.failureState gen path value),
      ("intervention_path", .str path)]
  | .transition index path value => [("mechanism_id", o.mechanismId),
      ("scenario_class", .str "TRANSITION"), ("initial_state", o.baseState),
      ("events", .arr [invalidation gen index path value])]
  | .queue path value => [("mechanism_id", o.mechanismId), ("scenario_class", .str "QUEUE"),
      ("initial_state", o.edgeState path), ("events", .arr (queueEvents gen path value))]

end Origin

def Scenario.query : Scenario → String
  | .normal | .failure .. => "Evaluate whether the proposed institutional action is permitted."
  | .edge .. => "Evaluate the action when one institutional fact is unavailable."
  | .pair .. =>
    "Determine whether and why the institutional decision changes between the two states."
  | .transition .. => "Apply the event and return the resulting state and institutional decision."
  | .queue .. =>
    "Execute the event queue in canonical order and return the final state and decision."

def Scenario.taskType : Scenario → String
  | .normal | .failure .. | .edge .. => "CERTIFICATE"
  | .pair .. => "PAIR_CONTRAST"
  | .transition .. => "TRANSITION"
  | .queue .. => "QUEUE_TRACE"

def Origin.publicCase (o : Origin) (s : Scenario) : PublicCase where
  caseId := o.caseId gen s
  observation := o.observation gen s
  query := s.query
  taskType := s.taskType
  institutionLineage := o.institutionLineage gen
  sourceLineage := o.sourceLineage

/-! ## Labels -/

def pairLabel (pairId path : String) (base comparison : Decision) : Json :=
  .obj [("pair_id", .str pairId), ("base_decision", .str base.value),
    ("comparison_decision", .str comparison.value),
    ("decision_changed", .bool (base.value ≠ comparison.value)), ("causal_path", .str path),
    ("binding_authority", .bool false)]

/-- The label of a case. The runtime is a function of the mechanism and the state, so the two
certificates that a pair compares are those of the cases before it. -/
def Origin.label (o : Origin) : Scenario → Except PyError Json
  | .normal => do
    let certificate ← evaluate gen.toEngine o.mechanism o.baseState
    return certificate.dict
  | .failure path value => do
    let certificate ← evaluate gen.toEngine o.mechanism (o.failureState gen path value)
    return certificate.dict
  | .edge path => do
    let certificate ← evaluate gen.toEngine o.mechanism (o.edgeState path)
    return certificate.dict
  | .pair path value => do
    let base ← evaluate gen.toEngine o.mechanism o.baseState
    let comparison ← evaluate gen.toEngine o.mechanism (o.failureState gen path value)
    return pairLabel (o.pairId gen path) path base.decision comparison.decision
  | .transition index path value => do
    let result ← executeEvents gen.toEngine o.mechanism o.baseState
      [Origin.invalidation gen index path value]
    return .obj [("final_state", result.finalState), ("certificate", result.certificate.dict),
      ("binding_authority", .bool false)]
  | .queue path value => do
    let result ← executeEvents gen.toEngine o.mechanism (o.edgeState path)
      (Origin.queueEvents gen path value)
    return .obj [("event_trace", .arr result.eventTrace), ("final_state", result.finalState),
      ("certificate", result.certificate.dict), ("binding_authority", .bool false)]

/-! ## The bundle -/

/-- The cases of one fact, with its place. -/
def factScenarios (e : (String × Json) × Nat) : List Scenario :=
  [.failure e.1.1 e.1.2, .edge e.1.1, .pair e.1.1 e.1.2, .transition e.2 e.1.1 e.1.2]

/-- The case of the first fact; without facts `sorted(expected)[0]` raises. -/
def queueScenario : List (String × Json) → Except PyError Scenario
  | [] => .error ⟨.indexError, "list index out of range"⟩
  | e :: _ => .ok (.queue e.1 e.2)

def Origin.scenarios (o : Origin) (queue : Scenario) : List Scenario :=
  .normal :: o.expected.entries.zipIdx.flatMap factScenarios ++ [queue]

structure Bundle where
  origin : Origin
  cases : List (PublicCase × Json)

namespace Bundle
variable (b : Bundle)

def publicPayload : Json :=
  .obj [("schema_version", .str "edon-actionnet-public.v1"),
    ("cases", .arr (b.cases.map fun e => e.1.dict))]

/-- The labels by the id of their case, a later one winning. -/
def labels : Dict String Json := Dict.ofList (b.cases.map fun e => (e.1.caseId, e.2))

def protectedPayload : Json :=
  .obj [("schema_version", .str "edon-actionnet-oracle.v1"), ("labels", .obj b.labels.entries)]

def dict : Json :=
  .obj [("schema_version", .str "edon-actionnet-bundle.v1"), ("mechanism_id", b.origin.mechanismId),
    ("mechanism_version", b.origin.version), ("generator_seed", .int b.origin.seed),
    ("public", b.publicPayload), ("protected", b.protectedPayload),
    ("manifest", .obj [("public_sha256", .str (sha256Json gen.sha256 b.publicPayload)),
      ("protected_sha256", .str (sha256Json gen.sha256 b.protectedPayload)),
      ("mechanism_sha256", .str (sha256Json gen.sha256 b.origin.mechanism)),
      ("case_count", .int b.cases.length), ("label_count", .int b.labels.keys.length),
      ("labels_separated", .bool true), ("deterministic", .bool true)]),
    ("claim_boundary", .str ("Synthetic experience generated from an approved project " ++
      "representation; not observed real-world outcomes."))]

end Bundle

def generationError (message : String) : PyError := ⟨.actionNetGenerationError, message⟩

def generateActionnet (mechanism : Json) (generatorSeed : Int) : Except PyError Bundle := do
  let checks ← validateApprovedMechanism gen.toEngine mechanism
  require checks.all (generationError ("mechanism is not generation-ready: " ++ checks.text))
  let expected ← expectedFacts gen.toEngine mechanism
  let mechanismId ← dictIndex mechanism "mechanism_id"
  let version ← dictIndex mechanism "version"
  let references ← dictGet mechanism "source_references" (.arr [])
  let origin : Origin := {
    mechanism, mechanismId, version, expected
    sourceLineage := sha256Json gen.sha256 references
    seed := generatorSeed }
  let queue ← queueScenario expected.entries
  let cases ← (origin.scenarios queue).mapM fun s => do
    let label ← origin.label gen s
    return (origin.publicCase gen s, label)
  return { origin, cases }

end

/-! ## What a bundle has -/

section
variable {gen : Generator} {mechanism : Json}

/-- A bundle has the cases of its scenarios, each with its label. -/
structure Generated (gen : Generator) (mechanism : Json) (seed : Int) (b : Bundle) : Prop where
  source : b.origin.mechanism = mechanism
  expected : expectedFacts gen.toEngine mechanism = .ok b.origin.expected
  mechanismId : dictIndex mechanism "mechanism_id" = .ok b.origin.mechanismId
  version : dictIndex mechanism "version" = .ok b.origin.version
  seed : b.origin.seed = seed
  cases : ∃ first rest, ∃ rows : List (Scenario × Json),
    b.origin.expected.entries = first :: rest ∧
    rows.map Prod.fst = b.origin.scenarios (.queue first.1 first.2) ∧
    b.cases = rows.map (fun r => (b.origin.publicCase gen r.1, r.2)) ∧
    ∀ r ∈ rows, b.origin.label gen r.1 = .ok r.2

theorem generated {seed : Int} {b : Bundle} (h : generateActionnet gen mechanism seed = .ok b) :
    Generated gen mechanism seed b := by
  obtain ⟨_, _, h⟩ := bind_ok.mp h
  obtain ⟨_, _, h⟩ := bind_ok.mp h
  obtain ⟨expected, hexpected, h⟩ := bind_ok.mp h
  obtain ⟨mechanismId, hmechanismId, h⟩ := bind_ok.mp h
  obtain ⟨version, hversion, h⟩ := bind_ok.mp h
  obtain ⟨_, _, h⟩ := bind_ok.mp h
  obtain ⟨queue, hqueue, h⟩ := bind_ok.mp h
  obtain ⟨cases, hcases, h⟩ := bind_ok.mp h
  cases h
  refine ⟨rfl, hexpected, hmechanismId, hversion, rfl, ?_⟩
  cases hentries : expected.entries with
  | nil =>
    rw [hentries] at hqueue
    cases hqueue
  | cons first rest =>
    rw [hentries] at hqueue
    cases hqueue
    obtain ⟨rows, hfst, rfl, hrows⟩ := Fallible.pairs_of_mapM hcases
    exact ⟨first, rest, rows, rfl, hfst, rfl, hrows⟩

/-! ## The decisions of the labels -/

variable {o : Origin} {c : ExecutionCertificate}

theorem decision_normal (hexpected : expectedFacts gen.toEngine mechanism = .ok o.expected)
    (h : evaluate gen.toEngine mechanism o.baseState = .ok c) : c.decision = .allow :=
  (allow_iff h rfl hexpected).mpr fun _ value hvalue => ⟨value, hvalue, pyEq_refl value⟩

/-- A mutated fact is allowed exactly when it is equal to the expected one. -/
theorem decision_failure (hexpected : expectedFacts gen.toEngine mechanism = .ok o.expected)
    {path : String} {value : Json} (hvalue : o.expected.get path = some value)
    (h : evaluate gen.toEngine mechanism (o.failureState gen path value) = .ok c) :
    c.decision = .allow ↔ pyEq (mutated gen value) value = true := by
  rw [allow_iff h rfl hexpected]
  constructor
  · intro hall
    obtain ⟨w, hw, hsame⟩ := hall path value hvalue
    rw [Assoc.find_put, if_pos rfl] at hw
    cases hw
    exact hsame
  · intro hsame path' value' hvalue'
    unfold Observed
    rw [Assoc.find_put]
    by_cases hpath : path = path'
    · subst hpath
      cases hvalue.symm.trans hvalue'
      exact ⟨_, if_pos rfl, hsame⟩
    · exact ⟨value', by rw [if_neg hpath]; exact hvalue', pyEq_refl value'⟩

theorem decision_edge (hexpected : expectedFacts gen.toEngine mechanism = .ok o.expected)
    {path : String} {value : Json} (hvalue : o.expected.get path = some value)
    (h : evaluate gen.toEngine mechanism (o.edgeState path) = .ok c) : c.decision ≠ .allow := by
  intro hallow
  obtain ⟨w, hw, _⟩ := (allow_iff h rfl hexpected).mp hallow path value hvalue
  rw [Assoc.find_remove, if_pos rfl] at hw
  cases hw

/-! ## Scenarios -/

/-- What the scenario is about is an expected fact. -/
def Scenario.About (expected : Dict String Json) : Scenario → Prop
  | .normal => True
  | .failure path value | .pair path value | .transition _ path value | .queue path value =>
    expected.get path = some value
  | .edge path => ∃ value, expected.get path = some value

theorem about_of_mem {first : String × Json} {rest : List (String × Json)}
    (hentries : o.expected.entries = first :: rest) {s : Scenario}
    (hs : s ∈ o.scenarios (.queue first.1 first.2)) : s.About o.expected := by
  unfold Origin.scenarios at hs
  rcases List.mem_append.mp hs with hs | hs
  · rcases List.mem_cons.mp hs with rfl | hs
    · trivial
    · obtain ⟨e, he, hs⟩ := List.mem_flatMap.mp hs
      have hget : o.expected.get e.1.1 = some e.1.2 :=
        Dict.mem_entries.mp (List.fst_mem_of_mem_zipIdx he)
      simp only [factScenarios, List.mem_cons, List.not_mem_nil, or_false] at hs
      rcases hs with rfl | rfl | rfl | rfl
      · exact hget
      · exact ⟨_, hget⟩
      · exact hget
      · exact hget
  · rw [List.mem_singleton.mp hs]
    exact Dict.mem_entries.mp (hentries ▸ List.mem_cons_self)

/-- What tells the scenarios of a bundle apart. -/
def Scenario.key (s : Scenario) : String × Option String := (s.name, s.path?)

theorem nodup_scenarios (first : String × Json) :
    ((o.scenarios (.queue first.1 first.2)).map Scenario.key).Nodup := by
  have hfacts : (o.expected.entries.zipIdx.flatMap factScenarios).map Scenario.key =
      o.expected.keys.flatMap fun path => [("FAILURE", some path), ("EDGE_MISSING", some path),
        ("PAIR_CONTRAST", some path), ("TRANSITION", some path)] := by
    have hkeys : o.expected.keys = o.expected.entries.zipIdx.map fun e => e.1.1 := by
      unfold Dict.keys
      conv_lhs => rw [← List.zipIdx_map_fst 0 o.expected.entries]
      rw [List.map_map]
      rfl
    rw [hkeys, List.map_flatMap, List.flatMap_map]
    rfl
  have hdistinct : (o.expected.keys.flatMap fun path => [("FAILURE", some path),
      ("EDGE_MISSING", some path), ("PAIR_CONTRAST", some path), ("TRANSITION", some path)]).Nodup := by
    refine List.nodup_flatMap.mpr ⟨fun path _ => by simp, ?_⟩
    refine o.expected.keys_nodup.imp fun {p q} hne e hp hq => ?_
    simp only [List.mem_cons, List.not_mem_nil, or_false] at hp hq
    rcases hp with rfl | rfl | rfl | rfl <;> simp [hne] at hq
  unfold Origin.scenarios
  rw [List.map_append, List.map_cons, hfacts]
  refine List.Nodup.append (List.nodup_cons.mpr ⟨?_, hdistinct⟩) (List.nodup_singleton _) ?_
  · simp [Scenario.key, Scenario.name]
  · intro e he hlast
    rw [List.map_singleton] at hlast
    rw [List.mem_singleton.mp hlast] at he
    simp [Scenario.key, Scenario.name] at he

theorem path_of_identity {seed : Int} {s s' : Scenario}
    (h : Same (s.identity seed) (s'.identity seed)) : s.path? = s'.path? := by
  unfold Scenario.identity at h
  cases hs : s.path? with
  | none =>
    cases hs' : s'.path? with
    | none => rfl
    | some path' =>
      rw [hs, hs'] at h
      unfold Same at h
      rw [canon, canon] at h
      cases h
  | some path =>
    cases hs' : s'.path? with
    | none =>
      rw [hs, hs'] at h
      unfold Same at h
      rw [canon, canon] at h
      cases h
    | some path' =>
      rw [hs, hs'] at h
      exact congrArg some (Json.str.inj (Option.some.inj (same_obj_iff.mp h "path")))

/-- The text that an id is the digest of tells the scenarios apart. -/
theorem key_of_idText {s s' : Scenario} (h : o.idText s = o.idText s') : s.key = s'.key := by
  have hfields := same_obj_iff.mp (canonicalJson_injective.mp h)
  exact Prod.ext (Json.str.inj (Option.some.inj (hfields "scenario")))
    (path_of_identity (Option.some.inj (hfields "identity")))

/-- The path of the first event. -/
theorem path_of_events {path path' : String} {e e' : List (String × Json)} {es es' : List Json}
    (he : Assoc.find e "path" = some (.str path)) (he' : Assoc.find e' "path" = some (.str path'))
    (h : Same (.arr (.obj e :: es)) (.arr (.obj e' :: es'))) : path = path' := by
  unfold Same at h
  rw [canon, canon, canonList, canonList] at h
  have hfields := same_obj_iff.mp (List.cons.inj (Json.arr.inj h)).1 "path"
  rw [he, he'] at hfields
  exact Json.str.inj (Option.some.inj hfields)

/-- An observation tells the scenarios apart. -/
theorem key_of_observation {s s' : Scenario}
    (h : Same (.obj (o.observation gen s)) (.obj (o.observation gen s'))) : s.key = s'.key := by
  have hfields := same_obj_iff.mp h
  have hclass := hfields "scenario_class"
  cases s <;> cases s' <;>
    first
    | rfl
    | exact absurd (Json.str.inj (Option.some.inj hclass)) (by decide)
    | exact congrArg (fun path => (_, some path))
        (Json.str.inj (Option.some.inj (hfields "intervention_path")))
    | exact congrArg (fun path => (_, some path))
        (path_of_events rfl rfl (Option.some.inj (hfields "events")))

/-! ## Every valid mechanism that is named has a bundle -/

/-- A mechanism that passes its checks, with its identity. -/
structure Ready (gen : Generator) (mechanism : Json) (o : Origin) : Prop where
  valid : requireValid gen.toEngine mechanism = .ok ()
  expected : expectedFacts gen.toEngine mechanism = .ok o.expected
  mechanismId : dictIndex mechanism "mechanism_id" = .ok o.mechanismId
  version : dictIndex mechanism "version" = .ok o.version

theorem Ready.evaluate (h : Ready gen mechanism o) (state : Json) {facts : List (String × Json)}
    (hfacts : dictGet state "facts" .null = .ok (.obj facts)) :
    ∃ c, Runtime.evaluate gen.toEngine mechanism state = .ok c :=
  ⟨_, bind_ok.mpr ⟨(), h.valid, bind_ok.mpr ⟨_, hfacts, bind_ok.mpr ⟨facts, rfl,
    bind_ok.mpr ⟨_, h.expected, bind_ok.mpr ⟨_, h.mechanismId, bind_ok.mpr ⟨_, h.version, rfl⟩⟩⟩⟩⟩⟩⟩

theorem applyEvents_total {events : List Event} (hpath : ∀ e ∈ events, ∃ path,
    e.path gen.toEngine = .ok path) (facts : List (String × Json)) :
    ∃ applied, applyEvents gen.toEngine events facts = .ok applied := by
  induction events generalizing facts with
  | nil => exact ⟨_, rfl⟩
  | cons e events ih =>
    obtain ⟨path, hok⟩ := hpath e List.mem_cons_self
    obtain ⟨rest, hrest⟩ := ih (fun e he => hpath e (List.mem_cons_of_mem _ he)) (e.apply path facts)
    exact ⟨_, bind_ok.mpr ⟨path, hok, bind_ok.mpr ⟨rest, hrest, rfl⟩⟩⟩

theorem Ready.executeEvents (h : Ready gen mechanism o) (facts : List (String × Json))
    (events : List Json) {rows : List Event}
    (hrows : normalizeEvents gen.toEngine [] 0 events = .ok rows)
    (hpath : ∀ e ∈ rows, ∃ path, e.path gen.toEngine = .ok path) :
    ∃ r, Runtime.executeEvents gen.toEngine mechanism (stateOf facts) events = .ok r := by
  have hordered : ∀ e ∈ orderEvents rows, ∃ path, e.path gen.toEngine = .ok path := fun e he =>
    hpath e ((List.mem_insertionSort _).mp he)
  obtain ⟨applied, happlied⟩ := applyEvents_total hordered facts
  obtain ⟨c, hc⟩ := h.evaluate (.obj (Assoc.put [("facts", .obj facts)] "facts" (.obj applied.1))) rfl
  exact ⟨_, bind_ok.mpr ⟨(), h.valid, bind_ok.mpr ⟨_, rfl, bind_ok.mpr ⟨facts, rfl,
    bind_ok.mpr ⟨rows, hrows, bind_ok.mpr ⟨applied, happlied, bind_ok.mpr ⟨_, rfl,
    bind_ok.mpr ⟨c, hc, bind_ok.mpr ⟨_, h.mechanismId, bind_ok.mpr ⟨_, h.version, rfl⟩⟩⟩⟩⟩⟩⟩⟩⟩⟩

/-- The row of an event of the generator. -/
def setRow (eventId : String) (sequence priority : Int) (path : String) (value : Json) : Event where
  eventId
  action := .set
  sequence
  priority
  fields := [("event_id", .str eventId), ("sequence", .int sequence), ("priority", .int priority),
    ("action", .str "SET"), ("path", .str path), ("value", value)]

theorem normalizeEvent_set {eventId : String} {seen : List String} (hid : eventId ≠ "")
    (hnew : eventId ∉ seen) (index : Nat) (sequence priority : Int) (path : String) (value : Json) :
    normalizeEvent gen.toEngine seen index (setEvent eventId sequence priority path value) =
      .ok (setRow eventId sequence priority path value) :=
  bind_ok.mpr ⟨_, rfl, bind_ok.mpr ⟨(), require_ok.mpr (decide_eq_true ⟨hid, hnew⟩), rfl⟩⟩

theorem setRow_path {eventId : String} {sequence priority : Int} {path : String} {value : Json}
    (hpath : path ≠ "") :
    (setRow eventId sequence priority path value).path gen.toEngine = .ok path :=
  bind_ok.mpr ⟨(), require_ok.mpr (decide_eq_true hpath), rfl⟩

theorem Ready.label (h : Ready gen o.mechanism o) (hpaths : ∀ path value,
    o.expected.get path = some value → path ≠ "") {s : Scenario} (hs : s.About o.expected) :
    ∃ label, o.label gen s = .ok label := by
  cases s with
  | normal =>
    obtain ⟨c, hc⟩ := h.evaluate (o.baseState) rfl
    exact ⟨_, bind_ok.mpr ⟨c, hc, rfl⟩⟩
  | failure path value =>
    obtain ⟨c, hc⟩ := h.evaluate (o.failureState gen path value) rfl
    exact ⟨_, bind_ok.mpr ⟨c, hc, rfl⟩⟩
  | edge path =>
    obtain ⟨c, hc⟩ := h.evaluate (o.edgeState path) rfl
    exact ⟨_, bind_ok.mpr ⟨c, hc, rfl⟩⟩
  | pair path value =>
    obtain ⟨c, hc⟩ := h.evaluate (o.baseState) rfl
    obtain ⟨c', hc'⟩ := h.evaluate (o.failureState gen path value) rfl
    exact ⟨_, bind_ok.mpr ⟨c, hc, bind_ok.mpr ⟨c', hc', rfl⟩⟩⟩
  | transition index path value =>
    have hid : invalidationId index ≠ "" := by
      unfold invalidationId
      intro heq
      have hlength := congrArg String.length heq
      simp only [String.length_append] at hlength
      exact absurd hlength (by simp)
    obtain ⟨r, hr⟩ := h.executeEvents o.expected.entries
      [Origin.invalidation gen index path value]
      (bind_ok.mpr ⟨_, normalizeEvent_set hid List.not_mem_nil _ _ _ _ _, rfl⟩)
      (fun e he => ⟨path, by rw [List.mem_singleton.mp he]; exact setRow_path (hpaths path value hs)⟩)
    exact ⟨_, bind_ok.mpr ⟨r, hr, rfl⟩⟩
  | queue path value =>
    have hnew : "queue-restore-authoritative" ∉ ["queue-restore-low-priority"] := by decide
    obtain ⟨r, hr⟩ := h.executeEvents (Assoc.remove o.expected.entries path)
      (Origin.queueEvents gen path value)
      (bind_ok.mpr ⟨_, normalizeEvent_set (by decide) List.not_mem_nil _ _ _ _ _,
        bind_ok.mpr ⟨_, bind_ok.mpr ⟨_, normalizeEvent_set (by decide) hnew _ _ _ _ _, rfl⟩, rfl⟩⟩)
      (by
        intro e he
        rcases List.mem_cons.mp he with rfl | he
        · exact ⟨path, setRow_path (hpaths path value hs)⟩
        · rw [List.mem_singleton.mp he]
          exact ⟨path, setRow_path (hpaths path value hs)⟩)
    exact ⟨_, bind_ok.mpr ⟨r, hr, rfl⟩⟩

/-- The path of a fact has a dot in it. -/
theorem dot_mem_path {expected : Dict String Json}
    (h : expectedFacts gen.toEngine mechanism = .ok expected) {path : String} {value : Json}
    (hvalue : expected.get path = some value) : '.' ∈ path.toList := by
  obtain ⟨facts, entries, _, _, hentries, _, rfl⟩ := expectedFacts_ok.mp h
  obtain ⟨fact, _, hfact⟩ := mem_of_mapM hentries _ (Dict.mem_of_get_ofList hvalue)
  obtain ⟨_, _, hfact⟩ := bind_ok.mp hfact
  obtain ⟨_, hpath, hfact⟩ := bind_ok.mp hfact
  obtain ⟨_, _, hpath⟩ := bind_ok.mp hpath
  obtain ⟨_, _, hpath⟩ := bind_ok.mp hpath
  cases hfact
  cases hpath
  simp

/-- **A mechanism that passes its checks has a bundle exactly when it has an id and a version.** -/
theorem generates_iff {checks : MechanismChecks} {seed : Int}
    (hvalid : validateApprovedMechanism gen.toEngine mechanism = .ok checks)
    (hall : checks.all = true) : (∃ b, generateActionnet gen mechanism seed = .ok b) ↔
      ∃ mechanismId version, dictIndex mechanism "mechanism_id" = .ok mechanismId ∧
        dictIndex mechanism "version" = .ok version := by
  constructor
  · rintro ⟨b, hb⟩
    exact ⟨_, _, (generated hb).mechanismId, (generated hb).version⟩
  · rintro ⟨mechanismId, version, hmechanismId, hversion⟩
    obtain ⟨expected, hexpected⟩ := expected_of_valid hvalid hall
    obtain ⟨facts, entries, hfacts, hne, hentries, _, heq⟩ := expectedFacts_ok.mp hexpected
    obtain ⟨references, hreferences⟩ : ∃ references,
        dictGet mechanism "source_references" (.arr []) = .ok references := by
      cases mechanism with
      | obj kvs => exact ⟨_, rfl⟩
      | _ => cases hfacts
    let o : Origin := {
      mechanism, mechanismId, version, expected
      sourceLineage := sha256Json gen.sha256 references
      seed }
    have hready : Ready gen o.mechanism o :=
      ⟨requireValid_ok.mpr ⟨checks, hvalid, hall⟩, hexpected, hmechanismId, hversion⟩
    obtain ⟨first, rest, hcons⟩ : ∃ first rest, expected.entries = first :: rest := by
      refine List.exists_cons_of_ne_nil fun hnil => ?_
      have hentriesne : entries ≠ [] := by
        rintro rfl
        exact hne (List.eq_nil_of_length_eq_zero (Fallible.forall₂_of_mapM hentries).length_eq)
      obtain ⟨k, v, hkv⟩ := Dict.exists_get_ofList hentriesne
      rw [← heq] at hkv
      have hmem := Dict.mem_entries.mpr hkv
      rw [hnil] at hmem
      cases hmem
    have hpaths : ∀ path value, o.expected.get path = some value → path ≠ "" := by
      rintro path value hvalue rfl
      exact absurd (dot_mem_path hexpected hvalue) List.not_mem_nil
    obtain ⟨cases, hcases⟩ := Fallible.mapM_succeeds (l := o.scenarios (.queue first.1 first.2))
      (f := fun s => do
        let label ← o.label gen s
        return (o.publicCase gen s, label)) fun s hs => by
      obtain ⟨label, hlabel⟩ := hready.label hpaths (about_of_mem hcons hs)
      exact ⟨_, bind_ok.mpr ⟨label, hlabel, rfl⟩⟩
    refine ⟨⟨o, cases⟩, bind_ok.mpr ⟨checks, hvalid, bind_ok.mpr ⟨(), require_ok.mpr hall,
      bind_ok.mpr ⟨expected, hexpected, bind_ok.mpr ⟨mechanismId, hmechanismId,
      bind_ok.mpr ⟨version, hversion, bind_ok.mpr ⟨references, hreferences,
      bind_ok.mpr ⟨.queue first.1 first.2, by rw [hcons]; rfl,
      bind_ok.mpr ⟨cases, hcases, rfl⟩⟩⟩⟩⟩⟩⟩⟩⟩

end
end Edon.ActionNet
