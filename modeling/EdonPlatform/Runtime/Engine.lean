import EdonPlatform.Common.Equality
import EdonPlatform.Common.Python
import Mathlib.Data.List.Sort
import Mathlib.Data.Prod.Lex

/- Execution of approved mechanisms (edon/runtime/engine.py). A mechanism is a document whose
   facts are the conditions of an action; a state is a document with the facts that are observed.

   What is proved:
     1. `expectedFacts_ok` — a mechanism has expected facts exactly when each of its facts has a
        value and no two give one path different values.
     2. `expected_of_valid` — a mechanism that passes its checks has expected facts.
     3. `allow_iff` — an action is allowed exactly when every condition is observed as expected.

   Correspondence (Python ↔ Lean):
     `fact_path`, `expected_facts`     ↔ `factPath`, `expectedFacts`, one turn of its loop `expectFact`
     `validate_approved_mechanism`     ↔ `validateApprovedMechanism`
     `ExecutionCertificate`            ↔ `ExecutionCertificate`, its `as_dict` `.dict`
     `InstitutionalRuntime.evaluate`   ↔ `evaluate`
     `InstitutionalRuntime.execute_events` ↔ `executeEvents` -/
namespace Edon.Runtime
open Json

def runtimeError (message : String) : PyError := ⟨.runtimeExecutionError, message⟩

inductive SemanticState where
  | isTrue | isFalse | unknown | missing | contested | invalid
  deriving DecidableEq, Repr

def SemanticState.value : SemanticState → String
  | .isTrue => "TRUE"
  | .isFalse => "FALSE"
  | .unknown => "UNKNOWN"
  | .missing => "MISSING"
  | .contested => "CONTESTED"
  | .invalid => "INVALID"

inductive Decision where
  | allow | deny | abstain | contested | invalid
  deriving DecidableEq, Repr

def Decision.value : Decision → String
  | .allow => "ALLOW"
  | .deny => "DENY"
  | .abstain => "ABSTAIN"
  | .contested => "CONTESTED"
  | .invalid => "INVALID"

/-- The Python runtime, with `int` of a text. -/
structure Engine extends Python where
  parseInt : String → Option Int

section
variable (eng : Engine)

/-- `int(value)`. -/
def toInt : Json → Except PyError Int
  | .bool b => .ok (if b then 1 else 0)
  | .int n => .ok n
  | .float q => .ok (q.num.tdiv q.den)
  | .str s => orRaise ⟨.valueError, "invalid literal for int() with base 10"⟩ (eng.parseInt s)
  | v => .error ⟨.typeError, "int() argument must be a string, a bytes-like object or a real " ++
      "number, not '" ++ typeName v ++ "'"⟩

/-- `len(value)`. -/
def length : Json → Except PyError Nat
  | .str s => .ok s.length
  | .arr xs => .ok xs.length
  | .obj kvs => .ok kvs.length
  | v => .error ⟨.typeError, "object of type '" ++ typeName v ++ "' has no len()"⟩

/-! ## Expected facts -/

def factPath (fact : List (String × Json)) : Except PyError String := do
  let subject ← orRaise (keyError "subject") (Assoc.find fact "subject")
  let predicate ← orRaise (keyError "predicate") (Assoc.find fact "predicate")
  return pyStr eng.toPython subject ++ "." ++ pyStr eng.toPython predicate

def unresolved : PyError := runtimeError "approved mechanism contains an unresolved fact"

/-- The value of a fact: a dictionary with a value that is not null. -/
def resolvedFact : Json → Except PyError (List (String × Json) × Json)
  | .obj fact =>
    let value := (Assoc.find fact "selected_value").getD .null
    if value = .null then .error unresolved else .ok (fact, value)
  | _ => .error unresolved

/-- The path of a fact, with its value. -/
def factEntry (fact : Json) : Except PyError (String × Json) := do
  let resolved ← resolvedFact fact
  let path ← factPath eng resolved.1
  return (path, resolved.2)

def expectFact (expected : Dict String Json) (fact : Json) : Except PyError (Dict String Json) := do
  let entry ← factEntry eng fact
  require ((expected.get entry.1).all fun value => pyEq value entry.2)
    (runtimeError ("approved mechanism contains contradictory fact: " ++ entry.1))
  return expected.set entry.1 entry.2

/-- A list of facts that is not empty. -/
def factList : Json → Except PyError (List Json)
  | .arr (fact :: facts) => .ok (fact :: facts)
  | _ => .error (runtimeError "approved mechanism contains no executable facts")

def expectedFacts (mechanism : Json) : Except PyError (Dict String Json) := do
  let facts ← dictGet mechanism "facts" .null
  let facts ← factList facts
  facts.foldlM (expectFact eng) ∅

/-! ## Checks of a mechanism -/

structure MechanismChecks where
  approvedTrue : Bool
  bindingAuthorityFalse : Bool
  sourceReferencesPresent : Bool
  factsPresent : Bool
  conflictsResolved : Bool
  factsConsistent : Bool
  deriving DecidableEq, Repr

def MechanismChecks.entries (c : MechanismChecks) : List (String × Bool) :=
  [("approved_true", c.approvedTrue), ("binding_authority_false", c.bindingAuthorityFalse),
    ("source_references_present", c.sourceReferencesPresent), ("facts_present", c.factsPresent),
    ("conflicts_resolved", c.conflictsResolved), ("facts_consistent", c.factsConsistent)]

/-- `all(checks.values())`. -/
def MechanismChecks.all (c : MechanismChecks) : Bool := c.entries.all Prod.snd

/-- `str(checks)`. -/
def MechanismChecks.text (c : MechanismChecks) : String :=
  "\x7b" ++ ", ".intercalate (c.entries.map fun e =>
    "'" ++ e.1 ++ "': " ++ (if e.2 then "True" else "False")) ++ "\x7d"

/-- Whether `expected_facts` returns; an exception other than its own passes through. -/
def factsConsistent (mechanism : Json) : Except PyError Bool :=
  match expectedFacts eng mechanism with
  | .ok _ => .ok true
  | .error e => if e.cls = .runtimeExecutionError then .ok false else .error e

/-- The last check: of facts that are present. -/
def consistencyOf (mechanism facts : Json) : Except PyError Bool :=
  if truthy facts then factsConsistent eng mechanism else .ok false

def conflictsResolved (conflictCount : Int) (resolved : Json) : Except PyError Bool :=
  if conflictCount = 0 then .ok true
  else do
    let count ← length resolved
    return decide (conflictCount ≤ count)

def validateApprovedMechanism (mechanism : Json) : Except PyError MechanismChecks := do
  let metadata ← dictGet mechanism "metadata" (.obj [])
  let count ← dictGet metadata "conflict_count" (.int 0)
  let conflictCount ← toInt eng count
  let resolved ← dictGet metadata "resolved_conflicts" (.obj [])
  let approved ← dictGet mechanism "approved" .null
  let binding ← dictGet mechanism "binding_authority" .null
  let references ← dictGet mechanism "source_references" .null
  let facts ← dictGet mechanism "facts" .null
  let conflictsResolved ← conflictsResolved conflictCount resolved
  let factsConsistent ← consistencyOf eng mechanism facts
  return {
    approvedTrue := approved = .bool true
    bindingAuthorityFalse := binding = .bool false
    sourceReferencesPresent := truthy references
    factsPresent := truthy facts
    conflictsResolved, factsConsistent }

/-- The check that every run of a mechanism starts with. -/
def requireValid (mechanism : Json) : Except PyError Unit := do
  let checks ← validateApprovedMechanism eng mechanism
  require checks.all (runtimeError ("mechanism failed runtime validation: " ++ checks.text))

/-! ## Evaluation -/

/-- What a state shows of a condition. -/
inductive Status where
  | missing
  | mismatch (observed : Json)
  | satisfied
  deriving DecidableEq

def statusOf (observed : List (String × Json)) (path : String) (expected : Json) : Status :=
  match Assoc.find observed path with
  | none => .missing
  | some value => if pyEq value expected then .satisfied else .mismatch value

def traceRow (path : String) (expected : Json) : Status → Json
  | .missing => .obj [("path", .str path), ("status", .str "MISSING"), ("expected", expected)]
  | .mismatch observed => .obj [("path", .str path), ("status", .str "MISMATCH"),
      ("expected", expected), ("observed", observed)]
  | .satisfied => .obj [("path", .str path), ("status", .str "SATISFIED"), ("expected", expected)]

structure ExecutionCertificate where
  mechanismId : String
  mechanismVersion : String
  semanticState : SemanticState
  decision : Decision
  failedConditions : List String
  evaluatedConditions : Nat
  finalStateSha256 : String
  trace : List Json

def ExecutionCertificate.dict (c : ExecutionCertificate) : Json :=
  .obj [("mechanism_id", .str c.mechanismId), ("mechanism_version", .str c.mechanismVersion),
    ("semantic_state", .str c.semanticState.value), ("decision", .str c.decision.value),
    ("failed_conditions", .arr (c.failedConditions.map .str)),
    ("evaluated_conditions", .int c.evaluatedConditions),
    ("final_state_sha256", .str c.finalStateSha256), ("trace", .arr c.trace),
    ("binding_authority", .bool false)]

/-- The `facts` of a state. -/
def factsObject (e : PyError) : Json → Except PyError (List (String × Json))
  | .obj facts => .ok facts
  | _ => .error e

def missingConditions (observed : List (String × Json)) (expected : Dict String Json) :
    List String :=
  (expected.entries.filter fun e => statusOf observed e.1 e.2 = .missing).map
    fun e => "MISSING:" ++ e.1

def mismatchedConditions (observed : List (String × Json)) (expected : Dict String Json) :
    List String :=
  (expected.entries.filter fun e =>
    statusOf observed e.1 e.2 ≠ .missing && statusOf observed e.1 e.2 ≠ .satisfied).map
    fun e => "MISMATCH:" ++ e.1

/-- The semantic state, the decision and the failed conditions. -/
def outcomeOf (missing mismatched : List String) : SemanticState × Decision × List String :=
  if missing ≠ [] then (.missing, .abstain, missing ++ mismatched)
  else if mismatched ≠ [] then (.isFalse, .deny, mismatched)
  else (.isTrue, .allow, [])

def evaluate (mechanism state : Json) : Except PyError ExecutionCertificate := do
  requireValid eng mechanism
  let facts ← dictGet state "facts" .null
  let observed ← factsObject (runtimeError "runtime state must contain a facts object") facts
  let expected ← expectedFacts eng mechanism
  let outcome := outcomeOf (missingConditions observed expected)
    (mismatchedConditions observed expected)
  let mechanismId ← dictIndex mechanism "mechanism_id"
  let version ← dictIndex mechanism "version"
  return {
    mechanismId := pyStr eng.toPython mechanismId
    mechanismVersion := pyStr eng.toPython version
    semanticState := outcome.1
    decision := outcome.2.1
    failedConditions := outcome.2.2
    evaluatedConditions := expected.keys.length
    finalStateSha256 := sha256Json eng.sha256 state
    trace := expected.entries.map fun e => traceRow e.1 e.2 (statusOf observed e.1 e.2) }

/-! ## Events -/

inductive Action where
  | set | delete
  deriving DecidableEq, Repr

def Action.value : Action → String
  | .set => "SET"
  | .delete => "DELETE"

/-- An event with its `sequence` and `priority` as integers; `fields` is the whole dictionary. -/
structure Event where
  eventId : String
  action : Action
  sequence : Int
  priority : Int
  fields : List (String × Json)

/-- What the events are sorted by. -/
def Event.key (e : Event) : Int ×ₗ Int ×ₗ String := toLex (e.sequence, toLex (-e.priority, e.eventId))

/-- `action not in {"SET", "DELETE"}`: a list or a dictionary cannot be looked for in a set. -/
def actionOf (index : Nat) : Json → Except PyError Action
  | .arr _ => .error ⟨.typeError, "unhashable type: 'list'"⟩
  | .obj _ => .error ⟨.typeError, "unhashable type: 'dict'"⟩
  | .str "SET" => .ok .set
  | .str "DELETE" => .ok .delete
  | _ => .error (runtimeError ("unsupported event action at index " ++ toString index))

def normalizeEvent (seen : List String) (index : Nat) (event : Json) : Except PyError Event := do
  let id ← dictGet event "event_id" (.str "")
  let eventId := pyStr eng.toPython id
  require (eventId ≠ "" ∧ eventId ∉ seen)
    (runtimeError "events require unique non-empty event_id values")
  let action ← dictGet event "action" .null
  let action ← actionOf index action
  let fields ← dictOf event
  let sequence ← toInt eng ((Assoc.find fields "sequence").getD (.int index))
  let priority ← toInt eng ((Assoc.find fields "priority").getD (.int 0))
  return {
    eventId, action, sequence, priority
    fields := Assoc.put (Assoc.put fields "sequence" (.int sequence)) "priority" (.int priority) }

/-- The loop over the events, from an index on, with the ids seen before. -/
def normalizeEvents (seen : List String) (index : Nat) : List Json → Except PyError (List Event)
  | [] => .ok []
  | event :: events => do
    let row ← normalizeEvent eng seen index event
    let rows ← normalizeEvents (row.eventId :: seen) (index + 1) events
    return row :: rows

def orderEvents (events : List Event) : List Event :=
  events.insertionSort fun a b => a.key ≤ b.key

def missingText : Json := .str "__MISSING__"

/-- What an event leaves of the facts. -/
def Event.apply (e : Event) (path : String) (facts : List (String × Json)) :
    List (String × Json) :=
  match e.action with
  | .set => Assoc.put facts path ((Assoc.find e.fields "value").getD .null)
  | .delete => Assoc.remove facts path

def Event.path (e : Event) : Except PyError String := do
  let path := pyStr eng.toPython ((Assoc.find e.fields "path").getD (.str ""))
  require (path ≠ "") (runtimeError "event path is required")
  return path

def Event.traceRow (e : Event) (path : String) (before after : List (String × Json)) : Json :=
  .obj [("event_id", (Assoc.find e.fields "event_id").getD (.str "")),
    ("sequence", .int e.sequence), ("priority", .int e.priority), ("action", .str e.action.value),
    ("path", .str path), ("before", (Assoc.find before path).getD missingText),
    ("after", (Assoc.find after path).getD missingText)]

/-- The facts after the events, with the trace. -/
def applyEvents : List Event → List (String × Json) →
    Except PyError (List (String × Json) × List Json)
  | [], facts => .ok (facts, [])
  | e :: events, facts => do
    let path ← e.path eng
    let after := e.apply path facts
    let rest ← applyEvents events after
    return (rest.1, e.traceRow path facts after :: rest.2)

structure EventExecution where
  mechanismId : Json
  mechanismVersion : Json
  initialStateSha256 : String
  eventsSha256 : String
  eventTrace : List Json
  finalState : Json
  certificate : ExecutionCertificate

def executeEvents (mechanism initialState : Json) (events : List Json) :
    Except PyError EventExecution := do
  requireValid eng mechanism
  let facts ← dictGet initialState "facts" .null
  let facts ← factsObject (runtimeError "initial state must contain a facts object") facts
  let normalized ← normalizeEvents eng [] 0 events
  let ordered := orderEvents normalized
  let applied ← applyEvents eng ordered facts
  let state ← dictOf initialState
  let finalState := Json.obj (Assoc.put state "facts" (.obj applied.1))
  let certificate ← evaluate eng mechanism finalState
  let mechanismId ← dictIndex mechanism "mechanism_id"
  let version ← dictIndex mechanism "version"
  return {
    mechanismId
    mechanismVersion := version
    initialStateSha256 := sha256Json eng.sha256 initialState
    eventsSha256 := sha256Json eng.sha256 (.arr (ordered.map fun e => .obj e.fields))
    eventTrace := applied.2
    finalState, certificate }

end

/-! ## What the expected facts are -/

section
variable {eng : Engine} {mechanism : Json}

/-- An entry agrees with what is expected so far. -/
def Agrees (expected : Dict String Json) (entry : String × Json) : Prop :=
  ∀ value, expected.get entry.1 = some value → pyEq value entry.2 = true

theorem resolvedFact_ok {fact : Json} {resolved : List (String × Json) × Json}
    (h : resolvedFact fact = .ok resolved) : fact = .obj resolved.1 := by
  unfold resolvedFact at h
  split at h
  · dsimp only at h
    split at h
    · cases h
    · cases h
      rfl
  · cases h

theorem expectFact_ok {expected after : Dict String Json} {fact : Json} :
    expectFact eng expected fact = .ok after ↔ ∃ entry, factEntry eng fact = .ok entry ∧
      Agrees expected entry ∧ after = expected.set entry.1 entry.2 := by
  have hagrees : ∀ entry : String × Json,
      ((expected.get entry.1).all fun value => pyEq value entry.2) = true ↔
        Agrees expected entry := by
    intro entry
    unfold Agrees
    cases expected.get entry.1 <;> simp
  constructor
  · intro h
    obtain ⟨entry, hentry, h⟩ := bind_ok.mp h
    obtain ⟨_, hcheck, h⟩ := bind_ok.mp h
    cases h
    exact ⟨entry, hentry, (hagrees entry).mp (require_ok.mp hcheck), rfl⟩
  · rintro ⟨entry, hentry, hcheck, rfl⟩
    exact bind_ok.mpr ⟨entry, hentry,
      bind_ok.mpr ⟨(), require_ok.mpr ((hagrees entry).mpr hcheck), rfl⟩⟩

/-- Entries of one path have equal values. -/
def Consistent (entries : List (String × Json)) : Prop :=
  entries.Pairwise fun e f => e.1 = f.1 → pyEq e.2 f.2 = true

theorem foldlM_expectFact {facts : List Json} {expected after : Dict String Json} :
    facts.foldlM (expectFact eng) expected = .ok after ↔ ∃ entries,
      facts.mapM (factEntry eng) = .ok entries ∧ (∀ e ∈ entries, Agrees expected e) ∧
      Consistent entries ∧ after = entries.foldl (fun d e => d.set e.1 e.2) expected := by
  induction facts generalizing expected with
  | nil =>
    constructor
    · intro h
      cases h
      exact ⟨[], rfl, fun e he => absurd he List.not_mem_nil, .nil, rfl⟩
    · rintro ⟨entries, h, -, -, rfl⟩
      cases h
      rfl
  | cons fact facts ih =>
    rw [List.foldlM_cons]
    constructor
    · intro h
      obtain ⟨next, hnext, h⟩ := bind_ok.mp h
      obtain ⟨entry, hentry, hagrees, rfl⟩ := expectFact_ok.mp hnext
      obtain ⟨entries, hentries, hrest, hconsistent, rfl⟩ := ih.mp h
      have hhead : ∀ e ∈ entries, entry.1 = e.1 → pyEq entry.2 e.2 = true := fun e he hpath =>
        hrest e he entry.2 (by rw [← hpath, Dict.get_set_self])
      refine ⟨entry :: entries, ?_, ?_, List.pairwise_cons.mpr ⟨hhead, hconsistent⟩, rfl⟩
      · rw [List.mapM_cons, hentry, hentries]
        rfl
      · intro e he value hvalue
        rcases List.mem_cons.mp he with rfl | he
        · exact hagrees value hvalue
        · by_cases hpath : entry.1 = e.1
          · exact pyEq_trans (hagrees value (hpath ▸ hvalue)) (hhead e he hpath)
          · exact hrest e he value (by rw [Dict.get_set_ne _ _ hpath, hvalue])
    · rintro ⟨entries, hentries, hagrees, hconsistent, rfl⟩
      rw [List.mapM_cons] at hentries
      obtain ⟨entry, hentry, hentries⟩ := bind_ok.mp hentries
      obtain ⟨rest, hrest, hentries⟩ := bind_ok.mp hentries
      cases hentries
      obtain ⟨hhead, htail⟩ := List.pairwise_cons.mp hconsistent
      refine bind_ok.mpr ⟨expected.set entry.1 entry.2,
        expectFact_ok.mpr ⟨entry, hentry, hagrees entry List.mem_cons_self, rfl⟩,
        ih.mpr ⟨rest, hrest, fun e he value hvalue => ?_, htail, rfl⟩⟩
      rw [Dict.get_set] at hvalue
      split at hvalue
      · next hpath =>
        cases hvalue
        exact hhead e he hpath
      · exact hagrees e (List.mem_cons_of_mem _ he) value hvalue

/-- **A mechanism has expected facts exactly when each fact has a value, and one path has one
value.** -/
theorem expectedFacts_ok {expected : Dict String Json} :
    expectedFacts eng mechanism = .ok expected ↔ ∃ facts entries,
      dictGet mechanism "facts" .null = .ok (.arr facts) ∧ facts ≠ [] ∧
      facts.mapM (factEntry eng) = .ok entries ∧ Consistent entries ∧
      expected = Dict.ofList entries := by
  have hlist : ∀ (v : Json) (facts : List Json),
      factList v = .ok facts ↔ v = .arr facts ∧ facts ≠ [] := by
    intro v facts
    cases v with
    | arr xs => cases xs <;> simp [factList]; grind
    | _ => simp [factList]
  constructor
  · intro h
    obtain ⟨value, hvalue, hrest⟩ := bind_ok.mp h
    obtain ⟨facts, hfacts, hfold⟩ := bind_ok.mp hrest
    obtain ⟨rfl, hne⟩ := (hlist _ _).mp hfacts
    obtain ⟨entries, hentries, -, hconsistent, hexpected⟩ := foldlM_expectFact.mp hfold
    exact ⟨facts, entries, hvalue, hne, hentries, hconsistent, hexpected⟩
  · rintro ⟨facts, entries, hvalue, hne, hentries, hconsistent, hexpected⟩
    refine bind_ok.mpr ⟨_, hvalue, bind_ok.mpr ⟨facts, (hlist _ _).mpr ⟨rfl, hne⟩, ?_⟩⟩
    refine foldlM_expectFact.mpr ⟨entries, hentries, fun e _ value hvalue => ?_, hconsistent,
      hexpected⟩
    rw [Dict.get_empty] at hvalue
    cases hvalue

/-- Where the facts can be read, `expected_facts` raises nothing but its own exception. -/
theorem foldlM_error {facts : List Json} {expected : Dict String Json} {e : PyError}
    (hread : ∀ fact ∈ facts, ∀ e, factEntry eng fact = .error e → e.cls = .runtimeExecutionError)
    (h : facts.foldlM (expectFact eng) expected = .error e) : e.cls = .runtimeExecutionError := by
  induction facts generalizing expected with
  | nil => cases h
  | cons fact facts ih =>
    rw [List.foldlM_cons] at h
    rcases Fallible.bind_error.mp h with hfact | ⟨next, _, hrest⟩
    · rcases Fallible.bind_error.mp hfact with hentry | ⟨entry, _, hcheck⟩
      · exact hread fact List.mem_cons_self e hentry
      · rcases Fallible.bind_error.mp hcheck with hcheck | ⟨_, _, hset⟩
        · unfold Fallible.require at hcheck
          split at hcheck
          · cases hcheck
          · cases hcheck
            rfl
        · cases hset
    · exact ih (fun fact hfact => hread fact (List.mem_cons_of_mem _ hfact)) hrest

theorem factsConsistent_iff {facts : List Json}
    (hfacts : dictGet mechanism "facts" .null = .ok (.arr facts))
    (hread : ∀ fact ∈ facts, ∀ e, factEntry eng fact = .error e → e.cls = .runtimeExecutionError) :
    ∃ b, factsConsistent eng mechanism = .ok b ∧
      (b = true ↔ ∃ expected, expectedFacts eng mechanism = .ok expected) := by
  unfold factsConsistent
  cases hexpected : expectedFacts eng mechanism with
  | ok expected => exact ⟨true, rfl, iff_of_true rfl ⟨expected, rfl⟩⟩
  | error e =>
    have hclass : e.cls = .runtimeExecutionError := by
      unfold expectedFacts at hexpected
      rw [hfacts] at hexpected
      rcases Fallible.bind_error.mp hexpected with hget | ⟨_, hget, hlist⟩
      · cases hget
      · cases hget
        rcases Fallible.bind_error.mp hlist with hlist | ⟨facts', hlist, hfold⟩
        · cases facts <;> cases hlist
          rfl
        · have heq : facts' = facts := by
            cases facts <;> cases hlist
            rfl
          exact foldlM_error (heq ▸ hread) hfold
    exact ⟨false, if_pos hclass, iff_of_false Bool.false_ne_true fun ⟨_, h⟩ => by cases h⟩

theorem requireValid_ok {u : Unit} : requireValid eng mechanism = .ok u ↔
    ∃ checks, validateApprovedMechanism eng mechanism = .ok checks ∧ checks.all = true := by
  constructor
  · intro h
    obtain ⟨checks, hchecks, h⟩ := bind_ok.mp h
    exact ⟨checks, hchecks, require_ok.mp h⟩
  · rintro ⟨checks, hchecks, hall⟩
    exact bind_ok.mpr ⟨checks, hchecks, require_ok.mpr hall⟩

theorem checks_all {c : MechanismChecks} : c.all = true ↔ c.approvedTrue = true ∧
    c.bindingAuthorityFalse = true ∧ c.sourceReferencesPresent = true ∧ c.factsPresent = true ∧
    c.conflictsResolved = true ∧ c.factsConsistent = true := by
  simp [MechanismChecks.all, MechanismChecks.entries]

/-- A mechanism that passes its checks has expected facts. -/
theorem expected_of_valid {checks : MechanismChecks}
    (h : validateApprovedMechanism eng mechanism = .ok checks) (hall : checks.all = true) :
    ∃ expected, expectedFacts eng mechanism = .ok expected := by
  obtain ⟨_, _, h⟩ := bind_ok.mp h
  obtain ⟨_, _, h⟩ := bind_ok.mp h
  obtain ⟨_, _, h⟩ := bind_ok.mp h
  obtain ⟨_, _, h⟩ := bind_ok.mp h
  obtain ⟨_, _, h⟩ := bind_ok.mp h
  obtain ⟨_, _, h⟩ := bind_ok.mp h
  obtain ⟨_, _, h⟩ := bind_ok.mp h
  obtain ⟨facts, _, h⟩ := bind_ok.mp h
  obtain ⟨_, _, h⟩ := bind_ok.mp h
  obtain ⟨consistent, hconsistent, h⟩ := bind_ok.mp h
  cases h
  have htrue : consistent = true := (checks_all.mp hall).2.2.2.2.2
  subst htrue
  unfold consistencyOf at hconsistent
  split at hconsistent
  · unfold factsConsistent at hconsistent
    split at hconsistent
    · next expected hexpected => exact ⟨expected, hexpected⟩
    · split at hconsistent <;> cases hconsistent
  · cases hconsistent

/-! ## The decision on a state -/

/-- What is observed of a condition. -/
def Observed (observed : List (String × Json)) (path : String) (expected : Json) : Prop :=
  ∃ value, Assoc.find observed path = some value ∧ pyEq value expected = true

theorem missingConditions_nil {observed : List (String × Json)} {expected : Dict String Json} :
    missingConditions observed expected = [] ↔
      ∀ path value, expected.get path = some value → (Assoc.find observed path).isSome = true := by
  unfold missingConditions
  rw [List.map_eq_nil_iff, List.filter_eq_nil_iff]
  have hstatus : ∀ e : String × Json, statusOf observed e.1 e.2 = .missing ↔
      Assoc.find observed e.1 = none := by
    intro e
    unfold statusOf
    cases Assoc.find observed e.1 with
    | none => simp
    | some value => simp only [reduceCtorEq, iff_false]; split <;> simp
  simp only [decide_eq_true_eq, hstatus, Option.isSome_iff_ne_none]
  constructor
  · intro h path value hget
    exact h (path, value) (Dict.mem_entries.mpr hget)
  · intro h e he
    exact h e.1 e.2 (Dict.mem_entries.mp he)

theorem mismatchedConditions_nil {observed : List (String × Json)} {expected : Dict String Json} :
    mismatchedConditions observed expected = [] ↔ ∀ path value, expected.get path = some value →
      (Assoc.find observed path).all (fun w => pyEq w value) = true := by
  unfold mismatchedConditions
  rw [List.map_eq_nil_iff, List.filter_eq_nil_iff]
  have hstatus : ∀ e : String × Json,
      ¬ ((statusOf observed e.1 e.2 ≠ .missing && statusOf observed e.1 e.2 ≠ .satisfied) = true) ↔
        (Assoc.find observed e.1).all (fun w => pyEq w e.2) = true := by
    intro e
    unfold statusOf
    cases Assoc.find observed e.1 with
    | none => simp
    | some value =>
      dsimp only
      by_cases heq : pyEq value e.2 = true
      · simp [heq]
      · simp [heq]
  constructor
  · intro h path value hget
    exact (hstatus (path, value)).mp (h (path, value) (Dict.mem_entries.mpr hget))
  · intro h e he
    exact (hstatus e).mpr (h e.1 e.2 (Dict.mem_entries.mp he))

theorem evaluate_ok {state : Json} {c : ExecutionCertificate}
    (h : evaluate eng mechanism state = .ok c) : ∃ observed expected,
      dictGet state "facts" .null = .ok (.obj observed) ∧
      expectedFacts eng mechanism = .ok expected ∧
      (c.semanticState, c.decision, c.failedConditions) =
        outcomeOf (missingConditions observed expected) (mismatchedConditions observed expected) := by
  obtain ⟨_, _, h⟩ := bind_ok.mp h
  obtain ⟨facts, hfacts, h⟩ := bind_ok.mp h
  obtain ⟨observed, hobserved, h⟩ := bind_ok.mp h
  obtain ⟨expected, hexpected, h⟩ := bind_ok.mp h
  obtain ⟨_, _, h⟩ := bind_ok.mp h
  obtain ⟨_, _, h⟩ := bind_ok.mp h
  cases h
  refine ⟨observed, expected, ?_, hexpected, rfl⟩
  cases facts with
  | obj kvs =>
    cases hobserved
    exact hfacts
  | _ => cases hobserved

/-- **An action is allowed exactly when every condition is observed with the expected value.** -/
theorem allow_iff {state : Json} {c : ExecutionCertificate} {observed : List (String × Json)}
    {expected : Dict String Json} (h : evaluate eng mechanism state = .ok c)
    (hfacts : dictGet state "facts" .null = .ok (.obj observed))
    (hexpected : expectedFacts eng mechanism = .ok expected) : c.decision = .allow ↔
      ∀ path value, expected.get path = some value → Observed observed path value := by
  obtain ⟨observed', expected', hfacts', hexpected', houtcome⟩ := evaluate_ok h
  cases hfacts.symm.trans hfacts'
  cases hexpected.symm.trans hexpected'
  have hdecision : c.decision = (outcomeOf (missingConditions observed expected)
      (mismatchedConditions observed expected)).2.1 := by rw [← houtcome]
  have hallow : ∀ missing mismatched : List String,
      (outcomeOf missing mismatched).2.1 = .allow ↔ missing = [] ∧ mismatched = [] := by
    intro missing mismatched
    cases missing <;> cases mismatched <;> simp [outcomeOf]
  rw [hdecision, hallow, missingConditions_nil, mismatchedConditions_nil]
  unfold Observed
  constructor
  · rintro ⟨hmissing, hmismatched⟩ path value hget
    obtain ⟨w, hw⟩ := Option.isSome_iff_exists.mp (hmissing path value hget)
    have hall := hmismatched path value hget
    rw [hw, Option.all_some] at hall
    exact ⟨w, hw, hall⟩
  · intro h
    constructor
    · intro path value hget
      obtain ⟨w, hw, _⟩ := h path value hget
      rw [hw]
      rfl
    · intro path value hget
      obtain ⟨w, hw, hsame⟩ := h path value hget
      rw [hw, Option.all_some, hsame]

end
end Edon.Runtime
