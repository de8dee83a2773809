import Mathlib
import EdonPlatform.Compiler.Reconciliation
import EdonPlatform.Qualification.Engine

/- The qualification of what the generator makes. A bundle of a mechanism that passes its checks is
   read back case by case: its ids and its inputs are all different, every case has its label, and
   the labels are the decisions of the runtime.

   What is proved:
     1. `unlabelled_public_iff` — the public cases have a forbidden key exactly where the mechanism
        has one in its id or in an expected value.
     2. `inspect_scenario` — what is found of a case of each scenario.
     3. `generated_qualifies_iff` — a bundle passes every check exactly when there is no such key
        and every expected value is changed by its mutation.

   The ids of the cases and the digests of the inputs and payloads of the bundle are assumed to be
   those of different texts. -/
namespace Edon.Qualification
open Json Edon.Runtime ActionNet

/-! ## Sets -/

/-- Different texts are the members of their set. -/
theorem members_texts {texts : List String} (h : texts.Nodup) :
    members (texts.map Json.str) = texts.map Json.str := by
  induction texts with
  | nil => rfl
  | cons text texts ih =>
    obtain ⟨hnot, hrest⟩ := List.nodup_cons.mp h
    have hnone : ¬ ((texts.map Json.str).any (pyEq (.str text))) = true := by
      intro hany
      obtain ⟨v, hv, hsame⟩ := List.any_eq_true.mp hany
      obtain ⟨other, hother, rfl⟩ := List.mem_map.mp hv
      cases pyEq_str.mp hsame
      exact hnot hother
    rw [List.map_cons, members, if_neg hnone, ih hrest]

/-- Inputs that are all different have one target each. -/
theorem conflictingInputs_nil {targets : List Target}
    (h : (targets.map Target.inputHash).Nodup) : conflictingInputs targets = [] := by
  unfold conflictingInputs
  rw [List.map_eq_nil_iff, List.filter_eq_nil_iff]
  rintro ⟨hash, group⟩ he
  have hitems := Grouping.items_of_get (Dict.mem_entries.mp he)
  have hone : (group.items.map Target.inputHash).length ≤ 1 := by
    have hsame : ∀ k ∈ group.items.map Target.inputHash, k = hash := by
      intro k hk
      obtain ⟨t, ht, rfl⟩ := List.mem_map.mp hk
      rw [hitems] at ht
      exact of_decide_eq_true (List.mem_filter.mp ht).2
    have hdistinct : (group.items.map Target.inputHash).Nodup := by
      rw [hitems]
      exact h.sublist (List.filter_sublist.map _)
    rw [List.eq_replicate_of_mem hsame] at hdistinct
    exact List.nodup_replicate.mp hdistinct
  have hlabels := sortedSet_length_le (group.items.map Target.label)
  rw [List.length_map] at hone hlabels
  have hle := hlabels.trans hone
  simpa using hle

/-! ## Keys -/

section
variable {folding : CaseFolding}

/-- A key that the scan lets through. -/
def Allowed (folding : CaseFolding) (key : String) : Prop :=
  folding.casefold key ∉ forbiddenPublicKeys

/-- No key of the value, at any depth, reads like a label. -/
def Unlabelled (folding : CaseFolding) (v : Json) : Prop :=
  (PyValue.ofJson v).Throughout (Passes (forbiddenTests folding))

theorem passes_iff {key : String} {child : PyValue} :
    Passes (forbiddenTests folding) key child ↔ Allowed folding key := by
  simp [Passes, forbiddenTests, Allowed]

theorem forbiddenPaths_nil {v : Json} : forbiddenPaths folding v = [] ↔ Unlabelled folding v :=
  scan_eq_nil _ _

theorem unlabelled_obj {kvs : List (String × Json)} : Unlabelled folding (.obj kvs) ↔
    ∀ e ∈ kvs, Allowed folding e.1 ∧ Unlabelled folding e.2 := by
  have hentries : PyValue.ofEntries kvs = kvs.map fun e => (e.1, PyValue.ofJson e.2) := by
    induction kvs with
    | nil => rfl
    | cons e kvs ih => rw [PyValue.ofEntries, ih, List.map_cons]
  unfold Unlabelled
  rw [PyValue.ofJson, PyValue.throughout_dict, hentries, List.forall_mem_map]
  simp only [passes_iff]

theorem unlabelled_arr {xs : List Json} :
    Unlabelled folding (.arr xs) ↔ ∀ x ∈ xs, Unlabelled folding x := by
  have hitems : PyValue.ofItems xs = xs.map PyValue.ofJson := by
    induction xs with
    | nil => rfl
    | cons x xs ih => rw [PyValue.ofItems, ih, List.map_cons]
  unfold Unlabelled
  rw [PyValue.ofJson, PyValue.throughout_list, hitems, List.forall_mem_map]

@[simp] theorem unlabelled_str (text : String) : Unlabelled folding (.str text) := by
  intro key child hw
  cases hw

@[simp] theorem unlabelled_int (n : Int) : Unlabelled folding (.int n) := by
  intro key child hw
  cases hw

@[simp] theorem unlabelled_float (q : Rat) : Unlabelled folding (.float q) := by
  intro key child hw
  cases hw

@[simp] theorem unlabelled_bool (b : Bool) : Unlabelled folding (.bool b) := by
  intro key child hw
  cases hw

/-- The keys that the generator writes itself. -/
def publicKeys : List String :=
  ["schema_version", "cases", "case_id", "observation", "query", "task_type",
    "institution_lineage", "source_lineage", "mechanism_id", "scenario_class", "state",
    "intervention_path", "pair_id", "base", "comparison", "initial_state", "events", "facts",
    "event_id", "sequence", "priority", "action", "path", "value", "mutated_from_sha256"]

theorem allowed_public : ∀ key ∈ publicKeys, Allowed folding key := by
  have hascii : (publicKeys.all fun key => key.toList.all fun c => decide (c.toNat < 128)) = true :=
    by decide
  have hpermitted : ∀ key ∈ publicKeys,
      String.ofList (key.toList.map Char.toLower) ∉ forbiddenPublicKeys := by decide +kernel
  intro key hkey
  have hlower := hpermitted key hkey
  have hchars : ∀ c ∈ key.toList, c.toNat < 128 := by
    intro c hc
    exact of_decide_eq_true (List.all_eq_true.mp (List.all_eq_true.mp hascii key hkey) c hc)
  have hfold : key.toList.flatMap folding.fold = key.toList.map Char.toLower := by
    rw [List.map_eq_flatMap]
    exact List.flatMap_congr fun c hc => folding.ascii c (hchars c hc)
  unfold Allowed CaseFolding.casefold
  rwa [hfold]

/-- A path is not a forbidden key: it has a dot in it. -/
theorem allowed_path {path : String} (hdot : '.' ∈ path.toList) : Allowed folding path := by
  have hnone : ∀ key ∈ forbiddenPublicKeys, '.' ∉ key.toList := by decide
  intro hmem
  refine hnone _ hmem ?_
  unfold CaseFolding.casefold
  rw [String.toList_ofList]
  refine List.mem_flatMap.mpr ⟨'.', hdot, ?_⟩
  rw [folding.ascii '.' (by decide)]
  exact List.mem_singleton_self _

/-- An entry the generator writes. -/
theorem unlabelled_fields {kvs : List (String × Json)}
    (hkeys : ∀ e ∈ kvs, e.1 ∈ publicKeys) (hvalues : ∀ e ∈ kvs, Unlabelled folding e.2) :
    Unlabelled folding (.obj kvs) :=
  unlabelled_obj.mpr fun e he => ⟨allowed_public e.1 (hkeys e he), hvalues e he⟩

variable {gen : Generator}

theorem unlabelled_mutated (v : Json) : Unlabelled folding (mutated gen v) := by
  have hdict : Unlabelled folding
      (.obj [("mutated_from_sha256", .str (sha256Json gen.sha256 v))]) :=
    unlabelled_fields (by simp [publicKeys]) (by simp)
  cases v <;> first | exact hdict | simp [mutated]

/-- A state whose facts have paths for keys. -/
theorem unlabelled_state {facts : List (String × Json)} : Unlabelled folding (stateOf facts) ↔
    ∀ e ∈ facts, Allowed folding e.1 ∧ Unlabelled folding e.2 := by
  unfold stateOf
  rw [unlabelled_obj, List.forall_mem_singleton, unlabelled_obj]
  exact and_iff_right (allowed_public "facts" (by decide))

theorem unlabelled_event {eventId path : String} {sequence priority : Int} {value : Json}
    (hvalue : Unlabelled folding value) :
    Unlabelled folding (setEvent eventId sequence priority path value) :=
  unlabelled_fields (by simp [publicKeys]) (by simp [hvalue])

/-! ## Observations -/

variable {o : Origin}

/-- Nothing that the observations show of the mechanism reads like a label. -/
structure Shown (folding : CaseFolding) (o : Origin) : Prop where
  mechanismId : Unlabelled folding o.mechanismId
  values : ∀ path value, o.expected.get path = some value → Unlabelled folding value

theorem unlabelled_facts (hdots : ∀ path value, o.expected.get path = some value →
    '.' ∈ path.toList) (hshown : Shown folding o) : ∀ e ∈ o.expected.entries,
      Allowed folding e.1 ∧ Unlabelled folding e.2 := fun e he =>
  have hget := Dict.mem_entries.mp he
  ⟨allowed_path (hdots e.1 e.2 hget), hshown.values e.1 e.2 hget⟩

theorem unlabelled_observation (hdots : ∀ path value, o.expected.get path = some value →
    '.' ∈ path.toList) (hshown : Shown folding o) {s : Scenario} (hs : s.About o.expected) :
    Unlabelled folding (.obj (o.observation gen s)) := by
  have hfacts := unlabelled_facts hdots hshown
  have hbase : Unlabelled folding o.baseState := unlabelled_state.mpr hfacts
  have hfailure : ∀ path value, o.expected.get path = some value →
      Unlabelled folding (o.failureState gen path value) := by
    intro path value hvalue
    refine unlabelled_state.mpr fun e he => ?_
    rcases Assoc.mem_put he with he | rfl
    · exact hfacts e he
    · exact ⟨allowed_path (hdots path value hvalue), unlabelled_mutated value⟩
  have hedge : ∀ path, Unlabelled folding (o.edgeState path) := fun path =>
    unlabelled_state.mpr fun e he => hfacts e (List.mem_filter.mp he).1
  have hid := hshown.mechanismId
  have hkeys : ∀ e ∈ o.observation gen s, e.1 ∈ publicKeys := by
    cases s <;> simp [Origin.observation, publicKeys]
  refine unlabelled_fields hkeys ?_
  cases s with
  | normal => simp [Origin.observation, hid, hbase]
  | failure path value => simp [Origin.observation, hid, hfailure path value hs]
  | edge path => simp [Origin.observation, hid, hedge path]
  | pair path value => simp [Origin.observation, hid, hbase, hfailure path value hs]
  | transition index path value =>
    simp [Origin.observation, hid, hbase, unlabelled_arr, Origin.invalidation,
      unlabelled_event (unlabelled_mutated value)]
  | queue path value =>
    simp [Origin.observation, hid, hedge path, unlabelled_arr, Origin.queueEvents,
      unlabelled_event (unlabelled_mutated value), unlabelled_event (hshown.values path value hs)]

section
variable {mechanism : Json} {seed : Int} {b : Bundle}

theorem dots (hb : Generated gen mechanism seed b) : ∀ path value,
    b.origin.expected.get path = some value → '.' ∈ path.toList :=
  fun _ _ hvalue => dot_mem_path hb.expected hvalue

/-- **The public cases of a bundle read like labels only where the mechanism does.** -/
theorem unlabelled_public_iff (hb : Generated gen mechanism seed b) :
    Unlabelled folding b.publicPayload ↔ Shown folding b.origin := by
  obtain ⟨first, rest, rows, hentries, hscenarios, hcases, _⟩ := hb.cases
  constructor
  · intro h
    have hlist : Unlabelled folding (.arr (b.cases.map fun e => e.1.dict)) :=
      (unlabelled_obj.mp h ("cases", _) (List.mem_cons_of_mem _ List.mem_cons_self)).2
    have hnormal : Scenario.normal ∈ rows.map Prod.fst := by
      rw [hscenarios]
      exact List.mem_cons_self
    obtain ⟨r, hr, hrow⟩ := List.mem_map.mp hnormal
    have hcase := unlabelled_arr.mp hlist (b.origin.publicCase gen .normal).dict (by
      rw [hcases, List.map_map]
      exact List.mem_map.mpr ⟨r, hr, by rw [Function.comp_apply, hrow]⟩)
    have hobservation : Unlabelled folding (.obj (b.origin.observation gen .normal)) :=
      (unlabelled_obj.mp hcase ("observation", _) (List.mem_cons_of_mem _ List.mem_cons_self)).2
    have hid := unlabelled_obj.mp hobservation ("mechanism_id", _) List.mem_cons_self
    have hstate := unlabelled_obj.mp hobservation ("state", b.origin.baseState)
      (by simp [Origin.observation])
    exact ⟨hid.2, fun path value hvalue =>
      (unlabelled_state.mp hstate.2 (path, value) (Dict.mem_entries.mpr hvalue)).2⟩
  · intro hshown
    refine unlabelled_fields (by simp [publicKeys]) ?_
    have hlist : Unlabelled folding (.arr (b.cases.map fun e => e.1.dict)) := by
      refine unlabelled_arr.mpr fun x hx => ?_
      rw [hcases, List.map_map] at hx
      obtain ⟨r, hr, rfl⟩ := List.mem_map.mp hx
      have habout : r.1.About b.origin.expected := about_of_mem hentries (by
        rw [← hscenarios]
        exact List.mem_map_of_mem hr)
      have hobservation : Unlabelled folding (.obj (b.origin.observation gen r.1)) :=
        unlabelled_observation (dots hb) hshown habout
      exact unlabelled_fields (by simp [publicKeys]) (by
        simp [Origin.publicCase, hobservation])
    simp [hlist]

/-! ## What is found of a case -/

/-- Python finds the mutated value equal to the value. -/
def Unchanged (gen : Generator) (value : Json) : Prop := pyEq (mutated gen value) value = true

def inputText (c : PublicCase) : String :=
  canonicalJson (.obj [("observation", .obj c.observation), ("query", .str c.query),
    ("task_type", .str c.taskType)])

def targetOf (gen : Generator) (c : PublicCase) (label : Json) : Target where
  inputHash := "sha256:" ++ gen.sha256 (inputText c)
  label := canonicalJson label

theorem value_allow {d : Decision} : d.value = "ALLOW" ↔ d = .allow := by
  cases d <;> simp [Decision.value]

theorem oracleDecision_certificate (c : ExecutionCertificate) {fields : List (String × Json)}
    (h : c.dict = .obj fields) : oracleDecision fields = some c.decision.value := by
  cases h
  rfl

/-- A case whose label is found. -/
theorem inspect_label {labels : List (String × Json)} {c : PublicCase} {label : Json}
    {fields : List (String × Json)} {scenarioClass : String}
    (hlabel : Assoc.find labels c.caseId = some label) (hfields : label = .obj fields)
    (hclass : Assoc.find c.observation "scenario_class" = some (.str scenarioClass)) :
    inspect gen.toEngine (.obj labels) c.dict = .ok (.labelled c.caseId (targetOf gen c label)
      (decide (Json.str scenarioClass = .str "FAILURE" ∨ Json.str scenarioClass = .str "EDGE") &&
        decide (oracleDecision fields = some "ALLOW"))
      (if Json.str c.taskType = .str "PAIR_CONTRAST" ∧
          Assoc.find fields "decision_changed" = some (.bool true)
        then some (pyStr gen.toPython ((Assoc.find fields "causal_path").getD .null))
        else none)) := by
  subst hfields
  refine bind_ok.mpr ⟨_, rfl, bind_ok.mpr ⟨some (.obj fields), ?_, bind_ok.mpr ⟨_, rfl,
    bind_ok.mpr ⟨_, rfl, bind_ok.mpr ⟨_, rfl, bind_ok.mpr ⟨_, rfl,
    bind_ok.mpr ⟨.str scenarioClass, ?_, rfl⟩⟩⟩⟩⟩⟩⟩
  · exact congrArg Except.ok hlabel
  · show Except.ok ((Assoc.find c.observation "scenario_class").getD .null) = _
    rw [hclass]
    rfl

/-- An action is wrongly allowed only in a failure whose fact is unchanged. -/
def unsafeAllow (gen : Generator) : Scenario → Bool
  | .failure _ value => pyEq (mutated gen value) value
  | _ => false

/-- A pair is pivotal unless its fact is unchanged. -/
def pivotalPath (gen : Generator) : Scenario → Option String
  | .pair path value => if pyEq (mutated gen value) value = false then some path else none
  | _ => none

/-- What is found of a case of the generator. -/
def findingOf (gen : Generator) (o : Origin) (r : Scenario × Json) : Finding :=
  .labelled (o.caseId gen r.1) (targetOf gen (o.publicCase gen r.1) r.2) (unsafeAllow gen r.1)
    (pivotalPath gen r.1)

theorem inspect_scenario {o : Origin} (hexpected : expectedFacts gen.toEngine o.mechanism =
      .ok o.expected) {s : Scenario} (habout : s.About o.expected) {label : Json}
    (hlabel : o.label gen s = .ok label) {labels : List (String × Json)}
    (hget : Assoc.find labels (o.caseId gen s) = some label) :
    inspect gen.toEngine (.obj labels) (o.publicCase gen s).dict =
      .ok (findingOf gen o (s, label)) := by
  cases s with
  | normal =>
    obtain ⟨c, _, heq⟩ := bind_ok.mp hlabel
    cases heq
    exact (inspect_label hget rfl rfl).trans rfl
  | failure path value =>
    obtain ⟨c, hc, heq⟩ := bind_ok.mp hlabel
    cases heq
    have hallow : decide (some c.decision.value = some "ALLOW") = pyEq (mutated gen value) value :=
      Bool.eq_iff_iff.mpr (decide_eq_true_iff.trans (Option.some_inj.trans (value_allow.trans
        (decision_failure hexpected habout hc))))
    refine (inspect_label hget rfl rfl).trans ?_
    rw [oracleDecision_certificate c rfl, hallow]
    rfl
  | edge path =>
    obtain ⟨c, hc, heq⟩ := bind_ok.mp hlabel
    cases heq
    obtain ⟨value, hvalue⟩ := habout
    have hnot : decide (some c.decision.value = some "ALLOW") = false :=
      decide_eq_false fun h => decision_edge hexpected hvalue hc (value_allow.mp (Option.some.inj h))
    refine (inspect_label hget rfl rfl).trans ?_
    rw [oracleDecision_certificate c rfl, hnot, Bool.and_false]
    rfl
  | pair path value =>
    obtain ⟨base, hbase, hlabel⟩ := bind_ok.mp hlabel
    obtain ⟨comparison, hcomparison, heq⟩ := bind_ok.mp hlabel
    cases heq
    have hchanged : base.decision.value ≠ comparison.decision.value ↔
        pyEq (mutated gen value) value = false := by
      rw [decision_normal hexpected hbase, ← Bool.not_eq_true]
      exact not_congr (eq_comm.trans (value_allow.trans
        (decision_failure hexpected habout hcomparison)))
    have htask : (Json.str (o.publicCase gen (.pair path value)).taskType = .str "PAIR_CONTRAST" ∧
        some (Json.bool (base.decision.value ≠ comparison.decision.value)) =
          some (.bool true)) ↔ pyEq (mutated gen value) value = false := by
      rw [← hchanged]
      simp [Origin.publicCase, Scenario.taskType]
    refine (inspect_label hget rfl rfl).trans ?_
    exact congrArg (fun path => Except.ok (Finding.labelled _ _ false path))
      (if_congr htask rfl rfl)
  | transition index path value =>
    obtain ⟨r, _, heq⟩ := bind_ok.mp hlabel
    cases heq
    exact (inspect_label hget rfl rfl).trans rfl
  | queue path value =>
    obtain ⟨r, _, heq⟩ := bind_ok.mp hlabel
    cases heq
    exact (inspect_label hget rfl rfl).trans rfl

end

/-! ## The checks of a bundle -/

section
variable {mechanism : Json} {seed : Int} {b : Bundle}

/-- The texts that the ids of the cases are digests of. -/
def idTexts (o : Origin) : List String :=
  (.normal :: o.expected.entries.zipIdx.flatMap factScenarios ++
    (o.expected.entries.take 1).map fun e => Scenario.queue e.1 e.2).map o.idText

/-- The texts of the inputs and of the two payloads. -/
def hashedTexts (b : Bundle) : List String :=
  canonicalJson b.publicPayload :: canonicalJson b.protectedPayload ::
    b.cases.map fun e => inputText e.1

/-- The rows of a bundle: its scenarios, each with its label. -/
structure Rows (gen : Generator) (b : Bundle) (first : String × Json)
    (rest : List (String × Json)) (rows : List (Scenario × Json)) : Prop where
  entries : b.origin.expected.entries = first :: rest
  scenarios : rows.map Prod.fst = b.origin.scenarios (.queue first.1 first.2)
  cases : b.cases = rows.map fun r => (b.origin.publicCase gen r.1, r.2)
  labels : ∀ r ∈ rows, b.origin.label gen r.1 = .ok r.2

variable {first : String × Json} {rest : List (String × Json)} {rows : List (Scenario × Json)}

theorem Rows.about (h : Rows gen b first rest rows) :
    ∀ r ∈ rows, r.1.About b.origin.expected := fun _ hr =>
  about_of_mem h.entries (h.scenarios ▸ List.mem_map_of_mem hr)

theorem Rows.nodup {α : Type} (h : Rows gen b first rest rows) {f : Scenario → α}
    (hf : ∀ s ∈ rows.map Prod.fst, ∀ s' ∈ rows.map Prod.fst, f s = f s' → s.key = s'.key) :
    (rows.map fun r => f r.1).Nodup := by
  have hkeys : (rows.map Prod.fst).Pairwise fun s s' => s.key ≠ s'.key := by
    rw [h.scenarios]
    exact List.pairwise_map.mp (nodup_scenarios first)
  have hmap : (rows.map fun r => f r.1) = (rows.map Prod.fst).map f := by
    rw [List.map_map]
    rfl
  rw [hmap]
  refine List.pairwise_map.mpr (hkeys.imp_of_mem fun {s s'} hs hs' hne heq => ?_)
  exact hne (hf s hs s' hs' heq)

theorem Rows.caseIds (h : Rows gen b first rest rows)
    (hids : CollisionFree (shortDigest gen.toPython) (idTexts b.origin)) :
    (rows.map fun r => b.origin.caseId gen r.1).Nodup := by
  have htexts : idTexts b.origin = (rows.map Prod.fst).map b.origin.idText := by
    unfold idTexts
    rw [h.scenarios, Origin.scenarios, h.entries]
    rfl
  rw [htexts] at hids
  refine h.nodup fun s hs s' hs' heq => ?_
  have hdigest := String.ofList_injective ((String.append_right_inj _).mp heq)
  exact key_of_idText (hids _ (List.mem_map_of_mem hs) _ (List.mem_map_of_mem hs') hdigest)

theorem Rows.inputs (h : Rows gen b first rest rows)
    (hsha : CollisionFree gen.sha256 (hashedTexts b)) :
    (rows.map fun r => (targetOf gen (b.origin.publicCase gen r.1) r.2).inputHash).Nodup := by
  have hmem : ∀ s ∈ rows.map Prod.fst, inputText (b.origin.publicCase gen s) ∈ hashedTexts b := by
    intro s hs
    obtain ⟨r, hr, rfl⟩ := List.mem_map.mp hs
    refine List.mem_cons_of_mem _ (List.mem_cons_of_mem _ ?_)
    rw [h.cases, List.map_map]
    exact List.mem_map.mpr ⟨r, hr, rfl⟩
  refine h.nodup (f := fun s => "sha256:" ++ gen.sha256 (inputText (b.origin.publicCase gen s)))
    fun s hs s' hs' heq => ?_
  have htexts := hsha _ (hmem s hs) _ (hmem s' hs') ((String.append_right_inj _).mp heq)
  have hfields := same_obj_iff.mp (canonicalJson_injective.mp htexts)
  exact key_of_observation (Option.some.inj (hfields "observation"))

theorem Rows.labelOf (h : Rows gen b first rest rows)
    (hids : (rows.map fun r => b.origin.caseId gen r.1).Nodup) {r : Scenario × Json}
    (hr : r ∈ rows) : Assoc.find b.labels.entries (b.origin.caseId gen r.1) = some r.2 := by
  have hkeys : (b.cases.map fun e => (e.1.caseId, e.2)) =
      rows.map fun r => (b.origin.caseId gen r.1, r.2) := by
    rw [h.cases, List.map_map]
    rfl
  show b.labels.get _ = _
  unfold Bundle.labels
  rw [hkeys, Dict.get_ofList_of_nodup]
  · refine Assoc.find_of_mem_nodup ?_ (List.mem_map.mpr ⟨r, hr, rfl⟩)
    rwa [List.map_map]
  · rwa [List.map_map]

/-- The paths that qualification expects are those of the expected facts. -/
theorem expectedPaths_ok {expected : Dict String Json}
    (h : expectedFacts gen.toEngine mechanism = .ok expected) : ∃ facts paths,
      dictGet mechanism "facts" (.arr []) = .ok (.arr facts) ∧
      facts.mapM (expectedPath gen.toEngine) = .ok paths ∧
      ∀ path, path ∈ paths ↔ path ∈ expected.keys := by
  obtain ⟨facts, entries, hfacts, _, hentries, _, rfl⟩ := expectedFacts_ok.mp h
  refine ⟨facts, entries.map Prod.fst, ?_, ?_, fun path => ?_⟩
  · exact dictGet_default hfacts nofun _
  · refine Fallible.mapM_of_forall₂ ?_
    rw [List.forall₂_map_right_iff]
    refine (Fallible.forall₂_of_mapM hentries).imp fun fact entry hentry => ?_
    obtain ⟨resolved, hresolved, hentry⟩ := bind_ok.mp hentry
    obtain ⟨path, hpath, hentry⟩ := bind_ok.mp hentry
    cases hentry
    rw [resolvedFact_ok hresolved]
    exact hpath
  · rw [Dict.mem_keys]
    constructor
    · exact Dict.isSome_get_ofList
    · intro hsome
      obtain ⟨value, hvalue⟩ := Option.isSome_iff_exists.mp hsome
      exact List.mem_map.mpr ⟨_, Dict.mem_of_get_ofList hvalue, rfl⟩

/-- The payloads of a bundle are different documents. -/
theorem payloads_differ (b : Bundle) :
    canonicalJson b.publicPayload ≠ canonicalJson b.protectedPayload := by
  intro h
  have hfields := same_obj_iff.mp (canonicalJson_injective.mp h)
  exact absurd (Json.str.inj (Option.some.inj (hfields "schema_version"))) (by decide)

/-- Every fact has the cases of its scenarios. -/
theorem Rows.of_fact (h : Rows gen b first rest rows) {path : String} {value : Json}
    (hvalue : b.origin.expected.get path = some value) : ∃ index,
      ∀ s ∈ factScenarios ((path, value), index), ∃ r ∈ rows, r.1 = s := by
  obtain ⟨index, hlt, hat⟩ := List.mem_iff_getElem.mp (Dict.mem_entries.mpr hvalue)
  have hindex : ((path, value), index) ∈ b.origin.expected.entries.zipIdx :=
    List.mk_mem_zipIdx_iff_getElem?.mpr (List.getElem?_eq_some_iff.mpr ⟨hlt, hat⟩)
  refine ⟨index, fun s hs => ?_⟩
  have hmem : s ∈ rows.map Prod.fst := by
    rw [h.scenarios]
    exact List.mem_append_left _ (List.mem_cons_of_mem _ (List.mem_flatMap.mpr ⟨_, hindex, hs⟩))
  obtain ⟨r, hr, heq⟩ := List.mem_map.mp hmem
  exact ⟨r, hr, heq⟩

/-- Every expected fact is changed by its mutation. -/
def Mutable (gen : Generator) (o : Origin) : Prop :=
  ∀ path value, o.expected.get path = some value → pyEq (mutated gen value) value = false

theorem Rows.unsafe_nil (h : Rows gen b first rest rows) :
    (rows.map (findingOf gen b.origin)).filterMap Finding.unsafe? = [] ↔ Mutable gen b.origin := by
  rw [List.filterMap_eq_nil_iff, List.forall_mem_map]
  have hrow : ∀ r : Scenario × Json, (findingOf gen b.origin r).unsafe? = none ↔
      unsafeAllow gen r.1 = false := by
    intro r
    unfold findingOf
    cases unsafeAllow gen r.1 <;> simp [Finding.unsafe?]
  simp only [hrow]
  constructor
  · intro hall path value hvalue
    obtain ⟨index, hrows⟩ := h.of_fact hvalue
    obtain ⟨r, hr, heq⟩ := hrows (.failure path value) List.mem_cons_self
    have hsafe := hall r hr
    rwa [heq] at hsafe
  · intro hmutable r hr
    have habout := h.about r hr
    cases hs : r.1 with
    | failure path value =>
      rw [hs] at habout
      exact hmutable path value habout
    | _ => rfl

theorem Rows.pivotal (h : Rows gen b first rest rows) :
    (∀ path ∈ b.origin.expected.keys,
      path ∈ (rows.map (findingOf gen b.origin)).filterMap Finding.pairPath?) ↔
      Mutable gen b.origin := by
  constructor
  · intro hall path value hvalue
    obtain ⟨f, hf, hpath⟩ := List.mem_filterMap.mp
      (hall path (Dict.mem_keys.mpr (by rw [hvalue]; rfl)))
    obtain ⟨r, hr, rfl⟩ := List.mem_map.mp hf
    have habout := h.about r hr
    replace hpath : pivotalPath gen r.1 = some path := hpath
    cases hs : r.1 with
    | pair path' value' =>
      rw [hs] at habout hpath
      obtain ⟨hchanged, heq⟩ := Option.ite_none_right_eq_some.mp hpath
      cases heq
      cases hvalue.symm.trans habout
      exact hchanged
    | _ =>
      rw [hs] at hpath
      cases hpath
  · intro hmutable path hpath
    obtain ⟨value, hvalue⟩ := Option.isSome_iff_exists.mp (Dict.mem_keys.mp hpath)
    obtain ⟨index, hrows⟩ := h.of_fact hvalue
    obtain ⟨r, hr, heq⟩ := hrows (.pair path value)
      (List.mem_cons_of_mem _ (List.mem_cons_of_mem _ List.mem_cons_self))
    refine List.mem_filterMap.mpr ⟨_, List.mem_map_of_mem hr, ?_⟩
    show pivotalPath gen r.1 = some path
    rw [heq]
    exact if_pos (hmutable path value hvalue)

theorem Rows.tasks (h : Rows gen b first rest rows) : ∀ task ∈ requiredTasks,
    Json.str task ∈ rows.map fun r => Json.str r.1.taskType := by
  have hfirst : b.origin.expected.get first.1 = some first.2 :=
    Dict.mem_entries.mp (h.entries ▸ List.mem_cons_self)
  obtain ⟨index, hrows⟩ := h.of_fact hfirst
  have hqueue : Scenario.queue first.1 first.2 ∈ rows.map Prod.fst := by
    rw [h.scenarios]
    exact List.mem_append_right _ (List.mem_singleton_self _)
  obtain ⟨r₄, hr₄, heq₄⟩ := List.mem_map.mp hqueue
  obtain ⟨r₁, hr₁, heq₁⟩ := hrows (.edge first.1) (List.mem_cons_of_mem _ List.mem_cons_self)
  obtain ⟨r₂, hr₂, heq₂⟩ := hrows (.pair first.1 first.2)
    (List.mem_cons_of_mem _ (List.mem_cons_of_mem _ List.mem_cons_self))
  obtain ⟨r₃, hr₃, heq₃⟩ := hrows (.transition index first.1 first.2) (by simp [factScenarios])
  intro task htask
  simp only [requiredTasks, List.mem_cons, List.not_mem_nil, or_false] at htask
  rcases htask with rfl | rfl | rfl | rfl
  · exact List.mem_map.mpr ⟨r₁, hr₁, by rw [heq₁]; rfl⟩
  · exact List.mem_map.mpr ⟨r₃, hr₃, by rw [heq₃]; rfl⟩
  · exact List.mem_map.mpr ⟨r₄, hr₄, by rw [heq₄]; rfl⟩
  · exact List.mem_map.mpr ⟨r₂, hr₂, by rw [heq₂]; rfl⟩

/-- **A bundle passes every check exactly when nothing that it shows of the mechanism reads like a
label, and every mutation changes its fact.** -/
theorem passed_iff (folding : CaseFolding) (hb : Generated gen mechanism seed b) {checks : MechanismChecks}
    (hvalid : validateApprovedMechanism gen.toEngine mechanism = .ok checks)
    (hall : checks.all = true)
    (hids : CollisionFree (shortDigest gen.toPython) (idTexts b.origin))
    (hsha : CollisionFree gen.sha256 (hashedTexts b)) :
    ∃ report, qualifyActionnet gen.toEngine folding mechanism (b.dict gen) = .ok report ∧
      (report.passed = true ↔ Shown folding b.origin ∧ Mutable gen b.origin) := by
  obtain ⟨first, rest, rows, hentries, hscenarios, hcases, hlabels⟩ := hb.cases
  have h : Rows gen b first rest rows := ⟨hentries, hscenarios, hcases, hlabels⟩
  have hnodup := h.caseIds hids
  obtain ⟨facts, paths, hfacts, hpaths, hmem⟩ := expectedPaths_ok hb.expected
  have hdicts : (b.cases.map fun e => e.1.dict) =
      rows.map fun r => (b.origin.publicCase gen r.1).dict := by
    rw [hcases, List.map_map]
    rfl
  have hexpected : expectedFacts gen.toEngine b.origin.mechanism = .ok b.origin.expected := by
    rw [hb.source]
    exact hb.expected
  have hfindings : (b.cases.map fun e => e.1.dict).mapM
      (inspect gen.toEngine (.obj b.labels.entries)) = .ok (rows.map (findingOf gen b.origin)) := by
    rw [hdicts]
    exact Fallible.mapM_map fun r hr =>
      inspect_scenario hexpected (h.about r hr) (hlabels r hr) (h.labelOf hnodup hr)
  have hcaseIds : (b.cases.map fun e => e.1.dict).mapM (fun case => dictGet case "case_id" .null) =
      .ok (rows.map fun r => Json.str (b.origin.caseId gen r.1)) := by
    rw [hdicts]
    exact Fallible.mapM_map fun r _ => rfl
  have htasks : (b.cases.map fun e => e.1.dict).mapM (fun case => do
      let task ← dictGet case "task_type" .null
      hashable task) = .ok (rows.map fun r => Json.str r.1.taskType) := by
    rw [hdicts]
    exact Fallible.mapM_map fun r _ => rfl
  have hkeys : (rows.map fun r => Json.str (b.origin.caseId gen r.1)).mapM hashable =
      .ok (rows.map fun r => Json.str (b.origin.caseId gen r.1)) := Fallible.mapM_map fun r _ => rfl
  have hcount : b.labels.entries.length = rows.length := by
    unfold Bundle.labels
    rw [Dict.length_ofList]
    · rw [hcases, List.length_map, List.length_map]
    · rw [hcases, List.map_map, List.map_map]
      exact hnodup
  have hid := dictGet_of_index hb.mechanismId .null
  refine ⟨_, bind_ok.mpr ⟨b.publicPayload, rfl, bind_ok.mpr ⟨_, rfl,
    bind_ok.mpr ⟨b.protectedPayload, rfl, bind_ok.mpr ⟨_, rfl, bind_ok.mpr ⟨_, rfl,
    bind_ok.mpr ⟨_, hcaseIds, bind_ok.mpr ⟨_, htasks, bind_ok.mpr ⟨_, hfindings,
    bind_ok.mpr ⟨_, hfacts, bind_ok.mpr ⟨facts, rfl, bind_ok.mpr ⟨paths, hpaths,
    bind_ok.mpr ⟨checks, hvalid, bind_ok.mpr ⟨_, hkeys, bind_ok.mpr ⟨_, rfl,
    bind_ok.mpr ⟨_, rfl, bind_ok.mpr ⟨_, rfl, bind_ok.mpr ⟨_, rfl, bind_ok.mpr ⟨_, rfl,
    bind_ok.mpr ⟨_, rfl, bind_ok.mpr ⟨_, hid, rfl⟩⟩⟩⟩⟩⟩⟩⟩⟩⟩⟩⟩⟩⟩⟩⟩⟩⟩⟩⟩, ?_⟩
  unfold Report.passed
  simp only [List.all_cons, List.all_nil, Bool.and_true, Bool.and_eq_true]
  have hdiffer : pyEq (.str (sha256Json gen.sha256 b.publicPayload))
      (.str (sha256Json gen.sha256 b.protectedPayload)) = false := by
    refine Bool.eq_false_iff.mpr fun hsame => payloads_differ b ?_
    have hdigest := (String.append_right_inj _).mp (Json.str.inj (pyEq_str.mp hsame))
    exact hsha _ List.mem_cons_self _ (List.mem_cons_of_mem _ List.mem_cons_self) hdigest
  constructor
  · rintro ⟨-, -, -, -, -, hleak, -, -, -, hpivotal, -⟩
    refine ⟨(unlabelled_public_iff hb).mp (forbiddenPaths_nil.mp (List.isEmpty_iff.mp hleak)),
      h.pivotal.mp fun path hpath => ?_⟩
    exact of_decide_eq_true (List.all_eq_true.mp hpivotal path ((hmem path).mpr hpath))
  · rintro ⟨hshown, hmutable⟩
    have hpresent : ∀ {α : Type} (l : List α), l.length = rows.length → (!l.isEmpty) = true := by
      intro α l hlength
      have hne : rows ≠ [] := by
        rintro rfl
        cases hscenarios
      cases l with
      | nil => exact absurd (List.eq_nil_of_length_eq_zero hlength.symm) hne
      | cons x l => rfl
    have htargets : (rows.map (findingOf gen b.origin)).filterMap Finding.target? =
        rows.map fun r => targetOf gen (b.origin.publicCase gen r.1) r.2 := by
      rw [List.filterMap_map]
      exact congrFun List.filterMap_eq_map' rows
    refine ⟨hall, hpresent _ ?_, hpresent _ hcount, decide_eq_true ?_, decide_eq_true ?_,
      List.isEmpty_iff.mpr (forbiddenPaths_nil.mpr ((unlabelled_public_iff hb).mpr hshown)),
      List.isEmpty_iff.mpr (conflictingInputs_nil ?_), List.isEmpty_iff.mpr ?_,
      List.all_eq_true.mpr fun task htask => decide_eq_true (h.tasks task htask),
      List.all_eq_true.mpr fun path hpath =>
        decide_eq_true (h.pivotal.mpr hmutable path ((hmem path).mp hpath)),
      List.isEmpty_iff.mpr (h.unsafe_nil.mpr hmutable), ?_, rfl⟩
    · rw [hcases, List.length_map, List.length_map]
    · have hmembers := members_texts hnodup
      rw [List.map_map] at hmembers
      exact (congrArg List.length hmembers).symm
    · rw [hcount]
      exact (List.length_map _).trans (by rw [hcases, List.length_map])
    · rw [htargets, List.map_map]
      exact h.inputs hsha
    · rw [List.filterMap_eq_nil_iff, List.forall_mem_map]
      exact fun r _ => rfl
    · exact congrArg not hdiffer

/-- Nothing that the generator shows of the mechanism has a key that reads like a label, and every
expected value is changed by its mutation. -/
structure Qualifiable (gen : Generator) (folding : CaseFolding) (mechanism : Json) : Prop where
  identity : ∀ id, dictIndex mechanism "mechanism_id" = .ok id → Unlabelled folding id
  values : ∀ expected, expectedFacts gen.toEngine mechanism = .ok expected →
    ∀ path value, expected.get path = some value →
      Unlabelled folding value ∧ pyEq (mutated gen value) value = false

theorem qualifiable_iff (hb : Generated gen mechanism seed b) :
    Qualifiable gen folding mechanism ↔ Shown folding b.origin ∧ Mutable gen b.origin := by
  constructor
  · intro h
    have hvalues := h.values _ hb.expected
    exact ⟨⟨h.identity _ hb.mechanismId, fun path value hvalue => (hvalues path value hvalue).1⟩,
      fun path value hvalue => (hvalues path value hvalue).2⟩
  · rintro ⟨hshown, hmutable⟩
    constructor
    · intro id hid
      cases hid.symm.trans hb.mechanismId
      exact hshown.mechanismId
    · intro expected hexpected path value hvalue
      cases hexpected.symm.trans hb.expected
      exact ⟨hshown.values path value hvalue, hmutable path value hvalue⟩

end

end

/-- A digest that tells any two texts apart. -/
def reverseDigest (text : String) : String := String.ofList text.toList.reverse

theorem reverseDigest_injective : Function.Injective reverseDigest := fun _ _ h =>
  String.toList_injective (List.reverse_injective (String.ofList_injective h))

theorem finite_id (q : Rat) (h : |q| < Doubles.overflowThreshold) :
    Doubles.finite (id q) = true := by
  have hbelow : Doubles.overflowThreshold < Doubles.infinity := by decide +kernel
  exact decide_eq_true (h.trans hbelow)

def sampleGenerator : Generator where
  repr _ := ""
  sha256 := reverseDigest
  fromisoformat _ := .invalid
  isoformat _ := ""
  parseInt _ := none
  rounding :=
    { round := id
      finite_round := finite_id }

/-- `str.casefold`, for texts in ASCII. -/
def asciiFolding : CaseFolding where
  fold c := [c.toLower]
  ascii _ _ := rfl

/-- An approved mechanism with one fact. -/
def thresholdMechanism (value : Json) : Json :=
  .obj [("mechanism_id", .str "triage"), ("version", .str "1"), ("approved", .bool true),
    ("binding_authority", .bool false), ("source_references", .arr [.str "policy-a"]),
    ("facts", .arr [.obj [("subject", .str "ward"), ("predicate", .str "threshold"),
      ("selected_value", value)]])]

theorem threshold_valid {value : Json} (hne : value ≠ .null) : ∃ checks,
    validateApprovedMechanism sampleGenerator.toEngine (thresholdMechanism value) = .ok checks ∧
      checks.all = true ∧ expectedFacts sampleGenerator.toEngine (thresholdMechanism value) =
        .ok ((∅ : Dict String Json).set "ward.threshold" value) := by
  have hexpected : expectedFacts sampleGenerator.toEngine (thresholdMechanism value) =
      .ok ((∅ : Dict String Json).set "ward.threshold" value) := by
    have hentry : factEntry sampleGenerator.toEngine (.obj [("subject", .str "ward"),
        ("predicate", .str "threshold"), ("selected_value", value)]) =
          .ok ("ward.threshold", value) :=
      bind_ok.mpr ⟨(_, value), if_neg hne, bind_ok.mpr ⟨"ward.threshold", rfl, rfl⟩⟩
    refine expectedFacts_ok.mpr ⟨_, [("ward.threshold", value)], rfl, List.cons_ne_nil _ _, ?_,
      List.pairwise_singleton _ _, rfl⟩
    rw [List.mapM_cons, hentry]
    rfl
  refine ⟨⟨true, true, true, true, true, true⟩, ?_, rfl, hexpected⟩
  have hconsistent : consistencyOf sampleGenerator.toEngine (thresholdMechanism value) (.arr [.obj
      [("subject", .str "ward"), ("predicate", .str "threshold"), ("selected_value", value)]]) =
        .ok true := by
    show factsConsistent _ _ = _
    unfold factsConsistent
    rw [hexpected]
  exact bind_ok.mpr ⟨_, rfl, bind_ok.mpr ⟨_, rfl, bind_ok.mpr ⟨_, rfl, bind_ok.mpr ⟨_, rfl,
    bind_ok.mpr ⟨_, rfl, bind_ok.mpr ⟨_, rfl, bind_ok.mpr ⟨_, rfl, bind_ok.mpr ⟨_, rfl,
    bind_ok.mpr ⟨true, rfl, bind_ok.mpr ⟨true, hconsistent, rfl⟩⟩⟩⟩⟩⟩⟩⟩⟩⟩

/-- What the ids of the cases of such a mechanism show. -/
def thresholdOrigin (value : Json) : Origin where
  mechanism := thresholdMechanism value
  mechanismId := .str "triage"
  version := .str "1"
  expected := (∅ : Dict String Json).set "ward.threshold" value
  sourceLineage := ""
  seed := 0

/-- The texts of the ids of a mechanism with a threshold. -/
theorem threshold_ids {value : Json} (hne : value ≠ .null) {b : Bundle}
    (hb : Generated sampleGenerator (thresholdMechanism value) 0 b) :
    idTexts b.origin = idTexts (thresholdOrigin value) := by
  obtain ⟨_, _, hexpected⟩ := (threshold_valid hne).choose_spec
  have hvalues := Except.ok.inj (hexpected.symm.trans hb.expected)
  have hid : Json.str "triage" = b.origin.mechanismId := Except.ok.inj hb.mechanismId
  have hversion : Json.str "1" = b.origin.version := Except.ok.inj hb.version
  unfold idTexts Origin.idText
  rw [← hvalues, ← hid, ← hversion, hb.seed]
  rfl

/-- Texts that end differently have different digests. -/
theorem collisionFree_of_ends {α : Type} {items : List α} {document : α → Json}
    (h : (items.map fun a => (render (canon (document a))).reverse.take 20).Nodup) :
    CollisionFree (shortDigest sampleGenerator.toPython)
      (items.map fun a => canonicalJson (document a)) := by
  intro t ht u hu hdigest
  obtain ⟨a, ha, rfl⟩ := List.mem_map.mp ht
  obtain ⟨a', ha', rfl⟩ := List.mem_map.mp hu
  have hends : (render (canon (document a))).reverse.take 20 =
      (render (canon (document a'))).reverse.take 20 := by
    simpa only [shortDigest, sampleGenerator, reverseDigest, canonicalJson, String.toList_ofList]
      using hdigest
  rw [List.inj_on_of_nodup_map h ha ha' hends]

/-- A bundle of a mechanism with a threshold, with no two digests alike. -/
theorem threshold_bundle {value : Json} (hne : value ≠ .null)
    (hids : CollisionFree (shortDigest sampleGenerator.toPython)
      (idTexts (thresholdOrigin value))) : ∃ b checks,
      validateApprovedMechanism sampleGenerator.toEngine (thresholdMechanism value) = .ok checks ∧
      checks.all = true ∧ generateActionnet sampleGenerator (thresholdMechanism value) 0 = .ok b ∧
      CollisionFree (shortDigest sampleGenerator.toPython) (idTexts b.origin) ∧
      CollisionFree sampleGenerator.sha256 (hashedTexts b) := by
  obtain ⟨checks, hvalid, hall, hexpected⟩ := threshold_valid hne
  have hgenerates : (∃ b, generateActionnet sampleGenerator (thresholdMechanism value) 0 = .ok b) ↔ _ :=
    generates_iff hvalid hall
  obtain ⟨b, hb⟩ := hgenerates.mpr ⟨_, _, rfl, rfl⟩
  exact ⟨b, checks, hvalid, hall, hb, threshold_ids hne (generated hb) ▸ hids,
    fun t _ u _ heq => reverseDigest_injective heq⟩

end Edon.Qualification
