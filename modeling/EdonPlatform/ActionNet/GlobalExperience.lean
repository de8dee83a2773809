import EdonPlatform.Common.KeyScan

/- What a local experience has to look like to enter the global network
   (edon/actionnet/network.py, `_normalize_global_experience`).

   The scan for local, sensitive and authority fields runs over the normalized
   experience. Two entries are texts by then: `institution_type` and every element of
   `mechanism_families` went through `str(...)`, so a dictionary given there is stored as
   its text and its keys are not seen. `normalizeGlobalExperience_clean`: an accepted
   experience is clean exactly when those two values are.

   Correspondence (Python ↔ Lean):
     `_FORBIDDEN_GLOBAL_FIELDS` ↔ `forbiddenGlobalFields`
     `_identifier`              ↔ `networkIdentifier`
     `_json_object`             ↔ `jsonObject`
     `_string_set`              ↔ `stringSet`
     `_forbidden_paths`         ↔ `forbiddenPaths`
     `_normalize_global_experience` ↔ `normalizeGlobalExperience` -/
namespace Edon.LearningNetwork

def networkError (message : String) : PyError := ⟨.learningNetworkError, message⟩

def forbiddenGlobalFields : List String :=
  ["tenant_id", "experience_id", "patient_name", "person_name", "email", "phone", "address", "ssn",
   "medical_record_number", "raw_payload", "raw_text", "secret", "password", "api_key",
   "authorization_ref", "authorization_ref_sha256", "execution_token", "kernel_token",
   "commit_token", "binding_authority"]

def summaryKeys : List String :=
  ["trajectory_summary", "outcome_summary", "generalized_pattern", "provenance_commitments"]

def requiredKeys : List String := ["institution_type", "mechanism_families"] ++ summaryKeys

/-- `json.loads(json.dumps(value, allow_nan=False))` of an object. -/
def jsonObject (value : PyValue) (label : String) : Except PyError (List (String × PyValue)) :=
  match value with
  | .dict kvs =>
    if (PyValue.dict kvs).finite then .ok kvs
    else .error (networkError (label ++ " must contain finite JSON values"))
  | _ => .error (networkError (label ++ " must be a JSON object"))

/-- `_forbidden_paths`. -/
def forbiddenPaths (pre : String) (value : PyValue) : List String :=
  scan [fun key _ => lower key ∈ forbiddenGlobalFields] (fun pre key => pre ++ "." ++ key) pre value

/-- The array of mechanism families, which must not be empty. -/
def familiesOf : PyValue → Except PyError (List PyValue)
  | .list (x :: xs) => .ok (x :: xs)
  | _ => .error (networkError "mechanism_families must be a non-empty array")

/-- `normalized[key] = _json_object(normalized[key], key)`. -/
def normalizeSummary (normalized : List (String × PyValue)) (key : String) :
    Except PyError (List (String × PyValue)) := do
  let object ← jsonObject (← (PyValue.dict normalized).index key) key
  return Assoc.put normalized key (.dict object)

section
variable (I : Interpreter)

/-- `_identifier`. -/
def networkIdentifier (value : PyValue) (label : String) : Except PyError String :=
  bounded (networkError (label ++ " must contain between 1 and 240 characters")) 240
    (if value.truthy then value.toStr I else "")

def stringSet (values : List PyValue) (label : String) : Except PyError (List String) := do
  return sortedSet (← values.mapM fun value => networkIdentifier I value label)

def normalizeGlobalExperience (value : PyValue) : Except PyError (List (String × PyValue)) := do
  let normalized ← jsonObject value "normalized_experience"
  let missing := sortedSet (requiredKeys.filter fun key => key ∉ normalized.map Prod.fst)
  require missing.isEmpty
    (networkError ("normalized_experience is missing: " ++ ", ".intercalate missing))
  let families ← familiesOf (← (PyValue.dict normalized).index "mechanism_families")
  let families ← stringSet I families "mechanism family"
  let normalized := Assoc.put normalized "mechanism_families" (.list (families.map .str))
  let institutionType ← networkIdentifier I
    (← (PyValue.dict normalized).index "institution_type") "institution_type"
  let normalized := Assoc.put normalized "institution_type" (.str institutionType)
  let normalized ← summaryKeys.foldlM normalizeSummary normalized
  let forbidden := sortedSet (forbiddenPaths "normalized_experience" (.dict normalized))
  require forbidden.isEmpty (networkError
    ("global experience contains local, sensitive, or authority fields: " ++
      ", ".intercalate forbidden))
  let merged := normalized.foldl (fun kvs e => Assoc.put kvs e.1 e.2)
    [("schema_version", .str "actionnet-global-experience.v1")]
  return Assoc.put (Assoc.put merged "raw_payload_included" (.bool false)) "binding_authority"
    (.bool false)

end

/-! ## What the scan sees -/

theorem jsonObject_ok {value : PyValue} {label : String} {kvs : List (String × PyValue)}
    (h : jsonObject value label = .ok kvs) : value = .dict kvs := by
  unfold jsonObject at h
  split at h
  · split at h
    · cases h
      rfl
    · cases h
  · cases h

/-- A summary is an object before and after: nothing changes. -/
theorem normalizeSummary_ok {normalized out : List (String × PyValue)} {key : String}
    (h : normalizeSummary normalized key = .ok out) : out = normalized := by
  obtain ⟨value, hvalue, h⟩ := bind_ok.mp h
  obtain ⟨object, hobject, h⟩ := bind_ok.mp h
  cases h
  rw [← jsonObject_ok hobject]
  exact Assoc.put_of_find (orRaise_ok.mp hvalue)

theorem normalizeSummaries_ok {keys : List String} {normalized out : List (String × PyValue)}
    (h : keys.foldlM normalizeSummary normalized = .ok out) : out = normalized := by
  induction keys generalizing normalized with
  | nil =>
    cases h
    rfl
  | cons key keys ih =>
    rw [List.foldlM_cons] at h
    obtain ⟨next, hnext, h⟩ := bind_ok.mp h
    rw [ih h, normalizeSummary_ok hnext]

/-- The keys whose values the scan sees as texts only. -/
def textKeys : List String := ["institution_type", "mechanism_families"]

/-- The values under those keys. -/
def unscanned : PyValue → List PyValue
  | .dict kvs => (kvs.filter fun e => e.1 ∈ textKeys).map Prod.snd
  | _ => []

theorem clean_iff_passes {v : PyValue} : v.Clean forbiddenGlobalFields ↔
    v.Throughout (Passes [fun key _ => lower key ∈ forbiddenGlobalFields]) := by
  constructor
  · refine PyValue.Throughout.imp fun key child h test htest => ?_
    rw [List.mem_singleton.mp htest]
    exact decide_eq_false h.1
  · refine PyValue.Throughout.imp fun key child h => ?_
    have hkey := of_decide_eq_false (h _ (List.mem_singleton.mpr rfl))
    refine ⟨hkey, fun hbinding => absurd ?_ hkey⟩
    rw [hbinding]
    decide

/-- **An accepted experience is clean exactly when the values it stores as texts are.** -/
theorem normalizeGlobalExperience_clean {I : Interpreter} {value : PyValue}
    {out : List (String × PyValue)} (h : normalizeGlobalExperience I value = .ok out) :
    value.Clean forbiddenGlobalFields ↔ ∀ v ∈ unscanned value, v.Clean forbiddenGlobalFields := by
  obtain ⟨kvs, hkvs, h⟩ := bind_ok.mp h
  obtain ⟨_, _, h⟩ := bind_ok.mp h
  obtain ⟨_, _, h⟩ := bind_ok.mp h
  obtain ⟨_, _, h⟩ := bind_ok.mp h
  obtain ⟨families, _, h⟩ := bind_ok.mp h
  obtain ⟨_, _, h⟩ := bind_ok.mp h
  obtain ⟨institutionType, _, h⟩ := bind_ok.mp h
  obtain ⟨normalized, hsummaries, h⟩ := bind_ok.mp h
  obtain ⟨_, hscan, _⟩ := bind_ok.mp h
  cases jsonObject_ok hkvs
  cases normalizeSummaries_ok hsummaries
  have hseen := PyValue.throughout_dict.mp (clean_iff_passes.mpr (scan_checked hscan))
  have hmem : ∀ e ∈ kvs, e.1 ∈ textKeys → e.2 ∈ unscanned (.dict kvs) := by
    intro e he hkey
    exact List.mem_map.mpr ⟨e, List.mem_filter.mpr ⟨he, decide_eq_true hkey⟩, rfl⟩
  unfold PyValue.Clean
  rw [PyValue.throughout_dict]
  constructor
  · intro hclean v hv
    obtain ⟨e, he, rfl⟩ := List.mem_map.mp hv
    exact (hclean e (List.mem_filter.mp he).1).2
  · intro htexts e he
    by_cases hkey : e.1 ∈ textKeys
    · refine ⟨?_, htexts e.2 (hmem e he hkey)⟩
      -- neither of the two keys is forbidden itself
      have hnone : ∀ key ∈ textKeys, lower key ∉ forbiddenGlobalFields ∧
          lower key ≠ "binding_authority" := by decide
      exact ⟨(hnone e.1 hkey).1, fun hbinding => absurd hbinding (hnone e.1 hkey).2⟩
    · refine hseen e (Assoc.mem_put_of_ne (Assoc.mem_put_of_ne he ?_) ?_)
      · intro heq
        exact hkey (by simp [heq, textKeys])
      · intro heq
        exact hkey (by simp [heq, textKeys])

end Edon.LearningNetwork
