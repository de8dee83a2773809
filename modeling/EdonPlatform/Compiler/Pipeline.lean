import EdonPlatform.Compiler.Candidates
import EdonPlatform.Compiler.Extraction
import Mathlib.Data.Finset.Card

/- The compiler from sources to candidates (edon/compiler/pipeline.py, `compile_institution`): the
   statements of all sources are reconciled to facts and conflicts, and each mechanism gets the
   candidate of its facts. The three passes are keyed by derived texts: the key of a fact, the id of
   a conflict and the id of a mechanism.

   What is proved, of every compilation that returns:
     1. `owner_unique` — a statement id is that of one fact.
     2. `contested_iff` — a fact is contested exactly when its statements carry two values, or it
        lacks a normative statement that the settings require.
     3. `attached_iff` — a conflict is attached to the candidate of its mechanism and to no other.
     4. `candidates_facts` — the candidates have the facts between them.
   `reconciliation_partition` has the four.

   Correspondence (Python ↔ Lean):
     `CompilerInput`, with the sources the loader accepts ↔ `CompilerInput`
     `facts_by_mechanism`       ↔ `factsByMechanism`
     an entry of `review_queue` ↔ `ReviewItem`, `CompilerCandidate.reviewItem`
     `compile_institution`      ↔ `compileInstitution` -/
namespace Edon.Compiler
open Json Grouping

/-- The sources have distinct identities. -/
structure CompilerInput where
  institutionVersion : String
  sources : List SourceDocument
  settings : CompilerSettings
  distinct : (sources.map SourceDocument.identity).Nodup

structure ReviewItem where
  candidateId : String
  mechanismId : String
  reviewerRole : String
  reasons : List String
  conflictIds : List String

def CompilerCandidate.reviewItem (c : CompilerCandidate) : ReviewItem where
  candidateId := c.candidateId
  mechanismId := c.mechanism.mechanismId
  reviewerRole := c.requiredReviewerRole
  reasons := c.failedChecks
  conflictIds := c.conflicts

structure CompilerOutput where
  candidates : List CompilerCandidate
  conflicts : List ConflictRecord
  reviewQueue : List ReviewItem

def factsByMechanism (facts : List ReconciledFact) : Dict String (Members ReconciledFact) :=
  groupBy ReconciledFact.mechanismId facts

/-- The candidates of the facts, in the order of the mechanisms. -/
def candidatesOf (rt : Runtime) (input : CompilerInput) (primitives : List ExtractedPrimitive)
    (facts : List ReconciledFact) : Except PyError (List CompilerCandidate) :=
  (factsByMechanism facts).entries.mapM fun e =>
    candidateFor rt e.1 input.institutionVersion e.2.items primitives
      input.settings.minimumReviewConfidence

def compileInstitution (rd : Reader) (input : CompilerInput) : Except PyError CompilerOutput := do
  let primitives ← extractAll rd input.sources
  let reconciled := reconcile rd.toRuntime primitives input.settings
  let candidates ← candidatesOf rd.toRuntime input primitives reconciled.1
  return {
    candidates
    conflicts := reconciled.2
    reviewQueue :=
      (candidates.filter fun c => c.failedChecks ≠ []).map CompilerCandidate.reviewItem }

theorem compileInstitution_ok {rd : Reader} {input : CompilerInput} {output : CompilerOutput} :
    compileInstitution rd input = .ok output ↔ ∃ primitives candidates,
      extractAll rd input.sources = .ok primitives ∧
      candidatesOf rd.toRuntime input primitives
        (reconcile rd.toRuntime primitives input.settings).1 = .ok candidates ∧
      output = ⟨candidates, (reconcile rd.toRuntime primitives input.settings).2,
        (candidates.filter fun c => c.failedChecks ≠ []).map CompilerCandidate.reviewItem⟩ := by
  constructor
  · intro h
    obtain ⟨primitives, hprimitives, h⟩ := bind_ok.mp h
    obtain ⟨candidates, hcandidates, h⟩ := bind_ok.mp h
    cases h
    exact ⟨primitives, candidates, hprimitives, hcandidates, rfl⟩
  · rintro ⟨primitives, candidates, hprimitives, hcandidates, rfl⟩
    exact bind_ok.mpr ⟨primitives, hprimitives, bind_ok.mpr ⟨candidates, hcandidates, rfl⟩⟩

/-! ## Facts and their groups -/

section
variable {rt : Runtime} {primitives : List ExtractedPrimitive} {settings : CompilerSettings}

theorem mem_facts {fact : ReconciledFact} : fact ∈ (reconcile rt primitives settings).1 ↔
    ∃ key group, (groupBy (ExtractedPrimitive.factKey rt) primitives).get key = some group ∧
      factOf rt settings group = fact := by
  unfold reconcile
  simp only [List.mem_map, Dict.mem_values]
  constructor
  · rintro ⟨group, ⟨key, hget⟩, hfact⟩
    exact ⟨key, group, hget, hfact⟩
  · rintro ⟨key, group, hget, hfact⟩
    exact ⟨group, ⟨key, hget⟩, hfact⟩

theorem mem_conflicts {c : ConflictRecord} : c ∈ (reconcile rt primitives settings).2 ↔
    ∃ key group, (groupBy (ExtractedPrimitive.factKey rt) primitives).get key = some group ∧
      c ∈ factConflicts rt settings group := by
  unfold reconcile
  simp only [List.mem_flatMap, Dict.mem_values]
  constructor
  · rintro ⟨group, ⟨key, hget⟩, hc⟩
    exact ⟨key, group, hget, hc⟩
  · rintro ⟨key, group, hget, hc⟩
    exact ⟨group, ⟨key, hget⟩, hc⟩

/-- The first statement of a group has its key. -/
theorem first_key {key : FactKey} {group : Members ExtractedPrimitive}
    (h : (groupBy (ExtractedPrimitive.factKey rt) primitives).get key = some group) :
    group.first.factKey rt = key :=
  (key_of_get h group.first List.mem_cons_self).2

/-! ## The statements of the facts -/

/-- **The facts have the statements between them.** -/
theorem statementIds_perm : ((reconcile rt primitives settings).1.flatMap
    ReconciledFact.statementIds).Perm (primitives.map ExtractedPrimitive.statementId) := by
  unfold reconcile
  rw [List.flatMap_map]
  have hsorted : ∀ group : Members ExtractedPrimitive,
      (factOf rt settings group).statementIds.Perm
        (group.items.map ExtractedPrimitive.statementId) := fun group =>
    List.perm_insertionSort _ _
  refine (List.Perm.flatMap_left _ fun group _ => hsorted group).trans ?_
  rw [← List.map_flatMap]
  exact (perm_items _ primitives).map _

/-- With distinct ids, a statement id is that of one fact. -/
theorem owner_unique (hids : (primitives.map ExtractedPrimitive.statementId).Nodup)
    {p : ExtractedPrimitive} (hp : p ∈ primitives) :
    ((reconcile rt primitives settings).1.filter fun fact =>
      p.statementId ∈ fact.statementIds).length = 1 := by
  have hperm := @statementIds_perm rt primitives settings
  exact length_owners (hperm.nodup_iff.mpr hids) (hperm.mem_iff.mpr (List.mem_map_of_mem hp))

/-! ## Contested facts -/

/-- Two values with different texts. -/
def Differ (records : List ExtractedPrimitive) : Prop :=
  ∃ p ∈ records, ∃ q ∈ records, canonicalJson p.value ≠ canonicalJson q.value

theorem one_lt_length_iff {α : Type} [DecidableEq α] {l : List α} (h : l.Nodup) :
    1 < l.length ↔ ∃ x ∈ l, ∃ y ∈ l, x ≠ y := by
  rw [← List.toFinset_card_of_nodup h, Finset.one_lt_card]
  simp only [List.mem_toFinset]

/-- The unique values have the texts of the statements. -/
theorem texts_uniqueValues {records : List ExtractedPrimitive} {text : String} :
    text ∈ (uniqueValues records).map canonicalJson ↔
      ∃ p ∈ records, canonicalJson p.value = text := by
  constructor
  · intro h
    obtain ⟨value, hvalue, rfl⟩ := List.mem_map.mp h
    obtain ⟨p, hp, rfl⟩ := mem_uniqueValues hvalue
    exact ⟨p, hp, rfl⟩
  · rintro ⟨p, hp, rfl⟩
    obtain ⟨e, he, hkey⟩ := List.mem_map.mp (text_mem_sortKeys hp)
    have hfind := Assoc.find_of_mem (Assoc.ascending_sortKeys _) he
    rw [Assoc.find_sortKeys] at hfind
    obtain ⟨q, _, hq⟩ := List.mem_map.mp (Assoc.mem_of_find hfind)
    refine List.mem_map.mpr ⟨e.2, List.mem_map_of_mem he, ?_⟩
    rw [← hkey]
    exact congrArg (fun e => canonicalJson e.2) hq.symm |>.trans (congrArg Prod.fst hq)

theorem mem_distinctTexts {records : List ExtractedPrimitive} {text : String} :
    text ∈ distinctTexts records ↔ ∃ p ∈ records, canonicalJson p.value = text := by
  unfold distinctTexts valuesByLayer
  rw [mem_sortedSet, List.flatMap_map, List.mem_flatMap]
  constructor
  · rintro ⟨layer, _, htext⟩
    obtain ⟨p, hp, htext⟩ := texts_uniqueValues.mp htext
    exact ⟨p, List.mem_of_mem_filter hp, htext⟩
  · rintro ⟨p, hp, htext⟩
    have hlayer : p ∈ inLayer p.truthLayer records :=
      List.mem_filter.mpr ⟨hp, decide_eq_true rfl⟩
    refine ⟨p.truthLayer, List.mem_filter.mpr ⟨?_, ?_⟩, texts_uniqueValues.mpr ⟨p, hlayer, htext⟩⟩
    · cases p.truthLayer <;> decide
    · exact decide_eq_true (List.ne_nil_of_mem hlayer)

theorem differ_iff {records : List ExtractedPrimitive} :
    1 < (distinctTexts records).length ↔ Differ records := by
  have hnodup : (distinctTexts records).Nodup := nodup_sortedSet _
  rw [one_lt_length_iff hnodup]
  constructor
  · rintro ⟨x, hx, y, hy, hne⟩
    obtain ⟨p, hp, rfl⟩ := mem_distinctTexts.mp hx
    obtain ⟨q, hq, rfl⟩ := mem_distinctTexts.mp hy
    exact ⟨p, hp, q, hq, hne⟩
  · rintro ⟨p, hp, q, hq, hne⟩
    exact ⟨_, mem_distinctTexts.mpr ⟨p, hp, rfl⟩, _, mem_distinctTexts.mpr ⟨q, hq, rfl⟩, hne⟩

/-- A layer with two values has statements that differ. -/
theorem differ_of_layer {layer : TruthLayer} {records : List ExtractedPrimitive}
    (h : 1 < (uniqueValues (inLayer layer records)).length) : Differ records := by
  by_contra hnot
  have hsame : ∀ p ∈ inLayer layer records, ∀ q ∈ inLayer layer records, Same p.value q.value := by
    intro p hp q hq
    by_contra hne
    exact hnot ⟨p, List.mem_of_mem_filter hp, q, List.mem_of_mem_filter hq,
      fun htext => hne (canonicalJson_injective.mp htext)⟩
  have hne : inLayer layer records ≠ [] := by
    intro hnil
    rw [hnil] at h
    cases h
  obtain ⟨value, hvalue⟩ := agreed_iff.mp ⟨hne, hsame⟩
  rw [hvalue] at h
  exact absurd h (lt_irrefl 1)

theorem uniqueValues_isEmpty {records : List ExtractedPrimitive} :
    (uniqueValues records).isEmpty = true ↔ records = [] := by
  rw [List.isEmpty_iff]
  constructor
  · intro hnil
    by_contra hne
    obtain ⟨p, hp⟩ := List.exists_mem_of_ne_nil records hne
    have hmem := texts_uniqueValues.mpr ⟨p, hp, rfl⟩
    rw [hnil] at hmem
    cases hmem
  · rintro rfl
    rfl

/-- When a group has a conflict. -/
theorem factConflicts_ne_nil {group : Members ExtractedPrimitive} :
    factConflicts rt settings group ≠ [] ↔ Differ group.items ∨
      settings.requireNormativeLayer = true ∧ inLayer .normative group.items = [] := by
  rw [← @differ_iff group.items, ← @uniqueValues_isEmpty (inLayer .normative group.items),
    ← Bool.and_eq_true]
  unfold factConflicts
  by_cases hnormative : 1 < (uniqueValues (inLayer .normative group.items)).length
  · refine iff_of_true ?_ (.inl (differ_iff.mpr (differ_of_layer hnormative)))
    simp only [if_pos hnormative]
    exact List.cons_ne_nil _ _
  · simp only [if_neg hnormative, List.nil_append]
    by_cases hcross : 1 < (distinctTexts group.items).length
    · refine iff_of_true ?_ (.inl hcross)
      simp only [if_pos hcross]
      exact List.cons_ne_nil _ _
    · rw [or_iff_right hcross]
      simp only [if_neg hcross, List.nil_append, ne_eq, ite_eq_right_iff, List.cons_ne_nil,
        imp_false, not_not]

/-- **A fact is contested exactly when its statements differ, or a normative one is missing.** -/
theorem contested_iff {fact : ReconciledFact} (h : fact ∈ (reconcile rt primitives settings).1) :
    fact.agreementState = "CONTESTED" ↔ Differ (fact.statements rt primitives) ∨
      settings.requireNormativeLayer = true ∧
        inLayer .normative (fact.statements rt primitives) = [] := by
  obtain ⟨group, rfl, hitems⟩ := fact_of_mem h
  rw [← hitems, ← factConflicts_ne_nil]
  unfold factOf
  dsimp only
  by_cases hconflicts : factConflicts rt settings group ≠ []
  · rw [if_pos hconflicts]
    exact iff_of_true rfl hconflicts
  · rw [if_neg hconflicts]
    refine iff_of_false ?_ hconflicts
    split <;> decide

/-! ## Conflicts -/

def ConflictRecord.factKey (rt : Runtime) (c : ConflictRecord) : FactKey :=
  toLex (c.mechanismId, toLex (c.primitiveType.value,
    toLex (rt.casefold (strip c.subject), rt.casefold (strip c.predicate))))

/-- The text that the id of a conflict is the digest of. -/
def ConflictRecord.text (rt : Runtime) (c : ConflictRecord) : String :=
  canonicalJson (.obj [("fact_key", FactKey.json (c.factKey rt)), ("kind", .str c.kind.value),
    ("values_by_layer", valuesJson c.valuesByLayer)])

theorem conflict_of_mem {group : Members ExtractedPrimitive} {c : ConflictRecord}
    (h : c ∈ factConflicts rt settings group) : ∃ kind, c = conflict rt group kind := by
  unfold factConflicts at h
  dsimp only at h
  rcases List.mem_append.mp h with h | h
  · rcases List.mem_append.mp h with h | h
    · split at h
      · exact ⟨_, List.mem_singleton.mp h⟩
      · cases h
    · split at h
      · exact ⟨_, List.mem_singleton.mp h⟩
      · cases h
  · split at h
    · exact ⟨_, List.mem_singleton.mp h⟩
    · cases h

/-- A text tells the key of its fact. -/
theorem factKey_of_text {c d : ConflictRecord} (h : c.text rt = d.text rt) :
    c.factKey rt = d.factKey rt := by
  have hfields := same_obj_iff.mp (canonicalJson_injective.mp h)
  have hkey := Option.some.inj (hfields "fact_key")
  unfold FactKey.json at hkey
  simp only [canon, canonList, Json.arr.injEq, List.cons.injEq, Json.str.injEq, and_true] at hkey
  obtain ⟨hmechanism, htype, hsubject, hpredicate⟩ := hkey
  exact Prod.ext hmechanism (Prod.ext htype (Prod.ext hsubject hpredicate))

/-- The conflicts of a group are of its fact. -/
theorem conflict_fact {key : FactKey} {group : Members ExtractedPrimitive} {c : ConflictRecord}
    (hget : (groupBy (ExtractedPrimitive.factKey rt) primitives).get key = some group)
    (hc : c ∈ factConflicts rt settings group) : c.factKey rt = key ∧
      c.mechanismId = (factOf rt settings group).mechanismId ∧
      c.conflictId ∈ (factOf rt settings group).conflictIds := by
  obtain ⟨kind, rfl⟩ := conflict_of_mem hc
  exact ⟨first_key hget, rfl, List.mem_map_of_mem hc⟩

end

/-- The texts that a compilation hashes for statements and conflicts. -/
def hashedTexts (rd : Reader) (input : CompilerInput) : List String :=
  statementTexts rd input.sources ++
    ((extractAll rd input.sources).toOption.elim [] fun primitives =>
      (reconcile rd.toRuntime primitives input.settings).2.map (ConflictRecord.text rd.toRuntime))

section
variable {rd : Reader} {primitives : List ExtractedPrimitive} {settings : CompilerSettings}

/-- The id of a conflict tells the key of its fact. -/
theorem factKey_of_conflictId
    (hsha : CollisionFree (shortDigest rd.toPython) ((reconcile rd.toRuntime primitives settings).2.map
      (ConflictRecord.text rd.toRuntime)))
    {c d : ConflictRecord} (hc : c ∈ (reconcile rd.toRuntime primitives settings).2)
    (hd : d ∈ (reconcile rd.toRuntime primitives settings).2) (h : c.conflictId = d.conflictId) :
    c.factKey rd.toRuntime = d.factKey rd.toRuntime := by
  have hid : ∀ e ∈ (reconcile rd.toRuntime primitives settings).2, e.conflictId =
      "conflict-" ++ String.ofList (shortDigest rd.toPython (e.text rd.toRuntime)) := by
    intro e he
    obtain ⟨key, group, _, he⟩ := mem_conflicts.mp he
    obtain ⟨kind, rfl⟩ := conflict_of_mem he
    rfl
  rw [hid c hc, hid d hd, String.append_right_inj] at h
  exact factKey_of_text (hsha _ (List.mem_map_of_mem hc) _ (List.mem_map_of_mem hd)
    (String.ofList_injective h))

/-- The fact that a conflict is of, the only one that names it. -/
theorem fact_of_conflict
    (hsha : CollisionFree (shortDigest rd.toPython) ((reconcile rd.toRuntime primitives settings).2.map
      (ConflictRecord.text rd.toRuntime)))
    {c : ConflictRecord} (hc : c ∈ (reconcile rd.toRuntime primitives settings).2) :
    ∃ fact ∈ (reconcile rd.toRuntime primitives settings).1,
      c.conflictId ∈ fact.conflictIds ∧ fact.mechanismId = c.mechanismId ∧
      ∀ other ∈ (reconcile rd.toRuntime primitives settings).1,
        c.conflictId ∈ other.conflictIds → other = fact := by
  obtain ⟨key, group, hget, hin⟩ := mem_conflicts.mp hc
  obtain ⟨hkey, hmechanism, hid⟩ := conflict_fact hget hin
  refine ⟨factOf rd.toRuntime settings group, mem_facts.mpr ⟨key, group, hget, rfl⟩, hid,
    hmechanism.symm, fun other hother hid' => ?_⟩
  obtain ⟨key', group', hget', rfl⟩ := mem_facts.mp hother
  obtain ⟨d, hd, hsame⟩ := List.mem_map.mp hid'
  have hd' := mem_conflicts.mpr ⟨key', group', hget', hd⟩
  have hkeys := factKey_of_conflictId hsha hd' hc hsame
  rw [(conflict_fact hget' hd).1, hkey] at hkeys
  subst hkeys
  rw [hget] at hget'
  cases hget'
  rfl

end

/-! ## Candidates -/

section
variable {rt : Runtime} {input : CompilerInput} {primitives : List ExtractedPrimitive}
  {facts : List ReconciledFact} {candidates : List CompilerCandidate}

theorem candidateFor_ok {mechanismId version : String} {threshold : Rat} {c : CompilerCandidate}
    (h : candidateFor rt mechanismId version facts primitives threshold = .ok c) :
    c.mechanism.mechanismId = mechanismId ∧ c.facts = facts ∧
      c.conflicts = sortedSet (facts.flatMap ReconciledFact.conflictIds) := by
  obtain ⟨_, _, h⟩ := bind_ok.mp h
  obtain ⟨_, _, h⟩ := bind_ok.mp h
  cases h
  exact ⟨rfl, rfl, rfl⟩

/-- A candidate has the facts of its mechanism. -/
theorem mem_candidates (h : candidatesOf rt input primitives facts = .ok candidates)
    {c : CompilerCandidate} (hc : c ∈ candidates) :
    c.facts = facts.filter (fun fact => fact.mechanismId = c.mechanism.mechanismId) ∧
      c.conflicts = sortedSet (c.facts.flatMap ReconciledFact.conflictIds) := by
  obtain ⟨e, he, hok⟩ := mem_of_mapM h c hc
  obtain ⟨hid, hfacts, hconflicts⟩ := candidateFor_ok hok
  have hitems := items_of_get (Dict.mem_entries.mp he)
  refine ⟨?_, by rw [hconflicts, hfacts]⟩
  rw [hfacts, hitems, hid]

/-- Every mechanism of a fact has a candidate. -/
theorem candidate_of_fact (h : candidatesOf rt input primitives facts = .ok candidates)
    {fact : ReconciledFact} (hfact : fact ∈ facts) :
    ∃ c ∈ candidates, c.mechanism.mechanismId = fact.mechanismId := by
  have hsome : ((factsByMechanism facts).get fact.mechanismId).isSome = true :=
    get_isSome_iff.mpr ⟨fact, hfact, rfl⟩
  obtain ⟨group, hget⟩ := Option.isSome_iff_exists.mp hsome
  obtain ⟨c, hc, hok⟩ := result_of_mapM h _ (Dict.mem_entries.mpr hget)
  exact ⟨c, hc, (candidateFor_ok hok).1⟩

/-- **The candidates have the facts between them.** -/
theorem candidates_facts (h : candidatesOf rt input primitives facts = .ok candidates) :
    (candidates.flatMap CompilerCandidate.facts).Perm facts := by
  have hfacts : candidates.map CompilerCandidate.facts =
      (factsByMechanism facts).entries.map fun e => e.2.items :=
    Fallible.map_of_mapM h fun _ _ hok => (candidateFor_ok hok).2.1
  have hvalues : candidates.flatMap CompilerCandidate.facts =
      (factsByMechanism facts).values.flatMap Members.items := by
    rw [List.flatMap_def, hfacts, Dict.values, List.flatMap_map, List.flatMap_def]
  rw [hvalues]
  exact perm_items _ facts

/-- **A conflict is attached to the candidate of its mechanism, and to no other.** -/
theorem attached_iff {c : ConflictRecord} {owner : ReconciledFact} (howner : owner ∈ facts)
    (hid : c.conflictId ∈ owner.conflictIds)
    (honly : ∀ other ∈ facts, c.conflictId ∈ other.conflictIds → other = owner)
    (h : candidatesOf rt input primitives facts = .ok candidates) {candidate : CompilerCandidate}
    (hcandidate : candidate ∈ candidates) : c.conflictId ∈ candidate.conflicts ↔
      candidate.mechanism.mechanismId = owner.mechanismId := by
  obtain ⟨hfacts, hconflicts⟩ := mem_candidates h hcandidate
  rw [hconflicts, mem_sortedSet, hfacts, List.mem_flatMap]
  constructor
  · rintro ⟨fact, hfact, hin⟩
    obtain ⟨hmem, hmechanism⟩ := List.mem_filter.mp hfact
    rw [← honly fact hmem hin]
    exact (of_decide_eq_true hmechanism).symm
  · intro hmechanism
    exact ⟨owner, List.mem_filter.mpr ⟨howner, decide_eq_true hmechanism.symm⟩, hid⟩

end

/-! ## The partition -/

/-- What becomes of statements, facts and conflicts. -/
structure Partition (rt : Runtime) (settings : CompilerSettings)
    (primitives : List ExtractedPrimitive) (facts : List ReconciledFact)
    (output : CompilerOutput) : Prop where
  owner : ∀ p ∈ primitives, (facts.filter fun fact => p.statementId ∈ fact.statementIds).length = 1
  contested : ∀ fact ∈ facts, (fact.agreementState = "CONTESTED" ↔
    Differ (fact.statements rt primitives) ∨ settings.requireNormativeLayer = true ∧
      inLayer .normative (fact.statements rt primitives) = [])
  attached : ∀ c ∈ output.conflicts, ∃ fact ∈ facts, c.conflictId ∈ fact.conflictIds ∧
    (∀ other ∈ facts, c.conflictId ∈ other.conflictIds → other = fact) ∧
    (∀ candidate ∈ output.candidates, c.conflictId ∈ candidate.conflicts ↔
      candidate.mechanism.mechanismId = fact.mechanismId) ∧
    ∃ candidate ∈ output.candidates, c.conflictId ∈ candidate.conflicts
  kept : (output.candidates.flatMap CompilerCandidate.facts).Perm facts
  owned : ∀ candidate ∈ output.candidates, ∀ fact ∈ candidate.facts,
    fact.mechanismId = candidate.mechanism.mechanismId

/-- **Reconciliation is a partition: of the statements into facts, and of the facts and conflicts
into candidates.** -/
theorem reconciliation_partition (rd : Reader) (input : CompilerInput) (output : CompilerOutput)
    (h : compileInstitution rd input = .ok output)
    (hsha : CollisionFree (shortDigest rd.toPython) (hashedTexts rd input)) :
    ∃ primitives facts conflicts, extractAll rd input.sources = .ok primitives ∧
      reconcile rd.toRuntime primitives input.settings = (facts, conflicts) ∧
      output.conflicts = conflicts ∧
      Partition rd.toRuntime input.settings primitives facts output := by
  obtain ⟨primitives, candidates, hprimitives, hcandidates, rfl⟩ := compileInstitution_ok.mp h
  have hstatements := hsha.subset (List.subset_append_left _ _)
  have hconflicts : CollisionFree (shortDigest rd.toPython)
      ((reconcile rd.toRuntime primitives input.settings).2.map
        (ConflictRecord.text rd.toRuntime)) := by
    unfold hashedTexts at hsha
    rw [hprimitives] at hsha
    exact hsha.subset (List.subset_append_right _ _)
  refine ⟨primitives, _, _, hprimitives, rfl, rfl, ?_⟩
  constructor
  · intro p hp
    exact owner_unique (statementIds_nodup input.distinct hstatements hprimitives) hp
  · intro fact hfact
    exact contested_iff hfact
  · intro c hc
    obtain ⟨fact, hfact, hid, _, honly⟩ := fact_of_conflict hconflicts hc
    have hattached : ∀ candidate ∈ candidates, c.conflictId ∈ candidate.conflicts ↔
        candidate.mechanism.mechanismId = fact.mechanismId := fun _ hcandidate =>
      attached_iff hfact hid honly hcandidates hcandidate
    obtain ⟨candidate, hcandidate, hmechanism⟩ := candidate_of_fact hcandidates hfact
    exact ⟨fact, hfact, hid, honly, hattached, candidate, hcandidate,
      (hattached candidate hcandidate).mpr hmechanism⟩
  · exact candidates_facts hcandidates
  · intro candidate hcandidate fact hfact
    rw [(mem_candidates hcandidates hcandidate).1] at hfact
    exact of_decide_eq_true (List.mem_filter.mp hfact).2

/-! ### Two policies and a deployed system -/

/-- Digests for short examples: a text is read as a number to the base of 257. -/
def sampleDigest (text : String) : String :=
  toString ((text.toList.foldl (fun n c => (257 * n + c.toNat) % 99999999999999999989) 1) +
    100000000000000000000)

def sampleReader : Reader where
  toRuntime := { plainRuntime with sha256 := sampleDigest }
  parseFloat _ := none
  csvRows _ := .ok []

/-- A source with one statement, on who may approve a discharge. -/
def approverSource (truthLayer : TruthLayer) (sourceId subject role : String) : SourceDocument where
  sourceId
  version := "1"
  truthLayer
  sourceFormat := .structuredJson
  content := .arr [.obj [("mechanism_id", .str "discharge"), ("primitive_type", .str "APPROVAL"),
    ("subject", .str subject), ("predicate", .str "approver"), ("value", .str role)]]
  sha256 := "sha256:0"
  locator := "inline"

/-- Two policies name different approvers, and a system does something else. -/
def contestedInput : CompilerInput where
  institutionVersion := "1"
  sources := [approverSource .normative "policy-a" "discharge" "attending",
    approverSource .normative "policy-b" "discharge" "head nurse",
    approverSource .operational "ehr" "discharge" "any clinician"]
  settings := {}
  distinct := by decide

/-- The documents that the hashed texts are written from. -/
def hashedDocuments (rd : Reader) (input : CompilerInput) : List Json :=
  (input.sources.flatMap fun source =>
    ((extractSource rd source).toOption.getD []).zipIdx.map fun p =>
      statementIdentity source p.2 p.1.mechanismId p.1.primitiveType p.1.subject p.1.predicate
        p.1.value) ++
    ((extractAll rd input.sources).toOption.elim [] fun primitives =>
      (reconcile rd.toRuntime primitives input.settings).2.map fun c =>
        .obj [("fact_key", FactKey.json (c.factKey rd.toRuntime)), ("kind", .str c.kind.value),
          ("values_by_layer", valuesJson c.valuesByLayer)])

theorem hashedTexts_eq (rd : Reader) (input : CompilerInput) :
    hashedTexts rd input = (hashedDocuments rd input).map canonicalJson := by
  unfold hashedTexts hashedDocuments
  rw [List.map_append, List.map_flatMap]
  congr 1
  · unfold statementTexts
    refine congrArg (fun f => input.sources.flatMap f) (funext fun source => ?_)
    rw [List.map_map]
    rfl
  · cases (extractAll rd input.sources).toOption with
    | none => rfl
    | some primitives =>
      dsimp only [Option.elim]
      rw [List.map_map]
      rfl

/-- Documents whose texts read as different numbers have different digests. -/
theorem collisionFree_of_sums {docs : List Json}
    (h : (docs.map fun doc => (toString ((render (canon doc)).foldl
      (fun n c => (257 * n + c.toNat) % 99999999999999999989) 1 +
        100000000000000000000)).toList.take 20).Nodup) :
    CollisionFree (shortDigest sampleReader.toPython) (docs.map canonicalJson) := by
  intro t ht u hu hdigest
  obtain ⟨doc, hdoc, rfl⟩ := List.mem_map.mp ht
  obtain ⟨doc', hdoc', rfl⟩ := List.mem_map.mp hu
  simp only [shortDigest, sampleReader, sampleDigest, canonicalJson, String.toList_ofList]
    at hdigest
  rw [List.inj_on_of_nodup_map h hdoc hdoc' hdigest]

theorem reconciliation_partition_contested : ∃ output primitives facts conflicts,
    extractAll sampleReader contestedInput.sources = .ok primitives ∧
      reconcile sampleReader.toRuntime primitives contestedInput.settings = (facts, conflicts) ∧
      output.conflicts = conflicts ∧
      Partition sampleReader.toRuntime contestedInput.settings primitives facts output := by
  have hruns : (compileInstitution sampleReader contestedInput).toOption.isSome = true := by
    decide +kernel
  obtain ⟨output, hoption⟩ := Option.isSome_iff_exists.mp hruns
  have houtput : compileInstitution sampleReader contestedInput = .ok output :=
    Fallible.toOption_ok.mp hoption
  have hsha : CollisionFree (shortDigest sampleReader.toPython)
      (hashedTexts sampleReader contestedInput) := by
    rw [hashedTexts_eq]
    exact collisionFree_of_sums (by decide +kernel)
  exact ⟨output, reconciliation_partition sampleReader contestedInput output houtput hsha⟩

end Edon.Compiler
