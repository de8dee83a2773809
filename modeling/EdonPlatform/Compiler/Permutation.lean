import EdonPlatform.Compiler.Pipeline

/- Sources in another order (edon/compiler/reconciliation.py and pipeline.py). A fact and its
   conflicts are named by the first of their statements, and the order of the sources decides which
   one that is. The key of a fact has the names case-folded, so its statements may spell them in
   several ways.

   What is proved:
     1. `factOf_respell` — the order of the statements of a fact decides how it is spelled and
        nothing else about it.
     2. `accepted_reorder` — sources are accepted in one order exactly when they are in every order.
     3. `order_independent_iff` — every order of the sources gives the same candidates, conflicts
        and review queue exactly when, for each key of a fact, all sources that state it spell it
        the same way where they first state it. -/
namespace Edon.Compiler
open Json Grouping

/-! ## The order of statements -/

/-- The same statements, in any order. -/
structure Reordered (records records' : List ExtractedPrimitive) : Prop where
  perm : records.Perm records'
  canonical : ∀ p ∈ records, canon p.value = p.value
  references : ∀ p ∈ records, ∀ q ∈ records,
    p.sourceReference.sourceId = q.sourceReference.sourceId →
    p.sourceReference.version = q.sourceReference.version → p.sourceReference = q.sourceReference

section
variable {records records' : List ExtractedPrimitive} (h : Reordered records records')
include h

theorem Reordered.filter (keep : ExtractedPrimitive → Bool) :
    Reordered (records.filter keep) (records'.filter keep) where
  perm := h.perm.filter keep
  canonical p hp := h.canonical p (List.mem_of_mem_filter hp)
  references p hp q hq := h.references p (List.mem_of_mem_filter hp) q (List.mem_of_mem_filter hq)

theorem Reordered.inLayer_nil (layer : TruthLayer) :
    inLayer layer records = [] ↔ inLayer layer records' = [] := by
  have hperm := (h.filter fun r => r.truthLayer = layer).perm
  constructor
  · intro hnil
    exact (hnil ▸ hperm : List.Perm [] (inLayer layer records')).symm.eq_nil
  · intro hnil
    exact (hnil ▸ hperm : List.Perm (inLayer layer records) []).eq_nil

theorem Reordered.observed_eq :
    (layerOrder.filter fun layer => inLayer layer records ≠ []) =
      layerOrder.filter fun layer => inLayer layer records' ≠ [] :=
  List.filter_congr fun layer _ => by simp only [ne_eq, h.inLayer_nil layer]

/-- The value a text stands for is the same wherever the statement with it is. -/
theorem Reordered.uniqueValues_eq : uniqueValues records = uniqueValues records' := by
  unfold uniqueValues
  congr 1
  refine Assoc.sortKeys_eq_iff.mpr (Assoc.find_congr (fun e => (h.perm.map _).mem_iff) ?_)
  intro e he f hf htext
  obtain ⟨p, hp, rfl⟩ := List.mem_map.mp he
  obtain ⟨q, hq, rfl⟩ := List.mem_map.mp hf
  have hsame : Same p.value q.value := canonicalJson_injective.mp htext
  calc p.value = canon p.value := (h.canonical p hp).symm
    _ = canon q.value := hsame
    _ = q.value := h.canonical q hq

theorem Reordered.uniqueValues_layer (layer : TruthLayer) :
    uniqueValues (inLayer layer records) = uniqueValues (inLayer layer records') :=
  (h.filter fun r => r.truthLayer = layer).uniqueValues_eq

theorem Reordered.valuesByLayer_eq : valuesByLayer records = valuesByLayer records' := by
  unfold valuesByLayer
  rw [h.observed_eq]
  exact List.map_congr_left fun layer _ => by rw [h.uniqueValues_layer layer]

theorem Reordered.selectedValue_eq : selectedValue records = selectedValue records' := by
  unfold selectedValue
  simp only [h.uniqueValues_layer]

theorem Reordered.references_eq : referencesOf records = referencesOf records' := by
  unfold referencesOf
  rw [Dict.ofList_congr (fun e => (h.perm.map _).mem_iff)]
  intro e he f hf hkey
  obtain ⟨p, hp, rfl⟩ := List.mem_map.mp he
  obtain ⟨q, hq, rfl⟩ := List.mem_map.mp hf
  obtain ⟨hid, hversion⟩ := Prod.mk.inj (toLex.injective hkey)
  exact h.references p hp q hq hid hversion

theorem Reordered.statementIds_eq :
    (records.map ExtractedPrimitive.statementId).insertionSort (fun s t => s ≤ t) =
      (records'.map ExtractedPrimitive.statementId).insertionSort (fun s t => s ≤ t) :=
  Sorting.sort_congr (h.perm.map _) fun _ _ _ _ => le_antisymm

end

/-! ## The order of the statements of a fact -/

theorem PrimitiveType.value_injective {s t : PrimitiveType} (h : s.value = t.value) : s = t := by
  cases s <;> cases t <;> first | rfl | exact absurd h (by decide)

section
variable {rt : Runtime} {settings : CompilerSettings} {group group' : Members ExtractedPrimitive}

/-- A key tells the mechanism and the type. -/
theorem owner_of_factKey {p q : ExtractedPrimitive} (h : p.factKey rt = q.factKey rt) :
    p.mechanismId = q.mechanismId ∧ p.primitiveType = q.primitiveType := by
  obtain ⟨hmechanism, hrest⟩ := Prod.mk.inj (toLex.injective h)
  obtain ⟨htype, -⟩ := Prod.mk.inj (toLex.injective hrest)
  exact ⟨hmechanism, PrimitiveType.value_injective htype⟩

/-- A conflict with the names another statement gives it. -/
def ConflictRecord.respell (first : ExtractedPrimitive) (c : ConflictRecord) : ConflictRecord :=
  { c with subject := first.subject, predicate := first.predicate }

theorem conflict_respell (hitems : Reordered group.items group'.items)
    (hkey : group.first.factKey rt = group'.first.factKey rt) (kind : ConflictKind) :
    conflict rt group' kind = (conflict rt group kind).respell group'.first := by
  obtain ⟨hmechanism, htype⟩ := owner_of_factKey hkey
  have hsources : sortedSet (group.items.map fun r => r.sourceReference.sourceId) =
      sortedSet (group'.items.map fun r => r.sourceReference.sourceId) :=
    sortedSet_congr fun _ => (hitems.perm.map _).mem_iff
  unfold conflict ConflictRecord.respell
  dsimp only
  rw [hkey, hmechanism, htype, hitems.valuesByLayer_eq, hsources]

theorem factConflicts_respell (hitems : Reordered group.items group'.items)
    (hkey : group.first.factKey rt = group'.first.factKey rt) :
    factConflicts rt settings group' =
      (factConflicts rt settings group).map (ConflictRecord.respell group'.first) := by
  have htexts : distinctTexts group.items = distinctTexts group'.items := by
    unfold distinctTexts
    rw [hitems.valuesByLayer_eq]
  unfold factConflicts
  rw [htexts, hitems.uniqueValues_layer .normative]
  simp only [conflict_respell hitems hkey, List.map_append, apply_ite (List.map _), List.map_cons,
    List.map_nil]

/-- **The order of the statements of a fact decides its spelling, and nothing else.** -/
theorem factOf_respell (hitems : Reordered group.items group'.items)
    (hkey : group.first.factKey rt = group'.first.factKey rt) :
    factOf rt settings group' = { factOf rt settings group with
      subject := group'.first.subject
      predicate := group'.first.predicate } := by
  obtain ⟨hmechanism, htype⟩ := owner_of_factKey hkey
  have hconfidences := hitems.perm.map ExtractedPrimitive.confidence
  have hmean : fmean rt.rounding (group'.items.map ExtractedPrimitive.confidence) =
      fmean rt.rounding (group.items.map ExtractedPrimitive.confidence) := by
    unfold fmean
    rw [hconfidences.sum_eq, hconfidences.length_eq]
  have hids : ((factConflicts rt settings group).map (ConflictRecord.respell group'.first)).map
      ConflictRecord.conflictId = (factConflicts rt settings group).map ConflictRecord.conflictId := by
    rw [List.map_map]
    rfl
  unfold factOf factConfidence
  dsimp only
  rw [factConflicts_respell hitems hkey, hids, hmean, ← hitems.observed_eq, ← hmechanism, ← htype,
    ← hitems.selectedValue_eq, ← hitems.references_eq, ← hitems.statementIds_eq]
  simp only [ne_eq, List.map_eq_nil_iff]

end

/-! ## The facts of reordered statements -/

section
variable {rt : Runtime} {settings : CompilerSettings} {primitives primitives' : List ExtractedPrimitive}

theorem values_map_eq {α β : Type} {d d' : Dict FactKey α} {f : α → β}
    (h : ∀ key, (d.get key).map f = (d'.get key).map f) : d.values.map f = d'.values.map f := by
  have hmap : d.map (fun _ => f) = d'.map fun _ => f :=
    Dict.ext_get fun key => by rw [Dict.get_map, Dict.get_map, h key]
  have hvalues := congrArg Dict.values hmap
  simpa only [Dict.values, Dict.map, List.map_map, Function.comp_def] using hvalues

/-- The groups of a key have the same statements. -/
theorem groups_reordered (h : Reordered primitives primitives') (key : FactKey) :
    (groupBy (ExtractedPrimitive.factKey rt) primitives).get key = none ∧
        (groupBy (ExtractedPrimitive.factKey rt) primitives').get key = none ∨
      ∃ group group', (groupBy (ExtractedPrimitive.factKey rt) primitives).get key = some group ∧
        (groupBy (ExtractedPrimitive.factKey rt) primitives').get key = some group' ∧
        Reordered group.items group'.items ∧ group.first.factKey rt = group'.first.factKey rt := by
  have hsome : ((groupBy (ExtractedPrimitive.factKey rt) primitives).get key).isSome = true ↔
      ((groupBy (ExtractedPrimitive.factKey rt) primitives').get key).isSome = true := by
    rw [get_isSome_iff, get_isSome_iff]
    simp only [h.perm.mem_iff]
  cases hget : (groupBy (ExtractedPrimitive.factKey rt) primitives).get key with
  | none =>
    refine .inl ⟨rfl, ?_⟩
    rw [hget] at hsome
    exact Option.not_isSome_iff_eq_none.mp fun hother => by cases hsome.mpr hother
  | some group =>
    rw [hget] at hsome
    obtain ⟨group', hget'⟩ := Option.isSome_iff_exists.mp (hsome.mp rfl)
    refine .inr ⟨group, group', rfl, hget', ?_, (first_key hget).trans (first_key hget').symm⟩
    rw [items_of_get hget, items_of_get hget']
    exact h.filter _

/-- What a mechanism's facts count for, whatever their spelling. -/
theorem weights_eq (h : Reordered primitives primitives') :
    (reconcile rt primitives settings).1.map (fun fact => (fact.mechanismId, fact.confidence)) =
      (reconcile rt primitives' settings).1.map
        fun fact => (fact.mechanismId, fact.confidence) := by
  unfold reconcile
  simp only [List.map_map]
  refine values_map_eq fun key => ?_
  rcases @groups_reordered rt _ _ h key with ⟨hnone, hnone'⟩ | ⟨_, _, hget, hget', hitems, hkey⟩
  · rw [hnone, hnone']
  · rw [hget, hget', Option.map_some, Option.map_some, Function.comp_apply, Function.comp_apply,
      factOf_respell hitems hkey]

/-- The groups spell their keys alike. -/
def SpelledAlike (rt : Runtime) (primitives primitives' : List ExtractedPrimitive) : Prop :=
  ∀ key group group', (groupBy (ExtractedPrimitive.factKey rt) primitives).get key = some group →
    (groupBy (ExtractedPrimitive.factKey rt) primitives').get key = some group' →
    group.first.subject = group'.first.subject ∧ group.first.predicate = group'.first.predicate

theorem reconcile_eq (h : Reordered primitives primitives')
    (hspelled : SpelledAlike rt primitives primitives') :
    reconcile rt primitives settings = reconcile rt primitives' settings := by
  have hfacts : ∀ key, ((groupBy (ExtractedPrimitive.factKey rt) primitives).get key).map
        (factOf rt settings) =
      ((groupBy (ExtractedPrimitive.factKey rt) primitives').get key).map
        (factOf rt settings) := by
    intro key
    rcases @groups_reordered rt _ _ h key with ⟨hnone, hnone'⟩ | ⟨_, _, hget, hget', hitems, hkey⟩
    · rw [hnone, hnone']
    · obtain ⟨hsubject, hpredicate⟩ := hspelled key _ _ hget hget'
      rw [hget, hget', Option.map_some, Option.map_some, factOf_respell hitems hkey, ← hsubject,
        ← hpredicate]
      rfl
  have hconflicts : ∀ key, ((groupBy (ExtractedPrimitive.factKey rt) primitives).get key).map
        (factConflicts rt settings) =
      ((groupBy (ExtractedPrimitive.factKey rt) primitives').get key).map
        (factConflicts rt settings) := by
    intro key
    rcases @groups_reordered rt _ _ h key with ⟨hnone, hnone'⟩ | ⟨_, _, hget, hget', hitems, hkey⟩
    · rw [hnone, hnone']
    · obtain ⟨hsubject, hpredicate⟩ := hspelled key _ _ hget hget'
      rw [hget, hget', Option.map_some, Option.map_some, factConflicts_respell hitems hkey]
      refine congrArg some ?_
      calc factConflicts rt settings _ = (factConflicts rt settings _).map id :=
            (List.map_id _).symm
        _ = (factConflicts rt settings _).map (ConflictRecord.respell _) := by
          refine List.map_congr_left fun c hc => ?_
          obtain ⟨kind, rfl⟩ := conflict_of_mem hc
          unfold ConflictRecord.respell
          rw [← hsubject, ← hpredicate]
          rfl
  unfold reconcile
  dsimp only
  rw [values_map_eq hfacts, List.flatMap_def, List.flatMap_def, values_map_eq hconflicts]

theorem RiskClass.order_injective {r s : RiskClass} (h : r.order = s.order) : r = s := by
  cases r <;> cases s <;> first | rfl | exact absurd h (by decide)

theorem riskForMechanism_eq (h : Reordered primitives primitives') (mechanismId : String) :
    riskForMechanism mechanismId primitives = riskForMechanism mechanismId primitives' := by
  have hperm : (ofMechanism mechanismId primitives).Perm (ofMechanism mechanismId primitives') :=
    h.perm.filter _
  have hdeclared := hperm.map ExtractedPrimitive.riskClass
  have hhighest : ∀ {l m : List RiskClass}, l.Perm m →
      (highestRisk l).order ≤ (highestRisk m).order := by
    intro l m hlm
    rcases highestRisk_mem l with hmem | hnone
    · exact le_highestRisk (hlm.mem_iff.mp hmem)
    · rw [hnone]
      exact Nat.zero_le _
  have hsame : highestRisk ((ofMechanism mechanismId primitives).map ExtractedPrimitive.riskClass) =
      highestRisk ((ofMechanism mechanismId primitives').map ExtractedPrimitive.riskClass) :=
    RiskClass.order_injective (le_antisymm (hhighest hdeclared) (hhighest hdeclared.symm))
  have hdefault : defaultRisk (ofMechanism mechanismId primitives) =
      defaultRisk (ofMechanism mechanismId primitives') :=
    RiskClass.order_injective
      (le_antisymm (defaultRisk_mono hperm.subset) (defaultRisk_mono hperm.symm.subset))
  unfold riskForMechanism
  dsimp only
  rw [hsame, hdefault]

end

/-! ## Acceptance -/

section
variable {rt : Runtime} {input : CompilerInput} {primitives primitives' : List ExtractedPrimitive}

/-- The floats of a candidate are in the range that is checked. -/
def InRange (rt : Runtime) (input : CompilerInput) (facts : List ReconciledFact) : Prop :=
  let confidence := sixPlaces rt.rounding (fmean rt.rounding (facts.map ReconciledFact.confidence))
  (0 ≤ confidence ∧ confidence ≤ 1) ∧
    0 ≤ input.settings.minimumReviewConfidence ∧ input.settings.minimumReviewConfidence ≤ 1

theorem candidateFor_accepts {mechanismId : String} {facts : List ReconciledFact} :
    (∃ c, candidateFor rt mechanismId input.institutionVersion facts primitives
      input.settings.minimumReviewConfidence = .ok c) ↔ InRange rt input facts := by
  constructor
  · rintro ⟨c, h⟩
    obtain ⟨_, hconfidence, h⟩ := bind_ok.mp h
    obtain ⟨_, hthreshold, h⟩ := bind_ok.mp h
    exact ⟨of_decide_eq_true (require_ok.mp hconfidence), of_decide_eq_true (require_ok.mp hthreshold)⟩
  · rintro ⟨hconfidence, hthreshold⟩
    exact ⟨_, bind_ok.mpr ⟨(), require_ok.mpr (decide_eq_true hconfidence),
      bind_ok.mpr ⟨(), require_ok.mpr (decide_eq_true hthreshold), rfl⟩⟩⟩

theorem candidatesOf_accepts {facts : List ReconciledFact} :
    (∃ candidates, candidatesOf rt input primitives facts = .ok candidates) ↔
      ∀ mechanismId ∈ facts.map ReconciledFact.mechanismId,
        InRange rt input (facts.filter fun fact => fact.mechanismId = mechanismId) := by
  constructor
  · rintro ⟨candidates, h⟩ mechanismId hid
    obtain ⟨fact, hfact, rfl⟩ := List.mem_map.mp hid
    have hsome : ((factsByMechanism facts).get fact.mechanismId).isSome = true :=
      get_isSome_iff.mpr ⟨fact, hfact, rfl⟩
    obtain ⟨group, hget⟩ := Option.isSome_iff_exists.mp hsome
    obtain ⟨c, _, hok⟩ := result_of_mapM h _ (Dict.mem_entries.mpr hget)
    rw [← items_of_get hget]
    exact candidateFor_accepts.mp ⟨c, hok⟩
  · intro h
    refine Fallible.mapM_succeeds fun e he => ?_
    have hget := Dict.mem_entries.mp he
    refine candidateFor_accepts.mpr ?_
    rw [items_of_get hget]
    obtain ⟨hmem, hkey⟩ := key_of_get hget e.2.first List.mem_cons_self
    exact h e.1 (hkey ▸ List.mem_map_of_mem hmem)

/-- The facts of reordered statements have candidates or not together. -/
theorem candidatesOf_reordered (h : Reordered primitives primitives')
    (hok : ∃ candidates, candidatesOf rt input primitives
      (reconcile rt primitives input.settings).1 = .ok candidates) :
    ∃ candidates, candidatesOf rt input primitives'
      (reconcile rt primitives' input.settings).1 = .ok candidates := by
  rw [candidatesOf_accepts] at hok ⊢
  have hweights := @weights_eq rt input.settings _ _ h
  generalize (reconcile rt primitives input.settings).1 = facts at hok hweights
  generalize (reconcile rt primitives' input.settings).1 = facts' at hweights ⊢
  have hids : facts.map ReconciledFact.mechanismId = facts'.map ReconciledFact.mechanismId := by
    simpa only [List.map_map, Function.comp_def] using congrArg (List.map Prod.fst) hweights
  intro mechanismId hid
  have hconfidences : ∀ l : List ReconciledFact,
      (l.filter fun fact => fact.mechanismId = mechanismId).map ReconciledFact.confidence =
        ((l.map fun fact => (fact.mechanismId, fact.confidence)).filter
          fun weight => weight.1 = mechanismId).map Prod.snd := by
    intro l
    rw [List.filter_map, List.map_map]
    rfl
  have hrange := hok mechanismId (hids ▸ hid)
  unfold InRange at hrange ⊢
  rw [hconfidences, ← hweights, ← hconfidences]
  exact hrange

theorem candidatesOf_eq (h : Reordered primitives primitives') (facts : List ReconciledFact) :
    candidatesOf rt input primitives facts = candidatesOf rt input primitives' facts := by
  unfold candidatesOf candidateFor
  simp only [riskForMechanism_eq h]

end

/-! ## The order of the sources -/

/-- The sources in another order. -/
def CompilerInput.reorder (input : CompilerInput) {sources : List SourceDocument}
    (h : input.sources.Perm sources) : CompilerInput where
  institutionVersion := input.institutionVersion
  sources
  settings := input.settings
  distinct := (h.map SourceDocument.identity).nodup_iff.mp input.distinct

/-- The first statement of a source with a key. -/
def firstStatement (rd : Reader) (key : FactKey) (source : SourceDocument) :
    Option ExtractedPrimitive :=
  ((extractSource rd source).toOption.getD []).find? fun p => p.factKey rd.toRuntime = key

/-- Where sources first state a fact, they spell it alike. -/
def ConsistentSpelling (rd : Reader) (sources : List SourceDocument) : Prop :=
  ∀ key, ∀ s ∈ sources, ∀ t ∈ sources, ∀ p q, firstStatement rd key s = some p →
    firstStatement rd key t = some q → p.subject = q.subject ∧ p.predicate = q.predicate

section
variable {rd : Reader} {input : CompilerInput}

/-- The statement that names a fact is the first one of the first source with the key. -/
theorem first_of_sources {sources : List SourceDocument} {primitives : List ExtractedPrimitive}
    (h : extractAll rd sources = .ok primitives) (key : FactKey) :
    ((groupBy (ExtractedPrimitive.factKey rd.toRuntime) primitives).get key).map Members.first =
      sources.findSome? (firstStatement rd key) := by
  obtain ⟨-, parts, hparts, rfl⟩ := extractAll_ok h
  rw [first_groupBy, List.find?_flatten]
  have heach := Fallible.forall₂_of_mapM hparts
  clear h hparts
  induction heach with
  | nil => rfl
  | cons hs _ ih =>
    rw [List.findSome?_cons, List.findSome?_cons, ih, firstStatement, hs]
    rfl

/-- What the statements of the sources are in another order of the sources. -/
theorem reordered_of_perm {sources : List SourceDocument} (hperm : input.sources.Perm sources)
    {primitives : List ExtractedPrimitive} (h : extractAll rd input.sources = .ok primitives) :
    ∃ primitives', extractAll rd sources = .ok primitives' ∧ Reordered primitives primitives' := by
  obtain ⟨primitives', h', hprimitives⟩ := extractAll_perm hperm h
  refine ⟨primitives', h', hprimitives, fun p hp => ?_, fun p hp q hq hid hversion => ?_⟩
  · obtain ⟨_, _, _, hp⟩ := mem_extractAll h hp
    exact hp.value
  · obtain ⟨s, hs, _, hp⟩ := mem_extractAll h hp
    obtain ⟨t, ht, _, hq⟩ := mem_extractAll h hq
    rw [hp.reference, hq.reference] at hid hversion ⊢
    rw [List.inj_on_of_nodup_map input.distinct hs ht (Prod.ext hid hversion)]

/-- **A list of sources that is accepted is accepted in every order.** -/
theorem accepted_reorder {sources : List SourceDocument} (hperm : input.sources.Perm sources)
    {output : CompilerOutput} (h : compileInstitution rd input = .ok output) :
    ∃ output', compileInstitution rd (input.reorder hperm) = .ok output' := by
  obtain ⟨primitives, candidates, hprimitives, hcandidates, -⟩ := compileInstitution_ok.mp h
  obtain ⟨primitives', hprimitives', hreordered⟩ := reordered_of_perm hperm hprimitives
  obtain ⟨candidates', hcandidates'⟩ := candidatesOf_reordered hreordered ⟨_, hcandidates⟩
  exact ⟨_, compileInstitution_ok.mpr ⟨primitives', candidates', hprimitives', hcandidates', rfl⟩⟩

/-- The first statement of a key is that of a source. -/
theorem source_of_first {sources : List SourceDocument} {primitives : List ExtractedPrimitive}
    (h : extractAll rd sources = .ok primitives) {key : FactKey}
    {group : Members ExtractedPrimitive}
    (hget : (groupBy (ExtractedPrimitive.factKey rd.toRuntime) primitives).get key = some group) :
    ∃ s ∈ sources, firstStatement rd key s = some group.first := by
  have hfirst := first_of_sources h key
  rw [hget] at hfirst
  exact List.exists_of_findSome?_eq_some hfirst.symm

theorem same_output (hspelled : ConsistentSpelling rd input.sources)
    {sources : List SourceDocument} (hperm : input.sources.Perm sources) {output : CompilerOutput}
    (h : compileInstitution rd input = .ok output) :
    compileInstitution rd (input.reorder hperm) = .ok output := by
  obtain ⟨primitives, candidates, hprimitives, hcandidates, rfl⟩ := compileInstitution_ok.mp h
  obtain ⟨primitives', hprimitives', hreordered⟩ := reordered_of_perm hperm hprimitives
  have halike : SpelledAlike rd.toRuntime primitives primitives' := by
    intro key group group' hget hget'
    obtain ⟨s, hs, hp⟩ := source_of_first hprimitives hget
    obtain ⟨t, ht, hq⟩ := source_of_first hprimitives' hget'
    exact hspelled key s hs t (hperm.mem_iff.mpr ht) _ _ hp hq
  have hreconciled := @reconcile_eq rd.toRuntime input.settings _ _ hreordered halike
  refine compileInstitution_ok.mpr ⟨primitives', candidates, hprimitives', ?_, ?_⟩
  · rw [← candidatesOf_eq hreordered]
    exact hreconciled ▸ hcandidates
  · exact congrArg (fun r => CompilerOutput.mk candidates r.2 _) hreconciled

/-- The facts of an output have distinct keys. -/
theorem same_fact {rt : Runtime} {primitives : List ExtractedPrimitive} {settings : CompilerSettings}
    {fact other : ReconciledFact} (hfact : fact ∈ (reconcile rt primitives settings).1)
    (hother : other ∈ (reconcile rt primitives settings).1) (h : fact.factKey rt = other.factKey rt) :
    fact = other := by
  obtain ⟨key, group, hget, rfl⟩ := mem_facts.mp hfact
  obtain ⟨key', group', hget', rfl⟩ := mem_facts.mp hother
  have hkey : key = key' := (first_key hget).symm.trans (h.trans (first_key hget'))
  subst hkey
  rw [hget] at hget'
  cases hget'
  rfl

/-- With a source first, its first statement of a key names the fact in the output. -/
theorem named_fact {s : SourceDocument} {rest : List SourceDocument}
    (hperm : input.sources.Perm (s :: rest)) {key : FactKey} {p : ExtractedPrimitive}
    (hp : firstStatement rd key s = some p) {output : CompilerOutput}
    (h : compileInstitution rd (input.reorder hperm) = .ok output) :
    ∃ fact ∈ output.candidates.flatMap CompilerCandidate.facts,
      fact.factKey rd.toRuntime = key ∧ fact.subject = p.subject ∧ fact.predicate = p.predicate := by
  obtain ⟨primitives, candidates, hprimitives, hcandidates, rfl⟩ := compileInstitution_ok.mp h
  have hfirst := first_of_sources hprimitives key
  rw [CompilerInput.reorder, List.findSome?_cons, hp] at hfirst
  obtain ⟨group, hget, hgroup⟩ := Option.map_eq_some_iff.mp hfirst
  refine ⟨factOf rd.toRuntime input.settings group,
    (candidates_facts hcandidates).mem_iff.mpr (mem_facts.mpr ⟨key, group, hget, rfl⟩),
    first_key hget, congrArg ExtractedPrimitive.subject hgroup,
    congrArg ExtractedPrimitive.predicate hgroup⟩

end

/-- **Every order of the sources gives the same output exactly when the sources spell alike the
facts they share; and every order is accepted or none is.** -/
theorem order_independent_iff (rd : Reader) (input : CompilerInput) :
    (∀ sources (hperm : input.sources.Perm sources),
      (∃ output, compileInstitution rd (input.reorder hperm) = .ok output) ↔
        ∃ output, compileInstitution rd input = .ok output) ∧
    ∀ output, compileInstitution rd input = .ok output →
      ((∀ sources (hperm : input.sources.Perm sources),
        compileInstitution rd (input.reorder hperm) = .ok output) ↔
        ConsistentSpelling rd input.sources) := by
  refine ⟨fun sources hperm => ⟨fun ⟨output, h⟩ => ?_, fun ⟨output, h⟩ => accepted_reorder hperm h⟩,
    fun output h => ⟨fun hall => ?_, fun hspelled _ hperm => same_output hspelled hperm h⟩⟩
  · have hback : (input.reorder hperm).sources.Perm input.sources := hperm.symm
    exact accepted_reorder hback h
  · intro key s hs t ht p q hp hq
    obtain ⟨before, after, hsplit⟩ := List.append_of_mem hs
    obtain ⟨before', after', hsplit'⟩ := List.append_of_mem ht
    have hperm : input.sources.Perm (s :: (before ++ after)) := hsplit ▸ List.perm_middle
    have hperm' : input.sources.Perm (t :: (before' ++ after')) := hsplit' ▸ List.perm_middle
    obtain ⟨fact, hfact, hkey, hsubject, hpredicate⟩ := named_fact hperm hp (hall _ hperm)
    obtain ⟨other, hother, hkey', hsubject', hpredicate'⟩ := named_fact hperm' hq (hall _ hperm')
    obtain ⟨primitives, candidates, _, hcandidates, rfl⟩ := compileInstitution_ok.mp h
    have hfacts := candidates_facts hcandidates
    have hsame := same_fact (hfacts.mem_iff.mp hfact) (hfacts.mem_iff.mp hother)
      (hkey.trans hkey'.symm)
    rw [← hsubject, ← hsubject', ← hpredicate, ← hpredicate', hsame]
    exact ⟨rfl, rfl⟩

/-! ### Two spellings -/

/-- `str.casefold`, for texts in ASCII. -/
def foldingReader : Reader :=
  { sampleReader with casefold := fun text => String.ofList (text.toList.map Char.toLower) }

/-- Two sources say the same of the nurse, whom only one of them capitalizes. -/
def nurseInput : CompilerInput where
  institutionVersion := "1"
  sources := [approverSource .normative "policy-a" "Nurse" "attending",
    approverSource .operational "ehr" "nurse" "attending"]
  settings := {}
  distinct := by decide

/-- The subject that the compiled facts have depends on the source that comes first. -/
theorem spelling_of_first_source :
    ¬ ∀ (rd : Reader) (input : CompilerInput) (sources : List SourceDocument)
      (hperm : input.sources.Perm sources),
      compileInstitution rd (input.reorder hperm) = compileInstitution rd input := by
  intro h
  have hswap := h foldingReader nurseInput nurseInput.sources.reverse (List.reverse_perm _).symm
  have hsubjects := congrArg (fun result => result.toOption.elim [] fun output =>
    output.candidates.flatMap fun c => c.facts.map ReconciledFact.subject) hswap
  exact absurd hsubjects (by decide +kernel)

end Edon.Compiler
