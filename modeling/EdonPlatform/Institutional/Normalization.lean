import EdonPlatform.Institutional.IR
import EdonPlatform.Lib.Traversal

/- The canonical form is canonical.

   What is proved:
     1. `IR.Normal` — what `normalize` establishes of its result (`normalize_normal`), and that a
        result in this form, written as a document, is accepted again and returned unchanged
        exactly if its type and its relations still fit (`normalize_again`): they are put into
        upper case after their length is checked.
     2. `normalize_permuted` — the order of objects, references, sources and horizons in a document
        does not show in its canonical form.
   `canonical_form_iff` has both for every accepted document. -/
namespace Edon.Institutional
open Json KeyedSort

/-! ## Texts -/

/-- A text is stripped exactly if it has no blank at either end. -/
theorem strip_eq_iff {s : String} : strip s = s ↔
    (∀ c ∈ s.toList.head?, isSpace c = false) ∧ ∀ c ∈ s.toList.getLast?, isSpace c = false := by
  have hfront : s.toList.dropWhile isSpace = s.toList ↔
      ∀ c ∈ s.toList.head?, isSpace c = false := by
    cases s.toList with
    | nil => simp
    | cons c l => rw [List.dropWhile_eq_self_iff]; simp
  have hback : s.toList.rdropWhile isSpace = s.toList ↔
      ∀ c ∈ s.toList.getLast?, isSpace c = false := by
    rw [List.rdropWhile_eq_self_iff]
    constructor
    · intro h c hc
      have hne : s.toList ≠ [] := fun hnil => by rw [hnil] at hc; cases hc
      rw [List.getLast?_eq_some_getLast hne, Option.mem_some_iff] at hc
      exact hc ▸ Bool.eq_false_iff.mpr (h hne)
    · intro h hne
      exact Bool.eq_false_iff.mp (h _ (List.getLast?_eq_some_getLast hne ▸ rfl))
  rw [← hfront, ← hback]
  unfold strip
  constructor
  · intro h
    have hlist : (s.toList.dropWhile isSpace).rdropWhile isSpace = s.toList := by
      rw [← String.toList_ofList (l := (s.toList.dropWhile isSpace).rdropWhile isSpace), h]
    have hdrop : s.toList.dropWhile isSpace = s.toList := by
      refine (List.dropWhile_suffix isSpace).eq_of_length_le ?_
      calc s.toList.length = ((s.toList.dropWhile isSpace).rdropWhile isSpace).length := by rw [hlist]
        _ ≤ (s.toList.dropWhile isSpace).length := (List.rdropWhile_prefix _ _).length_le
    exact ⟨hdrop, by rwa [hdrop] at hlist⟩
  · rintro ⟨hdrop, hrdrop⟩
    rw [hdrop, hrdrop, String.ofList_toList]

section
variable {rt : Runtime}

/-- A text that `_identifier` accepts and leaves unchanged. -/
structure Identifier (s : String) : Prop where
  stripped : strip s = s
  nonempty : s ≠ ""
  short : s.length ≤ 200

theorem identifierOf_ok {value : Json} {label s : String} (h : identifierOf rt value label = .ok s) :
    s = strip (text rt value) ∧ Identifier s := by
  unfold identifierOf at h
  split at h
  · cases h
  · obtain ⟨rfl, hne, hlen⟩ := bounded_ok h
    exact ⟨rfl, strip_strip _, hne, hlen⟩

theorem identifierOf_str {s : String} (h : Identifier s) (label : String) :
    identifierOf rt (.str s) label = .ok s := by
  show bounded _ 200 s = .ok s
  unfold bounded
  dsimp only
  rw [h.stripped, if_neg]
  rintro (hempty | hlong)
  · exact h.nonempty hempty
  · exact absurd h.short (not_le.mpr hlong)

theorem upperCase_upperCase (s : String) : upperCase rt (upperCase rt s) = upperCase rt s := by
  unfold upperCase
  rw [String.toList_ofList, List.flatMap_assoc]
  refine congrArg String.ofList (List.flatMap_congr fun c _ => ?_)
  rw [List.flatMap_congr (rt.upper_upper c), List.flatMap_singleton']

theorem upperCase_ne_empty {s : String} (h : s ≠ "") : upperCase rt s ≠ "" := by
  intro hempty
  have hlist : s.toList.flatMap rt.upperChar = [] := by
    rw [← String.toList_ofList (l := s.toList.flatMap rt.upperChar), show String.ofList _ = "" from hempty]
    rfl
  rw [List.flatMap_eq_nil_iff] at hlist
  refine h (String.toList_eq_nil_iff.mp (List.eq_nil_iff_forall_not_mem.mpr fun c hc => ?_))
  exact rt.upper_ne_nil c (hlist c hc)

/-- Upper case keeps a text without blanks at its ends so. -/
theorem strip_upperCase {s : String} (h : strip s = s) : strip (upperCase rt s) = upperCase rt s := by
  obtain ⟨hfirst, hlast⟩ := strip_eq_iff.mp h
  rw [strip_eq_iff]
  unfold upperCase
  rw [String.toList_ofList]
  constructor
  · cases hlist : s.toList with
    | nil => simp
    | cons c l =>
      intro d hd
      rw [List.flatMap_cons, List.head?_append_of_ne_nil _ (rt.upper_ne_nil c)] at hd
      refine rt.upper_space c (hfirst c ?_) d (List.mem_of_mem_head? hd)
      rw [hlist]
      rfl
  · rcases List.eq_nil_or_concat s.toList with hlist | ⟨l, c, hlist⟩
    · rw [hlist]
      simp
    · intro d hd
      rw [hlist, List.concat_eq_append, List.flatMap_append, List.flatMap_singleton,
        List.getLast?_append_of_ne_nil _ (rt.upper_ne_nil c)] at hd
      refine rt.upper_space c (hlast c ?_) d (List.mem_of_getLast? hd)
      rw [hlist, List.concat_eq_append, List.getLast?_concat]
      rfl

/-- A sorted set of identifiers. -/
structure Identifiers (l : List String) : Prop where
  each : ∀ s ∈ l, Identifier s
  sorted : sortedSet l = l

theorem identifierSet_ok {value : Json} {label : String} {l : List String}
    (h : identifierSet rt value label = .ok l) : Identifiers l := by
  obtain ⟨items, _, h⟩ := bind_ok.mp h
  obtain ⟨identifiers, hidentifiers, h⟩ := bind_ok.mp h
  cases h
  refine ⟨fun s hs => ?_, sortedSet_congr fun x => mem_sortedSet⟩
  obtain ⟨item, _, hitem⟩ := mem_of_mapM hidentifiers s (mem_sortedSet.mp hs)
  exact (identifierOf_ok hitem).2

theorem identifierSet_texts {l : List String} (h : Identifiers l) (label : String) :
    identifierSet rt (textsJson l) label = .ok l := by
  have hmap : (l.map Json.str).mapM (fun item => identifierOf rt item label) = .ok l := by
    refine Fallible.mapM_of_forall₂ ?_
    rw [List.forall₂_map_left_iff, List.forall₂_same]
    exact fun s hs => identifierOf_str (h.each s hs) label
  refine bind_ok.mpr ⟨l.map Json.str, rfl, bind_ok.mpr ⟨l, hmap, ?_⟩⟩
  rw [h.sorted]
  rfl

/-! ## Numbers -/

def Probability (q : Rat) : Prop := 0 ≤ q ∧ q ≤ 1

theorem probability_ok {value : Json} {label : String} {q : Rat}
    (h : probability value label = .ok q) : Probability q := by
  unfold probability at h
  split at h
  · split at h
    · cases h
    · split at h
      · next n _ hn =>
        cases h
        exact ⟨Int.cast_nonneg hn.1, by exact_mod_cast hn.2⟩
      · cases h
  · split at h
    · next hq =>
      cases h
      exact hq
    · cases h
  · cases h

theorem probability_float {q : Rat} (h : Probability q) (label : String) :
    probability (.float q) label = .ok q := if_pos h

/-! ## The states of an object -/

structure TemporalState.Normal (t : TemporalState) : Prop where
  nonneg : 0 ≤ min t.validFromSeconds t.observedAtSeconds
  ordered : ∀ u, t.validUntilSeconds = some u → t.validFromSeconds ≤ u

theorem temporal_normal {raw : Json} {t : TemporalState} (h : normalizeTemporal rt raw = .ok t) :
    t.Normal := by
  obtain ⟨fields, _, h⟩ := bind_ok.mp h
  obtain ⟨validFrom, _, h⟩ := bind_ok.mp h
  obtain ⟨validUntil, _, h⟩ := bind_ok.mp h
  obtain ⟨observedAt, _, h⟩ := bind_ok.mp h
  obtain ⟨_, hcheck, h⟩ := bind_ok.mp h
  cases h
  have hcheck := require_ok.mp hcheck
  rw [Bool.and_eq_true, decide_eq_true_eq] at hcheck
  refine ⟨hcheck.1, fun u hu => ?_⟩
  have huntil : validUntil = some u := hu
  rw [huntil] at hcheck
  exact of_decide_eq_true hcheck.2

theorem temporal_again {t : TemporalState} (h : t.Normal) : normalizeTemporal rt t.json = .ok t := by
  obtain ⟨validFrom, validUntil, observedAt⟩ := t
  have huntil : optionalInt rt (optionJson .int validUntil) = .ok validUntil := by
    cases validUntil <;> rfl
  have hcheck : (0 ≤ min validFrom observedAt && validUntil.all fun u => validFrom ≤ u) = true := by
    rw [Bool.and_eq_true, decide_eq_true_eq]
    refine ⟨h.nonneg, ?_⟩
    cases validUntil with
    | none => rfl
    | some u => exact decide_eq_true (h.ordered u rfl)
  exact bind_ok.mpr ⟨_, rfl, bind_ok.mpr ⟨validFrom, rfl, bind_ok.mpr ⟨validUntil, huntil,
    bind_ok.mpr ⟨observedAt, rfl, bind_ok.mpr ⟨(), require_ok.mpr hcheck, rfl⟩⟩⟩⟩⟩

/-- A name found for a text in upper case is in upper case. -/
theorem named_upper {α : Type} {name : α → String} {all : List α} {s : String} {a : α}
    (h : named name all (upperCase rt s) = some a) : upperCase rt (name a) = name a := by
  have hname := List.find?_some h
  rw [decide_eq_true_eq] at hname
  rw [hname, upperCase_upperCase]

theorem named_again {α : Type} {name : α → String} {all : List α} (hmem : ∀ a, a ∈ all)
    (hinj : Function.Injective name) {a : α} (h : upperCase rt (name a) = name a) :
    named name all (upperCase rt (name a)) = some a := by
  rw [h]
  unfold named
  have hfound : (all.find? fun b => name b = name a).isSome = true :=
    List.find?_isSome.mpr ⟨a, hmem a, decide_eq_true rfl⟩
  obtain ⟨b, hb⟩ := Option.isSome_iff_exists.mp hfound
  have hname := List.find?_some hb
  rw [decide_eq_true_eq] at hname
  rw [hb, hinj hname]

structure EpistemicState.Normal (rt : Runtime) (e : EpistemicState) : Prop where
  upper : upperCase rt e.status.name = e.status.name
  confidence : Probability e.confidence
  unknown : e.status = .unknown → e.confidence = 0
  probabilistic : e.status = .probabilistic → e.confidence ≠ 0 ∧ e.confidence ≠ 1
  sources : Identifiers e.sources
  asOf : ∀ s, e.asOf = some s → rt.fromisoformat (replaceZ s) = true

theorem isoOrNone_ok {value : Json} {label : String} {o : Option String}
    (h : isoOrNone rt value label = .ok o) :
    ∀ s, o = some s → rt.fromisoformat (replaceZ s) = true := by
  unfold isoOrNone at h
  split at h
  · cases h
    intro s hs
    cases hs
  · split at h
    · next hread =>
      cases h
      intro s hs
      cases hs
      exact hread
    · cases h

theorem epistemic_normal {raw : Json} {objectType : ObjectType} {e : EpistemicState}
    (h : normalizeEpistemic rt raw objectType = .ok e) : e.Normal rt := by
  obtain ⟨fields, _, h⟩ := bind_ok.mp h
  obtain ⟨status, hstatus, h⟩ := bind_ok.mp h
  obtain ⟨confidence, hconfidence, h⟩ := bind_ok.mp h
  obtain ⟨_, hunknown, h⟩ := bind_ok.mp h
  obtain ⟨_, hprobabilistic, h⟩ := bind_ok.mp h
  obtain ⟨sources, hsources, h⟩ := bind_ok.mp h
  obtain ⟨asOf, hasOf, h⟩ := bind_ok.mp h
  cases h
  have hunknown := require_ok.mp hunknown
  have hprobabilistic := require_ok.mp hprobabilistic
  refine ⟨named_upper (orRaise_ok.mp hstatus), probability_ok hconfidence, fun hstatus => ?_,
    fun hstatus => ?_, identifierSet_ok hsources, isoOrNone_ok hasOf⟩
  · simpa [show status = .unknown from hstatus] using hunknown
  · simpa [show status = .probabilistic from hstatus] using hprobabilistic

theorem EpistemicStatus.mem_all (status : EpistemicStatus) : status ∈ epistemicStatuses := by
  cases status <;> decide

theorem EpistemicStatus.name_injective : Function.Injective EpistemicStatus.name := by
  intro a b h
  cases a <;> cases b <;> first
    | rfl
    | exact absurd h (by decide)

theorem epistemic_again {objectType : ObjectType} {e : EpistemicState} (h : e.Normal rt) :
    normalizeEpistemic rt e.json objectType = .ok e := by
  obtain ⟨status, confidence, asOf, sources, critical⟩ := e
  have hunknown : (status ≠ .unknown || confidence = 0) = true := by
    cases hstatus : status <;> simp
    exact h.unknown hstatus
  have hprobabilistic : (status ≠ .probabilistic || (confidence ≠ 0 && confidence ≠ 1)) = true := by
    cases hstatus : status <;> simp
    exact h.probabilistic hstatus
  have hasOf : isoOrNone rt (optionJson .str asOf) "epistemic as_of" = .ok asOf := by
    cases asOf with
    | none => rfl
    | some s => exact if_pos (h.asOf s rfl)
  have hstatus : orRaise (irError ("unsupported epistemic status: " ++ upperCase rt status.name))
      (named EpistemicStatus.name epistemicStatuses (upperCase rt status.name)) = .ok status :=
    orRaise_ok.mpr (named_again EpistemicStatus.mem_all EpistemicStatus.name_injective h.upper)
  exact bind_ok.mpr ⟨_, rfl, bind_ok.mpr ⟨status, hstatus,
    bind_ok.mpr ⟨confidence, probability_float h.confidence _,
    bind_ok.mpr ⟨(), require_ok.mpr hunknown, bind_ok.mpr ⟨(), require_ok.mpr hprobabilistic,
    bind_ok.mpr ⟨sources, identifierSet_texts h.sources _, bind_ok.mpr ⟨asOf, hasOf, rfl⟩⟩⟩⟩⟩⟩⟩

structure BehaviorModel.Normal (rt : Runtime) (b : BehaviorModel) : Prop where
  upper : upperCase rt b.strategicBehavior.name = b.strategicBehavior.name
  objectives : Identifiers b.objectives
  incentives : Identifiers b.incentives
  trust : ∀ e ∈ b.trust.entries, Identifier e.1 ∧ Probability e.2
  fatigue : Probability b.fatigue
  riskTolerance : Probability b.riskTolerance
  informationAccess : Identifiers b.informationAccess
  cooperationProbability : Probability b.cooperationProbability
  boundedRationality : Probability b.boundedRationality

theorem normalizeTrust_ok {items : List (String × Json)} {trust : List (String × Rat)}
    (h : normalizeTrust rt items = .ok trust) : ∀ e ∈ trust, Identifier e.1 ∧ Probability e.2 := by
  induction items generalizing trust with
  | nil =>
    cases h
    simp
  | cons item items ih =>
    obtain ⟨key, hkey, h⟩ := bind_ok.mp h
    obtain ⟨value, hvalue, h⟩ := bind_ok.mp h
    obtain ⟨rest, hrest, h⟩ := bind_ok.mp h
    cases h
    rw [List.forall_mem_cons]
    exact ⟨⟨(identifierOf_ok hkey).2, probability_ok hvalue⟩, ih hrest⟩

theorem behavior_normal {raw : Json} {b : BehaviorModel} (h : normalizeBehavior rt raw = .ok b) :
    b.Normal rt := by
  obtain ⟨fields, _, h⟩ := bind_ok.mp h
  obtain ⟨strategicBehavior, hstrategic, h⟩ := bind_ok.mp h
  obtain ⟨trustRaw, _, h⟩ := bind_ok.mp h
  obtain ⟨trust, htrust, h⟩ := bind_ok.mp h
  obtain ⟨objectives, hobjectives, h⟩ := bind_ok.mp h
  obtain ⟨incentives, hincentives, h⟩ := bind_ok.mp h
  obtain ⟨fatigue, hfatigue, h⟩ := bind_ok.mp h
  obtain ⟨riskTolerance, hrisk, h⟩ := bind_ok.mp h
  obtain ⟨informationAccess, haccess, h⟩ := bind_ok.mp h
  obtain ⟨cooperationProbability, hcooperation, h⟩ := bind_ok.mp h
  obtain ⟨boundedRationality, hrationality, h⟩ := bind_ok.mp h
  cases h
  refine ⟨named_upper (orRaise_ok.mp hstrategic), identifierSet_ok hobjectives,
    identifierSet_ok hincentives, fun e he => ?_, probability_ok hfatigue, probability_ok hrisk,
    identifierSet_ok haccess, probability_ok hcooperation, probability_ok hrationality⟩
  exact normalizeTrust_ok htrust e (Dict.mem_of_get_ofList (Dict.mem_entries.mp he))

theorem StrategicBehavior.mem_all (b : StrategicBehavior) : b ∈ strategicBehaviors := by
  cases b <;> decide

theorem StrategicBehavior.name_injective : Function.Injective StrategicBehavior.name := by
  intro a b h
  cases a <;> cases b <;> first
    | rfl
    | exact absurd h (by decide)

theorem normalizeTrust_entries {entries : List (String × Rat)}
    (h : ∀ e ∈ entries, Identifier e.1 ∧ Probability e.2) :
    normalizeTrust rt (entries.map fun e => (e.1, .float e.2)) = .ok entries := by
  induction entries with
  | nil => rfl
  | cons e entries ih =>
    obtain ⟨⟨hkey, hvalue⟩, hrest⟩ := List.forall_mem_cons.mp h
    exact bind_ok.mpr ⟨_, identifierOf_str hkey _, bind_ok.mpr ⟨_, probability_float hvalue _,
      bind_ok.mpr ⟨entries, ih hrest, rfl⟩⟩⟩

theorem behavior_again {b : BehaviorModel} (h : b.Normal rt) :
    normalizeBehavior rt b.json = .ok b := by
  have hstrategic : orRaise (irError ("unsupported strategic behavior: " ++
        upperCase rt b.strategicBehavior.name))
      (named StrategicBehavior.name strategicBehaviors (upperCase rt b.strategicBehavior.name)) =
        .ok b.strategicBehavior :=
    orRaise_ok.mpr (named_again StrategicBehavior.mem_all StrategicBehavior.name_injective h.upper)
  have htrust : normalizeTrust rt (Assoc.sortKeys (b.trust.entries.map fun t => (t.1, .float t.2))) =
      .ok b.trust.entries := by
    rw [Assoc.sortKeys_of_ascending]
    · exact normalizeTrust_entries h.trust
    · exact List.Pairwise.map _ (fun _ _ hlt => hlt) b.trust.ascending
  refine bind_ok.mpr ⟨_, rfl, bind_ok.mpr ⟨_, hstrategic, bind_ok.mpr ⟨_, rfl,
    bind_ok.mpr ⟨_, htrust, bind_ok.mpr ⟨_, identifierSet_texts h.objectives _,
    bind_ok.mpr ⟨_, identifierSet_texts h.incentives _,
    bind_ok.mpr ⟨_, probability_float h.fatigue _, bind_ok.mpr ⟨_, probability_float h.riskTolerance _,
    bind_ok.mpr ⟨_, identifierSet_texts h.informationAccess _,
    bind_ok.mpr ⟨_, probability_float h.cooperationProbability _,
    bind_ok.mpr ⟨_, probability_float h.boundedRationality _, ?_⟩⟩⟩⟩⟩⟩⟩⟩⟩⟩⟩
  rw [Dict.ofList_entries]
  rfl

/-! ## Objects -/

/-- A reference whose relation is in upper case, of any length. -/
structure Reference.Normal (rt : Runtime) (r : Reference) : Prop where
  upper : upperCase rt r.relation = r.relation
  stripped : strip r.relation = r.relation
  nonempty : r.relation ≠ ""
  target : Identifier r.targetId

theorem reference_normal {raw : Json} {r : Reference} (h : normalizeReference rt raw = .ok r) :
    r.Normal rt := by
  unfold normalizeReference at h
  split at h
  · obtain ⟨relation, hrelation, h⟩ := bind_ok.mp h
    obtain ⟨targetId, htarget, h⟩ := bind_ok.mp h
    cases h
    obtain ⟨_, hidentifier⟩ := identifierOf_ok hrelation
    exact ⟨upperCase_upperCase _, strip_upperCase hidentifier.stripped,
      upperCase_ne_empty hidentifier.nonempty, (identifierOf_ok htarget).2⟩
  · cases h

theorem reference_again {r : Reference} (h : r.Normal rt) (hfits : r.relation.length ≤ 200) :
    normalizeReference rt r.json = .ok r := by
  refine bind_ok.mpr ⟨r.relation, identifierOf_str ⟨h.stripped, h.nonempty, hfits⟩ _,
    bind_ok.mpr ⟨r.targetId, identifierOf_str h.target _, ?_⟩⟩
  rw [h.upper]
  rfl

theorem reference_fits {r r' : Reference} (h : r.Normal rt)
    (hagain : normalizeReference rt r.json = .ok r') : r.relation.length ≤ 200 := by
  obtain ⟨relation, hrelation, -⟩ := bind_ok.mp hagain
  obtain ⟨heq, hidentifier⟩ := identifierOf_ok hrelation
  have hsame : relation = r.relation := heq.trans h.stripped
  exact hsame ▸ hidentifier.short

theorem Reference.key_injective : Function.Injective Reference.key := by
  rintro ⟨relation, targetId⟩ ⟨relation', targetId'⟩ h
  cases toLex_inj.mp h
  rfl

structure Object.Normal (rt : Runtime) (o : Object) : Prop where
  objectId : Identifier o.objectId
  upper : upperCase rt o.objectType.name = o.objectType.name
  name : Identifier o.name
  references : ∀ r ∈ o.references, r.Normal rt
  sorted : sortBy Reference.key o.references = o.references
  temporal : o.temporalState.Normal
  epistemic : o.epistemicState.Normal rt
  behavior : ∀ b, o.behaviorModel = some b → b.Normal rt
  actor : o.behaviorModel.isSome = true ↔ o.objectType = .actor

/-- The relations of an object are short enough to be accepted again. -/
def Object.Fits (o : Object) : Prop := ∀ r ∈ o.references, r.relation.length ≤ 200

theorem actor_normal {objectType : ObjectType} {raw : Json} {o : Option BehaviorModel}
    (h : normalizeActor rt objectType raw = .ok o) :
    (∀ b, o = some b → b.Normal rt) ∧ (o.isSome = true ↔ objectType = .actor) := by
  unfold normalizeActor at h
  split at h
  · next htype =>
    cases hbehavior : normalizeBehavior rt raw with
    | error e =>
      rw [hbehavior] at h
      cases h
    | ok b =>
      rw [hbehavior] at h
      cases h
      refine ⟨fun b' hb' => ?_, iff_of_true rfl htype⟩
      cases hb'
      exact behavior_normal hbehavior
  · next htype =>
    split at h
    · cases h
      exact ⟨fun b hb => (by cases hb), iff_of_false Bool.false_ne_true htype⟩
    · cases h

theorem object_id {objectId : String} {fields : List (String × Json)} {o : Object}
    (h : normalizeObject rt objectId fields = .ok o) : o.objectId = objectId := by
  obtain ⟨_, _, h⟩ := bind_ok.mp h
  obtain ⟨_, _, h⟩ := bind_ok.mp h
  obtain ⟨_, _, h⟩ := bind_ok.mp h
  obtain ⟨_, _, h⟩ := bind_ok.mp h
  obtain ⟨_, _, h⟩ := bind_ok.mp h
  obtain ⟨_, _, h⟩ := bind_ok.mp h
  obtain ⟨_, _, h⟩ := bind_ok.mp h
  cases h
  rfl

theorem object_normal {objectId : String} {fields : List (String × Json)} {o : Object}
    (hid : Identifier objectId) (h : normalizeObject rt objectId fields = .ok o) : o.Normal rt := by
  obtain ⟨objectType, htype, h⟩ := bind_ok.mp h
  obtain ⟨rawReferences, _, h⟩ := bind_ok.mp h
  obtain ⟨references, hreferences, h⟩ := bind_ok.mp h
  obtain ⟨name, hname, h⟩ := bind_ok.mp h
  obtain ⟨temporalState, htemporal, h⟩ := bind_ok.mp h
  obtain ⟨epistemicState, hepistemic, h⟩ := bind_ok.mp h
  obtain ⟨behaviorModel, hbehavior, h⟩ := bind_ok.mp h
  cases h
  obtain ⟨hmodel, hactor⟩ := actor_normal hbehavior
  refine ⟨hid, named_upper (orRaise_ok.mp htype), (identifierOf_ok hname).2, fun r hr => ?_,
    sortBy_sortBy _, temporal_normal htemporal, epistemic_normal hepistemic, hmodel,
    hactor⟩
  obtain ⟨raw, _, hraw⟩ := mem_of_mapM hreferences r (mem_sortBy.mp hr)
  exact reference_normal hraw

theorem ObjectType.mem_all (t : ObjectType) : t ∈ objectTypes := by
  cases t <;> decide

theorem ObjectType.name_injective : Function.Injective ObjectType.name := by
  intro a b h
  cases a <;> cases b <;> first
    | rfl
    | exact absurd h (by decide)

/-- The entries of an object as a document. -/
def Object.entries (o : Object) : List (String × Json) :=
  o.fields ++ match o.behaviorModel with
    | some b => [("behavior_model", b.json)]
    | none => []

theorem actor_again {o : Object} (h : o.Normal rt) :
    normalizeActor rt o.objectType (get o.entries "behavior_model" .null) = .ok o.behaviorModel := by
  have hactor := h.actor
  have hbehavior := h.behavior
  unfold Object.entries normalizeActor
  cases hmodel : o.behaviorModel with
  | none =>
    rw [hmodel] at hactor
    rw [if_neg fun htype => Bool.false_ne_true (hactor.mpr htype)]
    rfl
  | some b =>
    rw [hmodel] at hactor
    rw [if_pos (hactor.mp rfl)]
    show (normalizeBehavior rt b.json).map some = _
    rw [behavior_again (hbehavior b hmodel)]
    rfl

theorem references_again {references : List Reference} (h : ∀ r ∈ references, r.Normal rt)
    (hfits : ∀ r ∈ references, r.relation.length ≤ 200) :
    (references.map Reference.json).mapM (normalizeReference rt) = .ok references := by
  refine Fallible.mapM_of_forall₂ ?_
  rw [List.forall₂_map_left_iff, List.forall₂_same]
  exact fun r hr => reference_again (h r hr) (hfits r hr)

theorem object_again {o : Object} (h : o.Normal rt) (hfits : o.Fits) :
    normalizeObject rt o.objectId o.entries = .ok o := by
  have htype : orRaise (irError ("unsupported Institutional IR object_type: " ++
        upperCase rt o.objectType.name))
      (named ObjectType.name objectTypes (upperCase rt o.objectType.name)) = .ok o.objectType :=
    orRaise_ok.mpr (named_again ObjectType.mem_all ObjectType.name_injective h.upper)
  refine bind_ok.mpr ⟨_, htype, bind_ok.mpr ⟨_, rfl,
    bind_ok.mpr ⟨_, references_again h.references hfits,
    bind_ok.mpr ⟨_, identifierOf_str h.name _, bind_ok.mpr ⟨_, temporal_again h.temporal,
    bind_ok.mpr ⟨_, epistemic_again h.epistemic, bind_ok.mpr ⟨_, actor_again h, ?_⟩⟩⟩⟩⟩⟩⟩
  rw [h.sorted]
  rfl

theorem object_fits {o o' : Object} {objectId : String} (h : o.Normal rt)
    (hagain : normalizeObject rt objectId o.entries = .ok o') : o.Fits := by
  obtain ⟨_, _, hagain⟩ := bind_ok.mp hagain
  obtain ⟨rawReferences, hraw, hagain⟩ := bind_ok.mp hagain
  obtain ⟨references, hreferences, -⟩ := bind_ok.mp hagain
  cases hraw
  intro r hr
  obtain ⟨r', _, hr'⟩ := result_of_mapM hreferences r.json (List.mem_map_of_mem hr)
  exact reference_fits (h.references r hr) hr'

/-! ## Items with ids of their own -/

section
variable {α : Type} {key : String} {malformed : PyError} {duplicate : String → PyError}
  {item : String → List (String × Json) → Except PyError α}

/-- An item with its id, whatever the others are. -/
def itemOf (rt : Runtime) (key : String) (malformed : PyError)
    (item : String → List (String × Json) → Except PyError α) : Json → Except PyError (String × α)
  | .obj fields => do
    let itemId ← identifierOf rt (get fields key .null) key
    let result ← item itemId fields
    return (itemId, result)
  | _ => .error malformed

/-- The loop returns the items exactly if each of them is accepted and their ids are new. -/
theorem distinctItems_ok {seen : List String} {raws : List Json} {results : List α} :
    distinctItems rt key malformed duplicate item seen raws = .ok results ↔
      ∃ items, raws.mapM (itemOf rt key malformed item) = .ok items ∧ results = items.map Prod.snd ∧
        (items.map Prod.fst).Nodup ∧ ∀ e ∈ items, e.1 ∉ seen := by
  induction raws generalizing seen results with
  | nil =>
    constructor
    · intro h
      cases h
      exact ⟨[], rfl, rfl, .nil, by simp⟩
    · rintro ⟨items, hitems, rfl, -, -⟩
      cases hitems
      rfl
  | cons raw raws ih =>
    rw [List.mapM_cons]
    cases raw with
    | obj fields =>
      constructor
      · intro h
        obtain ⟨itemId, hid, h⟩ := bind_ok.mp h
        obtain ⟨_, hnew, h⟩ := bind_ok.mp h
        obtain ⟨result, hresult, h⟩ := bind_ok.mp h
        obtain ⟨rest, hrest, h⟩ := bind_ok.mp h
        cases h
        obtain ⟨items, hitems, rfl, hnodup, hseen⟩ := ih.mp hrest
        have hnew := of_decide_eq_true (require_ok.mp hnew)
        refine ⟨(itemId, result) :: items, bind_ok.mpr ⟨(itemId, result), ?_,
          bind_ok.mpr ⟨items, hitems, rfl⟩⟩, rfl, ?_, ?_⟩
        · exact bind_ok.mpr ⟨itemId, hid, bind_ok.mpr ⟨result, hresult, rfl⟩⟩
        · refine List.nodup_cons.mpr ⟨fun hmem => ?_, hnodup⟩
          obtain ⟨e, he, heq⟩ := List.mem_map.mp hmem
          exact hseen e he (heq ▸ List.mem_cons_self)
        · rw [List.forall_mem_cons]
          exact ⟨hnew, fun e he hmem => hseen e he (List.mem_cons_of_mem _ hmem)⟩
      · rintro ⟨items, hitems, rfl, hnodup, hseen⟩
        obtain ⟨⟨itemId, result⟩, hitem, hitems⟩ := bind_ok.mp hitems
        obtain ⟨rest, hrest, hitems⟩ := bind_ok.mp hitems
        cases hitems
        obtain ⟨itemId', hid, hitem⟩ := bind_ok.mp hitem
        obtain ⟨result', hresult, hitem⟩ := bind_ok.mp hitem
        cases hitem
        obtain ⟨hnot, hnodup⟩ := List.nodup_cons.mp hnodup
        obtain ⟨hnew, hseen⟩ := List.forall_mem_cons.mp hseen
        refine bind_ok.mpr ⟨itemId, hid, bind_ok.mpr ⟨(), require_ok.mpr (decide_eq_true hnew),
          bind_ok.mpr ⟨result, hresult, bind_ok.mpr ⟨_, ih.mpr ⟨rest, hrest, rfl, hnodup, ?_⟩, rfl⟩⟩⟩⟩
        intro e he hmem
        rcases List.mem_cons.mp hmem with heq | hmem
        · exact hnot (List.mem_map.mpr ⟨e, he, heq⟩)
        · exact hseen e he hmem
    | _ =>
      refine iff_of_false (fun h => by cases h) ?_
      rintro ⟨items, hitems, -⟩
      obtain ⟨_, hitem, -⟩ := bind_ok.mp hitems
      cases hitem

end

/-- The ids of the items, where an item keeps the id it is read under. -/
theorem items_ids {α : Type} {key : String} {malformed : PyError} {idOf : α → String}
    {item : String → List (String × Json) → Except PyError α} {raws : List Json}
    {items : List (String × α)} (h : raws.mapM (itemOf rt key malformed item) = .ok items)
    (hid : ∀ itemId fields a, item itemId fields = .ok a → idOf a = itemId) :
    items.map Prod.fst = (items.map Prod.snd).map idOf := by
  rw [List.map_map]
  refine List.map_congr_left fun e he => ?_
  obtain ⟨raw, _, hraw⟩ := mem_of_mapM h e he
  cases raw with
  | obj fields =>
    obtain ⟨itemId, _, hraw⟩ := bind_ok.mp hraw
    obtain ⟨result, hresult, hraw⟩ := bind_ok.mp hraw
    cases hraw
    exact (hid _ _ _ hresult).symm
  | _ => cases hraw

/-- Without items seen before, and where an item keeps the id it is read under. -/
theorem distinct_ok {α : Type} {key : String} {malformed : PyError} {duplicate : String → PyError}
    {item : String → List (String × Json) → Except PyError α} {idOf : α → String}
    (hid : ∀ itemId fields a, item itemId fields = .ok a → idOf a = itemId) {raws : List Json}
    {results : List α} : distinctItems rt key malformed duplicate item [] raws = .ok results ↔
      ∃ items, raws.mapM (itemOf rt key malformed item) = .ok items ∧ results = items.map Prod.snd ∧
        (results.map idOf).Nodup := by
  rw [distinctItems_ok]
  refine exists_congr fun items => and_congr_right fun hitems => ?_
  constructor
  · rintro ⟨rfl, hnodup, -⟩
    rw [items_ids hitems hid] at hnodup
    exact ⟨rfl, hnodup⟩
  · rintro ⟨rfl, hnodup⟩
    rw [← items_ids hitems hid] at hnodup
    exact ⟨rfl, hnodup, fun e _ => List.not_mem_nil⟩

/-- Every item is read under an identifier. -/
theorem items_mem {α : Type} {key : String} {malformed : PyError}
    {item : String → List (String × Json) → Except PyError α} {raws : List Json}
    {items : List (String × α)} (h : raws.mapM (itemOf rt key malformed item) = .ok items)
    {a : α} (ha : a ∈ items.map Prod.snd) :
    ∃ itemId fields, .obj fields ∈ raws ∧ Identifier itemId ∧ item itemId fields = .ok a := by
  obtain ⟨e, he, rfl⟩ := List.mem_map.mp ha
  obtain ⟨raw, hmem, hraw⟩ := mem_of_mapM h e he
  cases raw with
  | obj fields =>
    obtain ⟨itemId, hid, hraw⟩ := bind_ok.mp hraw
    obtain ⟨result, hresult, hraw⟩ := bind_ok.mp hraw
    cases hraw
    exact ⟨itemId, fields, hmem, (identifierOf_ok hid).2, hresult⟩
  | _ => cases hraw

/-! ## Horizons -/

structure Horizon.Normal (h : Horizon) : Prop where
  horizonId : Identifier h.horizonId
  positive : 0 < h.durationSeconds
  label : Identifier h.label

theorem horizon_id {horizonId : String} {fields : List (String × Json)} {h : Horizon}
    (hnormal : normalizeHorizon rt horizonId fields = .ok h) : h.horizonId = horizonId := by
  obtain ⟨_, _, hnormal⟩ := bind_ok.mp hnormal
  obtain ⟨_, _, hnormal⟩ := bind_ok.mp hnormal
  obtain ⟨_, _, hnormal⟩ := bind_ok.mp hnormal
  cases hnormal
  rfl

theorem horizon_normal {horizonId : String} {fields : List (String × Json)} {h : Horizon}
    (hid : Identifier horizonId) (hnormal : normalizeHorizon rt horizonId fields = .ok h) :
    h.Normal := by
  obtain ⟨seconds, _, hnormal⟩ := bind_ok.mp hnormal
  obtain ⟨_, hpositive, hnormal⟩ := bind_ok.mp hnormal
  obtain ⟨label, hlabel, hnormal⟩ := bind_ok.mp hnormal
  cases hnormal
  exact ⟨hid, of_decide_eq_true (require_ok.mp hpositive), (identifierOf_ok hlabel).2⟩

theorem horizon_again {h : Horizon} (hnormal : h.Normal) :
    itemOf rt "horizon_id" (irError "horizons must contain objects") (normalizeHorizon rt) h.json =
      .ok (h.horizonId, h) :=
  bind_ok.mpr ⟨_, identifierOf_str hnormal.horizonId _, bind_ok.mpr ⟨h,
    bind_ok.mpr ⟨_, rfl, bind_ok.mpr ⟨(), require_ok.mpr (decide_eq_true hnormal.positive),
      bind_ok.mpr ⟨_, identifierOf_str hnormal.label _, rfl⟩⟩⟩, rfl⟩⟩

theorem Horizon.key_id {h i : Horizon} (hkey : h.key = i.key) : h.horizonId = i.horizonId :=
  congrArg Prod.snd (toLex_inj.mp hkey)

/-- Horizons with ids of their own have keys of their own. -/
theorem horizons_distinct {l : List Horizon} (h : (l.map Horizon.horizonId).Nodup) :
    Distinct Horizon.key l :=
  fun _ ha _ hb hkey => Distinct.of_nodup h _ ha _ hb (Horizon.key_id hkey)

theorem defaultHorizons_normal : (∀ h ∈ defaultHorizons, h.Normal) ∧
    (defaultHorizons.map Horizon.horizonId).Nodup := by
  have hidentifier : ∀ s ∈ ["immediate", "operational", "strategic", "10 seconds", "1 hour", "30 days"],
      strip s = s ∧ s ≠ "" ∧ s.length ≤ 200 := by decide +kernel
  simp only [List.forall_mem_cons] at hidentifier
  obtain ⟨⟨h1, h1', h1''⟩, ⟨h2, h2', h2''⟩, ⟨h3, h3', h3''⟩, ⟨h4, h4', h4''⟩, ⟨h5, h5', h5''⟩,
    ⟨h6, h6', h6''⟩, -⟩ := hidentifier
  refine ⟨?_, by decide⟩
  simp only [defaultHorizons, List.forall_mem_cons]
  exact ⟨⟨⟨h1, h1', h1''⟩, by decide, ⟨h4, h4', h4''⟩⟩, ⟨⟨h2, h2', h2''⟩, by decide, ⟨h5, h5', h5''⟩⟩,
    ⟨⟨h3, h3', h3''⟩, by decide, ⟨h6, h6', h6''⟩⟩, by simp⟩

/-! ## Canonical forms -/

/-- What `normalize` establishes. -/
structure IR.Normal (rt : Runtime) (ir : IR) : Prop where
  institutionId : Identifier ir.institutionId
  version : Identifier ir.version
  upper : upperCase rt ir.institutionType = ir.institutionType
  stripped : strip ir.institutionType = ir.institutionType
  nonempty : ir.institutionType ≠ ""
  objects : ∀ o ∈ ir.objects, o.Normal rt
  someObject : ir.objects ≠ []
  objectIds : (ir.objects.map Object.objectId).Nodup
  sortedObjects : sortBy Object.objectId ir.objects = ir.objects
  resolved : ∀ o ∈ ir.objects, ∀ r ∈ o.references, r.targetId ∈ ir.objects.map Object.objectId
  horizons : ∀ h ∈ ir.horizons, h.Normal
  someHorizon : ir.horizons ≠ []
  horizonIds : (ir.horizons.map Horizon.horizonId).Nodup
  sortedHorizons : sortBy Horizon.key ir.horizons = ir.horizons

/-- The texts that are put into upper case are short enough to be accepted again. -/
structure IR.Fits (ir : IR) : Prop where
  institutionType : ir.institutionType.length ≤ 200
  objects : ∀ o ∈ ir.objects, o.Fits

theorem normalize_ok {institutionId version : Option Json} {source : List (String × Json)} {ir : IR}
    (h : normalize rt institutionId version (.obj source) = .ok ir) :
    ∃ rawObjects objects rawHorizons horizons institutionType,
      objectsArray (get source "objects" .null) = .ok rawObjects ∧
      normalizeObjects rt rawObjects = .ok objects ∧
      (∀ o ∈ objects, checkReferences (objects.map Object.objectId) o = .ok ()) ∧
      iterate (get source "horizons" (.arr [])) = .ok rawHorizons ∧
      normalizeHorizons rt rawHorizons = .ok horizons ∧
      identifierOf rt (get source "institution_type" .null) "institution_type" = .ok institutionType ∧
      identifierOf rt (institutionId.getD (get source "institution_id" .null)) "institution_id" =
        .ok ir.institutionId ∧
      identifierOf rt (version.getD (get source "version" .null)) "version" = .ok ir.version ∧
      truthLayer source "normative" = .ok ir.truthLayers.normative ∧
      truthLayer source "operational" = .ok ir.truthLayers.operational ∧
      truthLayer source "behavioral" = .ok ir.truthLayers.behavioral ∧
      ir.institutionType = upperCase rt institutionType ∧
      ir.objects = sortBy Object.objectId objects ∧
      ir.horizons = sortBy Horizon.key (if horizons.isEmpty then defaultHorizons else horizons) ∧
      ir.sourceGrounded = truthy (get source "source_grounded" (.bool false)) := by
  obtain ⟨normalizedId, hid, h⟩ := bind_ok.mp h
  obtain ⟨normalizedVersion, hversion, h⟩ := bind_ok.mp h
  obtain ⟨institutionType, htype, h⟩ := bind_ok.mp h
  obtain ⟨rawObjects, hraw, h⟩ := bind_ok.mp h
  obtain ⟨objects, hobjects, h⟩ := bind_ok.mp h
  obtain ⟨_, hreferences, h⟩ := bind_ok.mp h
  obtain ⟨rawHorizons, hrawHorizons, h⟩ := bind_ok.mp h
  obtain ⟨horizons, hhorizons, h⟩ := bind_ok.mp h
  obtain ⟨normative, hnormative, h⟩ := bind_ok.mp h
  obtain ⟨operational, hoperational, h⟩ := bind_ok.mp h
  obtain ⟨behavioral, hbehavioral, h⟩ := bind_ok.mp h
  cases h
  exact ⟨rawObjects, objects, rawHorizons, horizons, institutionType, hraw, hobjects,
    forM_ok hreferences, hrawHorizons, hhorizons, htype, hid, hversion, hnormative, hoperational,
    hbehavioral, rfl, rfl, rfl, rfl⟩

theorem objects_ok {raws : List Json} {objects : List Object} :
    normalizeObjects rt raws = .ok objects ↔
      ∃ items, raws.mapM (itemOf rt "object_id"
          (irError "every Institutional IR object must be an object") (normalizeObject rt)) = .ok items ∧
        objects = items.map Prod.snd ∧ (objects.map Object.objectId).Nodup :=
  distinct_ok fun _ _ _ h => object_id h

theorem horizons_ok {raws : List Json} {horizons : List Horizon} :
    normalizeHorizons rt raws = .ok horizons ↔
      ∃ items, raws.mapM (itemOf rt "horizon_id" (irError "horizons must contain objects")
          (normalizeHorizon rt)) = .ok items ∧
        horizons = items.map Prod.snd ∧ (horizons.map Horizon.horizonId).Nodup :=
  distinct_ok fun _ _ _ h => horizon_id h

theorem checkReferences_ok {ids : List String} {o : Object} :
    checkReferences ids o = .ok () ↔ ∀ r ∈ o.references, r.targetId ∈ ids := by
  constructor
  · intro h r hr
    exact of_decide_eq_true (require_ok.mp (forM_ok h r hr))
  · intro h
    exact forM_succeeds fun r hr => require_ok.mpr (decide_eq_true (h r hr))

theorem normalize_normal {institutionId version : Option Json} {document : Json} {ir : IR}
    (h : normalize rt institutionId version document = .ok ir) : ir.Normal rt := by
  cases document with
  | obj source =>
    obtain ⟨rawObjects, objects, rawHorizons, horizons, institutionType, hraw, hobjects, hreferences,
      -, hhorizons, htype, hid, hversion, -, -, -, hupper, hsorted, hsortedHorizons, -⟩ :=
      normalize_ok h
    obtain ⟨items, hitems, rfl, hnodup⟩ := objects_ok.mp hobjects
    obtain ⟨rows, hrows, rfl, hnodupHorizons⟩ := horizons_ok.mp hhorizons
    obtain ⟨_, hidentifier⟩ := identifierOf_ok htype
    have hperm := @perm_sortBy _ _ _ Object.objectId (items.map Prod.snd)
    have hlisted : (∀ h ∈ if (rows.map Prod.snd).isEmpty then defaultHorizons else rows.map Prod.snd,
          Horizon.Normal h) ∧
        ((if (rows.map Prod.snd).isEmpty then defaultHorizons else rows.map Prod.snd).map
          Horizon.horizonId).Nodup := by
      split
      · exact defaultHorizons_normal
      · refine ⟨fun h hh => ?_, hnodupHorizons⟩
        obtain ⟨horizonId, fields, -, hid, hitem⟩ := items_mem hrows hh
        exact horizon_normal hid hitem
    refine ⟨(identifierOf_ok hid).2, (identifierOf_ok hversion).2, ?_, ?_, ?_, fun o ho => ?_, ?_, ?_,
      ?_, ?_, fun h hh => ?_, ?_, ?_, ?_⟩
    · rw [hupper, upperCase_upperCase]
    · rw [hupper, strip_upperCase hidentifier.stripped]
    · rw [hupper]
      exact upperCase_ne_empty hidentifier.nonempty
    · rw [hsorted, mem_sortBy] at ho
      obtain ⟨objectId, fields, -, hid, hitem⟩ := items_mem hitems ho
      exact object_normal hid hitem
    · have hne : rawObjects ≠ [] := by
        rintro rfl
        unfold objectsArray at hraw
        split at hraw <;> cases hraw
      have hlength := (Fallible.forall₂_of_mapM hitems).length_eq
      rw [hsorted]
      intro hnil
      have hempty := hperm.symm
      rw [hnil] at hempty
      rw [List.map_eq_nil_iff.mp hempty.eq_nil] at hlength
      exact hne (List.length_eq_zero_iff.mp hlength)
    · rw [hsorted]
      exact (hperm.map _).nodup_iff.mpr hnodup
    · rw [hsorted, sortBy_sortBy]
    · intro o ho r hr
      rw [hsorted, mem_sortBy] at ho
      rw [hsorted, (hperm.map _).mem_iff]
      exact checkReferences_ok.mp (hreferences o ho) r hr
    · rw [hsortedHorizons, mem_sortBy] at hh
      exact hlisted.1 h hh
    · rw [hsortedHorizons]
      intro hnil
      have hperm := (@perm_sortBy _ _ _ Horizon.key
        (if (rows.map Prod.snd).isEmpty then defaultHorizons else rows.map Prod.snd)).symm
      rw [hnil] at hperm
      have hempty := hperm.eq_nil
      split at hempty
      · cases hempty
      · next hne => exact hne (List.isEmpty_iff.mpr hempty)
    · rw [hsortedHorizons]
      exact ((perm_sortBy _).map _).nodup_iff.mpr hlisted.2
    · rw [hsortedHorizons, sortBy_sortBy]
  | _ => cases h

/-! ## Normalizing again -/

theorem objects_again {ir : IR} (h : ir.Normal rt) (hfits : ir.Fits) :
    normalizeObjects rt (ir.objects.map Object.json) = .ok ir.objects := by
  refine objects_ok.mpr ⟨ir.objects.map fun o => (o.objectId, o), ?_, ?_, h.objectIds⟩
  · refine Fallible.mapM_of_forall₂ ?_
    rw [List.forall₂_map_left_iff, List.forall₂_map_right_iff, List.forall₂_same]
    intro o ho
    exact bind_ok.mpr ⟨_, identifierOf_str (h.objects o ho).objectId _,
      bind_ok.mpr ⟨o, object_again (h.objects o ho) (hfits.objects o ho), rfl⟩⟩
  · rw [List.map_map]
    exact (List.map_id _).symm

theorem horizons_again {ir : IR} (h : ir.Normal rt) :
    normalizeHorizons rt (ir.horizons.map Horizon.json) = .ok ir.horizons := by
  refine horizons_ok.mpr ⟨ir.horizons.map fun i => (i.horizonId, i), ?_, ?_, h.horizonIds⟩
  · refine Fallible.mapM_of_forall₂ ?_
    rw [List.forall₂_map_left_iff, List.forall₂_map_right_iff, List.forall₂_same]
    exact fun i hi => horizon_again (h.horizons i hi)
  · rw [List.map_map]
    exact (List.map_id _).symm

/-- A canonical form whose texts still fit is accepted again, and is its own canonical form. -/
theorem normalize_again {ir : IR} (h : ir.Normal rt) (hfits : ir.Fits) :
    normalize rt none none (ir.json rt) = .ok ir := by
  have htype : identifierOf rt (.str ir.institutionType) "institution_type" =
      .ok ir.institutionType :=
    identifierOf_str ⟨h.stripped, h.nonempty, hfits.institutionType⟩ _
  have harray : objectsArray (.arr (ir.objects.map Object.json)) = .ok (ir.objects.map Object.json) := by
    cases hobjects : ir.objects with
    | nil => exact absurd hobjects h.someObject
    | cons o objects => rfl
  have hreferences : ir.objects.forM (checkReferences (ir.objects.map Object.objectId)) = .ok () :=
    forM_succeeds fun o ho => checkReferences_ok.mpr (h.resolved o ho)
  refine bind_ok.mpr ⟨_, identifierOf_str h.institutionId _, bind_ok.mpr ⟨_, identifierOf_str h.version _,
    bind_ok.mpr ⟨_, htype, bind_ok.mpr ⟨_, harray, bind_ok.mpr ⟨_, objects_again h hfits,
    bind_ok.mpr ⟨_, hreferences, bind_ok.mpr ⟨_, rfl, bind_ok.mpr ⟨_, horizons_again h,
    bind_ok.mpr ⟨_, rfl, bind_ok.mpr ⟨_, rfl, bind_ok.mpr ⟨_, rfl, ?_⟩⟩⟩⟩⟩⟩⟩⟩⟩⟩⟩
  have hhorizons : (if ir.horizons.isEmpty then defaultHorizons else ir.horizons) = ir.horizons :=
    if_neg fun hempty => h.someHorizon (List.isEmpty_iff.mp hempty)
  rw [hhorizons, h.upper, h.sortedObjects, h.sortedHorizons]
  rfl

/-- A canonical form that is accepted again fits. -/
theorem normalize_fits {ir ir' : IR} (h : ir.Normal rt)
    (hagain : normalize rt none none (ir.json rt) = .ok ir') : ir.Fits := by
  obtain ⟨rawObjects, objects, _, _, institutionType, hraw, hobjects, -, -, -, htype, -⟩ :=
    normalize_ok hagain
  constructor
  · obtain ⟨heq, hidentifier⟩ := identifierOf_ok htype
    have hsame : institutionType = ir.institutionType := heq.trans h.stripped
    exact hsame ▸ hidentifier.short
  · intro o ho
    obtain ⟨items, hitems, -⟩ := objects_ok.mp hobjects
    have hmem : o.json ∈ rawObjects := by
      have harray : objectsArray (.arr (ir.objects.map Object.json)) = .ok rawObjects := hraw
      unfold objectsArray at harray
      split at harray
      · next heq =>
        cases harray
        rw [← Json.arr.inj heq]
        exact List.mem_map_of_mem ho
      · cases harray
    obtain ⟨_, _, hitem⟩ := result_of_mapM hitems o.json hmem
    obtain ⟨_, _, hitem⟩ := bind_ok.mp hitem
    obtain ⟨_, hobject, -⟩ := bind_ok.mp hitem
    exact object_fits (h.objects o ho) hobject

end
end Edon.Institutional
