import EdonPlatform.Institutional.Normalization

/- The canonical form of a document: what becomes of it when it is normalized again, and when the
   document is written in another order.

   What is proved:
     1. `fits_iff` — the texts that are put into upper case, read in the document itself.
     2. `normalize_permuted` — the order of the objects, of their references and sources and of
        the horizons of a document does not show in its canonical form.
     3. `canonical_form_iff` — an accepted document has its canonical form as a fixed point, in every
        order, exactly if those texts have at most 200 characters in upper case. -/
namespace Edon.Institutional
open Json KeyedSort

/-! ## The texts in upper case -/

def entriesOf : Json → List (String × Json)
  | .obj fields => fields
  | _ => []

def itemsOf : Json → List Json
  | .arr xs => xs
  | _ => []

section
variable (rt : Runtime)

/-- A trimmed field in upper case. -/
def upperText (document : Json) (key : String) : String :=
  upperCase rt (strip (text rt (get (entriesOf document) key .null)))

/-- The relations of the references of an object, in upper case. -/
def relationTexts (object : Json) : List String :=
  (itemsOf (get (entriesOf object) "references" (.arr []))).map fun reference =>
    upperText rt reference "relation"

/-- The institution type of a document and the relations in it, in upper case. -/
def upperTexts (document : Json) : List String :=
  upperText rt document "institution_type" ::
    (itemsOf (get (entriesOf document) "objects" .null)).flatMap (relationTexts rt)

/-- The texts that are put into upper case have at most 200 characters then. -/
def UpperFits (document : Json) : Prop := ∀ t ∈ upperTexts rt document, t.length ≤ 200

end

section
variable {rt : Runtime}

theorem reference_relation {raw : Json} {r : Reference} (h : normalizeReference rt raw = .ok r) :
    r.relation = upperText rt raw "relation" := by
  unfold normalizeReference at h
  split at h
  · obtain ⟨relation, hrelation, h⟩ := bind_ok.mp h
    obtain ⟨_, _, h⟩ := bind_ok.mp h
    cases h
    exact congrArg (upperCase rt) (identifierOf_ok hrelation).1
  · cases h

/-- What is iterated over as references is the array of them, or nothing. -/
theorem references_items {value : Json} {raws : List Json} {references : List Reference}
    (hraws : iterate value = .ok raws) (h : raws.mapM (normalizeReference rt) = .ok references) :
    raws = itemsOf value := by
  have hnot : ∀ s, Json.str s ∉ raws := by
    intro s hs
    obtain ⟨_, _, hr⟩ := result_of_mapM h _ hs
    cases hr
  cases value with
  | arr xs =>
    cases hraws
    rfl
  | str s =>
    cases hraws
    show _ = []
    rw [List.map_eq_nil_iff, List.eq_nil_iff_forall_not_mem]
    exact fun c hc => hnot _ (List.mem_map_of_mem hc)
  | obj kvs =>
    cases hraws
    show _ = []
    rw [List.map_eq_nil_iff, List.eq_nil_iff_forall_not_mem]
    exact fun e he => hnot _ (List.mem_map_of_mem he)
  | _ => cases hraws

theorem object_relations {objectId : String} {fields : List (String × Json)} {o : Object}
    (h : normalizeObject rt objectId fields = .ok o) :
    (o.references.map Reference.relation).Perm (relationTexts rt (.obj fields)) := by
  obtain ⟨_, _, h⟩ := bind_ok.mp h
  obtain ⟨rawReferences, hraw, h⟩ := bind_ok.mp h
  obtain ⟨references, hreferences, h⟩ := bind_ok.mp h
  obtain ⟨_, _, h⟩ := bind_ok.mp h
  obtain ⟨_, _, h⟩ := bind_ok.mp h
  obtain ⟨_, _, h⟩ := bind_ok.mp h
  obtain ⟨_, _, h⟩ := bind_ok.mp h
  cases h
  have hmap : references.map Reference.relation = relationTexts rt (.obj fields) := by
    unfold relationTexts
    show _ = List.map _ (itemsOf (get fields "references" (.arr [])))
    rw [← references_items hraw hreferences]
    exact Fallible.map_of_mapM hreferences fun _ _ hr => reference_relation hr
  exact ((perm_sortBy _).map _).trans (hmap ▸ List.Perm.refl _)

theorem item_fits {malformed : PyError} {raw : Json} {e : String × Object}
    (h : itemOf rt "object_id" malformed (normalizeObject rt) raw = .ok e) :
    e.2.Fits ↔ ∀ t ∈ relationTexts rt raw, t.length ≤ 200 := by
  cases raw with
  | obj fields =>
    obtain ⟨_, _, h⟩ := bind_ok.mp h
    obtain ⟨_, hobject, h⟩ := bind_ok.mp h
    cases h
    unfold Object.Fits
    simp only [← (object_relations hobject).mem_iff, List.forall_mem_map]
  | _ => cases h

theorem fits_iff {institutionId version : Option Json} {document : Json} {ir : IR}
    (h : normalize rt institutionId version document = .ok ir) :
    ir.Fits ↔ UpperFits rt document := by
  cases document with
  | obj source =>
    obtain ⟨rawObjects, objects, rawHorizons, horizons, institutionType, hraw, hobjects, -, -, -, htype,
      -, -, -, -, -, hupper, hsorted, -, -⟩ := normalize_ok h
    obtain ⟨items, hitems, rfl, -⟩ := objects_ok.mp hobjects
    have hfirst : upperText rt (.obj source) "institution_type" = ir.institutionType := by
      rw [hupper, (identifierOf_ok htype).1]
      rfl
    have hrawObjects : itemsOf (get source "objects" .null) = rawObjects := by
      unfold objectsArray at hraw
      split at hraw
      · next heq =>
        cases hraw
        rw [heq]
        rfl
      · cases hraw
    have hrelations : (∀ o ∈ ir.objects, o.Fits) ↔
        ∀ raw ∈ rawObjects, ∀ t ∈ relationTexts rt raw, t.length ≤ 200 := by
      simp only [hsorted, mem_sortBy, List.forall_mem_map]
      constructor
      · intro hall raw hmem
        obtain ⟨e, he, hitem⟩ := result_of_mapM hitems raw hmem
        exact (item_fits hitem).mp (hall e he)
      · intro hall e he
        obtain ⟨raw, hmem, hitem⟩ := mem_of_mapM hitems e he
        exact (item_fits hitem).mpr (hall raw hmem)
    unfold UpperFits upperTexts
    rw [List.forall_mem_cons, hfirst]
    show _ ↔ _ ∧ ∀ t ∈ (itemsOf (get source "objects" .null)).flatMap _, _
    rw [hrawObjects, List.forall_mem_flatMap, ← hrelations]
    exact ⟨fun hfits => ⟨hfits.institutionType, hfits.objects⟩, fun hfits => ⟨hfits.1, hfits.2⟩⟩
  | _ => cases h

end

/-! ## Other orders -/

/-- Two dictionaries with the same keys, whose values are related. -/
def Entrywise (R : String → Json → Json → Prop) (v w : Json) : Prop :=
  ∃ kvs kws, v = .obj kvs ∧ w = .obj kws ∧
    List.Forall₂ (fun a b => a.1 = b.1 ∧ R a.1 a.2 b.2) kvs kws

/-- Two arrays with related items, in any order. -/
def Rearranged (R : Json → Json → Prop) (v w : Json) : Prop :=
  ∃ xs ys zs, v = .arr xs ∧ w = .arr ys ∧ List.Forall₂ R xs zs ∧ zs.Perm ys

/-- The entries of an epistemic state, its sources in any order. -/
def EpistemicEntry (key : String) (v w : Json) : Prop :=
  v = w ∨ key = "sources" ∧ Rearranged Eq v w

/-- The entries of an object, its references and sources in any order. -/
def ObjectEntry (key : String) (v w : Json) : Prop :=
  v = w ∨ key = "references" ∧ Rearranged Eq v w ∨
    key = "epistemic_state" ∧ Entrywise EpistemicEntry v w

/-- The entries of a document, its objects, their references and sources and its horizons in any
order. -/
def DocumentEntry (key : String) (v w : Json) : Prop :=
  v = w ∨ key = "objects" ∧ Rearranged (Entrywise ObjectEntry) v w ∨
    key = "horizons" ∧ Rearranged Eq v w

/-- A document written in another order. -/
def PermutedDocument : Json → Json → Prop := Entrywise DocumentEntry

section
variable {rt : Runtime} {R : String → Json → Json → Prop} {kvs kws : List (String × Json)}

theorem related_find (h : List.Forall₂ (fun a b => a.1 = b.1 ∧ R a.1 a.2 b.2) kvs kws)
    (key : String) : (Assoc.find kvs key = none ∧ Assoc.find kws key = none) ∨
      ∃ v w, Assoc.find kvs key = some v ∧ Assoc.find kws key = some w ∧ R key v w := by
  induction h with
  | nil => exact .inl ⟨rfl, rfl⟩
  | @cons a b kvs kws hab _ ih =>
    obtain ⟨hkey, hrel⟩ := hab
    rw [Assoc.find_cons, Assoc.find_cons, ← hkey]
    by_cases heq : a.1 = key
    · rw [if_pos heq, if_pos heq]
      exact .inr ⟨a.2, b.2, rfl, rfl, heq ▸ hrel⟩
    · rw [if_neg heq, if_neg heq]
      exact ih

/-- What is read under a key is related, or the default. -/
theorem related_get (h : List.Forall₂ (fun a b => a.1 = b.1 ∧ R a.1 a.2 b.2) kvs kws)
    (key : String) (default : Json) : get kvs key default = get kws key default ∨
      R key (get kvs key default) (get kws key default) := by
  unfold get
  rcases related_find h key with ⟨hv, hw⟩ | ⟨v, w, hv, hw, hrel⟩
  · rw [hv, hw]
    exact .inl rfl
  · rw [hv, hw]
    exact .inr hrel

theorem identifierSet_rearranged {v w : Json} {label : String} {l : List String}
    (h : Rearranged Eq v w) (hset : identifierSet rt v label = .ok l) :
    identifierSet rt w label = .ok l := by
  obtain ⟨xs, ys, zs, rfl, rfl, hsame, hperm⟩ := h
  rw [List.forall₂_eq_eq_eq] at hsame
  subst hsame
  obtain ⟨items, hitems, hrest⟩ := bind_ok.mp hset
  obtain ⟨identifiers, hidentifiers, hresult⟩ := bind_ok.mp hrest
  cases hitems
  cases hresult
  obtain ⟨identifiers', hidentifiers', hperm'⟩ := Fallible.mapM_perm hperm hidentifiers
  refine bind_ok.mpr ⟨ys, rfl, bind_ok.mpr ⟨identifiers', hidentifiers', ?_⟩⟩
  exact congrArg Except.ok (sortedSet_congr fun x => hperm'.symm.mem_iff)

theorem epistemic_permuted {v w : Json} {objectType : ObjectType} {e : EpistemicState}
    (h : Entrywise EpistemicEntry v w) (hstate : normalizeEpistemic rt v objectType = .ok e) :
    normalizeEpistemic rt w objectType = .ok e := by
  obtain ⟨kvs, kws, rfl, rfl, hrel⟩ := h
  have hget : ∀ key default, key ≠ "sources" → get kvs key default = get kws key default := by
    intro key default hkey
    rcases related_get hrel key default with heq | heq | ⟨hsources, -⟩
    · exact heq
    · exact heq
    · exact absurd hsources hkey
  obtain ⟨fields, hfields, hstate⟩ := bind_ok.mp hstate
  cases hfields
  obtain ⟨status, hstatus, hstate⟩ := bind_ok.mp hstate
  obtain ⟨confidence, hconfidence, hstate⟩ := bind_ok.mp hstate
  obtain ⟨_, hunknown, hstate⟩ := bind_ok.mp hstate
  obtain ⟨_, hprobabilistic, hstate⟩ := bind_ok.mp hstate
  obtain ⟨sources, hsources, hstate⟩ := bind_ok.mp hstate
  obtain ⟨asOf, hasOf, hstate⟩ := bind_ok.mp hstate
  have hsources' : identifierSet rt (get kws "sources" (.arr [])) "epistemic source" = .ok sources := by
    rcases related_get hrel "sources" (.arr []) with heq | heq | ⟨-, hrearranged⟩
    · rw [← heq, hsources]
    · rw [← heq, hsources]
    · exact identifierSet_rearranged hrearranged hsources
  rw [hget _ _ (by decide)] at hstatus hconfidence hasOf
  rw [hget _ _ (by decide)] at hstate
  exact bind_ok.mpr ⟨kws, rfl, bind_ok.mpr ⟨status, hstatus, bind_ok.mpr ⟨confidence, hconfidence,
    bind_ok.mpr ⟨(), hunknown, bind_ok.mpr ⟨(), hprobabilistic, bind_ok.mpr ⟨sources, hsources',
    bind_ok.mpr ⟨asOf, hasOf, hstate⟩⟩⟩⟩⟩⟩⟩

theorem references_rearranged {v w : Json} {raws : List Json} {references : List Reference}
    (h : Rearranged Eq v w) (hraws : iterate v = .ok raws)
    (hreferences : raws.mapM (normalizeReference rt) = .ok references) :
    ∃ raws' references', iterate w = .ok raws' ∧
      raws'.mapM (normalizeReference rt) = .ok references' ∧
      sortBy Reference.key references' = sortBy Reference.key references := by
  obtain ⟨xs, ys, zs, rfl, rfl, hsame, hperm⟩ := h
  rw [List.forall₂_eq_eq_eq] at hsame
  subst hsame
  cases hraws
  obtain ⟨references', hreferences', hperm'⟩ := Fallible.mapM_perm hperm hreferences
  exact ⟨ys, references', rfl, hreferences',
    sortBy_congr hperm'.symm fun _ _ _ _ hkey => Reference.key_injective hkey⟩

theorem object_permuted {objectId : String} {o : Object}
    (hrel : List.Forall₂ (fun a b => a.1 = b.1 ∧ ObjectEntry a.1 a.2 b.2) kvs kws)
    (h : normalizeObject rt objectId kvs = .ok o) : normalizeObject rt objectId kws = .ok o := by
  have hget : ∀ key default, key ≠ "references" → key ≠ "epistemic_state" →
      get kvs key default = get kws key default := by
    intro key default hreferences hepistemic
    rcases related_get hrel key default with heq | heq | ⟨hkey, -⟩ | ⟨hkey, -⟩
    · exact heq
    · exact heq
    · exact absurd hkey hreferences
    · exact absurd hkey hepistemic
  obtain ⟨objectType, htype, h⟩ := bind_ok.mp h
  obtain ⟨rawReferences, hraw, h⟩ := bind_ok.mp h
  obtain ⟨references, hreferences, h⟩ := bind_ok.mp h
  obtain ⟨name, hname, h⟩ := bind_ok.mp h
  obtain ⟨temporalState, htemporal, h⟩ := bind_ok.mp h
  obtain ⟨epistemicState, hepistemic, h⟩ := bind_ok.mp h
  obtain ⟨behaviorModel, hbehavior, h⟩ := bind_ok.mp h
  have hreferences' : ∃ raws' references', iterate (get kws "references" (.arr [])) = .ok raws' ∧
      raws'.mapM (normalizeReference rt) = .ok references' ∧
      sortBy Reference.key references' = sortBy Reference.key references := by
    rcases related_get hrel "references" (.arr []) with heq | heq | ⟨-, hrearranged⟩ | ⟨hkey, -⟩
    · exact ⟨rawReferences, references, heq ▸ hraw, hreferences, rfl⟩
    · exact ⟨rawReferences, references, heq ▸ hraw, hreferences, rfl⟩
    · exact references_rearranged hrearranged hraw hreferences
    · exact absurd hkey (by decide)
  have hepistemic' : normalizeEpistemic rt (get kws "epistemic_state" .null) objectType =
      .ok epistemicState := by
    rcases related_get hrel "epistemic_state" .null with heq | heq | ⟨hkey, -⟩ | ⟨-, hpermuted⟩
    · rw [← heq, hepistemic]
    · rw [← heq, hepistemic]
    · exact absurd hkey (by decide)
    · exact epistemic_permuted hpermuted hepistemic
  obtain ⟨raws', references', hraw', hmap', hsorted⟩ := hreferences'
  rw [hget _ _ (by decide) (by decide)] at htype hname htemporal hbehavior h
  rw [← hsorted] at h
  exact bind_ok.mpr ⟨objectType, htype, bind_ok.mpr ⟨raws', hraw', bind_ok.mpr ⟨references', hmap',
    bind_ok.mpr ⟨name, hname, bind_ok.mpr ⟨temporalState, htemporal,
    bind_ok.mpr ⟨epistemicState, hepistemic', bind_ok.mpr ⟨behaviorModel, hbehavior, h⟩⟩⟩⟩⟩⟩⟩

theorem item_permuted {malformed : PyError} {v w : Json} {e : String × Object}
    (h : Entrywise ObjectEntry v w)
    (hitem : itemOf rt "object_id" malformed (normalizeObject rt) v = .ok e) :
    itemOf rt "object_id" malformed (normalizeObject rt) w = .ok e := by
  obtain ⟨kvs, kws, rfl, rfl, hrel⟩ := h
  obtain ⟨itemId, hid, hitem⟩ := bind_ok.mp hitem
  obtain ⟨o, hobject, hitem⟩ := bind_ok.mp hitem
  have hget : get kvs "object_id" .null = get kws "object_id" .null := by
    rcases related_get hrel "object_id" .null with heq | heq | ⟨hkey, -⟩ | ⟨hkey, -⟩
    · exact heq
    · exact heq
    · exact absurd hkey (by decide)
    · exact absurd hkey (by decide)
  rw [hget] at hid
  exact bind_ok.mpr ⟨itemId, hid, bind_ok.mpr ⟨o, object_permuted hrel hobject, hitem⟩⟩

theorem objects_rearranged {v w : Json} {raws : List Json} {objects : List Object}
    (h : Rearranged (Entrywise ObjectEntry) v w) (hraws : objectsArray v = .ok raws)
    (hobjects : normalizeObjects rt raws = .ok objects) :
    ∃ raws' objects', objectsArray w = .ok raws' ∧ normalizeObjects rt raws' = .ok objects' ∧
      objects'.Perm objects := by
  obtain ⟨xs, ys, zs, rfl, rfl, hrel, hperm⟩ := h
  obtain ⟨items, hitems, rfl, hnodup⟩ := objects_ok.mp hobjects
  have hxs : xs = raws ∧ xs ≠ [] := by
    cases xs with
    | nil => cases hraws
    | cons x xs =>
      cases hraws
      exact ⟨rfl, List.cons_ne_nil _ _⟩
  obtain ⟨rfl, hne⟩ := hxs
  have hys : objectsArray (.arr ys) = .ok ys := by
    cases ys with
    | nil =>
      have hlength := hrel.length_eq
      rw [hperm.eq_nil] at hlength
      exact absurd (List.length_eq_zero_iff.mp hlength) hne
    | cons y ys => rfl
  have hzs : zs.mapM (itemOf rt "object_id"
      (irError "every Institutional IR object must be an object") (normalizeObject rt)) = .ok items := by
    refine Fallible.mapM_of_forall₂ ?_
    have heach := Fallible.forall₂_of_mapM hitems
    clear hitems hperm hnodup hraws hobjects hne
    induction hrel generalizing items with
    | nil =>
      cases heach
      exact .nil
    | cons hxz _ ih =>
      cases heach with
      | cons hitem heach => exact .cons (item_permuted hxz hitem) (ih _ heach)
  obtain ⟨items', hitems', hperm'⟩ := Fallible.mapM_perm hperm hzs
  have hobjects' := hperm'.symm.map Prod.snd
  refine ⟨ys, _, hys, objects_ok.mpr ⟨items', hitems', rfl, ?_⟩, hobjects'⟩
  exact (hobjects'.map Object.objectId).nodup_iff.mpr hnodup

theorem horizons_rearranged {v w : Json} {raws : List Json} {horizons : List Horizon}
    (h : Rearranged Eq v w) (hraws : iterate v = .ok raws)
    (hhorizons : normalizeHorizons rt raws = .ok horizons) :
    ∃ raws' horizons', iterate w = .ok raws' ∧ normalizeHorizons rt raws' = .ok horizons' ∧
      horizons'.Perm horizons := by
  obtain ⟨xs, ys, zs, rfl, rfl, hsame, hperm⟩ := h
  rw [List.forall₂_eq_eq_eq] at hsame
  subst hsame
  cases hraws
  obtain ⟨items, hitems, rfl, hnodup⟩ := horizons_ok.mp hhorizons
  obtain ⟨items', hitems', hperm'⟩ := Fallible.mapM_perm hperm hitems
  have hhorizons' := hperm'.symm.map Prod.snd
  refine ⟨ys, _, rfl, horizons_ok.mpr ⟨items', hitems', rfl, ?_⟩, hhorizons'⟩
  exact (hhorizons'.map Horizon.horizonId).nodup_iff.mpr hnodup

/-- The order of a document does not show in its canonical form. -/
theorem normalize_permuted {institutionId version : Option Json} {document document' : Json} {ir : IR}
    (h : PermutedDocument document document')
    (hnormalize : normalize rt institutionId version document = .ok ir) :
    normalize rt institutionId version document' = .ok ir := by
  obtain ⟨source, source', rfl, rfl, hrel⟩ := h
  have hget : ∀ key default, key ≠ "objects" → key ≠ "horizons" →
      get source key default = get source' key default := by
    intro key default hobjects hhorizons
    rcases related_get hrel key default with heq | heq | ⟨hkey, -⟩ | ⟨hkey, -⟩
    · exact heq
    · exact heq
    · exact absurd hkey hobjects
    · exact absurd hkey hhorizons
  obtain ⟨normalizedId, hid, h⟩ := bind_ok.mp hnormalize
  obtain ⟨normalizedVersion, hversion, h⟩ := bind_ok.mp h
  obtain ⟨institutionType, htype, h⟩ := bind_ok.mp h
  obtain ⟨rawObjects, hraw, h⟩ := bind_ok.mp h
  obtain ⟨objects, hobjects, h⟩ := bind_ok.mp h
  obtain ⟨_, hreferences, h⟩ := bind_ok.mp h
  obtain ⟨rawHorizons, hrawHorizons, h⟩ := bind_ok.mp h
  obtain ⟨horizons, hhorizons, h⟩ := bind_ok.mp h
  obtain ⟨normative, hnormative, h⟩ := bind_ok.mp h
  obtain ⟨operational, hoperational, h⟩ := bind_ok.mp h
  obtain ⟨behavioral, hbehavioral, h⟩ := bind_ok.mp h
  have hobjects' : ∃ raws' objects', objectsArray (get source' "objects" .null) = .ok raws' ∧
      normalizeObjects rt raws' = .ok objects' ∧ objects'.Perm objects := by
    rcases related_get hrel "objects" .null with heq | heq | ⟨-, hrearranged⟩ | ⟨hkey, -⟩
    · exact ⟨rawObjects, objects, heq ▸ hraw, hobjects, .refl _⟩
    · exact ⟨rawObjects, objects, heq ▸ hraw, hobjects, .refl _⟩
    · exact objects_rearranged hrearranged hraw hobjects
    · exact absurd hkey (by decide)
  have hhorizons' : ∃ raws' horizons', iterate (get source' "horizons" (.arr [])) = .ok raws' ∧
      normalizeHorizons rt raws' = .ok horizons' ∧ horizons'.Perm horizons := by
    rcases related_get hrel "horizons" (.arr []) with heq | heq | ⟨hkey, -⟩ | ⟨-, hrearranged⟩
    · exact ⟨rawHorizons, horizons, heq ▸ hrawHorizons, hhorizons, .refl _⟩
    · exact ⟨rawHorizons, horizons, heq ▸ hrawHorizons, hhorizons, .refl _⟩
    · exact absurd hkey (by decide)
    · exact horizons_rearranged hrearranged hrawHorizons hhorizons
  obtain ⟨raws', objects', hraw', hobjects', hperm⟩ := hobjects'
  obtain ⟨rawHorizons', horizons', hrawHorizons', hhorizons', hpermHorizons⟩ := hhorizons'
  have hreferences' : objects'.forM (checkReferences (objects'.map Object.objectId)) = .ok () := by
    refine forM_succeeds fun o ho => checkReferences_ok.mpr fun r hr => ?_
    rw [(hperm.map Object.objectId).mem_iff]
    exact checkReferences_ok.mp (forM_ok hreferences o (hperm.mem_iff.mp ho)) r hr
  have hsorted : sortBy Object.objectId objects' = sortBy Object.objectId objects := by
    obtain ⟨items, _, _, hnodup⟩ := objects_ok.mp hobjects'
    exact sortBy_congr hperm (Distinct.of_nodup hnodup)
  have hsortedHorizons :
      sortBy Horizon.key (if horizons'.isEmpty then defaultHorizons else horizons') =
        sortBy Horizon.key (if horizons.isEmpty then defaultHorizons else horizons) := by
    obtain ⟨items, _, _, hnodup⟩ := horizons_ok.mp hhorizons'
    have hempty : horizons'.isEmpty = horizons.isEmpty := by
      rw [Bool.eq_iff_iff, List.isEmpty_iff, List.isEmpty_iff]
      constructor
      · rintro rfl
        exact hpermHorizons.nil_eq.symm
      · rintro rfl
        exact hpermHorizons.eq_nil
    rw [hempty]
    split
    · rfl
    · exact sortBy_congr hpermHorizons (horizons_distinct hnodup)
  have hlayer : ∀ name, truthLayer source name = truthLayer source' name := by
    intro name
    unfold truthLayer
    rw [hget _ _ (by decide) (by decide)]
  rw [hget _ _ (by decide) (by decide)] at hid hversion htype h
  rw [hlayer] at hnormative hoperational hbehavioral
  rw [← hsorted, ← hsortedHorizons] at h
  exact bind_ok.mpr ⟨normalizedId, hid, bind_ok.mpr ⟨normalizedVersion, hversion,
    bind_ok.mpr ⟨institutionType, htype, bind_ok.mpr ⟨raws', hraw', bind_ok.mpr ⟨objects', hobjects',
    bind_ok.mpr ⟨(), hreferences', bind_ok.mpr ⟨rawHorizons', hrawHorizons',
    bind_ok.mpr ⟨horizons', hhorizons', bind_ok.mpr ⟨normative, hnormative,
    bind_ok.mpr ⟨operational, hoperational, bind_ok.mpr ⟨behavioral, hbehavioral, h⟩⟩⟩⟩⟩⟩⟩⟩⟩⟩⟩

end

/-- **The canonical form.** An accepted document has a canonical form that is accepted again,
unchanged and with the same digest, and that is also the one of the document in every other order,
exactly if the institution type and the relations have at most 200 characters in upper case. -/
theorem canonical_form_iff (rt : Runtime) {institutionId version : Option Json} {document : Json}
    {ir : IR} (h : normalize rt institutionId version document = .ok ir) :
    ((∃ again, normalize rt none none (ir.json rt) = .ok again ∧ again.json rt = ir.json rt ∧
        again.sha256 rt = ir.sha256 rt) ∧
      ∀ document', PermutedDocument document document' →
        normalize rt institutionId version document' = .ok ir) ↔ UpperFits rt document := by
  have hnormal := normalize_normal h
  rw [← fits_iff h]
  constructor
  · rintro ⟨⟨again, hagain, -⟩, -⟩
    exact normalize_fits hnormal hagain
  · intro hfits
    exact ⟨⟨ir, normalize_again hnormal hfits, rfl, rfl⟩, fun _ hpermuted => normalize_permuted hpermuted h⟩

/-! ### An institution with one role -/

/-- The upper case of texts in upper case and of the sharp s. -/
def sampleUpper (c : Char) : List Char := if c = 'ß' then ['S', 'S'] else [c]

def sampleRuntime : Runtime where
  repr _ := ""
  sha256 _ := ""
  fromisoformat _ := false
  parseInt _ := none
  upperChar := sampleUpper
  upper_upper := by
    intro c d hd
    unfold sampleUpper at hd ⊢
    split at hd
    · rcases List.mem_cons.mp hd with rfl | hd
      · rfl
      · rw [List.mem_singleton.mp hd]
        rfl
    · next hc =>
      rw [List.mem_singleton.mp hd, if_neg hc]
  upper_ne_nil := by
    intro c
    unfold sampleUpper
    split <;> exact List.cons_ne_nil _ _
  upper_space := by
    intro c hc d hd
    unfold sampleUpper at hd
    split at hd
    · rcases List.mem_cons.mp hd with rfl | hd
      · rfl
      · rw [List.mem_singleton.mp hd]
        rfl
    · rwa [List.mem_singleton.mp hd]

/-- A document with two references, of an institution of some type. -/
def sampleDocument (institutionType : String) : Json :=
  .obj [("institution_id", .str "I"), ("version", .str "1"), ("institution_type", .str institutionType),
    ("objects", .arr [.obj [("object_id", .str "R"), ("object_type", .str "ROLE"),
      ("references", .arr [.obj [("relation", .str "OWNS"), ("target_id", .str "R")],
        .obj [("relation", .str "NEEDS"), ("target_id", .str "R")]])]])]

theorem canonical_form_hospital : ∃ ir, normalize sampleRuntime none none (sampleDocument "HOSPITAL") =
      .ok ir ∧ ∃ again, normalize sampleRuntime none none (ir.json sampleRuntime) = .ok again ∧
        again.json sampleRuntime = ir.json sampleRuntime := by
  have haccepted : (normalize sampleRuntime none none (sampleDocument "HOSPITAL")).toOption.any
      (fun _ => true) = true := by decide +kernel
  obtain ⟨ir, hir, -⟩ := Fallible.ok_of_any haccepted
  have hfits : ∀ t ∈ upperTexts sampleRuntime (sampleDocument "HOSPITAL"), t.length ≤ 200 := by
    decide +kernel
  obtain ⟨⟨again, hagain, hjson, -⟩, -⟩ := (canonical_form_iff sampleRuntime hir).mpr hfits
  exact ⟨ir, hir, again, hagain, hjson⟩

/-- Such a document is accepted with every institution type that is an identifier. -/
theorem normalize_sampleDocument {institutionType : String} (htype : Identifier institutionType) :
    ∃ ir, normalize sampleRuntime none none (sampleDocument institutionType) = .ok ir := by
  have haccepted : (normalize sampleRuntime none none (sampleDocument "HOSPITAL")).toOption.any
      (fun _ => true) = true := by decide +kernel
  obtain ⟨ir, h, -⟩ := Fallible.ok_of_any haccepted
  obtain ⟨normalizedId, hid, h⟩ := bind_ok.mp h
  obtain ⟨normalizedVersion, hversion, h⟩ := bind_ok.mp h
  obtain ⟨_, -, h⟩ := bind_ok.mp h
  obtain ⟨rawObjects, hraw, h⟩ := bind_ok.mp h
  obtain ⟨objects, hobjects, h⟩ := bind_ok.mp h
  obtain ⟨_, hreferences, h⟩ := bind_ok.mp h
  obtain ⟨rawHorizons, hrawHorizons, h⟩ := bind_ok.mp h
  obtain ⟨horizons, hhorizons, h⟩ := bind_ok.mp h
  obtain ⟨normative, hnormative, h⟩ := bind_ok.mp h
  obtain ⟨operational, hoperational, h⟩ := bind_ok.mp h
  obtain ⟨behavioral, hbehavioral, -⟩ := bind_ok.mp h
  exact ⟨_, bind_ok.mpr ⟨normalizedId, hid, bind_ok.mpr ⟨normalizedVersion, hversion,
    bind_ok.mpr ⟨institutionType, identifierOf_str htype _, bind_ok.mpr ⟨rawObjects, hraw,
    bind_ok.mpr ⟨objects, hobjects, bind_ok.mpr ⟨(), hreferences, bind_ok.mpr ⟨rawHorizons, hrawHorizons,
    bind_ok.mpr ⟨horizons, hhorizons, bind_ok.mpr ⟨normative, hnormative,
    bind_ok.mpr ⟨operational, hoperational, bind_ok.mpr ⟨behavioral, hbehavioral, rfl⟩⟩⟩⟩⟩⟩⟩⟩⟩⟩⟩⟩

/-- An institution type of 101 sharp s is accepted, and has 202 characters in the canonical form,
which is not. -/
theorem canonical_form_rejected : ∃ ir, normalize sampleRuntime none none
      (sampleDocument (String.ofList (List.replicate 101 'ß'))) = .ok ir ∧
    ∀ again, normalize sampleRuntime none none (ir.json sampleRuntime) ≠ .ok again := by
  have hstrip : strip (String.ofList (List.replicate 101 'ß')) =
      String.ofList (List.replicate 101 'ß') := by
    have htrimmed : ((List.replicate 101 'ß').dropWhile isSpace).rdropWhile isSpace =
        List.replicate 101 'ß' := by decide +kernel
    unfold strip
    rw [String.toList_ofList, htrimmed]
  have hlength : (String.ofList (List.replicate 101 'ß')).length = 101 := by
    rw [String.length_ofList, List.length_replicate]
  have hne : String.ofList (List.replicate 101 'ß') ≠ "" := by
    intro hempty
    rw [hempty] at hlength
    cases hlength
  obtain ⟨ir, hir⟩ := normalize_sampleDocument ⟨hstrip, hne, by omega⟩
  refine ⟨ir, hir, fun again hagain => ?_⟩
  have hlong : (upperCase sampleRuntime (strip (String.ofList (List.replicate 101 'ß')))).length = 202 := by
    have hupper : ((List.replicate 101 'ß').flatMap sampleUpper).length = 202 := by decide +kernel
    rw [hstrip]
    unfold upperCase
    rw [String.length_ofList, String.toList_ofList]
    exact hupper
  have hfits := (fits_iff hir).mp (normalize_fits (normalize_normal hir) hagain)
  have hshort : (upperCase sampleRuntime (strip (String.ofList (List.replicate 101 'ß')))).length ≤ 200 :=
    hfits _ List.mem_cons_self
  omega

end Edon.Institutional
