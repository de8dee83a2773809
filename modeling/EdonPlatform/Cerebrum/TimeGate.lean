import EdonPlatform.Cerebrum.StateEngine

/- The time gate of the state engine: what a projection under a clock depends on.

   What is proved:
     1. `eligible_iff` — the texts the engine compares stand for the times: an assertion is eligible
        exactly when the time it became available is not after the clock.
     2. `time_gate` — two engines that took the same assertions available by a time project the
        same then, in whatever order they took them and whatever else they took, apart from the
        count of the assertions left out and the hash that covers it; a view has the latest
        eligible assertion of its class and path.
     3. `future_counted` — the count and the hash tell of an assertion that is not available yet.

   An engine that took a list of assertions holds the rows they normalise to, each once (`Took`),
   since rows with one hash are one row (`StateAssertion.eq_of_sha256`). So the sorted list of the
   eligible ones depends on the assertions available by the clock alone (`eligible_eq`), and all of
   a projection but the count is made of it. -/
namespace Edon.Cerebrum.StateEngine
open Json Transition

section
variable {rt : Runtime}

/-! ## A row is determined by its hash -/

theorem find_append {l m : List (String × Json)} {k : String} :
    Assoc.find (l ++ m) k = (Assoc.find l k).or (Assoc.find m k) := by
  induction l with
  | nil => rfl
  | cons e l ih =>
    rw [List.cons_append, Assoc.find_cons, Assoc.find_cons, ih]
    split <;> rfl

theorem find_entry {key k : String} {v : Option Json} :
    Assoc.find (entry key v) k = if key = k then v else none := by
  cases v with
  | none => simp [entry]
  | some v => simp [entry, Assoc.find_cons]

theorem StateClass.name_injective : Function.Injective StateClass.name := by
  intro a b h
  cases a <;> cases b <;> first | rfl | exact absurd h (by decide)

theorem Document.value_injective : Function.Injective Document.value := by
  intro a b h
  cases a
  cases b
  cases h
  rfl

section
variable {a b : StateAssertion}

/-- Equal cores have equal entries, for entries that are sorted documents. -/
theorem core_entry (key : String) (f : StateAssertion → Option Json)
    (hcore : SameFields a.core b.core) (hf : ∀ r : StateAssertion, Assoc.find r.core key = f r)
    (hsorted : ∀ r, (f r).map canon = f r) : f a = f b := by
  have h := hcore key
  rwa [hf, hf, hsorted, hsorted] at h

theorem core_text (key : String) (f : StateAssertion → String)
    (hcore : SameFields a.core b.core)
    (hf : ∀ r : StateAssertion, Assoc.find r.core key = some (.str (f r))) : f a = f b := by
  have h := core_entry key (fun r => some (.str (f r))) hcore hf fun _ => rfl
  exact Json.str.inj (Option.some.inj h)

theorem core_document (key : String) (f : StateAssertion → Option Document)
    (hcore : SameFields a.core b.core)
    (hf : ∀ r : StateAssertion, Assoc.find r.core key = (f r).map Document.value) : f a = f b := by
  have h := core_entry key (fun r => (f r).map Document.value) hcore hf fun r => by
    rw [Option.map_map]
    exact Option.map_congr fun d _ => d.sorted
  exact Option.map_injective Document.value_injective h

end

/-- **Assertions with one hash are one assertion.** -/
theorem StateAssertion.eq_of_sha256 (hsha : Function.Injective rt.sha256) {a b : StateAssertion}
    (h : a.sha256 rt = b.sha256 rt) : a = b := by
  have hcore := same_obj_iff.mp (same_of_sha256Json hsha h)
  have hid := core_text "assertion_id" StateAssertion.assertionId hcore fun _ => rfl
  have htenant := core_text "tenant_id" StateAssertion.tenantId hcore fun _ => rfl
  have hworld := core_text "world_id" StateAssertion.worldId hcore fun _ => rfl
  have hclass := core_text "state_class" (fun r => r.stateClass.name) hcore fun _ => rfl
  have hpath := core_entry "state_path" (fun r => some (.arr (r.statePath.map .str))) hcore
    (fun _ => rfl) fun r => by
      rw [Option.map_some, canon, canonList_eq_map, List.map_map]
      rfl
  have hpath := Json.arr.inj (Option.some.inj hpath)
  have hvalue := core_document "value" (fun r => some r.value) hcore fun _ => rfl
  have hoccurred := core_text "occurred_at" StateAssertion.occurredAt hcore fun _ => rfl
  have hrecorded := core_text "recorded_at" StateAssertion.recordedAt hcore fun _ => rfl
  have havailable :=
    core_text "available_to_controller_at" StateAssertion.availableToControllerAt hcore fun _ => rfl
  have hsource := core_text "source_ref" StateAssertion.sourceRef hcore fun _ => rfl
  have hconfidence := core_entry "confidence" (fun r => some (.float r.confidence)) hcore
    (fun _ => rfl) fun _ => rfl
  have hprovenance := core_document "provenance" (fun r => some r.provenance) hcore fun _ => rfl
  have hlineage := core_entry "model_lineage" (fun r => r.modelLineage.map .str) hcore
    (fun r => by simp [StateAssertion.core, find_append, find_entry, Assoc.find]) fun r => by
      rw [Option.map_map]
      rfl
  have hauthorization := core_document "authorization_ref_sha256"
    StateAssertion.authorizationRefSha256 hcore fun r => by
      simp [StateAssertion.core, find_append, find_entry, Assoc.find]
  have hversion := core_document "world_version" StateAssertion.worldVersion hcore fun r => by
    simp [StateAssertion.core, find_append, find_entry, Assoc.find]
  have hcommitted := core_document "committed_state_sha256"
    StateAssertion.committedStateSha256 hcore fun r => by
      simp [StateAssertion.core, find_append, find_entry, Assoc.find]
  cases a
  cases b
  simp only [StateAssertion.mk.injEq]
  exact ⟨hid, htenant, hworld, StateClass.name_injective hclass,
    List.map_injective_iff.mpr (fun _ _ => Json.str.inj) hpath, Option.some.inj hvalue, hoccurred,
    hrecorded, havailable, hsource, Json.float.inj (Option.some.inj hconfidence),
    Option.some.inj hprovenance, Option.map_injective (fun _ _ => Json.str.inj) hlineage,
    hauthorization, hversion, hcommitted⟩

/-! ## Times and their texts -/

/-- The instant a time names. -/
def instantOf (rt : Runtime) (value : Json) : Option Int :=
  match parsed rt value with
  | .instant t => some t
  | _ => none

/-- The instant an assertion names under a key. -/
def timeAt (rt : Runtime) (key : String) : Json → Option Int
  | .obj kvs => instantOf rt (field kvs key)
  | _ => none

/-- The assertion is available to the controller at the time `t`. -/
def AvailableBy (rt : Runtime) (t assertion : Json) : Prop :=
  ∃ s ∈ timeAt rt "available_to_controller_at" assertion, ∃ u ∈ instantOf rt t, s ≤ u

instance (rt : Runtime) (t assertion : Json) : Decidable (AvailableBy rt t assertion) :=
  inferInstanceAs (Decidable
    (∃ s ∈ timeAt rt "available_to_controller_at" assertion, ∃ u ∈ instantOf rt t, s ≤ u))

theorem timestamp_ok {value : Json} {label s : String} (h : timestamp rt value label = .ok s) :
    ∃ t, instantOf rt value = some t ∧ Calendar.InRange t ∧ s = Calendar.isoformat t := by
  unfold timestamp at h
  unfold instantOf
  split at h
  · cases h
  · cases h
  · next t hparsed =>
    obtain ⟨u, hrange, h⟩ := bind_ok.mp h
    unfold astimezone at hrange
    split at hrange
    · next hin =>
      cases hrange
      cases h
      refine ⟨t, by rw [hparsed], ?_, rfl⟩
      simpa [instantRange, Calendar.InRange] using hin
    · cases hrange

theorem statePathOf_ne_nil {value : Json} {path : List String}
    (h : statePathOf rt value = .ok path) : path ≠ [] := by
  unfold statePathOf at h
  split at h
  · next item items =>
    rintro rfl
    obtain ⟨_, hmem, _⟩ := result_of_mapM h item List.mem_cons_self
    cases hmem
  · cases h

/-- What a row says of the assertion it was made from. -/
theorem normalize_ok {tenantId worldId : String} {a : Json} {r : StateAssertion}
    (h : normalize rt tenantId worldId a = .ok r) : ∃ kvs, a = .obj kvs ∧
      timestamp rt (field kvs "occurred_at") "occurred_at" = .ok r.occurredAt ∧
      timestamp rt (field kvs "available_to_controller_at") "available_to_controller_at" =
        .ok r.availableToControllerAt ∧
      r.statePath ≠ [] := by
  unfold normalize at h
  split at h
  · next kvs =>
    obtain ⟨_, _, h⟩ := bind_ok.mp h
    obtain ⟨_, _, h⟩ := bind_ok.mp h
    obtain ⟨_, _, h⟩ := bind_ok.mp h
    obtain ⟨_, _, h⟩ := bind_ok.mp h
    obtain ⟨_, _, h⟩ := bind_ok.mp h
    obtain ⟨_, _, h⟩ := bind_ok.mp h
    obtain ⟨times, htimes, h⟩ := bind_ok.mp h
    obtain ⟨_, _, h⟩ := bind_ok.mp h
    obtain ⟨_, _, h⟩ := bind_ok.mp h
    obtain ⟨_, _, h⟩ := bind_ok.mp h
    obtain ⟨path, hpath, h⟩ := bind_ok.mp h
    obtain ⟨_, _, h⟩ := bind_ok.mp h
    obtain ⟨_, _, h⟩ := bind_ok.mp h
    cases h
    obtain ⟨occurredAt, hoccurred, htimes⟩ := bind_ok.mp htimes
    obtain ⟨recordedAt, _, htimes⟩ := bind_ok.mp htimes
    obtain ⟨availableAt, havailable, htimes⟩ := bind_ok.mp htimes
    obtain ⟨_, _, htimes⟩ := bind_ok.mp htimes
    obtain ⟨_, _, htimes⟩ := bind_ok.mp htimes
    cases htimes
    exact ⟨kvs, rfl, hoccurred, havailable, statePathOf_ne_nil hpath⟩
  · cases h

section
variable {tenantId worldId : String} {a b : Json} {r s : StateAssertion}

/-- The times of a row are the texts of the instants its assertion names. -/
theorem normalize_times (h : normalize rt tenantId worldId a = .ok r) :
    (∃ t, timeAt rt "available_to_controller_at" a = some t ∧ Calendar.InRange t ∧
      r.availableToControllerAt = Calendar.isoformat t) ∧
    ∃ t, timeAt rt "occurred_at" a = some t ∧ Calendar.InRange t ∧
      r.occurredAt = Calendar.isoformat t := by
  obtain ⟨kvs, rfl, hoccurred, havailable, _⟩ := normalize_ok h
  exact ⟨timestamp_ok havailable, timestamp_ok hoccurred⟩

/-- **Comparing the texts is comparing the times.** -/
theorem eligible_iff {t : Json} {label clock : String} (h : normalize rt tenantId worldId a = .ok r)
    (hclock : timestamp rt t label = .ok clock) :
    r.availableToControllerAt ≤ clock ↔ AvailableBy rt t a := by
  obtain ⟨s, hs, hsrange, hstext⟩ := (normalize_times h).1
  obtain ⟨u, hu, hurange, rfl⟩ := timestamp_ok hclock
  rw [hstext, Calendar.isoformat_le_iff hsrange hurange]
  constructor
  · intro hle
    exact ⟨s, hs, u, hu, hle⟩
  · rintro ⟨s', hs', u', hu', hle⟩
    rw [hs] at hs'
    rw [hu] at hu'
    cases hs'
    cases hu'
    exact hle

/-- The order of the engine, by the times the assertion names. -/
def rank (rt : Runtime) (a : Json) (r : StateAssertion) : Int ×ₗ Int ×ₗ String :=
  toLex ((timeAt rt "available_to_controller_at" a).getD 0,
    toLex ((timeAt rt "occurred_at" a).getD 0, r.assertionId))

theorem before_iff_rank (ha : normalize rt tenantId worldId a = .ok r)
    (hb : normalize rt tenantId worldId b = .ok s) : before r s ↔ rank rt a r ≤ rank rt b s := by
  obtain ⟨⟨t, ht, htrange, httext⟩, t', ht', htrange', httext'⟩ := normalize_times ha
  obtain ⟨⟨u, hu, hurange, hutext⟩, u', hu', hurange', hutext'⟩ := normalize_times hb
  have heq : ∀ {x y : Int}, Calendar.InRange x → Calendar.InRange y →
      (Calendar.isoformat x = Calendar.isoformat y ↔ x = y) := by
    intro x y hx hy
    rw [le_antisymm_iff, le_antisymm_iff, Calendar.isoformat_le_iff hx hy,
      Calendar.isoformat_le_iff hy hx]
  unfold before rank
  simp only [Prod.Lex.toLex_le_toLex, ht, ht', hu, hu', httext, httext', hutext, hutext',
    Option.getD_some, Calendar.isoformat_lt_iff htrange hurange,
    Calendar.isoformat_lt_iff htrange' hurange', heq htrange hurange, heq htrange' hurange']

end

/-! ## What an engine took -/

/-- The engine after a list of assertions. -/
def Engine.after (rt : Runtime) (e : Engine) (l : List Json) : Engine :=
  exec (fun e a => (e.ingest rt a).2) e l

/-- Every assertion of the list is accepted. -/
def Accepted (rt : Runtime) (e : Engine) (l : List Json) : Prop :=
  Along (fun e a => (e.ingest rt a).2) (fun e a _ => (e.ingest rt a).1.isOk = true) e l

instance (rt : Runtime) (e : Engine) (l : List Json) : Decidable (Accepted rt e l) :=
  inferInstanceAs (Decidable (Along (fun e a => (e.ingest rt a).2)
    (fun e a _ => (e.ingest rt a).1.isOk = true) e l))

theorem ok_of_isOk {α : Type} {x : Except PyError α} (h : x.isOk = true) : ∃ v, x = .ok v := by
  cases x with
  | error err => cases h
  | ok v => exact ⟨v, rfl⟩

/-- The engine holds the rows of the assertions, each once. -/
structure Took (rt : Runtime) (tenantId worldId : String) (e : Engine) (l : List Json) : Prop where
  tenant : e.tenantId = tenantId
  world : e.worldId = worldId
  mem : ∀ r, r ∈ e.assertions ↔ ∃ a ∈ l, normalize rt tenantId worldId a = .ok r
  ids : (e.assertions.map StateAssertion.assertionId).Nodup

/-- Accepting an assertion adds its row, unless it is there. -/
theorem ingest_ok (hsha : Function.Injective rt.sha256) {e : Engine} {a : Json} {r : StateAssertion}
    (h : (e.ingest rt a).1 = .ok r) : normalize rt e.tenantId e.worldId a = .ok r ∧
      (((e.ingest rt a).2 = e ∧ r ∈ e.assertions) ∨
        ((e.ingest rt a).2 = { e with assertions := e.assertions ++ [r] } ∧
          ∀ s ∈ e.assertions, s.assertionId ≠ r.assertionId)) := by
  unfold Engine.ingest at h ⊢
  cases hrow : normalize rt e.tenantId e.worldId a with
  | error err =>
    rw [hrow] at h
    cases h
  | ok row =>
    rw [hrow] at h
    dsimp only at h ⊢
    cases hfind : e.assertions.find? fun r => r.assertionId = row.assertionId with
    | none =>
      rw [hfind] at h
      cases h
      refine ⟨rfl, .inr ⟨rfl, fun s hs => ?_⟩⟩
      simpa using List.find?_eq_none.mp hfind s hs
    | some existing =>
      rw [hfind] at h
      dsimp only at h ⊢
      split at h
      · cases h
      · next hhash =>
        cases h
        have heq := StateAssertion.eq_of_sha256 hsha (not_ne_iff.mp hhash)
        subst heq
        rw [if_neg hhash]
        exact ⟨rfl, .inl ⟨rfl, List.mem_of_find?_eq_some hfind⟩⟩

section
variable {tenantId worldId : String} {e : Engine} {l : List Json}

theorem Took.ingest (h : Took rt tenantId worldId e l) (hsha : Function.Injective rt.sha256)
    {a : Json} {r : StateAssertion} (hok : (e.ingest rt a).1 = .ok r) :
    Took rt tenantId worldId (e.ingest rt a).2 (l ++ [a]) := by
  obtain ⟨hrow, hcase⟩ := ingest_ok hsha hok
  rw [h.tenant, h.world] at hrow
  have hmem : ∀ s, (∃ b ∈ l ++ [a], normalize rt tenantId worldId b = .ok s) ↔
      s ∈ e.assertions ∨ s = r := by
    intro s
    simp only [List.mem_append, List.mem_singleton, or_and_right, exists_or, exists_eq_left, hrow,
      h.mem, Except.ok.injEq]
    rw [eq_comm (a := r)]
  rcases hcase with ⟨hsame, hr⟩ | ⟨hadd, hfresh⟩
  · rw [hsame]
    refine ⟨h.tenant, h.world, fun s => ?_, h.ids⟩
    rw [hmem]
    exact (or_iff_left_of_imp fun heq => heq ▸ hr).symm
  · rw [hadd]
    refine ⟨h.tenant, h.world, fun s => ?_, ?_⟩
    · rw [hmem, List.mem_append, List.mem_singleton]
    · dsimp only
      rw [List.map_append, List.map_cons, List.map_nil, List.nodup_append]
      refine ⟨h.ids, List.nodup_singleton _, fun x hx y hy => ?_⟩
      obtain ⟨s, hs, rfl⟩ := List.mem_map.mp hx
      rw [List.mem_singleton.mp hy]
      exact hfresh s hs

theorem Took.exec (hsha : Function.Injective rt.sha256) {m : List Json}
    (h : Took rt tenantId worldId e l) (haccepted : Accepted rt e m) :
    Took rt tenantId worldId (e.after rt m) (l ++ m) := by
  induction m generalizing e l with
  | nil => rwa [List.append_nil]
  | cons a m ih =>
    obtain ⟨hok, haccepted⟩ := haccepted
    obtain ⟨r, hr⟩ := ok_of_isOk hok
    have h := ih (h.ingest hsha hr) haccepted
    rwa [List.append_assoc] at h

end

/-! ## The eligible assertions -/

instance : Std.Total before :=
  ⟨fun a b => le_total (toLex (a.availableToControllerAt, toLex (a.occurredAt, a.assertionId)))
    (toLex (b.availableToControllerAt, toLex (b.occurredAt, b.assertionId)))⟩

instance : IsTrans StateAssertion before := ⟨fun _ _ _ => le_trans⟩

theorem before_antisymm {a b : StateAssertion} (hab : before a b) (hba : before b a) :
    a.assertionId = b.assertionId := by
  have heq := toLex_inj.mp (le_antisymm hab hba)
  exact (Prod.ext_iff.mp (toLex_inj.mp (Prod.ext_iff.mp heq).2)).2

section
variable {tenantId worldId : String} {e e₁ e₂ : Engine} {l l₁ l₂ : List Json} {t : Json}
  {label clock : String}

theorem Took.nodup (h : Took rt tenantId worldId e l) : e.assertions.Nodup :=
  h.ids.of_map

/-- Two rows with one id are one row. -/
theorem Took.eq_of_id (h : Took rt tenantId worldId e l) {r s : StateAssertion}
    (hr : r ∈ e.assertions) (hs : s ∈ e.assertions) (hid : r.assertionId = s.assertionId) :
    r = s :=
  List.inj_on_of_nodup_map h.ids hr hs hid

theorem Took.mem_eligible (h : Took rt tenantId worldId e l)
    (hclock : timestamp rt t label = .ok clock) {r : StateAssertion} :
    r ∈ e.eligible clock ↔
      ∃ a ∈ l, normalize rt tenantId worldId a = .ok r ∧ AvailableBy rt t a := by
  unfold Engine.eligible
  rw [List.mem_insertionSort, List.mem_filter, h.mem, decide_eq_true_eq]
  constructor
  · rintro ⟨⟨a, ha, hrow⟩, hle⟩
    exact ⟨a, ha, hrow, (eligible_iff hrow hclock).mp hle⟩
  · rintro ⟨a, ha, hrow, havailable⟩
    exact ⟨⟨a, ha, hrow⟩, (eligible_iff hrow hclock).mpr havailable⟩

theorem eligible_perm (clock : String) (e : Engine) :
    (e.eligible clock).Perm (e.assertions.filter fun row => row.availableToControllerAt ≤ clock) :=
  List.perm_insertionSort before _

theorem pairwise_eligible (clock : String) (e : Engine) : (e.eligible clock).Pairwise before :=
  List.pairwise_insertionSort before _

theorem Took.nodup_eligible (h : Took rt tenantId worldId e l) : (e.eligible clock).Nodup :=
  (eligible_perm clock e).nodup_iff.mpr (h.nodup.filter _)

theorem Took.antisymm_eligible (h : Took rt tenantId worldId e l) :
    ∀ r ∈ e.eligible clock, ∀ s ∈ e.eligible clock, before r s → before s r → r = s := by
  intro r hr s hs hrs hsr
  have hmem : ∀ {x}, x ∈ e.eligible clock → x ∈ e.assertions := fun hx =>
    List.mem_of_mem_filter ((eligible_perm clock e).mem_iff.mp hx)
  exact h.eq_of_id (hmem hr) (hmem hs) (before_antisymm hrs hsr)

/-- **The eligible assertions are those that were taken and are available.** -/
theorem eligible_eq (h₁ : Took rt tenantId worldId e₁ l₁) (h₂ : Took rt tenantId worldId e₂ l₂)
    (hclock : timestamp rt t label = .ok clock)
    (hsame : ∀ a, AvailableBy rt t a → (a ∈ l₁ ↔ a ∈ l₂)) :
    e₁.eligible clock = e₂.eligible clock := by
  have hperm : (e₁.eligible clock).Perm (e₂.eligible clock) := by
    rw [List.perm_ext_iff_of_nodup h₁.nodup_eligible h₂.nodup_eligible]
    intro r
    rw [h₁.mem_eligible hclock, h₂.mem_eligible hclock]
    constructor
    · rintro ⟨a, ha, hrow, havailable⟩
      exact ⟨a, (hsame a havailable).mp ha, hrow, havailable⟩
    · rintro ⟨a, ha, hrow, havailable⟩
      exact ⟨a, (hsame a havailable).mpr ha, hrow, havailable⟩
  apply hperm.eq_of_pairwise _ (pairwise_eligible clock e₁) (pairwise_eligible clock e₂)
  intro r s hr hs
  exact h₁.antisymm_eligible r hr s (hperm.mem_iff.mpr hs)

end

/-! ## Views -/

/-- What a projection shows for a class and a path. -/
def viewAt (views : Views) (key : String ×ₗ String) : Option StateAssertion :=
  (views.get (ofLex key).1).bind fun view => view.get (ofLex key).2

def Projection.view (p : Projection) (stateClass : StateClass) (path : List String) :
    Option StateAssertion :=
  viewAt p.views (toLex (stateClass.name, pathKey path))

theorem viewAt_noViews (key : String ×ₗ String) : viewAt noViews key = none := by
  unfold viewAt noViews stateClasses
  simp only [List.foldl_cons, List.foldl_nil, Dict.get_set, Dict.get_empty]
  repeat' split
  all_goals rfl

theorem viewAt_setView (views : Views) (row : StateAssertion) (key : String ×ₗ String) :
    viewAt (setView views row) key = if classPath row = key then some row else viewAt views key := by
  unfold viewAt setView classPath
  rw [Dict.get_set]
  by_cases hname : row.stateClass.name = (ofLex key).1
  · by_cases hpath : pathKey row.statePath = (ofLex key).2
    · have hkey : toLex (row.stateClass.name, pathKey row.statePath) = key := by
        rw [hname, hpath]
        rfl
      rw [if_pos hname, if_pos hkey, Option.bind_some, hpath, Dict.get_set_self]
    · have hkey : toLex (row.stateClass.name, pathKey row.statePath) ≠ key := by
        rintro rfl
        exact hpath rfl
      rw [if_pos hname, if_neg hkey, Option.bind_some, Dict.get_set_ne _ _ hpath, hname]
      cases views.get (ofLex key).1 <;> rfl
  · have hkey : toLex (row.stateClass.name, pathKey row.statePath) ≠ key := by
      rintro rfl
      exact hname rfl
    rw [if_neg hname, if_neg hkey]

theorem viewAt_foldl (rows : List StateAssertion) (views : Views) (key : String ×ₗ String) :
    viewAt (rows.foldl setView views) key =
      rows.foldl (fun view row => if classPath row = key then some row else view)
        (viewAt views key) := by
  induction rows generalizing views with
  | nil => rfl
  | cons row rows ih => rw [List.foldl_cons, List.foldl_cons, ih, viewAt_setView]

/-- A view has the last row of its class and path. -/
theorem viewAt_rows (rows : List StateAssertion) (key : String ×ₗ String) :
    viewAt (rows.foldl setView noViews) key =
      (rows.filter fun row => classPath row = key).getLast? := by
  have hlast := Sorting.foldl_last (fun row => decide (classPath row = key)) some none rows
  simp only [decide_eq_true_eq] at hlast
  rw [viewAt_foldl, viewAt_noViews, hlast]
  cases (rows.filter fun row => classPath row = key).getLast? <;> rfl

/-- The last element of a sorted list is its greatest. -/
theorem getLast?_eq_some_iff_greatest {α : Type} {r : α → α → Prop} [Std.Total r] {l : List α}
    (hsorted : l.Pairwise r) (hanti : ∀ x ∈ l, ∀ y ∈ l, r x y → r y x → x = y) {x : α} :
    l.getLast? = some x ↔ x ∈ l ∧ ∀ y ∈ l, r y x := by
  have hgreatest : ∀ {z}, l.getLast? = some z → ∀ y ∈ l, r y z := by
    intro z hz y hy
    obtain ⟨ys, rfl⟩ := List.getLast?_eq_some_iff.mp hz
    rcases List.mem_append.mp hy with hy | hy
    · exact (List.pairwise_append.mp hsorted).2.2 y hy z (List.mem_singleton_self z)
    · rw [List.mem_singleton.mp hy]
      exact (Std.Total.total z z).elim id id
  constructor
  · intro h
    exact ⟨List.mem_of_getLast? h, hgreatest h⟩
  · rintro ⟨hx, hall⟩
    cases hlast : l.getLast? with
    | none =>
      rw [List.getLast?_eq_none_iff.mp hlast] at hx
      cases hx
    | some z =>
      have hz := List.mem_of_getLast? hlast
      rw [hanti x hx z hz (hgreatest hlast x hx) (hall z hz)]

/-! ## Pointers -/

/-- What can follow an item of a pointer. -/
def Ends (r : List Char) : Prop := ∀ c t, r = c :: t → c = '/'

theorem escapePointer_cons (c : Char) : ∃ d t, escapePointer c = d :: t ∧ d ≠ '/' := by
  unfold escapePointer
  split
  · exact ⟨_, _, rfl, by decide⟩
  · next h =>
    split
    · exact ⟨_, _, rfl, by decide⟩
    · next h => exact ⟨_, _, rfl, h⟩

theorem escapePointer_inj {a b : Char} {x y : List Char}
    (h : escapePointer a ++ x = escapePointer b ++ y) : a = b ∧ x = y := by
  unfold escapePointer at h
  split_ifs at h <;> simp_all [eq_comm]

theorem not_ends {a : Char} {as r : List Char} (h : Ends ((a :: as).flatMap escapePointer ++ r)) :
    False := by
  obtain ⟨d, t, hd, hne⟩ := escapePointer_cons a
  rw [List.flatMap_cons, hd] at h
  exact hne (h d _ rfl)

theorem item_readable {as bs r r' : List Char} (hr : Ends r) (hr' : Ends r')
    (h : as.flatMap escapePointer ++ r = bs.flatMap escapePointer ++ r') : as = bs ∧ r = r' := by
  induction as generalizing bs with
  | nil =>
    cases bs with
    | nil => exact ⟨rfl, h⟩
    | cons b bs =>
      rw [List.flatMap_nil, List.nil_append] at h
      exact (not_ends (h ▸ hr)).elim
  | cons a as ih =>
    cases bs with
    | nil =>
      rw [List.flatMap_nil, List.nil_append] at h
      exact (not_ends (h ▸ hr')).elim
    | cons b bs =>
      rw [List.flatMap_cons, List.flatMap_cons, List.append_assoc, List.append_assoc] at h
      obtain ⟨rfl, htail⟩ := escapePointer_inj h
      obtain ⟨rfl, hrest⟩ := ih htail
      exact ⟨rfl, hrest⟩

/-- The items of a path, each with the mark before it. -/
def pointer (path : List String) : List Char :=
  path.flatMap fun item => '/' :: item.toList.flatMap escapePointer

theorem ends_pointer (path : List String) : Ends (pointer path) := by
  intro c t h
  cases path with
  | nil => cases h
  | cons item path =>
    cases h
    rfl

theorem pointer_injective : Function.Injective pointer := by
  intro p q h
  induction p generalizing q with
  | nil =>
    cases q with
    | nil => rfl
    | cons b q => cases h
  | cons a p ih =>
    cases q with
    | nil => cases h
    | cons b q =>
      have htail := (List.cons.inj h).2
      obtain ⟨hitem, hrest⟩ := item_readable (ends_pointer p) (ends_pointer q) htail
      rw [String.toList_inj.mp hitem, ih hrest]

theorem pathKey_eq {path : List String} (h : path ≠ []) :
    pathKey path = String.ofList (pointer path) := by
  cases path with
  | nil => exact absurd rfl h
  | cons item path =>
    unfold pathKey pointer
    rw [List.map_cons, Separated.intercalate_cons, List.flatMap_map]
    rfl

/-- **Paths with one pointer are one path.** -/
theorem pathKey_inj {p q : List String} (hp : p ≠ []) (hq : q ≠ []) :
    pathKey p = pathKey q ↔ p = q := by
  rw [pathKey_eq hp, pathKey_eq hq, String.ofList_inj, pointer_injective.eq_iff]

/-! ## The time gate -/

section
variable {tenantId worldId : String} {e e₁ e₂ : Engine} {l l₁ l₂ : List Json} {t : Json}
  {label clock : String}

/-- What a projection has apart from the count of the assertions left out, and the hash. -/
def Projection.gated (p : Projection) : Projection :=
  { p with futureAssertionsExcluded := 0, projectionSha256 := "" }

theorem projectionAt_gated (h₁ : Took rt tenantId worldId e₁ l₁)
    (h₂ : Took rt tenantId worldId e₂ l₂) (hclock : timestamp rt t label = .ok clock)
    (hsame : ∀ a, AvailableBy rt t a → (a ∈ l₁ ↔ a ∈ l₂)) :
    (e₁.projectionAt rt clock).gated = (e₂.projectionAt rt clock).gated := by
  unfold Projection.gated Engine.projectionAt
  dsimp only
  rw [eligible_eq h₁ h₂ hclock hsame, h₁.tenant, h₂.tenant, h₁.world, h₂.world]

theorem project_gated (h₁ : Took rt tenantId worldId e₁ l₁) (h₂ : Took rt tenantId worldId e₂ l₂)
    (hsame : ∀ a, AvailableBy rt t a → (a ∈ l₁ ↔ a ∈ l₂)) :
    (e₁.project rt t).map Projection.gated = (e₂.project rt t).map Projection.gated := by
  unfold Engine.project
  cases hclock : timestamp rt t "decision_time" with
  | error err => rfl
  | ok clock => exact congrArg Except.ok (projectionAt_gated h₁ h₂ hclock hsame)

theorem project_eq (h₁ : Took rt tenantId worldId e₁ l₁) (h₂ : Took rt tenantId worldId e₂ l₂)
    (hsame : ∀ a, a ∈ l₁ ↔ a ∈ l₂) : e₁.project rt t = e₂.project rt t := by
  have hlength : e₁.assertions.length = e₂.assertions.length := by
    apply List.Perm.length_eq
    rw [List.perm_ext_iff_of_nodup h₁.nodup h₂.nodup]
    intro r
    simp only [h₁.mem, h₂.mem, hsame]
  unfold Engine.project
  cases hclock : timestamp rt t "decision_time" with
  | error err => rfl
  | ok clock =>
    have hcore : e₁.projectionAt rt clock = e₂.projectionAt rt clock := by
      unfold Engine.projectionAt
      rw [eligible_eq h₁ h₂ hclock fun a _ => hsame a, hlength, h₁.tenant, h₂.tenant, h₁.world,
        h₂.world]
    exact congrArg (fun core : Projection => Except.ok
      { core with projectionSha256 := sha256Json rt.sha256 (core.core rt) }) hcore

/-- The hash tells the count. -/
theorem excluded_of_sha256 (hsha : Function.Injective rt.sha256) {t₁ t₂ : Json} {p q : Projection}
    (hp : e₁.project rt t₁ = .ok p) (hq : e₂.project rt t₂ = .ok q)
    (h : p.projectionSha256 = q.projectionSha256) :
    p.futureAssertionsExcluded = q.futureAssertionsExcluded := by
  obtain ⟨_, _, hp⟩ := bind_ok.mp hp
  obtain ⟨_, _, hq⟩ := bind_ok.mp hq
  cases hp
  cases hq
  have hcount := same_obj_iff.mp (same_of_sha256Json hsha h) "future_assertions_excluded"
  exact Int.ofNat.inj (Json.int.inj (Option.some.inj hcount))

/-- An accepted assertion of a class and a path that is available at the time `t`, and its row. -/
structure Candidate (rt : Runtime) (e : Engine) (l : List Json) (t : Json) (stateClass : StateClass)
    (path : List String) (a : Json) (r : StateAssertion) : Prop where
  mem : a ∈ l
  row : normalize rt e.tenantId e.worldId a = .ok r
  available : AvailableBy rt t a
  stateClass : r.stateClass = stateClass
  path : r.statePath = path

/-- None of the candidates is later. -/
def Latest (rt : Runtime) (e : Engine) (l : List Json) (t : Json) (stateClass : StateClass)
    (path : List String) (r : StateAssertion) : Prop :=
  ∃ a, Candidate rt e l t stateClass path a r ∧
    ∀ b s, Candidate rt e l t stateClass path b s → rank rt b s ≤ rank rt a r

theorem candidate_iff (h : Took rt e.tenantId e.worldId e₁ l)
    (hclock : timestamp rt t label = .ok clock) {stateClass : StateClass} {path : List String}
    (hpath : path ≠ []) {r : StateAssertion} :
    r ∈ (e₁.eligible clock).filter
        (fun row => classPath row = toLex (stateClass.name, pathKey path)) ↔
      ∃ a, Candidate rt e l t stateClass path a r := by
  rw [List.mem_filter, h.mem_eligible hclock, decide_eq_true_eq]
  unfold classPath
  rw [toLex_inj, Prod.mk.injEq, StateClass.name_injective.eq_iff]
  constructor
  · rintro ⟨⟨a, ha, hrow, havailable⟩, hclass, hkey⟩
    obtain ⟨_, _, _, _, hne⟩ := normalize_ok hrow
    exact ⟨a, ha, hrow, havailable, hclass, (pathKey_inj hne hpath).mp hkey⟩
  · rintro ⟨a, ha, hrow, havailable, hclass, rfl⟩
    exact ⟨⟨a, ha, hrow, havailable⟩, hclass, rfl⟩

theorem view_iff (h : Took rt e.tenantId e.worldId e₁ l) {p : Projection}
    (hp : e₁.project rt t = .ok p) {stateClass : StateClass} {path : List String}
    (hpath : path ≠ []) {r : StateAssertion} :
    p.view stateClass path = some r ↔ Latest rt e l t stateClass path r := by
  obtain ⟨clock, hclock, hp⟩ := bind_ok.mp hp
  cases hp
  have hcandidate := @candidate_iff rt e e₁ l t _ clock h hclock stateClass path hpath
  show viewAt ((e₁.eligible clock).foldl setView noViews) _ = some r ↔ _
  rw [viewAt_rows, getLast?_eq_some_iff_greatest
    ((pairwise_eligible clock e₁).filter _)
    fun r hr s hs => h.antisymm_eligible r (List.mem_of_mem_filter hr) s (List.mem_of_mem_filter hs)]
  constructor
  · rintro ⟨hr, hlatest⟩
    obtain ⟨a, ha⟩ := hcandidate.mp hr
    refine ⟨a, ha, fun b s hb => ?_⟩
    rw [← before_iff_rank hb.row ha.row]
    exact hlatest s (hcandidate.mpr ⟨b, hb⟩)
  · rintro ⟨a, ha, hlatest⟩
    refine ⟨hcandidate.mpr ⟨a, ha⟩, fun s hs => ?_⟩
    obtain ⟨b, hb⟩ := hcandidate.mp hs
    rw [before_iff_rank hb.row ha.row]
    exact hlatest b s hb

end

theorem took_after (hsha : Function.Injective rt.sha256) {tenantId worldId : Json} {e : Engine}
    (hnew : Engine.new rt tenantId worldId = .ok e) {l : List Json} (h : Accepted rt e l) :
    Took rt e.tenantId e.worldId (e.after rt l) l := by
  have hempty : Took rt e.tenantId e.worldId e [] := by
    obtain ⟨_, _, hnew⟩ := bind_ok.mp hnew
    obtain ⟨_, _, hnew⟩ := bind_ok.mp hnew
    cases hnew
    exact ⟨rfl, rfl, by simp, List.nodup_nil⟩
  exact hempty.exec hsha h

/-- **Time gate.** Two engines that took the same assertions available by a time project the same
then, apart from the count of those left out and the hash over it; with the same assertions in any
order they project the same altogether. A view has the latest eligible assertion of its class and
path. -/
theorem time_gate (hsha : Function.Injective rt.sha256) {tenantId worldId : Json} {e : Engine}
    (hnew : Engine.new rt tenantId worldId = .ok e) (t : Json) :
    (∀ l₁ l₂, Accepted rt e l₁ → Accepted rt e l₂ →
      (∀ a, AvailableBy rt t a → (a ∈ l₁ ↔ a ∈ l₂)) →
      ((e.after rt l₁).project rt t).map Projection.gated =
        ((e.after rt l₂).project rt t).map Projection.gated) ∧
    (∀ l₁ l₂, Accepted rt e l₁ → Accepted rt e l₂ → (∀ a, a ∈ l₁ ↔ a ∈ l₂) →
      (e.after rt l₁).project rt t = (e.after rt l₂).project rt t) ∧
    (∀ l p, Accepted rt e l → (e.after rt l).project rt t = .ok p →
      ∀ stateClass path r, path ≠ [] →
        (p.view stateClass path = some r ↔ Latest rt e l t stateClass path r)) := by
  refine ⟨fun l₁ l₂ h₁ h₂ => ?_, fun l₁ l₂ h₁ h₂ => ?_, fun l p h hp stateClass path r hpath => ?_⟩
  · exact project_gated (took_after hsha hnew h₁) (took_after hsha hnew h₂)
  · exact project_eq (took_after hsha hnew h₁) (took_after hsha hnew h₂)
  · exact view_iff (took_after hsha hnew h) hp hpath

end

/-! ## Two reports -/

/-- A runtime that reads the times of the first minutes of a day. -/
def sampleRuntime : Runtime where
  repr _ := ""
  sha256 := id
  fromisoformat text :=
    if text = "2026-08-30T00:00:00+00:00" then .instant 1788048000000000
    else if text = "2026-08-30T00:01:00+00:00" then .instant 1788048060000000
    else if text = "2026-08-30T00:02:00+00:00" then .instant 1788048120000000
    else .invalid
  parseHex _ := none

def sampleReport (assertionId : String) (beds : Int) (availableAt : String) : Json :=
  .obj [("assertion_id", .str assertionId), ("state_class", .str "REPORTED"),
    ("state_path", .arr [.str "resources", .str "beds"]), ("value", .int beds),
    ("occurred_at", .str "2026-08-30T00:00:00Z"), ("recorded_at", .str "2026-08-30T00:00:00Z"),
    ("available_to_controller_at", .str availableAt), ("source_ref", .str "ward"),
    ("confidence", .float 1)]

def earlyReport : Json := sampleReport "report-a" 4 "2026-08-30T00:00:00Z"

def lateReport : Json := sampleReport "report-b" 3 "2026-08-30T00:02:00Z"

def sampleTime : Json := .str "2026-08-30T00:01:00Z"

def sampleEngine : Engine := { tenantId := "tenant-a", worldId := "world-a" }

theorem time_gate_sample :
    ((sampleEngine.after sampleRuntime [earlyReport]).project sampleRuntime sampleTime).map
        Projection.gated =
      ((sampleEngine.after sampleRuntime [lateReport, earlyReport]).project sampleRuntime
        sampleTime).map Projection.gated ∧
    (sampleEngine.after sampleRuntime [earlyReport, lateReport]).project sampleRuntime sampleTime =
      (sampleEngine.after sampleRuntime [lateReport, earlyReport]).project sampleRuntime
        sampleTime ∧
    ∃ p, (sampleEngine.after sampleRuntime [earlyReport, lateReport]).project sampleRuntime
        sampleTime = .ok p ∧
      ∀ r, p.view .reported ["resources", "beds"] = some r ↔
        Latest sampleRuntime sampleEngine [earlyReport, lateReport] sampleTime .reported
          ["resources", "beds"] r := by
  obtain ⟨hgated, horder, hview⟩ := @time_gate sampleRuntime (fun _ _ h => h) (.str "tenant-a")
    (.str "world-a") sampleEngine (by decide +kernel) sampleTime
  have hlate : ¬ AvailableBy sampleRuntime sampleTime lateReport := by decide +kernel
  refine ⟨hgated _ _ (by decide +kernel) (by decide +kernel) fun a ha => ?_,
    horder _ _ (by decide +kernel) (by decide +kernel) fun a => ?_, ?_⟩
  · have hne : a ≠ lateReport := fun h => hlate (h ▸ ha)
    simp [hne]
  · rw [List.mem_pair, List.mem_pair, or_comm]
  · have hok : ((sampleEngine.after sampleRuntime [earlyReport, lateReport]).project sampleRuntime
        sampleTime).isOk = true := by decide +kernel
    obtain ⟨p, hp⟩ := ok_of_isOk hok
    exact ⟨p, hp, fun r => hview _ p (by decide +kernel) hp .reported _ r (by decide)⟩

/-- The report that is not available yet counts as left out, which the hash covers. -/
theorem future_counted :
    Accepted sampleRuntime sampleEngine [earlyReport] ∧
      Accepted sampleRuntime sampleEngine [earlyReport, lateReport] ∧
      ¬ AvailableBy sampleRuntime sampleTime lateReport ∧
      ∃ p q,
        (sampleEngine.after sampleRuntime [earlyReport]).project sampleRuntime sampleTime = .ok p ∧
        (sampleEngine.after sampleRuntime [earlyReport, lateReport]).project sampleRuntime
          sampleTime = .ok q ∧
        p.futureAssertionsExcluded = 0 ∧ q.futureAssertionsExcluded = 1 ∧
        p.projectionSha256 ≠ q.projectionSha256 := by
  have hp : ((sampleEngine.after sampleRuntime [earlyReport]).project sampleRuntime
      sampleTime).toOption.any (fun p => p.futureAssertionsExcluded = 0) = true := by
    decide +kernel
  have hq : ((sampleEngine.after sampleRuntime [earlyReport, lateReport]).project sampleRuntime
      sampleTime).toOption.any (fun q => q.futureAssertionsExcluded = 1) = true := by
    decide +kernel
  obtain ⟨p, hp, hnone⟩ := Fallible.ok_of_any hp
  obtain ⟨q, hq, hone⟩ := Fallible.ok_of_any hq
  have hnone := of_decide_eq_true hnone
  have hone := of_decide_eq_true hone
  refine ⟨by decide +kernel, by decide +kernel, by decide +kernel, p, q, hp, hq, hnone, hone, ?_⟩
  intro hhash
  have hsha : Function.Injective sampleRuntime.sha256 := fun _ _ h => h
  have hcount := excluded_of_sha256 hsha hp hq hhash
  rw [hnone, hone] at hcount
  cases hcount

end Edon.Cerebrum.StateEngine
