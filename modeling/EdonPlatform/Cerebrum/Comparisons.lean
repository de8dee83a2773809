import EdonPlatform.Cerebrum.TimeGate

/- The texts the state engine compares (edon/cerebrum/state_engine.py): the normalized times of an
   assertion, and the keys of state paths.

   What is proved:
     1. `timestamps_compare` — the texts of two accepted times are ordered as the instants are,
        with or without a fraction of a second. So the checks of `ingest` accept exactly the times
        that are in their order as instants, and `project` sorts by the instants.
     2. `pathKey_injective` — accepted paths with one key are one path, so a row never takes the
        place of a row with another path in a view.

   Correspondence (Python ↔ Lean):
     `text.replace(mark, by)`, for a single mark ↔ `replaceMark` -/
namespace Edon.Cerebrum.StateEngine
open Json

section
variable {rt : Runtime}

/-! ## Times -/

theorem isoformat_eq_iff {i j : Int} (hi : Calendar.InRange i) (hj : Calendar.InRange j) :
    Calendar.isoformat i = Calendar.isoformat j ↔ i = j := by
  rw [le_antisymm_iff, le_antisymm_iff, Calendar.isoformat_le_iff hi hj,
    Calendar.isoformat_le_iff hj hi]

theorem timestamp_compare {v w : Json} {label label' s t : String}
    (hv : timestamp rt v label = .ok s) (hw : timestamp rt w label' = .ok t) :
    ∃ i ∈ instantOf rt v, ∃ j ∈ instantOf rt w, (s < t ↔ i < j) ∧ (s = t ↔ i = j) := by
  obtain ⟨i, hi, hirange, rfl⟩ := timestamp_ok hv
  obtain ⟨j, hj, hjrange, rfl⟩ := timestamp_ok hw
  exact ⟨i, hi, j, hj, Calendar.isoformat_lt_iff hirange hjrange, isoformat_eq_iff hirange hjrange⟩

/-- The three times of an assertion are accepted when none is before the one it follows. -/
theorem timesOf_isOk_iff {get : String → Json} {s t u : String}
    (hoccurred : timestamp rt (get "occurred_at") "occurred_at" = .ok s)
    (hrecorded : timestamp rt (get "recorded_at") "recorded_at" = .ok t)
    (havailable : timestamp rt (get "available_to_controller_at") "available_to_controller_at" =
      .ok u) : (timesOf rt get).isOk = true ↔ ¬ t < s ∧ ¬ u < t := by
  unfold timesOf
  rw [hoccurred, hrecorded, havailable]
  show (Except.bind (require _ _) fun _ => Except.bind (require _ _) fun _ => _).isOk = true ↔ _
  by_cases hts : t < s
  · simp [require, hts, Except.bind, Except.isOk, Except.toBool]
  · by_cases hut : u < t
    · simp [require, hts, hut, Except.bind, Except.isOk, Except.toBool]
    · simp [require, hts, hut, Except.bind, Except.isOk, Except.toBool, pure, Except.pure]

/-- **Normalized times compare as the instants they name.** Texts of accepted times are ordered as
the instants; the checks of `ingest` accept exactly the times that are in their order; rows are
sorted by the instants. -/
theorem timestamps_compare (rt : Runtime) :
    (∀ v w label label' s t, timestamp rt v label = .ok s → timestamp rt w label' = .ok t →
      ∃ i ∈ instantOf rt v, ∃ j ∈ instantOf rt w, (s < t ↔ i < j) ∧ (s = t ↔ i = j)) ∧
    (∀ (get : String → Json) s t u, timestamp rt (get "occurred_at") "occurred_at" = .ok s →
      timestamp rt (get "recorded_at") "recorded_at" = .ok t →
      timestamp rt (get "available_to_controller_at") "available_to_controller_at" = .ok u →
      ∃ i ∈ instantOf rt (get "occurred_at"), ∃ j ∈ instantOf rt (get "recorded_at"),
        ∃ k ∈ instantOf rt (get "available_to_controller_at"),
          ((timesOf rt get).isOk = true ↔ i ≤ j ∧ j ≤ k)) ∧
    (∀ tenantId worldId a b r s, normalize rt tenantId worldId a = .ok r →
      normalize rt tenantId worldId b = .ok s → (before r s ↔ rank rt a r ≤ rank rt b s)) := by
  refine ⟨fun v w label label' s t hv hw => timestamp_compare hv hw, ?_,
    fun _ _ _ _ _ _ ha hb => before_iff_rank ha hb⟩
  intro get s t u hoccurred hrecorded havailable
  obtain ⟨j, hj, i, hi, hji, -⟩ := timestamp_compare hrecorded hoccurred
  obtain ⟨k, hk, j', hj', hkj, -⟩ := timestamp_compare havailable hrecorded
  cases Option.mem_unique hj hj'
  refine ⟨i, hi, j, hj, k, hk, ?_⟩
  rw [timesOf_isOk_iff hoccurred hrecorded havailable, hji, hkj, not_lt, not_lt]

/-- A runtime that reads a whole second, the half second after it and the next second. -/
def fractionRuntime : Runtime :=
  { sampleRuntime with
    fromisoformat := fun text =>
      if text = "2026-08-30T00:00:00+00:00" then .instant 1788048000000000
      else if text = "2026-08-30T00:00:00.5+00:00" then .instant 1788048000500000
      else if text = "2026-08-30T00:00:01+00:00" then .instant 1788048001000000
      else .invalid }

theorem timestamps_compare_sample :
    ("2026-08-30T00:00:00+00:00" < "2026-08-30T00:00:00.500000+00:00" ↔
      (1788048000000000 : Int) < 1788048000500000) ∧
    ("2026-08-30T00:00:00.500000+00:00" < "2026-08-30T00:00:01+00:00" ↔
      (1788048000500000 : Int) < 1788048001000000) := by
  have hread : timestamp fractionRuntime (.str "2026-08-30T00:00:00Z") "t" =
        .ok "2026-08-30T00:00:00+00:00" ∧
      timestamp fractionRuntime (.str "2026-08-30T00:00:00.5Z") "t" =
        .ok "2026-08-30T00:00:00.500000+00:00" ∧
      timestamp fractionRuntime (.str "2026-08-30T00:00:01Z") "t" =
        .ok "2026-08-30T00:00:01+00:00" := by decide +kernel
  obtain ⟨hwhole, hhalf, hnext⟩ := hread
  obtain ⟨i, hi, j, hj, hij, -⟩ := (timestamps_compare fractionRuntime).1 _ _ _ _ _ _ hwhole hhalf
  obtain ⟨j', hj', k, hk, hjk, -⟩ := (timestamps_compare fractionRuntime).1 _ _ _ _ _ _ hhalf hnext
  cases hi
  cases hj
  cases hj'
  cases hk
  exact ⟨hij, hjk⟩

/-! ## Paths -/

def replaceMark (mark : Char) (by' : List Char) (text : List Char) : List Char :=
  text.flatMap fun c => if c = mark then by' else [c]

/-- A tilde is escaped first, so the tildes of the second step are not escaped again. -/
theorem escape_item (item : List Char) : item.flatMap escapePointer =
    replaceMark '/' ['~', '1'] (replaceMark '~' ['~', '0'] item) := by
  unfold replaceMark
  rw [List.flatMap_assoc]
  refine List.flatMap_congr fun c _ => ?_
  unfold escapePointer
  by_cases htilde : c = '~'
  · rw [if_pos htilde, if_pos htilde]
    rfl
  · rw [if_neg htilde, if_neg htilde, List.flatMap_cons, List.flatMap_nil, List.append_nil]

theorem pathKey_replace (path : List String) : pathKey path = String.ofList ('/' ::
    ['/'].intercalate (path.map fun item =>
      replaceMark '/' ['~', '1'] (replaceMark '~' ['~', '0'] item.toList))) := by
  unfold pathKey
  simp only [escape_item]

/-- **Accepted paths with one key are one path.** A row with another path is never shown in the
place of a row with this one. -/
theorem pathKey_injective {v w : Json} {p q : List String} (hp : statePathOf rt v = .ok p)
    (hq : statePathOf rt w = .ok q) :
    (pathKey p = pathKey q → p = q) ∧
    ∀ (views : Views) (row : StateAssertion) (stateClass : StateClass), row.statePath = q →
      viewAt (setView views row) (toLex (stateClass.name, pathKey p)) =
        if row.stateClass = stateClass ∧ p = q then some row
        else viewAt views (toLex (stateClass.name, pathKey p)) := by
  have hinj := pathKey_inj (statePathOf_ne_nil hp) (statePathOf_ne_nil hq)
  refine ⟨hinj.mp, fun views row stateClass hpath => ?_⟩
  rw [viewAt_setView]
  refine if_congr ?_ rfl rfl
  unfold classPath
  rw [toLex_inj, Prod.mk.injEq, StateClass.name_injective.eq_iff, hpath, eq_comm (a := pathKey q),
    hinj]

theorem pathKey_injective_sample : (pathKey ["a/b"] = pathKey ["a~1b"] → ["a/b"] = ["a~1b"]) ∧
    ∀ (views : Views) (row : StateAssertion) (stateClass : StateClass), row.statePath = ["a~1b"] →
      viewAt (setView views row) (toLex (stateClass.name, pathKey ["a/b"])) =
        if row.stateClass = stateClass ∧ ["a/b"] = ["a~1b"] then some row
        else viewAt views (toLex (stateClass.name, pathKey ["a/b"])) :=
  @pathKey_injective sampleRuntime (.arr [.str "a/b"]) (.arr [.str "a~1b"]) _ _
    (by decide +kernel) (by decide +kernel)

example : pathKey ["a/b"] = "/a~1b" ∧ pathKey ["a~1b"] = "/a~01b" := by decide +kernel

end
end Edon.Cerebrum.StateEngine
