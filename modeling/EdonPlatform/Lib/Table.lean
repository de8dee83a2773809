import Mathlib.Data.List.Nodup

/- A database table with a unique key: the rows in the order they were inserted, no
   two with the same key. The key is a function of the row, so a table has its
   constraint by construction: `insert` refuses a row whose key is taken, and
   `modify` rewrites one row and keeps its key.

   A statement reads a table through `get` (the row with a key) or through `rows`
   (a scan); the lemmas say what both see after each write. -/

structure Table {α κ : Type} (key : α → κ) where
  rows : List α
  unique : (rows.map key).Nodup

namespace Table
variable {α κ : Type} {key : α → κ}

instance : EmptyCollection (Table key) := ⟨⟨[], List.nodup_nil⟩⟩

theorem ext_rows {t u : Table key} (h : t.rows = u.rows) : t = u := by
  cases t
  cases u
  cases h
  rfl

instance [DecidableEq α] : DecidableEq (Table key) := fun t u =>
  decidable_of_iff (t.rows = u.rows) ⟨ext_rows, congrArg rows⟩

@[simp] theorem rows_empty : (∅ : Table key).rows = [] := rfl

theorem eq_of_key {t : Table key} {r s : α} (hr : r ∈ t.rows) (hs : s ∈ t.rows)
    (h : key r = key s) : r = s :=
  List.inj_on_of_nodup_map t.unique hr hs h

section
variable [DecidableEq κ]

def get (t : Table key) (k : κ) : Option α := t.rows.find? (fun r => key r = k)

/-- `INSERT`: nothing when the key is taken. -/
def insert (t : Table key) (r : α) : Option (Table key) :=
  if h : key r ∈ t.rows.map key then none
  else some ⟨t.rows ++ [r], by
    rw [List.map_append, List.map_singleton, ← List.concat_eq_append]
    exact t.unique.concat h⟩

/-- `UPDATE` of the row with key `k`, by a function that leaves the key alone. -/
def modify (t : Table key) (k : κ) (f : α → α) (hf : ∀ r, key (f r) = key r) : Table key :=
  ⟨t.rows.map (fun r => if key r = k then f r else r), by
    rw [List.map_map, List.map_congr_left (g := key)]
    · exact t.unique
    · intro r _
      simp only [Function.comp_apply]
      split
      · exact hf r
      · rfl⟩

/-- `UPDATE` of the rows that meet a condition, by a function that leaves the key alone. -/
def update (t : Table key) (p : α → Bool) (f : α → α) (hf : ∀ r, key (f r) = key r) : Table key :=
  ⟨t.rows.map (fun r => if p r then f r else r), by
    rw [List.map_map, List.map_congr_left (g := key)]
    · exact t.unique
    · intro r _
      simp only [Function.comp_apply]
      split
      · exact hf r
      · rfl⟩

theorem get_eq_some {t : Table key} {k : κ} {r : α} :
    t.get k = some r ↔ r ∈ t.rows ∧ key r = k := by
  constructor
  · intro h
    exact ⟨List.mem_of_find?_eq_some h, by simpa using List.find?_some h⟩
  · rintro ⟨hr, hk⟩
    unfold get
    cases h : t.rows.find? (fun r => key r = k) with
    | none =>
      have := List.find?_eq_none.mp h r hr
      simp [hk] at this
    | some s =>
      have hs : key s = k := by simpa using List.find?_some h
      rw [eq_of_key (List.mem_of_find?_eq_some h) hr (hs.trans hk.symm)]

theorem get_key {t : Table key} {k : κ} {r : α} (h : t.get k = some r) : key r = k :=
  (get_eq_some.mp h).2

theorem mem_of_get {t : Table key} {k : κ} {r : α} (h : t.get k = some r) : r ∈ t.rows :=
  (get_eq_some.mp h).1

theorem get_of_mem {t : Table key} {r : α} (h : r ∈ t.rows) : t.get (key r) = some r :=
  get_eq_some.mpr ⟨h, rfl⟩

theorem get_eq_none {t : Table key} {k : κ} : t.get k = none ↔ ∀ r ∈ t.rows, key r ≠ k := by
  simp [get, List.find?_eq_none]

@[simp] theorem get_empty (k : κ) : (∅ : Table key).get k = none := rfl

theorem rows_insert {t u : Table key} {r : α} (h : t.insert r = some u) :
    u.rows = t.rows ++ [r] ∧ t.get (key r) = none := by
  unfold insert at h
  split at h
  · cases h
  · next hk =>
    cases h
    refine ⟨rfl, get_eq_none.mpr ?_⟩
    intro s hs he
    exact hk (List.mem_map.mpr ⟨s, hs, he⟩)

theorem insert_of_get {t : Table key} {r : α} (h : t.get (key r) = none) :
    ∃ u, t.insert r = some u := by
  unfold insert
  rw [dif_neg]
  · exact ⟨_, rfl⟩
  · rintro hk
    obtain ⟨s, hs, he⟩ := List.mem_map.mp hk
    exact get_eq_none.mp h s hs he

theorem mem_insert {t u : Table key} {r s : α} (h : t.insert r = some u) :
    s ∈ u.rows ↔ s ∈ t.rows ∨ s = r := by
  rw [(rows_insert h).1, List.mem_append, List.mem_singleton]

theorem get_insert {t u : Table key} {r : α} (h : t.insert r = some u) (k : κ) :
    u.get k = if key r = k then some r else t.get k := by
  obtain ⟨hrows, hnone⟩ := rows_insert h
  unfold get at hnone ⊢
  rw [hrows, List.find?_append]
  by_cases hk : key r = k
  · subst hk
    rw [hnone]
    simp
  · simp [hk]

theorem get_of_insert {t : Table key} {r : α} (h : t.insert r = none) : t.get (key r) ≠ none := by
  intro hfree
  obtain ⟨u, hu⟩ := insert_of_get hfree
  rw [h] at hu
  cases hu

theorem taken_insert {t u : Table key} {r : α} (h : t.insert r = some u) (k : κ) :
    u.get k ≠ none ↔ t.get k ≠ none ∨ k = key r := by
  rw [get_insert h]
  by_cases hk : key r = k
  · rw [if_pos hk]
    exact iff_of_true (Option.some_ne_none r) (.inr hk.symm)
  · rw [if_neg hk]
    exact (or_iff_left (Ne.symm hk)).symm

@[simp] theorem rows_modify (t : Table key) (k : κ) (f : α → α) (hf : ∀ r, key (f r) = key r) :
    (t.modify k f hf).rows = t.rows.map (fun r => if key r = k then f r else r) := rfl

theorem get_modify (t : Table key) (k k' : κ) (f : α → α) (hf : ∀ r, key (f r) = key r) :
    (t.modify k f hf).get k' = if k = k' then (t.get k').map f else t.get k' := by
  have hkey : ∀ r, key (if key r = k then f r else r) = key r := by
    intro r
    split
    · exact hf r
    · rfl
  unfold get
  rw [rows_modify, List.find?_map]
  simp only [Function.comp_def, hkey]
  cases h : t.rows.find? (fun r => key r = k') with
  | none => simp
  | some r =>
    have hr : key r = k' := by simpa using List.find?_some h
    by_cases hk : k = k'
    · simp [hr, hk]
    · simp [hr, hk, Ne.symm hk]

omit [DecidableEq κ] in
theorem mem_update {t : Table key} {p : α → Bool} {f : α → α} {hf : ∀ r, key (f r) = key r}
    {s : α} : s ∈ (t.update p f hf).rows ↔ (s ∈ t.rows ∧ p s = false) ∨ ∃ r ∈ t.rows, p r = true ∧ s = f r := by
  show s ∈ t.rows.map (fun r => if p r then f r else r) ↔ _
  rw [List.mem_map]
  constructor
  · rintro ⟨r, hr, rfl⟩
    cases hp : p r with
    | false => exact .inl ⟨by simpa [hp] using hr, by simp [hp]⟩
    | true => exact .inr ⟨r, hr, hp, by simp⟩
  · rintro (⟨hs, hp⟩ | ⟨r, hr, hp, rfl⟩)
    · exact ⟨s, hs, by simp [hp]⟩
    · exact ⟨r, hr, by simp [hp]⟩

theorem get_update (t : Table key) (p : α → Bool) (f : α → α) (hf : ∀ r, key (f r) = key r)
    (k : κ) : (t.update p f hf).get k = (t.get k).map (fun r => if p r then f r else r) := by
  have hkey : ∀ r, key (if p r then f r else r) = key r := by
    intro r
    split
    · exact hf r
    · rfl
  unfold get update
  rw [List.find?_map]
  simp only [Function.comp_def, hkey]

theorem get_modify_self {t : Table key} {k : κ} {f : α → α} (hf : ∀ r, key (f r) = key r) {r : α}
    (h : t.get k = some r) : (t.modify k f hf).get k = some (f r) := by
  rw [get_modify, if_pos rfl, h]
  rfl

theorem get_modify_ne {t : Table key} {k k' : κ} {f : α → α} (hf : ∀ r, key (f r) = key r)
    (h : k ≠ k') : (t.modify k f hf).get k' = t.get k' := by
  rw [get_modify, if_neg h]

theorem mem_modify {t : Table key} {k : κ} {f : α → α} {hf : ∀ r, key (f r) = key r} {s : α} :
    s ∈ (t.modify k f hf).rows ↔
      (s ∈ t.rows ∧ key s ≠ k) ∨ ∃ r ∈ t.rows, key r = k ∧ s = f r := by
  rw [rows_modify, List.mem_map]
  constructor
  · rintro ⟨r, hr, rfl⟩
    by_cases hk : key r = k
    · exact .inr ⟨r, hr, hk, by simp [hk]⟩
    · exact .inl ⟨by simpa [hk] using hr, by simp [hk]⟩
  · rintro (⟨hs, hk⟩ | ⟨r, hr, hk, rfl⟩)
    · exact ⟨s, hs, by simp [hk]⟩
    · exact ⟨r, hr, by simp [hk]⟩

end
end Table
