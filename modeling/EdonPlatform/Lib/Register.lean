import Mathlib.Data.Set.Function
import Mathlib.Data.List.Nodup
import Mathlib.Data.List.Perm.Subperm

/- A register of what holders have, kept under names. What the holders have is a partial
   function `H`, the register is a partial function `D` on names, and `key` gives a
   holder its name; two holders may have the same one.

   `Mirrors key H D` says that the names in the register are in bijection with the
   holders that have something, and that it has what they have. Entering a holder keeps
   it exactly when no other holder goes by its name (`Mirrors.insert_iff`), and taking a
   holder out always does (`Mirrors.erase`). -/
namespace Register

variable {η κ β : Type} {key : η → κ} {H H' : η → Option β} {D D' : κ → Option β}

/-- Those that have something. -/
def entered (H : η → Option β) : Set η := {x | (H x).isSome = true}

structure Mirrors (key : η → κ) (H : η → Option β) (D : κ → Option β) : Prop where
  bijection : Set.BijOn key (entered H) (entered D)
  values : ∀ x v, H x = some v → D (key x) = some v

theorem mem_entered {x : η} {v : β} (h : H x = some v) : x ∈ entered H := by
  show (H x).isSome = true
  rw [h]
  rfl

theorem exists_of_mem_entered {x : η} (h : x ∈ entered H) : ∃ v, H x = some v :=
  Option.isSome_iff_exists.mp h

/-- An entry is that of a holder, and no other holder goes by its name. -/
theorem mirrors_iff : Mirrors key H D ↔
    (∀ k v, D k = some v ↔ ∃ x, key x = k ∧ H x = some v) ∧
      ∀ x y v w, H x = some v → H y = some w → key x = key y → x = y := by
  constructor
  · rintro ⟨⟨_, hinj, hsurj⟩, hvalues⟩
    refine ⟨?_, ?_⟩
    · intro k v
      constructor
      · intro hk
        obtain ⟨x, hx, rfl⟩ := hsurj (mem_entered hk)
        obtain ⟨w, hw⟩ := exists_of_mem_entered hx
        rw [hvalues x w hw] at hk
        cases hk
        exact ⟨x, rfl, hw⟩
      · rintro ⟨x, rfl, hx⟩
        exact hvalues x v hx
    · intro x y v w hx hy heq
      exact hinj (mem_entered hx) (mem_entered hy) heq
  · rintro ⟨hentry, hinj⟩
    refine ⟨⟨?_, ?_, ?_⟩, ?_⟩
    · intro x hx
      obtain ⟨v, hv⟩ := exists_of_mem_entered hx
      exact mem_entered ((hentry _ v).mpr ⟨x, rfl, hv⟩)
    · intro x hx y hy heq
      obtain ⟨v, hv⟩ := exists_of_mem_entered hx
      obtain ⟨w, hw⟩ := exists_of_mem_entered hy
      exact hinj x y v w hv hw heq
    · intro k hk
      obtain ⟨v, hv⟩ := exists_of_mem_entered hk
      obtain ⟨x, hkey, hx⟩ := (hentry k v).mp hv
      exact ⟨x, mem_entered hx, hkey⟩
    · intro x v hx
      exact (hentry _ v).mpr ⟨x, rfl, hx⟩

theorem mirrors_none (hH : ∀ x, H x = none) (hD : ∀ k, D k = none) : Mirrors key H D := by
  rw [mirrors_iff]
  refine ⟨?_, ?_⟩
  · intro k v
    simp [hH, hD]
  · intro x y v w hx
    rw [hH] at hx
    cases hx

theorem Mirrors.congr (h : Mirrors key H D) (hH : ∀ x, H' x = H x) (hD : ∀ k, D' k = D k) :
    Mirrors key H' D' := by
  rw [funext hH, funext hD]
  exact h

/-- A holder of a name has what the register has under it. -/
theorem Mirrors.get (h : Mirrors key H D) {k : κ} {v : β} (hk : D k = some v) :
    ∃ x, key x = k ∧ H x = some v :=
  ((mirrors_iff.mp h).1 k v).mp hk

section
variable [DecidableEq η] [DecidableEq κ]

/-- **A holder is entered under its name.** -/
theorem Mirrors.insert_iff (h : Mirrors key H D) {x : η} {v : β} (hnew : H x = none)
    (hH : ∀ y, H' y = if y = x then some v else H y)
    (hD : ∀ k, D' k = if k = key x then some v else D k) :
    Mirrors key H' D' ↔ ∀ y w, H y = some w → key y ≠ key x := by
  have hself : H' x = some v := by rw [hH, if_pos rfl]
  have hother : ∀ y w, H y = some w → y ≠ x := by
    rintro y w hy rfl
    rw [hnew] at hy
    cases hy
  constructor
  · intro h' y w hy heq
    have hy' : H' y = some w := by rw [hH, if_neg (hother y w hy), hy]
    exact hother y w hy ((mirrors_iff.mp h').2 y x w v hy' hself heq)
  · intro hfree
    obtain ⟨hentry, hinj⟩ := mirrors_iff.mp h
    rw [mirrors_iff]
    refine ⟨?_, ?_⟩
    · intro k w
      rw [hD]
      split
      · next heq =>
        subst heq
        constructor
        · intro hw
          exact ⟨x, rfl, hself.trans hw⟩
        · rintro ⟨y, hkey, hy⟩
          rw [hH] at hy
          split at hy
          · exact hy
          · exact absurd hkey (hfree y w hy)
      · next hne =>
        rw [hentry]
        constructor
        · rintro ⟨y, hkey, hy⟩
          exact ⟨y, hkey, by rw [hH, if_neg (hother y w hy), hy]⟩
        · rintro ⟨y, hkey, hy⟩
          rw [hH] at hy
          split at hy
          · next heq => exact absurd (heq ▸ hkey).symm hne
          · exact ⟨y, hkey, hy⟩
    · intro y z w u hy hz heq
      rw [hH] at hy hz
      split at hy
      · next hyx =>
        split at hz
        · next hzx => rw [hyx, hzx]
        · exact absurd (hyx ▸ heq).symm (hfree z u hz)
      · split at hz
        · next hzx => exact absurd (hzx ▸ heq) (hfree y w hy)
        · exact hinj y z w u hy hz heq

/-- **A holder is taken out with its name.** -/
theorem Mirrors.erase (h : Mirrors key H D) {x : η} {v : β} (hheld : H x = some v)
    (hH : ∀ y, H' y = if y = x then none else H y)
    (hD : ∀ k, D' k = if k = key x then none else D k) : Mirrors key H' D' := by
  obtain ⟨hentry, hinj⟩ := mirrors_iff.mp h
  have hkeep : ∀ y w, H' y = some w ↔ y ≠ x ∧ H y = some w := by
    intro y w
    rw [hH]
    split
    · next heq => simp [heq]
    · next hne => simp [hne]
  rw [mirrors_iff]
  refine ⟨?_, ?_⟩
  · intro k w
    rw [hD]
    split
    · next heq =>
      constructor
      · intro hw
        cases hw
      · rintro ⟨y, hkey, hy⟩
        obtain ⟨hne, hy⟩ := (hkeep y w).mp hy
        exact absurd (hinj y x w v hy hheld (hkey.trans heq)) hne
    · next hne =>
      rw [hentry]
      constructor
      · rintro ⟨y, hkey, hy⟩
        refine ⟨y, hkey, (hkeep y w).mpr ⟨?_, hy⟩⟩
        rintro rfl
        exact hne hkey.symm
      · rintro ⟨y, hkey, hy⟩
        exact ⟨y, hkey, ((hkeep y w).mp hy).2⟩
  · intro y z w u hy hz heq
    exact hinj y z w u ((hkeep y w).mp hy).2 ((hkeep z u).mp hz).2 heq

end

/-- There are no more holders than names. -/
theorem Mirrors.length_le (h : Mirrors key H D) {holders : List η} (hnodup : holders.Nodup)
    (hholders : ∀ x ∈ holders, x ∈ entered H) {names : List κ}
    (hnames : ∀ k ∈ entered D, k ∈ names) : holders.length ≤ names.length := by
  have hmap : (holders.map key).Nodup := by
    apply List.Nodup.map_on _ hnodup
    intro x hx y hy heq
    exact h.bijection.injOn (hholders x hx) (hholders y hy) heq
  have hsubset : ∀ k ∈ holders.map key, k ∈ names := by
    intro k hk
    obtain ⟨x, hx, rfl⟩ := List.mem_map.mp hk
    exact hnames _ (h.bijection.mapsTo (hholders x hx))
  have hle := (List.subperm_of_subset hmap hsubset).length_le
  rwa [List.length_map] at hle

end Register
