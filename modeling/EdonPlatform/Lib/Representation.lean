import EdonPlatform.Lib.Dict

/- A dictionary that stands for a function of structured keys, each key written as a
   text. The writing need not be injective: the dictionary has one place for all keys
   of one text, so it stands for the function as long as no two of them have a value
   (`Represents`). A lookup then gives what the function has, and an assignment is an
   update of the function, at every key that shares its text with no other
   (`Represents.get`, `Represents.set`). -/
namespace Dict

variable {κ τ α : Type} [LinearOrder τ]

/-- What is under a text is what the function has at a key of that text. -/
def Represents (text : κ → τ) (d : Dict τ α) (f : κ → Option α) : Prop :=
  ∀ x v, d.get x = some v ↔ ∃ k, text k = x ∧ f k = some v

/-- None of the other keys has the text of this one. -/
def Unshared (text : κ → τ) (keys : List κ) (k : κ) : Prop :=
  ∀ j ∈ keys, text j = text k → j = k

instance [DecidableEq κ] [DecidableEq τ] (text : κ → τ) (keys : List κ) (k : κ) :
    Decidable (Unshared text keys k) :=
  inferInstanceAs (Decidable (∀ j ∈ keys, text j = text k → j = k))

variable {text : κ → τ} {d : Dict τ α} {f g : κ → Option α} {keys : List κ} {k : κ}

theorem represents_empty (text : κ → τ) : (∅ : Dict τ α).Represents text fun _ => none := by
  intro x v
  constructor
  · exact nofun
  · rintro ⟨k, _, hnone⟩
    cases hnone

theorem Represents.congr (h : d.Represents text f) (hfg : ∀ j, g j = f j) :
    d.Represents text g := by
  have hsame : g = f := funext hfg
  exact hsame ▸ h

theorem Represents.get (h : d.Represents text f) (hkeys : ∀ j v, f j = some v → j ∈ keys)
    (hk : Unshared text keys k) : d.get (text k) = f k := by
  cases hf : f k with
  | some v => exact (h _ _).mpr ⟨k, rfl, hf⟩
  | none =>
    cases hd : d.get (text k) with
    | none => rfl
    | some v =>
      obtain ⟨j, htext, hj⟩ := (h _ _).mp hd
      rw [hk j (hkeys j v hj) htext, hf] at hj
      cases hj

theorem Represents.set [DecidableEq κ] (h : d.Represents text f)
    (hkeys : ∀ j v, f j = some v → j ∈ keys) (hk : Unshared text keys k) {v : α}
    (hg : ∀ j, g j = if k = j then some v else f j) :
    (d.set (text k) v).Represents text g := by
  intro x w
  rw [get_set]
  by_cases hx : text k = x
  · rw [if_pos hx]
    constructor
    · intro hv
      refine ⟨k, hx, ?_⟩
      rw [hg, if_pos rfl]
      exact hv
    · rintro ⟨j, htext, hj⟩
      by_cases hkj : k = j
      · rw [hg, if_pos hkj] at hj
        exact hj
      · rw [hg, if_neg hkj] at hj
        exact absurd (hk j (hkeys j w hj) (htext.trans hx.symm)).symm hkj
  · rw [if_neg hx, h]
    constructor
    · rintro ⟨j, htext, hj⟩
      refine ⟨j, htext, ?_⟩
      rw [hg, if_neg]
      · exact hj
      · rintro rfl
        exact hx htext
    · rintro ⟨j, htext, hj⟩
      refine ⟨j, htext, ?_⟩
      rw [hg, if_neg] at hj
      · exact hj
      · rintro rfl
        exact hx htext

end Dict
