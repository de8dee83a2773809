import EdonPlatform.Lib.Dict
import EdonPlatform.Lib.Fallible

/- Rows read into a dictionary, where no key may come twice. `gather` takes one row: its key is
   read, then refused if it is there already, and only then is its value read. A loop whose
   steps commute returns the same for every order of its items (`foldlM_perm`), so the
   dictionary that is gathered does not depend on the order of the rows (`gather_perm`). -/
namespace Gathering
open Fallible

variable {ε σ ρ κ α : Type}

/-- A loop whose steps commute does not depend on the order of its items. -/
theorem foldlM_perm {f : σ → ρ → Except ε σ}
    (hcomm : ∀ s a b t u, f s a = .ok t → f t b = .ok u → ∃ t', f s b = .ok t' ∧ f t' a = .ok u)
    {l m : List ρ} (hperm : l.Perm m) {s u : σ} (h : l.foldlM f s = .ok u) :
    m.foldlM f s = .ok u := by
  induction hperm generalizing s with
  | nil => exact h
  | cons a _ ih =>
    obtain ⟨t, ha, h⟩ := bind_ok.mp h
    exact bind_ok.mpr ⟨t, ha, ih h⟩
  | swap b a l =>
    obtain ⟨t, ha, h⟩ := bind_ok.mp h
    obtain ⟨t₁, hb, h⟩ := bind_ok.mp h
    obtain ⟨t', hb', ha'⟩ := hcomm s _ _ t t₁ ha hb
    exact bind_ok.mpr ⟨t', hb', bind_ok.mpr ⟨t₁, ha', h⟩⟩
  | trans _ _ ih₁ ih₂ => exact ih₂ (ih₁ h)

/-- What a loop leaves that keeps `I` from the items it still has. -/
theorem foldlM_invariant {f : σ → ρ → Except ε σ} {I : σ → Prop} {l : List ρ}
    (hstep : ∀ s t, ∀ a ∈ l, I s → f s a = .ok t → I t) {s t : σ} (hs : I s)
    (h : l.foldlM f s = .ok t) : I t := by
  induction l generalizing s with
  | nil =>
    cases h
    exact hs
  | cons a l ih =>
    obtain ⟨t₁, ha, h⟩ := bind_ok.mp h
    have hrest : ∀ s t, ∀ b ∈ l, I s → f s b = .ok t → I t :=
      fun s t b hb => hstep s t b (List.mem_cons_of_mem _ hb)
    exact ih hrest (hstep s t₁ a List.mem_cons_self hs ha) h

variable [LinearOrder κ]

def gather (key : ρ → Except ε κ) (duplicate : ε) (value : ρ → κ → Except ε α)
    (d : Dict κ α) (row : ρ) : Except ε (Dict κ α) := do
  let k ← key row
  require (!d.contains k) duplicate
  return d.set k (← value row k)

variable {key : ρ → Except ε κ} {duplicate : ε} {value : ρ → κ → Except ε α}

theorem gather_ok {d d' : Dict κ α} {row : ρ} :
    gather key duplicate value d row = .ok d' ↔
      ∃ k v, key row = .ok k ∧ d.get k = none ∧ value row k = .ok v ∧ d' = d.set k v := by
  unfold gather
  rw [bind_ok]
  constructor
  · rintro ⟨k, hkey, h⟩
    obtain ⟨_, hfree, h⟩ := bind_ok.mp h
    obtain ⟨v, hvalue, h⟩ := bind_ok.mp h
    have hfree : d.get k = none := by
      simpa [Dict.contains] using require_ok.mp hfree
    cases h
    exact ⟨k, v, hkey, hfree, hvalue, rfl⟩
  · rintro ⟨k, v, hkey, hfree, hvalue, rfl⟩
    refine ⟨k, hkey, bind_ok.mpr ⟨(), require_ok.mpr ?_, bind_ok.mpr ⟨v, hvalue, rfl⟩⟩⟩
    simp [Dict.contains, hfree]

/-- **The order of the rows does not matter.** -/
theorem gather_perm {l m : List ρ} (hperm : l.Perm m) {d d' : Dict κ α}
    (h : l.foldlM (gather key duplicate value) d = .ok d') :
    m.foldlM (gather key duplicate value) d = .ok d' := by
  refine foldlM_perm ?_ hperm h
  intro d a b d₁ d₂ ha hb
  obtain ⟨j, v, hj, hfree, hv, rfl⟩ := gather_ok.mp ha
  obtain ⟨k, w, hk, hfree', hw, rfl⟩ := gather_ok.mp hb
  rw [Dict.get_set] at hfree'
  split at hfree'
  · cases hfree'
  · next hne =>
    refine ⟨d.set k w, gather_ok.mpr ⟨k, w, hk, hfree', hw, rfl⟩, ?_⟩
    refine gather_ok.mpr ⟨j, v, hj, ?_, hv, ?_⟩
    · rw [Dict.get_set_ne _ _ (Ne.symm hne), hfree]
    · apply Dict.ext_get
      intro i
      simp only [Dict.get_set]
      by_cases hij : j = i
      · subst hij
        simp [Ne.symm hne]
      · simp [hij]

/-- Every entry that is gathered was read from a row. -/
theorem gather_mem {l : List ρ} {d d' : Dict κ α}
    (h : l.foldlM (gather key duplicate value) d = .ok d') {k : κ} {v : α}
    (hget : d'.get k = some v) :
    d.get k = some v ∨ ∃ row ∈ l, key row = .ok k ∧ value row k = .ok v := by
  revert k v
  refine foldlM_invariant (I := fun d' : Dict κ α => ∀ {k v}, d'.get k = some v →
    d.get k = some v ∨ ∃ row ∈ l, key row = .ok k ∧ value row k = .ok v) ?_ ?_ h
  · intro d₁ d₂ row hrow ih hstep k v hget
    obtain ⟨j, w, hj, _, hw, rfl⟩ := gather_ok.mp hstep
    rw [Dict.get_set] at hget
    split at hget
    · next heq =>
      cases hget
      exact .inr ⟨row, hrow, heq ▸ hj, heq ▸ hw⟩
    · exact ih hget
  · intro k v hget
    exact .inl hget

end Gathering
