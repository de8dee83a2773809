import Mathlib.Data.List.Basic

/- Runs of a labelled transition system. `Run step s es t` says that the steps
   labelled `es`, in that order, lead from `s` to `t`; a run quantifies over every
   interleaving, since the labels may name the party that moves. `guard C step` is
   the system restricted to the steps that meet `C` in the state they start from,
   so a run of it is a run all of whose steps meet `C`. For a total function of
   state and call, `exec f s cs` is the state after the calls `cs`, and `Along f P s cs`
   says that `P` holds of each of its steps.

   The rules are the usual ones: an invariant is proved for one step and holds
   after every run (`Run.invariant`, `exec_invariant`), and a relation that is
   reflexive, transitive and holds across one step holds across a run
   (`Run.preserves`). -/
namespace Transition

variable {σ ε : Type}

inductive Run (step : σ → ε → σ → Prop) : σ → List ε → σ → Prop where
  | nil (s : σ) : Run step s [] s
  | cons {s t u : σ} {e : ε} {es : List ε} :
      step s e t → Run step t es u → Run step s (e :: es) u

/-- The steps of `step` that meet `C` in the state they start from. -/
def guard (C : σ → ε → Prop) (step : σ → ε → σ → Prop) : σ → ε → σ → Prop :=
  fun s e t => C s e ∧ step s e t

namespace Run
variable {step : σ → ε → σ → Prop}

theorem append {s t u : σ} {es fs : List ε} (h₁ : Run step s es t) (h₂ : Run step t fs u) :
    Run step s (es ++ fs) u := by
  induction h₁ with
  | nil s => exact h₂
  | cons hs _ ih => exact .cons hs (ih h₂)

theorem single {s t : σ} {e : ε} (h : step s e t) : Run step s [e] t :=
  .cons h (.nil t)

/-- A run over a concatenation passes through a state between the two parts. -/
theorem split {s u : σ} {es fs : List ε} (h : Run step s (es ++ fs) u) :
    ∃ t, Run step s es t ∧ Run step t fs u := by
  induction es generalizing s with
  | nil => exact ⟨s, .nil s, h⟩
  | cons e es ih =>
    cases h with
    | cons hs hr =>
      obtain ⟨t, h₁, h₂⟩ := ih hr
      exact ⟨t, .cons hs h₁, h₂⟩

theorem invariant {I : σ → Prop} (hstep : ∀ s e t, I s → step s e t → I t)
    {s t : σ} {es : List ε} (hr : Run step s es t) (hs : I s) : I t := by
  induction hr with
  | nil s => exact hs
  | cons h _ ih => exact ih (hstep _ _ _ hs h)

/-- A reflexive, transitive relation that one step respects wherever `I` holds
relates the two ends of a run. -/
theorem preserves {I : σ → Prop} {R : σ → σ → Prop} (hrefl : ∀ s, R s s)
    (htrans : ∀ s t u, R s t → R t u → R s u) (hI : ∀ s e t, I s → step s e t → I t)
    (hstep : ∀ s e t, I s → step s e t → R s t)
    {s t : σ} {es : List ε} (hr : Run step s es t) (hs : I s) : R s t := by
  induction hr with
  | nil s => exact hrefl s
  | cons h _ ih => exact htrans _ _ _ (hstep _ _ _ hs h) (ih (hI _ _ _ hs h))

theorem mono {step' : σ → ε → σ → Prop} (h : ∀ s e t, step s e t → step' s e t)
    {s t : σ} {es : List ε} (hr : Run step s es t) : Run step' s es t := by
  induction hr with
  | nil s => exact .nil s
  | cons hs _ ih => exact .cons (h _ _ _ hs) ih

theorem of_guard {C : σ → ε → Prop} {s t : σ} {es : List ε}
    (hr : Run (guard C step) s es t) : Run step s es t :=
  hr.mono (fun _ _ _ h => h.2)

end Run

/-- The state after the calls `cs`. -/
def exec (f : σ → ε → σ) (s : σ) (cs : List ε) : σ := cs.foldl f s

@[simp] theorem exec_nil (f : σ → ε → σ) (s : σ) : exec f s [] = s := rfl

@[simp] theorem exec_cons (f : σ → ε → σ) (s : σ) (c : ε) (cs : List ε) :
    exec f s (c :: cs) = exec f (f s c) cs := rfl

theorem exec_append (f : σ → ε → σ) (s : σ) (cs ds : List ε) :
    exec f s (cs ++ ds) = exec f (exec f s cs) ds := List.foldl_append

theorem exec_invariant {f : σ → ε → σ} {I : σ → Prop} (hstep : ∀ s c, I s → I (f s c))
    {s : σ} (hs : I s) (cs : List ε) : I (exec f s cs) := by
  induction cs generalizing s with
  | nil => exact hs
  | cons c cs ih => exact ih (hstep s c hs)

/-- `P` holds of every step of the calls `cs` from `s`. -/
def Along (f : σ → ε → σ) (P : σ → ε → σ → Prop) : σ → List ε → Prop
  | _, [] => True
  | s, c :: cs => P s c (f s c) ∧ Along f P (f s c) cs

instance Along.decidable {f : σ → ε → σ} {P : σ → ε → σ → Prop} [∀ s c t, Decidable (P s c t)] :
    (s : σ) → (cs : List ε) → Decidable (Along f P s cs)
  | _, [] => inferInstanceAs (Decidable True)
  | s, c :: cs =>
    have : Decidable (Along f P (f s c) cs) := Along.decidable (f s c) cs
    inferInstanceAs (Decidable (P s c (f s c) ∧ Along f P (f s c) cs))

theorem along_congr {f : σ → ε → σ} {P Q : σ → ε → σ → Prop}
    (h : ∀ s c, P s c (f s c) ↔ Q s c (f s c)) (s : σ) (cs : List ε) :
    Along f P s cs ↔ Along f Q s cs := by
  induction cs generalizing s with
  | nil => exact Iff.rfl
  | cons c cs ih => exact and_congr (h s c) (ih (f s c))

theorem along_append (f : σ → ε → σ) (P : σ → ε → σ → Prop) (s : σ) (cs ds : List ε) :
    Along f P s (cs ++ ds) ↔ Along f P s cs ∧ Along f P (exec f s cs) ds := by
  induction cs generalizing s with
  | nil => exact (and_iff_right trivial).symm
  | cons c cs ih =>
    show P s c (f s c) ∧ Along f P (f s c) (cs ++ ds) ↔ _
    rw [ih, ← and_assoc]
    rfl

/-- A reflexive, transitive relation that every step respects relates the two ends. -/
theorem Along.relates {f : σ → ε → σ} {R : σ → σ → Prop} (hrefl : ∀ s, R s s)
    (htrans : ∀ s t u, R s t → R t u → R s u) {s : σ} {cs : List ε}
    (h : Along f (fun s _ t => R s t) s cs) : R s (exec f s cs) := by
  induction cs generalizing s with
  | nil => exact hrefl s
  | cons c cs ih => exact htrans _ _ _ h.1 (ih h.2)

/-- An invariant carried along a run turns what each step meets into what it guarantees. -/
theorem Along.of_invariant {f : σ → ε → σ} {I : σ → Prop} {P Q : σ → ε → σ → Prop}
    (h : ∀ s c, I s → P s c (f s c) → Q s c (f s c) ∧ I (f s c)) {s : σ} {cs : List ε}
    (hs : I s) (hp : Along f P s cs) : Along f Q s cs := by
  induction cs generalizing s with
  | nil => trivial
  | cons c cs ih =>
    obtain ⟨hq, hi⟩ := h s c hs hp.1
    exact ⟨hq, ih hi hp.2⟩

/-- What an invariant guarantees of every step. -/
theorem along_of_invariant {f : σ → ε → σ} {I : σ → Prop} {Q : σ → ε → σ → Prop}
    (h : ∀ s c, I s → Q s c (f s c) ∧ I (f s c)) {s : σ} (hs : I s) (cs : List ε) :
    Along f Q s cs := by
  induction cs generalizing s with
  | nil => trivial
  | cons c cs ih =>
    obtain ⟨hq, hi⟩ := h s c hs
    exact ⟨hq, ih hi⟩

/-- An invariant that the steps of a run keep holds at its end. -/
theorem Along.invariant {f : σ → ε → σ} {I : σ → Prop} {P : σ → ε → σ → Prop}
    (h : ∀ s c, I s → P s c (f s c) → I (f s c)) {s : σ} {cs : List ε} (hs : I s)
    (hp : Along f P s cs) : I (exec f s cs) := by
  induction cs generalizing s with
  | nil => exact hs
  | cons c cs ih => exact ih (h s c hs hp.1) hp.2

theorem Along.mono {f : σ → ε → σ} {P Q : σ → ε → σ → Prop}
    (h : ∀ s c, P s c (f s c) → Q s c (f s c)) {s : σ} {cs : List ε} (hs : Along f P s cs) :
    Along f Q s cs := by
  induction cs generalizing s with
  | nil => trivial
  | cons c cs ih => exact ⟨h s c hs.1, ih hs.2⟩

/-- Where `J` is kept, and a step makes `I` hold exactly when it held before and the step meets
`P`, it holds after the run exactly when it held before it and every step meets `P`. -/
theorem exec_iff_along_of_invariant {f : σ → ε → σ} {I J : σ → Prop} {P : σ → ε → σ → Prop}
    (hJ : ∀ s c, J s → J (f s c)) (h : ∀ s c, J s → (I (f s c) ↔ I s ∧ P s c (f s c))) {s : σ}
    (hs : J s) (cs : List ε) : I (exec f s cs) ↔ I s ∧ Along f P s cs := by
  induction cs generalizing s with
  | nil => exact (and_iff_left trivial).symm
  | cons c cs ih =>
    calc I (exec f (f s c) cs)
      _ ↔ I (f s c) ∧ Along f P (f s c) cs := ih (hJ s c hs)
      _ ↔ (I s ∧ P s c (f s c)) ∧ Along f P (f s c) cs := and_congr_left' (h s c hs)
      _ ↔ I s ∧ Along f P s (c :: cs) := and_assoc

theorem exec_iff_along {f : σ → ε → σ} {I : σ → Prop} {P : σ → ε → σ → Prop}
    (h : ∀ s c, I (f s c) ↔ I s ∧ P s c (f s c)) (s : σ) (cs : List ε) :
    I (exec f s cs) ↔ I s ∧ Along f P s cs :=
  exec_iff_along_of_invariant (J := fun _ => True) (fun _ _ _ => trivial) (fun s c _ => h s c)
    trivial cs

/-- Where a step from a state with `I` keeps it exactly when it meets `P`, a run from such a
state has `I` at every point exactly when all of its steps meet `P`. -/
theorem along_keeps_iff {f : σ → ε → σ} {I : σ → Prop} {P : σ → ε → Prop}
    (h : ∀ s c, I s → (I (f s c) ↔ P s c)) {s : σ} (hs : I s) (cs : List ε) :
    Along f (fun _ _ t => I t) s cs ↔ Along f (fun s c _ => P s c) s cs := by
  induction cs generalizing s with
  | nil => exact Iff.rfl
  | cons c cs ih =>
    constructor
    · intro hrun
      exact ⟨(h s c hs).mp hrun.1, (ih hrun.1).mp hrun.2⟩
    · intro hrun
      have hnext : I (f s c) := (h s c hs).mpr hrun.1
      exact ⟨hnext, (ih hnext).mpr hrun.2⟩

/-- What a run shows is at every point what it showed at first, exactly when no step changes
what it shows. -/
theorem along_constant_iff {α : Type} {f : σ → ε → σ} {g : σ → α} {a : α} {s : σ} (hs : g s = a)
    (cs : List ε) :
    Along f (fun _ _ t => g t = a) s cs ↔ Along f (fun s _ t => g t = g s) s cs := by
  induction cs generalizing s with
  | nil => exact Iff.rfl
  | cons c cs ih =>
    constructor
    · rintro ⟨h, hrest⟩
      exact ⟨h.trans hs.symm, (ih h).mp hrest⟩
    · rintro ⟨h, hrest⟩
      have hsame : g (f s c) = a := h.trans hs
      exact ⟨hsame, (ih hsame).mpr hrest⟩

end Transition
