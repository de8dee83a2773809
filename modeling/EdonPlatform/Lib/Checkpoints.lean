import EdonPlatform.Lib.Fallible
import Mathlib.Data.List.Forall2
import Mathlib.Data.List.TakeWhile
import Mathlib.Order.Lattice

/- One pass through a list of timed items with a fallible step, which takes a snapshot of the
   state at every checkpoint: the items up to its time are behind it, those after it are not.

   Where the items stand by their times and the checkpoints by theirs, the snapshot at a checkpoint
   is the fold of exactly the items up to its time (`pass_snapshot`). Two passes through the same
   items go through related states (`pass_related`). -/
namespace Checkpoints
open Fallible

variable {σ ε τ η err : Type} [LinearOrder τ]

/-- The items that were done, each with the state before and after it, and what is left. -/
structure Progress (σ ε : Type) where
  state : σ
  done : List (ε × σ × σ)
  rest : List ε

structure Passage (σ ε η : Type) where
  done : List (ε × σ × σ)
  snapshots : List (η × σ)
  final : σ

section
variable (step : σ → ε → Except err σ) (time : ε → τ) (deadline : η → τ)

/-- The items as long as they are due. -/
def advance (due : ε → Bool) : σ → List ε → Except err (Progress σ ε)
  | s, [] => .ok ⟨s, [], []⟩
  | s, e :: es =>
    if due e then do
      let s' ← step s e
      let p ← advance due s' es
      return { p with done := (e, s, s') :: p.done }
    else .ok ⟨s, [], e :: es⟩

/-- The pass from one checkpoint to the next, and after the last one through what is left. -/
def pass : σ → List ε → List η → Except err (Passage σ ε η)
  | s, es, [] => do
    let p ← advance step (fun _ => true) s es
    return ⟨p.done, [], p.state⟩
  | s, es, h :: hs => do
    let p ← advance step (fun e => time e ≤ deadline h) s es
    let r ← pass p.state p.rest hs
    return ⟨p.done ++ r.done, (h, p.state) :: r.snapshots, r.final⟩

/-- The items are done one after the other. -/
inductive Walk : σ → List ε → List (ε × σ × σ) → σ → Prop
  | nil (s : σ) : Walk s [] [] s
  | cons {s s' u : σ} {e : ε} {es : List ε} {done : List (ε × σ × σ)} :
      step s e = .ok s' → Walk s' es done u → Walk s (e :: es) ((e, s, s') :: done) u

end

variable {step : σ → ε → Except err σ} {time : ε → τ} {deadline : η → τ}

/-! ## Walks -/

theorem Walk.fold {s u : σ} {es : List ε} {done : List (ε × σ × σ)} (h : Walk step s es done u) :
    es.foldlM step s = .ok u := by
  induction h with
  | nil => rfl
  | cons hstep _ ih =>
    rw [List.foldlM_cons, hstep]
    exact ih

theorem Walk.items {s u : σ} {es : List ε} {done : List (ε × σ × σ)} (h : Walk step s es done u) :
    done.map Prod.fst = es := by
  induction h with
  | nil => rfl
  | cons _ _ ih => rw [List.map_cons, ih]

theorem Walk.append {s t u : σ} {es fs : List ε} {done done' : List (ε × σ × σ)}
    (h : Walk step s es done t) (h' : Walk step t fs done' u) :
    Walk step s (es ++ fs) (done ++ done') u := by
  induction h with
  | nil => exact h'
  | cons hstep _ ih => exact .cons hstep (ih h')

/-! ## The pass -/

theorem advance_ok {due : ε → Bool} {s : σ} {es : List ε} {p : Progress σ ε}
    (h : advance step due s es = .ok p) :
    Walk step s (es.takeWhile due) p.done p.state ∧ p.rest = es.dropWhile due := by
  induction es generalizing s p with
  | nil =>
    cases h
    exact ⟨.nil s, rfl⟩
  | cons e es ih =>
    unfold advance at h
    by_cases hdue : due e = true
    · rw [if_pos hdue] at h
      obtain ⟨s', hstep, h⟩ := bind_ok.mp h
      obtain ⟨q, hq, h⟩ := bind_ok.mp h
      cases h
      obtain ⟨hwalk, hrest⟩ := ih hq
      rw [List.takeWhile_cons_of_pos hdue, List.dropWhile_cons_of_pos hdue]
      exact ⟨.cons hstep hwalk, hrest⟩
    · rw [if_neg hdue] at h
      cases h
      rw [List.takeWhile_cons_of_neg hdue, List.dropWhile_cons_of_neg hdue]
      exact ⟨.nil s, rfl⟩

/-- The pass does all the items, and takes a snapshot at every checkpoint. -/
theorem pass_walk {s : σ} {es : List ε} {hs : List η} {r : Passage σ ε η}
    (h : pass step time deadline s es hs = .ok r) :
    Walk step s es r.done r.final ∧ r.snapshots.map Prod.fst = hs := by
  induction hs generalizing s es r with
  | nil =>
    obtain ⟨p, hp, h⟩ := bind_ok.mp h
    cases h
    obtain ⟨hwalk, -⟩ := advance_ok hp
    rw [List.takeWhile_eq_self_iff.mpr fun _ _ => rfl] at hwalk
    exact ⟨hwalk, rfl⟩
  | cons c hs ih =>
    obtain ⟨p, hp, h⟩ := bind_ok.mp h
    obtain ⟨q, hq, h⟩ := bind_ok.mp h
    cases h
    obtain ⟨hwalk, hrest⟩ := advance_ok hp
    obtain ⟨hwalk', hsnapshots⟩ := ih hq
    have happend := hwalk.append hwalk'
    rw [hrest, List.takeWhile_append_dropWhile] at happend
    exact ⟨happend, congrArg _ hsnapshots⟩

/-- In a list by time, the items up to a time are its first ones. -/
theorem takeWhile_eq_filter {es : List ε} (hes : es.Pairwise fun a b => time a ≤ time b) (t : τ) :
    es.takeWhile (fun e => time e ≤ t) = es.filter fun e => time e ≤ t := by
  induction es with
  | nil => rfl
  | cons e es ih =>
    obtain ⟨hhead, htail⟩ := List.pairwise_cons.mp hes
    let due : ε → Bool := fun a => time a ≤ t
    by_cases hdue : due e = true
    · have hhere : (e :: es).takeWhile due = e :: es.takeWhile due :=
        List.takeWhile_cons_of_pos hdue
      exact hhere.trans ((congrArg _ (ih htail)).trans (List.filter_cons_of_pos hdue).symm)
    · have hnone : ∀ a ∈ e :: es, ¬ due a = true := by
        intro a ha hat
        rcases List.mem_cons.mp ha with rfl | ha
        · exact hdue hat
        · exact hdue (decide_eq_true ((hhead a ha).trans (of_decide_eq_true hat)))
      exact (List.takeWhile_cons_of_neg hdue).trans (List.filter_eq_nil_iff.mpr hnone).symm

/-- What is left after a time, and what of it is due at a later one. -/
theorem filter_split (es : List ε) {t u : τ} (htu : t ≤ u) :
    (es.filter fun e => time e ≤ u) = (es.takeWhile fun e => time e ≤ t) ++
      (es.dropWhile fun e => time e ≤ t).filter fun e => time e ≤ u := by
  have hfirst : (es.takeWhile fun e => time e ≤ t).filter (fun e => time e ≤ u) =
      es.takeWhile fun e => time e ≤ t := by
    refine List.filter_eq_self.mpr fun e he => decide_eq_true ?_
    have hdue : decide (time e ≤ t) = true := (List.mem_takeWhile_imp he :)
    exact (of_decide_eq_true hdue).trans htu
  calc es.filter (fun e => time e ≤ u)
      = ((es.takeWhile fun e => time e ≤ t) ++ es.dropWhile fun e => time e ≤ t).filter
          fun e => time e ≤ u := by rw [List.takeWhile_append_dropWhile]
    _ = _ := by rw [List.filter_append, hfirst]

theorem pass_snapshot {s : σ} {es : List ε} {hs : List η} {r : Passage σ ε η}
    (h : pass step time deadline s es hs = .ok r) (hes : es.Pairwise fun a b => time a ≤ time b)
    (hhs : hs.Pairwise fun a b => deadline a ≤ deadline b) :
    ∀ c ∈ r.snapshots, (es.filter fun e => time e ≤ deadline c.1).foldlM step s = .ok c.2 := by
  induction hs generalizing s es r with
  | nil =>
    obtain ⟨p, hp, h⟩ := bind_ok.mp h
    cases h
    intro c hc
    cases hc
  | cons first hs ih =>
    obtain ⟨p, hp, h⟩ := bind_ok.mp h
    obtain ⟨q, hq, h⟩ := bind_ok.mp h
    cases h
    obtain ⟨hwalk, hrest⟩ := advance_ok hp
    obtain ⟨hhead, htail⟩ := List.pairwise_cons.mp hhs
    intro c hc
    rcases List.mem_cons.mp hc with rfl | hc
    · rw [← takeWhile_eq_filter hes]
      exact hwalk.fold
    · have hlater : deadline first ≤ deadline c.1 := by
        refine hhead c.1 ?_
        rw [← (pass_walk hq).2]
        exact List.mem_map_of_mem hc
      have hes' : p.rest.Pairwise fun a b => time a ≤ time b := by
        rw [hrest]
        exact hes.sublist (List.dropWhile_sublist _)
      rw [filter_split es hlater, List.foldlM_append, hwalk.fold, ← hrest]
      exact ih hq hes' htail c hc

/-- Checkpoints under other names. -/
theorem pass_map {g : η → η} (hg : ∀ c, deadline (g c) = deadline c) (s : σ) (es : List ε)
    (hs : List η) : pass step time deadline s es (hs.map g) =
      (pass step time deadline s es hs).map fun r =>
        { r with snapshots := r.snapshots.map fun c => (g c.1, c.2) } := by
  induction hs generalizing s es with
  | nil =>
    rw [List.map_nil, pass]
    cases advance step (fun _ => true) s es <;> rfl
  | cons c hs ih =>
    rw [List.map_cons, pass, pass, hg]
    cases advance step (fun e => time e ≤ deadline c) s es with
    | error e => rfl
    | ok p =>
      show (do
        let r ← pass step time deadline p.state p.rest (hs.map g)
        return (⟨p.done ++ r.done, (g c, p.state) :: r.snapshots, r.final⟩ : Passage σ ε η)) =
        Except.map _ (do
          let r ← pass step time deadline p.state p.rest hs
          return (⟨p.done ++ r.done, (c, p.state) :: r.snapshots, r.final⟩ : Passage σ ε η))
      rw [ih]
      cases pass step time deadline p.state p.rest hs <;> rfl

/-! ## Two passes -/

section
variable {R : σ → σ → Prop}

/-- An item done in both passes. -/
def Both (R : σ → σ → Prop) (a b : ε × σ × σ) : Prop := a.1 = b.1 ∧ R a.2.1 b.2.1 ∧ R a.2.2 b.2.2

theorem advance_related (hstep : ∀ s t e s' t', R s t → step s e = .ok s' → step t e = .ok t' → R s' t')
    {due : ε → Bool} {s t : σ} {es : List ε} {p q : Progress σ ε} (hst : R s t)
    (hp : advance step due s es = .ok p) (hq : advance step due t es = .ok q) :
    List.Forall₂ (Both R) p.done q.done ∧ R p.state q.state ∧ p.rest = q.rest := by
  induction es generalizing s t p q with
  | nil =>
    cases hp
    cases hq
    exact ⟨.nil, hst, rfl⟩
  | cons e es ih =>
    unfold advance at hp hq
    by_cases hdue : due e = true
    · rw [if_pos hdue] at hp hq
      obtain ⟨s', hs', hp⟩ := bind_ok.mp hp
      obtain ⟨p', hp', hp⟩ := bind_ok.mp hp
      obtain ⟨t', ht', hq⟩ := bind_ok.mp hq
      obtain ⟨q', hq', hq⟩ := bind_ok.mp hq
      cases hp
      cases hq
      have hnext := hstep s t e s' t' hst hs' ht'
      obtain ⟨hdone, hstate, hrest⟩ := ih hnext hp' hq'
      exact ⟨.cons ⟨rfl, hst, hnext⟩ hdone, hstate, hrest⟩
    · rw [if_neg hdue] at hp hq
      cases hp
      cases hq
      exact ⟨.nil, hst, rfl⟩

theorem pass_related (hstep : ∀ s t e s' t', R s t → step s e = .ok s' → step t e = .ok t' → R s' t')
    {s t : σ} {es : List ε} {hs : List η} {p q : Passage σ ε η} (hst : R s t)
    (hp : pass step time deadline s es hs = .ok p) (hq : pass step time deadline t es hs = .ok q) :
    List.Forall₂ (Both R) p.done q.done ∧
      List.Forall₂ (fun a b => a.1 = b.1 ∧ R a.2 b.2) p.snapshots q.snapshots ∧
      R p.final q.final := by
  induction hs generalizing s t es p q with
  | nil =>
    obtain ⟨p', hp', hp⟩ := bind_ok.mp hp
    obtain ⟨q', hq', hq⟩ := bind_ok.mp hq
    cases hp
    cases hq
    obtain ⟨hdone, hstate, -⟩ := advance_related hstep hst hp' hq'
    exact ⟨hdone, .nil, hstate⟩
  | cons c hs ih =>
    obtain ⟨p', hp', hp⟩ := bind_ok.mp hp
    obtain ⟨p'', hp'', hp⟩ := bind_ok.mp hp
    obtain ⟨q', hq', hq⟩ := bind_ok.mp hq
    obtain ⟨q'', hq'', hq⟩ := bind_ok.mp hq
    cases hp
    cases hq
    obtain ⟨hdone, hstate, hrest⟩ := advance_related hstep hst hp' hq'
    rw [← hrest] at hq''
    obtain ⟨hdone', hsnapshots, hfinal⟩ := ih hstate hp'' hq''
    exact ⟨List.rel_append hdone hdone', .cons ⟨rfl, hstate⟩ hsnapshots, hfinal⟩

end
end Checkpoints
