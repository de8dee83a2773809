import Mathlib
import Mathlib.Algebra.Order.BigOperators.Group.List
import Mathlib.Logic.Relation

/- Search of a graph with a stack and a set of the nodes that were seen. The stack is the work:
   a node that is taken from it is dropped where it was seen, and else replaced by its
   successors, so over the nodes that have successors the work goes down with every step
   (`work_expand`) and fuel for it is enough. `reaches` finds the goal exactly when a path leads
   to it (`reaches_iff`). -/
namespace Search
open Relation

variable {ν : Type} [DecidableEq ν]

/-- `true` where the goal is found before the stack is empty. -/
def search (next : ν → List ν) (goal : ν) : Nat → List ν → List ν → Bool
  | 0, _, _ => false
  | _ + 1, [], _ => false
  | fuel + 1, current :: pending, seen =>
    if current = goal then true
    else if current ∈ seen then search next goal fuel pending seen
    else search next goal fuel (next current ++ pending) (current :: seen)

variable (next : ν → List ν)

def Step (a b : ν) : Prop := b ∈ next a

/-- The stack, and the successors that can still be put on it. -/
def work (nodes pending seen : List ν) : Nat :=
  pending.length + ((nodes.filter fun a => a ∉ seen).map fun a => (next a).length).sum

/-- The goal can be reached, where `nodes` are those with successors. -/
def reaches (nodes : List ν) (source goal : ν) : Bool :=
  search next goal (work next nodes [source] [] + 1) [source] []

variable {next} {goal : ν}

theorem search_sound {fuel : Nat} {pending seen : List ν}
    (h : search next goal fuel pending seen = true) :
    ∃ a ∈ pending, ReflTransGen (Step next) a goal := by
  induction fuel generalizing pending seen with
  | zero => cases h
  | succ fuel ih =>
    cases pending with
    | nil => cases h
    | cons current pending =>
      rw [search] at h
      split at h
      · next hgoal => exact ⟨current, List.mem_cons_self, hgoal ▸ .refl⟩
      · split at h
        · obtain ⟨a, ha, hpath⟩ := ih h
          exact ⟨a, List.mem_cons_of_mem _ ha, hpath⟩
        · obtain ⟨a, ha, hpath⟩ := ih h
          rcases List.mem_append.mp ha with ha | ha
          · exact ⟨current, List.mem_cons_self, .head ha hpath⟩
          · exact ⟨a, List.mem_cons_of_mem _ ha, hpath⟩

/-- Taking a node that was not seen, and putting its successors on the stack, leaves less work. -/
theorem work_expand {nodes seen : List ν} {current : ν} (pending : List ν)
    (hnodes : next current ≠ [] → current ∈ nodes) (hnew : current ∉ seen) :
    work next nodes (next current ++ pending) (current :: seen) <
      work next nodes (current :: pending) seen := by
  have hle : ∀ nodes : List ν, (current ∈ nodes → (next current).length +
      ((nodes.filter fun a => a ∉ current :: seen).map fun a => (next a).length).sum ≤
        ((nodes.filter fun a => a ∉ seen).map fun a => (next a).length).sum) ∧
      ((nodes.filter fun a => a ∉ current :: seen).map fun a => (next a).length).sum ≤
        ((nodes.filter fun a => a ∉ seen).map fun a => (next a).length).sum := by
    intro nodes
    induction nodes with
    | nil => simp
    | cons a nodes ih =>
      obtain ⟨hmem, hrest⟩ := ih
      by_cases ha : a = current
      · subst ha
        simp only [List.filter_cons, List.mem_cons, true_or, not_true_eq_false, decide_false, hnew,
          not_false_eq_true, decide_true, if_true, List.map_cons, List.sum_cons,
          Bool.false_eq_true, if_false, forall_const]
        simp only [List.mem_cons] at hrest
        constructor <;> omega
      · have hne : current ≠ a := Ne.symm ha
        by_cases hseen : a ∈ seen
        · simpa [List.filter_cons, ha, hne, hseen] using And.intro hmem hrest
        · simp only [List.mem_cons] at hmem hrest
          simp only [List.filter_cons, List.mem_cons, ha, hne, hseen, false_or,
            not_false_eq_true, decide_true, if_true, List.map_cons, List.sum_cons]
          constructor
          · intro h
            have := hmem h
            omega
          · omega
  unfold work
  rw [List.length_append, List.length_cons]
  by_cases hnil : next current = []
  · have hrest := (hle nodes).2
    rw [hnil, List.length_nil]
    omega
  · have hmem := (hle nodes).1 (hnodes hnil)
    omega

/-- Where the search ends without the goal, what it saw is closed and does not have it. -/
theorem search_closed {nodes : List ν} (hnodes : ∀ a, next a ≠ [] → a ∈ nodes) {fuel : Nat}
    {pending seen : List ν} (hfuel : work next nodes pending seen < fuel)
    (hseen : ∀ a ∈ seen, a ≠ goal ∧ ∀ b ∈ next a, b ∈ pending ∨ b ∈ seen)
    (h : search next goal fuel pending seen = false) :
    ∃ C : ν → Prop, (∀ a, a ∈ pending ∨ a ∈ seen → C a) ∧ ¬ C goal ∧
      ∀ a b, C a → Step next a b → C b := by
  induction fuel generalizing pending seen with
  | zero => exact absurd hfuel (Nat.not_lt_zero _)
  | succ fuel ih =>
    cases pending with
    | nil =>
      refine ⟨fun a => a ∈ seen, ?_, ?_, ?_⟩
      · exact fun a ha => ha.resolve_left List.not_mem_nil
      · exact fun hgoal => (hseen goal hgoal).1 rfl
      · intro a b ha hb
        exact ((hseen a ha).2 b hb).resolve_left List.not_mem_nil
    | cons current pending =>
      rw [search] at h
      split at h
      · cases h
      · next hgoal =>
        split at h
        · next hold =>
          have hless : work next nodes pending seen < fuel := by
            unfold work at hfuel ⊢
            rw [List.length_cons] at hfuel
            omega
          have hkeep : ∀ a ∈ seen, a ≠ goal ∧ ∀ b ∈ next a, b ∈ pending ∨ b ∈ seen := by
            intro a ha
            refine ⟨(hseen a ha).1, ?_⟩
            intro b hb
            rcases (hseen a ha).2 b hb with hb | hb
            · rcases List.mem_cons.mp hb with rfl | hb
              · exact .inr hold
              · exact .inl hb
            · exact .inr hb
          obtain ⟨C, hC, hrest⟩ := ih hless hkeep h
          refine ⟨C, ?_, hrest⟩
          rintro a (ha | ha)
          · rcases List.mem_cons.mp ha with rfl | ha
            · exact hC _ (.inr hold)
            · exact hC a (.inl ha)
          · exact hC a (.inr ha)
        · next hnew =>
          have hless := Nat.lt_of_lt_of_le (work_expand pending (hnodes current) hnew)
            (Nat.le_of_lt_succ hfuel)
          have hkeep : ∀ a ∈ current :: seen, a ≠ goal ∧
              ∀ b ∈ next a, b ∈ next current ++ pending ∨ b ∈ current :: seen := by
            intro a ha
            rcases List.mem_cons.mp ha with rfl | ha
            · exact ⟨hgoal, fun b hb => .inl (List.mem_append_left _ hb)⟩
            · refine ⟨(hseen a ha).1, ?_⟩
              intro b hb
              rcases (hseen a ha).2 b hb with hb | hb
              · rcases List.mem_cons.mp hb with rfl | hb
                · exact .inr List.mem_cons_self
                · exact .inl (List.mem_append_right _ hb)
              · exact .inr (List.mem_cons_of_mem _ hb)
          obtain ⟨C, hC, hrest⟩ := ih hless hkeep h
          refine ⟨C, ?_, hrest⟩
          rintro a (ha | ha)
          · rcases List.mem_cons.mp ha with rfl | ha
            · exact hC _ (.inr List.mem_cons_self)
            · exact hC a (.inl (List.mem_append_right _ ha))
          · exact hC a (.inr (List.mem_cons_of_mem _ ha))

/-- **The search is complete.** -/
theorem reaches_iff {nodes : List ν} (hnodes : ∀ a, next a ≠ [] → a ∈ nodes) {source : ν} :
    reaches next nodes source goal = true ↔ ReflTransGen (Step next) source goal := by
  constructor
  · intro h
    obtain ⟨a, ha, hpath⟩ := search_sound h
    rwa [List.mem_singleton.mp ha] at hpath
  · intro hpath
    by_contra hnot
    obtain ⟨C, hC, hgoal, hclosed⟩ := search_closed hnodes (Nat.lt_succ_self _)
      (fun a ha => absurd ha List.not_mem_nil)
      (Bool.eq_false_iff.mpr hnot)
    have hall : ∀ b, ReflTransGen (Step next) source b → C b := by
      intro b hb
      induction hb with
      | refl => exact hC _ (.inl (List.mem_singleton_self _))
      | tail _ hstep ih => exact hclosed _ _ ih hstep
    exact hgoal (hall _ hpath)

end Search
