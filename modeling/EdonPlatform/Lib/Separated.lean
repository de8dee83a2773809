import Mathlib.Algebra.GroupWithZero.Nat
import Mathlib.Data.List.Basic

/- Texts put together with a separator and closed by a last character.
   `length_intercalate` is their length. `Readable E P f a` says that the text `f a` is told
   apart from every other `f b` when what follows meets `E`; a list of readable texts is
   readable as a whole (`readable_list`). -/
namespace Separated

variable {α : Type} {sep close : Char}

theorem intercalate_cons (x : List Char) (xs : List (List Char)) :
    [sep].intercalate (x :: xs) = x ++ xs.flatMap (sep :: ·) := by
  induction xs generalizing x with
  | nil => simp [List.intercalate]
  | cons y ys ih =>
    have htail : [sep].intercalate (x :: y :: ys) = x ++ sep :: [sep].intercalate (y :: ys) := by
      simp [List.intercalate, List.intersperse]
    rw [htail, ih, List.flatMap_cons]
    rfl

/-- One more than the length counts a separator after every text. -/
theorem length_intercalate (xs : List (List Char)) :
    ([sep].intercalate xs).length + 1 = max 1 (xs.map fun x => x.length + 1).sum := by
  cases xs with
  | nil => rfl
  | cons x xs =>
    have htail : (xs.flatMap (sep :: ·)).length = (xs.map fun x => x.length + 1).sum := by
      rw [List.length_flatMap]
      rfl
    rw [intercalate_cons, List.length_append, htail, List.map_cons, List.sum_cons]
    omega

/-- The text of `a` is told apart from that of every other `b`, where what follows them meets
`E`. -/
def Readable (E : List Char → Prop) (P : α → Prop) (f : α → List Char) (a : α) : Prop :=
  ∀ b, P b → ∀ r r', E r → E r' → f a ++ r = f b ++ r' → a = b ∧ r = r'

section
variable {E : List Char → Prop} {P : α → Prop} {f : α → List Char}

theorem ends_tail (hsep : ∀ r, E (sep :: r)) (hclose : ∀ r, E (close :: r)) (as : List α)
    (r : List Char) : E ((as.map f).flatMap (sep :: ·) ++ close :: r) := by
  cases as with
  | nil => exact hclose r
  | cons a as => exact hsep _

/-- What follows the first text: the others with the separator before each, and the end. -/
theorem readable_tail (hsep : ∀ r, E (sep :: r)) (hclose : ∀ r, E (close :: r))
    (hne : sep ≠ close) {as bs : List α} (has : ∀ a ∈ as, Readable E P f a) (hbs : ∀ b ∈ bs, P b)
    {r r' : List Char}
    (h : (as.map f).flatMap (sep :: ·) ++ close :: r =
      (bs.map f).flatMap (sep :: ·) ++ close :: r') : as = bs ∧ r = r' := by
  induction as generalizing bs with
  | nil =>
    cases bs with
    | nil => exact ⟨rfl, (List.cons.inj h).2⟩
    | cons b bs => exact absurd (List.cons.inj h).1.symm hne
  | cons a as ih =>
    cases bs with
    | nil => exact absurd (List.cons.inj h).1 hne
    | cons b bs =>
      simp only [List.map_cons, List.flatMap_cons, List.cons_append, List.append_assoc] at h
      obtain ⟨rfl, htail⟩ := has a List.mem_cons_self b (hbs b List.mem_cons_self) _ _
        (ends_tail hsep hclose as r) (ends_tail hsep hclose bs r') (List.cons.inj h).2
      obtain ⟨rfl, hr⟩ := ih (fun a ha => has a (List.mem_cons_of_mem _ ha))
        (fun b hb => hbs b (List.mem_cons_of_mem _ hb)) htail
      exact ⟨rfl, hr⟩

/-- Two lists with the same text and end are the same. -/
theorem readable_list (hsep : ∀ r, E (sep :: r)) (hclose : ∀ r, E (close :: r))
    (hne : sep ≠ close) (hhead : ∀ a, P a → ∀ r t, f a ++ r ≠ close :: t) {as bs : List α}
    (has : ∀ a ∈ as, P a ∧ Readable E P f a) (hbs : ∀ b ∈ bs, P b) {r r' : List Char}
    (h : [sep].intercalate (as.map f) ++ close :: r = [sep].intercalate (bs.map f) ++ close :: r') :
    as = bs ∧ r = r' := by
  cases as with
  | nil =>
    cases bs with
    | nil => exact ⟨rfl, (List.cons.inj h).2⟩
    | cons b bs =>
      rw [List.map_cons, intercalate_cons, List.append_assoc] at h
      exact absurd h.symm (hhead b (hbs b List.mem_cons_self) _ _)
  | cons a as =>
    cases bs with
    | nil =>
      rw [List.map_cons, intercalate_cons, List.append_assoc] at h
      exact absurd h (hhead a (has a List.mem_cons_self).1 _ _)
    | cons b bs =>
      rw [List.map_cons, List.map_cons, intercalate_cons, intercalate_cons, List.append_assoc,
        List.append_assoc] at h
      obtain ⟨rfl, htail⟩ := (has a List.mem_cons_self).2 b (hbs b List.mem_cons_self) _ _
        (ends_tail hsep hclose as r) (ends_tail hsep hclose bs r') h
      obtain ⟨rfl, hr⟩ := readable_tail hsep hclose hne
        (fun a ha => (has a (List.mem_cons_of_mem _ ha)).2)
        (fun b hb => hbs b (List.mem_cons_of_mem _ hb)) htail
      exact ⟨rfl, hr⟩

end
end Separated
