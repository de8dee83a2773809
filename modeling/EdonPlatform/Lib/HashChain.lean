import Mathlib.Data.List.Basic

/- Hash chains. A row names the hash of the row before it, the first one the genesis
   hash, and carries the hash of its own content. `verify` checks a list of rows from the
   front, as an auditor does; `last` is the hash the next row has to name. `verify_snoc`
   says when a chain that is longer by one row still verifies, so a store that appends
   through `last` keeps its chain. -/
namespace HashChain

/-- How rows are linked: the hash they name, the hash they carry, and the hash their
content has. -/
structure Links (α H : Type) where
  genesis : H
  previous : α → H
  carried : α → H
  content : α → H

variable {α H : Type} (links : Links α H)

/-- The hash the next row has to name. -/
def last (rows : List α) : H := (rows.getLast?.map links.carried).getD links.genesis

theorem last_nil : last links [] = links.genesis := rfl

theorem last_snoc (rows : List α) (r : α) : last links (rows ++ [r]) = links.carried r := by
  unfold last
  rw [List.getLast?_concat]
  rfl

section
variable [DecidableEq H]

def verifyFrom (hash : H) : List α → Bool
  | [] => true
  | r :: rows =>
    if links.previous r ≠ hash then false
    else if links.content r ≠ links.carried r then false
    else verifyFrom (links.carried r) rows

def verify (rows : List α) : Bool := verifyFrom links links.genesis rows

variable {links}

/-- A row names the hash before it and carries its own. -/
def Joins (links : Links α H) (hash : H) (r : α) : Prop :=
  links.previous r = hash ∧ links.content r = links.carried r

theorem verifyFrom_cons {hash : H} {r : α} {rows : List α} :
    verifyFrom links hash (r :: rows) = true ↔
      Joins links hash r ∧ verifyFrom links (links.carried r) rows = true := by
  show (if _ then false else if _ then false else _) = true ↔ _
  unfold Joins
  split
  · next h => simp [h]
  · next h =>
    split
    · next h' => simp [h']
    · next h' => simp [not_not.mp h, not_not.mp h']

theorem verifyFrom_append {hash : H} {rows rows' : List α} :
    verifyFrom links hash (rows ++ rows') = true ↔
      verifyFrom links hash rows = true ∧
        verifyFrom links ((rows.getLast?.map links.carried).getD hash) rows' = true := by
  induction rows generalizing hash with
  | nil => simp [verifyFrom]
  | cons r rows ih =>
    rw [List.cons_append, verifyFrom_cons, verifyFrom_cons, ih, and_assoc]
    cases rows with
    | nil => rfl
    | cons r' rows => rfl

theorem verify_snoc {rows : List α} {r : α} :
    verify links (rows ++ [r]) = true ↔
      verify links rows = true ∧ Joins links (last links rows) r := by
  unfold verify
  rw [verifyFrom_append, verifyFrom_cons]
  exact and_congr_right (fun _ => and_iff_left rfl)

end
end HashChain
