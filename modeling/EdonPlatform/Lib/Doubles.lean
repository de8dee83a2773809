import Mathlib.Algebra.Order.Ring.Rat
import Mathlib.Algebra.Order.Group.Unbundled.Abs
import Mathlib.Tactic.Linarith

/- Double-precision numbers as rationals. A finite double is the rational it denotes;
   `infinity` is the first power of two that no finite double reaches, and it and its
   negation stand for the two infinite ones. An operation computes the exact result and
   rounds it; an exact result at or past `overflowThreshold` has no finite double to round
   to. How the others are rounded is left open (`Rounding`). -/
namespace Doubles

def infinity : Rat := 2 ^ 1024

/-- Halfway between the largest finite double and `infinity`. -/
def overflowThreshold : Rat := 2 ^ 1024 - 2 ^ 970

def finite (q : Rat) : Bool := |q| < infinity

/-- A way to round exact results; those below the threshold round to finite doubles. -/
structure Rounding where
  round : Rat → Rat
  finite_round : ∀ q, |q| < overflowThreshold → finite (round q) = true

/-- The exact sum has no finite double to round to. -/
def overflows (p q : Rat) : Bool := overflowThreshold ≤ |p + q|

namespace Rounding
variable (r : Rounding)

/-- The sum of two doubles. An infinite summand is the sum: the other one is finite
wherever this is used, so the sum is never a NaN. -/
def add (p q : Rat) : Rat :=
  if finite p = false then p
  else if finite q = false then q
  else if overflows p q then (if 0 ≤ p + q then infinity else -infinity)
  else r.round (p + q)

/-- The double of an integer, where it has a finite one. -/
def ofInt (n : Int) : Option Rat :=
  if |(n : Rat)| < overflowThreshold then some (r.round n) else none

theorem finite_add {p q : Rat} (hp : finite p = true) (hq : finite q = true)
    (h : overflows p q = false) : finite (r.add p q) = true := by
  unfold add
  rw [hp, hq, h]
  exact r.finite_round _ (not_le.mp (of_decide_eq_false h))

theorem infinite_add {p q : Rat} (hp : finite p = true) (hq : finite q = true)
    (h : overflows p q = true) : finite (r.add p q) = false := by
  unfold add
  rw [hp, hq, h]
  have hpos : (0 : Rat) < infinity := by
    unfold infinity
    positivity
  by_cases hsign : 0 ≤ p + q
  · simp [hsign, finite, abs_of_pos hpos]
  · simp [hsign, finite, abs_of_pos hpos]

theorem finite_ofInt {n : Int} {q : Rat} (h : r.ofInt n = some q) : finite q = true := by
  unfold ofInt at h
  split at h
  · next hn =>
    cases h
    exact r.finite_round _ hn
  · cases h

end Rounding
end Doubles
