import TensorLowering.Numeric.Int64

/-!
# Axes counted from either end

An axis from zero on counts from the outermost one. A negative axis counts from the end, so that
minus one is the innermost. Counting from the end is done in bounded integers: it needs a rank that
is one.
-/
namespace TensorLowering.Axis

open Numeric

/-- The position, counted from the outermost, of an axis of a tensor with `rank` axes. -/
def resolve? (axis : Int) (rank : Nat) : Option Nat :=
  if 0 ≤ axis then if axis < rank then some axis.toNat else none
  else if 0 ≤ rank + axis ∧ InInt64 rank then some (rank + axis).toNat
  else none

theorem resolve?_lt {axis : Int} {rank position : Nat} (h : resolve? axis rank = some position) :
    position < rank := by
  simp only [resolve?] at h
  split at h
  · split at h
    · cases h
      omega
    · cases h
  · split at h
    · cases h
      omega
    · cases h

end TensorLowering.Axis
