/-!
# Bounded integers

Indices and integer scalars are integers of 64 bits. Arithmetic on them has no result where the
exact result is too large. Coordinates are of 64 bits as well, and their sums and products wrap.
-/
namespace TensorLowering.Numeric

def minInt64 : Int := -0x8000000000000000

def maxInt64 : Int := 0x7fffffffffffffff

def InInt64 (n : Int) : Prop := minInt64 ≤ n ∧ n ≤ maxInt64

instance (n : Int) : Decidable (InInt64 n) := by
  unfold InInt64
  infer_instance

def bounded? (n : Int) : Option Int := if InInt64 n then some n else none

/-- The integer of 64 bits that differs by a multiple of `2 ^ 64`. -/
def wrapInt64 (n : Int) : Int := n.bmod 0x10000000000000000

/-- A natural number as a bounded integer; the largest one stands for all that are larger. -/
def clampNat (n : Nat) : Int := min n maxInt64

theorem clampNat_of_le {n : Nat} (h : n ≤ maxInt64) : clampNat n = n := Int.min_eq_left h

theorem bounded?_eq_some {n m : Int} : bounded? n = some m ↔ InInt64 n ∧ n = m := by
  simp [bounded?]

theorem wrapInt64_of_inInt64 {n : Int} (h : InInt64 n) : wrapInt64 n = n := by
  simp only [InInt64, minInt64, maxInt64] at h
  exact Int.bmod_eq_of_le (by omega) (by omega)

@[simp] theorem wrapInt64_wrapInt64_add (m n : Int) :
    wrapInt64 (wrapInt64 m + n) = wrapInt64 (m + n) := Int.bmod_add_bmod

@[simp] theorem wrapInt64_add_wrapInt64 (m n : Int) :
    wrapInt64 (m + wrapInt64 n) = wrapInt64 (m + n) := Int.add_bmod_bmod

end TensorLowering.Numeric
