import TensorLowering.Numeric.Int64

/-!
# Integer arithmetic

Division rounds down: it divides toward zero and takes one off where that rounded up. The remainder
is never negative, whatever the sign of the divisor, and exists where the quotient does.
-/
namespace TensorLowering

open Numeric

inductive ArithOp where
  | add
  | sub
  | mul
  | floorDiv
  | rem
  | max
  deriving DecidableEq

namespace ArithOp

/-- The quotient rounded toward zero, unless it is too large or the divisor is zero. -/
def quotient? (a b : Int) : Option Int := if b = 0 then none else bounded? (a.tdiv b)

/-- The quotient rounded down, from the one rounded toward zero: they differ where something is left
over and the signs are opposite. -/
def roundDown (a b quotient : Int) : Int :=
  if a.tmod b ≠ 0 ∧ ¬ (a < 0 ↔ b < 0) then quotient - 1 else quotient

/-- The result, unless it is too large or the divisor is zero. -/
def eval? (op : ArithOp) (a b : Int) : Option Int :=
  match op with
  | add => bounded? (a + b)
  | sub => bounded? (a - b)
  | mul => bounded? (a * b)
  | floorDiv => (quotient? a b).map (roundDown a b)
  | rem => (quotient? a b).map fun _ => a % b
  | max => some (Max.max a b)

/-- The left operand that leaves the right one as it is. -/
def leftUnit? : ArithOp → Option Int
  | add => some 0
  | mul => some 1
  | _ => none

/-- The right operand that leaves the left one as it is. -/
def rightUnit? : ArithOp → Option Int
  | add | sub => some 0
  | mul | floorDiv => some 1
  | _ => none

theorem eval?_leftUnit {op : ArithOp} {u : Int} (h : op.leftUnit? = some u) (n : Int) :
    op.eval? u n = bounded? n := by
  cases op <;> simp only [leftUnit?, Option.some.injEq, reduceCtorEq] at h <;> subst h <;>
    simp [eval?]

theorem roundDown_of_dvd {a b : Int} (h : b ∣ a) : roundDown a b = id := by
  funext q
  simp [roundDown, Int.dvd_iff_tmod_eq_zero.1 h]

theorem eval?_rightUnit {op : ArithOp} {u : Int} (h : op.rightUnit? = some u) (n : Int) :
    op.eval? n u = bounded? n := by
  cases op <;> simp only [rightUnit?, Option.some.injEq, reduceCtorEq] at h <;> subst h <;>
    simp [eval?, quotient?, roundDown_of_dvd (Int.one_dvd n)]

/-! ## Rounding down -/

section Division

variable {a b q : Int}

theorem quotient?_eq_some : quotient? a b = some q ↔ b ≠ 0 ∧ InInt64 (a.tdiv b) ∧ a.tdiv b = q := by
  by_cases hb : b = 0
  · simp [quotient?, hb]
  · simp [quotient?, hb, bounded?_eq_some]

theorem roundDown_tdiv (hb : b ≠ 0) : roundDown a b (a.tdiv b) = a.fdiv b := by
  by_cases hdvd : b ∣ a
  · rw [roundDown_of_dvd hdvd, id, Int.fdiv_eq_tdiv, if_pos hdvd, Int.sub_zero]
  · have hover : a.tmod b ≠ 0 := fun h => hdvd (Int.dvd_of_tmod_eq_zero h)
    have hsign : b.sign = if 0 ≤ b then 1 else -1 := by
      split
      · exact Int.sign_eq_one_of_pos (by omega)
      · exact Int.sign_eq_neg_one_of_neg (by omega)
    -- only the signs of the dividend and of the divisor are left to compare
    rw [Int.fdiv_eq_tdiv, if_neg hdvd, roundDown, hsign]
    grind

/-- A quotient that leaves something over is at most half as large as the dividend. -/
theorem natAbs_tdiv_le_of_not_dvd (hb : b ≠ 0) (h : ¬ b ∣ a) :
    (a.tdiv b).natAbs ≤ a.natAbs / 2 := by
  have hunit : b.natAbs ≠ 1 := fun hunit => h (Int.natAbs_dvd.1 (by simp [hunit]))
  rw [Int.natAbs_tdiv]
  exact Nat.div_le_div_left (by omega) (by decide)

/-- The correction neither leaves the range nor brings a quotient back into it. -/
theorem eval?_floorDiv (ha : InInt64 a) (hb : b ≠ 0) :
    floorDiv.eval? a b = bounded? (a.fdiv b) := by
  rw [eval?, quotient?, if_neg hb]
  by_cases hdvd : b ∣ a
  · rw [← roundDown_tdiv hb, roundDown_of_dvd hdvd, Option.map_id]
    rfl
  · have hhalf := natAbs_tdiv_le_of_not_dvd hb hdvd
    have hdown : a.fdiv b = a.tdiv b - 1 ∨ a.fdiv b = a.tdiv b := by
      rw [← roundDown_tdiv hb, roundDown]
      split
      · exact .inl rfl
      · exact .inr rfl
    -- far from the bounds, both quotients fit
    have hfits : ∀ q : Int, q.natAbs ≤ a.natAbs / 2 + 1 → bounded? q = some q := by
      intro q hq
      refine bounded?_eq_some.2 ⟨?_, rfl⟩
      simp only [InInt64, minInt64, maxInt64] at ha ⊢
      omega
    rw [hfits (a.tdiv b) (by omega), hfits (a.fdiv b) (by omega), Option.map_some,
      roundDown_tdiv hb]

end Division

end ArithOp

end TensorLowering
