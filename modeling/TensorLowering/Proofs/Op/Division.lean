import Mathlib.Data.Rat.Floor
import TensorLowering.Op.Arith

/-!
# Quotients and remainders

The quotient of two indices is the true quotient rounded down, wherever that is an index. Times the
divisor, it and the remainder make up the dividend exactly where the divisor is positive or leaves
nothing over. The remainder is never negative, so by a negative divisor it belongs to the quotient
rounded up.
-/
namespace TensorLowering

open Numeric

/-- Rounding down a quotient of integers. -/
theorem floor_div_eq_fdiv (a b : Int) : ⌊(a : ℚ) / b⌋ = a.fdiv b := by
  have hnonneg : ∀ (m : Int) (n : Nat), ⌊(m : ℚ) / (n : Int)⌋ = m.fdiv n := by
    intro m n
    rw [Int.fdiv_eq_ediv_of_nonneg m (Int.natCast_nonneg n), Int.cast_natCast,
      Rat.floor_intCast_div_natCast]
  obtain ⟨n, rfl | rfl⟩ := b.eq_nat_or_neg
  · exact hnonneg a n
  · have hflip : (a : ℚ) / ((-n : Int) : ℚ) = ((-a : Int) : ℚ) / (n : Int) := by
      push_cast
      rw [div_neg, neg_div]
    rw [hflip, hnonneg, ← Int.neg_fdiv_neg, neg_neg]

namespace ArithOp

variable {a b q r : Int}

theorem eval?_floorDiv_eq_some (ha : InInt64 a) :
    floorDiv.eval? a b = some q ↔ b ≠ 0 ∧ InInt64 (a.fdiv b) ∧ q = a.fdiv b := by
  by_cases hb : b = 0
  · simp [eval?, quotient?, hb]
  · rw [eval?_floorDiv ha hb, bounded?_eq_some, eq_comm (a := q)]
    simp [hb]

/-- There is a remainder where there is a quotient. -/
theorem isSome_eval?_rem : (rem.eval? a b).isSome = (floorDiv.eval? a b).isSome := by
  simp only [eval?, Option.isSome_map]

theorem eval?_rem_eq_some :
    rem.eval? a b = some r ↔ b ≠ 0 ∧ InInt64 (a.tdiv b) ∧ r = a % b := by
  simp only [eval?, Option.map_eq_some_iff, quotient?_eq_some]
  constructor
  · rintro ⟨q, ⟨hb, hfits, -⟩, rfl⟩
    exact ⟨hb, hfits, rfl⟩
  · rintro ⟨hb, hfits, rfl⟩
    exact ⟨_, ⟨hb, hfits, rfl⟩, rfl⟩

/-- What the quotient rounded down and the remainder leave of the dividend. -/
theorem eq_mul_fdiv_add_emod_add (a b : Int) :
    a = b * a.fdiv b + a % b + if 0 ≤ b ∨ b ∣ a then 0 else b := by
  calc a = b * a.fdiv b + a.fmod b := (Int.mul_fdiv_add_fmod a b).symm
    _ = b * a.fdiv b + a % b + if 0 ≤ b ∨ b ∣ a then 0 else b := by
      rw [Int.fmod_eq_emod, Int.add_assoc]

theorem eq_mul_fdiv_add_emod_iff (hb : b ≠ 0) :
    a = b * a.fdiv b + a % b ↔ 0 < b ∨ b ∣ a := by
  have hrest := eq_mul_fdiv_add_emod_add a b
  have hpos : 0 ≤ b ↔ 0 < b := by omega
  simp only [hpos] at hrest
  split at hrest
  next hpaired => exact iff_of_true (by omega) hpaired
  next hapart => exact iff_of_false (by omega) hapart

theorem eq_mul_fdiv_add_one_add_emod (h : ¬ (0 ≤ b ∨ b ∣ a)) :
    a = b * (a.fdiv b + 1) + a % b := by
  have hrest := eq_mul_fdiv_add_emod_add a b
  rw [if_neg h] at hrest
  rw [Int.mul_add, Int.mul_one]
  omega

/-- The quotient is the true one rounded down. With the remainder it makes up the dividend, unless
the divisor is negative and leaves something over: then the quotient rounded up does. -/
theorem quotient_remainder_pair (ha : InInt64 a) :
    (∀ q, floorDiv.eval? a b = some q ↔
      b ≠ 0 ∧ InInt64 ⌊(a : ℚ) / b⌋ ∧ q = ⌊(a : ℚ) / b⌋) ∧
    (rem.eval? a b).isSome = (floorDiv.eval? a b).isSome ∧
    ∀ q r, floorDiv.eval? a b = some q → rem.eval? a b = some r →
      0 ≤ r ∧ r < |b| ∧ (a = b * q + r ↔ 0 < b ∨ b ∣ a) ∧
        (¬ (0 < b ∨ b ∣ a) → a = b * (q + 1) + r) := by
  refine ⟨fun q => ?_, isSome_eval?_rem, fun q r hq hr => ?_⟩
  · rw [floor_div_eq_fdiv]
    exact eval?_floorDiv_eq_some ha
  · obtain ⟨hb, -, rfl⟩ := (eval?_floorDiv_eq_some ha).1 hq
    obtain ⟨-, -, rfl⟩ := eval?_rem_eq_some.1 hr
    refine ⟨Int.emod_nonneg a hb, Int.emod_lt_abs a hb, eq_mul_fdiv_add_emod_iff hb, ?_⟩
    intro hapart
    have hneg : ¬ 0 ≤ b := by omega
    exact eq_mul_fdiv_add_one_add_emod (not_or_intro hneg fun hdvd => hapart (.inr hdvd))

/-- The least index, by three and by minus three. -/
theorem quotient_remainder_pair_least :
    InInt64 minInt64 ∧
      (floorDiv.eval? minInt64 3 = some (-3074457345618258603) ∧ rem.eval? minInt64 3 = some 1 ∧
        ⌊(minInt64 : ℚ) / (3 : Int)⌋ = -3074457345618258603 ∧
        minInt64 = 3 * -3074457345618258603 + 1) ∧
      floorDiv.eval? minInt64 (-3) = some 3074457345618258602 ∧ rem.eval? minInt64 (-3) = some 1 ∧
        ⌊(minInt64 : ℚ) / (-3 : Int)⌋ = 3074457345618258602 ∧
        minInt64 = -3 * (3074457345618258602 + 1) + 1 := by
  have ha : InInt64 minInt64 := by decide
  have hq : floorDiv.eval? minInt64 3 = some (-3074457345618258603) := by decide
  have hr : rem.eval? minInt64 3 = some 1 := by decide
  have hq' : floorDiv.eval? minInt64 (-3) = some 3074457345618258602 := by decide
  have hr' : rem.eval? minInt64 (-3) = some 1 := by decide
  obtain ⟨hfloor, -, hpair⟩ := quotient_remainder_pair (b := 3) ha
  obtain ⟨hfloor', -, hpair'⟩ := quotient_remainder_pair (b := -3) ha
  exact ⟨ha, ⟨hq, hr, ((hfloor _).1 hq).2.2.symm, (hpair _ _ hq hr).2.2.1.2 (.inl (by decide))⟩,
    hq', hr', ((hfloor' _).1 hq').2.2.symm, (hpair' _ _ hq' hr').2.2.2 (by decide)⟩

/-- Seven by minus two gives minus four, and leaves one instead of minus one. -/
theorem quotient_remainder_apart :
    InInt64 7 ∧ InInt64 (-2) ∧ floorDiv.eval? 7 (-2) = some (-4) ∧ rem.eval? 7 (-2) = some 1 ∧
      (7 : Int) ≠ -2 * -4 + 1 := by
  decide

end ArithOp

end TensorLowering
