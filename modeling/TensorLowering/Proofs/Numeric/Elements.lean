import TensorLowering.Element
import TensorLowering.Reduction.Spec
import TensorLowering.Scalar

/-!
# Elements that rounding keeps

Zero is an element of every type that a reduction can sum in, and rounding a constant zero gives
zero. Integers that survive the way through a double are exact; all of them below `2 ^ 53` do.
-/
namespace TensorLowering

open Numeric

namespace Numeric

theorem le_roundShift (n k : Nat) : n / twoPow k ≤ roundShift n k := by
  simp only [roundShift]
  split <;> omega

/-- Rounding does not fall below a power of two. -/
theorem Format.twoPow_le_round (f : Format) {n k : Nat} (h : twoPow k ≤ n)
    (hk : f.leastExponent ≤ k) : twoPow k ≤ f.round n 0 := by
  have hn : n ≠ 0 := Nat.ne_of_gt (Nat.lt_of_lt_of_le (twoPow_pos k) h)
  have hlog : k ≤ n.log2 := (le_log2_iff hn k).2 h
  have hp := f.precision_pos
  have hbit : f.lastBit n 0 ≤ n.log2 := by
    simp only [lastBit]
    omega
  obtain ⟨d, hd⟩ := Nat.exists_eq_add_of_le' hbit
  have hle : twoPow d * twoPow (f.lastBit n 0) ≤ n := by
    rw [← twoPow_add, ← hd]
    exact twoPow_log2_le hn
  calc twoPow k
      ≤ twoPow n.log2 := twoPow_le hlog
    _ = twoPow d * twoPow (f.lastBit n 0) := by rw [← twoPow_add, ← hd]
    _ ≤ n / twoPow (f.lastBit n 0) * twoPow (f.lastBit n 0) :=
        Nat.mul_le_mul_right _ ((Nat.le_div_iff_mul_le (twoPow_pos _)).2 hle)
    _ ≤ f.round n 0 := by
        rw [Format.round, Nat.zero_add]
        exact Nat.mul_le_mul_right _ (le_roundShift ..)

end Numeric

namespace Numeric.Binary64

/-- The integer is read back from its double. -/
def IsExact (n : Int) : Prop := (ofInt n).toInt64 = n

instance (n : Int) : Decidable (IsExact n) :=
  inferInstanceAs (Decidable (_ = _))

theorem isExact_of_lt {n : Int} (h : n.natAbs < twoPow 53) : IsExact n := toInt64_ofInt h

theorem isExact_zero : IsExact 0 := isExact_of_lt (by simpa using twoPow_pos 53)

theorem isExact_one : IsExact 1 := isExact_of_lt (by rw [twoPow_53]; decide)

/-- An integer that is read back as a small one is read back as it is. -/
theorem isExact_of_toInt64_lt {n : Int} (h : (ofInt n).toInt64.natAbs < twoPow 53) : IsExact n := by
  by_cases hn : n.natAbs < twoPow 53
  · exact isExact_of_lt hn
  · exfalso
    have hunits : twoPow (53 + unitShift) ≤
        Format.double.round (n.natAbs * twoPow unitShift) 0 := by
      refine Format.double.twoPow_le_round ?_ (Nat.zero_le _)
      rw [twoPow_add]
      exact Nat.mul_le_mul_right _ (Nat.le_of_not_lt hn)
    have hwhole : twoPow 53 ≤
        Format.double.round (n.natAbs * twoPow unitShift) 0 / twoPow unitShift := by
      rwa [Nat.le_div_iff_mul_le (twoPow_pos _), ← twoPow_add]
    have h53 := twoPow_53
    have hinfinite : ∀ a, ¬ (infinite a).toInt64.natAbs < twoPow 53 := by
      intro a
      rw [h53]
      cases a <;> decide
    have hscaled : ∀ {a : Bool} {u : Nat} (hu : Format.double.Holds u) (apart : ¬ IsWhole a u),
        twoPow 53 ≤ u / twoPow unitShift → ¬ (scaled a u hu apart).toInt64.natAbs < twoPow 53 := by
      intro a u hu apart hle
      simp only [toInt64, clampToInt, minInt64, maxInt64]
      cases a <;> simp only [signed, Bool.false_eq_true, ↓reduceIte] <;> omega
    rw [ofInt, dif_neg hn] at h
    unfold ofMagnitude at h
    dsimp only at h
    split at h
    next hlt =>
      have hapart : ∀ a, ¬ IsWhole a (Format.double.round (n.natAbs * twoPow unitShift) 0) :=
        fun a hw => Nat.not_lt_of_le hwhole hw.2.1
      unfold ofUnits at h
      rw [dif_neg (hapart _)] at h
      exact hscaled _ _ hwhole h
    next => exact hinfinite _ h

theorem inInt64_toInt64 (x : Binary64) : InInt64 x.toInt64 := by
  cases x <;> simp only [toInt64, clampToInt, InInt64, minInt64, maxInt64]
  · decide
  · split <;> decide
  · omega
  · omega

theorem IsExact.inInt64 {n : Int} (h : IsExact n) : InInt64 n := by
  rw [← h]
  exact inInt64_toInt64 _

theorem IsExact.lt {n : Nat} (h : IsExact n) : n < 0x8000000000000000 := by
  have hle := h.inInt64.2
  simp only [maxInt64] at hle
  omega

theorem ofInt_zero : ofInt 0 = 0 := ofInt_whole (by simpa using twoPow_pos 53)

theorem isNegative_ofInt (n : Int) : (ofInt n).isNegative = decide (n < 0) := by
  rw [ofInt_eq]
  unfold ofMagnitude
  dsimp only
  split
  next => exact isNegative_ofUnits _ _
  next => rfl

theorem toInt64_nonneg {x : Binary64} (h : x.isNegative = false) : 0 ≤ x.toInt64 := by
  have hclamp : ∀ n : Int, 0 ≤ n → 0 ≤ max minInt64 (min maxInt64 n) := by
    intro n hn
    simp only [minInt64, maxInt64]
    omega
  cases x with
  | nan => exact Int.le_refl 0
  | infinite a =>
      obtain rfl : a = false := h
      decide
  | whole n => exact hclamp n (Int.not_lt.1 (decide_eq_false_iff_not.1 h))
  | scaled a u =>
      obtain rfl : a = false := h
      exact hclamp _ (Int.natCast_nonneg _)

end Numeric.Binary64

namespace DType

theorem round_zero (t : DType) : t.round 0 = 0 := by
  have h0 : (0 : Binary64).toInt64 = 0 := by
    rw [← Binary64.ofInt_zero, Binary64.toInt64_ofInt (by simpa using twoPow_pos 53)]
  have htrunc : (0 : Binary64).trunc = 0 := rfl
  have hsingle : (0 : Binary64).toSingle = 0 := by
    have hsmall : (0 : Int).natAbs < twoPow 24 := by simpa using twoPow_pos 24
    exact if_pos hsmall
  cases t with
  | bool => exact Binary64.ofInt_zero
  | float64 | complex128 => rfl
  | float16 | bfloat16 | float32 | complex64 => exact hsingle
  | signed w =>
      by_cases hw : w = .w64
      · subst hw
        exact htrunc
      · rw [round_signed hw, h0, Int.zero_bmod, Binary64.ofInt_zero]
  | unsigned w =>
      by_cases hw : w = .w64
      · subst hw
        exact htrunc
      · rw [round_unsigned hw, h0, Int.zero_emod, Binary64.ofInt_zero]

theorem reinterpretSigned_unsigned {w : IntWidth} (h : w ≠ .w64) (x : Binary64) :
    (unsigned w).reinterpretSigned x = (signed w).round x := by
  cases w with
  | w64 => exact absurd rfl h
  | w8 | w16 | w32 => rfl

end DType

/-- The additive identity of every type is zero. -/
theorem Scalar.toDouble_zero (t : DType) : (Scalar.zero t).toDouble = 0 := by
  unfold Scalar.zero
  split
  · rfl
  · split <;> exact Binary64.ofInt_zero

/-- The least size that is not read back from its double. -/
def oversize : Nat := 9007199254740993

theorem toInt64_oversize : (Scalar.int oversize).toDouble.toInt64 = 9007199254740992 := by
  decide +kernel

theorem toInt64_zero : (Scalar.int 0).toDouble.toInt64 = 0 := Binary64.isExact_zero

theorem toInt64_one : (Scalar.int 1).toDouble.toInt64 = 1 := Binary64.isExact_one

theorem toInt64_two : (Scalar.int 2).toDouble.toInt64 = 2 := by decide +kernel

/-- An element as a reduction reads it. -/
def CastKind.extend : CastKind → DType → Binary64 → Binary64
  | signed, t, x => t.reinterpretSigned x
  | unsigned, _, x => x

@[simp] theorem CastKind.extend_zero (c : CastKind) (t : DType) : c.extend t 0 = 0 := by
  cases c with
  | unsigned => rfl
  | signed =>
      cases t with
      | unsigned w =>
          by_cases hw : w = .w64
          · subst hw
            rfl
          · rw [extend, DType.reinterpretSigned_unsigned hw, DType.round_zero]
      | _ => rfl

/-- An element as a reduction multiplies it, less a zero-point if there is one. -/
def CastKind.factor (c : CastKind) (t : DType) (z : Option Binary64) (x : Binary64) : Binary64 :=
  match z with
  | none => c.extend t x
  | some z => c.extend t x - z

end TensorLowering
