import TensorLowering.DType
import TensorLowering.Numeric.Exact

/-!
# Elements

Elements of every type are held as doubles. Rounding takes a double to one that its element type
holds: integers lose their fraction and wrap at their width, and the short floating-point types are
approximated by singles. Main statement: a rounded element is not changed by rounding again.
-/
namespace TensorLowering

open Numeric

namespace IntWidth

/-- Half of the number of integers of the width. -/
def half : IntWidth → Nat
  | w8 => 0x80
  | w16 => 0x8000
  | w32 => 0x80000000
  | w64 => 0x8000000000000000

theorem two_mul_half (w : IntWidth) : 2 * w.half = twoPow w.bits := by
  unfold twoPow
  cases w <;> rfl

/-- The remainder of least magnitude. An integer that fits is its own. -/
def wrapSigned (w : IntWidth) (n : Int) : Int :=
  if n.natAbs < w.half then n else n.bmod (twoPow w.bits)

/-- The remainder that is not negative. An integer that fits is its own. -/
def wrapUnsigned (w : IntWidth) (n : Int) : Int :=
  if 0 ≤ n ∧ n.natAbs / 2 < w.half then n else n % twoPow w.bits

theorem wrapSigned_eq (w : IntWidth) (n : Int) : w.wrapSigned n = n.bmod (twoPow w.bits) := by
  have h := w.two_mul_half
  rw [wrapSigned]
  split
  · exact (Int.bmod_eq_of_le (by omega) (by omega)).symm
  · rfl

theorem wrapUnsigned_eq (w : IntWidth) (n : Int) : w.wrapUnsigned n = n % twoPow w.bits := by
  have h := w.two_mul_half
  rw [wrapUnsigned]
  split
  · exact (Int.emod_eq_of_lt (by omega) (by omega)).symm
  · rfl

end IntWidth

namespace DType

/-- The double rounded to one that the element type holds. Integers of 64 bits lose their fraction
and do not wrap. -/
def round (t : DType) (x : Binary64) : Binary64 :=
  match t with
  | bool => .ofInt (if x.isZero then 0 else 1)
  | float64 | complex128 => x
  | float16 | bfloat16 | float32 | complex64 => x.toSingle
  | signed .w64 | unsigned .w64 => x.trunc
  | signed w => .ofInt (w.wrapSigned x.toInt64)
  | unsigned w => .ofInt (w.wrapUnsigned x.toInt64)

/-- Reads an element of an unsigned type of at most 32 bits as the signed integer with the same
bits. -/
def reinterpretSigned : DType → Binary64 → Binary64
  | unsigned .w64, x => x
  | unsigned w, x => (signed w).round x
  | _, x => x

theorem twoPow_le_of_le {b : Nat} (h : b ≤ 32) : twoPow b ≤ 4294967296 :=
  twoPow_32 ▸ twoPow_le h

theorem natAbs_bmod_lt (n : Int) {b : Nat} (h : b ≤ 32) :
    (n.bmod (twoPow b)).natAbs < twoPow 53 := by
  have hb := twoPow_le_of_le h
  have hlo := Int.le_bmod (x := n) (twoPow_pos b)
  have hhi := Int.bmod_lt (x := n) (twoPow_pos b)
  rw [twoPow_53]
  omega

theorem natAbs_emod_lt (n : Int) {b : Nat} (h : b ≤ 32) :
    (n % twoPow b).natAbs < twoPow 53 := by
  have hb := twoPow_le_of_le h
  have hpos := twoPow_pos b
  have hlo := Int.emod_nonneg n (b := twoPow b) (by omega)
  have hhi := Int.emod_lt_of_pos n (b := twoPow b) (by omega)
  rw [twoPow_53]
  omega

theorem round_bool (x : Binary64) : bool.round x = .ofInt (if x.isZero then 0 else 1) := rfl

/-- A short signed integer is the remainder of least magnitude. -/
theorem round_signed {w : IntWidth} (h : w ≠ .w64) (x : Binary64) :
    (signed w).round x = .ofInt ((x.toInt64).bmod (twoPow w.bits)) := by
  rw [← w.wrapSigned_eq]
  cases w with
  | w64 => exact absurd rfl h
  | w8 | w16 | w32 => rfl

/-- A short unsigned integer is the remainder that is not negative. -/
theorem round_unsigned {w : IntWidth} (h : w ≠ .w64) (x : Binary64) :
    (unsigned w).round x = .ofInt (x.toInt64 % twoPow w.bits) := by
  rw [← w.wrapUnsigned_eq]
  cases w with
  | w64 => exact absurd rfl h
  | w8 | w16 | w32 => rfl

theorem bits_le {w : IntWidth} (h : w ≠ .w64) : w.bits ≤ 32 := by
  cases w with
  | w64 => exact absurd rfl h
  | w8 | w16 | w32 => decide

theorem round_round (t : DType) (x : Binary64) : t.round (t.round x) = t.round x := by
  cases t with
  | bool =>
      have hbit : (if x.isZero then (0 : Int) else 1).natAbs < twoPow 53 := by
        rw [twoPow_53]
        split <;> decide
      rw [round_bool, round_bool, Binary64.isZero_ofInt hbit]
      cases x.isZero <;> exact congrArg Binary64.ofInt (by decide)
  | float64 | complex128 => rfl
  | float16 | bfloat16 | float32 | complex64 => exact x.toSingle_toSingle
  | signed w =>
      by_cases hw : w = .w64
      · subst hw
        exact x.trunc_trunc
      · rw [round_signed hw, round_signed hw,
          Binary64.toInt64_ofInt (natAbs_bmod_lt _ (bits_le hw)), Int.bmod_bmod]
  | unsigned w =>
      by_cases hw : w = .w64
      · subst hw
        exact x.trunc_trunc
      · rw [round_unsigned hw, round_unsigned hw,
          Binary64.toInt64_ofInt (natAbs_emod_lt _ (bits_le hw)), Int.emod_emod]

end DType

end TensorLowering
