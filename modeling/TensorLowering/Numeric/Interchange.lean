import TensorLowering.Numeric.Binary64

/-!
# The interchange word of a double

A double is written as a 64-bit word: the sign, eleven bits of exponent and 52 bits of fraction. An
exponent of zero means that the leading bit is absent. The largest exponent is left to infinities
and to what is not a number.
-/
namespace TensorLowering.Numeric.Binary64

theorem holds_subnormal (w : Nat) : Format.double.Holds (w % twoPow 52) := by
  have h : w % twoPow 52 < twoPow 52 := Nat.mod_lt _ (twoPow_pos 52)
  exact ⟨⟨_, 0, Nat.lt_trans h (twoPow_lt (by decide)), Nat.le_refl 0, by simp⟩,
    Nat.lt_trans h (twoPow_lt (by decide))⟩

theorem holds_normal (w : Nat) {e : Nat} (he : e ≤ 2045) :
    Format.double.Holds ((twoPow 52 + w % twoPow 52) * twoPow e) := by
  have h : w % twoPow 52 < twoPow 52 := Nat.mod_lt _ (twoPow_pos 52)
  have hm : twoPow 52 + w % twoPow 52 < twoPow 53 := by
    rw [twoPow_52] at h
    rw [twoPow_52, twoPow_53]
    omega
  refine ⟨⟨_, e, hm, Nat.zero_le e, rfl⟩, ?_⟩
  calc (twoPow 52 + w % twoPow 52) * twoPow e
      < twoPow 53 * twoPow e := Nat.mul_lt_mul_of_pos_right hm (twoPow_pos e)
    _ = twoPow (53 + e) := (twoPow_add ..).symm
    _ ≤ twoPow Format.double.limitExponent :=
        twoPow_le (by simp only [Format.double]; omega)

/-- The double written as the word `w`; bits above the lowest 64 are not read. -/
def ofWord (w : Nat) : Binary64 :=
  let negative := w / twoPow 63 % 2 == 1
  let field := w / twoPow 52 % twoPow 11
  if field = 0 then ofUnits negative (w % twoPow 52) (holds_subnormal w)
  else if h : field - 1 ≤ 2045 then
    ofUnits negative ((twoPow 52 + w % twoPow 52) * twoPow (field - 1)) (holds_normal w h)
  else if w % twoPow 52 = 0 then .infinite negative
  else .nan

/-- The word of a magnitude: its leading 53 bits, above which the exponent counts the bits that
follow them. -/
def magnitudeWord (u : Nat) : Nat :=
  let shift := u.log2 - 52
  shift * twoPow 52 + u / twoPow shift

def toWord : Binary64 → Nat
  | .nan => 0x7ff8000000000000
  | .infinite a => (if a then twoPow 63 else 0) + 0x7ff0000000000000
  | x => (if x.isNegative then twoPow 63 else 0) + magnitudeWord x.units

end TensorLowering.Numeric.Binary64
