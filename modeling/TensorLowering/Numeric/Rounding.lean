/-!
# Rounding to a binary format

Magnitudes are natural numbers of *units*. One unit is `2 ^ (-1074)`, the least positive magnitude
that a double holds, so every finite double is a whole number of units. A format keeps a bounded
number of significant bits. Rounding goes to the nearest magnitude of the format, and a half goes
to the even neighbour. A magnitude that the format already keeps is unchanged.
-/
namespace TensorLowering.Numeric

/-! ## Powers of two -/

/-- Two to the power `k`. -/
def twoPow (k : Nat) : Nat := Nat.pow 2 k

theorem twoPow_pos (k : Nat) : 0 < twoPow k := Nat.two_pow_pos k

theorem one_lt_twoPow {k : Nat} (h : k ≠ 0) : 1 < twoPow k := Nat.one_lt_two_pow h

@[simp] theorem twoPow_zero : twoPow 0 = 1 := rfl

theorem twoPow_add (j k : Nat) : twoPow (j + k) = twoPow j * twoPow k := Nat.pow_add 2 j k

theorem twoPow_le {j k : Nat} (h : j ≤ k) : twoPow j ≤ twoPow k :=
  Nat.pow_le_pow_right (by decide) h

theorem twoPow_lt {j k : Nat} (h : j < k) : twoPow j < twoPow k :=
  Nat.pow_lt_pow_right (by decide) h

theorem lt_twoPow_log2 (n : Nat) : n < twoPow (n.log2 + 1) := Nat.lt_log2_self

theorem twoPow_log2_le {n : Nat} (h : n ≠ 0) : twoPow n.log2 ≤ n := Nat.log2_self_le h

theorem log2_lt_iff {n : Nat} (h : n ≠ 0) (k : Nat) : n.log2 < k ↔ n < twoPow k := Nat.log2_lt h

theorem le_log2_iff {n : Nat} (h : n ≠ 0) (k : Nat) : k ≤ n.log2 ↔ twoPow k ≤ n := Nat.le_log2 h

theorem twoPow_32 : twoPow 32 = 0x100000000 := rfl

theorem twoPow_52 : twoPow 52 = 0x10000000000000 := rfl

theorem twoPow_53 : twoPow 53 = 0x20000000000000 := rfl

-- large powers are never to be written out by unfolding
attribute [irreducible] twoPow

/-! ## Rounded magnitudes -/

/-- The number of units in the magnitude one, as a power of two. -/
def unitShift : Nat := 1074

/-- How many times `2 ^ k` fits into `n`, to the nearest; a half goes to the even count. -/
def roundShift (n k : Nat) : Nat :=
  let q := n / twoPow k
  let r := n % twoPow k
  if 2 * r < twoPow k ∨ 2 * r = twoPow k ∧ q % 2 = 0 then q else q + 1

@[simp] theorem roundShift_mul_twoPow (m k : Nat) : roundShift (m * twoPow k) k = m := by
  have h := twoPow_pos k
  simp [roundShift, Nat.mul_div_cancel _ h, h]

theorem roundShift_le (n k : Nat) : roundShift n k ≤ n / twoPow k + 1 := by
  simp only [roundShift]
  split <;> omega

/-- Counting in units that are `2 ^ d` times smaller changes nothing. -/
theorem roundShift_mul (n k d : Nat) : roundShift (n * twoPow d) (k + d) = roundShift n k := by
  have hd := twoPow_pos d
  have hq : n * twoPow d / twoPow (k + d) = n / twoPow k := by
    rw [twoPow_add, Nat.mul_div_mul_right _ _ hd]
  have hr : n * twoPow d % twoPow (k + d) = n % twoPow k * twoPow d := by
    rw [twoPow_add, Nat.mul_mod_mul_right]
  have hlt : ∀ a b : Nat, a * twoPow d < b * twoPow d ↔ a < b := fun a b =>
    Nat.mul_lt_mul_right hd
  have heq : ∀ a b : Nat, a * twoPow d = b * twoPow d ↔ a = b := fun a b =>
    ⟨Nat.eq_of_mul_eq_mul_right hd, fun h => h ▸ rfl⟩
  simp only [roundShift, hq, hr]
  simp only [twoPow_add, ← Nat.mul_assoc, hlt, heq]

/-- A binary floating-point format: how many significant bits it keeps, the exponent (in units) of
its least positive magnitude, and the exponent from which magnitudes are too large. -/
structure Format where
  precision : Nat
  leastExponent : Nat
  limitExponent : Nat
  precision_pos : 0 < precision := by decide

namespace Format

/-- Doubles keep 53 bits and reach from one unit to `2 ^ 1024`. -/
def double : Format where
  precision := 53
  leastExponent := 0
  limitExponent := 2098

/-- Singles keep 24 bits and reach from `2 ^ (-149)` to `2 ^ 128`. -/
def single : Format where
  precision := 24
  leastExponent := 925
  limitExponent := 1202

/-- The magnitude has no more significant bits than the format keeps, and none too low. -/
def Keeps (f : Format) (u : Nat) : Prop :=
  ∃ q j, q < twoPow f.precision ∧ f.leastExponent ≤ j ∧ u = q * twoPow j

/-- The magnitude is one of the format. -/
def Holds (f : Format) (u : Nat) : Prop := f.Keeps u ∧ u < twoPow f.limitExponent

theorem keeps_of_le (f : Format) {q j : Nat} (hq : q ≤ twoPow f.precision)
    (hj : f.leastExponent ≤ j) : f.Keeps (q * twoPow j) := by
  rcases Nat.lt_or_eq_of_le hq with hlt | rfl
  · exact ⟨q, j, hlt, hj, rfl⟩
  · refine ⟨1, f.precision + j, one_lt_twoPow (Nat.ne_of_gt f.precision_pos), by omega, ?_⟩
    rw [twoPow_add, Nat.one_mul]

theorem holds_zero (f : Format) : f.Holds 0 :=
  ⟨⟨0, f.leastExponent, twoPow_pos _, Nat.le_refl _, by simp⟩, twoPow_pos _⟩

/-- Dropping the bits below `2 ^ k` keeps a magnitude in the format. -/
theorem Holds.floor {f : Format} {u : Nat} (h : f.Holds u) (k : Nat) :
    f.Holds (u / twoPow k * twoPow k) := by
  refine ⟨?_, Nat.lt_of_le_of_lt (Nat.div_mul_le_self u _) h.2⟩
  obtain ⟨⟨q, j, hq, hj, rfl⟩, -⟩ := h
  rcases Nat.le_total k j with hkj | hjk
  · obtain ⟨d, rfl⟩ := Nat.exists_eq_add_of_le hkj
    refine ⟨q, k + d, hq, hj, ?_⟩
    rw [twoPow_add, ← Nat.mul_assoc, Nat.mul_right_comm, Nat.mul_div_cancel _ (twoPow_pos k)]
  · obtain ⟨d, rfl⟩ := Nat.exists_eq_add_of_le hjk
    refine ⟨q / twoPow d, j + d, Nat.lt_of_le_of_lt (Nat.div_le_self _ _) hq, by omega, ?_⟩
    rw [twoPow_add, Nat.mul_comm q, Nat.mul_div_mul_left _ _ (twoPow_pos j)]

/-- Every single is a double. -/
theorem Holds.widen {u : Nat} (h : single.Holds u) : double.Holds u := by
  obtain ⟨⟨q, j, hq, -, rfl⟩, hu⟩ := h
  exact ⟨⟨q, j, Nat.lt_trans hq (twoPow_lt (by decide)), Nat.zero_le j, rfl⟩,
    Nat.lt_trans hu (twoPow_lt (by decide))⟩

/-- The exponent of the last bit that the format keeps of the magnitude `n / 2 ^ s`. -/
def lastBit (f : Format) (n s : Nat) : Nat :=
  max f.leastExponent (n.log2 + 1 - f.precision - s)

/-- The magnitude `n / 2 ^ s` rounded to the precision of the format. -/
def round (f : Format) (n s : Nat) : Nat :=
  roundShift n (s + f.lastBit n s) * twoPow (f.lastBit n s)

theorem keeps_round (f : Format) (n s : Nat) : f.Keeps (f.round n s) := by
  refine f.keeps_of_le (Nat.le_trans (roundShift_le _ _) ?_) (Nat.le_max_left ..)
  have hn : n < twoPow (f.precision + (s + f.lastBit n s)) :=
    Nat.lt_of_lt_of_le (lt_twoPow_log2 n)
      (twoPow_le (by simp only [lastBit]; omega))
  rw [twoPow_add] at hn
  exact Nat.div_lt_of_lt_mul (by rwa [Nat.mul_comm])

theorem lastBit_le (f : Format) {q j : Nat} (hq : q < twoPow f.precision)
    (hj : f.leastExponent ≤ j) : f.lastBit (q * twoPow j) 0 ≤ j := by
  have hp := f.precision_pos
  simp only [lastBit]
  rcases Nat.eq_zero_or_pos q with rfl | hpos
  · simp
    omega
  · have hlog : (q * twoPow j).log2 < f.precision + j := by
      refine (log2_lt_iff (Nat.ne_of_gt (Nat.mul_pos hpos (twoPow_pos j))) _).2 ?_
      rw [twoPow_add]
      exact Nat.mul_lt_mul_of_pos_right hq (twoPow_pos j)
    omega

theorem lastBit_mul (f : Format) (n s d : Nat) :
    f.lastBit (n * twoPow d) (s + d) = f.lastBit n s := by
  have hp := f.precision_pos
  rcases Nat.eq_zero_or_pos n with rfl | hn
  · simp only [lastBit, Nat.zero_mul, Nat.log2_zero]
    omega
  · have hlog : (n * twoPow d).log2 = n.log2 + d := by
      have hne := Nat.ne_of_gt (Nat.mul_pos hn (twoPow_pos d))
      have hlo : n.log2 + d ≤ (n * twoPow d).log2 := by
        rw [le_log2_iff hne, twoPow_add]
        exact Nat.mul_le_mul_right _ (twoPow_log2_le (Nat.ne_of_gt hn))
      have hhi : (n * twoPow d).log2 < n.log2 + 1 + d := by
        rw [log2_lt_iff hne, twoPow_add]
        exact Nat.mul_lt_mul_of_pos_right (lt_twoPow_log2 n) (twoPow_pos d)
      omega
    simp only [lastBit, hlog]
    omega

/-- Counting in units that are `2 ^ d` times smaller does not change a rounded magnitude. -/
theorem round_mul (f : Format) (n s d : Nat) : f.round (n * twoPow d) (s + d) = f.round n s := by
  simp only [round, lastBit_mul]
  rw [Nat.add_right_comm, roundShift_mul]

/-- Rounding a magnitude that the format keeps changes nothing. -/
theorem Keeps.round_eq {f : Format} {u : Nat} (h : f.Keeps u) : f.round u 0 = u := by
  obtain ⟨q, j, hq, hj, rfl⟩ := h
  obtain ⟨d, hd⟩ := Nat.exists_eq_add_of_le (f.lastBit_le hq hj)
  have hsplit : q * twoPow j = q * twoPow d * twoPow (f.lastBit (q * twoPow j) 0) := by
    rw [Nat.mul_assoc, ← twoPow_add, Nat.add_comm d, ← hd]
  simp only [round, Nat.zero_add]
  have hround := roundShift_mul_twoPow (q * twoPow d) (f.lastBit (q * twoPow j) 0)
  rw [← hsplit] at hround
  rw [hround, ← hsplit]

end Format

end TensorLowering.Numeric
