import TensorLowering.Numeric.Binary64
import TensorLowering.Numeric.Int64

/-!
# Exact integers

Integers below `2 ^ 53` in magnitude are doubles. Reading them back gives the same integer, and
their sums and differences are those of the integers.
-/
namespace TensorLowering.Numeric.Binary64

theorem ofInt_whole {n : Int} (h : n.natAbs < twoPow 53) : ofInt n = .whole n h := dif_pos h

theorem ofInt_add {m n : Int} (hm : m.natAbs < twoPow 53) (hn : n.natAbs < twoPow 53) :
    ofInt m + ofInt n = ofInt (m + n) := by
  rw [ofInt_whole hm, ofInt_whole hn]
  rfl

theorem ofInt_sub {m n : Int} (hm : m.natAbs < twoPow 53) (hn : n.natAbs < twoPow 53) :
    ofInt m - ofInt n = ofInt (m - n) := by
  rw [ofInt_whole hm, ofInt_whole hn]
  rfl

theorem clampToInt_ofInt {n lo hi : Int} (h : n.natAbs < twoPow 53) (hlo : lo ≤ n) (hhi : n ≤ hi) :
    (ofInt n).clampToInt lo hi = n := by
  rw [ofInt_whole h, clampToInt]
  omega

/-- The whole part as a 64-bit integer, the nearest one when it is too large. -/
def toInt64 (x : Binary64) : Int := x.clampToInt minInt64 maxInt64

theorem toInt64_ofInt {n : Int} (h : n.natAbs < twoPow 53) : (ofInt n).toInt64 = n :=
  have h53 := twoPow_53
  clampToInt_ofInt h (by simp only [minInt64]; omega) (by simp only [maxInt64]; omega)

theorem toInt?_ofInt {n : Int} (h : n.natAbs < twoPow 53) : (ofInt n).toInt? = some n := by
  rw [ofInt_whole h, toInt?]

theorem isZero_ofInt {n : Int} (h : n.natAbs < twoPow 53) : (ofInt n).isZero = decide (n = 0) := by
  rw [ofInt_whole h]
  rfl

end TensorLowering.Numeric.Binary64
