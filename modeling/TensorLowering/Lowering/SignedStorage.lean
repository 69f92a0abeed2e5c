import TensorLowering.Build.Compute
import TensorLowering.Graph.Operand

/-!
# Signed storage of quantized operands

A quantized operand stands for the differences between its stored integers and its zero-point.
Reductions read signed storage. Unsigned storage is therefore shifted down by half its range, and
the zero-point with it, which leaves the differences as they are.
-/
namespace TensorLowering

/-- The shift that takes unsigned integers of the given width to signed ones. -/
def signShift (bits : Nat) : Int := -Numeric.twoPow (min (max bits 1) 64 - 1)

/-- The type to which every zero-point is truncated. -/
def zeroPointType : DType := .signed .w32

namespace OperandInfo

/-- Whether both operands are quantized. Reductions cannot read a pair of which only one is. -/
def bothQuantized (lhs rhs : OperandInfo) (operator : String) : Except LowerError Bool :=
  if lhs.isQuantized = rhs.isQuantized then .ok lhs.isQuantized
  else .error (.noMatch (.mixedQuantization operator))

/-- The operand with signed storage and a truncated zero-point. An operand that is not quantized is
left as it is. -/
def normalize (x : OperandInfo) : Build OperandInfo := do
  match x.zeroPoint with
  | none => return x
  | some zeroPoint =>
      let truncated ← Build.scalarCast zeroPoint zeroPointType
      let dtype := x.type.dtype
      if dtype.isUnsignedInteger then
        let offset := signShift dtype.bitWidth
        let shifted ← Build.scalarAddConst truncated offset zeroPointType
        let shift ← Build.scalar (.int offset) dtype.toSigned
        let storage ← Build.elementwise .add x.value shift dtype.toSigned
        let type ← Build.tensorType storage
        return ⟨storage, type, some shifted⟩
      else return { x with zeroPoint := some truncated }

def normalizePair (lhs rhs : OperandInfo) (operator : String) :
    Build (OperandInfo × OperandInfo) := do
  let _ ← Build.ofExcept (bothQuantized lhs rhs operator)
  let lhs ← lhs.normalize
  let rhs ← rhs.normalize
  return (lhs, rhs)

/-- The zero-points of a pair, when both operands are quantized. -/
def zeroPoints? (lhs rhs : OperandInfo) : Option (ValueId × ValueId) := do
  return (← lhs.zeroPoint, ← rhs.zeroPoint)

end OperandInfo

end TensorLowering
