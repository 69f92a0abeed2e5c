import TensorLowering.Graph.Basic

/-!
# Operands of host operators

A quantized operand is integer storage with a zero-point. The view of an operand looks through the
node that attaches the zero-point to the storage behind it.
-/
namespace TensorLowering

structure OperandInfo where
  value : ValueId
  type : TensorType
  zeroPoint : Option ValueId
  deriving DecidableEq

namespace OperandInfo

def isQuantized (x : OperandInfo) : Bool := x.zeroPoint.isSome

def rank (x : OperandInfo) : Nat := x.type.rank

def extract (g : Graph) (value : ValueId) : Except GraphError OperandInfo := do
  let node ← g.node value
  match node.op with
  | .makeQuantized storage _ zeroPoint =>
      return ⟨storage, ← g.tensorType storage, some zeroPoint⟩
  | _ => return ⟨value, ← g.tensorType value, none⟩

end OperandInfo

end TensorLowering
