import TensorLowering.HostOp.Basic
import TensorLowering.Op.Arith
import TensorLowering.Reduction.Spec
import TensorLowering.Scalar
import TensorLowering.Shape.Permutation
import TensorLowering.Shape.Reassociation

/-!
# Operations

The operations of a program: host operators, which lowering consumes, and the index arithmetic,
guards, layout operations and reductions that it produces. Operations whose result is not implied
by their operands (conversions, constants, filled tensors) take it from the type of their node.
-/
namespace TensorLowering

open Numeric

inductive ElementwiseOp where
  | add
  | mul
  deriving DecidableEq

/-- The conditions that a guard asserts of run-time sizes. -/
inductive GuardCond where
  | equal (lhs rhs : ValueId)
  | divisible (value divisor : ValueId)
  | broadcastable (size target : ValueId)
  deriving DecidableEq

structure Guard where
  cond : GuardCond
  message : String
  deriving DecidableEq

inductive Op where
  | input (name : String)
  | constant (value : Scalar)
  | makeQuantized (storage : ValueId) (scale : Binary64) (zeroPoint : ValueId)
  | host (op : HostOp)
  | dim (source : ValueId) (axis : Nat)
  | arith (op : ArithOp) (lhs rhs : ValueId)
  | scalarCast (value : ValueId)
  | guard (guard : Guard)
  | fill (sizes : List ValueId) (value : ValueId)
  | broadcast (input : ValueId) (sizes : List ValueId) (added : List Nat)
  | broadcastTo (input : ValueId) (sizes : List ValueId)
  | transpose (input : ValueId) (perm : Permutation)
  | flip (input : ValueId) (axes : List Nat)
  | expandShape (input : ValueId) (groups : Reassociation) (sizes : List ValueId)
  | collapseShape (input : ValueId) (groups : Reassociation)
  | pad (input : ValueId) (low high : List Int) (value : ValueId)
  | insertSlice (source dest : ValueId) (offsets : List ValueId) (strides : List Int)
  | narrow (input : ValueId) (axis : Nat) (start : Int) (len : Nat)
  | squeeze (input : ValueId) (axis : Nat)
  | unsqueeze (input : ValueId) (axis : Nat)
  | elementwise (op : ElementwiseOp) (lhs rhs : ValueId)
  | sum (input : ValueId) (axis : Nat)
  | convert (input : ValueId)
  | cast (input : ValueId)
  | reduce (spec : ReductionSpec) (lhs rhs : ValueId) (zeroPoints : Option (ValueId × ValueId))
      (init : ValueId)
  deriving DecidableEq

def Op.name : Op → String
  | .input .. => "input"
  | .constant .. => "constant"
  | .makeQuantized .. => "make_quantized"
  | .host .. => "linear"
  | .dim .. => "dim"
  | .arith .. => "arith"
  | .scalarCast .. => "scalar_cast"
  | .guard .. => "guard"
  | .fill .. => "fill"
  | .broadcast .. => "broadcast"
  | .broadcastTo .. => "broadcast_to"
  | .transpose .. => "transpose"
  | .flip .. => "flip"
  | .expandShape .. => "expand_shape"
  | .collapseShape .. => "collapse_shape"
  | .pad .. => "pad"
  | .insertSlice .. => "insert_slice"
  | .narrow .. => "narrow"
  | .squeeze .. => "squeeze"
  | .unsqueeze .. => "unsqueeze"
  | .elementwise .. => "elementwise"
  | .sum .. => "sum"
  | .convert .. => "convert"
  | .cast .. => "cast"
  | .reduce .. => "reduce"

end TensorLowering
