import TensorLowering.Graph.Error
import TensorLowering.HostOp.Geometry

/-!
# Errors of lowering

A rule that does not apply to an operator declines it and gives a reason; the operator then stays as
it is. The other errors say that the operator or the program is wrong, and end the conversion.
-/
namespace TensorLowering

/-- Why a rule leaves an operator alone. -/
inductive DeclineReason where
  | noRule (kind : HostKind)
  | otherKind (expected : HostKind)
  | productRanks (lhs rhs : Nat)
  | notMatrices
  | notBatches
  | mixedTypes (operator : String) (lhs rhs : DType)
  | mixedQuantization (operator : String)
  | biasType (dtype : DType)
  | biasRank (rank : Nat)
  | inputRank (rank : Nat)
  | weightRank (weight input : Nat)
  | geometry (error : GeometryError)
  | groupedTransposed
  | emptyOutput (axis : Nat)
  | paddingPastReach (axis : Nat)
  | depthwiseRank
  | quantizedDepthwiseRank
  | groupedRank
  | notConstant (attr : String)
  | axisOutOfRange (attr : String) (axis : Int) (rank : Nat)
  | factorRank (factor rank expanded total : Nat)
  | factorTypes
  | dynamicUnroll
  | unrollTooLarge (size limit : Nat)
  deriving DecidableEq

def DeclineReason.message : DeclineReason → String
  | .noRule kind => "no rule for " ++ kind.name
  | .otherKind expected => "expected " ++ expected.name
  | .productRanks lhs rhs => s!"matmul of ranks {lhs} and {rhs}"
  | .notMatrices => "expected both operands of mm to be rank 2"
  | .notBatches => "expected both operands of bmm to be rank 3"
  | .mixedTypes operator lhs rhs =>
      operator ++ " with different input element types (" ++ lhs.name ++ " and " ++ rhs.name ++ ")"
  | .mixedQuantization operator => operator ++ " with mixed quantization"
  | .biasType dtype => "quantized convolution needs an si32 bias, got " ++ dtype.name
  | .biasRank rank => s!"expected a rank-1 bias, got rank {rank}"
  | .inputRank rank => s!"only 1-D to 3-D convolutions are supported, got input rank {rank}"
  | .weightRank weight input => s!"weight rank {weight} does not match input rank {input}"
  | .geometry error => error.message
  | .groupedTransposed => "grouped transposed convolution"
  | .emptyOutput axis => s!"empty output along spatial axis {axis}"
  | .paddingPastReach axis =>
      s!"transposed convolution padding exceeds the kernel reach on axis {axis}"
  | .depthwiseRank => "depthwise convolution is only supported in 1-D and 2-D"
  | .quantizedDepthwiseRank => "quantized depthwise convolution is only supported in 2-D"
  | .groupedRank => "grouped convolution is only supported in 2-D"
  | .notConstant attr => attr ++ " must be constant"
  | .axisOutOfRange attr axis rank => attr ++ s!" {axis} out of range for rank {rank}"
  | .factorRank factor rank expanded total =>
      s!"input {factor} has rank {rank} with {expanded} expanded axes, expected total rank {total}"
  | .factorTypes => "trilinear operands must share an element type"
  | .dynamicUnroll => "unroll axis size must be static"
  | .unrollTooLarge size limit => s!"unroll axis size {size} exceeds the limit of {limit}"

inductive LowerError where
  | noMatch (reason : DeclineReason)
  | staticShapeMismatch (what : String) (lhs rhs : Int)
  | invalidElementType (dtype : DType)
  | graph (error : GraphError)
  /-- The quotient of two known sizes is too large. -/
  | remainderOverflow
  /-- A convolution kernel has a stride without a dilation beside it. -/
  | kernelWithoutIndexing (kernel : String)
  /-- The schedule names a value that has no node. -/
  | danglingSchedule
  deriving DecidableEq

def LowerError.message : LowerError → String
  | .noMatch reason => "no match: " ++ reason.message
  | .staticShapeMismatch what lhs rhs =>
      "static shape mismatch in " ++ what ++ s!": {lhs} vs {rhs}"
  | .invalidElementType dtype =>
      "invalid element type " ++ dtype.name ++ ": expected a float or integer type"
  | .graph error => error.message
  | .remainderOverflow => "the remainder of the smallest integer by minus one overflows"
  | .kernelWithoutIndexing kernel => kernel ++ " has fewer dilations than strides"
  | .danglingSchedule => "the schedule names a value that has no node"

end TensorLowering
