import TensorLowering.Build.Basic

/-!
# Rules

A rule lowers host operators of one kind. Given an operator and the declared type of its result,
it describes the nodes that replace the operator and names the value that stands for the result. The
configuration of lowering chooses between the ways in which a rule may do so.
-/
namespace TensorLowering

structure LoweringConfig where
  /-- Sizes of a matrix product that must agree and are not known are taken to agree: no guard
  checks them. -/
  assumeEqualSizes : Bool
  /-- A convolution with one channel per group uses a depthwise kernel, not the grouped one. -/
  preferDepthwise : Bool
  /-- The largest size of an axis that is unrolled. -/
  maxUnroll : Nat
  deriving DecidableEq

def LoweringConfig.standard : LoweringConfig := ⟨false, true, 4096⟩

structure Rule where
  name : String
  kind : HostKind
  apply : LoweringConfig → HostOp → TensorType → Build ValueId

end TensorLowering
