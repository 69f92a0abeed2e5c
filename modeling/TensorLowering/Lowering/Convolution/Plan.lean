import TensorLowering.Lowering.Agreement
import TensorLowering.Lowering.SignedStorage

/-!
# Plan of a convolution

The operands and the geometry of a convolution after every check that needs no sizes. Convolutions
over one to three spatial axes are supported.
-/
namespace TensorLowering

structure ConvPlan where
  input : OperandInfo
  weight : OperandInfo
  geometry : ConvGeometry
  accumulator : DType

namespace ConvPlan

open Build

def spatialRank (p : ConvPlan) : Nat := p.geometry.spatialRank

/-- The number of axes of the input, the weight and the output. -/
def rank (p : ConvPlan) : Nat := p.spatialRank + 2

def isQuantized (p : ConvPlan) : Bool := p.input.isQuantized

def zeroPoints? (p : ConvPlan) : Option (ValueId × ValueId) := p.input.zeroPoints? p.weight

/-- The reduction with the given kernel. The strides of a transposed convolution are spent when its
input is spread out. -/
def spec (p : ConvPlan) (variant : ConvVariant) : ReductionSpec :=
  let strides :=
    if p.geometry.transposed then List.replicate p.spatialRank 1 else p.geometry.stride
  .named (.conv
    { variant, strides, dilations := p.geometry.dilation, quantized := p.isQuantized })

/-- The bias of a quantized convolution has elements of 32 bits. -/
def requireBiasType (bias : Option ValueId) : Build Unit := do
  match bias with
  | none => return
  | some bias =>
      let type ← tensorType bias
      if type.dtype = .signed .w32 then return else decline (.biasType type.dtype)

def geometryOf (op : Convolution) (spatialRank : Nat) : Build ConvGeometry := do
  match ConvGeometry.ofConvolution op spatialRank with
  | .error e => decline (.geometry e)
  | .ok geometry =>
      if geometry.transposed && decide (1 < geometry.groups) then decline .groupedTransposed
      else return geometry

def ofConvolution (op : Convolution) (result : TensorType) : Build ConvPlan := do
  let input ← query (OperandInfo.extract · op.input)
  let weight ← query (OperandInfo.extract · op.weight)
  let quantized ← ofExcept (input.bothQuantized weight "convolution")
  if quantized then
    requireBiasType op.bias
  ofExcept input.type.dtype.requireNumeric
  ofExcept weight.type.dtype.requireNumeric
  ofExcept result.dtype.requireNumeric
  if input.rank < 3 ∨ 5 < input.rank then decline (.inputRank input.rank)
  else if weight.rank ≠ input.rank then decline (.weightRank weight.rank input.rank)
  else
    let geometry ← geometryOf op (input.rank - 2)
    let accumulator ← ofExcept input.type.dtype.accumulator
    let input ← input.normalize
    let weight ← weight.normalize
    return { input, weight, geometry, accumulator }

end ConvPlan

end TensorLowering
