import TensorLowering.Lowering.Convolution.Paths
import TensorLowering.Lowering.Rule

/-!
# Rule for convolutions

The windows of the input are combined with the weight by one of the kernels, on top of the bias.
-/
namespace TensorLowering

open Build

namespace ConvPlan

/-- The value around the input: the zero-point of a quantized input, so that it stands for zero. -/
def padding (p : ConvPlan) : Build ValueId :=
  let dtype := p.input.type.dtype
  match p.input.zeroPoint with
  | some zeroPoint => scalarCast zeroPoint dtype
  | none => scalar (.zero dtype) dtype

/-- The weight of a transposed convolution with filters before channels, and every kernel axis
reversed. -/
def reversedWeight (p : ConvPlan) : Build ValueId := do
  let spatial := List.range' 2 p.spatialRank
  let swapped ← transpose p.weight.value ⟨1 :: 0 :: spatial⟩
  flip swapped spatial

/-- The tensor to which products are added: the bias along the channel axis, or zero. -/
def initial (p : ConvPlan) (bias : Option ValueId) (sizes : List Size) : Build ValueId := do
  match bias with
  | none => zeros sizes p.accumulator
  | some bias =>
      let type ← tensorType bias
      if type.rank ≠ 1 then decline (.biasRank type.rank)
      else
        let bias ← convert bias p.accumulator
        broadcast bias sizes ((List.range sizes.length).filter (· ≠ 1))

end ConvPlan

namespace Rule

def lowerConvolution (config : LoweringConfig) (op : Convolution) (result : TensorType) :
    Build ValueId := do
  let plan ← ConvPlan.ofConvolution op result
  let input ← ConvSizes.read plan.input.value plan.spatialRank
  let weight ← ConvSizes.read plan.weight.value plan.spatialRank
  let groups ← index plan.geometry.groups
  requireDivisible input.channels groups "groups must divide input channel size evenly"
  requireDivisible weight.outer groups "groups must divide weight batch size evenly"
  let padding ← plan.padding
  if plan.geometry.transposed then
    let kernel ← plan.reversedWeight
    let (buffer, spatial) ← plan.spreadInput input weight padding
    let init ← plan.initial op.bias (input.outer :: weight.channels :: spatial)
    let value ← plan.run (plan.path config input weight) buffer kernel init
    finish value result
  else
    let (buffer, spatial) ← plan.padInput input weight padding
    let init ← plan.initial op.bias (input.outer :: weight.outer :: spatial)
    let value ← plan.run (plan.path config input weight) buffer plan.weight.value init
    finish value result

def convolution : Rule where
  name := "convolution"
  kind := .convolution
  apply config op result :=
    match op with
    | .convolution op => lowerConvolution config op result
    | _ => decline (.otherKind .convolution)

end Rule

end TensorLowering
