import TensorLowering.Build.Compute
import TensorLowering.Lowering.AxisSet
import TensorLowering.Lowering.Rule

/-!
# Rule for flips
-/
namespace TensorLowering.Rule

open Build

def lowerFlip (op : Flip) (result : TensorType) : Build ValueId := do
  let dims ← ofExcept (op.dims.require "flip dims")
  let type ← tensorType op.input
  let axes ← ofExcept (Axis.requireSet "flip axis" type.rank dims)
  let value ← Build.flip op.input axes
  finish value result

def flip : Rule where
  name := "flip"
  kind := .flip
  apply _ op result :=
    match op with
    | .flip op => lowerFlip op result
    | _ => decline (.otherKind .flip)

end TensorLowering.Rule
