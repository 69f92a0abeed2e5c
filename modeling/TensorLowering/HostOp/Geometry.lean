import TensorLowering.HostOp.Basic

/-!
# Convolution geometry

The attributes of a convolution with every one of them known, and the sizes that follow from them.
A standard convolution visits the multiples of the stride at which the dilated kernel still lies
inside the padded input. A transposed one spreads the input over a larger buffer and runs over that
buffer without padding.
-/
namespace TensorLowering

/-- Why the attributes of a convolution give no geometry. -/
inductive GeometryError where
  | nonConstant (attr : String)
  | wrongLength (attr : String) (expected got : Nat)
  | outOfRange (attr : String) (value : Int)
  deriving DecidableEq

def GeometryError.message : GeometryError → String
  | .nonConstant attr => attr ++ " must be a compile-time constant"
  | .wrongLength attr expected got => attr ++ s!" has {got} entries, expected {expected}"
  | .outOfRange attr value => attr ++ s!" value {value} out of range"

/-- The number of window positions along one axis, if there are any. -/
def convOutputSize? (input kernel padding stride dilation : Int) : Option Int :=
  if stride < 1 then none
  else
    let out := (input + 2 * padding - dilation * (kernel - 1) - 1) / stride + 1
    if 0 < out then some out else none

/-- The size along one axis of a transposed convolution, if it is positive. -/
def convTransposeOutputSize? (input kernel padding stride dilation outputPadding : Int) :
    Option Int :=
  let out := (input - 1) * stride - 2 * padding + dilation * (kernel - 1) + outputPadding + 1
  if 0 < out then some out else none

/-- The geometry of one spatial axis. -/
structure AxisGeometry where
  padding : Int
  stride : Int
  dilation : Int
  outputPadding : Int
  transposed : Bool
  deriving DecidableEq

namespace AxisGeometry

def outputSize? (g : AxisGeometry) (input kernel : Int) : Option Int :=
  if g.transposed then
    convTransposeOutputSize? input kernel g.padding g.stride g.dilation g.outputPadding
  else convOutputSize? input kernel g.padding g.stride g.dilation

/-- Where a transposed convolution places its input inside the larger buffer. -/
def transposedOffset (g : AxisGeometry) (kernel : Int) : Int :=
  (kernel - 1) * g.dilation - g.padding

/-- The size of the buffer over which a transposed convolution runs. -/
def transposedBufferSize (g : AxisGeometry) (input kernel : Int) : Int :=
  2 * g.transposedOffset kernel + ((input - 1) * g.stride + 1) + g.outputPadding

end AxisGeometry

/-- The geometry of all spatial axes: one entry per axis in each list. -/
structure ConvGeometry where
  padding : List Int
  stride : List Int
  dilation : List Int
  outputPadding : List Int
  groups : Int
  transposed : Bool
  deriving DecidableEq

namespace ConvGeometry

def spatialRank (g : ConvGeometry) : Nat := g.stride.length

def axis? (g : ConvGeometry) (i : Nat) : Option AxisGeometry := do
  let padding ← g.padding[i]?
  let stride ← g.stride[i]?
  let dilation ← g.dilation[i]?
  let outputPadding ← g.outputPadding[i]?
  return ⟨padding, stride, dilation, outputPadding, g.transposed⟩

/-- The geometry of each spatial axis, outermost first. -/
def axes (g : ConvGeometry) : List AxisGeometry := (List.range g.spatialRank).filterMap g.axis?

/-- A constant attribute. -/
def constant {α : Type} (name : String) (a : Attr α) : Except GeometryError α :=
  match a with
  | .const x => .ok x
  | .dynamic _ => .error (.nonConstant name)

/-- A constant attribute with one entry per spatial axis, none of them below the least. -/
def entries (name : String) (a : Attr (List Int)) (spatialRank : Nat) (least : Int) :
    Except GeometryError (List Int) := do
  let values ← constant name a
  if values.length ≠ spatialRank then
    throw (.wrongLength name spatialRank values.length)
  match values.find? (· < least) with
  | some value => throw (.outOfRange name value)
  | none => return values

/-- The geometry of a convolution over the given number of spatial axes. -/
def ofConvolution (op : Convolution) (spatialRank : Nat) : Except GeometryError ConvGeometry := do
  let transposed ← constant "transposed" op.transposed
  let stride ← entries "stride" op.stride spatialRank 1
  let dilation ← entries "dilation" op.dilation spatialRank 1
  let padding ← entries "padding" op.padding spatialRank 0
  let outputPadding ← entries "output_padding" op.outputPadding spatialRank 0
  let groups ← constant "groups" op.groups
  if groups < 1 then
    throw (.outOfRange "groups" groups)
  return { padding, stride, dilation, outputPadding, groups, transposed }

end ConvGeometry

end TensorLowering
