import TensorLowering.Lowering.Convolution.Plan

/-!
# Windows of a convolution

The buffer over which the windows of a convolution move, and the sizes of the output. A standard
convolution moves over its padded input. A transposed one writes its input, spread out by the
strides, into a larger buffer and moves over that one position at a time.
-/
namespace TensorLowering

open Build

/-- The sizes of the two outer axes and of the spatial axes. -/
structure ConvSizes where
  outer : Size
  channels : Size
  spatial : List Size

def ConvSizes.read (tensor : ValueId) (spatialRank : Nat) : Build ConvSizes := do
  let outer ← dim tensor 0
  let channels ← dim tensor 1
  let spatial ← (List.range' 2 spatialRank).mapM (dim tensor)
  return { outer, channels, spatial }

namespace AxisGeometry

/-- How far a kernel reaches beyond its first position. -/
def reach (g : AxisGeometry) (kernel : Size) : Build Size := do
  mulConst (← addConst kernel (-1)) g.dilation

/-- The size of the output when a size is unknown. -/
def dynamicOutput (g : AxisGeometry) (input kernel : Size) : Build Size := do
  if g.transposed then
    let spread ← mulConst (← addConst input (-1)) g.stride
    let reach ← g.reach kernel
    addConst (← add spread reach) (g.outputPadding + 1 - 2 * g.padding)
  else
    let reach ← g.reach kernel
    let padded ← addConst input (2 * g.padding - 1)
    let span ← sub padded reach
    let stride ← index g.stride
    addConst (← floorDiv span stride) 1

/-- The size of the output along a spatial axis. -/
def output (g : AxisGeometry) (axis : Nat) (input kernel : Size) : Build Size := do
  match input.known, kernel.known with
  | some n, some k =>
      match g.outputSize? n k with
      | some size => index size
      | none => decline (.emptyOutput axis)
  | _, _ => g.dynamicOutput input kernel

/-- Where the spread input begins in the buffer of a transposed convolution, and the size of that
buffer. -/
def placement (g : AxisGeometry) (input kernel : Size) : Build (Size × Size) := do
  match input.known, kernel.known with
  | some n, some k =>
      let offset ← index (g.transposedOffset k)
      let size ← index (g.transposedBufferSize n k)
      return (offset, size)
  | _, _ =>
      let offset ← addConst (← g.reach kernel) (-g.padding)
      let spread ← mulConst (← addConst input (-1)) g.stride
      let margins ← mulConst offset 2
      let size ← addConst (← add margins spread) (1 + g.outputPadding)
      return (offset, size)

end AxisGeometry

/-- One spatial axis of a transposed convolution. -/
structure SpreadAxis where
  offset : Size
  size : Size
  output : Size

namespace ConvPlan

/-- Each spatial axis with its number, its geometry, and the sizes of input and kernel. -/
def axes (p : ConvPlan) (input kernel : List Size) :
    List ((AxisGeometry × Size × Size) × Nat) :=
  (p.geometry.axes.zip (input.zip kernel)).zipIdx

/-- The input with copies of the padding value around it, and the sizes of the output. -/
def padInput (p : ConvPlan) (input kernel : ConvSizes) (value : ValueId) :
    Build (ValueId × List Size) := do
  let edges := [0, 0] ++ p.geometry.padding
  let padded ← pad p.input.value edges edges value
  let output ← (p.axes input.spatial kernel.spatial).mapM fun ((g, n, k), axis) =>
    g.output axis n k
  return (padded, output)

/-- The padding of a transposed convolution takes away from the reach of its kernel, and can take
no more than there is. -/
def spreadAxis (g : AxisGeometry) (axis : Nat) (input kernel : Size) : Build SpreadAxis := do
  if kernel.known.any fun k => decide (g.transposedOffset k < 0) then
    decline (.paddingPastReach axis)
  else
    let (offset, size) ← g.placement input kernel
    let output ← g.output axis input kernel
    return { offset, size, output }

/-- The input spread out in a buffer of the padding value, and the sizes of the output. -/
def spreadInput (p : ConvPlan) (input kernel : ConvSizes) (value : ValueId) :
    Build (ValueId × List Size) := do
  let zero ← index 0
  let axes ← (p.axes input.spatial kernel.spatial).mapM fun ((g, n, k), axis) =>
    spreadAxis g axis n k
  let sizes := input.outer :: input.channels :: axes.map SpreadAxis.size
  let buffer ← filled sizes value p.input.type.dtype
  let spread ← insertSlice p.input.value buffer (zero :: zero :: axes.map SpreadAxis.offset)
    ([1, 1] ++ p.geometry.stride)
  return (spread, axes.map SpreadAxis.output)

end ConvPlan

end TensorLowering
