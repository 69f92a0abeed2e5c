import TensorLowering.Build.Layout
import TensorLowering.Shape.Broadcast

/-!
# Computations on tensors
-/
namespace TensorLowering.Build

open Numeric

/-- Combines two tensors, or a tensor and a scalar, element by element. -/
def elementwise (op : ElementwiseOp) (lhs rhs : ValueId) (dtype : DType) : Build ValueId := do
  let type ← tensorType lhs
  let shape := match ← query (·.typeOf rhs) with
    | .tensor other => type.shape.broadcast other.shape
    | _ => type.shape
  createTensor (.elementwise op lhs rhs) dtype shape

/-- Sums along an axis, which stays with size one. -/
def sum (input : ValueId) (axis : Nat) : Build ValueId := do
  let type ← tensorType input
  if axis < type.rank then
    createTensor (.sum input axis) type.dtype ⟨type.shape.dims.set axis (.static 1)⟩
  else invalidAxis axis type.rank

/-- Converts the elements to another type. -/
def convert (input : ValueId) (dtype : DType) : Build ValueId := do
  let type ← tensorType input
  if type.dtype = dtype then return input
  else createTensor (.convert input) dtype type.shape

/-- The first axis on which two static sizes differ, with the sizes. -/
def staticMismatch? (sizes targets : List Dim) : Option (Nat × Nat × Nat) :=
  (sizes.zip targets).zipIdx.findSome? fun entry =>
    match entry with
    | ((.static m, .static n), axis) => if m = n then none else some (axis, m, n)
    | _ => none

/-- Declares a tensor to have exactly the given type, which may differ from its own only in sizes
that one of them leaves open. -/
def cast (input : ValueId) (target : TensorType) : Build ValueId := do
  let type ← tensorType input
  if type.dtype ≠ target.dtype then fail (.graph (.dtypeMismatch target.dtype type.dtype))
  else if type.rank ≠ target.rank then fail (.graph (.shapeMismatch target.shape type.shape))
  else match staticMismatch? type.shape.dims target.shape.dims with
    | some (axis, m, n) =>
        fail (.staticShapeMismatch s!"result axis {axis}" (clampNat m) (clampNat n))
    | none =>
        if type = target then return input
        else create (.cast input) (.tensor target)

/-- Converts the elements to those of the given type, then declares that type. -/
def finish (value : ValueId) (target : TensorType) : Build ValueId := do
  let converted ← convert value target.dtype
  cast converted target

/-- Fails unless the operand has as many axes as the map that addresses it has results. -/
def checkOperand (kernel : String) (operand : Nat) (value : ValueId) (map : AffineMap) :
    Build Unit := do
  let type ← tensorType value
  if type.rank = map.results.length then return
  else fail (.graph (.operandRank kernel operand map.results.length type.rank))

/-- Runs a reduction, adding to the elements of `init`. -/
def reduce (spec : ReductionSpec) (lhs rhs : ValueId) (zeroPoints : Option (ValueId × ValueId))
    (init : ValueId) : Build ValueId := do
  match spec.indexing? with
  | none => fail (.kernelWithoutIndexing spec.name)
  | some indexing =>
      ([lhs, rhs, init].zip indexing.maps).zipIdx.forM fun ((value, map), operand) =>
        checkOperand spec.name operand value map
      let type ← tensorType init
      create (.reduce spec lhs rhs zeroPoints init) (.tensor type)

end TensorLowering.Build
