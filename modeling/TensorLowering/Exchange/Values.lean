import TensorLowering.Eval.Value
import TensorLowering.Exchange.Types

/-!
# Exchange of run-time values

Arrays and tensors are written with their shape and their elements in row-major order. What is read
back as an array or a tensor has to fill its shape, and elements of a tensor are rounded.
-/
namespace TensorLowering

open Numeric

def NdArray.toTree (a : NdArray Binary64) : Tree :=
  .record [("shape", encode a.shape), ("data", encode a.data.toList)]

def Tensor.toTree (t : Tensor) : Tree :=
  .record
    [("dtype", encode t.dtype), ("shape", encode t.shape), ("data", encode t.data.data.toList)]

def Value.toTree : Value → Tree
  | index n => .record [("index", .int n)]
  | scalar dtype x =>
      .record [("scalar", .record [("dtype", encode dtype), ("value", encode x)])]
  | tensor t => .record [("tensor", t.toTree)]
  | unit => .text "unit"

def NdArray.ofTree? (t : Tree) : Option (Except ArrayError (NdArray Binary64)) := do
  match ← t.entries? ["shape", "data"] [] with
  | [shape, data] =>
      let shape ← decode? shape
      let data : List Binary64 ← decode? data
      match NdArray.ofData? shape data.toArray with
      | some a => return .ok a
      | none => return .error (.elementCount data.length shape)
  | _ => none

def Tensor.ofTree? (t : Tree) : Option (Except ArrayError Tensor) := do
  match ← t.entries? ["dtype", "shape", "data"] [] with
  | [dtype, shape, data] =>
      let data : List Binary64 ← decode? data
      return Tensor.ofData (← decode? dtype) (← decode? shape) data.toArray
  | _ => none

end TensorLowering
