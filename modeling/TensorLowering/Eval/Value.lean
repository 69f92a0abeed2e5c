import TensorLowering.Element
import TensorLowering.Eval.Error
import TensorLowering.NdArray.Basic

/-!
# Run-time values

A tensor is an array of elements that its element type holds. A value is a run-time index, a scalar,
a tensor, or nothing.
-/
namespace TensorLowering

open Numeric

structure Tensor where
  dtype : DType
  data : NdArray Binary64
  rounded : ∀ x ∈ data.data, dtype.round x = x
  deriving DecidableEq

namespace Tensor

/-- The tensor with every element rounded to the element type. -/
def ofArray (dtype : DType) (data : NdArray Binary64) : Tensor where
  dtype := dtype
  data := data.map dtype.round
  rounded := by
    intro x hx
    obtain ⟨y, -, rfl⟩ := Array.mem_map.1 hx
    exact dtype.round_round y

/-- The tensor of the given elements in row-major order. -/
def ofData (dtype : DType) (shape : List Nat) (data : Array Binary64) : Except ArrayError Tensor :=
  match NdArray.ofData? shape data with
  | some a => .ok (ofArray dtype a)
  | none => .error (.elementCount data.size shape)

def shape (t : Tensor) : List Nat := t.data.shape

@[simp] theorem dtype_ofArray (dtype : DType) (data : NdArray Binary64) :
    (ofArray dtype data).dtype = dtype := rfl

@[simp] theorem shape_ofArray (dtype : DType) (data : NdArray Binary64) :
    (ofArray dtype data).shape = data.shape := rfl

/-- A tensor is rounded already. -/
theorem ofArray_data (t : Tensor) : ofArray t.dtype t.data = t := by
  obtain ⟨dtype, ⟨shape, data, hsize⟩, hrounded⟩ := t
  have hid : data.map dtype.round = data.map id := Array.map_congr_left hrounded
  simp [ofArray, NdArray.map, hid]

end Tensor

inductive Value where
  | index (n : Int)
  | scalar (dtype : DType) (x : Binary64)
  | tensor (t : Tensor)
  | unit
  deriving DecidableEq

namespace Value

def kind : Value → String
  | index _ => "index"
  | scalar .. => "scalar"
  | tensor _ => "tensor"
  | unit => "unit"

/-- The scalar rounded to its element type. -/
def roundedScalar (dtype : DType) (x : Binary64) : Value := scalar dtype (dtype.round x)

def toTensor : Value → Except EvalError Tensor
  | tensor t => .ok t
  | other => .error (.type (.kind "tensor" other.kind))

end Value

end TensorLowering
