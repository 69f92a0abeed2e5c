import TensorLowering.DType
import TensorLowering.Shape.Basic

/-!
# Types of values

A value is a run-time index, a scalar element, a tensor, or nothing (the result of a guard).
-/
namespace TensorLowering

structure TensorType where
  dtype : DType
  shape : Shape
  deriving DecidableEq, Hashable

namespace TensorType

def rank (t : TensorType) : Nat := t.shape.rank

def withDType (t : TensorType) (dtype : DType) : TensorType := ⟨dtype, t.shape⟩

def render (t : TensorType) : String :=
  if t.shape.isScalar then "tensor<" ++ t.dtype.name ++ ">"
  else "tensor<" ++ t.shape.render ++ "x" ++ t.dtype.name ++ ">"

def describe (t : TensorType) : String :=
  "TensorType \x7b dtype: " ++ t.dtype.fullName ++ ", shape: " ++ t.shape.describe ++ " \x7d"

end TensorType

inductive ValueType where
  | index
  | scalar (dtype : DType)
  | tensor (type : TensorType)
  | unit
  deriving DecidableEq, Hashable

namespace ValueType

def tensor? : ValueType → Option TensorType
  | tensor t => some t
  | _ => none

def render : ValueType → String
  | index => "index"
  | scalar t => t.name
  | tensor t => t.render
  | unit => "()"

def describe : ValueType → String
  | index => "Index"
  | scalar t => "Scalar(" ++ t.fullName ++ ")"
  | tensor t => "Tensor(" ++ t.describe ++ ")"
  | unit => "Unit"

end ValueType

end TensorLowering
