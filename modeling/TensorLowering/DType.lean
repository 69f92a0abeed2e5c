/-!
# Element types

The types of tensor elements and of scalars. Each has a short name, used where a type is printed
inside a tensor type, and a full name, used where a type is described on its own.
-/
namespace TensorLowering

inductive IntWidth where
  | w8 | w16 | w32 | w64
  deriving DecidableEq, Hashable

def IntWidth.bits : IntWidth → Nat
  | .w8 => 8
  | .w16 => 16
  | .w32 => 32
  | .w64 => 64

inductive DType where
  | bool
  | signed (width : IntWidth)
  | unsigned (width : IntWidth)
  | float16
  | float32
  | float64
  | bfloat16
  | complex64
  | complex128
  deriving DecidableEq, Hashable

namespace DType

/-- Every element type, narrow integers first. -/
def all : List DType :=
  [bool, signed .w8, signed .w16, signed .w32, signed .w64,
    unsigned .w8, unsigned .w16, unsigned .w32, unsigned .w64,
    float16, float32, float64, bfloat16, complex64, complex128]

theorem mem_all (t : DType) : t ∈ all := by
  cases t with
  | signed w => cases w <;> decide
  | unsigned w => cases w <;> decide
  | _ => decide

/-- The number of bytes that one element takes. -/
def sizeBytes : DType → Nat
  | bool => 1
  | signed w | unsigned w => w.bits / 8
  | float16 | bfloat16 => 2
  | float32 => 4
  | float64 | complex64 => 8
  | complex128 => 16

/-- A truth value takes one bit, any other element all the bits of its bytes. -/
def bitWidth : DType → Nat
  | bool => 1
  | t => 8 * t.sizeBytes

def isFloat : DType → Bool
  | float16 | float32 | float64 | bfloat16 => true
  | _ => false

def isInteger : DType → Bool
  | signed _ | unsigned _ => true
  | _ => false

def isUnsignedInteger : DType → Bool
  | unsigned _ => true
  | _ => false

/-- Elements of this type can feed a reduction. -/
def isNumeric (t : DType) : Bool := t.isFloat || t.isInteger

/-- Every type but truth values and the unsigned integers has negative elements. -/
def isSigned : DType → Bool
  | bool | unsigned _ => false
  | _ => true

/-- The signed integers of the same width; other types are their own. -/
def toSigned : DType → DType
  | unsigned w => signed w
  | t => t

/-- The wider type in which products of this type are summed, for the types that have one. -/
def accumulator? : DType → Option DType
  | float16 | bfloat16 | float32 => some float32
  | float64 => some float64
  | signed .w8 | unsigned .w8 => some (signed .w32)
  | signed _ | unsigned _ => some (signed .w64)
  | bool | complex64 | complex128 => none

def name : DType → String
  | bool => "i1"
  | signed w => "si" ++ toString w.bits
  | unsigned w => "ui" ++ toString w.bits
  | float16 => "f16"
  | float32 => "f32"
  | float64 => "f64"
  | bfloat16 => "bf16"
  | complex64 => "complex<f32>"
  | complex128 => "complex<f64>"

def fullName : DType → String
  | bool => "Bool"
  | signed w => "Int" ++ toString w.bits
  | unsigned w => "UInt" ++ toString w.bits
  | float16 => "Float16"
  | float32 => "Float32"
  | float64 => "Float64"
  | bfloat16 => "BFloat16"
  | complex64 => "Complex64"
  | complex128 => "Complex128"

@[simp] theorem toSigned_toSigned (t : DType) : t.toSigned.toSigned = t.toSigned := by
  cases t <;> rfl

@[simp] theorem bitWidth_toSigned (t : DType) : t.toSigned.bitWidth = t.bitWidth := by
  cases t <;> rfl

theorem isSome_accumulator? (t : DType) : t.accumulator?.isSome = t.isNumeric := by
  cases t with
  | signed w => cases w <;> rfl
  | unsigned w => cases w <;> rfl
  | _ => rfl

end DType

end TensorLowering
