import TensorLowering.Text

/-!
# Shapes

A dimension is a known size, or a size that is only known when the program runs. A shape is the
list of the dimensions of a tensor, outermost first.
-/
namespace TensorLowering

inductive Dim where
  | static (size : Nat)
  | dynamic
  deriving DecidableEq, Hashable

namespace Dim

def static? : Dim → Option Nat
  | static n => some n
  | dynamic => none

def isStatic : Dim → Bool
  | static _ => true
  | dynamic => false

/-- The product of two sizes is known when both are. -/
def mul : Dim → Dim → Dim
  | static m, static n => static (m * n)
  | _, _ => dynamic

def prod (dims : List Dim) : Dim := dims.foldl mul (static 1)

def render : Dim → String
  | static n => toString n
  | dynamic => "?"

/-- The long form, as it appears in descriptions of a type. -/
def describe : Dim → String
  | static n => "Static(" ++ toString n ++ ")"
  | dynamic => "Dynamic"

end Dim

structure Shape where
  dims : List Dim
  deriving DecidableEq, Hashable

namespace Shape

/-- The shape of a tensor with a single element and no axes. -/
def scalar : Shape := ⟨[]⟩

def ofSizes (sizes : List Nat) : Shape := ⟨sizes.map .static⟩

def rank (s : Shape) : Nat := s.dims.length

def isScalar (s : Shape) : Bool := s.dims.isEmpty

def isStatic (s : Shape) : Bool := s.dims.all Dim.isStatic

def dynamicCount (s : Shape) : Nat := s.dims.countP (!·.isStatic)

/-- The number of elements, when every size is known. -/
def numElements? (s : Shape) : Option Nat := (Dim.prod s.dims).static?

/-- The sizes, when all of them are known. -/
def sizes? (s : Shape) : Option (List Nat) := s.dims.mapM Dim.static?

def render (s : Shape) : String := "x".intercalate (s.dims.map Dim.render)

def describe (s : Shape) : String :=
  "Shape(" ++ Text.bracketed (s.dims.map Dim.describe) ++ ")"

@[simp] theorem rank_ofSizes (sizes : List Nat) : (ofSizes sizes).rank = sizes.length := by
  simp [ofSizes, rank]

end Shape

end TensorLowering
