import TensorLowering.Shape.Basic

/-!
# Broadcasting of declared shapes

The shape of an element-wise result, as far as it follows from the shapes of the operands. Shapes
are aligned on their last axes. Sizes that cannot agree leave the size of the result open.
-/
namespace TensorLowering

/-- The size to which two sizes stretch. An unknown size next to a known one other than one can
only be that size or one. -/
def Dim.broadcast : Dim → Dim → Dim
  | static 1, d => d
  | d, static 1 => d
  | static m, static n => if m = n then static m else dynamic
  | static m, dynamic => static m
  | dynamic, static n => static n
  | dynamic, dynamic => dynamic

namespace Shape

/-- The dimensions with axes of size one before them, up to the given rank. -/
def padded (s : Shape) (rank : Nat) : List Dim :=
  List.replicate (rank - s.rank) (.static 1) ++ s.dims

def broadcast (s t : Shape) : Shape :=
  let rank := max s.rank t.rank
  ⟨List.zipWith Dim.broadcast (s.padded rank) (t.padded rank)⟩

end Shape

end TensorLowering
