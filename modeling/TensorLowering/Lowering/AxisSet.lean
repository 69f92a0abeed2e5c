import TensorLowering.Lowering.Error
import TensorLowering.Shape.Axis

/-!
# Sets of axes

Attributes list axes in any order, more than once, and counted from either end. A rule works on the
set of the positions named, in ascending order.
-/
namespace TensorLowering

/-- The value of an attribute that has to be a constant. -/
def Attr.require {α : Type} (a : Attr α) (name : String) : Except LowerError α :=
  match a with
  | .const x => .ok x
  | .dynamic _ => .error (.noMatch (.notConstant name))

namespace Axis

def require (name : String) (rank : Nat) (axis : Int) : Except LowerError Nat :=
  match resolve? axis rank with
  | some position => .ok position
  | none => .error (.noMatch (.axisOutOfRange name axis rank))

/-- The positions among the axes of a tensor that a list of axes names. -/
def requireSet (name : String) (rank : Nat) (axes : List Int) : Except LowerError (List Nat) := do
  let positions ← axes.mapM (require name rank)
  return (List.range rank).filter (positions.contains ·)

end Axis

end TensorLowering
