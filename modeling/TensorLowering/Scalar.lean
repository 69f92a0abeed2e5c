import TensorLowering.DType
import TensorLowering.Numeric.Binary64

/-!
# Scalar constants
-/
namespace TensorLowering

open Numeric

inductive Scalar where
  | bool (value : Bool)
  | int (value : Int)
  | float (value : Binary64)
  deriving DecidableEq

namespace Scalar

/-- The additive identity of an element type. -/
def zero (t : DType) : Scalar :=
  if t.isFloat then .float 0 else if t = .bool then .bool false else .int 0

/-- The constant as a double; large integers are rounded. -/
def toDouble : Scalar → Binary64
  | .bool b => .ofInt (if b then 1 else 0)
  | .int n => .ofInt n
  | .float x => x

end Scalar

end TensorLowering
