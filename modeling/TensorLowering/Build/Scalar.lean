import TensorLowering.Build.Basic

/-!
# Scalars and guards
-/
namespace TensorLowering.Build

def scalar (value : Scalar) (dtype : DType) : Build ValueId :=
  create (.constant value) (.scalar dtype)

/-- A scalar converted to another type, truncated where that type has integers. -/
def scalarCast (value : ValueId) (dtype : DType) : Build ValueId :=
  create (.scalarCast value) (.scalar dtype)

def scalarAddConst (value : ValueId) (n : Int) (dtype : DType) : Build ValueId := do
  let rhs ← scalar (.int n) dtype
  create (.arith .add value rhs) (.scalar dtype)

/-- A condition that is checked when the program runs. -/
def guard (cond : GuardCond) (message : String) : Build ValueId :=
  create (.guard ⟨cond, message⟩) .unit

end TensorLowering.Build
