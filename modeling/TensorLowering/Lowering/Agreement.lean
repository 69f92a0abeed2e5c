import TensorLowering.Build.Scalar
import TensorLowering.Build.Size

/-!
# Agreement of sizes and element types

Sizes that must agree are compared at once when both are known. Otherwise a guard compares them when
the program runs, and the construction goes on as if they agreed.
-/
namespace TensorLowering

open Numeric

namespace Build

/-- Requires two sizes to be equal. -/
def requireEqual (lhs rhs : Size) (what : String) : Build Unit := do
  match lhs.known, rhs.known with
  | some m, some n => if m = n then return else fail (.staticShapeMismatch what m n)
  | _, _ => discard (guard (.equal lhs.value rhs.value) ("mismatching " ++ what))

/-- Requires the first size to be a multiple of the second, which must not be zero. -/
def requireDivisible (size divisor : Size) (what : String) : Build Unit := do
  match size.known, divisor.known with
  | some n, some d =>
      if d ≠ 0 ∧ bounded? (n.tdiv d) = none then fail .remainderOverflow
      else if d ≠ 0 ∧ d ∣ n then return
      else fail (.staticShapeMismatch what n d)
  | _, _ => discard (guard (.divisible size.value divisor.value) ("invalid: " ++ what))

/-- The size to which two sizes stretch. A known size next to an unknown one is taken for the
result, unless it is one. -/
def broadcastSize (lhs rhs : Size) (axis : Nat) : Build Size := do
  let what := s!"incompatible batch dimension {axis}"
  if lhs.known.isSome ∧ lhs.known = rhs.known then return lhs
  else if lhs.isOne then return rhs
  else if rhs.isOne then return lhs
  else match lhs.known, rhs.known with
    | some m, some n => fail (.staticShapeMismatch what m n)
    | some _, none =>
        discard (guard (.broadcastable rhs.value lhs.value) what)
        return lhs
    | none, some _ =>
        discard (guard (.broadcastable lhs.value rhs.value) what)
        return rhs
    | none, none =>
        let size ← max lhs rhs
        discard (guard (.broadcastable lhs.value size.value) what)
        discard (guard (.broadcastable rhs.value size.value) what)
        return size

/-- The sizes to which two lists of sizes stretch, aligned on their ends. -/
def broadcastSizes (lhs rhs : List Size) : Build (List Size) := do
  let leftExcess := lhs.length - rhs.length
  let rightExcess := rhs.length - lhs.length
  let outer := lhs.take leftExcess ++ rhs.take rightExcess
  let pairs := (lhs.drop leftExcess).zip (rhs.drop rightExcess)
  let inner ← (pairs.zipIdx outer.length).mapM fun ((m, n), axis) => broadcastSize m n axis
  return outer ++ inner

end Build

namespace DType

/-- Requires elements that a reduction can read. -/
def requireNumeric (t : DType) : Except LowerError Unit :=
  if t.isNumeric then .ok () else .error (.invalidElementType t)

/-- The type in which products of elements are summed. -/
def accumulator (t : DType) : Except LowerError DType :=
  match t.accumulator? with
  | some acc => .ok acc
  | none => .error (.invalidElementType t)

end DType

end TensorLowering
