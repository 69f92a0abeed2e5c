import TensorLowering.Build.Basic

/-!
# Sizes

A size is the index value that holds it when the program runs, together with the number itself when
that is already known. Arithmetic on known sizes is carried out during the construction, and
operations that leave a size as it is create nothing.
-/
namespace TensorLowering

open Numeric

structure Size where
  value : ValueId
  known : Option Int
  deriving DecidableEq

namespace Size

/-- The dimension of a declared shape: static for a known size that is not negative. -/
def dim (s : Size) : Dim :=
  match s.known with
  | some n => if 0 ≤ n then .static n.toNat else .dynamic
  | none => .dynamic

def isOne (s : Size) : Bool := s.known == some 1

def shape (sizes : List Size) : Shape := ⟨sizes.map dim⟩

def values (sizes : List Size) : List ValueId := sizes.map value

@[simp] theorem rank_shape (sizes : List Size) : (shape sizes).rank = sizes.length := by
  simp [shape, Shape.rank]

end Size

namespace Build

def invalidAxis {α : Type} (axis rank : Nat) : Build α :=
  fail (.graph (.invalidAxis (clampNat axis) rank))

/-- A constant index. -/
def index (n : Int) : Build Size := do
  let value ← create (.constant (.int n)) .index
  return ⟨value, some n⟩

/-- The size of an axis: a constant when it is static, otherwise read from the tensor. -/
def dim (tensor : ValueId) (axis : Nat) : Build Size := do
  let type ← tensorType tensor
  match type.shape.dims[axis]? with
  | some (.static n) => index (clampNat n)
  | some .dynamic => return ⟨← create (.dim tensor axis) .index, none⟩
  | none => invalidAxis axis type.rank

/-- The sizes of every axis. -/
def dims (tensor : ValueId) : Build (List Size) := do
  let type ← tensorType tensor
  (List.range type.rank).mapM (dim tensor)

/-- Index arithmetic, carried out at once when both sides are known and the result is not too
large. -/
def arith (op : ArithOp) (lhs rhs : Size) : Build Size :=
  let result : Option Int := do op.eval? (← lhs.known) (← rhs.known)
  match result with
  | some n => index n
  | none =>
      if lhs.known.isSome && lhs.known == op.leftUnit? then return rhs
      else if rhs.known.isSome && rhs.known == op.rightUnit? then return lhs
      else return ⟨← create (.arith op lhs.value rhs.value) .index, none⟩

def add (lhs rhs : Size) : Build Size := arith .add lhs rhs
def sub (lhs rhs : Size) : Build Size := arith .sub lhs rhs
def mul (lhs rhs : Size) : Build Size := arith .mul lhs rhs
def floorDiv (lhs rhs : Size) : Build Size := arith .floorDiv lhs rhs
def max (lhs rhs : Size) : Build Size := arith .max lhs rhs

def addConst (lhs : Size) (n : Int) : Build Size := do add lhs (← index n)
def mulConst (lhs : Size) (n : Int) : Build Size := do mul lhs (← index n)

end Build

end TensorLowering
