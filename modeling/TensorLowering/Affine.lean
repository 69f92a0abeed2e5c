import TensorLowering.Numeric.Int64
import TensorLowering.Text

/-!
# Affine index expressions and maps

Every operand of a reduction is addressed through a map from the loop variables `d0`, `d1`, ... to
the coordinates of the operand. Sums and multiples are folded as they are built, so a plain loop
variable stays recognisable. Coordinates are integers of 64 bits, so sums and multiples wrap. Main
statement: the sum of multiples of two loop variables is the exact one, wrapped once.
-/
namespace TensorLowering

open Numeric

inductive AffineExpr where
  | dim (position : Nat)
  | const (value : Int)
  | sum (lhs rhs : AffineExpr)
  | scaled (expr : AffineExpr) (factor : Int)
  deriving DecidableEq

namespace AffineExpr

/-- The value at a point of the loops in 64 bits, when every loop variable is one of the point. -/
def eval? (point : List Int) : AffineExpr → Option Int
  | dim d => point[d]?
  | const c => some c
  | sum a b => do return wrapInt64 ((← a.eval? point) + (← b.eval? point))
  | scaled e k => (e.eval? point).map fun x => wrapInt64 (x * k)

/-- The loop variable, of an expression that is nothing else. -/
def asDim? : AffineExpr → Option Nat
  | dim d => some d
  | _ => none

/-- The largest loop variable read. -/
def maxDim? : AffineExpr → Option Nat
  | dim d => some d
  | const _ => none
  | sum a b => a.maxDim?.merge max b.maxDim?
  | scaled e _ => e.maxDim?

/-- The sum, without a term that is the constant zero, and with constants added. -/
def add (a b : AffineExpr) : AffineExpr :=
  match a, b with
  | const m, const n => const (wrapInt64 (m + n))
  | const m, b => if m = 0 then b else sum (const m) b
  | a, const n => if n = 0 then a else sum a (const n)
  | a, b => sum a b

/-- The multiple, without a factor of one, and with constants multiplied. -/
def scale (a : AffineExpr) (k : Int) : AffineExpr :=
  if k = 1 then a
  else if k = 0 then const 0
  else match a with
    | const c => const (wrapInt64 (c * k))
    | a => scaled a k

/-- A multiple of a loop variable is the variable itself or a node of its own. -/
theorem scale_dim (d : Nat) {k : Int} (hk : k ≠ 0) :
    (k = 1 ∧ (dim d).scale k = dim d) ∨ (dim d).scale k = scaled (dim d) k := by
  by_cases hone : k = 1
  · exact .inl ⟨hone, if_pos hone⟩
  · exact .inr (by simp [scale, hone, hk])

/-- Two multiples of loop variables are added at run time. -/
theorem asDim?_add_scale {a b : Nat} {m n : Int} (hm : m ≠ 0) (hn : n ≠ 0) :
    (((dim a).scale m).add ((dim b).scale n)).asDim? = none := by
  rcases scale_dim a hm with ⟨-, ha⟩ | ha <;> rcases scale_dim b hn with ⟨-, hb⟩ | hb <;>
    rw [ha, hb] <;> rfl

/-- Wrapping the multiples makes no difference to the sum. -/
theorem eval?_add_scale {point : List Int} {a b : Nat} {m n x y : Int} (hm : m ≠ 0) (hn : n ≠ 0)
    (ha : point[a]? = some x) (hb : point[b]? = some y) :
    (((dim a).scale m).add ((dim b).scale n)).eval? point =
      some (wrapInt64 (x * m + y * n)) := by
  rcases scale_dim a hm with ⟨rfl, hu⟩ | hu <;> rcases scale_dim b hn with ⟨rfl, hv⟩ | hv <;>
    rw [hu, hv] <;> simp [add, eval?, ha, hb]

example : (((dim 0).scale 0x4000000000000000).add ((dim 1).scale 3)).eval? [4, 5] = some 15 := by
  decide

def render : AffineExpr → String
  | dim d => "d" ++ toString d
  | const c => toString c
  | sum a b => a.render ++ " + " ++ b.render
  | scaled (sum a b) k => "(" ++ (sum a b).render ++ ") * " ++ toString k
  | scaled e k => e.render ++ " * " ++ toString k

end AffineExpr

/-- A map from `numDims` loop variables to coordinates, one expression for each. -/
structure AffineMap where
  numDims : Nat
  results : List AffineExpr
  deriving DecidableEq

namespace AffineMap

/-- The map that keeps the listed loop variables. -/
def projection (numDims : Nat) (dims : List Nat) : AffineMap := ⟨numDims, dims.map .dim⟩

def identity (numDims : Nat) : AffineMap := projection numDims (List.range numDims)

def eval? (m : AffineMap) (point : List Int) : Option (List Int) :=
  m.results.mapM (AffineExpr.eval? point)

def render (m : AffineMap) : String :=
  "(" ++ Text.commaSeparated ((List.range m.numDims).map fun d => "d" ++ toString d) ++ ") -> (" ++
    Text.commaSeparated (m.results.map AffineExpr.render) ++ ")"

end AffineMap

end TensorLowering
