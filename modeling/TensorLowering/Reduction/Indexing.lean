import TensorLowering.Affine

/-!
# Indexing of a reduction

A reduction is a nest of loops. Each loop produces elements of the output or is summed away, and
one map per operand (left, right, output) gives the coordinates that an iteration reads or writes.
-/
namespace TensorLowering

inductive IteratorKind where
  | parallel
  | reduction
  deriving DecidableEq

structure Indexing where
  maps : List AffineMap
  iterators : List IteratorKind
  deriving DecidableEq

namespace Indexing

def ofResults (lhs rhs out : List AffineExpr) (iterators : List IteratorKind) : Indexing :=
  ⟨[lhs, rhs, out].map (AffineMap.mk iterators.length), iterators⟩

def projections (lhs rhs out : List Nat) (iterators : List IteratorKind) : Indexing :=
  ofResults (lhs.map .dim) (rhs.map .dim) (out.map .dim) iterators

def numLoops (ix : Indexing) : Nat := ix.iterators.length

/-- The loops that are summed away, outermost first. -/
def reductionDims (ix : Indexing) : List Nat :=
  (List.range ix.numLoops).filter fun d => ix.iterators[d]? == some .reduction

end Indexing

end TensorLowering
