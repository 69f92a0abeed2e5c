/-!
# Forms of a matrix product

The ranks of the operands of a matrix product choose its form: vectors and matrices have forms of
their own, and anything larger is a batch of matrices.
-/
namespace TensorLowering

inductive ProductForm where
  | dot
  | vecmat
  | matvec
  | matmul
  | batched (batchRank : Nat)
  deriving DecidableEq

namespace ProductForm

def ofRanks? : Nat → Nat → Option ProductForm
  | 1, 1 => some dot
  | 1, 2 => some vecmat
  | 2, 1 => some matvec
  | 2, 2 => some matmul
  | lhs, rhs => if 2 ≤ lhs ∧ 2 ≤ rhs then some (batched (max lhs rhs - 2)) else none

/-- At least one operand is a vector. -/
def hasVector : ProductForm → Bool
  | dot | vecmat | matvec => true
  | matmul | batched _ => false

def resultRank : ProductForm → Nat
  | dot => 0
  | vecmat | matvec => 1
  | matmul => 2
  | batched batchRank => batchRank + 2

end ProductForm

end TensorLowering
