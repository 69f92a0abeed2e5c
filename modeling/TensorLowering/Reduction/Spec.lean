import TensorLowering.Reduction.Convolution

/-!
# Reductions

A reduction is a kernel, a way of combining two elements, and a way of widening integers. Named
kernels have fixed maps and generic ones carry theirs.
-/
namespace TensorLowering

/-- A term is the product of the two elements, or the product of the elements each less its
zero-point. -/
inductive Combine where
  | mulAdd
  | quantizedMulAdd
  deriving DecidableEq

/-- Integers are widened with their sign or as unsigned numbers. -/
inductive CastKind where
  | signed
  | unsigned
  deriving DecidableEq

inductive NamedKernel where
  | dot
  | vecmat
  | matvec
  | matmul
  | batchMatmul
  | quantizedMatmul
  | quantizedBatchMatmul
  | conv (kernel : ConvKernel)
  deriving DecidableEq

namespace NamedKernel

def isQuantized : NamedKernel → Bool
  | quantizedMatmul | quantizedBatchMatmul => true
  | conv k => k.quantized
  | _ => false

def name : NamedKernel → String
  | dot => "dot"
  | vecmat => "vecmat"
  | matvec => "matvec"
  | matmul => "matmul"
  | batchMatmul => "batch_matmul"
  | quantizedMatmul => "quantized_matmul"
  | quantizedBatchMatmul => "quantized_batch_matmul"
  | conv k => k.name

/-- The indexing; only a convolution with too few dilations has none. -/
def indexing? : NamedKernel → Option Indexing
  | dot => some (.projections [0] [0] [] [.reduction])
  -- column, inner
  | vecmat => some (.projections [1] [1, 0] [0] [.parallel, .reduction])
  -- row, inner
  | matvec => some (.projections [0, 1] [1] [0] [.parallel, .reduction])
  -- row, column, inner
  | matmul | quantizedMatmul =>
      some (.projections [0, 2] [2, 1] [0, 1] [.parallel, .parallel, .reduction])
  -- batch, row, column, inner
  | batchMatmul | quantizedBatchMatmul =>
      some (.projections [0, 1, 3] [0, 3, 2] [0, 1, 2]
        [.parallel, .parallel, .parallel, .reduction])
  | conv k => k.indexing?

end NamedKernel

inductive ReductionKernel where
  | named (kernel : NamedKernel)
  | generic (indexing : Indexing)
  deriving DecidableEq

structure ReductionSpec where
  kernel : ReductionKernel
  combine : Combine
  cast : CastKind
  deriving DecidableEq

namespace ReductionSpec

def combineFor (quantized : Bool) : Combine := if quantized then .quantizedMulAdd else .mulAdd

def named (kernel : NamedKernel) : ReductionSpec :=
  ⟨.named kernel, combineFor kernel.isQuantized, .signed⟩

def generic (indexing : Indexing) (quantized : Bool) : ReductionSpec :=
  ⟨.generic indexing, combineFor quantized, .signed⟩

def withCast (spec : ReductionSpec) (cast : CastKind) : ReductionSpec := { spec with cast }

def indexing? (spec : ReductionSpec) : Option Indexing :=
  match spec.kernel with
  | .named kernel => kernel.indexing?
  | .generic indexing => some indexing

def name (spec : ReductionSpec) : String :=
  match spec.kernel with
  | .named kernel => kernel.name
  | .generic _ => "generic"

def isQuantized (spec : ReductionSpec) : Bool := spec.combine = .quantizedMulAdd

end ReductionSpec

end TensorLowering
