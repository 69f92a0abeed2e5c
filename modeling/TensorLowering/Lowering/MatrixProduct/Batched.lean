import TensorLowering.Lowering.MatrixProduct.Basic

/-!
# Batches of matrix products

All axes but the last two are batch axes, and stretch to common sizes. A single batch axis has a
kernel of its own. Several of them are folded into one for that kernel, unless two or more of their
sizes are unknown: those could not be told apart afterwards, and a reduction with a loop per batch
axis is used.
-/
namespace TensorLowering

/-- The sizes of a batch of matrices. -/
structure BatchSizes where
  batch : List Size
  rows : Size
  columns : Size

namespace Factors

open Build

def batchSizes (x : OperandInfo) : Build BatchSizes := do
  let rows := x.rank - 2
  let batch ← (List.range rows).mapM (dim x.value)
  return { batch, rows := ← dim x.value rows, columns := ← dim x.value (rows + 1) }

/-- The product of sizes. -/
def product : List Size → Build Size
  | [] => index 1
  | first :: rest => rest.foldlM mul first

/-- The loops of a batched product: the batch axes, rows, the summed axis, columns. -/
def batchIndexing (batchRank : Nat) : Indexing :=
  let batch := List.range batchRank
  let rows := batchRank
  let inner := batchRank + 1
  let columns := batchRank + 2
  .projections (batch ++ [rows, inner]) (batch ++ [inner, columns]) (batch ++ [rows, columns])
    (List.replicate (batchRank + 1) .parallel ++ [.reduction, .parallel])

def batched (f : Factors) : Build ValueId := do
  let lhsSizes ← batchSizes f.lhs
  let rhsSizes ← batchSizes f.rhs
  let batch ← broadcastSizes lhsSizes.batch rhsSizes.batch
  requireContraction lhsSizes.columns rhsSizes.rows
  let rows := lhsSizes.rows
  let columns := rhsSizes.columns
  let lhs ← broadcastTo f.lhs.value (batch ++ [rows, lhsSizes.columns])
  let rhs ← broadcastTo f.rhs.value (batch ++ [rhsSizes.rows, columns])
  let batchKernel := ReductionSpec.named
    (if f.isQuantized then .quantizedBatchMatmul else .batchMatmul)
  if batch.length = 1 then
    let init ← zeros (batch ++ [rows, columns]) f.accumulator
    f.reduce batchKernel lhs rhs init
  else if batch.countP (·.known.isNone) ≤ 1 then
    let fold := Reassociation.foldRange (batch.length + 2) 0 batch.length
    let lhs ← collapseShape lhs fold
    let rhs ← collapseShape rhs fold
    let size ← product batch
    let init ← zeros [size, rows, columns] f.accumulator
    let result ← f.reduce batchKernel lhs rhs init
    expandShape result fold (batch ++ [rows, columns])
  else
    let init ← zeros (batch ++ [rows, columns]) f.accumulator
    f.reduce (.generic (batchIndexing batch.length) f.isQuantized) lhs rhs init

end Factors

end TensorLowering
