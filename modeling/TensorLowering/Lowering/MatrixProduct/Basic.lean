import TensorLowering.Lowering.Agreement
import TensorLowering.Lowering.SignedStorage

/-!
# Products of vectors and matrices

The operands of a product that are ready for a reduction, and the reductions for each form that has
no batch. A product is summed in the wider type of the elements of its left operand.
-/
namespace TensorLowering

structure Factors where
  lhs : OperandInfo
  rhs : OperandInfo
  accumulator : DType

namespace Factors

open Build

/-- Checks the element types and gives quantized operands signed storage. -/
def prepare (lhs rhs : OperandInfo) (result : TensorType) (operator : String) : Build Factors := do
  ofExcept lhs.type.dtype.requireNumeric
  ofExcept rhs.type.dtype.requireNumeric
  ofExcept result.dtype.requireNumeric
  if !lhs.isQuantized && lhs.type.dtype ≠ rhs.type.dtype then
    decline (.mixedTypes operator lhs.type.dtype rhs.type.dtype)
  else
    let accumulator ← ofExcept lhs.type.dtype.accumulator
    let (lhs, rhs) ← lhs.normalizePair rhs operator
    return { lhs, rhs, accumulator }

def isQuantized (f : Factors) : Bool := f.lhs.isQuantized

def zeroPoints? (f : Factors) : Option (ValueId × ValueId) := f.lhs.zeroPoints? f.rhs

def reduce (f : Factors) (spec : ReductionSpec) (lhs rhs init : ValueId) : Build ValueId :=
  Build.reduce spec lhs rhs f.zeroPoints? init

/-- The summed axes of the two operands have one size. -/
def requireContraction (lhs rhs : Size) : Build Unit :=
  requireEqual lhs rhs "contracting dimension"

def dot (f : Factors) : Build ValueId := do
  let inner ← dim f.lhs.value 0
  let inner' ← dim f.rhs.value 0
  requireContraction inner inner'
  let init ← zeros [] f.accumulator
  f.reduce (.named .dot) f.lhs.value f.rhs.value init

def vecmat (f : Factors) : Build ValueId := do
  let inner ← dim f.lhs.value 0
  let inner' ← dim f.rhs.value 0
  let columns ← dim f.rhs.value 1
  requireContraction inner inner'
  let init ← zeros [columns] f.accumulator
  f.reduce (.named .vecmat) f.lhs.value f.rhs.value init

def matvec (f : Factors) : Build ValueId := do
  let rows ← dim f.lhs.value 0
  let inner ← dim f.lhs.value 1
  let inner' ← dim f.rhs.value 0
  requireContraction inner inner'
  let init ← zeros [rows] f.accumulator
  f.reduce (.named .matvec) f.lhs.value f.rhs.value init

/-- The product of two matrices, which may be the operands in another shape. -/
def matmul (f : Factors) (lhs rhs : ValueId) : Build ValueId := do
  let rows ← dim lhs 0
  let inner ← dim lhs 1
  let inner' ← dim rhs 0
  let columns ← dim rhs 1
  requireContraction inner inner'
  let init ← zeros [rows, columns] f.accumulator
  f.reduce (.named (if f.isQuantized then .quantizedMatmul else .matmul)) lhs rhs init

/-! ## Quantized vectors -/

/-- The axes of a matrix with a single row or column, folded into one. -/
def unitFold : Reassociation := .foldRange 2 0 2

/-- A vector as a matrix with one row; a matrix as it is. -/
def asRow (x : OperandInfo) : Build ValueId := do
  if x.rank = 1 then
    let one ← index 1
    let inner ← dim x.value 0
    expandShape x.value unitFold [one, inner]
  else return x.value

/-- A vector as a matrix with one column; a matrix as it is. -/
def asColumn (x : OperandInfo) : Build ValueId := do
  if x.rank = 1 then
    let one ← index 1
    let inner ← dim x.value 0
    expandShape x.value unitFold [inner, one]
  else return x.value

/-- A product with a quantized vector is a product of matrices with the unit axes folded away. -/
def quantizedVector (f : Factors) (isDot : Bool) : Build ValueId := do
  let lhs ← asRow f.lhs
  let rhs ← asColumn f.rhs
  let product ← f.matmul lhs rhs
  collapseShape product (if isDot then ⟨[]⟩ else unitFold)

end Factors

end TensorLowering
