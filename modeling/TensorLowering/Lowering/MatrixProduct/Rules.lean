import TensorLowering.Lowering.MatrixProduct.Batched
import TensorLowering.Lowering.MatrixProduct.Form
import TensorLowering.Lowering.Rule

/-!
# Rules for matrix products

`matmul` takes operands of any rank that has a form, `mm` takes two matrices, and `bmm` takes two
batches of equal size. `bmm` reads the declared tensors as they are, and converts one of them when
their element types differ.
-/
namespace TensorLowering

open Build

/-- The product of prepared operands in the given form. -/
def Factors.inForm (f : Factors) (form : ProductForm) : Build ValueId :=
  if f.isQuantized && form.hasVector then f.quantizedVector (form = .dot)
  else match form with
    | .dot => f.dot
    | .vecmat => f.vecmat
    | .matvec => f.matvec
    | .matmul => f.matmul f.lhs.value f.rhs.value
    | .batched _ => f.batched

theorem Factors.inForm_matmul (f : Factors) :
    f.inForm .matmul = f.matmul f.lhs.value f.rhs.value := by
  rw [inForm, ProductForm.hasVector, Bool.and_false, if_neg Bool.false_ne_true]

theorem Factors.inForm_batched (f : Factors) (n : Nat) : f.inForm (.batched n) = f.batched := by
  rw [inForm, ProductForm.hasVector, Bool.and_false, if_neg Bool.false_ne_true]

namespace Rule

def lowerMatmul (operands : BinaryOperands) (result : TensorType) : Build ValueId := do
  let lhs ← query (OperandInfo.extract · operands.lhs)
  let rhs ← query (OperandInfo.extract · operands.rhs)
  match ProductForm.ofRanks? lhs.rank rhs.rank with
  | none => decline (.productRanks lhs.rank rhs.rank)
  | some form =>
      let factors ← Factors.prepare lhs rhs result "matmul"
      let value ← factors.inForm form
      finish value result

/-- The reduction of a product of two matrices. Elements of an unsigned type are widened without a
sign. -/
def mmSpec (factors : Factors) (unsigned : Bool) : ReductionSpec :=
  if factors.isQuantized then .named .quantizedMatmul
  else if unsigned then (ReductionSpec.named .matmul).withCast .unsigned
  else .named .matmul

theorem indexing?_mmSpec (factors : Factors) (unsigned : Bool) :
    (mmSpec factors unsigned).indexing? = NamedKernel.matmul.indexing? := by
  unfold mmSpec
  cases factors.isQuantized <;> cases unsigned <;> rfl

theorem combine_mmSpec (factors : Factors) (unsigned : Bool) :
    (mmSpec factors unsigned).combine = ReductionSpec.combineFor factors.isQuantized := by
  unfold mmSpec
  cases factors.isQuantized <;> cases unsigned <;> rfl

def lowerMm (config : LoweringConfig) (operands : BinaryOperands) (result : TensorType) :
    Build ValueId := do
  let lhs ← query (OperandInfo.extract · operands.lhs)
  let rhs ← query (OperandInfo.extract · operands.rhs)
  if lhs.rank ≠ 2 ∨ rhs.rank ≠ 2 then decline .notMatrices
  else
    let factors ← Factors.prepare lhs rhs result "mm"
    let rows ← dim factors.lhs.value 0
    let columns ← dim factors.rhs.value 1
    let inner ← dim factors.lhs.value 1
    let inner' ← dim factors.rhs.value 0
    if !config.assumeEqualSizes || (inner.known.isSome && inner'.known.isSome) then
      Factors.requireContraction inner inner'
    let init ← zeros [rows, columns] factors.accumulator
    let spec := mmSpec factors lhs.type.dtype.isUnsignedInteger
    let value ← factors.reduce spec factors.lhs.value factors.rhs.value init
    finish value result

/-- Two operands with one element type: when theirs differ, the one that does not have the element
type of the result is converted to it, and the left one when neither has. -/
def unifyTypes (operands : BinaryOperands) (lhs rhs result : DType) : Build BinaryOperands := do
  if lhs = rhs then return operands
  else if lhs = result then return { operands with rhs := ← convert operands.rhs result }
  else return { operands with lhs := ← convert operands.lhs result }

def lowerBmm (operands : BinaryOperands) (result : TensorType) : Build ValueId := do
  let lhsType ← tensorType operands.lhs
  let rhsType ← tensorType operands.rhs
  if lhsType.rank ≠ 3 ∨ rhsType.rank ≠ 3 then decline .notBatches
  else
    ofExcept lhsType.dtype.requireNumeric
    ofExcept rhsType.dtype.requireNumeric
    ofExcept result.dtype.requireNumeric
    let ⟨lhs, rhs⟩ ← unifyTypes operands lhsType.dtype rhsType.dtype result.dtype
    let accumulator ← ofExcept (← tensorType lhs).dtype.accumulator
    let batch ← dim lhs 0
    let rows ← dim lhs 1
    let inner ← dim lhs 2
    let batch' ← dim rhs 0
    let inner' ← dim rhs 1
    let columns ← dim rhs 2
    requireEqual batch batch' "batch dimension"
    requireEqual inner inner' "contracting dimension"
    let init ← zeros [batch, rows, columns] accumulator
    let value ← reduce (.named .batchMatmul) lhs rhs none init
    finish value result

def matmul : Rule where
  name := "matmul"
  kind := .matmul
  apply _ op result :=
    match op with
    | .matmul operands => lowerMatmul operands result
    | _ => decline (.otherKind .matmul)

def mm : Rule where
  name := "mm"
  kind := .mm
  apply config op result :=
    match op with
    | .mm operands => lowerMm config operands result
    | _ => decline (.otherKind .mm)

def bmm : Rule where
  name := "bmm"
  kind := .bmm
  apply _ op result :=
    match op with
    | .bmm operands => lowerBmm operands result
    | _ => decline (.otherKind .bmm)

end Rule

end TensorLowering
