import TensorLowering.Lowering.MatrixProduct.Rules
import TensorLowering.Proofs.Build.Inputs
import TensorLowering.Proofs.MatrixProduct.Rules

/-!
# Products of quantized operands

A quantized operand stands for the differences of its integers and its zero-point. Main statement:
on quantized operands, the lowered program computes the product of these differences, as long as
the integers that are summed up are doubles and the element types hold the sums.
-/
namespace TensorLowering

open Numeric NdArray Stage Build

variable {g : Graph} {supply : Supply} {env : Env} {fails : LowerError → Prop} {s : Stage}
  {p : ProductSizes} {a b : Tensor} {za zb : Int} {result : TensorType} {acc : DType}
  {operands : BinaryOperands}

namespace ProductSizes

/-- The products of integers that are summed up for a position, in ascending order. -/
def terms (p : ProductSizes) (x y : List Nat → Int) (ix : List Nat) : List Int :=
  let batch := ix.take p.batch.length
  let row := (ix.drop p.batch.length).take p.rows.toList.length
  let column := (ix.drop p.batch.length).drop p.rows.toList.length
  (List.range p.inner).map fun k =>
    x (alignIndex p.lhsBatch batch ++ (row ++ [k])) *
      y (alignIndex p.rhsBatch batch ++ (k :: column))

/-- The sum at a position of a product whose factors are integers. -/
theorem toInt?_sum {x y : List Nat → Binary64} {m n : List Nat → Int} {ix : List Nat}
    (hix : InBounds p.out ix) (hx : ∀ i, InBounds p.lhs i → (x i).toInt? = some (m i))
    (hy : ∀ i, InBounds p.rhs i → (y i).toInt? = some (n i))
    (h : Binary64.AddsExactly 0 (p.terms m n ix)) :
    (p.sum x y ix).toInt? = some (p.terms m n ix).sum := by
  obtain ⟨batch, rest, rfl, hbatch, hrest⟩ := hix.exists_append
  obtain ⟨row, column, rfl, hrow, hcolumn⟩ := hrest.exists_append
  obtain ⟨hl, hr⟩ := stretchesTo_broadcastShape p.common
  have htake : (batch ++ (row ++ column)).take p.batch.length = batch := by
    rw [← hbatch.length_eq, List.take_left]
  have hdrop : (batch ++ (row ++ column)).drop p.batch.length = row ++ column := by
    rw [← hbatch.length_eq, List.drop_left]
  simp only [terms, htake, hdrop, ← hrow.length_eq, List.take_left, List.drop_left] at h ⊢
  have hzero : (0 : Binary64).toInt? = some 0 := rfl
  have hsum := h.toInt?_products (a := fun k => x (alignIndex p.lhsBatch batch ++ (row ++ [k])))
    (b := fun k => y (alignIndex p.rhsBatch batch ++ (k :: column))) hzero
    (fun k hk => hx _ ((hl.inBounds hbatch).append
      (hrow.append (inBounds_singleton.2 ⟨k, rfl, List.mem_range.1 hk⟩))))
    (fun k hk => hy _ ((hr.inBounds hbatch).append ⟨List.mem_range.1 hk, hcolumn⟩))
  rw [Int.zero_add] at hsum
  rw [p.sum_append x y hbatch.length_eq hrow.length_eq]
  exact hsum

end ProductSizes

/-! ## The rules -/

/-- Quantized operands with sizes that have a product. -/
structure QuantizedFactors (g : Graph) (env : Env) (operands : BinaryOperands) (p : ProductSizes)
    (acc : DType) (a : Tensor) (za : Int) (b : Tensor) (zb : Int) : Prop where
  lhs : g.Quantized env operands.lhs a za
  rhs : g.Quantized env operands.rhs b zb
  lhsShape : a.shape = p.lhs
  rhsShape : b.shape = p.rhs
  accumulator : a.dtype.accumulator? = some acc

namespace Factors

/-- Quantized operands are prepared in signed storage. -/
theorem prepare_quantized_gives {lhs rhs : OperandInfo} {operator : String}
    (hl : s.HasQuantized lhs a za) (hr : s.HasQuantized rhs b zb)
    (hacc : a.dtype.accumulator? = some acc) (hresult : result.dtype.isNumeric = true) :
    (prepare lhs rhs result operator).Gives fails s fun f s' => f.accumulator = acc ∧
      f.Ready s' a.signedStorage b.signedStorage
        (some (.ofInt (a.dtype.signedZero za), .ofInt (b.dtype.signedZero zb))) := by
  have hlq : lhs.isQuantized = true := by
    obtain ⟨v, -, hv, -⟩ := hl.zeroPoint
    rw [OperandInfo.isQuantized, hv]
    rfl
  have hrq : rhs.isQuantized = true := by
    obtain ⟨v, -, hv, -⟩ := hr.zeroPoint
    rw [OperandInfo.isQuantized, hv]
    rfl
  have hboth : lhs.bothQuantized rhs operator = .ok true := by
    rw [OperandInfo.bothQuantized, hlq, hrq, if_pos rfl]
  have hlnumeric : lhs.type.dtype.isNumeric = true := by
    rw [hl.type]
    exact hl.short.isNumeric
  have hrnumeric : rhs.type.dtype.isNumeric = true := by
    rw [hr.type]
    exact hr.short.isNumeric
  unfold prepare
  refine .ofExcept (if_pos hlnumeric) (.ofExcept (if_pos hrnumeric) (.ofExcept (if_pos hresult) ?_))
  rw [hlq, Bool.not_true, Bool.false_and, if_neg Bool.false_ne_true]
  refine .ofExcept (c := acc) (by rw [DType.accumulator, hl.type, Tensor.dtype_type, hacc]) ?_
  have hpair : (lhs.normalizePair rhs operator).Gives fails s fun pair s' =>
      s'.HasOperand pair.1 a.signedStorage (some (.ofInt (a.dtype.signedZero za))) ∧
        s'.HasOperand pair.2 b.signedStorage (some (.ofInt (b.dtype.signedZero zb))) := by
    refine .ofExcept hboth ?_
    refine Gives.bind (normalize_gives hl) fun lhs' s₁ hle₁ hlhs => ?_
    refine Gives.bind (normalize_gives (hr.mono hle₁)) fun rhs' s₂ hle₂ hrhs => ?_
    exact .pure ⟨hlhs.mono hle₂, hrhs⟩
  refine Gives.bind hpair ?_
  rintro ⟨lhs', rhs'⟩ s₁ - ⟨hlhs, hrhs⟩
  exact .pure ⟨rfl, hlhs.storage, hrhs.storage, hlhs.type, hrhs.type, hlhs.zeroPoints hrhs,
    hlhs.isQuantized⟩

end Factors

namespace QuantizedFactors

/-- The product of the operands in signed storage. -/
def product (p : ProductSizes) (acc : DType) (a : Tensor) (za : Int) (b : Tensor) (zb : Int) :
    Tensor :=
  p.products acc (a.signedStorage.factor .signed (some (.ofInt (a.dtype.signedZero za))))
    (b.signedStorage.factor .signed (some (.ofInt (b.dtype.signedZero zb))))

/-- It is the product of the differences. -/
theorem toInt?_entry (hm : QuantizedFactors g env operands p acc a za b zb) {dtype : DType}
    {ix : List Nat} (hix : InBounds p.out ix)
    (h : Binary64.AddsExactly 0 (p.terms (a.difference za) (b.difference zb) ix))
    (hacc : acc.Keeps (p.terms (a.difference za) (b.difference zb) ix).sum)
    (hdtype : dtype.Keeps (p.terms (a.difference za) (b.difference zb) ix).sum) :
    (((product p acc a za b zb).converted dtype).entry ix).toInt? =
      some (p.terms (a.difference za) (b.difference zb) ix).sum := by
  have hsum := ProductSizes.toInt?_sum hix
    (fun i hi => Tensor.toInt?_factor hm.lhs.short hm.lhs.contains (hm.lhsShape ▸ hi))
    (fun i hi => Tensor.toInt?_factor hm.rhs.short hm.rhs.contains (hm.rhsShape ▸ hi)) h
  have hentry : (product p acc a za b zb).entry ix = acc.round _ := ProductSizes.entry_products hix
  rw [Tensor.entry_converted (t := product p acc a za b zb) dtype hix, hentry]
  exact hdtype.toInt?_round (hacc.toInt?_round hsum)

theorem matmul_computes (hm : QuantizedFactors g env operands p acc a za b zb)
    (h : g.evaluate supply = .ok env) (hresult : result.dtype.isNumeric = true)
    (hadmits : result.shape.Admits p.out) (hexact : p.Exact)
    (hinner : p.rows = none ∨ p.columns = none → Binary64.IsExact p.inner) (hfits : p.Fits) :
    (Rule.lowerMatmul operands result).Computes g supply
      ((product p acc a za b zb).converted result.dtype) := by
  obtain ⟨lhs, hlhs, hlquantized⟩ := hm.lhs.hasQuantized h
  obtain ⟨rhs, hrhs, hrquantized⟩ := hm.rhs.hasQuantized h
  refine Gives.computes h (Gives.query hlhs (Gives.query hrhs ?_))
  have hform : ProductForm.ofRanks? lhs.rank rhs.rank = some p.form := by
    have hranks := p.ofRanks?_eq_form
    rw [← hm.lhsShape, ← hm.rhsShape] at hranks
    rwa [hlquantized.rank, hrquantized.rank]
  rw [hform]
  refine Gives.bind (Factors.prepare_quantized_gives hlquantized hrquantized hm.accumulator hresult)
    fun f s _ hf => ?_
  obtain ⟨rfl, hready⟩ := hf
  refine Gives.bind (Factors.inForm_gives hready (by rw [Tensor.shape_signedStorage, hm.lhsShape])
    (by rw [Tensor.shape_signedStorage, hm.rhsShape]) hexact (fun _ => hinner) hfits) ?_
  intro v s _ hv
  exact (finish_gives hv (.inr hadmits)).weaken fun _ _ _ hget => hget.1

theorem mm_computes (config : LoweringConfig)
    (hm : QuantizedFactors g env operands p acc a za b zb) (h : g.evaluate supply = .ok env)
    (hranks : a.shape.length = 2 ∧ b.shape.length = 2) (hresult : result.dtype.isNumeric = true)
    (hadmits : result.shape.Admits p.out) (hexact : p.Exact) (hfits : p.Fits) :
    (Rule.lowerMm config operands result).Computes g supply
      ((product p acc a za b zb).converted result.dtype) := by
  obtain ⟨lhs, hlhs, hlquantized⟩ := hm.lhs.hasQuantized h
  obtain ⟨rhs, hrhs, hrquantized⟩ := hm.rhs.hasQuantized h
  refine Gives.computes h (Gives.query hlhs (Gives.query hrhs ?_))
  have hmatrices : ¬ (lhs.rank ≠ 2 ∨ rhs.rank ≠ 2) := by
    rw [hlquantized.rank, hrquantized.rank]
    simp [hranks]
  rw [if_neg hmatrices]
  refine Gives.bind (Factors.prepare_quantized_gives hlquantized hrquantized hm.accumulator hresult)
    fun f s _ hf => ?_
  obtain ⟨rfl, hready⟩ := hf
  have hgives : Build.Gives (fun _ => False) _ s _ :=
    mmProduct_gives config lhs.type.dtype.isUnsignedInteger hready
      (by rw [Tensor.shape_signedStorage, hm.lhsShape])
      (by rw [Tensor.shape_signedStorage, hm.rhsShape])
      (by rwa [Tensor.shape_signedStorage, Tensor.shape_signedStorage]) (.inr hadmits) hexact hfits
  have hcast : (Rule.mmSpec f lhs.type.dtype.isUnsignedInteger).cast = .signed := by
    have hquantized : f.isQuantized = true := hready.quantized
    rw [Rule.mmSpec, if_pos hquantized]
    rfl
  rw [hcast] at hgives
  exact hgives.weaken fun _ _ _ hget => hget.1

end QuantizedFactors

section Stored

/-- A row stored without a sign, around 203. -/
def storedRow : Tensor := .ofEntries (.unsigned .w8) [1, 2] fun ix => .ofInt (200 + ix.getD 1 0)

/-- A column around -4. -/
def storedColumn : Tensor := .ofEntries (.signed .w8) [2, 1] fun ix => .ofInt (5 - ix.getD 0 0)

theorem terms_stored : pairSizes.terms (storedRow.difference 203) (storedColumn.difference (-4))
    [0, 0] = [-27, -16] := by
  decide +kernel

end Stored

/-! ## A size that is no double -/

section Oversized

/-- Stored matrices of the oversized sizes. -/
def storedRows : Tensor := .ofEntries (.signed .w8) [oversize, 0] fun _ => 0

def storedNothing : Tensor := .ofEntries (.signed .w8) [0, 0] fun _ => 0

/-- The nodes that `mm` creates for them. -/
def oversizedStoredNodes : List Node :=
  [⟨.scalarCast ⟨2⟩, .scalar (.signed .w32)⟩, ⟨.scalarCast ⟨3⟩, .scalar (.signed .w32)⟩,
    ⟨.constant (.int oversize), .index⟩, ⟨.constant (.int 0), .index⟩,
    ⟨.constant (.int 0), .index⟩, ⟨.constant (.int 0), .index⟩,
    ⟨.constant (.zero (.signed .w32)), .scalar (.signed .w32)⟩,
    ⟨.fill [⟨8⟩, ⟨9⟩] ⟨12⟩, .tensor ⟨.signed .w32, .ofSizes [oversize, 0]⟩⟩,
    ⟨.reduce (.named .quantizedMatmul) ⟨0⟩ ⟨1⟩ (some (⟨6⟩, ⟨7⟩)) ⟨13⟩,
      .tensor ⟨.signed .w32, .ofSizes [oversize, 0]⟩⟩]

theorem run_oversizedStored :
    (Rule.mm.apply .standard (.mm ⟨⟨4⟩, ⟨5⟩⟩) ⟨.signed .w32, .ofSizes [oversize, 0]⟩).run
        (.ofGraph (.takingQuantized storedRows storedNothing 0 0)) =
      (.ok ⟨14⟩, ⟨⟨(Graph.takingQuantized storedRows storedNothing 0 0).nodes ++
        oversizedStoredNodes, [⟨0⟩, ⟨1⟩, ⟨2⟩, ⟨3⟩, ⟨4⟩, ⟨5⟩], []⟩, 6,
        #[⟨6⟩, ⟨7⟩, ⟨8⟩, ⟨9⟩, ⟨10⟩, ⟨11⟩, ⟨12⟩, ⟨13⟩, ⟨14⟩]⟩) := by
  rfl

/-- What the initial tensor is filled as: a row is missing. -/
def missingStoredRow : Tensor := .ofEntries (.signed .w32) [9007199254740992, 0] fun _ => 0

theorem fill_oversizedStored : arrayResult (.tensor ⟨.signed .w32, .ofSizes [oversize, 0]⟩)
    (fill [9007199254740992, 0] 0) = .ok (.tensor missingStoredRow) :=
  arrayResult_fill (by decide)

theorem reduce_oversizedStored {ix : Indexing} (zs : Binary64 × Binary64)
    (hix : NamedKernel.quantizedMatmul.indexing? = some ix) :
    NdArray.reduce ix .quantizedMulAdd (storedRows.widened .signed)
      (storedNothing.widened .signed) zs
      missingStoredRow.data = .error (.loopClash 0 oversize 9007199254740992) := by
  cases hix
  rfl

/-- The rows of the result are counted by a double, and one of them is missing. -/
theorem evalFrom_oversizedStored (hg : ∀ i, g.node? ⟨i + 6⟩ = oversizedStoredNodes[i]?)
    (ha : env.get? ⟨0⟩ = some (.tensor storedRows))
    (hb : env.get? ⟨1⟩ = some (.tensor storedNothing)) (hza : env.get? ⟨2⟩ = some (.index 0))
    (hzb : env.get? ⟨3⟩ = some (.index 0)) :
    g.evalFrom supply env [⟨6⟩, ⟨7⟩, ⟨8⟩, ⟨9⟩, ⟨10⟩, ⟨11⟩, ⟨12⟩, ⟨13⟩, ⟨14⟩] =
      .error (.array (.loopClash 0 oversize 9007199254740992)) := by
  obtain ⟨ix, hix⟩ : ∃ ix, NamedKernel.quantizedMatmul.indexing? = some ix := ⟨_, rfl⟩
  have hspec : (ReductionSpec.named .quantizedMatmul).indexing? = some ix := hix
  have hcombine : (ReductionSpec.named .quantizedMatmul).combine = .quantizedMulAdd := rfl
  have hcast : (ReductionSpec.named .quantizedMatmul).cast = .signed := rfl
  simp [Graph.evalFrom, Graph.evalStep, hg, oversizedStoredNodes, evalNode, zeroPointsOf,
    Bind.bind, Except.bind, Pure.pure, Except.pure, Env.get, Env.get?_insert, Env.sizes, Env.index,
    Env.number, Env.tensor, Value.toTensor, Value.roundedScalar, Scalar.toDouble_zero,
    Binary64.ofInt_zero, DType.round_zero, toInt64_oversize, toInt64_zero, fill_oversizedStored,
    ha, hb, hza, hzb, hspec, hcombine, hcast, reduce_oversizedStored _ hix, arrayResult_error]

end Oversized

end TensorLowering
