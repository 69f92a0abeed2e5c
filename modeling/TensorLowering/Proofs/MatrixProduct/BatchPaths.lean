import TensorLowering.Proofs.MatrixProduct.DeclaredRules
import TensorLowering.Proofs.MatrixProduct.Rules

/-!
# Products do not depend on declared sizes

Batch axes are folded into one, or kept with a loop for each of them, as their sizes are known or
open. Main statement: `matmul` computes the product of its operands either way, so two programs for
the same operands compute the same tensor whatever sizes they declare.
-/
namespace TensorLowering

open Numeric NdArray Stage Build

/-- Doubles hold the sizes of the operands and the numbers of products, no batch axis is empty, and
the product fits. -/
structure ProductSizes.Carried (p : ProductSizes) : Prop where
  lhs : ∀ n ∈ p.lhs, Binary64.IsExact n
  rhs : ∀ n ∈ p.rhs, Binary64.IsExact n
  lhsBatch : ∀ n ∈ p.lhsBatch, 1 ≤ n
  rhsBatch : ∀ n ∈ p.rhsBatch, 1 ≤ n
  counts : ∀ k ≤ p.batch.length, Binary64.IsExact (volume (p.batch.take k))
  fits : p.Fits

theorem ProductSizes.Carried.measured {p : ProductSizes} (h : p.Carried) (l : Limits) :
    Factors.Measured l p.lhs p.rhs where
  lhs := h.lhs
  rhs := h.rhs
  lhsBatch := p.take_lhs ▸ h.lhsBatch
  rhsBatch := p.take_rhs ▸ h.rhsBatch
  fits := fun q hl hr => eq_of_operands hl hr ▸ h.fits
  batch := fun q hl hr sizes hprefix => by
    rw [eq_of_operands hl hr] at hprefix
    rw [List.prefix_iff_eq_take.1 hprefix]
    exact h.counts _ hprefix.length_le
  wrong := fun hnone => absurd ⟨p, rfl, rfl⟩ hnone

/-- The factors of a product, quantized or not, and its result have declared types that admit them,
whatever sizes those leave open. -/
structure Graph.Multiplies (g : Graph) (env : Env) (operands : BinaryOperands)
    (result : TensorType) (a b : Tensor) (za zb : Option Binary64) (p : ProductSizes) : Prop where
  lhs : g.Operand env operands.lhs a za
  rhs : g.Operand env operands.rhs b zb
  lhsShape : p.lhs = a.shape
  rhsShape : p.rhs = b.shape
  typed : Factors.Typed a b za zb result.dtype
  result : result.shape.Admits p.out

variable {g g' : Graph} {supply supply' : Supply} {env env' : Env}
  {operands operands' : BinaryOperands} {result result' : TensorType} {a b : Tensor}
  {za zb : Option Binary64} {p : ProductSizes} {acc : DType}

namespace Rule

theorem matmul_computes_declared (config : LoweringConfig) (h : g.evaluate supply = .ok env)
    (hm : g.Multiplies env operands result a b za zb p) (hacc : a.dtype.accumulator? = some acc)
    (hp : p.Carried) :
    (matmul.apply config (.matmul operands) result).Computes g supply
      ((p.operandProduct .signed acc a b za zb).converted result.dtype) := by
  obtain ⟨x, hlhs, hx⟩ := hm.lhs.reads h
  obtain ⟨y, hrhs, hy⟩ := hm.rhs.reads h
  have hsizes : Factors.Measured .sound a.shape b.shape :=
    hm.lhsShape ▸ hm.rhsShape ▸ hp.measured .sound
  have hform : ProductForm.ofRanks? a.shape.length b.shape.length = some p.form := by
    rw [← hm.lhsShape, ← hm.rhsShape, p.ofRanks?_eq_form]
  have hsame : ∀ q : ProductSizes, q.lhs = a.shape → q.rhs = b.shape → q = p := fun q hl hr =>
    ProductSizes.eq_of_operands (hl.trans hm.lhsShape.symm) (hr.trans hm.rhsShape.symm)
  refine Meets.computes h ((lowerMatmul_meets hlhs hrhs hx hy (fun hnone => ?_)
    (fun hno => absurd hm.typed hno) (fun _ _ => hsizes) (fun q hl hr hno => ?_)
    (fun q hl hr hno => ?_)).weaken ?_)
  · cases hform.symm.trans hnone
  · exact absurd (hsame q hl hr ▸ hm.result) hno
  · exact absurd (hsame q hl hr ▸ hm.result) hno
  · rintro v s - ⟨q, acc', hl, hr, hacc', -, hget⟩
    obtain rfl := hsame q hl hr
    cases hacc.symm.trans hacc'
    exact hget

/-- Two programs that multiply the same operands compute the same tensor, whether they fold the
batch axes or keep them. -/
theorem batch_paths_agree (config config' : LoweringConfig) (h : g.evaluate supply = .ok env)
    (h' : g'.evaluate supply' = .ok env') (hm : g.Multiplies env operands result a b za zb p)
    (hm' : g'.Multiplies env' operands' result' a b za zb p) (hdtype : result'.dtype = result.dtype)
    (hp : p.Carried) :
    ∃ t, (matmul.apply config (.matmul operands) result).Computes g supply t ∧
      (matmul.apply config' (.matmul operands') result').Computes g' supply' t := by
  have hnumeric := hm.typed.lhs
  rw [← DType.isSome_accumulator?] at hnumeric
  obtain ⟨acc, hacc⟩ := Option.isSome_iff_exists.1 hnumeric
  have hcomputes := matmul_computes_declared config' h' hm' hacc hp
  rw [hdtype] at hcomputes
  exact ⟨_, matmul_computes_declared config h hm hacc hp, hcomputes⟩

section Crossed

/-- Rows and columns whose batches stretch against each other. -/
def crossedSizes : ProductSizes := ⟨[2, 1], [1, 2], [2, 2], some 1, 2, some 1, rfl, nofun⟩

def crossedRows : Tensor := .ofEntries .float32 [2, 1, 1, 2] fun ix => .ofInt (1 + ix.getD 0 0)

def crossedColumns : Tensor := .ofEntries .float32 [1, 2, 2, 1] fun ix => .ofInt (3 + ix.getD 1 0)

/-- Four axes with open sizes. -/
def openAxes : TensorType := ⟨.float32, ⟨[.dynamic, .dynamic, .dynamic, .dynamic]⟩⟩

theorem carried_crossed : crossedSizes.Carried where
  lhs := by decide +kernel
  rhs := by decide +kernel
  lhsBatch := by decide
  rhsBatch := by decide
  counts := by decide +kernel
  fits := ⟨by decide, by decide, by decide⟩

/-- Both batch axes are folded where their sizes are declared, and kept where they are open. -/
theorem crossed_paths_agree :
    ∃ t, (matmul.apply .standard (.matmul ⟨⟨0⟩, ⟨1⟩⟩) ⟨.float32, .ofSizes [2, 2, 1, 1]⟩).Computes
        (.takingAs [crossedRows.type, crossedColumns.type])
        (.takingIn [crossedRows, crossedColumns]) t ∧
      (matmul.apply .standard (.matmul ⟨⟨0⟩, ⟨1⟩⟩) openAxes).Computes
        (.takingAs [openAxes, openAxes]) (.takingIn [crossedRows, crossedColumns]) t := by
  obtain ⟨env, h, hoperand⟩ := Graph.operand_takingAs [crossedRows.type, crossedColumns.type]
    [crossedRows, crossedColumns] (by decide)
  obtain ⟨env', h', hoperand'⟩ := Graph.operand_takingAs [openAxes, openAxes]
    [crossedRows, crossedColumns] (by decide)
  have htyped : Factors.Typed crossedRows crossedColumns none none .float32 :=
    ⟨rfl, rfl, rfl, rfl, fun _ => rfl⟩
  exact batch_paths_agree .standard .standard h h'
    ⟨hoperand 0 _ rfl, hoperand 1 _ rfl, rfl, rfl, htyped, by decide⟩
    ⟨hoperand' 0 _ rfl, hoperand' 1 _ rfl, rfl, rfl, htyped, by decide⟩ rfl carried_crossed

end Crossed

/-! ## Sizes that are not carried -/

section Stacked

/-- Two batch axes of size one, with sums of nothing. -/
def stackedRows (m : Nat) : Tensor := .ofEntries .float32 [1, 1, m, 0] fun _ => 0

def stackedColumns (n : Nat) : Tensor := .ofEntries .float32 [1, 1, 0, n] fun _ => 0

/-- The nodes that `matmul` creates for them. The batch axes are folded. -/
def stackedNodes (m n : Nat) : List Node :=
  [⟨.constant (.int 1), .index⟩, ⟨.constant (.int 1), .index⟩, ⟨.constant (.int m), .index⟩,
    ⟨.constant (.int 0), .index⟩, ⟨.constant (.int 1), .index⟩, ⟨.constant (.int 1), .index⟩,
    ⟨.constant (.int 0), .index⟩, ⟨.constant (.int n), .index⟩,
    ⟨.collapseShape ⟨0⟩ (.foldRange 4 0 2), .tensor ⟨.float32, .ofSizes [1, m, 0]⟩⟩,
    ⟨.collapseShape ⟨1⟩ (.foldRange 4 0 2), .tensor ⟨.float32, .ofSizes [1, 0, n]⟩⟩,
    ⟨.constant (.int 1), .index⟩, ⟨.constant (.zero .float32), .scalar .float32⟩,
    ⟨.fill [⟨12⟩, ⟨4⟩, ⟨9⟩] ⟨13⟩, .tensor ⟨.float32, .ofSizes [1, m, n]⟩⟩,
    ⟨.reduce (.named .batchMatmul) ⟨10⟩ ⟨11⟩ none ⟨14⟩, .tensor ⟨.float32, .ofSizes [1, m, n]⟩⟩,
    ⟨.expandShape ⟨15⟩ (.foldRange 4 0 2) [⟨2⟩, ⟨3⟩, ⟨4⟩, ⟨9⟩],
      .tensor ⟨.float32, .ofSizes [1, 1, m, n]⟩⟩]

/-- The program that takes them in. -/
def stackedGraph (m n : Nat) : Graph := .takingAs [(stackedRows m).type, (stackedColumns n).type]

/-- What `matmul` leaves behind. -/
def stackedDraft (m n : Nat) : Draft where
  graph := ⟨(stackedGraph m n).nodes ++ stackedNodes m n, [⟨0⟩, ⟨1⟩], []⟩
  base := 2
  created := #[⟨2⟩, ⟨3⟩, ⟨4⟩, ⟨5⟩, ⟨6⟩, ⟨7⟩, ⟨8⟩, ⟨9⟩, ⟨10⟩, ⟨11⟩, ⟨12⟩, ⟨13⟩, ⟨14⟩, ⟨15⟩, ⟨16⟩]

/-- The multiplication of them, with the sizes of the product declared. -/
def stackedProduct (m n : Nat) : Build ValueId :=
  matmul.apply .standard (.matmul ⟨⟨0⟩, ⟨1⟩⟩) ⟨.float32, .ofSizes [1, 1, m, n]⟩

theorem run_stacked_oversize :
    (stackedProduct oversize 0).run (.ofGraph (stackedGraph oversize 0)) =
      (.ok ⟨16⟩, stackedDraft oversize 0) := by
  rfl

theorem run_stacked_large :
    (stackedProduct 4294967296 4294967296).run
        (.ofGraph (stackedGraph 4294967296 4294967296)) =
      (.ok ⟨16⟩, stackedDraft 4294967296 4294967296) := by
  rfl

/-- The operands with their batch axes folded. -/
theorem collapse_stackedRows {m : Nat} (h : ¬ TooLarge [1, m, 0]) :
    arrayResult (.tensor ⟨.float32, .ofSizes [1, m, 0]⟩) ((stackedRows m).data.reshape [1, m, 0]) =
      .ok (.tensor ((stackedRows m).reshaped [1, m, 0])) :=
  arrayResult_reshape (t := stackedRows m) (by simp [stackedRows, volume]) h

theorem collapse_stackedColumns {n : Nat} (h : ¬ TooLarge [1, 0, n]) :
    arrayResult (.tensor ⟨.float32, .ofSizes [1, 0, n]⟩)
        ((stackedColumns n).data.reshape [1, 0, n]) =
      .ok (.tensor ((stackedColumns n).reshaped [1, 0, n])) :=
  arrayResult_reshape (t := stackedColumns n) (by simp [stackedColumns, volume]) h

theorem check_stackedRows {m : Nat} :
    (Reassociation.foldRange 4 0 2).check (stackedRows m).data.rank = .ok () := rfl

theorem check_stackedColumns {n : Nat} :
    (Reassociation.foldRange 4 0 2).check (stackedColumns n).data.rank = .ok () := rfl

theorem toInt64_stacked : (Scalar.int 1).toDouble.toInt64 = 1 ∧
    (Scalar.int 4294967296).toDouble.toInt64 = 4294967296 := by
  decide +kernel

/-- A product that is too large is not made. -/
theorem evalFrom_stacked_large
    (hg : ∀ i, g.node? ⟨i + 2⟩ = (stackedNodes 4294967296 4294967296)[i]?)
    (ha : env.get? ⟨0⟩ = some (.tensor (stackedRows 4294967296)))
    (hb : env.get? ⟨1⟩ = some (.tensor (stackedColumns 4294967296))) :
    g.evalFrom supply env [⟨2⟩, ⟨3⟩, ⟨4⟩, ⟨5⟩, ⟨6⟩, ⟨7⟩, ⟨8⟩, ⟨9⟩, ⟨10⟩, ⟨11⟩, ⟨12⟩, ⟨13⟩, ⟨14⟩,
      ⟨15⟩, ⟨16⟩] = .error (.array (.tooLarge [1, 4294967296, 4294967296])) := by
  have hrows := collapse_stackedRows (m := 4294967296) (by decide)
  have hcolumns := collapse_stackedColumns (n := 4294967296) (by decide)
  have hlarge : fill [1, 4294967296, 4294967296] (0 : Binary64) =
      .error (.tooLarge [1, 4294967296, 4294967296]) := rfl
  have hshapes : (stackedRows 4294967296).shape = [1, 1, 4294967296, 0] ∧
      (stackedColumns 4294967296).shape = [1, 1, 0, 4294967296] := ⟨rfl, rfl⟩
  have hgroups : (Reassociation.foldRange 4 0 2).groups = [[0, 1], [2], [3]] := rfl
  simp [Graph.evalFrom, Graph.evalStep, hg, stackedNodes, evalNode, Except.mapError,
    Bind.bind, Except.bind, Pure.pure, Except.pure, Env.get, Env.get?_insert, Env.sizes, Env.index,
    Env.number, Env.tensor, Value.toTensor, Value.roundedScalar, Scalar.toDouble_zero,
    DType.round_zero, toInt64_zero, toInt64_stacked, ha, hb, arrayResult_error, hrows, hcolumns,
    hlarge, check_stackedRows, check_stackedColumns, hgroups, hshapes, volume]

/-- What the initial tensor of the oversized product is filled as: a row is missing. -/
def missingStackedRow : Tensor := .ofEntries .float32 [1, 9007199254740992, 0] fun _ => 0

theorem fill_stacked : arrayResult (.tensor ⟨.float32, .ofSizes [1, oversize, 0]⟩)
    (fill [1, 9007199254740992, 0] 0) = .ok (.tensor missingStackedRow) :=
  arrayResult_fill (by decide)

theorem reduce_stacked {ix : Indexing} (hix : NamedKernel.batchMatmul.indexing? = some ix) :
    NdArray.reduce ix .mulAdd (((stackedRows oversize).reshaped [1, oversize, 0]).widened .signed)
      (((stackedColumns 0).reshaped [1, 0, 0]).widened .signed) (0, 0) missingStackedRow.data =
        .error (.loopClash 1 oversize 9007199254740992) := by
  cases hix
  rfl

/-- The rows of the product are counted by a double, and one of them is missing. -/
theorem evalFrom_stacked_oversize (hg : ∀ i, g.node? ⟨i + 2⟩ = (stackedNodes oversize 0)[i]?)
    (ha : env.get? ⟨0⟩ = some (.tensor (stackedRows oversize)))
    (hb : env.get? ⟨1⟩ = some (.tensor (stackedColumns 0))) :
    g.evalFrom supply env [⟨2⟩, ⟨3⟩, ⟨4⟩, ⟨5⟩, ⟨6⟩, ⟨7⟩, ⟨8⟩, ⟨9⟩, ⟨10⟩, ⟨11⟩, ⟨12⟩, ⟨13⟩, ⟨14⟩,
      ⟨15⟩, ⟨16⟩] = .error (.array (.loopClash 1 oversize 9007199254740992)) := by
  obtain ⟨ix, hix⟩ : ∃ ix, NamedKernel.batchMatmul.indexing? = some ix := ⟨_, rfl⟩
  have hspec : (ReductionSpec.named .batchMatmul).indexing? = some ix := hix
  have hpoints : ∀ e, zeroPointsOf e (.named .batchMatmul) none = .ok (0, 0) := fun _ => rfl
  have hcombine : (ReductionSpec.named .batchMatmul).combine = .mulAdd := rfl
  have hcast : (ReductionSpec.named .batchMatmul).cast = .signed := rfl
  have hrows := collapse_stackedRows (m := oversize) (by decide)
  have hcolumns := collapse_stackedColumns (n := 0) (by decide)
  have hshapes : (stackedRows oversize).shape = [1, 1, oversize, 0] ∧
      (stackedColumns 0).shape = [1, 1, 0, 0] := ⟨rfl, rfl⟩
  have hgroups : (Reassociation.foldRange 4 0 2).groups = [[0, 1], [2], [3]] := rfl
  simp [Graph.evalFrom, Graph.evalStep, hg, stackedNodes, evalNode, Except.mapError,
    Bind.bind, Except.bind, Pure.pure, Except.pure, Env.get, Env.get?_insert, Env.sizes, Env.index,
    Env.number, Env.tensor, Value.toTensor, Value.roundedScalar, Scalar.toDouble_zero,
    DType.round_zero, toInt64_oversize, toInt64_zero, toInt64_stacked, ha, hb, arrayResult_error,
    hrows, hcolumns, check_stackedRows, check_stackedColumns, hgroups, hshapes, volume,
    fill_stacked, hspec, hpoints, hcombine, hcast, reduce_stacked hix]

def stackedSizes (m n : Nat) : ProductSizes :=
  ⟨[1, 1], [1, 1], [1, 1], some m, 0, some n, rfl, nofun⟩

/-- The operands are declared with their sizes and so is their product, and the program fails. -/
def StackedFails (m n : Nat) : Prop :=
  ∃ env, (stackedGraph m n).evaluate (.takingIn [stackedRows m, stackedColumns n]) = .ok env ∧
    (stackedGraph m n).Multiplies env ⟨⟨0⟩, ⟨1⟩⟩ ⟨.float32, .ofSizes [1, 1, m, n]⟩ (stackedRows m)
      (stackedColumns n) none none (stackedSizes m n) ∧
    ∀ t, ¬ (stackedProduct m n).Computes (stackedGraph m n)
      (.takingIn [stackedRows m, stackedColumns n]) t

theorem stackedFails_of_error {m n : Nat} {e : EvalError}
    (hrun : (stackedProduct m n).run (.ofGraph (stackedGraph m n)) = (.ok ⟨16⟩, stackedDraft m n))
    (herror : ∀ {g : Graph} {supply : Supply} {env : Env},
      (∀ i, g.node? ⟨i + 2⟩ = (stackedNodes m n)[i]?) →
      env.get? ⟨0⟩ = some (.tensor (stackedRows m)) →
      env.get? ⟨1⟩ = some (.tensor (stackedColumns n)) →
      g.evalFrom supply env (stackedDraft m n).created.toList = .error e) :
    StackedFails m n := by
  obtain ⟨env, h, hoperand⟩ := Graph.operand_takingAs
    [(stackedRows m).type, (stackedColumns n).type] [stackedRows m, stackedColumns n]
    (.cons (Tensor.hasType_type _) (.cons (Tensor.hasType_type _) .nil))
  have hlhs := hoperand 0 _ rfl
  have hrhs := hoperand 1 _ rfl
  have hsize : (stackedGraph m n).nodes.size = 2 := rfl
  have hnone := not_computes_of_error h hrun
    (herror (Graph.node?_append hsize) hlhs.declares.2 hrhs.declares.2)
  exact ⟨env, h, ⟨hlhs, hrhs, rfl, rfl, ⟨rfl, rfl, rfl, rfl, fun _ => rfl⟩,
    Shape.admits_ofSizes _⟩, hnone⟩

/-- A product that is not too large is not computed if a size is no double, and neither is one that
is too large. -/
theorem stacked_batches_fail :
    ((stackedSizes oversize 0).Fits ∧ StackedFails oversize 0) ∧
      (¬ (stackedSizes 4294967296 4294967296).Fits ∧ StackedFails 4294967296 4294967296) := by
  refine ⟨⟨⟨by decide, by decide, by decide⟩, stackedFails_of_error run_stacked_oversize
    evalFrom_stacked_oversize⟩, fun hfits => hfits.out (by decide), stackedFails_of_error
    run_stacked_large evalFrom_stacked_large⟩

end Stacked

end Rule

end TensorLowering
