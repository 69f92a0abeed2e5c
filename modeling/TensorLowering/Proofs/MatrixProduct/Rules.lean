import TensorLowering.Lowering.MatrixProduct.Rules
import TensorLowering.Proofs.Build.Inputs
import TensorLowering.Proofs.Conversion.PlainRules
import TensorLowering.Proofs.MatrixProduct.Vectors

/-!
# Lowered matrix products

The rules for matrix products prepare their operands, run the kernel of the form and give the result
its declared type. Main statement: on operands that are not quantized, the lowered program computes
the product.
-/
namespace TensorLowering

open Numeric NdArray Stage Build

variable {g : Graph} {supply : Supply} {env : Env} {fails : LowerError → Prop} {s : Stage}
  {p : ProductSizes} {a b : Tensor} {result : TensorType} {acc : DType}

namespace Factors

theorem prepare_gives {lhs rhs : OperandInfo} {operator : String} (hl : lhs.zeroPoint = none)
    (hr : rhs.zeroPoint = none) (hsame : lhs.type.dtype = rhs.type.dtype)
    (hacc : lhs.type.dtype.accumulator? = some acc) (hresult : result.dtype.isNumeric = true) :
    (prepare lhs rhs result operator).Gives fails s fun f s' => f = ⟨lhs, rhs, acc⟩ ∧ s' = s := by
  have hnumeric : lhs.type.dtype.isNumeric = true := by
    rw [← DType.isSome_accumulator?, hacc]
    rfl
  have hplain : ∀ {x : OperandInfo}, x.zeroPoint = none → x.normalize = pure x := by
    intro x hx
    rw [OperandInfo.normalize, hx]
  have hboth : lhs.bothQuantized rhs operator = .ok false := by
    simp [OperandInfo.bothQuantized, OperandInfo.isQuantized, hl, hr]
  have hmixed : (!lhs.isQuantized && decide (lhs.type.dtype ≠ rhs.type.dtype)) = false := by
    simp [hsame]
  unfold prepare
  refine .ofExcept (if_pos hnumeric) (.ofExcept (if_pos (hsame ▸ hnumeric))
    (.ofExcept (if_pos hresult) ?_))
  rw [if_neg (by rw [hmixed]; exact Bool.false_ne_true)]
  refine .ofExcept (c := acc) (by rw [DType.accumulator, hacc]) ?_
  rw [OperandInfo.normalizePair, hboth, hplain hl, hplain hr]
  exact .pure ⟨rfl, rfl⟩

end Factors

/-! ## The rules -/

/-- Operands that are not quantized, have one numeric element type, and have sizes with a
product. -/
structure Multiplicands (g : Graph) (env : Env) (operands : BinaryOperands) (p : ProductSizes)
    (acc : DType) (a b : Tensor) : Prop where
  lhs : g.Plain env operands.lhs a
  rhs : g.Plain env operands.rhs b
  lhsShape : a.shape = p.lhs
  rhsShape : b.shape = p.rhs
  sameType : a.dtype = b.dtype
  accumulator : a.dtype.accumulator? = some acc

/-- How `mm` widens the elements of a type. -/
def mmCast (t : DType) : CastKind := if t.isUnsignedInteger then .unsigned else .signed

variable {operands : BinaryOperands}

theorem Multiplicands.ready (hm : Multiplicands g env operands p acc a b)
    (h : g.evaluate supply = .ok env) :
    Factors.Ready ⟨⟨operands.lhs, a.type, none⟩, ⟨operands.rhs, b.type, none⟩, acc⟩
      (Stage.ofRun h) a b none :=
  ⟨hm.lhs.holds h, hm.rhs.holds h, rfl, rfl, .none, rfl⟩

/-- The program after `matmul` is lowered. -/
theorem matmul_computes (h : g.evaluate supply = .ok env)
    (hm : Multiplicands g env operands p acc a b) (hresult : result.dtype.isNumeric = true)
    (hadmits : result.shape.Admits p.out) (hexact : p.Exact) (hfits : p.Fits) :
    (Rule.lowerMatmul operands result).Computes g supply
      ((p.product .signed acc a b).converted result.dtype) := by
  refine Gives.computes h (Gives.query hm.lhs.extract (Gives.query hm.rhs.extract ?_))
  have hform : ProductForm.ofRanks? (OperandInfo.mk operands.lhs a.type none).rank
      (OperandInfo.mk operands.rhs b.type none).rank = some p.form := by
    have hranks := p.ofRanks?_eq_form
    rw [← hm.lhsShape, ← hm.rhsShape] at hranks
    simpa [OperandInfo.rank] using hranks
  rw [hform]
  refine Gives.bind (Factors.prepare_gives rfl rfl hm.sameType hm.accumulator hresult) ?_
  rintro f s - ⟨rfl, rfl⟩
  refine Gives.bind (Factors.inForm_gives (hm.ready h) hm.lhsShape hm.rhsShape hexact
    (fun hsome => by cases hsome) hfits) ?_
  intro v s _ hv
  exact (finish_gives hv (.inr hadmits)).weaken fun _ _ _ hget => hget.1

/-- The steps of `mm` after its operands are prepared. -/
theorem mmProduct_gives {f : Factors} (config : LoweringConfig) (unsigned : Bool)
    {zs : Option (Binary64 × Binary64)} (hf : f.Ready s a b zs) (ha : a.shape = p.lhs)
    (hb : b.shape = p.rhs) (hranks : a.shape.length = 2 ∧ b.shape.length = 2)
    (hadmits : (∀ e, fails e) ∨ result.shape.Admits p.out) (hexact : p.Exact) (hfits : p.Fits) :
    (Rule.mmProduct config f unsigned result).Gives fails s fun v s' =>
      s'.env.get? v = some (.tensor ((p.products f.accumulator
        (a.factor (Rule.mmSpec f unsigned).cast (zs.map Prod.fst))
        (b.factor (Rule.mmSpec f unsigned).cast (zs.map Prod.snd))).converted result.dtype)) ∧
        result.shape.Admits p.out := by
  obtain ⟨m, n, hl, hr, hrows, hcolumns⟩ := p.exists_matrices (ha ▸ hranks.1) (hb ▸ hranks.2)
  have hashape : a.shape = [m, p.inner] := by rw [ha, ProductSizes.lhs, hl, hrows]; rfl
  have hbshape : b.shape = [p.inner, n] := by rw [hb, ProductSizes.rhs, hr, hcolumns]; rfl
  have hmexact : Binary64.IsExact m := hexact.out _ (by simp [ProductSizes.out, hrows])
  have hnexact : Binary64.IsExact n := hexact.out _ (by simp [ProductSizes.out, hcolumns])
  refine Gives.bind (dim_gives (n := m) hf.lhs (by rw [hashape]; rfl) hmexact) ?_
  intro rows s₁ hle₁ hrow
  have hf₁ := hf.mono hle₁
  refine Gives.bind (dim_gives (n := n) hf₁.rhs (by rw [hbshape]; rfl) hnexact) ?_
  intro columns s₂ hle₂ hcolumn
  have hf₂ := hf₁.mono hle₂
  refine Gives.bind (dim_known (n := p.inner) hf₂.lhs (by rw [hashape]; rfl)) ?_
  intro k s₃ hle₃ hk
  have hf₃ := hf₂.mono hle₃
  refine Gives.bind (dim_known (n := p.inner) hf₃.rhs (by rw [hbshape]; rfl)) ?_
  intro k' s₄ hle₄ hk'
  have hf₄ := hf₃.mono hle₄
  have hcombine : (Rule.mmSpec f unsigned).combine = ReductionSpec.combineFor zs.isSome :=
    hf.quantized ▸ Rule.combine_mmSpec f unsigned
  have hsizes : s₄.HasSizes [rows, columns] [m, n] :=
    .cons (hrow.mono (hle₂.trans (hle₃.trans hle₄))) (.cons (hcolumn.mono (hle₃.trans hle₄)) .nil)
  have hrest : ((zeros [rows, columns] f.accumulator >>= fun init =>
      f.reduce (Rule.mmSpec f unsigned) f.lhs.value f.rhs.value init) >>= (finish · result)).Gives
      fails s₄ fun v s' => s'.env.get? v = some (.tensor ((p.products f.accumulator
        (a.factor (Rule.mmSpec f unsigned).cast (zs.map Prod.fst))
        (b.factor (Rule.mmSpec f unsigned).cast (zs.map Prod.snd))).converted result.dtype)) ∧
        result.shape.Admits p.out := by
    refine Gives.bind (Factors.unbatched_gives zs hl hr hrows hcolumns
      (Rule.indexing?_mmSpec f unsigned) rfl hcombine hf₄.zeroPoints hf₄.lhs hf₄.rhs ha hb hsizes
      hfits.out) ?_
    intro v s₅ _ hv
    exact finish_gives hv hadmits
  rw [LawfulMonad.bind_assoc] at hrest
  split
  next =>
    refine Gives.bind (requireEqual_gives hk.1 hk'.1) ?_
    rintro ⟨⟩ s₅ - rfl
    exact hrest
  next => exact hrest

/-- The program after `mm` is lowered. -/
theorem mm_computes (config : LoweringConfig) (h : g.evaluate supply = .ok env)
    (hm : Multiplicands g env operands p acc a b) (hranks : a.shape.length = 2 ∧ b.shape.length = 2)
    (hresult : result.dtype.isNumeric = true) (hadmits : result.shape.Admits p.out)
    (hexact : p.Exact) (hfits : p.Fits) :
    (Rule.lowerMm config operands result).Computes g supply
      ((p.product (mmCast a.dtype) acc a b).converted result.dtype) := by
  refine Gives.computes h (Gives.query hm.lhs.extract (Gives.query hm.rhs.extract ?_))
  have hmatrices : ¬ ((OperandInfo.mk operands.lhs a.type none).rank ≠ 2 ∨
      (OperandInfo.mk operands.rhs b.type none).rank ≠ 2) := by
    simp [OperandInfo.rank, hranks]
  rw [if_neg hmatrices]
  refine Gives.bind (Factors.prepare_gives rfl rfl hm.sameType hm.accumulator hresult) ?_
  rintro f s - ⟨rfl, rfl⟩
  have hcast : (Rule.mmSpec ⟨⟨operands.lhs, a.type, none⟩, ⟨operands.rhs, b.type, none⟩, acc⟩
      a.dtype.isUnsignedInteger).cast = mmCast a.dtype := by
    unfold mmCast
    cases a.dtype.isUnsignedInteger <;> rfl
  have hgives : Build.Gives (fun _ => False) _ (Stage.ofRun h) _ :=
    mmProduct_gives config a.dtype.isUnsignedInteger (hm.ready h) hm.lhsShape hm.rhsShape hranks
      (.inr hadmits) hexact hfits
  rw [hcast] at hgives
  exact hgives.weaken fun _ _ _ hget => hget.1

/-- Both rules compute the product of their operands, in the types and sizes that they take. -/
theorem rules_compute_product (config : LoweringConfig) (h : g.evaluate supply = .ok env)
    (hm : Multiplicands g env operands p acc a b) (hresult : result.dtype.isNumeric = true)
    (hadmits : result.shape.Admits p.out) (hexact : p.Exact) (hfits : p.Fits) :
    (Rule.matmul.apply config (.matmul operands) result).Computes g supply
        ((p.product .signed acc a b).converted result.dtype) ∧
      (a.shape.length = 2 ∧ b.shape.length = 2 →
        (Rule.mm.apply config (.mm operands) result).Computes g supply
          ((p.product (mmCast a.dtype) acc a b).converted result.dtype)) :=
  ⟨matmul_computes h hm hresult hadmits hexact hfits,
    fun hranks => mm_computes config h hm hranks hresult hadmits hexact hfits⟩

section Pairs

/-- The sizes of a row and a column of two. -/
def pairSizes : ProductSizes := .ofMatrices 1 2 1

def pairRow : Tensor := .ofEntries .float32 [1, 2] fun ix => .ofInt (1 + ix.getD 1 0)

def pairColumn : Tensor := .ofEntries .float32 [2, 1] fun ix => .ofInt (3 + ix.getD 0 0)

theorem product_pairs :
    (pairSizes.product .signed .float32 pairRow pairColumn).converted .float32 =
      .ofEntries .float32 [1, 1] fun _ => .ofInt 11 := by
  decide +kernel

theorem rules_compute_pairs :
    (Rule.matmul.apply .standard (.matmul ⟨⟨0⟩, ⟨1⟩⟩) ⟨.float32, .ofSizes [1, 1]⟩).Computes
        (.takingIn [pairRow, pairColumn]) (.takingIn [pairRow, pairColumn])
        (.ofEntries .float32 [1, 1] fun _ => .ofInt 11) ∧
      (Rule.mm.apply .standard (.mm ⟨⟨0⟩, ⟨1⟩⟩) ⟨.float32, .ofSizes [1, 1]⟩).Computes
        (.takingIn [pairRow, pairColumn]) (.takingIn [pairRow, pairColumn])
        (.ofEntries .float32 [1, 1] fun _ => .ofInt 11) := by
  obtain ⟨env, h, hplain⟩ := Graph.evaluate_takingIn [pairRow, pairColumn]
  have hm : Multiplicands (.takingIn [pairRow, pairColumn]) env ⟨⟨0⟩, ⟨1⟩⟩ pairSizes .float32
      pairRow pairColumn := ⟨hplain 0 _ rfl, hplain 1 _ rfl, rfl, rfl, rfl, rfl⟩
  have hexact : pairSizes.Exact := ⟨by decide +kernel, by decide +kernel, by decide +kernel⟩
  have hfits : pairSizes.Fits := ⟨by decide, by decide, by decide⟩
  have hadmits : (⟨.float32, .ofSizes [1, 1]⟩ : TensorType).shape.Admits pairSizes.out := by decide
  obtain ⟨hmatmul, hmm⟩ := rules_compute_product .standard h hm rfl hadmits hexact hfits
  exact ⟨product_pairs ▸ hmatmul, product_pairs ▸ hmm ⟨rfl, rfl⟩⟩

end Pairs

/-! ## A size that is no double -/

section Oversized

/-- The sizes of a matrix with that many rows and no columns, and of one without elements. -/
def oversizedSizes : ProductSizes := .ofMatrices oversize 0 0

def noColumns : Tensor := .ofEntries .float32 [oversize, 0] fun _ => 0

def noElements : Tensor := .ofEntries .float32 [0, 0] fun _ => 0

/-- The nodes that `mm` creates for a matrix with that many rows of `n` elements, and for one with
`n` rows of `n` elements. -/
def oversizedNodes (n : Nat) : List Node :=
  [⟨.constant (.int oversize), .index⟩, ⟨.constant (.int n), .index⟩,
    ⟨.constant (.int n), .index⟩, ⟨.constant (.int n), .index⟩,
    ⟨.constant (.zero .float32), .scalar .float32⟩,
    ⟨.fill [⟨2⟩, ⟨3⟩] ⟨6⟩, .tensor ⟨.float32, .ofSizes [oversize, n]⟩⟩,
    ⟨.reduce (.named .matmul) ⟨0⟩ ⟨1⟩ none ⟨7⟩, .tensor ⟨.float32, .ofSizes [oversize, n]⟩⟩]

theorem run_oversized :
    (Rule.mm.apply .standard (.mm ⟨⟨0⟩, ⟨1⟩⟩) ⟨.float32, .ofSizes [oversize, 0]⟩).run
        (.ofGraph (.takingIn [noColumns, noElements])) =
      (.ok ⟨8⟩, ⟨⟨(Graph.takingIn [noColumns, noElements]).nodes ++ oversizedNodes 0,
        [⟨0⟩, ⟨1⟩], []⟩, 2, #[⟨2⟩, ⟨3⟩, ⟨4⟩, ⟨5⟩, ⟨6⟩, ⟨7⟩, ⟨8⟩]⟩) := by
  rfl

/-- A row is missing in the output. -/
theorem reduce_oversized {ix : Indexing} {n : Nat} {x y init : NdArray Binary64}
    (hix : NamedKernel.matmul.indexing? = some ix) (hx : x.shape = [oversize, n])
    (hy : y.shape = [n, n]) (hinit : init.shape = [9007199254740992, n]) :
    NdArray.reduce ix .mulAdd x y (0, 0) init =
      .error (.loopClash 0 oversize 9007199254740992) := by
  have hbounds : loopBounds ix [[oversize, n], [n, n], [9007199254740992, n]] =
      .error (.loopClash 0 oversize 9007199254740992) := by
    cases hix
    simp [loopBounds, bindMap, bindLoop, Indexing.projections, Indexing.ofResults,
      Indexing.numLoops, oversize, AffineExpr.asDim?, Bind.bind, Except.bind, Pure.pure,
      Except.pure]
  rw [NdArray.reduce, hx, hy, hinit, hbounds]
  rfl

/-- The rows of the result are counted by a double, and one of them is missing. -/
theorem evalFrom_oversized {n : Nat} {ids : List ValueId}
    (hids : [⟨2⟩, ⟨3⟩, ⟨4⟩, ⟨5⟩, ⟨6⟩, ⟨7⟩, ⟨8⟩] <+: ids)
    (hn : (Scalar.int n).toDouble.toInt64 = n) (hfit : ¬ TooLarge [9007199254740992, n])
    (hx : a.shape = [oversize, n]) (hy : b.shape = [n, n])
    (hg : ∀ i < 7, g.node? ⟨i + 2⟩ = (oversizedNodes n)[i]?)
    (ha : env.get? ⟨0⟩ = some (.tensor a)) (hb : env.get? ⟨1⟩ = some (.tensor b)) :
    g.evalFrom supply env ids = .error (.array (.loopClash 0 oversize 9007199254740992)) := by
  obtain ⟨rest, rfl⟩ := hids
  obtain ⟨ix, hix⟩ : ∃ ix, NamedKernel.matmul.indexing? = some ix := ⟨_, rfl⟩
  have hspec : (ReductionSpec.named .matmul).indexing? = some ix := hix
  have hpoints : ∀ e, zeroPointsOf e (.named .matmul) none = .ok (0, 0) := fun _ => rfl
  have hcombine : (ReductionSpec.named .matmul).combine = .mulAdd := rfl
  have hcast : (ReductionSpec.named .matmul).cast = .signed := rfl
  have hfill : arrayResult (.tensor ⟨.float32, .ofSizes [oversize, n]⟩)
      (fill [9007199254740992, n] 0) =
        .ok (.tensor (.ofEntries .float32 [9007199254740992, n] fun _ => 0)) :=
    arrayResult_fill hfit
  have hsize : ¬ (n : Int) < 0 := by omega
  have hinit : (Tensor.ofEntries .float32 [9007199254740992, n] fun _ => 0).data.shape =
      [9007199254740992, n] := rfl
  have hreduce := reduce_oversized (x := a.widened .signed) (y := b.widened .signed) hix hx hy hinit
  simp [Graph.evalFrom, Graph.evalStep, hg, oversizedNodes, evalNode, Bind.bind, Except.bind,
    Pure.pure, Except.pure, Env.get, Env.get?_insert, Env.sizes, Env.index, Env.number, Env.tensor,
    Value.toTensor, Value.roundedScalar, Scalar.toDouble_zero, DType.round_zero, toInt64_oversize,
    hn, hsize, hfill, ha, hb, hspec, hpoints, hcombine, hcast, hreduce, arrayResult_error]

/-- Sizes that fit do not make the rule right: they have to be read back from doubles. -/
theorem mm_fails_oversized :
    oversizedSizes.Fits ∧ (Shape.ofSizes [oversize, 0]).Admits oversizedSizes.out ∧
      ∃ env, (Graph.takingIn [noColumns, noElements]).evaluate
          (.takingIn [noColumns, noElements]) = .ok env ∧
        Multiplicands (.takingIn [noColumns, noElements]) env ⟨⟨0⟩, ⟨1⟩⟩ oversizedSizes .float32
          noColumns noElements ∧
        ¬ (Rule.mm.apply .standard (.mm ⟨⟨0⟩, ⟨1⟩⟩) ⟨.float32, .ofSizes [oversize, 0]⟩).Computes
          (.takingIn [noColumns, noElements]) (.takingIn [noColumns, noElements])
          ((oversizedSizes.product (mmCast .float32) .float32 noColumns noElements).converted
            .float32) := by
  obtain ⟨env, h, hplain⟩ := Graph.evaluate_takingIn [noColumns, noElements]
  have hlhs := hplain 0 noColumns rfl
  have hrhs := hplain 1 noElements rfl
  refine ⟨⟨by decide, by decide, by decide⟩, by decide, env, h,
    ⟨hlhs, hrhs, rfl, rfl, rfl, rfl⟩, ?_⟩
  rintro ⟨v, d, hrun, hvalue⟩
  cases hrun.symm.trans run_oversized
  obtain ⟨env', heval, -⟩ := Except.bind_eq_ok.1 hvalue
  have hrest := (evaluate_commit h run_oversized).symm.trans heval
  have hsize : (Graph.takingIn [noColumns, noElements]).nodes.size = 2 := rfl
  cases (evalFrom_oversized (List.prefix_refl _) toInt64_zero (by decide) rfl rfl
    (fun i _ => Graph.node?_append hsize i) hlhs.get hrhs.get).symm.trans hrest

end Oversized

end TensorLowering
