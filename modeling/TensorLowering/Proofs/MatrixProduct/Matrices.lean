import TensorLowering.Proofs.Build.Outcomes
import TensorLowering.Proofs.Conversion.PlainRules
import TensorLowering.Proofs.MatrixProduct.Guards

/-!
# Products of two matrices

`mm` and `matmul` both take two matrices. They read the sizes in another order, `mm` may leave out
the guard of the summed axis, and it widens unsigned elements without a sign. Main statement: where
neither makes a difference, the programs of both rules have one outcome.
-/
namespace TensorLowering

open Numeric NdArray Stage Build

variable {s : Stage} {v w : ValueId} {a b : Tensor} {za zb : Option Binary64}
  {zs : Option (Binary64 × Binary64)} {f : Factors} {rows inner inner' columns : DeclaredAxis}
  {result : TensorType}

namespace Factors

/-- The loops over two matrices: rows, columns and the summed axis. -/
def matrixLoops : Indexing :=
  .projections [0, 2] [2, 1] [0, 1] [.parallel, .parallel, .reduction]

/-- How a product of two matrices ends when nothing compares the summed sizes. -/
def matrixSums (result : TensorType) (accumulator : DType) (cast : CastKind) (a b : Tensor)
    (zs : Option (Binary64 × Binary64)) (rows columns : DeclaredAxis) : Except EvalError Tensor :=
  result.summed accumulator [rows.read, columns.read]
    (NdArray.reduce matrixLoops (ReductionSpec.combineFor zs.isSome) (a.widened cast)
      (b.widened cast) (zs.getD (0, 0)))

/-- How it ends when a guard compares them. -/
def matrixOutcome (result : TensorType) (accumulator : DType) (cast : CastKind) (a b : Tensor)
    (zs : Option (Binary64 × Binary64)) (rows inner inner' columns : DeclaredAxis) :
    Except EvalError Tensor :=
  if inner.read = inner'.read then matrixSums result accumulator cast a b zs rows columns
  else .error (.guardFailed "mismatching contracting dimension")

/-- How it ends for `mm`, which can be told to take open sizes for equal. -/
def mmOutcome (config : LoweringConfig) (result : TensorType) (accumulator : DType)
    (cast : CastKind) (a b : Tensor) (zs : Option (Binary64 × Binary64))
    (rows inner inner' columns : DeclaredAxis) : Except EvalError Tensor :=
  if !config.assumeEqualSizes || (inner.known.isSome && inner'.known.isSome) then
    matrixOutcome result accumulator cast a b zs rows inner inner' columns
  else matrixSums result accumulator cast a b zs rows columns

/-- Where the sizes that are taken for equal are equal, no guard would stop the program. -/
theorem mmOutcome_eq {config : LoweringConfig} {accumulator : DType} {cast : CastKind}
    (hequal : config.assumeEqualSizes = true → inner.read = inner'.read) :
    mmOutcome config result accumulator cast a b zs rows inner inner' columns =
      matrixOutcome result accumulator cast a b zs rows inner inner' columns := by
  unfold mmOutcome
  split
  next => rfl
  next hskip =>
    refine (if_pos (hequal ?_)).symm
    cases hstrict : config.assumeEqualSizes with
    | true => rfl
    | false => simp [hstrict] at hskip

theorem matrixSums_ends {spec : ReductionSpec} {ids : Option (ValueId × ValueId)} {m n : Size}
    {accumulator : DType} (hspec : spec.indexing? = some matrixLoops)
    (hcombine : spec.combine = ReductionSpec.combineFor zs.isSome)
    (hx : s.HasAxes v a [rows, inner]) (hy : s.HasAxes w b [inner', columns])
    (hz : s.HasZeroPoints ids zs) (hm : s.Measures m rows) (hn : s.Measures n columns) :
    (do
      let init ← zeros [m, n] accumulator
      let u ← Build.reduce spec v w ids init
      finish u result : Build ValueId).Ends s
      (matrixSums result accumulator spec.cast a b zs rows columns) := by
  rw [matrixSums, ← hcombine]
  have hsizes : s.MeasuresAll [m, n] [rows, columns] := .cons hm (.cons hn .nil)
  refine summed_ends hspec (isQuantized_of_combine hcombine) hx.hasTensor hy.hasTensor hz
    hsizes.haveValues ?_ fun init sums hinit hsums => hsizes.admits ?_
  · rw [hx.shape, hy.shape]
    exact .cons rfl (.cons rfl (.cons rfl .nil))
  · obtain ⟨bounds, hl, hr, ho⟩ := exists_bounds hsums
    rw [Tensor.shape_widened, hx.shape] at hl
    rw [Tensor.shape_widened, hy.shape] at hr
    rw [hinit] at ho
    simp_all

/-- The product that `mm` makes. -/
theorem mmProduct_ends (config : LoweringConfig) (result : TensorType) (hf : f.Prepared s a b zs)
    (hx : s.HasAxes f.lhs.value a [rows, inner]) (hy : s.HasAxes f.rhs.value b [inner', columns])
    (unsigned : Bool) :
    (Rule.mmProduct config f unsigned result).Ends s
      (mmOutcome config result f.accumulator (Rule.mmSpec f unsigned).cast a b zs rows inner inner'
        columns) := by
  have hspec : (Rule.mmSpec f unsigned).indexing? = some matrixLoops :=
    Rule.indexing?_mmSpec f unsigned
  have hcombine : (Rule.mmSpec f unsigned).combine = ReductionSpec.combineFor zs.isSome :=
    hf.quantized ▸ Rule.combine_mmSpec f unsigned
  refine Meets.bind (dim_measures hx 0 rfl) fun m s₁ hle₁ hm => ?_
  refine Meets.bind (dim_measures (hy.mono hle₁) 1 rfl) fun n s₂ hle₂ hn => ?_
  have hle₂' := hle₁.trans hle₂
  refine Meets.bind (dim_measures (hx.mono hle₂') 1 rfl) fun k s₃ hle₃ hk => ?_
  have hle₃' := hle₂'.trans hle₃
  refine Meets.bind (dim_measures (hy.mono hle₃') 0 rfl) fun k' s₄ hle₄ hk' => ?_
  have hle := hle₃'.trans hle₄
  -- the rest is the same whether or not the guard comes before it
  have hsums : ∀ s', s₄ ≤ s' → (do
      let init ← zeros [m, n] f.accumulator
      let u ← f.reduce (Rule.mmSpec f unsigned) f.lhs.value f.rhs.value init
      finish u result : Build ValueId).Ends s'
      (matrixSums result f.accumulator (Rule.mmSpec f unsigned).cast a b zs rows columns) :=
    fun s' hle' => matrixSums_ends hspec hcombine (hx.mono (hle.trans hle'))
      (hy.mono (hle.trans hle')) (hf.zeroPoints.mono (hle.trans hle'))
      (hm.mono (hle₂.trans (hle₃.trans (hle₄.trans hle')))) (hn.mono (hle₃.trans (hle₄.trans hle')))
  have hknown := (hk.mono hle₄).known
  rw [mmOutcome, ← hknown, ← hk'.known]
  dsimp only
  split
  next =>
    refine Meets.bind (requireEqual_measures (hk.mono hle₄) hk' (fun _ => trivial) fun hne => ?_)
      fun _ s₅ hle₅ hinner => ?_
    · exact if_neg hne
    · rw [matrixOutcome, if_pos hinner]
      exact hsums s₅ hle₅
  next => exact hsums s₄ le_rfl

/-- The product that `matmul` makes of two matrices. -/
theorem matmul_ends (hf : f.Prepared s a b zs) (hx : s.HasAxes f.lhs.value a [rows, inner])
    (hy : s.HasAxes f.rhs.value b [inner', columns]) :
    (f.inForm .matmul >>= fun u => finish u result).Ends s
      (matrixOutcome result f.accumulator .signed a b zs rows inner inner' columns) := by
  have hspec : (ReductionSpec.named
      (if f.isQuantized then .quantizedMatmul else .matmul)).indexing? = some matrixLoops := by
    cases f.isQuantized <;> rfl
  have hcombine : (ReductionSpec.named
      (if f.isQuantized then .quantizedMatmul else .matmul)).combine =
        ReductionSpec.combineFor zs.isSome := by
    rw [← hf.quantized]
    cases f.isQuantized <;> rfl
  have hcast : (ReductionSpec.named
      (if f.isQuantized then .quantizedMatmul else .matmul)).cast = .signed := rfl
  simp only [inForm_matmul, matmul, LawfulMonad.bind_assoc]
  generalize ReductionSpec.named (if f.isQuantized then .quantizedMatmul else .matmul) = spec
    at hspec hcombine hcast ⊢
  rw [← hcast]
  refine Meets.bind (dim_measures hx 0 rfl) fun m s₁ hle₁ hm => ?_
  refine Meets.bind (dim_measures (hx.mono hle₁) 1 rfl) fun k s₂ hle₂ hk => ?_
  have hle₂' := hle₁.trans hle₂
  refine Meets.bind (dim_measures (hy.mono hle₂') 0 rfl) fun k' s₃ hle₃ hk' => ?_
  have hle₃' := hle₂'.trans hle₃
  refine Meets.bind (dim_measures (hy.mono hle₃') 1 rfl) fun n s₄ hle₄ hn => ?_
  refine Meets.bind (requireEqual_measures (hk.mono (hle₃.trans hle₄)) (hk'.mono hle₄)
    (fun _ => trivial) fun hne => if_neg hne) fun _ s₅ hle₅ hinner => ?_
  have hle := hle₃'.trans (hle₄.trans hle₅)
  rw [matrixOutcome, if_pos hinner]
  exact matrixSums_ends hspec hcombine (hx.mono hle) (hy.mono hle) (hf.zeroPoints.mono hle)
    (hm.mono (hle₂.trans (hle₃.trans (hle₄.trans hle₅)))) (hn.mono hle₅)

end Factors

namespace Rule

variable {config : LoweringConfig} {operands : BinaryOperands} {x y : OperandInfo}
  {m k k' n : Nat}

/-- It makes no difference whether unsigned elements of plain operands are widened with a sign. -/
def SignFree (a b : Tensor) (za : Option Binary64) : Prop :=
  za = none → a.dtype.isUnsignedInteger = true →
    a.widened .signed = a.widened .unsigned ∧ b.widened .signed = b.widened .unsigned

/-- Both rules make one product of prepared matrices. -/
theorem exists_product_outcome (config : LoweringConfig) (result : TensorType)
    (hf : f.Prepared s (a.normalized za) (b.normalized zb) (storedZeros a b za zb))
    (hquantized : za.isSome = zb.isSome) (ha : a.shape = [m, k]) (hb : b.shape = [k, n])
    (hsign : SignFree a b za) (hexact : config.assumeEqualSizes = true → Binary64.IsExact k) :
    ∃ o, (mmProduct config f a.dtype.isUnsignedInteger result).Ends s o ∧
      (f.inForm .matmul >>= fun u => finish u result).Ends s o := by
  obtain ⟨xs, hxs⟩ := hf.lhs.exists_axes
  obtain ⟨ys, hys⟩ := hf.rhs.exists_axes
  have hleft : [m, k] = xs.map DeclaredAxis.size := by
    rw [← hxs.shape, Tensor.shape_normalized, ha]
  have hright : [k, n] = ys.map DeclaredAxis.size := by
    rw [← hys.shape, Tensor.shape_normalized, hb]
  obtain ⟨rows, inner, rfl⟩ := List.length_eq_two.1 (by simpa using congrArg List.length hleft.symm)
  obtain ⟨inner', columns, rfl⟩ :=
    List.length_eq_two.1 (by simpa using congrArg List.length hright.symm)
  obtain ⟨-, rfl⟩ : m = rows.size ∧ k = inner.size := by simpa using hleft
  obtain ⟨hsize, -⟩ : inner.size = inner'.size ∧ n = columns.size := by simpa using hright
  have hequal : config.assumeEqualSizes = true → inner.read = inner'.read := by
    intro hstrict
    rw [DeclaredAxis.read_of_isExact fun _ => hexact hstrict,
      DeclaredAxis.read_of_isExact fun _ => hsize ▸ hexact hstrict, hsize]
  refine ⟨_, ?_, Factors.matmul_ends hf hxs hys⟩
  have hmm := Factors.mmProduct_ends config result hf hxs hys a.dtype.isUnsignedInteger
  rw [Factors.mmOutcome_eq hequal] at hmm
  have hcast : Factors.matrixSums result f.accumulator (mmSpec f a.dtype.isUnsignedInteger).cast
      (a.normalized za) (b.normalized zb) (storedZeros a b za zb) rows columns =
        Factors.matrixSums result f.accumulator .signed (a.normalized za) (b.normalized zb)
          (storedZeros a b za zb) rows columns := by
    have hf' := hf.quantized
    unfold mmSpec
    cases za with
    | some z =>
        obtain ⟨z', rfl⟩ := Option.isSome_iff_exists.1 hquantized.symm
        rw [hf']
        rfl
    | none =>
        obtain rfl : zb = none := by simpa using hquantized.symm
        rw [hf']
        cases hunsigned : a.dtype.isUnsignedInteger with
        | false => rfl
        | true =>
            obtain ⟨hwa, hwb⟩ := hsign rfl hunsigned
            change Factors.matrixSums result f.accumulator .unsigned a b none rows columns =
              Factors.matrixSums result f.accumulator .signed a b none rows columns
            rw [Factors.matrixSums, ← hwa, ← hwb, Factors.matrixSums]
  rwa [Factors.matrixOutcome, hcast] at hmm

/-- What `mm` does once its operands are known to be matrices. -/
theorem ends_lowerMm {o : Except EvalError Tensor}
    (hlhs : OperandInfo.extract s.graph operands.lhs = .ok x)
    (hrhs : OperandInfo.extract s.graph operands.rhs = .ok y) (hx : s.Reads x a za)
    (hy : s.Reads y b zb) (ha : a.shape = [m, k]) (hb : b.shape = [k', n])
    (h : (Factors.prepare x y result "mm" >>= fun f =>
      mmProduct config f a.dtype.isUnsignedInteger result).Ends s o) :
    (lowerMm config operands result).Ends s o := by
  refine Meets.query hlhs (Meets.query hrhs ?_)
  rw [if_neg (by simp [hx.rank, hy.rank, ha, hb]), ← hx.type.dtype]
  exact h

/-- What `matmul` does once the ranks of its operands are known to have a form. -/
theorem ends_lowerMatmul {o : Except EvalError Tensor} {form : ProductForm}
    (hlhs : OperandInfo.extract s.graph operands.lhs = .ok x)
    (hrhs : OperandInfo.extract s.graph operands.rhs = .ok y) (hx : s.Reads x a za)
    (hy : s.Reads y b zb) (hform : ProductForm.ofRanks? a.shape.length b.shape.length = some form)
    (h : (Factors.prepare x y result "matmul" >>= fun f =>
      f.inForm form >>= fun u => finish u result).Ends s o) :
    (lowerMatmul operands result).Ends s o := by
  refine Meets.query hlhs (Meets.query hrhs ?_)
  rw [hx.rank, hy.rank, hform]
  exact h

/-- Whatever the preparation of the operands comes to, both rules go on alike. -/
theorem exists_matrix_outcome (config : LoweringConfig) (result : TensorType)
    (hlhs : OperandInfo.extract s.graph operands.lhs = .ok x)
    (hrhs : OperandInfo.extract s.graph operands.rhs = .ok y) (hx : s.Reads x a za)
    (hy : s.Reads y b zb) (ha : a.shape = [m, k]) (hb : b.shape = [k, n])
    (hsign : SignFree a b za) (hexact : config.assumeEqualSizes = true → Binary64.IsExact k) :
    ∃ o, (lowerMm config operands result).Ends s o ∧ (lowerMatmul operands result).Ends s o := by
  have hform : ProductForm.ofRanks? a.shape.length b.shape.length = some .matmul := by
    rw [ha, hb]
    rfl
  by_cases htyped : Factors.Typed a b za zb result.dtype
  · obtain ⟨acc, -, hprepare⟩ := Factors.prepare_eq_normalize hx hy htyped
    obtain ⟨o, hmm, hmatmul⟩ : ∃ o,
        (Factors.prepare x y result "mm" >>= fun f =>
          mmProduct config f a.dtype.isUnsignedInteger result).Ends s o ∧
        (Factors.prepare x y result "mm" >>= fun f =>
          f.inForm .matmul >>= fun u => finish u result).Ends s o :=
      exists_ends_bind (Factors.prepare_meets hx hy fun _ _ => trivial) fun f s₁ _ ⟨_, hf, _⟩ =>
        exists_product_outcome config result hf htyped.quantized ha hb hsign hexact
    rw [hprepare, ← hprepare "matmul"] at hmatmul
    exact ⟨o, ends_lowerMm hlhs hrhs hx hy ha hb hmm,
      ends_lowerMatmul hlhs hrhs hx hy hform hmatmul⟩
  · obtain ⟨e, he⟩ := Factors.fails_prepare hx hy htyped "mm"
    obtain ⟨e', he'⟩ := Factors.fails_prepare hx hy htyped "matmul"
    refine ⟨.error (.guardFailed ""), ends_lowerMm hlhs hrhs hx hy ha hb ?_,
      ends_lowerMatmul hlhs hrhs hx hy hform ?_⟩
    · rw [he]
      trivial
    · rw [he']
      trivial

/-- Where doubles hold the sizes and the product fits, it is a tensor. -/
theorem matrices_meet (hlhs : OperandInfo.extract s.graph operands.lhs = .ok x)
    (hrhs : OperandInfo.extract s.graph operands.rhs = .ok y) (hx : s.Reads x a za)
    (hy : s.Reads y b zb) (ha : a.shape = [m, k]) (hb : b.shape = [k, n])
    (hexact : ∀ size ∈ [m, k, n], Binary64.IsExact size) (hfit : ¬ TooLarge [m, n])
    (hadmits : result.shape.Admits [m, n]) :
    (lowerMatmul operands result).Meets (.failing fun _ => True) s fun v s' =>
      ∃ t, s'.env.get? v = some (.tensor t) := by
  have hm := hexact m (by simp)
  have hk := hexact k (by simp)
  have hn := hexact n (by simp)
  refine Meets.query hlhs (Meets.query hrhs ?_)
  have hform : ProductForm.ofRanks? a.shape.length b.shape.length = some .matmul := by
    rw [ha, hb]
    rfl
  rw [hx.rank, hy.rank, hform]
  refine Meets.bind (Factors.prepare_meets hx hy fun _ _ => trivial) ?_
  rintro f s₁ - ⟨-, hf, -⟩
  rw [Factors.inForm_matmul]
  refine Meets.bind (Factors.matmul_meets hf.zeroPoints hf.quantized hf.lhs hf.rhs
    ((a.shape_normalized za).trans ha) ((b.shape_normalized zb).trans hb) ⟨hm, hk⟩ ⟨hk, hn⟩
    (fun _ => hfit) fun hne => absurd rfl hne) ?_
  rintro u s₂ - ⟨-, hu⟩
  exact (finish_meets hu (fun hno => absurd hadmits hno) fun hno => absurd hadmits hno).weaken
    fun v s₃ _ hv => ⟨_, hv.1⟩

variable {g : Graph} {supply : Supply} {env : Env} {d d' : Draft}

/-- Both rules for matrices give programs of one outcome. It is a tensor where doubles hold the
sizes, an array can have those of the product, and the declared type admits them. -/
theorem mm_matmul_agree (config config' : LoweringConfig) (h : g.evaluate supply = .ok env)
    (hlhs : g.Operand env operands.lhs a za) (hrhs : g.Operand env operands.rhs b zb)
    (ha : a.shape = [m, k]) (hb : b.shape = [k, n]) (hsign : SignFree a b za)
    (hexact : config.assumeEqualSizes = true → Binary64.IsExact k)
    (hmm : (mm.apply config (.mm operands) result).run (.ofGraph g) = (.ok v, d))
    (hmatmul : (matmul.apply config' (.matmul operands) result).run (.ofGraph g) = (.ok w, d')) :
    (d.commit.withOutputs [v]).run supply = (d'.commit.withOutputs [w]).run supply ∧
      ((∀ size ∈ [m, k, n], Binary64.IsExact size) → ¬ TooLarge [m, n] →
        result.shape.Admits [m, n] →
          ∃ t, (d.commit.withOutputs [v]).run supply = .ok [.tensor t]) := by
  obtain ⟨x, hx, hxreads⟩ := hlhs.reads h
  obtain ⟨y, hy, hyreads⟩ := hrhs.reads h
  obtain ⟨o, hends, hends'⟩ := exists_matrix_outcome config result
    (s := Stage.ofRun h) hx hy hxreads hyreads ha hb hsign hexact
  have hrun : (d.commit.withOutputs [v]).run supply = (d'.commit.withOutputs [w]).run supply :=
    (hends.run h hmm).trans (hends'.run h hmatmul).symm
  refine ⟨hrun, fun hsizes hfit hadmits => ?_⟩
  rw [hrun]
  rcases Meets.commit h (matrices_meet hx hy hxreads hyreads ha hb hsizes hfit hadmits) hmatmul
    fun _ _ _ _ _ _ _ => trivial with ⟨e, -, hstop⟩ | ⟨e, he, -⟩ | ⟨u, s, hu, ⟨t, hget⟩, heval⟩
  · exact hstop.elim
  · cases he
  · cases hu
    exact ⟨t, run_withOutputs heval hget⟩

section Bytes

/-- Bytes of which the highest bit is not set. -/
def lowRow : Tensor := .ofEntries (.unsigned .w8) [1, 2] fun ix => .ofInt (100 + ix.getD 1 0)

def lowColumn : Tensor := .ofEntries (.unsigned .w8) [2, 1] fun ix => .ofInt (3 + ix.getD 0 0)

/-- Matrices of bytes with open sizes. -/
def openBytes : TensorType := ⟨.unsigned .w8, ⟨[.dynamic, .dynamic]⟩⟩

/-- The standard configuration, except that open sizes are taken to agree. -/
def trusting : LoweringConfig := { LoweringConfig.standard with assumeEqualSizes := true }

theorem low_bytes_agree :
    ∃ v d w e, (mm.apply trusting (.mm ⟨⟨0⟩, ⟨1⟩⟩) openBytes).run
          (.ofGraph (.takingAs [openBytes, lowColumn.type])) = (.ok v, d) ∧
      (matmul.apply trusting (.matmul ⟨⟨0⟩, ⟨1⟩⟩) openBytes).run
          (.ofGraph (.takingAs [openBytes, lowColumn.type])) = (.ok w, e) ∧
      (d.commit.withOutputs [v]).run (.takingIn [lowRow, lowColumn]) =
        (e.commit.withOutputs [w]).run (.takingIn [lowRow, lowColumn]) ∧
      ∃ t, (d.commit.withOutputs [v]).run (.takingIn [lowRow, lowColumn]) = .ok [.tensor t] := by
  obtain ⟨v, d, hmm⟩ : ∃ v d, (mm.apply trusting (.mm ⟨⟨0⟩, ⟨1⟩⟩) openBytes).run
      (.ofGraph (.takingAs [openBytes, lowColumn.type])) = (.ok v, d) := ⟨_, _, rfl⟩
  obtain ⟨w, e, hmatmul⟩ : ∃ w e, (matmul.apply trusting (.matmul ⟨⟨0⟩, ⟨1⟩⟩) openBytes).run
      (.ofGraph (.takingAs [openBytes, lowColumn.type])) = (.ok w, e) := ⟨_, _, rfl⟩
  obtain ⟨env, h, hoperand⟩ := Graph.operand_takingAs [openBytes, lowColumn.type]
    [lowRow, lowColumn] (by decide)
  obtain ⟨hsame, htensor⟩ := mm_matmul_agree trusting trusting h (hoperand 0 lowRow rfl)
    (hoperand 1 lowColumn rfl) rfl rfl (fun _ _ => by decide +kernel) (fun _ => by decide +kernel)
    hmm hmatmul
  exact ⟨v, d, w, e, hmm, hmatmul, hsame, htensor (by decide +kernel) (by decide) (by decide)⟩

end Bytes

/-! ## Matrices on which the rules differ -/

/-- How the rules end for operands that are not quantized. -/
theorem plain_matrices_end {acc : DType} (config : LoweringConfig) (operands : BinaryOperands)
    (hlhs : OperandInfo.extract s.graph operands.lhs = .ok x)
    (hrhs : OperandInfo.extract s.graph operands.rhs = .ok y) (hx : s.Reads x a none)
    (hy : s.Reads y b none) (htyped : Factors.Typed a b none none result.dtype)
    (hacc : a.dtype.accumulator? = some acc) (hxs : s.HasAxes x.value a [rows, inner])
    (hys : s.HasAxes y.value b [inner', columns]) :
    (lowerMm config operands result).Ends s
        (Factors.mmOutcome config result acc
          (if a.dtype.isUnsignedInteger then .unsigned else .signed) a b none rows inner inner'
          columns) ∧
      (lowerMatmul operands result).Ends s
        (Factors.matrixOutcome result acc .signed a b none rows inner inner' columns) := by
  have hform : ProductForm.ofRanks? a.shape.length b.shape.length = some .matmul := by
    rw [hxs.shape, hys.shape]
    rfl
  refine ⟨ends_lowerMm hlhs hrhs hx hy hxs.shape hys.shape ?_,
    ends_lowerMatmul hlhs hrhs hx hy hform ?_⟩
  · obtain ⟨hprepare, hf⟩ := Factors.prepare_plain hx hy htyped hacc "mm"
    rw [hprepare, LawfulMonad.pure_bind]
    have hends := Factors.mmProduct_ends config result hf hxs hys
      a.dtype.isUnsignedInteger
    have hcast : (mmSpec ⟨x, y, acc⟩ a.dtype.isUnsignedInteger).cast =
        if a.dtype.isUnsignedInteger then .unsigned else .signed := by
      rw [mmSpec, hf.quantized]
      cases a.dtype.isUnsignedInteger <;> rfl
    rwa [hcast] at hends
  · obtain ⟨hprepare, hf⟩ := Factors.prepare_plain hx hy htyped hacc "matmul"
    rw [hprepare, LawfulMonad.pure_bind]
    exact Factors.matmul_ends hf hxs hys

/-- The programs that multiply two matrices that are taken in. -/
theorem plain_matrices_run {acc : DType} {lhs rhs : TensorType} (config : LoweringConfig)
    (result : TensorType) (ha : a.HasType lhs) (hb : b.HasType rhs)
    (hxs : List.zipWith DeclaredAxis.mk lhs.shape.dims a.shape = [rows, inner])
    (hys : List.zipWith DeclaredAxis.mk rhs.shape.dims b.shape = [inner', columns])
    (htyped : Factors.Typed a b none none result.dtype) (hacc : a.dtype.accumulator? = some acc) :
    (∀ v d, (mm.apply config (.mm ⟨⟨0⟩, ⟨1⟩⟩) result).run (.ofGraph (.takingAs [lhs, rhs])) =
        (.ok v, d) → (d.commit.withOutputs [v]).run (.takingIn [a, b]) =
          (Factors.mmOutcome config result acc
            (if a.dtype.isUnsignedInteger then .unsigned else .signed) a b none rows inner inner'
            columns).map fun t => [.tensor t]) ∧
      ∀ v d, (matmul.apply config (.matmul ⟨⟨0⟩, ⟨1⟩⟩) result).run
          (.ofGraph (.takingAs [lhs, rhs])) = (.ok v, d) →
        (d.commit.withOutputs [v]).run (.takingIn [a, b]) =
          (Factors.matrixOutcome result acc .signed a b none rows inner inner' columns).map
            fun t => [.tensor t] := by
  obtain ⟨env, h, haxes⟩ := Graph.axes_takingAs (.cons ha (.cons hb .nil))
  obtain ⟨hlhs, hx, hxs'⟩ := haxes 0 a lhs rfl rfl
  obtain ⟨hrhs, hy, hys'⟩ := haxes 1 b rhs rfl rfl
  rw [hxs] at hxs'
  rw [hys] at hys'
  obtain ⟨hmm, hmatmul⟩ := plain_matrices_end (s := Stage.ofRun h) config ⟨⟨0⟩, ⟨1⟩⟩ hlhs
    hrhs hx hy htyped hacc hxs' hys'
  exact ⟨fun v d hrun => hmm.run h hrun, fun v d hrun => hmatmul.run h hrun⟩

section Differing

/-- A byte of which the highest bit is set. -/
def highByte : Tensor := .ofEntries (.unsigned .w8) [1, 1] fun _ => .ofInt 200

def unitByte : Tensor := .ofEntries (.unsigned .w8) [1, 1] fun _ => .ofInt 1

/-- More columns than a double can count, of nothing. -/
def wideMatrix : Tensor := .ofEntries .float32 [0, oversize] fun _ => 0

def tallMatrix : Tensor := .ofEntries .float32 [oversize, 0] fun _ => 0

def integerTensor (sizes : List Nat) (n : Int) : Tensor :=
  .ofEntries (.signed .w32) sizes fun _ => .ofInt n

/-- The rules read a high byte as another number; only one of them looks at open sizes that it may
take for equal; and neither gives a tensor that its declared type does not admit. -/
theorem mm_matmul_differ :
    ((mm.apply .standard (.mm ⟨⟨0⟩, ⟨1⟩⟩) ⟨.signed .w32, .ofSizes [1, 1]⟩).Computes
        (.takingAs [highByte.type, unitByte.type]) (.takingIn [highByte, unitByte])
        (integerTensor [1, 1] 200) ∧
      (matmul.apply .standard (.matmul ⟨⟨0⟩, ⟨1⟩⟩) ⟨.signed .w32, .ofSizes [1, 1]⟩).Computes
        (.takingAs [highByte.type, unitByte.type]) (.takingIn [highByte, unitByte])
        (integerTensor [1, 1] (-56))) ∧
    ((mm.apply trusting (.mm ⟨⟨0⟩, ⟨1⟩⟩) ⟨.float32, .ofSizes [0, 0]⟩).Computes
        (.takingAs [wideMatrix.type, openMatrix]) (.takingIn [wideMatrix, tallMatrix])
        (zeroTensor [0, 0]) ∧
      ∃ v d, (matmul.apply trusting (.matmul ⟨⟨0⟩, ⟨1⟩⟩) ⟨.float32, .ofSizes [0, 0]⟩).run
          (.ofGraph (.takingAs [wideMatrix.type, openMatrix])) = (.ok v, d) ∧
        (d.commit.withOutputs [v]).run (.takingIn [wideMatrix, tallMatrix]) =
          .error (.guardFailed "mismatching contracting dimension")) ∧
    ∃ v d w e, (mm.apply .standard (.mm ⟨⟨0⟩, ⟨1⟩⟩) ⟨.float32, .ofSizes [2, 2]⟩).run
          (.ofGraph (.takingAs [openMatrix, openMatrix])) = (.ok v, d) ∧
        (d.commit.withOutputs [v]).run (.takingIn [zeroTensor [1, 1], zeroTensor [1, 1]]) =
          .error (.declaredShape [1, 1] (.ofSizes [2, 2])) ∧
      (matmul.apply .standard (.matmul ⟨⟨0⟩, ⟨1⟩⟩) ⟨.float32, .ofSizes [2, 2]⟩).run
          (.ofGraph (.takingAs [openMatrix, openMatrix])) = (.ok w, e) ∧
        (e.commit.withOutputs [w]).run (.takingIn [zeroTensor [1, 1], zeroTensor [1, 1]]) =
          .error (.declaredShape [1, 1] (.ofSizes [2, 2])) := by
  have hbytes : Factors.Typed highByte unitByte none none (.signed .w32) :=
    ⟨rfl, rfl, rfl, rfl, fun _ => rfl⟩
  have hwide : Factors.Typed wideMatrix tallMatrix none none .float32 :=
    ⟨rfl, rfl, rfl, rfl, fun _ => rfl⟩
  have hunits : Factors.Typed (zeroTensor [1, 1]) (zeroTensor [1, 1]) none none .float32 :=
    ⟨rfl, rfl, rfl, rfl, fun _ => rfl⟩
  have hhigh := plain_matrices_run .standard ⟨.signed .w32, .ofSizes [1, 1]⟩
    (Tensor.hasType_type highByte) (Tensor.hasType_type unitByte) rfl rfl hbytes rfl
  have hopen := plain_matrices_run trusting ⟨.float32, .ofSizes [0, 0]⟩
    (Tensor.hasType_type wideMatrix) (show tallMatrix.HasType openMatrix by decide) rfl rfl hwide
    rfl
  have hunit := plain_matrices_run .standard ⟨.float32, .ofSizes [2, 2]⟩
    (show (zeroTensor [1, 1]).HasType openMatrix by decide)
    (show (zeroTensor [1, 1]).HasType openMatrix by decide) rfl rfl hunits rfl
  refine ⟨⟨⟨_, _, rfl, (hhigh.1 _ _ rfl).trans ?_⟩, _, _, rfl, (hhigh.2 _ _ rfl).trans ?_⟩,
    ⟨⟨_, _, rfl, (hopen.1 _ _ rfl).trans ?_⟩, _, _, rfl, (hopen.2 _ _ rfl).trans ?_⟩,
    _, _, _, _, rfl, (hunit.1 _ _ rfl).trans ?_, rfl, (hunit.2 _ _ rfl).trans ?_⟩
  all_goals decide +kernel

end Differing

end Rule

end TensorLowering
