import TensorLowering.Lowering.MatrixProduct.Rules
import TensorLowering.Proofs.Build.ScopedOperands
import TensorLowering.Proofs.MatrixProduct.Batched

/-!
# Matrix products of operands that have been seen

Main statement: each of the three products stays within its two operands, and gives a value of
exactly the declared type.
-/
namespace TensorLowering

open Build

instance : Mentions Factors := ⟨fun f => Mentions.values f.lhs ++ Mentions.values f.rhs⟩

instance : Mentions BatchSizes := ⟨fun b => Mentions.values (b.rows :: b.columns :: b.batch)⟩

namespace Scope

variable {s : Scope}

@[simp] theorem sees_factors {f : Factors} : s.Sees f ↔ s.Sees f.lhs ∧ s.Sees f.rhs := by
  simp only [Sees, Mentions.values, List.mem_append, or_imp, forall_and]

@[simp] theorem sees_batchSizes {b : BatchSizes} :
    s.Sees b ↔ s.Sees b.rows ∧ s.Sees b.columns ∧ s.Sees b.batch := by
  change s.Sees (b.rows :: b.columns :: b.batch) ↔ _
  simp

theorem sees_matrix {batch : List Size} {rows columns : Size} (hbatch : s.Sees batch)
    (hrow : s.Sees rows) (hcolumn : s.Sees columns) : s.Sees (batch ++ [rows, columns]) :=
  sees_append.2 ⟨hbatch, sees_cons.2 ⟨hrow, sees_cons.2 ⟨hcolumn, sees_nil⟩⟩⟩

end Scope

variable {s : Scope}

namespace Factors

variable {f : Factors} {x y : OperandInfo} {lhs rhs init : ValueId} {z z' : Size}

theorem prepare_stays (hx : s.Sees x) (hy : s.Sees y) (result : TensorType) (operator : String) :
    (prepare x y result operator).Stays s := by
  refine Within.attempt fun _ _ => Within.attempt fun _ _ => Within.attempt fun _ _ => ?_
  split
  · exact trivial
  · refine Within.attempt fun acc _ => ?_
    refine Stays.bind (OperandInfo.normalizePair_stays hx hy operator) fun pair s' _ hpair => ?_
    exact .pure (Scope.sees_factors.2 (Scope.sees_pair.1 hpair))

/-- The storage of both factors, and the zero-points. -/
theorem sees_parts (hf : s.Sees f) :
    f.lhs.value ∈ s.seen ∧ f.rhs.value ∈ s.seen ∧ s.Sees f.zeroPoints? := by
  obtain ⟨hl, hr⟩ := Scope.sees_factors.1 hf
  exact ⟨(Scope.sees_operand.1 hl).1, (Scope.sees_operand.1 hr).1,
    OperandInfo.sees_zeroPoints? hl hr⟩

theorem reduce_stays (hf : s.Sees f) (spec : ReductionSpec) (hl : lhs ∈ s.seen)
    (hr : rhs ∈ s.seen) (hinit : init ∈ s.seen) : (f.reduce spec lhs rhs init).Stays s :=
  Build.reduce_stays spec hl hr (sees_parts hf).2.2 hinit

theorem requireContraction_stays (hz : s.Sees z) (hz' : s.Sees z') :
    (requireContraction z z').Stays s := requireEqual_stays hz hz' _

/-- A reduction into zeros. -/
theorem zeros_reduce_stays {sizes : List Size} (hf : s.Sees f) (hsizes : s.Sees sizes)
    (spec : ReductionSpec) (hl : lhs ∈ s.seen) (hr : rhs ∈ s.seen) :
    (zeros sizes f.accumulator >>= fun init => f.reduce spec lhs rhs init).Stays s :=
  Stays.bind (zeros_stays hsizes _) fun _ _ hle hinit =>
    reduce_stays (hf.mono hle) spec (hle hl) (hle hr) (Scope.sees_value.1 hinit)

theorem dot_stays (hf : s.Sees f) : f.dot.Stays s := by
  obtain ⟨hl, hr, -⟩ := sees_parts hf
  refine Stays.bind (dim_stays hl 0) fun inner s₁ hle₁ hinner => ?_
  refine Stays.bind (dim_stays (hle₁ hr) 0) fun inner' s₂ hle₂ hinner' => ?_
  refine Stays.bind (requireContraction_stays (hinner.mono hle₂) hinner') fun _ s₃ hle₃ _ => ?_
  have hle : s ≤ s₃ := hle₁.trans (hle₂.trans hle₃)
  exact zeros_reduce_stays (hf.mono hle) Scope.sees_nil _ (hle hl) (hle hr)

theorem vecmat_stays (hf : s.Sees f) : f.vecmat.Stays s := by
  obtain ⟨hl, hr, -⟩ := sees_parts hf
  refine Stays.bind (dim_stays hl 0) fun inner s₁ hle₁ hinner => ?_
  refine Stays.bind (dim_stays (hle₁ hr) 0) fun inner' s₂ hle₂ hinner' => ?_
  refine Stays.bind (dim_stays (hle₂ (hle₁ hr)) 1) fun columns s₃ hle₃ hcolumns => ?_
  refine Stays.bind (requireContraction_stays (hinner.mono (hle₂.trans hle₃))
    (hinner'.mono hle₃)) fun _ s₄ hle₄ _ => ?_
  have hle : s ≤ s₄ := hle₁.trans (hle₂.trans (hle₃.trans hle₄))
  exact zeros_reduce_stays (hf.mono hle)
    (Scope.sees_cons.2 ⟨hcolumns.mono hle₄, Scope.sees_nil⟩) _ (hle hl) (hle hr)

theorem matvec_stays (hf : s.Sees f) : f.matvec.Stays s := by
  obtain ⟨hl, hr, -⟩ := sees_parts hf
  refine Stays.bind (dim_stays hl 0) fun rows s₁ hle₁ hrows => ?_
  refine Stays.bind (dim_stays (hle₁ hl) 1) fun inner s₂ hle₂ hinner => ?_
  refine Stays.bind (dim_stays (hle₂ (hle₁ hr)) 0) fun inner' s₃ hle₃ hinner' => ?_
  refine Stays.bind (requireContraction_stays (hinner.mono hle₃) hinner') fun _ s₄ hle₄ _ => ?_
  have hle : s ≤ s₄ := hle₁.trans (hle₂.trans (hle₃.trans hle₄))
  exact zeros_reduce_stays (hf.mono hle)
    (Scope.sees_cons.2 ⟨hrows.mono (hle₂.trans (hle₃.trans hle₄)), Scope.sees_nil⟩) _ (hle hl)
    (hle hr)

theorem matmul_stays (hf : s.Sees f) (hl : lhs ∈ s.seen) (hr : rhs ∈ s.seen) :
    (f.matmul lhs rhs).Stays s := by
  refine Stays.bind (dim_stays hl 0) fun rows s₁ hle₁ hrows => ?_
  refine Stays.bind (dim_stays (hle₁ hl) 1) fun inner s₂ hle₂ hinner => ?_
  refine Stays.bind (dim_stays (hle₂ (hle₁ hr)) 0) fun inner' s₃ hle₃ hinner' => ?_
  refine Stays.bind (dim_stays (hle₃ (hle₂ (hle₁ hr))) 1) fun columns s₄ hle₄ hcolumns => ?_
  refine Stays.bind (requireContraction_stays (hinner.mono (hle₃.trans hle₄))
    (hinner'.mono hle₄)) fun _ s₅ hle₅ _ => ?_
  have hle₂₅ : s₁ ≤ s₅ := hle₂.trans (hle₃.trans (hle₄.trans hle₅))
  have hle : s ≤ s₅ := hle₁.trans hle₂₅
  exact zeros_reduce_stays (hf.mono hle)
    (Scope.sees_cons.2 ⟨hrows.mono hle₂₅,
      Scope.sees_cons.2 ⟨hcolumns.mono hle₅, Scope.sees_nil⟩⟩) _ (hle hl) (hle hr)

/-- A vector with a unit axis on either side. -/
theorem asMatrix_stays (hx : x.value ∈ s.seen) (sizes : Size → Size → List Size)
    (hsizes : ∀ (one inner : Size) (s' : Scope), s'.Sees one → s'.Sees inner →
      s'.Sees (sizes one inner)) :
    (if x.rank = 1 then do
      let one ← index 1
      let inner ← dim x.value 0
      expandShape x.value unitFold (sizes one inner)
    else return x.value : Build ValueId).Stays s := by
  split
  · refine Stays.bind (index_stays 1) fun one s₁ hle₁ hone => ?_
    refine Stays.bind (dim_stays (hle₁ hx) 0) fun inner s₂ hle₂ hinner => ?_
    exact expandShape_stays (hle₂ (hle₁ hx)) _ (hsizes one inner s₂ (hone.mono hle₂) hinner)
  · exact .pure (Scope.sees_value.2 hx)

theorem quantizedVector_stays (hf : s.Sees f) (isDot : Bool) :
    (f.quantizedVector isDot).Stays s := by
  obtain ⟨hl, hr, -⟩ := sees_parts hf
  refine Stays.bind (asMatrix_stays hl (fun one inner => [one, inner])
    fun one inner s' hone hinner => ?_) fun lhs s₁ hle₁ hlhs => ?_
  · exact Scope.sees_cons.2 ⟨hone, Scope.sees_cons.2 ⟨hinner, Scope.sees_nil⟩⟩
  refine Stays.bind (asMatrix_stays (hle₁ hr) (fun one inner => [inner, one])
    fun one inner s' hone hinner => ?_) fun rhs s₂ hle₂ hrhs => ?_
  · exact Scope.sees_cons.2 ⟨hinner, Scope.sees_cons.2 ⟨hone, Scope.sees_nil⟩⟩
  rw [Scope.sees_value] at hlhs hrhs
  refine Stays.bind (matmul_stays (hf.mono (hle₁.trans hle₂)) (hle₂ hlhs) hrhs) ?_
  intro product s₃ _ hproduct
  exact collapseShape_stays (Scope.sees_value.1 hproduct) _

theorem batchSizes_stays (hx : x.value ∈ s.seen) : (batchSizes x).Stays s := by
  refine Stays.bind (.mapM fun axis _ s' hle => dim_stays (hle hx) axis) ?_
  intro batch s₁ hle₁ hbatch
  refine Stays.bind (dim_stays (hle₁ hx) _) fun rows s₂ hle₂ hrows => ?_
  refine Stays.bind (dim_stays (hle₂ (hle₁ hx)) _) fun columns s₃ hle₃ hcolumns => ?_
  exact .pure (Scope.sees_batchSizes.2
    ⟨hrows.mono hle₃, hcolumns, hbatch.mono (hle₂.trans hle₃)⟩)

theorem product_stays {sizes : List Size} (h : s.Sees sizes) : (product sizes).Stays s := by
  cases sizes with
  | nil => exact index_stays 1
  | cons first rest =>
      obtain ⟨hfirst, hrest⟩ := Scope.sees_cons.1 h
      refine Stays.foldlM hfirst fun z z' hz' s' hle hz => ?_
      exact arith_stays .mul hz ((Scope.sees_list.1 hrest z' hz').mono hle)

theorem foldedProduct_stays {batch : List Size} {rows columns : Size} (hf : s.Sees f)
    (hbatch : s.Sees batch) (hrow : s.Sees rows) (hcolumn : s.Sees columns) (hl : lhs ∈ s.seen)
    (hr : rhs ∈ s.seen) : (f.foldedProduct batch rows columns lhs rhs).Stays s := by
  refine Stays.bind (collapseShape_stays hl _) fun lhs s₁ hle₁ hlhs => ?_
  refine Stays.bind (collapseShape_stays (hle₁ hr) _) fun rhs s₂ hle₂ hrhs => ?_
  rw [Scope.sees_value] at hlhs hrhs
  refine Stays.bind (product_stays (hbatch.mono (hle₁.trans hle₂))) fun size s₃ hle₃ hsize => ?_
  have hle : s ≤ s₃ := hle₁.trans (hle₂.trans hle₃)
  have hsizes : s₃.Sees [size, rows, columns] := Scope.sees_cons.2 ⟨hsize,
    Scope.sees_cons.2 ⟨hrow.mono hle, Scope.sees_cons.2 ⟨hcolumn.mono hle, Scope.sees_nil⟩⟩⟩
  rw [← LawfulMonad.bind_assoc]
  refine Stays.bind (zeros_reduce_stays (hf.mono hle) hsizes _ (hle₃ (hle₂ hlhs)) (hle₃ hrhs)) ?_
  intro result s₄ hle₄ hresult
  exact expandShape_stays (Scope.sees_value.1 hresult) _
    (Scope.sees_matrix hbatch hrow hcolumn |>.mono (hle.trans hle₄))

theorem commonProduct_stays {batch : List Size} {rows columns : Size} (hf : s.Sees f)
    (hbatch : s.Sees batch) (hrow : s.Sees rows) (hcolumn : s.Sees columns) (hl : lhs ∈ s.seen)
    (hr : rhs ∈ s.seen) : (f.commonProduct batch rows columns lhs rhs).Stays s := by
  have hout := Scope.sees_matrix hbatch hrow hcolumn
  unfold commonProduct
  split
  · exact zeros_reduce_stays hf hout _ hl hr
  split
  · exact foldedProduct_stays hf hbatch hrow hcolumn hl hr
  · exact zeros_reduce_stays hf hout _ hl hr

theorem batched_stays (hf : s.Sees f) : f.batched.Stays s := by
  obtain ⟨hl, hr, -⟩ := sees_parts hf
  refine Stays.bind (batchSizes_stays hl) fun x s₁ hle₁ hx => ?_
  refine Stays.bind (batchSizes_stays (hle₁ hr)) fun y s₂ hle₂ hy => ?_
  obtain ⟨hxrows, hxcolumns, hxbatch⟩ := Scope.sees_batchSizes.1 (hx.mono hle₂)
  obtain ⟨hyrows, hycolumns, hybatch⟩ := Scope.sees_batchSizes.1 hy
  refine Stays.bind (broadcastSizes_stays hxbatch hybatch) fun batch s₃ hle₃ hbatch => ?_
  refine Stays.bind (requireContraction_stays (hxcolumns.mono hle₃) (hyrows.mono hle₃)) ?_
  intro _ s₄ hle₄ _
  have hle₂₄ : s₂ ≤ s₄ := hle₃.trans hle₄
  have hle₀₄ : s ≤ s₄ := hle₁.trans (hle₂.trans hle₂₄)
  have hbatch₄ := hbatch.mono hle₄
  refine Stays.bind (broadcastTo_stays (hle₀₄ hl)
    (Scope.sees_matrix hbatch₄ (hxrows.mono hle₂₄) (hxcolumns.mono hle₂₄))) ?_
  intro lhs s₅ hle₅ hlhs
  have hle₂₅ : s₂ ≤ s₅ := hle₂₄.trans hle₅
  refine Stays.bind (broadcastTo_stays (hle₅ (hle₀₄ hr)) (Scope.sees_matrix (hbatch₄.mono hle₅)
    (hyrows.mono hle₂₅) (hycolumns.mono hle₂₅))) ?_
  intro rhs s₆ hle₆ hrhs
  rw [Scope.sees_value] at hlhs hrhs
  have hle₂₆ : s₂ ≤ s₆ := hle₂₅.trans hle₆
  exact commonProduct_stays (hf.mono (hle₁.trans (hle₂.trans hle₂₆)))
    (hbatch₄.mono (hle₅.trans hle₆)) (hxrows.mono hle₂₆) (hycolumns.mono hle₂₆) (hle₆ hlhs) hrhs

theorem inForm_stays (hf : s.Sees f) (form : ProductForm) : (f.inForm form).Stays s := by
  obtain ⟨hl, hr, -⟩ := sees_parts hf
  unfold inForm
  split
  · exact quantizedVector_stays hf _
  · cases form with
    | dot => exact dot_stays hf
    | vecmat => exact vecmat_stays hf
    | matvec => exact matvec_stays hf
    | matmul => exact matmul_stays hf hl hr
    | batched rank => exact batched_stays hf

end Factors

namespace Rule

variable {operands : BinaryOperands} {result : TensorType}

theorem lowerMatmul_within (h : s.Sees operands) :
    (lowerMatmul operands result).Within s fun v s' => s'.Stands v result := by
  obtain ⟨hl, hr⟩ := Scope.sees_binary.1 h
  refine OperandInfo.extract_within hl fun x hx => OperandInfo.extract_within hr fun y hy => ?_
  split
  · exact trivial
  · refine Stays.bind (Factors.prepare_stays hx hy result "matmul") fun f s₁ _ hf => ?_
    refine Stays.bind (Factors.inForm_stays hf _) fun v s₂ _ hv => ?_
    exact finish_within (Scope.sees_value.1 hv) result

theorem lowerMm_within (config : LoweringConfig) (h : s.Sees operands) :
    (lowerMm config operands result).Within s fun v s' => s'.Stands v result := by
  obtain ⟨hl, hr⟩ := Scope.sees_binary.1 h
  refine OperandInfo.extract_within hl fun x hx => OperandInfo.extract_within hr fun y hy => ?_
  split
  · exact trivial
  refine Stays.bind (Factors.prepare_stays hx hy result "mm") fun f s₁ _ hf => ?_
  obtain ⟨hl, hr, -⟩ := Factors.sees_parts hf
  refine Stays.bind (dim_stays hl 0) fun rows s₂ hle₂ hrows => ?_
  refine Stays.bind (dim_stays (hle₂ hr) 1) fun columns s₃ hle₃ hcolumns => ?_
  refine Stays.bind (dim_stays (hle₃ (hle₂ hl)) 1) fun inner s₄ hle₄ hinner => ?_
  refine Stays.bind (dim_stays (hle₄ (hle₃ (hle₂ hr))) 0) fun inner' s₅ hle₅ hinner' => ?_
  have hle₁₅ : s₁ ≤ s₅ := hle₂.trans (hle₃.trans (hle₄.trans hle₅))
  have hproduct : ∀ s', s₅ ≤ s' → (zeros [rows, columns] f.accumulator >>= fun init =>
      f.reduce (mmSpec f x.type.dtype.isUnsignedInteger) f.lhs.value f.rhs.value init >>=
        fun value => finish value result).Within s' fun v s' => s'.Stands v result := by
    intro s' hle
    have hle₁ : s₁ ≤ s' := hle₁₅.trans hle
    rw [← LawfulMonad.bind_assoc]
    refine Stays.bind (Factors.zeros_reduce_stays (hf.mono hle₁) (Scope.sees_cons.2
      ⟨hrows.mono (hle₃.trans (hle₄.trans (hle₅.trans hle))), Scope.sees_cons.2
        ⟨hcolumns.mono (hle₄.trans (hle₅.trans hle)), Scope.sees_nil⟩⟩) _ (hle₁ hl) (hle₁ hr)) ?_
    exact fun v s'' _ hv => finish_within (Scope.sees_value.1 hv) result
  split
  · exact Stays.bind (Factors.requireContraction_stays (hinner.mono hle₅) hinner')
      fun _ s' hle _ => hproduct s' hle
  · exact hproduct s₅ le_rfl

theorem unifyTypes_stays (h : s.Sees operands) (lhs rhs result : DType) :
    (unifyTypes operands lhs rhs result).Stays s := by
  obtain ⟨hl, hr⟩ := Scope.sees_binary.1 h
  unfold unifyTypes
  split
  · exact .pure h
  split
  · refine Stays.bind (convert_stays hr result) fun v s' hle hv => .pure ?_
    exact Scope.sees_binary.2 ⟨hle hl, Scope.sees_value.1 hv⟩
  · refine Stays.bind (convert_stays hl result) fun v s' hle hv => .pure ?_
    exact Scope.sees_binary.2 ⟨Scope.sees_value.1 hv, hle hr⟩

theorem lowerBmm_within (h : s.Sees operands) :
    (lowerBmm operands result).Within s fun v s' => s'.Stands v result := by
  refine Within.tensorType fun lhsType _ => Within.tensorType fun rhsType _ => ?_
  split
  · exact trivial
  refine Within.attempt fun _ _ => Within.attempt fun _ _ => Within.attempt fun _ _ => ?_
  refine Stays.bind (unifyTypes_stays h _ _ _) fun unified s₁ _ hunified => ?_
  obtain ⟨lhs, rhs⟩ := unified
  obtain ⟨hl, hr⟩ := Scope.sees_binary.1 hunified
  refine Within.tensorType fun type _ => Within.attempt fun acc _ => ?_
  refine Stays.bind (dim_stays hl 0) fun batch s₂ hle₂ hbatch => ?_
  refine Stays.bind (dim_stays (hle₂ hl) 1) fun rows s₃ hle₃ hrows => ?_
  refine Stays.bind (dim_stays (hle₃ (hle₂ hl)) 2) fun inner s₄ hle₄ hinner => ?_
  have hr₄ := hle₄ (hle₃ (hle₂ hr))
  refine Stays.bind (dim_stays hr₄ 0) fun batch' s₅ hle₅ hbatch' => ?_
  refine Stays.bind (dim_stays (hle₅ hr₄) 1) fun inner' s₆ hle₆ hinner' => ?_
  refine Stays.bind (dim_stays (hle₆ (hle₅ hr₄)) 2) fun columns s₇ hle₇ hcolumns => ?_
  have hle₄₇ : s₄ ≤ s₇ := hle₅.trans (hle₆.trans hle₇)
  have hle₂₇ : s₂ ≤ s₇ := hle₃.trans (hle₄.trans hle₄₇)
  refine Stays.bind (requireEqual_stays (hbatch.mono hle₂₇)
    (hbatch'.mono (hle₆.trans hle₇)) _) fun _ s₈ hle₈ _ => ?_
  refine Stays.bind (requireEqual_stays (hinner.mono (hle₄₇.trans hle₈))
    (hinner'.mono (hle₇.trans hle₈)) _) fun _ s₉ hle₉ _ => ?_
  have hle₇₉ : s₇ ≤ s₉ := hle₈.trans hle₉
  refine Stays.bind (zeros_stays (Scope.sees_cons.2 ⟨hbatch.mono (hle₂₇.trans hle₇₉),
    Scope.sees_cons.2 ⟨hrows.mono (hle₄.trans (hle₄₇.trans hle₇₉)), Scope.sees_cons.2
      ⟨hcolumns.mono hle₇₉, Scope.sees_nil⟩⟩⟩) acc) fun init s₁₀ hle₁₀ hinit => ?_
  have hle : s₁ ≤ s₁₀ := hle₂.trans (hle₂₇.trans (hle₇₉.trans hle₁₀))
  refine Stays.bind (Build.reduce_stays _ (hle hl) (hle hr) Scope.sees_none
    (Scope.sees_value.1 hinit)) fun v s₁₁ _ hv => ?_
  exact finish_within (Scope.sees_value.1 hv) result

end Rule

end TensorLowering
