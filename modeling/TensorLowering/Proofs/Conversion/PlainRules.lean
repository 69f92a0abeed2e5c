import TensorLowering.Conversion.RuleSet
import TensorLowering.Proofs.Build.PlainOperations

/-!
# What the rules create

A rule looks at the operands of its operator first, and may decline until it has seen what it needs.
Main statements: the rules of products and convolutions create one reduction each, which combines
elements as its operands are quantized or not, and no standard rule creates a host operator.
-/
namespace TensorLowering

open Build

variable {declines : Prop}

/-- A reduction reads zero-points if the operands are quantized, and then theirs. -/
def OperandInfo.CombinedBy (lhs rhs : OperandInfo) (spec : ReductionSpec)
    (zeroPoints : Option (ValueId × ValueId)) : Prop :=
  spec.combine = ReductionSpec.combineFor lhs.isQuantized ∧ zeroPoints = lhs.zeroPoints? rhs

/-! ## Matrix products -/

namespace Factors

variable (f : Factors)

theorem prepare_quiet (h : declines) (lhs rhs : OperandInfo) (result : TensorType)
    (operator : String) : (prepare lhs rhs result operator).Quiet declines := by
  refine .attempt (fun _ _ => .inr h) fun _ => .attempt (fun _ _ => .inr h) fun _ =>
    .attempt (fun _ _ => .inr h) fun _ => ?_
  split
  · exact .decline h
  · refine .attempt (fun _ _ => .inr h) fun _ => .bind ?_ fun _ => .pure
    exact .attempt (fun _ _ => .inr h) fun _ => .bind lhs.normalize_quiet fun _ =>
      .bind rhs.normalize_quiet fun _ => .pure

theorem reduce_reduces {spec : ReductionSpec}
    (h : spec.combine = ReductionSpec.combineFor f.isQuantized) (lhs rhs init : ValueId) :
    (f.reduce spec lhs rhs init).Reduces (f.lhs.CombinedBy f.rhs) declines :=
  Build.reduce_reduces ⟨h, rfl⟩ _ _ _

theorem zeros_reduces {spec : ReductionSpec}
    (h : spec.combine = ReductionSpec.combineFor f.isQuantized) (sizes : List Size)
    (lhs rhs : ValueId) : (zeros sizes f.accumulator >>= fun init =>
      f.reduce spec lhs rhs init).Reduces (f.lhs.CombinedBy f.rhs) declines :=
  .bind (zeros_quiet _ _) fun _ => f.reduce_reduces h _ _ _

theorem dot_reduces (h : f.isQuantized = false) :
    f.dot.Reduces (f.lhs.CombinedBy f.rhs) declines :=
  .bind (dim_quiet _ _) fun _ => .bind (dim_quiet _ _) fun _ => .bind (requireEqual_quiet _ _ _)
    fun _ => f.zeros_reduces (by rw [h]; rfl) _ _ _

theorem vecmat_reduces (h : f.isQuantized = false) :
    f.vecmat.Reduces (f.lhs.CombinedBy f.rhs) declines :=
  .bind (dim_quiet _ _) fun _ => .bind (dim_quiet _ _) fun _ => .bind (dim_quiet _ _) fun _ =>
    .bind (requireEqual_quiet _ _ _) fun _ => f.zeros_reduces (by rw [h]; rfl) _ _ _

theorem matvec_reduces (h : f.isQuantized = false) :
    f.matvec.Reduces (f.lhs.CombinedBy f.rhs) declines :=
  .bind (dim_quiet _ _) fun _ => .bind (dim_quiet _ _) fun _ => .bind (dim_quiet _ _) fun _ =>
    .bind (requireEqual_quiet _ _ _) fun _ => f.zeros_reduces (by rw [h]; rfl) _ _ _

theorem matmul_reduces (lhs rhs : ValueId) :
    (f.matmul lhs rhs).Reduces (f.lhs.CombinedBy f.rhs) declines := by
  refine .bind (dim_quiet _ _) fun _ => .bind (dim_quiet _ _) fun _ => .bind (dim_quiet _ _)
    fun _ => .bind (dim_quiet _ _) fun _ => .bind (requireEqual_quiet _ _ _) fun _ =>
      f.zeros_reduces ?_ _ _ _
  cases f.isQuantized <;> rfl

theorem asRow_quiet (x : OperandInfo) : (asRow x).Quiet declines := by
  unfold asRow
  split
  · exact .bind (index_quiet _) fun _ => .bind (dim_quiet _ _) fun _ => expandShape_quiet _ _ _
  · exact .pure

theorem asColumn_quiet (x : OperandInfo) : (asColumn x).Quiet declines := by
  unfold asColumn
  split
  · exact .bind (index_quiet _) fun _ => .bind (dim_quiet _ _) fun _ => expandShape_quiet _ _ _
  · exact .pure

theorem quantizedVector_reduces (isDot : Bool) :
    (f.quantizedVector isDot).Reduces (f.lhs.CombinedBy f.rhs) declines :=
  .bind (asRow_quiet _) fun _ => .bind (asColumn_quiet _) fun _ =>
    .followed (f.matmul_reduces _ _) fun _ => collapseShape_quiet _ _

theorem batchSizes_quiet (x : OperandInfo) : (batchSizes x).Quiet declines :=
  .bind (.mapM fun _ => dim_quiet _ _) fun _ => .bind (dim_quiet _ _) fun _ =>
    .bind (dim_quiet _ _) fun _ => .pure

theorem product_quiet (sizes : List Size) : (product sizes).Quiet declines := by
  cases sizes with
  | nil => exact index_quiet 1
  | cons first rest => exact .foldlM fun _ _ => arith_quiet _ _ _

/-- A batched product runs the kernel for one batch axis, or has a loop for each of several. -/
def BatchedBy (spec : ReductionSpec) (zeroPoints : Option (ValueId × ValueId)) : Prop :=
  zeroPoints = f.zeroPoints? ∧
    (spec = .named (if f.isQuantized then .quantizedBatchMatmul else .batchMatmul) ∨
      ∃ n, 2 ≤ n ∧ spec = .generic (batchIndexing n) f.isQuantized)

theorem batched_creates : f.batched.Reduces f.BatchedBy declines := by
  refine .bind (batchSizes_quiet _) fun x => .bind (batchSizes_quiet _) fun y =>
    .bind (broadcastSizes_quiet _ _) fun batch => .bind (requireEqual_quiet _ _ _) fun _ =>
      .bind (broadcastTo_quiet _ _) fun lhs => .bind (broadcastTo_quiet _ _) fun rhs => ?_
  dsimp only
  split
  · exact .bind (zeros_quiet _ _) fun _ => Build.reduce_reduces ⟨rfl, .inl rfl⟩ _ _ _
  next hone =>
    split
    · exact .bind (collapseShape_quiet _ _) fun _ => .bind (collapseShape_quiet _ _) fun _ =>
        .bind (product_quiet _) fun _ => .bind (zeros_quiet _ _) fun _ =>
          .followed (Build.reduce_reduces ⟨rfl, .inl rfl⟩ _ _ _) fun _ => expandShape_quiet _ _ _
    next hopen =>
      -- at least two sizes are not known, so that there are two batch axes
      have hcount : batch.countP (·.known.isNone) ≤ batch.length := List.countP_le_length
      exact .bind (zeros_quiet _ _) fun _ => Build.reduce_reduces
        ⟨rfl, .inr ⟨batch.length, by omega, rfl⟩⟩ _ _ _

theorem batched_reduces : f.batched.Reduces (f.lhs.CombinedBy f.rhs) declines := by
  refine f.batched_creates.weaken fun spec zeroPoints ⟨hzeroPoints, hspec⟩ => ⟨?_, hzeroPoints⟩
  obtain rfl | ⟨n, -, rfl⟩ := hspec
  · change _ = ReductionSpec.combineFor f.isQuantized
    cases f.isQuantized <;> rfl
  · rfl

theorem inForm_reduces (form : ProductForm) :
    (f.inForm form).Reduces (f.lhs.CombinedBy f.rhs) declines := by
  unfold inForm
  split
  · exact f.quantizedVector_reduces _
  next h =>
    have hplain : form.hasVector = true → f.isQuantized = false := by
      cases hq : f.isQuantized <;> simp_all
    cases form with
    | dot => exact f.dot_reduces (hplain rfl)
    | vecmat => exact f.vecmat_reduces (hplain rfl)
    | matvec => exact f.matvec_reduces (hplain rfl)
    | matmul => exact f.matmul_reduces _ _
    | batched rank => exact f.batched_reduces

end Factors

namespace Rule

theorem lowerMatmul_reduces (h : declines) (operands : BinaryOperands) (result : TensorType) :
    (lowerMatmul operands result).Reduces (fun _ _ => True) declines := by
  refine .query fun lhs => .query fun rhs => ?_
  split
  · exact .decline h
  · exact .bind (Factors.prepare_quiet h _ _ _ _) fun f => .followed
      ((f.inForm_reduces _).weaken fun _ _ _ => trivial) fun _ => finish_quiet _ _

/-- What `mm` does once its factors are prepared. -/
def mmProduct (config : LoweringConfig) (f : Factors) (unsigned : Bool) (result : TensorType) :
    Build ValueId := do
  let rows ← dim f.lhs.value 0
  let columns ← dim f.rhs.value 1
  let inner ← dim f.lhs.value 1
  let inner' ← dim f.rhs.value 0
  if !config.assumeEqualSizes || (inner.known.isSome && inner'.known.isSome) then
    Factors.requireContraction inner inner'
  let init ← zeros [rows, columns] f.accumulator
  let value ← f.reduce (mmSpec f unsigned) f.lhs.value f.rhs.value init
  finish value result

theorem mmProduct_reduces (config : LoweringConfig) (f : Factors) (unsigned : Bool)
    (result : TensorType) :
    (mmProduct config f unsigned result).Reduces (f.lhs.CombinedBy f.rhs) declines := by
  refine .bind (dim_quiet _ _) fun rows => .bind (dim_quiet _ _) fun columns =>
    .bind (dim_quiet _ _) fun inner => .bind (dim_quiet _ _) fun inner' => ?_
  have hproduct : (zeros [rows, columns] f.accumulator >>= fun init =>
      f.reduce (mmSpec f unsigned) f.lhs.value f.rhs.value init >>=
        fun value => finish value result).Reduces (f.lhs.CombinedBy f.rhs) declines :=
    .bind (zeros_quiet _ _) fun _ => .followed (f.reduce_reduces (combine_mmSpec f unsigned) _ _ _)
      fun _ => finish_quiet _ _
  dsimp only
  split
  · exact .bind (requireEqual_quiet _ _ _) fun _ => hproduct
  · exact hproduct

theorem lowerMm_reduces (h : declines) (config : LoweringConfig) (operands : BinaryOperands)
    (result : TensorType) :
    (lowerMm config operands result).Reduces (fun _ _ => True) declines := by
  refine .query fun lhs => .query fun rhs => ?_
  split
  · exact .decline h
  · exact .bind (Factors.prepare_quiet h _ _ _ _) fun f =>
      (mmProduct_reduces config f _ result).weaken fun _ _ _ => trivial

theorem unifyTypes_quiet (operands : BinaryOperands) (lhs rhs result : DType) :
    (unifyTypes operands lhs rhs result).Quiet declines := by
  unfold unifyTypes
  split
  · exact .pure
  split
  · exact .bind (convert_quiet _ _) fun _ => .pure
  · exact .bind (convert_quiet _ _) fun _ => .pure

/-- What `bmm` does with two batches of matrices that have one element type. -/
def bmmProduct (lhs rhs : ValueId) (result : TensorType) : Build ValueId := do
  let accumulator ← ofExcept (← tensorType lhs).dtype.accumulator
  let batch ← dim lhs 0
  let rows ← dim lhs 1
  let inner ← dim lhs 2
  let batch' ← dim rhs 0
  let inner' ← dim rhs 1
  let columns ← dim rhs 2
  requireEqual batch batch' "batch dimension"
  requireEqual inner inner' "contracting dimension"
  let init ← zeros [batch, rows, columns] accumulator
  let value ← reduce (.named .batchMatmul) lhs rhs none init
  finish value result

theorem bmmProduct_reduces (lhs rhs : ValueId) (result : TensorType) :
    (bmmProduct lhs rhs result).Reduces
      (fun spec zeroPoints => spec.combine = .mulAdd ∧ zeroPoints = none) declines := by
  refine .tensorType fun type => .attempt (fun _ he => .inl (DType.accumulator_fatal he))
    fun _ => ?_
  exact .bind (dim_quiet _ _) fun _ => .bind (dim_quiet _ _) fun _ => .bind (dim_quiet _ _)
    fun _ => .bind (dim_quiet _ _) fun _ => .bind (dim_quiet _ _) fun _ => .bind (dim_quiet _ _)
    fun _ => .bind (requireEqual_quiet _ _ _) fun _ => .bind (requireEqual_quiet _ _ _) fun _ =>
    .bind (zeros_quiet _ _) fun _ => .followed (Build.reduce_reduces ⟨rfl, rfl⟩ _ _ _)
      fun _ => finish_quiet _ _

/-- What `bmm` does with two batches of matrices. -/
def unifiedProduct (operands : BinaryOperands) (lhs rhs : DType) (result : TensorType) :
    Build ValueId := do
  ofExcept lhs.requireNumeric
  ofExcept rhs.requireNumeric
  ofExcept result.dtype.requireNumeric
  let ⟨lhs, rhs⟩ ← unifyTypes operands lhs rhs result.dtype
  bmmProduct lhs rhs result

theorem unifiedProduct_reduces (operands : BinaryOperands) (lhs rhs : DType)
    (result : TensorType) :
    (unifiedProduct operands lhs rhs result).Reduces
      (fun spec zeroPoints => spec.combine = .mulAdd ∧ zeroPoints = none) declines :=
  .attempt (fun _ he => .inl (DType.requireNumeric_fatal he)) fun _ =>
    .attempt (fun _ he => .inl (DType.requireNumeric_fatal he)) fun _ =>
      .attempt (fun _ he => .inl (DType.requireNumeric_fatal he)) fun _ =>
        .bind (unifyTypes_quiet _ _ _ _) fun _ => bmmProduct_reduces _ _ _

theorem lowerBmm_reduces (h : declines) (operands : BinaryOperands) (result : TensorType) :
    (lowerBmm operands result).Reduces
      (fun spec zeroPoints => spec.combine = .mulAdd ∧ zeroPoints = none) declines := by
  refine .tensorType fun lhsType => .tensorType fun rhsType => ?_
  split
  · exact .decline h
  · exact unifiedProduct_reduces operands _ _ result

theorem lowerFlip_quiet (h : declines) (op : Flip) (result : TensorType) :
    (lowerFlip op result).Quiet declines :=
  .attempt (fun _ _ => .inr h) fun _ => .tensorType fun _ => .attempt (fun _ _ => .inr h) fun _ =>
    .bind (flip_quiet _ _) fun _ => finish_quiet _ _

end Rule

/-! ## Convolutions -/

namespace AxisGeometry

variable (g : AxisGeometry)

theorem reach_quiet (kernel : Size) : (g.reach kernel).Quiet declines :=
  .bind (arithConst_quiet _ _ _) fun _ => arithConst_quiet _ _ _

theorem dynamicOutput_quiet (input kernel : Size) :
    (g.dynamicOutput input kernel).Quiet declines := by
  unfold dynamicOutput
  split
  · exact .bind (arithConst_quiet _ _ _) fun _ => .bind (arithConst_quiet _ _ _) fun _ =>
      .bind (g.reach_quiet _) fun _ => .bind (arith_quiet _ _ _) fun _ => arithConst_quiet _ _ _
  · exact .bind (g.reach_quiet _) fun _ => .bind (arithConst_quiet _ _ _) fun _ =>
      .bind (arith_quiet _ _ _) fun _ => .bind (index_quiet _) fun _ =>
        .bind (arith_quiet _ _ _) fun _ => arithConst_quiet _ _ _

theorem output_quiet (h : declines) (axis : Nat) (input kernel : Size) :
    (g.output axis input kernel).Quiet declines := by
  unfold output
  split
  · split
    · exact index_quiet _
    · exact .decline h
  · exact g.dynamicOutput_quiet _ _

theorem placement_quiet (input kernel : Size) : (g.placement input kernel).Quiet declines := by
  unfold placement
  split
  · exact .bind (index_quiet _) fun _ => .bind (index_quiet _) fun _ => .pure
  · exact .bind (g.reach_quiet _) fun _ => .bind (arithConst_quiet _ _ _) fun _ =>
      .bind (arithConst_quiet _ _ _) fun _ => .bind (arithConst_quiet _ _ _) fun _ =>
        .bind (arithConst_quiet _ _ _) fun _ => .bind (arith_quiet _ _ _) fun _ =>
          .bind (arithConst_quiet _ _ _) fun _ => .pure

end AxisGeometry

theorem ConvSizes.read_quiet (v : ValueId) (rank : Nat) : (ConvSizes.read v rank).Quiet declines :=
  .bind (dim_quiet _ _) fun _ => .bind (dim_quiet _ _) fun _ => .bind (.mapM fun _ => dim_quiet _ _)
    fun _ => .pure

namespace ConvPlan

variable (p : ConvPlan) (input weight init : ValueId)

theorem requireBiasType_quiet {α : Type} {bias : Option ValueId} (h : declines) (quantized : Bool)
    {next : Unit → Build α} (hnext : (next ()).Quiet declines) :
    (if quantized = true then requireBiasType bias >>= next else next ()).Quiet declines := by
  split
  · refine .bind ?_ fun _ => hnext
    unfold requireBiasType
    split
    · exact .pure
    · refine .tensorType fun type => ?_
      split
      · exact .pure
      · exact .decline h
  · exact hnext

theorem ofConvolution_quiet (h : declines) (op : Convolution) (result : TensorType) :
    (ofConvolution op result).Quiet declines := by
  refine .query fun x => .query fun w => .attempt (fun _ _ => .inr h) fun quantized => ?_
  refine requireBiasType_quiet h quantized ?_
  refine .attempt (fun _ _ => .inr h) fun _ => .attempt (fun _ _ => .inr h) fun _ =>
    .attempt (fun _ _ => .inr h) fun _ => ?_
  split
  · exact .decline h
  split
  · exact .decline h
  refine .bind ?_ fun geometry => .attempt (fun _ _ => .inr h) fun _ => .bind x.normalize_quiet
    fun _ => .bind w.normalize_quiet fun _ => .pure
  unfold geometryOf
  split
  · exact .decline h
  · split
    · exact .decline h
    · exact .pure

theorem padding_quiet : p.padding.Quiet declines := by
  unfold padding
  dsimp only
  split
  · exact scalarCast_quiet _ _
  · exact scalar_quiet _ _

theorem reversedWeight_quiet : p.reversedWeight.Quiet declines :=
  .bind (transpose_quiet _ _) fun _ => flip_quiet _ _

theorem padInput_quiet (h : declines) (x w : ConvSizes) (v : ValueId) :
    (p.padInput x w v).Quiet declines :=
  .bind (pad_quiet _ _ _ _) fun _ => .bind (.mapM fun _ => AxisGeometry.output_quiet _ h _ _ _)
    fun _ => .pure

theorem spreadInput_quiet (h : declines) (x w : ConvSizes) (v : ValueId) :
    (p.spreadInput x w v).Quiet declines := by
  refine .bind (index_quiet _) fun _ => .bind (.mapM fun entry => ?_) fun _ =>
    .bind (filled_quiet _ _ _) fun _ => .bind (insertSlice_quiet _ _ _ _) fun _ => .pure
  obtain ⟨⟨g, n, k⟩, axis⟩ := entry
  change (spreadAxis g axis n k).Quiet declines
  unfold spreadAxis
  split
  · exact .decline h
  · exact .bind (g.placement_quiet _ _) fun _ => .bind (g.output_quiet h _ _ _) fun _ => .pure

theorem initial_quiet (h : declines) (bias : Option ValueId) (sizes : List Size) :
    (p.initial bias sizes).Quiet declines := by
  unfold initial
  split
  · exact zeros_quiet _ _
  · refine .tensorType fun type => ?_
    split
    · exact .decline h
    · exact .bind (convert_quiet _ _) fun _ => broadcast_quiet _ _ _

theorem reduce_reduces (variant : ConvVariant) :
    (reduce (p.spec variant) input weight p.zeroPoints? init).Reduces
      (p.input.CombinedBy p.weight) declines :=
  Build.reduce_reduces ⟨rfl, rfl⟩ _ _ _

theorem channelLast_reduces (variant : ConvVariant) (perm : Permutation) :
    (p.channelLast variant input weight init perm).Reduces (p.input.CombinedBy p.weight) declines :=
  .bind (transpose_quiet _ _) fun _ => .bind (transpose_quiet _ _) fun _ =>
    .bind (transpose_quiet _ _) fun _ => .followed (p.reduce_reduces _ _ _ _) fun _ =>
      transpose_quiet _ _

theorem depthwise_reduces (h : declines) :
    (p.depthwise input weight init).Reduces (p.input.CombinedBy p.weight) declines := by
  refine .bind (collapseShape_quiet _ _) fun weight => ?_
  split
  · split
    · exact .decline h
    · exact p.channelLast_reduces _ _ _ _ _
  · split
    · exact .decline h
    · exact p.reduce_reduces _ _ _ _

theorem splitGroups_quiet (v : ValueId) (axis : Nat) (groups : Size) :
    (splitGroups v axis groups).Quiet declines := by
  refine .bind (dims_quiet _) fun sizes => ?_
  split
  · exact .fatal rfl
  · exact .bind (arith_quiet _ _ _) fun _ => .bind (expandShape_quiet _ _ _) fun _ => .pure

/-- A grouped convolution declines for its rank only. -/
theorem grouped_reduces (h : p.spatialRank ≠ 2 → declines) :
    (p.grouped input weight init).Reduces (p.input.CombinedBy p.weight) declines := by
  unfold grouped
  split
  next hrank => exact .decline (h hrank)
  next =>
    exact .bind (index_quiet _) fun _ => .bind (splitGroups_quiet _ _ _) fun _ =>
      .bind (splitGroups_quiet _ _ _) fun _ => .bind (splitGroups_quiet _ _ _) fun _ =>
        .followed (p.reduce_reduces _ _ _ _) fun _ => collapseShape_quiet _ _

theorem run_reduces (h : declines) (path : ConvPath) :
    (p.run path input weight init).Reduces (p.input.CombinedBy p.weight) declines := by
  cases path with
  | standard => exact p.reduce_reduces _ _ _ _
  | quantizedChannelLast => exact p.channelLast_reduces _ _ _ _ _
  | depthwise => exact p.depthwise_reduces _ _ _ h
  | grouped => exact p.grouped_reduces _ _ _ fun _ => h

/-- What a convolution does once there are a buffer and a weight to slide over it. -/
def slideOver (p : ConvPlan) (config : LoweringConfig) (bias : Option ValueId)
    (result : TensorType) (input weight : ConvSizes) (sizes : List Size)
    (buffer kernel : ValueId) : Build ValueId := do
  let init ← p.initial bias sizes
  let value ← p.run (p.path config input weight) buffer kernel init
  finish value result

/-- The weight slides over the padded input. -/
def paddedWindows (p : ConvPlan) (config : LoweringConfig) (bias : Option ValueId)
    (result : TensorType) (input weight : ConvSizes) (padding : ValueId) : Build ValueId := do
  let (buffer, spatial) ← p.padInput input weight padding
  p.slideOver config bias result input weight (input.outer :: weight.outer :: spatial) buffer
    p.weight.value

/-- The reversed weight slides over the spread input. -/
def spreadWindows (p : ConvPlan) (config : LoweringConfig) (bias : Option ValueId)
    (result : TensorType) (input weight : ConvSizes) (padding : ValueId) : Build ValueId := do
  let kernel ← p.reversedWeight
  let (buffer, spatial) ← p.spreadInput input weight padding
  p.slideOver config bias result input weight (input.outer :: weight.channels :: spatial) buffer
    kernel

/-- What a convolution does once it has read the sizes of its operands. -/
def windows (p : ConvPlan) (config : LoweringConfig) (bias : Option ValueId)
    (result : TensorType) (input weight : ConvSizes) (padding : ValueId) : Build ValueId :=
  if p.geometry.transposed then p.spreadWindows config bias result input weight padding
  else p.paddedWindows config bias result input weight padding

/-- What a convolution does once it is planned. -/
def convolve (p : ConvPlan) (config : LoweringConfig) (bias : Option ValueId)
    (result : TensorType) : Build ValueId := do
  let input ← ConvSizes.read p.input.value p.spatialRank
  let weight ← ConvSizes.read p.weight.value p.spatialRank
  let groups ← index p.geometry.groups
  requireDivisible input.channels groups "groups must divide input channel size evenly"
  requireDivisible weight.outer groups "groups must divide weight batch size evenly"
  let padding ← p.padding
  p.windows config bias result input weight padding

theorem slideOver_reduces (h : declines) (config : LoweringConfig) (bias : Option ValueId)
    (result : TensorType) (x w : ConvSizes) (sizes : List Size) (buffer kernel : ValueId) :
    (p.slideOver config bias result x w sizes buffer kernel).Reduces
      (p.input.CombinedBy p.weight) declines :=
  .bind (p.initial_quiet h _ _) fun _ => .followed (p.run_reduces _ _ _ h _)
    fun _ => finish_quiet _ _

theorem convolve_reduces (h : declines) (config : LoweringConfig) (bias : Option ValueId)
    (result : TensorType) :
    (p.convolve config bias result).Reduces (p.input.CombinedBy p.weight) declines := by
  refine .bind (ConvSizes.read_quiet _ _)
    fun x => .bind (ConvSizes.read_quiet _ _) fun w => .bind (index_quiet _) fun groups =>
      .bind (requireDivisible_quiet _ _ _) fun _ => .bind (requireDivisible_quiet _ _ _) fun _ =>
        .bind p.padding_quiet fun padding => ?_
  unfold windows
  split
  · exact .bind p.reversedWeight_quiet fun _ => .bind (p.spreadInput_quiet h _ _ _) fun _ =>
      p.slideOver_reduces h _ _ _ _ _ _ _ _
  · exact .bind (p.padInput_quiet h _ _ _) fun _ => p.slideOver_reduces h _ _ _ _ _ _ _ _

end ConvPlan

theorem Rule.lowerConvolution_eq (config : LoweringConfig) (op : Convolution)
    (result : TensorType) : lowerConvolution config op result =
      ConvPlan.ofConvolution op result >>= fun p => p.convolve config op.bias result :=
  rfl

theorem Rule.lowerConvolution_reduces (h : declines) (config : LoweringConfig) (op : Convolution)
    (result : TensorType) :
    (lowerConvolution config op result).Reduces (fun _ _ => True) declines :=
  .bind (ConvPlan.ofConvolution_quiet h _ _) fun p =>
    (p.convolve_reduces h config op.bias result).weaken fun _ _ _ => trivial

/-! ## Trilinear products -/

namespace TrilinearPlan

variable (p : TrilinearPlan)

theorem sumAxes_quiet (v : ValueId) (axes : List Nat) : (sumAxes v axes).Quiet declines :=
  .foldlM fun _ _ => sum_quiet _ _

theorem unrollSize_quiet (h : declines) (config : LoweringConfig) (sizes : List Size) :
    (p.unrollSize config sizes).Quiet declines := by
  unfold unrollSize
  split
  · split
    · exact .decline h
    · exact .pure
  · exact .decline h

theorem step_quiet (factors : Triple (ValueId × Bool)) (dtype : DType) (k : Nat) :
    (p.step factors dtype k).Quiet declines :=
  .bind (.triple fun _ => narrow_quiet _ _ _ _) fun _ => .bind (elementwise_quiet _ _ _ _) fun _ =>
    .bind (sumAxes_quiet _ _) fun _ => .bind (elementwise_quiet _ _ _ _) fun _ => sumAxes_quiet _ _

theorem accumulate_quiet (factors : Triple (ValueId × Bool)) (dtype : DType) (zero : Size)
    (output : ValueId) (k : Nat) : (p.accumulate factors dtype zero output k).Quiet declines := by
  refine .bind (p.step_quiet _ _ _) fun contribution => ?_
  split
  · exact elementwise_quiet _ _ _ _
  · exact .bind (narrow_quiet _ _ _ _) fun _ => .bind (elementwise_quiet _ _ _ _) fun _ =>
      .bind (index_quiet _) fun _ => insertSlice_quiet _ _ _ _

/-- What is done once the number of steps is known. -/
def steps (factors : Triple ValueId) (dtype : DType) (sizes : Triple (List Size))
    (common : List Size) (count : Nat) : Build ValueId := do
  let one ← index 1
  let kept := p.summed.foldl (fun sizes axis => sizes.set axis one) common
  let output ← zeros kept dtype
  let zero ← index 0
  let isOne := sizes.map fun s => s[p.unroll]?.any Size.isOne
  (List.range count).foldlM (p.accumulate (factors.zip isOne) dtype zero) output

theorem steps_quiet (factors : Triple ValueId) (dtype : DType) (sizes : Triple (List Size))
    (common : List Size) (count : Nat) :
    (p.steps factors dtype sizes common count).Quiet declines :=
  .bind (index_quiet _) fun _ => .bind (zeros_quiet _ _) fun _ => .bind (index_quiet _) fun _ =>
    .foldlM fun _ _ => p.accumulate_quiet _ _ _ _ _

theorem unrolled_quiet (h : declines) (config : LoweringConfig) (factors : Triple ValueId)
    (dtype : DType) : (p.unrolled config factors dtype).Quiet declines :=
  .bind (.triple fun _ => dims_quiet _) fun _ => .bind (broadcastSizes_quiet _ _) fun _ =>
    .bind (broadcastSizes_quiet _ _) fun _ => .bind (p.unrollSize_quiet h _ _) fun _ =>
      p.steps_quiet _ _ _ _ _

end TrilinearPlan

theorem Rule.lowerTrilinear_quiet (h : declines) (config : LoweringConfig) (op : Trilinear)
    (result : TensorType) : (lowerTrilinear config op result).Quiet declines := by
  have htype : ∀ v, (tensorType v).Quiet declines := fun v => by
    rw [← bind_pure (tensorType v)]
    exact .tensorType fun _ => .pure
  refine .bind (.triple htype) fun types => .attempt (fun _ _ => .inr h) fun plan =>
    .attempt (fun _ _ => .inr h) fun _ => ?_
  dsimp only
  split
  · exact .decline h
  · exact .bind (.triple fun _ => .foldlM fun _ _ => unsqueeze_quiet _ _) fun _ =>
      .bind (plan.unrolled_quiet h _ _ _) fun _ => .bind (.foldlM fun _ _ => squeeze_quiet _ _)
        fun _ => finish_quiet _ _

/-! ## Standard rules -/

/-- A rule that creates no host operator, whatever it is applied to. -/
def Rule.CreatesNoHost (rule : Rule) : Prop :=
  ∀ (config : LoweringConfig) (op : HostOp) (result : TensorType),
    (rule.apply config op result).Plain True

theorem Rule.createsNoHost_of_mem {rule : Rule} (hrule : rule ∈ RuleSet.standard.rules) :
    rule.CreatesNoHost := by
  intro config op result
  simp only [RuleSet.standard, List.mem_cons, List.not_mem_nil, or_false] at hrule
  rcases hrule with rfl | rfl | rfl | rfl | rfl | rfl
  · cases op with
    | mm operands => exact (lowerMm_reduces trivial config operands result).plain
    | _ => exact .inr trivial
  · cases op with
    | flip op => exact (lowerFlip_quiet trivial op result).plain
    | _ => exact .inr trivial
  · cases op with
    | matmul operands => exact (lowerMatmul_reduces trivial operands result).plain
    | _ => exact .inr trivial
  · cases op with
    | bmm operands => exact (lowerBmm_reduces trivial operands result).plain
    | _ => exact .inr trivial
  · cases op with
    | convolution op => exact (lowerConvolution_reduces trivial config op result).plain
    | _ => exact .inr trivial
  · cases op with
    | trilinear op => exact (lowerTrilinear_quiet trivial config op result).plain
    | _ => exact .inr trivial

end TensorLowering
