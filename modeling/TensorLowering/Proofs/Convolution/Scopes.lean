import TensorLowering.Lowering.Convolution.Rule
import TensorLowering.Proofs.Build.ScopedOperands
import TensorLowering.Proofs.Conversion.PlainRules

/-!
# Convolutions of operands that have been seen

Main statement: a convolution stays within its input, weight and bias, and gives a value of exactly
the declared type.
-/
namespace TensorLowering

open Build

instance : Mentions ConvPlan := ⟨fun p => Mentions.values p.input ++ Mentions.values p.weight⟩

instance : Mentions ConvSizes := ⟨fun z => Mentions.values (z.outer :: z.channels :: z.spatial)⟩

instance : Mentions SpreadAxis := ⟨fun a => Mentions.values [a.offset, a.size, a.output]⟩

namespace Scope

variable {s : Scope}

@[simp] theorem sees_plan {p : ConvPlan} : s.Sees p ↔ s.Sees p.input ∧ s.Sees p.weight := by
  simp only [Sees, Mentions.values, List.mem_append, or_imp, forall_and]

@[simp] theorem sees_convSizes {z : ConvSizes} :
    s.Sees z ↔ s.Sees z.outer ∧ s.Sees z.channels ∧ s.Sees z.spatial := by
  change s.Sees (z.outer :: z.channels :: z.spatial) ↔ _
  simp

@[simp] theorem sees_spreadAxis {a : SpreadAxis} :
    s.Sees a ↔ s.Sees a.offset ∧ s.Sees a.size ∧ s.Sees a.output := by
  change s.Sees [a.offset, a.size, a.output] ↔ _
  simp

end Scope

variable {s : Scope}

namespace AxisGeometry

variable {g : AxisGeometry} {input kernel : Size}

theorem reach_stays (hkernel : s.Sees kernel) : (g.reach kernel).Stays s :=
  Stays.bind (arithConst_stays .add hkernel _) fun _ _ _ h => arithConst_stays .mul h _

theorem dynamicOutput_stays (hinput : s.Sees input) (hkernel : s.Sees kernel) :
    (g.dynamicOutput input kernel).Stays s := by
  unfold dynamicOutput
  split
  · refine Stays.bind (arithConst_stays .add hinput _) fun last s₁ hle₁ hlast => ?_
    refine Stays.bind (arithConst_stays .mul hlast _) fun spread s₂ hle₂ hspread => ?_
    refine Stays.bind (reach_stays (hkernel.mono (hle₁.trans hle₂))) fun reach s₃ hle₃ hreach => ?_
    refine Stays.bind (arith_stays .add (hspread.mono hle₃) hreach) fun sum s₄ _ hsum => ?_
    exact arithConst_stays .add hsum _
  · refine Stays.bind (reach_stays hkernel) fun reach s₁ hle₁ hreach => ?_
    refine Stays.bind (arithConst_stays .add (hinput.mono hle₁) _) fun padded s₂ hle₂ hpadded => ?_
    refine Stays.bind (arith_stays .sub hpadded (hreach.mono hle₂)) fun span s₃ _ hspan => ?_
    refine Stays.bind (index_stays _) fun stride s₄ hle₄ hstride => ?_
    refine Stays.bind (arith_stays .floorDiv (hspan.mono hle₄) hstride) fun steps s₅ _ hsteps => ?_
    exact arithConst_stays .add hsteps _

theorem output_stays (axis : Nat) (hinput : s.Sees input) (hkernel : s.Sees kernel) :
    (g.output axis input kernel).Stays s := by
  unfold output
  split
  · split
    · exact index_stays _
    · exact trivial
  · exact dynamicOutput_stays hinput hkernel

theorem placement_stays (hinput : s.Sees input) (hkernel : s.Sees kernel) :
    (g.placement input kernel).Stays s := by
  unfold placement
  split
  · refine Stays.bind (index_stays _) fun offset s₁ hle₁ hoffset => ?_
    refine Stays.bind (index_stays _) fun size s₂ hle₂ hsize => ?_
    exact .pure (Scope.sees_pair.2 ⟨hoffset.mono hle₂, hsize⟩)
  · refine Stays.bind (reach_stays hkernel) fun reach s₁ hle₁ hreach => ?_
    refine Stays.bind (arithConst_stays .add hreach _) fun offset s₂ hle₂ hoffset => ?_
    refine Stays.bind (arithConst_stays .add (hinput.mono (hle₁.trans hle₂)) _) ?_
    intro last s₃ hle₃ hlast
    refine Stays.bind (arithConst_stays .mul hlast _) fun spread s₄ hle₄ hspread => ?_
    refine Stays.bind (arithConst_stays .mul (hoffset.mono (hle₃.trans hle₄)) _) ?_
    intro margins s₅ hle₅ hmargins
    refine Stays.bind (arith_stays .add hmargins (hspread.mono hle₅)) fun sum s₆ hle₆ hsum => ?_
    refine Stays.bind (arithConst_stays .add hsum _) fun size s₇ hle₇ hsize => ?_
    refine .pure (Scope.sees_pair.2 ⟨hoffset.mono ?_, hsize⟩)
    exact hle₃.trans (hle₄.trans (hle₅.trans (hle₆.trans hle₇)))

end AxisGeometry

theorem ConvSizes.read_stays {v : ValueId} (hv : v ∈ s.seen) (rank : Nat) :
    (ConvSizes.read v rank).Stays s := by
  refine Stays.bind (dim_stays hv 0) fun outer s₁ hle₁ houter => ?_
  refine Stays.bind (dim_stays (hle₁ hv) 1) fun channels s₂ hle₂ hchannels => ?_
  refine Stays.bind (.mapM fun axis _ s' hle => dim_stays (hle (hle₂ (hle₁ hv))) axis) ?_
  intro spatial s₃ hle₃ hspatial
  exact .pure (Scope.sees_convSizes.2
    ⟨houter.mono (hle₂.trans hle₃), hchannels.mono hle₃, hspatial⟩)

namespace ConvPlan

variable {p : ConvPlan} {op : Convolution} {z z' : ConvSizes} {v input weight init : ValueId}
  {bias : Option ValueId} {zs : List Size}

/-- The storage of input and weight, and the zero-points. -/
theorem sees_parts (hp : s.Sees p) :
    p.input.value ∈ s.seen ∧ p.weight.value ∈ s.seen ∧ s.Sees p.zeroPoints? := by
  obtain ⟨hx, hw⟩ := Scope.sees_plan.1 hp
  exact ⟨(Scope.sees_operand.1 hx).1, (Scope.sees_operand.1 hw).1,
    OperandInfo.sees_zeroPoints? hx hw⟩

theorem requireBiasType_stays (bias : Option ValueId) : (requireBiasType bias).Stays s := by
  unfold requireBiasType
  split
  · exact .pure (Scope.sees_unit _)
  · refine Within.tensorType fun type _ => ?_
    split
    · exact .pure (Scope.sees_unit _)
    · exact trivial

/-- Whether or not there is a bias to check, the rest is the same. -/
theorem requireBiasType_stays_next {α : Type} [Mentions α] {bias : Option ValueId}
    {next : Unit → Build α} (quantized : Bool) (h : ∀ s', s ≤ s' → (next ()).Stays s') :
    (if quantized = true then requireBiasType bias >>= next else next ()).Stays s := by
  split
  · exact Stays.bind (requireBiasType_stays bias) fun _ s' hle _ => h s' hle
  · exact h s le_rfl

theorem geometryOf_within (op : Convolution) (rank : Nat) :
    (geometryOf op rank).Within s fun _ _ => True := by
  unfold geometryOf
  split
  · exact trivial
  · split
    · exact trivial
    · exact trivial

theorem ofConvolution_stays (hx : op.input ∈ s.seen) (hw : op.weight ∈ s.seen)
    (result : TensorType) : (ofConvolution op result).Stays s := by
  refine OperandInfo.extract_within hx fun x hx => OperandInfo.extract_within hw fun w hw => ?_
  refine Within.attempt fun quantized _ => ?_
  refine requireBiasType_stays_next quantized fun s' hle => ?_
  refine Within.attempt fun _ _ => Within.attempt fun _ _ => Within.attempt fun _ _ => ?_
  split
  · exact trivial
  split
  · exact trivial
  refine Within.bind (geometryOf_within op _) fun geometry s₁ hle₁ _ => ?_
  refine Within.attempt fun acc _ => ?_
  have hle₀₁ : s ≤ s₁ := hle.trans hle₁
  refine Stays.bind (OperandInfo.normalize_stays (hx.mono hle₀₁)) fun x' s₂ hle₂ hx' => ?_
  refine Stays.bind (OperandInfo.normalize_stays (hw.mono (hle₀₁.trans hle₂))) ?_
  intro w' s₃ hle₃ hw'
  exact .pure (Scope.sees_plan.2 ⟨hx'.mono hle₃, hw'⟩)

/-! ### Windows -/

/-- What each axis needs of the sizes of input and kernel. -/
theorem mapM_axes_stays {β : Type} [Mentions β] {input kernel : List Size}
    {f : (AxisGeometry × Size × Size) × Nat → Build β} (hinput : s.Sees input)
    (hkernel : s.Sees kernel) (h : ∀ g n k axis s', s'.Sees n → s'.Sees k →
      (f ((g, n, k), axis)).Stays s') : ((p.axes input kernel).mapM f).Stays s := by
  refine Stays.mapM fun entry hentry s' hle => ?_
  obtain ⟨⟨g, n, k⟩, axis⟩ := entry
  have hsizes := (List.of_mem_zip (List.fst_mem_of_mem_zipIdx hentry)).2
  obtain ⟨hn, hk⟩ := List.of_mem_zip hsizes
  exact h g n k axis s' ((Scope.sees_list.1 hinput n hn).mono hle)
    ((Scope.sees_list.1 hkernel k hk).mono hle)

theorem padInput_stays (hp : s.Sees p) (hz : s.Sees z) (hz' : s.Sees z') (hv : v ∈ s.seen) :
    (p.padInput z z' v).Stays s := by
  obtain ⟨hx, -, -⟩ := sees_parts hp
  refine Stays.bind (pad_stays hx _ _ hv) fun padded s₁ hle₁ hpadded => ?_
  refine Stays.bind (mapM_axes_stays ((Scope.sees_convSizes.1 hz).2.2.mono hle₁)
    ((Scope.sees_convSizes.1 hz').2.2.mono hle₁) fun g n k axis s' hn hk =>
      AxisGeometry.output_stays axis hn hk) fun output s₂ hle₂ houtput => ?_
  exact .pure (Scope.sees_pair.2 ⟨hpadded.mono hle₂, houtput⟩)

theorem spreadAxis_stays {g : AxisGeometry} {n k : Size} (axis : Nat) (hn : s.Sees n)
    (hk : s.Sees k) : (spreadAxis g axis n k).Stays s := by
  unfold spreadAxis
  split
  · exact trivial
  · refine Stays.bind (AxisGeometry.placement_stays hn hk) fun place s₁ hle₁ hplace => ?_
    obtain ⟨offset, size⟩ := place
    obtain ⟨hoffset, hsize⟩ := Scope.sees_pair.1 hplace
    refine Stays.bind (AxisGeometry.output_stays axis (hn.mono hle₁) (hk.mono hle₁)) ?_
    intro output s₂ hle₂ houtput
    exact .pure (Scope.sees_spreadAxis.2 ⟨hoffset.mono hle₂, hsize.mono hle₂, houtput⟩)

theorem spreadInput_stays (hp : s.Sees p) (hz : s.Sees z) (hz' : s.Sees z') (hv : v ∈ s.seen) :
    (p.spreadInput z z' v).Stays s := by
  obtain ⟨hx, -, -⟩ := sees_parts hp
  obtain ⟨houter, hchannels, hspatial⟩ := Scope.sees_convSizes.1 hz
  refine Stays.bind (index_stays 0) fun zero s₁ hle₁ hzero => ?_
  refine Stays.bind (mapM_axes_stays (hspatial.mono hle₁)
    ((Scope.sees_convSizes.1 hz').2.2.mono hle₁) fun g n k axis s' hn hk =>
      spreadAxis_stays axis hn hk) fun axes s₂ hle₂ haxes => ?_
  have hle : s ≤ s₂ := hle₁.trans hle₂
  have hmap : ∀ (f : SpreadAxis → Size), (∀ a, s₂.Sees a → s₂.Sees (f a)) →
      s₂.Sees (axes.map f) := by
    intro f hf
    refine Scope.sees_list.2 fun size hsize => ?_
    obtain ⟨a, ha, rfl⟩ := List.mem_map.1 hsize
    exact hf a (Scope.sees_list.1 haxes a ha)
  have hsizes : s₂.Sees (z.outer :: z.channels :: axes.map SpreadAxis.size) :=
    Scope.sees_cons.2 ⟨houter.mono hle, Scope.sees_cons.2 ⟨hchannels.mono hle,
      hmap _ fun a ha => (Scope.sees_spreadAxis.1 ha).2.1⟩⟩
  have hoffsets : s₂.Sees (zero :: zero :: axes.map SpreadAxis.offset) :=
    Scope.sees_cons.2 ⟨hzero.mono hle₂, Scope.sees_cons.2 ⟨hzero.mono hle₂,
      hmap _ fun a ha => (Scope.sees_spreadAxis.1 ha).1⟩⟩
  refine Stays.bind (filled_stays hsizes (hle hv) _) fun buffer s₃ hle₃ hbuffer => ?_
  refine Stays.bind (insertSlice_stays (hle₃ (hle hx)) (Scope.sees_value.1 hbuffer)
    (hoffsets.mono hle₃) _) fun spread s₄ hle₄ hspread => ?_
  refine .pure (Scope.sees_pair.2 ⟨hspread, Scope.Sees.mono ?_ (hle₃.trans hle₄)⟩)
  exact hmap _ fun a ha => (Scope.sees_spreadAxis.1 ha).2.2

/-! ### Kernels -/

theorem channelLast_stays (hp : s.Sees p) (variant : ConvVariant) (hx : input ∈ s.seen)
    (hw : weight ∈ s.seen) (hinit : init ∈ s.seen) (perm : Permutation) :
    (p.channelLast variant input weight init perm).Stays s := by
  refine Stays.bind (transpose_stays hx _) fun x s₁ hle₁ hx => ?_
  refine Stays.bind (transpose_stays (hle₁ hw) _) fun w s₂ hle₂ hw => ?_
  refine Stays.bind (transpose_stays (hle₂ (hle₁ hinit)) _) fun i s₃ hle₃ hi => ?_
  have hle : s ≤ s₃ := hle₁.trans (hle₂.trans hle₃)
  refine Stays.bind (Build.reduce_stays _ (hle₃ (hle₂ (Scope.sees_value.1 hx)))
    (hle₃ (Scope.sees_value.1 hw)) ((sees_parts hp).2.2.mono hle) (Scope.sees_value.1 hi)) ?_
  intro output s₄ _ houtput
  exact transpose_stays (Scope.sees_value.1 houtput) _

theorem depthwise_stays (hp : s.Sees p) (hx : input ∈ s.seen) (hw : weight ∈ s.seen)
    (hinit : init ∈ s.seen) : (p.depthwise input weight init).Stays s := by
  refine Stays.bind (collapseShape_stays hw _) fun w s₁ hle₁ hw => ?_
  rw [Scope.sees_value] at hw
  split
  · split
    · exact trivial
    · exact channelLast_stays (hp.mono hle₁) _ (hle₁ hx) hw (hle₁ hinit) _
  · split
    · exact trivial
    · exact Build.reduce_stays _ (hle₁ hx) hw ((sees_parts hp).2.2.mono hle₁) (hle₁ hinit)

theorem splitGroups_stays {groups : Size} (hv : v ∈ s.seen) (axis : Nat)
    (hgroups : s.Sees groups) : (splitGroups v axis groups).Stays s := by
  refine Stays.bind (dims_stays hv) fun sizes s₁ hle₁ hsizes => ?_
  split
  · exact trivial
  next outer size inner hsplit =>
  have hparts : sizes = outer ++ size :: inner := by
    rw [List.splitAt_eq] at hsplit
    obtain ⟨houter, hinner⟩ := Prod.mk.inj hsplit
    rw [← houter, ← hinner, List.take_append_drop]
  rw [hparts, Scope.sees_append, Scope.sees_cons] at hsizes
  obtain ⟨houter, hsize, hinner⟩ := hsizes
  refine Stays.bind (arith_stays .floorDiv hsize (hgroups.mono hle₁)) fun each s₂ hle₂ heach => ?_
  refine Stays.bind (expandShape_stays (hle₂ (hle₁ hv)) _ (Scope.sees_append.2
    ⟨Scope.sees_append.2 ⟨houter.mono hle₂, Scope.sees_cons.2 ⟨hgroups.mono (hle₁.trans hle₂),
      Scope.sees_cons.2 ⟨heach, Scope.sees_nil⟩⟩⟩, hinner.mono hle₂⟩)) fun split s₃ _ hsplit => ?_
  exact .pure (Scope.sees_pair.2 ⟨hsplit, Scope.sees_reassociation _⟩)

theorem grouped_stays (hp : s.Sees p) (hx : input ∈ s.seen) (hw : weight ∈ s.seen)
    (hinit : init ∈ s.seen) : (p.grouped input weight init).Stays s := by
  unfold grouped
  split
  · exact trivial
  refine Stays.bind (index_stays _) fun groups s₁ hle₁ hgroups => ?_
  refine Stays.bind (splitGroups_stays (hle₁ hx) 1 hgroups) fun x s₂ hle₂ hxs => ?_
  refine Stays.bind (splitGroups_stays (hle₂ (hle₁ hinit)) 1 (hgroups.mono hle₂)) ?_
  intro i s₃ hle₃ hi
  refine Stays.bind (splitGroups_stays (hle₃ (hle₂ (hle₁ hw))) 0
    (hgroups.mono (hle₂.trans hle₃))) fun w s₄ hle₄ hws => ?_
  obtain ⟨x, foldInput⟩ := x
  obtain ⟨i, fold⟩ := i
  obtain ⟨w, foldWeight⟩ := w
  have hxs := Scope.sees_value.1 (Scope.sees_pair.1 hxs).1
  have hi := Scope.sees_value.1 (Scope.sees_pair.1 hi).1
  have hws := Scope.sees_value.1 (Scope.sees_pair.1 hws).1
  have hle : s ≤ s₄ := hle₁.trans (hle₂.trans (hle₃.trans hle₄))
  refine Stays.bind (Build.reduce_stays _ (hle₄ (hle₃ hxs)) hws ((sees_parts hp).2.2.mono hle)
    (hle₄ hi)) fun output s₅ _ houtput => ?_
  exact collapseShape_stays (Scope.sees_value.1 houtput) fold

theorem run_stays (hp : s.Sees p) (path : ConvPath) (hx : input ∈ s.seen) (hw : weight ∈ s.seen)
    (hinit : init ∈ s.seen) : (p.run path input weight init).Stays s := by
  cases path with
  | standard => exact Build.reduce_stays _ hx hw (sees_parts hp).2.2 hinit
  | quantizedChannelLast => exact channelLast_stays hp _ hx hw hinit _
  | depthwise => exact depthwise_stays hp hx hw hinit
  | grouped => exact grouped_stays hp hx hw hinit

theorem padding_stays (hp : s.Sees p) : p.padding.Stays s := by
  have hx := Scope.sees_operand.1 (Scope.sees_plan.1 hp).1
  unfold padding
  dsimp only
  split
  next zeroPoint hzero =>
    rw [hzero] at hx
    exact scalarCast_stays (Scope.sees_value.1 (Scope.sees_some.1 hx.2)) _
  next => exact scalar_stays _ _

theorem reversedWeight_stays (hp : s.Sees p) : p.reversedWeight.Stays s :=
  Stays.bind (transpose_stays (sees_parts hp).2.1 _) fun _ _ _ hswapped =>
    flip_stays (Scope.sees_value.1 hswapped) _

theorem initial_stays (hbias : s.Sees bias) (hzs : s.Sees zs) : (p.initial bias zs).Stays s := by
  unfold initial
  split
  · exact zeros_stays hzs _
  · refine Within.tensorType fun type _ => ?_
    split
    · exact trivial
    · refine Stays.bind (convert_stays (Scope.sees_value.1 (Scope.sees_some.1 hbias)) _) ?_
      intro b s₁ hle₁ hb
      exact broadcast_stays (Scope.sees_value.1 hb) (hzs.mono hle₁) _

variable {config : LoweringConfig} {result : TensorType}

/-- The kernel runs on what has been read, and its result is given the declared type. -/
theorem slideOver_within (hp : s.Sees p) (hbias : s.Sees bias) (hzs : s.Sees zs)
    {buffer kernel : ValueId} (hbuffer : buffer ∈ s.seen) (hkernel : kernel ∈ s.seen) :
    (p.slideOver config bias result z z' zs buffer kernel).Within s
      fun v s' => s'.Stands v result := by
  refine Stays.bind (initial_stays hbias hzs) fun init s₁ hle₁ hinit => ?_
  refine Stays.bind (run_stays (hp.mono hle₁) _ (hle₁ hbuffer) (hle₁ hkernel)
    (Scope.sees_value.1 hinit)) fun value s₂ _ hvalue => ?_
  exact finish_within (Scope.sees_value.1 hvalue) result

theorem windows_within (hp : s.Sees p) (hbias : s.Sees bias) (hz : s.Sees z) (hz' : s.Sees z')
    {padding : ValueId} (hpadding : padding ∈ s.seen) :
    (p.windows config bias result z z' padding).Within s fun v s' => s'.Stands v result := by
  obtain ⟨houter, -, -⟩ := Scope.sees_convSizes.1 hz
  obtain ⟨houter', hchannels', -⟩ := Scope.sees_convSizes.1 hz'
  have hsizes : ∀ {s' : Scope} {size : Size} {spatial : List Size}, s ≤ s' → s.Sees size →
      s'.Sees spatial → s'.Sees (z.outer :: size :: spatial) := fun hle hsize hspatial =>
    Scope.sees_cons.2 ⟨houter.mono hle, Scope.sees_cons.2 ⟨hsize.mono hle, hspatial⟩⟩
  unfold windows
  split
  · refine Stays.bind (reversedWeight_stays hp) fun kernel s₁ hle₁ hreversed => ?_
    refine Stays.bind (spreadInput_stays (hp.mono hle₁) (hz.mono hle₁) (hz'.mono hle₁)
      (hle₁ hpadding)) ?_
    rintro ⟨buffer, spatial⟩ s₂ hle₂ hwindow
    obtain ⟨hbuffer, hspatial⟩ := Scope.sees_pair.1 hwindow
    have hle := hle₁.trans hle₂
    exact slideOver_within (hp.mono hle) (hbias.mono hle) (hsizes hle hchannels' hspatial)
      (Scope.sees_value.1 hbuffer) (hle₂ (Scope.sees_value.1 hreversed))
  · refine Stays.bind (padInput_stays hp hz hz' hpadding) ?_
    rintro ⟨buffer, spatial⟩ s₁ hle₁ hwindow
    obtain ⟨hbuffer, hspatial⟩ := Scope.sees_pair.1 hwindow
    exact slideOver_within (hp.mono hle₁) (hbias.mono hle₁) (hsizes hle₁ houter' hspatial)
      (Scope.sees_value.1 hbuffer) (hle₁ (sees_parts hp).2.1)

theorem convolve_within (hp : s.Sees p) (hbias : s.Sees bias) :
    (p.convolve config bias result).Within s fun v s' => s'.Stands v result := by
  obtain ⟨hx, hw, -⟩ := sees_parts hp
  refine Stays.bind (ConvSizes.read_stays hx _) fun z s₁ hle₁ hz => ?_
  refine Stays.bind (ConvSizes.read_stays (hle₁ hw) _) fun z' s₂ hle₂ hz' => ?_
  refine Stays.bind (index_stays _) fun groups s₃ hle₃ hgroups => ?_
  have hz₃ := hz.mono (hle₂.trans hle₃)
  have hz'₃ := hz'.mono hle₃
  refine Stays.bind (requireDivisible_stays (Scope.sees_convSizes.1 hz₃).2.1 hgroups _) ?_
  intro _ s₄ hle₄ _
  refine Stays.bind (requireDivisible_stays (Scope.sees_convSizes.1 (hz'₃.mono hle₄)).1
    (hgroups.mono hle₄) _) fun _ s₅ hle₅ _ => ?_
  have hle : s ≤ s₅ := hle₁.trans (hle₂.trans (hle₃.trans (hle₄.trans hle₅)))
  refine Stays.bind (padding_stays (hp.mono hle)) fun padding s₆ hle₆ hpadding => ?_
  have hle₃₆ : s₃ ≤ s₆ := hle₄.trans (hle₅.trans hle₆)
  exact windows_within (hp.mono (hle.trans hle₆)) (hbias.mono (hle.trans hle₆)) (hz₃.mono hle₃₆)
    (hz'₃.mono hle₃₆) (Scope.sees_value.1 hpadding)

end ConvPlan

namespace Rule

theorem lowerConvolution_within (config : LoweringConfig) {result : TensorType}
    {op : Convolution} (hx : op.input ∈ s.seen) (hw : op.weight ∈ s.seen)
    (hbias : s.Sees op.bias) :
    (lowerConvolution config op result).Within s fun v s' => s'.Stands v result :=
  Stays.bind (ConvPlan.ofConvolution_stays hx hw result) fun _ _ hle hp =>
    ConvPlan.convolve_within hp (hbias.mono hle)

end Rule

end TensorLowering
