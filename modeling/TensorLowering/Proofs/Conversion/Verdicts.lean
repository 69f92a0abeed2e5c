import TensorLowering.Proofs.Build.Matches
import TensorLowering.Proofs.Conversion.PlainRules

/-!
# What a rule declines

Main statement: a standard rule declines an operator on two programs alike, for the same reason, if
the programs share the operands of the operator and what lies behind those that are quantized.
-/
namespace TensorLowering

open Build

variable {s : Pair}

/-- The two programs share some operands. -/
def Pair.Share (s : Pair) (vs : List ValueId) : Prop :=
  ∀ v ∈ vs, s.left.graph.SharesOperand s.right.graph v

/-! ## Matrix products -/

/-- Factors are declined for what is known of the operands before any node is created. -/
theorem Factors.prepare_reason {α α' : Type} (lhs rhs : OperandInfo) (result : TensorType)
    (operator : String) {next : Factors → Build α} {next' : Factors → Build α'}
    (h : ∀ f, (next f).Plain False) (h' : ∀ f, (next' f).Plain False) (d d' : Draft) :
    (prepare lhs rhs result operator >>= next).reason? d =
      (prepare lhs rhs result operator >>= next').reason? d' := by
  rw [reason?_bind_plain h, reason?_bind_plain h']
  refine reason?_attempt fun _ => reason?_attempt fun _ => reason?_attempt fun _ => ?_
  dsimp only
  split
  · rfl
  · refine reason?_attempt fun accumulator => ?_
    rw [reason?_bind_plain fun _ => Quiet.pure.plain, reason?_bind_plain fun _ => Quiet.pure.plain]
    refine reason?_attempt fun _ => reason?_eq_of_plain ?_ ?_ d d' <;>
      exact (Quiet.bind lhs.normalize_quiet fun _ => .bind rhs.normalize_quiet
        fun _ => .pure).plain

namespace Rule

variable {operands : BinaryOperands} {result : TensorType}

theorem lowerMatmul_reason (h : s.Share operands.toList) :
    (lowerMatmul operands result).reason? s.left =
      (lowerMatmul operands result).reason? s.right := by
  refine (OperandInfo.extract_matches (h _ (by simp [BinaryOperands.toList]))).reason?_bind ?_
  rintro _ x s - ⟨rfl, rfl, -⟩
  refine (OperandInfo.extract_matches (h _ (by simp [BinaryOperands.toList]))).reason?_bind ?_
  rintro _ y s - ⟨rfl, rfl, -⟩
  split
  · rfl
  · refine Factors.prepare_reason _ _ _ _ (fun f => ?_) (fun f => ?_) _ _ <;>
      exact (Reduces.followed (f.inForm_reduces _) fun _ => finish_quiet _ _).plain

theorem lowerMm_reason (config : LoweringConfig) (h : s.Share operands.toList) :
    (lowerMm config operands result).reason? s.left =
      (lowerMm config operands result).reason? s.right := by
  refine (OperandInfo.extract_matches (h _ (by simp [BinaryOperands.toList]))).reason?_bind ?_
  rintro _ x s - ⟨rfl, rfl, -⟩
  refine (OperandInfo.extract_matches (h _ (by simp [BinaryOperands.toList]))).reason?_bind ?_
  rintro _ y s - ⟨rfl, rfl, -⟩
  dsimp only
  split
  · rfl
  · exact Factors.prepare_reason _ _ _ _ (fun f => (mmProduct_reduces config f _ result).plain)
      (fun f => (mmProduct_reduces config f _ result).plain) _ _

theorem lowerBmm_reason (h : s.Share operands.toList) :
    (lowerBmm operands result).reason? s.left = (lowerBmm operands result).reason? s.right := by
  have hsame : ∀ v ∈ operands.toList, s.Same v v := fun v hv => (h v hv).value.same
  refine (Matches.of_tensorType (hsame _ (by simp [BinaryOperands.toList]))).reason?_bind ?_
  rintro lhsType _ _ - ⟨rfl, rfl⟩
  refine (Matches.of_tensorType (hsame _ (by simp [BinaryOperands.toList]))).reason?_bind ?_
  rintro rhsType _ _ - ⟨rfl, rfl⟩
  dsimp only
  split
  · rfl
  · exact reason?_eq_of_plain (unifiedProduct_reduces operands _ _ result).plain
      (unifiedProduct_reduces operands _ _ result).plain _ _

theorem lowerFlip_reason {op : Flip} (h : s.Share (HostOp.flip op).operands) :
    (lowerFlip op result).reason? s.left = (lowerFlip op result).reason? s.right := by
  refine reason?_attempt fun dims => ?_
  have hsame : s.Same op.input op.input := (h _ (by simp [HostOp.operands])).value.same
  refine (Matches.of_tensorType hsame).reason?_bind ?_
  rintro type _ _ - ⟨rfl, rfl⟩
  refine reason?_attempt fun axes => reason?_eq_of_plain ?_ ?_ _ _ <;>
    exact (Quiet.bind (flip_quiet _ _) fun _ => finish_quiet _ _).plain

end Rule

/-! ## Convolutions -/

/-- The same is known of the sizes. -/
structure ConvSizes.Alike (z z' : ConvSizes) : Prop where
  outer : z.outer.Alike z'.outer
  channels : z.channels.Alike z'.channels
  spatial : List.Forall₂ Size.Alike z.spatial z'.spatial

theorem ConvSizes.read_matches {v v' : ValueId} (hv : s.Same v v') (rank : Nat) :
    (ConvSizes.read v rank).Matches (ConvSizes.read v' rank) s fun z z' _ => z.Alike z' := by
  refine (dim_matches hv.sameShape 0).bind fun outer outer' s₁ hle₁ houter => ?_
  refine (dim_matches (hv.mono hle₁).sameShape 1).bind ?_
  intro channels channels' s₂ hle₂ hchannels
  refine (Matches.mapM forall₂_eq_self (fun _ h => h) fun axis axis' s' hle haxis => ?_).bind
    fun spatial spatial' _ _ hspatial => .pure ⟨houter, hchannels, hspatial⟩
  rw [haxis]
  exact dim_matches (hv.mono (hle₁.trans (hle₂.trans hle))).sameShape axis

namespace AxisGeometry

variable (g : AxisGeometry) {n n' k k' : Size}

theorem reach_matches (hk : k.Alike k') :
    (g.reach k).Matches (g.reach k') s fun z z' _ => z.Alike z' :=
  (arithConst_matches .add hk _).bind fun _ _ _ _ h => arithConst_matches .mul h _

theorem dynamicOutput_matches (hn : n.Alike n') (hk : k.Alike k') :
    (g.dynamicOutput n k).Matches (g.dynamicOutput n' k') s fun z z' _ => z.Alike z' := by
  unfold dynamicOutput
  split
  · refine (arithConst_matches .add hn _).bind fun _ _ _ _ hlast => ?_
    refine (arithConst_matches .mul hlast _).bind fun _ _ _ _ hspread => ?_
    refine (g.reach_matches hk).bind fun _ _ _ _ hreach => ?_
    exact (arith_matches .add hspread hreach).bind fun _ _ _ _ h => arithConst_matches .add h _
  · refine (g.reach_matches hk).bind fun _ _ _ _ hreach => ?_
    refine (arithConst_matches .add hn _).bind fun _ _ _ _ hpadded => ?_
    refine (arith_matches .sub hpadded hreach).bind fun _ _ _ _ hspan => ?_
    refine (index_matches _).bind fun _ _ _ _ hstride => ?_
    exact (arith_matches .floorDiv hspan hstride).bind fun _ _ _ _ h => arithConst_matches .add h _

theorem output_matches (axis : Nat) (hn : n.Alike n') (hk : k.Alike k') :
    (g.output axis n k).Matches (g.output axis n' k') s fun z z' _ => z.Alike z' := by
  have hdynamic := g.dynamicOutput_matches (s := s) hn hk
  unfold output
  rw [hn, hk]
  split
  · split
    · exact index_matches _
    · exact .fail rfl
  · exact hdynamic

theorem placement_matches (hn : n.Alike n') (hk : k.Alike k') :
    (g.placement n k).Matches (g.placement n' k') s fun z z' _ =>
      z.1.Alike z'.1 ∧ z.2.Alike z'.2 := by
  have hreach := fun s => g.reach_matches (s := s) hk
  unfold placement
  rw [hn, hk]
  split
  · refine (index_matches _).bind fun _ _ _ _ hoffset => ?_
    exact (index_matches _).bind fun _ _ _ _ hsize => .pure ⟨hoffset, hsize⟩
  · refine (hreach s).bind fun _ _ _ _ hreach => ?_
    refine (arithConst_matches .add hreach _).bind fun _ _ _ _ hoffset => ?_
    refine (arithConst_matches .add hn _).bind fun _ _ _ _ hlast => ?_
    refine (arithConst_matches .mul hlast _).bind fun _ _ _ _ hspread => ?_
    refine (arithConst_matches .mul hoffset _).bind fun _ _ _ _ hmargins => ?_
    refine (arith_matches .add hmargins hspread).bind fun _ _ _ _ hsum => ?_
    exact (arithConst_matches .add hsum _).bind fun _ _ _ _ hsize => .pure ⟨hoffset, hsize⟩

end AxisGeometry

/-- The same is known of one spatial axis of two transposed convolutions. -/
structure SpreadAxis.Alike (a a' : SpreadAxis) : Prop where
  offset : a.offset.Alike a'.offset
  size : a.size.Alike a'.size
  output : a.output.Alike a'.output

namespace ConvPlan

/-- The same is known of two plans of a pair. -/
structure Alike (s : Pair) (p p' : ConvPlan) : Prop where
  input : OperandInfo.Alike s p.input p'.input
  weight : OperandInfo.Alike s p.weight p'.weight
  geometry : p'.geometry = p.geometry
  accumulator : p'.accumulator = p.accumulator

variable {p p' : ConvPlan} {x x' w w' : ConvSizes} {v v' : ValueId}

theorem Alike.mono {s' : Pair} (h : Alike s p p') (hle : s ≤ s') : Alike s' p p' :=
  ⟨h.input.mono hle, h.weight.mono hle, h.geometry, h.accumulator⟩

/-- The element type of a bias is looked at if the convolution is quantized. -/
theorem requireBiasType_matches {β β' : Type} {bias : Option ValueId} (quantized : Bool)
    (hbias : ∀ v ∈ bias, s.Same v v) {next : Unit → Build β} {next' : Unit → Build β'}
    {post : β → β' → Pair → Prop}
    (h : ∀ s', s ≤ s' → (next ()).Matches (next' ()) s' post) :
    (if quantized = true then requireBiasType bias >>= next else next ()).Matches
      (if quantized = true then requireBiasType bias >>= next' else next' ()) s post := by
  split
  · have hrequire : (requireBiasType bias).Matches (requireBiasType bias) s fun _ _ _ => True := by
      unfold requireBiasType
      cases bias with
      | none => exact .pure trivial
      | some bias =>
          refine .tensorType (hbias bias rfl) fun type => ?_
          split
          · exact .pure trivial
          · exact .fail rfl
    exact hrequire.bind fun _ _ s' hle _ => h s' hle
  · exact h s le_rfl

theorem geometryOf_matches (op : Convolution) (rank : Nat) :
    (geometryOf op rank).Matches (geometryOf op rank) s fun g g' _ => g' = g := by
  unfold geometryOf
  split
  · exact .fail rfl
  · split
    · exact .fail rfl
    · exact .pure rfl

theorem ofConvolution_matches {op : Convolution} (result : TensorType)
    (h : s.Share (HostOp.convolution op).operands) :
    (ofConvolution op result).Matches (ofConvolution op result) s fun p p' s' => Alike s' p p' := by
  have hmem : ∀ v, v ∈ [op.input, op.weight] ++ op.bias.toList →
      s.left.graph.SharesOperand s.right.graph v := fun v hv =>
    h v (by simp only [HostOp.operands, List.mem_append] at hv ⊢; tauto)
  refine (OperandInfo.extract_matches (hmem _ (by simp))).bind ?_
  rintro _ x s - ⟨rfl, rfl, hx⟩
  refine (OperandInfo.extract_matches (hmem _ (by simp))).bind ?_
  rintro _ w s - ⟨rfl, rfl, hw⟩
  refine .attempt fun quantized _ => ?_
  refine requireBiasType_matches quantized (fun v hv => (hmem v ?_).value.same) fun s' hle => ?_
  · simp [Option.mem_def.1 hv]
  refine .attempt fun _ _ => .attempt fun _ _ => .attempt fun _ _ => ?_
  split
  · exact .fail rfl
  split
  · exact .fail rfl
  refine (geometryOf_matches op _).bind fun geometry geometry' s₁ hle₁ hgeometry => ?_
  refine .attempt fun accumulator _ => ?_
  refine (OperandInfo.normalize_matches (hx.mono (hle.trans hle₁))).bind ?_
  intro x₁ x₁' s₂ hle₂ hx₁
  refine (OperandInfo.normalize_matches (hw.mono (hle.trans (hle₁.trans hle₂)))).bind ?_
  intro w₁ w₁' s₃ hle₃ hw₁
  exact .pure ⟨hx₁.mono hle₃, hw₁, hgeometry, rfl⟩

theorem padding_matches (hp : Alike s p p') :
    p.padding.Matches p'.padding s fun v v' s' => s'.Same v v' := by
  have htype := hp.input.type
  have hquantized := hp.input.quantized
  unfold padding
  unfold OperandInfo.isQuantized at hquantized
  rw [htype]
  cases hzero : p.input.zeroPoint <;> cases hzero' : p'.input.zeroPoint <;>
    simp only [hzero, hzero', Option.isSome_none, Option.isSome_some, Bool.true_eq_false,
      Bool.false_eq_true] at hquantized
  · exact scalar_matches _ _ _
  · exact scalarCast_matches _ _ _

theorem reversedWeight_matches (hp : Alike s p p') :
    p.reversedWeight.Matches p'.reversedWeight s fun v v' s' => s'.Same v v' := by
  unfold reversedWeight spatialRank
  rw [hp.geometry]
  exact (transpose_matches hp.weight.value _).bind fun _ _ _ _ h => flip_matches h _

/-- What is done for each axis finds the same known of the sizes. -/
theorem mapM_axes_matches {β β' : Type} {f : (AxisGeometry × Size × Size) × Nat → Build β}
    {f' : (AxisGeometry × Size × Size) × Nat → Build β'} {post : β → β' → Prop}
    (hp : Alike s p p') (hx : x.Alike x') (hw : w.Alike w')
    (h : ∀ g n n' k k' axis s', n.Alike n' → k.Alike k' →
      (f ((g, n, k), axis)).Matches (f' ((g, n', k'), axis)) s' fun y y' _ => post y y') :
    ((p.axes x.spatial w.spatial).mapM f).Matches ((p'.axes x'.spatial w'.spatial).mapM f') s
      fun ys ys' _ => List.Forall₂ post ys ys' := by
  unfold axes
  rw [hp.geometry]
  refine .mapM (forall₂_zipIdx (forall₂_zip_zip forall₂_eq_self
    (forall₂_zip_zip hx.spatial hw.spatial)) 0) (fun _ h => h) ?_
  rintro ⟨⟨g, n, k⟩, axis⟩ ⟨⟨g', n', k'⟩, axis'⟩ s' - ⟨⟨rfl, hn, hk⟩, rfl⟩
  exact h _ _ _ _ _ _ s' hn hk

theorem padInput_matches (hp : Alike s p p') (hx : x.Alike x') (hw : w.Alike w') :
    (p.padInput x w v).Matches (p'.padInput x' w' v') s fun r r' s' =>
      s'.Same r.1 r'.1 ∧ List.Forall₂ Size.Alike r.2 r'.2 := by
  unfold padInput
  rw [hp.geometry]
  refine (pad_matches hp.input.value _ _ v v').bind fun padded padded' s₁ hle₁ hpadded => ?_
  refine (mapM_axes_matches (hp.mono hle₁) hx hw fun g n n' k k' axis s' hn hk =>
    g.output_matches axis hn hk).bind fun output output' s₂ hle₂ houtput => ?_
  exact .pure ⟨hpadded.mono hle₂, houtput⟩

theorem spreadAxis_matches (g : AxisGeometry) (axis : Nat) {n n' k k' : Size} (hn : n.Alike n')
    (hk : k.Alike k') :
    (spreadAxis g axis n k).Matches (spreadAxis g axis n' k') s fun a a' _ => a.Alike a' := by
  unfold spreadAxis
  rw [hk]
  split
  · exact .fail rfl
  · refine (g.placement_matches hn hk).bind fun place place' _ _ hplace => ?_
    exact (g.output_matches axis hn hk).bind fun _ _ _ _ houtput =>
      .pure ⟨hplace.1, hplace.2, houtput⟩

theorem spreadInput_matches (hp : Alike s p p') (hx : x.Alike x') (hw : w.Alike w') :
    (p.spreadInput x w v).Matches (p'.spreadInput x' w' v') s fun r r' s' =>
      s'.Same r.1 r'.1 ∧ List.Forall₂ Size.Alike r.2 r'.2 := by
  unfold spreadInput
  rw [hp.geometry, hp.input.type]
  refine (index_matches 0).bind fun zero zero' s₁ hle₁ hzero => ?_
  refine (mapM_axes_matches (hp.mono hle₁) hx hw fun g n n' k k' axis s' hn hk =>
    spreadAxis_matches g axis hn hk).bind fun axes axes' s₂ hle₂ haxes => ?_
  have hmap : ∀ f : SpreadAxis → Size, (∀ a a' : SpreadAxis, a.Alike a' → (f a).Alike (f a')) →
      List.Forall₂ Size.Alike (axes.map f) (axes'.map f) := fun f hf =>
    List.forall₂_map_left_iff.2 (List.forall₂_map_right_iff.2 (List.Forall₂.imp hf haxes))
  have hsizes := List.Forall₂.cons hx.outer (.cons hx.channels (hmap _ fun _ _ h => h.size))
  have hoffsets := List.Forall₂.cons hzero (.cons hzero (hmap _ fun _ _ h => h.offset))
  refine (filled_matches hsizes v v' _).bind fun buffer buffer' s₃ hle₃ hbuffer => ?_
  refine (insertSlice_matches (hp.input.value.mono (hle₁.trans (hle₂.trans hle₃))) hbuffer
    hoffsets _).bind fun spread spread' _ _ hspread => ?_
  exact .pure ⟨hspread, hmap _ fun _ _ h => h.output⟩

theorem initial_matches (hp : Alike s p p') {bias : Option ValueId} (hbias : ∀ v ∈ bias, s.Same v v)
    {zs zs' : List Size} (h : List.Forall₂ Size.Alike zs zs') :
    (p.initial bias zs).Matches (p'.initial bias zs') s fun v v' s' => s'.Same v v' := by
  unfold initial
  rw [hp.accumulator, List.Forall₂.length_eq h]
  cases bias with
  | none => exact zeros_matches h _
  | some bias =>
      refine .tensorType (hbias bias rfl) fun type => ?_
      split
      · exact .fail rfl
      · exact (convert_matches (hbias bias rfl) _).bind fun _ _ _ _ hv => broadcast_matches hv h _

theorem path_eq (hp : Alike s p p') (hx : x.Alike x') (hw : w.Alike w') (config : LoweringConfig) :
    p'.path config x' w' = p.path config x w := by
  have hquantized : p'.isQuantized = p.isQuantized := hp.input.quantized
  have hx' := hx.channels
  have hw' := hw.channels
  have hw'' := hw.outer
  unfold Size.Alike at hx' hw' hw''
  unfold path
  rw [hp.geometry, hquantized, hx', hw', hw'']

theorem run_reason (hp : Alike s p p') (path : ConvPath) {input input' weight weight' init init' :
    ValueId} (hweight : s.Same weight weight') :
    (p.run path input weight init).reason? s.left =
      (p'.run path input' weight' init').reason? s.right := by
  have hrank : p'.spatialRank = p.spatialRank := congrArg ConvGeometry.spatialRank hp.geometry
  have hquantized : p'.isQuantized = p.isQuantized := hp.input.quantized
  cases path with
  | standard =>
      exact reason?_eq_of_plain (p.reduce_reduces _ _ _ _).plain
        (p'.reduce_reduces _ _ _ _).plain _ _
  | quantizedChannelLast =>
      exact reason?_eq_of_plain (p.channelLast_reduces _ _ _ _ _).plain
        (p'.channelLast_reduces _ _ _ _ _).plain _ _
  | depthwise =>
      simp only [run, depthwise, rank, hrank, hquantized]
      refine (collapseShape_matches hweight _).reason?_bind fun _ _ s' _ _ => ?_
      split
      · split
        · rfl
        · exact reason?_eq_of_plain (p.channelLast_reduces _ _ _ _ _).plain
            (p'.channelLast_reduces _ _ _ _ _).plain _ _
      · split
        · rfl
        · exact reason?_eq_of_plain (p.reduce_reduces _ _ _ _).plain
            (p'.reduce_reduces _ _ _ _).plain _ _
  | grouped =>
      by_cases h : p.spatialRank = 2
      · exact reason?_eq_of_plain (p.grouped_reduces _ _ _ fun hne => hne h).plain
          (p'.grouped_reduces _ _ _ fun hne => hne (hrank.trans h)).plain _ _
      · simp only [run, grouped, hrank, if_pos h]
        rfl

theorem slideOver_reason (hp : Alike s p p') (hx : x.Alike x') (hw : w.Alike w')
    {bias : Option ValueId} (hbias : ∀ v ∈ bias, s.Same v v) {zs zs' : List Size}
    (hsizes : List.Forall₂ Size.Alike zs zs') {buffer buffer' kernel kernel' : ValueId}
    (hkernel : s.Same kernel kernel') (config : LoweringConfig) (result : TensorType) :
    (p.slideOver config bias result x w zs buffer kernel).reason? s.left =
      (p'.slideOver config bias result x' w' zs' buffer' kernel').reason? s.right := by
  refine (initial_matches hp hbias hsizes).reason?_bind fun init init' s₁ hle₁ _ => ?_
  rw [reason?_bind_plain fun _ => (finish_quiet _ _).plain,
    reason?_bind_plain fun _ => (finish_quiet _ _).plain, path_eq hp hx hw]
  exact run_reason (hp.mono hle₁) _ (hkernel.mono hle₁)

theorem windows_reason (hp : Alike s p p') (hx : x.Alike x') (hw : w.Alike w')
    {bias : Option ValueId} (hbias : ∀ v ∈ bias, s.Same v v) (config : LoweringConfig)
    (result : TensorType) :
    (p.windows config bias result x w v).reason? s.left =
      (p'.windows config bias result x' w' v').reason? s.right := by
  unfold windows
  rw [hp.geometry]
  split
  · refine (reversedWeight_matches hp).reason?_bind fun kernel kernel' s₁ hle₁ hkernel => ?_
    refine (spreadInput_matches (hp.mono hle₁) hx hw).reason?_bind ?_
    rintro ⟨buffer, sizes⟩ ⟨buffer', sizes'⟩ s₂ hle₂ ⟨-, hsizes⟩
    exact slideOver_reason (hp.mono (hle₁.trans hle₂)) hx hw
      (fun v hv => (hbias v hv).mono (hle₁.trans hle₂)) (.cons hx.outer (.cons hw.channels hsizes))
      (hkernel.mono hle₂) config result
  · refine (padInput_matches hp hx hw).reason?_bind ?_
    rintro ⟨buffer, sizes⟩ ⟨buffer', sizes'⟩ s₁ hle₁ ⟨-, hsizes⟩
    exact slideOver_reason (hp.mono hle₁) hx hw (fun v hv => (hbias v hv).mono hle₁)
      (.cons hx.outer (.cons hw.outer hsizes)) (hp.weight.value.mono hle₁) config result

theorem convolve_reason (hp : Alike s p p') {bias : Option ValueId}
    (hbias : ∀ v ∈ bias, s.Same v v) (config : LoweringConfig) (result : TensorType) :
    (p.convolve config bias result).reason? s.left =
      (p'.convolve config bias result).reason? s.right := by
  have hrank : p'.spatialRank = p.spatialRank := congrArg ConvGeometry.spatialRank hp.geometry
  unfold convolve
  rw [hrank, hp.geometry]
  refine (ConvSizes.read_matches hp.input.value _).reason?_bind fun x x' s₁ hle₁ hx => ?_
  refine (ConvSizes.read_matches (hp.weight.value.mono hle₁) _).reason?_bind ?_
  intro w w' s₂ hle₂ hw
  refine (index_matches _).reason?_bind fun groups groups' s₃ hle₃ hgroups => ?_
  refine (requireDivisible_matches hx.channels hgroups _).reason?_bind fun _ _ s₄ hle₄ _ => ?_
  refine (requireDivisible_matches hw.outer hgroups _).reason?_bind fun _ _ s₅ hle₅ _ => ?_
  have hle : s ≤ s₅ := hle₁.trans (hle₂.trans (hle₃.trans (hle₄.trans hle₅)))
  refine (padding_matches (hp.mono hle)).reason?_bind fun padding padding' s₆ hle₆ _ => ?_
  exact windows_reason (hp.mono (hle.trans hle₆)) hx hw
    (fun v hv => (hbias v hv).mono (hle.trans hle₆)) config result

end ConvPlan

theorem Rule.lowerConvolution_reason (config : LoweringConfig) {op : Convolution}
    {result : TensorType} (h : s.Share (HostOp.convolution op).operands) :
    (lowerConvolution config op result).reason? s.left =
      (lowerConvolution config op result).reason? s.right := by
  have hbias : ∀ v ∈ op.bias, s.Same v v := fun v hv =>
    (h v (by simp [HostOp.operands, Option.mem_def.1 hv])).value.same
  rw [lowerConvolution_eq]
  exact (ConvPlan.ofConvolution_matches result h).reason?_bind fun p p' s₁ hle₁ hp =>
    ConvPlan.convolve_reason hp (fun v hv => (hbias v hv).mono hle₁) config result

/-! ## Trilinear products -/

namespace TrilinearPlan

variable {p : TrilinearPlan} {zs zs' : List Size} {factors factors' : Triple ValueId}

theorem unrollSize_matches (config : LoweringConfig) (h : List.Forall₂ Size.Alike zs zs') :
    (p.unrollSize config zs).Matches (p.unrollSize config zs') s fun n n' _ => n' = n := by
  have hknown : zs'[p.unroll]?.bind Size.known = zs[p.unroll]?.bind Size.known := by
    have hmap : zs.map Size.known = zs'.map Size.known := by
      rw [← List.forall₂_eq_eq_eq, List.forall₂_map_left_iff, List.forall₂_map_right_iff]
      exact h
    have hat := congrArg (fun ks : List (Option Int) => ks[p.unroll]?.join) hmap
    simp only [List.getElem?_map] at hat
    cases hz : zs[p.unroll]? <;> cases hz' : zs'[p.unroll]? <;> simp_all
  unfold unrollSize
  rw [hknown]
  split
  · split
    · exact .fail rfl
    · exact .pure rfl
  · exact .fail rfl

theorem unrolled_reason (config : LoweringConfig) (h : factors.Related s.Same factors')
    (dtype : DType) :
    (p.unrolled config factors dtype).reason? s.left =
      (p.unrolled config factors' dtype).reason? s.right := by
  have hsizes : (factors.mapM dims).Matches (factors'.mapM dims) s fun zs zs' _ =>
      zs.Related (List.Forall₂ Size.Alike) zs' :=
    .triple h (fun _ h => h) fun v v' s' hle hv => dims_matches (hv.mono hle)
  refine hsizes.reason?_bind fun sizes sizes' s₁ _ hsizes => ?_
  refine (broadcastSizes_matches hsizes.first hsizes.second).reason?_bind ?_
  intro partialSizes partialSizes' s₂ _ hpartial
  refine (broadcastSizes_matches hpartial hsizes.third).reason?_bind fun common common' s₃ _ h => ?_
  refine (unrollSize_matches config h).reason?_bind fun count count' s₄ _ _ => ?_
  exact reason?_eq_of_plain (p.steps_quiet _ _ _ _ _).plain (p.steps_quiet _ _ _ _ _).plain _ _

end TrilinearPlan

theorem Rule.lowerTrilinear_reason (config : LoweringConfig) {op : Trilinear} {result : TensorType}
    (h : s.Share (HostOp.trilinear op).operands) :
    (lowerTrilinear config op result).reason? s.left =
      (lowerTrilinear config op result).reason? s.right := by
  have hsame : ∀ v ∈ op.inputs.toList, s.Same v v := fun v hv =>
    (h v (by simp [HostOp.operands, hv])).value.same
  simp only [Triple.toList, List.mem_cons, List.not_mem_nil, or_false, forall_eq_or_imp,
    forall_eq] at hsame
  have htypes : (op.inputs.mapM tensorType).Matches (op.inputs.mapM tensorType) s
      fun t t' _ => t.Related (fun t t' => t' = t) t' := by
    have hinputs : op.inputs.Related s.Same op.inputs := ⟨hsame.1, hsame.2.1, hsame.2.2⟩
    refine .triple hinputs (fun _ h => h) fun v v' s' hle hv => ?_
    exact (Matches.of_tensorType (hv.mono hle)).weaken fun _ _ _ _ h => h.2
  refine htypes.reason?_bind ?_
  rintro ⟨first, second, third⟩ ⟨_, _, _⟩ s₁ hle₁ ⟨rfl, rfl, rfl⟩
  refine reason?_attempt fun plan => reason?_attempt fun _ => ?_
  dsimp only
  split
  · rfl
  have hinputs : Triple.Related (fun e e' : ValueId × List Nat => s₁.Same e.1 e'.1 ∧ e'.2 = e.2)
      (op.inputs.zip plan.expand) (op.inputs.zip plan.expand) :=
    ⟨⟨hsame.1.mono hle₁, rfl⟩, ⟨hsame.2.1.mono hle₁, rfl⟩, ⟨hsame.2.2.mono hle₁, rfl⟩⟩
  have hfactors : ((op.inputs.zip plan.expand).mapM fun (x : ValueId × List Nat) =>
      TrilinearPlan.align x.1 x.2).Matches ((op.inputs.zip plan.expand).mapM
        fun (x : ValueId × List Nat) => TrilinearPlan.align x.1 x.2) s₁
      fun f f' s' => f.Related s'.Same f' := by
    refine .triple hinputs (fun hle h => h.mono hle) ?_
    rintro ⟨v, axes⟩ ⟨v', _⟩ s' hle ⟨hv, rfl⟩
    exact .foldlM (hv.mono hle) fun v v' axis s'' _ hv => unsqueeze_matches hv axis
  refine hfactors.reason?_bind fun factors factors' s₂ _ hfactors => ?_
  have hplain : ∀ output, (plan.summed.reverse.foldlM squeeze output >>= fun squeezed =>
      finish squeezed result).Plain False := fun _ =>
    (Quiet.bind (.foldlM fun _ _ => squeeze_quiet _ _) fun _ => finish_quiet _ _).plain
  rw [reason?_bind_plain hplain, reason?_bind_plain hplain]
  exact TrilinearPlan.unrolled_reason config hfactors _

/-! ## Standard rules -/

/-- A rule declines an operator on two programs alike if they share its operands. -/
def Rule.Steady (rule : Rule) : Prop :=
  ∀ (config : LoweringConfig) (op : HostOp) (result : TensorType) (s : Pair), s.Share op.operands →
    (rule.apply config op result).reason? s.left = (rule.apply config op result).reason? s.right

theorem Rule.steady_of_mem {rule : Rule} (hrule : rule ∈ RuleSet.standard.rules) :
    rule.Steady := by
  intro config op result s h
  simp only [RuleSet.standard, List.mem_cons, List.not_mem_nil, or_false] at hrule
  rcases hrule with rfl | rfl | rfl | rfl | rfl | rfl
  · cases op with
    | mm operands => exact lowerMm_reason config h
    | _ => rfl
  · cases op with
    | flip op => exact lowerFlip_reason h
    | _ => rfl
  · cases op with
    | matmul operands => exact lowerMatmul_reason h
    | _ => rfl
  · cases op with
    | bmm operands => exact lowerBmm_reason h
    | _ => rfl
  · cases op with
    | convolution op => exact lowerConvolution_reason config h
    | _ => rfl
  · cases op with
    | trilinear op => exact lowerTrilinear_reason config h
    | _ => rfl

end TensorLowering
