import TensorLowering.Proofs.Build.DeclaredLayouts
import TensorLowering.Proofs.Convolution.Paths

/-!
# Kernels over sizes that are open

Whether the channels of the buffer agree with those of the weight shows only when the kernel runs.
Main statement: whichever kernel a convolution uses, where it goes on the channels agree, and it
slides the weight over the buffer.
-/
namespace TensorLowering

open Numeric NdArray Stage Build

/-! ## Channels of a kernel that runs -/

namespace NdArray

variable {bounds steps} {r n n' f ch ch' g g' : Nat} {padded kernel out : List Nat}

theorem standard_agree (h : List.Forall₂ (Addresses bounds) (standardIndexing steps r).maps
    [n :: ch :: padded, f :: ch' :: kernel, out]) : ch = ch' := by
  obtain ⟨hlhs, hrhs⟩ := List.forall₂_cons.1 h
  exact hlhs.agree (i := 1) (j := 1) (d := 2 + r) (List.forall₂_cons.1 hrhs).1 rfl rfl rfl rfl

theorem grouped_agree (h : List.Forall₂ (Addresses bounds) (groupedIndexing steps r).maps
    [n :: g :: ch :: padded, g' :: f :: ch' :: kernel, out]) : ch = ch' := by
  obtain ⟨hlhs, hrhs⟩ := List.forall₂_cons.1 h
  exact hlhs.agree (i := 2) (j := 2) (d := 3 + r) (List.forall₂_cons.1 hrhs).1 rfl rfl rfl rfl

end NdArray

variable {l : Limits} {s s' : Stage} {p : ConvPlan} {c : ConvolutionSizes} {b w t : Tensor}
  {padded out : List Nat} {bias : Option Tensor} {input weight init : ValueId} {acc : DType}
  {zs : Option (Binary64 × Binary64)} {config : LoweringConfig} {ch : Nat}

/-! ## Channels split into groups -/

theorem ConvPlan.splitGroups_meets (hl : ∀ value, l.considers value → value.Small) {v : ValueId}
    {z : Size} {A C : List Nat} {g m : Nat} (hv : s.HasTensor v t)
    (ht : t.shape = A ++ [g * m] ++ C) (hz : s.IsSize l z g) (hg : 1 ≤ g)
    (hfit : ¬ TooLarge t.shape) (hlarge : TooLarge (A ++ [g, m] ++ C) → ∀ e, l.stops e) :
    (splitGroups v A.length z).Meets l s fun pair s' =>
      s'.HasTensor pair.1 (t.reshaped (A ++ [g, m] ++ C)) ∧ ¬ TooLarge (A ++ [g, m] ++ C) ∧
        pair.2 = .middle A [g, m] C := by
  refine .bind (dims_meets hv (fun n hn => lt_of_mem_of_not_tooLarge hfit hn)
    fun n _ => .of_small hl _) fun zs s₁ hle₁ hzs => ?_
  rw [ht] at hzs
  have hlen := hzs.length_eq
  have houter := List.forall₂_take_append zs A ([g * m] ++ C) (List.append_assoc A _ _ ▸ hzs)
  have hrest := List.forall₂_drop_append zs A ([g * m] ++ C) (List.append_assoc A _ _ ▸ hzs)
  obtain ⟨size, inner, hsize, hinner, hdrop⟩ := List.forall₂_cons_right_iff.1 hrest
  rw [List.splitAt_eq, hdrop]
  refine .bind (floorDiv_meets hl hsize (hz.mono hle₁) (by omega)) fun perGroup s₂ hle₂ hper => ?_
  rw [Int.natCast_mul, Int.mul_ediv_cancel_left _ (by omega)] at hper
  have hfold : Reassociation.foldRange (zs.length + 1) A.length (A.length + 2) =
      .middle A [g, m] C := by
    refine Reassociation.foldRange_pair ?_
    rw [hlen]
    simp only [List.length_append, List.length_singleton]
    omega
  have hsizes : s₂.AreSizes l (zs.take A.length ++ [z, perGroup] ++ inner) (A ++ [g, m] ++ C) := by
    have hpair : s₂.AreSizes l [z, perGroup] [g, m] :=
      .cons (hz.mono (hle₁.trans hle₂)) (.cons hper .nil)
    have hfirst : s₂.AreSizes l (zs.take A.length) A := AreSizes.mono houter hle₂
    have hlast : s₂.AreSizes l inner C := AreSizes.mono hinner hle₂
    exact (hfirst.append hpair).append hlast
  have hvolume : t.shape = A ++ [volume [g, m]] ++ C := by
    rw [ht, volume_pair]
  dsimp only
  rw [hfold]
  refine .bind (expandShape_checked_meets (hv.mono (hle₁.trans hle₂)) hvolume (by simp) hsizes
    hlarge) ?_
  rintro split s₃ - ⟨hsplit, hfits⟩
  exact .pure ⟨hsplit, hfits, rfl⟩

/-! ## Channels last -/

/-- Transposing the operands, running a kernel with the channels last and transposing its output. -/
theorem ConvPlan.channelLast_meets {Agree : Prop} {x : Tensor} {variant : ConvVariant}
    {q : Permutation} {lhs rhs res : AffineMap} {iterators : List IteratorKind} {inner : List Nat}
    {f g o : List Nat → List Nat} (hx : s.HasTensor input x) (hw : s.HasTensor weight w)
    (hc : s.HasTensor init t) (hz : s.HasZeroPoints p.zeroPoints? zs)
    (hquantized : p.isQuantized = zs.isSome) (hxrank : x.shape.length = p.rank)
    (hcrank : t.shape.length = p.rank) (hq : q.IsValid w.shape.length)
    (hindexing : (p.spec variant).indexing? = some (lastIndexing ⟨[lhs, rhs, res], iterators⟩
      (.channelLast p.rank) q (.channelLast p.rank)))
    (hranks : List.Forall₂ (fun shape m => shape.length = m.results.length)
      [x.shape, w.shape, t.shape] [lhs, rhs, res])
    (hagree : ∀ bounds, List.Forall₂ (Addresses bounds) [lhs, rhs, res]
      [x.shape, w.shape, t.shape] → Agree)
    (hstops : ¬ Agree → ∀ e, l.stops e)
    (hroutes : Agree → Routes ⟨[lhs, rhs, res], iterators⟩ (t.shape ++ inner) x.shape w.shape
      t.shape f g o)
    (ho : ∀ ix, InBounds (t.shape ++ inner) ix → o ix = ix.take t.shape.length) :
    (p.channelLast variant input weight init q).Meets l s fun v s' =>
      Agree ∧ s'.HasTensor v (productSums t x w .signed zs inner f g) := by
  have hlast : (Permutation.channelLast p.rank).IsValid p.rank :=
    Permutation.isValid_channelLast p.spatialRank
  refine .bind (transpose_meets hx (hxrank ▸ hlast)) fun input' s₁ hle₁ hinput => ?_
  refine .bind (transpose_meets (hw.mono hle₁) hq) fun weight' s₂ hle₂ hweight => ?_
  refine .bind (transpose_meets ((hc.mono hle₁).mono hle₂) (hcrank ▸ hlast)) ?_
  intro init' s₃ hle₃ hinit
  have hcombine : (p.spec variant).combine = ReductionSpec.combineFor zs.isSome := by
    rw [← hquantized]
    rfl
  refine .bind (reduce_reordered_meets (hxrank ▸ hlast) hq (hcrank ▸ hlast) hindexing hcombine
    ((hinput.mono hle₂).mono hle₃) (hweight.mono hle₃) hinit
    (((hz.mono hle₁).mono hle₂).mono hle₃) hranks hagree hstops hroutes ho) ?_
  rintro output s₄ - ⟨hagreed, houtput⟩
  have hcast : (p.spec variant).cast = .signed := rfl
  rw [hcast] at houtput
  obtain ⟨hvalid, hback⟩ := Permutation.transposed_channelFirst_channelLast p.spatialRank
    (t := productSums t x w .signed zs inner f g) hcrank
  exact (transpose_meets houtput hvalid).weaken fun v s₅ _ hv => ⟨hagreed, hv.of_eq hback⟩

/-! ## Kernels -/

namespace ConvolutionSizes

/-- What a kernel needs of the operands and their output. -/
structure Loaded (c : ConvolutionSizes) (p : ConvPlan) (s : Stage) (input weight init : ValueId)
    (b t : Tensor) (zs : Option (Binary64 × Binary64)) (ch : Nat) (padded out : List Nat)
    (accumulator : DType) (bias : Option Tensor) : Prop where
  zeroPoints : s.HasZeroPoints p.zeroPoints? zs
  quantized : p.isQuantized = zs.isSome
  framed : c.Framed p.geometry t padded out
  input : s.HasTensor input b
  weight : s.HasTensor weight t
  init : s.HasTensor init (c.start accumulator bias out)
  shape : b.shape = c.batch :: ch :: padded
  bufferFits : ¬ TooLarge b.shape
  weightFits : ¬ TooLarge c.weightShape
  outputFits : ¬ TooLarge (c.outputShape out)

/-- The channels agree, and everything fits an array with its channels split. -/
structure Agrees (c : ConvolutionSizes) (ch : Nat) (padded out : List Nat) : Prop where
  channels : ch = c.groups * c.channels
  fits : c.BufferFits padded out

variable (h : c.Loaded p s input weight init b t zs ch padded out acc bias)
include h

theorem Loaded.buffered (hch : ch = c.groups * c.channels) :
    c.Buffered p.geometry b t padded out := by
  refine ⟨h.framed, ?_⟩
  rw [h.shape, hch]

/-- Everything fits with its channels split if this adds unit axes only. -/
theorem Loaded.agrees (hch : ch = c.groups * c.channels)
    (hone : c.groups = 1 ∨ c.channels = 1 ∧ c.filters = 1) : c.Agrees ch padded out := by
  refine ⟨hch, .of_unsplit ?_ h.weightFits h.outputFits hone⟩
  have hbuffer := h.bufferFits
  rwa [h.shape, hch] at hbuffer

end ConvolutionSizes

open ConvolutionSizes

namespace ConvPlan

/-- The standard kernel reads shapes of these ranks. -/
theorem standard_ranks (h : c.Loaded p s input weight init b t zs ch padded out acc bias) :
    List.Forall₂ (fun shape m => shape.length = m.results.length)
      [b.shape, t.shape, (c.start acc bias out).shape]
      (standardIndexing (p.geometry.moves.zip p.geometry.dilation) out.length).maps := by
  have hroutes := h.framed.slides.standard_routes c.batch (c.groups * c.filters) c.channels
  have hranks := hroutes.ranks
  have hwshape : t.shape = c.groups * c.filters :: c.channels :: c.kernel := h.framed.weight
  obtain ⟨hfirst, hrest⟩ := List.forall₂_cons.1 hranks
  rw [hwshape]
  refine .cons ?_ hrest
  rw [h.shape]
  exact hfirst

/-- Where the channels agree, it goes through the elements of the window at each output. -/
theorem standard_routes (h : c.Loaded p s input weight init b t zs ch padded out acc bias)
    (heq : ch = c.channels) :
    Routes (standardIndexing (p.geometry.moves.zip p.geometry.dilation) out.length)
      ((c.start acc bias out).shape ++ c.channels :: c.kernel) b.shape t.shape
      (c.start acc bias out).shape
      (windowAt [0, 2 + out.length] (p.geometry.moves.zip p.geometry.dilation) 2 out.length 1)
      (select (1 :: (2 + out.length) :: List.range' (3 + out.length) out.length))
      (List.take (c.start acc bias out).shape.length) := by
  have hroutes := h.framed.slides.standard_routes c.batch (c.groups * c.filters) c.channels
  rw [h.shape, heq, h.framed.weight]
  exact hroutes

theorem standard_meets (h : c.Loaded p s input weight init b t zs ch padded out acc bias)
    (hgroups : c.groups = 1) (hwrong : ¬ c.Agrees ch padded out → ∀ e, l.stops e) :
    (p.standard input weight init).Meets l s fun v s' => c.Agrees ch padded out ∧
      s'.HasTensor v (c.slide (p.geometry.moves.zip p.geometry.dilation) acc b t zs bias out) := by
  have hwshape : t.shape = c.groups * c.filters :: c.channels :: c.kernel := h.framed.weight
  have hbshape := h.shape
  have hroutes := standard_routes h
  unfold standard
  rw [spec_eq h.quantized]
  refine (reduce_agreeing_meets (indexing?_standard h.framed.moves h.framed.dilation) rfl h.input
    h.weight h.init h.zeroPoints (standard_ranks h) (fun bounds hbounds => ?_)
    (fun hne => hwrong fun hagrees => ?_) hroutes fun _ _ => rfl).weaken ?_
  · rw [hbshape, hwshape] at hbounds
    exact standard_agree hbounds
  · refine hne (hagrees.channels.trans ?_)
    rw [hgroups, Nat.one_mul]
  · rintro v s' - ⟨rfl, hv⟩
    refine ⟨h.agrees (by rw [hgroups, Nat.one_mul]) (.inl hgroups), hv.of_eq ?_⟩
    exact (h.framed.slides.standard_sums rfl).trans (slide_eq_standardSums hgroups)

theorem quantizedChannelLast_meets
    (h : c.Loaded p s input weight init b t zs ch padded out acc bias) (hgroups : c.groups = 1)
    (hwrong : ¬ c.Agrees ch padded out → ∀ e, l.stops e) :
    (p.quantizedChannelLast input weight init).Meets l s fun v s' => c.Agrees ch padded out ∧
      s'.HasTensor v (c.slide (p.geometry.moves.zip p.geometry.dilation) acc b t zs bias out) := by
  have hwshape : t.shape = c.groups * c.filters :: c.channels :: c.kernel := h.framed.weight
  have hbshape := h.shape
  have hrank : p.spatialRank = out.length := h.framed.spatialRank
  have hroutes := standard_routes h
  have hindexing := indexing?_standard_last p.isQuantized h.framed.moves h.framed.dilation
  have hranks := standard_ranks h
  rw [← hrank] at hindexing hroutes hranks
  refine (channelLast_meets h.input h.weight h.init h.zeroPoints h.quantized
    (h.framed.rank_buffer h.shape) h.framed.rank_start h.framed.isValid_kernelFirst hindexing hranks
    (fun bounds hbounds => ?_)
    (fun hne => hwrong fun hagrees => ?_) hroutes fun _ _ => rfl).weaken ?_
  · rw [hbshape, hwshape] at hbounds
    exact standard_agree hbounds
  · refine hne (hagrees.channels.trans ?_)
    rw [hgroups, Nat.one_mul]
  · rintro v s' - ⟨rfl, hv⟩
    refine ⟨h.agrees (by rw [hgroups, Nat.one_mul]) (.inl hgroups), hv.of_eq ?_⟩
    rw [← slide_eq_standardSums hgroups, hrank]
    exact h.framed.slides.standard_sums rfl

theorem depthwise_meets (h : c.Loaded p s input weight init b t zs ch padded out acc bias)
    (hfails : ∀ e, l.fails e) (hch : ch = c.groups) (hc : c.channels = 1) (hf : c.filters = 1) :
    (p.depthwise input weight init).Meets l s fun v s' =>
      s'.HasTensor v (c.slide (p.geometry.moves.zip p.geometry.dilation) acc b t zs bias out) := by
  have hrank : p.spatialRank = out.length := h.framed.spatialRank
  have htshape := h.framed.weight.trans (weightShape_depthwise hc hf)
  have hbshape : b.shape = c.batch :: c.groups :: padded := hch ▸ h.shape
  have hcshape : (c.start acc bias out).shape = c.batch :: c.groups :: out :=
    shape_start_depthwise hf
  have hfold := not_tooLarge_fold (weightShape_depthwise hc hf ▸ h.weightFits)
  unfold depthwise
  rw [h.framed.foldRange_depthwise hc hf]
  refine .bind (collapseShape_meets h.weight htshape (by simp) hfold) ?_
  intro weight s₁ hle₁ hweight
  rw [foldedShape_depthwise] at hweight
  have hb₁ := h.input.mono hle₁
  have hinit₁ := h.init.mono hle₁
  have hzeros₁ := h.zeroPoints.mono hle₁
  rw [← slide_eq_depthwiseSums hc hf h.framed.weight]
  have hroutes := h.framed.slides.depthwise_routes c.batch c.groups
  rw [← hbshape, ← hcshape] at hroutes
  split
  next hquantized =>
    split
    next => exact hfails _
    next =>
      have hindexing := indexing?_depthwise_last p.isQuantized h.framed.moves h.framed.dilation
      rw [← hrank] at hindexing hroutes
      refine (channelLast_meets hb₁ hweight hinit₁ hzeros₁ h.quantized
        (h.framed.rank_buffer h.shape) h.framed.rank_start h.framed.isValid_kernelsFirst hindexing
        hroutes.ranks (fun _ _ => trivial) (fun hne => absurd trivial hne) (fun _ => hroutes)
        fun _ _ => rfl).weaken fun v s' _ hv => hv.2.of_eq ?_
      rw [hrank]
      exact h.framed.slides.depthwise_sums hcshape
  next hplain =>
    split
    next => exact hfails _
    next =>
      rw [spec_eq h.quantized]
      exact (reduce_sums_meets (indexing?_depthwise h.framed.moves h.framed.dilation) rfl hb₁
        hweight hinit₁ hzeros₁ hroutes fun _ _ => rfl).weaken fun v s' _ hv =>
          hv.of_eq (h.framed.slides.depthwise_sums hcshape)

theorem grouped_meets (hl : ∀ value, l.considers value → value.Small) (hfails : ∀ e, l.fails e)
    (h : c.Loaded p s input weight init b t zs ch padded out acc bias) (hdvd : c.groups ∣ ch)
    (hwrong : ¬ c.Agrees ch padded out → ∀ e, l.stops e) :
    (p.grouped input weight init).Meets l s fun v s' => c.Agrees ch padded out ∧
      s'.HasTensor v (c.slide (p.geometry.moves.zip p.geometry.dilation) acc b t zs bias out) := by
  obtain ⟨m, rfl⟩ := hdvd
  have hpos := h.framed.groups_pos
  have hagreed : c.groups * m = c.groups * c.channels ↔ m = c.channels :=
    ⟨fun heq => Nat.eq_of_mul_eq_mul_left hpos heq, fun heq => heq ▸ rfl⟩
  have hslides := h.framed.slides
  unfold grouped
  split
  next => exact hfails _
  next =>
  rw [h.framed.groups]
  refine .bind (index_meets (.of_small hl _)) fun groups s₁ hle₁ hz => ?_
  have hz₁ := hz.1
  refine .bind (splitGroups_meets hl (A := [c.batch]) (C := padded) (h.input.mono hle₁) h.shape hz₁
    hpos h.bufferFits fun hlarge => hwrong fun hagrees => ?_) ?_
  · have hfit := hagrees.fits.input
    rw [← hagreed.1 hagrees.channels] at hfit
    exact hfit hlarge
  rintro ⟨input', fold⟩ s₂ hle₂ ⟨hinput, hinputFits, -⟩
  refine .bind (splitGroups_meets hl (A := [c.batch]) (C := out)
    ((h.init.mono hle₁).mono hle₂) rfl (hz₁.mono hle₂) hpos h.outputFits fun hlarge =>
      hwrong fun hagrees => hagrees.fits.output hlarge) ?_
  rintro ⟨init', fold⟩ s₃ hle₃ ⟨hinit', houtFits, rfl⟩
  have hwfit : ¬ TooLarge t.shape := h.framed.weight ▸ h.weightFits
  refine .bind (splitGroups_meets hl (A := []) (C := c.channels :: c.kernel)
    (((h.weight.mono hle₁).mono hle₂).mono hle₃) h.framed.weight ((hz₁.mono hle₂).mono hle₃) hpos
    hwfit fun hlarge => hwrong fun hagrees => hagrees.fits.weight hlarge) ?_
  rintro ⟨weight', fold⟩ s₄ hle₄ ⟨hweight, hweightFits, -⟩
  have hle : s ≤ s₄ := hle₁.trans (hle₂.trans (hle₃.trans hle₄))
  rw [spec_eq h.quantized]
  have hroutes : m = c.channels → Routes
      (groupedIndexing (p.geometry.moves.zip p.geometry.dilation) out.length)
      ((c.batch :: c.groups :: c.filters :: out) ++ c.channels :: c.kernel)
      (c.batch :: c.groups :: m :: padded) (c.groups :: c.filters :: c.channels :: c.kernel)
      (c.batch :: c.groups :: c.filters :: out)
      (windowAt [0, 1, 3 + out.length] (p.geometry.moves.zip p.geometry.dilation) 3 out.length 1)
      (select (1 :: 2 :: (3 + out.length) :: List.range' (4 + out.length) out.length))
      (List.take (c.batch :: c.groups :: c.filters :: out).length) := by
    rintro rfl
    exact hslides.grouped_routes c.batch c.groups c.filters c.channels
  have hranks : List.Forall₂ (fun shape m => shape.length = m.results.length)
      [c.batch :: c.groups :: m :: padded, c.groups :: c.filters :: c.channels :: c.kernel,
        c.batch :: c.groups :: c.filters :: out]
      (groupedIndexing (p.geometry.moves.zip p.geometry.dilation) out.length).maps := by
    obtain ⟨hlhs, hrest⟩ := List.forall₂_cons.1
      (hslides.grouped_routes c.batch c.groups c.filters c.channels).ranks
    exact .cons hlhs hrest
  refine .bind (reduce_agreeing_meets
    (indexing?_grouped h.framed.moves h.framed.dilation) rfl ((hinput.mono hle₃).mono hle₄) hweight
    (hinit'.mono hle₄) (h.zeroPoints.mono hle) hranks (fun bounds hbounds => grouped_agree hbounds)
    (fun hne => hwrong fun hagrees => hne (hagreed.1 hagrees.channels))
    hroutes fun _ _ => rfl) ?_
  rintro output s₅ - ⟨rfl, houtput⟩
  have hsums := houtput.of_eq (hslides.grouped_sums rfl)
  have hfit : ¬ TooLarge ([c.batch] ++ [volume [c.groups, c.filters]] ++ out) := by
    rw [volume_pair]
    exact h.outputFits
  refine (collapseShape_meets hsums rfl (by simp) hfit).weaken fun v s₆ _ hv =>
    ⟨⟨rfl, hinputFits, hweightFits, houtFits⟩, hv.of_eq ?_⟩
  rw [volume_pair]
  exact slide_eq_groupedSums hslides h.shape h.framed.weight

/-- The kernel that the plan chooses shows that the channels agree, and slides the weight over the
buffer. -/
theorem run_meets (hl : ∀ value, l.considers value → value.Small) (hfails : ∀ e, l.fails e)
    {z z' : ConvSizes} (h : c.Loaded p s input weight init b t zs ch padded out acc bias)
    (hsizes : c.groups ≠ 1 → s.IsSize l z.channels ch ∧
      s.IsSize l z'.outer (c.groups * c.filters : Nat) ∧ s.IsSize l z'.channels c.channels)
    (hdvd : c.groups ∣ ch) (hwrong : ¬ c.Agrees ch padded out → ∀ e, l.stops e) :
    (p.run (p.path config z z') input weight init).Meets l s fun v s' => c.Agrees ch padded out ∧
      s'.HasTensor v (c.slide (p.geometry.moves.zip p.geometry.dilation) acc b t zs bias out) := by
  have hgeo := h.framed.groups
  have hpos := h.framed.groups_pos
  unfold path
  dsimp only
  split
  next hone =>
    have hgroups : c.groups = 1 := by omega
    split
    next => exact quantizedChannelLast_meets h hgroups hwrong
    next => exact standard_meets h hgroups hwrong
  next hmany =>
    obtain ⟨hchannels, houter, hinner⟩ := hsizes (by omega)
    split
    next hdepth =>
      obtain ⟨hinput, hfilters, hunit, -⟩ := hdepth
      have hch := hchannels.known _ hinput
      have ho := houter.known _ hfilters
      have hi := hinner.known _ hunit
      have hc : c.channels = 1 := by omega
      have hf : c.filters = 1 := by
        have hmul : c.groups * c.filters = c.groups * 1 := by omega
        exact Nat.eq_of_mul_eq_mul_left hpos hmul
      have hch' : ch = c.groups := by omega
      refine (depthwise_meets h hfails hch' hc hf).weaken fun v s' _ hv => ⟨?_, hv⟩
      exact h.agrees (by rw [hch', hc, Nat.mul_one]) (.inr ⟨hc, hf⟩)
    next => exact grouped_meets hl hfails h hdvd hwrong

end ConvPlan

end TensorLowering
