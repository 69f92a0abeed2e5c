import TensorLowering.Proofs.Build.SignedStorage
import TensorLowering.Proofs.Convolution.ChannelLast
import TensorLowering.Proofs.Convolution.Sums

/-!
# Kernels of a convolution

Whichever kernel a convolution uses, it slides the weight over a buffer that holds the input, and
adds the products to the bias: the standard kernel where there is one group, the one with the
channels last where the operands are quantized, the depthwise one where every group has one channel
and one filter, and the grouped one after the channels of each operand are split into the groups.
-/
namespace TensorLowering

open Numeric NdArray Stage Build

variable {fails : LowerError → Prop} {s s' : Stage} {p : ConvPlan} {c : ConvolutionSizes}
  {geo : ConvGeometry} {b w t : Tensor} {padded out : List Nat} {bias : Option Tensor}
  {input weight init : ValueId} {acc : DType} {zs : Option (Binary64 × Binary64)}
  {config : LoweringConfig}

/-- By how much windows move along each axis. -/
def ConvGeometry.moves (geo : ConvGeometry) : List Int :=
  if geo.transposed then List.replicate geo.spatialRank 1 else geo.stride

namespace ConvolutionSizes

/-- The tensor to which products are added. -/
def start (c : ConvolutionSizes) (accumulator : DType) (bias : Option Tensor) (out : List Nat) :
    Tensor :=
  .ofEntries accumulator (c.outputShape out) fun ix => biasEntry bias (ix.getD 1 0)

theorem entry_start (acc : DType) (bias : Option Tensor) {ix : List Nat}
    (hix : InBounds (c.outputShape out) ix) :
    (c.start acc bias out).entry ix = acc.round (biasEntry bias (ix.getD 1 0)) :=
  Tensor.entry_ofEntries hix

/-- The product that a filter adds at a position of the output for a channel of its group and a
position of the kernel. -/
def slideTerm (c : ConvolutionSizes) (steps : List (Int × Int)) (b w : Tensor)
    (zs : Option (Binary64 × Binary64)) (ix k : List Nat) : Binary64 :=
  let filter := ix.getD 1 0
  let channel := filter / c.filters * c.channels + k.getD 0 0
  b.factor .signed (zs.map Prod.fst) (ix.getD 0 0 :: channel ::
      (meeting steps (ix.drop 2) (k.drop 1)).map Int.toNat) *
    w.factor .signed (zs.map Prod.snd) (filter :: k)

/-- The weight slides over a buffer, and its products with the windows are added to the bias. -/
def slide (c : ConvolutionSizes) (steps : List (Int × Int)) (accumulator : DType) (b w : Tensor)
    (zs : Option (Binary64 × Binary64)) (bias : Option Tensor) (out : List Nat) : Tensor :=
  .ofEntries accumulator (c.outputShape out) fun ix =>
    addTerms (c.slideTerm steps b w zs ix) (points (c.channels :: c.kernel))
      (accumulator.round (biasEntry bias (ix.getD 1 0)))

/-- A weight of the sizes of a convolution, with windows that lie within a buffer. -/
structure Framed (c : ConvolutionSizes) (geo : ConvGeometry) (w : Tensor) (padded out : List Nat) :
    Prop where
  slides : Slides (geo.moves.zip geo.dilation) out c.kernel padded
  moves : geo.moves.length = out.length
  dilation : geo.dilation.length = out.length
  spatialRank : geo.spatialRank = out.length
  groups : geo.groups = c.groups
  groups_pos : 1 ≤ c.groups
  weight : w.shape = c.weightShape

/-- The buffer has the sizes of the convolution, too. -/
structure Buffered (c : ConvolutionSizes) (geo : ConvGeometry) (b w : Tensor)
    (padded out : List Nat) : Prop extends c.Framed geo w padded out where
  buffer : b.shape = c.batch :: c.groups * c.channels :: padded

/-- The buffer, the weight and the output are not too large with their channels split into
groups. -/
structure BufferFits (c : ConvolutionSizes) (padded out : List Nat) : Prop where
  input : ¬ TooLarge (c.batch :: c.groups :: c.channels :: padded)
  weight : ¬ TooLarge (c.groups :: c.filters :: c.channels :: c.kernel)
  output : ¬ TooLarge (c.batch :: c.groups :: c.filters :: out)

/-- With one channel and one filter for each group, the outer axes of the weight fold into one. -/
theorem weightShape_depthwise (hc : c.channels = 1) (hf : c.filters = 1) :
    c.weightShape = [] ++ [c.groups, 1] ++ c.kernel := by
  rw [weightShape, hc, hf, Nat.mul_one]
  rfl

theorem shape_start_depthwise (hf : c.filters = 1) :
    (c.start acc bias out).shape = c.batch :: c.groups :: out := by
  change c.batch :: c.groups * c.filters :: out = _
  rw [hf, Nat.mul_one]

theorem foldedShape_depthwise (groups : Nat) (kernel : List Nat) :
    [] ++ [volume [groups, 1]] ++ kernel = groups :: kernel := by
  rw [volume_pair, Nat.mul_one]
  rfl

section Framed

variable (h : c.Framed p.geometry t padded out)
include h

theorem Framed.rank_eq : p.rank = out.length + 2 := congrArg (· + 2) h.spatialRank

theorem Framed.rank_weight : t.shape.length = p.rank := by
  rw [h.weight, h.rank_eq, ← h.slides.kernel_eq_out]
  rfl

theorem Framed.rank_buffer {channels : Nat} (hb : b.shape = c.batch :: channels :: padded) :
    b.shape.length = p.rank := by
  rw [hb, h.rank_eq, List.length_cons, List.length_cons, h.slides.length_padded,
    ← h.slides.length_out]

theorem Framed.rank_start : (c.start acc bias out).shape.length = p.rank := h.rank_eq.symm

theorem Framed.foldRange_depthwise (hc : c.channels = 1) (hf : c.filters = 1) :
    Reassociation.foldRange p.rank 0 2 = .middle [] [c.groups, 1] c.kernel := by
  rw [← h.rank_weight, h.weight, weightShape_depthwise hc hf]
  rfl

theorem Framed.isValid_kernelFirst :
    (Permutation.kernelFirst p.spatialRank).IsValid t.shape.length := by
  rw [h.rank_weight]
  exact Permutation.isValid_kernelFirst _

theorem Framed.isValid_kernelsFirst :
    (Permutation.kernelsFirst p.spatialRank).IsValid
      (t.reshaped (c.groups :: c.kernel)).shape.length := by
  rw [Tensor.shape_reshaped, List.length_cons, h.slides.kernel_eq_out, ← h.spatialRank]
  exact Permutation.isValid_kernelsFirst _

end Framed

/-- The sizes that tensors are made with, once there is a buffer, are read back from doubles. -/
structure BufferExact (c : ConvolutionSizes) (config : LoweringConfig) (padded out : List Nat) :
    Prop where
  output : ∀ n ∈ c.outputShape out, Binary64.IsExact n
  split : c.groups ≠ 1 → ¬ c.Depthwise config →
    ∀ n ∈ [c.groups, c.filters, c.channels, c.groups * c.channels] ++ padded ++ c.kernel,
      Binary64.IsExact n

theorem BufferFits.buffer (h : c.BufferFits padded out) :
    ¬ TooLarge (c.batch :: c.groups * c.channels :: padded) := by
  have hfold := not_tooLarge_fold (A := [c.batch]) (B := [c.groups, c.channels]) h.input
  rwa [volume_pair] at hfold

theorem BufferFits.weightShape (h : c.BufferFits padded out) : ¬ TooLarge c.weightShape := by
  have hfold := not_tooLarge_fold (A := []) (B := [c.groups, c.filters])
    (C := c.channels :: c.kernel) h.weight
  rwa [volume_pair] at hfold

theorem BufferFits.outputShape (h : c.BufferFits padded out) : ¬ TooLarge (c.outputShape out) := by
  have hfold := not_tooLarge_fold (A := [c.batch]) (B := [c.groups, c.filters]) h.output
  rwa [volume_pair] at hfold

/-- With one group, or one channel and one filter for each, splitting channels adds unit axes. -/
theorem BufferFits.of_unsplit (hbuffer : ¬ TooLarge (c.batch :: c.groups * c.channels :: padded))
    (hweight : ¬ TooLarge c.weightShape) (hout : ¬ TooLarge (c.outputShape out))
    (hone : c.groups = 1 ∨ c.channels = 1 ∧ c.filters = 1) : c.BufferFits padded out where
  input := not_tooLarge_split (A := [c.batch]) hbuffer (hone.imp_right And.left)
  weight := not_tooLarge_split (A := []) (C := c.channels :: c.kernel) hweight
    (hone.imp_right And.right)
  output := not_tooLarge_split (A := [c.batch]) hout (hone.imp_right And.right)

end ConvolutionSizes

open ConvolutionSizes

namespace ConvPlan

/-- The operands of a plan are ready to be read. -/
structure Ready (p : ConvPlan) (s : Stage) (x w : Tensor) (zs : Option (Binary64 × Binary64)) :
    Prop where
  input : s.HasOperand p.input x (zs.map Prod.fst)
  weight : s.HasOperand p.weight w (zs.map Prod.snd)

variable {x : Tensor}

theorem Ready.mono (h : p.Ready s x w zs) (hle : s ≤ s') : p.Ready s' x w zs :=
  ⟨h.input.mono hle, h.weight.mono hle⟩

theorem Ready.isQuantized (h : p.Ready s x w zs) : p.isQuantized = zs.isSome := by
  have hinput := h.input.isQuantized
  rwa [Option.isSome_map] at hinput

theorem Ready.hasZeroPoints (h : p.Ready s x w zs) : s.HasZeroPoints p.zeroPoints? zs :=
  h.input.zeroPoints h.weight

theorem spec_eq (h : p.isQuantized = zs.isSome) (variant : ConvVariant) :
    p.spec variant = .named (.conv ⟨variant, p.geometry.moves, p.geometry.dilation,
      zs.isSome⟩) := by
  rw [← h]
  rfl

/-- One group: the kernel reads the buffer as it is. -/
theorem slide_eq_standardSums {steps : List (Int × Int)} (hgroups : c.groups = 1) :
    standardSums steps c.channels c.kernel b w (c.start acc bias out) zs =
      c.slide steps acc b w zs bias out := by
  refine Tensor.ofEntries_congr fun ix hix => ?_
  have hix' : InBounds (c.outputShape out) ix := hix
  rw [c.entry_start acc bias hix']
  obtain ⟨i, rest, rfl, hi, hrest⟩ := inBounds_cons.1 hix'
  obtain ⟨f, o, rfl, hf, ho⟩ := inBounds_cons.1 hrest
  have hgroup : f / c.filters = 0 := Nat.div_eq_of_lt (by rwa [hgroups, Nat.one_mul] at hf)
  refine addTerms_congr fun k _ => ?_
  simp only [slideTerm, List.getD_cons_zero, List.getD_cons_succ, List.drop_succ_cons,
    List.drop_zero, hgroup, Nat.zero_mul, Nat.zero_add]

theorem standard_gives (hp : p.Ready s x w zs) (h : c.Buffered p.geometry b t padded out)
    (hgroups : c.groups = 1) (hb : s.Holds input b) (hw : s.Holds weight t)
    (hinit : s.Holds init (c.start acc bias out)) :
    (p.standard input weight init).Gives fails s fun v s' =>
      s'.Holds v (c.slide (p.geometry.moves.zip p.geometry.dilation) acc b t zs bias out) := by
  have hwshape : t.shape = c.groups * c.filters :: c.channels :: c.kernel := h.weight
  have hbshape := h.buffer
  rw [hgroups, Nat.one_mul] at hbshape
  rw [standard, spec_eq hp.isQuantized]
  refine (Build.standard_gives h.slides h.moves h.dilation hb hw hinit hp.hasZeroPoints hbshape
    hwshape rfl).weaken fun v s' _ hv => hv.of_eq (slide_eq_standardSums hgroups)

theorem quantizedChannelLast_gives (hp : p.Ready s x w zs)
    (h : c.Buffered p.geometry b t padded out) (hgroups : c.groups = 1) (hb : s.Holds input b)
    (hw : s.Holds weight t) (hinit : s.Holds init (c.start acc bias out)) :
    (p.quantizedChannelLast input weight init).Gives fails s fun v s' =>
      s'.Holds v (c.slide (p.geometry.moves.zip p.geometry.dilation) acc b t zs bias out) := by
  have hbshape := h.buffer
  rw [hgroups, Nat.one_mul] at hbshape
  have hwshape : t.shape = c.groups * c.filters :: c.channels :: c.kernel := h.weight
  have hrank : p.spatialRank = out.length := h.spatialRank
  have hroutes := h.slides.standard_routes c.batch (c.groups * c.filters) c.channels
  rw [← hbshape, ← hwshape] at hroutes
  have hindexing := indexing?_standard_last p.isQuantized h.moves h.dilation
  rw [← hrank] at hindexing
  rw [← hrank] at hroutes
  refine (channelLast_gives hb hw hinit hp.hasZeroPoints hp.isQuantized (h.rank_buffer h.buffer)
    h.rank_start h.isValid_kernelFirst hindexing hroutes fun _ _ => rfl).weaken
    fun v s' _ hv => hv.of_eq ?_
  rw [← slide_eq_standardSums hgroups, hrank]
  exact h.slides.standard_sums rfl

/-- One channel and one filter for each group: the weight without its channels is read by the
kernel for that. -/
theorem slide_eq_depthwiseSums {steps : List (Int × Int)} (hc : c.channels = 1) (hf : c.filters = 1)
    (hw : w.shape = c.weightShape) :
    depthwiseSums steps c.kernel b (w.reshaped (c.groups :: c.kernel)) (c.start acc bias out) zs =
      c.slide steps acc b w zs bias out := by
  have hwshape : w.shape = [] ++ [c.groups, 1] ++ c.kernel :=
    hw.trans (weightShape_depthwise hc hf)
  refine Tensor.ofEntries_congr fun ix hix => ?_
  have hix' : InBounds (c.outputShape out) ix := hix
  rw [c.entry_start acc bias hix', hc, points_one, addTerms_map]
  obtain ⟨i, rest, rfl, -, hrest⟩ := inBounds_cons.1 hix'
  obtain ⟨f, o, rfl, hfilter, -⟩ := inBounds_cons.1 hrest
  rw [hf, Nat.mul_one] at hfilter
  refine addTerms_congr fun k hk => ?_
  have hentry := Tensor.entry_reshaped_fold (x := []) hwshape trivial
    (y := [f, 0]) ⟨hfilter, Nat.one_pos, trivial⟩ (mem_points.1 hk)
  rw [volume_pair, ravel_pair, Nat.mul_one, Nat.mul_one, Nat.add_zero] at hentry
  have hfactor : (w.reshaped (c.groups :: c.kernel)).factor .signed (zs.map Prod.snd) (f :: k) =
      w.factor .signed (zs.map Prod.snd) (f :: 0 :: k) := Tensor.factor_congr rfl hentry
  simp only [slideTerm, List.getD_cons_zero, List.getD_cons_succ, List.drop_succ_cons,
    List.drop_zero, hc, hf, Nat.div_one, Nat.mul_one, Nat.add_zero]
  exact congrArg (_ * ·) hfactor

theorem depthwise_gives (hp : p.Ready s x w zs) (h : c.Buffered p.geometry b t padded out)
    (hc : c.channels = 1) (hf : c.filters = 1) (hb : s.Holds input b) (hw : s.Holds weight t)
    (hinit : s.Holds init (c.start acc bias out)) (hfit : ¬ TooLarge c.weightShape) :
    (p.depthwise input weight init).Gives (fun _ => True) s fun v s' =>
      s'.Holds v (c.slide (p.geometry.moves.zip p.geometry.dilation) acc b t zs bias out) := by
  have hrank : p.spatialRank = out.length := h.spatialRank
  have htshape := h.weight.trans (weightShape_depthwise hc hf)
  have hbshape : b.shape = c.batch :: c.groups :: padded := by
    rw [h.buffer, hc, Nat.mul_one]
  have hcshape : (c.start acc bias out).shape = c.batch :: c.groups :: out :=
    shape_start_depthwise hf
  have hfold := not_tooLarge_fold (weightShape_depthwise hc hf ▸ hfit)
  unfold depthwise
  rw [h.foldRange_depthwise hc hf]
  refine Gives.bind (collapseShape_gives hw htshape (by simp) hfold)
    fun weight s₁ hle₁ hweight => ?_
  rw [foldedShape_depthwise] at hweight
  have hb₁ := hb.mono hle₁
  have hinit₁ := hinit.mono hle₁
  have hp₁ := hp.mono hle₁
  rw [← slide_eq_depthwiseSums hc hf h.weight]
  split
  next hquantized =>
    split
    next => exact trivial
    next =>
      have hroutes := h.slides.depthwise_routes c.batch c.groups
      have hindexing := indexing?_depthwise_last p.isQuantized h.moves h.dilation
      rw [← hbshape, ← hcshape, ← hrank] at hroutes
      rw [← hrank] at hindexing
      refine (channelLast_gives hb₁ hweight hinit₁ hp₁.hasZeroPoints hp₁.isQuantized
        (h.rank_buffer h.buffer) h.rank_start h.isValid_kernelsFirst hindexing hroutes
        fun _ _ => rfl).weaken fun v s' _ hv => hv.of_eq ?_
      rw [hrank]
      exact h.slides.depthwise_sums hcshape
  next hplain =>
    split
    next => exact trivial
    next =>
      rw [spec_eq hp.isQuantized]
      exact Build.depthwise_gives h.slides h.moves h.dilation hb₁ hweight hinit₁ hp₁.hasZeroPoints
        hbshape rfl hcshape

/-- Several groups: the operands are read with their channels split, and the filters of the output
are put together again. -/
theorem slide_eq_groupedSums {steps : List (Int × Int)} (h : Slides steps out c.kernel padded)
    (hb : b.shape = c.batch :: c.groups * c.channels :: padded) (hw : w.shape = c.weightShape) :
    (groupedSums steps c.channels c.kernel
        (b.reshaped ([c.batch] ++ [c.groups, c.channels] ++ padded))
        (w.reshaped ([] ++ [c.groups, c.filters] ++ c.channels :: c.kernel))
        ((c.start acc bias out).reshaped ([c.batch] ++ [c.groups, c.filters] ++ out)) zs).reshaped
          ([c.batch] ++ [c.groups * c.filters] ++ out) =
      c.slide steps acc b w zs bias out := by
  have hbshape : b.shape = [c.batch] ++ [c.groups * c.channels] ++ padded := hb
  have hwshape : w.shape = [] ++ [c.groups * c.filters] ++ c.channels :: c.kernel := hw
  have hcshape : (c.start acc bias out).shape = [c.batch] ++ [c.groups * c.filters] ++ out := rfl
  refine Tensor.ext_entry rfl rfl fun ix hix => ?_
  have hix' : InBounds (c.outputShape out) ix := hix
  obtain ⟨i, rest, rfl, hi, hrest⟩ := inBounds_cons.1 hix'
  obtain ⟨f, o, rfl, hf, ho⟩ := inBounds_cons.1 hrest
  have hpos : 0 < c.filters := Nat.pos_of_lt_mul_left hf
  have hgroup : f / c.filters < c.groups := Nat.div_lt_of_lt_mul (by rwa [Nat.mul_comm] at hf)
  have hrem : f % c.filters < c.filters := Nat.mod_lt _ hpos
  have hsplit : InBounds ([c.batch] ++ [c.groups, c.filters] ++ out)
      ([i] ++ [f / c.filters, f % c.filters] ++ o) := ⟨hi, hgroup, hrem, ho⟩
  have hbatch : InBounds [c.batch] [i] := ⟨hi, trivial⟩
  have hstart := Tensor.entry_split hcshape hbatch hgroup hrem ho
  rw [Nat.div_add_mod'] at hstart
  have hfirst := hstart.trans (c.entry_start acc bias hix')
  refine (Tensor.entry_folded rfl hbatch hf ho).trans ?_
  refine (Tensor.entry_ofEntries hsplit).trans ?_
  rw [hfirst, slide, Tensor.entry_ofEntries hix']
  refine congrArg acc.round (addTerms_congr fun k hk => ?_)
  obtain ⟨q, k, rfl, hq, hk⟩ := inBounds_cons.1 (mem_points.1 hk)
  have hx := Tensor.entry_split hbshape hbatch hgroup hq (h.inBounds ho hk)
  have hk' : InBounds (c.channels :: c.kernel) (q :: k) := ⟨hq, hk⟩
  have hy := Tensor.entry_split hwshape (x := []) trivial hgroup hrem hk'
  rw [Nat.div_add_mod'] at hy
  exact congrArg₂ (· * ·) (Tensor.factor_congr rfl hx) (Tensor.factor_congr rfl hy)

theorem grouped_gives (hp : p.Ready s x w zs) (h : c.Buffered p.geometry b t padded out)
    (hb : s.Holds input b) (hw : s.Holds weight t) (hinit : s.Holds init (c.start acc bias out))
    (hfits : c.BufferFits padded out) (hout : ∀ n ∈ c.outputShape out, Binary64.IsExact n)
    (hexact : ∀ n ∈ [c.groups, c.filters, c.channels, c.groups * c.channels] ++ padded ++ c.kernel,
      Binary64.IsExact n) :
    (p.grouped input weight init).Gives (fun _ => True) s fun v s' =>
      s'.Holds v (c.slide (p.geometry.moves.zip p.geometry.dilation) acc b t zs bias out) := by
  have hgroups : Binary64.IsExact c.groups := hexact _ (by simp)
  have hfilters : Binary64.IsExact c.filters := hexact _ (by simp)
  have hchannels : Binary64.IsExact c.channels := hexact _ (by simp)
  have hbexact : ∀ n ∈ b.shape, Binary64.IsExact n := by
    rw [h.buffer, List.forall_mem_cons, List.forall_mem_cons]
    exact ⟨hout _ (by simp [outputShape]), hexact _ (by simp), fun n hn => hexact n (by simp [hn])⟩
  have htexact : ∀ n ∈ t.shape, Binary64.IsExact n := by
    rw [h.weight, weightShape, List.forall_mem_cons, List.forall_mem_cons]
    exact ⟨hout _ (by simp [outputShape]), hchannels, fun n hn => hexact n (by simp [hn])⟩
  unfold grouped
  split
  next => exact trivial
  next =>
    rw [h.groups]
    refine Gives.bind (index_gives hgroups) fun groups s₁ hle₁ hz₁ => ?_
    refine Gives.bind (splitGroups_gives (A := [c.batch]) (C := padded) (hb.mono hle₁) h.buffer hz₁
      h.groups_pos hbexact hchannels hfits.input) ?_
    rintro ⟨input', fold⟩ s₂ hle₂ ⟨hinput, -⟩
    refine Gives.bind (splitGroups_gives (A := [c.batch]) (C := out)
      ((hinit.mono hle₁).mono hle₂) rfl (hz₁.mono hle₂) h.groups_pos hout hfilters hfits.output) ?_
    rintro ⟨init', fold⟩ s₃ hle₃ ⟨hinit', rfl⟩
    refine Gives.bind (splitGroups_gives (A := []) (C := c.channels :: c.kernel)
      (((hw.mono hle₁).mono hle₂).mono hle₃) h.weight ((hz₁.mono hle₂).mono hle₃) h.groups_pos
      htexact hfilters hfits.weight) ?_
    rintro ⟨weight', fold⟩ s₄ hle₄ ⟨hweight, -⟩
    have hle : s ≤ s₄ := hle₁.trans (hle₂.trans (hle₃.trans hle₄))
    rw [spec_eq hp.isQuantized]
    refine Gives.bind (Build.grouped_gives h.slides h.moves h.dilation
      ((hinput.mono hle₃).mono hle₄) hweight (hinit'.mono hle₄) (hp.mono hle).hasZeroPoints rfl rfl
      rfl) fun output s₅ hle₅ houtput => ?_
    have hfit : ¬ TooLarge ([c.batch] ++ [volume [c.groups, c.filters]] ++ out) := by
      rw [volume_pair]
      exact hfits.outputShape
    refine (collapseShape_gives houtput rfl (by simp) hfit).weaken fun v s₆ _ hv => hv.of_eq ?_
    rw [volume_pair]
    exact slide_eq_groupedSums h.slides h.buffer h.weight

/-- The kernel that the plan chooses slides the weight over the buffer. With several groups it is
chosen by sizes that are known. -/
theorem run_gives {z z' : ConvSizes} (hp : p.Ready s x w zs)
    (h : c.Buffered p.geometry b t padded out)
    (hknown : c.groups ≠ 1 → z.channels.known = some ((c.groups * c.channels : Nat) : Int) ∧
      z'.outer.known = some ((c.groups * c.filters : Nat) : Int) ∧
      z'.channels.known = some (c.channels : Int))
    (hb : s.Holds input b) (hw : s.Holds weight t) (hinit : s.Holds init (c.start acc bias out))
    (hfits : c.BufferFits padded out) (hexact : c.BufferExact config padded out) :
    (p.run (p.path config z z') input weight init).Gives (fun _ => True) s fun v s' =>
      s'.Holds v (c.slide (p.geometry.moves.zip p.geometry.dilation) acc b t zs bias out) := by
  have hgeo := h.groups
  unfold path
  dsimp only
  split
  next hone =>
    have hgroups : c.groups = 1 := by omega
    split
    next => exact quantizedChannelLast_gives hp h hgroups hb hw hinit
    next => exact standard_gives hp h hgroups hb hw hinit
  next hmany =>
    have hgroups : c.groups ≠ 1 := by omega
    obtain ⟨hchannels, houter, hinner⟩ := hknown hgroups
    split
    next hdepth =>
      obtain ⟨-, hfilters, hone, -⟩ := hdepth
      have hpos := h.groups_pos
      rw [houter, hgeo, Option.some.injEq] at hfilters
      rw [hinner, Option.some.injEq] at hone
      have hc : c.channels = 1 := by omega
      have hf : c.filters = 1 := by
        have hmul : c.groups * c.filters = c.groups * 1 := by omega
        exact Nat.eq_of_mul_eq_mul_left hpos hmul
      exact depthwise_gives hp h hc hf hb hw hinit hfits.weightShape
    next hdepth =>
      refine grouped_gives hp h hb hw hinit hfits hexact.output (hexact.split hgroups ?_)
      rintro ⟨hc, hf, hprefer⟩
      refine hdepth ⟨?_, ?_, ?_, hprefer⟩
      · rw [hchannels, hc, Nat.mul_one, hgeo]
      · rw [houter, hf, Nat.mul_one, hgeo]
      · rw [hinner, hc]
        rfl

end ConvPlan

end TensorLowering
