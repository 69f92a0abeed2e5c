import TensorLowering.Proofs.Build.Commits
import TensorLowering.Proofs.Build.Inputs
import TensorLowering.Proofs.Convolution.Plans

/-!
# Lowered convolutions

A lowered standard convolution pads its input, runs a kernel on top of the bias and gives the result
its declared type. Main statement: when the rule succeeds, the lowered program computes the
convolution.
-/
namespace TensorLowering

open Numeric NdArray Stage Build

variable {g : Graph} {supply : Supply} {env : Env} {s : Stage} {p : ConvPlan}
  {c : ConvolutionSizes} {geo : ConvGeometry} {x w : Tensor} {bias : Option Tensor}
  {op : Convolution} {result : TensorType} {config : LoweringConfig}

/-- The sizes before padding are no larger than those after it. -/
theorem lt_of_paddedSizes {shape : List Nat} {edges : List Int} {b : Nat}
    (h : ∀ n ∈ paddedSizes shape edges, n < b) (hlen : edges.length = shape.length) :
    ∀ n ∈ shape, n < b := by
  induction shape generalizing edges with
  | nil => simp
  | cons n shape ih =>
      cases edges with
      | nil => simp at hlen
      | cons edge edges =>
          simp only [paddedSizes, List.zipWith_cons_cons, List.forall_mem_cons] at h ⊢
          exact ⟨by omega, ih h.2 (by simpa using hlen)⟩

namespace ConvolutionSizes

theorem Fits.padded (h : c.Fits geo) :
    ¬ TooLarge (c.batch :: c.groups * c.channels :: paddedSizes c.input geo.padding) := by
  have hfold := not_tooLarge_fold (A := [c.batch]) (B := [c.groups, c.channels]) h.input
  rwa [volume_pair] at hfold

theorem Fits.weightShape (h : c.Fits geo) : ¬ TooLarge c.weightShape := by
  have hfold := not_tooLarge_fold (A := []) (B := [c.groups, c.filters])
    (C := c.channels :: c.kernel) h.weight
  rwa [volume_pair] at hfold

end ConvolutionSizes

/-- The padded input, and the sizes of the output. -/
theorem ConvPlan.padInput_gives {z z' : ConvSizes} {value : ValueId} {v : Binary64}
    {n m n' m' : Nat} {input kernel : List Nat} {zx : Option Binary64}
    (hp : s.HasOperand p.input x zx) (hvalid : p.geometry.Valid input.length)
    (hx : x.shape = n :: m :: input) (hz : ConvSizes.Reads s z n m input)
    (hz' : ConvSizes.Reads s z' n' m' kernel) (hvalue : s.HasScalar value v)
    (hround : x.dtype.round v = v)
    (hfit : ¬ TooLarge (n :: m :: paddedSizes input p.geometry.padding)) :
    (p.padInput z z' value).Gives (fun _ => True) s fun r s' =>
      s'.Holds r.1 (x.padded p.geometry.edges v) ∧
        ∃ out, p.geometry.outputs? input kernel = some out ∧ s'.KnowsSizes r.2 out := by
  have hlen : p.geometry.edges.length = x.shape.length := by
    rw [hx, ConvGeometry.edges, List.length_append, hvalid.padding]
    exact Nat.add_comm 2 input.length
  have hedges : ∀ e ∈ p.geometry.edges, 0 ≤ e := by
    intro e he
    rcases List.mem_append.1 he with he | he
    · simp at he
      omega
    · exact hvalid.padding_nonneg e he
  have hfit' : ¬ TooLarge (paddedSizes x.shape p.geometry.edges) := by
    rwa [hx, paddedSizes_edges]
  unfold padInput
  refine Gives.bind (pad_gives hp.storage hvalue hround hlen hedges hfit') ?_
  intro padded s₁ hle₁ hpadded
  refine Gives.bind (mapM_axes_gives (s := s₁)
    (r := fun g n k y s => ∃ size : Nat,
      (g.outputSize? n k).map Int.toNat = some size ∧ s.Knows y size) ?_ ?_
    (hz.spatial.mono hle₁) (hz'.spatial.mono hle₁)) ?_
  · rintro g n k y s₁ s₂ hle ⟨size, hsize, hy⟩
    exact ⟨size, hsize, hy.mono hle⟩
  · intro g _ axis z z' n k s₁ hn hk
    exact AxisGeometry.output_gives hn.known hk.known
  · intro sizes s₂ hle₂ hsizes
    obtain ⟨out, hout, hknown⟩ := exists_between hsizes
    exact .pure ⟨hpadded.mono hle₂, out, mapM_eq_some.2 hout, hknown⟩

/-! ## The rule -/

/-- The sizes of a standard convolution of two tensors. -/
structure ConvolutionSizes.Describes (c : ConvolutionSizes) (geo : ConvGeometry) (x w : Tensor) :
    Prop where
  standard : geo.transposed = false
  groups : geo.groups = c.groups
  kernel : c.kernel.length = c.input.length
  inputShape : x.shape = c.inputShape
  weightShape : w.shape = c.weightShape

/-- Windows over the padded input. -/
theorem ConvolutionSizes.framed_padded {out : List Nat} (hgroups : geo.groups = c.groups)
    (hstandard : geo.transposed = false) (hkernel : c.kernel.length = c.input.length)
    (hw : w.shape = c.weightShape) (hvalid : geo.Valid c.input.length)
    (hout : geo.outputs? c.input c.kernel = some out)
    (hfits : ∀ n ∈ paddedSizes c.input geo.padding, n < 0x8000000000000000) :
    c.Framed geo w (paddedSizes c.input geo.padding) out := by
  have hlen : out.length = c.input.length := geo.length_outputs hvalid rfl hkernel hout
  have hmoves : geo.moves = geo.stride := by
    rw [ConvGeometry.moves, hstandard, if_neg Bool.false_ne_true]
  have hsteps : geo.moves.zip geo.dilation = geo.steps := by rw [hmoves, ConvGeometry.steps]
  have hrank : geo.steps.length = c.input.length := by
    rw [ConvGeometry.steps, List.length_zip, hvalid.stride, hvalid.dilation, Nat.min_self]
  refine ⟨?_, ?_, ?_, ?_, hgroups, ?_, hw⟩
  · rw [hsteps]
    refine ⟨hlen.trans hrank.symm, hkernel.trans hrank.symm, ?_, hfits, fun step hstep => ?_, ?_⟩
    · rw [paddedSizes, List.length_zipWith, hvalid.padding, Nat.min_self, hrank]
    · obtain ⟨hstride, hdilation⟩ := List.of_mem_zip hstep
      have hs := hvalid.stride_pos _ hstride
      have hd := hvalid.dilation_pos _ hdilation
      exact ⟨by omega, by omega⟩
    · exact fun o k ho hk => geo.windows_inBounds hvalid hstandard rfl hkernel hout ho hk
  · rw [hmoves, hvalid.stride, hlen]
  · rw [hvalid.dilation, hlen]
  · rw [ConvGeometry.spatialRank_of_valid hvalid, hlen]
  · have hpos := hvalid.groups_pos
    omega

/-- The padded input as the buffer. -/
theorem ConvolutionSizes.Describes.buffered (hc : c.Describes geo x w) (v : Binary64)
    {out : List Nat} (hvalid : geo.Valid c.input.length)
    (hout : geo.outputs? c.input c.kernel = some out)
    (hfits : ∀ n ∈ paddedSizes c.input geo.padding, n < 0x8000000000000000) :
    c.Buffered geo (x.padded geo.edges v) w (paddedSizes c.input geo.padding) out := by
  refine ⟨framed_padded hc.groups hc.standard hc.kernel hc.weightShape hvalid hout hfits, ?_⟩
  rw [Tensor.shape_padded, hc.inputShape, ConvolutionSizes.inputShape, paddedSizes_edges]

/-- The weight slides over the padded input. -/
theorem paddedWindows_gives {dtype : DType} {zs : Option (Binary64 × Binary64)} {z z' : ConvSizes}
    {padding : ValueId} {v : Binary64} (hp : p.Planned s geo dtype x w zs)
    (hbias : ConvPlan.HasBias s op.bias (c.groups * c.filters) bias)
    (hz : ConvSizes.Reads s z c.batch (c.groups * c.channels) c.input)
    (hz' : ConvSizes.Reads s z' (c.groups * c.filters) c.channels c.kernel)
    (hpadding : s.HasScalar padding v) (hround : x.dtype.round v = v)
    (hvalid : geo.Valid c.input.length) (hc : c.Describes geo x w) (hfits : c.Fits geo)
    (hexact : c.Exact geo config) :
    (p.paddedWindows config op.bias result z z' padding).Gives (fun _ => True) s fun v' s' =>
      ∃ acc out, dtype.accumulator? = some acc ∧ geo.outputs? c.input c.kernel = some out ∧
        s'.env.get? v' = some (.tensor ((c.slide geo.steps acc
          (x.padded geo.edges v) w zs bias out).converted result.dtype)) ∧
        result.shape.Admits (c.outputShape out) := by
  obtain rfl := hp.geometry
  have hsteps : p.geometry.moves.zip p.geometry.dilation = p.geometry.steps := by
    rw [ConvGeometry.moves, hc.standard, if_neg Bool.false_ne_true, ConvGeometry.steps]
  refine Gives.bind (ConvPlan.padInput_gives hp.ready.input hvalid hc.inputShape hz hz' hpadding
    hround hfits.padded) ?_
  rintro ⟨buffer, sizes⟩ s₂ hle₂ ⟨hbuffer, out, hout, hsizes⟩
  have hall : s₂.HasSizes (z.outer :: z'.outer :: sizes)
      (c.batch :: c.groups * c.filters :: out) := by
    have hknown : s₂.KnowsSizes (z.outer :: z'.outer :: sizes) (c.outputShape out) :=
      .cons (hz.outer.mono hle₂) (.cons (hz'.outer.mono hle₂) hsizes)
    exact hknown.hasSizes (hexact.output out hout)
  have hsmall : ∀ n ∈ paddedSizes c.input p.geometry.padding, n < 0x8000000000000000 :=
    spatial_lt_of_not_tooLarge hfits.padded
  refine (slideOver_gives (hp.mono hle₂) (hc.buffered _ hvalid hout hsmall)
    (fun _ => ⟨hz.channels.known, hz'.outer.known, hz'.channels.known⟩) hbuffer
    (hp.ready.weight.storage.mono hle₂) (hbias.mono hle₂) hall
    ⟨hfits.input, hfits.weight, hfits.output out hout⟩
    ⟨hexact.output out hout, hexact.split⟩).weaken ?_
  rintro v' s₃ - ⟨acc, hacc, hget, hadmits⟩
  rw [hsteps] at hget
  exact ⟨acc, out, hacc, hout, hget, hadmits⟩

theorem ConvolutionSizes.Fits.sizes_lt (hfits : c.Fits geo) (hvalid : geo.Valid c.input.length) :
    (∀ n ∈ c.inputShape, n < 0x8000000000000000) ∧
      ∀ n ∈ c.weightShape, n < 0x8000000000000000 := by
  refine ⟨?_, fun n hn => lt_of_mem_of_not_tooLarge hfits.weightShape hn⟩
  have hpadded : ∀ n ∈ paddedSizes c.inputShape geo.edges, n < 0x8000000000000000 := by
    rw [ConvolutionSizes.inputShape, paddedSizes_edges]
    exact fun n hn => lt_of_mem_of_not_tooLarge hfits.padded hn
  refine lt_of_paddedSizes hpadded ?_
  rw [ConvGeometry.edges, List.length_append, hvalid.padding]
  exact Nat.add_comm 2 c.input.length

/-- Whichever operands it has, the weight slides over the padded input. -/
theorem lowerConvolution_pads {dtype : DType} {zs : Option (Binary64 × Binary64)}
    (h : op.Operands s geo dtype x w zs (c.groups * c.filters) bias)
    (hround : x.dtype.round (ConvPlan.padValue zs) = ConvPlan.padValue zs)
    (hc : c.Describes geo x w) (hfits : c.Fits geo) (hexact : c.Exact geo config) :
    (Rule.lowerConvolution config op result).Gives (fun _ => True) s fun v s' =>
      ∃ acc out, dtype.accumulator? = some acc ∧ geo.outputs? c.input c.kernel = some out ∧
        s'.env.get? v = some (.tensor ((c.slide geo.steps acc
          (x.padded geo.edges (ConvPlan.padValue zs)) w zs bias out).converted result.dtype)) ∧
        result.shape.Admits (c.outputShape out) := by
  have hrank : x.shape.length - 2 = c.input.length := by
    rw [hc.inputShape]
    rfl
  have hvalid : geo.Valid c.input.length :=
    hrank ▸ ConvGeometry.valid_of_ofConvolution h.geometry
  obtain ⟨hxlt, hwlt⟩ := hfits.sizes_lt hvalid
  rw [← hc.inputShape] at hxlt
  rw [← hc.weightShape] at hwlt
  refine lowerConvolution_gives h hc.inputShape hc.weightShape hc.kernel hxlt hwlt ?_
  intro p s₁ z z' padding hp hbias hz hz' hpadding
  rw [hround] at hpadding
  rw [ConvPlan.windows, hp.geometry, hc.standard, if_neg Bool.false_ne_true]
  exact paddedWindows_gives hp hbias hz hz' hpadding hround hvalid hc hfits hexact

/-- Without zero-points, the products are those of the convolution. -/
theorem slide_padded {acc : DType} {out : List Nat} (hc : c.Describes geo x w)
    (hvalid : geo.Valid c.input.length) (hout : geo.outputs? c.input c.kernel = some out) :
    c.slide geo.steps acc (x.padded geo.edges 0) w none bias out =
      c.convolution geo acc x w bias out := by
  refine Tensor.ofEntries_congr fun ix hix => addTerms_congr fun k hk => ?_
  obtain ⟨i, rest, rfl, hi, hrest⟩ := inBounds_cons.1 hix
  obtain ⟨f, o, rfl, hf, ho⟩ := inBounds_cons.1 hrest
  obtain ⟨q, k, rfl, hq, hk⟩ := inBounds_cons.1 (mem_points.1 hk)
  obtain ⟨window, hwindow, hin⟩ :=
    geo.windows_inBounds hvalid hc.standard rfl hc.kernel hout ho hk
  have hgroup : f / c.filters < c.groups := Nat.div_lt_of_lt_mul (by rwa [Nat.mul_comm] at hf)
  have hread := Tensor.entry_padded_window x.dtype.round_zero hc.inputShape hi (group_lt hgroup hq)
    hwindow hin
  rw [Tensor.readOr_zero] at hread
  exact congrArg (· * _) (congrArg (CastKind.signed.extend x.dtype) hread)

/-- Whenever the rule succeeds, the program with the created nodes computes the convolution. -/
theorem convolution_computes (config : LoweringConfig) (h : g.evaluate supply = .ok env)
    (hop : g.HasConvolution env op geo x w (c.groups * c.filters) bias) (hc : c.Describes geo x w)
    (hfits : c.Fits geo) (hexact : c.Exact geo config) {v : ValueId} {d : Draft}
    (hrun : (Rule.convolution.apply config (.convolution op) result).run (.ofGraph g) =
      (.ok v, d)) :
    ∃ acc out, x.dtype.accumulator? = some acc ∧ geo.outputs? c.input c.kernel = some out ∧
      result.shape.Admits (c.outputShape out) ∧ (d.commit.withOutputs [v]).run supply =
        .ok [.tensor ((c.convolution geo acc x w bias out).converted result.dtype)] := by
  obtain ⟨s, ⟨acc, out, hacc, hout, hget, hadmits⟩, heval⟩ :=
    Gives.of_run h (lowerConvolution_pads (hop.operands h) x.dtype.round_zero hc hfits hexact) hrun
  have hrank : x.shape.length - 2 = c.input.length := by
    rw [hc.inputShape]
    rfl
  have hvalid : geo.Valid c.input.length :=
    hrank ▸ ConvGeometry.valid_of_ofConvolution hop.geometry
  have hvalue : s.env.get? v = some (.tensor ((c.convolution geo acc x w bias out).converted
      result.dtype)) := by
    rw [← slide_padded hc hvalid hout]
    exact hget
  exact ⟨acc, out, hacc, hout, hadmits, run_withOutputs heval hvalue⟩

section Depthwise

/-- Two channels, each with a filter of its own. -/
def pairedChannels : ConvolutionSizes := ⟨1, 2, 1, 1, [3], [2]⟩

def pairedGeometry : ConvGeometry := ⟨[1], [2], [1], [0], 2, false⟩

def pairedInput : Tensor :=
  .ofEntries .float32 [1, 2, 3] fun ix => .ofInt (1 + 3 * ix.getD 1 0 + ix.getD 2 0)

def pairedWeight : Tensor :=
  .ofEntries .float32 [2, 1, 2] fun ix => .ofInt (1 + ix.getD 0 0 * ix.getD 2 0)

def pairedBias : Tensor := .ofEntries .float32 [2] fun ix => .ofInt (10 + 10 * ix.getD 0 0)

def pairedConvolution : Convolution :=
  ⟨⟨0⟩, ⟨1⟩, some ⟨2⟩, .const [2], .const [1], .const [1], .const [0], .const false, .const 2⟩

/-- What the windows of each channel add up to, with its bias. -/
def pairedOutput : Tensor :=
  .ofEntries .float32 [1, 2, 2] fun ix =>
    .ofInt (([[11, 15], [28, 37]].getD (ix.getD 1 0) []).getD (ix.getD 2 0) 0)

theorem convolution_paired :
    (pairedChannels.convolution pairedGeometry .float32 pairedInput pairedWeight (some pairedBias)
      [2]).converted .float32 = pairedOutput := by
  decide +kernel

theorem convolution_computes_paired : ∃ v d,
    (Rule.convolution.apply .standard (.convolution pairedConvolution)
        ⟨.float32, .ofSizes [1, 2, 2]⟩).run
      (.ofGraph (.takingIn [pairedInput, pairedWeight, pairedBias])) = (.ok v, d) ∧
    (d.commit.withOutputs [v]).run (.takingIn [pairedInput, pairedWeight, pairedBias]) =
      .ok [.tensor pairedOutput] := by
  obtain ⟨env, h, hplain⟩ := Graph.evaluate_takingIn [pairedInput, pairedWeight, pairedBias]
  have hbias := hplain 2 pairedBias rfl
  have hop : Graph.HasConvolution (.takingIn [pairedInput, pairedWeight, pairedBias]) env
      pairedConvolution pairedGeometry pairedInput pairedWeight 2 (some pairedBias) :=
    ⟨hplain 0 _ rfl, hplain 1 _ rfl, .some ⟨rfl, hbias.get, rfl⟩, rfl⟩
  have hc : pairedChannels.Describes pairedGeometry pairedInput pairedWeight :=
    ⟨rfl, rfl, rfl, rfl, rfl⟩
  have hout : pairedGeometry.outputs? pairedChannels.input pairedChannels.kernel = some [2] := by
    decide
  have hfits : pairedChannels.Fits pairedGeometry := by
    refine ⟨by decide, by decide, fun out h => ?_⟩
    cases hout.symm.trans h
    decide
  have hexact : pairedChannels.Exact pairedGeometry .standard := by
    refine ⟨fun out h => ?_, fun _ hdepth => absurd ⟨rfl, rfl, rfl⟩ hdepth⟩
    cases hout.symm.trans h
    decide +kernel
  obtain ⟨v, d, hrun⟩ : ∃ v d, (Rule.convolution.apply .standard (.convolution pairedConvolution)
      ⟨.float32, .ofSizes [1, 2, 2]⟩).run
        (.ofGraph (.takingIn [pairedInput, pairedWeight, pairedBias])) = (.ok v, d) := ⟨_, _, rfl⟩
  obtain ⟨acc, out, hacc, hsizes, -, hvalue⟩ :=
    convolution_computes .standard h hop hc hfits hexact hrun
  refine ⟨v, d, hrun, ?_⟩
  cases hout.symm.trans hsizes
  cases hacc
  rw [hvalue]
  exact congrArg (fun t => Except.ok [Value.tensor t]) convolution_paired

end Depthwise

/-! ## A batch size that is no double -/

section Oversized

/-- That many samples without channels, and no filters. -/
def oversizedConvolution : ConvolutionSizes := ⟨oversize, 1, 0, 0, [1], [1]⟩

def unitGeometry (transposed : Bool) : ConvGeometry := ⟨[0], [1], [1], [0], 1, transposed⟩

def noChannels : Tensor := .ofEntries .float32 [oversize, 0, 1] fun _ => 0

def noFilters : Tensor := .ofEntries .float32 [0, 0, 1] fun _ => 0

def unitConvolution (transposed : Bool) : Convolution :=
  ⟨⟨0⟩, ⟨1⟩, none, .const [1], .const [0], .const [1], .const [0], .const transposed, .const 1⟩

/-- The nodes that the rule creates for them. -/
def oversizedConvolutionNodes : List Node :=
  [⟨.constant (.int oversize), .index⟩, ⟨.constant (.int 0), .index⟩,
    ⟨.constant (.int 1), .index⟩, ⟨.constant (.int 0), .index⟩, ⟨.constant (.int 0), .index⟩,
    ⟨.constant (.int 1), .index⟩, ⟨.constant (.int 1), .index⟩,
    ⟨.constant (.zero .float32), .scalar .float32⟩, ⟨.constant (.int 1), .index⟩,
    ⟨.constant (.zero .float32), .scalar .float32⟩,
    ⟨.fill [⟨2⟩, ⟨5⟩, ⟨10⟩] ⟨11⟩, .tensor ⟨.float32, .ofSizes [oversize, 0, 1]⟩⟩,
    ⟨.reduce (.named (.conv ⟨.standard .channelFirst, [1], [1], false⟩)) ⟨0⟩ ⟨1⟩ none ⟨12⟩,
      .tensor ⟨.float32, .ofSizes [oversize, 0, 1]⟩⟩]

theorem run_oversizedConvolution :
    (Rule.convolution.apply .standard (.convolution (unitConvolution false))
        ⟨.float32, .ofSizes [oversize, 0, 1]⟩).run (.ofGraph (.takingIn [noChannels, noFilters])) =
      (.ok ⟨13⟩, ⟨⟨(Graph.takingIn [noChannels, noFilters]).nodes ++ oversizedConvolutionNodes,
        [⟨0⟩, ⟨1⟩], []⟩, 2,
        #[⟨2⟩, ⟨3⟩, ⟨4⟩, ⟨5⟩, ⟨6⟩, ⟨7⟩, ⟨8⟩, ⟨9⟩, ⟨10⟩, ⟨11⟩, ⟨12⟩, ⟨13⟩]⟩) := by
  rfl

/-- What the initial tensor is filled as: a sample is missing. -/
def missingSample : Tensor := .ofEntries .float32 [9007199254740992, 0, 1] fun _ => 0

theorem fill_missingSample : arrayResult (.tensor ⟨.float32, .ofSizes [oversize, 0, 1]⟩)
    (fill [9007199254740992, 0, 1] 0) = .ok (.tensor missingSample) :=
  arrayResult_fill (by decide)

theorem reduce_missingSample {ix : Indexing}
    (hix : (NamedKernel.conv ⟨.standard .channelFirst, [1], [1], false⟩).indexing? = some ix) :
    NdArray.reduce ix .mulAdd (noChannels.widened .signed) (noFilters.widened .signed) (0, 0)
      missingSample.data = .error (.loopClash 0 oversize 9007199254740992) := by
  cases hix
  rfl

/-- The samples of the result are counted by a double, and one of them is missing. -/
theorem evalFrom_oversizedConvolution
    (hg : ∀ i, g.node? ⟨i + 2⟩ = oversizedConvolutionNodes[i]?)
    (hx : env.get? ⟨0⟩ = some (.tensor noChannels))
    (hw : env.get? ⟨1⟩ = some (.tensor noFilters)) :
    g.evalFrom supply env
        [⟨2⟩, ⟨3⟩, ⟨4⟩, ⟨5⟩, ⟨6⟩, ⟨7⟩, ⟨8⟩, ⟨9⟩, ⟨10⟩, ⟨11⟩, ⟨12⟩, ⟨13⟩] =
      .error (.array (.loopClash 0 oversize 9007199254740992)) := by
  obtain ⟨ix, hix⟩ : ∃ ix, (NamedKernel.conv ⟨.standard .channelFirst, [1], [1], false⟩).indexing? =
    some ix := ⟨_, rfl⟩
  have hspec : (ReductionSpec.named (.conv ⟨.standard .channelFirst, [1], [1], false⟩)).indexing? =
    some ix := hix
  have hpoints : ∀ e, zeroPointsOf e (.named (.conv ⟨.standard .channelFirst, [1], [1], false⟩))
    none = .ok (0, 0) := fun _ => rfl
  have hcombine : (ReductionSpec.named
    (.conv ⟨.standard .channelFirst, [1], [1], false⟩)).combine = .mulAdd := rfl
  have hcast : (ReductionSpec.named
    (.conv ⟨.standard .channelFirst, [1], [1], false⟩)).cast = .signed := rfl
  simp [Graph.evalFrom, Graph.evalStep, hg, oversizedConvolutionNodes, evalNode, Bind.bind,
    Except.bind, Pure.pure, Except.pure, Env.get, Env.get?_insert, Env.sizes, Env.index, Env.number,
    Env.tensor, Value.toTensor, Value.roundedScalar, Scalar.toDouble_zero, DType.round_zero,
    toInt64_oversize, toInt64_zero, toInt64_one, fill_missingSample, hx, hw, hspec, hpoints,
    hcombine, hcast, reduce_missingSample hix, arrayResult_error]

/-- Sizes that fit do not make the lowered program right: they have to be read back from doubles. -/
theorem convolution_fails_oversized :
    oversizedConvolution.Fits (unitGeometry false) ∧
      oversizedConvolution.Describes (unitGeometry false) noChannels noFilters ∧
      ∃ env v d, (Graph.takingIn [noChannels, noFilters]).evaluate
          (.takingIn [noChannels, noFilters]) = .ok env ∧
        Graph.HasConvolution (.takingIn [noChannels, noFilters]) env (unitConvolution false)
          (unitGeometry false) noChannels noFilters 0 none ∧
        (Rule.convolution.apply .standard (.convolution (unitConvolution false))
          ⟨.float32, .ofSizes [oversize, 0, 1]⟩).run
            (.ofGraph (.takingIn [noChannels, noFilters])) =
            (.ok v, d) ∧
        ∀ values, (d.commit.withOutputs [v]).run (.takingIn [noChannels, noFilters]) ≠
          .ok values := by
  obtain ⟨env, h, hplain⟩ := Graph.evaluate_takingIn [noChannels, noFilters]
  have hx := hplain 0 noChannels rfl
  have hw := hplain 1 noFilters rfl
  have hout : (unitGeometry false).outputs? [1] [1] = some [1] := by decide
  refine ⟨⟨by decide, by decide, fun out hsome => ?_⟩, ⟨rfl, rfl, rfl, rfl, rfl⟩, env, _, _, h,
    ⟨hx, hw, .none, rfl⟩, run_oversizedConvolution, fun values hvalue => ?_⟩
  · cases hout.symm.trans hsome
    decide
  · obtain ⟨env', heval, -⟩ := Except.bind_eq_ok.1 hvalue
    have hrest := (evaluate_commit h run_oversizedConvolution).symm.trans heval
    have hsize : (Graph.takingIn [noChannels, noFilters]).nodes.size = 2 := rfl
    cases (evalFrom_oversizedConvolution (Graph.node?_append hsize) hx.get hw.get).symm.trans hrest

end Oversized

end TensorLowering
