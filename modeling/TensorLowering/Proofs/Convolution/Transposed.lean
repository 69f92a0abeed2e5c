import TensorLowering.Proofs.Convolution.Spreading
import TensorLowering.Proofs.Convolution.Standard

/-!
# Transposed convolutions

The rule spreads the input out in a buffer and slides the reversed weight over it. Main statement:
on integers, the lowered program adds up a product wherever an element of the input and a position
of the kernel meet.
-/
namespace TensorLowering

open Numeric NdArray Stage Build

variable {s : Stage} {c : ConvolutionSizes} {geo : ConvGeometry} {x w : Tensor} {out : List Nat}
  {op : Convolution} {result : TensorType} {config : LoweringConfig} {bias : Option Tensor}

namespace ConvolutionSizes

/-- The operands, the buffer and the output of a transposed convolution are not too large. -/
structure SpreadFits (c : ConvolutionSizes) (geo : ConvGeometry) : Prop where
  input : ¬ TooLarge c.inputShape
  weight : ¬ TooLarge (c.storedWeight true)
  buffer : ¬ TooLarge (c.batch :: c.groups * c.channels :: bufferSizes geo.axes c.input c.kernel)
  output : ∀ out, geo.outputs? c.input c.kernel = some out → ¬ TooLarge (c.outputShape out)

/-- The sizes of the buffer and of the output, and where the input begins in the buffer, are read
back from doubles. -/
structure SpreadExact (c : ConvolutionSizes) (geo : ConvGeometry) : Prop where
  output : ∀ out, geo.outputs? c.input c.kernel = some out →
    ∀ n ∈ c.outputShape out, Binary64.IsExact n
  buffer : ∀ n ∈ c.batch :: c.groups * c.channels :: bufferSizes geo.axes c.input c.kernel ++
    bufferOffsets geo.axes c.kernel, Binary64.IsExact n

/-- With one group, the channels are split already. -/
theorem SpreadFits.bufferFits (h : c.SpreadFits geo) (hgroups : c.groups = 1)
    (hout : geo.outputs? c.input c.kernel = some out) :
    c.BufferFits (bufferSizes geo.axes c.input c.kernel) out := by
  have hweight := h.weight
  rw [storedWeight, if_pos rfl, hgroups] at hweight
  refine .of_unsplit h.buffer ?_ (h.output out hout) (.inl hgroups)
  rw [Nat.one_mul] at hweight
  rw [weightShape, hgroups, Nat.one_mul]
  exact not_tooLarge_exchange hweight

/-- Windows over the spread input. -/
theorem framed_spread {t : Tensor} (hgeo : geo.groups = c.groups) (hgroups : c.groups = 1)
    (ht : geo.transposed = true) (hw : t.shape = c.weightShape) (hvalid : geo.Valid c.input.length)
    (hspreads : Spreads geo.axes c.input c.kernel out)
    (hfits : ∀ n ∈ bufferSizes geo.axes c.input c.kernel, n < 0x8000000000000000) :
    c.Framed geo t (bufferSizes geo.axes c.input c.kernel) out := by
  have hlen : out.length = c.input.length :=
    hspreads.length_out.trans (ConvGeometry.length_axes hvalid)
  refine ⟨hspreads.slides hvalid ht hfits, ?_, ?_, ?_, hgeo, Nat.le_of_eq hgroups.symm, hw⟩
  · rw [ConvGeometry.moves, if_pos ht, List.length_replicate,
      ConvGeometry.spatialRank_of_valid hvalid, hlen]
  · rw [hvalid.dilation, hlen]
  · rw [ConvGeometry.spatialRank_of_valid hvalid, hlen]

/-- The spread input as the buffer. -/
theorem Arranges.buffered_spread {v : Binary64} (hc : c.Arranges geo x w) (hgroups : c.groups = 1)
    (hvalid : geo.Valid c.input.length) (ht : geo.transposed = true)
    (hspreads : Spreads geo.axes c.input c.kernel out)
    (hfits : ∀ n ∈ bufferSizes geo.axes c.input c.kernel, n < 0x8000000000000000) :
    c.Buffered geo (x.spread geo c.batch (c.groups * c.channels) c.input c.kernel v)
      (w.reversed (c.groups * c.filters) c.channels c.kernel)
      (bufferSizes geo.axes c.input c.kernel) out :=
  ⟨framed_spread hc.groups hgroups ht rfl hvalid hspreads hfits, rfl⟩

end ConvolutionSizes

open ConvolutionSizes

/-- The reversed weight slides over the spread input. -/
theorem spreadWindows_gives {p : ConvPlan} {dtype : DType} {zs : Option (Binary64 × Binary64)}
    {z z' : ConvSizes} {padding : ValueId} {v : Binary64} (hp : p.Planned s geo dtype x w zs)
    (hbias : ConvPlan.HasBias s op.bias (c.groups * c.filters) bias)
    (hz : ConvSizes.Reads s z c.batch (c.groups * c.channels) c.input)
    (hz' : ConvSizes.Reads s z' (c.groups * c.channels) c.filters c.kernel)
    (hpadding : s.HasScalar padding v) (hvalid : geo.Valid c.input.length)
    (hc : c.Arranges geo x w) (ht : geo.transposed = true) (hfits : c.SpreadFits geo)
    (hexact : c.SpreadExact geo) :
    (p.spreadWindows config op.bias result z z' padding).Gives (fun _ => True) s fun v' s' =>
      ∃ acc out, dtype.accumulator? = some acc ∧ c.groups = 1 ∧
        Spreads geo.axes c.input c.kernel out ∧
        s'.env.get? v' = some (.tensor ((c.slide (geo.moves.zip geo.dilation) acc
          (x.spread geo c.batch (c.groups * c.channels) c.input c.kernel v)
          (w.reversed (c.groups * c.filters) c.channels c.kernel) zs bias out).converted
            result.dtype)) ∧
        result.shape.Admits (c.outputShape out) := by
  obtain rfl := hp.geometry
  have hgroups : c.groups = 1 := by
    have hone := hp.ungrouped ht
    have hpos := hvalid.groups_pos
    have hsame := hc.groups
    omega
  have hspatial : p.spatialRank = c.kernel.length :=
    (ConvGeometry.spatialRank_of_valid hvalid).trans hc.kernel.symm
  have hreversed : w.shape = c.channels :: c.groups * c.filters :: c.kernel := by
    rw [hc.weightShape, storedWeight, if_pos ht, hgroups, Nat.one_mul, Nat.one_mul]
  refine Gives.bind (ConvPlan.reversedWeight_gives hp.ready.weight hreversed hspatial) ?_
  intro kernel s₂ hle₂ hkernel
  refine Gives.bind (ConvPlan.spreadInput_gives (hp.ready.input.mono hle₂) hvalid ht hc.inputShape
    hc.kernel (hz.mono hle₂) (hz'.mono hle₂) (hpadding.mono hle₂) hfits.buffer hexact.buffer) ?_
  rintro ⟨buffer, sizes⟩ s₃ hle₃ ⟨hbuffer, out, hspreads, hsizes⟩
  have hout := hspreads.outputs?_eq
  have hle := hle₂.trans hle₃
  have hfilters : s₃.Knows z'.channels (c.groups * c.filters : Nat) := by
    rw [hgroups, Nat.one_mul]
    exact hz'.channels.mono hle
  have hall : s₃.HasSizes (z.outer :: z'.channels :: sizes) (c.outputShape out) := by
    have hknown : s₃.KnowsSizes (z.outer :: z'.channels :: sizes) (c.outputShape out) :=
      .cons (hz.outer.mono hle) (.cons hfilters hsizes)
    exact hknown.hasSizes (hexact.output out hout)
  have hsmall : ∀ n ∈ bufferSizes p.geometry.axes c.input c.kernel, n < 0x8000000000000000 :=
    spatial_lt_of_not_tooLarge hfits.buffer
  refine (slideOver_gives (hp.mono hle) (hc.buffered_spread hgroups hvalid ht hspreads hsmall)
    (fun hmany => absurd hgroups hmany) hbuffer (hkernel.mono hle₃) (hbias.mono hle) hall
    (hfits.bufferFits hgroups hout)
    ⟨hexact.output out hout, fun hmany => absurd hgroups hmany⟩).weaken ?_
  rintro v' s₄ - ⟨acc, hacc, hget, hadmits⟩
  exact ⟨acc, out, hacc, hgroups, hspreads, hget, hadmits⟩

/-- Whichever operands it has, the reversed weight slides over the spread input. -/
theorem lowerConvolution_spreads {dtype : DType} {zs : Option (Binary64 × Binary64)}
    (h : op.Operands s geo dtype x w zs (c.groups * c.filters) bias)
    (hround : x.dtype.round (ConvPlan.padValue zs) = ConvPlan.padValue zs)
    (hc : c.Arranges geo x w) (ht : geo.transposed = true) (hfits : c.SpreadFits geo)
    (hexact : c.SpreadExact geo) :
    (Rule.lowerConvolution config op result).Gives (fun _ => True) s fun v s' =>
      ∃ acc out, dtype.accumulator? = some acc ∧ c.groups = 1 ∧
        Spreads geo.axes c.input c.kernel out ∧
        s'.env.get? v = some (.tensor ((c.slide (geo.moves.zip geo.dilation) acc
          (x.spread geo c.batch (c.groups * c.channels) c.input c.kernel (ConvPlan.padValue zs))
          (w.reversed (c.groups * c.filters) c.channels c.kernel) zs bias out).converted
            result.dtype)) ∧
        result.shape.Admits (c.outputShape out) := by
  have hrank : x.shape.length - 2 = c.input.length := by
    rw [hc.inputShape]
    rfl
  have hvalid : geo.Valid c.input.length :=
    hrank ▸ ConvGeometry.valid_of_ofConvolution h.geometry
  have hwshape : w.shape = c.groups * c.channels :: c.filters :: c.kernel := by
    rw [hc.weightShape, storedWeight, if_pos ht]
  have hxlt : ∀ n ∈ x.shape, n < 0x8000000000000000 := by
    rw [hc.inputShape]
    exact fun n hn => lt_of_mem_of_not_tooLarge hfits.input hn
  have hwlt : ∀ n ∈ w.shape, n < 0x8000000000000000 := by
    rw [hwshape]
    exact fun n hn => lt_of_mem_of_not_tooLarge hfits.weight hn
  refine lowerConvolution_gives h hc.inputShape hwshape hc.kernel hxlt hwlt ?_
  intro p s₁ z z' padding hp hbias hz hz' hpadding
  rw [hround] at hpadding
  rw [ConvPlan.windows, hp.geometry, ht, if_pos rfl]
  exact spreadWindows_gives hp hbias hz hz' hpadding hvalid hc ht hfits hexact

section Spread

/-- A row of two elements spread out for two filters. -/
def spreadRow : ConvolutionSizes := ⟨1, 1, 1, 2, [2], [3]⟩

def spreadGeometry : ConvGeometry := ⟨[1], [2], [1], [1], 1, true⟩

def spreadInput : Tensor := .ofEntries .float32 [1, 1, 2] fun ix => .ofInt (1 + ix.getD 2 0)

def spreadWeight : Tensor :=
  .ofEntries .float32 [1, 2, 3] fun ix => .ofInt (1 + ix.getD 1 0 * ix.getD 2 0)

def spreadConvolution : Convolution :=
  ⟨⟨0⟩, ⟨1⟩, some ⟨2⟩, .const [2], .const [1], .const [1], .const [1], .const true, .const 1⟩

/-- What the elements add up to, with the bias of the paired channels. -/
def spreadOutput (ix : List Nat) : Int :=
  ([[11, 13, 12, 12], [22, 25, 24, 26]].getD (ix.getD 1 0) []).getD (ix.getD 2 0) 0

end Spread

/-! ## A batch size that is no double -/

section Oversized

/-- The nodes that the rule creates for that many samples without channels, and no filters. -/
def oversizedSpreadNodes : List Node :=
  [⟨.constant (.int oversize), .index⟩, ⟨.constant (.int 0), .index⟩,
    ⟨.constant (.int 1), .index⟩, ⟨.constant (.int 0), .index⟩, ⟨.constant (.int 0), .index⟩,
    ⟨.constant (.int 1), .index⟩, ⟨.constant (.int 1), .index⟩,
    ⟨.constant (.zero .float32), .scalar .float32⟩,
    ⟨.transpose ⟨1⟩ ⟨[1, 0, 2]⟩, .tensor noFilters.type⟩,
    ⟨.flip ⟨10⟩ [2], .tensor noFilters.type⟩, ⟨.constant (.int 0), .index⟩,
    ⟨.constant (.int 0), .index⟩, ⟨.constant (.int 1), .index⟩, ⟨.constant (.int 1), .index⟩,
    ⟨.fill [⟨2⟩, ⟨3⟩, ⟨14⟩] ⟨9⟩, .tensor noChannels.type⟩,
    ⟨.insertSlice ⟨0⟩ ⟨16⟩ [⟨12⟩, ⟨12⟩, ⟨13⟩] [1, 1, 1], .tensor noChannels.type⟩,
    ⟨.constant (.zero .float32), .scalar .float32⟩,
    ⟨.fill [⟨2⟩, ⟨6⟩, ⟨15⟩] ⟨18⟩, .tensor noChannels.type⟩,
    ⟨.reduce (.named (.conv ⟨.standard .channelFirst, [1], [1], false⟩)) ⟨17⟩ ⟨11⟩ none ⟨19⟩,
      .tensor noChannels.type⟩]

theorem run_oversizedSpread :
    (Rule.convolution.apply .standard (.convolution (unitConvolution true))
        ⟨.float32, .ofSizes [oversize, 0, 1]⟩).run (.ofGraph (.takingIn [noChannels, noFilters])) =
      (.ok ⟨20⟩, ⟨⟨(Graph.takingIn [noChannels, noFilters]).nodes ++ oversizedSpreadNodes,
        [⟨0⟩, ⟨1⟩], []⟩, 2, #[⟨2⟩, ⟨3⟩, ⟨4⟩, ⟨5⟩, ⟨6⟩, ⟨7⟩, ⟨8⟩, ⟨9⟩, ⟨10⟩, ⟨11⟩, ⟨12⟩, ⟨13⟩, ⟨14⟩,
          ⟨15⟩, ⟨16⟩, ⟨17⟩, ⟨18⟩, ⟨19⟩, ⟨20⟩]⟩) := by
  rfl

/-- Without filters, exchanging and reversing axes changes nothing. -/
theorem transpose_noFilters :
    tensorResult (.tensor noFilters.type) (noFilters.data.transpose ⟨[1, 0, 2]⟩) =
      .ok (.tensor noFilters) := by
  decide +kernel

theorem flip_noFilters :
    arrayResult (.tensor noFilters.type) (noFilters.data.flip [2]) = .ok (.tensor noFilters) := by
  decide +kernel

theorem insertSlice_missingSample :
    noChannels.data.insertSlice missingSample.data [0, 0, 0] [1, 1, 1] =
      .error (.sliceOutside 0 oversize 1 0 9007199254740992) := by
  rfl

/-- The samples of the buffer are counted by a double, and one of them does not fit. -/
theorem evalFrom_oversizedSpread {g : Graph} {supply : Supply} {env : Env}
    (hg : ∀ i, g.node? ⟨i + 2⟩ = oversizedSpreadNodes[i]?)
    (hx : env.get? ⟨0⟩ = some (.tensor noChannels))
    (hw : env.get? ⟨1⟩ = some (.tensor noFilters)) :
    g.evalFrom supply env
        [⟨2⟩, ⟨3⟩, ⟨4⟩, ⟨5⟩, ⟨6⟩, ⟨7⟩, ⟨8⟩, ⟨9⟩, ⟨10⟩, ⟨11⟩, ⟨12⟩, ⟨13⟩, ⟨14⟩, ⟨15⟩, ⟨16⟩, ⟨17⟩,
          ⟨18⟩, ⟨19⟩, ⟨20⟩] =
      .error (.array (.sliceOutside 0 oversize 1 0 9007199254740992)) := by
  have hcheck : Permutation.check ⟨[1, 0, 2]⟩ noFilters.data.rank = .ok () := by decide +kernel
  have hfill : arrayResult (.tensor noChannels.type) (fill [9007199254740992, 0, 1] 0) =
    .ok (.tensor missingSample) := fill_missingSample
  simp [Graph.evalFrom, Graph.evalStep, hg, oversizedSpreadNodes, evalNode, Bind.bind, Except.bind,
    Pure.pure, Except.pure, Env.get, Env.get?_insert, Env.sizes, Env.index, Env.number, Env.tensor,
    Value.toTensor, Value.roundedScalar, Scalar.toDouble_zero, DType.round_zero, toInt64_oversize,
    toInt64_zero, toInt64_one, hcheck, Except.mapError, transpose_noFilters, flip_noFilters, hfill,
    hx, hw, insertSlice_missingSample, arrayResult_error]

end Oversized

end TensorLowering
