import TensorLowering.Proofs.Convolution.DeclaredPlans
import TensorLowering.Proofs.Convolution.Transposed

/-!
# Lowered convolutions of operands of declared types

What the rule for convolutions does where sizes are open. Main statement: where the program goes on
to its end, its value is one tensor that the operands, the bias and the geometry determine, whatever
sizes are declared and whichever kernel is used.
-/
namespace TensorLowering

open Numeric NdArray Stage Build

variable {l : Limits} {s s' : Stage} {p : ConvPlan} {op : Convolution} {result : TensorType}
  {geo : ConvGeometry} {x w : Tensor} {zx zw : Option Binary64} {bias : Option Tensor}
  {config : LoweringConfig} {ch : Nat} {out : List Nat} {z z' : ConvSizes} {padding : ValueId}

namespace ConvolutionSizes

variable {c c' : ConvolutionSizes}

/-! ## Sizes that two tensors have -/

/-- The sizes of a convolution of two tensors, as far as they show before the channels of both are
compared. -/
structure Shapes (c : ConvolutionSizes) (geo : ConvGeometry) (x w : Tensor) (ch : Nat) : Prop where
  groups : geo.groups = c.groups
  kernel : c.kernel.length = c.input.length
  inputShape : x.shape = c.batch :: ch :: c.input
  weightShape : w.shape = c.storedWeight geo.transposed
  divides : c.groups ∣ ch

theorem Shapes.arranges (h : c.Shapes geo x w ch) (hch : ch = c.groups * c.channels) :
    c.Arranges geo x w :=
  ⟨h.groups, h.kernel, by rw [h.inputShape, hch, ConvolutionSizes.inputShape],
    h.weightShape⟩

theorem Shapes.channels (h : c.Shapes geo x w ch) (h' : c.Arranges geo x w) :
    ch = c.groups * c.channels := by
  have hshape := h.inputShape.symm.trans h'.inputShape
  simp only [ConvolutionSizes.inputShape, List.cons.injEq, true_and, and_true] at hshape
  exact hshape

/-- Two tensors have the sizes of one convolution only. -/
theorem Shapes.eq_of_arranges (h : c.Shapes geo x w ch) (h' : c'.Arranges geo x w)
    (hpos : 1 ≤ geo.groups) : c = c' := by
  obtain ⟨n, g, i, f, input, kernel⟩ := c
  obtain ⟨n', g', i', f', input', kernel'⟩ := c'
  obtain ⟨hgroups, -, hinput, hweight, -⟩ := h
  obtain ⟨hgroups', -, hinput', hweight'⟩ := h'
  obtain rfl : g = g' := Int.ofNat_inj.1 (hgroups.symm.trans hgroups')
  have hg : 0 < g := by
    dsimp only at hgroups
    omega
  have hshape := hinput.symm.trans hinput'
  have hstored := hweight.symm.trans hweight'
  simp only [ConvolutionSizes.inputShape, List.cons.injEq] at hshape
  obtain ⟨rfl, -, rfl⟩ := hshape
  unfold storedWeight at hstored
  split at hstored
  next =>
    simp only [List.cons.injEq] at hstored
    obtain ⟨hchannels, rfl, rfl⟩ := hstored
    rw [Nat.eq_of_mul_eq_mul_left hg hchannels]
  next =>
    simp only [ConvolutionSizes.weightShape, List.cons.injEq] at hstored
    obtain ⟨hfilters, rfl, rfl⟩ := hstored
    rw [Nat.eq_of_mul_eq_mul_left hg hfilters]

theorem Arranges.groups_dvd_channels {n : Nat} {input : List Nat} (h : c.Arranges geo x w)
    (hx : x.shape = n :: ch :: input) : geo.groups ∣ (ch : Int) := by
  have hshape := hx.symm.trans h.inputShape
  simp only [ConvolutionSizes.inputShape, List.cons.injEq] at hshape
  rw [h.groups, hshape.2.1]
  exact Int.natCast_dvd_natCast.2 (Nat.dvd_mul_right _ _)

theorem Arranges.groups_dvd_outer {o i : Nat} {kernel : List Nat} (h : c.Arranges geo x w)
    (hw : w.shape = o :: i :: kernel) : geo.groups ∣ (o : Int) := by
  have hshape := hw.symm.trans h.weightShape
  rw [h.groups]
  unfold storedWeight at hshape
  split at hshape
  · simp only [List.cons.injEq] at hshape
    rw [hshape.1]
    exact Int.natCast_dvd_natCast.2 (Nat.dvd_mul_right _ _)
  · simp only [ConvolutionSizes.weightShape, List.cons.injEq] at hshape
    rw [hshape.1]
    exact Int.natCast_dvd_natCast.2 (Nat.dvd_mul_right _ _)

/-- Two outer axes and the spatial ones. -/
theorem exists_outer (shape : List Nat) (h : 2 ≤ shape.length) :
    ∃ n m spatial, shape = n :: m :: spatial := by
  cases shape with
  | nil => simp at h
  | cons n shape =>
      cases shape with
      | nil => simp at h
      | cons m spatial => exact ⟨n, m, spatial, rfl⟩

theorem exists_shapes {n o i : Nat} {input kernel : List Nat} (hpos : 1 ≤ geo.groups)
    (hx : x.shape = n :: ch :: input) (hw : w.shape = o :: i :: kernel)
    (hkernel : kernel.length = input.length) (hch : geo.groups ∣ (ch : Int))
    (ho : geo.groups ∣ (o : Int)) :
    ∃ c : ConvolutionSizes, c.Shapes geo x w ch ∧ c.batch = n ∧ c.input = input ∧
      c.kernel = kernel := by
  obtain ⟨g, hg⟩ : ∃ g : Nat, geo.groups = g := ⟨geo.groups.toNat, by omega⟩
  rw [hg] at hch ho
  obtain ⟨k, rfl⟩ := Int.natCast_dvd_natCast.1 ho
  have hdvd := Int.natCast_dvd_natCast.1 hch
  cases ht : geo.transposed with
  | true =>
      refine ⟨⟨n, g, k, i, input, kernel⟩, ⟨hg, hkernel, hx, ?_, hdvd⟩, rfl, rfl, rfl⟩
      rw [hw, ht, storedWeight, if_pos rfl]
  | false =>
      refine ⟨⟨n, g, i, k, input, kernel⟩, ⟨hg, hkernel, hx, ?_, hdvd⟩, rfl, rfl, rfl⟩
      rw [hw, ht, storedWeight, if_neg Bool.false_ne_true, weightShape]

/-! ## What the rule computes -/

/-- The sizes along the spatial axes of what windows move over. -/
def bufferSpatial (c : ConvolutionSizes) (geo : ConvGeometry) : List Nat :=
  if geo.transposed then bufferSizes geo.axes c.input c.kernel
  else paddedSizes c.input geo.padding

/-- What windows move over, in which a value surrounds the input. -/
def buffer (c : ConvolutionSizes) (geo : ConvGeometry) (x : Tensor) (v : Binary64) : Tensor :=
  if geo.transposed then x.spread geo c.batch (c.groups * c.channels) c.input c.kernel v
  else x.padded geo.edges v

/-- What slides over it. -/
def slider (c : ConvolutionSizes) (geo : ConvGeometry) (w : Tensor) : Tensor :=
  if geo.transposed then w.reversed (c.groups * c.filters) c.channels c.kernel else w

/-- The products that are added to the bias, which is stretched to the filters. -/
def lowered (c : ConvolutionSizes) (geo : ConvGeometry) (accumulator : DType) (x w : Tensor)
    (zx zw : Option Binary64) (bias : Option Tensor) (out : List Nat) : Tensor :=
  c.slide (geo.moves.zip geo.dilation) accumulator (c.buffer geo (x.normalized zx) (x.blank zx))
    (c.slider geo (w.normalized zw)) (storedZeros x w zx zw)
    (bias.map (·.stretched [c.groups * c.filters])) out

/-- There is an output of these sizes. -/
def HasOutput (c : ConvolutionSizes) (geo : ConvGeometry) (out : List Nat) : Prop :=
  if geo.transposed then c.groups = 1 ∧ Spreads geo.axes c.input c.kernel out
  else geo.outputs? c.input c.kernel = some out

theorem HasOutput.outputs?_eq (h : c.HasOutput geo out) :
    geo.outputs? c.input c.kernel = some out := by
  unfold HasOutput at h
  split at h
  next => exact h.2.outputs?_eq
  next => exact h

/-- All that a convolution needs in order to give a tensor. -/
structure Runs (c : ConvolutionSizes) (op : Convolution) (geo : ConvGeometry) (x w : Tensor)
    (bias : Option Tensor) (result : Shape) (out : List Nat) : Prop where
  geometry : ConvGeometry.ofConvolution op (x.shape.length - 2) = .ok geo
  arranges : c.Arranges geo x w
  output : c.HasOutput geo out
  fits : c.BufferFits (c.bufferSpatial geo) out
  bias : ConvPlan.Stretches bias (c.groups * c.filters)
  admits : result.Admits (c.outputShape out)

theorem Runs.groups_pos {shape : Shape} (h : c.Runs op geo x w bias shape out) : 1 ≤ geo.groups :=
  (ConvGeometry.valid_of_ofConvolution h.geometry).groups_pos

/-- Whatever result is declared, a convolution has one output. -/
theorem Runs.unique {shape shape' : Shape} {geo' : ConvGeometry} {out' : List Nat}
    (h : c.Runs op geo x w bias shape out) (h' : c'.Runs op geo' x w bias shape' out') :
    geo = geo' ∧ c = c' ∧ out = out' := by
  obtain rfl : geo = geo' := Except.ok.inj (h.geometry.symm.trans h'.geometry)
  have hshapes : c.Shapes geo x w (c.groups * c.channels) :=
    ⟨h.arranges.groups, h.arranges.kernel, h.arranges.inputShape, h.arranges.weightShape,
      Nat.dvd_mul_right _ _⟩
  obtain rfl := hshapes.eq_of_arranges h'.arranges h.groups_pos
  exact ⟨rfl, rfl, Option.some.inj (h.output.outputs?_eq.symm.trans h'.output.outputs?_eq)⟩

/-! ## Preparations -/

/-- What is known before the operands are arranged. -/
structure Prepared (c : ConvolutionSizes) (p : ConvPlan) (s : Stage) (l : Limits)
    (op : Convolution) (geo : ConvGeometry) (x w : Tensor) (zx zw : Option Binary64) (ch : Nat)
    (z z' : ConvSizes) (padding : ValueId) : Prop where
  plan : p.Declared s geo x w zx zw
  geometry : ConvGeometry.ofConvolution op (x.shape.length - 2) = .ok geo
  valid : geo.Valid c.input.length
  shapes : c.Shapes geo x w ch
  input : z.Measures s l c.batch ch c.input
  weight : ∀ o i, w.shape = o :: i :: c.kernel → z'.Measures s l o i c.kernel
  padding : s.HasScalar padding (x.blank zx)

end ConvolutionSizes

open ConvolutionSizes ConvPlan

/-- Something that is known to run does not fail what it needs. -/
theorem stops_of_not {α : Type} {runs : α → Prop} {need known : Prop}
    (hmode : (∃ a, runs a) ∨ (∀ e, l.stops e) ∧ known) (himp : ∀ a, runs a → need)
    (hno : ¬ need) : ∀ e, l.stops e := by
  rcases hmode with ⟨a, ha⟩ | ⟨hstops, -⟩
  · exact absurd (himp a ha) hno
  · exact hstops

/-- The steps of the rule from its plan to where it arranges the operands. Either the convolution is
known to run, or the program may stop and every size of the operands is known. -/
theorem convolve_meets {v : Option ValueId} {post : ValueId → Stage → Prop}
    (hl : ∀ value, l.considers value → value.Small) (hfails : ∀ e, l.fails e)
    (hp : p.Declared s geo x w zx zw)
    (hgeo : ConvGeometry.ofConvolution op (x.shape.length - 2) = .ok geo)
    (hranks : 3 ≤ x.shape.length ∧ w.shape.length = x.shape.length) (hxfit : ¬ TooLarge x.shape)
    (hwfit : ¬ TooLarge w.shape)
    (hmode : (∃ r : ConvolutionSizes × List Nat, r.1.Runs op geo x w bias result.shape r.2) ∨
      (∀ e, l.stops e) ∧ s.Pinned p.input (x.normalized zx) ∧ s.Pinned p.weight (w.normalized zw))
    (hrest : ∀ (c : ConvolutionSizes) s' ch z z' padding, s ≤ s' →
      c.Prepared p s' l op geo x w zx zw ch z z' padding →
      ((∃ out, c.Runs op geo x w bias result.shape out) ∨
        (∀ e, l.stops e) ∧ z.Known c.input ∧ z'.Known c.kernel) →
      (p.windows config v result z z' padding).Meets l s' post) :
    (p.convolve config v result).Meets l s post := by
  obtain ⟨n, ch, input, hxshape⟩ := exists_outer x.shape (by omega)
  obtain ⟨o, i, kernel, hwshape⟩ := exists_outer w.shape (by omega)
  have hkernel : kernel.length = input.length := by
    simpa [hxshape, hwshape] using hranks.2
  have hvalid : geo.Valid input.length := by
    have hvalid := ConvGeometry.valid_of_ofConvolution hgeo
    rwa [hxshape] at hvalid
  have hspatial : p.spatialRank = input.length := by
    rw [ConvPlan.spatialRank, hp.geometry, ConvGeometry.spatialRank_of_valid hvalid]
  unfold convolve
  rw [hspatial]
  refine .bind (ConvSizes.read_meets hl hp.input.storage ((x.shape_normalized zx).trans hxshape) rfl
    fun n hn => lt_of_mem_of_not_tooLarge hxfit (by rwa [Tensor.shape_normalized] at hn)) ?_
  rintro z s₁ hle₁ ⟨hz, hknown⟩
  refine .bind (ConvSizes.read_meets hl (hp.weight.storage.mono hle₁)
    ((w.shape_normalized zw).trans hwshape) hkernel
    fun n hn => lt_of_mem_of_not_tooLarge hwfit (by rwa [Tensor.shape_normalized] at hn)) ?_
  rintro z' s₂ hle₂ ⟨hz', hknown'⟩
  refine .bind (index_meets (.of_small hl _)) ?_
  rintro groups s₃ hle₃ ⟨hgroups, -⟩
  rw [hp.geometry] at hgroups
  refine .bind (requireDivisible_meets (hz.channels.mono (hle₂.trans hle₃)) hgroups
    hvalid.groups_pos hfails fun hno message => stops_of_not hmode
      (fun r hruns => hruns.arranges.groups_dvd_channels hxshape) hno _) ?_
  rintro ⟨⟩ s₄ hle₄ hch
  refine .bind (requireDivisible_meets ((hz'.outer.mono hle₃).mono hle₄) (hgroups.mono hle₄)
    hvalid.groups_pos hfails fun hno message => stops_of_not hmode
      (fun r hruns => hruns.arranges.groups_dvd_outer hwshape) hno _) ?_
  rintro ⟨⟩ s₅ hle₅ ho
  obtain ⟨c, hc, rfl, rfl, rfl⟩ := exists_shapes hvalid.groups_pos hxshape hwshape hkernel hch ho
  have hle₁₅ := hle₂.trans (hle₃.trans (hle₄.trans hle₅))
  have hle := hle₁.trans hle₁₅
  refine .bind (padding_meets (hp.mono hle)) fun padding s₆ hle₆ hpadding => ?_
  refine hrest c s₆ ch z z' padding (hle.trans hle₆) ⟨hp.mono (hle.trans hle₆), hgeo, hvalid, hc,
    hz.mono (hle₁₅.trans hle₆), ?_, hpadding⟩ (hmode.imp ?_ ?_)
  · intro o' i' hshape
    have hsame := hwshape.symm.trans hshape
    simp only [List.cons.injEq, and_true] at hsame
    obtain ⟨rfl, rfl⟩ := hsame
    exact hz'.mono (hle₃.trans (hle₄.trans (hle₅.trans hle₆)))
  · rintro ⟨⟨c', out⟩, hruns⟩
    obtain rfl := hc.eq_of_arranges hruns.arranges hvalid.groups_pos
    exact ⟨out, hruns⟩
  · rintro ⟨hstops, hx', hw'⟩
    exact ⟨hstops, hknown hx'.storage, hknown' (hw'.storage.mono hle₁)⟩

/-! ## The rule -/

/-- What the rule gives: the convolution of the operands. -/
def Rule.GivesConvolution (op : Convolution) (x w : Tensor) (zx zw : Option Binary64)
    (bias : Option Tensor) (result : TensorType) (v : ValueId) (s : Stage) : Prop :=
  ∃ c geo out acc, ConvolutionSizes.Runs c op geo x w bias result.shape out ∧
    x.dtype.accumulator? = some acc ∧
    s.env.get? v = some (.tensor ((c.lowered geo acc x w zx zw bias out).converted result.dtype))

/-- There is only one such tensor. -/
theorem Rule.GivesConvolution.get?_eq {result' : TensorType} {v v' : ValueId}
    (h : GivesConvolution op x w zx zw bias result v s)
    (h' : GivesConvolution op x w zx zw bias result' v' s')
    (hdtype : result'.dtype = result.dtype) : s'.env.get? v' = s.env.get? v := by
  obtain ⟨c, geo, out, acc, hruns, hacc, hget⟩ := h
  obtain ⟨c', geo', out', acc', hruns', hacc', hget'⟩ := h'
  obtain ⟨rfl, rfl, rfl⟩ := hruns.unique hruns'
  obtain rfl := Option.some.inj (hacc.symm.trans hacc')
  rw [hget, hget', hdtype]

section Branches

variable {c : ConvolutionSizes} (hl : ∀ value, l.considers value → value.Small)
  (hfails : ∀ e, l.fails e) (h : c.Prepared p s l op geo x w zx zw ch z z' padding)
  (hwfit : ¬ TooLarge w.shape) (hbias : Option.Rel (fun v b => s.HasTensor v b) op.bias bias)
  (hmode : (∃ out, c.Runs op geo x w bias result.shape out) ∨
    (∀ e, l.stops e) ∧ z.Known c.input ∧ z'.Known c.kernel)
include hl hfails h hwfit hbias hmode

/-- The weight slides over the padded input. -/
theorem paddedWindows_meets (hxfit : ¬ TooLarge x.shape) (hstandard : geo.transposed = false) :
    (p.paddedWindows config op.bias result z z' padding).Meets l s
      (Rule.GivesConvolution op x w zx zw bias result) := by
  obtain ⟨hp, hgeo, hvalid, hc, hz, hz', hpadding⟩ := h
  obtain rfl := hp.geometry
  have hnot : ¬ p.geometry.transposed = true := by simp [hstandard]
  have hwshape : w.shape = c.weightShape := by
    rw [hc.weightShape, ConvolutionSizes.storedWeight, if_neg hnot]
  have hxshape' : (x.normalized zx).shape = c.batch :: ch :: c.input :=
    (x.shape_normalized zx).trans hc.inputShape
  have hwshape' : (w.normalized zw).shape = c.weightShape := (w.shape_normalized zw).trans hwshape
  replace hz' := hz' _ _ hwshape
  have hspatial : c.bufferSpatial p.geometry = paddedSizes c.input p.geometry.padding :=
    if_neg hnot
  refine .bind (padInput_meets hl hfails hp.input.storage hvalid hstandard hxshape' hz hz' hpadding
    (x.round_blank zx) (by rwa [Tensor.shape_normalized]) (fun hlarge =>
      stops_of_not hmode (fun out hruns => ?_) (not_not_intro hlarge)) (hmode.imp ?_ And.right)) ?_
  · rw [hc.channels hruns.arranges, ← hspatial]
    exact hruns.fits.buffer
  · rintro ⟨out, hruns⟩
    exact ⟨out, hruns.output.outputs?_eq⟩
  rintro ⟨buffer, sizes⟩ s₁ hle₁ ⟨hbuffer, hfits, out, hout, hsizes⟩
  have hall : s₁.AreSizes l (z.outer :: z'.outer :: sizes) (c.outputShape out) :=
    .cons (hz.outer.mono hle₁) (.cons (hz'.outer.mono hle₁) hsizes)
  have hbshape : ((x.normalized zx).padded p.geometry.edges (x.blank zx)).shape =
      c.batch :: ch :: paddedSizes c.input p.geometry.padding := by
    rw [Tensor.shape_padded, hxshape', paddedSizes_edges]
  have hbias₁ : Option.Rel (fun v b => s₁.HasTensor v b) op.bias bias :=
    rel_imp (fun _ _ hb => hb.mono hle₁) hbias
  have hsmall : ∀ n ∈ paddedSizes c.input p.geometry.padding, n < 0x8000000000000000 :=
    spatial_lt_of_not_tooLarge hfits
  refine (slideOver_meets hl hfails (hp.mono hle₁)
    (framed_padded hc.groups hstandard hc.kernel hwshape' hvalid hout hsmall) hbuffer
    (hp.weight.storage.mono hle₁) hbshape (hbshape ▸ hfits) (hwshape ▸ hwfit) hbias₁ hall
    (fun _ => ⟨hz.channels.mono hle₁, hz'.outer.mono hle₁, hz'.channels.mono hle₁⟩) hc.divides
    (stops_of_not hmode fun out' hruns => ?_)).weaken ?_
  · obtain rfl := Option.some.inj (hout.symm.trans hruns.output.outputs?_eq)
    exact ⟨⟨hc.channels hruns.arranges, hspatial ▸ hruns.fits⟩, hruns.bias, hruns.admits⟩
  · rintro v s₂ - ⟨⟨hagrees, hstretches, hadmits⟩, hget⟩
    refine ⟨c, p.geometry, out, p.accumulator, ⟨hgeo, hc.arranges hagrees.channels, ?_,
      hspatial ▸ hagrees.fits, hstretches, hadmits⟩, hp.accumulator, ?_⟩
    · rwa [HasOutput, if_neg hnot]
    · rwa [lowered, ConvolutionSizes.buffer, slider, if_neg hnot, if_neg hnot]

/-- The reversed weight slides over the spread input. -/
theorem spreadWindows_meets (ht : geo.transposed = true) :
    (p.spreadWindows config op.bias result z z' padding).Meets l s
      (Rule.GivesConvolution op x w zx zw bias result) := by
  obtain ⟨hp, hgeo, hvalid, hc, hz, hz', hpadding⟩ := h
  obtain rfl := hp.geometry
  have hgroups : c.groups = 1 := by
    have hone := hp.ungrouped ht
    have hpos := hvalid.groups_pos
    have hsame := hc.groups
    omega
  have hwshape : w.shape = c.groups * c.channels :: c.filters :: c.kernel := by
    rw [hc.weightShape, ConvolutionSizes.storedWeight, if_pos ht]
  have hxshape' : (x.normalized zx).shape = c.batch :: ch :: c.input :=
    (x.shape_normalized zx).trans hc.inputShape
  have hwshape' : (w.normalized zw).shape = c.channels :: c.groups * c.filters :: c.kernel := by
    rw [Tensor.shape_normalized, hwshape, hgroups, Nat.one_mul, Nat.one_mul]
  have hweight : ¬ TooLarge c.weightShape := by
    rw [← Tensor.shape_normalized w zw, hwshape'] at hwfit
    exact not_tooLarge_exchange hwfit
  replace hz' := hz' _ _ hwshape
  have hspatial : c.bufferSpatial p.geometry = bufferSizes p.geometry.axes c.input c.kernel :=
    if_pos ht
  have hkernel : p.spatialRank = c.kernel.length :=
    (ConvGeometry.spatialRank_of_valid hvalid).trans hc.kernel.symm
  refine .bind (reversedWeight_meets hp.weight.storage hwshape' hkernel) ?_
  intro kernel s₁ hle₁ hreversed
  have hfits : ∀ out, c.Runs op p.geometry x w bias result.shape out →
      ¬ TooLarge (c.batch :: ch :: bufferSizes p.geometry.axes c.input c.kernel) := by
    intro out hruns
    rw [hc.channels hruns.arranges, ← hspatial]
    exact hruns.fits.buffer
  have hspreads : ∀ out, c.Runs op p.geometry x w bias result.shape out →
      Spreads p.geometry.axes c.input c.kernel out := by
    intro out hruns
    have houtput := hruns.output
    rw [HasOutput, if_pos ht] at houtput
    exact houtput.2
  refine .bind (spreadInput_meets hl hfails (hp.input.storage.mono hle₁) hp.input.type hvalid ht
    hxshape' hc.kernel (hz.mono hle₁) (hz'.mono hle₁) (hpadding.mono hle₁) (fun hlarge =>
      stops_of_not hmode hfits (not_not_intro hlarge)) (hmode.imp ?_ And.right)) ?_
  · rintro ⟨out, hruns⟩
    exact ⟨out, hspreads out hruns, hfits out hruns⟩
  rintro ⟨buffer, sizes⟩ s₂ hle₂ ⟨hbuffer, hfit, out, hout, hsizes⟩
  have hle := hle₁.trans hle₂
  have hfilters : s₂.IsSize l z'.channels (c.groups * c.filters : Nat) := by
    rw [hgroups, Nat.one_mul]
    exact hz'.channels.mono hle
  have hall : s₂.AreSizes l (z.outer :: z'.channels :: sizes) (c.outputShape out) :=
    .cons (hz.outer.mono hle) (.cons hfilters hsizes)
  have hbias₂ : Option.Rel (fun v b => s₂.HasTensor v b) op.bias bias :=
    rel_imp (fun _ _ hb => hb.mono hle) hbias
  have hsmall : ∀ n ∈ bufferSizes p.geometry.axes c.input c.kernel, n < 0x8000000000000000 :=
    spatial_lt_of_not_tooLarge hfit
  refine (slideOver_meets hl hfails (hp.mono hle)
    (framed_spread hc.groups hgroups ht rfl hvalid hout hsmall)
    hbuffer (hreversed.mono hle₂) rfl hfit hweight hbias₂ hall (fun hmany => absurd hgroups hmany)
    hc.divides (stops_of_not hmode fun out' hruns => ?_)).weaken ?_
  · obtain rfl := Option.some.inj (hout.outputs?_eq.symm.trans hruns.output.outputs?_eq)
    exact ⟨⟨hc.channels hruns.arranges, hspatial ▸ hruns.fits⟩, hruns.bias, hruns.admits⟩
  · rintro v s₃ - ⟨⟨hagrees, hstretches, hadmits⟩, hget⟩
    refine ⟨c, p.geometry, out, p.accumulator, ⟨hgeo, hc.arranges hagrees.channels, ?_,
      hspatial ▸ hagrees.fits, hstretches, hadmits⟩, hp.accumulator, ?_⟩
    · rw [HasOutput, if_pos ht]
      exact ⟨hgroups, hout⟩
    · rw [hagrees.channels] at hget
      rwa [lowered, ConvolutionSizes.buffer, slider, if_pos ht, if_pos ht]

end Branches

/-- Whatever sizes are declared, the rule gives the convolution of the operands. -/
theorem lowerConvolution_meets {xi wi : OperandInfo}
    (hl : ∀ value, l.considers value → value.Small) (hfails : ∀ e, l.fails e)
    (hxi : OperandInfo.extract s.graph op.input = .ok xi)
    (hwi : OperandInfo.extract s.graph op.weight = .ok wi) (hx : s.Reads xi x zx)
    (hw : s.Reads wi w zw) (hxfit : ¬ TooLarge x.shape) (hwfit : ¬ TooLarge w.shape)
    (hbias : Option.Rel (fun v b => s.HasTensor v b) op.bias bias)
    (hmode : (∃ c geo out, ConvolutionSizes.Runs c op geo x w bias result.shape out) ∨
      (∀ e, l.stops e) ∧ s.Pinned xi x ∧ s.Pinned wi w) :
    (Rule.lowerConvolution config op result).Meets l s
      (Rule.GivesConvolution op x w zx zw bias result) := by
  rw [Rule.lowerConvolution_eq]
  refine .bind (ofConvolution_meets hfails hxi hwi hx hw) ?_
  rintro p s₁ hle₁ ⟨geo, hgeo, hranks, hp, hpinned⟩
  have hruns : (∃ c geo out, ConvolutionSizes.Runs c op geo x w bias result.shape out) →
      ∃ r : ConvolutionSizes × List Nat, r.1.Runs op geo x w bias result.shape r.2 := by
    rintro ⟨c, geo', out, hruns⟩
    obtain rfl := Except.ok.inj (hruns.geometry.symm.trans hgeo)
    exact ⟨(c, out), hruns⟩
  refine convolve_meets hl hfails hp hgeo hranks hxfit hwfit
    (hmode.imp hruns (.imp_right hpinned)) ?_
  intro c s₂ ch z z' padding hle₂ hprepared hmode'
  have hbias' : Option.Rel (fun v b => s₂.HasTensor v b) op.bias bias :=
    rel_imp (fun _ _ hb => hb.mono (hle₁.trans hle₂)) hbias
  rw [windows, hp.geometry]
  split
  next ht => exact spreadWindows_meets hl hfails hprepared hwfit hbias' hmode' ht
  next hnot =>
    rw [Bool.not_eq_true] at hnot
    exact paddedWindows_meets hl hfails hprepared hwfit hbias' hmode' hxfit hnot

end TensorLowering
