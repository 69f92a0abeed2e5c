import TensorLowering.Proofs.Build.DeclaredOperands
import TensorLowering.Proofs.Build.Guards
import TensorLowering.Proofs.Convolution.DeclaredKernels
import TensorLowering.Proofs.Convolution.DeclaredWindows

/-!
# Preparations of a convolution over open sizes

The plan of a convolution whose operands have declared types, and what is prepared for its kernel.
Main statement: once there are a buffer and a weight, the rule slides the weight over the buffer,
and everything that this needs shows where the program goes on.
-/
namespace TensorLowering

open Numeric NdArray Stage Build

variable {l : Limits} {s s' : Stage} {p : ConvPlan} {op : Convolution} {result : TensorType}
  {geo : ConvGeometry} {x w : Tensor} {zx zw : Option Binary64} {bias : Option Tensor}
  {config : LoweringConfig}

/-- The value around an input in signed storage: its zero-point, or zero. -/
def Tensor.blank (x : Tensor) (z : Option Binary64) : Binary64 :=
  (x.normalized z).dtype.round ((z.map x.dtype.storedZero).getD 0)

theorem Tensor.round_blank (x : Tensor) (z : Option Binary64) :
    (x.normalized z).dtype.round (x.blank z) = x.blank z :=
  DType.round_round _ _

namespace ConvPlan

/-- A plan for operands of declared types, in signed storage. -/
structure Declared (p : ConvPlan) (s : Stage) (geo : ConvGeometry) (x w : Tensor)
    (zx zw : Option Binary64) : Prop where
  input : s.HasFactor p.input (x.normalized zx) (zx.map x.dtype.storedZero)
  weight : s.HasFactor p.weight (w.normalized zw) (zw.map w.dtype.storedZero)
  quantized : zx.isSome = zw.isSome
  geometry : p.geometry = geo
  accumulator : x.dtype.accumulator? = some p.accumulator
  ungrouped : geo.transposed = true → geo.groups ≤ 1

theorem Declared.mono (h : p.Declared s geo x w zx zw) (hle : s ≤ s') :
    p.Declared s' geo x w zx zw :=
  ⟨h.input.mono hle, h.weight.mono hle, h.quantized, h.geometry, h.accumulator, h.ungrouped⟩

theorem requireBiasType_meets_next {α : Type} {bias : Option ValueId} {next : Unit → Build α}
    {post : α → Stage → Prop} (hfails : ∀ e, l.fails e) (quantized : Bool)
    (h : (next ()).Meets l s post) :
    (if quantized = true then requireBiasType bias >>= next else next ()).Meets l s post := by
  split
  · refine .bind (requireBiasType_gives.meets fun e _ => hfails e) ?_
    rintro ⟨⟩ s' - rfl
    exact h
  · exact h

theorem geometryOf_meets (hfails : ∀ e, l.fails e) (op : Convolution) (rank : Nat) :
    (geometryOf op rank).Meets l s fun geo s' => s' = s ∧
      ConvGeometry.ofConvolution op rank = .ok geo ∧ (geo.transposed = true → geo.groups ≤ 1) := by
  cases hgeo : ConvGeometry.ofConvolution op rank with
  | error e =>
      rw [geometryOf, hgeo]
      exact hfails _
  | ok geo =>
      refine ((geometryOf_gives hgeo).meets fun e _ => hfails e).weaken ?_
      rintro geo' s' - ⟨hs, rfl, hgroups⟩
      exact ⟨hs, rfl, hgroups⟩

/-- The plan of a convolution, as far as it does not fail. The operands of the plan are declared
with every size if those of the convolution are. -/
theorem ofConvolution_meets {xi wi : OperandInfo} (hfails : ∀ e, l.fails e)
    (hxi : OperandInfo.extract s.graph op.input = .ok xi)
    (hwi : OperandInfo.extract s.graph op.weight = .ok wi) (hx : s.Reads xi x zx)
    (hw : s.Reads wi w zw) :
    (ofConvolution op result).Meets l s fun p s' =>
      ∃ geo, ConvGeometry.ofConvolution op (x.shape.length - 2) = .ok geo ∧
        (3 ≤ x.shape.length ∧ w.shape.length = x.shape.length) ∧ p.Declared s' geo x w zx zw ∧
        (s.Pinned xi x ∧ s.Pinned wi w →
          s'.Pinned p.input (x.normalized zx) ∧ s'.Pinned p.weight (w.normalized zw)) := by
  refine .query hxi (.query hwi (.attempt (fun e _ => hfails e) fun quantized hboth => ?_))
  have hsame : zx.isSome = zw.isSome := by
    rw [OperandInfo.bothQuantized, hx.isQuantized, hw.isQuantized] at hboth
    by_contra hne
    rw [if_neg hne] at hboth
    cases hboth
  refine requireBiasType_meets_next hfails quantized ?_
  refine .attempt (fun e _ => hfails e) fun _ _ => .attempt (fun e _ => hfails e) fun _ _ =>
    .attempt (fun e _ => hfails e) fun _ _ => ?_
  rw [hx.rank, hw.rank]
  split
  next => exact hfails _
  next hrank =>
  split
  next => exact hfails _
  next hranks =>
  refine .bind (geometryOf_meets hfails op _) ?_
  rintro geo _ - ⟨rfl, hgeo, hungrouped⟩
  refine .attempt (fun e _ => hfails e) fun acc hacc => ?_
  rw [← hx.type.dtype] at hacc
  refine .bind (normalize_meets hx) ?_
  rintro input s₁ hle₁ ⟨hinput, hstatic⟩
  refine .bind (normalize_meets (hw.mono hle₁)) ?_
  rintro weight s₂ hle₂ ⟨hweight, hstatic'⟩
  refine .pure ⟨geo, hgeo, ⟨by omega, not_not.1 hranks⟩, ⟨hinput.mono hle₂, hweight, hsame, rfl,
    DType.accumulator_eq_ok.1 hacc, hungrouped⟩, fun hpinned => ?_⟩
  exact ⟨(hstatic hpinned.1).mono hle₂, hstatic' (hpinned.2.mono hle₁)⟩

/-- The value around the input. -/
theorem padding_meets (h : p.Declared s geo x w zx zw) :
    p.padding.Meets l s fun v s' => s'.HasScalar v (x.blank zx) := by
  have hzero := h.input.zeroPoint
  unfold padding
  rw [← h.input.type.dtype]
  generalize p.input.zeroPoint = v at hzero
  rw [Tensor.blank]
  generalize zx.map x.dtype.storedZero = z at hzero
  cases hzero with
  | none =>
      refine scalar_meets.weaken fun v s' _ hv => ?_
      rwa [Scalar.toDouble_zero] at hv
  | some hv => exact (scalarCast_gives hv.number).meets_always

/-- The weight of a transposed convolution. -/
theorem reversedWeight_meets {channels filters : Nat} {kernel : List Nat}
    (h : s.HasTensor p.weight.value w) (hw : w.shape = channels :: filters :: kernel)
    (hrank : p.spatialRank = kernel.length) :
    p.reversedWeight.Meets l s fun v s' => s'.HasTensor v (w.reversed filters channels kernel) := by
  have hvalid : (Permutation.exchange kernel.length).IsValid w.shape.length := by
    rw [hw]
    exact Permutation.isValid_exchange kernel.length
  unfold reversedWeight
  rw [hrank]
  refine .bind (transpose_meets h hvalid) fun swapped s₁ hle₁ hswapped => mirror_meets hswapped ?_
  rw [Tensor.shape_transposed, hw]
  exact Permutation.apply_exchange rfl

/-- A bias is a vector that can be stretched to the filters. -/
def Stretches (bias : Option Tensor) (filters : Nat) : Prop :=
  ∀ b ∈ bias, b.shape = [1] ∨ b.shape = [filters]

/-- Products are added to the bias, stretched to the filters, or to zero. -/
theorem initial_meets {v : Option ValueId} {zs : List Size} {n filters : Nat} {out : List Nat}
    (hfails : ∀ e, l.fails e) (hbias : Option.Rel (fun v b => s.HasTensor v b) v bias)
    (hz : s.AreSizes l zs (n :: filters :: out))
    (hwrong : ¬ (Stretches bias filters ∧ ¬ TooLarge (n :: filters :: out)) → ∀ e, l.stops e) :
    (p.initial v zs).Meets l s fun v' s' =>
      s'.HasTensor v' (.ofEntries p.accumulator (n :: filters :: out) fun ix =>
        biasEntry (bias.map (·.stretched [filters])) (ix.getD 1 0)) ∧
      Stretches bias filters ∧ ¬ TooLarge (n :: filters :: out) := by
  unfold initial
  cases hbias with
  | none =>
      have hnone : Stretches none filters := nofun
      exact (zeros_meets hz.haveSizes fun hlarge => hwrong fun h => h.2 hlarge).weaken
        fun v s' _ hv => ⟨hv.1, hnone, hv.2⟩
  | @some v b hb =>
      refine .tensorType hb fun type _ htype => ?_
      split
      next => exact hfails _
      next hrank =>
      obtain ⟨m, hm⟩ : ∃ m, b.shape = [m] := by
        refine List.length_eq_one_iff.1 (htype.admits.1.trans ?_)
        exact not_not.1 hrank
      have hstretches : Stretches (some b) filters ↔ m = 1 ∨ m = filters := by
        refine ⟨fun h => ?_, fun h b' hb' => ?_⟩
        · simpa [hm] using h b rfl
        · cases hb'
          simpa [hm] using h
      rw [hstretches] at hwrong
      refine .bind (convert_meets hb) fun b' s₁ hle₁ hb' => ?_
      refine (broadcast_meets hb' hm (hz.mono hle₁) hwrong).weaken ?_
      rintro v' s₂ - ⟨hv, hor, hfit⟩
      refine ⟨hv.of_eq ?_, hstretches.2 hor, hfit⟩
      rw [Tensor.stretched_converted _ (hm ▸ stretchesTo_singleton.2 hor)]
      exact Tensor.alongChannels_converted (b.stretched [filters]) rfl

end ConvPlan

open ConvPlan

/-- The steps of the rule once there are a buffer and a weight to slide over it. -/
theorem slideOver_meets {c : ConvolutionSizes} {z z' : ConvSizes} {buffer kernel : ValueId}
    {b t : Tensor} {ch : Nat} {padded out : List Nat} {sizes : List Size} {v : Option ValueId}
    (hl : ∀ value, l.considers value → value.Small) (hfails : ∀ e, l.fails e)
    (hp : p.Declared s geo x w zx zw) (hframed : c.Framed geo t padded out)
    (hb : s.HasTensor buffer b) (ht : s.HasTensor kernel t)
    (hshape : b.shape = c.batch :: ch :: padded) (hbuffer : ¬ TooLarge b.shape)
    (hweight : ¬ TooLarge c.weightShape)
    (hbias : Option.Rel (fun v b => s.HasTensor v b) v bias)
    (hz : s.AreSizes l sizes (c.outputShape out))
    (hsizes : c.groups ≠ 1 → s.IsSize l z.channels ch ∧
      s.IsSize l z'.outer (c.groups * c.filters : Nat) ∧ s.IsSize l z'.channels c.channels)
    (hdvd : c.groups ∣ ch)
    (hwrong : ¬ (c.Agrees ch padded out ∧ Stretches bias (c.groups * c.filters) ∧
      result.shape.Admits (c.outputShape out)) → ∀ e, l.stops e) :
    (p.slideOver config v result z z' sizes buffer kernel).Meets l s fun v s' =>
      (c.Agrees ch padded out ∧ Stretches bias (c.groups * c.filters) ∧
        result.shape.Admits (c.outputShape out)) ∧
        s'.env.get? v = some (.tensor ((c.slide (geo.moves.zip geo.dilation) p.accumulator b t
          (storedZeros x w zx zw) (bias.map (·.stretched [c.groups * c.filters])) out).converted
            result.dtype)) := by
  obtain rfl := hp.geometry
  refine .bind (initial_meets hfails hbias hz fun hno => hwrong fun h =>
    hno ⟨h.2.1, h.1.fits.outputShape⟩) ?_
  rintro init s₁ hle₁ ⟨hinit, hstretches, hout⟩
  have hp₁ := hp.mono hle₁
  obtain ⟨hzeros, hquantized⟩ := hp₁.input.storedZeros hp₁.quantized hp₁.weight
  have hloaded : c.Loaded p s₁ buffer kernel init b t (storedZeros x w zx zw) ch padded out
      p.accumulator (bias.map (·.stretched [c.groups * c.filters])) :=
    ⟨hzeros, hquantized, hframed, hb.mono hle₁, ht.mono hle₁, hinit, hshape, hbuffer, hweight, hout⟩
  refine .bind (run_meets hl hfails hloaded (fun hmany => ?_) hdvd fun hno => hwrong fun h =>
    hno h.1) ?_
  · obtain ⟨hch, houter, hinner⟩ := hsizes hmany
    exact ⟨hch.mono hle₁, houter.mono hle₁, hinner.mono hle₁⟩
  rintro value s₂ - ⟨hagrees, hvalue⟩
  refine (finish_meets hvalue (fun _ => hfails) fun hno _ => hwrong fun h => hno h.2.2).weaken ?_
  rintro v' s₃ - ⟨hget, hadmits⟩
  exact ⟨⟨hagrees, hstretches, hadmits⟩, hget⟩

end TensorLowering
