import TensorLowering.Proofs.Convolution.DeclaredRules
import TensorLowering.Proofs.Convolution.Quantized

/-!
# Convolutions of operands whose sizes are known

Which channels the weight takes, and how many entries the bias has, is not compared while the
program is built. Main statement: where these fit, and every size of the operands is declared, the
rule fails or gives a tensor of the declared type.
-/
namespace TensorLowering

open Numeric NdArray Stage Build ConvolutionSizes

variable {s : Stage} {op : Convolution} {geo : ConvGeometry} {x w : Tensor}
  {zx zw : Option Binary64} {bias : Option Tensor} {config : LoweringConfig} {result : TensorType}

namespace ConvGeometry

/-- The weight takes the channels that the input has, those of one group unless it is transposed. -/
def ChannelsMeet (geo : ConvGeometry) (x w : Tensor) : Prop :=
  if geo.transposed then w.shape[0]? = x.shape[1]?
  else x.shape[1]? = w.shape[1]?.map (geo.groups.toNat * ·)

/-- How many filters the weight has. -/
def filters? (geo : ConvGeometry) (w : Tensor) : Option Nat :=
  if geo.transposed then w.shape[1]? else w.shape[0]?

end ConvGeometry

/-- What the rule does not compare fits: the channels, and the bias if it is a vector. Windows can
be moved over what arrays hold, and doubles hold the sizes that tensors are made with. -/
structure ConvGeometry.Suits (geo : ConvGeometry) (config : LoweringConfig) (x w : Tensor)
    (bias : Option Tensor) : Prop where
  channels : geo.ChannelsMeet x w
  bias : ∀ b ∈ bias, ∀ m, b.shape = [m] → m = 1 ∨ geo.filters? w = some m
  fits : ∀ c : ConvolutionSizes, c.Arranges geo x w → c.WindowsFit geo
  exact : ∀ c : ConvolutionSizes, c.Arranges geo x w → c.WindowsExact geo config

namespace ConvolutionSizes

variable {c : ConvolutionSizes} {ch : Nat}

theorem Shapes.arranges_of_meet (h : c.Shapes geo x w ch) (hmeet : geo.ChannelsMeet x w) :
    c.Arranges geo x w := by
  refine h.arranges ?_
  have hgroups := h.groups
  unfold ConvGeometry.ChannelsMeet at hmeet
  rw [h.inputShape, h.weightShape, storedWeight] at hmeet
  split at hmeet
  next ht => simpa using hmeet.symm
  next => simpa [ConvolutionSizes.weightShape, hgroups] using hmeet

theorem Arranges.filters?_eq (h : c.Arranges geo x w)
    (hungrouped : geo.transposed = true → geo.groups ≤ 1) (hpos : 1 ≤ geo.groups) :
    geo.filters? w = some (c.groups * c.filters) := by
  have hgroups := h.groups
  unfold ConvGeometry.filters?
  rw [h.weightShape, storedWeight]
  split
  next ht =>
    have hone : c.groups = 1 := by
      have hle := hungrouped ht
      omega
    simp [hone]
  next => rfl

theorem Arranges.normalized (h : c.Arranges geo x w) (zx zw : Option Binary64) :
    c.Arranges geo (x.normalized zx) (w.normalized zw) :=
  ⟨h.groups, h.kernel, (x.shape_normalized zx).trans h.inputShape,
    (w.shape_normalized zw).trans h.weightShape⟩

end ConvolutionSizes

/-- A plan of operands that are declared with every size. -/
theorem ConvPlan.Declared.planned {p : ConvPlan} (h : p.Declared s geo x w zx zw)
    (hx : s.Pinned p.input (x.normalized zx)) (hw : s.Pinned p.weight (w.normalized zw)) :
    p.Planned s geo x.dtype (x.normalized zx) (w.normalized zw) (storedZeros x w zx zw) := by
  have hsame := h.quantized
  refine ⟨⟨?_, ?_⟩, h.geometry, h.accumulator, h.ungrouped⟩
  · have hzeros : (storedZeros x w zx zw).map Prod.fst = zx.map x.dtype.storedZero := by
      cases zx <;> cases zw <;> first | rfl | cases hsame
    exact hzeros ▸ h.input.hasOperand hx
  · have hzeros : (storedZeros x w zx zw).map Prod.snd = zw.map w.dtype.storedZero := by
      cases zx <;> cases zw <;> first | rfl | cases hsame
    exact hzeros ▸ h.weight.hasOperand hw

theorem ConvPlan.hasBias_of_holds {v : Option ValueId} (filters : Nat)
    (h : Option.Rel (fun v b => s.Holds v b) v bias)
    (hstretches : ∀ b ∈ bias, ∀ m, b.shape = [m] → m = 1 ∨ m = filters) :
    HasBias s v filters (bias.map (·.stretched [filters])) := by
  cases h with
  | none => exact .none
  | @some v b hb => exact .some ⟨b, hb, hstretches b rfl, rfl⟩

/-- The steps of the rule once it knows how the operands are arranged. -/
theorem windows_gives {p : ConvPlan} {c : ConvolutionSizes} {dtype : DType}
    {zs : Option (Binary64 × Binary64)} {z z' : ConvSizes} {padding : ValueId} {v : Binary64}
    (hp : p.Planned s geo dtype x w zs)
    (hbias : ConvPlan.HasBias s op.bias (c.groups * c.filters) bias)
    (hz : ConvSizes.Reads s z c.batch (c.groups * c.channels) c.input)
    (hz' : ∀ o i, w.shape = o :: i :: c.kernel → ConvSizes.Reads s z' o i c.kernel)
    (hpadding : s.HasScalar padding v) (hround : x.dtype.round v = v)
    (hvalid : geo.Valid c.input.length) (hc : c.Arranges geo x w) (hfits : c.WindowsFit geo)
    (hexact : c.WindowsExact geo config) :
    (p.windows config op.bias result z z' padding).Gives (fun _ => True) s fun v' s' =>
      ∃ t, s'.env.get? v' = some (.tensor t) ∧ t.HasType result := by
  have hshape := hc.weightShape
  unfold ConvolutionSizes.storedWeight at hshape
  unfold WindowsFit at hfits
  unfold WindowsExact at hexact
  rw [ConvPlan.windows, hp.geometry]
  split
  next ht =>
    rw [if_pos ht] at hshape hfits hexact
    refine (spreadWindows_gives hp hbias hz (hz' _ _ hshape) hpadding hvalid hc ht hfits
      hexact).weaken ?_
    rintro v' s' - ⟨acc, out, -, -, -, hget, hadmits⟩
    exact ⟨_, hget, rfl, hadmits⟩
  next ht =>
    rw [if_neg ht] at hshape hfits hexact
    have hstandard : geo.transposed = false := by simpa using ht
    refine (paddedWindows_gives hp hbias hz (hz' _ _ hshape) hpadding hround hvalid
      (hc.describes hstandard) hfits hexact).weaken ?_
    rintro v' s' - ⟨acc, out, -, -, hget, hadmits⟩
    exact ⟨_, hget, rfl, hadmits⟩

namespace Rule

theorem lowerConvolution_known {xi wi : OperandInfo}
    (hxi : OperandInfo.extract s.graph op.input = .ok xi)
    (hwi : OperandInfo.extract s.graph op.weight = .ok wi) (hx : s.Reads xi x zx)
    (hw : s.Reads wi w zw) (hxp : s.Pinned xi x) (hwp : s.Pinned wi w)
    (hbias : Option.Rel (fun v b => s.Holds v b) op.bias bias) (hxfit : ¬ TooLarge x.shape)
    (hwfit : ¬ TooLarge w.shape)
    (hsuits : ∀ geo, ConvGeometry.ofConvolution op (x.shape.length - 2) = .ok geo →
      geo.Suits config x w bias) :
    (lowerConvolution config op result).Gives (fun _ => True) s fun v s' =>
      ∃ t, s'.env.get? v = some (.tensor t) ∧ t.HasType result := by
  refine Gives.bind (ConvPlan.ofConvolution_meets (l := .failing fun _ => True)
    (fun _ => trivial) hxi hwi hx hw).gives ?_
  rintro p s₁ hle₁ ⟨geo, hgeo, ⟨hrank, hranks⟩, hp, hpinned⟩
  obtain ⟨hxp₁, hwp₁⟩ := hpinned ⟨hxp, hwp⟩
  have hplanned := hp.planned hxp₁ hwp₁
  have hsuits := hsuits geo hgeo
  obtain ⟨n, m, input, hxshape⟩ := exists_outer x.shape (by omega)
  obtain ⟨n', m', kernel, hwshape⟩ := exists_outer w.shape (by omega)
  have hkernel : kernel.length = input.length := by simpa [hxshape, hwshape] using hranks
  have hvalid : geo.Valid input.length := by
    have hvalid := ConvGeometry.valid_of_ofConvolution hgeo
    rwa [hxshape] at hvalid
  have hxlt : ∀ n ∈ (x.normalized zx).shape, n < 0x8000000000000000 := by
    rw [Tensor.shape_normalized]
    exact fun n hn => lt_of_mem_of_not_tooLarge hxfit hn
  have hwlt : ∀ n ∈ (w.normalized zw).shape, n < 0x8000000000000000 := by
    rw [Tensor.shape_normalized]
    exact fun n hn => lt_of_mem_of_not_tooLarge hwfit hn
  have hx' := (x.shape_normalized zx).trans hxshape
  have hw' := (w.shape_normalized zw).trans hwshape
  apply convolve_gives hplanned hvalid hx' hw' hkernel hxlt hwlt
  intro s₂ z z' padding hle₂ hm hn' hz hz' hpadding
  obtain ⟨c, hc, rfl, rfl, rfl⟩ := exists_shapes hvalid.groups_pos hxshape hwshape hkernel hm hn'
  have hungrouped := hp.ungrouped
  have harranges := hc.arranges_of_meet hsuits.channels
  have hfilters := harranges.filters?_eq hungrouped hvalid.groups_pos
  have hfits := hsuits.fits c harranges
  have hexact := hsuits.exact c harranges
  obtain rfl := hc.channels harranges
  have hbias₁ : Option.Rel (fun v b => s₂.Holds v b) op.bias bias :=
    rel_imp (fun _ _ hb => Holds.mono hb (hle₁.trans hle₂)) hbias
  have hbias₂ := ConvPlan.hasBias_of_holds (c.groups * c.filters) hbias₁
    fun b hb m hm => (hsuits.bias b hb m hm).imp_right fun h =>
      Option.some.inj (h.symm.trans hfilters)
  refine windows_gives (hplanned.mono hle₂) hbias₂ hz ?_ hpadding (DType.round_round _ _) hvalid
    (harranges.normalized zx zw) hfits hexact
  intro o i hshape
  have hsame := hwshape.symm.trans ((w.shape_normalized zw).symm.trans hshape)
  simp only [List.cons.injEq, and_true] at hsame
  obtain ⟨rfl, rfl⟩ := hsame
  exact hz'

end Rule

end TensorLowering
