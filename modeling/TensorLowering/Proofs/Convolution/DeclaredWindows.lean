import TensorLowering.Proofs.Build.DeclaredLayouts
import TensorLowering.Proofs.Convolution.Standard
import TensorLowering.Proofs.Convolution.Spreading

/-!
# Windows over sizes that are open

The sizes of the output and of the buffer are computed by index arithmetic where sizes are open.
Main statements: as far as the program goes on, both are the sizes that known sizes give, and the
buffer holds what it holds then.
-/
namespace TensorLowering

open Numeric NdArray Stage Build

variable {l : Limits} {s s' : Stage} {geo : ConvGeometry} {g : AxisGeometry} {z z' : Size}
  {input kernel : List Nat}

/-! ## Sizes of operands -/

namespace ConvSizes

/-- The sizes have these values. -/
structure Measures (sizes : ConvSizes) (s : Stage) (l : Limits) (outer channels : Nat)
    (spatial : List Nat) : Prop where
  outer : s.IsSize l sizes.outer outer
  channels : s.IsSize l sizes.channels channels
  spatial : s.AreSizes l sizes.spatial spatial

variable {sizes : ConvSizes} {outer channels : Nat} {spatial : List Nat}

theorem Measures.mono (h : sizes.Measures s l outer channels spatial) (hle : s ≤ s') :
    sizes.Measures s' l outer channels spatial :=
  ⟨h.outer.mono hle, h.channels.mono hle, h.spatial.mono hle⟩

/-- The sizes of the spatial axes are known. -/
def Known (sizes : ConvSizes) (spatial : List Nat) : Prop :=
  sizes.spatial.map Size.known = spatial.map fun n : Nat => some (n : Int)

theorem read_meets (hl : ∀ value, l.considers value → value.Small) {v : ValueId} {t : Tensor}
    {k : Nat} (hv : s.HasTensor v t) (ht : t.shape = outer :: channels :: spatial)
    (hk : spatial.length = k) (hlt : ∀ n ∈ t.shape, n < 0x8000000000000000) :
    (read v k).Meets l s fun z s' =>
      z.Measures s' l outer channels spatial ∧ (s.Holds v t → z.Known spatial) := by
  have hspatial : (List.range' 2 k).mapM (t.shape[·]?) = some spatial := by
    have hmap : (List.range' [outer, channels].length spatial.length).mapM
        (([outer, channels] ++ spatial ++ [])[·]?) = some spatial := mapM_getElem?_range'
    rw [List.append_nil] at hmap
    rw [← hk, ht]
    exact hmap
  unfold read
  refine .bind (dim_meets (n := outer) hv (by rw [ht]; rfl) (hlt _ (by simp [ht]))
    (.of_small hl _)) ?_
  rintro zo s₁ hle₁ ⟨hzo, -⟩
  refine .bind (dim_meets (n := channels) (hv.mono hle₁) (by rw [ht]; rfl) (hlt _ (by simp [ht]))
    (.of_small hl _)) ?_
  rintro zc s₂ hle₂ ⟨hzc, -⟩
  refine .bind (mapM_dim_meets (hv.mono (hle₁.trans hle₂)) hspatial
    (fun n hn => hlt n (by simp [ht, hn])) fun n _ => .of_small hl _) ?_
  rintro zs s₃ hle₃ ⟨hzs, hknown⟩
  exact .pure ⟨⟨hzo.mono (hle₂.trans hle₃), hzc.mono hle₃, hzs⟩,
    fun hholds => hknown (hholds.mono (hle₁.trans hle₂))⟩

end ConvSizes

/-! ## One axis -/

namespace AxisGeometry

/-- The numbers of an axis are in their ranges. -/
structure Valid (g : AxisGeometry) : Prop where
  padding : 0 ≤ g.padding
  stride : 1 ≤ g.stride
  dilation : 1 ≤ g.dilation
  outputPadding : 0 ≤ g.outputPadding

theorem Valid.transposes (h : g.Valid) (ht : g.transposed = true) : g.Transposes :=
  ⟨ht, h.padding, h.stride, h.dilation, h.outputPadding⟩

/-- The size along the axis of what windows move over. -/
def bufferSize (g : AxisGeometry) (n k : Int) : Int :=
  if g.transposed then g.transposedBufferSize n k else n + 2 * g.padding

/-- There is an output, and an array can have the size of the buffer. -/
structure Fits (g : AxisGeometry) (n k : Nat) : Prop where
  output : ∃ m : Nat, g.outputSize? n k = some (m : Int)
  offset : g.transposed = true → 0 ≤ g.transposedOffset k
  buffer : g.bufferSize n k < 0x8000000000000000

variable {n k : Nat}

/-- The reach of a kernel stays within the buffer. -/
theorem Fits.reach_inInt64 (h : g.Fits n k) (hg : g.Valid)
    (hd : g.dilation.natAbs < 0x20000000000000) : InInt64 (((k : Int) + -1) * g.dilation) := by
  obtain ⟨m, hm⟩ := h.output
  have hbuffer := h.buffer
  have hdilation := hg.dilation
  have hpos : 0 ≤ (k : Int) * g.dilation := Int.mul_nonneg (by omega) (by omega)
  have hreach : ((k : Int) + -1) * g.dilation = k * g.dilation - g.dilation := by
    rw [Int.add_mul, Int.neg_one_mul, Int.sub_eq_add_neg]
  simp only [InInt64, minInt64, maxInt64]
  rw [bufferSize] at hbuffer
  split at hbuffer
  next ht =>
    have hsize := (hg.transposes ht).bufferSize_eq hm
    have hout := outputSize?_pos hm
    rw [Int.sub_mul, Int.one_mul] at hsize
    omega
  next ht =>
    have hstride := hg.stride
    rw [outputSize?, if_neg ht, convOutputSize?, if_neg (by omega)] at hm
    dsimp only at hm
    split at hm
    next hsome =>
      have hspan : 0 ≤ (n : Int) + 2 * g.padding - g.dilation * (k - 1) - 1 := by
        refine (Int.ediv_nonneg_iff_of_pos (by omega : 0 < g.stride)).1 ?_
        omega
      rw [Int.mul_comm g.dilation, Int.sub_mul, Int.one_mul] at hspan
      omega
    next => cases hm

/-- The spread input stays within the buffer. -/
theorem Fits.spread_inInt64 (h : g.Fits n k) (hg : g.Valid) (ht : g.transposed = true)
    (hs : g.stride.natAbs < 0x20000000000000) : InInt64 (((n : Int) + -1) * g.stride) := by
  have hbuffer := h.buffer
  have hoffset := h.offset ht
  have hpadding := hg.outputPadding
  have hstride := hg.stride
  have hpos : 0 ≤ (n : Int) * g.stride := Int.mul_nonneg (by omega) (by omega)
  have hspread : ((n : Int) + -1) * g.stride = n * g.stride - g.stride := by
    rw [Int.add_mul, Int.neg_one_mul, Int.sub_eq_add_neg]
  rw [bufferSize, if_pos ht, transposedBufferSize, Int.sub_mul, Int.one_mul] at hbuffer
  simp only [InInt64, minInt64, maxInt64]
  omega

section Meets

variable (hl : ∀ value, l.considers value → value.Small)
include hl

theorem reach_meets (h : g.Fits n k) (hg : g.Valid) (hk : s.IsSize l z k) :
    (g.reach z).Meets l s fun y s' => s'.IsSize l y ((k + -1) * g.dilation) :=
  .bind (addConst_meets hl hk (-1)) fun _ _ _ hy =>
    mulConst_meets hl hy fun hd => h.reach_inInt64 hg hd

theorem spread_meets (h : g.Fits n k) (hg : g.Valid) (ht : g.transposed = true)
    (hn : s.IsSize l z n) :
    (do mulConst (← addConst z (-1)) g.stride).Meets l s fun y s' =>
      s'.IsSize l y ((n + -1) * g.stride) :=
  .bind (addConst_meets hl hn (-1)) fun _ _ _ hy =>
    mulConst_meets hl hy fun hs => h.spread_inInt64 hg ht hs

theorem dynamicOutput_meets (h : g.Fits n k) (hg : g.Valid) (hn : s.IsSize l z n)
    (hk : s.IsSize l z' k) :
    (g.dynamicOutput z z').Meets l s fun y s' =>
      ∃ m : Nat, g.outputSize? n k = some (m : Int) ∧ s'.IsSize l y m := by
  obtain ⟨m, hm⟩ := h.output
  unfold dynamicOutput
  split
  next ht =>
    obtain ⟨hout, -⟩ := (hg.transposes ht).outputSize?_eq hm
    rw [← LawfulMonad.bind_assoc]
    refine .bind (spread_meets hl h hg ht hn) fun spread s₁ hle₁ hspread => ?_
    refine .bind (reach_meets hl h hg (hk.mono hle₁)) fun reach s₂ hle₂ hreach => ?_
    refine .bind (add_meets hl (hspread.mono hle₂) hreach) fun sum s₃ _ hsum => ?_
    refine (addConst_meets hl hsum _).weaken fun y s₄ _ hy => ⟨m, hm, ?_⟩
    have hsame : ((n : Int) + -1) * g.stride + ((k : Int) + -1) * g.dilation +
        (g.outputPadding + 1 - 2 * g.padding) = m := by
      rw [hout, Int.mul_comm g.dilation, ← Int.sub_eq_add_neg, ← Int.sub_eq_add_neg]
      omega
    rwa [hsame] at hy
  next ht =>
    have hstride := hg.stride
    refine .bind (reach_meets hl h hg hk) fun reach s₁ hle₁ hreach => ?_
    refine .bind (addConst_meets hl (hn.mono hle₁) _) fun padded s₂ hle₂ hpadded => ?_
    refine .bind (sub_meets hl hpadded (hreach.mono hle₂)) fun span s₃ _ hspan => ?_
    refine .bind (index_meets (.of_small hl _)) fun stride s₄ hle₄ hz => ?_
    refine .bind (floorDiv_meets hl (hspan.mono hle₄) hz.1 hg.stride) ?_
    intro windows s₅ _ hwindows
    refine (addConst_meets hl hwindows 1).weaken fun y s₆ _ hy => ⟨m, hm, ?_⟩
    rw [outputSize?, if_neg ht, convOutputSize?, if_neg (by omega)] at hm
    dsimp only at hm
    split at hm
    next =>
      have hsame : (n : Int) + (2 * g.padding - 1) - ((k : Int) + -1) * g.dilation =
          n + 2 * g.padding - g.dilation * (k - 1) - 1 := by
        rw [Int.mul_comm g.dilation, ← Int.sub_eq_add_neg]
        omega
      rwa [hsame, Option.some.inj hm] at hy
    next => cases hm

/-- The size of the output. It is computed by arithmetic unless both sizes are known. -/
theorem output_meets (hfails : ∀ e, l.fails e) {axis : Nat} (hg : g.Valid) (hn : s.IsSize l z n)
    (hk : s.IsSize l z' k)
    (h : g.Fits n k ∨ z.known = some (n : Int) ∧ z'.known = some (k : Int)) :
    (g.output axis z z').Meets l s fun y s' =>
      ∃ m : Nat, g.outputSize? n k = some (m : Int) ∧ s'.IsSize l y m := by
  unfold output
  split
  next n' k' hn' hk' =>
    obtain rfl := hn.known n' hn'
    obtain rfl := hk.known k' hk'
    split
    next size hsize =>
      have hpos := outputSize?_pos hsize
      have hcast : ((size.toNat : Nat) : Int) = size := Int.toNat_of_nonneg (by omega)
      refine (index_meets (.of_small hl size)).weaken fun y s' _ hy => ⟨size.toNat, ?_⟩
      rw [hcast]
      exact ⟨hsize, hy.1⟩
    next => exact hfails _
  next hopen =>
    rcases h with h | ⟨hn', hk'⟩
    · exact dynamicOutput_meets hl h hg hn hk
    · exact absurd hk' (hopen _ _ hn')

/-- Where the spread input begins, and the size of its buffer. -/
theorem placement_meets (hg : g.Valid) (ht : g.transposed = true) (hn : s.IsSize l z n)
    (hk : s.IsSize l z' k)
    (h : g.Fits n k ∨ z.known = some (n : Int) ∧ z'.known = some (k : Int)) :
    (g.placement z z').Meets l s fun r s' => s'.IsSize l r.1 (g.transposedOffset k) ∧
      s'.IsSize l r.2 (g.transposedBufferSize n k) := by
  unfold placement
  split
  next n' k' hn' hk' =>
    obtain rfl := hn.known n' hn'
    obtain rfl := hk.known k' hk'
    refine .bind (index_meets (.of_small hl _)) fun offset s₁ hle₁ hoffset => ?_
    refine .bind (index_meets (.of_small hl _)) fun size s₂ hle₂ hsize => ?_
    exact .pure ⟨hoffset.1.mono hle₂, hsize.1⟩
  next hopen =>
    rcases h with h | ⟨hn', hk'⟩
    · refine .bind (reach_meets hl h hg hk) fun reach s₁ hle₁ hreach => ?_
      refine .bind (addConst_meets hl hreach _) fun offset s₂ hle₂ hoffset => ?_
      rw [← LawfulMonad.bind_assoc]
      refine .bind (spread_meets hl h hg ht (hn.mono (hle₁.trans hle₂))) ?_
      intro spread s₃ hle₃ hspread
      have hoffset₃ := hoffset.mono hle₃
      refine .bind (mulConst_meets hl hoffset₃ fun _ => ?_) fun margins s₄ hle₄ hmargins => ?_
      · have hsmall := hoffset₃.lt hl
        simp only [InInt64, minInt64, maxInt64]
        omega
      refine .bind (add_meets hl hmargins (hspread.mono hle₄)) fun sum s₅ hle₅ hsum => ?_
      refine .bind (addConst_meets hl hsum _) fun size s₆ hle₆ hsize => ?_
      have hstart : ((k : Int) + -1) * g.dilation + -g.padding = g.transposedOffset k := by
        rw [transposedOffset, ← Int.sub_eq_add_neg, ← Int.sub_eq_add_neg]
      have htotal : g.transposedOffset k * 2 + ((n : Int) + -1) * g.stride +
          (1 + g.outputPadding) = g.transposedBufferSize n k := by
        rw [transposedBufferSize, ← Int.sub_eq_add_neg]
        omega
      rw [hstart] at hoffset₃ hsize
      rw [htotal] at hsize
      exact .pure ⟨hoffset₃.mono (hle₄.trans (hle₅.trans hle₆)), hsize⟩
    · exact absurd hk' (hopen _ _ hn')

end Meets

end AxisGeometry

/-! ## All axes -/

theorem ConvGeometry.Valid.axes {r : Nat} (h : geo.Valid r) : ∀ g ∈ geo.axes, g.Valid := by
  intro g hg
  obtain ⟨-, hp, hs, hd, ho⟩ := axis_valid h hg
  exact ⟨hp, hs, hd, ho⟩

/-- What is built for each spatial axis from its sizes. -/
theorem mapM_axes_meets {β : Type} {f : (AxisGeometry × Size × Size) × Nat → Build β}
    {r : AxisGeometry → Nat → Nat → β → Stage → Prop} {axes : List AxisGeometry}
    {zs zs' : List Size} {start : Nat}
    (hmono : ∀ g n k y s₁ s₂, s₁ ≤ s₂ → r g n k y s₁ → r g n k y s₂)
    (h : ∀ g ∈ axes, ∀ axis z z' (n k : Nat) s₁, s₁.IsSize l z n → s₁.IsSize l z' k →
      (g.Fits n k ∨ z.known = some (n : Int) ∧ z'.known = some (k : Int)) →
      (f ((g, z, z'), axis)).Meets l s₁ (r g n k))
    (hz : s.AreSizes l zs input) (hz' : s.AreSizes l zs' kernel)
    (hfits : (∀ e ∈ axes.zip (input.zip kernel), e.1.Fits e.2.1 e.2.2) ∨
      zs.map Size.known = input.map (fun n : Nat => some (n : Int)) ∧
        zs'.map Size.known = kernel.map fun n : Nat => some (n : Int)) :
    (((axes.zip (zs.zip zs')).zipIdx start).mapM f).Meets l s fun ys s' =>
      List.Forall₂ (fun (e : AxisGeometry × Nat × Nat) y => r e.1 e.2.1 e.2.2 y s')
        (axes.zip (input.zip kernel)) ys := by
  induction axes generalizing s zs zs' input kernel start with
  | nil => exact .pure .nil
  | cons g axes ih =>
      cases hz with
      | nil => exact .pure .nil
      | @cons z n zs input hfirst hrest =>
          cases hz' with
          | nil => exact .pure .nil
          | @cons z' k zs' kernel hfirst' hrest' =>
              simp only [List.zip_cons_cons, List.forall_mem_cons, List.map_cons,
                List.cons.injEq] at hfits
              rw [List.zip_cons_cons, List.zip_cons_cons, List.zipIdx_cons, List.mapM_cons]
              refine .bind (h g (by simp) _ _ _ _ _ s hfirst hfirst' ?_) fun y s₁ hle₁ hy => ?_
              · exact hfits.imp And.left fun hknown => ⟨hknown.1.1, hknown.2.1⟩
              refine .bind (ih (fun g hg => h g (by simp [hg])) (AreSizes.mono hrest hle₁)
                (AreSizes.mono hrest' hle₁) ?_) fun ys s₂ hle₂ hys => ?_
              · exact hfits.imp And.right fun hknown => ⟨hknown.1.2, hknown.2.2⟩
              exact .pure (.cons (hmono _ _ _ _ _ _ hle₂ hy) hys)

/-! ## The padded input -/

theorem AxisGeometry.exists_output {n k : Nat} {size : Nat}
    (h : (g.outputSize? n k).map Int.toNat = some size) :
    g.outputSize? n k = some (size : Int) := by
  obtain ⟨total, htotal, rfl⟩ := Option.map_eq_some_iff.1 h
  have hpos := outputSize?_pos htotal
  rw [htotal, Int.toNat_of_nonneg (by omega)]

/-- Axes along which there is an output and an array can have the padded sizes. -/
theorem fits_of_outputs {axes : List AxisGeometry} {out : List Nat}
    (haxes : ∀ g ∈ axes, g.transposed = false ∧ 0 ≤ g.padding)
    (hout : List.Forall₂ (fun (e : AxisGeometry × Nat × Nat) size =>
      (e.1.outputSize? e.2.1 e.2.2).map Int.toNat = some size) (axes.zip (input.zip kernel)) out)
    (hsizes : ∀ n ∈ paddedSizes input (axes.map (·.padding)), n < 0x8000000000000000) :
    ∀ e ∈ axes.zip (input.zip kernel), e.1.Fits e.2.1 e.2.2 := by
  induction axes generalizing input kernel out with
  | nil => simp
  | cons g axes ih =>
      cases input with
      | nil => simp
      | cons n input =>
          cases kernel with
          | nil => simp
          | cons k kernel =>
              cases hout with
              | cons hfirst hrest =>
                  simp only [paddedSizes, List.map_cons, List.zipWith_cons_cons,
                    List.forall_mem_cons] at hsizes haxes
                  refine List.forall_mem_cons.2 ⟨⟨⟨_, AxisGeometry.exists_output hfirst⟩,
                    fun ht => ?_, ?_⟩, ih haxes.2 hrest hsizes.2⟩
                  · exact absurd (haxes.1.1.symm.trans ht) Bool.false_ne_true
                  · rw [AxisGeometry.bufferSize, haxes.1.1, if_neg Bool.false_ne_true]
                    have hpadding := haxes.1.2
                    have hsize := hsizes.1
                    dsimp only
                    omega

variable {p : ConvPlan} {sizes sizes' : ConvSizes} {value : ValueId} {v : Binary64} {x : Tensor}
  {n m n' m' : Nat}

/-- The padded input, and the sizes of the output. -/
theorem ConvPlan.padInput_meets (hl : ∀ value, l.considers value → value.Small)
    (hfails : ∀ e, l.fails e) (hx : s.HasTensor p.input.value x)
    (hvalid : p.geometry.Valid input.length) (hstandard : p.geometry.transposed = false)
    (hshape : x.shape = n :: m :: input) (hz : sizes.Measures s l n m input)
    (hz' : sizes'.Measures s l n' m' kernel) (hvalue : s.HasScalar value v)
    (hround : x.dtype.round v = v) (hfit : ¬ TooLarge x.shape)
    (hlarge : TooLarge (n :: m :: paddedSizes input p.geometry.padding) → ∀ e, l.stops e)
    (hknown : (∃ out, p.geometry.outputs? input kernel = some out) ∨
      sizes.Known input ∧ sizes'.Known kernel) :
    (p.padInput sizes sizes' value).Meets l s fun r s' =>
      s'.HasTensor r.1 (x.padded p.geometry.edges v) ∧
        ¬ TooLarge (n :: m :: paddedSizes input p.geometry.padding) ∧
          ∃ out, p.geometry.outputs? input kernel = some out ∧ s'.AreSizes l r.2 out := by
  have hlen : p.geometry.edges.length = x.shape.length := by
    rw [hshape, ConvGeometry.edges, List.length_append, hvalid.padding]
    exact Nat.add_comm 2 input.length
  have hedges : ∀ e ∈ p.geometry.edges, 0 ≤ e := by
    intro e he
    rcases List.mem_append.1 he with he | he
    · simp at he
      omega
    · exact hvalid.padding_nonneg e he
  have hpadded : paddedSizes x.shape p.geometry.edges =
      n :: m :: paddedSizes input p.geometry.padding := by
    rw [hshape, paddedSizes_edges]
  unfold padInput
  refine .bind (pad_meets hx hvalue hround hlen hedges hfit (hpadded ▸ hlarge)) ?_
  rintro padded s₁ hle₁ ⟨hbuffer, hfits⟩
  replace hfits : ¬ TooLarge (n :: m :: paddedSizes input p.geometry.padding) := hpadded ▸ hfits
  refine .bind (mapM_axes_meets
    (r := fun g n k y s => ∃ m : Nat, g.outputSize? n k = some (m : Int) ∧ s.IsSize l y m)
    ?_ ?_ (hz.spatial.mono hle₁) (hz'.spatial.mono hle₁) (hknown.imp_left ?_)) ?_
  · rintro g n k y s₁ s₂ hle ⟨m, hm, hy⟩
    exact ⟨m, hm, hy.mono hle⟩
  · exact fun g hg axis z z' n k s₂ hn hk hfits =>
      g.output_meets hl hfails (hvalid.axes g hg) hn hk hfits
  · rintro ⟨out, hout⟩
    refine fits_of_outputs (fun g hg => ?_) (mapM_eq_some.1 hout) ?_
    · obtain ⟨ht, hp, -⟩ := p.geometry.axis_valid hvalid hg
      exact ⟨ht.trans hstandard, hp⟩
    · rw [← ConvGeometry.padding_eq hvalid]
      exact spatial_lt_of_not_tooLarge hfits
  · intro ys s₂ hle₂ hys
    obtain ⟨out, hout, hareSizes⟩ := exists_between hys
    exact .pure ⟨hbuffer.mono hle₂, hfits, out,
      mapM_eq_some.2 (hout.imp fun _ _ hm => by rw [hm]; rfl), hareSizes⟩

/-! ## The spread input -/

/-- The sizes of an axis of a transposed convolution have the values that known sizes give. -/
def SpreadAxis.Measures (a : SpreadAxis) (s : Stage) (l : Limits) (g : AxisGeometry) (n k : Nat) :
    Prop :=
  ∃ m : Nat, (0 ≤ g.transposedOffset k ∧ g.outputSize? n k = some (m : Int)) ∧
    s.IsSize l a.output m ∧ s.IsSize l a.offset (g.transposedOffset k).toNat ∧
      s.IsSize l a.size (g.transposedBufferSize n k).toNat

theorem SpreadAxis.Measures.mono {a : SpreadAxis} {n k : Nat} (h : a.Measures s l g n k)
    (hle : s ≤ s') : a.Measures s' l g n k := by
  obtain ⟨m, hfits, houtput, hoffset, hsize⟩ := h
  exact ⟨m, hfits, houtput.mono hle, hoffset.mono hle, hsize.mono hle⟩

theorem ConvPlan.spreadAxis_meets (hl : ∀ value, l.considers value → value.Small)
    (hfails : ∀ e, l.fails e) {axis n k : Nat} (hg : g.Valid) (ht : g.transposed = true)
    (hn : s.IsSize l z n) (hk : s.IsSize l z' k)
    (h : g.Fits n k ∨ z.known = some (n : Int) ∧ z'.known = some (k : Int)) :
    (spreadAxis g axis z z').Meets l s fun a s' => a.Measures s' l g n k := by
  unfold spreadAxis
  split
  next => exact hfails _
  next hchecked =>
    have hoffset : 0 ≤ g.transposedOffset k := by
      rcases h with h | ⟨-, hknown⟩
      · exact h.offset ht
      · simpa [hknown] using hchecked
    refine .bind (g.placement_meets hl hg ht hn hk h) ?_
    rintro ⟨offset, size⟩ s₁ hle₁ ⟨hstart, hsize⟩
    refine .bind (g.output_meets hl hfails hg (hn.mono hle₁) (hk.mono hle₁) h) ?_
    rintro output s₂ hle₂ ⟨m, hm, houtput⟩
    have hbuffer : 0 ≤ g.transposedBufferSize n k := by
      have hpos := AxisGeometry.outputSize?_pos hm
      have hp := hg.padding
      rw [(hg.transposes ht).bufferSize_eq hm]
      rw [AxisGeometry.transposedOffset] at hoffset
      omega
    refine .pure ⟨m, ⟨hoffset, hm⟩, houtput, ?_, ?_⟩
    · rw [Int.toNat_of_nonneg hoffset]
      exact hstart.mono hle₂
    · rw [Int.toNat_of_nonneg hbuffer]
      exact hsize.mono hle₂

/-- Axes of a transposed convolution of which an array can have the sizes of the buffer. -/
theorem Spreads.fits {axes : List AxisGeometry} {out : List Nat} (h : Spreads axes input kernel out)
    (hsizes : ∀ n ∈ bufferSizes axes input kernel, n < 0x8000000000000000) :
    ∀ e ∈ axes.zip (input.zip kernel), e.1.Fits e.2.1 e.2.2 := by
  induction h with
  | nil => simp
  | @cons g n k m axes input kernel out hg hoffset hout _ ih =>
      simp only [bufferSizes, List.zip_cons_cons, List.zipWith_cons_cons,
        List.forall_mem_cons] at hsizes ⊢
      refine ⟨⟨⟨m, hout⟩, fun _ => hoffset, ?_⟩, ih hsizes.2⟩
      have hsize := hsizes.1
      rw [AxisGeometry.bufferSize, if_pos hg.transposed]
      omega

/-- The spread input, and the sizes of the output. -/
theorem ConvPlan.spreadInput_meets (hl : ∀ value, l.considers value → value.Small)
    (hfails : ∀ e, l.fails e) (hx : s.HasTensor p.input.value x) (htype : x.HasType p.input.type)
    (hvalid : p.geometry.Valid input.length) (ht : p.geometry.transposed = true)
    (hshape : x.shape = n :: m :: input) (hkernel : kernel.length = input.length)
    (hz : sizes.Measures s l n m input) (hz' : sizes'.Measures s l n' m' kernel)
    (hvalue : s.HasScalar value v)
    (hlarge : TooLarge (n :: m :: bufferSizes p.geometry.axes input kernel) → ∀ e, l.stops e)
    (hknown : (∃ out, Spreads p.geometry.axes input kernel out ∧
        ¬ TooLarge (n :: m :: bufferSizes p.geometry.axes input kernel)) ∨
      sizes.Known input ∧ sizes'.Known kernel) :
    (p.spreadInput sizes sizes' value).Meets l s fun r s' =>
      s'.HasTensor r.1 (x.spread p.geometry n m input kernel v) ∧
        ¬ TooLarge (n :: m :: bufferSizes p.geometry.axes input kernel) ∧
          ∃ out, Spreads p.geometry.axes input kernel out ∧ s'.AreSizes l r.2 out := by
  have hlen := ConvGeometry.length_axes hvalid
  refine .bind (index_meets (n := 0) (.of_small hl _)) fun zero s₁ hle₁ hzero => ?_
  refine .bind (mapM_axes_meets (r := fun g n k a s => a.Measures s l g n k)
    (fun _ _ _ _ _ _ hle h => h.mono hle) (fun g hg axis z z' n k s₂ hn hk hfits =>
      spreadAxis_meets hl hfails (hvalid.axes g hg) ?_ hn hk hfits) (hz.spatial.mono hle₁)
    (hz'.spatial.mono hle₁) (hknown.imp_left ?_)) ?_
  · exact (p.geometry.axis_valid hvalid hg).1.trans ht
  · rintro ⟨out, hspreads, hfit⟩
    exact hspreads.fits (spatial_lt_of_not_tooLarge hfit)
  intro axes s₂ hle₂ hmeasured
  obtain ⟨hoffsets, hsizes, out, hspreads, houtputs⟩ :=
    Spreads.of_axes (r := fun z n => s₂.IsSize l z n) hvalid ht rfl hkernel hmeasured
  have hle : s ≤ s₂ := hle₁.trans hle₂
  have hall : s₂.AreSizes l (sizes.outer :: sizes.channels :: axes.map SpreadAxis.size)
      (n :: m :: bufferSizes p.geometry.axes input kernel) :=
    .cons (hz.outer.mono hle) (.cons (hz.channels.mono hle) hsizes)
  have hstarts : s₂.AreSizes l (zero :: zero :: axes.map SpreadAxis.offset)
      (0 :: 0 :: bufferOffsets p.geometry.axes kernel) :=
    .cons (hzero.1.mono hle₂) (.cons (hzero.1.mono hle₂) hoffsets)
  rw [← htype.dtype]
  refine .bind (filled_meets hall.haveSizes (hvalue.mono hle) hlarge) ?_
  rintro buffer s₃ hle₃ ⟨hbuffer, hfit⟩
  have hlengths : (bufferOffsets p.geometry.axes kernel).length = input.length ∧
      (bufferSizes p.geometry.axes input kernel).length = input.length :=
    ⟨hspreads.length_offsets.trans hlen, hspreads.length_sizes.trans hlen⟩
  refine .bind (insertSlice_meets (hx.mono (hle.trans hle₃)) hbuffer rfl (hstarts.mono hle₃)
    ?_ ?_ ?_ ?_) fun spread s₄ hle₄ hspread => .pure ⟨hspread, hfit, out, hspreads, ?_⟩
  · rw [hshape, List.length_cons, List.length_cons, hlengths.1]
    rfl
  · rw [hshape, List.length_append, hvalid.stride]
    exact Nat.add_comm 2 input.length
  · rw [Tensor.shape_ofEntries, hshape, List.length_cons, List.length_cons, hlengths.2]
    rfl
  · rw [hshape]
    exact hspreads.slices_fit_all hvalid n m
  · exact AreSizes.mono houtputs (hle₃.trans hle₄)

end TensorLowering
