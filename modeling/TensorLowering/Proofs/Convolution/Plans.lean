import TensorLowering.Lowering.Convolution.Rule
import TensorLowering.Proofs.Build.Commits
import TensorLowering.Proofs.Conversion.PlainRules
import TensorLowering.Proofs.Convolution.Paths

/-!
# Preparations of a convolution

What a lowering of a convolution knows before its kernel runs: the plan, the sizes of the operands
and the tensor to which products are added. A lowering may fail at each of its checks.
-/
namespace TensorLowering

open Numeric NdArray Stage Build

variable {s s' : Stage} {p : ConvPlan} {x w : Tensor} {geo : ConvGeometry} {op : Convolution}
  {result : TensorType} {dtype : DType} {zs : Option (Binary64 × Binary64)}

theorem DType.accumulator_eq_ok {t acc : DType} :
    t.accumulator = .ok acc ↔ t.accumulator? = some acc := by
  unfold DType.accumulator
  cases t.accumulator? <;> simp

/-- A converted vector along the channel axis. -/
theorem Tensor.alongChannels_converted {n f : Nat} {out : List Nat} (b : Tensor)
    (hb : b.shape = [f]) :
    (b.converted dtype).alongChannels (n :: f :: out) =
      .ofEntries dtype (n :: f :: out) fun ix => b.entry [ix.getD 1 0] := by
  refine Tensor.ext_entry rfl rfl fun ix hix => ?_
  have hix' : InBounds (n :: f :: out) ix := hix
  obtain ⟨i, rest, rfl, -, hrest⟩ := inBounds_cons.1 hix'
  obtain ⟨j, o, rfl, hj, -⟩ := inBounds_cons.1 hrest
  have hbounds : InBounds b.shape [j] := by simp [hb, hj]
  have hround := Tensor.round_entry (b.converted dtype) [j]
  rw [Tensor.alongChannels, Tensor.entry_ofEntries hix', Tensor.entry_ofEntries hix']
  exact hround.trans (Tensor.entry_converted _ hbounds)

namespace ConvPlan

/-- A plan for operands of a known geometry, with the accumulator of a type. -/
structure Planned (p : ConvPlan) (s : Stage) (geo : ConvGeometry) (dtype : DType) (x w : Tensor)
    (zs : Option (Binary64 × Binary64)) : Prop where
  ready : p.Ready s x w zs
  geometry : p.geometry = geo
  accumulator : dtype.accumulator? = some p.accumulator
  ungrouped : geo.transposed = true → geo.groups ≤ 1

theorem Planned.mono (h : p.Planned s geo dtype x w zs) (hle : s ≤ s') :
    p.Planned s' geo dtype x w zs :=
  ⟨h.ready.mono hle, h.geometry, h.accumulator, h.ungrouped⟩

theorem requireBiasType_gives {bias : Option ValueId} :
    (requireBiasType bias).Gives (fun _ => True) s fun _ s' => s' = s := by
  unfold requireBiasType
  cases bias with
  | none => exact .pure rfl
  | some v =>
      refine .inquire fun type _ => ?_
      split
      next => exact .pure rfl
      next => exact trivial

/-- Whether or not there is a bias to check, the rest is the same. -/
theorem requireBiasType_gives_next {α : Type} {bias : Option ValueId} {next : Unit → Build α}
    {post : α → Stage → Prop} (quantized : Bool)
    (h : (next ()).Gives (fun _ => True) s post) :
    (if quantized = true then requireBiasType bias >>= next else next ()).Gives (fun _ => True) s
      post := by
  split
  · refine Gives.bind requireBiasType_gives ?_
    rintro ⟨⟩ s' - rfl
    exact h
  · exact h

theorem geometryOf_gives {r : Nat} (h : ConvGeometry.ofConvolution op r = .ok geo) :
    (geometryOf op r).Gives (fun _ => True) s fun geo' s' =>
      s' = s ∧ geo' = geo ∧ (geo.transposed = true → geo.groups ≤ 1) := by
  rw [geometryOf, h]
  dsimp only
  split
  next => exact trivial
  next hgroups =>
    refine .pure ⟨rfl, rfl, fun htransposed => ?_⟩
    rw [htransposed, Bool.true_and, decide_eq_true_eq] at hgroups
    omega

/-- A plan of operands that can be brought into the form that a reduction reads. -/
theorem ofConvolution_gives {xi wi : OperandInfo}
    (hx : OperandInfo.extract s.graph op.input = .ok xi)
    (hw : OperandInfo.extract s.graph op.weight = .ok wi) (hdtype : xi.type.dtype = dtype)
    (hrank : xi.rank = x.shape.length)
    (hgeo : ConvGeometry.ofConvolution op (x.shape.length - 2) = .ok geo)
    (hinput : xi.normalize.Gives (fun _ => True) s fun x' s' =>
      s'.HasOperand x' x (zs.map Prod.fst))
    (hweight : ∀ s', s ≤ s' → wi.normalize.Gives (fun _ => True) s' fun w' s'' =>
      s''.HasOperand w' w (zs.map Prod.snd)) :
    (ofConvolution op result).Gives (fun _ => True) s fun p s' =>
      p.Planned s' geo dtype x w zs := by
  refine .query hx (.query hw (.attempt fun quantized _ => ?_))
  refine requireBiasType_gives_next quantized ?_
  refine .attempt fun _ _ => .attempt fun _ _ => .attempt fun _ _ => ?_
  split
  next => exact trivial
  next =>
  split
  next => exact trivial
  next =>
  rw [hrank, hdtype]
  refine Gives.bind (geometryOf_gives hgeo) ?_
  rintro geo' s₁ - ⟨rfl, rfl, hgroups⟩
  refine .attempt fun acc hacc => ?_
  refine Gives.bind hinput fun input s₂ hle₂ hinput => ?_
  refine Gives.bind (hweight s₂ hle₂) fun weight s₃ hle₃ hweight => ?_
  exact .pure ⟨⟨hinput.mono hle₃, hweight⟩, rfl, DType.accumulator_eq_ok.1 hacc, hgroups⟩

/-- The value around the input, which is zero or the zero-point. -/
def padValue (zs : Option (Binary64 × Binary64)) : Binary64 := (zs.map Prod.fst).getD 0

theorem padding_gives {fails : LowerError → Prop} (h : p.Ready s x w zs) :
    p.padding.Gives fails s fun v s' => s'.HasScalar v (x.dtype.round (padValue zs)) := by
  have hzero := h.input.zeroPoint
  have hdtype : p.input.type.dtype = x.dtype := by rw [h.input.type, Tensor.dtype_type]
  unfold padding
  rw [hdtype]
  generalize p.input.zeroPoint = v at hzero
  cases zs with
  | none =>
      cases hzero
      refine scalar_gives.weaken fun v s' _ hv => ?_
      rwa [Scalar.toDouble_zero] at hv
  | some zs =>
      cases hzero with
      | some hv => exact scalarCast_gives hv.number

/-- The bias stretches to the given length if it is a vector, or there is none. -/
def HasBias (s : Stage) (v : Option ValueId) (filters : Nat) (bias : Option Tensor) : Prop :=
  Option.Rel (fun v b => ∃ t, s.Holds v t ∧ (∀ m, t.shape = [m] → m = 1 ∨ m = filters) ∧
    b = t.stretched [filters]) v bias

theorem HasBias.mono {v : Option ValueId} {filters : Nat} {bias : Option Tensor}
    (h : HasBias s v filters bias) (hle : s ≤ s') : HasBias s' v filters bias := by
  cases h with
  | none => exact .none
  | some h =>
      obtain ⟨t, ht, hshape⟩ := h
      exact .some ⟨t, ht.mono hle, hshape⟩

/-- Products are added to the bias along the channel axis, or to zero. -/
theorem initial_gives {v : Option ValueId} {bias : Option Tensor}
    {zs : List Size} {n filters : Nat} {out : List Nat} (hbias : HasBias s v filters bias)
    (hz : s.HasSizes zs (n :: filters :: out)) (hfit : ¬ TooLarge (n :: filters :: out)) :
    (p.initial v zs).Gives (fun _ => True) s fun v' s' =>
      s'.Holds v' (.ofEntries p.accumulator (n :: filters :: out) fun ix =>
        biasEntry bias (ix.getD 1 0)) := by
  unfold initial
  cases hbias with
  | none => exact zeros_gives hz hfit
  | @some v b h =>
      obtain ⟨t, ht, hstretches, rfl⟩ := h
      refine .tensorType ht ?_
      split
      next => exact trivial
      next hrank =>
      rw [not_not, Tensor.rank_type] at hrank
      obtain ⟨m, hm⟩ := List.length_eq_one_iff.1 hrank
      have hstretch := hstretches m hm
      refine Gives.bind (convert_gives ht) fun b' s₁ hle₁ hb' => ?_
      refine (broadcast_gives hb' hm (hz.mono hle₁) hstretch hfit).weaken fun v' s₂ _ hv =>
        hv.of_eq ?_
      rw [Tensor.stretched_converted _ (hm ▸ stretchesTo_singleton.2 hstretch)]
      exact (t.stretched [filters]).alongChannels_converted rfl

end ConvPlan

/-! ## Sizes of the operands -/

theorem requireDivisible_gives {size divisor : Size} {m n : Int} {what : String}
    (hm : size.known = some m) (hn : divisor.known = some n) :
    (requireDivisible size divisor what).Gives (fun _ => True) s fun _ s' => s' = s ∧ n ∣ m := by
  simp only [requireDivisible, hm, hn]
  split
  next => exact trivial
  next =>
    split
    next hdvd => exact .pure ⟨rfl, hdvd.2⟩
    next => exact trivial

namespace ConvSizes

/-- The sizes of a tensor with the given axes. -/
structure Reads (s : Stage) (z : ConvSizes) (outer channels : Nat) (spatial : List Nat) :
    Prop where
  outer : s.Knows z.outer outer
  channels : s.Knows z.channels channels
  spatial : s.KnowsSizes z.spatial spatial

theorem Reads.mono {z : ConvSizes} {outer channels : Nat} {spatial : List Nat}
    (h : Reads s z outer channels spatial) (hle : s ≤ s') : Reads s' z outer channels spatial :=
  ⟨h.outer.mono hle, h.channels.mono hle, h.spatial.mono hle⟩

theorem read_gives {fails : LowerError → Prop} {v : ValueId} {t : Tensor} {n m k : Nat}
    {spatial : List Nat} (hv : s.Holds v t) (ht : t.shape = n :: m :: spatial)
    (hk : spatial.length = k) (hlt : ∀ n ∈ t.shape, n < 0x8000000000000000) :
    (read v k).Gives fails s fun z s' => Reads s' z n m spatial := by
  have hspatial : (List.range' 2 k).mapM (t.shape[·]?) = some spatial := by
    have hmap : (List.range' [n, m].length spatial.length).mapM
        (([n, m] ++ spatial ++ [])[·]?) = some spatial := mapM_getElem?_range'
    rw [List.append_nil] at hmap
    rw [← hk, ht]
    exact hmap
  unfold read
  refine Gives.bind (dim_knows (n := n) hv (by rw [ht]; rfl) (hlt n (by simp [ht]))) ?_
  intro outer s₁ hle₁ houter
  refine Gives.bind (dim_knows (n := m) (hv.mono hle₁) (by rw [ht]; rfl)
    (hlt m (by simp [ht]))) ?_
  intro channels s₂ hle₂ hchannels
  refine Gives.bind (mapM_dim_knows (hv.mono (hle₁.trans hle₂)) hspatial
    fun n hn => hlt n (by simp [ht, hn])) ?_
  intro zs s₃ hle₃ hzs
  exact .pure ⟨houter.mono (hle₂.trans hle₃), hchannels.mono hle₃, hzs⟩

end ConvSizes

/-! ## Along the spatial axes -/

theorem exists_between {α β γ : Type} {r : α → γ → Prop} {q : γ → β → Prop} {xs : List α}
    {ys : List β} (h : List.Forall₂ (fun a b => ∃ c, r a c ∧ q c b) xs ys) :
    ∃ cs, List.Forall₂ r xs cs ∧ List.Forall₂ (fun b c => q c b) ys cs := by
  induction h with
  | nil => exact ⟨[], .nil, .nil⟩
  | cons hc _ ih =>
      obtain ⟨c, hr, hq⟩ := hc
      obtain ⟨cs, hrs, hqs⟩ := ih
      exact ⟨c :: cs, .cons hr hrs, .cons hq hqs⟩

/-- What is built for each spatial axis from its sizes. -/
theorem mapM_axes_gives {β : Type} {fails : LowerError → Prop}
    {f : (AxisGeometry × Size × Size) × Nat → Build β}
    {r : AxisGeometry → Nat → Nat → β → Stage → Prop} {axes : List AxisGeometry}
    {zs zs' : List Size} {input kernel : List Nat} {start : Nat}
    (hmono : ∀ g n k y s₁ s₂, s₁ ≤ s₂ → r g n k y s₁ → r g n k y s₂)
    (h : ∀ g ∈ axes, ∀ axis z z' (n k : Nat) s₁, s₁.Knows z n → s₁.Knows z' k →
      (f ((g, z, z'), axis)).Gives fails s₁ (r g n k))
    (hz : s.KnowsSizes zs input) (hz' : s.KnowsSizes zs' kernel) :
    (((axes.zip (zs.zip zs')).zipIdx start).mapM f).Gives fails s fun ys s' =>
      List.Forall₂ (fun (e : AxisGeometry × Nat × Nat) y => r e.1 e.2.1 e.2.2 y s')
        (axes.zip (input.zip kernel)) ys := by
  induction axes generalizing s zs zs' input kernel start with
  | nil => exact .pure .nil
  | cons g axes ih =>
      cases hz with
      | nil => exact .pure .nil
      | cons hfirst hrest =>
          cases hz' with
          | nil => exact .pure .nil
          | cons hfirst' hrest' =>
              rw [List.zip_cons_cons, List.zip_cons_cons, List.zipIdx_cons, List.mapM_cons]
              refine Gives.bind (h g (by simp) _ _ _ _ _ s hfirst hfirst') fun y s₁ hle₁ hy => ?_
              refine Gives.bind (ih (fun g hg => h g (by simp [hg])) (KnowsSizes.mono hrest hle₁)
                (KnowsSizes.mono hrest' hle₁)) fun ys s₂ hle₂ hys => ?_
              exact .pure (.cons (hmono _ _ _ _ _ _ hle₂ hy) hys)

theorem AxisGeometry.output_gives {g : AxisGeometry} {axis : Nat} {z z' : Size} {n k : Nat}
    (hn : z.known = some (n : Int)) (hk : z'.known = some (k : Int)) :
    (g.output axis z z').Gives (fun _ => True) s fun y s' =>
      ∃ size : Nat, (g.outputSize? n k).map Int.toNat = some size ∧ s'.Knows y size := by
  simp only [output, hn, hk]
  split
  next size hsize =>
    have hpos := outputSize?_pos hsize
    refine index_known.weaken fun y s' _ hy => ⟨size.toNat, by rw [hsize]; rfl, ?_⟩
    rwa [Int.toNat_of_nonneg (by omega)]
  next => exact trivial

/-! ## The operands of a convolution -/

/-- A convolution that can be planned, with the tensors that its plan reads and its bias. -/
structure Convolution.Operands (op : Convolution) (s : Stage) (geo : ConvGeometry) (dtype : DType)
    (x w : Tensor) (zs : Option (Binary64 × Binary64)) (filters : Nat) (bias : Option Tensor) :
    Prop where
  planned : ∀ result, (ConvPlan.ofConvolution op result).Gives (fun _ => True) s fun p s' =>
    p.Planned s' geo dtype x w zs
  bias : ConvPlan.HasBias s op.bias filters bias
  geometry : ConvGeometry.ofConvolution op (x.shape.length - 2) = .ok geo

/-- A convolution of operands that are not quantized, with the tensors that they hold and a geometry
that is known. -/
structure Graph.HasConvolution (g : Graph) (env : Env) (op : Convolution)
    (geo : ConvGeometry) (x w : Tensor) (filters : Nat) (bias : Option Tensor) : Prop where
  input : g.Plain env op.input x
  weight : g.Plain env op.weight w
  bias : Option.Rel (fun v b => g.tensorType v = .ok b.type ∧ env.get? v = some (.tensor b) ∧
    b.shape = [filters]) op.bias bias
  geometry : ConvGeometry.ofConvolution op (x.shape.length - 2) = .ok geo

theorem ConvPlan.hasBias_ofRun {g : Graph} {env : Env} {supply : Supply} {filters : Nat}
    {v : Option ValueId} {bias : Option Tensor} (h : g.evaluate supply = .ok env)
    (hbias : Option.Rel (fun v b => g.tensorType v = .ok b.type ∧
      env.get? v = some (.tensor b) ∧ b.shape = [filters]) v bias) :
    HasBias (Stage.ofRun h) v filters bias := by
  cases hbias with
  | none => exact .none
  | @some v b hb =>
      refine .some ⟨b, ⟨hb.1, hb.2.1⟩, fun m hm => .inr ?_, ?_⟩
      · simpa [hb.2.2] using hm.symm
      · rw [← hb.2.2, b.stretched_self]

theorem Graph.HasConvolution.operands {g : Graph} {env : Env} {supply : Supply} {filters : Nat}
    {bias : Option Tensor} (hop : g.HasConvolution env op geo x w filters bias)
    (h : g.evaluate supply = .ok env) :
    op.Operands (Stage.ofRun h) geo x.dtype x w none filters bias where
  planned result := by
    have hx : (Stage.ofRun h).HasOperand ⟨op.input, x.type, none⟩ x none :=
      ⟨rfl, hop.input.holds h, .none⟩
    have hw : (Stage.ofRun h).HasOperand ⟨op.weight, w.type, none⟩ w none :=
      ⟨rfl, hop.weight.holds h, .none⟩
    refine ConvPlan.ofConvolution_gives hop.input.extract hop.weight.extract rfl x.rank_type
      hop.geometry (.pure hx) fun s' hle => .pure (hw.mono hle)
  bias := ConvPlan.hasBias_ofRun h hop.bias
  geometry := hop.geometry

/-- The steps of the rule from its plan to where it arranges the operands. -/
theorem convolve_gives {config : LoweringConfig} {v : Option ValueId}
    {post : ValueId → Stage → Prop} {n m n' m' : Nat} {input kernel : List Nat}
    (hp : p.Planned s geo dtype x w zs) (hvalid : geo.Valid input.length)
    (hx : x.shape = n :: m :: input) (hw : w.shape = n' :: m' :: kernel)
    (hkernel : kernel.length = input.length) (hxlt : ∀ n ∈ x.shape, n < 0x8000000000000000)
    (hwlt : ∀ n ∈ w.shape, n < 0x8000000000000000)
    (hrest : ∀ s' z z' padding, s ≤ s' → geo.groups ∣ (m : Int) → geo.groups ∣ (n' : Int) →
      ConvSizes.Reads s' z n m input → ConvSizes.Reads s' z' n' m' kernel →
      s'.HasScalar padding (x.dtype.round (ConvPlan.padValue zs)) →
      (p.windows config v result z z' padding).Gives (fun _ => True) s' post) :
    (p.convolve config v result).Gives (fun _ => True) s post := by
  have hrank : p.spatialRank = input.length := by
    rw [ConvPlan.spatialRank, hp.geometry, ConvGeometry.spatialRank_of_valid hvalid]
  unfold ConvPlan.convolve
  rw [hrank]
  refine Gives.bind (ConvSizes.read_gives hp.ready.input.storage hx rfl hxlt) ?_
  intro z s₂ hle₂ hz
  refine Gives.bind (ConvSizes.read_gives (hp.ready.weight.storage.mono hle₂) hw hkernel hwlt) ?_
  intro z' s₃ hle₃ hz'
  refine Gives.bind index_known fun groups s₄ hle₄ hgroups => ?_
  have hz₄ := hz.mono (hle₃.trans hle₄)
  have hz'₄ := hz'.mono hle₄
  rw [hp.geometry] at hgroups
  refine Gives.bind (requireDivisible_gives hz₄.channels.known hgroups.known) ?_
  rintro ⟨⟩ s₅ - ⟨rfl, hm⟩
  refine Gives.bind (requireDivisible_gives hz'₄.outer.known hgroups.known) ?_
  rintro ⟨⟩ s₆ - ⟨rfl, hn'⟩
  have hle : s ≤ s₆ := hle₂.trans (hle₃.trans hle₄)
  refine Gives.bind (ConvPlan.padding_gives (hp.mono hle).ready) fun padding s₇ hle₇ hpadding => ?_
  exact hrest s₇ z z' padding (hle.trans hle₇) hm hn' (hz₄.mono hle₇) (hz'₄.mono hle₇) hpadding

/-- The steps of the rule before it arranges the operands. -/
theorem lowerConvolution_gives {config : LoweringConfig} {post : ValueId → Stage → Prop}
    {n m n' m' : Nat} {input kernel : List Nat} {filters : Nat} {bias : Option Tensor}
    (h : op.Operands s geo dtype x w zs filters bias) (hx : x.shape = n :: m :: input)
    (hw : w.shape = n' :: m' :: kernel) (hkernel : kernel.length = input.length)
    (hxlt : ∀ n ∈ x.shape, n < 0x8000000000000000) (hwlt : ∀ n ∈ w.shape, n < 0x8000000000000000)
    (hrest : ∀ (p : ConvPlan) s' z z' padding, p.Planned s' geo dtype x w zs →
      ConvPlan.HasBias s' op.bias filters bias → ConvSizes.Reads s' z n m input →
      ConvSizes.Reads s' z' n' m' kernel →
      s'.HasScalar padding (x.dtype.round (ConvPlan.padValue zs)) →
      (p.windows config op.bias result z z' padding).Gives (fun _ => True) s' post) :
    (Rule.lowerConvolution config op result).Gives (fun _ => True) s post := by
  have hvalid : geo.Valid input.length := by
    have hvalid := ConvGeometry.valid_of_ofConvolution h.geometry
    rwa [hx] at hvalid
  rw [Rule.lowerConvolution_eq]
  refine Gives.bind (h.planned result) fun p s₁ hle₁ hp => ?_
  refine convolve_gives hp hvalid hx hw hkernel hxlt hwlt fun s₂ z z' padding hle₂ _ _ => ?_
  exact hrest p s₂ z z' padding (hp.mono hle₂) (h.bias.mono (hle₁.trans hle₂))

/-- The steps of the rule once it has a buffer and a weight to slide over it. -/
theorem slideOver_gives {c : ConvolutionSizes} {config : LoweringConfig} {z z' : ConvSizes}
    {buffer kernel : ValueId} {b t : Tensor} {padded out : List Nat} {sizes : List Size}
    {v : Option ValueId} {bias : Option Tensor} (hp : p.Planned s geo dtype x w zs)
    (h : c.Buffered geo b t padded out)
    (hknown : c.groups ≠ 1 → z.channels.known = some ((c.groups * c.channels : Nat) : Int) ∧
      z'.outer.known = some ((c.groups * c.filters : Nat) : Int) ∧
      z'.channels.known = some (c.channels : Int))
    (hb : s.Holds buffer b) (ht : s.Holds kernel t)
    (hbias : ConvPlan.HasBias s v (c.groups * c.filters) bias)
    (hz : s.HasSizes sizes (c.outputShape out)) (hfits : c.BufferFits padded out)
    (hexact : c.BufferExact config padded out) :
    (p.slideOver config v result z z' sizes buffer kernel).Gives (fun _ => True) s fun v s' =>
        ∃ acc, dtype.accumulator? = some acc ∧
          s'.env.get? v = some (.tensor ((c.slide (geo.moves.zip geo.dilation) acc b t zs bias
            out).converted result.dtype)) ∧
          result.shape.Admits (c.outputShape out) := by
  obtain ⟨hready, rfl, hacc, -⟩ := hp
  refine Gives.bind (ConvPlan.initial_gives hbias hz hfits.outputShape) fun init s₁ hle₁ hinit => ?_
  refine Gives.bind (ConvPlan.run_gives (hready.mono hle₁) h hknown (hb.mono hle₁) (ht.mono hle₁)
    hinit hfits hexact) fun value s₂ hle₂ hvalue => ?_
  refine (finish_gives hvalue (.inl fun _ => trivial)).weaken fun v s₃ _ hfinish => ?_
  exact ⟨p.accumulator, hacc, hfinish.1, hfinish.2⟩

end TensorLowering
