import TensorLowering.Proofs.Convolution.Meetings
import TensorLowering.Proofs.Convolution.Plans

/-!
# Operands of transposed convolutions

The input is spread out in a buffer, and the weight is reversed: filters before channels, and every
kernel axis the other way round. Main statement: as integers, the windows of the buffer hold the
elements that are met there.
-/
namespace TensorLowering

open Numeric NdArray Stage Build

variable {fails : LowerError → Prop} {s : Stage} {p : ConvPlan} {c : ConvolutionSizes}
  {geo : ConvGeometry} {x w : Tensor} {input kernel out : List Nat}

/-! ## The reversed weight -/

namespace Permutation

/-- Exchanges the first two axes. -/
def exchange (r : Nat) : Permutation := ⟨1 :: 0 :: List.range' 2 r⟩

theorem isValid_exchange (r : Nat) : (exchange r).IsValid (r + 2) := by
  have hrest : (List.range' 2 r).Nodup := List.nodup_range'
  refine ⟨by simp [exchange], fun axis haxis => ?_, ?_⟩
  · simp only [exchange, List.mem_cons, List.mem_range'_1] at haxis
    omega
  · simp [exchange, hrest]

theorem apply_exchange {α : Type} [Inhabited α] {a b : α} {B : List α} {r : Nat}
    (hB : B.length = r) : (exchange r).apply (a :: b :: B) = b :: a :: B := by
  have hrest : (List.range' [a, b].length B.length).map (([a, b] ++ B ++ []).getD · default) = B :=
    map_getD_range' default
  rw [List.append_nil, hB] at hrest
  rw [apply, exchange, List.map_cons, List.map_cons]
  exact congrArg (fun rest => b :: a :: rest) hrest

end Permutation

/-- The weight with filters before channels and every kernel axis reversed. -/
def Tensor.reversed (w : Tensor) (filters channels : Nat) (kernel : List Nat) : Tensor :=
  (w.transposed (.exchange kernel.length)).mirrored filters channels kernel

theorem Tensor.entry_reversed {filters channels f q : Nat} {k : List Nat}
    (hw : w.shape = channels :: filters :: kernel) (hf : f < filters) (hq : q < channels)
    (hk : InBounds kernel k) :
    (w.reversed filters channels kernel).entry (f :: q :: k) =
      w.entry (q :: f :: NdArray.mirrored kernel k) := by
  have hvalid : (Permutation.exchange kernel.length).IsValid w.shape.length := by
    rw [hw]
    exact Permutation.isValid_exchange kernel.length
  have hmirrored := inBounds_mirrored hk
  have hin : InBounds w.shape (q :: f :: NdArray.mirrored kernel k) := by
    rw [hw]
    exact ⟨hq, hf, hmirrored⟩
  have hexchanged := Tensor.entry_transposed hvalid hin
  rw [Permutation.apply_exchange hmirrored.length_eq] at hexchanged
  have hix : InBounds (filters :: channels :: kernel) (f :: q :: k) := ⟨hf, hq, hk⟩
  rw [reversed, mirrored, entry_ofEntries hix, round_entry]
  exact hexchanged

theorem ConvPlan.reversedWeight_gives {channels filters : Nat} {zw : Option Binary64}
    (hp : s.HasOperand p.weight w zw) (hw : w.shape = channels :: filters :: kernel)
    (hrank : p.spatialRank = kernel.length) :
    p.reversedWeight.Gives fails s fun v s' => s'.Holds v (w.reversed filters channels kernel) := by
  have hvalid : (Permutation.exchange kernel.length).IsValid w.shape.length := by
    rw [hw]
    exact Permutation.isValid_exchange kernel.length
  unfold reversedWeight
  rw [hrank]
  refine Gives.bind (transpose_gives hp.storage hvalid) fun swapped s₁ hle₁ hswapped => ?_
  refine mirror_gives hswapped ?_
  rw [Tensor.shape_transposed, hw]
  exact Permutation.apply_exchange rfl

/-! ## The spread input -/

/-- The tensor spread out along its spatial axes in a larger one that is filled with a value. -/
def Tensor.spread (x : Tensor) (geo : ConvGeometry) (n ch : Nat) (input kernel : List Nat)
    (v : Binary64) : Tensor :=
  x.inserted (.ofEntries x.dtype (n :: ch :: bufferSizes geo.axes input kernel) fun _ => v)
    ((0 :: 0 :: bufferOffsets geo.axes kernel).map Int.ofNat) (1 :: 1 :: geo.stride)

/-- The axes of a transposed convolution. -/
theorem ConvGeometry.Valid.transposes {r : Nat} (h : geo.Valid r) (ht : geo.transposed = true) :
    ∀ g ∈ geo.axes, g.Transposes := by
  intro g hg
  obtain ⟨hsame, hp, hs, hd, ho⟩ := axis_valid h hg
  exact ⟨hsame.trans ht, hp, hs, hd, ho⟩

theorem bufferOffsets_eq (input : List Nat) {axes : List AxisGeometry}
    (h : input.length = axes.length) :
    bufferOffsets axes kernel =
      (axes.zip (input.zip kernel)).map fun e => (e.1.transposedOffset e.2.2).toNat := by
  induction axes generalizing input kernel with
  | nil => rfl
  | cons g axes ih =>
      cases input with
      | nil => simp at h
      | cons n input =>
          cases kernel with
          | nil => rfl
          | cons k kernel => exact congrArg (_ :: ·) (ih input (by simpa using h))

theorem bufferSizes_eq {axes : List AxisGeometry} :
    bufferSizes axes input kernel =
      (axes.zip (input.zip kernel)).map fun e => (e.1.transposedBufferSize e.2.1 e.2.2).toNat :=
  (List.map_uncurry_zip_eq_zipWith ..).symm

/-- What is known of an axis: the padding leaves something of the reach of the kernel, and there are
an output, a start and a size. -/
def SpreadAxis.Knows (a : SpreadAxis) (s : Stage) (g : AxisGeometry) (n k : Nat) : Prop :=
  ∃ m : Nat, (0 ≤ g.transposedOffset k ∧ g.outputSize? n k = some (m : Int)) ∧
    s.Knows a.output m ∧ s.Knows a.offset (g.transposedOffset k).toNat ∧
      s.Knows a.size (g.transposedBufferSize n k).toNat

theorem SpreadAxis.Knows.mono {a : SpreadAxis} {s' : Stage} {g : AxisGeometry} {n k : Nat}
    (h : a.Knows s g n k) (hle : s ≤ s') : a.Knows s' g n k := by
  obtain ⟨m, hfits, houtput, hoffset, hsize⟩ := h
  exact ⟨m, hfits, houtput.mono hle, hoffset.mono hle, hsize.mono hle⟩

theorem ConvPlan.spreadAxis_gives {g : AxisGeometry} {axis n k : Nat} {z z' : Size}
    (hg : g.Transposes) (hn : s.Knows z n) (hk : s.Knows z' k) :
    (spreadAxis g axis z z').Gives (fun _ => True) s fun a s' => a.Knows s' g n k := by
  unfold spreadAxis
  rw [hk.known]
  split
  next => exact trivial
  next hoffset =>
    have hoffset' : 0 ≤ g.transposedOffset k := by simpa using hoffset
    have hplace : (g.placement z z').Gives (fun _ => True) s fun r s' =>
        s'.Knows r.1 (g.transposedOffset k) ∧ s'.Knows r.2 (g.transposedBufferSize n k) := by
      unfold AxisGeometry.placement
      rw [hn.known, hk.known]
      refine Gives.bind index_known fun offset s₁ hle₁ hoffset => ?_
      refine Gives.bind index_known fun size s₂ hle₂ hsize => ?_
      exact .pure ⟨hoffset.mono hle₂, hsize⟩
    refine Gives.bind hplace ?_
    rintro ⟨offset, size⟩ s₁ hle₁ ⟨hoffset, hsize⟩
    refine Gives.bind (AxisGeometry.output_gives (hn.mono hle₁).known (hk.mono hle₁).known) ?_
    rintro output s₂ hle₂ ⟨m, hm, houtput⟩
    obtain ⟨size', hout, rfl⟩ := Option.map_eq_some_iff.1 hm
    have hpos := AxisGeometry.outputSize?_pos hout
    have hcast : ((size'.toNat : Nat) : Int) = size' := Int.toNat_of_nonneg (by omega)
    have hbuffer : 0 ≤ g.transposedBufferSize n k := by
      have hp := hg.padding
      rw [hg.bufferSize_eq hout]
      rw [AxisGeometry.transposedOffset] at hoffset'
      omega
    refine .pure ⟨size'.toNat, ⟨hoffset', by rw [hcast]; exact hout⟩, houtput, ?_, ?_⟩
    · rw [Int.toNat_of_nonneg hoffset']
      exact hoffset.mono hle₂
    · rw [Int.toNat_of_nonneg hbuffer]
      exact hsize.mono hle₂

/-- Axes that are spread out one by one, each with its start, its size and its output, spread out
the input. -/
theorem Spreads.of_axes {r : Size → Nat → Prop} {n : Nat} {as : List SpreadAxis}
    (hvalid : geo.Valid n) (ht : geo.transposed = true) (hinput : input.length = n)
    (hkernel : kernel.length = n)
    (h : List.Forall₂ (fun (e : AxisGeometry × Nat × Nat) (a : SpreadAxis) =>
      ∃ m : Nat, (0 ≤ e.1.transposedOffset e.2.2 ∧ e.1.outputSize? e.2.1 e.2.2 = some (m : Int)) ∧
        r a.output m ∧ r a.offset (e.1.transposedOffset e.2.2).toNat ∧
          r a.size (e.1.transposedBufferSize e.2.1 e.2.2).toNat)
      (geo.axes.zip (input.zip kernel)) as) :
    List.Forall₂ r (as.map SpreadAxis.offset) (bufferOffsets geo.axes kernel) ∧
      List.Forall₂ r (as.map SpreadAxis.size) (bufferSizes geo.axes input kernel) ∧
        ∃ out, Spreads geo.axes input kernel out ∧
          List.Forall₂ r (as.map SpreadAxis.output) out := by
  have hlen := (ConvGeometry.length_axes hvalid).symm
  refine ⟨?_, ?_, ?_⟩
  · rw [bufferOffsets_eq input (hinput.trans hlen)]
    refine List.forall₂_map_left_iff.2 (List.forall₂_map_right_iff.2 (h.imp ?_).flip)
    rintro e a ⟨m, -, -, hoffset, -⟩
    exact hoffset
  · rw [bufferSizes_eq]
    refine List.forall₂_map_left_iff.2 (List.forall₂_map_right_iff.2 (h.imp ?_).flip)
    rintro e a ⟨m, -, -, -, hsize⟩
    exact hsize
  · obtain ⟨out, hout, houtputs⟩ := exists_between (r := fun e (m : Nat) =>
      0 ≤ e.1.transposedOffset e.2.2 ∧ e.1.outputSize? e.2.1 e.2.2 = some (m : Int))
      (q := fun m (a : SpreadAxis) => r a.output m) (h.imp fun e a h => by
        obtain ⟨m, hfits, houtput, -⟩ := h
        exact ⟨m, hfits, houtput⟩)
    have hmem := (List.forall₂_and_left _ _).2
      ⟨fun e he => hvalid.transposes ht e.1 (List.of_mem_zip he).1, hout⟩
    exact ⟨out, .of_forall₂ (hinput.trans hlen) (hkernel.trans hlen) hmem,
      List.forall₂_map_left_iff.2 houtputs⟩

/-- The spread input fits its buffer, which has all the samples and channels. -/
theorem Spreads.slices_fit_all {r : Nat} (h : Spreads geo.axes input kernel out)
    (hvalid : geo.Valid r) (n m : Nat) :
    ∀ e ∈ (((0 :: 0 :: bufferOffsets geo.axes kernel).map Int.ofNat).zip (1 :: 1 :: geo.stride)).zip
      ((n :: m :: input).zip (n :: m :: bufferSizes geo.axes input kernel)),
      SliceFits e.2.1 e.2.2 e.1.1 e.1.2 := by
  have hunit : ∀ size : Nat, SliceFits size size 0 1 := by
    refine fun size => ⟨by omega, by omega, ?_⟩
    split <;> omega
  rw [ConvGeometry.stride_eq hvalid]
  exact List.forall_mem_cons.2 ⟨hunit n, List.forall_mem_cons.2 ⟨hunit m, h.slices_fit⟩⟩

/-- The spread input, and the sizes of the output. -/
theorem ConvPlan.spreadInput_gives {z z' : ConvSizes} {value : ValueId} {v : Binary64}
    {n m n' m' : Nat} {zx : Option Binary64} (hp : s.HasOperand p.input x zx)
    (hvalid : p.geometry.Valid input.length) (ht : p.geometry.transposed = true)
    (hx : x.shape = n :: m :: input) (hkernel : kernel.length = input.length)
    (hz : ConvSizes.Reads s z n m input) (hz' : ConvSizes.Reads s z' n' m' kernel)
    (hvalue : s.HasScalar value v)
    (hfit : ¬ TooLarge (n :: m :: bufferSizes p.geometry.axes input kernel))
    (hexact : ∀ a ∈ n :: m :: bufferSizes p.geometry.axes input kernel ++
      bufferOffsets p.geometry.axes kernel, Binary64.IsExact a) :
    (p.spreadInput z z' value).Gives (fun _ => True) s fun r s' =>
      s'.Holds r.1 (x.spread p.geometry n m input kernel v) ∧
        ∃ out, Spreads p.geometry.axes input kernel out ∧ s'.KnowsSizes r.2 out := by
  have haxes := hvalid.transposes ht
  have hlen := ConvGeometry.length_axes hvalid
  refine Gives.bind (index_gives Binary64.isExact_zero) fun zero s₁ hle₁ hzero => ?_
  refine Gives.bind (mapM_axes_gives (r := fun g n k a s => a.Knows s g n k)
    (fun _ _ _ _ _ _ hle h => h.mono hle) (fun g hg axis z z' n k s₂ hn hk =>
      spreadAxis_gives (haxes g hg) hn hk) (hz.spatial.mono hle₁) (hz'.spatial.mono hle₁)) ?_
  intro axes s₂ hle₂ hknown
  obtain ⟨hoffsets, hsizes, out, hspreads, houtputs⟩ :=
    Spreads.of_axes (r := fun z n => s₂.Knows z n) hvalid ht rfl hkernel hknown
  have hall : s₂.HasSizes (z.outer :: z.channels :: axes.map SpreadAxis.size)
      (n :: m :: bufferSizes p.geometry.axes input kernel) := by
    have hknown : s₂.KnowsSizes (z.outer :: z.channels :: axes.map SpreadAxis.size) _ :=
      .cons (hz.outer.mono (hle₁.trans hle₂)) (.cons (hz.channels.mono (hle₁.trans hle₂)) hsizes)
    exact hknown.hasSizes fun a ha => hexact a (by simp at ha ⊢; tauto)
  have hstarts : s₂.HasSizes (zero :: zero :: axes.map SpreadAxis.offset)
      (0 :: 0 :: bufferOffsets p.geometry.axes kernel) := by
    have hrest := KnowsSizes.hasSizes hoffsets fun a ha => hexact a (by simp [ha])
    exact .cons (hzero.mono hle₂) (.cons (hzero.mono hle₂) hrest)
  rw [hp.type, Tensor.dtype_type]
  refine Gives.bind (filled_gives hall (hvalue.mono (hle₁.trans hle₂)) hfit) ?_
  intro buffer s₃ hle₃ hbuffer
  have hle : s ≤ s₃ := hle₁.trans (hle₂.trans hle₃)
  have hlengths : (bufferOffsets p.geometry.axes kernel).length = input.length ∧
      (bufferSizes p.geometry.axes input kernel).length = input.length :=
    ⟨hspreads.length_offsets.trans hlen, hspreads.length_sizes.trans hlen⟩
  refine Gives.bind (insertSlice_gives (hp.storage.mono hle) hbuffer rfl (hstarts.mono hle₃)
    ?_ ?_ ?_ ?_) fun spread s₄ hle₄ hspread => .pure ⟨hspread, out, hspreads, ?_⟩
  · rw [hx, List.length_cons, List.length_cons, hlengths.1]
    rfl
  · rw [hx, List.length_append, hvalid.stride]
    exact Nat.add_comm 2 input.length
  · rw [Tensor.shape_ofEntries, hx, List.length_cons, List.length_cons, hlengths.2]
    rfl
  · rw [hx]
    exact hspreads.slices_fit_all hvalid n m
  · exact KnowsSizes.mono houtputs (hle₃.trans hle₄)

/-! ## What the windows hold -/

theorem Spreads.outputs?_eq (h : Spreads geo.axes input kernel out) :
    geo.outputs? input kernel = some out := by
  refine mapM_eq_some.2 ?_
  generalize geo.axes = axes at h
  induction h with
  | nil => exact .nil
  | cons _ _ hout _ ih => exact .cons (by rw [hout]; rfl) ih

/-- Windows of a transposed convolution move by one. -/
theorem ConvGeometry.moves_eq {r : Nat} (h : geo.Valid r) (ht : geo.transposed = true) :
    geo.moves.zip geo.dilation = geo.axes.map fun g => (1, g.dilation) := by
  have hmoves : geo.moves = geo.axes.map fun _ => 1 := by
    rw [moves, if_pos ht, List.map_const', length_axes h, spatialRank_of_valid h]
  rw [hmoves, dilation_eq h, List.zip_map']

/-- A window reads a position of the buffer. -/
theorem Spreads.inBounds_window {r : Nat} {o k : List Nat}
    (h : Spreads geo.axes input kernel out) (hvalid : geo.Valid r) (ht : geo.transposed = true)
    (ho : InBounds out o) (hk : InBounds kernel k) :
    InBounds (bufferSizes geo.axes input kernel)
      ((meeting (geo.moves.zip geo.dilation) o k).map Int.toNat) := by
  obtain ⟨window, hwindow, hin⟩ := h.exists_window ho hk
  have hback : (window.map Int.ofNat).map Int.toNat = window := by simp [Function.comp_def]
  rwa [ConvGeometry.moves_eq hvalid ht, hwindow, hback]

/-- The windows lie within the buffer. -/
theorem Spreads.slides {r : Nat} (h : Spreads geo.axes input kernel out) (hvalid : geo.Valid r)
    (ht : geo.transposed = true)
    (hfits : ∀ n ∈ bufferSizes geo.axes input kernel, n < 0x8000000000000000) :
    Slides (geo.moves.zip geo.dilation) out kernel (bufferSizes geo.axes input kernel) := by
  rw [ConvGeometry.moves_eq hvalid ht]
  refine ⟨?_, ?_, ?_, hfits, fun step hstep => ?_, fun o k ho hk => h.exists_window ho hk⟩
  · rw [List.length_map, h.length_out]
  · rw [List.length_map, h.length_kernel]
  · rw [List.length_map, h.length_sizes]
  · obtain ⟨g, hg, rfl⟩ := List.mem_map.1 hstep
    have hd := (hvalid.transposes ht g hg).dilation
    exact ⟨Int.one_ne_zero, by dsimp only; omega⟩

namespace ConvolutionSizes

variable {X W : List Nat → Int} {zs : Option (Binary64 × Binary64)} {v : Binary64}

/-- The element that lands where a window reads is the one that is met there. -/
theorem sourceIndex?_window {o k j : List Nat} (hvalid : geo.Valid c.input.length)
    (ht : geo.transposed = true) (hspreads : Spreads geo.axes c.input c.kernel out)
    (ho : InBounds out o) (hk : InBounds c.kernel k) :
    sourceIndex? ((bufferOffsets geo.axes c.kernel).map Int.ofNat) geo.stride c.input
        ((meeting (geo.moves.zip geo.dilation) o k).map Int.toNat) = some j ↔
      InBounds c.input j ∧ geo.Meets j (geo.visited c.kernel k) o := by
  obtain ⟨window, hwindow, hin⟩ := hspreads.exists_window ho hk
  have hback : (meeting (geo.moves.zip geo.dilation) o k).map Int.toNat = window := by
    rw [ConvGeometry.moves_eq hvalid ht, hwindow]
    simp [Function.comp_def]
  have hlen := ConvGeometry.length_axes hvalid
  rw [hback, sourceIndex?_eq_some (by simp [hspreads.length_offsets, hlen]) hvalid.stride
    (by rw [hin.length_eq, hspreads.length_sizes, hlen]) hvalid.stride_pos]
  refine and_congr_right fun hj => ?_
  have hmeeting := hspreads.meeting_eq_placed ho hk hj
  rw [hwindow] at hmeeting
  rw [ConvGeometry.Meets, if_pos ht, ConvGeometry.visited, if_pos ht, ConvGeometry.reads,
    ConvGeometry.steps_eq hvalid, ConvGeometry.padding_eq hvalid, ConvGeometry.stride_eq hvalid]
  exact hmeeting

/-- A window reads the element that lands there, or the value of the buffer. -/
theorem entry_spread (geo : ConvGeometry) {n q : Nat} {window : List Nat}
    (hx : x.shape = c.inputShape)
    (hround : x.dtype.round v = v) (hn : n < c.batch) (hq : q < c.groups * c.channels)
    (hwindow : InBounds (bufferSizes geo.axes c.input c.kernel) window) :
    (x.spread geo c.batch (c.groups * c.channels) c.input c.kernel v).entry (n :: q :: window) =
      (sourceIndex? ((bufferOffsets geo.axes c.kernel).map Int.ofNat) geo.stride c.input
        window).elim v fun j => x.entry (n :: q :: j) := by
  have hix : InBounds (c.batch :: c.groups * c.channels :: bufferSizes geo.axes c.input c.kernel)
      (n :: q :: window) := ⟨hn, hq, hwindow⟩
  have hsource : sourceIndex? ((0 :: 0 :: bufferOffsets geo.axes c.kernel).map Int.ofNat)
      (1 :: 1 :: geo.stride) x.shape (n :: q :: window) =
        (sourceIndex? ((bufferOffsets geo.axes c.kernel).map Int.ofNat) geo.stride c.input
          window).map fun j => n :: q :: j := by
    rw [hx]
    refine (sourceIndex?_cons hn).trans ((congrArg _ (sourceIndex?_cons hq)).trans ?_)
    rw [Option.map_map]
    rfl
  rw [Tensor.spread, Tensor.entry_inserted (t := x) (u := .ofEntries x.dtype (c.batch ::
    c.groups * c.channels :: bufferSizes geo.axes c.input c.kernel) fun _ => v) rfl hix,
    Tensor.landing, hsource]
  cases sourceIndex? ((bufferOffsets geo.axes c.kernel).map Int.ofNat) geo.stride c.input
      window with
  | none => exact (Tensor.entry_ofEntries hix).trans hround
  | some j => rfl

/-- The spread input and the reversed weight, as integers. -/
theorem Arranges.represents_spread (hc : c.Arranges geo x w)
    (zs : Option (Binary64 × Binary64)) (hgroups : c.groups = 1)
    (hvalid : geo.Valid c.input.length) (ht : geo.transposed = true)
    (hspreads : Spreads geo.axes c.input c.kernel out)
    (hx : x.HasIntegers (zs.map Prod.fst) X) (hw : w.HasIntegers (zs.map Prod.snd) W)
    (hround : x.dtype.round v = v)
    (hblank : (CastKind.signed.factor x.dtype (zs.map Prod.fst) v).toInt? = some 0) :
    c.Represents geo (geo.moves.zip geo.dilation)
      (x.spread geo c.batch (c.groups * c.channels) c.input c.kernel v)
      (w.reversed (c.groups * c.filters) c.channels c.kernel) zs X W out := by
  constructor
  · intro n f o q k hn hf ho hq hk
    have hchannel := c.channelOf_lt hf hq
    have hentry := entry_spread geo hc.inputShape hround hn hchannel
      (hspreads.inBounds_window hvalid ht ho hk)
    have hmet : c.met geo X (n :: f :: o) q (geo.visited c.kernel k) =
        (sourceIndex? ((bufferOffsets geo.axes c.kernel).map Int.ofNat) geo.stride c.input
          ((meeting (geo.moves.zip geo.dilation) o k).map Int.toNat)).elim 0 fun j =>
            X (n :: c.channelOf f q :: j) :=
      sum_filter_eq_elim fun j => sourceIndex?_window hvalid ht hspreads ho hk
    rw [hmet, Tensor.factor, hentry]
    cases hfound : sourceIndex? ((bufferOffsets geo.axes c.kernel).map Int.ofNat) geo.stride c.input
        ((meeting (geo.moves.zip geo.dilation) o k).map Int.toNat) with
    | none => exact hblank
    | some j =>
        have hj := ((sourceIndex?_window hvalid ht hspreads ho hk).1 hfound).1
        refine hx (n :: c.channelOf f q :: j) ?_
        rw [hc.inputShape]
        exact ⟨hn, hchannel, hj⟩
  · intro f q k hf hq hk
    have hwshape : w.shape = c.channels :: c.groups * c.filters :: c.kernel := by
      rw [hc.weightShape, storedWeight, if_pos ht, hgroups, Nat.one_mul, Nat.one_mul]
    have hentry := Tensor.entry_reversed hwshape hf hq hk
    have hmirrored : InBounds w.shape (q :: f :: mirrored c.kernel k) := by
      rw [hwshape]
      exact ⟨hq, hf, inBounds_mirrored hk⟩
    have hfactor : (w.reversed (c.groups * c.filters) c.channels c.kernel).factor .signed
        (zs.map Prod.snd) (f :: q :: k) = w.factor .signed (zs.map Prod.snd)
          (q :: f :: mirrored c.kernel k) := Tensor.factor_congr rfl hentry
    rw [hgroups, Nat.one_mul] at hf
    have htap : c.tap geo.transposed f q (geo.visited c.kernel k) =
        q :: f :: mirrored c.kernel k := by
      rw [tap, if_pos ht, channelOf, Nat.div_eq_of_lt hf, Nat.mod_eq_of_lt hf, Nat.zero_mul,
        Nat.zero_add, ConvGeometry.visited, if_pos ht]
    rw [hfactor, htap]
    exact hw _ hmirrored

end ConvolutionSizes

end TensorLowering
