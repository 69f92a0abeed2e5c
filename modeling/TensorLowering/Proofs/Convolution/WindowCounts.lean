import Mathlib.Data.Int.Interval
import Mathlib.Data.Set.Card
import TensorLowering.Proofs.Convolution.Buffers

/-!
# Numbers of windows

Windows start at the multiples of the stride from which the dilated kernel still ends within the
padded input. Main statement: the output size of a standard convolution is the number of these
starts, and it is zero exactly where there is no size. The windows that are counted lie within the
padded input, and the next one does not.

A transposed convolution is a standard one over a larger buffer, and it undoes the standard one with
its own padding, stride and dilation. Main statement: its output has as many positions as the kernel
has windows in the buffer, one position apart and without padding; the spread input fits the buffer
when it starts inside; and a standard convolution of the output has the size of the input again, as
long as the output padding is less than a stride.
-/
namespace TensorLowering

open NdArray

variable {n k p s d o : Int}

/-- Where windows start along an axis. -/
def windowStarts (input kernel padding stride dilation : Int) : Set Int :=
  {t | 0 ≤ t ∧ stride ∣ t ∧ t + dilation * (kernel - 1) + 1 ≤ input + 2 * padding}

/-- A window is counted when it ends within the padded input. -/
theorem lt_outputSize_iff (hs : 1 ≤ s) (ho : 0 ≤ o) :
    o < (convOutputSize? n k p s d).getD 0 ↔ o * s + d * (k - 1) + 1 ≤ n + 2 * p := by
  have hfits : o ≤ (n + 2 * p - d * (k - 1) - 1) / s ↔
      o * s ≤ n + 2 * p - d * (k - 1) - 1 := Int.le_ediv_iff_mul_le (by omega)
  unfold convOutputSize?
  rw [if_neg (by omega)]
  dsimp only
  split
  next =>
    rw [Option.getD_some]
    omega
  next =>
    rw [Option.getD_none]
    omega

theorem outputSize_nonneg : 0 ≤ (convOutputSize? n k p s d).getD 0 := by
  unfold convOutputSize?
  split
  next => exact Int.le_refl 0
  next =>
    dsimp only
    split
    next hpos => exact Int.le_of_lt hpos
    next => exact Int.le_refl 0

/-- The starts are the first multiples of the stride, as many as the output has positions. -/
theorem windowStarts_eq (hs : 1 ≤ s) :
    windowStarts n k p s d =
      (· * s) '' {o | 0 ≤ o ∧ o < (convOutputSize? n k p s d).getD 0} := by
  ext t
  simp only [windowStarts, Set.mem_ofPred_eq, Set.mem_image]
  constructor
  · rintro ⟨hnonneg, ⟨o, rfl⟩, hfits⟩
    rw [Int.mul_comm] at hnonneg hfits
    have ho : 0 ≤ o := Int.nonneg_of_mul_nonneg_left hnonneg (by omega)
    exact ⟨o, ⟨ho, (lt_outputSize_iff hs ho).2 hfits⟩, Int.mul_comm o s⟩
  · rintro ⟨o, ⟨ho, hlt⟩, rfl⟩
    exact ⟨Int.mul_nonneg ho (by omega), ⟨o, Int.mul_comm o s⟩, (lt_outputSize_iff hs ho).1 hlt⟩

/-- The output size is the number of windows: those that are counted read only within the padded
input, and the next one does not fit. -/
theorem outputSize_counts_windows (hs : 1 ≤ s) (hd : 1 ≤ d) :
    (∃ count : Nat, (convOutputSize? n k p s d).getD 0 = count ∧
      (windowStarts n k p s d).encard = count) ∧
    (∀ o j, 0 ≤ o → o < (convOutputSize? n k p s d).getD 0 → 0 ≤ j → j < k →
      0 ≤ o * s + j * d ∧ o * s + j * d < n + 2 * p) ∧
    n + 2 * p < (convOutputSize? n k p s d).getD 0 * s + d * (k - 1) + 1 := by
  refine ⟨⟨((convOutputSize? n k p s d).getD 0).toNat,
    (Int.toNat_of_nonneg outputSize_nonneg).symm, ?_⟩, fun o j ho hlt hj hjk => ⟨?_, ?_⟩, ?_⟩
  · have hinjective : Function.Injective fun o : Int => o * s :=
      fun a b hab => Int.eq_of_mul_eq_mul_right (by omega) hab
    have hfinite : {o | 0 ≤ o ∧ o < (convOutputSize? n k p s d).getD 0} =
        (Finset.Ico 0 ((convOutputSize? n k p s d).getD 0) : Set Int) := (Finset.coe_Ico _ _).symm
    rw [windowStarts_eq hs, hinjective.encard_image, hfinite, Set.encard_coe_eq_coe_finsetCard,
      Int.card_Ico, Int.sub_zero]
  · exact Int.add_nonneg (Int.mul_nonneg ho (by omega)) (Int.mul_nonneg hj (by omega))
  · have hfits := (lt_outputSize_iff hs ho).1 hlt
    have hlast : j * d ≤ (k - 1) * d := Int.mul_le_mul_of_nonneg_right (by omega) (by omega)
    rw [Int.mul_comm d] at hfits
    omega
  · by_contra hnext
    have hfits : (convOutputSize? n k p s d).getD 0 * s + d * (k - 1) + 1 ≤ n + 2 * p := by omega
    exact Int.lt_irrefl _ ((lt_outputSize_iff hs outputSize_nonneg).2 hfits)

/-- Three windows of a dilated kernel over a padded input, the last of which ends with it. -/
theorem outputSize_counts_windows_dilated : (1 : Int) ≤ 2 ∧ (1 : Int) ≤ 3 ∧
    convOutputSize? 7 3 2 2 3 = some 3 ∧ (windowStarts 7 3 2 2 3).encard = 3 ∧
    (7 : Int) + 2 * 2 < 3 * 2 + 3 * (3 - 1) + 1 := by
  obtain ⟨⟨count, hsize, hcount⟩, -, hnext⟩ :=
    outputSize_counts_windows (n := 7) (k := 3) (p := 2) (s := 2) (d := 3) (by decide) (by decide)
  have hthree : convOutputSize? 7 3 2 2 3 = some 3 := by decide
  rw [hthree, Option.getD_some] at hsize hnext
  obtain rfl : count = 3 := by omega
  exact ⟨by decide, by decide, hthree, hcount, hnext⟩

/-! ## Windows of a transposed convolution -/

/-- Windows that move by one position: all of the buffer but the reach of the kernel. -/
theorem convOutputSize?_unit (b k d : Int) :
    convOutputSize? b k 0 1 d =
      if 0 < b - d * (k - 1) then some (b - d * (k - 1)) else none := by
  have hcount : (b + 2 * 0 - d * (k - 1) - 1) / 1 + 1 = b - d * (k - 1) := by
    rw [Int.ediv_one]
    omega
  simp only [convOutputSize?, hcount]
  rfl

/-- What is left of an axis when the kernel has its reach counts the strides to the last window. -/
theorem convOutputSize?_of_span {m n k p s d r : Int} (hs : 1 ≤ s) (hn : 1 ≤ n) (hr : 0 ≤ r)
    (hrs : r < s) (hm : m + 2 * p - d * (k - 1) - 1 = (n - 1) * s + r) :
    convOutputSize? m k p s d = some n := by
  have hquotient : ((n - 1) * s + r) / s = n - 1 := by
    rw [Int.add_comm, Int.add_mul_ediv_right _ _ (by omega), Int.ediv_eq_zero_of_lt hr hrs,
      Int.zero_add]
  unfold convOutputSize?
  rw [if_neg (by omega), hm, hquotient, Int.sub_add_cancel]
  exact if_pos hn

namespace AxisGeometry

variable {g : AxisGeometry} {n k t : Int}

/-- The buffer less the reach of the kernel is what the transposed size says. -/
theorem windows_of_buffer (g : AxisGeometry) (n k : Int) :
    convOutputSize? (g.transposedBufferSize n k) k 0 1 g.dilation =
      convTransposeOutputSize? n k g.padding g.stride g.dilation g.outputPadding := by
  have hleft : g.transposedBufferSize n k - g.dilation * (k - 1) =
      (n - 1) * g.stride - 2 * g.padding + g.dilation * (k - 1) + g.outputPadding + 1 := by
    rw [transposedBufferSize, transposedOffset, Int.mul_comm (k - 1)]
    omega
  rw [convOutputSize?_unit, hleft]
  rfl

/-- An input with an element at least starts and ends within the buffer, which has the same margin
on both sides and the output padding behind. -/
theorem sliceFits_buffer (hstride : 1 ≤ g.stride) (hpadding : 0 ≤ g.outputPadding) (hn : 1 ≤ n)
    (hoffset : 0 ≤ g.transposedOffset k) :
    SliceFits n.toNat (g.transposedBufferSize n k).toNat (g.transposedOffset k) g.stride := by
  have hspan : 0 ≤ (n - 1) * g.stride := Int.mul_nonneg (by omega) (by omega)
  have hsize : g.transposedBufferSize n k =
      2 * g.transposedOffset k + ((n - 1) * g.stride + 1) + g.outputPadding := rfl
  refine ⟨hoffset, hstride, ?_⟩
  rw [if_neg (by omega), Int.toNat_of_nonneg (by omega), Int.toNat_of_nonneg (by omega), hsize]
  omega

/-- The output padding is the remainder that the division by the stride drops. -/
theorem outputSize_of_transposed (hstride : 1 ≤ g.stride) (hpadding : 0 ≤ g.outputPadding)
    (hn : 1 ≤ n) (hless : g.outputPadding < g.stride)
    (ht : convTransposeOutputSize? n k g.padding g.stride g.dilation g.outputPadding = some t) :
    convOutputSize? t k g.padding g.stride g.dilation = some n := by
  unfold convTransposeOutputSize? at ht
  dsimp only at ht
  split at ht
  next =>
    refine convOutputSize?_of_span hstride hn hpadding hless ?_
    rw [← Option.some.inj ht]
    omega
  next => cases ht

end AxisGeometry

namespace ConvGeometry

variable {op : Convolution} {geo : ConvGeometry} {s i : Nat} {n k : Int}

theorem exists_axis (h : geo.Valid s) (hi : i < s) : ∃ g, geo.axis? i = some g ∧ g ∈ geo.axes := by
  have hp : i < geo.padding.length := h.padding ▸ hi
  have hs : i < geo.stride.length := h.stride ▸ hi
  have hd : i < geo.dilation.length := h.dilation ▸ hi
  have ho : i < geo.outputPadding.length := h.outputPadding ▸ hi
  have haxis : geo.axis? i = some ⟨geo.padding[i], geo.stride[i], geo.dilation[i],
      geo.outputPadding[i], geo.transposed⟩ := by
    simp [axis?, hp, hs, hd, ho]
  refine ⟨_, haxis, List.mem_filterMap.2 ⟨i, List.mem_range.2 ?_, haxis⟩⟩
  rwa [spatialRank_of_valid h]

/-- On every axis of a transposed convolution, the sizes of the buffer, of the output and of the
input belong together. -/
theorem transposed_sizes_agree (h : ofConvolution op s = .ok geo) (ht : geo.transposed = true)
    (hi : i < s) (hn : 1 ≤ n) :
    ∃ g, geo.axis? i = some g ∧
      g.outputSize? n k =
        convTransposeOutputSize? n k g.padding g.stride g.dilation g.outputPadding ∧
      convOutputSize? (g.transposedBufferSize n k) k 0 1 g.dilation =
        convTransposeOutputSize? n k g.padding g.stride g.dilation g.outputPadding ∧
      (0 ≤ g.transposedOffset k → ∀ axis, checkSlice axis n.toNat
        (g.transposedBufferSize n k).toNat (g.transposedOffset k) g.stride = .ok ()) ∧
      ∀ t, convTransposeOutputSize? n k g.padding g.stride g.dilation g.outputPadding = some t →
        g.outputPadding < g.stride →
        convOutputSize? t k g.padding g.stride g.dilation = some n := by
  have hvalid := valid_of_ofConvolution h
  obtain ⟨g, haxis, hg⟩ := exists_axis hvalid hi
  obtain ⟨htransposed, -, hstride, -, hpadding⟩ := axis_valid hvalid hg
  refine ⟨g, haxis, ?_, g.windows_of_buffer n k, fun hoffset axis => ?_, fun t hsize hless => ?_⟩
  · rw [AxisGeometry.outputSize?, htransposed, ht, if_pos rfl]
  · exact checkSlice_eq_ok_iff.2 (AxisGeometry.sliceFits_buffer hstride hpadding hn hoffset)
  · exact AxisGeometry.outputSize_of_transposed hstride hpadding hn hless hsize

/-- Two spatial axes, the second one with a stride of three, a dilated kernel and padding on both
ends. -/
def spreadPlane : Convolution :=
  ⟨⟨0⟩, ⟨1⟩, none, .const [1, 3], .const [0, 1], .const [1, 2], .const [0, 2], .const true,
    .const 1⟩

/-- Four elements in a buffer of eighteen give fourteen, and fourteen give four again, though the
division by the stride leaves a remainder. -/
theorem transposed_sizes_agree_dilated :
    ofConvolution spreadPlane 2 = .ok ⟨[0, 1], [1, 3], [1, 2], [0, 2], 1, true⟩ ∧
      1 < 2 ∧ (1 : Int) ≤ 4 ∧ convTransposeOutputSize? 4 3 1 3 2 2 = some 14 ∧
      convOutputSize? 18 3 0 1 2 = some 14 ∧ checkSlice 3 4 18 3 3 = .ok () ∧
      convOutputSize? 14 3 1 3 2 = some 4 := by
  have hok : ofConvolution spreadPlane 2 = .ok ⟨[0, 1], [1, 3], [1, 2], [0, 2], 1, true⟩ := by
    decide
  obtain ⟨g, haxis, hsize, hbuffer, hfits, hback⟩ :=
    transposed_sizes_agree (i := 1) (n := 4) (k := 3) hok rfl (by decide) (by decide)
  obtain rfl : g = ⟨1, 3, 2, 2, true⟩ := (Option.some.inj haxis).symm
  have hfourteen : convTransposeOutputSize? 4 3 1 3 2 2 = some 14 := by decide
  exact ⟨hok, by decide, by decide, hfourteen, hbuffer.trans hfourteen, hfits (by decide) 3,
    hback 14 hfourteen (by decide)⟩

end ConvGeometry

end TensorLowering
