import TensorLowering.Proofs.Convolution.Geometry
import TensorLowering.Proofs.NdArray.Mirrors
import TensorLowering.Proofs.NdArray.Spread

/-!
# Buffers of transposed convolutions

A transposed convolution spreads its input out in a larger buffer, and every position of the output
reads the buffer at the positions of the kernel. The buffer starts early enough and is large enough
for that. With the kernel reversed, a position of the output reads an element of the input exactly
when the element and a position of the kernel meet there.
-/
namespace TensorLowering

open NdArray

namespace AxisGeometry

variable {g : AxisGeometry} {n k : Nat} {out : Int}

/-- An axis of a transposed convolution with its numbers in their ranges. -/
structure Transposes (g : AxisGeometry) : Prop where
  transposed : g.transposed = true
  padding : 0 ≤ g.padding
  stride : 1 ≤ g.stride
  dilation : 1 ≤ g.dilation
  outputPadding : 0 ≤ g.outputPadding

theorem Transposes.outputSize?_eq (h : g.Transposes) (hout : g.outputSize? n k = some out) :
    out = (n - 1) * g.stride - 2 * g.padding + g.dilation * (k - 1) + g.outputPadding + 1 ∧
      0 < out := by
  have hpos := outputSize?_pos hout
  rw [outputSize?, h.transposed, if_pos rfl, convTransposeOutputSize?] at hout
  split at hout
  next => exact ⟨(Option.some.inj hout).symm, hpos⟩
  next => cases hout

/-- The buffer ends with the last window. -/
theorem Transposes.bufferSize_eq (h : g.Transposes) (hout : g.outputSize? n k = some out) :
    g.transposedBufferSize n k = out + (k - 1) * g.dilation := by
  obtain ⟨rfl, -⟩ := h.outputSize?_eq hout
  rw [transposedBufferSize, transposedOffset, Int.mul_comm g.dilation]
  omega

/-- The spread input fits the buffer, also when it is empty. -/
theorem Transposes.sliceFits (h : g.Transposes) (hoffset : 0 ≤ g.transposedOffset k)
    (hout : g.outputSize? n k = some out) :
    SliceFits n (g.transposedBufferSize n k).toNat (g.transposedOffset k) g.stride := by
  obtain ⟨rfl, hpos⟩ := h.outputSize?_eq hout
  have hpadding := h.padding
  have houtputPadding := h.outputPadding
  have hstride := h.stride
  have hsize := h.bufferSize_eq hout
  have hnonneg : 0 ≤ g.transposedBufferSize n k := by
    rw [hsize]
    rw [transposedOffset] at hoffset
    omega
  refine ⟨hoffset, hstride, ?_⟩
  rw [Int.toNat_of_nonneg hnonneg]
  split
  next hempty =>
    rw [hsize, transposedOffset]
    omega
  next =>
    rw [transposedBufferSize]
    omega

/-- The windows of an axis lie within the buffer. -/
theorem Transposes.window_lt (h : g.Transposes) (hout : g.outputSize? n k = some out) {o j : Nat}
    (ho : o < out) (hj : j < k) :
    (o : Int) * 1 + j * g.dilation < g.transposedBufferSize n k := by
  have hreach : (j : Int) * g.dilation ≤ (k - 1) * g.dilation :=
    Int.mul_le_mul_of_nonneg_right (by omega) (by have := h.dilation; omega)
  rw [h.bufferSize_eq hout]
  omega

/-- A window reads an element where the element meets the reversed position of the kernel. -/
theorem meets_iff {o i j : Nat} (hj : j < k) :
    (o : Int) * 1 + j * g.dilation = g.transposedOffset k + i * g.stride ↔
      (i : Int) * g.stride + (k - 1 - j : Nat) * g.dilation - g.padding = o := by
  have hcast : ((k - 1 - j : Nat) : Int) = k - 1 - j := by omega
  rw [hcast, transposedOffset, Int.sub_mul ((k : Int) - 1)]
  omega

end AxisGeometry

/-! ## All axes -/

/-- Axes of a transposed convolution with sizes of the input, of the kernel and of the output, where
the padding takes away no more than the reach of the kernel. -/
inductive Spreads : List AxisGeometry → List Nat → List Nat → List Nat → Prop
  | nil : Spreads [] [] [] []
  | cons {g : AxisGeometry} {n k m : Nat} {axes : List AxisGeometry} {input kernel out : List Nat} :
      g.Transposes → 0 ≤ g.transposedOffset k → g.outputSize? n k = some (m : Int) →
        Spreads axes input kernel out → Spreads (g :: axes) (n :: input) (k :: kernel) (m :: out)

/-- Where the input begins in the buffer. -/
def bufferOffsets (axes : List AxisGeometry) (kernel : List Nat) : List Nat :=
  List.zipWith (fun g (k : Nat) => (g.transposedOffset k).toNat) axes kernel

def bufferSizes (axes : List AxisGeometry) (input kernel : List Nat) : List Nat :=
  List.zipWith (fun g (e : Nat × Nat) => (g.transposedBufferSize e.1 e.2).toNat) axes
    (input.zip kernel)

namespace Spreads

variable {axes : List AxisGeometry} {input kernel out o k i : List Nat}

theorem of_forall₂ (hinput : input.length = axes.length) (hkernel : kernel.length = axes.length)
    (h : List.Forall₂ (fun (e : AxisGeometry × Nat × Nat) (m : Nat) => e.1.Transposes ∧
      0 ≤ e.1.transposedOffset e.2.2 ∧ e.1.outputSize? e.2.1 e.2.2 = some (m : Int))
        (axes.zip (input.zip kernel)) out) : Spreads axes input kernel out := by
  induction axes generalizing input kernel out with
  | nil =>
      obtain rfl := List.length_eq_zero_iff.1 hinput
      obtain rfl := List.length_eq_zero_iff.1 hkernel
      cases h
      exact .nil
  | cons g axes ih =>
      cases input with
      | nil => simp at hinput
      | cons n input =>
          cases kernel with
          | nil => simp at hkernel
          | cons k kernel =>
              cases h with
              | cons hfirst hrest =>
                  exact .cons hfirst.1 hfirst.2.1 hfirst.2.2
                    (ih (by simpa using hinput) (by simpa using hkernel) hrest)

theorem length_input (h : Spreads axes input kernel out) : input.length = axes.length := by
  induction h with
  | nil => rfl
  | cons _ _ _ _ ih => exact congrArg (· + 1) ih

theorem length_kernel (h : Spreads axes input kernel out) : kernel.length = axes.length := by
  induction h with
  | nil => rfl
  | cons _ _ _ _ ih => exact congrArg (· + 1) ih

theorem length_out (h : Spreads axes input kernel out) : out.length = axes.length := by
  induction h with
  | nil => rfl
  | cons _ _ _ _ ih => exact congrArg (· + 1) ih

theorem length_offsets (h : Spreads axes input kernel out) :
    (bufferOffsets axes kernel).length = axes.length := by
  rw [bufferOffsets, List.length_zipWith, h.length_kernel, Nat.min_self]

theorem length_sizes (h : Spreads axes input kernel out) :
    (bufferSizes axes input kernel).length = axes.length := by
  rw [bufferSizes, List.length_zipWith, List.length_zip, h.length_input, h.length_kernel,
    Nat.min_self, Nat.min_self]

theorem slices_fit (h : Spreads axes input kernel out) :
    ∀ e ∈ (((bufferOffsets axes kernel).map Int.ofNat).zip (axes.map (·.stride))).zip
      (input.zip (bufferSizes axes input kernel)), SliceFits e.2.1 e.2.2 e.1.1 e.1.2 := by
  induction h with
  | nil => nofun
  | @cons g n k m axes input kernel out hg hoffset hout _ ih =>
      have hfirst := hg.sliceFits hoffset hout
      rw [← Int.toNat_of_nonneg hoffset] at hfirst
      exact List.forall_mem_cons.2 ⟨hfirst, ih⟩

/-- Every window lies within the buffer. -/
theorem exists_window (h : Spreads axes input kernel out) (ho : InBounds out o)
    (hk : InBounds kernel k) :
    ∃ w, meeting (axes.map fun g => (1, g.dilation)) o k = w.map Int.ofNat ∧
      InBounds (bufferSizes axes input kernel) w := by
  induction h generalizing o k with
  | nil => exact ⟨[], rfl, trivial⟩
  | @cons g n size m axes input kernel out hg hoffset hout _ ih =>
      obtain ⟨i, o, rfl, hi, ho⟩ := inBounds_cons.1 ho
      obtain ⟨j, k, rfl, hj, hk⟩ := inBounds_cons.1 hk
      obtain ⟨w, hw, hin⟩ := ih ho hk
      have hlt := hg.window_lt (o := i) hout (by omega) hj
      have hdilation := hg.dilation
      have hnonneg : 0 ≤ (i : Int) * 1 + j * g.dilation :=
        Int.add_nonneg (by omega) (Int.mul_nonneg (by omega) (by omega))
      refine ⟨((i : Int) * 1 + j * g.dilation).toNat :: w, ?_, ?_, hin⟩
      · simp only [meeting, List.map_cons, List.zip_cons_cons, List.zipWith_cons_cons] at hw ⊢
        rw [hw]
        simp only [Int.ofNat_eq_natCast, Int.toNat_of_nonneg hnonneg]
      · dsimp only
        omega

/-- A window reads the element that meets the reversed position of the kernel there. -/
theorem meeting_eq_placed (h : Spreads axes input kernel out) (ho : InBounds out o)
    (hk : InBounds kernel k) (hi : InBounds input i) :
    meeting (axes.map fun g => (1, g.dilation)) o k =
        placed (((bufferOffsets axes kernel).map Int.ofNat).zip (axes.map (·.stride))) i ↔
      List.zipWith (fun edge at_ => at_ - edge) (axes.map (·.padding))
        (meeting (axes.map fun g => (g.stride, g.dilation)) i (mirrored kernel k)) =
          o.map Int.ofNat := by
  induction h generalizing o k i with
  | nil =>
      obtain rfl := inBounds_nil.1 ho
      simp [meeting, placed]
  | @cons g n size m axes input kernel out hg hoffset hout _ ih =>
      obtain ⟨a, o, rfl, ha, ho⟩ := inBounds_cons.1 ho
      obtain ⟨b, k, rfl, hb, hk⟩ := inBounds_cons.1 hk
      obtain ⟨c, i, rfl, hc, hi⟩ := inBounds_cons.1 hi
      have hfirst := g.meets_iff (o := a) (i := c) hb
      have hrest := ih ho hk hi
      rw [← Int.toNat_of_nonneg hoffset] at hfirst
      simp only [meeting, placed, bufferOffsets, mirrored] at hrest
      simp only [meeting, placed, bufferOffsets, mirrored, List.map_cons, List.zip_cons_cons,
        List.zipWith_cons_cons, List.cons.injEq]
      exact and_congr hfirst hrest

end Spreads

end TensorLowering
