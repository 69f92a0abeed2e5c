import Mathlib.Algebra.BigOperators.Ring.Finset
import TensorLowering.Proofs.Convolution.Buffers
import TensorLowering.Proofs.Convolution.Paths
import TensorLowering.Proofs.NdArray.AxisSums

/-!
# Convolutions of integers

A convolution adds up a product for every element of the input, position of the kernel and position
of the output that meet. In a standard convolution the output and the kernel decide which element is
met, in a transposed one the input and the kernel decide where in the output. Main statement: when
each window of the buffer holds the elements that are met, sliding the weight over the buffer gives
these sums, as long as nothing is rounded.
-/
namespace TensorLowering

open Numeric NdArray

/-- The elements are these integers, as a reduction multiplies them. -/
def Tensor.HasIntegers (t : Tensor) (z : Option Binary64) (value : List Nat → Int) : Prop :=
  ∀ ix, InBounds t.shape ix → (t.factor .signed z ix).toInt? = some (value ix)

namespace ConvGeometry

/-- An element `i` of the input and a position `k` of the kernel meet at the position `o` of the
output. -/
def Meets (geo : ConvGeometry) (i k o : List Nat) : Prop :=
  if geo.transposed then geo.reads i k = o.map Int.ofNat else geo.reads o k = i.map Int.ofNat

instance (geo : ConvGeometry) (i k o : List Nat) : Decidable (geo.Meets i k o) :=
  inferInstanceAs (Decidable (if geo.transposed then _ else _))

/-- The position of the kernel that is read at a position of the window. -/
def visited (geo : ConvGeometry) (kernel k : List Nat) : List Nat :=
  if geo.transposed then mirrored kernel k else k

end ConvGeometry

namespace ConvolutionSizes

variable {c : ConvolutionSizes} {geo : ConvGeometry} {x w value weight : List Nat → Int}
  {b t : Tensor} {steps : List (Int × Int)} {zs : Option (Binary64 × Binary64)} {first : Int}
  {out ix : List Nat} {acc : DType} {bias : Option Tensor}

/-- The channel that a filter reads for a channel of its group. -/
def channelOf (c : ConvolutionSizes) (filter channel : Nat) : Nat :=
  filter / c.filters * c.channels + channel

theorem channelOf_lt {filter channel : Nat} (hfilter : filter < c.groups * c.filters)
    (hchannel : channel < c.channels) : c.channelOf filter channel < c.groups * c.channels :=
  group_lt (Nat.div_lt_of_lt_mul (by rwa [Nat.mul_comm] at hfilter)) hchannel

/-- The sizes of the weight. A transposed convolution has the channels first. -/
def storedWeight (c : ConvolutionSizes) (transposed : Bool) : List Nat :=
  if transposed then c.groups * c.channels :: c.filters :: c.kernel else c.weightShape

/-- Where the weight of a filter for a channel of its group is. -/
def tap (c : ConvolutionSizes) (transposed : Bool) (filter channel : Nat) (k : List Nat) :
    List Nat :=
  if transposed then c.channelOf filter channel :: filter % c.filters :: k
  else filter :: channel :: k

/-- The sizes of a convolution of two tensors, standard or transposed. -/
structure Arranges (c : ConvolutionSizes) (geo : ConvGeometry) (x w : Tensor) : Prop where
  groups : geo.groups = c.groups
  kernel : c.kernel.length = c.input.length
  inputShape : x.shape = c.inputShape
  weightShape : w.shape = c.storedWeight geo.transposed

/-- What is met at a position of the output by a channel at a position of the kernel, summed up. -/
def met (c : ConvolutionSizes) (geo : ConvGeometry) (x : List Nat → Int) (ix : List Nat)
    (channel : Nat) (k : List Nat) : Int :=
  ∑ i ∈ (box c.input).filter (geo.Meets · k (ix.drop 2)),
    x (ix.getD 0 0 :: c.channelOf (ix.getD 1 0) channel :: i)

/-- The convolution at a position of the output, from a first summand on: all elements that a
position of the kernel meets there, times the weight at that position. -/
def total (c : ConvolutionSizes) (geo : ConvGeometry) (x w : List Nat → Int) (first : Int)
    (ix : List Nat) : Int :=
  first + ∑ channel ∈ Finset.range c.channels, ∑ k ∈ box c.kernel,
    ∑ i ∈ (box c.input).filter (geo.Meets · k (ix.drop 2)),
      x (ix.getD 0 0 :: c.channelOf (ix.getD 1 0) channel :: i) *
        w (c.tap geo.transposed (ix.getD 1 0) channel k)

/-- The products of a position of the output, in the order in which they are added. -/
def terms (c : ConvolutionSizes) (geo : ConvGeometry) (x w : List Nat → Int) (ix : List Nat) :
    List Int :=
  (points (c.channels :: c.kernel)).map fun p =>
    let k := geo.visited c.kernel (p.drop 1)
    c.met geo x ix (p.getD 0 0) k * w (c.tap geo.transposed (ix.getD 1 0) (p.getD 0 0) k)

/-- The order does not matter for the sum. -/
theorem total_eq : c.total geo x w first ix = first + (c.terms geo x w ix).sum := by
  have hvisited : ∀ f : List Nat → Int,
      ∑ k ∈ box c.kernel, f (geo.visited c.kernel k) = ∑ k ∈ box c.kernel, f k := by
    intro f
    unfold ConvGeometry.visited
    split
    next => exact sum_mirrored f
    next => rfl
  rw [total, terms, sum_points_cons]
  refine congrArg (first + ·) (Finset.sum_congr rfl fun channel _ => ?_)
  simp only [List.getD_cons_zero, List.drop_succ_cons, List.drop_zero]
  rw [hvisited fun k => c.met geo x ix channel k * w (c.tap geo.transposed (ix.getD 1 0) channel k)]
  exact Finset.sum_congr rfl fun k _ => (Finset.sum_mul _ _ _).symm

/-- The windows of a buffer hold what is met, and the weight is the given one in the order in which
it is visited. -/
structure Represents (c : ConvolutionSizes) (geo : ConvGeometry) (steps : List (Int × Int))
    (b t : Tensor) (zs : Option (Binary64 × Binary64)) (x w : List Nat → Int) (out : List Nat) :
    Prop where
  window : ∀ n f o channel k, n < c.batch → f < c.groups * c.filters → InBounds out o →
    channel < c.channels → InBounds c.kernel k →
    (b.factor .signed (zs.map Prod.fst) (n :: c.channelOf f channel ::
      (meeting steps o k).map Int.toNat)).toInt? =
        some (c.met geo x (n :: f :: o) channel (geo.visited c.kernel k))
  weight : ∀ f channel k, f < c.groups * c.filters → channel < c.channels → InBounds c.kernel k →
    (t.factor .signed (zs.map Prod.snd) (f :: channel :: k)).toInt? =
      some (w (c.tap geo.transposed f channel (geo.visited c.kernel k)))

/-- Integers that are added without rounding. -/
theorem Represents.toInt?_slide (h : c.Represents geo steps b t zs x w out)
    (hix : InBounds (c.outputShape out) ix)
    (hbias : (biasEntry bias (ix.getD 1 0)).toInt? = some first)
    (hsums : Binary64.AddsExactly first (c.terms geo x w ix)) (hfirst : acc.Keeps first)
    (htotal : acc.Keeps (c.total geo x w first ix)) :
    ((c.slide steps acc b t zs bias out).entry ix).toInt? = some (c.total geo x w first ix) := by
  obtain ⟨n, rest, rfl, hn, hrest⟩ := inBounds_cons.1 hix
  obtain ⟨f, o, rfl, hf, ho⟩ := inBounds_cons.1 hrest
  rw [slide, Tensor.entry_ofEntries hix]
  refine htotal.toInt?_round ?_
  rw [total_eq]
  refine hsums.toInt?_products (hfirst.toInt?_round hbias) (fun p hp => ?_) fun p hp => ?_
  · obtain ⟨channel, k, rfl, hchannel, hk⟩ := inBounds_cons.1 (mem_points.1 hp)
    exact h.window n f o channel k hn hf ho hchannel hk
  · obtain ⟨channel, k, rfl, hchannel, hk⟩ := inBounds_cons.1 (mem_points.1 hp)
    exact h.weight f channel k hf hchannel hk

/-- Nothing is rounded at a position of the output. -/
structure Unrounded (c : ConvolutionSizes) (geo : ConvGeometry) (acc dtype : DType)
    (x w : List Nat → Int) (first : Int) (ix : List Nat) : Prop where
  sums : Binary64.AddsExactly first (c.terms geo x w ix)
  bias : acc.Keeps first
  total : acc.Keeps (c.total geo x w first ix)
  result : dtype.Keeps (c.total geo x w first ix)

theorem Represents.toInt?_entry {dtype : DType} (h : c.Represents geo steps b t zs x w out)
    (hix : InBounds (c.outputShape out) ix)
    (hbias : (biasEntry bias (ix.getD 1 0)).toInt? = some first)
    (hexact : c.Unrounded geo acc dtype x w first ix) :
    (((c.slide steps acc b t zs bias out).converted dtype).entry ix).toInt? =
      some (c.total geo x w first ix) := by
  have hslide := h.toInt?_slide hix hbias hexact.sums hexact.bias hexact.total
  have hentry := Tensor.entry_converted (t := c.slide steps acc b t zs bias out) dtype hix
  rw [hentry]
  exact hexact.result.toInt?_round hslide

end ConvolutionSizes

end TensorLowering
