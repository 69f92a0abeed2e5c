import TensorLowering.Lowering.Convolution.Paths
import TensorLowering.Proofs.Build.Layouts
import TensorLowering.Proofs.Convolution.Kernels

/-!
# Kernels with the channels last

A kernel that has the channels last has the maps of the one that has them first, with their results
reordered. Run over operands whose axes are reordered in the same way, it adds up the same sums, and
putting the axes of its output back gives what the other kernel gives.
-/
namespace TensorLowering

open Numeric NdArray Stage Build

namespace Permutation

section Lists

variable {α : Type} [Inhabited α] {a b : α} {B : List α} {r : Nat}

/-- Filters and channels behind the axes of the kernel. -/
def kernelFirst (r : Nat) : Permutation := ⟨List.range' 2 r ++ [1, 0]⟩

/-- Channels behind the axes of the kernel. -/
def kernelsFirst (r : Nat) : Permutation := ⟨List.range' 1 r ++ [0]⟩

theorem apply_channelLast (hB : B.length = r) :
    (channelLast (r + 2)).apply (a :: b :: B) = a :: (B ++ [b]) := by
  have hrest : (List.range' [a, b].length B.length).map (([a, b] ++ B ++ []).getD · default) = B :=
    map_getD_range' default
  rw [List.append_nil, hB] at hrest
  rw [apply, channelLast, Nat.add_sub_cancel, List.cons_append, List.map_cons, List.map_append]
  exact congrArg (fun rest => a :: (rest ++ [b])) hrest

theorem apply_channelFirst (hB : B.length = r) :
    (channelFirst (r + 2)).apply (a :: (B ++ [b])) = a :: b :: B := by
  have hrest : (List.range' [a].length B.length).map (([a] ++ B ++ [b]).getD · default) = B :=
    map_getD_range' default
  have hlast : (a :: (B ++ [b])).getD (r + 1) default = b := by simp [← hB]
  rw [hB] at hrest
  rw [apply, channelFirst, Nat.add_sub_cancel, List.map_cons, List.map_cons]
  have hplace : r + 2 - 1 = r + 1 := by omega
  rw [hplace, hlast]
  exact congrArg (fun rest => a :: b :: rest) hrest

theorem apply_kernelFirst (hB : B.length = r) :
    (kernelFirst r).apply (a :: b :: B) = B ++ [b, a] := by
  have hrest : (List.range' [a, b].length B.length).map (([a, b] ++ B ++ []).getD · default) = B :=
    map_getD_range' default
  rw [List.append_nil, hB] at hrest
  rw [apply, kernelFirst, List.map_append]
  exact congrArg (· ++ [b, a]) hrest

theorem apply_kernelsFirst (hB : B.length = r) :
    (kernelsFirst r).apply (a :: B) = B ++ [a] := by
  have hrest : (List.range' [a].length B.length).map (([a] ++ B ++ []).getD · default) = B :=
    map_getD_range' default
  rw [List.append_nil, hB] at hrest
  rw [apply, kernelsFirst, List.map_append]
  exact congrArg (· ++ [a]) hrest

end Lists

variable (r : Nat)

theorem isValid_channelLast : (channelLast (r + 2)).IsValid (r + 2) := by
  have hrest : (List.range' 2 r).Nodup := List.nodup_range'
  refine ⟨by simp [channelLast], fun axis haxis => ?_, ?_⟩
  · simp only [channelLast, Nat.add_sub_cancel, List.mem_append, List.mem_cons, List.mem_range'_1,
      List.not_mem_nil, or_false] at haxis
    omega
  · simp only [channelLast, Nat.add_sub_cancel, List.cons_append, List.nodup_cons,
      List.nodup_append, hrest, List.mem_append, List.mem_range'_1]
    simp
    omega

theorem isValid_channelFirst : (channelFirst (r + 2)).IsValid (r + 2) := by
  have hrest : (List.range' 1 r).Nodup := List.nodup_range'
  refine ⟨by simp [channelFirst], fun axis haxis => ?_, ?_⟩
  · simp only [channelFirst, Nat.add_sub_cancel, List.mem_cons, List.mem_range'_1] at haxis
    omega
  · simp [channelFirst, hrest]
    omega

theorem isValid_kernelFirst : (kernelFirst r).IsValid (r + 2) := by
  have hrest : (List.range' 2 r).Nodup := List.nodup_range'
  refine ⟨by simp [kernelFirst], fun axis haxis => ?_, ?_⟩
  · simp only [kernelFirst, List.mem_append, List.mem_cons, List.mem_range'_1, List.not_mem_nil,
      or_false] at haxis
    omega
  · simp only [kernelFirst, List.nodup_append, hrest, List.mem_range'_1]
    simp
    omega

theorem isValid_kernelsFirst : (kernelsFirst r).IsValid (r + 1) := by
  have hrest : (List.range' 1 r).Nodup := List.nodup_range'
  refine ⟨by simp [kernelsFirst], fun axis haxis => ?_, ?_⟩
  · simp only [kernelsFirst, List.mem_append, List.mem_cons, List.mem_range'_1, List.not_mem_nil,
      or_false] at haxis
    omega
  · simp only [kernelsFirst, List.nodup_append, hrest, List.mem_range'_1]
    simp
    omega

/-- Channels that are put back in the second place. -/
theorem apply_channelFirst_channelLast {xs : List Nat} (hlen : xs.length = r + 2) :
    (channelFirst (r + 2)).apply ((channelLast (r + 2)).apply xs) = xs := by
  match xs, hlen with
  | a :: b :: B, hlen =>
      have hB : B.length = r := by simpa using hlen
      rw [apply_channelLast hB, apply_channelFirst hB]

/-- A tensor whose channels come last gets them back. -/
theorem transposed_channelFirst_channelLast {t : Tensor} (hrank : t.shape.length = r + 2) :
    (channelFirst (r + 2)).IsValid (t.transposed (channelLast (r + 2))).shape.length ∧
      (t.transposed (channelLast (r + 2))).transposed (channelFirst (r + 2)) = t := by
  have hlast : (channelLast (r + 2)).IsValid (r + 2) := isValid_channelLast r
  have hfirst : (channelFirst (r + 2)).IsValid (r + 2) := isValid_channelFirst r
  refine ⟨?_, Tensor.transposed_transposed (hrank ▸ hlast) (hrank ▸ hfirst) fun xs hxs => ?_⟩
  · rw [Tensor.shape_transposed, length_apply, hlast.1]
    exact hfirst
  · exact apply_channelFirst_channelLast r (hxs.trans hrank)

end Permutation

namespace Build

variable {fails : LowerError → Prop} {s : Stage} {input weight init : ValueId} {x w c : Tensor}
  {out kernel padded : List Nat} {n f ch r : Nat} {strides dilations : List Int}
  {ids : Option (ValueId × ValueId)} {zs : Option (Binary64 × Binary64)}

theorem length_windowExprs {steps : List (Int × Int)} {first second : Nat} :
    (windowExprs steps first second).length = steps.length := by
  simp [windowExprs]

/-- The maps of a kernel with the channels last. -/
def lastIndexing (ix : Indexing) (p q k : Permutation) : Indexing :=
  ⟨[(ix.maps.getD 0 ⟨0, []⟩).permuted p, (ix.maps.getD 1 ⟨0, []⟩).permuted q,
    (ix.maps.getD 2 ⟨0, []⟩).permuted k], ix.iterators⟩

theorem indexing?_standard_last (quantized : Bool) (hstrides : strides.length = r)
    (hdilations : dilations.length = r) :
    (ReductionSpec.named
      (.conv ⟨.standard .channelLast, strides, dilations, quantized⟩)).indexing? =
        some (lastIndexing (standardIndexing (strides.zip dilations) r) (.channelLast (r + 2))
          (.kernelFirst r) (.channelLast (r + 2))) := by
  subst hstrides
  have hsteps : (windowExprs (strides.zip dilations) 2 (3 + strides.length)).length =
      strides.length := by
    rw [length_windowExprs, List.length_zip, hdilations, Nat.min_self]
  have hfirst := Permutation.apply_channelLast (a := AffineExpr.dim 0)
    (b := .dim (2 + strides.length)) hsteps
  have hsecond := Permutation.apply_kernelFirst (a := AffineExpr.dim 1)
    (b := .dim (2 + strides.length)) (r := strides.length)
    (B := (List.range' (3 + strides.length) strides.length).map .dim) (by simp)
  have hthird := Permutation.apply_channelLast (a := AffineExpr.dim 0) (b := .dim 1)
    (r := strides.length) (B := (List.range' 2 strides.length).map .dim) (by simp)
  simp only [lastIndexing, standardIndexing, range_two_add, Indexing.ofResults, List.map_cons,
    List.map_nil, List.cons_append, List.nil_append, List.getD_cons_zero, List.getD_cons_succ,
    AffineMap.permuted, hfirst, hsecond, hthird]
  exact if_neg (by rw [hdilations]; exact Nat.lt_irrefl _)

theorem indexing?_depthwise_last (quantized : Bool) (hstrides : strides.length = r)
    (hdilations : dilations.length = r) :
    (ReductionSpec.named
      (.conv ⟨.depthwise .channelLast, strides, dilations, quantized⟩)).indexing? =
        some (lastIndexing (depthwiseIndexing (strides.zip dilations) r) (.channelLast (r + 2))
          (.kernelsFirst r) (.channelLast (r + 2))) := by
  subst hstrides
  have hsteps : (windowExprs (strides.zip dilations) 2 (2 + strides.length)).length =
      strides.length := by
    rw [length_windowExprs, List.length_zip, hdilations, Nat.min_self]
  have hfirst := Permutation.apply_channelLast (a := AffineExpr.dim 0) (b := .dim 1) hsteps
  have hsecond := Permutation.apply_kernelsFirst (a := AffineExpr.dim 1) (r := strides.length)
    (B := (List.range' (2 + strides.length) strides.length).map .dim) (by simp)
  have hthird := Permutation.apply_channelLast (a := AffineExpr.dim 0) (b := .dim 1)
    (r := strides.length) (B := (List.range' 2 strides.length).map .dim) (by simp)
  simp only [lastIndexing, depthwiseIndexing, range_two_add, Indexing.ofResults, List.map_cons,
    List.map_nil, List.cons_append, List.nil_append, List.getD_cons_zero, List.getD_cons_succ,
    AffineMap.permuted, hfirst, hsecond, hthird]
  exact if_neg (by rw [hdilations]; exact Nat.lt_irrefl _)

end Build

/-- Transposing the operands, running a kernel with the channels last and transposing its output. -/
theorem ConvPlan.channelLast_gives {p : ConvPlan} {fails : LowerError → Prop} {s : Stage}
    {input weight init : ValueId} {x w c : Tensor} {variant : ConvVariant} {q : Permutation}
    {lhs rhs out : AffineMap} {iterators : List IteratorKind} {inner : List Nat}
    {l r o : List Nat → List Nat} {zs : Option (Binary64 × Binary64)}
    (hx : s.Holds input x) (hw : s.Holds weight w) (hc : s.Holds init c)
    (hz : s.HasZeroPoints p.zeroPoints? zs) (hquantized : p.isQuantized = zs.isSome)
    (hxrank : x.shape.length = p.rank) (hcrank : c.shape.length = p.rank)
    (hq : q.IsValid w.shape.length)
    (hindexing : (p.spec variant).indexing? = some (lastIndexing ⟨[lhs, rhs, out], iterators⟩
      (.channelLast p.rank) q (.channelLast p.rank)))
    (hroutes : Routes ⟨[lhs, rhs, out], iterators⟩ (c.shape ++ inner) x.shape w.shape c.shape l r o)
    (ho : ∀ ix, InBounds (c.shape ++ inner) ix → o ix = ix.take c.shape.length) :
    (p.channelLast variant input weight init q).Gives fails s fun v s' =>
      s'.Holds v (productSums c x w .signed zs inner l r) := by
  have hlast : (Permutation.channelLast p.rank).IsValid p.rank :=
    Permutation.isValid_channelLast p.spatialRank
  refine Gives.bind (transpose_gives hx (hxrank ▸ hlast)) fun input' s₁ hle₁ hinput => ?_
  refine Gives.bind (transpose_gives (hw.mono hle₁) hq) fun weight' s₂ hle₂ hweight => ?_
  refine Gives.bind (transpose_gives ((hc.mono hle₁).mono hle₂) (hcrank ▸ hlast)) ?_
  intro init' s₃ hle₃ hinit
  have hcombine : (p.spec variant).combine = ReductionSpec.combineFor zs.isSome := by
    rw [← hquantized]
    rfl
  refine Gives.bind (reduce_reordered_gives (hxrank ▸ hlast) hq (hcrank ▸ hlast) hindexing hcombine
    ((hinput.mono hle₂).mono hle₃) (hweight.mono hle₃) hinit
    (((hz.mono hle₁).mono hle₂).mono hle₃) hroutes ho) fun output s₄ hle₄ houtput => ?_
  have hcast : (p.spec variant).cast = .signed := rfl
  rw [hcast] at houtput
  obtain ⟨hvalid, hback⟩ := Permutation.transposed_channelFirst_channelLast p.spatialRank
    (t := productSums c x w .signed zs inner l r) hcrank
  exact (transpose_gives houtput hvalid).weaken fun v s₅ _ hv => hv.of_eq hback

end TensorLowering
