import TensorLowering.Proofs.Convolution.ChannelLast
import TensorLowering.Proofs.Reduction.Outcomes

/-!
# Layouts that agree

Transposing the arrays of a reduction and reordering the results of its maps in the same way
transposes what it gives, and neither makes it run nor stops it. A kernel that has the channels last
is the one that has them first, reordered, so the two run on the same arrays and give the same sums.
-/
namespace TensorLowering

open Numeric NdArray

namespace NdArray

variable {l r o : AffineMap} {iterators : List IteratorKind} {p q k : Permutation}
  {a b c out : NdArray Binary64} (combine : Combine) (zs : Binary64 × Binary64)

/-- A reduction that runs does so when its arrays are transposed. -/
theorem reduce_transpose (hp : p.IsValid a.shape.length) (hq : q.IsValid b.shape.length)
    (hk : k.IsValid c.shape.length)
    (h : reduce ⟨[l, r, o], iterators⟩ combine a b zs c = .ok out) :
    reduce ⟨[l.permuted p, r.permuted q, o.permuted k], iterators⟩ combine (a.transpose p)
      (b.transpose q) zs (c.transpose k) = .ok (out.transpose k) := by
  obtain ⟨bounds, hroutes⟩ := exists_routes combine zs rfl h
  obtain ⟨out', hrun, hshape, hentry⟩ := reduce_eq_ok combine zs hroutes
  obtain rfl : out = out' := Except.ok.inj (h.symm.trans hrun)
  obtain ⟨d, hmoved, hdshape, hdentry⟩ := reduce_permuted combine zs (reordered_transpose hp)
    (reordered_transpose hq) (reordered_transpose hk) hroutes
  have hsame : d = out.transpose k := by
    refine ext_entry (by rw [hdshape, shape_transpose, hshape]) fun ix hix => ?_
    rw [hdshape] at hix
    obtain ⟨jx, hjx, rfl⟩ := Permutation.exists_apply hk rfl hix
    rw [hdentry jx hjx, ← hentry jx hjx, entry_transpose (hshape ▸ hk) (hshape ▸ hjx)]
  rw [hmoved, hsame]

/-- A reduction that runs on transposed arrays does so on the arrays themselves. -/
theorem of_reduce_transpose (hp : p.IsValid a.shape.length) (hq : q.IsValid b.shape.length)
    (hk : k.IsValid c.shape.length) (hl : l.results.length = a.shape.length)
    (hr : r.results.length = b.shape.length) (ho : o.results.length = c.shape.length)
    (h : reduce ⟨[l.permuted p, r.permuted q, o.permuted k], iterators⟩ combine (a.transpose p)
      (b.transpose q) zs (c.transpose k) = .ok out) :
    reduce ⟨[l, r, o], iterators⟩ combine a b zs c = .ok (out.transpose k.inverse) := by
  have hvalid : ∀ {p : Permutation} {a : NdArray Binary64}, p.IsValid a.shape.length →
      p.inverse.IsValid (a.transpose p).shape.length := by
    intro p a hp
    rw [shape_transpose, Permutation.length_apply, hp.1]
    exact hp.inverse
  have hback : ∀ {p : Permutation} {a : NdArray Binary64}, p.IsValid a.shape.length →
      (a.transpose p).transpose p.inverse = a := fun hp =>
    transpose_transpose hp hp.inverse fun xs hxs => Permutation.inverse_apply_apply hp hxs
  have hmap : ∀ {p : Permutation} {m : AffineMap} {n : Nat}, p.IsValid n → m.results.length = n →
      (m.permuted p).permuted p.inverse = m := fun hp hlen =>
    congrArg (AffineMap.mk _) (Permutation.inverse_apply_apply hp hlen)
  have hundone := reduce_transpose combine zs (hvalid hp) (hvalid hq) (hvalid hk) h
  rwa [hback hp, hback hq, hback hk, hmap hp hl, hmap hq hr, hmap hk ho] at hundone

/-- A reduction over transposed arrays, whose output is put back in its order, runs exactly when
the one over the arrays does, and gives the same. -/
theorem map_transpose_reduce_eq_ok {k' : Permutation} (hp : p.IsValid a.shape.length)
    (hq : q.IsValid b.shape.length) (hk : k.IsValid c.shape.length)
    (hk' : k'.IsValid c.shape.length)
    (hback : ∀ xs : List Nat, xs.length = c.shape.length → k'.apply (k.apply xs) = xs)
    (hl : l.results.length = a.shape.length) (hr : r.results.length = b.shape.length)
    (ho : o.results.length = c.shape.length) :
    (reduce ⟨[l.permuted p, r.permuted q, o.permuted k], iterators⟩ combine (a.transpose p)
      (b.transpose q) zs (c.transpose k)).map (·.transpose k') = .ok out ↔
        reduce ⟨[l, r, o], iterators⟩ combine a b zs c = .ok out := by
  have hforth : ∀ {out : NdArray Binary64},
      reduce ⟨[l, r, o], iterators⟩ combine a b zs c = .ok out →
      (reduce ⟨[l.permuted p, r.permuted q, o.permuted k], iterators⟩ combine (a.transpose p)
        (b.transpose q) zs (c.transpose k)).map (·.transpose k') = .ok out := by
    intro out h
    obtain ⟨bounds, hroutes⟩ := exists_routes combine zs rfl h
    obtain ⟨out', hrun, hshape, -⟩ := reduce_eq_ok combine zs hroutes
    obtain rfl : out = out' := Except.ok.inj (h.symm.trans hrun)
    rw [reduce_transpose combine zs hp hq hk h]
    exact congrArg Except.ok (transpose_transpose (hshape ▸ hk) (hshape ▸ hk') (hshape ▸ hback))
  refine ⟨fun h => ?_, hforth⟩
  cases hmoved : reduce ⟨[l.permuted p, r.permuted q, o.permuted k], iterators⟩ combine
      (a.transpose p) (b.transpose q) zs (c.transpose k) with
  | error e =>
      rw [hmoved] at h
      cases h
  | ok moved =>
      have hrun := of_reduce_transpose combine zs hp hq hk hl hr ho hmoved
      have hsame := (hforth hrun).symm.trans h
      rw [hrun, hsame]

/-! ## The kernels -/

section Kernels

open Build (Slides lastIndexing length_windowExprs indexing?_standard indexing?_standard_last
  indexing?_depthwise indexing?_depthwise_last standardIndexing depthwiseIndexing)

variable {s : Nat} {strides dilations : List Int} {ix : Indexing} {l r o : AffineMap}
  {x w d init result : NdArray Binary64} {q : Permutation}

/-- Channels that are moved behind the other axes for the kernel, and put back. -/
theorem reduce_lastIndexing (combine : Combine) (zs : Binary64 × Binary64)
    (hmaps : ix.maps = [l, r, o]) (hx : x.shape.length = s + 2) (hq : q.IsValid w.shape.length)
    (hinit : init.shape.length = s + 2) (hl : l.results.length = s + 2)
    (hr : r.results.length = w.shape.length) (ho : o.results.length = s + 2) :
    (reduce (lastIndexing ix (.channelLast (s + 2)) q (.channelLast (s + 2))) combine
      (x.transpose (.channelLast (s + 2))) (w.transpose q) zs
      (init.transpose (.channelLast (s + 2)))).map (·.transpose (.channelFirst (s + 2))) =
        .ok result ↔ reduce ix combine x w zs init = .ok result := by
  obtain ⟨maps, iterators⟩ := ix
  obtain rfl : maps = [l, r, o] := hmaps
  have hlast := Permutation.isValid_channelLast s
  refine map_transpose_reduce_eq_ok combine zs (hx ▸ hlast) hq (hinit ▸ hlast)
    (hinit ▸ Permutation.isValid_channelFirst s) (fun xs hxs => ?_) (hl.trans hx.symm) hr
    (ho.trans hinit.symm)
  exact Permutation.apply_channelFirst_channelLast s (hxs.trans hinit)

/-- The kernels with the channels first and last agree on all arrays of their ranks. -/
theorem channel_layouts_agree (hstrides : strides.length = s) (hdilations : dilations.length = s)
    (quantized : Bool) (combine : Combine) (zs : Binary64 × Binary64)
    (x w d init : NdArray Binary64) (hx : x.shape.length = s + 2)
    (hw : w.shape.length = s + 2) (hd : d.shape.length = s + 1)
    (hinit : init.shape.length = s + 2) :
    (∃ first last,
      (ConvKernel.mk (.standard .channelFirst) strides dilations quantized).indexing? =
        some first ∧
      (ConvKernel.mk (.standard .channelLast) strides dilations quantized).indexing? =
        some last ∧
      ∀ result, (reduce last combine (x.transpose (.channelLast (s + 2)))
          (w.transpose (.kernelFirst s)) zs (init.transpose (.channelLast (s + 2)))).map
            (·.transpose (.channelFirst (s + 2))) = .ok result ↔
        reduce first combine x w zs init = .ok result) ∧
    ∃ first last,
      (ConvKernel.mk (.depthwise .channelFirst) strides dilations quantized).indexing? =
        some first ∧
      (ConvKernel.mk (.depthwise .channelLast) strides dilations quantized).indexing? =
        some last ∧
      ∀ result, (reduce last combine (x.transpose (.channelLast (s + 2)))
          (d.transpose (.kernelsFirst s)) zs (init.transpose (.channelLast (s + 2)))).map
            (·.transpose (.channelFirst (s + 2))) = .ok result ↔
        reduce first combine x d zs init = .ok result := by
  have hsteps : (strides.zip dilations).length = s := by
    rw [List.length_zip, hstrides, hdilations, Nat.min_self]
  constructor
  · refine ⟨_, _, indexing?_standard hstrides hdilations,
      indexing?_standard_last quantized hstrides hdilations, fun result => ?_⟩
    refine reduce_lastIndexing combine zs rfl hx (hw ▸ Permutation.isValid_kernelFirst s) hinit
      ?_ ?_ ?_
    · simp [length_windowExprs, hsteps]
    · simp [hw]
    · simp
      omega
  · refine ⟨_, _, indexing?_depthwise hstrides hdilations,
      indexing?_depthwise_last quantized hstrides hdilations, fun result => ?_⟩
    refine reduce_lastIndexing combine zs rfl hx (hd ▸ Permutation.isValid_kernelsFirst s) hinit
      ?_ ?_ ?_
    · simp [length_windowExprs, hsteps]
    · simp [hd]
    · simp
      omega

/-- Windows that are two apart, over stored numbers whose zero-points are taken away. -/
theorem channel_layouts_agree_strided : ∃ first last result,
    (ConvKernel.mk (.standard .channelFirst) [2] [1] true).indexing? = some first ∧
    (ConvKernel.mk (.standard .channelLast) [2] [1] true).indexing? = some last ∧
    (reduce last .quantizedMulAdd ((counted [1, 2, 5]).transpose (.channelLast 3))
        ((counted [1, 2, 2]).transpose (.kernelFirst 1)) (.ofInt 3, .ofInt 1)
        ((counted [1, 1, 2]).transpose (.channelLast 3))).map (·.transpose (.channelFirst 3)) =
      .ok result ∧
    reduce first .quantizedMulAdd (counted [1, 2, 5]) (counted [1, 2, 2]) (.ofInt 3, .ofInt 1)
        (counted [1, 1, 2]) = .ok result := by
  have hone : ∀ n : Int, [n].length = 1 := fun n => rfl
  obtain ⟨⟨first, last, hfirst, hlast, hagree⟩, -⟩ := channel_layouts_agree (hone 2) (hone 1) true
    .quantizedMulAdd (.ofInt 3, .ofInt 1) (counted [1, 2, 5]) (counted [1, 2, 2]) (counted [1, 2])
    (counted [1, 1, 2]) rfl rfl rfl rfl
  have hslides : Slides [(2, 1)] [2] [2] [5] := by
    refine ⟨rfl, rfl, rfl, by decide, by decide, fun o k ho hk => ?_⟩
    obtain ⟨i, rest, rfl, hi, hrest⟩ := inBounds_cons.1 ho
    obtain ⟨j, rest', rfl, hj, hrest'⟩ := inBounds_cons.1 hk
    obtain rfl := inBounds_nil.1 hrest
    obtain rfl := inBounds_nil.1 hrest'
    refine ⟨[i * 2 + j], by simp [meeting], ?_, trivial⟩
    omega
  have hroutes : Routes (standardIndexing [(2, 1)] 1) [1, 1, 2, 2, 2] (counted [1, 2, 5]).shape
      (counted [1, 2, 2]).shape (counted [1, 1, 2]).shape _ _ _ := hslides.standard_routes 1 1 2
  obtain ⟨result, hrun, -⟩ := reduce_eq_ok .quantizedMulAdd (.ofInt 3, .ofInt 1) hroutes
  obtain rfl : standardIndexing [(2, 1)] 1 = first := Option.some.inj hfirst
  exact ⟨_, last, result, hfirst, hlast, (hagree result).2 hrun, hrun⟩

end Kernels

end NdArray

end TensorLowering
