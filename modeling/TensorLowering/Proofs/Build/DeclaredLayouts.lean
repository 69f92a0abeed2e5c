import TensorLowering.Proofs.Build.DeclaredTensors
import TensorLowering.Proofs.Build.Layouts
import TensorLowering.Proofs.Typing.Tensors

/-!
# Layouts and reductions of tensors of declared types

What is laid out for a kernel where sizes are open. Whether an array can have the sizes, and whether
the operands of a reduction agree, shows when the program runs.
-/
namespace TensorLowering.Build

open Numeric NdArray Stage

variable {l : Limits} {s : Stage} {v value : ValueId} {t : Tensor} {zs : List Size}
  {ns : List Nat} {dtype : DType}

/-! ## Padding -/

/-- Copies of an element around a tensor, as long as an array can have the sizes. -/
theorem pad_meets {edges : List Int} {x : Binary64} (hv : s.HasTensor v t)
    (hx : s.HasScalar value x) (hround : t.dtype.round x = x) (hlen : edges.length = t.shape.length)
    (hedges : ∀ e ∈ edges, 0 ≤ e) (hfit : ¬ TooLarge t.shape)
    (hlarge : TooLarge (paddedSizes t.shape edges) → ∀ e, l.stops e) :
    (pad v edges edges value).Meets l s fun v' s' =>
      s'.HasTensor v' (t.padded edges x) ∧ ¬ TooLarge (paddedSizes t.shape edges) := by
  refine .tensorType hv fun type _ htype => ?_
  have hrank : ¬ (edges.length ≠ type.rank ∨ edges.length ≠ type.rank) := by
    rw [TensorType.rank, ← htype.admits.1]
    simp [hlen]
  rw [if_neg hrank]
  split
  next hall =>
    have hzero : edges = List.replicate t.shape.length 0 := by
      refine List.eq_replicate_iff.2 ⟨hlen, fun e he => ?_⟩
      have hmem := List.all_eq_true.1 hall e (by simp [he])
      simpa using hmem
    rw [hzero, Tensor.padded_replicate_zero hround, paddedSizes_replicate_zero]
    exact .pure ⟨hv, hfit⟩
  next =>
    have hpositive : ∀ p ∈ edges.zip edges, 0 ≤ p.1 ∧ 0 ≤ p.2 := fun p hp =>
      ⟨hedges _ (List.of_mem_zip hp).1, hedges _ (List.of_mem_zip hp).2⟩
    have hdims := zipWith_paddedDim_admits (Shape.admits_iff.1 htype.admits)
      (fun n hn => lt_of_mem_of_not_tooLarge hfit hn) hpositive
    rw [map_zip_edges, ← Tensor.shape_padded (v := x)] at hdims
    rw [← htype.dtype]
    have htensor := hv.tensor
    have hnumber := hx.number
    have hpad := t.pad_eq x hlen hedges
    refine createTensor_checked_meets (t := t.padded edges x) (fun hfits => ?_)
      (fun hfits => ⟨.array (.tooLarge (paddedSizes t.shape edges)), ?_⟩)
      (fun hfits => hlarge (not_not.1 hfits)) (Shape.admits_iff.2 hdims)
    · simp only [evalNode, htensor, hnumber, hpad, if_neg hfits, Bind.bind, Except.bind]
      rfl
    · simp only [evalNode, htensor, hnumber, hpad, if_pos (not_not.1 hfits), Bind.bind, Except.bind]
      rfl

/-! ## Repeating along new axes -/

/-- A vector along the channel axis, which it may be stretched to. -/
theorem broadcast_meets {n m f : Nat} {out : List Nat} (hv : s.HasTensor v t) (ht : t.shape = [m])
    (hz : s.AreSizes l zs (n :: f :: out))
    (hstops : ¬ ((m = 1 ∨ m = f) ∧ ¬ TooLarge (n :: f :: out)) → ∀ e, l.stops e) :
    (broadcast v zs (otherAxes zs.length)).Meets l s fun v' s' =>
      s'.HasTensor v' ((t.stretched [f]).alongChannels (n :: f :: out)) ∧
        (m = 1 ∨ m = f) ∧ ¬ TooLarge (n :: f :: out) := by
  have hlen : zs.length = out.length + 2 := hz.length_eq
  refine .tensorType hv fun type _ htype => ?_
  have hadded : ¬ (type.rank + (otherAxes zs.length).length ≠ zs.length ∨
      ∃ a ∈ otherAxes zs.length, zs.length ≤ a) := by
    rw [TensorType.rank, ← htype.admits.1, ht, hlen, otherAxes_add_two]
    simp only [List.length_cons, List.length_nil, List.length_range', ne_eq, List.mem_cons,
      List.mem_range'_1, not_or, not_not, not_exists, not_and]
    refine ⟨by omega, ?_⟩
    rintro a (rfl | ⟨-, hlt⟩)
    · omega
    · omega
  rw [if_neg hadded, ← htype.dtype]
  have hsizes := hz.sizes
  have htensor := hv.tensor
  have hresult := t.broadcastAdded_vector n f out ht
  refine createTensor_checked_meets (t := (t.stretched [f]).alongChannels (n :: f :: out))
    (fun hfits => ?_)
    (fun hfits => ⟨.array (.cannotBroadcast (1 :: m :: List.replicate out.length 1)
      (n :: f :: out)), ?_⟩) hstops hz.admits
  · rw [← stretchesTo_singleton] at hfits
    simp only [evalNode, hsizes, htensor, hlen, hresult, if_pos hfits, Bind.bind, Except.bind]
    exact congrArg (fun t => Except.ok (Value.tensor t)) (ofArray_alongChannels n f out ht)
  · rw [← stretchesTo_singleton] at hfits
    simp only [evalNode, hsizes, htensor, hlen, hresult, if_neg hfits, Bind.bind, Except.bind]
    rfl

/-! ## Reordering and reversing axes -/

theorem transpose_meets {p : Permutation} (hv : s.HasTensor v t) (hp : p.IsValid t.shape.length) :
    (transpose v p).Meets l s fun v' s' => s'.HasTensor v' (t.transposed p) := by
  refine .tensorType hv fun type _ htype => ?_
  obtain ⟨shape, hshape⟩ : ∃ shape, type.shape.permuted p = .ok shape := by
    have hcheck : p.check type.shape.rank = .ok () := by
      rw [← htype.admits.1]
      exact hp.check
    rw [Shape.permuted, hcheck]
    exact ⟨_, rfl⟩
  rw [hshape]
  dsimp only
  split
  next hidentity =>
    rw [Tensor.transposed_identity hp hidentity]
    exact .pure hv
  next =>
    rw [← htype.dtype]
    exact createTensor_meets (t := t.transposed p) (evalNode_transpose hp hv.tensor)
      (htype.admits.permuted hshape)

theorem flip_meets {axes : List Nat} (hv : s.HasTensor v t)
    (haxes : ∀ axis ∈ axes, axis < t.shape.length) :
    (flip v axes).Meets l s fun v' s' => s'.HasTensor v' (t.flipped axes) := by
  refine .tensorType hv fun type _ htype => ?_
  rw [TensorType.rank, ← htype.admits.1, find?_le_eq_none haxes]
  dsimp only
  split
  next hempty =>
    rw [List.isEmpty_iff.1 hempty, Tensor.flipped_nil]
    exact .pure hv
  next =>
    rw [← htype.dtype]
    refine createTensor_meets (t := t.flipped axes) ?_ htype.admits
    have htensor := hv.tensor
    simp only [evalNode, htensor, Bind.bind, Except.bind]
    exact Tensor.arrayResult_flipped haxes

theorem mirror_meets {m n : Nat} {sizes : List Nat} (hv : s.HasTensor v t)
    (ht : t.shape = m :: n :: sizes) :
    (flip v (List.range' 2 sizes.length)).Meets l s fun v' s' =>
      s'.HasTensor v' (t.mirrored m n sizes) := by
  rw [← Tensor.flipped_spatial ht]
  refine flip_meets hv fun axis haxis => ?_
  have hlt := List.mem_range'_1.1 haxis
  rw [ht, List.length_cons, List.length_cons]
  omega

/-! ## Writing into a larger tensor -/

theorem insertSlice_meets {u : Tensor} {dest : ValueId} {starts : List Nat} {strides : List Int}
    (hv : s.HasTensor v t) (hdest : s.HasTensor dest u) (hdtype : t.dtype = u.dtype)
    (hz : s.AreSizes l zs starts) (hstarts : starts.length = t.shape.length)
    (hstrides : strides.length = t.shape.length) (hsizes : u.shape.length = t.shape.length)
    (hfits : ∀ e ∈ ((starts.map Int.ofNat).zip strides).zip (t.shape.zip u.shape),
      SliceFits e.2.1 e.2.2 e.1.1 e.1.2) :
    (insertSlice v dest zs strides).Meets l s fun v' s' =>
      s'.HasTensor v' (t.inserted u (starts.map Int.ofNat) strides) := by
  refine .tensorType hv fun part _ hpart => .tensorType hdest fun type _ htype => ?_
  have hsame : ¬ part.dtype ≠ type.dtype :=
    fun h => h (by rw [← hpart.dtype, ← htype.dtype, hdtype])
  have hranks : ¬ (part.rank ≠ type.rank ∨ zs.length ≠ type.rank ∨
      strides.length ≠ type.rank) := by
    rw [TensorType.rank, TensorType.rank, ← hpart.admits.1, ← htype.admits.1, hz.length_eq, hsizes,
      hstarts, hstrides]
    simp
  rw [if_neg hsame, if_neg hranks, ← htype.dtype, ← hdtype]
  refine createTensor_meets (t := t.inserted u (starts.map Int.ofNat) strides) ?_ htype.admits
  have hindices := hz.indices
  have hsource := hv.tensor
  have htarget := hdest.tensor
  have hinsert := Tensor.insertSlice_eq_ok (by rw [List.length_map, hstarts]) hstrides hsizes hfits
  simp only [evalNode, hindices, hsource, htarget, hinsert, Bind.bind, Except.bind]
  rfl

/-! ## Reductions -/

section Reductions

variable {spec : ReductionSpec} {lhs rhs init : ValueId} {a b c : Tensor}
  {ids : Option (ValueId × ValueId)} {points : Option (Binary64 × Binary64)} {Agree : Prop}
  {inner : List Nat} {f g o : List Nat → List Nat}

/-- A reduction runs when its operands agree, and shows that they do. -/
theorem reduce_agreeing_meets {indexing : Indexing} (hindexing : spec.indexing? = some indexing)
    (hcombine : spec.combine = ReductionSpec.combineFor points.isSome) (ha : s.HasTensor lhs a)
    (hb : s.HasTensor rhs b) (hc : s.HasTensor init c) (hz : s.HasZeroPoints ids points)
    (hranks : List.Forall₂ (fun shape m => shape.length = m.results.length)
      [a.shape, b.shape, c.shape] indexing.maps)
    (hagree : ∀ bounds, List.Forall₂ (Addresses bounds) indexing.maps [a.shape, b.shape, c.shape] →
      Agree)
    (hstops : ¬ Agree → ∀ e, l.stops e)
    (hroutes : Agree → Routes indexing (c.shape ++ inner) a.shape b.shape c.shape f g o)
    (ho : ∀ p, InBounds (c.shape ++ inner) p → o p = p.take c.shape.length) :
    (reduce spec lhs rhs ids init).Meets l s fun v s' =>
      Agree ∧ s'.HasTensor v (productSums c a b spec.cast points inner f g) := by
  by_cases h : Agree
  · exact (reduce_sums_meets hindexing hcombine ha hb hc hz (hroutes h) ho).weaken
      fun _ _ _ hv => ⟨h, hv⟩
  · refine (reduce_meets hindexing (isQuantized_of_combine hcombine) ha hb hc hz hranks
      fun e _ => hstops h _).weaken ?_
    rintro v s' - ⟨out, hout, -⟩
    obtain ⟨bounds, hbounds⟩ := exists_addresses hranks.length_eq.symm hout
    rw [Tensor.shape_widened, Tensor.shape_widened] at hbounds
    exact absurd (hagree bounds hbounds) h

/-- The same over reordered operands, by a kernel with reordered maps. -/
theorem reduce_reordered_meets {p q k : Permutation} {lhsMap rhsMap outMap : AffineMap}
    {iterators : List IteratorKind} (hp : p.IsValid a.shape.length)
    (hq : q.IsValid b.shape.length) (hk : k.IsValid c.shape.length)
    (hindexing : spec.indexing? =
      some ⟨[lhsMap.permuted p, rhsMap.permuted q, outMap.permuted k], iterators⟩)
    (hcombine : spec.combine = ReductionSpec.combineFor points.isSome)
    (ha : s.HasTensor lhs (a.transposed p)) (hb : s.HasTensor rhs (b.transposed q))
    (hc : s.HasTensor init (c.transposed k)) (hz : s.HasZeroPoints ids points)
    (hranks : List.Forall₂ (fun shape m => shape.length = m.results.length)
      [a.shape, b.shape, c.shape] [lhsMap, rhsMap, outMap])
    (hagree : ∀ bounds, List.Forall₂ (Addresses bounds) [lhsMap, rhsMap, outMap]
      [a.shape, b.shape, c.shape] → Agree)
    (hstops : ¬ Agree → ∀ e, l.stops e)
    (hroutes : Agree → Routes ⟨[lhsMap, rhsMap, outMap], iterators⟩ (c.shape ++ inner) a.shape
      b.shape c.shape f g o)
    (ho : ∀ p, InBounds (c.shape ++ inner) p → o p = p.take c.shape.length) :
    (reduce spec lhs rhs ids init).Meets l s fun v s' =>
      Agree ∧ s'.HasTensor v ((productSums c a b spec.cast points inner f g).transposed k) := by
  have hquantized := isQuantized_of_combine hcombine
  have hmoved : List.Forall₂ (fun shape m => shape.length = m.results.length)
      [(a.transposed p).shape, (b.transposed q).shape, (c.transposed k).shape]
      [lhsMap.permuted p, rhsMap.permuted q, outMap.permuted k] := by
    simp only [List.forall₂_cons, Tensor.shape_transposed, AffineMap.permuted,
      Permutation.length_apply]
    exact ⟨trivial, trivial, trivial, .nil⟩
  by_cases h : Agree
  · obtain ⟨out, hout, -, hsums⟩ := reduce_reordered_eq_ok hp hq hk hcombine (hroutes h) ho
    exact (reduce_ok_meets hindexing hquantized ha hb hc hz hmoved hout).weaken
      fun _ _ _ hv => ⟨h, hv.of_eq hsums⟩
  · refine (reduce_meets hindexing hquantized ha hb hc hz hmoved fun e _ => hstops h _).weaken ?_
    rintro v s' - ⟨out, hout, -⟩
    obtain ⟨bounds, hbounds⟩ := exists_addresses rfl hout
    rw [Tensor.shape_widened, Tensor.shape_widened] at hbounds
    simp only [List.forall₂_cons, List.forall₂_nil_right_iff, and_true] at hranks hbounds
    exact absurd (hagree bounds (.cons (hbounds.1.of_permuted hp hranks.1.symm)
      (.cons (hbounds.2.1.of_permuted hq hranks.2.1.symm)
        (.cons (hbounds.2.2.of_permuted hk hranks.2.2.symm) .nil)))) h

end Reductions

end TensorLowering.Build
