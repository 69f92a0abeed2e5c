import TensorLowering.Proofs.Build.Tensors
import TensorLowering.Proofs.NdArray.Channels
import TensorLowering.Proofs.NdArray.Mirrors
import TensorLowering.Proofs.NdArray.Reads
import TensorLowering.Proofs.NdArray.Spread
import TensorLowering.Proofs.NdArray.Transposes

/-!
# Tensors laid out for a kernel

Padding, repeating along new axes, exchanging and reversing axes, and writing into a larger tensor.
-/
namespace TensorLowering.Build

open Numeric NdArray Stage

variable {fails : LowerError → Prop} {s : Stage} {v value : ValueId} {t : Tensor} {zs : List Size}
  {ns : List Nat} {dtype : DType}

/-! ## Padding -/

theorem paddedDim_static {n : Nat} {edge : Int} (hedge : 0 ≤ edge)
    (hn : edge.toNat + n + edge.toNat < 0x8000000000000000) :
    paddedDim (.static n) edge edge = .static (edge.toNat + n + edge.toNat) := by
  have hclamp : clampNat n = n := clampNat_of_le (by simp only [maxInt64]; omega)
  have hsum : ((n : Int) + edge + edge) = ((edge.toNat + n + edge.toNat : Nat) : Int) := by omega
  simp only [paddedDim, hclamp, hsum]
  rw [if_pos (Int.natCast_nonneg _), Int.toNat_natCast]

/-- The static type of a padded tensor. -/
theorem zipWith_paddedDim {shape : List Nat} {edges : List Int} (hedges : ∀ e ∈ edges, 0 ≤ e)
    (hsizes : ∀ n ∈ paddedSizes shape edges, n < 0x8000000000000000) :
    List.zipWith (fun dim (lo, hi) => paddedDim dim lo hi) (shape.map Dim.static)
      (edges.zip edges) = (paddedSizes shape edges).map Dim.static := by
  induction shape generalizing edges with
  | nil => rfl
  | cons n shape ih =>
      cases edges with
      | nil => rfl
      | cons edge edges =>
          simp only [paddedSizes, List.zipWith_cons_cons, List.map_cons, List.mem_cons,
            forall_eq_or_imp, List.zip_cons_cons] at hedges hsizes ⊢
          rw [paddedDim_static hedges.1 hsizes.1, ih hedges.2 hsizes.2]
          rfl

/-- Copies of an element around a tensor. -/
theorem pad_gives {edges : List Int} {x : Binary64} (hv : s.Holds v t) (hx : s.HasScalar value x)
    (hround : t.dtype.round x = x) (hlen : edges.length = t.shape.length)
    (hedges : ∀ e ∈ edges, 0 ≤ e)
    (hfit : ¬ TooLarge (paddedSizes t.shape edges)) :
    (pad v edges edges value).Gives fails s fun v' s' => s'.Holds v' (t.padded edges x) := by
  refine .tensorType hv ?_
  have hrank : ¬ (edges.length ≠ t.type.rank ∨ edges.length ≠ t.type.rank) := by
    simp [hlen]
  rw [if_neg hrank]
  split
  next hall =>
    have hzero : edges = List.replicate t.shape.length 0 := by
      refine List.eq_replicate_iff.2 ⟨hlen, fun e he => ?_⟩
      have hmem := List.all_eq_true.1 hall e (by simp [he])
      simpa using hmem
    rw [hzero, Tensor.padded_replicate_zero hround]
    exact .pure hv
  next =>
    have hsizes : ∀ n ∈ paddedSizes t.shape edges, n < 0x8000000000000000 := fun n hn =>
      lt_of_mem_of_not_tooLarge hfit hn
    refine .createTensor (t := t.padded edges x) ?_ ?_
    · have hdims := zipWith_paddedDim hedges hsizes
      simp only [Tensor.type, Shape.ofSizes, Tensor.shape_padded, Tensor.dtype_padded, hdims]
    · have htensor := hv.tensor
      have hnumber := hx.number
      have hpad := t.pad_eq_ok x hlen hedges hfit
      simp only [evalNode, htensor, hnumber, hpad, Bind.bind, Except.bind]
      rfl

/-! ## Repeating along new axes -/

/-- A vector that is read along the channel axis. -/
theorem ofArray_alongChannels {m : Nat} (n f : Nat) (out : List Nat) (ht : t.shape = [m]) :
    Tensor.ofArray t.dtype (.ofFn (n :: f :: out) fun ix =>
        t.entry (alignIndex [m] [ix.getD 1 0])) =
      (t.stretched [f]).alongChannels (n :: f :: out) := by
  rw [Tensor.ofArray_eq_ofEntries]
  refine Tensor.ofEntries_congr fun ix hix => ?_
  have hix' : InBounds (n :: f :: out) ix := hix
  obtain ⟨i, rest, rfl, -, hrest⟩ := inBounds_cons.1 hix'
  obtain ⟨j, o, rfl, hj, -⟩ := inBounds_cons.1 hrest
  have hstretched : (t.stretched [f]).entry [j] = t.entry (alignIndex t.shape [j]) :=
    Tensor.entry_stretched ⟨hj, trivial⟩
  rw [entry_ofFn _ hix']
  rw [ht] at hstretched
  exact hstretched.symm

/-- A vector along the channel axis, to which it may be stretched. -/
theorem broadcast_gives {n m f : Nat} {out : List Nat} (hv : s.Holds v t) (ht : t.shape = [m])
    (hz : s.HasSizes zs (n :: f :: out)) (hstretch : m = 1 ∨ m = f)
    (hfit : ¬ TooLarge (n :: f :: out)) :
    (broadcast v zs (otherAxes zs.length)).Gives fails s fun v' s' =>
      s'.Holds v' ((t.stretched [f]).alongChannels (n :: f :: out)) := by
  have hlen : zs.length = out.length + 2 := hz.length_eq
  refine .tensorType hv ?_
  have hadded : ¬ (t.type.rank + (otherAxes zs.length).length ≠ zs.length ∨
      ∃ a ∈ otherAxes zs.length, zs.length ≤ a) := by
    rw [Tensor.rank_type, ht, hlen, otherAxes_add_two]
    simp only [List.length_cons, List.length_nil, List.length_range', ne_eq, List.mem_cons,
      List.mem_range'_1, not_or, not_not, not_exists, not_and]
    refine ⟨by omega, ?_⟩
    rintro a (rfl | ⟨-, hlt⟩)
    · omega
    · omega
  rw [if_neg hadded]
  refine .createTensor (t := (t.stretched [f]).alongChannels (n :: f :: out)) ?_ ?_
  · rw [hz.shape]
    rfl
  · have hsizes := hz.sizes
    have htensor := hv.tensor
    have hresult := t.broadcastAdded_vector n f out ht
    rw [if_pos ⟨stretchesTo_singleton.2 hstretch, hfit⟩] at hresult
    simp only [evalNode, hsizes, htensor, hlen, hresult, Bind.bind, Except.bind]
    exact congrArg (fun t => Except.ok (Value.tensor t)) (ofArray_alongChannels n f out ht)

/-! ## Reordering and reversing axes -/

theorem transpose_gives {p : Permutation} (hv : s.Holds v t) (hp : p.IsValid t.shape.length) :
    (transpose v p).Gives fails s fun v' s' => s'.Holds v' (t.transposed p) := by
  refine .tensorType hv ?_
  rw [Tensor.shape_type, Permutation.permuted_ofSizes hp rfl]
  dsimp only
  split
  next hidentity =>
    rw [Tensor.transposed_identity hp hidentity]
    exact .pure hv
  next =>
    exact .createTensor (t := t.transposed p) rfl (evalNode_transpose hp hv.tensor)

theorem flip_gives {axes : List Nat} (hv : s.Holds v t)
    (haxes : ∀ axis ∈ axes, axis < t.shape.length) :
    (flip v axes).Gives fails s fun v' s' => s'.Holds v' (t.flipped axes) := by
  refine .tensorType hv ?_
  rw [Tensor.rank_type, find?_le_eq_none haxes]
  dsimp only
  split
  next hempty =>
    rw [List.isEmpty_iff.1 hempty, Tensor.flipped_nil]
    exact .pure hv
  next =>
    refine .createTensor (t := t.flipped axes) rfl ?_
    have htensor := hv.tensor
    simp only [evalNode, htensor, Bind.bind, Except.bind]
    exact Tensor.arrayResult_flipped haxes

theorem mirror_gives {m n : Nat} {sizes : List Nat} (hv : s.Holds v t)
    (ht : t.shape = m :: n :: sizes) :
    (flip v (List.range' 2 sizes.length)).Gives fails s fun v' s' =>
      s'.Holds v' (t.mirrored m n sizes) := by
  rw [← Tensor.flipped_spatial ht]
  refine flip_gives hv fun axis haxis => ?_
  have hlt := List.mem_range'_1.1 haxis
  rw [ht, List.length_cons, List.length_cons]
  omega

/-! ## Writing into a larger tensor -/

theorem insertSlice_gives {u : Tensor} {dest : ValueId} {starts : List Nat} {strides : List Int}
    (hv : s.Holds v t) (hdest : s.Holds dest u) (hdtype : t.dtype = u.dtype)
    (hz : s.HasSizes zs starts) (hstarts : starts.length = t.shape.length)
    (hstrides : strides.length = t.shape.length) (hsizes : u.shape.length = t.shape.length)
    (hfits : ∀ e ∈ ((starts.map Int.ofNat).zip strides).zip (t.shape.zip u.shape),
      SliceFits e.2.1 e.2.2 e.1.1 e.1.2) :
    (insertSlice v dest zs strides).Gives fails s fun v' s' =>
      s'.Holds v' (t.inserted u (starts.map Int.ofNat) strides) := by
  refine .tensorType hv (.tensorType hdest ?_)
  have hsame : ¬ t.type.dtype ≠ u.type.dtype := fun h => h hdtype
  have hranks : ¬ (t.type.rank ≠ u.type.rank ∨ zs.length ≠ u.type.rank ∨
      strides.length ≠ u.type.rank) := by
    rw [Tensor.rank_type, Tensor.rank_type, hz.length_eq, hsizes, hstarts, hstrides]
    simp
  rw [if_neg hsame, if_neg hranks]
  refine .createTensor (t := t.inserted u (starts.map Int.ofNat) strides) ?_ ?_
  · rw [Tensor.type, Tensor.type, Tensor.dtype_inserted, Tensor.shape_inserted, hdtype]
  have hindices := hz.indices
  have hsource := hv.tensor
  have htarget := hdest.tensor
  have hinsert := Tensor.insertSlice_eq_ok (by rw [List.length_map, hstarts]) hstrides hsizes hfits
  simp only [evalNode, hindices, hsource, htarget, hinsert, Bind.bind, Except.bind]
  rfl

end TensorLowering.Build
