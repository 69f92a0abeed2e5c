import TensorLowering.Proofs.Build.Tensors
import TensorLowering.Proofs.NdArray.Axes
import TensorLowering.Proofs.NdArray.Slices

/-!
# Tensors that are combined, summed and sliced

Two tensors of one rank are stretched to their common shape and combined there. A sum or a slice
along an axis leaves it with size one. Axes of size one are inserted and removed at several places,
one after the other.
-/
namespace TensorLowering

open Numeric NdArray

namespace Shape

/-- Static sizes stretch as the sizes themselves do. -/
theorem broadcast_ofSizes {A B sizes : List Nat} (hlen : A.length = B.length)
    (h : Common (A.zip B) sizes) : (ofSizes A).broadcast (ofSizes B) = ofSizes sizes := by
  have hdims : List.zipWith Dim.broadcast (A.map .static) (B.map .static) =
      sizes.map Dim.static := by
    induction A generalizing B sizes with
    | nil =>
        obtain rfl := List.length_eq_zero_iff.1 hlen.symm
        cases h
        rfl
    | cons m A ih =>
        cases B with
        | nil => simp at hlen
        | cons n B =>
            cases h with
            | @cons _ k _ _ hk hrest =>
                have hdim : Dim.broadcast (.static m) (.static n) = .static k := by
                  unfold commonSize? at hk
                  unfold Dim.broadcast
                  grind
                rw [List.map_cons, List.map_cons, List.zipWith_cons_cons, hdim,
                  ih (by simpa using hlen) hrest, List.map_cons]
  have hpadded : ∀ sizes : List Nat, (ofSizes sizes).padded sizes.length = sizes.map .static := by
    intro sizes
    simp [padded, ofSizes, rank]
  rw [broadcast, rank_ofSizes, rank_ofSizes, hlen, Nat.max_self, ← hlen, hpadded A, hlen, hpadded B,
    hdims, ofSizes]

end Shape

namespace Tensor

variable {t u : Tensor} {axes sizes ix : List Nat} {axis start : Nat} {dtype : DType}

/-- Two tensors combined, element by element, in a shape that both stretch to. -/
def combined (op : ElementwiseOp) (t u : Tensor) (dtype : DType) (sizes : List Nat) : Tensor :=
  ofEntries dtype sizes fun ix =>
    op.apply (t.entry (alignIndex t.shape ix)) (u.entry (alignIndex u.shape ix))

/-- The sums along an axis. -/
def summed (t : Tensor) (axis : Nat) : Tensor :=
  ofEntries t.dtype (t.shape.set axis 1) fun ix =>
    (List.range (t.shape.getD axis 0)).foldl (fun sum i => sum + t.entry (ix.set axis i)) 0

/-- The elements at one place of an axis. -/
def slice (t : Tensor) (axis start : Nat) : Tensor :=
  ofEntries t.dtype (t.shape.set axis 1) fun ix => t.entry (ix.modify axis (· + start))

/-- The tensor with axes of size one at some places, the least inserted first. -/
def aligned (t : Tensor) (axes : List Nat) : Tensor :=
  ofEntries t.dtype (extended axes 1 t.shape) fun ix => t.entry (without axes ix)

/-- The tensor without some axes of size one, the greatest removed first. -/
def squeezed (t : Tensor) (axes : List Nat) : Tensor :=
  ofEntries t.dtype (without axes t.shape) fun ix => t.entry (extended axes 0 ix)

@[simp] theorem shape_combined (op : ElementwiseOp) :
    (t.combined op u dtype sizes).shape = sizes := rfl

@[simp] theorem shape_summed : (t.summed axis).shape = t.shape.set axis 1 := rfl

@[simp] theorem shape_slice : (t.slice axis start).shape = t.shape.set axis 1 := rfl

@[simp] theorem shape_aligned : (t.aligned axes).shape = extended axes 1 t.shape := rfl

@[simp] theorem shape_squeezed : (t.squeezed axes).shape = without axes t.shape := rfl

theorem entry_slice (h : InBounds (t.shape.set axis 1) ix) :
    (t.slice axis start).entry ix = t.entry (ix.modify axis (· + start)) := by
  rw [slice, entry_ofEntries h, round_entry]

theorem entry_aligned (h : InBounds (extended axes 1 t.shape) ix) :
    (t.aligned axes).entry ix = t.entry (without axes ix) := by
  rw [aligned, entry_ofEntries h, round_entry]

theorem entry_squeezed (h : InBounds (without axes t.shape) ix) :
    (t.squeezed axes).entry ix = t.entry (extended axes 0 ix) := by
  rw [squeezed, entry_ofEntries h, round_entry]

theorem aligned_nil (t : Tensor) : t.aligned [] = t := by
  refine ext_entry rfl rfl fun ix hix => ?_
  rw [entry_aligned hix, without_nil]

theorem squeezed_nil (t : Tensor) : t.squeezed [] = t := by
  refine ext_entry rfl (without_nil t.shape) fun ix hix => entry_squeezed hix

/-- Inserting the least axis first. -/
theorem aligned_cons (h : (axis :: axes).Pairwise (· < ·)) (t : Tensor) :
    (t.aligned [axis]).aligned axes = t.aligned (axis :: axes) := by
  obtain ⟨hlt, hrest⟩ := List.pairwise_cons.1 h
  refine ext_entry rfl rfl fun ix hix => ?_
  have hshape : InBounds (extended axes 1 (t.aligned [axis]).shape) ix := hix
  have hin := hshape.without axes
  rw [without_extended hrest] at hin
  have hlast : InBounds (extended (axis :: axes) 1 t.shape) ix := hix
  rw [entry_aligned hshape, entry_aligned hin, entry_aligned hlast, without_cons hlt,
    without_singleton]

/-- Removing the least axis last. -/
theorem squeezed_cons (h : ∀ b ∈ axes, axis < b) (hone : t.shape[axis]? = some 1) :
    (t.squeezed axes).squeezed [axis] = t.squeezed (axis :: axes) := by
  have hsizes : without [axis] (without axes t.shape) = without (axis :: axes) t.shape := by
    rw [without_cons h, without_singleton]
  refine ext_entry rfl hsizes fun ix hix => ?_
  have hlast : InBounds (without (axis :: axes) t.shape) ix := hsizes ▸ hix
  have hin := hlast.insertIdx (a := axis) Nat.one_pos
  rw [insertIdx_without h hone] at hin
  rw [entry_squeezed hix, entry_squeezed hlast]
  exact entry_squeezed hin

/-! ## Values of nodes

A node declared with the element type of its operands has the result as its value. -/

section Values

variable {shape : Shape} {n : Nat}

theorem checkAxis_eq_ok (h : axis < t.shape.length) : t.data.checkAxis axis = .ok () := if_pos h

theorem arrayResult_combined (op : ElementwiseOp) (hlen : t.shape.length = u.shape.length)
    (hsizes : Common (t.shape.zip u.shape) sizes) (hfit : ¬ TooLarge sizes) :
    arrayResult (.tensor ⟨dtype, shape⟩) (t.data.zipWith op.apply u.data) =
      .ok (.tensor (t.combined op u dtype sizes)) := by
  have hshape : broadcastShape t.data.shape u.data.shape = .ok sizes :=
    (broadcastShape_iff hlen).2 hsizes
  simp only [NdArray.zipWith, hshape, Bind.bind, Except.bind, hfit, ↓reduceIte]
  rfl

theorem arrayResult_summed (haxis : axis < t.shape.length) :
    arrayResult (.tensor ⟨t.dtype, shape⟩) (t.data.sumKeepDim axis) =
      .ok (.tensor (t.summed axis)) := by
  have hcheck := checkAxis_eq_ok haxis
  simp only [NdArray.sumKeepDim, hcheck, Bind.bind, Except.bind]
  rfl

theorem arrayResult_slice (haxis : t.shape[axis]? = some n) (hstart : start < n) :
    arrayResult (.tensor ⟨t.dtype, shape⟩) (t.data.narrow axis start 1) =
      .ok (.tensor (t.slice axis start)) := by
  have hsize : t.data.shape.getD axis 0 = n := by
    rw [List.getD_eq_getElem?_getD]
    exact congrArg (·.getD 0) haxis
  have hstop : (start : Int) + (1 : Nat) ≤ t.data.shape.getD axis 0 := by omega
  rw [narrow_eq_ok (List.getElem?_eq_some_iff.1 haxis).1 (by omega) hstop]
  rfl

theorem arrayResult_aligned (haxis : axis ≤ t.shape.length) :
    arrayResult (.tensor ⟨t.dtype, shape⟩) (t.data.unsqueeze axis) =
      .ok (.tensor (t.aligned [axis])) := by
  have hrank : ¬ t.data.rank < axis := Nat.not_lt.2 haxis
  have hresult : ofArray t.dtype (.ofFn (t.data.shape.insertIdx axis 1) fun ix =>
      t.data.entry (ix.eraseIdx axis)) = t.aligned [axis] := by
    refine ofEntries_congr fun ix _ => ?_
    rw [without_singleton]
    rfl
  simp only [NdArray.unsqueeze, hrank, ↓reduceIte]
  rw [← hresult]
  rfl

theorem arrayResult_squeezed (haxis : t.shape[axis]? = some 1) :
    arrayResult (.tensor ⟨t.dtype, shape⟩) (t.data.squeeze axis) =
      .ok (.tensor (t.squeezed [axis])) := by
  have hcheck := checkAxis_eq_ok (List.getElem?_eq_some_iff.1 haxis).1
  have hsize : t.data.shape.getD axis 0 = 1 := by
    rw [List.getD_eq_getElem?_getD]
    exact congrArg (·.getD 0) haxis
  have hresult : ofArray t.dtype (.ofFn (t.data.shape.eraseIdx axis) fun ix =>
      t.data.entry (ix.insertIdx axis 0)) = t.squeezed [axis] := by
    rw [squeezed, without_singleton]
    rfl
  simp only [NdArray.squeeze, hcheck, hsize, Bind.bind, Except.bind, ne_eq, not_true_eq_false,
    ↓reduceIte]
  rw [← hresult]
  rfl

end Values

end Tensor

open Stage

namespace Build

variable {fails : LowerError → Prop} {s : Stage} {v w : ValueId} {t u : Tensor}
  {axes sizes : List Nat} {axis start n : Nat} {dtype : DType}

theorem elementwise_gives {op : ElementwiseOp} (hv : s.Holds v t) (hw : s.Holds w u)
    (hlen : t.shape.length = u.shape.length) (hsizes : Common (t.shape.zip u.shape) sizes)
    (hfit : ¬ TooLarge sizes) :
    (elementwise op v w dtype).Gives fails s fun v' s' =>
      s'.Holds v' (t.combined op u dtype sizes) := by
  have htypeOf : s.graph.typeOf w = .ok (.tensor u.type) := by
    obtain ⟨op, hnode⟩ := Graph.tensorType_eq_ok.1 hw.type
    simp [Graph.typeOf, Graph.node, hnode, Except.map]
  refine .tensorType hv (.query htypeOf ?_)
  refine .createTensor (t := t.combined op u dtype sizes) ?_ ?_
  · simp only [Tensor.shape_type, Shape.broadcast_ofSizes hlen hsizes]
    rfl
  · have hlhs := hv.tensor
    have hrhs : s.env.get w = .ok (.tensor u) := Env.get_eq_ok.2 hw.get
    simp only [evalNode, hlhs, hrhs, Bind.bind, Except.bind]
    exact Tensor.arrayResult_combined op hlen hsizes hfit

theorem sum_gives (hv : s.Holds v t) (haxis : axis < t.shape.length) :
    (sum v axis).Gives fails s fun v' s' => s'.Holds v' (t.summed axis) := by
  refine .tensorType hv ?_
  rw [if_pos (by rwa [Tensor.rank_type])]
  refine .createTensor (t := t.summed axis) ?_ ?_
  · simp only [Tensor.type, Shape.ofSizes, Tensor.shape_summed, List.map_set]
    rfl
  · have htensor := hv.tensor
    simp only [evalNode, htensor, Bind.bind, Except.bind]
    exact Tensor.arrayResult_summed haxis

theorem narrow_gives (hv : s.Holds v t) (haxis : t.shape[axis]? = some n) (hstart : start < n) :
    (narrow v axis start 1).Gives fails s fun v' s' => s'.Holds v' (t.slice axis start) := by
  have hlt : axis < t.shape.length := (List.getElem?_eq_some_iff.1 haxis).1
  refine .tensorType hv ?_
  rw [if_pos (by rwa [Tensor.rank_type])]
  refine .createTensor (t := t.slice axis start) ?_ ?_
  · simp only [Tensor.type, Shape.ofSizes, Tensor.shape_slice, List.map_set]
    rfl
  · have htensor := hv.tensor
    simp only [evalNode, htensor, Bind.bind, Except.bind]
    exact Tensor.arrayResult_slice haxis hstart

theorem unsqueeze_gives (hv : s.Holds v t) (haxis : axis ≤ t.shape.length) :
    (unsqueeze v axis).Gives fails s fun v' s' => s'.Holds v' (t.aligned [axis]) := by
  refine .tensorType hv ?_
  rw [if_pos (by rwa [Tensor.rank_type])]
  refine .createTensor (t := t.aligned [axis]) ?_ ?_
  · simp only [Tensor.type, Shape.ofSizes, Tensor.shape_aligned, extended, List.foldl_cons,
      List.foldl_nil, List.map_insertIdx]
    rfl
  · have htensor := hv.tensor
    simp only [evalNode, htensor, Bind.bind, Except.bind]
    exact Tensor.arrayResult_aligned haxis

theorem squeeze_gives (hv : s.Holds v t) (haxis : t.shape[axis]? = some 1) :
    (squeeze v axis).Gives fails s fun v' s' => s'.Holds v' (t.squeezed [axis]) := by
  have hlt : axis < t.shape.length := (List.getElem?_eq_some_iff.1 haxis).1
  refine .tensorType hv ?_
  rw [if_pos (by rwa [Tensor.rank_type])]
  refine .createTensor (t := t.squeezed [axis]) ?_ ?_
  · simp only [Tensor.type, Shape.ofSizes, Tensor.shape_squeezed, without_singleton,
      List.eraseIdx_map]
    rfl
  · have htensor := hv.tensor
    simp only [evalNode, htensor, Bind.bind, Except.bind]
    exact Tensor.arrayResult_squeezed haxis

/-- Inserting axes, the least first. -/
theorem foldlM_unsqueeze_gives (hv : s.Holds v t) (haxes : axes.Pairwise (· < ·))
    (hlt : ∀ a ∈ axes, a < t.shape.length + axes.length) :
    (axes.foldlM unsqueeze v).Gives fails s fun v' s' => s'.Holds v' (t.aligned axes) := by
  induction axes generalizing s v t with
  | nil => exact .pure (hv.of_eq t.aligned_nil.symm)
  | cons axis axes ih =>
      have hle := head_le_of_pairwise haxes hlt
      rw [List.foldlM_cons]
      refine Gives.bind (unsqueeze_gives hv hle) fun v₁ s₁ _ hv₁ => ?_
      refine (ih hv₁ (List.pairwise_cons.1 haxes).2 fun a ha => ?_).weaken fun v₂ s₂ _ hv₂ =>
        hv₂.of_eq (Tensor.aligned_cons haxes t)
      have hin := hlt a (by simp [ha])
      have hlen : (t.aligned [axis]).shape.length = t.shape.length + 1 :=
        (List.length_insertIdx).trans (if_pos hle)
      rw [List.length_cons] at hin
      omega

/-- Removing axes of size one, the greatest first. -/
theorem foldlM_squeeze_gives (hv : s.Holds v t) (haxes : axes.Pairwise (· < ·))
    (hone : ∀ a ∈ axes, t.shape[a]? = some 1) :
    (axes.reverse.foldlM squeeze v).Gives fails s fun v' s' => s'.Holds v' (t.squeezed axes) := by
  induction axes generalizing s with
  | nil => exact .pure (hv.of_eq t.squeezed_nil.symm)
  | cons axis axes ih =>
      obtain ⟨hlt, hrest⟩ := List.pairwise_cons.1 haxes
      rw [List.reverse_cons, List.foldlM_append]
      refine Gives.bind (ih hv hrest fun a ha => hone a (by simp [ha])) fun v₁ s₁ _ hv₁ => ?_
      rw [List.foldlM_cons]
      have haxis : (t.squeezed axes).shape[axis]? = some 1 :=
        (getElem?_without hlt).trans (hone axis (by simp))
      refine Gives.bind (squeeze_gives hv₁ haxis) fun v₂ s₂ _ hv₂ => ?_
      exact .pure (hv₂.of_eq (Tensor.squeezed_cons hlt (hone axis (by simp))))

end Build

end TensorLowering
