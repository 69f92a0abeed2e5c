import TensorLowering.Proofs.Build.DeclaredTensors
import TensorLowering.Proofs.Build.Elementwise

/-!
# Declared tensors that are combined, summed and sliced

None of these operations stops a program whose sizes fit, whatever is declared of them. Axes of size
one that are inserted are declared as such, so that the aligned type says as much as the type did.
-/
namespace TensorLowering

open Numeric NdArray Stage

/-- The type with axes of size one at some places, the least inserted first. -/
def TensorType.aligned (type : TensorType) (axes : List Nat) : TensorType :=
  ⟨type.dtype, ⟨axes.foldl (fun dims axis => dims.insertIdx axis (.static 1)) type.shape.dims⟩⟩

theorem TensorType.aligned_cons (type : TensorType) (axis : Nat) (axes : List Nat) :
    type.aligned (axis :: axes) = (type.aligned [axis]).aligned axes := rfl

/-- The value is a tensor of the type that it is declared with. -/
structure Stage.Declared (s : Stage) (v : ValueId) (type : TensorType) (t : Tensor) : Prop where
  declared : s.graph.tensorType v = .ok type
  type : t.HasType type
  get : s.env.get? v = some (.tensor t)

theorem Stage.Declared.mono {s s' : Stage} {v : ValueId} {type : TensorType} {t : Tensor}
    (h : s.Declared v type t) (hle : s ≤ s') : s'.Declared v type t :=
  ⟨Le.tensorType hle h.declared, h.type, hle.get _ _ h.get⟩

theorem Stage.Declared.hasTensor {s : Stage} {v : ValueId} {type : TensorType} {t : Tensor}
    (h : s.Declared v type t) : s.HasTensor v t := ⟨⟨type, h.declared, h.type⟩, h.get⟩

namespace Build

variable {l : Limits} {s : Stage} {v w : ValueId} {t u : Tensor} {type : TensorType}
  {axes sizes : List Nat} {axis start n : Nat} {dtype : DType}

theorem elementwise_meets {op : ElementwiseOp} (hv : s.HasTensor v t) (hw : s.HasTensor w u)
    (hlen : t.shape.length = u.shape.length) (hsizes : Common (t.shape.zip u.shape) sizes)
    (hfit : ¬ TooLarge sizes) :
    (elementwise op v w dtype).Meets l s fun v' s' =>
      s'.HasTensor v' (t.combined op u dtype sizes) := by
  refine .tensorType hv fun type _ htype => ?_
  obtain ⟨other, hother, hu⟩ := hw.type
  have htypeOf : s.graph.typeOf w = .ok (.tensor other) := by
    obtain ⟨op, hnode⟩ := Graph.tensorType_eq_ok.1 hother
    simp [Graph.typeOf, Graph.node, hnode, Except.map]
  refine .query htypeOf ?_
  have hadmits : (type.shape.broadcast other.shape).Admits sizes :=
    htype.admits.broadcast hu.admits ((broadcastShape_iff hlen).2 hsizes)
  refine createTensor_meets (t := t.combined op u dtype sizes) ?_ hadmits
  have hlhs := hv.tensor
  have hrhs : s.env.get w = .ok (.tensor u) := Env.get_eq_ok.2 hw.get
  simp only [evalNode, hlhs, hrhs, Bind.bind, Except.bind]
  exact Tensor.arrayResult_combined op hlen hsizes hfit

theorem sum_meets (hv : s.HasTensor v t) (haxis : axis < t.shape.length) :
    (sum v axis).Meets l s fun v' s' => s'.HasTensor v' (t.summed axis) := by
  refine .tensorType hv fun type _ htype => ?_
  rw [if_pos (by rwa [TensorType.rank, ← htype.admits.1]), ← htype.dtype]
  refine createTensor_meets (t := t.summed axis) ?_ (htype.admits.set (.static 1) axis)
  have htensor := hv.tensor
  simp only [evalNode, htensor, Bind.bind, Except.bind]
  exact Tensor.arrayResult_summed haxis

theorem narrow_meets (hv : s.HasTensor v t) (haxis : t.shape[axis]? = some n) (hstart : start < n) :
    (narrow v axis start 1).Meets l s fun v' s' => s'.HasTensor v' (t.slice axis start) := by
  have hlt : axis < t.shape.length := (List.getElem?_eq_some_iff.1 haxis).1
  refine .tensorType hv fun type _ htype => ?_
  rw [if_pos (by rwa [TensorType.rank, ← htype.admits.1]), ← htype.dtype]
  refine createTensor_meets (t := t.slice axis start) ?_ (htype.admits.set (.static 1) axis)
  have htensor := hv.tensor
  simp only [evalNode, htensor, Bind.bind, Except.bind]
  exact Tensor.arrayResult_slice haxis hstart

/-- The inserted axis is declared. -/
theorem unsqueeze_meets (hv : s.Declared v type t) (haxis : axis ≤ t.shape.length) :
    (unsqueeze v axis).Meets l s fun v' s' =>
      s'.Declared v' (type.aligned [axis]) (t.aligned [axis]) := by
  refine .query hv.declared ?_
  rw [if_pos (by rwa [TensorType.rank, ← hv.type.admits.1])]
  have htype : (t.aligned [axis]).HasType (type.aligned [axis]) :=
    ⟨hv.type.dtype, hv.type.admits.insertIdx (.static 1) axis⟩
  have hvalue : evalNode s.supply s.env
      ⟨.unsqueeze v axis, .tensor (type.aligned [axis])⟩ = .ok (.tensor (t.aligned [axis])) := by
    have htensor := hv.hasTensor.tensor
    simp only [evalNode, htensor, Bind.bind, Except.bind]
    rw [TensorType.aligned, ← hv.type.dtype]
    exact Tensor.arrayResult_aligned haxis
  exact .create hvalue fun _ => ⟨Graph.tensorType_eq_ok.2 ⟨_, s.node?_emit_self _ _ _⟩, htype,
    s.get?_emit_self _ _ _⟩

theorem squeeze_meets (hv : s.HasTensor v t) (haxis : t.shape[axis]? = some 1) :
    (squeeze v axis).Meets l s fun v' s' => s'.HasTensor v' (t.squeezed [axis]) := by
  have hlt : axis < t.shape.length := (List.getElem?_eq_some_iff.1 haxis).1
  refine .tensorType hv fun type _ htype => ?_
  rw [if_pos (by rwa [TensorType.rank, ← htype.admits.1]), ← htype.dtype]
  have hadmits : Shape.Admits ⟨type.shape.dims.eraseIdx axis⟩ (t.squeezed [axis]).shape := by
    rw [Tensor.shape_squeezed, without_singleton]
    exact htype.admits.eraseIdx axis
  refine createTensor_meets (t := t.squeezed [axis]) ?_ hadmits
  have htensor := hv.tensor
  simp only [evalNode, htensor, Bind.bind, Except.bind]
  exact Tensor.arrayResult_squeezed haxis

/-! ## Several axes -/

theorem foldlM_sum_meets (hv : s.HasTensor v t) (haxes : ∀ a ∈ axes, a < t.shape.length) :
    (axes.foldlM sum v).Meets l s fun v' s' => s'.HasTensor v' (axes.foldl Tensor.summed t) := by
  induction axes generalizing s v t with
  | nil => exact .pure hv
  | cons axis axes ih =>
      rw [List.foldlM_cons]
      refine .bind (sum_meets hv (haxes axis (by simp))) fun v₁ s₁ _ hv₁ => ?_
      refine ih hv₁ fun a ha => ?_
      rw [Tensor.shape_summed, List.length_set]
      exact haxes a (by simp [ha])

/-- Inserting axes, the least first. -/
theorem foldlM_unsqueeze_meets (hv : s.Declared v type t) (haxes : axes.Pairwise (· < ·))
    (hlt : ∀ a ∈ axes, a < t.shape.length + axes.length) :
    (axes.foldlM unsqueeze v).Meets l s fun v' s' =>
      s'.Declared v' (type.aligned axes) (t.aligned axes) := by
  induction axes generalizing s v t type with
  | nil =>
      rw [t.aligned_nil]
      exact .pure hv
  | cons axis axes ih =>
      have hle := head_le_of_pairwise haxes hlt
      rw [List.foldlM_cons, ← Tensor.aligned_cons haxes, TensorType.aligned_cons]
      refine .bind (unsqueeze_meets hv hle) fun v₁ s₁ _ hv₁ => ?_
      refine ih hv₁ (List.pairwise_cons.1 haxes).2 fun a ha => ?_
      have hin := hlt a (by simp [ha])
      have hlen : (t.aligned [axis]).shape.length = t.shape.length + 1 :=
        (List.length_insertIdx).trans (if_pos hle)
      rw [List.length_cons] at hin
      omega

/-- Removing axes of size one, the greatest first. -/
theorem foldlM_squeeze_meets (hv : s.HasTensor v t) (haxes : axes.Pairwise (· < ·))
    (hone : ∀ a ∈ axes, t.shape[a]? = some 1) :
    (axes.reverse.foldlM squeeze v).Meets l s fun v' s' =>
      s'.HasTensor v' (t.squeezed axes) := by
  induction axes generalizing s with
  | nil => exact .pure (hv.of_eq t.squeezed_nil.symm)
  | cons axis axes ih =>
      obtain ⟨hlt, hrest⟩ := List.pairwise_cons.1 haxes
      rw [List.reverse_cons, List.foldlM_append]
      refine .bind (ih hv hrest fun a ha => hone a (by simp [ha])) fun v₁ s₁ _ hv₁ => ?_
      rw [List.foldlM_cons]
      have haxis : (t.squeezed axes).shape[axis]? = some 1 :=
        (getElem?_without hlt).trans (hone axis (by simp))
      refine .bind (squeeze_meets hv₁ haxis) fun v₂ s₂ _ hv₂ => ?_
      exact .pure (hv₂.of_eq (Tensor.squeezed_cons hlt (hone axis (by simp))))

/-! ## Sizes as they are declared -/

/-- The size of an axis, as long as a double holds it if the type says it. It is known to be one
only where the type says so. -/
theorem dim_declared_meets (hv : s.Declared v type t) (hn : t.shape[axis]? = some n)
    (hlt : n < 0x8000000000000000)
    (hexact : type.shape.dims[axis]? = some (.static n) → Binary64.IsExact n) :
    (dim v axis).Meets l s fun z s' => s'.HasSize z n ∧
      z.isOne = decide (type.shape.dims[axis]? = some (Dim.static 1)) := by
  have hclamp : clampNat n = n := clampNat_of_le (by simp only [maxInt64]; omega)
  refine .query hv.declared ?_
  split
  next size hsize =>
    obtain rfl : n = size := Option.some.inj (hn.symm.trans (hv.type.admits.getElem?_static hsize))
    rw [hclamp]
    refine (index_meets (.of_isExact (hexact hsize))).weaken fun z s' _ hz => ⟨hz.1.hasSize, ?_⟩
    rw [Size.isOne, hz.2, hsize, Bool.eq_iff_iff, beq_iff_eq, decide_eq_true_iff, Option.some.injEq,
      Option.some.injEq, Dim.static.injEq]
    omega
  next hdynamic =>
    have hvalue : evalNode s.supply s.env ⟨.dim v axis, .index⟩ = .ok (.index n) := by
      have htensor := hv.hasTensor.tensor
      simp only [evalNode, htensor, hn, Bind.bind, Except.bind]
      rfl
    refine .bind (.create hvalue fun _ => s.get?_emit_self _ _ _) fun v s' _ hget =>
      .pure ⟨.of_unknown hget rfl, ?_⟩
    rw [hdynamic]
    rfl
  next hnone =>
    have hlen := List.getElem?_eq_none_iff.1 hnone
    obtain ⟨hlen', -⟩ := List.getElem?_eq_some_iff.1 hn
    have hrank : t.shape.length = type.shape.dims.length := hv.type.admits.1
    omega

/-- The sizes of some axes. -/
theorem mapM_dim_declared_meets {axes ns : List Nat} (hv : s.Declared v type t)
    (hlt : ∀ n ∈ t.shape, n < 0x8000000000000000)
    (hexact : ∀ n, Dim.static n ∈ type.shape.dims → Binary64.IsExact n)
    (hn : axes.mapM (t.shape[·]?) = some ns) :
    (axes.mapM (dim v)).Meets l s fun zs s' => s'.HaveSizes zs ns ∧
      zs.map Size.isOne = axes.map fun a => decide (type.shape.dims[a]? = some (Dim.static 1)) := by
  induction axes generalizing s ns with
  | nil =>
      cases hn
      exact .pure ⟨.nil, rfl⟩
  | cons axis axes ih =>
      rw [List.mapM_cons] at hn
      obtain ⟨n, haxis, hn⟩ := Option.bind_eq_some_iff.1 hn
      obtain ⟨rest, hrest, hn⟩ := Option.bind_eq_some_iff.1 hn
      cases hn
      rw [List.mapM_cons]
      refine .bind (dim_declared_meets hv haxis (hlt n (List.mem_of_getElem? haxis))
        fun hsays => hexact n (List.mem_of_getElem? hsays)) ?_
      rintro z s₁ hle₁ ⟨hz, hone⟩
      refine .bind (ih (hv.mono hle₁) hrest) ?_
      rintro zs s₂ hle₂ ⟨hzs, hones⟩
      refine .pure ⟨.cons (hz.mono hle₂) hzs, ?_⟩
      rw [List.map_cons, List.map_cons, hone, hones]

/-- The sizes of every axis. -/
theorem dims_declared_meets (hv : s.Declared v type t) (hlt : ∀ n ∈ t.shape, n < 0x8000000000000000)
    (hexact : ∀ n, Dim.static n ∈ type.shape.dims → Binary64.IsExact n) :
    (dims v).Meets l s fun zs s' => s'.HaveSizes zs t.shape ∧
      ∀ i : Nat, zs[i]?.any Size.isOne = decide (type.shape.dims[i]? = some (Dim.static 1)) := by
  have hrank : type.rank = t.shape.length := hv.type.admits.1.symm
  refine .query hv.declared ?_
  rw [hrank]
  refine (mapM_dim_declared_meets hv hlt hexact mapM_getElem?_range).weaken
    fun zs s' _ h => ⟨h.1, fun i => ?_⟩
  have hsame := congrArg (·[i]?) h.2
  simp only [List.getElem?_map] at hsame
  by_cases hi : i < t.shape.length
  · rw [List.getElem?_range hi, Option.map_some] at hsame
    obtain ⟨z, hz, hone⟩ := Option.map_eq_some_iff.1 hsame
    rw [hz, Option.any_some, hone]
  · have hlong : type.shape.dims[i]? = none :=
      List.getElem?_eq_none_iff.2 (by rw [← Nat.not_lt]; exact fun h => hi (hrank ▸ h))
    have hshort : zs[i]? = none :=
      List.getElem?_eq_none_iff.2 (by rw [h.1.length_eq]; omega)
    rw [hlong, hshort]
    rfl

end Build

end TensorLowering
