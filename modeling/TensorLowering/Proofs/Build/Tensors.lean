import TensorLowering.Proofs.Build.Facts
import TensorLowering.Proofs.NdArray.Folds
import TensorLowering.Proofs.NdArray.Stretching

/-!
# Tensors that a construction gives

For each operation on tensors of static types, the tensor that its node has when the program runs.
An operation that would change nothing gives its input, which is the same tensor.
-/
namespace TensorLowering

open Numeric NdArray

namespace Tensor

variable {t : Tensor} {sizes ix : List Nat}

/-- The tensor stretched to other sizes. -/
def stretched (t : Tensor) (sizes : List Nat) : Tensor :=
  ofEntries t.dtype sizes fun ix => t.entry (alignIndex t.shape ix)

@[simp] theorem dtype_stretched (t : Tensor) (sizes : List Nat) :
    (t.stretched sizes).dtype = t.dtype := rfl

@[simp] theorem shape_stretched (t : Tensor) (sizes : List Nat) :
    (t.stretched sizes).shape = sizes := rfl

theorem entry_stretched (h : InBounds sizes ix) :
    (t.stretched sizes).entry ix = t.entry (alignIndex t.shape ix) := by
  rw [stretched, entry_ofEntries h, round_entry]

theorem stretched_self (t : Tensor) : t.stretched t.shape = t := by
  refine ext_entry rfl rfl fun ix hix => ?_
  have hix' : InBounds t.shape ix := hix
  rw [entry_stretched hix', alignIndex_self hix']

/-- The tensor with its elements rounded to another type. -/
def converted (t : Tensor) (dtype : DType) : Tensor := ofEntries dtype t.shape t.entry

@[simp] theorem dtype_converted (t : Tensor) (dtype : DType) :
    (t.converted dtype).dtype = dtype := rfl

@[simp] theorem shape_converted (t : Tensor) (dtype : DType) :
    (t.converted dtype).shape = t.shape := rfl

theorem entry_converted (dtype : DType) (h : InBounds t.shape ix) :
    (t.converted dtype).entry ix = dtype.round (t.entry ix) :=
  entry_ofEntries h

/-- Converting before or after stretching makes no difference. -/
theorem stretched_converted (dtype : DType) (h : StretchesTo t.shape sizes) :
    (t.converted dtype).stretched sizes = (t.stretched sizes).converted dtype := by
  refine ext_entry rfl rfl fun ix hix => ?_
  have hix' : InBounds sizes ix := hix
  rw [entry_stretched hix', shape_converted, entry_converted _ (h.inBounds hix'),
    entry_converted _ (by exact hix'), entry_stretched hix']

theorem converted_self (t : Tensor) : t.converted t.dtype = t := t.ofEntries_entry

end Tensor

open Stage

namespace Build

variable {fails : LowerError → Prop} {s : Stage} {v : ValueId} {t : Tensor} {zs : List Size}
  {ns : List Nat} {dtype : DType}

/-! ## New tensors -/

theorem filled_gives {x : Binary64} (hz : s.HasSizes zs ns) (hx : s.HasScalar v x)
    (hfit : ¬ TooLarge ns) :
    (filled zs v dtype).Gives fails s fun v' s' =>
      s'.Holds v' (.ofEntries dtype ns fun _ => x) := by
  refine .createTensor (t := .ofEntries dtype ns fun _ => x) ?_ ?_
  · rw [hz.shape]
    rfl
  · have hsizes := hz.sizes
    have hnumber := hx.number
    simp only [evalNode, hsizes, hnumber, Bind.bind, Except.bind]
    exact arrayResult_fill hfit

theorem zeros_gives (hz : s.HasSizes zs ns) (hfit : ¬ TooLarge ns) :
    (zeros zs dtype).Gives fails s fun v s' => s'.Holds v (.ofEntries dtype ns fun _ => 0) := by
  refine Gives.bind scalar_gives fun zero s₁ hle₁ hzero => ?_
  rw [Scalar.toDouble_zero, DType.round_zero] at hzero
  exact filled_gives (hz.mono hle₁) hzero hfit

/-! ## Other sizes -/

theorem broadcastTo_gives (hv : s.Holds v t) (hz : s.HasSizes zs ns)
    (hstretch : StretchesTo t.shape ns) (hfit : ¬ TooLarge ns) :
    (broadcastTo v zs).Gives fails s fun v' s' => s'.Holds v' (t.stretched ns) := by
  refine .tensorType hv ?_
  have hrank : ¬ zs.length < t.type.rank := by
    rw [hz.length_eq, Tensor.rank_type]
    exact Nat.not_lt.2 hstretch.1
  simp only [hrank, ↓reduceIte]
  split
  next hsame =>
    have hshape : t.shape = ns := by
      have hdims := hsame.2
      rw [hz.shape, Tensor.shape_type, Shape.ofSizes, Shape.ofSizes, Shape.mk.injEq] at hdims
      exact List.map_injective_iff.2 (fun a b h => Dim.static.inj h) hdims
    rw [← hshape, t.stretched_self]
    exact .pure hv
  next =>
    refine .createTensor (t := t.stretched ns) ?_ ?_
    · rw [hz.shape]
      rfl
    · have hsizes := hz.sizes
      have htensor := hv.tensor
      have hto : t.data.broadcastTo ns = .ok (.ofFn ns fun ix => t.entry (alignIndex t.shape ix)) :=
        if_pos ⟨hstretch, hfit⟩
      simp only [evalNode, hsizes, htensor, hto, Bind.bind, Except.bind]
      rfl

/-! ## Folding and splitting -/

/-- Folding groups of axes that keep every element. -/
theorem collapseShape_groups_gives {groups : Reassociation} (hv : s.Holds v t)
    (hvalid : groups.IsValid t.shape.length)
    (hvolume : volume (groups.collapsedSizes t.shape) = volume t.shape)
    (hfit : ¬ TooLarge (groups.collapsedSizes t.shape)) :
    (collapseShape v groups).Gives fails s fun v' s' =>
      s'.Holds v' (t.reshaped (groups.collapsedSizes t.shape)) := by
  refine .tensorType hv ?_
  rw [Tensor.shape_type, Reassociation.collapse_ofSizes hvalid]
  exact .createTensor (t := t.reshaped (groups.collapsedSizes t.shape)) rfl
    (Reassociation.evalNode_collapseShape hvalid hvolume hfit hv.tensor)

theorem collapseShape_gives {A B C : List Nat} (hv : s.Holds v t) (ht : t.shape = A ++ B ++ C)
    (hB : B ≠ []) (hfit : ¬ TooLarge (A ++ [volume B] ++ C)) :
    (collapseShape v (.middle A B C)).Gives fails s fun v' s' =>
      s'.Holds v' (t.reshaped (A ++ [volume B] ++ C)) := by
  have hvalid : (Reassociation.middle A B C).IsValid t.shape.length :=
    ht ▸ Reassociation.isValid_middle
  have hsizes : (Reassociation.middle A B C).collapsedSizes t.shape = A ++ [volume B] ++ C :=
    ht ▸ Reassociation.collapsedSizes_middle hB
  rw [← hsizes] at hfit ⊢
  refine collapseShape_groups_gives hv hvalid ?_ hfit
  rw [hsizes, ht, volume_fold]

theorem expandShape_gives {A B C : List Nat} (hv : s.Holds v t)
    (ht : t.shape = A ++ [volume B] ++ C) (hB : B ≠ []) (hz : s.HasSizes zs (A ++ B ++ C))
    (hfit : ¬ TooLarge (A ++ B ++ C)) :
    (expandShape v (.middle A B C) zs).Gives fails s fun v' s' =>
      s'.Holds v' (t.reshaped (A ++ B ++ C)) := by
  have hcheck : (Reassociation.middle A B C).check zs.length = .ok () := by
    rw [hz.length_eq]
    exact Reassociation.check_eq_ok.2 Reassociation.isValid_middle
  have hrank : (Reassociation.middle A B C).collapsedRank = t.type.rank := by
    rw [Tensor.rank_type, ht, Reassociation.collapsedRank_middle hB]
  refine .tensorType hv ?_
  simp only [hcheck, hrank, ne_eq, not_true_eq_false, ↓reduceIte]
  refine .createTensor (t := t.reshaped (A ++ B ++ C)) ?_ ?_
  · rw [hz.shape]
    rfl
  · have hvolume : volume (A ++ B ++ C) = volume t.shape := by
      rw [ht, volume_fold]
    exact Reassociation.evalNode_expandShape hvolume hfit hv.tensor hz.sizes

/-! ## Element types -/

theorem convert_gives (hv : s.Holds v t) :
    (convert v dtype).Gives fails s fun v' s' => s'.Holds v' (t.converted dtype) := by
  refine .tensorType hv ?_
  split
  next hsame =>
    rw [Tensor.dtype_type] at hsame
    rw [← hsame, t.converted_self]
    exact .pure hv
  next =>
    refine .createTensor (t := t.converted dtype) rfl ?_
    have htensor := hv.tensor
    simp only [evalNode, htensor, Bind.bind, Except.bind]
    have hresult : tensorResult (.tensor (t.converted dtype).type) t.data =
        .ok (.tensor (.ofArray dtype t.data)) := rfl
    rw [hresult, Tensor.ofArray_eq_ofEntries]
    rfl

/-- Static sizes that disagree with no declared one are admitted. -/
theorem admits_of_staticMismatch? {declared : Shape} {sizes : List Nat}
    (hrank : sizes.length = declared.rank)
    (h : staticMismatch? (Shape.ofSizes sizes).dims declared.dims = none) :
    declared.Admits sizes := by
  refine ⟨hrank, fun e he => ?_⟩
  obtain ⟨i, hi, hget⟩ := List.getElem_of_mem he
  have hlen : i < declared.dims.length ∧ i < sizes.length := by
    rw [List.length_zip] at hi
    omega
  obtain ⟨hdim, hsize⟩ := hlen
  have hentry := List.findSome?_eq_none_iff.1 h ((.static sizes[i], declared.dims[i]), i) (by
    rw [List.mem_zipIdx_iff_getElem?]
    exact List.getElem?_zip_eq_some.2 ⟨by simp [Shape.ofSizes, hsize], by simp [hdim]⟩)
  rw [List.getElem_zip] at hget
  subst hget
  simp only at hentry ⊢
  cases hd : declared.dims[i] with
  | dynamic => exact .inr rfl
  | static n =>
      left
      rw [hd] at hentry
      by_cases hn : sizes[i] = n
      · rw [hn]
      · simp [hn] at hentry

theorem staticMismatch?_of_admits {declared : Shape} {sizes : List Nat}
    (h : declared.Admits sizes) :
    staticMismatch? (Shape.ofSizes sizes).dims declared.dims = none := by
  refine List.findSome?_eq_none_iff.2 fun entry hentry => ?_
  obtain ⟨⟨m, n⟩, axis⟩ := entry
  rw [List.mem_zipIdx_iff_getElem?] at hentry
  obtain ⟨hm, hn⟩ := List.getElem?_zip_eq_some.1 hentry
  simp only [Shape.ofSizes, List.getElem?_map, Option.map_eq_some_iff] at hm
  obtain ⟨size, hsize, rfl⟩ := hm
  have hmem : (n, size) ∈ declared.dims.zip sizes :=
    List.mem_of_getElem? (List.getElem?_zip_eq_some.2 ⟨hn, hsize⟩)
  rcases h.2 _ hmem with hstatic | hdynamic
  · simp only at hstatic
    simp [hstatic]
  · simp only at hdynamic
    simp [hdynamic]

/-- The elements converted to the declared type. Where failing is not allowed, the declared type has
to admit the sizes. -/
theorem finish_gives {result : TensorType} (hv : s.Holds v t)
    (hadmits : (∀ e, fails e) ∨ result.shape.Admits t.shape) :
    (finish v result).Gives fails s fun v' s' =>
      s'.env.get? v' = some (.tensor (t.converted result.dtype)) ∧
        result.shape.Admits t.shape := by
  refine Gives.bind (convert_gives hv) fun v₁ s₁ hle₁ hv₁ => ?_
  refine .tensorType hv₁ ?_
  have hdtype : ¬ (t.converted result.dtype).type.dtype ≠ result.dtype := fun h => h rfl
  simp only [hdtype, ↓reduceIte]
  split
  next hrank =>
    rcases hadmits with hany | hadmits
    · exact hany _
    · refine absurd ?_ hrank
      rw [Tensor.rank_type]
      exact hadmits.1
  next hrank =>
    have hrank' : t.shape.length = result.shape.rank := by
      have heq := not_not.1 hrank
      rwa [Tensor.rank_type] at heq
    split
    next axis m n hmismatch =>
      rcases hadmits with hany | hadmits
      · exact hany _
      · have hnone := staticMismatch?_of_admits hadmits
        rw [Tensor.shape_type, Tensor.shape_converted, hnone] at hmismatch
        cases hmismatch
    next hnone =>
      have hadmits' : result.shape.Admits t.shape := admits_of_staticMismatch? hrank' hnone
      split
      next => exact .pure ⟨hv₁.get, hadmits'⟩
      next =>
        have htensor := hv₁.tensor
        have hcheck : (t.converted result.dtype).check (.tensor result) = .ok () := by
          simp only [Tensor.check, ValueType.tensor?, Tensor.dtype_converted, ne_eq,
            not_true_eq_false, ↓reduceIte, Tensor.shape_converted]
          exact if_pos hadmits'
        have hvalue : evalNode s₁.supply s₁.env ⟨.cast v₁, .tensor result⟩ =
            .ok (.tensor (t.converted result.dtype)) := by
          simp only [evalNode, htensor, hcheck, Bind.bind, Except.bind]
          rfl
        exact ⟨_, hvalue, s₁.get?_emit_self _ _ _, hadmits'⟩

end Build

end TensorLowering
