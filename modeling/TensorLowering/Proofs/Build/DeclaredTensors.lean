import TensorLowering.Proofs.Build.Declared
import TensorLowering.Proofs.Build.Reductions
import TensorLowering.Proofs.NdArray.Results

/-!
# Tensors of declared types that a construction gives

The tensors are those that the same operations give where every size is known. An operation returns
its input only where the declared types leave no doubt that it would change nothing.
-/
namespace TensorLowering

open Numeric NdArray

/-- A static shape admits only its own sizes. -/
theorem Shape.Admits.eq_ofSizes {shape : Shape} {sizes : List Nat} (h : shape.Admits sizes)
    (hstatic : shape.isStatic = true) : shape = .ofSizes sizes := by
  obtain ⟨dims⟩ := shape
  have hdims : dims = sizes.map Dim.static := by
    have hall := Shape.admits_iff.1 h
    change List.Forall₂ Dim.Admits dims sizes at hall
    clear h
    induction hall with
    | nil => rfl
    | cons hd _ ih =>
        simp only [Shape.isStatic, List.all_cons, Bool.and_eq_true] at hstatic ih
        rcases hd with rfl | rfl
        · rw [List.map_cons, ih hstatic.2]
        · exact absurd hstatic.1 Bool.false_ne_true
  rw [hdims, Shape.ofSizes]

theorem Shape.ofSizes_inj {sizes sizes' : List Nat}
    (h : Shape.ofSizes sizes = Shape.ofSizes sizes') : sizes = sizes' :=
  List.map_injective_iff.2 (fun _ _ hd => Dim.static.inj hd) (Shape.mk.inj h)

/-- Two declarations of the same sizes do not disagree. -/
theorem Build.staticMismatch?_of_both {s t : Shape} {sizes : List Nat} (hs : s.Admits sizes)
    (ht : t.Admits sizes) : Build.staticMismatch? s.dims t.dims = none := by
  refine List.findSome?_eq_none_iff.2 fun entry hentry => ?_
  obtain ⟨⟨d, e⟩, axis⟩ := entry
  rw [List.mem_zipIdx_iff_getElem?] at hentry
  obtain ⟨hd, he⟩ := List.getElem?_zip_eq_some.1 hentry
  obtain ⟨hdlt, hd⟩ := List.getElem?_eq_some_iff.1 hd
  obtain ⟨helt, he⟩ := List.getElem?_eq_some_iff.1 he
  have hs' := Shape.admits_iff.1 hs
  have ht' := Shape.admits_iff.1 ht
  have hlt : axis < sizes.length := hs'.length_eq ▸ hdlt
  have hdn : d.Admits sizes[axis] := by
    have hget := hs'.get hdlt hlt
    rwa [List.get_eq_getElem, hd] at hget
  have hen : e.Admits sizes[axis] := by
    have hget := ht'.get helt hlt
    rwa [List.get_eq_getElem, he] at hget
  rcases hdn with rfl | rfl
  · rcases hen with rfl | rfl
    · exact if_pos rfl
    · rfl
  · rfl

open Stage

namespace Build

variable {l : Limits} {s : Stage} {v : ValueId} {t : Tensor} {zs : List Size} {ns : List Nat}
  {dtype : DType} {x : Binary64}

/-- A node for a tensor that its declared type admits. -/
theorem createTensor_meets {op : Op} {shape : Shape}
    (hvalue : evalNode s.supply s.env ⟨op, .tensor ⟨t.dtype, shape⟩⟩ = .ok (.tensor t))
    (hshape : shape.Admits t.shape) :
    (createTensor op t.dtype shape).Meets l s fun v s' => s'.HasTensor v t :=
  .create hvalue fun _ => hasTensor_emit s ⟨rfl, hshape⟩

/-- A node that has a value exactly when some request is in order. -/
theorem createTensor_checked_meets {op : Op} {shape : Shape} {Fits : Prop}
    (hvalue : Fits → evalNode s.supply s.env ⟨op, .tensor ⟨t.dtype, shape⟩⟩ = .ok (.tensor t))
    (herror : ¬ Fits → ∃ e, evalNode s.supply s.env ⟨op, .tensor ⟨t.dtype, shape⟩⟩ = .error e)
    (hstops : ¬ Fits → ∀ e, l.stops e) (hshape : shape.Admits t.shape) :
    (createTensor op t.dtype shape).Meets l s fun v s' => s'.HasTensor v t ∧ Fits := by
  by_cases hfits : Fits
  · exact (createTensor_meets (hvalue hfits) hshape).weaken fun _ _ _ hv => ⟨hv, hfits⟩
  · obtain ⟨e, he⟩ := herror hfits
    refine .create_of_stops (fun e _ => hstops hfits e) fun value hok => ?_
    cases he.symm.trans hok

theorem scalar_meets {value : Scalar} :
    (scalar value dtype).Meets l s fun v s' => s'.HasScalar v (dtype.round value.toDouble) :=
  scalar_gives.meets_always

/-! ## New tensors -/

/-- A tensor of the sizes that have been computed, which need not be those that are known. -/
theorem filled_array_meets (hz : s.HaveValues zs ns) (hx : s.HasScalar v x)
    (hlarge : TooLarge ns → l.stops (.array (.tooLarge ns))) :
    (filled zs v dtype).Meets l s fun v' s' =>
      s'.HasArray v' (.ofEntries dtype ns fun _ => x) ⟨dtype, Size.shape zs⟩ ∧ ¬ TooLarge ns := by
  have hsizes := hz.sizes
  have hnumber := hx.number
  by_cases hfit : TooLarge ns
  · have hvalue : evalNode s.supply s.env
        ⟨.fill (Size.values zs) v, .tensor ⟨dtype, Size.shape zs⟩⟩ =
          .error (.array (.tooLarge ns)) := by
      simp only [evalNode, hsizes, hnumber, fill, if_pos hfit, Bind.bind, Except.bind]
      rfl
    refine .create_of_stops (fun e he => ?_) fun value hok => ?_
    · cases hvalue.symm.trans he
      exact hlarge hfit
    · cases hvalue.symm.trans hok
  · have hvalue : evalNode s.supply s.env
        ⟨.fill (Size.values zs) v, .tensor ⟨dtype, Size.shape zs⟩⟩ =
          .ok (.tensor (.ofEntries dtype ns fun _ => x)) := by
      simp only [evalNode, hsizes, hnumber, Bind.bind, Except.bind]
      exact arrayResult_fill hfit
    have hrank : ns.length = (Size.shape zs).rank := by
      rw [Size.rank_shape, hz.length_eq]
    exact .create hvalue fun _ => ⟨⟨Graph.tensorType_eq_ok.2 ⟨_, s.node?_emit_self _ _ _⟩, rfl,
      hrank, s.get?_emit_self _ _ _⟩, hfit⟩

theorem zeros_array_meets (hz : s.HaveValues zs ns)
    (hlarge : TooLarge ns → l.stops (.array (.tooLarge ns))) :
    (zeros zs dtype).Meets l s fun v s' =>
      s'.HasArray v (.ofEntries dtype ns fun _ => 0) ⟨dtype, Size.shape zs⟩ ∧ ¬ TooLarge ns := by
  refine .bind scalar_meets fun zero s₁ hle₁ hzero => ?_
  rw [Scalar.toDouble_zero, DType.round_zero] at hzero
  exact filled_array_meets (hz.mono hle₁) hzero hlarge

theorem filled_meets (hz : s.HaveSizes zs ns) (hx : s.HasScalar v x)
    (hlarge : TooLarge ns → ∀ e, l.stops e) :
    (filled zs v dtype).Meets l s fun v' s' =>
      s'.HasTensor v' (.ofEntries dtype ns fun _ => x) ∧ ¬ TooLarge ns :=
  (filled_array_meets hz.haveValues hx fun h => hlarge h _).weaken
    fun _ _ _ hv => ⟨hv.1.hasTensor hz.admits, hv.2⟩

theorem zeros_meets (hz : s.HaveSizes zs ns) (hlarge : TooLarge ns → ∀ e, l.stops e) :
    (zeros zs dtype).Meets l s fun v s' =>
      s'.HasTensor v (.ofEntries dtype ns fun _ => 0) ∧ ¬ TooLarge ns :=
  (zeros_array_meets hz.haveValues fun h => hlarge h _).weaken
    fun _ _ _ hv => ⟨hv.1.hasTensor hz.admits, hv.2⟩

/-! ## Other sizes -/

theorem broadcastTo_meets (hv : s.HasTensor v t) (hz : s.HaveSizes zs ns)
    (hstretch : StretchesTo t.shape ns) (hfit : ¬ TooLarge ns) :
    (broadcastTo v zs).Meets l s fun v' s' => s'.HasTensor v' (t.stretched ns) := by
  refine .tensorType hv fun type _ htype => ?_
  have hrank : ¬ zs.length < type.rank := by
    rw [hz.length_eq, TensorType.rank, ← htype.admits.1]
    exact Nat.not_lt.2 hstretch.1
  simp only [hrank, ↓reduceIte]
  split
  next hsame =>
    -- both shapes are static, so they are the sizes themselves
    have hshape := htype.admits.eq_ofSizes hsame.1
    have hsizes := hz.admits.eq_ofSizes (hsame.2 ▸ hsame.1)
    obtain rfl : t.shape = ns := Shape.ofSizes_inj (hshape.symm.trans (hsame.2.trans hsizes))
    rw [t.stretched_self]
    exact .pure hv
  next =>
    have hsizes := hz.sizes
    have htensor := hv.tensor
    have hto : t.data.broadcastTo ns = .ok (.ofFn ns fun ix => t.entry (alignIndex t.shape ix)) :=
      if_pos ⟨hstretch, hfit⟩
    rw [← htype.dtype]
    refine createTensor_meets (t := t.stretched ns) ?_ hz.admits
    simp only [evalNode, hsizes, htensor, hto, Bind.bind, Except.bind]
    rfl

/-! ## Folding and splitting -/

theorem collapseShape_groups_meets {groups : Reassociation} (hv : s.HasTensor v t)
    (hvalid : groups.IsValid t.shape.length)
    (hvolume : volume (groups.collapsedSizes t.shape) = volume t.shape)
    (hfit : ¬ TooLarge (groups.collapsedSizes t.shape)) :
    (collapseShape v groups).Meets l s fun v' s' =>
      s'.HasTensor v' (t.reshaped (groups.collapsedSizes t.shape)) := by
  refine .tensorType hv fun type _ htype => ?_
  have hrank : groups.check type.shape.rank = .ok () := by
    rw [← htype.admits.1]
    exact Reassociation.check_eq_ok.2 hvalid
  obtain ⟨shape, hshape⟩ : ∃ shape, groups.collapse type.shape = .ok shape := by
    rw [Reassociation.collapse, hrank]
    exact ⟨_, rfl⟩
  rw [hshape, ← htype.dtype]
  exact createTensor_meets (t := t.reshaped (groups.collapsedSizes t.shape))
    (Reassociation.evalNode_collapseShape hvalid hvolume hfit hv.tensor)
    (htype.admits.collapse hshape)

theorem collapseShape_meets {A B C : List Nat} (hv : s.HasTensor v t) (ht : t.shape = A ++ B ++ C)
    (hB : B ≠ []) (hfit : ¬ TooLarge (A ++ [volume B] ++ C)) :
    (collapseShape v (.middle A B C)).Meets l s fun v' s' =>
      s'.HasTensor v' (t.reshaped (A ++ [volume B] ++ C)) := by
  have hvalid : (Reassociation.middle A B C).IsValid t.shape.length :=
    ht ▸ Reassociation.isValid_middle
  have hsizes : (Reassociation.middle A B C).collapsedSizes t.shape = A ++ [volume B] ++ C :=
    ht ▸ Reassociation.collapsedSizes_middle hB
  rw [← hsizes] at hfit ⊢
  refine collapseShape_groups_meets hv hvalid ?_ hfit
  rw [hsizes, ht, volume_fold]

/-- Splitting an axis, as long as an array can have the sizes. -/
theorem expandShape_checked_meets {A B C : List Nat} (hv : s.HasTensor v t)
    (ht : t.shape = A ++ [volume B] ++ C) (hB : B ≠ []) (hz : s.AreSizes l zs (A ++ B ++ C))
    (hlarge : TooLarge (A ++ B ++ C) → ∀ e, l.stops e) :
    (expandShape v (.middle A B C) zs).Meets l s fun v' s' =>
      s'.HasTensor v' (t.reshaped (A ++ B ++ C)) ∧ ¬ TooLarge (A ++ B ++ C) := by
  refine .tensorType hv fun type _ htype => ?_
  have hcheck : (Reassociation.middle A B C).check zs.length = .ok () := by
    rw [hz.length_eq]
    exact Reassociation.check_eq_ok.2 Reassociation.isValid_middle
  have hrank : (Reassociation.middle A B C).collapsedRank = type.rank := by
    rw [TensorType.rank, ← htype.admits.1, ht, Reassociation.collapsedRank_middle hB]
  simp only [hcheck, hrank, ne_eq, not_true_eq_false, ↓reduceIte]
  rw [← htype.dtype]
  have hsizes := hz.sizes
  have htensor := hv.tensor
  have hvolume : volume (A ++ B ++ C) = volume t.shape := by
    rw [ht, volume_fold]
  refine createTensor_checked_meets (t := t.reshaped (A ++ B ++ C)) (fun hfit => ?_)
    (fun hfit => ⟨.array (.cannotReshape t.shape (A ++ B ++ C)), ?_⟩)
    (fun hfit => hlarge (not_not.1 hfit)) hz.admits
  · exact Reassociation.evalNode_expandShape hvolume hfit htensor hsizes
  · have hnone : ofData? (A ++ B ++ C) t.data.data = none := if_pos (not_not.1 hfit)
    simp only [evalNode, hsizes, htensor, reshape, hnone, Bind.bind, Except.bind]
    rfl

theorem expandShape_meets {A B C : List Nat} (hv : s.HasTensor v t)
    (ht : t.shape = A ++ [volume B] ++ C) (hB : B ≠ []) (hz : s.AreSizes l zs (A ++ B ++ C))
    (hfit : ¬ TooLarge (A ++ B ++ C)) :
    (expandShape v (.middle A B C) zs).Meets l s fun v' s' =>
      s'.HasTensor v' (t.reshaped (A ++ B ++ C)) :=
  (expandShape_checked_meets hv ht hB hz fun hlarge => absurd hlarge hfit).weaken
    fun _ _ _ hv => hv.1

/-! ## Element types -/

theorem convert_meets (hv : s.HasTensor v t) :
    (convert v dtype).Meets l s fun v' s' => s'.HasTensor v' (t.converted dtype) := by
  refine .tensorType hv fun type _ htype => ?_
  split
  next hsame =>
    rw [← hsame, ← htype.dtype, t.converted_self]
    exact .pure hv
  next =>
    have htensor := hv.tensor
    refine createTensor_meets (t := t.converted dtype) ?_ htype.admits
    simp only [evalNode, htensor, Bind.bind, Except.bind]
    have hresult : tensorResult (.tensor ⟨dtype, type.shape⟩) t.data =
        .ok (.tensor (.ofArray dtype t.data)) := rfl
    rw [Tensor.dtype_converted, hresult, Tensor.ofArray_eq_ofEntries]
    rfl

/-- The elements converted to the declared type, which they are checked against unless it is known
that they have it. -/
theorem finish_checked_meets {result : TensorType} (hv : s.HasTensor v t)
    (hfails : ¬ result.shape.Admits t.shape → ∀ e, l.fails e)
    (hstops : t.shape.length = result.shape.rank →
      ∀ e, (t.converted result.dtype).check (.tensor result) = .error e → l.stops e) :
    (finish v result).Meets l s fun v' s' =>
      s'.env.get? v' = some (.tensor (t.converted result.dtype)) ∧
        result.shape.Admits t.shape := by
  refine .bind (convert_meets hv) fun v₁ s₁ hle₁ hv₁ => ?_
  refine .tensorType hv₁ fun type _ htype => ?_
  have hdtype : ¬ type.dtype ≠ result.dtype := fun hne => hne htype.dtype.symm
  simp only [hdtype, ↓reduceIte]
  split
  next hrank =>
    refine hfails (fun hadmits => hrank ?_) _
    exact htype.admits.1.symm.trans hadmits.1
  next hrank =>
  split
  next axis m n hmismatch =>
    refine hfails (fun hadmits => ?_) _
    cases hmismatch.symm.trans (staticMismatch?_of_both htype.admits hadmits)
  next =>
  split
  next hsame => exact .pure ⟨hv₁.get, hsame ▸ htype.admits⟩
  next =>
    have htensor := hv₁.tensor
    cases hcheck : (t.converted result.dtype).check (.tensor result) with
    | ok =>
        refine .create ?_ fun _ => ⟨s₁.get?_emit_self _ _ _, (Tensor.check_eq_ok.1 hcheck).admits⟩
        simp only [evalNode, htensor, hcheck, Bind.bind, Except.bind]
        rfl
    | error e =>
        have hrank' : t.shape.length = result.shape.rank :=
          htype.admits.1.trans (not_not.1 hrank)
        have hvalue : evalNode s₁.supply s₁.env ⟨.cast v₁, .tensor result⟩ = .error e := by
          simp only [evalNode, htensor, hcheck, Bind.bind, Except.bind]
        refine .create_of_stops (fun e' he => ?_) fun value hok => ?_
        · cases hvalue.symm.trans he
          exact hstops hrank' e hcheck
        · cases hvalue.symm.trans hok

/-- The elements converted to the declared type. Where something may go wrong, it is that the
declared type does not admit the sizes. -/
theorem finish_meets {result : TensorType} (hv : s.HasTensor v t)
    (hfails : ¬ result.shape.Admits t.shape → ∀ e, l.fails e)
    (hstops : ¬ result.shape.Admits t.shape → t.shape.length = result.shape.rank →
      ∀ e, l.stops e) :
    (finish v result).Meets l s fun v' s' =>
      s'.env.get? v' = some (.tensor (t.converted result.dtype)) ∧
        result.shape.Admits t.shape := by
  refine finish_checked_meets hv hfails fun hrank e he => hstops (fun hadmits => ?_) hrank e
  cases he.symm.trans (Tensor.check_eq_ok.2 ⟨rfl, hadmits⟩)

/-! ## Reductions -/

variable {spec : ReductionSpec} {indexing : Indexing} {lhs rhs init : ValueId} {a b c : Tensor}
  {ids : Option (ValueId × ValueId)} {points : Option (Binary64 × Binary64)}

theorem checkOperand_meets {kernel : String} {i : Nat} {m : AffineMap} {type : TensorType}
    (hv : s.HasArray v t type) (hrank : t.shape.length = m.results.length) :
    (checkOperand kernel i v m).Meets l s fun _ s' => s' = s := by
  refine .query hv.declared ?_
  rw [if_pos (hv.rank.symm.trans hrank)]
  exact .pure rfl

/-- A reduction whose loops run without an error, as far as it may not stop. The initial tensor may
have other sizes than are declared. -/
theorem reduce_array_meets {type : TensorType} (hindexing : spec.indexing? = some indexing)
    (hquantized : spec.isQuantized = points.isSome) (ha : s.HasTensor lhs a)
    (hb : s.HasTensor rhs b) (hc : s.HasArray init c type) (hz : s.HasZeroPoints ids points)
    (hranks : List.Forall₂ (fun shape m => shape.length = m.results.length)
      [a.shape, b.shape, c.shape] indexing.maps)
    (hstops : ∀ e, NdArray.reduce indexing spec.combine (a.widened spec.cast)
      (b.widened spec.cast) (points.getD (0, 0)) c.data = .error e → l.stops (.array e)) :
    (reduce spec lhs rhs ids init).Meets l s fun v s' => ∃ out,
      NdArray.reduce indexing spec.combine (a.widened spec.cast) (b.widened spec.cast)
        (points.getD (0, 0)) c.data = .ok out ∧ s'.HasArray v (.ofArray c.dtype out) type := by
  obtain ⟨maps, iterators⟩ := indexing
  cases hranks with
  | @cons _ lhsMap _ maps ha' hranks =>
  cases hranks with
  | @cons _ rhsMap _ maps hb' hranks =>
  cases hranks with
  | @cons _ outMap _ maps hc' hranks =>
  cases hranks
  obtain ⟨lhsType, halhs, -⟩ := ha.hasArray
  obtain ⟨rhsType, hbrhs, -⟩ := hb.hasArray
  unfold reduce
  simp only [hindexing, List.zip_cons_cons, List.zip_nil_right, List.zipIdx_cons, List.zipIdx_nil,
    List.forM_eq_forM, List.forM_cons, List.forM_nil, LawfulMonad.bind_assoc,
    LawfulMonad.pure_bind]
  refine .bind (checkOperand_meets halhs ha') ?_
  rintro ⟨⟩ s - rfl
  refine .bind (checkOperand_meets hbrhs hb') ?_
  rintro ⟨⟩ s - rfl
  refine .bind (checkOperand_meets hc hc') ?_
  rintro ⟨⟩ s - rfl
  refine .query hc.declared ?_
  have hlhs := ha.tensor
  have hrhs := hb.tensor
  have hinit : s.env.tensor init = .ok c := Env.tensor_eq_ok.2 hc.get
  have hpoints := hz.zeroPointsOf hquantized
  cases hout : NdArray.reduce ⟨[lhsMap, rhsMap, outMap], iterators⟩ spec.combine
      (a.widened spec.cast) (b.widened spec.cast) (points.getD (0, 0)) c.data with
  | error e =>
      have hvalue : evalNode s.supply s.env ⟨.reduce spec lhs rhs ids init, .tensor type⟩ =
          .error (.array e) := by
        simp only [evalNode, hpoints, hindexing, hlhs, hrhs, hinit, hout, Bind.bind, Except.bind]
        rfl
      refine .create_of_stops (fun e' he => ?_) fun value hok => ?_
      · cases hvalue.symm.trans he
        exact hstops e hout
      · cases hvalue.symm.trans hok
  | ok out =>
      have hvalue : evalNode s.supply s.env ⟨.reduce spec lhs rhs ids init, .tensor type⟩ =
          .ok (.tensor (.ofArray c.dtype out)) := by
        simp only [evalNode, hpoints, hindexing, hlhs, hrhs, hinit, hout, Bind.bind, Except.bind]
        rw [hc.dtype]
        rfl
      have hrank : (Tensor.ofArray c.dtype out).shape.length = type.rank := by
        rw [Tensor.shape_ofArray, shape_of_reduce hout]
        exact hc.rank
      exact .create hvalue fun _ => ⟨out, rfl,
        Graph.tensorType_eq_ok.2 ⟨_, s.node?_emit_self _ _ _⟩, hc.dtype, hrank,
        s.get?_emit_self _ _ _⟩

/-- A reduction whose loops run without an error, as far as it may not stop. -/
theorem reduce_meets (hindexing : spec.indexing? = some indexing)
    (hquantized : spec.isQuantized = points.isSome) (ha : s.HasTensor lhs a)
    (hb : s.HasTensor rhs b) (hc : s.HasTensor init c) (hz : s.HasZeroPoints ids points)
    (hranks : List.Forall₂ (fun shape m => shape.length = m.results.length)
      [a.shape, b.shape, c.shape] indexing.maps)
    (hstops : ∀ e, NdArray.reduce indexing spec.combine (a.widened spec.cast)
      (b.widened spec.cast) (points.getD (0, 0)) c.data = .error e → l.stops (.array e)) :
    (reduce spec lhs rhs ids init).Meets l s fun v s' => ∃ out,
      NdArray.reduce indexing spec.combine (a.widened spec.cast) (b.widened spec.cast)
        (points.getD (0, 0)) c.data = .ok out ∧ s'.HasTensor v (.ofArray c.dtype out) := by
  obtain ⟨type, hc, hadmits⟩ := hc.hasArray
  refine (reduce_array_meets hindexing hquantized ha hb hc hz hranks hstops).weaken ?_
  rintro v s' - ⟨out, hout, hv⟩
  refine ⟨out, hout, hv.hasTensor ?_⟩
  rw [Tensor.shape_ofArray, shape_of_reduce hout]
  exact hadmits

/-- A reduction that is known to run. -/
theorem reduce_ok_meets {out : NdArray Binary64} (hindexing : spec.indexing? = some indexing)
    (hquantized : spec.isQuantized = points.isSome) (ha : s.HasTensor lhs a)
    (hb : s.HasTensor rhs b) (hc : s.HasTensor init c) (hz : s.HasZeroPoints ids points)
    (hranks : List.Forall₂ (fun shape m => shape.length = m.results.length)
      [a.shape, b.shape, c.shape] indexing.maps)
    (hout : NdArray.reduce indexing spec.combine (a.widened spec.cast) (b.widened spec.cast)
      (points.getD (0, 0)) c.data = .ok out) :
    (reduce spec lhs rhs ids init).Meets l s fun v s' =>
      s'.HasTensor v (.ofArray c.dtype out) := by
  refine (reduce_meets hindexing hquantized ha hb hc hz hranks fun e he => ?_).weaken ?_
  · cases hout.symm.trans he
  · rintro v s' - ⟨out', hout', hv⟩
    cases hout.symm.trans hout'
    exact hv

/-- Each entry is the initial one plus the terms of the inner loops. -/
theorem reduce_sums_meets {inner : List Nat} {f g o : List Nat → List Nat}
    (hindexing : spec.indexing? = some indexing)
    (hcombine : spec.combine = ReductionSpec.combineFor points.isSome) (ha : s.HasTensor lhs a)
    (hb : s.HasTensor rhs b) (hc : s.HasTensor init c) (hz : s.HasZeroPoints ids points)
    (hroutes : Routes indexing (c.shape ++ inner) a.shape b.shape c.shape f g o)
    (ho : ∀ p, InBounds (c.shape ++ inner) p → o p = p.take c.shape.length) :
    (reduce spec lhs rhs ids init).Meets l s fun v s' =>
      s'.HasTensor v (productSums c a b spec.cast points inner f g) := by
  obtain ⟨out, hout, hshape, hsums⟩ := reduce_sums_eq_ok hcombine hroutes ho
  exact (reduce_ok_meets hindexing (isQuantized_of_combine hcombine) ha hb hc hz hroutes.ranks
    hout).weaken fun _ _ _ hv => hv.of_eq hsums

end Build

end TensorLowering
