import TensorLowering.Proofs.MatrixProduct.Declared

/-!
# Batches of declared types

A batch of several axes is folded into one when at most one of its sizes is unknown, and has a loop
for each axis otherwise. The loops of a batch visit the summed axis before the columns, and still
add the terms of an element in the same order. Main statement: every form gives the product of its
operands.
-/
namespace TensorLowering

open Numeric NdArray Stage Build

namespace Factors

variable {l : Limits} {f : Factors} {s s' : Stage} {a b t : Tensor} {v w : ValueId}
  {zs : Option (Binary64 × Binary64)} {m n k k' : Nat} {batch lb rb : List Nat}

/-! ## Sizes -/

/-- The sizes of a batch of matrices, known or not. -/
structure Shaped (s : Stage) (l : Limits) (z : BatchSizes) (batch : List Nat) (rows columns : Nat) :
    Prop where
  batch : s.AreSizes l z.batch batch
  rows : s.IsSize l z.rows rows
  columns : s.IsSize l z.columns columns

theorem Shaped.mono {z : BatchSizes} (h : Shaped s l z batch m n) (hle : s ≤ s') :
    Shaped s' l z batch m n :=
  ⟨h.batch.mono hle, h.rows.mono hle, h.columns.mono hle⟩

theorem batchSizes_meets {x : OperandInfo} (hx : s.HasTensor x.value t)
    (hrank : x.rank = t.shape.length) (hshape : t.shape = batch ++ [m, n])
    (hexact : ∀ k ∈ t.shape, Binary64.IsExact k) :
    (batchSizes x).Meets l s fun z s' => Shaped s' l z batch m n := by
  have hrank' : x.rank - 2 = batch.length := by
    rw [hrank, hshape]
    simp
  obtain ⟨hbatch, hm, hn⟩ := axes_of_batch hshape
  have hmem : ∀ k ∈ batch, Binary64.IsExact k := fun k hk => hexact k (by simp [hshape, hk])
  unfold batchSizes
  simp only [hrank']
  refine .bind (mapM_dim_meets hx hbatch (fun k hk => (hmem k hk).lt) fun k hk =>
    .of_isExact (hmem k hk)) ?_
  rintro zs s₁ hle₁ ⟨hzs, -⟩
  have hx₁ := hx.mono hle₁
  refine .bind (axis_meets hx₁ hm (hexact m (by simp [hshape]))) fun rows s₂ hle₂ hrows => ?_
  refine .bind (axis_meets (hx₁.mono hle₂) hn (hexact n (by simp [hshape]))) ?_
  intro columns s₃ hle₃ hcolumns
  exact .pure ⟨hzs.mono (hle₂.trans hle₃), hrows.mono hle₃, hcolumns⟩

/-- The product of sizes, whose partial products doubles hold. -/
theorem foldlM_mul_meets {first : Size} {zs : List Size} {ns : List Nat}
    (hfirst : s.IsSize l first m) (hz : s.AreSizes l zs ns)
    (hexact : ∀ sizes, sizes <+: ns → Binary64.IsExact ((m * volume sizes : Nat) : Int)) :
    (zs.foldlM mul first).Meets l s fun z s' => s'.IsSize l z (m * volume ns : Nat) := by
  induction ns generalizing s first m zs with
  | nil =>
      cases hz
      rw [volume, Nat.mul_one]
      exact .pure hfirst
  | cons n ns ih =>
      obtain ⟨z, zs, hhead, hrest, rfl⟩ := List.forall₂_cons_right_iff.1 hz
      have hmn : Binary64.IsExact ((m * n : Nat) : Int) := by
        simpa [volume] using hexact [n] (by simp)
      have hmul : ArithOp.mul.eval? (m : Int) n = some ((m * n : Nat) : Int) :=
        bounded?_eq_some.2 ⟨hmn.inInt64, (Int.natCast_mul m n).symm⟩
      rw [List.foldlM_cons, volume, ← Nat.mul_assoc]
      refine .bind (arith_meets hfirst hhead hmul (.of_isExact hmn)) fun y s₁ hle₁ hy => ?_
      refine ih hy (AreSizes.mono hrest hle₁) fun sizes hsizes => ?_
      have hcons := hexact (n :: sizes) ((List.prefix_cons_inj n).2 hsizes)
      rwa [volume, ← Nat.mul_assoc] at hcons

theorem product_meets {zs : List Size} {ns : List Nat} (hz : s.AreSizes l zs ns)
    (hexact : ∀ sizes, sizes <+: ns → Binary64.IsExact (volume sizes)) :
    (product zs).Meets l s fun z s' => s'.IsSize l z (volume ns) := by
  cases hz with
  | nil => exact (index_meets (.of_isExact Binary64.isExact_one)).weaken fun _ _ _ hz => hz.1
  | @cons z n zs ns hfirst hrest =>
      refine foldlM_mul_meets hfirst hrest fun sizes hsizes => ?_
      exact hexact (n :: sizes) ((List.prefix_cons_inj n).2 hsizes)

/-! ## The kernels of a batch -/

theorem batchKernel_meets {sizes : List Size} {c : Nat} (hf : s.HasZeroPoints f.zeroPoints? zs)
    (ha : s.HasTensor v a) (hb : s.HasTensor w b) (hashape : a.shape = [c, m, k])
    (hbshape : b.shape = [c, k, n]) (hz : s.AreSizes l sizes [c, m, n])
    (hfit : ¬ TooLarge [c, m, n]) :
    (zeros sizes f.accumulator >>= fun init =>
      f.reduce (.named (if zs.isSome then .quantizedBatchMatmul else .batchMatmul)) v w
        init).Meets l s fun v s' =>
      ∃ t, s'.HasTensor v t ∧ t.dtype = f.accumulator ∧ t.shape = [c, m, n] ∧
        ∀ batch i j, batch < c → i < m → j < n →
          t.entry [batch, i, j] = f.accumulator.round (batchSum zs k a b batch i j) := by
  refine (kernel_meets (runsOver_batch zs.isSome c m n k) hf ha hb hz hfit hashape
    hbshape).weaken ?_
  intro v s' _ hv
  rw [cast_batchKernel] at hv
  exact ⟨_, hv, rfl, rfl, fun batch i j hbatch hi hj => entry_loopSums_batch hbatch hi hj⟩

/-- Where the loops of a batch send a point. -/
theorem select_batch (bx : List Nat) (i q j : Nat) :
    select (List.range bx.length ++ [bx.length, bx.length + 1]) (bx ++ [i, q, j]) = bx ++ [i, q] ∧
      select (List.range bx.length ++ [bx.length + 1, bx.length + 2]) (bx ++ [i, q, j]) =
        bx ++ [q, j] ∧
      select (List.range bx.length ++ [bx.length, bx.length + 2]) (bx ++ [i, q, j]) =
        bx ++ [i, j] := by
  have hfirst : (List.range bx.length).map ((bx ++ [i, q, j]).getD · 0) = bx := by
    have hlength : bx.length ≤ (bx ++ [i, q, j]).length := by simp
    simpa [select] using select_range hlength
  have hget : ∀ e, (bx ++ [i, q, j]).getD (bx.length + e) 0 = [i, q, j].getD e 0 := by
    intro e
    simp [List.getD_eq_getElem?_getD, List.getElem?_append_right]
  have hzero := hget 0
  rw [Nat.add_zero] at hzero
  simp only [select, List.map_append, List.map_cons, List.map_nil, hfirst, hzero, hget]
  exact ⟨rfl, rfl, rfl⟩

theorem routes_batch (batch : List Nat) (m k n : Nat) :
    Routes (batchIndexing batch.length) (batch ++ [m, k, n]) (batch ++ [m, k]) (batch ++ [k, n])
      (batch ++ [m, n]) (select (List.range batch.length ++ [batch.length, batch.length + 1]))
      (select (List.range batch.length ++ [batch.length + 1, batch.length + 2]))
      (select (List.range batch.length ++ [batch.length, batch.length + 2])) := by
  obtain ⟨hl, hr, ho⟩ := select_batch batch m k n
  have hbound : (batch ++ [m, k, n]).length = batch.length + 3 := by simp
  have hlast : ∀ e e', e < 3 → e' < 3 →
      ∀ d ∈ List.range batch.length ++ [batch.length + e, batch.length + e'],
        d < (batch ++ [m, k, n]).length := by
    intro e e' he he' d hd
    rw [hbound]
    simp only [List.mem_append, List.mem_range, List.mem_cons, List.not_mem_nil, or_false] at hd
    omega
  have hlen : (batch ++ [m, k, n]).length =
      (List.replicate (batch.length + 1) IteratorKind.parallel ++
      [IteratorKind.reduction, .parallel]).length := by
    simp
  have hroutes := routes_projections hlen
    (hlast 0 1 (by omega) (by omega)) (hlast 1 2 (by omega) (by omega))
    (hlast 0 2 (by omega) (by omega)) fun d hd => ?_
  · rw [Nat.add_zero, hl, hr, ho] at hroutes
    exact hroutes
  · rw [hbound] at hd
    simp only [List.mem_append, List.mem_range, List.mem_cons, List.not_mem_nil, or_false]
    omega

/-- The points at which an element of a batch is added to. -/
theorem filter_points_batch {bx : List Nat} {i j : Nat} (hbx : InBounds batch bx) (hi : i < m)
    (hj : j < n) :
    (points (batch ++ [m, k, n])).filter (fun p =>
        select (List.range batch.length ++ [batch.length, batch.length + 2]) p = bx ++ [i, j]) =
      (List.range k).map fun q => bx ++ [i, q, j] := by
  have hbetween := filter_points_between [k]
    (hbx.append (inBounds_singleton.2 ⟨i, rfl, hi⟩)) (inBounds_singleton.2 ⟨j, rfl, hj⟩)
  simp only [List.append_assoc, List.singleton_append, points_singleton, List.map_map] at hbetween
  refine (List.filter_congr fun p hp => ?_).trans
    (hbetween.trans (List.map_congr_left fun q _ => rfl))
  obtain ⟨bx', rest, rfl, hbx', hrest⟩ := (mem_points.1 hp).exists_append
  obtain ⟨i', rest, rfl, -, hrest⟩ := inBounds_cons.1 hrest
  obtain ⟨q', rest, rfl, -, hrest⟩ := inBounds_cons.1 hrest
  obtain ⟨j', rfl, -⟩ := inBounds_singleton.1 hrest
  obtain ⟨-, -, ho⟩ := select_batch bx' i' q' j'
  have htake : (bx' ++ [i', q', j']).take (batch ++ [m]).length = bx' ++ [i'] := by
    rw [List.length_append, ← hbx'.length_eq, List.take_length_add_append]
    rfl
  have hdrop : (bx' ++ [i', q', j']).drop ((batch ++ [m]).length + [k].length) = [j'] := by
    rw [List.length_append, Nat.add_assoc, ← hbx'.length_eq, List.drop_length_add_append]
    rfl
  rw [htake, hdrop, ← hbx'.length_eq, ho, List.append_assoc]
  rfl

/-- A loop for each axis of the batch, and the summed axis before the columns. -/
theorem batchLoops_meets {sizes : List Size} (hf : s.HasZeroPoints f.zeroPoints? zs)
    (ha : s.HasTensor v a) (hb : s.HasTensor w b) (hashape : a.shape = batch ++ [m, k])
    (hbshape : b.shape = batch ++ [k, n]) (hz : s.AreSizes l sizes (batch ++ [m, n]))
    (hfit : ¬ TooLarge (batch ++ [m, n])) :
    (zeros sizes f.accumulator >>= fun init =>
      f.reduce (.generic (batchIndexing batch.length) zs.isSome) v w init).Meets l s fun v s' =>
      ∃ t, s'.HasTensor v t ∧ t.dtype = f.accumulator ∧ t.shape = batch ++ [m, n] ∧
        ∀ bx i j, InBounds batch bx → i < m → j < n →
          t.entry (bx ++ [i, j]) = f.accumulator.round (positionSum zs k a b bx i j) := by
  have hroutes := routes_batch batch m k n
  have hcombine : (ReductionSpec.generic (batchIndexing batch.length) zs.isSome).combine =
      ReductionSpec.combineFor zs.isSome := rfl
  refine .bind (zeros_meets hz.haveSizes fun hlarge => absurd hlarge hfit) ?_
  rintro init s₁ hle₁ ⟨hinit, -⟩
  rw [← hashape, ← hbshape] at hroutes
  have hroutes' : Routes (batchIndexing batch.length) (batch ++ [m, k, n])
      (a.widened .signed).shape (b.widened .signed).shape
      (Tensor.ofEntries f.accumulator (batch ++ [m, n]) fun _ => 0).data.shape _ _ _ := hroutes
  obtain ⟨out, hout, hshape, hentry⟩ :=
    reduce_eq_ok (ReductionSpec.combineFor zs.isSome) (zs.getD (0, 0)) hroutes'
  have hindexing : (ReductionSpec.generic (batchIndexing batch.length) zs.isSome).indexing? =
      some (batchIndexing batch.length) := rfl
  refine (reduce_ok_meets hindexing
    (isQuantized_of_combine hcombine) (ha.mono hle₁) (hb.mono hle₁) hinit (hf.mono hle₁)
    hroutes.ranks hout).weaken fun v s₂ _ hv => ?_
  refine ⟨_, hv, rfl, hshape, fun bx i j hbx hi hj => ?_⟩
  have hij : InBounds (batch ++ [m, n]) (bx ++ [i, j]) := hbx.append ⟨hi, hj, trivial⟩
  have hout' : InBounds out.shape (bx ++ [i, j]) := hshape ▸ hij
  rw [Tensor.ofArray_eq_ofEntries, Tensor.entry_ofEntries hout', hentry _ hij,
    filter_points_batch hbx hi hj, addTerms, List.foldl_map]
  have hzero : (Tensor.ofEntries f.accumulator (batch ++ [m, n]) fun _ => 0).data.entry
      (bx ++ [i, j]) = 0 := by
    have hentry : (Tensor.ofEntries f.accumulator (batch ++ [m, n]) fun _ => 0).entry
        (bx ++ [i, j]) = f.accumulator.round 0 := Tensor.entry_ofEntries hij
    exact hentry.trans f.accumulator.round_zero
  rw [hzero]
  refine congrArg f.accumulator.round (List.foldl_ext _ _ _ fun sum q hq => ?_)
  have hq' := List.mem_range.1 hq
  obtain ⟨hl, hr, -⟩ := select_batch bx i q j
  have hiq : InBounds a.shape (bx ++ [i, q]) := hashape ▸ hbx.append ⟨hi, hq', trivial⟩
  have hqj : InBounds b.shape (bx ++ [q, j]) := hbshape ▸ hbx.append ⟨hq', hj, trivial⟩
  rw [← hbx.length_eq, hl, hr]
  exact congrArg (sum + ·) (term_widened hcombine hiq hqj)

/-! ## The two ways to run a batch -/

theorem foldedProduct_meets {p : ProductSizes} {sizes : List Size} {rows columns : Size}
    {lhs rhs : ValueId} (hf : s.HasZeroPoints f.zeroPoints? zs)
    (hquantized : f.isQuantized = zs.isSome) (ha : a.shape = p.lhs) (hb : b.shape = p.rhs)
    (hrows : p.rows = some m) (hcolumns : p.columns = some n) (hbatch : p.batch ≠ [])
    (hexact : ∀ sizes, sizes <+: p.batch → Binary64.IsExact (volume sizes)) (hfits : p.Fits)
    (hlhs : s.HasTensor lhs (a.stretched (p.batch ++ [m, p.inner])))
    (hrhs : s.HasTensor rhs (b.stretched (p.batch ++ [p.inner, n])))
    (hsizes : s.AreSizes l sizes p.batch) (hrow : s.IsSize l rows m)
    (hcolumn : s.IsSize l columns n) :
    (f.foldedProduct sizes rows columns lhs rhs).Meets l s fun v s' =>
      s'.HasTensor v (p.products f.accumulator (a.factor .signed (zs.map Prod.fst))
        (b.factor .signed (zs.map Prod.snd))) := by
  obtain ⟨hafit, hbfit, hfit⟩ := fits_of_matrices hfits hrows hcolumns
  have hfold := foldRange_batch hsizes.length_eq
  have hout : s.AreSizes l (sizes ++ [rows, columns]) (p.batch ++ [m, n]) :=
    hsizes.append (.cons hrow (.cons hcolumn .nil))
  unfold foldedProduct
  refine .bind (hfold m p.inner ▸ collapseShape_meets (A := []) hlhs rfl hbatch
    (not_tooLarge_fold (A := []) hafit)) fun lhs' s₁ hle₁ hlhs' => ?_
  refine .bind (hfold p.inner n ▸ collapseShape_meets (A := []) (hrhs.mono hle₁) rfl hbatch
    (not_tooLarge_fold (A := []) hbfit)) fun rhs' s₂ hle₂ hrhs' => ?_
  refine .bind (product_meets (hsizes.mono (hle₁.trans hle₂)) hexact) fun size s₃ hle₃ hsize => ?_
  have hle := hle₁.trans (hle₂.trans hle₃)
  have hsizes' : s₃.AreSizes l [size, rows, columns] [volume p.batch, m, n] :=
    .cons hsize (.cons (hrow.mono hle) (.cons (hcolumn.mono hle) .nil))
  rw [hquantized, ← LawfulMonad.bind_assoc]
  refine .bind (batchKernel_meets (hf.mono hle) (hlhs'.mono (hle₂.trans hle₃)) (hrhs'.mono hle₃)
    rfl rfl hsizes' (not_tooLarge_fold (A := []) hfit)) ?_
  rintro v s₄ hle₄ ⟨t, ht, hdtype, hshape, hentry⟩
  refine (hfold m n ▸ expandShape_meets (A := []) ht hshape hbatch (hout.mono (hle.trans hle₄))
    hfit : Meets l (expandShape v _ _) s₄ _).weaken fun v' s₅ _ hv' => ?_
  exact hv'.of_eq (reshaped_eq_products ha hb hrows hcolumns hdtype hshape hentry)

theorem commonProduct_meets {p : ProductSizes} {sizes : List Size} {rows columns : Size}
    {lhs rhs : ValueId} (hf : s.HasZeroPoints f.zeroPoints? zs)
    (hquantized : f.isQuantized = zs.isSome) (ha : a.shape = p.lhs) (hb : b.shape = p.rhs)
    (hrows : p.rows = some m) (hcolumns : p.columns = some n) (hbatch : p.batch ≠ [])
    (hexact : ∀ sizes, sizes <+: p.batch → Binary64.IsExact (volume sizes)) (hfits : p.Fits)
    (hlhs : s.HasTensor lhs (a.stretched (p.batch ++ [m, p.inner])))
    (hrhs : s.HasTensor rhs (b.stretched (p.batch ++ [p.inner, n])))
    (hsizes : s.AreSizes l sizes p.batch) (hrow : s.IsSize l rows m)
    (hcolumn : s.IsSize l columns n) :
    (f.commonProduct sizes rows columns lhs rhs).Meets l s fun v s' =>
      s'.HasTensor v (p.products f.accumulator (a.factor .signed (zs.map Prod.fst))
        (b.factor .signed (zs.map Prod.snd))) := by
  obtain ⟨-, -, hfit⟩ := fits_of_matrices hfits hrows hcolumns
  have hout : s.AreSizes l (sizes ++ [rows, columns]) (p.batch ++ [m, n]) :=
    hsizes.append (.cons hrow (.cons hcolumn .nil))
  have hlen := hsizes.length_eq
  unfold commonProduct
  split
  next hone =>
    obtain ⟨c, hc⟩ := List.length_eq_one_iff.1 (hlen ▸ hone)
    rw [hc] at hout hfit
    rw [hquantized]
    refine (batchKernel_meets (k := p.inner) hf hlhs hrhs
      (by rw [Tensor.shape_stretched, hc]; rfl) (by rw [Tensor.shape_stretched, hc]; rfl)
      hout hfit).weaken ?_
    rintro v s' - ⟨t, ht, hdtype, hshape, hentry⟩
    exact ht.of_eq (eq_products_of_axis ha hb hrows hcolumns hc hdtype hshape hentry)
  next hone =>
  split
  next hknown =>
    exact foldedProduct_meets hf hquantized ha hb hrows hcolumns hbatch hexact hfits hlhs hrhs
      hsizes hrow hcolumn
  next hunknown =>
    rw [hquantized, hlen]
    refine (batchLoops_meets hf hlhs hrhs rfl rfl hout hfit).weaken ?_
    rintro v s' - ⟨t, ht, hdtype, hshape, hentry⟩
    exact ht.of_eq (eq_products_of_positions ha hb hrows hcolumns hdtype hshape hentry)

theorem batched_meets (hf : f.Prepared s a b zs) (ha : a.shape = lb ++ [m, k])
    (hb : b.shape = rb ++ [k', n]) (hbatch : ¬ (lb = [] ∧ rb = []))
    (hm : Measured l a.shape b.shape) :
    f.batched.Meets l s fun v s' => f.IsProduct s' v a b zs := by
  have hlb : a.shape.take (a.shape.length - 2) = lb := by simp [ha]
  have hrb : b.shape.take (b.shape.length - 2) = rb := by simp [hb]
  have hposl := hm.lhsBatch
  have hposr := hm.rhsBatch
  rw [hlb] at hposl
  rw [hrb] at hposr
  unfold batched
  refine .bind (batchSizes_meets hf.lhs hf.lhsRank ha hm.lhs) fun x s₁ hle₁ hx => ?_
  have hf₁ := hf.mono hle₁
  refine .bind (batchSizes_meets hf₁.rhs hf₁.rhsRank hb hm.rhs) fun y s₂ hle₂ hy => ?_
  refine .bind (broadcastSizes_meets (hx.batch.mono hle₂) hy.batch hposl hposr fun hnone => ?_) ?_
  · refine hm.wrong ?_
    rintro ⟨p, hl, hr⟩
    refine hnone p.batch ?_
    rw [← hlb, ← hrb, ← hl, ← hr, p.take_lhs, p.take_rhs, p.common]
  rintro sizes s₃ hle₃ ⟨batch, hcommon, hsizes⟩
  have hx₃ := hx.mono (hle₂.trans hle₃)
  have hy₃ := hy.mono hle₃
  refine .bind (requireEqual_meets hx₃.columns hy₃.rows fun hne => hm.refuses ?_) ?_
  · simpa [ha, hb] using hne
  rintro _ s₄ hle₄ hk
  obtain rfl : k = k' := Int.ofNat_inj.1 hk
  let p : ProductSizes := ⟨lb, rb, batch, some m, k, some n, hcommon, by simp⟩
  have hpl : p.lhs = a.shape := ha.symm
  have hpr : p.rhs = b.shape := hb.symm
  have hfits := hm.fits p hpl hpr
  have hafit : ¬ TooLarge (batch ++ [m, k]) := hfits.lhs
  have hbfit : ¬ TooLarge (batch ++ [k, n]) := hfits.rhs
  obtain ⟨hsl, hsr⟩ := stretchesTo_broadcastShape hcommon
  have hne : batch ≠ [] := fun hempty => hbatch (p.nil_of_batch hempty)
  have hf₄ := hf₁.mono (hle₂.trans (hle₃.trans hle₄))
  have hx₄ := hx₃.mono hle₄
  have hy₄ := hy₃.mono hle₄
  have hsizes₄ := hsizes.mono hle₄
  have hlhs : s₄.AreSizes l (sizes ++ [x.rows, x.columns]) (batch ++ [m, k]) :=
    hsizes₄.append (.cons hx₄.rows (.cons hx₄.columns .nil))
  refine .bind (broadcastTo_meets hf₄.lhs hlhs.haveSizes (ha ▸ hsl.append_right _) hafit) ?_
  intro lhs s₅ hle₅ hlhs
  have hrhs : s₅.AreSizes l (sizes ++ [y.rows, y.columns]) (batch ++ [k, n]) :=
    (hsizes₄.append (.cons hy₄.rows (.cons hy₄.columns .nil))).mono hle₅
  refine .bind (broadcastTo_meets (hf₄.rhs.mono hle₅) hrhs.haveSizes (hb ▸ hsr.append_right _)
    hbfit) ?_
  intro rhs s₆ hle₆ hrhs
  have hle₄₆ := hle₅.trans hle₆
  exact (commonProduct_meets (p := p) (hf₄.mono hle₄₆).zeroPoints hf.quantized hpl.symm hpr.symm
    rfl rfl hne (hm.batch p hpl hpr) hfits (hlhs.mono hle₆) hrhs (hsizes₄.mono hle₄₆)
    (hx₄.rows.mono hle₄₆) (hy₄.columns.mono hle₄₆)).weaken fun v s₇ _ hv => ⟨p, hpl, hpr, hv⟩

/-! ## Every form -/

/-- A vector among the operands: a quantized one becomes a matrix, any other has a kernel of its
own. -/
theorem inForm_vector_meets {rows columns : Option Nat} (hf : f.Prepared s a b zs)
    (ha : a.shape = rows.toList ++ [k]) (hb : b.shape = k' :: columns.toList)
    (hvector : rows = none ∨ columns = none) (hm : Measured l a.shape b.shape) :
    (f.inForm (ProductSizes.unbatched rows k columns).form).Meets l s
      fun v s' => f.IsProduct s' v a b zs := by
  have hform := (ProductSizes.hasVector_form (.unbatched rows k columns)).2 hvector
  unfold inForm
  rw [hform, hf.quantized, Bool.and_true]
  cases zs with
  | some zs => exact quantizedVector_meets hf ha hb hvector hm
  | none =>
      cases rows with
      | none =>
          cases columns with
          | none => exact dot_meets hf ha hb hm
          | some n => exact vecmat_meets hf ha hb hm
      | some m =>
          cases columns with
          | none => exact matvec_meets hf ha hb hm
          | some n => simp at hvector

theorem inForm_matmul_meets (hf : f.Prepared s a b zs) (ha : a.shape = [m, k])
    (hb : b.shape = [k', n]) (hm : Measured l a.shape b.shape) :
    (f.inForm .matmul).Meets l s fun v s' => f.IsProduct s' v a b zs := by
  rw [inForm_matmul]
  refine (matmul_meets hf.zeroPoints hf.quantized hf.lhs hf.rhs ha hb
    ⟨hm.lhs m (by simp [ha]), hm.lhs k (by simp [ha])⟩
    ⟨hm.rhs k' (by simp [hb]), hm.rhs n (by simp [hb])⟩ (fun hk => ?_)
    fun hne => hm.refuses ?_).weaken ?_
  · subst hk
    exact (hm.fits (.ofMatrices m k n) ha.symm hb.symm).out
  · simpa [ha, hb] using hne
  · rintro v s' - ⟨rfl, hv⟩
    exact ⟨.ofMatrices m k n, ha.symm, hb.symm, hv⟩

/-- Operands whose ranks have a form, as far as the construction and the program go on, have the
product that the form gives. -/
theorem inForm_meets {form : ProductForm} (hf : f.Prepared s a b zs)
    (hform : ProductForm.ofRanks? a.shape.length b.shape.length = some form)
    (hm : Measured l a.shape b.shape) :
    (f.inForm form).Meets l s fun v s' => f.IsProduct s' v a b zs := by
  rcases ProductSizes.cases_of_form hform with
    ⟨rows, columns, k, k', hvector, ha, hb, rfl⟩ | ⟨m, k, k', n, ha, hb, rfl⟩ |
      ⟨lb, rb, m, k, k', n, ha, hb, hbatch, rfl⟩
  · exact inForm_vector_meets hf ha hb hvector hm
  · exact inForm_matmul_meets hf ha hb hm
  · rw [inForm_batched]
    exact batched_meets hf ha hb hbatch hm

end Factors

end TensorLowering
