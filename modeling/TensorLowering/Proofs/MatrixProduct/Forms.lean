import TensorLowering.Lowering.MatrixProduct.Basic
import TensorLowering.Proofs.Build.Reductions
import TensorLowering.Proofs.MatrixProduct.Sizes
import TensorLowering.Proofs.Reduction.Sums

/-!
# Products without a batch

Each form of a product without a batch runs one kernel over its operands as they are. The loops of a
kernel run over the output first and then over the summed axis, so its elements are the sums of the
product.
-/
namespace TensorLowering

open Numeric NdArray Stage Build

namespace Factors

variable {f : Factors} {s s' : Stage} {fails : LowerError → Prop} {a b : Tensor}
  {zs : Option (Binary64 × Binary64)}

/-- The operands hold tensors of their declared types, and have the given zero-points or none. -/
structure Ready (f : Factors) (s : Stage) (a b : Tensor) (zs : Option (Binary64 × Binary64)) :
    Prop where
  lhs : s.Holds f.lhs.value a
  rhs : s.Holds f.rhs.value b
  lhsType : f.lhs.type = a.type
  rhsType : f.rhs.type = b.type
  zeroPoints : s.HasZeroPoints f.zeroPoints? zs
  quantized : f.isQuantized = zs.isSome

theorem Ready.mono (h : f.Ready s a b zs) (hle : s ≤ s') : f.Ready s' a b zs :=
  ⟨h.lhs.mono hle, h.rhs.mono hle, h.lhsType, h.rhsType, h.zeroPoints.mono hle, h.quantized⟩

/-! ## Kernels over plain loops -/

section Loops

variable {spec : ReductionSpec} {quantized : Bool} {out inner l r : List Nat} {accumulator : DType}
  {cast : CastKind} {rows columns : Option Nat}

/-- The loops of a kernel run over the output first and then over the inner axes, and each of them
is read by an operand or written by the output. -/
structure RunsOver (spec : ReductionSpec) (quantized : Bool) (out inner l r : List Nat) : Prop where
  indexing : ∃ iterators : List IteratorKind, (out ++ inner).length = iterators.length ∧
    spec.indexing? = some (.projections l r (List.range out.length) iterators)
  combine : spec.combine = ReductionSpec.combineFor quantized
  lhs : ∀ d ∈ l, d < (out ++ inner).length
  rhs : ∀ d ∈ r, d < (out ++ inner).length
  cover : ∀ d < (out ++ inner).length, d ∈ l ∨ d ∈ r ∨ d ∈ List.range out.length

theorem RunsOver.routes (h : RunsOver spec quantized out inner l r) :
    ∃ indexing, spec.indexing? = some indexing ∧
      Routes indexing (out ++ inner) (select l (out ++ inner)) (select r (out ++ inner)) out
        (select l) (select r) (select (List.range out.length)) := by
  obtain ⟨iterators, hlen, hindexing⟩ := h.indexing
  have hout : select (List.range out.length) (out ++ inner) = out := by
    rw [select_range (by simp), List.take_left]
  have hrange : ∀ d ∈ List.range out.length, d < (out ++ inner).length := by
    intro d hd
    have hlt := List.mem_range.1 hd
    rw [List.length_append]
    omega
  have hroutes := routes_projections hlen h.lhs h.rhs hrange h.cover
  rw [hout] at hroutes
  exact ⟨_, hindexing, hroutes⟩

/-- A point starts with the coordinates of the output. -/
theorem select_out {p : List Nat} (hp : InBounds (out ++ inner) p) :
    select (List.range out.length) p = p.take out.length := by
  refine select_range ?_
  rw [hp.length_eq, List.length_append]
  omega

/-- What a kernel over plain loops makes of zeros. -/
def loopSums (accumulator : DType) (cast : CastKind) (zs : Option (Binary64 × Binary64))
    (out inner l r : List Nat) (a b : Tensor) : Tensor :=
  productSums (.ofEntries accumulator out fun _ => 0) a b cast zs inner (select l) (select r)

/-- The sums start from zero. -/
theorem loopSums_eq : loopSums accumulator cast zs out inner l r a b =
    .ofEntries accumulator out fun jx =>
      addTerms (fun k => a.factor cast (zs.map Prod.fst) (select l (jx ++ k)) *
        b.factor cast (zs.map Prod.snd) (select r (jx ++ k))) (points inner) 0 := by
  rw [loopSums, productSums, Tensor.dtype_ofEntries, Tensor.shape_ofEntries]
  refine Tensor.ofEntries_congr fun jx hjx => ?_
  rw [Tensor.entry_ofEntries hjx, DType.round_zero]

/-- A kernel over plain loops, from zero on. -/
theorem kernel_gives {sizes : List Size} {lhs rhs : ValueId}
    (hspec : RunsOver spec zs.isSome out inner l r) (hf : s.HasZeroPoints f.zeroPoints? zs)
    (ha : s.Holds lhs a) (hb : s.Holds rhs b) (hz : s.HasSizes sizes out) (hfit : ¬ TooLarge out)
    (hashape : a.shape = select l (out ++ inner)) (hbshape : b.shape = select r (out ++ inner)) :
    (zeros sizes f.accumulator >>= fun init => f.reduce spec lhs rhs init).Gives fails s fun v s' =>
      s'.Holds v (loopSums f.accumulator spec.cast zs out inner l r a b) := by
  obtain ⟨indexing, hindexing, hroutes⟩ := hspec.routes
  rw [← hashape, ← hbshape] at hroutes
  refine Gives.bind (zeros_gives hz hfit) fun init s₁ hle₁ hinit => ?_
  exact reduce_sums_gives hindexing hspec.combine (ha.mono hle₁) (hb.mono hle₁) hinit
    (hf.mono hle₁) hroutes fun p hp => select_out hp

/-! ## Loops without a batch -/

/-- The loops of a product without a batch run over the rows, the columns and the summed axis; the
left operand is read at the rows and the summed axis. -/
def lhsLoops (rows columns : Option Nat) : List Nat :=
  List.range rows.toList.length ++ [rows.toList.length + columns.toList.length]

/-- The right operand is read at the summed axis and the columns. -/
def rhsLoops (rows columns : Option Nat) : List Nat :=
  (rows.toList.length + columns.toList.length) ::
    List.range' rows.toList.length columns.toList.length

/-- What the operands are read at. -/
theorem select_loops (rows columns : Option Nat) {row column : List Nat} (q : Nat)
    (hrow : row.length = rows.toList.length) (hcolumn : column.length = columns.toList.length) :
    select (lhsLoops rows columns) (row ++ column ++ [q]) = row ++ [q] ∧
      select (rhsLoops rows columns) (row ++ column ++ [q]) = q :: column := by
  have hlast : (row ++ column ++ [q]).getD (row.length + column.length) 0 = q := by
    simp [List.getD_eq_getElem?_getD]
  have hfirst : (List.range row.length).map ((row ++ column ++ [q]).getD · 0) = row := by
    have hlength : row.length ≤ (row ++ column ++ [q]).length := by simp
    simpa [select] using select_range hlength
  have hmiddle : (List.range' row.length column.length).map
      ((row ++ column ++ [q]).getD · 0) = column := map_getD_range' 0
  rw [lhsLoops, rhsLoops, ← hrow, ← hcolumn]
  simp only [select, List.map_append, List.map_cons, List.map_nil, hlast, hfirst, hmiddle,
    and_self]

theorem runsOver_unbatched {iterators : List IteratorKind} (k : Nat)
    (hindexing : spec.indexing? = some (.projections (lhsLoops rows columns)
      (rhsLoops rows columns) (List.range (rows.toList.length + columns.toList.length)) iterators))
    (hlen : rows.toList.length + columns.toList.length + 1 = iterators.length)
    (hcombine : spec.combine = ReductionSpec.combineFor quantized) :
    RunsOver spec quantized (rows.toList ++ columns.toList) [k] (lhsLoops rows columns)
      (rhsLoops rows columns) := by
  have hout : (rows.toList ++ columns.toList).length =
      rows.toList.length + columns.toList.length := List.length_append
  have hbound : (rows.toList ++ columns.toList ++ [k]).length =
      rows.toList.length + columns.toList.length + 1 := by
    rw [List.length_append, hout, List.length_singleton]
  refine ⟨⟨iterators, hbound.trans hlen, hout ▸ hindexing⟩, hcombine, ?_, ?_, ?_⟩
  · intro d hd
    rw [hbound]
    simp only [lhsLoops, List.mem_append, List.mem_range, List.mem_singleton] at hd
    omega
  · intro d hd
    rw [hbound]
    simp only [rhsLoops, List.mem_cons, List.mem_range'_1] at hd
    omega
  · intro d hd
    rw [hbound] at hd
    rw [hout]
    simp only [lhsLoops, List.mem_append, List.mem_range, List.mem_singleton]
    omega

/-- The sums over the loops without a batch are those of the product. -/
theorem loopSums_unbatched (p : ProductSizes) (hl : p.lhsBatch = []) (hr : p.rhsBatch = []) :
    loopSums accumulator cast zs (p.rows.toList ++ p.columns.toList) [p.inner]
        (lhsLoops p.rows p.columns) (rhsLoops p.rows p.columns) a b =
      p.products accumulator (a.factor cast (zs.map Prod.fst))
        (b.factor cast (zs.map Prod.snd)) := by
  rw [loopSums_eq, p.products_unbatched hl hr]
  refine Tensor.ofEntries_congr fun jx hjx => ?_
  obtain ⟨row, column, rfl, hrow, hcolumn⟩ := hjx.exists_append
  refine addTerms_congr fun q hq => ?_
  obtain ⟨q, rfl, -⟩ := inBounds_singleton.1 (mem_points.1 hq)
  obtain ⟨hlhs, hrhs⟩ := select_loops p.rows p.columns q hrow.length_eq hcolumn.length_eq
  rw [hlhs, hrhs, ← hrow.length_eq, List.take_left, List.drop_left]
  rfl

end Loops

/-! ## The forms -/

variable {p : ProductSizes}

/-- Without a batch, the kernel over the operands gives their product. -/
theorem unbatched_gives (zs : Option (Binary64 × Binary64)) {rows columns : Option Nat}
    {spec : ReductionSpec} {sizes : List Size} {iterators : List IteratorKind} {lhs rhs : ValueId}
    (hl : p.lhsBatch = []) (hr : p.rhsBatch = []) (hrows : p.rows = rows)
    (hcolumns : p.columns = columns)
    (hspec : spec.indexing? = some (.projections (lhsLoops rows columns)
      (rhsLoops rows columns) (List.range (rows.toList.length + columns.toList.length)) iterators))
    (hlen : rows.toList.length + columns.toList.length + 1 = iterators.length)
    (hcombine : spec.combine = ReductionSpec.combineFor zs.isSome)
    (hf : s.HasZeroPoints f.zeroPoints? zs) (hlhs : s.Holds lhs a) (hrhs : s.Holds rhs b)
    (ha : a.shape = p.lhs) (hb : b.shape = p.rhs)
    (hz : s.HasSizes sizes (rows.toList ++ columns.toList)) (hfit : ¬ TooLarge p.out) :
    (zeros sizes f.accumulator >>= fun init => f.reduce spec lhs rhs init).Gives fails s fun v s' =>
      s'.Holds v (p.products f.accumulator (a.factor spec.cast (zs.map Prod.fst))
        (b.factor spec.cast (zs.map Prod.snd))) := by
  subst hrows hcolumns
  obtain ⟨hselectl, hselectr⟩ := select_loops p.rows p.columns p.inner rfl rfl
  have hashape : a.shape = p.rows.toList ++ [p.inner] := by
    rw [ha, ProductSizes.lhs, hl, List.nil_append]
  have hbshape : b.shape = p.inner :: p.columns.toList := by
    rw [hb, ProductSizes.rhs, hr, List.nil_append]
  rw [ProductSizes.out, p.batch_eq_nil hl hr, List.nil_append] at hfit
  rw [← loopSums_unbatched p hl hr]
  exact kernel_gives (runsOver_unbatched p.inner hspec hlen hcombine) hf hlhs hrhs hz hfit
    (hashape.trans hselectl.symm) (hbshape.trans hselectr.symm)

theorem dot_gives (hf : f.Ready s a b none) (ha : a.shape = p.lhs) (hb : b.shape = p.rhs)
    (hrows : p.rows = none) (hcolumns : p.columns = none) :
    f.dot.Gives fails s fun v s' => s'.Holds v
      (p.products f.accumulator (a.factor .signed none) (b.factor .signed none)) := by
  obtain ⟨hl, hr⟩ := p.vector (.inl hrows)
  have hashape : a.shape = [p.inner] := by rw [ha, ProductSizes.lhs, hl, hrows]; rfl
  have hbshape : b.shape = [p.inner] := by rw [hb, ProductSizes.rhs, hr, hcolumns]; rfl
  have hfit : ¬ TooLarge p.out := by
    rw [ProductSizes.out, p.batch_eq_nil hl hr, hrows, hcolumns]
    decide
  refine Gives.bind (dim_known (n := p.inner) hf.lhs (by rw [hashape]; rfl)) ?_
  intro k s₁ hle₁ hk
  have hf₁ := hf.mono hle₁
  refine Gives.bind (dim_known (n := p.inner) hf₁.rhs (by rw [hbshape]; rfl)) ?_
  intro k' s₂ hle₂ hk'
  have hf₂ := hf₁.mono hle₂
  refine Gives.bind (requireEqual_gives hk.1 hk'.1) ?_
  rintro ⟨⟩ s₃ - rfl
  exact unbatched_gives none hl hr hrows hcolumns rfl rfl rfl hf₂.zeroPoints hf₂.lhs hf₂.rhs ha hb
    .nil hfit

theorem vecmat_gives {n : Nat} (hf : f.Ready s a b none) (ha : a.shape = p.lhs)
    (hb : b.shape = p.rhs) (hrows : p.rows = none) (hcolumns : p.columns = some n)
    (hexact : p.Exact) (hfits : p.Fits) :
    f.vecmat.Gives fails s fun v s' => s'.Holds v
      (p.products f.accumulator (a.factor .signed none) (b.factor .signed none)) := by
  obtain ⟨hl, hr⟩ := p.vector (.inl hrows)
  have hashape : a.shape = [p.inner] := by rw [ha, ProductSizes.lhs, hl, hrows]; rfl
  have hbshape : b.shape = [p.inner, n] := by rw [hb, ProductSizes.rhs, hr, hcolumns]; rfl
  have hn : Binary64.IsExact n := hexact.out _ (by simp [ProductSizes.out, hcolumns])
  refine Gives.bind (dim_known (n := p.inner) hf.lhs (by rw [hashape]; rfl)) ?_
  intro k s₁ hle₁ hk
  have hf₁ := hf.mono hle₁
  refine Gives.bind (dim_known (n := p.inner) hf₁.rhs (by rw [hbshape]; rfl)) ?_
  intro k' s₂ hle₂ hk'
  have hf₂ := hf₁.mono hle₂
  refine Gives.bind (dim_gives (n := n) hf₂.rhs (by rw [hbshape]; rfl) hn) ?_
  intro columns s₃ hle₃ hcolumn
  have hf₃ := hf₂.mono hle₃
  refine Gives.bind (requireEqual_gives hk.1 hk'.1) ?_
  rintro ⟨⟩ s₄ - rfl
  exact unbatched_gives none hl hr hrows hcolumns rfl rfl rfl hf₃.zeroPoints hf₃.lhs hf₃.rhs ha hb
    (.cons hcolumn .nil) hfits.out

theorem matvec_gives {m : Nat} (hf : f.Ready s a b none) (ha : a.shape = p.lhs)
    (hb : b.shape = p.rhs) (hrows : p.rows = some m) (hcolumns : p.columns = none)
    (hexact : p.Exact) (hfits : p.Fits) :
    f.matvec.Gives fails s fun v s' => s'.Holds v
      (p.products f.accumulator (a.factor .signed none) (b.factor .signed none)) := by
  obtain ⟨hl, hr⟩ := p.vector (.inr hcolumns)
  have hashape : a.shape = [m, p.inner] := by rw [ha, ProductSizes.lhs, hl, hrows]; rfl
  have hbshape : b.shape = [p.inner] := by rw [hb, ProductSizes.rhs, hr, hcolumns]; rfl
  have hm : Binary64.IsExact m := hexact.out _ (by simp [ProductSizes.out, hrows])
  refine Gives.bind (dim_gives (n := m) hf.lhs (by rw [hashape]; rfl) hm) ?_
  intro rows s₁ hle₁ hrow
  have hf₁ := hf.mono hle₁
  refine Gives.bind (dim_known (n := p.inner) hf₁.lhs (by rw [hashape]; rfl)) ?_
  intro k s₂ hle₂ hk
  have hf₂ := hf₁.mono hle₂
  refine Gives.bind (dim_known (n := p.inner) hf₂.rhs (by rw [hbshape]; rfl)) ?_
  intro k' s₃ hle₃ hk'
  have hf₃ := hf₂.mono hle₃
  refine Gives.bind (requireEqual_gives hk.1 hk'.1) ?_
  rintro ⟨⟩ s₄ - rfl
  exact unbatched_gives none hl hr hrows hcolumns rfl rfl rfl hf₃.zeroPoints hf₃.lhs hf₃.rhs ha hb
    (.cons (hrow.mono (hle₂.trans hle₃)) .nil) hfits.out

/-- The product of two matrices, quantized or not. -/
theorem matmul_gives {m n : Nat} {lhs rhs : ValueId} (hf : s.HasZeroPoints f.zeroPoints? zs)
    (hquantized : f.isQuantized = zs.isSome) (hlhs : s.Holds lhs a) (hrhs : s.Holds rhs b)
    (ha : a.shape = p.lhs) (hb : b.shape = p.rhs) (hl : p.lhsBatch = []) (hr : p.rhsBatch = [])
    (hrows : p.rows = some m) (hcolumns : p.columns = some n) (hexact : p.Exact) (hfits : p.Fits) :
    (f.matmul lhs rhs).Gives fails s fun v s' =>
      s'.Holds v (p.products f.accumulator (a.factor .signed (zs.map Prod.fst))
        (b.factor .signed (zs.map Prod.snd))) := by
  have hashape : a.shape = [m, p.inner] := by rw [ha, ProductSizes.lhs, hl, hrows]; rfl
  have hbshape : b.shape = [p.inner, n] := by rw [hb, ProductSizes.rhs, hr, hcolumns]; rfl
  have hm : Binary64.IsExact m := hexact.out _ (by simp [ProductSizes.out, hrows])
  have hn : Binary64.IsExact n := hexact.out _ (by simp [ProductSizes.out, hcolumns])
  refine Gives.bind (dim_gives (n := m) hlhs (by rw [hashape]; rfl) hm) ?_
  intro rows s₁ hle₁ hrow
  refine Gives.bind (dim_known (n := p.inner) (hlhs.mono hle₁) (by rw [hashape]; rfl)) ?_
  intro k s₂ hle₂ hk
  have hle := hle₁.trans hle₂
  refine Gives.bind (dim_known (n := p.inner) (hrhs.mono hle) (by rw [hbshape]; rfl)) ?_
  intro k' s₃ hle₃ hk'
  refine Gives.bind (dim_gives (n := n) (hrhs.mono (hle.trans hle₃)) (by rw [hbshape]; rfl) hn) ?_
  intro columns s₄ hle₄ hcolumn
  have hle' := hle.trans (hle₃.trans hle₄)
  refine Gives.bind (requireEqual_gives hk.1 hk'.1) ?_
  rintro ⟨⟩ s₅ - rfl
  have hsizes : s₅.HasSizes [rows, columns] [m, n] :=
    .cons (hrow.mono (hle₂.trans (hle₃.trans hle₄))) (.cons hcolumn .nil)
  have hkernel : ∀ {spec : ReductionSpec}, spec.indexing? = NamedKernel.matmul.indexing? →
      spec.combine = ReductionSpec.combineFor zs.isSome → spec.cast = .signed →
      (zeros [rows, columns] f.accumulator >>= fun init =>
        f.reduce spec lhs rhs init).Gives fails s₅ fun v s' =>
        s'.Holds v (p.products f.accumulator (a.factor .signed (zs.map Prod.fst))
          (b.factor .signed (zs.map Prod.snd))) := by
    intro spec hspec hcombine hcast
    have hgives : (zeros [rows, columns] f.accumulator >>= fun init =>
        f.reduce spec lhs rhs init).Gives fails s₅ _ :=
      unbatched_gives zs hl hr hrows hcolumns hspec rfl hcombine (hf.mono hle') (hlhs.mono hle')
        (hrhs.mono hle') ha hb hsizes hfits.out
    rwa [hcast] at hgives
  rw [hquantized]
  cases zs with
  | none => exact hkernel rfl rfl rfl
  | some zs => exact hkernel rfl rfl rfl

end Factors

end TensorLowering
