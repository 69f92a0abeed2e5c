import TensorLowering.Lowering.MatrixProduct.Rules
import TensorLowering.Proofs.MatrixProduct.Batched

/-!
# Products of quantized vectors

A quantized vector has no kernel of its own. It becomes a matrix with a single row or column, and
the unit axes of the product are folded away. With that, every form of a product computes the
product of its factors.
-/
namespace TensorLowering

open Numeric NdArray Stage Build

namespace ProductSizes

variable {p : ProductSizes}

/-- The sizes with a row for a vector on the left and a column for one on the right. -/
def matrices (p : ProductSizes) : ProductSizes :=
  .ofMatrices (p.rows.getD 1) p.inner (p.columns.getD 1)

theorem out_matrices (p : ProductSizes) :
    p.matrices.out = [p.rows.getD 1, p.columns.getD 1] := rfl

/-- Unit axes do not change the number of elements. -/
theorem volume_out_matrices (hl : p.lhsBatch = []) (hr : p.rhsBatch = []) :
    volume p.out = volume p.matrices.out := by
  rw [ProductSizes.out, p.batch_eq_nil hl hr, out_matrices]
  cases p.rows <;> cases p.columns <;> simp

theorem nonzeroVolume_getD_one (size : Option Nat) :
    nonzeroVolume [size.getD 1] = nonzeroVolume size.toList := by
  cases size <;> rfl

theorem Fits.matrices (h : p.Fits) (hl : p.lhsBatch = []) (hr : p.rhsBatch = []) :
    p.matrices.Fits := by
  have hbatch := p.batch_eq_nil hl hr
  obtain ⟨hlhs, hrhs, hout⟩ := h
  rw [hbatch, List.nil_append, not_tooLarge_iff] at hlhs hrhs
  rw [ProductSizes.out, hbatch, List.nil_append, not_tooLarge_iff, nonzeroVolume_append] at hout
  rw [nonzeroVolume_append] at hlhs
  rw [← List.singleton_append, nonzeroVolume_append] at hrhs
  have hone := nonzeroVolume_getD_one p.rows
  have hone' := nonzeroVolume_getD_one p.columns
  constructor
  · rw [not_tooLarge_iff]
    change nonzeroVolume ([p.rows.getD 1] ++ [p.inner]) < _
    rwa [nonzeroVolume_append, hone]
  · rw [not_tooLarge_iff]
    change nonzeroVolume ([p.inner] ++ [p.columns.getD 1]) < _
    rwa [nonzeroVolume_append, hone']
  · rw [not_tooLarge_iff]
    change nonzeroVolume ([p.rows.getD 1] ++ [p.columns.getD 1]) < _
    rwa [nonzeroVolume_append, hone, hone']

theorem Exact.matrices (h : p.Exact) : p.matrices.Exact := by
  have hsize : ∀ size : Option Nat, (∀ n ∈ size, n ∈ p.out) →
      Binary64.IsExact ((size.getD 1 : Nat) : Int) := by
    intro size hmem
    cases size with
    | none => exact Binary64.isExact_one
    | some n => exact h.out n (hmem n rfl)
  refine ⟨?_, fun hne => absurd rfl hne, Binary64.isExact_one⟩
  rw [out_matrices]
  refine List.forall_mem_cons.2 ⟨hsize _ fun n hn => ?_, List.forall_mem_singleton.2
    (hsize _ fun n hn => ?_)⟩
  · simp [ProductSizes.out, Option.mem_toList.2 hn]
  · simp [ProductSizes.out, Option.mem_toList.2 hn]

/-- A position of the product, with coordinate zero on the unit axes. -/
def matrixIndex (p : ProductSizes) (ix : List Nat) : List Nat :=
  [(ix.take p.rows.toList.length).headD 0, (ix.drop p.rows.toList.length).headD 0]

theorem inBounds_matrixIndex (hbatch : p.batch = []) {ix : List Nat} (hix : InBounds p.out ix) :
    InBounds p.matrices.out (p.matrixIndex ix) := by
  rw [ProductSizes.out, hbatch, List.nil_append] at hix
  obtain ⟨row, column, rfl, hrow, hcolumn⟩ := hix.exists_append
  rw [matrixIndex, ← hrow.length_eq, List.take_left, List.drop_left, out_matrices]
  refine ⟨?_, ?_, trivial⟩
  · cases hrows : p.rows with
    | none => simp [inBounds_nil.1 (hrows ▸ hrow)]
    | some m =>
        obtain ⟨i, rfl, hi⟩ := inBounds_singleton.1 (hrows ▸ hrow)
        exact hi
  · cases hcolumns : p.columns with
    | none => simp [inBounds_nil.1 (hcolumns ▸ hcolumn)]
    | some n =>
        obtain ⟨j, rfl, hj⟩ := inBounds_singleton.1 (hcolumns ▸ hcolumn)
        exact hj

theorem ravel_matrixIndex (hbatch : p.batch = []) {ix : List Nat} (hix : InBounds p.out ix) :
    ravel p.matrices.out (p.matrixIndex ix) = ravel p.out ix := by
  have hout : p.out = p.rows.toList ++ p.columns.toList := by
    rw [ProductSizes.out, hbatch, List.nil_append]
  rw [hout] at hix ⊢
  obtain ⟨row, column, rfl, hrow, hcolumn⟩ := hix.exists_append
  rw [matrixIndex, ← hrow.length_eq, List.take_left, List.drop_left, out_matrices]
  cases hrows : p.rows with
  | none =>
      obtain rfl := inBounds_nil.1 (hrows ▸ hrow)
      cases hcolumns : p.columns with
      | none =>
          obtain rfl := inBounds_nil.1 (hcolumns ▸ hcolumn)
          rfl
      | some n =>
          obtain ⟨j, rfl, -⟩ := inBounds_singleton.1 (hcolumns ▸ hcolumn)
          simp [ravel]
  | some m =>
      obtain ⟨i, rfl, -⟩ := inBounds_singleton.1 (hrows ▸ hrow)
      cases hcolumns : p.columns with
      | none =>
          obtain rfl := inBounds_nil.1 (hcolumns ▸ hcolumn)
          simp [ravel]
      | some n =>
          obtain ⟨j, rfl, -⟩ := inBounds_singleton.1 (hcolumns ▸ hcolumn)
          rfl

/-- The product of matrices with the unit axes folded away is the product of the vectors. -/
theorem reshaped_products_matrices (hl : p.lhsBatch = []) (hr : p.rhsBatch = []) {acc : DType}
    {x y x' y' : List Nat → Binary64}
    (hx : ∀ row k, InBounds p.rows.toList row → k < p.inner → x' [row.headD 0, k] = x (row ++ [k]))
    (hy : ∀ k column, k < p.inner → InBounds p.columns.toList column →
      y' [k, column.headD 0] = y (k :: column)) :
    (p.matrices.products acc x' y').reshaped p.out = p.products acc x y := by
  have hbatch := p.batch_eq_nil hl hr
  refine Tensor.ext_entry rfl rfl fun ix hix => ?_
  have hix' : InBounds p.out ix := hix
  have hmatrix := inBounds_matrixIndex hbatch hix'
  have hfolded : ((p.matrices.products acc x' y').reshaped p.out).entry ix =
      (p.matrices.products acc x' y').entry (p.matrixIndex ix) :=
    Tensor.entry_reshaped hmatrix hix' (ravel_matrixIndex hbatch hix').symm
  rw [hfolded, entry_products hmatrix, entry_products hix']
  rw [ProductSizes.out, hbatch, List.nil_append] at hix'
  obtain ⟨row, column, rfl, hrow, hcolumn⟩ := hix'.exists_append
  refine congrArg acc.round (List.foldl_ext _ _ _ fun sum k hk => ?_)
  have hk' := List.mem_range.1 hk
  have hleft := hx row k hrow hk'
  have hright := hy k column hk' hcolumn
  simp only [hbatch, hl, hr, matrices, ofMatrices, matrixIndex, ← hrow.length_eq,
    List.take_left, List.drop_left, alignIndex, aligned, List.length_nil, List.drop_zero,
    List.zip_nil_left, List.map_nil, List.nil_append, Option.toList_some, List.length_singleton,
    List.take_succ_cons, List.take_zero, List.drop_succ_cons, List.singleton_append]
  rw [← hleft, ← hright]

end ProductSizes

namespace Factors

variable {f : Factors} {s : Stage} {fails : LowerError → Prop} {a b t : Tensor} {p : ProductSizes}
  {zs : Option (Binary64 × Binary64)}

theorem unitFold_middle (m n : Nat) : unitFold = .middle [] [m, n] [] := rfl

theorem not_tooLarge_unit {n : Nat} (hn : n < 0x8000000000000000) :
    ¬ TooLarge [1, n] ∧ ¬ TooLarge [n, 1] := by
  rw [not_tooLarge_iff, not_tooLarge_iff, ← List.singleton_append, nonzeroVolume_append,
    nonzeroVolume_singleton, ← List.singleton_append (l := [1]), nonzeroVolume_append,
    nonzeroVolume_singleton, nonzeroVolume_singleton, Nat.max_self, Nat.one_mul, Nat.mul_one]
  omega

/-- A vector on the left gets a row. -/
theorem asRow_gives {x : OperandInfo} {rows : Option Nat} {k : Nat} (hx : s.Holds x.value t)
    (htype : x.type = t.type) (ht : t.shape = rows.toList ++ [k])
    (hk : rows = none → Binary64.IsExact k) :
    (asRow x).Gives fails s fun v s' => s'.Holds v (t.reshaped [rows.getD 1, k]) := by
  have hrank : x.rank = t.shape.length := by rw [OperandInfo.rank, htype, Tensor.rank_type]
  unfold asRow
  rw [hrank, ht]
  cases rows with
  | some m =>
      rw [if_neg (by simp)]
      have hshape : [(some m).getD 1, k] = t.shape := ht.symm
      rw [hshape, t.reshaped_self]
      exact .pure hx
  | none =>
      rw [if_pos (by rfl)]
      refine Gives.bind (index_gives (n := 1) Binary64.isExact_one) fun one s₁ hle₁ hone => ?_
      refine Gives.bind (dim_gives (n := k) (hx.mono hle₁) (by rw [ht]; rfl) (hk rfl)) ?_
      intro inner s₂ hle₂ hinner
      rw [unitFold_middle 1 k]
      exact expandShape_gives ((hx.mono hle₁).mono hle₂) (by simp [ht]) (by simp)
        (.cons (hone.mono hle₂) (.cons hinner .nil)) (not_tooLarge_unit (hk rfl).lt).1

/-- A vector on the right gets a column. -/
theorem asColumn_gives {x : OperandInfo} {columns : Option Nat} {k : Nat}
    (hx : s.Holds x.value t) (htype : x.type = t.type) (ht : t.shape = k :: columns.toList)
    (hk : columns = none → Binary64.IsExact k) :
    (asColumn x).Gives fails s fun v s' => s'.Holds v (t.reshaped [k, columns.getD 1]) := by
  have hrank : x.rank = t.shape.length := by rw [OperandInfo.rank, htype, Tensor.rank_type]
  unfold asColumn
  rw [hrank, ht]
  cases columns with
  | some m =>
      rw [if_neg (by simp)]
      have hshape : [k, (some m).getD 1] = t.shape := ht.symm
      rw [hshape, t.reshaped_self]
      exact .pure hx
  | none =>
      rw [if_pos (by rfl)]
      refine Gives.bind (index_gives (n := 1) Binary64.isExact_one) fun one s₁ hle₁ hone => ?_
      refine Gives.bind (dim_gives (n := k) (hx.mono hle₁) (by rw [ht]; rfl) (hk rfl)) ?_
      intro inner s₂ hle₂ hinner
      rw [unitFold_middle k 1]
      exact expandShape_gives ((hx.mono hle₁).mono hle₂) (by simp [ht]) (by simp)
        (.cons hinner (.cons (hone.mono hle₂) .nil)) (not_tooLarge_unit (hk rfl).lt).2

theorem entry_row {rows : Option Nat} {row : List Nat} {k n : Nat}
    (ht : t.shape = rows.toList ++ [n]) (hrow : InBounds rows.toList row) (hk : k < n) :
    (t.reshaped [rows.getD 1, n]).entry [row.headD 0, k] = t.entry (row ++ [k]) := by
  cases rows with
  | none =>
      obtain rfl := inBounds_nil.1 hrow
      refine Tensor.entry_reshaped (by rw [ht]; exact ⟨hk, trivial⟩) ⟨Nat.one_pos, hk, trivial⟩ ?_
      rw [ht]
      simp [ravel]
  | some m =>
      obtain ⟨i, rfl, hi⟩ := inBounds_singleton.1 hrow
      have hix : InBounds [m, n] [i, k] := ⟨hi, hk, trivial⟩
      refine Tensor.entry_reshaped (by rw [ht]; exact hix) hix ?_
      rw [ht]
      rfl

theorem entry_column {columns : Option Nat} {column : List Nat} {k n : Nat}
    (ht : t.shape = n :: columns.toList) (hk : k < n) (hcolumn : InBounds columns.toList column) :
    (t.reshaped [n, columns.getD 1]).entry [k, column.headD 0] = t.entry (k :: column) := by
  cases columns with
  | none =>
      obtain rfl := inBounds_nil.1 hcolumn
      refine Tensor.entry_reshaped (by rw [ht]; exact ⟨hk, trivial⟩) ⟨hk, Nat.one_pos, trivial⟩ ?_
      rw [ht]
      simp [ravel]
  | some m =>
      obtain ⟨j, rfl, hj⟩ := inBounds_singleton.1 hcolumn
      have hix : InBounds [n, m] [k, j] := ⟨hk, hj, trivial⟩
      refine Tensor.entry_reshaped (by rw [ht]; exact hix) hix ?_
      rw [ht]
      rfl

/-- What the unit axes of a product with a vector are folded by. -/
theorem isValid_vector (isDot : Bool) (m n : Nat) :
    (if isDot then (⟨[]⟩ : Reassociation) else unitFold).IsValid [m, n].length := by
  cases isDot with
  | true => exact .inl rfl
  | false => exact Reassociation.isValid_middle (A := []) (B := [m, n]) (C := [])

theorem collapsedSizes_vector (hvector : p.rows = none ∨ p.columns = none) :
    (if decide (p.form = .dot) then (⟨[]⟩ : Reassociation) else unitFold).collapsedSizes
      p.matrices.out = p.out := by
  obtain ⟨hl, hr⟩ := p.vector hvector
  have hunit : ∀ m n, unitFold.collapsedSizes [m, n] = [m * n] := by
    intro m n
    have hsizes : unitFold.collapsedSizes [m, n] = [volume [m, n]] :=
      Reassociation.collapsedSizes_middle (A := []) (B := [m, n]) (C := []) (by simp)
    simpa using hsizes
  rw [ProductSizes.out_matrices, ProductSizes.out, p.batch_eq_nil hl hr, ProductSizes.form]
  cases hrows : p.rows with
  | none =>
      cases p.columns with
      | none => rfl
      | some n => simpa using hunit 1 n
  | some m =>
      obtain hnone | hnone := hvector
      · rw [hrows] at hnone
        cases hnone
      · rw [hnone]
        simpa using hunit m 1

theorem quantizedVector_gives (hf : f.Ready s a b zs) (ha : a.shape = p.lhs) (hb : b.shape = p.rhs)
    (hvector : p.rows = none ∨ p.columns = none) (hexact : p.Exact)
    (hinner : Binary64.IsExact p.inner) (hfits : p.Fits) :
    (f.quantizedVector (p.form = .dot)).Gives fails s fun v s' =>
      s'.Holds v (p.products f.accumulator (a.factor .signed (zs.map Prod.fst))
        (b.factor .signed (zs.map Prod.snd))) := by
  obtain ⟨hl, hr⟩ := p.vector hvector
  have hashape : a.shape = p.rows.toList ++ [p.inner] := by rw [ha, ProductSizes.lhs, hl]; rfl
  have hbshape : b.shape = p.inner :: p.columns.toList := by rw [hb, ProductSizes.rhs, hr]; rfl
  have hfits' := hfits.matrices hl hr
  refine Gives.bind (asRow_gives hf.lhs hf.lhsType hashape fun _ => hinner) ?_
  intro lhs s₁ hle₁ hlhs
  refine Gives.bind (asColumn_gives (hf.rhs.mono hle₁) hf.rhsType hbshape fun _ => hinner) ?_
  intro rhs s₂ hle₂ hrhs
  have hf₂ := (hf.mono hle₁).mono hle₂
  refine Gives.bind (matmul_gives (p := p.matrices) hf₂.zeroPoints hf₂.quantized (hlhs.mono hle₂)
    hrhs rfl rfl rfl rfl rfl rfl hexact.matrices hfits') ?_
  intro product s₃ hle₃ hproduct
  have hsizes := collapsedSizes_vector hvector
  refine (collapseShape_groups_gives hproduct (isValid_vector _ _ _) ?_ ?_).weaken
    fun v s₄ _ hv => ?_
  · rw [ProductSizes.shape_products, hsizes, p.volume_out_matrices hl hr]
  · rw [ProductSizes.shape_products, hsizes]
    exact hfits.out
  · rw [ProductSizes.shape_products, hsizes] at hv
    refine hv.of_eq (ProductSizes.reshaped_products_matrices hl hr ?_ ?_)
    · exact fun row k hrow hk => Tensor.factor_congr rfl (entry_row hashape hrow hk)
    · exact fun k column hk hcolumn => Tensor.factor_congr rfl (entry_column hbshape hk hcolumn)

/-- A vector among the operands: a quantized one becomes a matrix, any other has a kernel of its
own. -/
theorem inForm_vector_gives (hf : f.Ready s a b zs) (ha : a.shape = p.lhs) (hb : b.shape = p.rhs)
    (hvector : p.rows = none ∨ p.columns = none) (hexact : p.Exact)
    (hinner : zs.isSome → Binary64.IsExact p.inner) (hfits : p.Fits) :
    (f.inForm p.form).Gives fails s fun v s' =>
      s'.Holds v (p.products f.accumulator (a.factor .signed (zs.map Prod.fst))
        (b.factor .signed (zs.map Prod.snd))) := by
  have hform := p.hasVector_form.2 hvector
  unfold inForm
  rw [hform, hf.quantized, Bool.and_true]
  cases zs with
  | some zs => exact quantizedVector_gives hf ha hb hvector hexact (hinner rfl) hfits
  | none =>
      unfold ProductSizes.form
      cases hrows : p.rows with
      | none =>
          cases hcolumns : p.columns with
          | none => exact dot_gives hf ha hb hrows hcolumns
          | some n => exact vecmat_gives hf ha hb hrows hcolumns hexact hfits
      | some m =>
          cases hcolumns : p.columns with
          | none => exact matvec_gives hf ha hb hrows hcolumns hexact hfits
          | some n => simp [hrows, hcolumns] at hvector

/-- The product in the form that the sizes have. -/
theorem inForm_gives (hf : f.Ready s a b zs) (ha : a.shape = p.lhs) (hb : b.shape = p.rhs)
    (hexact : p.Exact) (hinner : zs.isSome → p.rows = none ∨ p.columns = none →
      Binary64.IsExact p.inner) (hfits : p.Fits) :
    (f.inForm p.form).Gives fails s fun v s' =>
      s'.Holds v (p.products f.accumulator (a.factor .signed (zs.map Prod.fst))
        (b.factor .signed (zs.map Prod.snd))) := by
  by_cases hvector : p.rows = none ∨ p.columns = none
  · exact inForm_vector_gives hf ha hb hvector hexact (fun hzs => hinner hzs hvector) hfits
  obtain ⟨hrows, hcolumns⟩ := not_or.1 hvector
  obtain ⟨m, hrows⟩ := Option.ne_none_iff_exists'.1 hrows
  obtain ⟨n, hcolumns⟩ := Option.ne_none_iff_exists'.1 hcolumns
  by_cases hnil : p.lhsBatch = [] ∧ p.rhsBatch = []
  · have hform : p.form = .matmul := by simp [ProductSizes.form, hrows, hcolumns, hnil]
    rw [hform, inForm_matmul]
    exact matmul_gives hf.zeroPoints hf.quantized hf.lhs hf.rhs ha hb hnil.1 hnil.2 hrows
      hcolumns hexact hfits
  · have hform : p.form = .batched (max p.lhsBatch.length p.rhsBatch.length) := by
      simp only [ProductSizes.form, hrows, hcolumns, hnil, ↓reduceIte]
    rw [hform, inForm_batched]
    exact batched_gives hf ha hb hrows hcolumns (fun hempty => hnil (p.nil_of_batch hempty))
      hexact hfits

end Factors

end TensorLowering
