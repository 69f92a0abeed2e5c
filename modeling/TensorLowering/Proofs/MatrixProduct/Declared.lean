import TensorLowering.Proofs.Build.DeclaredOperands
import TensorLowering.Proofs.Build.Guards
import TensorLowering.Proofs.MatrixProduct.Vectors

/-!
# Products of operands of declared types

Where sizes are open, whether two operands have a product is left to guards. What every form of a
product computes where the construction and its nodes go on is the product of the factors.
-/
namespace TensorLowering

open Numeric NdArray Stage Build

namespace Factors

variable {l : Limits} {f : Factors} {s s' : Stage} {a b t : Tensor} {v w : ValueId}
  {zs : Option (Binary64 × Binary64)} {m n k k' : Nat}

/-- The operands hold tensors that their declared types admit, and have the given zero-points or
none. -/
structure Prepared (f : Factors) (s : Stage) (a b : Tensor) (zs : Option (Binary64 × Binary64)) :
    Prop where
  lhs : s.HasTensor f.lhs.value a
  rhs : s.HasTensor f.rhs.value b
  lhsRank : f.lhs.rank = a.shape.length
  rhsRank : f.rhs.rank = b.shape.length
  zeroPoints : s.HasZeroPoints f.zeroPoints? zs
  quantized : f.isQuantized = zs.isSome

/-- Doubles hold the sizes of the operands and of every batch that they have, no batch has size
zero, and operands without a product are refused. -/
structure Measured (l : Limits) (left right : List Nat) : Prop where
  lhs : ∀ n ∈ left, Binary64.IsExact n
  rhs : ∀ n ∈ right, Binary64.IsExact n
  lhsBatch : ∀ n ∈ left.take (left.length - 2), 1 ≤ n
  rhsBatch : ∀ n ∈ right.take (right.length - 2), 1 ≤ n
  fits : ∀ p : ProductSizes, p.lhs = left → p.rhs = right → p.Fits
  batch : ∀ p : ProductSizes, p.lhs = left → p.rhs = right →
    ∀ sizes, sizes <+: p.batch → Binary64.IsExact (volume sizes)
  wrong : (¬ ∃ p : ProductSizes, p.lhs = left ∧ p.rhs = right) → l.Refuses

/-- A value is the product of two tensors. -/
def IsProduct (f : Factors) (s : Stage) (v : ValueId) (a b : Tensor)
    (zs : Option (Binary64 × Binary64)) : Prop :=
  ∃ p : ProductSizes, p.lhs = a.shape ∧ p.rhs = b.shape ∧
    s.HasTensor v (p.products f.accumulator (a.factor .signed (zs.map Prod.fst))
      (b.factor .signed (zs.map Prod.snd)))

theorem Prepared.mono (h : f.Prepared s a b zs) (hle : s ≤ s') : f.Prepared s' a b zs :=
  ⟨h.lhs.mono hle, h.rhs.mono hle, h.lhsRank, h.rhsRank, h.zeroPoints.mono hle, h.quantized⟩

/-- The size of an axis that a double holds. -/
theorem axis_meets {axis : Nat} (hv : s.HasTensor v t) (hn : t.shape[axis]? = some n)
    (hexact : Binary64.IsExact n) :
    (dim v axis).Meets l s fun z s' => s'.IsSize l z n :=
  (dim_meets hv hn hexact.lt (.of_isExact hexact)).weaken fun _ _ _ hz => hz.1

/-- A kernel over plain loops, from zero on. -/
theorem kernel_meets {out inner dl dr : List Nat} {spec : ReductionSpec} {sizes : List Size}
    {lhs rhs : ValueId} (hspec : RunsOver spec zs.isSome out inner dl dr)
    (hf : s.HasZeroPoints f.zeroPoints? zs) (ha : s.HasTensor lhs a) (hb : s.HasTensor rhs b)
    (hz : s.AreSizes l sizes out) (hfit : ¬ TooLarge out)
    (hashape : a.shape = select dl (out ++ inner)) (hbshape : b.shape = select dr (out ++ inner)) :
    (zeros sizes f.accumulator >>= fun init => f.reduce spec lhs rhs init).Meets l s fun v s' =>
      s'.HasTensor v (loopSums f.accumulator spec.cast zs out inner dl dr a b) := by
  obtain ⟨indexing, hindexing, hroutes⟩ := hspec.routes
  rw [← hashape, ← hbshape] at hroutes
  refine .bind (zeros_meets hz.haveSizes fun hlarge => absurd hlarge hfit) ?_
  intro init s₁ hle₁ hinit
  exact reduce_sums_meets hindexing hspec.combine (ha.mono hle₁) (hb.mono hle₁) hinit.1
    (hf.mono hle₁) hroutes fun p hp => select_out hp

/-! ## Products without a batch -/

theorem Measured.refuses {lhs rhs : List Nat} (h : Measured l lhs rhs)
    (hne : lhs.getLast? ≠ rhs[rhs.length - 2]?) : l.Refuses := by
  refine h.wrong ?_
  rintro ⟨p, hl, hr⟩
  rw [← hl, ← hr] at hne
  exact hne (p.getLast?_lhs.trans p.getElem?_rhs.symm)

/-- Without a batch, the kernel over the operands gives their product. -/
theorem unbatched_meets (rows columns : Option Nat) {spec : ReductionSpec} {sizes : List Size}
    {iterators : List IteratorKind} (hf : s.HasZeroPoints f.zeroPoints? zs)
    (hspec : spec.indexing? = some (.projections (lhsLoops rows columns)
      (rhsLoops rows columns) (List.range (rows.toList.length + columns.toList.length)) iterators))
    (hlen : rows.toList.length + columns.toList.length + 1 = iterators.length)
    (hcombine : spec.combine = ReductionSpec.combineFor zs.isSome) (ha : s.HasTensor v a)
    (hb : s.HasTensor w b) (hashape : a.shape = rows.toList ++ [k])
    (hbshape : b.shape = k :: columns.toList)
    (hz : s.AreSizes l sizes (rows.toList ++ columns.toList))
    (hfit : ¬ TooLarge (rows.toList ++ columns.toList)) :
    (zeros sizes f.accumulator >>= fun init => f.reduce spec v w init).Meets l s fun v s' =>
      s'.HasTensor v ((ProductSizes.unbatched rows k columns).products f.accumulator
        (a.factor spec.cast (zs.map Prod.fst)) (b.factor spec.cast (zs.map Prod.snd))) := by
  obtain ⟨hlhs, hrhs⟩ := select_loops rows columns k rfl rfl
  rw [← loopSums_unbatched (.unbatched rows k columns) rfl rfl]
  exact kernel_meets (runsOver_unbatched k hspec hlen hcombine) hf ha hb hz hfit
    (hashape.trans hlhs.symm) (hbshape.trans hrhs.symm)

theorem dot_meets (hf : f.Prepared s a b none) (ha : a.shape = [k]) (hb : b.shape = [k'])
    (hm : Measured l a.shape b.shape) : f.dot.Meets l s fun v s' => f.IsProduct s' v a b none := by
  refine .bind (axis_meets hf.lhs (by rw [ha]; rfl) (hm.lhs k (by simp [ha]))) ?_
  intro x s₁ hle₁ hx
  have hf₁ := hf.mono hle₁
  refine .bind (axis_meets hf₁.rhs (by rw [hb]; rfl) (hm.rhs k' (by simp [hb]))) ?_
  intro y s₂ hle₂ hy
  have hf₂ := hf₁.mono hle₂
  refine .bind (requireEqual_meets (hx.mono hle₂) hy fun hne => hm.refuses ?_) ?_
  · rw [ha, hb]
    simpa using hne
  rintro _ s₃ hle₃ hk
  obtain rfl : k = k' := Int.ofNat_inj.1 hk
  have hf₃ := hf₂.mono hle₃
  refine (unbatched_meets none none hf₃.zeroPoints rfl rfl rfl hf₃.lhs
    hf₃.rhs ha hb .nil (by decide)).weaken fun v s₄ _ hv => ?_
  exact ⟨.unbatched none k none, ha.symm, hb.symm, hv⟩

theorem vecmat_meets (hf : f.Prepared s a b none) (ha : a.shape = [k]) (hb : b.shape = [k', n])
    (hm : Measured l a.shape b.shape) :
    f.vecmat.Meets l s fun v s' => f.IsProduct s' v a b none := by
  refine .bind (axis_meets hf.lhs (by rw [ha]; rfl) (hm.lhs k (by simp [ha]))) ?_
  intro x s₁ hle₁ hx
  have hf₁ := hf.mono hle₁
  refine .bind (axis_meets hf₁.rhs (by rw [hb]; rfl) (hm.rhs k' (by simp [hb]))) ?_
  intro y s₂ hle₂ hy
  have hf₂ := hf₁.mono hle₂
  refine .bind (axis_meets hf₂.rhs (by rw [hb]; rfl) (hm.rhs n (by simp [hb]))) ?_
  intro columns s₃ hle₃ hcolumns
  have hf₃ := hf₂.mono hle₃
  refine .bind (requireEqual_meets (hx.mono (hle₂.trans hle₃)) (hy.mono hle₃)
    fun hne => hm.refuses ?_) ?_
  · rw [ha, hb]
    simpa using hne
  rintro _ s₄ hle₄ hk
  obtain rfl : k = k' := Int.ofNat_inj.1 hk
  have hf₄ := hf₃.mono hle₄
  refine (unbatched_meets none (some n) hf₄.zeroPoints rfl rfl rfl hf₄.lhs
    hf₄.rhs ha hb (.cons (hcolumns.mono hle₄) .nil)
    (hm.fits (.unbatched none k (some n)) ha.symm hb.symm).out).weaken fun v s₅ _ hv => ?_
  exact ⟨.unbatched none k (some n), ha.symm, hb.symm, hv⟩

theorem matvec_meets (hf : f.Prepared s a b none) (ha : a.shape = [m, k]) (hb : b.shape = [k'])
    (hm : Measured l a.shape b.shape) :
    f.matvec.Meets l s fun v s' => f.IsProduct s' v a b none := by
  refine .bind (axis_meets hf.lhs (by rw [ha]; rfl) (hm.lhs m (by simp [ha]))) ?_
  intro rows s₁ hle₁ hrows
  have hf₁ := hf.mono hle₁
  refine .bind (axis_meets hf₁.lhs (by rw [ha]; rfl) (hm.lhs k (by simp [ha]))) ?_
  intro x s₂ hle₂ hx
  have hf₂ := hf₁.mono hle₂
  refine .bind (axis_meets hf₂.rhs (by rw [hb]; rfl) (hm.rhs k' (by simp [hb]))) ?_
  intro y s₃ hle₃ hy
  have hf₃ := hf₂.mono hle₃
  refine .bind (requireEqual_meets (hx.mono hle₃) hy fun hne => hm.refuses ?_) ?_
  · rw [ha, hb]
    simpa using hne
  rintro _ s₄ hle₄ hk
  obtain rfl : k = k' := Int.ofNat_inj.1 hk
  have hf₄ := hf₃.mono hle₄
  refine (unbatched_meets (some m) none hf₄.zeroPoints rfl rfl rfl hf₄.lhs
    hf₄.rhs ha hb (.cons (hrows.mono (hle₂.trans (hle₃.trans hle₄))) .nil)
    (hm.fits (.unbatched (some m) k none) ha.symm hb.symm).out).weaken fun v s₅ _ hv => ?_
  exact ⟨.unbatched (some m) k none, ha.symm, hb.symm, hv⟩

/-- The product of two matrices, which may be the operands in another shape. -/
theorem matmul_meets (hf : s.HasZeroPoints f.zeroPoints? zs)
    (hquantized : f.isQuantized = zs.isSome) (ha : s.HasTensor v a) (hb : s.HasTensor w b)
    (hashape : a.shape = [m, k]) (hbshape : b.shape = [k', n])
    (hlhs : Binary64.IsExact m ∧ Binary64.IsExact k)
    (hrhs : Binary64.IsExact k' ∧ Binary64.IsExact n) (hfit : k = k' → ¬ TooLarge [m, n])
    (hwrong : k ≠ k' → l.Refuses) :
    (f.matmul v w).Meets l s fun v s' => k = k' ∧ s'.HasTensor v
      ((ProductSizes.ofMatrices m k n).products f.accumulator
        (a.factor .signed (zs.map Prod.fst)) (b.factor .signed (zs.map Prod.snd))) := by
  refine .bind (axis_meets ha (by rw [hashape]; rfl) hlhs.1) fun rows s₁ hle₁ hrows => ?_
  refine .bind (axis_meets (ha.mono hle₁) (by rw [hashape]; rfl) hlhs.2) fun x s₂ hle₂ hx => ?_
  have hle := hle₁.trans hle₂
  refine .bind (axis_meets (hb.mono hle) (by rw [hbshape]; rfl) hrhs.1) fun y s₃ hle₃ hy => ?_
  refine .bind (axis_meets (hb.mono (hle.trans hle₃)) (by rw [hbshape]; rfl) hrhs.2) ?_
  intro columns s₄ hle₄ hcolumns
  have hle' := hle.trans (hle₃.trans hle₄)
  refine .bind (requireEqual_meets (hx.mono (hle₃.trans hle₄)) (hy.mono hle₄) fun hne =>
    hwrong fun hk => hne (congrArg _ hk)) ?_
  rintro _ s₅ hle₅ hk
  obtain rfl : k = k' := Int.ofNat_inj.1 hk
  have hsizes : s₅.AreSizes l [rows, columns] [m, n] :=
    .cons ((hrows.mono (hle₂.trans (hle₃.trans hle₄))).mono hle₅)
      (.cons (hcolumns.mono hle₅) .nil)
  have hkernel : ∀ {spec : ReductionSpec}, spec.indexing? = NamedKernel.matmul.indexing? →
      spec.combine = ReductionSpec.combineFor zs.isSome → spec.cast = .signed →
      (zeros [rows, columns] f.accumulator >>= fun init =>
        f.reduce spec v w init).Meets l s₅ fun v s' => k = k ∧ s'.HasTensor v
          ((ProductSizes.ofMatrices m k n).products f.accumulator
            (a.factor .signed (zs.map Prod.fst)) (b.factor .signed (zs.map Prod.snd))) := by
    intro spec hspec hcombine hcast
    refine (unbatched_meets (some m) (some n)
      ((hf.mono hle').mono hle₅) hspec rfl hcombine ((ha.mono hle').mono hle₅)
      ((hb.mono hle').mono hle₅) hashape hbshape hsizes (hfit rfl)).weaken fun v s' _ hv => ?_
    rw [hcast] at hv
    exact ⟨rfl, hv⟩
  rw [hquantized]
  cases zs with
  | none => exact hkernel rfl rfl rfl
  | some zs => exact hkernel rfl rfl rfl

/-! ## Quantized vectors -/

/-- A vector on the left gets a row. -/
theorem asRow_meets {x : OperandInfo} {rows : Option Nat} (hx : s.HasTensor x.value t)
    (hrank : x.rank = t.shape.length) (ht : t.shape = rows.toList ++ [k])
    (hk : Binary64.IsExact k) :
    (asRow x).Meets l s fun v s' => s'.HasTensor v (t.reshaped [rows.getD 1, k]) := by
  unfold asRow
  rw [hrank, ht]
  cases rows with
  | some m =>
      rw [if_neg (by simp)]
      have hshape : [(some m).getD 1, k] = t.shape := ht.symm
      rw [hshape, t.reshaped_self]
      exact .pure hx
  | none =>
      rw [if_pos (by rfl)]
      refine .bind (index_meets (.of_isExact Binary64.isExact_one)) fun one s₁ hle₁ hone => ?_
      refine .bind (axis_meets (hx.mono hle₁) (by rw [ht]; rfl) hk) fun inner s₂ hle₂ hinner => ?_
      rw [unitFold_middle 1 k]
      exact expandShape_meets ((hx.mono hle₁).mono hle₂) (by simp [ht]) (by simp)
        (.cons (hone.1.mono hle₂) (.cons hinner .nil)) (not_tooLarge_unit hk.lt).1

/-- A vector on the right gets a column. -/
theorem asColumn_meets {x : OperandInfo} {columns : Option Nat} (hx : s.HasTensor x.value t)
    (hrank : x.rank = t.shape.length) (ht : t.shape = k :: columns.toList)
    (hk : Binary64.IsExact k) :
    (asColumn x).Meets l s fun v s' => s'.HasTensor v (t.reshaped [k, columns.getD 1]) := by
  unfold asColumn
  rw [hrank, ht]
  cases columns with
  | some m =>
      rw [if_neg (by simp)]
      have hshape : [k, (some m).getD 1] = t.shape := ht.symm
      rw [hshape, t.reshaped_self]
      exact .pure hx
  | none =>
      rw [if_pos (by rfl)]
      refine .bind (index_meets (.of_isExact Binary64.isExact_one)) fun one s₁ hle₁ hone => ?_
      refine .bind (axis_meets (hx.mono hle₁) (by rw [ht]; rfl) hk) fun inner s₂ hle₂ hinner => ?_
      rw [unitFold_middle k 1]
      exact expandShape_meets ((hx.mono hle₁).mono hle₂) (by simp [ht]) (by simp)
        (.cons hinner (.cons (hone.1.mono hle₂) .nil)) (not_tooLarge_unit hk.lt).2

theorem quantizedVector_meets {rows columns : Option Nat} (hf : f.Prepared s a b zs)
    (ha : a.shape = rows.toList ++ [k]) (hb : b.shape = k' :: columns.toList)
    (hvector : rows = none ∨ columns = none) (hm : Measured l a.shape b.shape) :
    (f.quantizedVector ((ProductSizes.unbatched rows k columns).form = .dot)).Meets l s
      fun v s' => f.IsProduct s' v a b zs := by
  have hone : ∀ size : Option Nat, (∀ n ∈ size, Binary64.IsExact n) →
      Binary64.IsExact ((size.getD 1 : Nat) : Int) := by
    intro size hsize
    cases size with
    | none => exact Binary64.isExact_one
    | some n => exact hsize n rfl
  have hk := hm.lhs k (by simp [ha])
  have hk' := hm.rhs k' (by simp [hb])
  have hrows := hone rows fun n hn => hm.lhs n (by simp [ha, Option.mem_toList.2 hn])
  have hcolumns := hone columns fun n hn => hm.rhs n (by simp [hb, Option.mem_toList.2 hn])
  refine .bind (asRow_meets hf.lhs hf.lhsRank ha hk) fun x s₁ hle₁ hx => ?_
  have hf₁ := hf.mono hle₁
  refine .bind (asColumn_meets hf₁.rhs hf₁.rhsRank hb hk') fun y s₂ hle₂ hy => ?_
  have hf₂ := hf₁.mono hle₂
  refine .bind (matmul_meets hf₂.zeroPoints hf₂.quantized (hx.mono hle₂) hy rfl rfl ⟨hrows, hk⟩
    ⟨hk', hcolumns⟩ (fun hsame => ?_) fun hne => hm.refuses ?_) ?_
  · subst hsame
    exact ((hm.fits (.unbatched rows k columns) ha.symm hb.symm).matrices rfl rfl).out
  · rw [ha, hb]
    rcases hvector with rfl | rfl
    · cases columns <;> simpa using hne
    · simpa using hne
  rintro product s₃ hle₃ ⟨rfl, hproduct⟩
  have hsizes : (if decide ((ProductSizes.unbatched rows k columns).form = .dot) then
      (⟨[]⟩ : Reassociation) else unitFold).collapsedSizes
        (ProductSizes.ofMatrices (rows.getD 1) k (columns.getD 1)).out =
          (ProductSizes.unbatched rows k columns).out :=
    collapsedSizes_vector (p := .unbatched rows k columns) hvector
  refine (collapseShape_groups_meets hproduct (isValid_vector _ _ _) ?_ ?_).weaken
    fun v s₄ _ hv => ⟨.unbatched rows k columns, ha.symm, hb.symm, ?_⟩
  · rw [ProductSizes.shape_products, hsizes]
    exact ProductSizes.volume_out_matrices (p := .unbatched rows k columns) rfl rfl
  · rw [ProductSizes.shape_products, hsizes]
    exact (hm.fits (.unbatched rows k columns) ha.symm hb.symm).out
  · rw [ProductSizes.shape_products, hsizes] at hv
    refine hv.of_eq (ProductSizes.reshaped_products_matrices
      (p := .unbatched rows k columns) rfl rfl ?_ ?_)
    · exact fun row q hrow hq => Tensor.factor_congr rfl (entry_row ha hrow hq)
    · exact fun q column hq hcolumn => Tensor.factor_congr rfl (entry_column hb hq hcolumn)

end Factors

end TensorLowering
