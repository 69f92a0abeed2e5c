import TensorLowering.Proofs.MatrixProduct.DeclaredRules
import TensorLowering.Proofs.MatrixProduct.Rules

/-!
# Products of operands whose sizes are known

Where every size of the operands is declared, sizes that must agree are compared while the program
is built. Main statement: a rule for matrix products fails or gives the product of its operands,
whichever form that has; in particular it fails if there is none.
-/
namespace TensorLowering

open Numeric NdArray Stage Build

namespace Factors

variable {f : Factors} {s : Stage} {a b : Tensor} {zs : Option (Binary64 × Binary64)}
  {k k' m n : Nat} {lhs rhs : ValueId}

/-- Doubles hold the sizes of the operands and, if they have a product, how many matrices are
multiplied; what takes part in the product is not too large. -/
structure Countable (left right : List Nat) : Prop where
  lhs : ∀ n ∈ left, Binary64.IsExact n
  rhs : ∀ n ∈ right, Binary64.IsExact n
  batch : ∀ p : ProductSizes, p.lhs = left → p.rhs = right → Binary64.IsExact (volume p.batch)
  fits : ∀ p : ProductSizes, p.lhs = left → p.rhs = right → p.Fits

/-- The sizes of the product are among those of the operands. -/
theorem Countable.exact {p : ProductSizes} (h : Countable p.lhs p.rhs) : p.Exact where
  out := by
    intro n hn
    simp only [ProductSizes.out, List.mem_append] at hn
    rcases hn with hn | hn | hn
    · rcases mem_of_broadcastShape p.common hn with hn | hn
      · exact h.lhs n (by simp [ProductSizes.lhs, hn])
      · exact h.rhs n (by simp [ProductSizes.rhs, hn])
    · exact h.lhs n (by simp [ProductSizes.lhs, hn])
    · exact h.rhs n (by simp [ProductSizes.rhs, hn])
  inner _ := h.lhs p.inner (by simp [ProductSizes.lhs])
  batch := h.batch p rfl rfl

/-! ## Operands without a product -/

/-- Summed sizes that are known and differ end the construction. -/
theorem contraction_refused {β : Type} {inner inner' : Size} {next : Unit → Build β}
    {post : β → Stage → Prop} (hk : s.Knows inner k) (hk' : s.Knows inner' k') (hne : k ≠ k') :
    (requireContraction inner inner' >>= next).Gives (fun _ => True) s post := by
  refine Gives.bind (requireEqual_known hk.known hk'.known) ?_
  rintro ⟨⟩ s' - ⟨-, heq⟩
  exact absurd (Int.ofNat_inj.1 heq) hne

theorem dot_refused (ha : s.Holds f.lhs.value a) (hb : s.Holds f.rhs.value b)
    (hashape : a.shape = [k]) (hbshape : b.shape = [k']) (hk : Binary64.IsExact k)
    (hk' : Binary64.IsExact k') (hne : k ≠ k') :
    f.dot.Gives (fun _ => True) s fun _ _ => False := by
  refine Gives.bind (dim_knows ha (by rw [hashape]; rfl) hk.lt) fun inner s₁ hle₁ hinner => ?_
  refine Gives.bind (dim_knows (hb.mono hle₁) (by rw [hbshape]; rfl) hk'.lt) ?_
  intro inner' s₂ hle₂ hinner'
  exact contraction_refused (hinner.mono hle₂) hinner' hne

theorem vecmat_refused (ha : s.Holds f.lhs.value a) (hb : s.Holds f.rhs.value b)
    (hashape : a.shape = [k]) (hbshape : b.shape = [k', n]) (hk : Binary64.IsExact k)
    (hk' : Binary64.IsExact k') (hn : Binary64.IsExact n) (hne : k ≠ k') :
    f.vecmat.Gives (fun _ => True) s fun _ _ => False := by
  refine Gives.bind (dim_knows ha (by rw [hashape]; rfl) hk.lt) fun inner s₁ hle₁ hinner => ?_
  have hb₁ := hb.mono hle₁
  refine Gives.bind (dim_knows hb₁ (by rw [hbshape]; rfl) hk'.lt) fun inner' s₂ hle₂ hinner' => ?_
  refine Gives.bind (dim_knows (n := n) (hb₁.mono hle₂) (by rw [hbshape]; rfl) hn.lt) ?_
  intro columns s₃ hle₃ _
  exact contraction_refused (hinner.mono (hle₂.trans hle₃)) (hinner'.mono hle₃) hne

theorem matvec_refused (ha : s.Holds f.lhs.value a) (hb : s.Holds f.rhs.value b)
    (hashape : a.shape = [m, k]) (hbshape : b.shape = [k']) (hm : Binary64.IsExact m)
    (hk : Binary64.IsExact k) (hk' : Binary64.IsExact k') (hne : k ≠ k') :
    f.matvec.Gives (fun _ => True) s fun _ _ => False := by
  refine Gives.bind (dim_knows (n := m) ha (by rw [hashape]; rfl) hm.lt) fun rows s₁ hle₁ _ => ?_
  have ha₁ := ha.mono hle₁
  refine Gives.bind (dim_knows ha₁ (by rw [hashape]; rfl) hk.lt) fun inner s₂ hle₂ hinner => ?_
  refine Gives.bind (dim_knows (hb.mono (hle₁.trans hle₂)) (by rw [hbshape]; rfl) hk'.lt) ?_
  intro inner' s₃ hle₃ hinner'
  exact contraction_refused (hinner.mono hle₃) hinner' hne

theorem matmul_refused (ha : s.Holds lhs a) (hb : s.Holds rhs b) (hashape : a.shape = [m, k])
    (hbshape : b.shape = [k', n]) (hm : m < 0x8000000000000000) (hk : Binary64.IsExact k)
    (hk' : Binary64.IsExact k') (hn : n < 0x8000000000000000) (hne : k ≠ k') :
    (f.matmul lhs rhs).Gives (fun _ => True) s fun _ _ => False := by
  refine Gives.bind (dim_knows (n := m) ha (by rw [hashape]; rfl) hm) fun rows s₁ hle₁ _ => ?_
  have ha₁ := ha.mono hle₁
  refine Gives.bind (dim_knows ha₁ (by rw [hashape]; rfl) hk.lt) fun inner s₂ hle₂ hinner => ?_
  have hb₂ := hb.mono (hle₁.trans hle₂)
  refine Gives.bind (dim_knows hb₂ (by rw [hbshape]; rfl) hk'.lt) fun inner' s₃ hle₃ hinner' => ?_
  refine Gives.bind (dim_knows (n := n) (hb₂.mono hle₃) (by rw [hbshape]; rfl) hn) ?_
  intro columns s₄ hle₄ _
  exact contraction_refused (hinner.mono (hle₃.trans hle₄)) (hinner'.mono hle₄) hne

/-- A quantized vector becomes a matrix before the sizes are compared. -/
theorem quantizedVector_refused (rows columns : Option Nat) {isDot : Bool}
    (hf : f.Ready s a b zs) (hashape : a.shape = rows.toList ++ [k])
    (hbshape : b.shape = k' :: columns.toList) (hexact : Countable a.shape b.shape)
    (hne : k ≠ k') : (f.quantizedVector isDot).Gives (fun _ => True) s fun _ _ => False := by
  have hk : Binary64.IsExact k := hexact.lhs k (by simp [hashape])
  have hk' : Binary64.IsExact k' := hexact.rhs k' (by simp [hbshape])
  have hgetD : ∀ (size : Option Nat), (∀ n ∈ size.toList, Binary64.IsExact n) →
      size.getD 1 < 0x8000000000000000 := by
    intro size h
    cases size with
    | none => decide
    | some n => exact (h n (by simp)).lt
  refine Gives.bind (asRow_gives hf.lhs hf.lhsType hashape fun _ => hk) ?_
  intro lhs s₁ hle₁ hlhs
  refine Gives.bind (asColumn_gives (hf.rhs.mono hle₁) hf.rhsType hbshape fun _ => hk') ?_
  intro rhs s₂ hle₂ hrhs
  refine Gives.bind (matmul_refused (hlhs.mono hle₂) hrhs (Tensor.shape_reshaped ..)
    (Tensor.shape_reshaped ..) (hgetD rows fun n hn => hexact.lhs n (by simp [hashape, hn])) hk hk'
    (hgetD columns fun n hn => hexact.rhs n (by simp [hbshape, hn])) hne) ?_
  exact fun _ _ _ => False.elim

theorem batched_refused {own own' : List Nat} (hf : f.Ready s a b zs)
    (hashape : a.shape = own ++ [m, k]) (hbshape : b.shape = own' ++ [k', n])
    (hexact : Countable a.shape b.shape)
    (hnone : ¬ ∃ p : ProductSizes, p.lhs = a.shape ∧ p.rhs = b.shape) :
    f.batched.Gives (fun _ => True) s fun _ _ => False := by
  unfold batched
  refine Gives.bind (batchSizes_gives hf.lhs hf.lhsType hashape (hashape ▸ hexact.lhs)) ?_
  intro x s₁ hle₁ hx
  have hf₁ := hf.mono hle₁
  refine Gives.bind (batchSizes_gives hf₁.rhs hf₁.rhsType hbshape (hbshape ▸ hexact.rhs)) ?_
  intro y s₂ hle₂ hy
  refine Gives.bind (broadcastSizes_known (hx.batch.mono hle₂).knowsSizes hy.batch.knowsSizes) ?_
  rintro sizes s₃ hle₃ ⟨batch, hcommon, -⟩
  refine Gives.bind (requireEqual_known hx.columns.known hy.rows.known) ?_
  rintro ⟨⟩ s₄ - ⟨-, heq⟩
  obtain rfl : k = k' := Int.ofNat_inj.1 heq
  exact (hnone ⟨⟨own, own', batch, some m, k, some n, hcommon, by simp⟩, hashape.symm,
    hbshape.symm⟩).elim

theorem inForm_vector_refused {rows columns : Option Nat} (hf : f.Ready s a b zs)
    (ha : a.shape = rows.toList ++ [k]) (hb : b.shape = k' :: columns.toList)
    (hvector : rows = none ∨ columns = none) (hexact : Countable a.shape b.shape) (hne : k ≠ k') :
    (f.inForm (ProductSizes.unbatched rows k columns).form).Gives (fun _ => True) s
      fun _ _ => False := by
  have hl : ∀ {n : Nat}, n ∈ a.shape → Binary64.IsExact n := fun hn => hexact.lhs _ hn
  have hr : ∀ {n : Nat}, n ∈ b.shape → Binary64.IsExact n := fun hn => hexact.rhs _ hn
  unfold inForm
  split
  · exact quantizedVector_refused rows columns hf ha hb hexact hne
  cases rows with
  | none =>
      cases columns with
      | none => exact dot_refused hf.lhs hf.rhs ha hb (hl (by simp [ha])) (hr (by simp [hb])) hne
      | some n =>
          exact vecmat_refused hf.lhs hf.rhs ha hb (hl (by simp [ha])) (hr (by simp [hb]))
            (hr (by simp [hb])) hne
  | some m =>
      cases columns with
      | none =>
          exact matvec_refused hf.lhs hf.rhs ha hb (hl (by simp [ha])) (hl (by simp [ha]))
            (hr (by simp [hb])) hne
      | some n => simp at hvector

/-- Whatever form the ranks of the operands choose, operands without a product are refused. -/
theorem inForm_refused {form : ProductForm} (hf : f.Ready s a b zs)
    (hform : ProductForm.ofRanks? a.shape.length b.shape.length = some form)
    (hexact : Countable a.shape b.shape)
    (hnone : ¬ ∃ p : ProductSizes, p.lhs = a.shape ∧ p.rhs = b.shape) :
    (f.inForm form).Gives (fun _ => True) s fun _ _ => False := by
  rcases ProductSizes.cases_of_form hform with
    ⟨rows, columns, k, k', hvector, ha, hb, rfl⟩ | ⟨m, k, k', n, ha, hb, rfl⟩ |
      ⟨own, own', m, k, k', n, ha, hb, -, rfl⟩
  · refine inForm_vector_refused hf ha hb hvector hexact ?_
    rintro rfl
    exact hnone ⟨.unbatched rows k columns, ha.symm, hb.symm⟩
  · rw [inForm_matmul]
    refine matmul_refused hf.lhs hf.rhs ha hb (hexact.lhs m (by simp [ha])).lt
      (hexact.lhs k (by simp [ha])) (hexact.rhs k' (by simp [hb]))
      (hexact.rhs n (by simp [hb])).lt ?_
    rintro rfl
    exact hnone ⟨.ofMatrices m k n, ha.symm, hb.symm⟩
  · rw [inForm_batched]
    exact batched_refused hf ha hb hexact hnone

/-- Operands give their product in the form that their ranks choose, or are refused. -/
theorem inForm_known {form : ProductForm} (hf : f.Ready s a b zs)
    (hform : ProductForm.ofRanks? a.shape.length b.shape.length = some form)
    (hexact : Countable a.shape b.shape) :
    (f.inForm form).Gives (fun _ => True) s fun v s' => ∃ p : ProductSizes, p.lhs = a.shape ∧
      p.rhs = b.shape ∧ s'.Holds v (p.products f.accumulator
        (a.factor .signed (zs.map Prod.fst)) (b.factor .signed (zs.map Prod.snd))) := by
  by_cases hproduct : ∃ p : ProductSizes, p.lhs = a.shape ∧ p.rhs = b.shape
  · obtain ⟨p, hl, hr⟩ := hproduct
    rw [← hl, ← hr] at hexact hform
    obtain rfl : p.form = form := Option.some.inj (p.ofRanks?_eq_form.symm.trans hform)
    refine (inForm_gives hf hl.symm hr.symm hexact.exact (fun _ _ => hexact.lhs p.inner ?_)
      (hexact.fits p rfl rfl)).weaken fun v s' _ hv => ⟨p, hl, hr, hv⟩
    simp [ProductSizes.lhs]
  · exact (inForm_refused hf hform hexact hproduct).weaken fun _ _ _ => False.elim

/-- Operands declared with every size are prepared as tensors of their static types. -/
theorem prepare_known {x y : OperandInfo} {za zb : Option Binary64} {result : TensorType}
    {operator : String} (hx : s.Reads x a za) (hy : s.Reads y b zb) (hxp : s.Pinned x a)
    (hyp : s.Pinned y b) :
    (prepare x y result operator).Gives (fun _ => True) s fun f s' =>
      a.dtype.accumulator? = some f.accumulator ∧
        f.Ready s' (a.normalized za) (b.normalized zb) (storedZeros a b za zb) := by
  refine (prepare_meets (l := .failing fun _ => True) hx hy fun _ _ => trivial).gives.weaken ?_
  rintro f s' - ⟨hacc, hf, hpinned⟩
  obtain ⟨hl, hr⟩ := hpinned ⟨hxp, hyp⟩
  exact ⟨hacc, hl.storage, hr.storage, hl.type, hr.type, hf.zeroPoints, hf.quantized⟩

end Factors

/-! ## The rules -/

namespace Rule

variable {s : Stage} {a b : Tensor} {za zb : Option Binary64} {x y : OperandInfo}
  {result : TensorType} {operands : BinaryOperands}

theorem lowerMatmul_known (hlhs : OperandInfo.extract s.graph operands.lhs = .ok x)
    (hrhs : OperandInfo.extract s.graph operands.rhs = .ok y) (hx : s.Reads x a za)
    (hy : s.Reads y b zb) (hxp : s.Pinned x a) (hyp : s.Pinned y b)
    (hexact : Factors.Countable a.shape b.shape) :
    (lowerMatmul operands result).Gives (fun _ => True) s
      (GivesProduct .signed a b za zb result) := by
  refine .query hlhs (.query hrhs ?_)
  rw [hx.rank, hy.rank]
  split
  next => exact trivial
  next form hform =>
  refine Gives.bind (Factors.prepare_known hx hy hxp hyp) ?_
  rintro f s₁ - ⟨hacc, hf⟩
  refine Gives.bind (Factors.inForm_known hf (by simpa using hform) (by simpa using hexact)) ?_
  rintro v s₂ - ⟨p, hl, hr, hv⟩
  rw [Tensor.shape_normalized] at hl hr
  refine (finish_gives hv (.inl fun _ => trivial)).weaken ?_
  rintro w s₃ - ⟨hget, hadmits⟩
  exact ⟨p, f.accumulator, hl, hr, hacc, hadmits, hget⟩

/-- `mm` compares summed sizes that are known even where it takes unknown ones to agree. -/
theorem mmProduct_refused {f : Factors} {zs : Option (Binary64 × Binary64)} {m k k' n : Nat}
    (hf : f.Ready s a b zs) (ha : a.shape = [m, k]) (hb : b.shape = [k', n])
    (hexact : Factors.Countable a.shape b.shape) (hne : k ≠ k') (config : LoweringConfig)
    (unsigned : Bool) :
    (mmProduct config f unsigned result).Gives (fun _ => True) s fun _ _ => False := by
  have hl : ∀ i ∈ [m, k], Binary64.IsExact i := ha ▸ hexact.lhs
  have hr : ∀ i ∈ [k', n], Binary64.IsExact i := hb ▸ hexact.rhs
  refine Gives.bind (dim_knows (n := m) hf.lhs (by rw [ha]; rfl) (hl m (by simp)).lt) ?_
  intro rows s₁ hle₁ _
  have hf₁ := hf.mono hle₁
  refine Gives.bind (dim_knows (n := n) hf₁.rhs (by rw [hb]; rfl) (hr n (by simp)).lt) ?_
  intro columns s₂ hle₂ _
  have hf₂ := hf₁.mono hle₂
  refine Gives.bind (dim_knows hf₂.lhs (by rw [ha]; rfl) (hl k (by simp)).lt) ?_
  intro inner s₃ hle₃ hinner
  refine Gives.bind (dim_knows (hf₂.mono hle₃).rhs (by rw [hb]; rfl) (hr k' (by simp)).lt) ?_
  intro inner' s₄ hle₄ hinner'
  have hchecks : (!config.assumeEqualSizes || (inner.known.isSome && inner'.known.isSome)) =
      true := by
    simp [hinner.known, hinner'.known]
  rw [hchecks, if_pos rfl]
  exact Factors.contraction_refused (hinner.mono hle₄) hinner' hne

theorem lowerMm_known (config : LoweringConfig)
    (hlhs : OperandInfo.extract s.graph operands.lhs = .ok x)
    (hrhs : OperandInfo.extract s.graph operands.rhs = .ok y) (hx : s.Reads x a za)
    (hy : s.Reads y b zb) (hxp : s.Pinned x a) (hyp : s.Pinned y b)
    (hexact : Factors.Countable a.shape b.shape) :
    (lowerMm config operands result).Gives (fun _ => True) s fun v s' =>
      ∃ cast, GivesProduct cast a b za zb result v s' := by
  refine .query hlhs (.query hrhs ?_)
  rw [hx.rank, hy.rank]
  split
  next => exact trivial
  next hranks =>
  rw [not_or, not_not, not_not] at hranks
  refine Gives.bind (Factors.prepare_known hx hy hxp hyp) ?_
  rintro f s₁ - ⟨hacc, hf⟩
  by_cases hproduct : ∃ p : ProductSizes, p.lhs = a.shape ∧ p.rhs = b.shape
  · obtain ⟨p, hl, hr⟩ := hproduct
    rw [← hl, ← hr] at hexact
    have hl' := (a.shape_normalized za).trans hl.symm
    have hr' := (b.shape_normalized zb).trans hr.symm
    refine (mmProduct_gives config _ hf hl' hr' (by simpa using hranks) (.inl fun _ => trivial)
      hexact.exact (hexact.fits p rfl rfl)).weaken ?_
    rintro v s₂ - ⟨hget, hadmits⟩
    exact ⟨_, p, f.accumulator, hl, hr, hacc, hadmits, hget⟩
  · obtain ⟨m, k, ha⟩ := List.length_eq_two.1 hranks.1
    obtain ⟨k', n, hb⟩ := List.length_eq_two.1 hranks.2
    refine (mmProduct_refused hf ((a.shape_normalized za).trans ha)
      ((b.shape_normalized zb).trans hb) (by simpa using hexact) ?_ config _).weaken
        fun _ _ _ => False.elim
    rintro rfl
    exact hproduct ⟨.ofMatrices m k n, ha.symm, hb.symm⟩

/-- The operands of `bmm` with one element type are declared with the sizes that they had. -/
theorem unifyTypes_gives {fails : LowerError → Prop} {lhs rhs result : DType}
    (ha : s.Holds operands.lhs a) (hb : s.Holds operands.rhs b) :
    (unifyTypes operands lhs rhs result).Gives fails s fun operands' s' =>
      ∃ a' b' : Tensor, s'.Holds operands'.lhs a' ∧ s'.Holds operands'.rhs b' ∧
        a'.shape = a.shape ∧ b'.shape = b.shape := by
  unfold unifyTypes
  split
  next => exact .pure ⟨a, b, ha, hb, rfl, rfl⟩
  next =>
  split
  next =>
    refine Gives.bind (convert_gives hb) fun v s₁ hle₁ hv => ?_
    exact .pure ⟨a, _, ha.mono hle₁, hv, rfl, rfl⟩
  next =>
    refine Gives.bind (convert_gives ha) fun v s₁ hle₁ hv => ?_
    exact .pure ⟨_, b, hv, hb.mono hle₁, rfl, rfl⟩

/-- The product that `bmm` makes of operands with one element type, or a failure: the batches must
be equal, and so must the summed sizes. -/
theorem bmmProduct_known {lhs rhs : ValueId} (ha : s.Holds lhs a) (hb : s.Holds rhs b)
    (hranks : a.shape.length = 3 ∧ b.shape.length = 3)
    (hexact : Factors.Countable a.shape b.shape) :
    (bmmProduct lhs rhs result).Gives (fun _ => True) s fun v s' =>
      ∃ t, s'.env.get? v = some (.tensor t) ∧ t.HasType result := by
  obtain ⟨c, m, k, hashape⟩ := List.length_eq_three.1 hranks.1
  obtain ⟨c', k', n, hbshape⟩ := List.length_eq_three.1 hranks.2
  have hl : ∀ i ∈ [c, m, k], Binary64.IsExact i := hashape ▸ hexact.lhs
  have hr : ∀ i ∈ [c', k', n], Binary64.IsExact i := hbshape ▸ hexact.rhs
  refine .tensorType ha (.attempt fun acc _ => ?_)
  refine Gives.bind (dim_gives (n := c) ha (by rw [hashape]; rfl) (hl c (by simp))) ?_
  intro batch s₁ hle₁ hbatch
  have ha₁ := ha.mono hle₁
  refine Gives.bind (dim_gives (n := m) ha₁ (by rw [hashape]; rfl) (hl m (by simp))) ?_
  intro rows s₂ hle₂ hrows
  have ha₂ := ha₁.mono hle₂
  refine Gives.bind (dim_knows (n := k) ha₂ (by rw [hashape]; rfl) (hl k (by simp)).lt) ?_
  intro inner s₃ hle₃ hinner
  have hb₃ := hb.mono (hle₁.trans (hle₂.trans hle₃))
  refine Gives.bind (dim_knows (n := c') hb₃ (by rw [hbshape]; rfl) (hr c' (by simp)).lt) ?_
  intro batch' s₄ hle₄ hbatch'
  have hb₄ := hb₃.mono hle₄
  refine Gives.bind (dim_knows (n := k') hb₄ (by rw [hbshape]; rfl) (hr k' (by simp)).lt) ?_
  intro inner' s₅ hle₅ hinner'
  have hb₅ := hb₄.mono hle₅
  refine Gives.bind (dim_gives (n := n) hb₅ (by rw [hbshape]; rfl) (hr n (by simp))) ?_
  intro columns s₆ hle₆ hcolumns
  refine Gives.bind (requireEqual_known hbatch.known hbatch'.known) ?_
  rintro ⟨⟩ s₇ - ⟨rfl, hc⟩
  refine Gives.bind (requireEqual_known hinner.known hinner'.known) ?_
  rintro ⟨⟩ s₈ - ⟨rfl, hk⟩
  obtain rfl : c = c' := Int.ofNat_inj.1 hc
  obtain rfl : k = k' := Int.ofNat_inj.1 hk
  have hle₃₆ := hle₄.trans (hle₅.trans hle₆)
  have hsizes : s₈.HasSizes [batch, rows, columns] [c, m, n] :=
    .cons (hbatch.mono (hle₂.trans (hle₃.trans hle₃₆))) (.cons (hrows.mono (hle₃.trans hle₃₆))
      (.cons hcolumns .nil))
  have hcommon : broadcastShape [c] [c] = .ok [c] := (broadcastShape_iff rfl).2 (common_self [c])
  have hfits := hexact.fits ⟨[c], [c], [c], some m, k, some n, hcommon, by simp⟩ hashape.symm
    hbshape.symm
  rw [← LawfulMonad.bind_assoc]
  refine Gives.bind (Factors.batchKernel_gives
    (f := ⟨⟨lhs, a.type, none⟩, ⟨rhs, b.type, none⟩, acc⟩) .none (ha₂.mono (hle₃.trans hle₃₆))
    (hb₅.mono hle₆) hashape hbshape hsizes hfits.out) ?_
  rintro v s₉ - ⟨t, ht, -⟩
  refine (finish_gives ht (.inl fun _ => trivial)).weaken ?_
  rintro w s₁₀ - ⟨hget, hadmits⟩
  exact ⟨_, hget, rfl, hadmits⟩

theorem lowerBmm_known (ha : s.Holds operands.lhs a) (hb : s.Holds operands.rhs b)
    (hexact : Factors.Countable a.shape b.shape) :
    (lowerBmm operands result).Gives (fun _ => True) s fun v s' =>
      ∃ t, s'.env.get? v = some (.tensor t) ∧ t.HasType result := by
  refine .tensorType ha (.tensorType hb ?_)
  split
  next => exact trivial
  next hranks =>
  rw [Tensor.rank_type, Tensor.rank_type, not_or, not_not, not_not] at hranks
  refine .attempt fun _ _ => .attempt fun _ _ => .attempt fun _ _ => ?_
  refine Gives.bind (unifyTypes_gives ha hb) ?_
  rintro ⟨lhs, rhs⟩ s₁ - ⟨a', b', ha', hb', hasame, hbsame⟩
  rw [← hasame, ← hbsame] at hranks hexact
  exact bmmProduct_known ha' hb' hranks hexact

end Rule

end TensorLowering
