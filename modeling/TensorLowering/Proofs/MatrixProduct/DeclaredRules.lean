import TensorLowering.Proofs.Conversion.PlainRules
import TensorLowering.Proofs.MatrixProduct.DeclaredBatches

/-!
# Lowered products of operands of declared types

What the rules for matrix products do where sizes are open. The operands are prepared as they are
where every size is known, and the product gets the declared type of the result.
-/
namespace TensorLowering

open Numeric NdArray Stage Build

variable {l : Limits} {s : Stage} {a b : Tensor} {za zb : Option Binary64} {x y : OperandInfo}
  {result : TensorType} {operands : BinaryOperands}

/-- The product of two operands, as the reductions compute it. -/
def ProductSizes.operandProduct (p : ProductSizes) (cast : CastKind) (accumulator : DType)
    (a b : Tensor) (za zb : Option Binary64) : Tensor :=
  p.products accumulator
    ((a.normalized za).factor cast ((storedZeros a b za zb).map Prod.fst))
    ((b.normalized zb).factor cast ((storedZeros a b za zb).map Prod.snd))

/-- The element types that a product can have: numeric ones, which are the same unless both operands
are quantized. -/
structure Factors.Typed (a b : Tensor) (za zb : Option Binary64) (result : DType) : Prop where
  lhs : a.dtype.isNumeric = true
  rhs : b.dtype.isNumeric = true
  result : result.isNumeric = true
  quantized : za.isSome = zb.isSome
  same : za = none → a.dtype = b.dtype

/-- A construction that only fails. -/
def Build.Fails {α : Type} (b : Build α) : Prop := ∃ e, b = .fail e

theorem Build.Fails.bind {α β : Type} {b : Build α} {f : α → Build β} (h : b.Fails) :
    (b >>= f).Fails := by
  obtain ⟨e, rfl⟩ := h
  exact ⟨e, rfl⟩

theorem Build.Fails.attempt {α γ : Type} {c : Except LowerError γ} {next : γ → Build α}
    (h : ∀ z, c = .ok z → (next z).Fails) : (Build.ofExcept c >>= next).Fails := by
  cases c with
  | error e => exact ⟨e, rfl⟩
  | ok z => exact h z rfl

theorem DType.isNumeric_of_requireNumeric {t : DType} {u : Unit} (h : t.requireNumeric = .ok u) :
    t.isNumeric = true := by
  by_contra hne
  cases h.symm.trans (if_neg hne)

/-- Operands are only normalized where the element types are those of a product. -/
theorem Factors.prepare_eq_normalize (hx : s.Reads x a za) (hy : s.Reads y b zb)
    (h : Factors.Typed a b za zb result.dtype) : ∃ acc, a.dtype.accumulator? = some acc ∧
      ∀ operator, prepare x y result operator = (do
        let lhs ← x.normalize
        let rhs ← y.normalize
        return ⟨lhs, rhs, acc⟩) := by
  have hsome := h.lhs
  rw [← DType.isSome_accumulator?] at hsome
  obtain ⟨acc, hacc⟩ := Option.isSome_iff_exists.1 hsome
  refine ⟨acc, hacc, fun operator => ?_⟩
  have hmixed : ¬ (!x.isQuantized && decide (x.type.dtype ≠ y.type.dtype)) = true := by
    rw [Bool.and_eq_true, Bool.not_eq_true', hx.isQuantized, Option.isSome_eq_false_iff,
      Option.isNone_iff_eq_none, decide_eq_true_iff, ← hx.type.dtype, ← hy.type.dtype]
    exact fun hne => hne.2 (h.same hne.1)
  have hlhs : x.type.dtype.requireNumeric = .ok () := if_pos (hx.type.dtype ▸ h.lhs)
  have hrhs : y.type.dtype.requireNumeric = .ok () := if_pos (hy.type.dtype ▸ h.rhs)
  have hresult : result.dtype.requireNumeric = .ok () := if_pos h.result
  have haccumulator : x.type.dtype.accumulator = .ok acc := by
    rw [← hx.type.dtype, DType.accumulator, hacc]
  have hboth : x.bothQuantized y operator = .ok x.isQuantized :=
    if_pos (hx.isQuantized.trans (h.quantized.trans hy.isQuantized.symm))
  rw [prepare, hlhs, hrhs, hresult, if_neg hmixed, haccumulator]
  simp only [OperandInfo.normalizePair, hboth, Build.ofExcept, LawfulMonad.bind_assoc]
  rfl

/-- Operands are refused where the element types are not those of a product. -/
theorem Factors.fails_prepare (hx : s.Reads x a za) (hy : s.Reads y b zb)
    (h : ¬ Factors.Typed a b za zb result.dtype) (operator : String) :
    (prepare x y result operator).Fails := by
  unfold prepare
  rw [← hx.type.dtype, ← hy.type.dtype, hx.isQuantized]
  refine .attempt fun _ hlhs => .attempt fun _ hrhs => .attempt fun _ hresult => ?_
  split
  next => exact ⟨_, rfl⟩
  next hmixed =>
  refine .attempt fun _ _ => .bind (.attempt fun _ hboth => absurd ?_ h)
  rw [OperandInfo.bothQuantized, hx.isQuantized, hy.isQuantized] at hboth
  refine ⟨DType.isNumeric_of_requireNumeric hlhs, DType.isNumeric_of_requireNumeric hrhs,
    DType.isNumeric_of_requireNumeric hresult, ?_, fun hnone => ?_⟩
  · by_contra hne
    cases hboth.symm.trans (if_neg hne)
  · by_contra hne
    simp [hnone, hne] at hmixed

/-- Prepared operands are declared with every size if those of the product are. -/
theorem Factors.prepare_meets {operator : String} (hx : s.Reads x a za) (hy : s.Reads y b zb)
    (hwrong : ¬ Factors.Typed a b za zb result.dtype → ∀ e, l.fails e) :
    (prepare x y result operator).Meets l s fun f s' =>
      a.dtype.accumulator? = some f.accumulator ∧
        f.Prepared s' (a.normalized za) (b.normalized zb) (storedZeros a b za zb) ∧
        (s.Pinned x a ∧ s.Pinned y b →
          s'.Pinned f.lhs (a.normalized za) ∧ s'.Pinned f.rhs (b.normalized zb)) := by
  by_cases htyped : Factors.Typed a b za zb result.dtype
  · obtain ⟨acc, hacc, hprepare⟩ := prepare_eq_normalize hx hy htyped
    rw [hprepare]
    refine .bind (normalize_meets hx) ?_
    rintro x' s₁ hle₁ ⟨hx', hxpinned⟩
    refine .bind (normalize_meets (hy.mono hle₁)) ?_
    rintro y' s₂ hle₂ ⟨hy', hypinned⟩
    replace hx' := hx'.mono hle₂
    obtain ⟨hzeros, hquantized⟩ := hx'.storedZeros htyped.quantized hy'
    exact .pure ⟨hacc, ⟨hx'.storage, hy'.storage, hx'.rank, hy'.rank, hzeros, hquantized⟩,
      fun hpinned => ⟨(hxpinned hpinned.1).mono hle₂, hypinned (hpinned.2.mono hle₁)⟩⟩
  · obtain ⟨e, he⟩ := fails_prepare hx hy htyped operator
    rw [he]
    exact hwrong htyped e

/-- Plain operands are taken as they are. -/
theorem Factors.prepare_plain {acc : DType} (hx : s.Reads x a none) (hy : s.Reads y b none)
    (htyped : Factors.Typed a b none none result.dtype) (hacc : a.dtype.accumulator? = some acc)
    (operator : String) :
    prepare x y result operator = pure ⟨x, y, acc⟩ ∧
      (Factors.mk x y acc).Prepared s a b none := by
  obtain ⟨acc', hacc', hprepare⟩ := prepare_eq_normalize hx hy htyped
  obtain rfl : acc = acc' := Option.some.inj (hacc.symm.trans hacc')
  have hplain : ∀ {x : OperandInfo} {t : Tensor}, s.Reads x t none → x.zeroPoint = none := by
    intro x t hx
    have hzero := hx.zeroPoint
    cases h : x.zeroPoint with
    | none => rfl
    | some z =>
        rw [h] at hzero
        cases hzero
  have hnormalize : ∀ {x : OperandInfo} {t : Tensor}, s.Reads x t none → x.normalize = pure x := by
    intro x t hx
    rw [OperandInfo.normalize, hplain hx]
  refine ⟨by rw [hprepare, hnormalize hx, hnormalize hy]; rfl, hx.storage, hy.storage, hx.rank,
    hy.rank, ?_, hx.isQuantized⟩
  have hnone : zeroPoints? ⟨x, y, acc⟩ = none := by
    rw [zeroPoints?, OperandInfo.zeroPoints?, hplain hx]
    rfl
  rw [hnone]
  exact .none

namespace Rule

/-- What a rule for matrix products gives: the product of the operands. -/
def GivesProduct (cast : CastKind) (a b : Tensor) (za zb : Option Binary64) (result : TensorType)
    (v : ValueId) (s : Stage) : Prop :=
  ∃ (p : ProductSizes) (acc : DType), p.lhs = a.shape ∧ p.rhs = b.shape ∧
    a.dtype.accumulator? = some acc ∧ result.shape.Admits p.out ∧
      s.env.get? v = some (.tensor ((p.operandProduct cast acc a b za zb).converted result.dtype))

theorem lowerMatmul_meets (hlhs : OperandInfo.extract s.graph operands.lhs = .ok x)
    (hrhs : OperandInfo.extract s.graph operands.rhs = .ok y) (hx : s.Reads x a za)
    (hy : s.Reads y b zb)
    (hform : ProductForm.ofRanks? a.shape.length b.shape.length = none → ∀ e, l.fails e)
    (htyped : ¬ Factors.Typed a b za zb result.dtype → ∀ e, l.fails e)
    (hm : ∀ form, ProductForm.ofRanks? a.shape.length b.shape.length = some form →
      Factors.Measured l a.shape b.shape)
    (hfails : ∀ p : ProductSizes, p.lhs = a.shape → p.rhs = b.shape →
      ¬ result.shape.Admits p.out → ∀ e, l.fails e)
    (hstops : ∀ p : ProductSizes, p.lhs = a.shape → p.rhs = b.shape →
      ¬ result.shape.Admits p.out → p.out.length = result.shape.rank → ∀ e, l.stops e) :
    (lowerMatmul operands result).Meets l s (GivesProduct .signed a b za zb result) := by
  refine .query hlhs (.query hrhs ?_)
  rw [hx.rank, hy.rank]
  cases hranks : ProductForm.ofRanks? a.shape.length b.shape.length with
  | none => exact hform hranks _
  | some form =>
      refine .bind (Factors.prepare_meets hx hy htyped) ?_
      rintro f s₁ hle₁ ⟨hacc, hf, -⟩
      refine .bind (Factors.inForm_meets hf (by simpa using hranks)
        (by simpa using hm form hranks)) ?_
      rintro v s₂ hle₂ ⟨p, hpl, hpr, hv⟩
      rw [Tensor.shape_normalized] at hpl hpr
      refine (finish_meets hv (hfails p hpl hpr) (hstops p hpl hpr)).weaken ?_
      rintro w s₃ - ⟨hget, hadmits⟩
      exact ⟨p, f.accumulator, hpl, hpr, hacc, hadmits, hget⟩

/-- The product that `mm` makes where it checks sizes that are not known. -/
theorem mmProduct_meets {config : LoweringConfig} {f : Factors} {zs : Option (Binary64 × Binary64)}
    {m k k' n : Nat} (hconfig : config.assumeEqualSizes = false) (hf : f.Prepared s a b zs)
    (ha : a.shape = [m, k]) (hb : b.shape = [k', n]) (hm : Factors.Measured l a.shape b.shape)
    (hfails : k = k' → ¬ result.shape.Admits [m, n] → ∀ e, l.fails e)
    (hstops : k = k' → ¬ result.shape.Admits [m, n] → [m, n].length = result.shape.rank →
      ∀ e, l.stops e) (unsigned : Bool) :
    (mmProduct config f unsigned result).Meets l s fun v s' =>
      k = k' ∧ result.shape.Admits [m, n] ∧ s'.env.get? v = some (.tensor
        (((ProductSizes.ofMatrices m k n).products f.accumulator
          (a.factor (mmSpec f unsigned).cast (zs.map Prod.fst))
          (b.factor (mmSpec f unsigned).cast (zs.map Prod.snd))).converted result.dtype)) := by
  refine .bind (Factors.axis_meets hf.lhs (by rw [ha]; rfl) (hm.lhs m (by simp [ha]))) ?_
  intro rows s₁ hle₁ hrows
  have hf₁ := hf.mono hle₁
  refine .bind (Factors.axis_meets hf₁.rhs (by rw [hb]; rfl) (hm.rhs n (by simp [hb]))) ?_
  intro columns s₂ hle₂ hcolumns
  have hf₂ := hf₁.mono hle₂
  refine .bind (Factors.axis_meets hf₂.lhs (by rw [ha]; rfl) (hm.lhs k (by simp [ha]))) ?_
  intro inner s₃ hle₃ hinner
  have hf₃ := hf₂.mono hle₃
  refine .bind (Factors.axis_meets hf₃.rhs (by rw [hb]; rfl) (hm.rhs k' (by simp [hb]))) ?_
  intro inner' s₄ hle₄ hinner'
  have hf₄ := hf₃.mono hle₄
  rw [hconfig, Bool.not_false, Bool.true_or, if_pos rfl]
  refine .bind (requireEqual_meets (hinner.mono hle₄) hinner' fun hne => hm.refuses ?_) ?_
  · rw [ha, hb]
    simpa using hne
  rintro _ s₅ hle₅ hk
  obtain rfl : k = k' := Int.ofNat_inj.1 hk
  have hf₅ := hf₄.mono hle₅
  have hle₃₅ := hle₃.trans (hle₄.trans hle₅)
  have hsizes : s₅.AreSizes l [rows, columns] [m, n] :=
    .cons (hrows.mono (hle₂.trans hle₃₅)) (.cons (hcolumns.mono hle₃₅) .nil)
  have hcombine : (mmSpec f unsigned).combine = ReductionSpec.combineFor zs.isSome :=
    hf.quantized ▸ combine_mmSpec f _
  have hkernel := Factors.unbatched_meets (some m) (some n) hf₅.zeroPoints (indexing?_mmSpec f _)
    rfl hcombine hf₅.lhs hf₅.rhs ha hb hsizes (hm.fits (.ofMatrices m k n) ha.symm hb.symm).out
  rw [← LawfulMonad.bind_assoc]
  refine .bind hkernel fun v s₆ _ hv => ?_
  refine (finish_meets hv (hfails rfl) (hstops rfl)).weaken ?_
  rintro w s₇ - ⟨hget, hadmits⟩
  exact ⟨rfl, hadmits, hget⟩

/-- `mm` where it checks sizes that are not known. -/
theorem lowerMm_meets {config : LoweringConfig} (hconfig : config.assumeEqualSizes = false)
    (hlhs : OperandInfo.extract s.graph operands.lhs = .ok x)
    (hrhs : OperandInfo.extract s.graph operands.rhs = .ok y) (hx : s.Reads x a za)
    (hy : s.Reads y b zb)
    (hranks : ¬ (a.shape.length = 2 ∧ b.shape.length = 2) → ∀ e, l.fails e)
    (htyped : ¬ Factors.Typed a b za zb result.dtype → ∀ e, l.fails e)
    (hm : a.shape.length = 2 → b.shape.length = 2 → Factors.Measured l a.shape b.shape)
    (hfails : ∀ p : ProductSizes, p.lhs = a.shape → p.rhs = b.shape →
      ¬ result.shape.Admits p.out → ∀ e, l.fails e)
    (hstops : ∀ p : ProductSizes, p.lhs = a.shape → p.rhs = b.shape →
      ¬ result.shape.Admits p.out → p.out.length = result.shape.rank → ∀ e, l.stops e) :
    (lowerMm config operands result).Meets l s fun v s' =>
      ∃ cast, GivesProduct cast a b za zb result v s' := by
  refine .query hlhs (.query hrhs ?_)
  rw [hx.rank, hy.rank]
  split
  next hne => exact hranks (fun h => hne.elim (· h.1) (· h.2)) _
  next hmatrices =>
  obtain ⟨m, k, ha⟩ := List.length_eq_two.1 (not_not.1 fun h => hmatrices (.inl h))
  obtain ⟨k', n, hb⟩ := List.length_eq_two.1 (not_not.1 fun h => hmatrices (.inr h))
  have hm := hm (by rw [ha]; rfl) (by rw [hb]; rfl)
  refine .bind (Factors.prepare_meets hx hy htyped) ?_
  rintro f s₁ hle₁ ⟨hacc, hf, -⟩
  have hsizes : ∀ {inner : Nat}, k = inner → (ProductSizes.ofMatrices m k n).lhs = a.shape ∧
      (ProductSizes.ofMatrices m k n).rhs = [inner, n] := by
    rintro _ rfl
    exact ⟨ha.symm, rfl⟩
  refine (mmProduct_meets hconfig hf ((a.shape_normalized za).trans ha)
    ((b.shape_normalized zb).trans hb) (by simpa using hm)
    (fun hk => hfails _ (hsizes hk).1 ((hsizes hk).2.trans hb.symm))
    (fun hk => hstops _ (hsizes hk).1 ((hsizes hk).2.trans hb.symm)) _).weaken ?_
  rintro v s₂ - ⟨hk, hadmits, hget⟩
  exact ⟨_, _, f.accumulator, (hsizes hk).1, (hsizes hk).2.trans hb.symm, hacc, hadmits, hget⟩

/-- The operands of `bmm` with one element type have the sizes that they had. -/
theorem unifyTypes_meets {lhs rhs result : DType} (ha : s.HasTensor operands.lhs a)
    (hb : s.HasTensor operands.rhs b) :
    (unifyTypes operands lhs rhs result).Meets l s fun operands' s' =>
      ∃ a' b' : Tensor, s'.HasTensor operands'.lhs a' ∧ s'.HasTensor operands'.rhs b' ∧
        a'.shape = a.shape ∧ b'.shape = b.shape := by
  unfold unifyTypes
  split
  next => exact .pure ⟨a, b, ha, hb, rfl, rfl⟩
  next =>
  split
  next =>
    refine .bind (convert_meets hb) fun v s₁ hle₁ hv => ?_
    exact .pure ⟨a, _, ha.mono hle₁, hv, rfl, rfl⟩
  next =>
    refine .bind (convert_meets ha) fun v s₁ hle₁ hv => ?_
    exact .pure ⟨_, b, hv, hb.mono hle₁, rfl, rfl⟩

/-- The product that `bmm` makes of operands with one element type: a tensor when the batches are
equal, and so are the summed sizes. -/
theorem bmmProduct_meets {lhs rhs : ValueId} (ha : s.HasTensor lhs a) (hb : s.HasTensor rhs b)
    (hranks : a.shape.length = 3 ∧ b.shape.length = 3) (hany : ∀ e, l.fails e)
    (hm : Factors.Measured l a.shape b.shape)
    (hwrong : ¬ (a.shape[0]? = b.shape[0]? ∧ ProductSizes.SumsMeet a.shape b.shape) → l.Refuses)
    (hstops : ∀ sizes : List Nat, ¬ result.shape.Admits sizes →
      sizes.length = result.shape.rank → ∀ e, l.stops e) :
    (bmmProduct lhs rhs result).Meets l s fun v s' =>
      (a.shape[0]? = b.shape[0]? ∧ ProductSizes.SumsMeet a.shape b.shape) ∧
        ∃ t, s'.env.get? v = some (.tensor t) := by
  obtain ⟨c, m, k, hashape⟩ := List.length_eq_three.1 hranks.1
  obtain ⟨c', k', n, hbshape⟩ := List.length_eq_three.1 hranks.2
  refine .tensorType ha fun type _ _ => .attempt (fun e _ => hany e) fun acc _ => ?_
  have hl : ∀ size ∈ [c, m, k], Binary64.IsExact size := hashape ▸ hm.lhs
  have hr : ∀ size ∈ [c', k', n], Binary64.IsExact size := hbshape ▸ hm.rhs
  refine .bind (Factors.axis_meets ha (by rw [hashape]; rfl) (hl c (by simp))) ?_
  intro batch s₁ hle₁ hbatch
  have ha₁ := ha.mono hle₁
  refine .bind (Factors.axis_meets ha₁ (by rw [hashape]; rfl) (hl m (by simp))) ?_
  intro rows s₂ hle₂ hrows
  have ha₂ := ha₁.mono hle₂
  refine .bind (Factors.axis_meets ha₂ (by rw [hashape]; rfl) (hl k (by simp))) ?_
  intro inner s₃ hle₃ hinner
  have hb₃ := hb.mono (hle₁.trans (hle₂.trans hle₃))
  refine .bind (Factors.axis_meets hb₃ (by rw [hbshape]; rfl) (hr c' (by simp))) ?_
  intro batch' s₄ hle₄ hbatch'
  have hb₄ := hb₃.mono hle₄
  refine .bind (Factors.axis_meets hb₄ (by rw [hbshape]; rfl) (hr k' (by simp))) ?_
  intro inner' s₅ hle₅ hinner'
  have hb₅ := hb₄.mono hle₅
  refine .bind (Factors.axis_meets hb₅ (by rw [hbshape]; rfl) (hr n (by simp))) ?_
  intro columns s₆ hle₆ hcolumns
  have hle₃₆ := hle₄.trans (hle₅.trans hle₆)
  have hle₁₆ := hle₂.trans (hle₃.trans hle₃₆)
  refine .bind (requireEqual_meets (hbatch.mono hle₁₆) (hbatch'.mono (hle₅.trans hle₆))
    fun hne => hwrong ?_) ?_
  · rintro ⟨hc, -⟩
    rw [hashape, hbshape] at hc
    exact hne (congrArg _ (Option.some.inj hc))
  rintro _ s₇ hle₇ hc
  obtain rfl : c = c' := Int.ofNat_inj.1 hc
  refine .bind (requireEqual_meets ((hinner.mono hle₃₆).mono hle₇)
    ((hinner'.mono hle₆).mono hle₇) fun hne => hwrong ?_) ?_
  · rintro ⟨-, hk⟩
    rw [hashape, hbshape] at hk
    exact hne (congrArg _ (Option.some.inj hk))
  rintro _ s₈ hle₈ hk
  obtain rfl : k = k' := Int.ofNat_inj.1 hk
  have hle₆₈ := hle₇.trans hle₈
  have hsizes : s₈.AreSizes l [batch, rows, columns] [c, m, n] :=
    .cons (hbatch.mono (hle₁₆.trans hle₆₈)) (.cons (hrows.mono (hle₃.trans (hle₃₆.trans hle₆₈)))
      (.cons (hcolumns.mono hle₆₈) .nil))
  have hcommon : broadcastShape [c] [c] = .ok [c] := (broadcastShape_iff rfl).2 (common_self [c])
  have hfits := hm.fits ⟨[c], [c], [c], some m, k, some n, hcommon, by simp⟩ hashape.symm
    hbshape.symm
  rw [← LawfulMonad.bind_assoc]
  refine .bind (Factors.batchKernel_meets (f := ⟨⟨lhs, type, none⟩, ⟨rhs, type, none⟩, acc⟩) .none
    (ha₂.mono (hle₃.trans (hle₃₆.trans hle₆₈))) (hb₅.mono (hle₆.trans hle₆₈)) hashape hbshape
    hsizes hfits.out) ?_
  rintro v s₉ - ⟨t, ht, -⟩
  refine (finish_meets ht (fun _ => hany) (hstops t.shape)).weaken ?_
  rintro w s₁₀ - ⟨hget, -⟩
  refine ⟨?_, _, hget⟩
  rw [hashape, hbshape]
  exact ⟨rfl, rfl⟩

/-- `bmm` gives a tensor when the batches are equal, and so are the summed sizes. -/
theorem lowerBmm_meets (ha : s.HasTensor operands.lhs a) (hb : s.HasTensor operands.rhs b)
    (hany : ∀ e, l.fails e)
    (hm : a.shape.length = 3 → b.shape.length = 3 → Factors.Measured l a.shape b.shape)
    (hwrong : ¬ (a.shape[0]? = b.shape[0]? ∧ ProductSizes.SumsMeet a.shape b.shape) → l.Refuses)
    (hstops : ∀ sizes : List Nat, ¬ result.shape.Admits sizes →
      sizes.length = result.shape.rank → ∀ e, l.stops e) :
    (lowerBmm operands result).Meets l s fun v s' =>
      (a.shape[0]? = b.shape[0]? ∧ ProductSizes.SumsMeet a.shape b.shape) ∧
        ∃ t, s'.env.get? v = some (.tensor t) := by
  refine .tensorType ha fun lhsType _ hl => .tensorType hb fun rhsType _ hr => ?_
  split
  next => exact hany _
  next hranks =>
  rw [TensorType.rank, TensorType.rank, ← hl.admits.1, ← hr.admits.1, not_or, not_not, not_not]
    at hranks
  refine .attempt (fun e _ => hany e) fun _ _ => .attempt (fun e _ => hany e) fun _ _ =>
    .attempt (fun e _ => hany e) fun _ _ => ?_
  refine .bind (unifyTypes_meets ha hb) ?_
  rintro ⟨lhs, rhs⟩ s₁ - ⟨a', b', ha', hb', hasame, hbsame⟩
  have hm := hm hranks.1 hranks.2
  rw [← hasame, ← hbsame] at hranks hm hwrong ⊢
  exact bmmProduct_meets ha' hb' hranks hany hm hwrong hstops

end Rule

end TensorLowering
