import TensorLowering.Proofs.Build.Emissions
import TensorLowering.Proofs.MatrixProduct.Matrices

/-!
# Products of equal batches

`bmm` compares the batch sizes of its operands, and `matmul` stretches its operands to a common one.
Main statement: where the batches have one size and doubles hold it and the declared sizes, the
programs of both rules have one outcome, a tensor or a failed guard.
-/
namespace TensorLowering

open Numeric NdArray Stage Build

variable {s : Stage} {v w : ValueId} {a b : Tensor} {f : Factors} {acc : DType}
  {batch rows inner batch' inner' columns : DeclaredAxis} {result : TensorType}

namespace Factors

/-- The loops over two batches of matrices: batches, rows, columns and the summed axis. -/
def batchLoops : Indexing :=
  .projections [0, 1, 3] [0, 3, 2] [0, 1, 2] [.parallel, .parallel, .parallel, .reduction]

/-- How a product of two batches of matrices ends once their sizes agree. -/
def batchSums (result : TensorType) (accumulator : DType) (a b : Tensor)
    (batch rows columns : DeclaredAxis) : Except EvalError Tensor :=
  result.summed accumulator [batch.read, rows.read, columns.read]
    (NdArray.reduce batchLoops .mulAdd (a.widened .signed) (b.widened .signed) (0, 0))

/-- How it ends with guards for the batch sizes and the summed ones. -/
def batchOutcome (result : TensorType) (accumulator : DType) (a b : Tensor)
    (batch rows inner batch' inner' columns : DeclaredAxis) : Except EvalError Tensor :=
  if batch.read = batch'.read then
    if inner.read = inner'.read then batchSums result accumulator a b batch rows columns
    else .error (.guardFailed "mismatching contracting dimension")
  else .error (.guardFailed "mismatching batch dimension")

theorem batchSums_ends {x y z : Size} {ids : Option (ValueId × ValueId)}
    (ha : s.HasTensor v a) (hb : s.HasTensor w b)
    (hashape : a.shape = [batch.size, rows.size, inner.size])
    (hbshape : b.shape = [batch'.size, inner'.size, columns.size])
    (hsizes : s.HaveValues [x, y, z] [batch.read, rows.read, columns.read])
    (hadmits : [batch.read, rows.read, columns.read] = [batch.size, rows.size, columns.size] →
      (Size.shape [x, y, z]).Admits [batch.read, rows.read, columns.read])
    (hz : s.HasZeroPoints ids none) :
    (do
      let init ← zeros [x, y, z] acc
      let u ← Build.reduce (.named .batchMatmul) v w ids init
      finish u result : Build ValueId).Ends s (batchSums result acc a b batch rows columns) := by
  refine summed_ends (show _ = some batchLoops from rfl) rfl ha hb hz hsizes ?_
    fun init sums hinit hsums => hadmits ?_
  · rw [hashape, hbshape]
    exact .cons rfl (.cons rfl (.cons rfl .nil))
  · obtain ⟨bounds, hl, hr, ho⟩ := exists_bounds hsums
    rw [Tensor.shape_widened, hashape] at hl
    rw [Tensor.shape_widened, hbshape] at hr
    rw [hinit] at ho
    simp_all

section EqualSizes

variable {c m k n : Nat} (acc : DType)
  (hread : [batch.read, rows.read, columns.read] = [c, m, n]) (ha : a.shape = [c, m, k])
  (hb : b.shape = [c, k, n])
include ha hb

/-- Loops over batches of equal sizes run. -/
theorem exists_sums : ∃ sums, NdArray.reduce batchLoops .mulAdd (a.widened .signed)
      (b.widened .signed) (0, 0) (Tensor.ofEntries acc [c, m, n] fun _ => 0).data = .ok sums ∧
    sums.shape = [c, m, n] := by
  have hroutes : Routes batchLoops [c, m, n, k] (a.widened .signed).shape (b.widened .signed).shape
      (Tensor.ofEntries acc [c, m, n] fun _ => 0).shape (select [0, 1, 3]) (select [0, 3, 2])
      (select [0, 1, 2]) := by
    rw [Tensor.shape_widened, Tensor.shape_widened, Tensor.shape_ofEntries, ha, hb]
    refine routes_projections rfl (by simp) (by simp) (by simp) fun d hd => ?_
    simp only [List.length_cons, List.length_nil] at hd
    simp only [List.mem_cons, List.not_mem_nil, or_false]
    omega
  obtain ⟨sums, hsums, hshape, -⟩ := reduce_eq_ok .mulAdd (0, 0) hroutes
  exact ⟨sums, hsums, hshape⟩

include hread

theorem exists_batchSums (hfit : ¬ TooLarge [c, m, n]) (hadmits : result.shape.Admits [c, m, n]) :
    ∃ t, batchSums result acc a b batch rows columns = .ok t := by
  obtain ⟨sums, hsums, hshape⟩ := exists_sums acc ha hb
  rw [batchSums, hread]
  exact TensorType.exists_summed hfit hsums (hshape ▸ hadmits)

theorem batchSums_fails (h : TooLarge [c, m, n] ∨ ¬ result.shape.Admits [c, m, n]) :
    ∃ e, batchSums result acc a b batch rows columns = .error e ∧
      ∀ message, e ≠ .guardFailed message := by
  obtain ⟨sums, hsums, hshape⟩ := exists_sums acc ha hb
  rw [batchSums, hread]
  exact TensorType.summed_fails hsums hshape h

end EqualSizes

end Factors

namespace Rule

/-- The product that `bmm` makes. -/
theorem bmmProduct_ends (hx : s.HasAxes v a [batch, rows, inner])
    (hy : s.HasAxes w b [batch', inner', columns]) (hacc : a.dtype.accumulator? = some acc) :
    (bmmProduct v w result).Ends s
      (Factors.batchOutcome result acc a b batch rows inner batch' inner' columns) := by
  refine Meets.query hx.declared (Meets.attempt (fun _ _ => trivial) fun acc' hacc' => ?_)
  obtain rfl : acc = acc' := by
    rw [DType.accumulator, hacc] at hacc'
    exact Except.ok.inj hacc'
  refine Meets.bind (dim_measures hx 0 rfl) fun x s₁ hle₁ hx₀ => ?_
  refine Meets.bind (dim_measures (hx.mono hle₁) 1 rfl) fun y s₂ hle₂ hx₁ => ?_
  have hle₂' := hle₁.trans hle₂
  refine Meets.bind (dim_measures (hx.mono hle₂') 2 rfl) fun k s₃ hle₃ hx₂ => ?_
  have hle₃' := hle₂'.trans hle₃
  refine Meets.bind (dim_measures (hy.mono hle₃') 0 rfl) fun x' s₄ hle₄ hy₀ => ?_
  have hle₄' := hle₃'.trans hle₄
  refine Meets.bind (dim_measures (hy.mono hle₄') 1 rfl) fun k' s₅ hle₅ hy₁ => ?_
  have hle₅' := hle₄'.trans hle₅
  refine Meets.bind (dim_measures (hy.mono hle₅') 2 rfl) fun z s₆ hle₆ hy₂ => ?_
  have hle₃₆ := hle₄.trans (hle₅.trans hle₆)
  have hle₁₆ := hle₂.trans (hle₃.trans hle₃₆)
  refine Meets.bind (requireEqual_measures (hx₀.mono hle₁₆) (hy₀.mono (hle₅.trans hle₆))
    (fun _ => trivial) fun hne => if_neg hne) fun _ s₇ hle₇ hbatch => ?_
  refine Meets.bind (requireEqual_measures ((hx₂.mono hle₃₆).mono hle₇)
    ((hy₁.mono hle₆).mono hle₇) (fun _ => trivial) fun hne => ?_) fun _ s₈ hle₈ hinner => ?_
  · exact (if_pos hbatch).trans (if_neg hne)
  have hle₆₈ := hle₇.trans hle₈
  have hle := hle₅'.trans (hle₆.trans hle₆₈)
  have hsizes : s₈.MeasuresAll [x, y, z] [batch, rows, columns] :=
    .cons (hx₀.mono (hle₁₆.trans hle₆₈)) (.cons (hx₁.mono (hle₃.trans (hle₃₆.trans hle₆₈)))
      (.cons (hy₂.mono hle₆₈) .nil))
  rw [Factors.batchOutcome, if_pos hbatch, if_pos hinner]
  exact Factors.batchSums_ends (hx.mono hle).hasTensor (hy.mono hle).hasTensor hx.shape hy.shape
    hsizes.haveValues hsizes.admits .none

end Rule

/-! ## Batches that stretch to one size -/

namespace Factors

variable {x : OperandInfo} {t : Tensor}

/-- The sizes of a batch with a single axis. -/
structure MeasuresBatch (s : Stage) (z : BatchSizes) (batch rows columns : DeclaredAxis) :
    Prop where
  batch : s.MeasuresAll z.batch [batch]
  rows : s.Measures z.rows rows
  columns : s.Measures z.columns columns

theorem MeasuresBatch.mono {s' : Stage} {z : BatchSizes}
    (h : MeasuresBatch s z batch rows columns) (hle : s ≤ s') :
    MeasuresBatch s' z batch rows columns :=
  ⟨h.batch.mono hle, h.rows.mono hle, h.columns.mono hle⟩

theorem batchSizes_measures {l : Limits} (hx : s.HasAxes x.value t [batch, rows, columns])
    (hrank : x.rank = t.shape.length) :
    (batchSizes x).Meets l s fun z s' => MeasuresBatch s' z batch rows columns := by
  have hrank' : x.rank - 2 = 1 := by rw [hrank, hx.shape]; rfl
  unfold batchSizes
  rw [hrank']
  refine Meets.bind (Meets.bind (dim_measures hx 0 rfl) fun z s₁ _ hz =>
    show (pure [z] : Build (List Size)).Meets l s₁ fun zs s' => s'.MeasuresAll zs [batch] from
      .pure (.cons hz .nil)) ?_
  intro zs s₁ hle₁ hzs
  refine Meets.bind (dim_measures (hx.mono hle₁) 1 rfl) fun y s₂ hle₂ hy => ?_
  refine Meets.bind (dim_measures (hx.mono (hle₁.trans hle₂)) 2 rfl) ?_
  intro z s₃ hle₃ hz
  exact .pure ⟨hzs.mono (hle₂.trans hle₃), hy.mono hle₃, hz⟩

/-- What `matmul` does with plain batches once it has found the size that they stretch to. -/
def stretchedProduct (f : Factors) (size : Size) (x y : BatchSizes) (result : TensorType) :
    Build ValueId := do
  let lhs ← broadcastTo f.lhs.value [size, x.rows, x.columns]
  let rhs ← broadcastTo f.rhs.value [size, y.rows, y.columns]
  let init ← zeros [size, x.rows, y.columns] f.accumulator
  let value ← f.reduce (.named .batchMatmul) lhs rhs init
  finish value result

/-- Batches of one size stretch to it, as long as a double holds it. -/
theorem ends_batched {o : Except EvalError Tensor} (hf : f.Prepared s a b none)
    (hx : s.HasAxes f.lhs.value a [batch, rows, inner])
    (hy : s.HasAxes f.rhs.value b [batch', inner', columns]) (hsame : batch.size = batch'.size)
    (hexact : Binary64.IsExact batch.size)
    (hne : inner.read ≠ inner'.read →
      o = .error (.guardFailed "mismatching contracting dimension"))
    (hnext : inner.read = inner'.read → ∀ z x y s', s ≤ s' → s'.HasSize z batch.size →
      MeasuresBatch s' x batch rows inner → MeasuresBatch s' y batch' inner' columns →
        (f.stretchedProduct z x y result).Ends s' o) :
    (f.inForm (.batched 1) >>= fun u => finish u result).Ends s o := by
  have hread := DeclaredAxis.read_of_isExact (x := batch) fun _ => hexact
  have hread' := DeclaredAxis.read_of_isExact (x := batch') fun _ => hsame ▸ hexact
  have hquantized : f.isQuantized = false := hf.quantized
  have hcommon : commonSize? batch.size batch'.size = some batch.size := if_pos hsame
  have hbroadcast : broadcastShape [batch.size] [batch'.size] = .ok [batch.size] :=
    broadcastShape_of_common (.cons hcommon .nil)
  simp only [inForm_batched, batched, LawfulMonad.bind_assoc, hquantized]
  refine Meets.bind (batchSizes_measures hx hf.lhsRank) fun x s₁ hle₁ hx₁ => ?_
  refine Meets.bind (batchSizes_measures (hy.mono hle₁) hf.rhsRank) fun y s₂ hle₂ hy₂ => ?_
  have hx₂ := hx₁.mono hle₂
  -- the guards hold: equal sizes broadcast to their own size, which a double holds
  refine Meets.bind (broadcastSizes_common_meets (hx₂.batch.haveSizes (congrArg ([·]) hread))
    (hy₂.batch.haveSizes (congrArg ([·]) hread')) (fun _ _ _ _ => trivial) fun hor => ?_) ?_
  · refine absurd hor (not_or.2 ⟨fun hnone => hnone _ hbroadcast, not_not.2 ?_⟩)
    obtain ⟨u, hu, -⟩ := hx₂.batch.eq_singleton
    obtain ⟨u', hu', -⟩ := hy₂.batch.eq_singleton
    rw [hu, hu']
    refine .cons (fun _ _ k hk => ?_) .nil
    obtain rfl := Option.some.inj (hcommon.symm.trans hk)
    exact ⟨(max_eq_left hsame.ge).symm, hexact⟩
  rintro zs s₃ hle₃ ⟨sizes, hsizes, hzs⟩
  cases hbroadcast.symm.trans hsizes
  obtain ⟨z, rfl⟩ := List.length_eq_one_iff.1 hzs.length_eq
  have hx₃ := hx₂.mono hle₃
  have hy₃ := hy₂.mono hle₃
  refine Meets.bind (requireEqual_measures hx₃.columns hy₃.rows (fun _ => trivial) hne) ?_
  intro _ s₄ hle₄ hinner
  simp only [List.length_singleton, ↓reduceIte, Bool.false_eq_true, LawfulMonad.bind_assoc]
  exact hnext hinner z x y s₄ (hle₁.trans (hle₂.trans (hle₃.trans hle₄)))
    ((List.forall₂_cons.1 hzs).1.mono hle₄) (hx₃.mono hle₄) (hy₃.mono hle₄)

/-- Batches that are stretched to sizes that doubles hold are multiplied as they are. -/
theorem stretchedProduct_ends {z : Size} {x y : BatchSizes} (hf : f.Prepared s a b none)
    (hx : s.HasAxes f.lhs.value a [batch, rows, inner])
    (hy : s.HasAxes f.rhs.value b [batch', inner', columns]) (hsame : batch.size = batch'.size)
    (hz : s.HasSize z batch.size) (hxs : MeasuresBatch s x batch rows inner)
    (hys : MeasuresBatch s y batch' inner' columns)
    (hexact : ∀ x ∈ [batch, rows, inner, inner', columns], x.read = x.size)
    (hfit : ¬ TooLarge a.shape) (hfit' : ¬ TooLarge b.shape) :
    (f.stretchedProduct z x y result).Ends s
      (batchSums result f.accumulator a b batch rows columns) := by
  simp only [List.forall_mem_cons] at hexact
  obtain ⟨hbatch, hrows, hinner, hinner', hcolumns, -⟩ := hexact
  have hashape : a.shape = [batch.size, rows.size, inner.size] := hx.shape
  have hbshape : b.shape = [batch.size, inner'.size, columns.size] := hsame ▸ hy.shape
  have hself : ∀ sizes, StretchesTo sizes sizes := fun sizes =>
    (stretchesTo_iff rfl).2 (List.forall₂_same.2 fun _ _ => .inr rfl)
  have hrow := hxs.rows.hasSize hrows
  have hcolumn := hys.columns.hasSize hcolumns
  have hlhs : s.HaveSizes [z, x.rows, x.columns] a.shape := by
    rw [hashape]
    exact .cons hz (.cons hrow (.cons (hxs.columns.hasSize hinner) .nil))
  have hrhs : s.HaveSizes [z, y.rows, y.columns] b.shape := by
    rw [hbshape]
    exact .cons hz (.cons (hys.rows.hasSize hinner') (.cons hcolumn .nil))
  have hout : s.HaveSizes [z, x.rows, y.columns] [batch.read, rows.read, columns.read] := by
    rw [hbatch, hrows, hcolumns]
    exact .cons hz (.cons hrow (.cons hcolumn .nil))
  refine Meets.bind (broadcastTo_meets hf.lhs hlhs (hself _) hfit) fun lhs s₁ hle₁ hl => ?_
  refine Meets.bind (broadcastTo_meets (hf.rhs.mono hle₁) (hrhs.mono hle₁) (hself _) hfit') ?_
  intro rhs s₂ hle₂ hr
  have hle := hle₁.trans hle₂
  rw [a.stretched_self] at hl
  rw [b.stretched_self] at hr
  exact batchSums_ends (hl.mono hle₂) hr hashape (hsame ▸ hbshape) (hout.mono hle).haveValues
    (fun _ => (hout.mono hle).admits) (hf.zeroPoints.mono hle)

/-- The product that `matmul` makes of two plain batches of one size. -/
theorem batched_ends (hf : f.Prepared s a b none)
    (hx : s.HasAxes f.lhs.value a [batch, rows, inner])
    (hy : s.HasAxes f.rhs.value b [batch', inner', columns]) (hsame : batch.size = batch'.size)
    (hexact : Binary64.IsExact batch.size)
    (hread : ∀ x ∈ [batch, rows, inner, inner', columns], x.read = x.size)
    (hfit : ¬ TooLarge a.shape) (hfit' : ¬ TooLarge b.shape) :
    (f.inForm (.batched 1) >>= fun u => finish u result).Ends s
      (batchOutcome result f.accumulator a b batch rows inner batch' inner' columns) := by
  have hbatch : batch.read = batch'.read := by
    rw [DeclaredAxis.read_of_isExact fun _ => hexact,
      DeclaredAxis.read_of_isExact fun _ => hsame ▸ hexact, hsame]
  refine ends_batched hf hx hy hsame hexact (fun hne => ?_) fun hinner => ?_
  · exact (if_pos hbatch).trans (if_neg hne)
  · rw [batchOutcome, if_pos hbatch, if_pos hinner]
    intro z x y s' hle hz hxs hys
    exact stretchedProduct_ends (hf.mono hle) (hx.mono hle) (hy.mono hle) hsame hz hxs hys hread
      hfit hfit'

end Factors

/-! ## Operands as they are declared -/

/-- Doubles hold the sizes that are declared of the value. -/
def Graph.DeclaresExactly (g : Graph) (id : ValueId) : Prop :=
  ∀ (type : TensorType) (n : Nat), g.tensorType id = .ok type → .static n ∈ type.shape.dims →
    Binary64.IsExact n

theorem Graph.DeclaresExactly.of_tensorType {g : Graph} {id : ValueId} (type : TensorType)
    (h : g.tensorType id = .ok type)
    (hexact : ∀ n : Nat, .static n ∈ type.shape.dims → Binary64.IsExact n) :
    g.DeclaresExactly id := fun _ n htype hn => by
  obtain rfl := Except.ok.inj (h.symm.trans htype)
  exact hexact n hn

theorem Stage.HasAxes.read_eq {t : Tensor} {xs : List DeclaredAxis} (h : s.HasAxes v t xs)
    (hexact : s.graph.DeclaresExactly v) : ∀ x ∈ xs, x.read = x.size := by
  intro x hx
  have hdeclared : x.dim ∈ xs.map DeclaredAxis.dim := List.mem_map_of_mem hx
  refine DeclaredAxis.read_of_isExact fun hstatic => ?_
  rcases h.admits x hx with hdim | hdim
  · exact hexact _ _ h.declared (hdim ▸ hdeclared)
  · rw [hdim] at hstatic
    cases hstatic

/-- A batch of matrices has three axes. -/
theorem Stage.HasAxes.eq_batch {t : Tensor} {xs : List DeclaredAxis} {c m n : Nat}
    (h : s.HasAxes v t xs) (ht : t.shape = [c, m, n]) :
    ∃ batch rows columns : DeclaredAxis, xs = [batch, rows, columns] ∧ batch.size = c ∧
      rows.size = m ∧ columns.size = n := by
  have hsizes : xs.map DeclaredAxis.size = [c, m, n] := h.shape.symm.trans ht
  obtain ⟨batch, rows, columns, rfl⟩ :=
    List.length_eq_three.1 (by simpa using congrArg List.length hsizes)
  exact ⟨batch, rows, columns, rfl, by simpa using hsizes⟩

/-- An operand without a zero-point is read where it is declared. -/
theorem Graph.Operand.exists_axes {g : Graph} {supply : Supply} {env : Env} {id : ValueId}
    {t : Tensor} (hx : g.Operand env id t none) (h : g.evaluate supply = .ok env) :
    ∃ type xs, OperandInfo.extract g id = .ok ⟨id, type, none⟩ ∧
      (Stage.ofRun h).Reads ⟨id, type, none⟩ t none ∧ (Stage.ofRun h).HasAxes id t xs := by
  obtain ⟨hdeclares, hget⟩ := hx.declares
  obtain ⟨xs, hxs⟩ := HasTensor.exists_axes (s := Stage.ofRun h) ⟨hdeclares, hget⟩
  obtain ⟨⟨value, type, zeroPoint⟩, hextract, hreads⟩ := hx.reads h
  obtain rfl : zeroPoint = none := by simpa using isSome_eq_of_rel hreads.zeroPoint
  obtain rfl : value = id := by
    obtain ⟨node, -, hextract⟩ := Except.bind_eq_ok.1 hextract
    split at hextract
    all_goals
      obtain ⟨type, -, hinfo⟩ := Except.bind_eq_ok.1 hextract
      cases hinfo
    rfl
  exact ⟨type, xs, hextract, hreads, hxs⟩

namespace Rule

variable {lhs rhs : ValueId} {lhsType rhsType : TensorType}

/-- What `bmm` does with two batches, once their element types have been checked. -/
theorem ends_lowerBmm {o : Except EvalError Tensor} (ha : s.HasTensor lhs a)
    (hb : s.HasTensor rhs b) (hrank : a.shape.length = 3) (hrank' : b.shape.length = 3)
    (h : (unifyTypes ⟨lhs, rhs⟩ a.dtype b.dtype result.dtype >>= fun unified =>
      bmmProduct unified.lhs unified.rhs result).Ends s o) :
    (lowerBmm ⟨lhs, rhs⟩ result).Ends s o := by
  refine Meets.tensorType ha fun lhsType _ hl => Meets.tensorType hb fun rhsType _ hr => ?_
  rw [if_neg]
  · refine Meets.attempt (fun _ _ => trivial) fun _ _ => Meets.attempt (fun _ _ => trivial)
      fun _ _ => Meets.attempt (fun _ _ => trivial) fun _ _ => ?_
    rw [← hl.dtype, ← hr.dtype]
    exact h
  · rw [TensorType.rank, TensorType.rank, ← hl.admits.1, ← hr.admits.1]
    exact fun hor => hor.elim (· hrank) (· hrank')

/-- The types of batches that `bmm` takes. -/
structure BatchTypes (lhs rhs result : TensorType) : Prop where
  lhsRank : lhs.rank = 3
  rhsRank : rhs.rank = 3
  lhs : lhs.dtype.isNumeric = true
  rhs : rhs.dtype.isNumeric = true
  result : result.dtype.isNumeric = true

/-- Where `bmm` succeeds, it goes on with operands of one element type. -/
theorem lowerBmm_run_eq_ok {d d' : Draft} (hl : d.graph.tensorType lhs = .ok lhsType)
    (hr : d.graph.tensorType rhs = .ok rhsType) :
    (lowerBmm ⟨lhs, rhs⟩ result).run d = (.ok v, d') ↔ BatchTypes lhsType rhsType result ∧
      (unifyTypes ⟨lhs, rhs⟩ lhsType.dtype rhsType.dtype result.dtype >>= fun unified =>
        bmmProduct unified.lhs unified.rhs result).run d = (.ok v, d') := by
  have hnumeric : ∀ {t : DType}, t.isNumeric = true → t.requireNumeric = .ok () := fun h => if_pos h
  constructor
  · intro hrun
    obtain ⟨_, hlhs, hrun⟩ := run_query_bind_eq_ok.1 hrun
    obtain rfl := Except.ok.inj (hl.symm.trans hlhs)
    obtain ⟨_, hrhs, hrun⟩ := run_query_bind_eq_ok.1 hrun
    obtain rfl := Except.ok.inj (hr.symm.trans hrhs)
    split at hrun
    next => cases hrun
    next hranks =>
    rw [not_or, not_not, not_not] at hranks
    obtain ⟨_, hleft, hrun⟩ := run_check_bind_eq_ok.1 hrun
    obtain ⟨_, hright, hrun⟩ := run_check_bind_eq_ok.1 hrun
    obtain ⟨_, hout, hrun⟩ := run_check_bind_eq_ok.1 hrun
    exact ⟨⟨hranks.1, hranks.2, DType.isNumeric_of_requireNumeric hleft,
      DType.isNumeric_of_requireNumeric hright, DType.isNumeric_of_requireNumeric hout⟩, hrun⟩
  · rintro ⟨htypes, hrun⟩
    refine run_query_bind_eq_ok.2 ⟨lhsType, hl, run_query_bind_eq_ok.2 ⟨rhsType, hr, ?_⟩⟩
    rw [if_neg fun hor => hor.elim (· htypes.lhsRank) (· htypes.rhsRank)]
    refine run_check_bind_eq_ok.2 ⟨(), hnumeric htypes.lhs, ?_⟩
    refine run_check_bind_eq_ok.2 ⟨(), hnumeric htypes.rhs, ?_⟩
    exact run_check_bind_eq_ok.2 ⟨(), hnumeric htypes.result, hrun⟩

/-- How `bmm` ends for batches of one element type. -/
theorem lowerBmm_ends (result : TensorType) (hdtype : a.dtype = b.dtype)
    (hacc : a.dtype.accumulator? = some acc) (hxs : s.HasAxes lhs a [batch, rows, inner])
    (hys : s.HasAxes rhs b [batch', inner', columns]) :
    (lowerBmm ⟨lhs, rhs⟩ result).Ends s
      (Factors.batchOutcome result acc a b batch rows inner batch' inner' columns) := by
  refine ends_lowerBmm hxs.hasTensor hys.hasTensor (congrArg List.length hxs.shape)
    (congrArg List.length hys.shape) ?_
  rw [unifyTypes, if_pos hdtype]
  exact bmmProduct_ends hxs hys hacc

/-- What `matmul` does with two batches that are not quantized. -/
theorem ends_lowerMatmul_batched {o : Except EvalError Tensor}
    (hlhs : OperandInfo.extract s.graph lhs = .ok ⟨lhs, lhsType, none⟩)
    (hrhs : OperandInfo.extract s.graph rhs = .ok ⟨rhs, rhsType, none⟩)
    (hx : s.Reads ⟨lhs, lhsType, none⟩ a none) (hy : s.Reads ⟨rhs, rhsType, none⟩ b none)
    (hxs : s.HasAxes lhs a [batch, rows, inner]) (hys : s.HasAxes rhs b [batch', inner', columns])
    (htyped : Factors.Typed a b none none result.dtype) (hacc : a.dtype.accumulator? = some acc)
    (h : ∀ f : Factors, f.Prepared s a b none → s.HasAxes f.lhs.value a [batch, rows, inner] →
      s.HasAxes f.rhs.value b [batch', inner', columns] → f.accumulator = acc →
        (f.inForm (.batched 1) >>= fun u => finish u result).Ends s o) :
    (lowerMatmul ⟨lhs, rhs⟩ result).Ends s o := by
  obtain ⟨hprepare, hf⟩ := Factors.prepare_plain hx hy htyped hacc "matmul"
  have hform : ProductForm.ofRanks? a.shape.length b.shape.length = some (.batched 1) := by
    rw [hxs.shape, hys.shape]
    rfl
  refine ends_lowerMatmul hlhs hrhs hx hy hform ?_
  rw [hprepare, LawfulMonad.pure_bind]
  exact h _ hf hxs hys rfl

variable {g : Graph} {supply : Supply} {env : Env} {d d' : Draft} {c m k k' n : Nat}

/-- For batches of one size, both rules give programs of one outcome: a failed guard where the
summed sizes differ, and otherwise a tensor, where an array can have its sizes and the declared type
admits them. Where not, no guard fails. -/
theorem bmm_matmul_agree (config config' : LoweringConfig) (h : g.evaluate supply = .ok env)
    (hlhs : g.Operand env lhs a none) (hrhs : g.Operand env rhs b none)
    (hdtype : a.dtype = b.dtype) (ha : a.shape = [c, m, k]) (hb : b.shape = [c, k', n])
    (hfit : ¬ TooLarge a.shape) (hfit' : ¬ TooLarge b.shape) (hexact : Binary64.IsExact c)
    (hdeclared : g.DeclaresExactly lhs) (hdeclared' : g.DeclaresExactly rhs)
    (hbmm : (bmm.apply config (.bmm ⟨lhs, rhs⟩) result).run (.ofGraph g) = (.ok v, d))
    (hmatmul : (matmul.apply config' (.matmul ⟨lhs, rhs⟩) result).run (.ofGraph g) =
      (.ok w, d')) :
    (d.commit.withOutputs [v]).run supply = (d'.commit.withOutputs [w]).run supply ∧
      (k ≠ k' → (d.commit.withOutputs [v]).run supply =
        .error (.guardFailed "mismatching contracting dimension")) ∧
      (k = k' → ¬ TooLarge [c, m, n] → result.shape.Admits [c, m, n] →
        ∃ t, (d.commit.withOutputs [v]).run supply = .ok [.tensor t]) ∧
      (k = k' → TooLarge [c, m, n] ∨ ¬ result.shape.Admits [c, m, n] →
        ∃ e, (d.commit.withOutputs [v]).run supply = .error e ∧
          ∀ message, e ≠ .guardFailed message) := by
  obtain ⟨lhsType, xs, hx, hxreads, hxs⟩ := hlhs.exists_axes h
  obtain ⟨rhsType, ys, hy, hyreads, hys⟩ := hrhs.exists_axes h
  obtain ⟨htypes, -⟩ := (lowerBmm_run_eq_ok hxs.declared hys.declared).1 hbmm
  have htyped : Factors.Typed a b none none result.dtype :=
    ⟨htypes.lhs, htypes.rhs, htypes.result, rfl, fun _ => hdtype⟩
  obtain ⟨acc, hacc⟩ := Option.isSome_iff_exists.1
    ((DType.isSome_accumulator? a.dtype).trans htypes.lhs)
  obtain ⟨batch, rows, inner, rfl, rfl, rfl, rfl⟩ := hxs.eq_batch ha
  obtain ⟨batch', inner', columns, rfl, hsame, rfl, rfl⟩ := hys.eq_batch hb
  have hread : ∀ x ∈ [batch, rows, inner], x.read = x.size := hxs.read_eq hdeclared
  have hread' : ∀ x ∈ [batch', inner', columns], x.read = x.size := hys.read_eq hdeclared'
  simp only [List.forall_mem_cons, List.not_mem_nil, false_implies, implies_true, and_true]
    at hread hread'
  obtain ⟨hbatch, hrows, hinner⟩ := hread
  obtain ⟨hbatch', hinner', hcolumns⟩ := hread'
  have hends := lowerBmm_ends (s := Stage.ofRun h) result hdtype hacc hxs hys
  have hends' := ends_lowerMatmul_batched (s := Stage.ofRun h) hx hy hxreads
    hyreads hxs hys htyped hacc fun f hf hfx hfy hfacc => hfacc ▸ Factors.batched_ends hf hfx hfy
      hsame.symm hexact (by simp [hbatch, hrows, hinner, hinner', hcolumns]) hfit hfit'
  have hequal : batch.read = batch'.read := by rw [hbatch, hbatch', hsame]
  rw [Factors.batchOutcome, if_pos hequal] at hends hends'
  have hsizes : [batch.read, rows.read, columns.read] = [batch.size, rows.size, columns.size] := by
    rw [hbatch, hrows, hcolumns]
  refine ⟨(hends.run h hbmm).trans (hends'.run h hmatmul).symm, fun hne => ?_,
    fun heq hlarge hadmits => ?_, fun heq hwrong => ?_⟩
  · rw [hends.run h hbmm, if_neg (by rwa [hinner, hinner'])]
    rfl
  · rw [hends.run h hbmm, if_pos (by rwa [hinner, hinner'])]
    obtain ⟨t, ht⟩ := Factors.exists_batchSums acc hsizes ha (heq ▸ hb) hlarge hadmits
    rw [ht]
    exact ⟨t, rfl⟩
  · rw [hends.run h hbmm, if_pos (by rwa [hinner, hinner'])]
    obtain ⟨e, he, hnot⟩ := Factors.batchSums_fails acc hsizes ha (heq ▸ hb) hwrong
    rw [he]
    exact ⟨e, rfl, hnot⟩

section OpenBatches

/-- Batches with open sizes. -/
def anyBatches : TensorType := ⟨.float32, ⟨[.dynamic, .dynamic, .dynamic]⟩⟩

/-- Two batches of which one has a declared size give a tensor, and stop where the summed sizes
differ. -/
theorem open_batches_agree :
    ∃ v d w e, (bmm.apply .standard (.bmm ⟨⟨0⟩, ⟨1⟩⟩) anyBatches).run
          (.ofGraph (.takingAs [openBatches, anyBatches])) = (.ok v, d) ∧
      (matmul.apply .standard (.matmul ⟨⟨0⟩, ⟨1⟩⟩) anyBatches).run
          (.ofGraph (.takingAs [openBatches, anyBatches])) = (.ok w, e) ∧
      ((d.commit.withOutputs [v]).run (.takingIn [zeroTensor [2, 1, 2], zeroTensor [2, 2, 1]]) =
          (e.commit.withOutputs [w]).run (.takingIn [zeroTensor [2, 1, 2], zeroTensor [2, 2, 1]]) ∧
        ∃ t, (d.commit.withOutputs [v]).run
          (.takingIn [zeroTensor [2, 1, 2], zeroTensor [2, 2, 1]]) = .ok [.tensor t]) ∧
      (d.commit.withOutputs [v]).run (.takingIn [zeroTensor [2, 1, 2], zeroTensor [2, 3, 1]]) =
        .error (.guardFailed "mismatching contracting dimension") := by
  obtain ⟨v, d, hbmm⟩ : ∃ v d, (bmm.apply .standard (.bmm ⟨⟨0⟩, ⟨1⟩⟩) anyBatches).run
      (.ofGraph (.takingAs [openBatches, anyBatches])) = (.ok v, d) := ⟨_, _, rfl⟩
  obtain ⟨w, e, hmatmul⟩ : ∃ w e, (matmul.apply .standard (.matmul ⟨⟨0⟩, ⟨1⟩⟩) anyBatches).run
      (.ofGraph (.takingAs [openBatches, anyBatches])) = (.ok w, e) := ⟨_, _, rfl⟩
  have hdeclared : (Graph.takingAs [openBatches, anyBatches]).DeclaresExactly ⟨0⟩ :=
    .of_tensorType openBatches rfl fun n hn => by
      obtain rfl : n = 2 := by simpa [openBatches] using hn
      decide +kernel
  have hdeclared' : (Graph.takingAs [openBatches, anyBatches]).DeclaresExactly ⟨1⟩ :=
    .of_tensorType anyBatches rfl fun n hn => by simp [anyBatches] at hn
  obtain ⟨env, h, hoperand⟩ := Graph.operand_takingAs [openBatches, anyBatches]
    [zeroTensor [2, 1, 2], zeroTensor [2, 2, 1]] (by decide)
  obtain ⟨env', h', hoperand'⟩ := Graph.operand_takingAs [openBatches, anyBatches]
    [zeroTensor [2, 1, 2], zeroTensor [2, 3, 1]] (by decide)
  have hagree := bmm_matmul_agree .standard .standard h (hoperand 0 _ rfl) (hoperand 1 _ rfl) rfl
    rfl rfl (by decide) (by decide) (by decide +kernel) hdeclared hdeclared' hbmm hmatmul
  have hagree' := bmm_matmul_agree .standard .standard h' (hoperand' 0 _ rfl) (hoperand' 1 _ rfl)
    rfl rfl rfl (by decide) (by decide) (by decide +kernel) hdeclared hdeclared' hbmm hmatmul
  exact ⟨v, d, w, e, hbmm, hmatmul, ⟨hagree.1, hagree.2.2.1 rfl (by decide) (by decide)⟩,
    hagree'.2.1 (by decide)⟩

end OpenBatches

end Rule

/-! ## Batches on which the rules differ -/

namespace Factors

/-- Open batches of a size that no double holds are refused. -/
theorem batched_refuses (hf : f.Prepared s a b none)
    (hx : s.HasAxes f.lhs.value a [batch, rows, inner])
    (hy : s.HasAxes f.rhs.value b [batch', inner', columns]) (hopen : batch.dim = .dynamic)
    (hopen' : batch'.dim = .dynamic) (hsame : batch.size = batch'.size)
    (hinexact : ¬ Binary64.IsExact batch.size) :
    (f.inForm (.batched 1) >>= fun u => finish u result).Ends s
      (.error (.guardFailed "incompatible batch dimension 0")) := by
  have hsize : ∀ {x : DeclaredAxis}, x.dim = .dynamic → x.read = x.size ∧ x.known = none := by
    rintro ⟨dim, size⟩ rfl
    exact ⟨rfl, rfl⟩
  have hmessage : (Except.error (.guardFailed "incompatible batch dimension 0") :
      Except EvalError Tensor) = .error (.guardFailed s!"incompatible batch dimension {0}") := rfl
  simp only [inForm_batched, batched, LawfulMonad.bind_assoc]
  refine Meets.bind (batchSizes_measures hx hf.lhsRank) fun x s₁ hle₁ hx₁ => ?_
  refine Meets.bind (batchSizes_measures (hy.mono hle₁) hf.rhsRank) fun y s₂ hle₂ hy₂ => ?_
  obtain ⟨z, hz, hzx⟩ := (hx₁.mono hle₂).batch.eq_singleton
  obtain ⟨z', hz', hzy⟩ := hy₂.batch.eq_singleton
  rw [hz, hz']
  refine .bind_of_never (.bind_of_never (.bind_of_never (broadcastSize_refuses
    (hzx.hasSize (hsize hopen).1) (hzy.hasSize (hsize hopen').1)
    (hzx.known.trans (hsize hopen).2) (hzy.known.trans (hsize hopen').2) ?_ hmessage)))
  rintro larger hmax ⟨hone | hlarger, -⟩
  · exact hinexact (hone ▸ Binary64.isExact_one)
  · rw [← hsame, Int.max_self] at hmax
    exact hinexact (hmax.trans hlarger.symm)

/-- Stretching stops where a declared size is read as another number, unless all sizes are
declared. -/
theorem stretchedProduct_refuses {z : Size} {x y : BatchSizes} (hf : f.Prepared s a b none)
    (hx : s.HasAxes f.lhs.value a [batch, rows, inner]) (hz : s.HasSize z batch.size)
    (hxs : MeasuresBatch s x batch rows inner)
    (hopen : (⟨[batch.dim, rows.dim, inner.dim]⟩ : Shape).isStatic = false)
    (hwrong : ¬ StretchesTo a.shape [batch.size, rows.read, inner.read]) :
    (f.stretchedProduct z x y result).Ends s
      (.error (.array (.cannotBroadcast a.shape [batch.size, rows.read, inner.read]))) := by
  have hvalues : s.HaveValues [z, x.rows, x.columns] [batch.size, rows.read, inner.read] :=
    .cons hz.get (.cons hxs.rows.get (.cons hxs.columns.get .nil))
  have hsizes := hvalues.sizes
  have htensor := hf.lhs.tensor
  have hto : a.data.broadcastTo [batch.size, rows.read, inner.read] =
      .error (.cannotBroadcast a.shape [batch.size, rows.read, inner.read]) :=
    if_neg fun h => hwrong h.1
  have hvalue : ∀ type, evalNode s.supply s.env
      ⟨.broadcastTo f.lhs.value (Size.values [z, x.rows, x.columns]), type⟩ =
        .error (.array (.cannotBroadcast a.shape [batch.size, rows.read, inner.read])) := by
    intro type
    simp only [evalNode, hsizes, htensor, hto, Bind.bind, Except.bind]
    rfl
  refine .bind_of_never (.query hx.declared ?_)
  split
  next => trivial
  next =>
  dsimp only
  split
  -- with an open size the shapes are not compared before the program runs
  next hstatic => cases hopen.symm.trans hstatic.1
  next =>
  refine .create_of_stops (fun e he => ?_) fun value hok => ?_
  · cases (hvalue _).symm.trans he
    rfl
  · cases (hvalue _).symm.trans hok

/-- Batches stop to be stretched where a declared size is read as another number. -/
theorem batched_stops (hf : f.Prepared s a b none)
    (hx : s.HasAxes f.lhs.value a [batch, rows, inner])
    (hy : s.HasAxes f.rhs.value b [batch', inner', columns]) (hsame : batch.size = batch'.size)
    (hexact : Binary64.IsExact batch.size) (hinner : inner.read = inner'.read)
    (hopen : (⟨[batch.dim, rows.dim, inner.dim]⟩ : Shape).isStatic = false)
    (hwrong : ¬ StretchesTo a.shape [batch.size, rows.read, inner.read]) :
    (f.inForm (.batched 1) >>= fun u => finish u result).Ends s
      (.error (.array (.cannotBroadcast a.shape [batch.size, rows.read, inner.read]))) :=
  ends_batched hf hx hy hsame hexact (fun hne => absurd hinner hne) fun _ _ _ _ _ hle hz hxs _ =>
    stretchedProduct_refuses (hf.mono hle) (hx.mono hle) hz hxs hopen hwrong

end Factors

namespace Rule

/-- The programs that `bmm` makes for two batches that are taken in. -/
theorem bmm_batches_run (hx : a.HasType lhsType) (hy : b.HasType rhsType)
    (hxs : List.zipWith DeclaredAxis.mk lhsType.shape.dims a.shape = [batch, rows, inner])
    (hys : List.zipWith DeclaredAxis.mk rhsType.shape.dims b.shape = [batch', inner', columns])
    (hdtype : a.dtype = b.dtype) (hacc : a.dtype.accumulator? = some acc) (result : TensorType) :
    ∀ v d, (bmm.apply .standard (.bmm ⟨⟨0⟩, ⟨1⟩⟩) result).run
        (.ofGraph (.takingAs [lhsType, rhsType])) = (.ok v, d) →
      (d.commit.withOutputs [v]).run (.takingIn [a, b]) =
        (Factors.batchOutcome result acc a b batch rows inner batch' inner' columns).map
          fun t => [.tensor t] := by
  intro v d hrun
  obtain ⟨env, h, haxes⟩ := Graph.axes_takingAs (.cons hx (.cons hy .nil))
  obtain ⟨-, -, hxs'⟩ := haxes 0 a lhsType rfl rfl
  obtain ⟨-, -, hys'⟩ := haxes 1 b rhsType rfl rfl
  rw [hxs] at hxs'
  rw [hys] at hys'
  exact (lowerBmm_ends result hdtype hacc hxs' hys').run h hrun

/-- The programs that `matmul` makes for two batches that are taken in. -/
theorem matmul_batches_run (o : Except EvalError Tensor) (result : TensorType)
    (hx : a.HasType lhsType) (hy : b.HasType rhsType)
    (hxs : List.zipWith DeclaredAxis.mk lhsType.shape.dims a.shape = [batch, rows, inner])
    (hys : List.zipWith DeclaredAxis.mk rhsType.shape.dims b.shape = [batch', inner', columns])
    (htyped : Factors.Typed a b none none result.dtype) (hacc : a.dtype.accumulator? = some acc)
    (hends : ∀ (s : Stage) (f : Factors), f.Prepared s a b none →
      s.HasAxes f.lhs.value a [batch, rows, inner] →
      s.HasAxes f.rhs.value b [batch', inner', columns] → f.accumulator = acc →
        (f.inForm (.batched 1) >>= fun u => finish u result).Ends s o) :
    ∀ v d, (matmul.apply .standard (.matmul ⟨⟨0⟩, ⟨1⟩⟩) result).run
        (.ofGraph (.takingAs [lhsType, rhsType])) = (.ok v, d) →
      (d.commit.withOutputs [v]).run (.takingIn [a, b]) = o.map fun t => [.tensor t] := by
  intro v d hrun
  obtain ⟨env, h, haxes⟩ := Graph.axes_takingAs (.cons hx (.cons hy .nil))
  obtain ⟨hlhs, hl, hxs'⟩ := haxes 0 a lhsType rfl rfl
  obtain ⟨hrhs, hr, hys'⟩ := haxes 1 b rhsType rfl rfl
  rw [hxs] at hxs'
  rw [hys] at hys'
  exact (ends_lowerMatmul_batched hlhs hrhs hl hr hxs' hys' htyped hacc (hends _)).run h hrun

section Differing

/-- A batch that is declared with more than a double can count, of nothing. -/
def wideBatch : TensorType := ⟨.float32, ⟨[.static 1, .dynamic, .static oversize]⟩⟩

def tallBatch : TensorType := ⟨.float32, ⟨[.static 1, .static oversize, .static 0]⟩⟩

/-- Neither rule gives a tensor that its declared type does not admit. Only `matmul` stops at
batches of which no double holds the size, and where it stretches to a declared size that is read as
another one. -/
theorem bmm_matmul_differ :
    (∃ v d w e, (bmm.apply .standard (.bmm ⟨⟨0⟩, ⟨1⟩⟩) ⟨.float32, .ofSizes [2, 2, 2]⟩).run
          (.ofGraph (.takingAs [anyBatches, anyBatches])) = (.ok v, d) ∧
        (d.commit.withOutputs [v]).run (.takingIn [zeroTensor [1, 1, 1], zeroTensor [1, 1, 1]]) =
          .error (.declaredShape [1, 1, 1] (.ofSizes [2, 2, 2])) ∧
      (matmul.apply .standard (.matmul ⟨⟨0⟩, ⟨1⟩⟩) ⟨.float32, .ofSizes [2, 2, 2]⟩).run
          (.ofGraph (.takingAs [anyBatches, anyBatches])) = (.ok w, e) ∧
        (e.commit.withOutputs [w]).run (.takingIn [zeroTensor [1, 1, 1], zeroTensor [1, 1, 1]]) =
          .error (.declaredShape [1, 1, 1] (.ofSizes [2, 2, 2]))) ∧
    ((bmm.apply .standard (.bmm ⟨⟨0⟩, ⟨1⟩⟩) anyBatches).Computes
        (.takingAs [anyBatches, anyBatches])
        (.takingIn [zeroTensor [oversize, 0, 0], zeroTensor [oversize, 0, 0]])
        (zeroTensor [oversize, 0, 0]) ∧
      ∃ w e, (matmul.apply .standard (.matmul ⟨⟨0⟩, ⟨1⟩⟩) anyBatches).run
          (.ofGraph (.takingAs [anyBatches, anyBatches])) = (.ok w, e) ∧
        (e.commit.withOutputs [w]).run
            (.takingIn [zeroTensor [oversize, 0, 0], zeroTensor [oversize, 0, 0]]) =
          .error (.guardFailed "incompatible batch dimension 0")) ∧
    (bmm.apply .standard (.bmm ⟨⟨0⟩, ⟨1⟩⟩) anyBatches).Computes
        (.takingAs [wideBatch, tallBatch])
        (.takingIn [zeroTensor [1, 0, oversize], zeroTensor [1, oversize, 0]])
        (zeroTensor [1, 0, 0]) ∧
      ∃ w e, (matmul.apply .standard (.matmul ⟨⟨0⟩, ⟨1⟩⟩) anyBatches).run
          (.ofGraph (.takingAs [wideBatch, tallBatch])) = (.ok w, e) ∧
        (e.commit.withOutputs [w]).run
            (.takingIn [zeroTensor [1, 0, oversize], zeroTensor [1, oversize, 0]]) =
          .error (.array (.cannotBroadcast [1, 0, oversize] [1, 0, 9007199254740992])) := by
  have hopen : ∀ c m n, (zeroTensor [c, m, n]).HasType anyBatches := fun c m n =>
    ⟨rfl, Shape.admits_of_dynamic (by decide) rfl⟩
  have htyped : ∀ sizes sizes', Factors.Typed (zeroTensor sizes) (zeroTensor sizes') none none
      .float32 := fun _ _ => ⟨rfl, rfl, rfl, rfl, fun _ => rfl⟩
  have hwide : (zeroTensor [1, 0, oversize]).HasType wideBatch := by decide
  have htall : (zeroTensor [1, oversize, 0]).HasType tallBatch := by decide
  have hunit := bmm_batches_run (hopen 1 1 1) (hopen 1 1 1) rfl rfl rfl rfl
    ⟨.float32, .ofSizes [2, 2, 2]⟩
  have hunit' := matmul_batches_run _ ⟨.float32, .ofSizes [2, 2, 2]⟩ (hopen 1 1 1)
    (hopen 1 1 1) rfl rfl (htyped _ _) rfl fun s f hf hx hy hacc => hacc ▸
      Factors.batched_ends hf hx hy rfl (by decide +kernel) (by decide) (by decide) (by decide)
  have hmany := bmm_batches_run (hopen oversize 0 0) (hopen oversize 0 0) rfl rfl rfl rfl
    anyBatches
  have hmany' := matmul_batches_run _ anyBatches (hopen oversize 0 0)
    (hopen oversize 0 0) rfl rfl (htyped _ _) rfl fun s f hf hx hy _ =>
      Factors.batched_refuses hf hx hy rfl rfl rfl (by decide +kernel)
  have hread := bmm_batches_run hwide htall rfl rfl rfl rfl anyBatches
  have hread' := matmul_batches_run _ anyBatches hwide htall rfl rfl (htyped _ _) rfl
    fun s f hf hx hy _ => Factors.batched_stops hf hx hy rfl Binary64.isExact_one rfl rfl
      (by decide +kernel)
  refine ⟨⟨_, _, _, _, rfl, (hunit _ _ rfl).trans ?_, rfl, (hunit' _ _ rfl).trans ?_⟩,
    ⟨⟨_, _, rfl, (hmany _ _ rfl).trans ?_⟩, _, _, rfl, hmany' _ _ rfl⟩,
    ⟨_, _, rfl, (hread _ _ rfl).trans ?_⟩, _, _, rfl, (hread' _ _ rfl).trans ?_⟩
  all_goals decide +kernel

end Differing

end Rule

end TensorLowering
