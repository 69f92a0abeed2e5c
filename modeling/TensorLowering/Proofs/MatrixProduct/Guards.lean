import TensorLowering.Proofs.MatrixProduct.DeclaredRules
import TensorLowering.Proofs.MatrixProduct.Rules

/-!
# Guards of matrix products

Where sizes of the operands are open, a lowered product checks them when the program runs. Main
statement: the program stops at a guard exactly if the operands have no product, and in no other
way.
-/
namespace TensorLowering

open Numeric NdArray Stage Build

variable {g : Graph} {supply : Supply} {env : Env} {compatible : Prop}

/-- Constructions may fail, and a program may stop at a guard unless the condition holds. -/
def Limits.guarding (compatible : Prop) : Limits where
  fails := fun _ => True
  stops := fun e => ¬ compatible ∧ ∃ message, e = .guardFailed message
  considers := fun _ => True

theorem Limits.refuses_guarding (h : ¬ compatible) : (Limits.guarding compatible).Refuses :=
  ⟨fun _ => trivial, fun message => ⟨h, message, rfl⟩⟩

/-- Where the construction succeeds, the program with the created nodes returns a tensor if the
condition holds, and stops at a guard otherwise. -/
def Build.GuardsExactly (b : Build ValueId) (g : Graph) (supply : Supply) (compatible : Prop) :
    Prop :=
  ∀ v d, b.run (.ofGraph g) = (.ok v, d) →
    (compatible → ∃ t, (d.commit.withOutputs [v]).run supply = .ok [.tensor t]) ∧
      (¬ compatible → ∃ message,
        (d.commit.withOutputs [v]).run supply = .error (.guardFailed message))

theorem Build.Meets.guardsExactly {b : Build ValueId} (h : g.evaluate supply = .ok env)
    (hb : b.Meets (.guarding compatible) (Stage.ofRun h) fun v s =>
      compatible ∧ ∃ t, s.env.get? v = some (.tensor t)) : b.GuardsExactly g supply compatible := by
  intro v d hrun
  rcases hb.commit h hrun fun _ _ _ _ _ _ _ => trivial with
    ⟨e, heval, hnot, message, rfl⟩ | ⟨e, hfail, -⟩ | ⟨v', s, hresult, ⟨hcompatible, t, hget⟩, heval⟩
  · exact ⟨fun h => absurd h hnot, fun _ => ⟨message, run_withOutputs_of_error heval⟩⟩
  · cases hfail
  · cases hresult
    exact ⟨fun _ => ⟨t, run_withOutputs heval hget⟩, fun hnot => absurd hcompatible hnot⟩

/-- No size is zero, doubles hold the sizes and the numbers of products, and the product fits. -/
structure Proportioned (left right : List Nat) : Prop where
  lhs : ∀ n ∈ left, 1 ≤ n ∧ Binary64.IsExact n
  rhs : ∀ n ∈ right, 1 ≤ n ∧ Binary64.IsExact n
  fits : ∀ p : ProductSizes, p.lhs = left → p.rhs = right → p.Fits
  batch : ∀ p : ProductSizes, p.lhs = left → p.rhs = right →
    ∀ sizes, sizes <+: p.batch → Binary64.IsExact (volume sizes)

theorem Proportioned.measured {left right : List Nat} (h : Proportioned left right)
    (hwrong : (¬ ∃ p : ProductSizes, p.lhs = left ∧ p.rhs = right) → ¬ compatible) :
    Factors.Measured (.guarding compatible) left right where
  lhs := fun n hn => (h.lhs n hn).2
  rhs := fun n hn => (h.rhs n hn).2
  lhsBatch := fun n hn => (h.lhs n (List.mem_of_mem_take hn)).1
  rhsBatch := fun n hn => (h.rhs n (List.mem_of_mem_take hn)).1
  fits := h.fits
  batch := h.batch
  wrong := fun hnone => Limits.refuses_guarding (hwrong hnone)

theorem Proportioned.of_fits {p : ProductSizes} (hlhs : ∀ n ∈ p.lhs, 1 ≤ n ∧ Binary64.IsExact n)
    (hrhs : ∀ n ∈ p.rhs, 1 ≤ n ∧ Binary64.IsExact n) (hfits : p.Fits)
    (hbatch : ∀ n ≤ p.batch.length, Binary64.IsExact (volume (p.batch.take n))) :
    Proportioned p.lhs p.rhs where
  lhs := hlhs
  rhs := hrhs
  fits := fun q hl hr => ProductSizes.eq_of_operands hl hr ▸ hfits
  batch := fun q hl hr sizes hprefix => by
    rw [ProductSizes.eq_of_operands hl hr] at hprefix
    rw [List.prefix_iff_eq_take.1 hprefix]
    exact hbatch _ hprefix.length_le

theorem Proportioned.of_mismatch {left right : List Nat}
    (hlhs : ∀ n ∈ left, 1 ≤ n ∧ Binary64.IsExact n) (hrhs : ∀ n ∈ right, 1 ≤ n ∧ Binary64.IsExact n)
    (h : ¬ ProductSizes.SumsMeet left right) : Proportioned left right where
  lhs := hlhs
  rhs := hrhs
  fits := fun p hl hr => absurd (hl ▸ hr ▸ p.sumsMeet) h
  batch := fun p hl hr => absurd (hl ▸ hr ▸ p.sumsMeet) h

namespace Rule

variable {operands : BinaryOperands} {a b : Tensor} {za zb : Option Binary64} {result : TensorType}
  {config : LoweringConfig}

theorem mm_guardsExactly (h : g.evaluate supply = .ok env)
    (hlhs : g.Operand env operands.lhs a za) (hrhs : g.Operand env operands.rhs b zb)
    (hsizes : Proportioned a.shape b.shape) (hresult : ∀ d ∈ result.shape.dims, d = .dynamic)
    (hconfig : config.assumeEqualSizes = false) :
    (mm.apply config (.mm operands) result).GuardsExactly g supply
      (ProductSizes.SumsMeet a.shape b.shape) := by
  obtain ⟨x, hlhs, hx⟩ := hlhs.reads h
  obtain ⟨y, hrhs, hy⟩ := hrhs.reads h
  refine Meets.guardsExactly h ((lowerMm_meets hconfig hlhs hrhs hx hy (fun _ _ => trivial)
    (fun _ _ => trivial) (fun ha hb => hsizes.measured fun hnone hmeet => hnone ?_)
    (fun _ _ _ _ _ => trivial) fun p _ _ hno hrank => absurd
      (Shape.admits_of_dynamic hresult hrank) hno).weaken ?_)
  · have hform : ProductForm.ofRanks? a.shape.length b.shape.length = some .matmul := by
      rw [ha, hb]
      rfl
    refine (ProductSizes.exists_iff hform).2 ⟨hmeet, [], ?_⟩
    rw [ha, hb]
    rfl
  · rintro v s - ⟨cast, p, acc, hpl, hpr, -, -, hget⟩
    exact ⟨hpl ▸ hpr ▸ p.sumsMeet, _, hget⟩

theorem matmul_guardsExactly (h : g.evaluate supply = .ok env)
    (hlhs : g.Operand env operands.lhs a za) (hrhs : g.Operand env operands.rhs b zb)
    (hsizes : Proportioned a.shape b.shape) (hresult : ∀ d ∈ result.shape.dims, d = .dynamic) :
    (matmul.apply config (.matmul operands) result).GuardsExactly g supply
      (ProductSizes.SumsMeet a.shape b.shape ∧ ProductSizes.BatchesMeet a.shape b.shape) := by
  obtain ⟨x, hlhs, hx⟩ := hlhs.reads h
  obtain ⟨y, hrhs, hy⟩ := hrhs.reads h
  refine Meets.guardsExactly h ((lowerMatmul_meets hlhs hrhs hx hy (fun _ _ => trivial)
    (fun _ _ => trivial) (fun form hform => hsizes.measured fun hnone hmeet =>
      hnone ((ProductSizes.exists_iff hform).2 hmeet))
    (fun _ _ _ _ _ => trivial) fun p _ _ hno hrank => absurd
      (Shape.admits_of_dynamic hresult hrank) hno).weaken ?_)
  rintro v s - ⟨p, acc, hpl, hpr, -, -, hget⟩
  exact ⟨hpl ▸ hpr ▸ ⟨p.sumsMeet, p.batchesMeet⟩, _, hget⟩

theorem bmm_guardsExactly (h : g.evaluate supply = .ok env)
    (hlhs : g.Declares env operands.lhs a) (hrhs : g.Declares env operands.rhs b)
    (hsizes : Proportioned a.shape b.shape) (hresult : ∀ d ∈ result.shape.dims, d = .dynamic) :
    (bmm.apply config (.bmm operands) result).GuardsExactly g supply
      (a.shape[0]? = b.shape[0]? ∧ ProductSizes.SumsMeet a.shape b.shape) := by
  refine Meets.guardsExactly h (lowerBmm_meets (s := Stage.ofRun h) ⟨hlhs.1, hlhs.2⟩
    ⟨hrhs.1, hrhs.2⟩ (fun _ => trivial)
    (fun ha hb => hsizes.measured fun hnone hmeet => hnone ?_) Limits.refuses_guarding
    fun _ hno hrank => absurd (Shape.admits_of_dynamic hresult hrank) hno)
  obtain ⟨hbatch, hsums⟩ := hmeet
  have hform : ProductForm.ofRanks? a.shape.length b.shape.length = some (.batched 1) := by
    rw [ha, hb]
    rfl
  refine (ProductSizes.exists_iff hform).2 ⟨hsums, ?_⟩
  obtain ⟨c, m, k, ha⟩ := List.length_eq_three.1 ha
  obtain ⟨c', k', n, hb⟩ := List.length_eq_three.1 hb
  rw [ha, hb] at hbatch ⊢
  obtain rfl : c = c' := Option.some.inj hbatch
  exact ⟨[c], (broadcastShape_iff rfl).2 (common_self [c])⟩

/-- Every rule for matrix products guards exactly what its operands need, whatever sizes are
declared. The sizes that are known reach the nodes through doubles, which hold each size of a tensor
that fits into memory. -/
theorem products_guard_exactly (h : g.evaluate supply = .ok env)
    (hsizes : Proportioned a.shape b.shape) (hresult : ∀ d ∈ result.shape.dims, d = .dynamic)
    (hconfig : config.assumeEqualSizes = false) :
    (∀ za zb, g.Operand env operands.lhs a za → g.Operand env operands.rhs b zb →
      (mm.apply config (.mm operands) result).GuardsExactly g supply
          (ProductSizes.SumsMeet a.shape b.shape) ∧
        (matmul.apply config (.matmul operands) result).GuardsExactly g supply
          (ProductSizes.SumsMeet a.shape b.shape ∧ ProductSizes.BatchesMeet a.shape b.shape)) ∧
      (g.Declares env operands.lhs a → g.Declares env operands.rhs b →
        (bmm.apply config (.bmm operands) result).GuardsExactly g supply
          (a.shape[0]? = b.shape[0]? ∧ ProductSizes.SumsMeet a.shape b.shape)) :=
  ⟨fun _ _ hlhs hrhs => ⟨mm_guardsExactly h hlhs hrhs hsizes hresult hconfig,
      matmul_guardsExactly h hlhs hrhs hsizes hresult⟩,
    fun hlhs hrhs => bmm_guardsExactly h hlhs hrhs hsizes hresult⟩

section OpenSizes

/-- Matrices with open sizes. -/
def openMatrix : TensorType := ⟨.float32, ⟨[.dynamic, .dynamic]⟩⟩

/-- Batches with open sizes, of which there are two. -/
def openBatches : TensorType := ⟨.float32, ⟨[.static 2, .dynamic, .dynamic]⟩⟩

def zeroTensor (sizes : List Nat) : Tensor := .ofEntries .float32 sizes fun _ => 0

/-- With open sizes, a program multiplies a row with a column of its size and stops at a longer
one. -/
theorem open_products_guard :
    ∃ v d w e, ((mm.apply .standard (.mm ⟨⟨0⟩, ⟨1⟩⟩) openMatrix).run
          (.ofGraph (.takingAs [openMatrix, openMatrix])) = (.ok v, d) ∧
        (∃ t, (d.commit.withOutputs [v]).run (.takingIn [zeroTensor [1, 2], zeroTensor [2, 1]]) =
          .ok [.tensor t]) ∧
        ∃ message, (d.commit.withOutputs [v]).run
          (.takingIn [zeroTensor [1, 2], zeroTensor [3, 1]]) = .error (.guardFailed message)) ∧
      (bmm.apply .standard (.bmm ⟨⟨0⟩, ⟨1⟩⟩) ⟨.float32, ⟨[.dynamic, .dynamic, .dynamic]⟩⟩).run
          (.ofGraph (.takingAs [openBatches, openBatches])) = (.ok w, e) ∧
        ∃ t, (e.commit.withOutputs [w]).run
          (.takingIn [zeroTensor [2, 1, 2], zeroTensor [2, 2, 1]]) = .ok [.tensor t] := by
  obtain ⟨v, d, hmm⟩ : ∃ v d, (mm.apply .standard (.mm ⟨⟨0⟩, ⟨1⟩⟩) openMatrix).run
      (.ofGraph (.takingAs [openMatrix, openMatrix])) = (.ok v, d) := ⟨_, _, rfl⟩
  obtain ⟨w, e, hbmm⟩ : ∃ w e, (bmm.apply .standard (.bmm ⟨⟨0⟩, ⟨1⟩⟩)
      ⟨.float32, ⟨[.dynamic, .dynamic, .dynamic]⟩⟩).run
      (.ofGraph (.takingAs [openBatches, openBatches])) = (.ok w, e) := ⟨_, _, rfl⟩
  have hopen : ∀ d ∈ openMatrix.shape.dims, d = .dynamic := by decide
  refine ⟨v, d, w, e, ⟨hmm, ?_, ?_⟩, hbmm, ?_⟩
  · obtain ⟨env, h, hoperand⟩ := Graph.operand_takingAs [openMatrix, openMatrix]
      [zeroTensor [1, 2], zeroTensor [2, 1]] (by decide)
    have hsizes : Proportioned (zeroTensor [1, 2]).shape (zeroTensor [2, 1]).shape :=
      .of_fits (p := .ofMatrices 1 2 1) (by decide +kernel) (by decide +kernel)
        ⟨by decide, by decide, by decide⟩ (by decide +kernel)
    have hguards : (mm.apply .standard (.mm ⟨⟨0⟩, ⟨1⟩⟩) openMatrix).GuardsExactly _ _
        (ProductSizes.SumsMeet [1, 2] [2, 1]) :=
      ((products_guard_exactly h hsizes hopen rfl).1 _ _ (hoperand 0 _ rfl) (hoperand 1 _ rfl)).1
    exact (hguards v d hmm).1 rfl
  · obtain ⟨env, h, hoperand⟩ := Graph.operand_takingAs [openMatrix, openMatrix]
      [zeroTensor [1, 2], zeroTensor [3, 1]] (by decide)
    have hsizes : Proportioned (zeroTensor [1, 2]).shape (zeroTensor [3, 1]).shape :=
      .of_mismatch (by decide +kernel) (by decide +kernel) nofun
    have hguards : (mm.apply .standard (.mm ⟨⟨0⟩, ⟨1⟩⟩) openMatrix).GuardsExactly _ _
        (ProductSizes.SumsMeet [1, 2] [3, 1]) :=
      ((products_guard_exactly h hsizes hopen rfl).1 _ _ (hoperand 0 _ rfl) (hoperand 1 _ rfl)).1
    exact (hguards v d hmm).2 nofun
  · obtain ⟨env, h, hoperand⟩ := Graph.operand_takingAs [openBatches, openBatches]
      [zeroTensor [2, 1, 2], zeroTensor [2, 2, 1]] (by decide)
    have hsizes : Proportioned (zeroTensor [2, 1, 2]).shape (zeroTensor [2, 2, 1]).shape :=
      .of_fits (p := ⟨[2], [2], [2], some 1, 2, some 1, rfl, by simp⟩) (by decide +kernel)
        (by decide +kernel) ⟨by decide, by decide, by decide⟩ (by decide +kernel)
    exact (((products_guard_exactly h hsizes (by decide) rfl).2 (hoperand 0 _ rfl).declares
      (hoperand 1 _ rfl).declares) w e hbmm).1 ⟨rfl, rfl⟩

/-! ## A size that is no double -/

/-- A column that has one row more than a double counts, and one element. -/
def tallOperands : List Tensor := [zeroTensor [oversize, 1], zeroTensor [1, 1]]

def tallGraph : Graph :=
  .takingAs [⟨.float32, .ofSizes [oversize, 1]⟩, ⟨.float32, .ofSizes [1, 1]⟩]

/-- The nodes that `mm` creates for them are those of the declared product and a cast. -/
def tallDraft : Draft :=
  ⟨⟨tallGraph.nodes ++ (oversizedNodes 1 ++ [⟨.cast ⟨8⟩, .tensor openMatrix⟩]), [⟨0⟩, ⟨1⟩], []⟩, 2,
    #[⟨2⟩, ⟨3⟩, ⟨4⟩, ⟨5⟩, ⟨6⟩, ⟨7⟩, ⟨8⟩, ⟨9⟩]⟩

theorem run_tall :
    (mm.apply .standard (.mm ⟨⟨0⟩, ⟨1⟩⟩) openMatrix).run (.ofGraph tallGraph) =
      (.ok ⟨9⟩, tallDraft) := by
  rfl

/-- The operands have a product, and the program stops at no guard. The size that no double holds
makes it fail at the shapes of its arrays. -/
theorem mm_fails_unguarded :
    (∀ n ∈ [oversize, 1] ++ [1, 1], 1 ≤ n) ∧ (ProductSizes.ofMatrices oversize 1 1).Fits ∧
      ProductSizes.SumsMeet [oversize, 1] [1, 1] ∧
      ∃ env, tallGraph.evaluate (.takingIn tallOperands) = .ok env ∧
        tallGraph.Operand env ⟨0⟩ (zeroTensor [oversize, 1]) none ∧
        tallGraph.Operand env ⟨1⟩ (zeroTensor [1, 1]) none ∧
        (mm.apply .standard (.mm ⟨⟨0⟩, ⟨1⟩⟩) openMatrix).run (.ofGraph tallGraph) =
          (.ok ⟨9⟩, tallDraft) ∧
        (∃ e, (tallDraft.commit.withOutputs [⟨9⟩]).run (.takingIn tallOperands) =
          .error (.array e) ∧ e.kind = .shape) ∧
        ¬ (mm.apply .standard (.mm ⟨⟨0⟩, ⟨1⟩⟩) openMatrix).GuardsExactly tallGraph
          (.takingIn tallOperands) (ProductSizes.SumsMeet [oversize, 1] [1, 1]) := by
  obtain ⟨env, h, hoperand⟩ := Graph.operand_takingAs
    [⟨.float32, .ofSizes [oversize, 1]⟩, ⟨.float32, .ofSizes [1, 1]⟩] tallOperands
    (.cons (Tensor.hasType_type _) (.cons (Tensor.hasType_type _) .nil))
  have hlhs := hoperand 0 _ rfl
  have hrhs := hoperand 1 _ rfl
  have hnodes : ∀ i < 7, tallDraft.graph.node? ⟨i + 2⟩ = (oversizedNodes 1)[i]? := by
    intro i hi
    rw [tallDraft, Graph.node?_append (by rfl), List.getElem?_append_left hi]
  have hstops : (tallDraft.commit.withOutputs [⟨9⟩]).run (.takingIn tallOperands) =
      .error (.array (.loopClash 0 oversize 9007199254740992)) :=
    run_withOutputs_of_error ((evaluate_commit h run_tall).trans
      (evalFrom_oversized ⟨[⟨9⟩], rfl⟩ toInt64_one (by decide) rfl rfl hnodes hlhs.declares.2
        hrhs.declares.2))
  refine ⟨by decide, ⟨by decide, by decide, by decide⟩, rfl, env, h, hlhs, hrhs, run_tall,
    ⟨_, hstops, rfl⟩, fun hguards => ?_⟩
  obtain ⟨t, hreturns⟩ := (hguards ⟨9⟩ tallDraft run_tall).1 rfl
  cases hstops.symm.trans hreturns

end OpenSizes

end Rule

end TensorLowering
