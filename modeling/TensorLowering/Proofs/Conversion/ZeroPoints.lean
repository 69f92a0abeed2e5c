import TensorLowering.Proofs.Build.Emissions
import TensorLowering.Proofs.Build.Inputs
import TensorLowering.Proofs.Conversion.PlainRules
import TensorLowering.Proofs.Evaluation.Runs
import TensorLowering.Proofs.Typing.Respects

/-!
# Zero-points in reductions

The zero-points that the reduction of a rule reads, and those that its operands carry. Main
statements: `mm`, `matmul` and `convolution` create one reduction, which reads the zero-points of
both operands or is of operands without any; `bmm` reads none, and drops those of its operands.
-/
namespace TensorLowering

open Build

/-! ## Zero-points of operands -/

/-- The zero-point that an operand carries. -/
def Graph.zeroPoint? (g : Graph) (v : ValueId) : Option ValueId :=
  (g.node? v).bind fun node =>
    match node.op with
    | .makeQuantized _ _ zeroPoint => some zeroPoint
    | _ => none

/-- The number `w` is the zero-point `z` as reductions read it: truncated, and shifted along with
unsigned storage. -/
def Graph.NormalizesZero (g : Graph) (storage : DType) (z w : ValueId) : Prop :=
  if storage.isUnsignedInteger then
    ∃ truncated shift,
      g.node? truncated = some ⟨.scalarCast z, .scalar zeroPointType⟩ ∧
      g.node? shift =
        some ⟨.constant (.int (signShift storage.bitWidth)), .scalar zeroPointType⟩ ∧
      g.node? w = some ⟨.arith .add truncated shift, .scalar zeroPointType⟩
  else g.node? w = some ⟨.scalarCast z, .scalar zeroPointType⟩

/-- The number `w` in the program `g'` is the zero-point, as reductions read it, that the operand
`v` carries in the program `g`. -/
def Graph.ReadsZero (g g' : Graph) (v w : ValueId) : Prop :=
  ∃ x z, OperandInfo.extract g v = .ok x ∧ g.zeroPoint? v = some z ∧
    g'.NormalizesZero x.type.dtype z w

/-- A reduction keeps the zero-points of two operands: it reads both, or there are none. -/
def Graph.KeepsZeros (g g' : Graph) (lhs rhs : ValueId) (spec : ReductionSpec) :
    Option (ValueId × ValueId) → Prop
  | none => spec.combine = .mulAdd ∧ g.zeroPoint? lhs = none ∧ g.zeroPoint? rhs = none
  | some (w, w') =>
      spec.combine = .quantizedMulAdd ∧ g.ReadsZero g' lhs w ∧ g.ReadsZero g' rhs w'

variable {α : Type} {g : Graph} {d d' : Draft} {v : ValueId}

/-- A node that is there stays. -/
theorem Build.node?_of_run {b : Build α} {r : Except LowerError α} (hrun : b.run d = (r, d'))
    {node : Node} (hv : d.graph.node? v = some node) : d'.graph.node? v = some node := by
  obtain ⟨ids, hids⟩ := run_extends b d
  rw [hrun] at hids
  exact (hids.node v (Graph.lt_size_of_node? hv)).trans hv

theorem Build.node?_of_create {op : Op} {type : ValueType}
    (h : (create op type).run d = (.ok v, d')) : d'.graph.node? v = some ⟨op, type⟩ := by
  cases h
  exact Graph.node?_create_self ..

theorem Graph.NormalizesZero.of_run {b : Build α} {r : Except LowerError α} {storage : DType}
    {z w : ValueId} (hw : d.graph.NormalizesZero storage z w) (hrun : b.run d = (r, d')) :
    d'.graph.NormalizesZero storage z w := by
  unfold NormalizesZero at hw ⊢
  split at hw
  next h =>
    obtain ⟨truncated, shift, htruncated, hshift, hsum⟩ := hw
    rw [if_pos h]
    exact ⟨truncated, shift, node?_of_run hrun htruncated, node?_of_run hrun hshift,
      node?_of_run hrun hsum⟩
  next h =>
    rw [if_neg h]
    exact node?_of_run hrun hw

namespace OperandInfo

variable {x y : OperandInfo}

theorem zeroPoint_of_extract (h : extract g v = .ok x) : x.zeroPoint = g.zeroPoint? v := by
  obtain ⟨node, hnode, h⟩ := Except.bind_eq_ok.1 h
  obtain hnode : g.node? v = some node := by
    unfold Graph.node at hnode
    split at hnode
    · cases hnode
      assumption
    · cases hnode
  split at h
  next hop =>
    obtain ⟨type, -, hx⟩ := Except.bind_eq_ok.1 h
    cases hx
    simp only [Graph.zeroPoint?, hnode, Option.bind_some, hop]
  next hop =>
    obtain ⟨type, -, hx⟩ := Except.bind_eq_ok.1 h
    cases hx
    simp only [Graph.zeroPoint?, hnode, Option.bind_some]

/-- The operand `y` has a zero-point if `x` does, and then the normalized one. -/
structure Normalizes (g : Graph) (x y : OperandInfo) : Prop where
  quantized : y.isQuantized = x.isQuantized
  zero : ∀ z w, x.zeroPoint = some z → y.zeroPoint = some w → g.NormalizesZero x.type.dtype z w

theorem Normalizes.of_run {b : Build α} {r : Except LowerError α} (h : Normalizes d.graph x y)
    (hrun : b.run d = (r, d')) : Normalizes d'.graph x y :=
  ⟨h.quantized, fun z w hz hw => (h.zero z w hz hw).of_run hrun⟩

theorem Normalizes.of_some {z w : ValueId} (hx : x.zeroPoint = some z) (hy : y.zeroPoint = some w)
    (h : g.NormalizesZero x.type.dtype z w) : Normalizes g x y where
  quantized := by rw [isQuantized, isQuantized, hx, hy]; rfl
  zero z' w' hz' hw' := by
    cases hx.symm.trans hz'
    cases hy.symm.trans hw'
    exact h

theorem normalize_normalizes (h : x.normalize.run d = (.ok y, d')) : Normalizes d'.graph x y := by
  unfold normalize at h
  split at h
  next hnone =>
    cases h
    exact ⟨rfl, fun z w hz => by simp [hnone] at hz⟩
  next z hz =>
    obtain ⟨truncated, d₁, htruncated, h⟩ := run_bind_eq_ok.1 h
    have hcast := node?_of_create htruncated
    dsimp only at h
    split at h
    next hunsigned =>
      obtain ⟨shifted, d₂, hshifted, h⟩ := run_bind_eq_ok.1 h
      obtain ⟨shift, d₃, hshift, hsum⟩ := run_bind_eq_ok.1 hshifted
      have hnormal : d₂.graph.NormalizesZero x.type.dtype z shifted := by
        rw [Graph.NormalizesZero, if_pos hunsigned]
        exact ⟨truncated, shift, node?_of_run hshifted hcast,
          node?_of_run hsum (node?_of_create hshift), node?_of_create hsum⟩
      have hrest := hnormal.of_run h
      obtain ⟨_, d₄, -, h⟩ := run_bind_eq_ok.1 h
      obtain ⟨_, d₅, -, h⟩ := run_bind_eq_ok.1 h
      obtain ⟨_, d₆, -, h⟩ := run_bind_eq_ok.1 h
      cases h
      exact .of_some hz rfl hrest
    next hsigned =>
      cases h
      refine .of_some hz rfl ?_
      rw [Graph.NormalizesZero, if_neg hsigned]
      exact hcast

theorem bothQuantized_eq_ok {operator : String} {quantized : Bool}
    (h : x.bothQuantized y operator = .ok quantized) : x.isQuantized = y.isQuantized := by
  unfold bothQuantized at h
  split at h
  · assumption
  · cases h

/-- A reduction of operands that are quantized alike keeps their zero-points. -/
theorem CombinedBy.keepsZeros {g' : Graph} {lhs rhs : ValueId} {x' y' : OperandInfo}
    {spec : ReductionSpec} {zeroPoints : Option (ValueId × ValueId)}
    (h : x'.CombinedBy y' spec zeroPoints) (hx : extract g lhs = .ok x) (hy : extract g rhs = .ok y)
    (halike : x.isQuantized = y.isQuantized) (hx' : Normalizes g' x x')
    (hy' : Normalizes g' y y') : g.KeepsZeros g' lhs rhs spec zeroPoints := by
  obtain ⟨hcombine, rfl⟩ := h
  have hzx := zeroPoint_of_extract hx
  have hzy := zeroPoint_of_extract hy
  have hquantized : ∀ u ∈ [y, x', y'], u.zeroPoint.isSome = x.zeroPoint.isSome := by
    simpa using ⟨halike.symm, hx'.quantized, hy'.quantized.trans halike.symm⟩
  rw [hx'.quantized] at hcombine
  unfold isQuantized at hcombine
  cases hz : x.zeroPoint with
  | none =>
      have hnone : ∀ u ∈ [y, x', y'], u.zeroPoint = none := fun u hu => by
        simpa [hz] using hquantized u hu
      rw [zeroPoints?, hnone x' (by simp)]
      rw [hz] at hcombine
      exact ⟨hcombine, hzx.symm.trans hz, hzy.symm.trans (hnone y (by simp))⟩
  | some z =>
      have hsome : ∀ u ∈ [y, x', y'], ∃ w, u.zeroPoint = some w := fun u hu =>
        Option.isSome_iff_exists.1 (by rw [hquantized u hu, hz]; rfl)
      obtain ⟨z', hz'⟩ := hsome y (by simp)
      obtain ⟨w, hw⟩ := hsome x' (by simp)
      obtain ⟨w', hw'⟩ := hsome y' (by simp)
      rw [zeroPoints?, hw, hw']
      rw [hz] at hcombine
      exact ⟨hcombine, ⟨x, z, hx, hzx.symm.trans hz, hx'.zero z w hz hw⟩,
        ⟨y, z', hy, hzy.symm.trans hz', hy'.zero z' w' hz' hw'⟩⟩

end OperandInfo

/-! ## Rules -/

/-- The created nodes have one reduction, which keeps the zero-points of the operands. -/
def Draft.KeepsZeros (g : Graph) (d : Draft) (lhs rhs : ValueId) : Prop :=
  ∃ spec zeroPoints, d.reductions = [(spec, zeroPoints)] ∧
    g.KeepsZeros d.graph lhs rhs spec zeroPoints

section Rules

variable {x y x' y' : OperandInfo} {lhs rhs : ValueId} {result : TensorType}
  {config : LoweringConfig}

/-- Operands that are normalized first and then reduced. -/
theorem Build.keepsZeros_of_run {b : Build α} {a : α} {next : Build ValueId} {d₁ : Draft}
    (hx : OperandInfo.extract g lhs = .ok x) (hy : OperandInfo.extract g rhs = .ok y)
    (halike : x.isQuantized = y.isQuantized) (hquiet : b.Quiet True)
    (hb : b.run (.ofGraph g) = (.ok a, d₁)) (hx' : OperandInfo.Normalizes d₁.graph x x')
    (hy' : OperandInfo.Normalizes d₁.graph y y') (hnext : next.Reduces (x'.CombinedBy y') True)
    (hrun : next.run d₁ = (.ok v, d)) : d.KeepsZeros g lhs rhs := by
  have hfirst := hquiet.reductions_run (.ofGraph g)
  rw [hb] at hfirst
  obtain ⟨spec, zeroPoints, hspec, hreductions⟩ := hnext.reductions_run (.of_run hb) hrun
  rw [hfirst] at hreductions
  exact ⟨spec, zeroPoints, hreductions,
    hspec.keepsZeros hx hy halike (hx'.of_run hrun) (hy'.of_run hrun)⟩

theorem Factors.prepare_normalizes {f : Factors} {operator : String}
    (h : (prepare x y result operator).run d = (.ok f, d')) :
    x.isQuantized = y.isQuantized ∧ OperandInfo.Normalizes d'.graph x f.lhs ∧
      OperandInfo.Normalizes d'.graph y f.rhs := by
  obtain ⟨_, d₁, -, h⟩ := run_bind_eq_ok.1 h
  obtain ⟨_, d₂, -, h⟩ := run_bind_eq_ok.1 h
  obtain ⟨_, d₃, -, h⟩ := run_bind_eq_ok.1 h
  dsimp only at h
  split at h
  · cases h
  obtain ⟨_, d₄, -, h⟩ := run_bind_eq_ok.1 h
  obtain ⟨pair, d₅, hpair, h⟩ := run_bind_eq_ok.1 h
  cases h
  obtain ⟨_, hboth, hpair⟩ := run_check_bind_eq_ok.1 hpair
  obtain ⟨x', d₇, hx, hpair⟩ := run_bind_eq_ok.1 hpair
  obtain ⟨y', d₈, hy, hpair⟩ := run_bind_eq_ok.1 hpair
  cases hpair
  exact ⟨OperandInfo.bothQuantized_eq_ok hboth,
    (OperandInfo.normalize_normalizes hx).of_run hy, OperandInfo.normalize_normalizes hy⟩

theorem Rule.lowerMatmul_keepsZeros
    (hrun : (lowerMatmul ⟨lhs, rhs⟩ result).run (.ofGraph g) = (.ok v, d)) :
    d.KeepsZeros g lhs rhs := by
  obtain ⟨x, hx, hrun⟩ := run_query_bind_eq_ok.1 hrun
  obtain ⟨y, hy, hrun⟩ := run_query_bind_eq_ok.1 hrun
  split at hrun
  · cases hrun
  obtain ⟨f, d₁, hf, hrun⟩ := run_bind_eq_ok.1 hrun
  obtain ⟨halike, hl, hr⟩ := Factors.prepare_normalizes hf
  exact keepsZeros_of_run hx hy halike (Factors.prepare_quiet trivial _ _ _ _) hf hl hr
    (.followed (f.inForm_reduces _) fun _ => finish_quiet _ _) hrun

theorem Rule.lowerMm_keepsZeros
    (hrun : (lowerMm config ⟨lhs, rhs⟩ result).run (.ofGraph g) = (.ok v, d)) :
    d.KeepsZeros g lhs rhs := by
  obtain ⟨x, hx, hrun⟩ := run_query_bind_eq_ok.1 hrun
  obtain ⟨y, hy, hrun⟩ := run_query_bind_eq_ok.1 hrun
  split at hrun
  · cases hrun
  obtain ⟨f, d₁, hf, hrun⟩ := run_bind_eq_ok.1 hrun
  obtain ⟨halike, hl, hr⟩ := Factors.prepare_normalizes hf
  exact keepsZeros_of_run hx hy halike (Factors.prepare_quiet trivial _ _ _ _) hf hl hr
    (mmProduct_reduces config f x.type.dtype.isUnsignedInteger result) hrun

/-- Whether or not there was a bias to check, the rest succeeded. -/
theorem ConvPlan.requireBiasType_run_next {α : Type} {bias : Option ValueId}
    {next : Unit → Build α} {quantized : Bool} {d d' : Draft} {a : α}
    (h : (if quantized = true then requireBiasType bias >>= next else next ()).run d =
      (.ok a, d')) : ∃ d₁, (next ()).run d₁ = (.ok a, d') := by
  split at h
  · obtain ⟨_, d₁, -, h⟩ := run_bind_eq_ok.1 h
    exact ⟨d₁, h⟩
  · exact ⟨d, h⟩

theorem ConvPlan.ofConvolution_normalizes {op : Convolution} {p : ConvPlan}
    (h : (ofConvolution op result).run (.ofGraph g) = (.ok p, d)) :
    ∃ x y, OperandInfo.extract g op.input = .ok x ∧ OperandInfo.extract g op.weight = .ok y ∧
      x.isQuantized = y.isQuantized ∧ OperandInfo.Normalizes d.graph x p.input ∧
        OperandInfo.Normalizes d.graph y p.weight := by
  obtain ⟨x, hx, h⟩ := run_query_bind_eq_ok.1 h
  obtain ⟨y, hy, h⟩ := run_query_bind_eq_ok.1 h
  obtain ⟨quantized, hboth, h⟩ := run_check_bind_eq_ok.1 h
  refine ⟨x, y, hx, hy, OperandInfo.bothQuantized_eq_ok hboth, ?_⟩
  obtain ⟨d₁, h⟩ := requireBiasType_run_next h
  obtain ⟨_, d₂, -, h⟩ := run_bind_eq_ok.1 h
  obtain ⟨_, d₃, -, h⟩ := run_bind_eq_ok.1 h
  obtain ⟨_, d₄, -, h⟩ := run_bind_eq_ok.1 h
  split at h
  · cases h
  split at h
  · cases h
  obtain ⟨_, d₅, -, h⟩ := run_bind_eq_ok.1 h
  obtain ⟨_, d₆, -, h⟩ := run_bind_eq_ok.1 h
  obtain ⟨x', d₇, hx', h⟩ := run_bind_eq_ok.1 h
  obtain ⟨y', d₈, hy', h⟩ := run_bind_eq_ok.1 h
  cases h
  exact ⟨(OperandInfo.normalize_normalizes hx').of_run hy', OperandInfo.normalize_normalizes hy'⟩

theorem Rule.lowerConvolution_keepsZeros {op : Convolution}
    (hrun : (lowerConvolution config op result).run (.ofGraph g) = (.ok v, d)) :
    d.KeepsZeros g op.input op.weight := by
  obtain ⟨p, d₁, hp, hrun⟩ := run_bind_eq_ok.1 hrun
  obtain ⟨x, y, hx, hy, halike, hl, hr⟩ := ConvPlan.ofConvolution_normalizes hp
  exact keepsZeros_of_run hx hy halike (ConvPlan.ofConvolution_quiet trivial _ _) hp hl hr
    (p.convolve_reduces trivial config op.bias result) hrun

/-- Batches without zero-points are reduced without zero-points. -/
theorem Rule.lowerBmm_keepsZeros (hlhs : g.zeroPoint? lhs = none) (hrhs : g.zeroPoint? rhs = none)
    (hrun : (lowerBmm ⟨lhs, rhs⟩ result).run (.ofGraph g) = (.ok v, d)) :
    d.KeepsZeros g lhs rhs := by
  obtain ⟨spec, _, ⟨hspec, rfl⟩, hreductions⟩ :=
    (lowerBmm_reduces trivial _ _).reductions_run (.ofGraph g) hrun
  exact ⟨spec, none, hreductions, hspec, hlhs, hrhs⟩

/-- The two operands of a product or a convolution. -/
def HostOp.factors? : HostOp → Option (ValueId × ValueId)
  | .mm b | .matmul b | .bmm b => some (b.lhs, b.rhs)
  | .convolution c => some (c.input, c.weight)
  | .trilinear _ | .flip _ => none

/-- A rule that lowers a product or a convolution creates one reduction, which reads the zero-points
of both operands, or there are none. Batches are to come without. -/
theorem Rule.keeps_zeroPoints {rule : Rule} (hrule : rule ∈ RuleSet.standard.rules) {op : HostOp}
    (hop : op.factors? = some (lhs, rhs))
    (hbmm : op.kind = .bmm → g.zeroPoint? lhs = none ∧ g.zeroPoint? rhs = none)
    (hrun : (rule.apply config op result).run (.ofGraph g) = (.ok v, d)) :
    d.KeepsZeros g lhs rhs := by
  simp only [RuleSet.standard, List.mem_cons, List.not_mem_nil, or_false] at hrule
  rcases hrule with rfl | rfl | rfl | rfl | rfl | rfl
  · cases op with
    | mm operands =>
        cases hop
        exact lowerMm_keepsZeros hrun
    | _ => cases hrun
  · cases op with
    | flip op => cases hop
    | _ => cases hrun
  · cases op with
    | matmul operands =>
        cases hop
        exact lowerMatmul_keepsZeros hrun
    | _ => cases hrun
  · cases op with
    | bmm operands =>
        cases hop
        exact lowerBmm_keepsZeros (hbmm rfl).1 (hbmm rfl).2 hrun
    | _ => cases hrun
  · cases op with
    | convolution op =>
        cases hop
        exact lowerConvolution_keepsZeros hrun
    | _ => cases hrun
  · cases op with
    | trilinear op => cases hop
    | _ => cases hrun

/-- Storage of a shape that has one entry, 200. -/
def storedEntry (shape : List Nat) : Tensor := .ofEntries (.unsigned .w8) shape fun _ => .ofInt 200

/-- The program that takes in two such operands with the zero-points 203 and 1. -/
def storedEntries (shape : List Nat) : Graph :=
  .takingQuantized (storedEntry shape) (storedEntry shape) 203 1

/-- Both zero-points are normalized and read. -/
theorem Rule.keeps_zeroPoints_stored :
    ∃ v d, (matmul.apply .standard (.matmul ⟨⟨4⟩, ⟨5⟩⟩) ⟨.signed .w32, .ofSizes [1, 1]⟩).run
        (.ofGraph (storedEntries [1, 1])) = (.ok v, d) ∧
      d.KeepsZeros (storedEntries [1, 1]) ⟨4⟩ ⟨5⟩ := by
  obtain ⟨v, d, hrun⟩ : ∃ v d, (matmul.apply .standard (.matmul ⟨⟨4⟩, ⟨5⟩⟩)
      ⟨.signed .w32, .ofSizes [1, 1]⟩).run (.ofGraph (storedEntries [1, 1])) = (.ok v, d) :=
    ⟨_, _, rfl⟩
  exact ⟨v, d, hrun, keeps_zeroPoints (by simp [RuleSet.standard]) rfl (fun h => by cases h) hrun⟩

/-- The product of batches of which both or one carry a zero-point is a product of their storage. -/
theorem Rule.bmm_drops_zeroPoints :
    (storedEntries [1, 1, 1]).zeroPoint? ⟨4⟩ = some ⟨2⟩ ∧
      (storedEntries [1, 1, 1]).zeroPoint? ⟨5⟩ = some ⟨3⟩ ∧
      (storedEntries [1, 1, 1]).zeroPoint? ⟨1⟩ = none ∧
      ∀ rhs ∈ [(⟨5⟩ : ValueId), ⟨1⟩], ∃ v d,
        (bmm.apply .standard (.bmm ⟨⟨4⟩, rhs⟩) ⟨.signed .w32, .ofSizes [1, 1, 1]⟩).run
            (.ofGraph (storedEntries [1, 1, 1])) = (.ok v, d) ∧
          d.reductions = [(.named .batchMatmul, none)] := by
  refine ⟨rfl, rfl, rfl, fun rhs hrhs => ?_⟩
  simp only [List.mem_cons, List.not_mem_nil, or_false] at hrhs
  rcases hrhs with rfl | rfl
  · exact ⟨_, _, rfl, rfl⟩
  · exact ⟨_, _, rfl, rfl⟩

end Rules

end TensorLowering
