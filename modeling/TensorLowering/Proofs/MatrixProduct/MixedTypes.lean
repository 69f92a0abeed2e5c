import TensorLowering.Numeric.Interchange
import TensorLowering.Proofs.Build.Matches
import TensorLowering.Proofs.MatrixProduct.EqualBatches

/-!
# Products of batches of two element types

`bmm` converts one of two operands whose element types differ. Main statement: this is as good as
converting both of them to the element type of the result, unless neither has it and the right
operand reads differently once it is converted.
-/
namespace TensorLowering

open Numeric NdArray Stage Build

/-! ## Conversions -/

namespace Build

variable {l : Limits} {s : Stage} {v : ValueId} {t : Tensor} {xs : List DeclaredAxis}
  {dtype : DType} {d : Draft} {type : TensorType}

/-- A converted tensor is declared with the sizes of the tensor. -/
theorem convert_axes (hv : s.HasAxes v t xs) :
    (convert v dtype).Meets l s fun v' s' => s'.HasAxes v' (t.converted dtype) xs := by
  refine Meets.query hv.declared ?_
  split
  next hsame =>
    have hself : t.converted dtype = t := by rw [← hsame, t.converted_self]
    exact .pure (hself.symm ▸ hv)
  next =>
    have htensor := hv.hasTensor.tensor
    have hvalue : evalNode s.supply s.env
        ⟨.convert v, .tensor ⟨dtype, ⟨xs.map DeclaredAxis.dim⟩⟩⟩ =
          .ok (.tensor (t.converted dtype)) := by
      have hresult : tensorResult (.tensor ⟨dtype, ⟨xs.map DeclaredAxis.dim⟩⟩) t.data =
          .ok (.tensor (.ofArray dtype t.data)) := rfl
      simp only [evalNode, htensor, Bind.bind, Except.bind]
      rw [hresult, Tensor.ofArray_eq_ofEntries]
      rfl
    exact .create hvalue fun _ => ⟨Graph.tensorType_eq_ok.2 ⟨_, s.node?_emit_self _ _ _⟩, hv.shape,
      hv.admits, s.get?_emit_self _ _ _⟩

/-- A value that has the element type stays as it is. -/
theorem run_convert_self (hv : d.graph.tensorType v = .ok type) :
    (convert v type.dtype).run d = (.ok v, d) := by
  rw [convert, tensorType, run_bind, run_query, hv]
  exact congrArg (Build.run · d) (if_pos rfl)

/-- A value of another element type is converted by a node. -/
theorem run_convert_other (hv : d.graph.tensorType v = .ok type) (hne : type.dtype ≠ dtype) :
    (convert v dtype).run d =
      (.ok d.graph.nextId, d.emit (.convert v) (.tensor ⟨dtype, type.shape⟩)) := by
  rw [convert, tensorType, run_bind, run_query, hv]
  exact congrArg (Build.run · d) (if_neg hne)

/-- What is declared stays declared. -/
theorem tensorType_of_run {α : Type} {b : Build α} {r : Except LowerError α} {d' : Draft}
    (hrun : b.run d = (r, d')) (hv : d.graph.tensorType v = .ok type) :
    d'.graph.tensorType v = .ok type := by
  obtain ⟨ids, hids⟩ := b.run_extends d
  rw [hrun] at hids
  obtain ⟨op, hnode⟩ := Graph.tensorType_eq_ok.1 hv
  exact Graph.tensorType_eq_ok.2 ⟨op, (hids.node v (Graph.lt_size_of_node? hnode)).trans hnode⟩

theorem exists_run_convert (hv : d.graph.tensorType v = .ok type) (dtype : DType) :
    ∃ v' d', (convert v dtype).run d = (.ok v', d') ∧
      d'.graph.tensorType v' = .ok ⟨dtype, type.shape⟩ := by
  by_cases hsame : type.dtype = dtype
  · subst hsame
    exact ⟨v, d, run_convert_self hv, hv⟩
  · exact ⟨_, _, run_convert_other hv hsame,
      Graph.tensorType_eq_ok.2 ⟨_, Graph.node?_create_self ..⟩⟩

end Build

namespace Rule

variable {s : Stage} {lhs rhs v v' w w' : ValueId} {a b : Tensor} {acc : DType}
  {batch rows inner batch' inner' columns : DeclaredAxis} {result : TensorType} {p : Pair}

/-- `bmm` of two operands that are converted to the element type of the result. -/
def convertedBmm (lhs rhs : ValueId) (result : TensorType) : Build ValueId := do
  let lhs ← convert lhs result.dtype
  let rhs ← convert rhs result.dtype
  lowerBmm ⟨lhs, rhs⟩ result

/-- Whether two batches can be multiplied shows in their shapes and the element type of the left
one. -/
theorem bmmProduct_matches (hv : p.Same v v') (hw : p.SameShape w w') :
    (bmmProduct v w result).Matches (bmmProduct v' w' result) p fun _ _ _ => True := by
  refine .tensorType hv fun type => .attempt fun accumulator _ => ?_
  refine (dim_matches hv.sameShape 0).bind fun batch batch' p₁ hle₁ hbatch => ?_
  have hv₁ := hv.sameShape.mono hle₁
  refine (dim_matches hv₁ 1).bind fun rows rows' p₂ hle₂ hrows => ?_
  refine (dim_matches (hv₁.mono hle₂) 2).bind fun inner inner' p₃ hle₃ hinner => ?_
  have hle₁₃ := hle₁.trans (hle₂.trans hle₃)
  have hw₃ := hw.mono hle₁₃
  refine (dim_matches hw₃ 0).bind fun other other' p₄ hle₄ hother => ?_
  refine (dim_matches (hw₃.mono hle₄) 1).bind fun summed summed' p₅ hle₅ hsummed => ?_
  have hw₅ := hw₃.mono (hle₄.trans hle₅)
  refine (dim_matches hw₅ 2).bind fun columns columns' p₆ hle₆ hcolumns => ?_
  refine (requireEqual_matches hbatch hother _).bind fun _ _ p₇ hle₇ _ => ?_
  refine (requireEqual_matches hinner hsummed _).bind fun _ _ p₈ hle₈ _ => ?_
  refine (zeros_matches (.cons hbatch (.cons hrows (.cons hcolumns .nil))) accumulator).bind ?_
  intro init init' p₉ hle₉ hinit
  have hle₅₉ := hle₆.trans (hle₇.trans (hle₈.trans hle₉))
  have hle := hle₁₃.trans ((hle₄.trans hle₅).trans hle₅₉)
  refine (reduce_matches (hv.sameShape.mono hle) (hw₅.mono hle₅₉) hinit _).bind ?_
  intro value value' p₁₀ _ hvalue
  exact (finish_matches hvalue result).weaken fun _ _ _ _ _ => trivial

/-- How `bmm` of converted operands ends. -/
theorem convertedBmm_ends (result : TensorType) (hacc : result.dtype.accumulator? = some acc)
    (hxs : s.HasAxes lhs a [batch, rows, inner]) (hys : s.HasAxes rhs b [batch', inner', columns]) :
    (convertedBmm lhs rhs result).Ends s
      (Factors.batchOutcome result acc (a.converted result.dtype) (b.converted result.dtype) batch
        rows inner batch' inner' columns) := by
  refine Meets.bind (convert_axes hxs) fun v s₁ hle₁ hv => ?_
  refine Meets.bind (convert_axes (hys.mono hle₁)) fun w s₂ hle₂ hw => ?_
  exact lowerBmm_ends result rfl hacc (hv.mono hle₂) hw

/-- How `bmm` ends for operands of which neither has the element type of the result. -/
theorem lowerBmm_mixed_ends (result : TensorType) (hacc : result.dtype.accumulator? = some acc)
    (hxs : s.HasAxes lhs a [batch, rows, inner]) (hys : s.HasAxes rhs b [batch', inner', columns])
    (hmixed : a.dtype ≠ b.dtype) (hlhs : a.dtype ≠ result.dtype) :
    (lowerBmm ⟨lhs, rhs⟩ result).Ends s
      (Factors.batchOutcome result acc (a.converted result.dtype) b batch rows inner batch' inner'
        columns) := by
  refine ends_lowerBmm hxs.hasTensor hys.hasTensor (congrArg List.length hxs.shape)
    (congrArg List.length hys.shape) ?_
  rw [unifyTypes, if_neg hmixed, if_neg hlhs, LawfulMonad.bind_assoc]
  refine Meets.bind (convert_axes hxs) fun v s₁ hle₁ hv => ?_
  exact bmmProduct_ends hv (hys.mono hle₁) hacc

/-- The product of two batches depends on how they read. -/
theorem batchOutcome_congr {a' b' : Tensor} (ha : a.widened .signed = a'.widened .signed)
    (hb : b.widened .signed = b'.widened .signed) :
    Factors.batchOutcome result acc a b batch rows inner batch' inner' columns =
      Factors.batchOutcome result acc a' b' batch rows inner batch' inner' columns := by
  rw [Factors.batchOutcome, Factors.batchSums, ha, hb]
  rfl

/-! ## Both constructions -/

variable {lhsType rhsType : TensorType} {d d' : Draft} {x : ValueId}

/-- Where `bmm` succeeds, it succeeds with converted operands, and creates the same nodes if one of
them has the element type of the result. -/
theorem exists_run_convertedBmm (hl : d.graph.tensorType lhs = .ok lhsType)
    (hr : d.graph.tensorType rhs = .ok rhsType) (hmixed : lhsType.dtype ≠ rhsType.dtype)
    (hrun : (lowerBmm ⟨lhs, rhs⟩ result).run d = (.ok x, d')) :
    ∃ y d'', (convertedBmm lhs rhs result).run d = (.ok y, d'') ∧
      (lhsType.dtype = result.dtype ∨ rhsType.dtype = result.dtype → y = x ∧ d'' = d') := by
  obtain ⟨htypes, hproduct⟩ := (lowerBmm_run_eq_ok hl hr).1 hrun
  obtain ⟨v, d₁, hconvert, hv⟩ := exists_run_convert hl result.dtype
  obtain ⟨w, d₂, hconvert', hw⟩ := exists_run_convert (tensorType_of_run hconvert hr) result.dtype
  have hv₂ := tensorType_of_run hconvert' hv
  have hconverted : ∀ y d'', (bmmProduct v w result).run d₂ = (.ok y, d'') →
      (convertedBmm lhs rhs result).run d = (.ok y, d'') := by
    intro y d'' hy
    refine run_bind_eq_ok.2 ⟨v, d₁, hconvert, run_bind_eq_ok.2 ⟨w, d₂, hconvert', ?_⟩⟩
    refine (lowerBmm_run_eq_ok hv₂ hw).2 ⟨⟨htypes.lhsRank, htypes.rhsRank, htypes.result,
      htypes.result, htypes.result⟩, ?_⟩
    rw [unifyTypes, if_pos rfl]
    exact hy
  rw [unifyTypes, if_neg hmixed] at hproduct
  by_cases hlhs : lhsType.dtype = result.dtype
  · -- the left operand stays as it is, and the right one is converted by `bmm`
    rw [← hlhs, run_convert_self hl] at hconvert
    cases hconvert
    rw [if_pos hlhs, LawfulMonad.bind_assoc] at hproduct
    obtain ⟨_, _, hrhs, hy⟩ := run_bind_eq_ok.1 hproduct
    cases hconvert'.symm.trans hrhs
    exact ⟨x, d', hconverted x d' hy, fun _ => ⟨rfl, rfl⟩⟩
  rw [if_neg hlhs, LawfulMonad.bind_assoc] at hproduct
  obtain ⟨_, _, hleft, hy⟩ := run_bind_eq_ok.1 hproduct
  cases hconvert.symm.trans hleft
  by_cases hrhs : rhsType.dtype = result.dtype
  · -- `bmm` converts the left operand, and the right one stays as it is
    rw [← hrhs, run_convert_self (tensorType_of_run hconvert hr)] at hconvert'
    cases hconvert'
    exact ⟨x, d', hconverted x d' hy, fun _ => ⟨rfl, rfl⟩⟩
  · -- the operands of both products have the same shapes and left element type
    have htype : ∀ {g : Graph} {v : ValueId} {type : TensorType}, g.tensorType v = .ok type →
        g.typeOf v = .ok (.tensor type) :=
      fun hv => Graph.typeOf_eq_ok.2 (Graph.tensorType_eq_ok.1 hv)
    have hmatches : (bmmProduct v rhs result).Matches (bmmProduct v w result) ⟨d₁, d₂⟩
        fun _ _ _ => True :=
      bmmProduct_matches ⟨_, htype hv, htype hv₂⟩
        ⟨_, _, htype (tensorType_of_run hconvert hr), htype hw, rfl⟩
    rcases hmatches.cases with ⟨_, y, _, d'', -, hright, -, -⟩ | ⟨_, _, _, _, hleft, -, -⟩
    · exact ⟨y, d'', hconverted y d'' hright, fun hone => (hone.elim hlhs hrhs).elim⟩
    · cases hy.symm.trans hleft

variable {g : Graph} {supply : Supply} {env : Env}

/-- `bmm` of operands of two element types does what it does with both of them converted to the
element type of the result, unless neither has it and converting the right one changes how it
reads. -/
theorem bmm_unifies_types (config : LoweringConfig) (h : g.evaluate supply = .ok env)
    (hlhs : g.Operand env lhs a none) (hrhs : g.Operand env rhs b none)
    (hmixed : a.dtype ≠ b.dtype)
    (hread : a.dtype ≠ result.dtype → b.dtype ≠ result.dtype →
      (b.converted result.dtype).widened .signed = b.widened .signed)
    (hrun : (bmm.apply config (.bmm ⟨lhs, rhs⟩) result).run (.ofGraph g) = (.ok x, d)) :
    ∃ y d', (convertedBmm lhs rhs result).run (.ofGraph g) = (.ok y, d') ∧
      (d.commit.withOutputs [x]).run supply = (d'.commit.withOutputs [y]).run supply := by
  obtain ⟨lhsType, xs, -, -, hxs⟩ := hlhs.exists_axes h
  obtain ⟨rhsType, ys, -, -, hys⟩ := hrhs.exists_axes h
  obtain ⟨y, d', hconverted, hsame⟩ := exists_run_convertedBmm hxs.declared hys.declared hmixed hrun
  refine ⟨y, d', hconverted, ?_⟩
  by_cases hone : a.dtype = result.dtype ∨ b.dtype = result.dtype
  · obtain ⟨rfl, rfl⟩ := hsame hone
    rfl
  obtain ⟨hleft, hright⟩ := not_or.1 hone
  obtain ⟨htypes, -⟩ := (lowerBmm_run_eq_ok hxs.declared hys.declared).1 hrun
  have hxrank : xs.length = 3 := by simpa [TensorType.rank, Shape.rank] using htypes.lhsRank
  have hyrank : ys.length = 3 := by simpa [TensorType.rank, Shape.rank] using htypes.rhsRank
  obtain ⟨batch, rows, inner, rfl⟩ := List.length_eq_three.1 hxrank
  obtain ⟨batch', inner', columns, rfl⟩ := List.length_eq_three.1 hyrank
  obtain ⟨acc, hacc⟩ := Option.isSome_iff_exists.1
    ((DType.isSome_accumulator? result.dtype).trans htypes.result)
  have hends := lowerBmm_mixed_ends (s := Stage.ofRun h) result hacc hxs hys hmixed hleft
  have hends' := convertedBmm_ends (s := Stage.ofRun h) result hacc hxs hys
  rw [batchOutcome_congr rfl (hread hleft hright)] at hends'
  exact (hends.run h hrun).trans (hends'.run h hconverted).symm

section Integers

/-- A batch of one number. -/
def unitBatch (dtype : DType) (x : Binary64) : Tensor := .ofEntries dtype [1, 1, 1] fun _ => x

/-- The number one half. -/
def half : Binary64 := .ofWord 0x3FE0000000000000

def byteBatch : TensorType := ⟨.signed .w8, .ofSizes [1, 1, 1]⟩

def singleBatch : TensorType := ⟨.float32, .ofSizes [1, 1, 1]⟩

def wordBatch : TensorType := ⟨.signed .w32, .ofSizes [1, 1, 1]⟩

/-- Whole numbers read the same once they are converted. -/
theorem whole_batches_unify :
    ∃ x d y d', (bmm.apply .standard (.bmm ⟨⟨0⟩, ⟨1⟩⟩) wordBatch).run
          (.ofGraph (.takingAs [byteBatch, singleBatch])) = (.ok x, d) ∧
      (convertedBmm ⟨0⟩ ⟨1⟩ wordBatch).run (.ofGraph (.takingAs [byteBatch, singleBatch])) =
        (.ok y, d') ∧
      (d.commit.withOutputs [x]).run
          (.takingIn [unitBatch (.signed .w8) (.ofInt 2), unitBatch .float32 (.ofInt 3)]) =
        (d'.commit.withOutputs [y]).run
          (.takingIn [unitBatch (.signed .w8) (.ofInt 2), unitBatch .float32 (.ofInt 3)]) := by
  obtain ⟨x, d, hrun⟩ : ∃ x d, (bmm.apply .standard (.bmm ⟨⟨0⟩, ⟨1⟩⟩) wordBatch).run
      (.ofGraph (.takingAs [byteBatch, singleBatch])) = (.ok x, d) := ⟨_, _, rfl⟩
  obtain ⟨env, h, hoperand⟩ := Graph.operand_takingAs [byteBatch, singleBatch]
    [unitBatch (.signed .w8) (.ofInt 2), unitBatch .float32 (.ofInt 3)] (by decide)
  obtain ⟨y, d', hconverted, hsame⟩ := bmm_unifies_types .standard h (hoperand 0 _ rfl)
    (hoperand 1 _ rfl) (by decide) (fun _ _ => by decide +kernel) hrun
  exact ⟨x, d, y, d', hrun, hconverted, hsame⟩

/-- A half that is multiplied by two is one, although it is zero as an integer. -/
theorem bmm_keeps_right_type :
    (bmm.apply .standard (.bmm ⟨⟨0⟩, ⟨1⟩⟩) wordBatch).Computes (.takingAs [byteBatch, singleBatch])
        (.takingIn [unitBatch (.signed .w8) (.ofInt 2), unitBatch .float32 half])
        (integerTensor [1, 1, 1] 1) ∧
      (convertedBmm ⟨0⟩ ⟨1⟩ wordBatch).Computes (.takingAs [byteBatch, singleBatch])
        (.takingIn [unitBatch (.signed .w8) (.ofInt 2), unitBatch .float32 half])
        (integerTensor [1, 1, 1] 0) := by
  have hbyte : (unitBatch (.signed .w8) (.ofInt 2)).HasType byteBatch := by decide
  have hsingle : (unitBatch .float32 half).HasType singleBatch := by decide
  obtain ⟨env, h, haxes⟩ := Graph.axes_takingAs (.cons hbyte (.cons hsingle .nil))
  obtain ⟨-, -, hxs⟩ := haxes 0 _ byteBatch rfl rfl
  obtain ⟨-, -, hys⟩ := haxes 1 _ singleBatch rfl rfl
  have hends := lowerBmm_mixed_ends wordBatch (show _ = some (.signed .w64) from rfl) hxs hys
    (by decide) (by decide)
  have hends' := convertedBmm_ends wordBatch (show _ = some (.signed .w64) from rfl) hxs hys
  refine ⟨⟨_, _, rfl, (hends.run h rfl).trans ?_⟩, _, _, rfl, (hends'.run h rfl).trans ?_⟩
  all_goals decide +kernel

end Integers

end Rule

end TensorLowering
