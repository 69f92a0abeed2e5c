import TensorLowering.Proofs.Convolution.DeclaredRules

/-!
# Convolutions with open sizes

Main statement: leaving sizes of the operands, the bias and the result open does not change what a
lowered convolution computes.
-/
namespace TensorLowering

open Numeric NdArray Stage Build

variable {g g' : Graph} {supply : Supply} {env env' : Env} {op : Convolution}
  {x w t : Tensor} {zx zw : Option Binary64} {bias : Option Tensor} {result result' : TensorType}
  {config : LoweringConfig} {v v' : ValueId} {d d' : Draft}

/-! ## Declared types -/

/-- Each size is declared as in the other type, or left open. -/
structure TensorType.Opens (result' result : TensorType) : Prop where
  dtype : result'.dtype = result.dtype
  dims : List.Forall₂ (fun d' d => d' = d ∨ d' = .dynamic) result'.shape.dims result.shape.dims

theorem TensorType.Opens.refl (type : TensorType) : type.Opens type :=
  ⟨rfl, List.forall₂_same.2 fun _ _ => .inl rfl⟩

theorem Dim.forall₂_admits_of_open {dims dims' : List Dim} {sizes : List Nat}
    (h : List.Forall₂ (fun d' d => d' = d ∨ d' = .dynamic) dims' dims)
    (hsizes : List.Forall₂ Dim.Admits dims sizes) : List.Forall₂ Dim.Admits dims' sizes := by
  induction h generalizing sizes with
  | nil => exact hsizes
  | cons hd _ ih =>
      cases hsizes with
      | cons hn hrest =>
          refine .cons ?_ (ih hrest)
          rcases hd with rfl | rfl
          · exact hn
          · exact .dynamic _

theorem TensorType.Opens.admits {sizes : List Nat} (h : result'.Opens result)
    (hadmits : result.shape.Admits sizes) : result'.shape.Admits sizes :=
  Shape.admits_iff.2 (Dim.forall₂_admits_of_open h.dims (Shape.admits_iff.1 hadmits))

/-! ## The operands of a convolution -/

/-- A convolution whose operands and bias have values of their declared types. An array can have the
sizes of the operands. -/
structure Graph.Convolves (g : Graph) (env : Env) (op : Convolution) (x w : Tensor)
    (zx zw : Option Binary64) (bias : Option Tensor) : Prop where
  input : g.Operand env op.input x zx
  weight : g.Operand env op.weight w zw
  bias : Option.Rel (fun v b => g.Declares env v b) op.bias bias
  inputFits : ¬ TooLarge x.shape
  weightFits : ¬ TooLarge w.shape

/-- Programs of which each index and each size is below `2 ^ 53`. They may stop if that is said. -/
def Limits.small (stops : Prop) : Limits where
  fails := fun _ => True
  stops := fun _ => stops
  considers := Value.Small

/-- Either the convolution is known to run, or its program may stop and its operands are declared
with every size. -/
theorem Graph.Convolves.meets (stops : Prop) (h : g.evaluate supply = .ok env)
    (hop : g.Convolves env op x w zx zw bias)
    (hmode : (∃ c geo out, ConvolutionSizes.Runs c op geo x w bias result.shape out) ∨
      stops ∧ g.IsStatic op.input ∧ g.IsStatic op.weight) :
    (Rule.lowerConvolution config op result).Meets (.small stops) (Stage.ofRun h)
      (Rule.GivesConvolution op x w zx zw bias result) := by
  obtain ⟨xi, hxi, hx⟩ := hop.input.reads h
  obtain ⟨wi, hwi, hw⟩ := hop.weight.reads h
  refine lowerConvolution_meets (fun _ hsmall => hsmall) (fun _ => trivial) hxi hwi hx hw
    hop.inputFits hop.weightFits ?_ (hmode.imp_right ?_)
  · exact rel_imp (fun _ _ hb => ⟨hb.1, hb.2⟩) hop.bias
  · rintro ⟨hstops, hinput, hweight⟩
    exact ⟨fun _ => hstops, hx.pinned hxi hinput, hw.pinned hwi hweight⟩

/-- A program that declares every size of its operands fails or returns the convolution. -/
theorem Graph.Convolves.fails_or_gives (h : g.evaluate supply = .ok env)
    (hop : g.Convolves env op x w zx zw bias) (hinput : g.IsStatic op.input)
    (hweight : g.IsStatic op.weight)
    (hrun : (Rule.convolution.apply config (.convolution op) result).run (.ofGraph g) = (.ok v, d))
    (hsmall : d.commit.EveryValue supply Value.Small) :
    (∃ e, (d.commit.withOutputs [v]).run supply = .error e) ∨
      ∃ s t, Rule.GivesConvolution op x w zx zw bias result v s ∧
        s.env.get? v = some (.tensor t) ∧
        (d.commit.withOutputs [v]).run supply = .ok [.tensor t] := by
  rcases (hop.meets True h (.inr ⟨trivial, hinput, hweight⟩)).commit h hrun hsmall with
    ⟨e, herror, -⟩ | ⟨e, hfail, -⟩ | ⟨v', s, hresult, hgives, heval⟩
  · exact .inl ⟨e, run_withOutputs_of_error herror⟩
  · cases hfail
  · cases hresult
    obtain ⟨c, geo, out, acc, hruns, hacc, hget⟩ := hgives
    exact .inr ⟨s, _, ⟨c, geo, out, acc, hruns, hacc, hget⟩, hget, run_withOutputs heval hget⟩

/-- Whatever sizes are declared, a program returns the convolution where another one does. -/
theorem Graph.Convolves.run_eq {s : Stage} (h : g.evaluate supply = .ok env)
    (hop : g.Convolves env op x w zx zw bias)
    (hgives : Rule.GivesConvolution op x w zx zw bias result v s)
    (hget : s.env.get? v = some (.tensor t)) (hopens : result'.Opens result)
    (hrun : (Rule.convolution.apply config (.convolution op) result').run (.ofGraph g) =
      (.ok v', d))
    (hsmall : d.commit.EveryValue supply Value.Small) :
    (d.commit.withOutputs [v']).run supply = .ok [.tensor t] := by
  have hruns : ∃ c geo out, ConvolutionSizes.Runs c op geo x w bias result'.shape out := by
    obtain ⟨c, geo, out, -, hruns, -⟩ := hgives
    exact ⟨c, geo, out, hruns.geometry, hruns.arranges, hruns.output, hruns.fits, hruns.bias,
      hopens.admits hruns.admits⟩
  rcases (hop.meets False h (.inl hruns)).commit h hrun hsmall with
    ⟨e, -, hstop⟩ | ⟨e, hfail, -⟩ | ⟨v', s', hresult, hgives', heval⟩
  · exact hstop.elim
  · cases hfail
  · cases hresult
    exact run_withOutputs heval ((hgives.get?_eq hgives' hopens.dtype).trans hget)

namespace Rule

/-- If the program with the created nodes returns a tensor where the sizes of the operands are
declared, then it returns the same tensor wherever sizes are open. -/
theorem open_sizes_agree (h : g.evaluate supply = .ok env) (h' : g'.evaluate supply = .ok env')
    (hop : g.Convolves env op x w zx zw bias) (hop' : g'.Convolves env' op x w zx zw bias)
    (hinput : g.IsStatic op.input) (hweight : g.IsStatic op.weight) (hopens : result'.Opens result)
    (hrun : (convolution.apply config (.convolution op) result).run (.ofGraph g) = (.ok v, d))
    (hrun' : (convolution.apply config (.convolution op) result').run (.ofGraph g') = (.ok v', d'))
    (hsmall : d.commit.EveryValue supply Value.Small)
    (hsmall' : d'.commit.EveryValue supply Value.Small)
    (hvalue : (d.commit.withOutputs [v]).run supply = .ok [.tensor t]) :
    (d'.commit.withOutputs [v']).run supply = .ok [.tensor t] := by
  rcases hop.fails_or_gives h hinput hweight hrun hsmall with
    ⟨e, herror⟩ | ⟨s, t', hgives, hget, hreturns⟩
  · cases herror.symm.trans hvalue
  · cases hreturns.symm.trans hvalue
    exact hop'.run_eq h' hgives hget hopens hrun' hsmall'

section OpenRow

/-- A row of two elements, and a kernel that triples them. -/
def shortRow : Tensor := .ofEntries .float32 [1, 1, 2] fun ix => .ofInt (1 + ix.getD 2 0)

def triplingKernel : Tensor := .ofEntries .float32 [1, 1, 1] fun _ => .ofInt 3

def tripledRow : Tensor := .ofEntries .float32 [1, 1, 2] fun ix => .ofInt (3 + 3 * ix.getD 2 0)

def blankRow : Tensor := .ofEntries .float32 [1, 1, 2] fun _ => 0

/-- The type of rows with any number of channels and elements. -/
def openRow : TensorType := ⟨.float32, ⟨[.static 1, .dynamic, .dynamic]⟩⟩

/-- The type of what the kernel gives for such a row. -/
def rowResult : TensorType := ⟨.float32, ⟨[.static 1, .static 1, .dynamic]⟩⟩

def rowSpec : ReductionSpec := .named (.conv ⟨.standard .channelFirst, [1], [1], false⟩)

/-- The nodes that the rule creates where every size is declared. -/
def staticRowNodes : List Node :=
  [⟨.constant (.int 1), .index⟩, ⟨.constant (.int 1), .index⟩, ⟨.constant (.int 2), .index⟩,
    ⟨.constant (.int 1), .index⟩, ⟨.constant (.int 1), .index⟩, ⟨.constant (.int 1), .index⟩,
    ⟨.constant (.int 1), .index⟩, ⟨.constant (.zero .float32), .scalar .float32⟩,
    ⟨.constant (.int 2), .index⟩, ⟨.constant (.zero .float32), .scalar .float32⟩,
    ⟨.fill [⟨2⟩, ⟨5⟩, ⟨10⟩] ⟨11⟩, .tensor shortRow.type⟩,
    ⟨.reduce rowSpec ⟨0⟩ ⟨1⟩ none ⟨12⟩,
      .tensor shortRow.type⟩]

/-- The nodes that it creates for open rows: the guard compares the channels with the groups. -/
def openRowNodes : List Node :=
  [⟨.constant (.int 1), .index⟩, ⟨.dim ⟨0⟩ 1, .index⟩, ⟨.dim ⟨0⟩ 2, .index⟩,
    ⟨.constant (.int 1), .index⟩, ⟨.constant (.int 1), .index⟩, ⟨.constant (.int 1), .index⟩,
    ⟨.constant (.int 1), .index⟩, ⟨.guard ⟨.divisible ⟨3⟩ ⟨8⟩,
      "invalid: groups must divide input channel size evenly"⟩, .unit⟩,
    ⟨.constant (.zero .float32), .scalar .float32⟩, ⟨.constant (.int (-1)), .index⟩,
    ⟨.constant (.int 0), .index⟩, ⟨.constant (.int 1), .index⟩, ⟨.constant (.int 0), .index⟩,
    ⟨.constant (.int (-1)), .index⟩, ⟨.arith .add ⟨4⟩ ⟨15⟩, .index⟩, ⟨.constant (.int 1), .index⟩,
    ⟨.constant (.int 1), .index⟩, ⟨.arith .add ⟨16⟩ ⟨18⟩, .index⟩,
    ⟨.constant (.zero .float32), .scalar .float32⟩,
    ⟨.fill [⟨2⟩, ⟨5⟩, ⟨19⟩] ⟨20⟩, .tensor rowResult⟩,
    ⟨.reduce rowSpec ⟨0⟩ ⟨1⟩ none ⟨21⟩,
      .tensor rowResult⟩,
    ⟨.cast ⟨22⟩, .tensor openRow⟩]

theorem run_staticRow : (convolution.apply .standard (.convolution (unitConvolution false))
    shortRow.type).run (.ofGraph (.takingAs [shortRow.type, triplingKernel.type])) =
      (.ok ⟨13⟩, .takingAs [shortRow.type, triplingKernel.type] staticRowNodes) := by
  rfl

theorem run_openRow : (convolution.apply .standard (.convolution (unitConvolution false))
    openRow).run (.ofGraph (.takingAs [openRow, triplingKernel.type])) =
      (.ok ⟨23⟩, .takingAs [openRow, triplingKernel.type] openRowNodes) := by
  rfl

/-- What the nodes evaluate to. -/
def staticRowValues : List Value :=
  [.index 1, .index 1, .index 2, .index 1, .index 1, .index 1, .index 1, .scalar .float32 0,
    .index 2, .scalar .float32 0, .tensor blankRow, .tensor tripledRow]

def openRowValues : List Value :=
  [.index 1, .index 1, .index 2, .index 1, .index 1, .index 1, .index 1, .unit,
    .scalar .float32 0, .index (-1), .index 0, .index 1, .index 0, .index (-1), .index 1, .index 1,
    .index 1, .index 2, .scalar .float32 0, .tensor blankRow, .tensor tripledRow,
    .tensor tripledRow]

theorem reduce_row : ∃ ix, rowSpec.indexing? = some ix ∧
    NdArray.reduce ix rowSpec.combine (shortRow.widened rowSpec.cast)
      (triplingKernel.widened rowSpec.cast) (0, 0) blankRow.data = .ok tripledRow.data :=
  ⟨_, rfl, by decide +kernel⟩

theorem zeroPointsOf_rowSpec (env : Env) : zeroPointsOf env rowSpec none = .ok (0, 0) := rfl

theorem evalFrom_staticRow {g : Graph} {supply : Supply} {env : Env}
    (hg : ∀ i, g.node? ⟨i + 2⟩ = staticRowNodes[i]?)
    (hx : env.get? ⟨0⟩ = some (.tensor shortRow))
    (hw : env.get? ⟨1⟩ = some (.tensor triplingKernel)) :
    g.evalFrom supply env ((List.range' 2 staticRowNodes.length).map ValueId.mk) =
      .ok (env.insertFrom 2 staticRowValues) := by
  obtain ⟨ix, hix, hreduce⟩ := reduce_row
  have hfill : arrayResult (.tensor shortRow.type) (fill [1, 1, 2] 0) =
    .ok (.tensor blankRow) := by decide +kernel
  have hresult : arrayResult (.tensor shortRow.type) (.ok tripledRow.data) =
    .ok (.tensor tripledRow) := by decide +kernel
  simp [Graph.evalFrom, Graph.evalStep, hg, staticRowNodes, staticRowValues, List.range',
    Env.insertFrom, evalNode, Bind.bind, Except.bind, Pure.pure, Except.pure, Env.get,
    Env.get?_insert, Env.sizes, Env.index, Env.number, Env.tensor, Value.toTensor,
    Value.roundedScalar, Scalar.toDouble_zero, DType.round_zero, toInt64_one, toInt64_two, hfill,
    zeroPointsOf_rowSpec, hix, hreduce, hresult, hx, hw]

theorem evalFrom_openRow {g : Graph} {supply : Supply} {env : Env}
    (hg : ∀ i, g.node? ⟨i + 2⟩ = openRowNodes[i]?)
    (hx : env.get? ⟨0⟩ = some (.tensor shortRow))
    (hw : env.get? ⟨1⟩ = some (.tensor triplingKernel)) :
    g.evalFrom supply env ((List.range' 2 openRowNodes.length).map ValueId.mk) =
      .ok (env.insertFrom 2 openRowValues) := by
  obtain ⟨ix, hix, hreduce⟩ := reduce_row
  have hminus : (Scalar.int (-1)).toDouble.toInt64 = -1 := by decide +kernel
  have hlast : ArithOp.add.eval? (Binary64.ofInt 2).toInt64 (Binary64.ofInt (-1)).toInt64 =
    some 1 := by decide +kernel
  have hcount : ArithOp.add.eval? (Binary64.ofInt 1).toInt64 (Binary64.ofInt 1).toInt64 =
    some 2 := by decide +kernel
  have hshape : shortRow.shape = [1, 1, 2] := rfl
  have hfill : arrayResult (.tensor rowResult) (fill [1, 1, 2] 0) = .ok (.tensor blankRow) := by
    decide +kernel
  have hresult : arrayResult (.tensor rowResult) (.ok tripledRow.data) =
    .ok (.tensor tripledRow) := by decide +kernel
  have hcheck : tripledRow.check (.tensor openRow) = .ok () := by decide +kernel
  simp [Graph.evalFrom, Graph.evalStep, hg, openRowNodes, openRowValues, List.range',
    Env.insertFrom, evalNode, Bind.bind, Except.bind, Pure.pure, Except.pure, Env.get,
    Env.get?_insert, Env.sizes, Env.index, Env.number, Env.tensor, Value.toTensor, GuardCond.holds,
    Value.roundedScalar, Scalar.toDouble_zero, DType.round_zero, toInt64_zero, toInt64_one, hminus,
    hlast, hcount, hshape, hfill, zeroPointsOf_rowSpec, hix, hreduce, hresult, hcheck, hx, hw]

/-- A kernel triples a row whether its sizes are open or not. -/
theorem open_row_agrees : ∃ v v' d d',
    (convolution.apply .standard (.convolution (unitConvolution false)) shortRow.type).run
      (.ofGraph (.takingAs [shortRow.type, triplingKernel.type])) = (.ok v, d) ∧
    (convolution.apply .standard (.convolution (unitConvolution false)) openRow).run
      (.ofGraph (.takingAs [openRow, triplingKernel.type])) = (.ok v', d') ∧
    (d.commit.withOutputs [v]).run (.takingIn [shortRow, triplingKernel]) =
      .ok [.tensor tripledRow] ∧
    (d'.commit.withOutputs [v']).run (.takingIn [shortRow, triplingKernel]) =
      .ok [.tensor tripledRow] := by
  obtain ⟨env, h, hoperand⟩ := Graph.operand_takingAs [shortRow.type, triplingKernel.type]
    [shortRow, triplingKernel] (by decide)
  obtain ⟨env', h', hoperand'⟩ := Graph.operand_takingAs [openRow, triplingKernel.type]
    [shortRow, triplingKernel] (by decide)
  have hinput := hoperand 0 shortRow rfl
  have hweight := hoperand 1 triplingKernel rfl
  have hinput' := hoperand' 0 shortRow rfl
  have hweight' := hoperand' 1 triplingKernel rfl
  have heval : (Draft.takingAs [shortRow.type, triplingKernel.type] staticRowNodes).graph.evalFrom
      (.takingIn [shortRow, triplingKernel]) env
      ((List.range' 2 staticRowNodes.length).map ValueId.mk) =
      .ok (env.insertFrom 2 staticRowValues) :=
    evalFrom_staticRow (Draft.node?_takingAs _ _) hinput.declares.2 hweight.declares.2
  have heval' : (Draft.takingAs [openRow, triplingKernel.type] openRowNodes).graph.evalFrom
      (.takingIn [shortRow, triplingKernel]) env'
      ((List.range' 2 openRowNodes.length).map ValueId.mk) =
      .ok (env'.insertFrom 2 openRowValues) :=
    evalFrom_openRow (Draft.node?_takingAs _ _) hinput'.declares.2 hweight'.declares.2
  have htensors : ∀ t ∈ [shortRow, triplingKernel], (Value.tensor t).Small := by decide +kernel
  have hsmall := everyValue_takingAs (by decide) h run_staticRow heval (by decide) htensors
    (by decide +kernel)
  have hsmall' := everyValue_takingAs (by decide) h' run_openRow heval' (by decide) htensors
    (by decide +kernel)
  have hvalue : ((Draft.takingAs [shortRow.type, triplingKernel.type]
      staticRowNodes).commit.withOutputs [⟨13⟩]).run (.takingIn [shortRow, triplingKernel]) =
        .ok [.tensor tripledRow] := by
    refine run_withOutputs ((evaluate_commit h run_staticRow).trans heval) ?_
    simp [Env.insertFrom, staticRowValues, Env.get?_insert]
  have hfits : ¬ TooLarge shortRow.shape := by decide
  have hkernelFits : ¬ TooLarge triplingKernel.shape := by decide
  have hop : (Graph.takingAs [shortRow.type, triplingKernel.type]).Convolves env
      (unitConvolution false) shortRow triplingKernel none none none :=
    ⟨hinput, hweight, .none, hfits, hkernelFits⟩
  have hop' : (Graph.takingAs [openRow, triplingKernel.type]).Convolves env'
      (unitConvolution false) shortRow triplingKernel none none none :=
    ⟨hinput', hweight', .none, hfits, hkernelFits⟩
  have hstatic : (Graph.takingAs [shortRow.type, triplingKernel.type]).IsStatic
      (unitConvolution false).input := fun x hx => by cases hx; rfl
  have hkernel : (Graph.takingAs [shortRow.type, triplingKernel.type]).IsStatic
      (unitConvolution false).weight := fun x hx => by cases hx; rfl
  have hopens : openRow.Opens shortRow.type :=
    ⟨rfl, .cons (.inl rfl) (.cons (.inr rfl) (.cons (.inr rfl) .nil))⟩
  have hagree := open_sizes_agree h h' hop hop' hstatic hkernel hopens run_staticRow run_openRow
    hsmall hsmall' hvalue
  exact ⟨⟨13⟩, ⟨23⟩, _, _, run_staticRow, run_openRow, hvalue, hagree⟩

end OpenRow

end Rule

end TensorLowering
