import TensorLowering.Proofs.Convolution.OpenSizes

/-!
# Choice of the kernel

Which kernel a configuration prefers does not change what a lowered convolution computes, as long as
no size is too large for a double.
-/
namespace TensorLowering

open Numeric NdArray Stage Build

namespace Rule

variable {g : Graph} {supply : Supply} {op : Convolution} {result : TensorType}
  {config config' : LoweringConfig} {v v' : ValueId} {d d' : Draft}

/-- Where every size of the operands is declared, the programs that two configurations give both
fail or both return the same tensor. -/
theorem kernel_choices_agree (hverify : g.verify = .ok ())
    (hop : ∀ env, g.evaluate supply = .ok env →
      ∃ x w zx zw bias, g.Convolves env op x w zx zw bias)
    (hinput : g.IsStatic op.input) (hweight : g.IsStatic op.weight)
    (hrun : (convolution.apply config (.convolution op) result).run (.ofGraph g) = (.ok v, d))
    (hrun' : (convolution.apply config' (.convolution op) result).run (.ofGraph g) = (.ok v', d'))
    (hsmall : d.commit.EveryValue supply Value.Small)
    (hsmall' : d'.commit.EveryValue supply Value.Small) :
    (∃ e e', (d.commit.withOutputs [v]).run supply = .error e ∧
        (d'.commit.withOutputs [v']).run supply = .error e') ∨
      ∃ t, (d.commit.withOutputs [v]).run supply = .ok [.tensor t] ∧
        (d'.commit.withOutputs [v']).run supply = .ok [.tensor t] := by
  cases h : g.evaluate supply with
  | error e =>
      exact .inl ⟨e, e, run_withOutputs_of_error (evaluate_commit_of_error hverify h hrun),
        run_withOutputs_of_error (evaluate_commit_of_error hverify h hrun')⟩
  | ok env =>
      obtain ⟨x, w, zx, zw, bias, hop⟩ := hop env h
      have hopens := TensorType.Opens.refl result
      rcases hop.fails_or_gives h hinput hweight hrun hsmall with
        ⟨e, herror⟩ | ⟨s, t, hgives, hget, hreturns⟩
      · rcases hop.fails_or_gives h hinput hweight hrun' hsmall' with
          ⟨e', herror'⟩ | ⟨s, t, hgives, hget, hreturns⟩
        · exact .inl ⟨e, e', herror, herror'⟩
        · cases herror.symm.trans (hop.run_eq h hgives hget hopens hrun hsmall)
      · exact .inr ⟨t, hreturns, hop.run_eq h hgives hget hopens hrun' hsmall'⟩

/-! ## Two channels -/

section TwoChannels

/-- Two channels of planes of height `h`, each with a filter of one element, and steps of `stride`
down the planes. -/
def channelConvolution (stride : Int) : Convolution :=
  ⟨⟨0⟩, ⟨1⟩, none, .const [stride, 1], .const [0, 0], .const [1, 1], .const [0, 0], .const false,
    .const 2⟩

def groupedConfig : LoweringConfig := { LoweringConfig.standard with preferDepthwise := false }

/-- The nodes that the rule creates for either kernel: the sizes of the operands, those of an output
of height `out`, and its initial tensor. -/
def channelNodes (b h w out : Nat) : List Node :=
  [⟨.constant (.int b), .index⟩, ⟨.constant (.int 2), .index⟩, ⟨.constant (.int h), .index⟩,
    ⟨.constant (.int w), .index⟩, ⟨.constant (.int 2), .index⟩, ⟨.constant (.int 1), .index⟩,
    ⟨.constant (.int 1), .index⟩, ⟨.constant (.int 1), .index⟩, ⟨.constant (.int 2), .index⟩,
    ⟨.constant (.zero .float32), .scalar .float32⟩, ⟨.constant (.int out), .index⟩,
    ⟨.constant (.int w), .index⟩, ⟨.constant (.zero .float32), .scalar .float32⟩,
    ⟨.fill [⟨2⟩, ⟨6⟩, ⟨12⟩, ⟨13⟩] ⟨14⟩, .tensor ⟨.float32, .ofSizes [b, 2, out, w]⟩⟩]

def depthwiseSpec (stride : Int) : ReductionSpec :=
  .named (.conv ⟨.depthwise .channelFirst, [stride, 1], [1, 1], false⟩)

def depthwiseNodes (b h w out : Nat) (stride : Int) : List Node :=
  channelNodes b h w out ++
    [⟨.collapseShape ⟨1⟩ (.foldRange 4 0 2), .tensor ⟨.float32, .ofSizes [2, 1, 1]⟩⟩,
      ⟨.reduce (depthwiseSpec stride) ⟨0⟩ ⟨16⟩ none ⟨15⟩,
        .tensor ⟨.float32, .ofSizes [b, 2, out, w]⟩⟩]

def groupedSpec (stride : Int) : ReductionSpec :=
  .named (.conv ⟨.grouped, [stride, 1], [1, 1], false⟩)

/-- The channels of each operand and of the initial tensor are split into the groups. -/
def groupedNodes (b h w out : Nat) (stride : Int) : List Node :=
  channelNodes b h w out ++
    [⟨.constant (.int 2), .index⟩, ⟨.constant (.int b), .index⟩, ⟨.constant (.int 2), .index⟩,
      ⟨.constant (.int h), .index⟩, ⟨.constant (.int w), .index⟩, ⟨.constant (.int 1), .index⟩,
      ⟨.expandShape ⟨0⟩ (.foldRange 5 1 3) [⟨17⟩, ⟨16⟩, ⟨21⟩, ⟨19⟩, ⟨20⟩],
        .tensor ⟨.float32, .ofSizes [b, 2, 1, h, w]⟩⟩,
      ⟨.constant (.int b), .index⟩, ⟨.constant (.int 2), .index⟩, ⟨.constant (.int out), .index⟩,
      ⟨.constant (.int w), .index⟩, ⟨.constant (.int 1), .index⟩,
      ⟨.expandShape ⟨15⟩ (.foldRange 5 1 3) [⟨23⟩, ⟨16⟩, ⟨27⟩, ⟨25⟩, ⟨26⟩],
        .tensor ⟨.float32, .ofSizes [b, 2, 1, out, w]⟩⟩,
      ⟨.constant (.int 2), .index⟩, ⟨.constant (.int 1), .index⟩, ⟨.constant (.int 1), .index⟩,
      ⟨.constant (.int 1), .index⟩, ⟨.constant (.int 1), .index⟩,
      ⟨.expandShape ⟨1⟩ (.foldRange 5 0 2) [⟨16⟩, ⟨33⟩, ⟨30⟩, ⟨31⟩, ⟨32⟩],
        .tensor ⟨.float32, .ofSizes [2, 1, 1, 1, 1]⟩⟩,
      ⟨.reduce (groupedSpec stride) ⟨22⟩ ⟨34⟩ none ⟨28⟩,
        .tensor ⟨.float32, .ofSizes [b, 2, 1, out, w]⟩⟩,
      ⟨.collapseShape ⟨35⟩ (.foldRange 5 1 3), .tensor ⟨.float32, .ofSizes [b, 2, out, w]⟩⟩]

/-- Two rows, one of each channel. -/
def channelRows : Tensor :=
  .ofEntries .float32 [1, 2, 1, 2] fun ix => .ofInt (1 + 2 * ix.getD 1 0 + ix.getD 3 0)

def channelFilters : Tensor := .ofEntries .float32 [2, 1, 1, 1] fun ix => .ofInt (2 + ix.getD 0 0)

def filteredRows : Tensor :=
  .ofEntries .float32 [1, 2, 1, 2] fun ix =>
    .ofInt ((2 + ix.getD 1 0) * (1 + 2 * ix.getD 1 0 + ix.getD 3 0))

theorem run_depthwiseRows :
    (convolution.apply .standard (.convolution (channelConvolution 1)) channelRows.type).run
      (.ofGraph (.takingAs [channelRows.type, channelFilters.type])) =
      (.ok ⟨17⟩, .takingAs [channelRows.type, channelFilters.type] (depthwiseNodes 1 1 2 1 1)) := by
  rfl

theorem run_groupedRows :
    (convolution.apply groupedConfig (.convolution (channelConvolution 1)) channelRows.type).run
      (.ofGraph (.takingAs [channelRows.type, channelFilters.type])) =
      (.ok ⟨36⟩, .takingAs [channelRows.type, channelFilters.type] (groupedNodes 1 1 2 1 1)) := by
  rfl

def blankRows : Tensor := .ofEntries .float32 [1, 2, 1, 2] fun _ => 0

/-- What the nodes of both kernels evaluate to. -/
def rowValues : List Value :=
  [.index 1, .index 2, .index 1, .index 2, .index 2, .index 1, .index 1, .index 1, .index 2,
    .scalar .float32 0, .index 1, .index 2, .scalar .float32 0, .tensor blankRows]

def foldedFilters : Tensor := .ofEntries .float32 [2, 1, 1] fun ix => .ofInt (2 + ix.getD 0 0)

def depthwiseValues : List Value := rowValues ++ [.tensor foldedFilters, .tensor filteredRows]

def splitRows : Tensor :=
  .ofEntries .float32 [1, 2, 1, 1, 2] fun ix => .ofInt (1 + 2 * ix.getD 1 0 + ix.getD 4 0)

def splitBlank : Tensor := .ofEntries .float32 [1, 2, 1, 1, 2] fun _ => 0

def splitFilters : Tensor := .ofEntries .float32 [2, 1, 1, 1, 1] fun ix => .ofInt (2 + ix.getD 0 0)

def splitOutput : Tensor :=
  .ofEntries .float32 [1, 2, 1, 1, 2] fun ix =>
    .ofInt ((2 + ix.getD 1 0) * (1 + 2 * ix.getD 1 0 + ix.getD 4 0))

def groupedValues : List Value :=
  rowValues ++
    [.index 2, .index 1, .index 2, .index 1, .index 2, .index 1, .tensor splitRows, .index 1,
      .index 2, .index 1, .index 2, .index 1, .tensor splitBlank, .index 2, .index 1, .index 1,
      .index 1, .index 1, .tensor splitFilters, .tensor splitOutput, .tensor filteredRows]

theorem reduce_depthwiseRows : ∃ ix, (depthwiseSpec 1).indexing? = some ix ∧
    NdArray.reduce ix (depthwiseSpec 1).combine (channelRows.widened (depthwiseSpec 1).cast)
      (foldedFilters.widened (depthwiseSpec 1).cast) (0, 0) blankRows.data =
        .ok filteredRows.data :=
  ⟨_, rfl, by decide +kernel⟩

theorem reduce_groupedRows : ∃ ix, (groupedSpec 1).indexing? = some ix ∧
    NdArray.reduce ix (groupedSpec 1).combine (splitRows.widened (groupedSpec 1).cast)
      (splitFilters.widened (groupedSpec 1).cast) (0, 0) splitBlank.data = .ok splitOutput.data :=
  ⟨_, rfl, by decide +kernel⟩

theorem zeroPointsOf_depthwiseSpec (env : Env) (stride : Int) :
    zeroPointsOf env (depthwiseSpec stride) none = .ok (0, 0) := rfl

theorem zeroPointsOf_groupedSpec (env : Env) (stride : Int) :
    zeroPointsOf env (groupedSpec stride) none = .ok (0, 0) := rfl

theorem evalFrom_depthwiseRows {g : Graph} {env : Env} (supply : Supply)
    (hg : ∀ i, g.node? ⟨i + 2⟩ = (depthwiseNodes 1 1 2 1 1)[i]?)
    (hx : env.get? ⟨0⟩ = some (.tensor channelRows))
    (hw : env.get? ⟨1⟩ = some (.tensor channelFilters)) :
    g.evalFrom supply env ((List.range' 2 (depthwiseNodes 1 1 2 1 1).length).map ValueId.mk) =
      .ok (env.insertFrom 2 depthwiseValues) := by
  obtain ⟨ix, hix, hreduce⟩ := reduce_depthwiseRows
  have hfill : arrayResult (.tensor ⟨.float32, .ofSizes [1, 2, 1, 2]⟩) (fill [1, 2, 1, 2] 0) =
    .ok (.tensor blankRows) := by decide +kernel
  have hrank : channelFilters.data.rank = 4 := by decide +kernel
  have hfold : arrayResult (.tensor ⟨.float32, .ofSizes [2, 1, 1]⟩)
    (channelFilters.data.reshape [2, 1, 1]) = .ok (.tensor foldedFilters) := by decide +kernel
  have hresult : arrayResult (.tensor ⟨.float32, .ofSizes [1, 2, 1, 2]⟩) (.ok filteredRows.data) =
    .ok (.tensor filteredRows) := by decide +kernel
  have hcheck : (Reassociation.foldRange 4 0 2).check 4 = .ok () := by decide
  have hshape : ((Reassociation.foldRange 4 0 2).groups.map fun axes =>
    volume (axes.map fun axis => channelFilters.shape[axis]?.getD 1)) = [2, 1, 1] := by decide
  simp [Graph.evalFrom, Graph.evalStep, hg, depthwiseNodes, channelNodes, depthwiseValues,
    rowValues, List.range', Env.insertFrom, evalNode, Bind.bind, Except.bind, Pure.pure,
    Except.pure, Env.get, Env.get?_insert, Env.sizes, Env.index, Env.number, Env.tensor,
    Value.toTensor, Value.roundedScalar, Scalar.toDouble_zero, DType.round_zero, toInt64_one,
    toInt64_two, hfill, zeroPointsOf_depthwiseSpec, hix, hreduce, hresult, hrank, hcheck, hshape,
    hfold, Except.mapError, hx, hw]

theorem evalFrom_groupedRows {g : Graph} {env : Env} (supply : Supply)
    (hg : ∀ i, g.node? ⟨i + 2⟩ = (groupedNodes 1 1 2 1 1)[i]?)
    (hx : env.get? ⟨0⟩ = some (.tensor channelRows))
    (hw : env.get? ⟨1⟩ = some (.tensor channelFilters)) :
    g.evalFrom supply env ((List.range' 2 (groupedNodes 1 1 2 1 1).length).map ValueId.mk) =
      .ok (env.insertFrom 2 groupedValues) := by
  obtain ⟨ix, hix, hreduce⟩ := reduce_groupedRows
  have hfill : arrayResult (.tensor ⟨.float32, .ofSizes [1, 2, 1, 2]⟩) (fill [1, 2, 1, 2] 0) =
    .ok (.tensor blankRows) := by decide +kernel
  have hrows : arrayResult (.tensor ⟨.float32, .ofSizes [1, 2, 1, 1, 2]⟩)
    (channelRows.data.reshape [1, 2, 1, 1, 2]) = .ok (.tensor splitRows) := by decide +kernel
  have hblank : arrayResult (.tensor ⟨.float32, .ofSizes [1, 2, 1, 1, 2]⟩)
    (blankRows.data.reshape [1, 2, 1, 1, 2]) = .ok (.tensor splitBlank) := by decide +kernel
  have hfilters : arrayResult (.tensor ⟨.float32, .ofSizes [2, 1, 1, 1, 1]⟩)
    (channelFilters.data.reshape [2, 1, 1, 1, 1]) = .ok (.tensor splitFilters) := by
    decide +kernel
  have hsplit : arrayResult (.tensor ⟨.float32, .ofSizes [1, 2, 1, 1, 2]⟩)
    (.ok splitOutput.data) = .ok (.tensor splitOutput) := by decide +kernel
  have hrank : splitOutput.data.rank = 5 := by decide +kernel
  have hcheck : (Reassociation.foldRange 5 1 3).check 5 = .ok () := by decide
  have hshape : ((Reassociation.foldRange 5 1 3).groups.map fun axes =>
    volume (axes.map fun axis => splitOutput.shape[axis]?.getD 1)) = [1, 2, 1, 2] := by decide
  have hresult : arrayResult (.tensor ⟨.float32, .ofSizes [1, 2, 1, 2]⟩)
    (splitOutput.data.reshape [1, 2, 1, 2]) = .ok (.tensor filteredRows) := by decide +kernel
  simp [Graph.evalFrom, Graph.evalStep, hg, groupedNodes, channelNodes, groupedValues,
    rowValues, List.range', Env.insertFrom, evalNode, Bind.bind, Except.bind, Pure.pure,
    Except.pure, Env.get, Env.get?_insert, Env.sizes, Env.index, Env.number, Env.tensor,
    Value.toTensor, Value.roundedScalar, Scalar.toDouble_zero, DType.round_zero, toInt64_one,
    toInt64_two, hfill, hrows, hblank, hfilters, zeroPointsOf_groupedSpec, hix, hreduce, hsplit,
    hrank, hcheck, hshape, hresult, Except.mapError, hx, hw]

/-- Both kernels filter the rows alike. -/
theorem channel_kernels_agree : ∃ v v' d d',
    (convolution.apply .standard (.convolution (channelConvolution 1)) channelRows.type).run
      (.ofGraph (.takingAs [channelRows.type, channelFilters.type])) = (.ok v, d) ∧
    (convolution.apply groupedConfig (.convolution (channelConvolution 1)) channelRows.type).run
      (.ofGraph (.takingAs [channelRows.type, channelFilters.type])) = (.ok v', d') ∧
    (d.commit.withOutputs [v]).run (.takingIn [channelRows, channelFilters]) =
      .ok [.tensor filteredRows] ∧
    (d'.commit.withOutputs [v']).run (.takingIn [channelRows, channelFilters]) =
      .ok [.tensor filteredRows] := by
  have hverify : (Graph.takingAs [channelRows.type, channelFilters.type]).verify = .ok () := by
    decide
  obtain ⟨env, h, hoperand⟩ := Graph.operand_takingAs [channelRows.type, channelFilters.type]
    [channelRows, channelFilters] (by decide)
  have hinput := hoperand 0 channelRows rfl
  have hweight := hoperand 1 channelFilters rfl
  have hop : ∀ env', (Graph.takingAs [channelRows.type, channelFilters.type]).evaluate
      (.takingIn [channelRows, channelFilters]) = .ok env' → ∃ x w zx zw bias,
      (Graph.takingAs [channelRows.type, channelFilters.type]).Convolves env'
        (channelConvolution 1) x w zx zw bias := by
    intro env' h'
    obtain rfl := Except.ok.inj (h.symm.trans h')
    exact ⟨_, _, _, _, none, hinput, hweight, .none, by decide, by decide⟩
  have hstatic : (Graph.takingAs [channelRows.type, channelFilters.type]).IsStatic
      (channelConvolution 1).input := fun x hx => by cases hx; rfl
  have hkernel : (Graph.takingAs [channelRows.type, channelFilters.type]).IsStatic
      (channelConvolution 1).weight := fun x hx => by cases hx; rfl
  have heval := evalFrom_depthwiseRows (.takingIn [channelRows, channelFilters])
    (Draft.node?_takingAs [channelRows.type, channelFilters.type] _) hinput.declares.2
    hweight.declares.2
  have heval' := evalFrom_groupedRows (.takingIn [channelRows, channelFilters])
    (Draft.node?_takingAs [channelRows.type, channelFilters.type] _) hinput.declares.2
    hweight.declares.2
  have htensors : ∀ t ∈ [channelRows, channelFilters], (Value.tensor t).Small := by
    decide +kernel
  have hsmall := everyValue_takingAs (by decide) h run_depthwiseRows heval (by decide) htensors
    (by decide +kernel)
  have hsmall' := everyValue_takingAs (by decide) h run_groupedRows heval' (by decide) htensors
    (by decide +kernel)
  have hfiltered : ((Draft.takingAs [channelRows.type, channelFilters.type]
      (depthwiseNodes 1 1 2 1 1)).commit.withOutputs [⟨17⟩]).run
        (.takingIn [channelRows, channelFilters]) = .ok [.tensor filteredRows] := by
    refine run_withOutputs ((evaluate_commit h run_depthwiseRows).trans heval) ?_
    simp [Env.insertFrom, depthwiseValues, rowValues, Env.get?_insert]
  rcases kernel_choices_agree hverify hop hstatic hkernel run_depthwiseRows run_groupedRows hsmall
    hsmall' with ⟨e, -, herror, -⟩ | ⟨t, hvalue, hvalue'⟩
  · cases herror.symm.trans hfiltered
  · cases hvalue.symm.trans hfiltered
    exact ⟨_, _, _, _, run_depthwiseRows, run_groupedRows, hvalue, hvalue'⟩

/-! ## A height that is no double -/

/-- No samples of such planes. -/
def emptyPlanes : Tensor := .ofEntries .float32 [0, 2, 4611686018427387903, 1] fun _ => 0

def emptyOutput : Tensor := .ofEntries .float32 [0, 2, 2, 1] fun _ => 0

def emptySizes : ConvolutionSizes := ⟨0, 2, 1, 1, [4611686018427387903, 1], [1, 1]⟩

def emptyGeometry : ConvGeometry := ⟨[0, 0], [2305843009213693952, 1], [1, 1], [0, 0], 2, false⟩

theorem run_depthwisePlanes :
    (convolution.apply .standard (.convolution (channelConvolution 2305843009213693952))
        emptyOutput.type).run (.ofGraph (.takingIn [emptyPlanes, channelFilters])) =
      (.ok ⟨17⟩, .takingAs [emptyPlanes.type, channelFilters.type]
        (depthwiseNodes 0 4611686018427387903 1 2 2305843009213693952)) := by
  rfl

theorem run_groupedPlanes :
    (convolution.apply groupedConfig (.convolution (channelConvolution 2305843009213693952))
        emptyOutput.type).run (.ofGraph (.takingIn [emptyPlanes, channelFilters])) =
      (.ok ⟨36⟩, .takingAs [emptyPlanes.type, channelFilters.type]
        (groupedNodes 0 4611686018427387903 1 2 2305843009213693952)) := by
  rfl

theorem run_emptyPlanes_depthwise :
    ((Draft.takingAs [emptyPlanes.type, channelFilters.type]
      (depthwiseNodes 0 4611686018427387903 1 2 2305843009213693952)).commit.withOutputs
        [⟨17⟩]).run (.takingIn [emptyPlanes, channelFilters]) = .ok [.tensor emptyOutput] := by
  obtain ⟨env, h, hplain⟩ := Graph.evaluate_takingIn [emptyPlanes, channelFilters]
  have hop : Graph.HasConvolution (.takingIn [emptyPlanes, channelFilters]) env
      (channelConvolution 2305843009213693952) emptyGeometry emptyPlanes channelFilters 2 none :=
    ⟨hplain 0 _ rfl, hplain 1 _ rfl, .none, rfl⟩
  have hc : emptySizes.Describes emptyGeometry emptyPlanes channelFilters :=
    ⟨rfl, rfl, rfl, rfl, rfl⟩
  have hout : emptyGeometry.outputs? emptySizes.input emptySizes.kernel = some [2, 1] := by
    decide
  have hfits : emptySizes.Fits emptyGeometry := by
    refine ⟨by decide, by decide, fun out h => ?_⟩
    cases hout.symm.trans h
    decide
  have hexact : emptySizes.Exact emptyGeometry .standard := by
    refine ⟨fun out h => ?_, fun _ hdepth => absurd ⟨rfl, rfl, rfl⟩ hdepth⟩
    cases hout.symm.trans h
    decide +kernel
  obtain ⟨acc, out, hacc, hsizes, -, hvalue⟩ :=
    convolution_computes .standard h hop hc hfits hexact run_depthwisePlanes
  cases hout.symm.trans hsizes
  cases hacc
  rw [hvalue]
  exact congrArg (fun t => Except.ok [Value.tensor t]) (by decide +kernel)

/-- The height of the planes is read back from a double when their channels are split. -/
theorem evalFrom_groupedPlanes {g : Graph} {env : Env} (supply : Supply)
    (hg : ∀ i, g.node? ⟨i + 2⟩ =
      (groupedNodes 0 4611686018427387903 1 2 2305843009213693952)[i]?)
    (hx : env.get? ⟨0⟩ = some (.tensor emptyPlanes)) :
    g.evalFrom supply env ((List.range' 2
        (groupedNodes 0 4611686018427387903 1 2 2305843009213693952).length).map ValueId.mk) =
      .error (.array (.cannotReshape [0, 2, 4611686018427387903, 1]
        [0, 2, 1, 4611686018427387904, 1])) := by
  have hheight : (Scalar.int 4611686018427387903).toDouble.toInt64 = 4611686018427387904 := by
    decide +kernel
  have hfill : arrayResult (.tensor ⟨.float32, .ofSizes [0, 2, 2, 1]⟩) (fill [0, 2, 2, 1] 0) =
    .ok (.tensor emptyOutput) := by decide +kernel
  have hsplit : emptyPlanes.data.reshape [0, 2, 1, 4611686018427387904, 1] =
    .error (.cannotReshape [0, 2, 4611686018427387903, 1] [0, 2, 1, 4611686018427387904, 1]) := by
    decide +kernel
  simp [Graph.evalFrom, Graph.evalStep, hg, groupedNodes, channelNodes, List.range', evalNode,
    Bind.bind, Except.bind, Pure.pure, Except.pure, Env.get, Env.get?_insert, Env.sizes, Env.index,
    Env.number, Env.tensor, Value.toTensor, Value.roundedScalar, Scalar.toDouble_zero,
    DType.round_zero, toInt64_zero, toInt64_one, toInt64_two, hheight, hfill, hsplit,
    arrayResult_error, hx]

/-- Where a size is no double, one kernel fails and the other one does not. -/
theorem channel_kernels_differ : ∃ v v' d d' e,
    (convolution.apply .standard (.convolution (channelConvolution 2305843009213693952))
        emptyOutput.type).run (.ofGraph (.takingIn [emptyPlanes, channelFilters])) = (.ok v, d) ∧
      (convolution.apply groupedConfig (.convolution (channelConvolution 2305843009213693952))
        emptyOutput.type).run (.ofGraph (.takingIn [emptyPlanes, channelFilters])) = (.ok v', d') ∧
      (d.commit.withOutputs [v]).run (.takingIn [emptyPlanes, channelFilters]) =
        .ok [.tensor emptyOutput] ∧
      (d'.commit.withOutputs [v']).run (.takingIn [emptyPlanes, channelFilters]) = .error e := by
  obtain ⟨env, h, hplain⟩ := Graph.evaluate_takingIn [emptyPlanes, channelFilters]
  have heval := evalFrom_groupedPlanes (.takingIn [emptyPlanes, channelFilters])
    (Draft.node?_takingAs [emptyPlanes.type, channelFilters.type] _)
    (hplain 0 emptyPlanes rfl).get
  have hfails := (evaluate_commit h run_groupedPlanes).trans heval
  exact ⟨_, _, _, _, _, run_depthwisePlanes, run_groupedPlanes, run_emptyPlanes_depthwise,
    run_withOutputs_of_error hfails⟩

end TwoChannels

end Rule

end TensorLowering
