import TensorLowering.Conversion.RuleSet
import TensorLowering.Proofs.Convolution.KnownSizes
import TensorLowering.Proofs.Convolution.Standard
import TensorLowering.Proofs.MatrixProduct.KnownSizes
import TensorLowering.Proofs.Trilinear.Products

/-!
# Operators of which every size is declared

Sizes that must agree are compared while the program is built. Main statement: an operator on
operands of static types that a standard rule lowers runs without an error, as long as what no rule
compares fits, which are the channels and the bias of a convolution.
-/
namespace TensorLowering

open Numeric NdArray Stage Build

/-! ## Rules that look at axes only -/

namespace TrilinearAxes

/-- Attributes that are taken are constants. -/
theorem exists_of_plan {op : Trilinear} {rank : Nat} {p : TrilinearPlan}
    (h : TrilinearPlan.ofTrilinear op rank = .ok p) :
    ∃ axes : TrilinearAxes, op = axes.operator op.inputs := by
  have hconst : ∀ {α : Type} {attr : Attr α} {name : String} {a : α},
      attr.require name = .ok a → attr = .const a := by
    intro α attr name a ha
    cases attr with
    | const b => exact congrArg Attr.const (Except.ok.inj ha)
    | dynamic v => cases ha
  obtain ⟨inputs, ⟨expand1, expand2, expand3⟩, sumDim, unrollDim⟩ := op
  obtain ⟨first, hfirst, h⟩ := Except.bind_eq_ok.1 h
  obtain ⟨_, -, h⟩ := Except.bind_eq_ok.1 h
  obtain ⟨_, hsecond, h⟩ := Except.bind_eq_ok.1 h
  obtain ⟨_, hthird, h⟩ := Except.bind_eq_ok.1 h
  obtain ⟨_, hsummed, h⟩ := Except.bind_eq_ok.1 h
  obtain ⟨unroll, hunroll, -⟩ := Except.bind_eq_ok.1 h
  obtain ⟨second, hsecond, -⟩ := Except.bind_eq_ok.1 hsecond
  obtain ⟨third, hthird, -⟩ := Except.bind_eq_ok.1 hthird
  obtain ⟨summed, hsummed, -⟩ := Except.bind_eq_ok.1 hsummed
  obtain rfl := hconst hfirst
  obtain rfl := hconst hsecond
  obtain rfl := hconst hthird
  obtain rfl := hconst hsummed
  obtain rfl := hconst hunroll
  exact ⟨⟨⟨first, second, third⟩, summed, unroll⟩, rfl⟩

end TrilinearAxes

namespace Rule

variable {s : Stage} {result : TensorType}

theorem lowerFlip_known {op : Flip} {t : Tensor} (hv : s.Holds op.input t) :
    (lowerFlip op result).Gives (fun _ => True) s fun v s' =>
      ∃ t, s'.env.get? v = some (.tensor t) ∧ t.HasType result := by
  refine .attempt fun dims _ => .tensorType hv (.attempt fun axes haxes => ?_)
  obtain rfl := Axis.requireSet_eq haxes
  rw [Tensor.rank_type]
  refine Gives.bind (flip_gives hv fun axis haxis => (mem_namedAxes.1 haxis).1) ?_
  intro v s' _ hflipped
  refine (finish_gives hflipped (.inl fun _ => trivial)).weaken ?_
  rintro w s'' - ⟨hget, hadmits⟩
  exact ⟨_, hget, rfl, hadmits⟩

theorem lowerTrilinear_known {config : LoweringConfig} {op : Trilinear} {ts : Triple Tensor}
    (hin : s.HoldsAll op.inputs ts) (hfits : ∀ t ∈ ts.toList, ¬ TooLarge t.shape)
    (hexact : ∀ axes : TrilinearAxes, op = axes.operator op.inputs →
      ∀ f : TrilinearFactors (axes.plan ts.first.shape.length),
        f.tensors = (axes.plan ts.first.shape.length).aligned ts → f.Exact) :
    (lowerTrilinear config op result).Gives (fun _ => True) s fun v s' =>
      ∃ t, s'.env.get? v = some (.tensor t) ∧ t.HasType result := by
  by_cases hconst : ∃ axes : TrilinearAxes, op = axes.operator op.inputs
  · obtain ⟨axes, haxes⟩ := hconst
    rw [haxes]
    refine (axes.lower_gives config hin hfits (hexact axes haxes)).weaken ?_
    rintro v s' - ⟨f, n, -, -, -, hget, hadmits⟩
    exact ⟨_, hget, rfl, hadmits⟩
  · refine Gives.bind (TrilinearAxes.mapM_tensorType_gives hin) fun types s' _ _ => ?_
    exact .attempt fun p hp => absurd (TrilinearAxes.exists_of_plan hp) hconst

end Rule

/-! ## Operators -/

/-- The operand is declared with every size, and holds the tensor. -/
structure Graph.Known (g : Graph) (env : Env) (id : ValueId) (t : Tensor) (z : Option Binary64) :
    Prop where
  operand : g.Operand env id t z
  isStatic : g.IsStatic id

/-- The operands of an operator are declared with every size, and hold tensors that are not too
large. Doubles hold the sizes that are computed with them. -/
inductive Graph.Supplies (g : Graph) (env : Env) (config : LoweringConfig) : HostOp → Prop where
  | mm {operands : BinaryOperands} {a b : Tensor} {za zb : Option Binary64}
      (lhs : g.Known env operands.lhs a za) (rhs : g.Known env operands.rhs b zb)
      (exact : Factors.Countable a.shape b.shape) : g.Supplies env config (.mm operands)
  | matmul {operands : BinaryOperands} {a b : Tensor} {za zb : Option Binary64}
      (lhs : g.Known env operands.lhs a za) (rhs : g.Known env operands.rhs b zb)
      (exact : Factors.Countable a.shape b.shape) : g.Supplies env config (.matmul operands)
  | bmm {operands : BinaryOperands} {a b : Tensor} (lhs : g.Has env operands.lhs a)
      (rhs : g.Has env operands.rhs b) (exact : Factors.Countable a.shape b.shape) :
      g.Supplies env config (.bmm operands)
  | convolution {op : Convolution} {x w : Tensor} {zx zw : Option Binary64} {b : Option Tensor}
      (input : g.Known env op.input x zx) (weight : g.Known env op.weight w zw)
      (bias : Option.Rel (g.Has env) op.bias b) (inputFits : ¬ TooLarge x.shape)
      (weightFits : ¬ TooLarge w.shape)
      (suits : ∀ geo, ConvGeometry.ofConvolution op (x.shape.length - 2) = .ok geo →
        geo.Suits config x w b) : g.Supplies env config (.convolution op)
  | trilinear {op : Trilinear} {ts : Triple Tensor} (inputs : op.inputs.Related (g.Has env) ts)
      (fits : ∀ t ∈ ts.toList, ¬ TooLarge t.shape)
      (exact : ∀ axes : TrilinearAxes, op = axes.operator op.inputs →
        ∀ f : TrilinearFactors (axes.plan ts.first.shape.length),
          f.tensors = (axes.plan ts.first.shape.length).aligned ts → f.Exact) :
      g.Supplies env config (.trilinear op)
  | flip {op : Flip} {t : Tensor} (input : g.Has env op.input t) : g.Supplies env config (.flip op)

namespace RuleSet

variable {rule : Rule} {config : LoweringConfig} {op : HostOp} {result : TensorType} {g : Graph}
  {supply : Supply} {env : Env}

theorem holds_of_has (h : g.evaluate supply = .ok env) {v : ValueId} {t : Tensor}
    (hv : g.Has env v t) : (Stage.ofRun h).Holds v t := ⟨hv.type, hv.get⟩

/-- What the rule for an operator gives: nodes that have values, and a tensor of the declared
type. -/
theorem standard_gives (h : g.evaluate supply = .ok env) (hrule : rule ∈ standard.rules)
    (hop : g.Supplies env config op) :
    (rule.apply config op result).Gives (fun _ => True) (Stage.ofRun h) fun v s =>
      ∃ t, s.env.get? v = some (.tensor t) ∧ t.HasType result := by
  by_cases hkind : rule.kind = op.kind
  case neg =>
    rw [apply_eq_decline hrule hkind]
    exact trivial
  have hrule_eq : ∀ rule' ∈ standard.rules, rule'.kind = op.kind → rule = rule' :=
    fun rule' hrule' hkind' => eq_of_kind_eq hrule hrule' (hkind.trans hkind'.symm)
  have hreads : ∀ {id : ValueId} {t : Tensor} {z : Option Binary64}, g.Known env id t z →
      ∃ x, OperandInfo.extract g id = .ok x ∧ (Stage.ofRun h).Reads x t z ∧
        (Stage.ofRun h).Pinned x t := by
    intro id t z hknown
    obtain ⟨x, hextract, hx⟩ := hknown.operand.reads h
    exact ⟨x, hextract, hx, hx.pinned hextract hknown.isStatic⟩
  cases hop with
  | mm hlhs hrhs hexact =>
      obtain rfl := hrule_eq .mm (by simp [standard]) rfl
      obtain ⟨x, hxi, hx, hxp⟩ := hreads hlhs
      obtain ⟨y, hyi, hy, hyp⟩ := hreads hrhs
      refine (Rule.lowerMm_known config hxi hyi hx hy hxp hyp hexact).weaken ?_
      rintro v s - ⟨cast, p, acc, -, -, -, hadmits, hget⟩
      exact ⟨_, hget, rfl, hadmits⟩
  | matmul hlhs hrhs hexact =>
      obtain rfl := hrule_eq .matmul (by simp [standard]) rfl
      obtain ⟨x, hxi, hx, hxp⟩ := hreads hlhs
      obtain ⟨y, hyi, hy, hyp⟩ := hreads hrhs
      refine (Rule.lowerMatmul_known hxi hyi hx hy hxp hyp hexact).weaken ?_
      rintro v s - ⟨p, acc, -, -, -, hadmits, hget⟩
      exact ⟨_, hget, rfl, hadmits⟩
  | bmm hlhs hrhs hexact =>
      obtain rfl := hrule_eq .bmm (by simp [standard]) rfl
      exact Rule.lowerBmm_known (holds_of_has h hlhs) (holds_of_has h hrhs) hexact
  | convolution hinput hweight hbias hxfits hwfits hsuits =>
      obtain rfl := hrule_eq .convolution (by simp [standard]) rfl
      obtain ⟨x, hxi, hx, hxp⟩ := hreads hinput
      obtain ⟨w, hwi, hw, hwp⟩ := hreads hweight
      exact Rule.lowerConvolution_known hxi hwi hx hw hxp hwp
        (rel_imp (fun _ _ hb => holds_of_has h hb) hbias) hxfits hwfits hsuits
  | trilinear hinputs hfits hexact =>
      obtain rfl := hrule_eq .trilinear (by simp [standard]) rfl
      exact Rule.lowerTrilinear_known ⟨holds_of_has h hinputs.first,
        holds_of_has h hinputs.second, holds_of_has h hinputs.third⟩ hfits hexact
  | flip hinput =>
      obtain rfl := hrule_eq .flip (by simp [standard]) rfl
      exact Rule.lowerFlip_known (holds_of_has h hinput)

/-- An operator that is lowered runs without an error and returns a tensor of the declared type. -/
theorem standard_runs (h : g.evaluate supply = .ok env) (hrule : rule ∈ standard.rules)
    (hop : g.Supplies env config op) {v : ValueId} {d : Draft}
    (hrun : (rule.apply config op result).run (.ofGraph g) = (.ok v, d)) :
    ∃ t : Tensor, t.HasType result ∧
      (d.commit.withOutputs [v]).run supply = .ok [.tensor t] := by
  obtain ⟨s, ⟨t, hget, htype⟩, heval⟩ := (standard_gives h hrule hop).of_run h hrun
  exact ⟨t, htype, run_withOutputs heval hget⟩

end RuleSet

section Grouped

/-- The sizes that a convolution in two groups can have. -/
theorem eq_pairedChannels {geo : ConvGeometry} (hgroups : geo.groups = 2)
    (hstandard : geo.transposed = false) {c : ConvolutionSizes}
    (hc : c.Arranges geo pairedInput pairedWeight) : c = pairedChannels := by
  obtain ⟨batch, groups, channels, filters, input, kernel⟩ := c
  obtain ⟨hgroups', -, hinput, hweight⟩ := hc
  obtain rfl : groups = 2 := Int.ofNat_inj.1 (hgroups'.symm.trans hgroups)
  rw [hstandard] at hweight
  change [1, 2, 3] = batch :: 2 * channels :: input at hinput
  change [2, 1, 2] = 2 * filters :: channels :: kernel at hweight
  simp only [List.cons.injEq] at hinput hweight
  obtain ⟨rfl, -, rfl⟩ := hinput
  obtain ⟨hfilters, rfl, rfl⟩ := hweight
  obtain rfl : filters = 1 := by omega
  rfl

theorem paired_suits :
    pairedGeometry.Suits .standard pairedInput pairedWeight (some pairedBias) := by
  have hout : pairedGeometry.outputs? pairedChannels.input pairedChannels.kernel = some [2] := by
    decide
  refine ⟨rfl, ?_, fun c hc => ?_, fun c hc => ?_⟩
  · rintro b ⟨⟩ m hm
    cases hm
    exact .inr rfl
  · obtain rfl := eq_pairedChannels rfl rfl hc
    refine ⟨by decide, by decide, fun out h => ?_⟩
    cases hout.symm.trans h
    decide
  · obtain rfl := eq_pairedChannels rfl rfl hc
    refine ⟨fun out h => ?_, fun _ hdepth => absurd ⟨rfl, rfl, rfl⟩ hdepth⟩
    cases hout.symm.trans h
    decide +kernel

theorem standard_runs_paired : ∃ v d t,
    (Rule.convolution.apply .standard (.convolution pairedConvolution)
        ⟨.float32, .ofSizes [1, 2, 2]⟩).run
      (.ofGraph (.takingIn [pairedInput, pairedWeight, pairedBias])) = (.ok v, d) ∧
    t.HasType ⟨.float32, .ofSizes [1, 2, 2]⟩ ∧
    (d.commit.withOutputs [v]).run (.takingIn [pairedInput, pairedWeight, pairedBias]) =
      .ok [.tensor t] := by
  obtain ⟨env, h, hplain⟩ := Graph.evaluate_takingIn [pairedInput, pairedWeight, pairedBias]
  have hknown : ∀ i t, [pairedInput, pairedWeight, pairedBias][i]? = some t →
      (Graph.takingIn [pairedInput, pairedWeight, pairedBias]).Known env ⟨i⟩ t none := by
    intro i t ht
    obtain ⟨hextract, hget⟩ := hplain i t ht
    refine ⟨⟨_, hextract, t.hasType_type, hget, .none⟩, fun x hx => ?_⟩
    cases hextract.symm.trans hx
    exact List.all_eq_true.2 (by simp [Tensor.type, Shape.ofSizes, Dim.isStatic])
  have hbias := hplain 2 pairedBias rfl
  have hop : Graph.Supplies (.takingIn [pairedInput, pairedWeight, pairedBias]) env .standard
      (.convolution pairedConvolution) := by
    refine .convolution (hknown 0 _ rfl) (hknown 1 _ rfl) (.some ⟨rfl, hbias.get⟩) (by decide)
      (by decide) fun geo hgeo => ?_
    cases hgeo
    exact paired_suits
  obtain ⟨v, d, hrun⟩ : ∃ v d, (Rule.convolution.apply .standard (.convolution pairedConvolution)
      ⟨.float32, .ofSizes [1, 2, 2]⟩).run
        (.ofGraph (.takingIn [pairedInput, pairedWeight, pairedBias])) = (.ok v, d) := ⟨_, _, rfl⟩
  obtain ⟨t, htype, hvalue⟩ :=
    RuleSet.standard_runs h (by simp [RuleSet.standard]) hop hrun
  exact ⟨v, d, t, hrun, htype, hvalue⟩

end Grouped

/-! ## What no rule compares -/

section Unchecked

/-- The rule lowers the operator on tensors whose types say every size, and the lowered program
stops with an error. -/
def Rule.FailsOn (rule : Rule) (op : HostOp) (result : TensorType) (ts : List Tensor) : Prop :=
  ∃ v d, (rule.apply .standard op result).run (.ofGraph (.takingIn ts)) = (.ok v, d) ∧
    ∃ e, (d.commit.withOutputs [v]).run (.takingIn ts) = .error e

/-- The created nodes stop the program. -/
theorem Rule.failsOn_of_evalFrom {rule : Rule} {op : HostOp} {result : TensorType}
    {ts : List Tensor} {v : ValueId} {d : Draft} {e : EvalError}
    (hrun : (rule.apply .standard op result).run (.ofGraph (.takingIn ts)) = (.ok v, d))
    (heval : ∀ env : Env, (∀ i t, ts[i]? = some t → env.get? ⟨i⟩ = some (.tensor t)) →
      d.graph.evalFrom (.takingIn ts) env d.created.toList = .error e) :
    rule.FailsOn op result ts := by
  obtain ⟨env, h, hplain⟩ := Graph.evaluate_takingIn ts
  have herror := (evaluate_commit h hrun).trans (heval env fun i t ht => (hplain i t ht).get)
  exact ⟨v, d, hrun, e, run_withOutputs_of_error herror⟩

/-- A sample with two channels, and a filter for one. -/
def twoChannels : Tensor := .ofEntries .float32 [1, 2, 1] fun _ => 0

def oneChannel : Tensor := .ofEntries .float32 [1, 1, 1] fun _ => 0

/-- The nodes that the rule creates for them. -/
def uncheckedNodes : List Node :=
  [⟨.constant (.int 1), .index⟩, ⟨.constant (.int 2), .index⟩, ⟨.constant (.int 1), .index⟩,
    ⟨.constant (.int 1), .index⟩, ⟨.constant (.int 1), .index⟩, ⟨.constant (.int 1), .index⟩,
    ⟨.constant (.int 1), .index⟩, ⟨.constant (.zero .float32), .scalar .float32⟩,
    ⟨.constant (.int 1), .index⟩, ⟨.constant (.zero .float32), .scalar .float32⟩,
    ⟨.fill [⟨2⟩, ⟨5⟩, ⟨10⟩] ⟨11⟩, .tensor ⟨.float32, .ofSizes [1, 1, 1]⟩⟩,
    ⟨.reduce (.named (.conv ⟨.standard .channelFirst, [1], [1], false⟩)) ⟨0⟩ ⟨1⟩ none ⟨12⟩,
      .tensor ⟨.float32, .ofSizes [1, 1, 1]⟩⟩]

theorem run_unchecked :
    (Rule.convolution.apply .standard (.convolution (unitConvolution false))
        ⟨.float32, .ofSizes [1, 1, 1]⟩).run (.ofGraph (.takingIn [twoChannels, oneChannel])) =
      (.ok ⟨13⟩, ⟨⟨(Graph.takingIn [twoChannels, oneChannel]).nodes ++ uncheckedNodes,
        [⟨0⟩, ⟨1⟩], []⟩, 2,
        #[⟨2⟩, ⟨3⟩, ⟨4⟩, ⟨5⟩, ⟨6⟩, ⟨7⟩, ⟨8⟩, ⟨9⟩, ⟨10⟩, ⟨11⟩, ⟨12⟩, ⟨13⟩]⟩) := by
  rfl

theorem reduce_unchecked {ix : Indexing}
    (hix : (NamedKernel.conv ⟨.standard .channelFirst, [1], [1], false⟩).indexing? = some ix) :
    NdArray.reduce ix .mulAdd (twoChannels.widened .signed) (oneChannel.widened .signed) (0, 0)
      oneChannel.data = .error (.loopClash 3 2 1) := by
  cases hix
  rfl

variable {g : Graph} {supply : Supply} {env : Env}

/-- The kernel finds that the channels differ. -/
theorem evalFrom_unchecked (hg : ∀ i, g.node? ⟨i + 2⟩ = uncheckedNodes[i]?)
    (hx : env.get? ⟨0⟩ = some (.tensor twoChannels))
    (hw : env.get? ⟨1⟩ = some (.tensor oneChannel)) :
    g.evalFrom supply env
        [⟨2⟩, ⟨3⟩, ⟨4⟩, ⟨5⟩, ⟨6⟩, ⟨7⟩, ⟨8⟩, ⟨9⟩, ⟨10⟩, ⟨11⟩, ⟨12⟩, ⟨13⟩] =
      .error (.array (.loopClash 3 2 1)) := by
  obtain ⟨ix, hix⟩ : ∃ ix, (NamedKernel.conv ⟨.standard .channelFirst, [1], [1], false⟩).indexing? =
    some ix := ⟨_, rfl⟩
  have hspec : (ReductionSpec.named (.conv ⟨.standard .channelFirst, [1], [1], false⟩)).indexing? =
    some ix := hix
  have hpoints : ∀ e, zeroPointsOf e (.named (.conv ⟨.standard .channelFirst, [1], [1], false⟩))
    none = .ok (0, 0) := fun _ => rfl
  have hcombine : (ReductionSpec.named
    (.conv ⟨.standard .channelFirst, [1], [1], false⟩)).combine = .mulAdd := rfl
  have hcast : (ReductionSpec.named
    (.conv ⟨.standard .channelFirst, [1], [1], false⟩)).cast = .signed := rfl
  have hfill : arrayResult (.tensor ⟨.float32, .ofSizes [1, 1, 1]⟩) (fill [1, 1, 1] 0) =
      .ok (.tensor oneChannel) := arrayResult_fill (by decide)
  simp [Graph.evalFrom, Graph.evalStep, hg, uncheckedNodes, evalNode, Bind.bind, Except.bind,
    Pure.pure, Except.pure, Env.get, Env.get?_insert, Env.sizes, Env.index, Env.number, Env.tensor,
    Value.toTensor, Value.roundedScalar, Scalar.toDouble_zero, DType.round_zero, toInt64_one, hfill,
    hx, hw, hspec, hpoints, hcombine, hcast, reduce_unchecked hix, arrayResult_error]

/-- A bias for two filters. -/
def twoBiases : Tensor := .ofEntries .float32 [2] fun _ => 0

def biasedConvolution : Convolution := { unitConvolution false with bias := some ⟨2⟩ }

/-- The nodes that the rule creates for the bias and one filter. -/
def biasedNodes : List Node :=
  [⟨.constant (.int 1), .index⟩, ⟨.constant (.int 1), .index⟩, ⟨.constant (.int 1), .index⟩,
    ⟨.constant (.int 1), .index⟩, ⟨.constant (.int 1), .index⟩, ⟨.constant (.int 1), .index⟩,
    ⟨.constant (.int 1), .index⟩, ⟨.constant (.zero .float32), .scalar .float32⟩,
    ⟨.constant (.int 1), .index⟩,
    ⟨.broadcast ⟨2⟩ [⟨3⟩, ⟨6⟩, ⟨11⟩] [0, 2], .tensor ⟨.float32, .ofSizes [1, 1, 1]⟩⟩,
    ⟨.reduce (.named (.conv ⟨.standard .channelFirst, [1], [1], false⟩)) ⟨0⟩ ⟨1⟩ none ⟨12⟩,
      .tensor ⟨.float32, .ofSizes [1, 1, 1]⟩⟩]

theorem run_biased :
    (Rule.convolution.apply .standard (.convolution biasedConvolution)
        ⟨.float32, .ofSizes [1, 1, 1]⟩).run
      (.ofGraph (.takingIn [oneChannel, oneChannel, twoBiases])) =
      (.ok ⟨13⟩, ⟨⟨(Graph.takingIn [oneChannel, oneChannel, twoBiases]).nodes ++ biasedNodes,
        [⟨0⟩, ⟨1⟩, ⟨2⟩], []⟩, 3,
        #[⟨3⟩, ⟨4⟩, ⟨5⟩, ⟨6⟩, ⟨7⟩, ⟨8⟩, ⟨9⟩, ⟨10⟩, ⟨11⟩, ⟨12⟩, ⟨13⟩]⟩) := by
  rfl

theorem broadcast_twoBiases : twoBiases.data.broadcastAdded [1, 1, 1] [0, 2] =
    .error (.cannotBroadcast [1, 2, 1] [1, 1, 1]) := by
  have hsorted : [0, 2].mergeSort (· ≤ ·) = [0, 2] :=
    List.mergeSort_of_pairwise (by decide)
  rw [broadcastAdded, hsorted]
  rfl

/-- The bias cannot be stretched to one filter. -/
theorem evalFrom_biased (hg : ∀ i, g.node? ⟨i + 3⟩ = biasedNodes[i]?)
    (hbias : env.get? ⟨2⟩ = some (.tensor twoBiases)) :
    g.evalFrom supply env [⟨3⟩, ⟨4⟩, ⟨5⟩, ⟨6⟩, ⟨7⟩, ⟨8⟩, ⟨9⟩, ⟨10⟩, ⟨11⟩, ⟨12⟩, ⟨13⟩] =
      .error (.array (.cannotBroadcast [1, 2, 1] [1, 1, 1])) := by
  simp [Graph.evalFrom, Graph.evalStep, hg, biasedNodes, evalNode, Bind.bind, Except.bind,
    Pure.pure, Except.pure, Env.get, Env.get?_insert, Env.sizes, Env.index, Env.tensor,
    Value.toTensor, Value.roundedScalar, Scalar.toDouble_zero, DType.round_zero, toInt64_one,
    hbias, broadcast_twoBiases, arrayResult_error]

/-- No rule finds that channels, a bias or the index of a size do not fit. -/
theorem rules_accept_unchecked :
    Rule.convolution.FailsOn (.convolution (unitConvolution false)) ⟨.float32, .ofSizes [1, 1, 1]⟩
        [twoChannels, oneChannel] ∧
      Rule.convolution.FailsOn (.convolution biasedConvolution) ⟨.float32, .ofSizes [1, 1, 1]⟩
        [oneChannel, oneChannel, twoBiases] ∧
      Rule.mm.FailsOn (.mm ⟨⟨0⟩, ⟨1⟩⟩) ⟨.float32, .ofSizes [oversize, 0]⟩
        [noColumns, noElements] := by
  refine ⟨?_, ?_, ?_⟩
  · exact Rule.failsOn_of_evalFrom run_unchecked fun env henv =>
      evalFrom_unchecked (Graph.node?_append rfl) (henv 0 _ rfl) (henv 1 _ rfl)
  · exact Rule.failsOn_of_evalFrom run_biased fun env henv =>
      evalFrom_biased (Graph.node?_append rfl) (henv 2 _ rfl)
  · exact Rule.failsOn_of_evalFrom run_oversized fun env henv =>
      evalFrom_oversized (List.prefix_refl _) toInt64_zero (by decide) rfl rfl
        (fun i _ => Graph.node?_append rfl i) (henv 0 _ rfl) (henv 1 _ rfl)

end Unchecked

end TensorLowering
