import TensorLowering.Proofs.Build.Inputs
import TensorLowering.Proofs.Convolution.Transposed

/-!
# Convolutions of quantized operands

A quantized operand stands for the differences of its integers and its zero-point, and the padding
is the zero-point, which stands for zero. Main statement: on quantized operands, the lowered program
computes the convolution of these differences, whether it is transposed or not and whichever kernel
it uses, as long as the integers that are summed up are doubles and the element types hold the sums.
-/
namespace TensorLowering

open Numeric NdArray Stage Build

variable {g : Graph} {supply : Supply} {env : Env} {c : ConvolutionSizes} {geo : ConvGeometry}
  {x w : Tensor} {zx zw : Int} {out : List Nat} {op : Convolution} {result : TensorType}
  {config : LoweringConfig} {bias : Option Tensor} {filters : Nat}

/-! ## The padded input -/

section Padded

variable {X W : List Nat → Int} {zs : Option (Binary64 × Binary64)} {v : Binary64}

/-- The padded input and the weight, as integers. -/
theorem ConvolutionSizes.Describes.represents_padded (hc : c.Describes geo x w)
    (zs : Option (Binary64 × Binary64)) (hvalid : geo.Valid c.input.length)
    (hout : geo.outputs? c.input c.kernel = some out)
    (hx : x.HasIntegers (zs.map Prod.fst) X) (hw : w.HasIntegers (zs.map Prod.snd) W)
    (hround : x.dtype.round v = v)
    (hblank : (CastKind.signed.factor x.dtype (zs.map Prod.fst) v).toInt? = some 0) :
    c.Represents geo geo.steps (x.padded geo.edges v) w zs X W out := by
  have hvisited : ∀ k, geo.visited c.kernel k = k := by
    intro k
    rw [ConvGeometry.visited, hc.standard, if_neg Bool.false_ne_true]
  constructor
  · intro n f o q k hn hf ho hq hk
    have hchannel := c.channelOf_lt hf hq
    obtain ⟨window, hwindow, hin⟩ :=
      geo.windows_inBounds hvalid hc.standard rfl hc.kernel hout ho hk
    have hentry := Tensor.entry_padded_window hround hc.inputShape hn hchannel hwindow hin
    have hposition : position? x.shape (n :: c.channelOf f q :: geo.reads o k) =
        (position? c.input (geo.reads o k)).map ([n, c.channelOf f q] ++ ·) := by
      have hsample : InBounds [c.batch, c.groups * c.channels] [n, c.channelOf f q] :=
        ⟨hn, hchannel, trivial⟩
      rw [hc.inputShape]
      exact position?_append hsample
    have hmeets : ∀ j, position? c.input (geo.reads o k) = some j ↔
        InBounds c.input j ∧ geo.Meets j (geo.visited c.kernel k) o := by
      intro j
      rw [hvisited, ConvGeometry.Meets, hc.standard, if_neg Bool.false_ne_true]
      exact position?_eq_some
    have hmet : c.met geo X (n :: f :: o) q (geo.visited c.kernel k) =
        (position? c.input (geo.reads o k)).elim 0 fun j => X (n :: c.channelOf f q :: j) :=
      sum_filter_eq_elim hmeets
    rw [hmet, Tensor.factor, hentry, Tensor.readOr, hposition]
    cases hfound : position? c.input (geo.reads o k) with
    | none => exact hblank
    | some j =>
        refine hx (n :: c.channelOf f q :: j) ?_
        rw [hc.inputShape]
        exact ⟨hn, hchannel, ((hmeets j).1 hfound).1⟩
  · intro f q k hf hq hk
    have htap : c.tap geo.transposed f q (geo.visited c.kernel k) = f :: q :: k := by
      rw [hvisited, ConvolutionSizes.tap, hc.standard, if_neg Bool.false_ne_true]
    rw [htap]
    refine hw _ ?_
    rw [hc.weightShape]
    exact ⟨hf, hq, hk⟩

end Padded

/-! ## The operands in signed storage -/

/-- The zero-points of the operands in signed storage. -/
def signedZeros (x : Tensor) (zx : Int) (w : Tensor) (zw : Int) : Binary64 × Binary64 :=
  (.ofInt (x.dtype.signedZero zx), .ofInt (w.dtype.signedZero zw))

theorem Tensor.hasIntegers_signedStorage {z : Int} (h : x.dtype.IsShortInteger)
    (hz : x.dtype.Contains z) :
    x.signedStorage.HasIntegers (some (.ofInt (x.dtype.signedZero z))) (x.difference z) :=
  fun _ hix => toInt?_factor h hz (x.shape_signedStorage ▸ hix)

/-- The zero-point stands for zero. -/
theorem toInt?_factor_signedZero {t : DType} {z : Int} (h : t.IsShortInteger) (hz : t.Contains z) :
    (CastKind.signed.factor t.toSigned (some (.ofInt (t.signedZero z)))
      (.ofInt (t.signedZero z))).toInt? = some 0 := by
  have hsmall := h.toSigned.natAbs_lt (h.contains_signedZero hz)
  rw [CastKind.factor, DType.extend_toSigned h, Binary64.ofInt_sub hsmall hsmall, Int.sub_self,
    Binary64.ofInt_zero]
  rfl

/-- The integer that a bias adds, or zero where there is none. -/
def biasInteger (bias : Option Tensor) (f : Nat) : Int := bias.elim 0 (·.integer [f])

/-- A convolution of quantized operands with a geometry that is known. A bias has elements of 32
bits. -/
structure Graph.HasQuantizedConvolution (g : Graph) (env : Env) (op : Convolution)
    (geo : ConvGeometry) (x : Tensor) (zx : Int) (w : Tensor) (zw : Int) (filters : Nat)
    (bias : Option Tensor) : Prop where
  input : g.Quantized env op.input x zx
  weight : g.Quantized env op.weight w zw
  biasType : ∀ b ∈ bias, b.dtype = .signed .w32
  bias : Option.Rel (fun v b => g.tensorType v = .ok b.type ∧ env.get? v = some (.tensor b) ∧
    b.shape = [filters]) op.bias bias
  geometry : ConvGeometry.ofConvolution op (x.shape.length - 2) = .ok geo

namespace Graph.HasQuantizedConvolution

theorem operands (hop : g.HasQuantizedConvolution env op geo x zx w zw filters bias)
    (h : g.evaluate supply = .ok env) :
    op.Operands (Stage.ofRun h) geo x.dtype x.signedStorage w.signedStorage
      (some (signedZeros x zx w zw)) filters bias where
  planned result := by
    obtain ⟨xi, hxi, hx⟩ := hop.input.hasQuantized h
    obtain ⟨wi, hwi, hw⟩ := hop.weight.hasQuantized h
    refine ConvPlan.ofConvolution_gives hxi hwi (by rw [hx.type, Tensor.dtype_type])
      (by rw [hx.rank, Tensor.shape_signedStorage]) ?_ (normalize_gives hx) fun s' hle =>
        normalize_gives (hw.mono hle)
    rw [Tensor.shape_signedStorage]
    exact hop.geometry
  bias := ConvPlan.hasBias_ofRun h hop.bias
  geometry := by
    rw [Tensor.shape_signedStorage]
    exact hop.geometry

theorem toInt?_bias (hop : g.HasQuantizedConvolution env op geo x zx w zw filters bias) (f : Nat) :
    (biasEntry bias f).toInt? = some (biasInteger bias f) := by
  cases bias with
  | none => rfl
  | some b =>
      have hshort : b.dtype.IsShortInteger := by
        rw [hop.biasType b rfl]
        decide
      obtain ⟨hentry, hcontains⟩ := Tensor.entry_eq_ofInt hshort [f]
      rw [biasEntry, Option.elim_some, hentry]
      exact Binary64.toInt?_ofInt (hshort.natAbs_lt hcontains)

end Graph.HasQuantizedConvolution

namespace ConvolutionSizes

theorem Arranges.signedStorage (hc : c.Arranges geo x w) :
    c.Arranges geo x.signedStorage w.signedStorage :=
  ⟨hc.groups, hc.kernel, x.shape_signedStorage.trans hc.inputShape,
    w.shape_signedStorage.trans hc.weightShape⟩

theorem Arranges.describes (hc : c.Arranges geo x w) (hstandard : geo.transposed = false) :
    c.Describes geo x w := by
  refine ⟨hstandard, hc.groups, hc.kernel, hc.inputShape, ?_⟩
  rw [hc.weightShape, storedWeight, hstandard, if_neg Bool.false_ne_true]

/-- What windows move over is not too large, and neither are the operands and the output. -/
def WindowsFit (c : ConvolutionSizes) (geo : ConvGeometry) : Prop :=
  if geo.transposed then c.SpreadFits geo else c.Fits geo

/-- The sizes that tensors are made with are read back from doubles. -/
def WindowsExact (c : ConvolutionSizes) (geo : ConvGeometry) (config : LoweringConfig) : Prop :=
  if geo.transposed then c.SpreadExact geo else c.Exact geo config

end ConvolutionSizes

open ConvolutionSizes

/-! ## The rule -/

section Stored

/-- A row of three elements with one zero-point around it. -/
def storedSizes : ConvolutionSizes := ⟨1, 1, 1, 1, [3], [2]⟩

def storedGeometry : ConvGeometry := ⟨[1], [1], [1], [0], 1, false⟩

/-- Elements stored without a sign, around 203. -/
def storedInput : Tensor :=
  .ofEntries (.unsigned .w8) [1, 1, 3] fun ix => .ofInt (200 + ix.getD 2 0)

/-- A kernel around -4. -/
def storedWeight : Tensor :=
  .ofEntries (.signed .w8) [1, 1, 2] fun ix => .ofInt (5 - ix.getD 2 0)

def storedConvolution : Convolution :=
  ⟨⟨4⟩, ⟨5⟩, none, .const [1], .const [1], .const [1], .const [0], .const false, .const 1⟩

/-- What the windows add up to. -/
def storedOutput (ix : List Nat) : Int := [-24, -43, -26, -9].getD (ix.getD 2 0) 0

end Stored

/-! ## A batch size that is no double -/

section Oversized

/-- Stored samples without channels, and no stored filters. -/
def storedChannels : Tensor := .ofEntries (.signed .w8) [oversize, 0, 1] fun _ => 0

def storedFilters : Tensor := .ofEntries (.signed .w8) [0, 0, 1] fun _ => 0

def unitQuantizedConvolution : Convolution :=
  ⟨⟨4⟩, ⟨5⟩, none, .const [1], .const [0], .const [1], .const [0], .const true, .const 1⟩

/-- The nodes that the rule creates for them. -/
def oversizedQuantizedNodes : List Node :=
  [⟨.scalarCast ⟨2⟩, .scalar (.signed .w32)⟩, ⟨.scalarCast ⟨3⟩, .scalar (.signed .w32)⟩,
    ⟨.constant (.int oversize), .index⟩, ⟨.constant (.int 0), .index⟩,
    ⟨.constant (.int 1), .index⟩, ⟨.constant (.int 0), .index⟩, ⟨.constant (.int 0), .index⟩,
    ⟨.constant (.int 1), .index⟩, ⟨.constant (.int 1), .index⟩,
    ⟨.scalarCast ⟨6⟩, .scalar (.signed .w8)⟩,
    ⟨.transpose ⟨1⟩ ⟨[1, 0, 2]⟩, .tensor storedFilters.type⟩,
    ⟨.flip ⟨16⟩ [2], .tensor storedFilters.type⟩, ⟨.constant (.int 0), .index⟩,
    ⟨.constant (.int 0), .index⟩, ⟨.constant (.int 1), .index⟩, ⟨.constant (.int 1), .index⟩,
    ⟨.fill [⟨8⟩, ⟨9⟩, ⟨20⟩] ⟨15⟩, .tensor storedChannels.type⟩,
    ⟨.insertSlice ⟨0⟩ ⟨22⟩ [⟨18⟩, ⟨18⟩, ⟨19⟩] [1, 1, 1], .tensor storedChannels.type⟩,
    ⟨.constant (.zero (.signed .w32)), .scalar (.signed .w32)⟩,
    ⟨.fill [⟨8⟩, ⟨12⟩, ⟨21⟩] ⟨24⟩, .tensor ⟨.signed .w32, .ofSizes [oversize, 0, 1]⟩⟩,
    ⟨.transpose ⟨23⟩ ⟨[0, 2, 1]⟩, .tensor ⟨.signed .w8, .ofSizes [oversize, 1, 0]⟩⟩,
    ⟨.transpose ⟨17⟩ ⟨[2, 1, 0]⟩, .tensor ⟨.signed .w8, .ofSizes [1, 0, 0]⟩⟩,
    ⟨.transpose ⟨25⟩ ⟨[0, 2, 1]⟩, .tensor ⟨.signed .w32, .ofSizes [oversize, 1, 0]⟩⟩,
    ⟨.reduce (.named (.conv ⟨.standard .channelLast, [1], [1], true⟩)) ⟨26⟩ ⟨27⟩
      (some (⟨6⟩, ⟨7⟩)) ⟨28⟩, .tensor ⟨.signed .w32, .ofSizes [oversize, 1, 0]⟩⟩,
    ⟨.transpose ⟨29⟩ ⟨[0, 2, 1]⟩, .tensor ⟨.signed .w32, .ofSizes [oversize, 0, 1]⟩⟩]

theorem run_oversizedQuantized :
    (Rule.convolution.apply .standard (.convolution unitQuantizedConvolution)
        ⟨.signed .w32, .ofSizes [oversize, 0, 1]⟩).run
      (.ofGraph (.takingQuantized storedChannels storedFilters 0 0)) =
      (.ok ⟨30⟩, ⟨⟨(Graph.takingQuantized storedChannels storedFilters 0 0).nodes ++
        oversizedQuantizedNodes, [⟨0⟩, ⟨1⟩, ⟨2⟩, ⟨3⟩, ⟨4⟩, ⟨5⟩], []⟩, 6,
        ((List.range' 6 25).map ValueId.mk).toArray⟩) := by
  rfl

/-- What the buffer is filled as: a sample is missing. -/
def missingStoredSample : Tensor := .ofEntries (.signed .w8) [9007199254740992, 0, 1] fun _ => 0

theorem fill_missingStoredSample : arrayResult (.tensor storedChannels.type)
    (fill [9007199254740992, 0, 1] 0) = .ok (.tensor missingStoredSample) :=
  arrayResult_fill (by decide)

/-- Without filters, exchanging and reversing axes changes nothing. -/
theorem transpose_storedFilters :
    tensorResult (.tensor storedFilters.type) (storedFilters.data.transpose ⟨[1, 0, 2]⟩) =
      .ok (.tensor storedFilters) := by
  decide +kernel

theorem flip_storedFilters :
    arrayResult (.tensor storedFilters.type) (storedFilters.data.flip [2]) =
      .ok (.tensor storedFilters) := by
  decide +kernel

theorem insertSlice_missingStoredSample :
    storedChannels.data.insertSlice missingStoredSample.data [0, 0, 0] [1, 1, 1] =
      .error (.sliceOutside 0 oversize 1 0 9007199254740992) := by
  rfl

/-- The samples of the buffer are counted by a double, and one of them does not fit. -/
theorem evalFrom_oversizedQuantized
    (hg : ∀ i, g.node? ⟨i + 6⟩ = oversizedQuantizedNodes[i]?)
    (hx : env.get? ⟨0⟩ = some (.tensor storedChannels))
    (hw : env.get? ⟨1⟩ = some (.tensor storedFilters)) (hzx : env.get? ⟨2⟩ = some (.index 0))
    (hzw : env.get? ⟨3⟩ = some (.index 0)) :
    g.evalFrom supply env ((List.range' 6 25).map ValueId.mk) =
      .error (.array (.sliceOutside 0 oversize 1 0 9007199254740992)) := by
  have hcheck : Permutation.check ⟨[1, 0, 2]⟩ storedFilters.data.rank = .ok () := by decide +kernel
  simp [List.range', Graph.evalFrom, Graph.evalStep, hg, oversizedQuantizedNodes, evalNode,
    Bind.bind, Except.bind, Pure.pure, Except.pure, Env.get, Env.get?_insert, Env.sizes, Env.index,
    Env.number, Env.tensor, Value.toTensor, Value.roundedScalar, Binary64.ofInt_zero,
    DType.round_zero, toInt64_oversize, toInt64_zero, toInt64_one, hcheck, Except.mapError,
    transpose_storedFilters, flip_storedFilters, fill_missingStoredSample, hx, hw, hzx, hzw,
    insertSlice_missingStoredSample, arrayResult_error]

end Oversized

end TensorLowering
