import TensorLowering.Build.Compute
import TensorLowering.Proofs.NdArray.Results
import TensorLowering.Proofs.Typing.Sizes

/-!
# Types of tensors

Every operation that gives a tensor declares a shape that admits the sizes of its value. Each
follows from what the operation does to the sizes of its operands, which their own types admit.
-/
namespace TensorLowering

open Numeric NdArray

theorem Stage.Typed.hasType {s : Stage} {v : ValueId} {t : Tensor} {type : TensorType}
    (hs : s.Typed) (htype : s.graph.tensorType v = .ok type) (ht : s.env.tensor v = .ok t) :
    t.HasType type ∧ (Value.tensor t).Small := by
  obtain ⟨op, hnode⟩ := Graph.tensorType_eq_ok.1 htype
  obtain ⟨node, hnode', hvalue, hsmall⟩ := hs v _ (Env.tensor_eq_ok.1 ht)
  obtain rfl := Option.some.inj (hnode.symm.trans hnode')
  cases hvalue with
  | tensor h => exact ⟨h, hsmall⟩

namespace Build

open Respects

variable {s : Stage} {input : ValueId} {type : TensorType} {op : Op} {dtype : DType}
  {shape : Shape}

/-- A node whose value has the declared sizes. -/
theorem createTensor_respects
    (h : ∀ value, evalNode s.supply s.env ⟨op, .tensor ⟨dtype, shape⟩⟩ = .ok value →
      value.HasType (.tensor ⟨dtype, shape⟩)) :
    (createTensor op dtype shape).Respects s fun _ _ => True :=
  .create fun value hvalue _ => ⟨h value hvalue, trivial⟩

/-- A node that applies an array operation to one tensor. -/
theorem createUnary_respects (hs : s.Typed) (htype : s.graph.tensorType input = .ok type)
    (f : NdArray Binary64 → Except ArrayError (NdArray Binary64))
    (heval : evalNode s.supply s.env ⟨op, .tensor ⟨dtype, shape⟩⟩ =
      s.env.tensor input >>= fun t => arrayResult (.tensor ⟨dtype, shape⟩) (f t.data))
    (hf : ∀ (t : Tensor) a, type.shape.Admits t.shape → f t.data = .ok a → shape.Admits a.shape) :
    (createTensor op dtype shape).Respects s fun _ _ => True := by
  refine createTensor_respects fun value hvalue => ?_
  rw [heval] at hvalue
  obtain ⟨t, ht, hvalue⟩ := Except.bind_eq_ok.1 hvalue
  exact hasType_arrayResult hvalue fun a ha => hf t a (hs.hasType htype ht).1.admits ha

/-- A node that makes an array of given sizes. -/
theorem createSized_respects {sizes : List Size} (hz : ∀ z ∈ sizes, s.Tracks z)
    {f : List Nat → Except EvalError Value}
    (heval : evalNode s.supply s.env ⟨op, .tensor ⟨dtype, Size.shape sizes⟩⟩ =
      s.env.sizes (Size.values sizes) >>= f)
    (hf : ∀ ns value, f ns = .ok value → ∃ result,
      arrayResult (.tensor ⟨dtype, Size.shape sizes⟩) result = .ok value ∧
        ∀ a, result = .ok a → a.shape = ns) :
    (createTensor op dtype (Size.shape sizes)).Respects s fun _ _ => True := by
  refine createTensor_respects fun value hvalue => ?_
  rw [heval] at hvalue
  obtain ⟨ns, hns, hvalue⟩ := Except.bind_eq_ok.1 hvalue
  obtain ⟨result, hresult, hshape⟩ := hf ns value hvalue
  exact hasType_arrayResult hresult fun a ha => hshape a ha ▸ s.admits_sizes hz hns

/-! ## New tensors -/

theorem filled_respects {sizes : List Size} (hz : ∀ z ∈ sizes, s.Tracks z) (value : ValueId)
    (dtype : DType) : (filled sizes value dtype).Respects s fun _ _ => True := by
  refine createSized_respects hz rfl fun ns value hvalue => ?_
  obtain ⟨x, -, hvalue⟩ := Except.bind_eq_ok.1 hvalue
  exact ⟨_, hvalue, fun a ha => shape_of_fill ha⟩

theorem zeros_respects (hs : s.Typed) {sizes : List Size} (hz : ∀ z ∈ sizes, s.Tracks z)
    (dtype : DType) : (zeros sizes dtype).Respects s fun _ _ => True :=
  .bind hs (scalar_respects _ dtype) fun zero _ hle _ _ =>
    filled_respects (fun z hmem => (hz z hmem).mono hle) zero dtype

theorem broadcast_respects {sizes : List Size} (hz : ∀ z ∈ sizes, s.Tracks z)
    (input : ValueId) (added : List Nat) :
    (broadcast input sizes added).Respects s fun _ _ => True := by
  refine .tensorType fun type _ => ?_
  dsimp only
  split
  next => exact trivial
  next =>
    refine createSized_respects hz rfl fun ns value hvalue => ?_
    obtain ⟨t, -, hvalue⟩ := Except.bind_eq_ok.1 hvalue
    exact ⟨_, hvalue, fun a ha => shape_of_broadcastAdded ha⟩

theorem broadcastTo_respects {sizes : List Size} (hz : ∀ z ∈ sizes, s.Tracks z)
    (input : ValueId) : (broadcastTo input sizes).Respects s fun _ _ => True := by
  refine .tensorType fun type _ => ?_
  dsimp only
  split
  next => exact trivial
  next =>
    split
    next => exact trivial
    next =>
      refine createSized_respects hz rfl fun ns value hvalue => ?_
      obtain ⟨t, -, hvalue⟩ := Except.bind_eq_ok.1 hvalue
      exact ⟨_, hvalue, fun a ha => shape_of_broadcastTo ha⟩

/-! ## Order of axes and elements -/

theorem transpose_respects (hs : s.Typed) (input : ValueId) (perm : Permutation) :
    (transpose input perm).Respects s fun _ _ => True := by
  refine .tensorType fun type htype => ?_
  split
  next => exact trivial
  next shape hshape =>
    split
    next => exact trivial
    next =>
      refine createTensor_respects fun value hvalue => ?_
      obtain ⟨t, ht, hvalue⟩ := Except.bind_eq_ok.1 hvalue
      obtain ⟨⟨⟩, -, hvalue⟩ := Except.bind_eq_ok.1 hvalue
      cases hvalue
      exact hasType_ofArray ((hs.hasType htype ht).1.admits.permuted hshape)

theorem flip_respects (hs : s.Typed) (input : ValueId) (axes : List Nat) :
    (flip input axes).Respects s fun _ _ => True := by
  refine .tensorType fun type htype => ?_
  split
  next => exact trivial
  next =>
    split
    next => exact trivial
    next =>
      refine createUnary_respects hs htype (·.flip axes) rfl fun t a hadmits ha => ?_
      rw [shape_of_flip ha]
      exact hadmits

/-! ## Groups of axes -/

theorem expandShape_respects {sizes : List Size} (hz : ∀ z ∈ sizes, s.Tracks z)
    (input : ValueId) (groups : Reassociation) :
    (expandShape input groups sizes).Respects s fun _ _ => True := by
  refine .tensorType fun type _ => ?_
  split
  next => exact trivial
  next =>
    split
    next => exact trivial
    next =>
      refine createSized_respects hz rfl fun ns value hvalue => ?_
      obtain ⟨t, -, hvalue⟩ := Except.bind_eq_ok.1 hvalue
      exact ⟨_, hvalue, fun a ha => shape_of_reshape ha⟩

theorem collapseShape_respects (hs : s.Typed) (input : ValueId) (groups : Reassociation) :
    (collapseShape input groups).Respects s fun _ _ => True := by
  refine .tensorType fun type htype => ?_
  split
  next => exact trivial
  next shape hshape =>
    refine createTensor_respects fun value hvalue => ?_
    obtain ⟨t, ht, hvalue⟩ := Except.bind_eq_ok.1 hvalue
    obtain ⟨⟨⟩, -, hvalue⟩ := Except.bind_eq_ok.1 hvalue
    refine hasType_arrayResult hvalue fun a ha => ?_
    rw [shape_of_reshape ha]
    exact (hs.hasType htype ht).1.admits.collapse hshape

/-! ## Slices -/

/-- A padded dimension admits the padded size. -/
theorem paddedDim_admits {d : Dim} {n : Nat} (hd : d.Admits n) (hn : n < 0x8000000000000000)
    {lo hi : Int} (hlo : 0 ≤ lo) (hhi : 0 ≤ hi) :
    (paddedDim d lo hi).Admits (lo.toNat + n + hi.toNat) := by
  rcases hd with rfl | rfl
  · have hclamp : clampNat n = n := by
      simp only [clampNat, maxInt64]
      omega
    unfold paddedDim
    simp only [hclamp]
    rw [if_pos (by omega)]
    exact .inl (congrArg Dim.static (by omega))
  · exact .dynamic _

/-- Padded dimensions admit the padded sizes. -/
theorem zipWith_paddedDim_admits {ds : List Dim} {ns : List Nat} (h : List.Forall₂ Dim.Admits ds ns)
    (hlt : ∀ n ∈ ns, n < 0x8000000000000000) {ps : List (Int × Int)}
    (hps : ∀ p ∈ ps, 0 ≤ p.1 ∧ 0 ≤ p.2) :
    List.Forall₂ Dim.Admits (List.zipWith (fun d (lo, hi) => paddedDim d lo hi) ds ps)
      ((ns.zip ps).map fun (n, lo, hi) => lo.toNat + n + hi.toNat) := by
  induction h generalizing ps with
  | nil => exact .nil
  | cons hd _ ih =>
      cases ps with
      | nil => exact .nil
      | cons p ps =>
          obtain ⟨hlo, hhi⟩ := hps p (by simp)
          exact .cons (paddedDim_admits hd (hlt _ (by simp)) hlo hhi)
            (ih (fun n hn => hlt n (by simp [hn])) fun q hq => hps q (by simp [hq]))

theorem pad_respects (hs : s.Typed) (input : ValueId) (low high : List Int) (value : ValueId) :
    (pad input low high value).Respects s fun _ _ => True := by
  refine .tensorType fun type htype => ?_
  split
  next => exact trivial
  next =>
    split
    next => exact trivial
    next =>
      refine createTensor_respects fun value hvalue => ?_
      obtain ⟨t, ht, hvalue⟩ := Except.bind_eq_ok.1 hvalue
      obtain ⟨x, -, hvalue⟩ := Except.bind_eq_ok.1 hvalue
      obtain ⟨htyped, hsmall⟩ := hs.hasType htype ht
      refine hasType_arrayResult hvalue fun a ha => ?_
      obtain ⟨hpositive, hshape⟩ := shape_of_pad ha
      rw [hshape]
      have hlt : ∀ n ∈ t.shape, n < 0x8000000000000000 := fun n hn => by
        have hn' := hsmall n hn
        rw [twoPow_53] at hn'
        omega
      exact Shape.admits_iff.2
        (zipWith_paddedDim_admits (Shape.admits_iff.1 htyped.admits) hlt hpositive)

theorem insertSlice_respects (hs : s.Typed) (source dest : ValueId) (offsets : List Size)
    (strides : List Int) :
    (insertSlice source dest offsets strides).Respects s fun _ _ => True := by
  refine .tensorType fun part _ => .tensorType fun type htype => ?_
  split
  next => exact trivial
  next =>
    split
    next => exact trivial
    next =>
      refine createTensor_respects fun value hvalue => ?_
      obtain ⟨starts, -, hvalue⟩ := Except.bind_eq_ok.1 hvalue
      obtain ⟨src, -, hvalue⟩ := Except.bind_eq_ok.1 hvalue
      obtain ⟨dst, hdst, hvalue⟩ := Except.bind_eq_ok.1 hvalue
      refine hasType_arrayResult hvalue fun a ha => ?_
      rw [shape_of_insertSlice ha]
      exact (hs.hasType htype hdst).1.admits

theorem narrow_respects (hs : s.Typed) (input : ValueId) (axis : Nat) (start : Int) (len : Nat) :
    (narrow input axis start len).Respects s fun _ _ => True := by
  refine .tensorType fun type htype => ?_
  split
  next =>
    refine createUnary_respects hs htype (·.narrow axis start len) rfl fun t a hadmits ha => ?_
    rw [shape_of_narrow ha]
    exact hadmits.set (.static len) axis
  next => exact trivial

theorem squeeze_respects (hs : s.Typed) (input : ValueId) (axis : Nat) :
    (squeeze input axis).Respects s fun _ _ => True := by
  refine .tensorType fun type htype => ?_
  split
  next =>
    refine createUnary_respects hs htype (·.squeeze axis) rfl fun t a hadmits ha => ?_
    rw [shape_of_squeeze ha]
    exact hadmits.eraseIdx axis
  next => exact trivial

theorem unsqueeze_respects (hs : s.Typed) (input : ValueId) (axis : Nat) :
    (unsqueeze input axis).Respects s fun _ _ => True := by
  refine .tensorType fun type htype => ?_
  split
  next =>
    refine createUnary_respects hs htype (·.unsqueeze axis) rfl fun t a hadmits ha => ?_
    rw [shape_of_unsqueeze ha]
    exact hadmits.insertIdx (.static 1) axis
  next => exact trivial

/-! ## Computations -/

theorem sum_respects (hs : s.Typed) (input : ValueId) (axis : Nat) :
    (sum input axis).Respects s fun _ _ => True := by
  refine .tensorType fun type htype => ?_
  split
  next =>
    refine createUnary_respects hs htype (·.sumKeepDim axis) rfl fun t a hadmits ha => ?_
    rw [shape_of_sumKeepDim ha]
    exact hadmits.set (.static 1) axis
  next => exact trivial

theorem convert_respects (hs : s.Typed) (input : ValueId) (dtype : DType) :
    (convert input dtype).Respects s fun _ _ => True := by
  refine .tensorType fun type htype => ?_
  split
  next => exact trivial
  next =>
    refine createTensor_respects fun value hvalue => ?_
    obtain ⟨t, ht, hvalue⟩ := Except.bind_eq_ok.1 hvalue
    cases hvalue
    exact hasType_ofArray (hs.hasType htype ht).1.admits

theorem cast_respects (input : ValueId) (target : TensorType) :
    (cast input target).Respects s fun _ _ => True := by
  refine .tensorType fun type _ => ?_
  split
  next => exact trivial
  next =>
    split
    next => exact trivial
    next =>
      split
      next => exact trivial
      next =>
        split
        next => exact trivial
        next =>
          -- the value was checked against the declared type
          refine .create fun value hvalue _ => ⟨?_, trivial⟩
          obtain ⟨t, -, hvalue⟩ := Except.bind_eq_ok.1 hvalue
          obtain ⟨⟨⟩, hcheck, hvalue⟩ := Except.bind_eq_ok.1 hvalue
          cases hvalue
          exact .tensor (Tensor.check_eq_ok.1 hcheck)

theorem finish_respects (hs : s.Typed) (input : ValueId) (target : TensorType) :
    (finish input target).Respects s fun _ _ => True :=
  .bind hs (convert_respects hs input target.dtype) fun converted _ _ _ _ =>
    cast_respects converted target

theorem elementwise_respects (hs : s.Typed) (op : ElementwiseOp) (lhs rhs : ValueId)
    (dtype : DType) : (elementwise op lhs rhs dtype).Respects s fun _ _ => True := by
  refine .tensorType fun type htype => .query fun other hother => ?_
  refine createTensor_respects fun value hvalue => ?_
  obtain ⟨a, ha, hvalue⟩ := Except.bind_eq_ok.1 hvalue
  obtain ⟨b, hb, hvalue⟩ := Except.bind_eq_ok.1 hvalue
  have hadmits := (hs.hasType htype ha).1.admits
  obtain ⟨⟨_, declared⟩, hnode, htyped, -⟩ := hs rhs b (Env.get_eq_ok.1 hb)
  obtain rfl : declared = other := by
    rw [Graph.typeOf, Graph.node, hnode] at hother
    cases hother
    rfl
  cases htyped with
  | tensor hbt =>
      exact hasType_arrayResult hvalue fun c hc =>
        hadmits.broadcast hbt.admits (shape_of_zipWith hc)
  | index | scalar | unit =>
      obtain ⟨y, -, hvalue⟩ := Except.bind_eq_ok.1 hvalue
      cases hvalue
      exact hasType_ofArray hadmits

theorem checkOperand_respects (kernel : String) (operand : Nat) (value : ValueId)
    (map : AffineMap) : (checkOperand kernel operand value map).Respects s fun _ _ => True := by
  refine .tensorType fun type _ => ?_
  split <;> exact trivial

theorem reduce_respects (hs : s.Typed) (spec : ReductionSpec) (lhs rhs : ValueId)
    (zeroPoints : Option (ValueId × ValueId)) (init : ValueId) :
    (reduce spec lhs rhs zeroPoints init).Respects s fun _ _ => True := by
  unfold reduce
  split
  next => exact trivial
  next indexing _ =>
    refine .bind hs (.forM hs fun _ _ _ => checkOperand_respects ..) fun _ s' _ hs' _ => ?_
    refine .tensorType fun type htype => .create fun value hvalue _ => ⟨?_, trivial⟩
    obtain ⟨zs, -, hvalue⟩ := Except.bind_eq_ok.1 hvalue
    split at hvalue
    next => cases hvalue
    next =>
      obtain ⟨a, -, hvalue⟩ := Except.bind_eq_ok.1 hvalue
      obtain ⟨b, -, hvalue⟩ := Except.bind_eq_ok.1 hvalue
      obtain ⟨c, hc, hvalue⟩ := Except.bind_eq_ok.1 hvalue
      refine hasType_arrayResult hvalue fun out hout => ?_
      rw [shape_of_reduce hout]
      exact (hs'.hasType htype hc).1.admits

end Build

end TensorLowering
