import TensorLowering.Proofs.Build.DeclaredTensors
import TensorLowering.Proofs.Build.SignedStorage

/-!
# Operands of declared types

An operand is a tensor that its declared type admits, with a number as its zero-point if it is
quantized. Normalizing it gives signed storage and a truncated zero-point, whatever the numeric type
of the storage and whatever sizes are open.
-/
namespace TensorLowering

open Numeric NdArray

/-- The tensor as a reduction reads it: in signed storage if it is quantized. -/
def Tensor.normalized (t : Tensor) (z : Option Binary64) : Tensor :=
  if z.isSome then t.signedStorage else t

theorem Tensor.normalized_some (t : Tensor) (y : Binary64) :
    t.normalized (some y) = t.signedStorage := rfl

@[simp] theorem Tensor.shape_normalized (t : Tensor) (z : Option Binary64) :
    (t.normalized z).shape = t.shape := by
  cases z
  · rfl
  · exact t.shape_signedStorage

/-- The zero-points of a pair of normalized operands. -/
def storedZeros (a b : Tensor) (za zb : Option Binary64) : Option (Binary64 × Binary64) := do
  return (a.dtype.storedZero (← za), b.dtype.storedZero (← zb))

/-- The operand holds the tensor, which its declared type admits, and the number is its zero-point
if it is quantized. -/
def Graph.Operand (g : Graph) (env : Env) (id : ValueId) (t : Tensor) (z : Option Binary64) :
    Prop :=
  ∃ x, OperandInfo.extract g id = .ok x ∧ t.HasType x.type ∧ env.get? x.value = some (.tensor t) ∧
    Option.Rel (fun v y => env.number v = .ok y) x.zeroPoint z

/-- The value is declared with a type that admits the tensor that it holds. -/
def Graph.Declares (g : Graph) (env : Env) (id : ValueId) (t : Tensor) : Prop :=
  (∃ type, g.tensorType id = .ok type ∧ t.HasType type) ∧ env.get? id = some (.tensor t)

/-- The operand is declared with every size. -/
def Graph.IsStatic (g : Graph) (id : ValueId) : Prop :=
  ∀ x, OperandInfo.extract g id = .ok x → x.type.shape.isStatic = true

theorem Tensor.HasType.eq_type {t : Tensor} {type : TensorType} (h : t.HasType type)
    (hstatic : type.shape.isStatic = true) : type = t.type := by
  obtain ⟨dtype, shape⟩ := type
  rw [Tensor.type, ← h.admits.eq_ofSizes hstatic, h.dtype]

/-- An operand without a zero-point is declared. -/
theorem Graph.Operand.declares {g : Graph} {env : Env} {id : ValueId} {t : Tensor}
    (h : g.Operand env id t none) : g.Declares env id t := by
  obtain ⟨x, hextract, htype, hget, hzero⟩ := h
  obtain ⟨value, type, zeroPoint⟩ := x
  cases hzero
  obtain ⟨node, -, hextract⟩ := Except.bind_eq_ok.1 hextract
  split at hextract
  · obtain ⟨type', -, hinfo⟩ := Except.bind_eq_ok.1 hextract
    cases hinfo
  · obtain ⟨type', hdeclared, hinfo⟩ := Except.bind_eq_ok.1 hextract
    cases hinfo
    exact ⟨⟨type, hdeclared, htype⟩, hget⟩

/-- Every tensor that is taken in is an operand of its declared type. -/
theorem Graph.operand_takingAs (types : List TensorType) (ts : List Tensor)
    (h : List.Forall₂ Tensor.HasType ts types) :
    ∃ env, (takingAs types).evaluate (.takingIn ts) = .ok env ∧
      ∀ i t, ts[i]? = some t → (takingAs types).Operand env ⟨i⟩ t none := by
  obtain ⟨env, heval, hplain⟩ := evaluate_takingAs h
  refine ⟨env, heval, fun i t ht => ?_⟩
  have hlt := h.length_eq ▸ (List.getElem?_eq_some_iff.1 ht).1
  obtain ⟨hextract, htype, hget⟩ := hplain i t _ ht (List.getElem?_eq_getElem hlt)
  exact ⟨_, hextract, htype, hget, .none⟩

namespace Stage

variable {s s' : Stage} {x y : OperandInfo} {t u : Tensor} {z : Option Binary64}
  {zs : Option (Binary64 × Binary64)}

/-- An operand of a declared type with a number as its zero-point. -/
structure Reads (s : Stage) (x : OperandInfo) (t : Tensor) (z : Option Binary64) : Prop where
  type : t.HasType x.type
  storage : s.HasTensor x.value t
  zeroPoint : Option.Rel (fun v y => s.env.number v = .ok y) x.zeroPoint z

/-- An operand of a declared type with a scalar as its zero-point. -/
structure HasFactor (s : Stage) (x : OperandInfo) (t : Tensor) (z : Option Binary64) : Prop where
  type : t.HasType x.type
  storage : s.HasTensor x.value t
  zeroPoint : Option.Rel (fun v y => s.HasScalar v y) x.zeroPoint z

/-- An operand whose type says every size of the tensor. -/
structure Pinned (s : Stage) (x : OperandInfo) (t : Tensor) : Prop where
  type : x.type = t.type
  storage : s.Holds x.value t

theorem Pinned.mono (h : s.Pinned x t) (hle : s ≤ s') : s'.Pinned x t :=
  ⟨h.type, h.storage.mono hle⟩

theorem HasFactor.hasOperand (h : s.HasFactor x t z) (hx : s.Pinned x t) : s.HasOperand x t z :=
  ⟨hx.type, hx.storage, h.zeroPoint⟩

theorem Reads.mono (h : s.Reads x t z) (hle : s ≤ s') : s'.Reads x t z :=
  ⟨h.type, h.storage.mono hle, rel_imp (fun _ _ hv => Le.number hle hv) h.zeroPoint⟩

theorem HasFactor.mono (h : s.HasFactor x t z) (hle : s ≤ s') : s'.HasFactor x t z :=
  ⟨h.type, h.storage.mono hle, rel_imp (fun _ _ hv => hv.mono hle) h.zeroPoint⟩

theorem Reads.isQuantized (h : s.Reads x t z) : x.isQuantized = z.isSome :=
  isSome_eq_of_rel h.zeroPoint

theorem HasFactor.isQuantized (h : s.HasFactor x t z) : x.isQuantized = z.isSome :=
  isSome_eq_of_rel h.zeroPoint

theorem Reads.rank (h : s.Reads x t z) : x.rank = t.shape.length := h.type.admits.1.symm

theorem HasFactor.rank (h : s.HasFactor x t z) : x.rank = t.shape.length := h.type.admits.1.symm

theorem HasFactor.zeroPoints (zs : Option (Binary64 × Binary64))
    (hx : s.HasFactor x t (zs.map Prod.fst)) (hy : s.HasFactor y u (zs.map Prod.snd)) :
    s.HasZeroPoints (x.zeroPoints? y) zs :=
  .of_rel hx.zeroPoint hy.zeroPoint

/-- The zero-points of a normalized pair, both quantized or neither. -/
theorem HasFactor.storedZeros {a b : Tensor} {za zb : Option Binary64}
    (hx : s.HasFactor x t (za.map a.dtype.storedZero)) (hsame : za.isSome = zb.isSome)
    (hy : s.HasFactor y u (zb.map b.dtype.storedZero)) :
    s.HasZeroPoints (x.zeroPoints? y) (storedZeros a b za zb) ∧
      x.isQuantized = (storedZeros a b za zb).isSome := by
  refine ⟨?_, hx.isQuantized.trans ?_⟩
  · cases za with
    | none =>
        cases zb with
        | none => exact HasFactor.zeroPoints none hx hy
        | some z => cases hsame
    | some y =>
        cases zb with
        | none => cases hsame
        | some z => exact HasFactor.zeroPoints (some (_, _)) hx hy
  · cases za with
    | none => rfl
    | some y =>
        cases zb with
        | none => cases hsame
        | some z => rfl

end Stage

open Stage

/-- The storage of an operand is declared with its type. -/
theorem OperandInfo.tensorType_of_extract {g : Graph} {id : ValueId} {x : OperandInfo}
    (h : extract g id = .ok x) : g.tensorType x.value = .ok x.type := by
  obtain ⟨node, -, h⟩ := Except.bind_eq_ok.1 h
  split at h
  all_goals
    obtain ⟨type, htype, hinfo⟩ := Except.bind_eq_ok.1 h
    cases hinfo
    exact htype

/-- A tensor of a type that says every size. -/
theorem Stage.Reads.pinned {s : Stage} {x : OperandInfo} {t : Tensor} {id : ValueId}
    {z : Option Binary64}
    (h : s.Reads x t z) (hx : OperandInfo.extract s.graph id = .ok x)
    (hstatic : s.graph.IsStatic id) : s.Pinned x t := by
  have htype := h.type.eq_type (hstatic x hx)
  have hdeclared := OperandInfo.tensorType_of_extract hx
  rw [htype] at hdeclared
  exact ⟨htype, hdeclared, h.storage.get⟩

theorem Graph.Operand.reads {g : Graph} {supply : Supply} {env : Env} {id : ValueId} {t : Tensor}
    {z : Option Binary64} (hx : g.Operand env id t z) (h : g.evaluate supply = .ok env) :
    ∃ x, OperandInfo.extract g id = .ok x ∧ (Stage.ofRun h).Reads x t z := by
  obtain ⟨x, hextract, htype, hget, hzero⟩ := hx
  have hdeclared := OperandInfo.tensorType_of_extract hextract
  exact ⟨x, hextract, htype, ⟨⟨x.type, hdeclared, htype⟩, hget⟩, hzero⟩

namespace Build

variable {l : Limits} {s : Stage} {v w : ValueId} {t : Tensor} {y : Binary64} {dtype : DType}
  {z : Option Binary64}

/-- A tensor combined with a scalar. Its sizes are declared as those of the tensor are. -/
theorem elementwise_scalar_meets {op : ElementwiseOp} {scalarType : DType} (hv : s.HasTensor v t)
    (hw : s.HasScalar w y) (htype : s.graph.typeOf w = .ok (.scalar scalarType)) :
    (elementwise op v w dtype).Meets l s fun v' s' =>
      s'.HasTensor v' (.ofEntries dtype t.shape fun ix => op.apply (t.entry ix) y) ∧
        (s.Holds v t →
          s'.Holds v' (.ofEntries dtype t.shape fun ix => op.apply (t.entry ix) y)) := by
  refine .tensorType hv fun type hdeclared ht => .query htype ?_
  refine .create (evalNode_elementwise_scalar hv.tensor hw) fun _ =>
    ⟨hasTensor_emit s ⟨rfl, ht.admits⟩, fun hholds => ?_⟩
  rw [hholds.type] at hdeclared
  cases hdeclared
  exact s.holds_emit _ (.ofEntries dtype t.shape fun ix => op.apply (t.entry ix) y)

/-- Signed storage is declared as the storage of the operand is. -/
theorem normalize_meets {x : OperandInfo} (hx : s.Reads x t z) :
    x.normalize.Meets l s fun x' s' =>
      s'.HasFactor x' (t.normalized z) (z.map t.dtype.storedZero) ∧
        (s.Pinned x t → s'.Pinned x' (t.normalized z)) := by
  have htype := hx.type
  have hstorage := hx.storage
  have hzero := hx.zeroPoint
  unfold OperandInfo.normalize
  generalize hv : x.zeroPoint = v at hzero ⊢
  cases hzero with
  | none => exact .pure ⟨⟨htype, hstorage, by rw [hv]; exact .none⟩, id⟩
  | @some v y hnumber =>
      refine .bind (scalarCast_gives hnumber).meets_always ?_
      intro truncated s₁ hle₁ htruncated
      have hstorage₁ := hstorage.mono hle₁
      dsimp only
      rw [← htype.dtype]
      cases hdtype : t.dtype with
      | unsigned w =>
          rw [if_pos (show (DType.unsigned w).isUnsignedInteger = true from rfl)]
          refine .bind ((scalarAddConst_gives htruncated
            (DType.inInt64_zeroPoints _ _)).meets_always) fun shifted s₂ hle₂ hshifted => ?_
          refine .bind scalar_typed.meets_always ?_
          intro shift s₃ hle₃ hscalar
          refine .bind (elementwise_scalar_meets ((hstorage₁.mono hle₂).mono hle₃) hscalar.1
            hscalar.2) ?_
          rintro storage s₄ hle₄ ⟨hstored, hstatic⟩
          have hsame := (Tensor.ofEntries_signShift hdtype).trans (t.normalized_some y).symm
          rw [hsame] at hstored hstatic
          have hzero := (hshifted.mono hle₃).mono hle₄
          refine .tensorType hstored fun type hdeclared hstoredType =>
            .pure ⟨⟨hstoredType, hstored, .some hzero⟩, fun hpinned => ?_⟩
          have hholds := hstatic (hpinned.storage.mono (hle₁.trans (hle₂.trans hle₃)))
          exact ⟨Except.ok.inj (hdeclared.symm.trans hholds.type), hholds⟩
      | _ =>
          rw [if_neg (by exact Bool.false_ne_true)]
          have hself : t.normalized (some y) = t :=
            Tensor.signedStorage_eq_self (by rw [hdtype]; exact Bool.false_ne_true)
          rw [hself]
          exact .pure ⟨⟨htype, hstorage₁, .some htruncated⟩,
            fun hpinned => ⟨hpinned.type, hpinned.storage.mono hle₁⟩⟩

end Build

end TensorLowering
