import TensorLowering.Lowering.SignedStorage
import TensorLowering.Proofs.Build.Commits
import TensorLowering.Proofs.Build.Tensors
import TensorLowering.Proofs.Numeric.Integers

/-!
# Quantized operands in signed storage

A quantized operand is a tensor of short integers with an integer zero-point. Its storage as signed
integers and the zero-point that goes with it have the same differences, and those are what a
reduction reads. Main statement: normalizing a quantized operand gives that storage and that
zero-point.
-/
namespace TensorLowering

open Numeric NdArray

namespace DType

variable {t : DType} {n : Int}

/-- Integers of at most 32 bits. -/
def IsShortInteger : DType → Prop
  | signed w | unsigned w => w ≠ .w64
  | _ => False

/-- The integer is one of the type. -/
def Contains : DType → Int → Prop
  | signed w, n => -w.half ≤ n ∧ n < w.half
  | unsigned w, n => 0 ≤ n ∧ n < 2 * w.half
  | _, _ => False

instance : DecidablePred IsShortInteger
  | signed w | unsigned w => inferInstanceAs (Decidable (w ≠ .w64))
  | bool | float16 | float32 | float64 | bfloat16 | complex64 | complex128 => isFalse id

instance (n : Int) : DecidablePred (Contains · n)
  | signed w => inferInstanceAs (Decidable (-w.half ≤ n ∧ n < w.half))
  | unsigned w => inferInstanceAs (Decidable (0 ≤ n ∧ n < 2 * w.half))
  | bool | float16 | float32 | float64 | bfloat16 | complex64 | complex128 => isFalse id

/-- The zero-point for signed storage. -/
def signedZero (t : DType) (z : Int) : Int :=
  if t.isUnsignedInteger then z + signShift t.bitWidth else z

/-- The zero-point of normalized storage: truncated, and shifted with unsigned storage. -/
def storedZero (t : DType) (y : Binary64) : Binary64 :=
  let truncated := zeroPointType.round y
  if t.isUnsignedInteger then
    zeroPointType.round
      (.ofInt (truncated.toInt64 + (zeroPointType.round (.ofInt (signShift t.bitWidth))).toInt64))
  else truncated

theorem half_le {w : IntWidth} (h : w ≠ .w64) : w.half ≤ 2147483648 := by
  cases w with
  | w64 => exact absurd rfl h
  | w8 | w16 | w32 => decide

theorem signShift_unsigned (w : IntWidth) : signShift (unsigned w).bitWidth = -w.half := by
  cases w <;> decide +kernel

/-- Added to a zero-point, the shift is an integer of 32 bits. -/
theorem toInt64_round_signShift {w : IntWidth} (h : w ≠ .w64) :
    (zeroPointType.round (.ofInt (signShift (unsigned w).bitWidth))).toInt64 = -w.half := by
  cases w with
  | w64 => exact absurd rfl h
  | w8 | w16 | w32 => decide +kernel

theorem IsShortInteger.natAbs_lt (h : t.IsShortInteger) (hn : t.Contains n) :
    n.natAbs < twoPow 53 := by
  rw [twoPow_53]
  cases t with
  | signed w | unsigned w =>
      have hhalf := half_le h
      simp only [Contains] at hn
      omega
  | _ => exact h.elim

/-- Rounding leaves the integers of the type as they are. -/
theorem IsShortInteger.round_ofInt (h : t.IsShortInteger) (hn : t.Contains n) :
    t.round (.ofInt n) = .ofInt n := by
  have hsmall := h.natAbs_lt hn
  cases t with
  | signed w =>
      have hbits := w.two_mul_half
      rw [round_signed h, Binary64.toInt64_ofInt hsmall]
      simp only [Contains] at hn
      rw [Int.bmod_eq_of_le (by omega) (by omega)]
  | unsigned w =>
      have hbits := w.two_mul_half
      rw [round_unsigned h, Binary64.toInt64_ofInt hsmall]
      simp only [Contains] at hn
      rw [Int.emod_eq_of_lt hn.1 (by omega)]
  | _ => exact h.elim

/-- Elements of the type are its integers. -/
theorem IsShortInteger.exists_round (h : t.IsShortInteger) (x : Binary64) :
    ∃ n, t.round x = .ofInt n ∧ t.Contains n := by
  cases t with
  | signed w =>
      have hbits := w.two_mul_half
      have hlo := Int.le_bmod (x := x.toInt64) (twoPow_pos w.bits)
      have hhi := Int.bmod_lt (x := x.toInt64) (twoPow_pos w.bits)
      refine ⟨_, round_signed h x, ?_⟩
      simp only [Contains]
      omega
  | unsigned w =>
      have hbits := w.two_mul_half
      have hpos := twoPow_pos w.bits
      have hlo := Int.emod_nonneg x.toInt64 (b := twoPow w.bits) (by omega)
      have hhi := Int.emod_lt_of_pos x.toInt64 (b := twoPow w.bits) (by omega)
      refine ⟨_, round_unsigned h x, ?_⟩
      simp only [Contains]
      omega
  | _ => exact h.elim

theorem IsShortInteger.isNumeric (h : t.IsShortInteger) : t.isNumeric = true := by
  cases t with
  | signed w | unsigned w => rfl
  | _ => exact h.elim

theorem IsShortInteger.toSigned (h : t.IsShortInteger) : t.toSigned.IsShortInteger := by
  cases t with
  | signed w | unsigned w => exact h
  | _ => exact h.elim

/-- The shift takes the integers of a type to those of its signed counterpart. -/
theorem IsShortInteger.contains_signedZero (h : t.IsShortInteger) (hn : t.Contains n) :
    t.toSigned.Contains (t.signedZero n) := by
  cases t with
  | signed w => exact hn
  | unsigned w =>
      have hshift := signShift_unsigned w
      simp only [signedZero, isUnsignedInteger, ↓reduceIte, hshift]
      simp only [Contains, DType.toSigned] at hn ⊢
      omega
  | _ => exact h.elim

/-- Short integers are integers of 32 bits. -/
theorem contains_zeroPointType {w : IntWidth} (h : w ≠ .w64) (hn : (signed w).Contains n) :
    zeroPointType.Contains n := by
  have hhalf := half_le h
  have hzero : (IntWidth.half .w32 : Int) = 2147483648 := rfl
  simp only [Contains, zeroPointType, hzero] at hn ⊢
  omega

/-- The shift is an integer of the signed counterpart. -/
theorem round_signShift (w : IntWidth) :
    (unsigned w).toSigned.round (.ofInt (signShift (unsigned w).bitWidth)) =
      .ofInt (signShift (unsigned w).bitWidth) := by
  cases w <;> decide +kernel

theorem inInt64_zeroPoints (x y : Binary64) :
    InInt64 ((zeroPointType.round x).toInt64 + (zeroPointType.round y).toInt64) := by
  have hsmall : ∀ x, (zeroPointType.round x).toInt64.natAbs < twoPow 53 := by
    intro x
    have hbound := natAbs_bmod_lt x.toInt64 (b := 32) (by decide)
    rw [zeroPointType, round_signed (by decide)]
    change (Binary64.ofInt (x.toInt64.bmod (twoPow 32))).toInt64.natAbs < _
    rwa [Binary64.toInt64_ofInt hbound]
  have hx := hsmall x
  have hy := hsmall y
  rw [twoPow_53] at hx hy
  simp only [InInt64, minInt64, maxInt64]
  omega

/-- Signed elements are read as they are. -/
theorem extend_toSigned (h : t.IsShortInteger) (x : Binary64) :
    CastKind.signed.extend t.toSigned x = x := by
  cases t with
  | signed w | unsigned w => rfl
  | _ => exact h.elim

end DType

namespace Tensor

variable {t : Tensor} {ix : List Nat} {z : Int}

/-- The whole part of an entry. -/
def integer (t : Tensor) (ix : List Nat) : Int := (t.entry ix).toInt64

theorem entry_eq_ofInt (h : t.dtype.IsShortInteger) (ix : List Nat) :
    t.entry ix = .ofInt (t.integer ix) ∧ t.dtype.Contains (t.integer ix) := by
  obtain ⟨n, hn, hcontains⟩ := h.exists_round (t.entry ix)
  rw [round_entry] at hn
  have hinteger : t.integer ix = n := by
    rw [integer, hn, Binary64.toInt64_ofInt (h.natAbs_lt hcontains)]
  rw [hinteger]
  exact ⟨hn, hcontains⟩

/-- The tensor with its integers shifted to signed ones. -/
def signedStorage (t : Tensor) : Tensor :=
  if t.dtype.isUnsignedInteger then
    ofEntries t.dtype.toSigned t.shape fun ix => t.entry ix + .ofInt (signShift t.dtype.bitWidth)
  else t

@[simp] theorem shape_signedStorage (t : Tensor) : t.signedStorage.shape = t.shape := by
  unfold signedStorage
  split <;> rfl

@[simp] theorem dtype_signedStorage (t : Tensor) :
    t.signedStorage.dtype = t.dtype.toSigned := by
  unfold signedStorage
  split
  next => rfl
  next hsigned =>
    cases hdtype : t.dtype with
    | unsigned w => rw [hdtype] at hsigned; exact absurd rfl hsigned
    | _ => rfl

theorem entry_signedStorage (h : t.dtype.IsShortInteger) (hix : InBounds t.shape ix) :
    t.signedStorage.entry ix = .ofInt (t.dtype.signedZero (t.integer ix)) := by
  obtain ⟨hentry, hcontains⟩ := entry_eq_ofInt h ix
  have hsigned := h.contains_signedZero hcontains
  unfold signedStorage
  split
  next hunsigned =>
    have hvalue : t.dtype.signedZero (t.integer ix) =
        t.integer ix + signShift t.dtype.bitWidth := if_pos hunsigned
    have hshift : (signShift t.dtype.bitWidth).natAbs < twoPow 53 := by
      cases hdtype : t.dtype with
      | unsigned w =>
          rw [hdtype] at h
          have hhalf := DType.half_le h
          rw [DType.signShift_unsigned, twoPow_53]
          omega
      | _ => rw [hdtype] at hunsigned; cases hunsigned
    rw [hvalue] at hsigned ⊢
    rw [entry_ofEntries hix, hentry, Binary64.ofInt_add (h.natAbs_lt hcontains) hshift,
      h.toSigned.round_ofInt hsigned]
  next hunsigned => rw [hentry, DType.signedZero, if_neg hunsigned]

/-- The storage that normalization computes for unsigned integers. -/
theorem ofEntries_signShift {w : IntWidth} (h : t.dtype = .unsigned w) :
    ofEntries (DType.unsigned w).toSigned t.shape (fun ix => ElementwiseOp.add.apply (t.entry ix)
      ((DType.unsigned w).toSigned.round
        (Scalar.int (signShift (DType.unsigned w).bitWidth)).toDouble)) = t.signedStorage := by
  rw [Scalar.toDouble, DType.round_signShift, signedStorage, h]
  rfl

/-- Other storage is kept. -/
theorem signedStorage_eq_self (h : t.dtype.isUnsignedInteger ≠ true) : t.signedStorage = t :=
  if_neg h

/-- A factor of signed storage is the difference of the element and the zero-point. -/
theorem factor_signedStorage (h : t.dtype.IsShortInteger) (hz : t.dtype.Contains z)
    (hix : InBounds t.shape ix) :
    t.signedStorage.factor .signed (some (.ofInt (t.dtype.signedZero z))) ix =
      .ofInt (t.integer ix - z) := by
  obtain ⟨-, hcontains⟩ := entry_eq_ofInt h ix
  have hdiff : t.dtype.signedZero (t.integer ix) - t.dtype.signedZero z = t.integer ix - z := by
    unfold DType.signedZero
    split <;> omega
  simp only [factor, CastKind.factor]
  rw [dtype_signedStorage, DType.extend_toSigned h, entry_signedStorage h hix,
    Binary64.ofInt_sub (h.toSigned.natAbs_lt (h.contains_signedZero hcontains))
      (h.toSigned.natAbs_lt (h.contains_signedZero hz)), hdiff]

/-- How far the integers are from a zero-point. -/
def difference (t : Tensor) (z : Int) (ix : List Nat) : Int := t.integer ix - z

theorem toInt?_factor (h : t.dtype.IsShortInteger) (hz : t.dtype.Contains z)
    (hix : InBounds t.shape ix) :
    (t.signedStorage.factor .signed (some (.ofInt (t.dtype.signedZero z))) ix).toInt? =
      some (t.difference z ix) := by
  obtain ⟨-, hcontains⟩ := entry_eq_ofInt h ix
  have hbound : ∀ n, t.dtype.Contains n → n.natAbs ≤ 4294967296 := by
    intro n hn
    cases hdtype : t.dtype with
    | signed w | unsigned w =>
        rw [hdtype] at h hn
        have hhalf := DType.half_le h
        simp only [DType.Contains] at hn
        omega
    | _ =>
        rw [hdtype] at h
        exact h.elim
  have hentry := hbound _ hcontains
  have hzero := hbound _ hz
  rw [factor_signedStorage h hz hix, difference]
  refine Binary64.toInt?_ofInt ?_
  rw [twoPow_53]
  omega

end Tensor

/-! ## Quantized operands of a program -/

/-- The operand is integer storage with a zero-point that the storage could hold. -/
structure Graph.Quantized (g : Graph) (env : Env) (id : ValueId) (t : Tensor) (z : Int) : Prop where
  short : t.dtype.IsShortInteger
  contains : t.dtype.Contains z
  operand : ∃ storage zeroPoint x,
    OperandInfo.extract g id = .ok ⟨storage, t.type, some zeroPoint⟩ ∧
      env.get? storage = some (.tensor t) ∧ env.number zeroPoint = .ok x ∧ x.toInt? = some z

namespace Stage

theorem isSome_eq_of_rel {α β : Type} {r : α → β → Prop} {a : Option α} {b : Option β}
    (h : Option.Rel r a b) : a.isSome = b.isSome := by
  cases h <;> rfl

theorem rel_imp {α β : Type} {r q : α → β → Prop} {a : Option α} {b : Option β}
    (himp : ∀ a b, r a b → q a b) (h : Option.Rel r a b) : Option.Rel q a b := by
  cases h with
  | none => exact .none
  | some h => exact .some (himp _ _ h)

/-- A quantized operand at a stage of a construction. -/
structure HasQuantized (s : Stage) (x : OperandInfo) (t : Tensor) (z : Int) : Prop where
  short : t.dtype.IsShortInteger
  contains : t.dtype.Contains z
  type : x.type = t.type
  storage : s.Holds x.value t
  zeroPoint : ∃ v y, x.zeroPoint = some v ∧ s.env.number v = .ok y ∧ y.toInt? = some z

/-- An operand with the tensor that it holds and its zero-point, or none, as a reduction reads
them. -/
structure HasOperand (s : Stage) (x : OperandInfo) (t : Tensor) (z : Option Binary64) : Prop where
  type : x.type = t.type
  storage : s.Holds x.value t
  zeroPoint : Option.Rel (fun v z => s.HasScalar v z) x.zeroPoint z

variable {s s' : Stage} {x : OperandInfo} {t : Tensor} {z : Int}

theorem Le.number (h : s ≤ s') {v : ValueId} {y : Binary64} (hv : s.env.number v = .ok y) :
    s'.env.number v = .ok y := by
  cases hget : s.env.get? v with
  | none => simp [Env.number, Env.get, hget, bind, Except.bind] at hv
  | some value => simpa [Env.number, Env.get, hget, h.get v value hget] using hv

theorem HasQuantized.mono (h : s.HasQuantized x t z) (hle : s ≤ s') : s'.HasQuantized x t z := by
  obtain ⟨v, y, hv, hnumber, hy⟩ := h.zeroPoint
  exact ⟨h.short, h.contains, h.type, h.storage.mono hle, v, y, hv, Le.number hle hnumber, hy⟩

theorem HasQuantized.rank (h : s.HasQuantized x t z) : x.rank = t.shape.length := by
  rw [OperandInfo.rank, h.type, Tensor.rank_type]

section HasOperand

variable {y : OperandInfo} {u : Tensor} {zx : Option Binary64} {zs : Option (Binary64 × Binary64)}

theorem HasOperand.mono (h : s.HasOperand x t zx) (hle : s ≤ s') : s'.HasOperand x t zx :=
  ⟨h.type, h.storage.mono hle, rel_imp (fun _ _ hv => hv.mono hle) h.zeroPoint⟩

theorem HasOperand.isQuantized (h : s.HasOperand x t zx) : x.isQuantized = zx.isSome :=
  isSome_eq_of_rel h.zeroPoint

/-- The zero-points of a pair, both quantized or neither. -/
theorem HasZeroPoints.of_rel
    (hx : Option.Rel (fun v z => s.HasScalar v z) x.zeroPoint (zs.map Prod.fst))
    (hy : Option.Rel (fun v z => s.HasScalar v z) y.zeroPoint (zs.map Prod.snd)) :
    s.HasZeroPoints (x.zeroPoints? y) zs := by
  rw [OperandInfo.zeroPoints?]
  generalize x.zeroPoint = v at hx ⊢
  generalize y.zeroPoint = w at hy ⊢
  cases zs with
  | none =>
      cases hx
      exact .none
  | some zs =>
      cases hx with
      | some hx =>
          cases hy with
          | some hy => exact .some ⟨hx, hy⟩

theorem HasOperand.zeroPoints (hx : s.HasOperand x t (zs.map Prod.fst))
    (hy : s.HasOperand y u (zs.map Prod.snd)) : s.HasZeroPoints (x.zeroPoints? y) zs :=
  .of_rel hx.zeroPoint hy.zeroPoint

end HasOperand

end Stage

open Stage

theorem Graph.Quantized.hasQuantized {g : Graph} {supply : Supply} {env : Env} {id : ValueId}
    {t : Tensor} {z : Int} (hq : g.Quantized env id t z) (h : g.evaluate supply = .ok env) :
    ∃ x, OperandInfo.extract g id = .ok x ∧ (Stage.ofRun h).HasQuantized x t z := by
  obtain ⟨storage, zeroPoint, y, hextract, hget, hnumber, hy⟩ := hq.operand
  have htype : g.tensorType storage = .ok t.type := by
    unfold OperandInfo.extract at hextract
    obtain ⟨node, -, hextract⟩ := Except.bind_eq_ok.1 hextract
    split at hextract
    · obtain ⟨type, htype, hinfo⟩ := Except.bind_eq_ok.1 hextract
      cases hinfo
      exact htype
    · obtain ⟨type, -, hinfo⟩ := Except.bind_eq_ok.1 hextract
      cases hinfo
  exact ⟨_, hextract, hq.short, hq.contains, rfl, ⟨htype, hget⟩, zeroPoint, y, rfl, hnumber, hy⟩

namespace Build

variable {fails : LowerError → Prop} {s : Stage} {v w : ValueId} {t : Tensor} {y : Binary64}
  {z : Int} {dtype : DType}

theorem scalarCast_gives (hv : s.env.number v = .ok y) :
    (scalarCast v dtype).Gives fails s fun w s' => s'.HasScalar w (dtype.round y) := by
  have hvalue : evalNode s.supply s.env ⟨.scalarCast v, .scalar dtype⟩ =
      .ok (.roundedScalar dtype y) := by
    simp only [evalNode, hv, Bind.bind, Except.bind]
    rfl
  exact .create hvalue ⟨dtype, s.get?_emit_self _ _ _⟩

/-- A constant scalar, with its declared type. -/
theorem scalar_typed {value : Scalar} :
    (scalar value dtype).Gives fails s fun w s' =>
      s'.HasScalar w (dtype.round value.toDouble) ∧ s'.graph.typeOf w = .ok (.scalar dtype) := by
  refine .create rfl ⟨⟨dtype, s.get?_emit_self _ _ _⟩, ?_⟩
  rw [Graph.typeOf, Graph.node, s.node?_emit_self]
  rfl

theorem scalarAddConst_gives {n : Int} (hv : s.HasScalar v y)
    (hsum : InInt64 (y.toInt64 + (dtype.round (.ofInt n)).toInt64)) :
    (scalarAddConst v n dtype).Gives fails s fun w s' =>
      s'.HasScalar w (dtype.round (.ofInt (y.toInt64 + (dtype.round (.ofInt n)).toInt64))) := by
  refine Gives.bind scalar_gives fun rhs s₁ hle₁ hrhs => ?_
  have hlhs := (hv.mono hle₁).number
  have hnumber := hrhs.number
  have heval : ArithOp.add.eval? y.toInt64 (dtype.round (Scalar.int n).toDouble).toInt64 =
      some (y.toInt64 + (dtype.round (.ofInt n)).toInt64) := bounded?_eq_some.2 ⟨hsum, rfl⟩
  have hvalue : evalNode s₁.supply s₁.env ⟨.arith .add v rhs, .scalar dtype⟩ =
      .ok (.roundedScalar dtype (.ofInt (y.toInt64 + (dtype.round (.ofInt n)).toInt64))) := by
    simp only [evalNode, hlhs, hnumber, heval, Bind.bind, Except.bind]
    rfl
  exact .create hvalue ⟨dtype, s₁.get?_emit_self _ _ _⟩

/-- A tensor combined with a scalar. -/
theorem evalNode_elementwise_scalar {op : ElementwiseOp} {shape : Shape}
    (hv : s.env.tensor v = .ok t) (hw : s.HasScalar w y) :
    evalNode s.supply s.env ⟨.elementwise op v w, .tensor ⟨dtype, shape⟩⟩ =
      .ok (.tensor (.ofEntries dtype t.shape fun ix => op.apply (t.entry ix) y)) := by
  obtain ⟨scalarType, hget⟩ := hw
  have hnumber : s.env.number w = .ok y := HasScalar.number ⟨_, hget⟩
  have hw' : s.env.get w = .ok (.scalar scalarType y) := by simp [Env.get, hget]
  have hresult : Tensor.ofArray dtype (t.data.map (op.apply · y)) =
      .ofEntries dtype t.shape fun ix => op.apply (t.entry ix) y := by
    rw [Tensor.ofArray_eq_ofEntries]
    exact Tensor.ofEntries_congr fun ix hix => entry_map _ _ hix
  simp only [evalNode, hv, hw', hnumber, Bind.bind, Except.bind]
  rw [← hresult]
  rfl

theorem elementwise_scalar_gives {op : ElementwiseOp} {scalarType : DType} (hv : s.Holds v t)
    (hw : s.HasScalar w y) (htype : s.graph.typeOf w = .ok (.scalar scalarType)) :
    (elementwise op v w dtype).Gives fails s fun v' s' =>
      s'.Holds v' (.ofEntries dtype t.shape fun ix => op.apply (t.entry ix) y) := by
  refine .tensorType hv (Gives.query htype ?_)
  exact .createTensor (t := .ofEntries dtype t.shape fun ix => op.apply (t.entry ix) y) rfl
    (evalNode_elementwise_scalar hv.tensor hw)

/-- Truncating a zero-point keeps it up to a multiple of the number of integers. -/
theorem round_zeroPointType {n : Int} (hy : y.toInt? = some n) (hn : n.natAbs < twoPow 53) :
    zeroPointType.round y = .ofInt (n.bmod (twoPow 32)) := by
  have hw : IntWidth.w32 ≠ .w64 := by decide
  rw [zeroPointType, DType.round_signed hw, Binary64.toInt64_of_toInt? hy hn]
  rfl

/-- Shifting a truncated zero-point of unsigned storage down by half its range. -/
theorem round_shifted {w : IntWidth} (hw : w ≠ .w64) (hz : (DType.unsigned w).Contains z) :
    zeroPointType.round (.ofInt (z.bmod (twoPow 32) + -w.half)) =
      .ofInt ((DType.unsigned w).signedZero z) := by
  have hhalf := DType.half_le hw
  have hbmod := DType.natAbs_bmod_lt z (b := 32) (by decide)
  have hlo := Int.le_bmod (x := z) (twoPow_pos 32)
  have hhi := Int.bmod_lt (x := z) (twoPow_pos 32)
  have hvalue : (DType.unsigned w).signedZero z = z + -w.half := by
    rw [← DType.signShift_unsigned]
    rfl
  have hsmall : (z.bmod (twoPow 32) + -w.half).natAbs < twoPow 53 := by
    rw [twoPow_32] at hlo hhi ⊢
    rw [twoPow_53]
    omega
  have hw32 : IntWidth.w32 ≠ .w64 := by decide
  simp only [DType.Contains] at hz
  rw [zeroPointType, DType.round_signed hw32, Binary64.toInt64_ofInt hsmall, hvalue]
  change Binary64.ofInt ((z.bmod (twoPow 32) + -w.half).bmod (twoPow 32)) = _
  rw [Int.bmod_add_bmod, Int.bmod_eq_of_le]
  · rw [twoPow_32]
    omega
  · rw [twoPow_32]
    omega

/-- The zero-point that normalization computes goes with signed storage. -/
theorem storedZero_of_short {n : Int} (h : dtype.IsShortInteger) (hn : dtype.Contains n)
    (hy : y.toInt? = some n) : dtype.storedZero y = .ofInt (dtype.signedZero n) := by
  have hround := round_zeroPointType hy (h.natAbs_lt hn)
  unfold DType.storedZero
  dsimp only
  rw [hround]
  cases dtype with
  | unsigned w =>
      have hread : (Binary64.ofInt (n.bmod (twoPow 32))).toInt64 = n.bmod (twoPow 32) :=
        Binary64.toInt64_ofInt (DType.natAbs_bmod_lt n (by decide))
      rw [if_pos (show (DType.unsigned w).isUnsignedInteger = true from rfl), hread,
        DType.toInt64_round_signShift h, round_shifted h hn]
  | signed w =>
      have hbmod : n.bmod (twoPow 32) = n := by
        have hkeeps := DType.contains_zeroPointType h hn
        have hhalf : (IntWidth.half .w32 : Int) = 2147483648 := rfl
        simp only [DType.Contains, zeroPointType, hhalf] at hkeeps
        refine Int.bmod_eq_of_le ?_ ?_
        · rw [twoPow_32]
          omega
        · rw [twoPow_32]
          omega
      rw [hbmod]
      rfl
  | _ => exact h.elim

/-- Storage of any numeric type is normalized together with the zero-point. -/
theorem normalize_stores {x : OperandInfo} (htype : x.type = t.type) (hx : s.Holds x.value t)
    (hzero : x.zeroPoint = some v) (hv : s.env.number v = .ok y) :
    x.normalize.Gives fails s fun x' s' =>
      s'.HasOperand x' t.signedStorage (some (t.dtype.storedZero y)) := by
  unfold OperandInfo.normalize
  rw [hzero]
  refine Gives.bind (scalarCast_gives hv) fun truncated s₁ hle₁ htruncated => ?_
  have hx₁ := hx.mono hle₁
  dsimp only
  rw [htype, Tensor.dtype_type]
  cases hdtype : t.dtype with
  | unsigned w =>
      rw [if_pos (show (DType.unsigned w).isUnsignedInteger = true from rfl)]
      refine Gives.bind (scalarAddConst_gives htruncated (DType.inInt64_zeroPoints _ _)) ?_
      intro shifted s₂ hle₂ hshifted
      refine Gives.bind scalar_typed fun shift s₃ hle₃ hscalar => ?_
      refine Gives.bind (elementwise_scalar_gives ((hx₁.mono hle₂).mono hle₃) hscalar.1
        hscalar.2) fun storage s₄ hle₄ hstorage => ?_
      have hsame := Tensor.ofEntries_signShift hdtype
      refine Gives.tensorType hstorage (.pure ⟨?_, hstorage.of_eq hsame, .some ?_⟩)
      · rw [← hsame]
      · exact (hshifted.mono hle₃).mono hle₄
  | _ =>
      rw [if_neg (by exact Bool.false_ne_true),
        Tensor.signedStorage_eq_self (by rw [hdtype]; exact Bool.false_ne_true)]
      exact .pure ⟨rfl, hx₁, .some htruncated⟩

/-- A quantized operand gets signed storage and the zero-point that goes with it. -/
theorem normalize_gives {x : OperandInfo} (hx : s.HasQuantized x t z) :
    x.normalize.Gives fails s fun x' s' =>
      s'.HasOperand x' t.signedStorage (some (.ofInt (t.dtype.signedZero z))) := by
  obtain ⟨v, y, hzero, hnumber, hy⟩ := hx.zeroPoint
  rw [← storedZero_of_short hx.short hx.contains hy]
  exact normalize_stores hx.type hx.storage hzero hnumber

end Build

end TensorLowering
