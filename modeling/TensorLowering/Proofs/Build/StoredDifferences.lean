import TensorLowering.Proofs.Build.DeclaredOperands
import TensorLowering.Proofs.Build.Inputs
import TensorLowering.Proofs.Build.Limits

/-!
# Differences that normalization keeps

A quantized operand stands for the differences between its stored integers and its zero-point.
Normalizing it shifts unsigned storage as a tensor of doubles, and the zero-point as an integer of
32 bits. Main statement: the two shifts cancel, for integers of every width but the unsigned ones of
64 bits. Their shift is a multiple of `2 ^ 32`, and is lost from the zero-point.
-/
namespace TensorLowering

open Numeric NdArray

namespace DType

variable {t : DType} {y : Binary64} {m n z : Int}

theorem signedZero_sub_signedZero (t : DType) (m n : Int) :
    t.signedZero m - t.signedZero n = m - n := by
  unfold signedZero
  split <;> omega

/-- A zero-point below `2 ^ 31` is truncated to itself. -/
theorem round_zeroPointType_of_lt (hy : y.toInt? = some z) (hsmall : z.natAbs < twoPow 31) :
    zeroPointType.round y = .ofInt z ∧ (Binary64.ofInt z).toInt64 = z := by
  have hlt : z.natAbs < twoPow 53 := Nat.lt_trans hsmall (twoPow_lt (by decide))
  have hbmod : z.bmod (twoPow 32) = z := by
    have htwice : twoPow 32 = 2 * twoPow 31 := by decide +kernel
    exact Int.bmod_eq_of_le (by omega) (by omega)
  refine ⟨?_, Binary64.toInt64_ofInt hlt⟩
  rw [Build.round_zeroPointType hy hlt, hbmod]

theorem natAbs_signedZero_lt (hwide : t ≠ .unsigned .w64) (hsmall : z.natAbs < twoPow 31) :
    (t.signedZero z).natAbs < twoPow 53 := by
  have h31 : twoPow 31 = 2147483648 := by decide +kernel
  rw [twoPow_53]
  unfold signedZero
  split
  next hunsigned =>
    cases t with
    | unsigned w =>
        have hhalf := half_le fun h : w = .w64 => hwide (congrArg unsigned h)
        rw [signShift_unsigned]
        omega
    | _ => cases hunsigned
  next => omega

/-- Normalization shifts a zero-point as it shifts the integers of the type. -/
theorem storedZero_of_toInt? (hinteger : t.isInteger = true) (hwide : t ≠ .unsigned .w64)
    (hy : y.toInt? = some z) (hcontains : t.Contains z) (hsmall : z.natAbs < twoPow 31) :
    (t.storedZero y).toInt? = some (t.signedZero z) := by
  have hexact := Binary64.toInt?_ofInt (natAbs_signedZero_lt hwide hsmall)
  cases t with
  | signed w =>
      have hround := (round_zeroPointType_of_lt hy hsmall).1
      exact (congrArg Binary64.toInt? hround).trans hexact
  | unsigned w =>
      have hshort : (unsigned w).IsShortInteger := fun h => hwide (congrArg unsigned h)
      rwa [Build.storedZero_of_short hshort hcontains hy]
  | _ => cases hinteger

/-- The shift of 64 bits is lost from the zero-point. -/
theorem storedZero_unsigned_w64 (hy : y.toInt? = some z) (hsmall : z.natAbs < twoPow 31) :
    (unsigned .w64).storedZero y = .ofInt z := by
  have hlost :
      (zeroPointType.round (.ofInt (signShift (unsigned .w64).bitWidth))).toInt64 = 0 := by
    decide +kernel
  obtain ⟨hround, hread⟩ := round_zeroPointType_of_lt hy hsmall
  have hagain := round_zeroPointType_of_lt
    (Binary64.toInt?_ofInt (Nat.lt_trans hsmall (twoPow_lt (by decide)))) hsmall
  unfold storedZero
  dsimp only
  rw [hround, hlost, hread, Int.add_zero, hagain.1]
  exact if_pos rfl

end DType

/-- The integers of signed storage are the stored ones, shifted if they are unsigned. -/
theorem Tensor.toInt?_signedStorage {t : Tensor} {ix : List Nat} {n : Int}
    (hwide : t.dtype ≠ .unsigned .w64) (hix : InBounds t.shape ix)
    (hn : (t.entry ix).toInt? = some n) :
    (t.signedStorage.entry ix).toInt? = some (t.dtype.signedZero n) := by
  by_cases hunsigned : t.dtype.isUnsignedInteger = true
  · have hshort : t.dtype.IsShortInteger := by
      cases hdtype : t.dtype with
      | unsigned w =>
          rw [hdtype] at hwide
          exact fun h => hwide (congrArg DType.unsigned h)
      | _ =>
          rw [hdtype] at hunsigned
          cases hunsigned
    obtain ⟨hentry, hcontains⟩ := entry_eq_ofInt hshort ix
    have hsame : t.integer ix = n := by
      rw [hentry, Binary64.toInt?_ofInt (hshort.natAbs_lt hcontains)] at hn
      exact Option.some.inj hn
    rw [entry_signedStorage hshort hix, hsame]
    exact Binary64.toInt?_ofInt
      (hshort.toSigned.natAbs_lt (hshort.contains_signedZero (hsame ▸ hcontains)))
  · rw [signedStorage_eq_self hunsigned, DType.signedZero, if_neg hunsigned, hn]

namespace Graph

variable {g : Graph} {supply : Supply} {env : Env} {id : ValueId} {t t' : Tensor} {y y' : Binary64}
  {z : Int}

/-- Normalizing the operand creates nodes that compute the storage and the zero-point. -/
def NormalizesTo (g : Graph) (supply : Supply) (id : ValueId) (t : Tensor) (y : Binary64) : Prop :=
  ∃ x x' d env v dtype, OperandInfo.extract g id = .ok x ∧
    x.normalize.run (.ofGraph g) = (.ok x', d) ∧ d.commit.evaluate supply = .ok env ∧
    env.get? x'.value = some (.tensor t) ∧ x'.zeroPoint = some v ∧
    env.get? v = some (.scalar dtype y)

/-- Normalizing the operand computes signed storage of the same width and shape and an integer as
its zero-point, and every stored integer is as far from its zero-point as before. -/
def KeepsDifferences (g : Graph) (supply : Supply) (id : ValueId) (t : Tensor) (z : Int) : Prop :=
  ∃ t' y' z', g.NormalizesTo supply id t' y' ∧ t'.dtype = t.dtype.toSigned ∧ t'.shape = t.shape ∧
    y'.toInt? = some z' ∧ ∀ ix, InBounds t.shape ix → ∀ n, (t.entry ix).toInt? = some n →
      ∃ n', (t'.entry ix).toInt? = some n' ∧ n' - z' = n - z

/-- What normalization computes. -/
theorem Operand.normalizesTo_iff (hx : g.Operand env id t (some y))
    (heval : g.evaluate supply = .ok env) :
    g.NormalizesTo supply id t' y' ↔ t' = t.signedStorage ∧ y' = t.dtype.storedZero y := by
  obtain ⟨x, hextract, hreads⟩ := hx.reads heval
  have hmeets := Build.normalize_meets (l := .sound) hreads
  rcases hmeets.gives.commit heval with ⟨e, d, -, hfalse⟩ | ⟨x', d, s, hrun, ⟨hfactor, -⟩, hcommit⟩
  · exact hfalse.elim
  have hstorage := hfactor.storage.get
  rw [Tensor.normalized_some] at hstorage
  have hzero := hfactor.zeroPoint
  rw [Option.map_some] at hzero
  generalize hv : x'.zeroPoint = v at hzero
  obtain @⟨v, _, dtype, hscalar⟩ := hzero
  constructor
  · rintro ⟨x₁, x₁', d₁, env₁, v₁, dtype₁, hextract₁, hrun₁, hcommit₁, hstorage₁, hv₁, hscalar₁⟩
    cases hextract.symm.trans hextract₁
    cases hrun.symm.trans hrun₁
    cases hcommit.symm.trans hcommit₁
    cases hv.symm.trans hv₁
    cases hstorage.symm.trans hstorage₁
    cases hscalar.symm.trans hscalar₁
    exact ⟨rfl, rfl⟩
  · rintro ⟨rfl, rfl⟩
    exact ⟨x, x', d, s.env, v, dtype, hextract, hrun, hcommit, hstorage, hv, hscalar⟩

/-- Normalization keeps the differences between the stored integers and the zero-point. -/
theorem Operand.keepsDifferences (hx : g.Operand env id t (some y))
    (heval : g.evaluate supply = .ok env) (hinteger : t.dtype.isInteger = true)
    (hwide : t.dtype ≠ .unsigned .w64) (hy : y.toInt? = some z) (hcontains : t.dtype.Contains z)
    (hsmall : z.natAbs < twoPow 31) : g.KeepsDifferences supply id t z := by
  refine ⟨t.signedStorage, t.dtype.storedZero y, t.dtype.signedZero z,
    (hx.normalizesTo_iff heval).2 ⟨rfl, rfl⟩, t.dtype_signedStorage, t.shape_signedStorage,
    DType.storedZero_of_toInt? hinteger hwide hy hcontains hsmall, fun ix hix n hn => ?_⟩
  exact ⟨t.dtype.signedZero n, Tensor.toInt?_signedStorage hwide hix hn,
    t.dtype.signedZero_sub_signedZero n z⟩

section Shifts

variable {a b : Tensor} {za zb : Int}

/-- Storage with a zero-point is an operand with both. -/
theorem operand_takingQuantized (hget : env.get? ⟨0⟩ = some (.tensor a))
    (hzero : env.get? ⟨2⟩ = some (.index za)) :
    (takingQuantized a b za zb).Operand env ⟨4⟩ a (some (.ofInt za)) := by
  refine ⟨⟨⟨0⟩, a.type, some ⟨2⟩⟩, rfl, a.hasType_type, hget, .some ?_⟩
  simp [Env.number, Env.get, hzero, bind, Except.bind, pure, Except.pure]

/-- Stored bytes, with the ends of their range among them. -/
def bytes : Tensor := .ofEntries (.unsigned .w8) [4] fun ix =>
  .ofInt ([200, 0, 128, 255].getD (ix.headD 0) 0)

theorem keepsDifferences_bytes :
    (takingQuantized bytes bytes 3 3).KeepsDifferences (.takingIn [bytes, bytes]) ⟨4⟩ bytes 3 := by
  obtain ⟨env, heval, hget, -, hzero, -⟩ := evaluate_takingQuantized bytes bytes 3 3
    (by decide +kernel) (by decide +kernel)
  exact (operand_takingQuantized hget hzero).keepsDifferences heval rfl (by decide)
    (by decide +kernel) (by decide) (by decide +kernel)

/-- One stored integer of 64 bits, which a double holds when it is shifted, too. -/
def longInteger : Tensor := .ofEntries (.unsigned .w64) [1] fun _ => .ofInt 4096

/-- The integer is shifted and its zero-point is not. -/
theorem not_keepsDifferences_longInteger :
    ¬ (takingQuantized longInteger longInteger 1024 1024).KeepsDifferences
      (.takingIn [longInteger, longInteger]) ⟨4⟩ longInteger 1024 := by
  obtain ⟨env, heval, hget, -, hzero, -⟩ := evaluate_takingQuantized longInteger longInteger 1024
    1024 (by decide +kernel) (by decide +kernel)
  rintro ⟨t', y', z', hnormalizes, -, -, hz', hentries⟩
  obtain ⟨rfl, rfl⟩ :=
    ((operand_takingQuantized hget hzero).normalizesTo_iff heval).1 hnormalizes
  have hshifted :
      (longInteger.signedStorage.entry [0]).toInt? = some (-9223372036854771712) := by
    decide +kernel
  have hread : (Binary64.ofInt 1024).toInt? = some 1024 := by decide +kernel
  have hkept : longInteger.dtype.storedZero (.ofInt 1024) = .ofInt 1024 :=
    DType.storedZero_unsigned_w64 hread (by decide +kernel)
  obtain ⟨n', hn', hdiff⟩ := hentries [0] (by decide) 4096 (by decide +kernel)
  obtain rfl : 1024 = z' := Option.some.inj (hread.symm.trans (hkept ▸ hz'))
  obtain rfl : -9223372036854771712 = n' := Option.some.inj (hshifted.symm.trans hn')
  omega

end Shifts

end Graph

end TensorLowering
