import Mathlib.Algebra.Ring.Int.Defs
import Mathlib.Algebra.Ring.Nat
import TensorLowering.Element

/-!
# Integers among doubles

Sums and products of doubles that are integers are those of the integers, as long as they are
doubles themselves. Summing up terms is exact when every partial sum is a double.
-/
namespace TensorLowering

namespace Numeric.Binary64

variable {x y : Binary64} {m n : Int}

/-- The integer is a double. -/
def IsDouble (n : Int) : Prop := (ofInt n).toInt? = some n

instance (n : Int) : Decidable (IsDouble n) :=
  inferInstanceAs (Decidable (_ = _))

theorem isDouble_of_lt (h : n.natAbs < twoPow 53) : IsDouble n := toInt?_ofInt h

theorem signed_mul (a : Bool) (u k : Nat) : signed a (u * k) = signed a u * k := by
  cases a <;> simp [signed]

theorem signed_mul_signed (a b : Bool) (u v : Nat) :
    signed (a != b) (u * v) = signed a u * signed b v := by
  cases a <;> cases b <;> simp [signed]

/-- The sign and the units of an integer. -/
theorem toInt?_eq_some : x.toInt? = some n ↔
    x.isFinite = true ∧ x.units = n.natAbs * twoPow unitShift ∧
      signed x.isNegative n.natAbs = n := by
  have hpos := twoPow_pos unitShift
  cases x with
  | nan => simp [toInt?, isFinite]
  | infinite a => simp [toInt?, isFinite]
  | whole k hk =>
      simp only [toInt?, Option.some.injEq, isFinite, units, isNegative, true_and]
      constructor
      · rintro rfl
        exact ⟨rfl, signed_natAbs k⟩
      · rintro ⟨hunits, hsigned⟩
        have habs : k.natAbs = n.natAbs := Nat.eq_of_mul_eq_mul_right hpos hunits
        rw [← hsigned, ← habs, signed_natAbs]
  | scaled a u hu apart =>
      simp only [toInt?, isFinite, units, isNegative, true_and]
      constructor
      · intro h
        split at h
        next hmod =>
          cases h
          have hdiv := Nat.div_mul_cancel (Nat.dvd_of_mod_eq_zero hmod)
          rw [natAbs_signed]
          exact ⟨hdiv.symm, rfl⟩
        next => cases h
      · rintro ⟨rfl, hsigned⟩
        rw [if_pos (Nat.mul_mod_left _ _), Nat.mul_div_cancel _ hpos, hsigned]

theorem toInt?_ofUnits {a : Bool} (h : Format.double.Holds (n.natAbs * twoPow unitShift))
    (hsign : signed a n.natAbs = n) : (ofUnits a _ h).toInt? = some n :=
  toInt?_eq_some.2 ⟨isFinite_ofUnits a h, units_ofUnits a h, by rwa [isNegative_ofUnits]⟩

theorem IsDouble.holds (h : IsDouble n) :
    Format.double.Holds (n.natAbs * twoPow unitShift) := by
  obtain ⟨-, hunits, -⟩ := toInt?_eq_some.1 h
  exact hunits ▸ holds_units _

/-- A small integer is its own whole part. -/
theorem toInt64_of_toInt? (hx : x.toInt? = some n) (hn : n.natAbs < twoPow 53) : x.toInt64 = n := by
  have h53 := twoPow_53
  cases x with
  | nan => cases hx
  | infinite a => cases hx
  | whole k hk =>
      obtain rfl := Option.some.inj hx
      simp only [toInt64, clampToInt, minInt64, maxInt64]
      omega
  | scaled a u hu apart =>
      simp only [toInt?] at hx
      split at hx
      next =>
        obtain rfl := Option.some.inj hx
        simp only [toInt64, clampToInt, minInt64, maxInt64]
        omega
      next => cases hx

/-! ## Sums and products -/

theorem toInt?_add (hx : x.toInt? = some m) (hy : y.toInt? = some n) (h : IsDouble (m + n)) :
    (x + y).toInt? = some (m + n) := by
  obtain ⟨hxf, hxu, hxs⟩ := toInt?_eq_some.1 hx
  obtain ⟨hyf, hyu, hys⟩ := toInt?_eq_some.1 hy
  have hscale : ∀ {z : Binary64} {k : Int}, z.units = k.natAbs * twoPow unitShift →
      signed z.isNegative k.natAbs = k → z.signedUnits = k * twoPow unitShift := by
    intro z k hunits hsigned
    rw [signedUnits, hunits, signed_mul, hsigned]
  have hsum : x.signedUnits + y.signedUnits = (m + n) * twoPow unitShift := by
    rw [hscale hxu hxs, hscale hyu hys, Int.add_mul]
  have hadd : x + y = add x y := rfl
  rw [hadd, add_eq hxf hyf, hsum, Int.natAbs_mul, Int.natAbs_natCast, ofMagnitude_held _ h.holds]
  refine toInt?_ofUnits h.holds ?_
  simp only [mul_twoPow_eq_zero, mul_twoPow_neg]
  split
  next hzero => simp [hzero, signed]
  next => exact signed_natAbs _

theorem toInt?_mul (hx : x.toInt? = some m) (hy : y.toInt? = some n) (h : IsDouble (m * n)) :
    (x * y).toInt? = some (m * n) := by
  obtain ⟨hxf, hxu, hxs⟩ := toInt?_eq_some.1 hx
  obtain ⟨hyf, hyu, hys⟩ := toInt?_eq_some.1 hy
  have hround : Format.double.round (x.units * y.units) unitShift =
      Format.double.round ((m * n).natAbs * twoPow unitShift) 0 := by
    rw [← Format.double.round_mul ((m * n).natAbs * twoPow unitShift) 0 unitShift,
      Nat.zero_add, Int.natAbs_mul, hxu, hyu]
    simp only [Nat.mul_assoc, Nat.mul_left_comm]
  have hmul : x * y = mul x y := rfl
  have hsame : ofMagnitude (x.isNegative != y.isNegative) (x.units * y.units) unitShift =
      ofMagnitude (x.isNegative != y.isNegative) ((m * n).natAbs * twoPow unitShift) 0 := by
    simp only [ofMagnitude, hround]
  rw [hmul, mul_eq hxf hyf, hsame, ofMagnitude_held _ h.holds]
  refine toInt?_ofUnits h.holds ?_
  rw [Int.natAbs_mul, signed_mul_signed, hxs, hys]

/-- Terms summed up one after the other. -/
theorem toInt?_foldl {α : Type} {term : α → Binary64} {value : α → Int} {ps : List α}
    (hx : x.toInt? = some m) (hterm : ∀ p ∈ ps, (term p).toInt? = some (value p))
    (hsum : ∀ j, IsDouble (m + ((ps.take j).map value).sum)) :
    (ps.foldl (fun sum p => sum + term p) x).toInt? = some (m + (ps.map value).sum) := by
  induction ps generalizing x m with
  | nil => simpa using hx
  | cons p ps ih =>
      have hfirst : IsDouble (m + value p) := by simpa using hsum 1
      have hadd := toInt?_add hx (hterm p (by simp)) hfirst
      rw [List.foldl_cons, List.map_cons, List.sum_cons, ← Int.add_assoc]
      refine ih hadd (fun q hq => hterm q (by simp [hq])) fun j => ?_
      have hnext := hsum (j + 1)
      rwa [List.take_succ_cons, List.map_cons, List.sum_cons, ← Int.add_assoc] at hnext

/-- The integers, and their sums from the first one on, are doubles. -/
structure AddsExactly (first : Int) (terms : List Int) : Prop where
  term : ∀ n ∈ terms, IsDouble n
  subtotal : ∀ j, IsDouble (first + (terms.take j).sum)

theorem natAbs_sum_le (ns : List Int) : ns.sum.natAbs ≤ (ns.map Int.natAbs).sum := by
  induction ns with
  | nil => simp
  | cons n ns ih =>
      rw [List.sum_cons, List.map_cons, List.sum_cons]
      omega

/-- Small integers add up to small ones. -/
theorem addsExactly_of_lt {first : Int} {ns : List Int}
    (h : first.natAbs + (ns.map Int.natAbs).sum < twoPow 53) : AddsExactly first ns := by
  constructor
  · intro n hn
    obtain ⟨before, after, rfl⟩ := List.append_of_mem hn
    rw [List.map_append, List.map_cons, List.sum_append, List.sum_cons] at h
    exact isDouble_of_lt (by omega)
  · intro j
    have htake := natAbs_sum_le (ns.take j)
    have hsplit : (ns.map Int.natAbs).sum =
        ((ns.take j).map Int.natAbs).sum + ((ns.drop j).map Int.natAbs).sum := by
      rw [← List.sum_append, ← List.map_append, List.take_append_drop]
    exact isDouble_of_lt (by omega)

/-- Products summed up one after the other. -/
theorem AddsExactly.toInt?_products {α : Type} {a b : α → Binary64} {k l : α → Int} {ps : List α}
    (h : AddsExactly m (ps.map fun p => k p * l p)) (hx : x.toInt? = some m)
    (ha : ∀ p ∈ ps, (a p).toInt? = some (k p)) (hb : ∀ p ∈ ps, (b p).toInt? = some (l p)) :
    (ps.foldl (fun sum p => sum + a p * b p) x).toInt? =
      some (m + (ps.map fun p => k p * l p).sum) := by
  refine toInt?_foldl hx (fun p hp => ?_) fun j => ?_
  · exact toInt?_mul (ha p hp) (hb p hp) (h.term _ (List.mem_map_of_mem hp))
  · rw [List.map_take]
    exact h.subtotal j

/-- Of an integer other than zero, there is one double. -/
theorem eq_ofInt (hx : x.toInt? = some n) (hn : n ≠ 0) : x = ofInt n := by
  obtain ⟨hfinite, hunits, hsigned⟩ := toInt?_eq_some.1 hx
  have hheld : Format.double.Holds (n.natAbs * twoPow unitShift) := hunits ▸ holds_units x
  have hnegative : x.isNegative = decide (n < 0) := by
    cases hs : x.isNegative with
    | false =>
        rw [hs] at hsigned
        simp only [signed, Bool.false_eq_true, ↓reduceIte] at hsigned
        rw [eq_comm, decide_eq_false_iff_not]
        omega
    | true =>
        rw [hs] at hsigned
        simp only [signed, ↓reduceIte] at hsigned
        rw [eq_comm, decide_eq_true_iff]
        omega
  rw [ofInt_eq, ofMagnitude_held _ hheld, ← ofUnits_units hfinite]
  simp only [hunits, hnegative]

theorem eq_signedZero (hx : x.toInt? = some 0) : x = signedZero x.isNegative := by
  obtain ⟨hfinite, hunits, -⟩ := toInt?_eq_some.1 hx
  have hzero : x.units = 0 := by rw [hunits, Int.natAbs_zero, Nat.zero_mul]
  conv => lhs; rw [← ofUnits_units hfinite]
  simp only [hzero]
  rfl

end Numeric.Binary64

open Numeric

namespace DType

/-- Rounding leaves the integer as it is. -/
def Keeps (t : DType) (n : Int) : Prop := (t.round (.ofInt n)).toInt? = some n

instance (t : DType) (n : Int) : Decidable (t.Keeps n) :=
  inferInstanceAs (Decidable (_ = _))

theorem toInt?_round_signedZero (t : DType) (negative : Bool) :
    (t.round (.signedZero negative)).toInt? = some 0 := by
  have hall : ∀ t ∈ all, ∀ negative : Bool,
      (t.round (.signedZero negative)).toInt? = some 0 := by
    decide +kernel
  exact hall t t.mem_all negative

theorem Keeps.toInt?_round {t : DType} {n : Int} {x : Binary64} (h : t.Keeps n)
    (hx : x.toInt? = some n) : (t.round x).toInt? = some n := by
  by_cases hn : n = 0
  · subst hn
    rw [Binary64.eq_signedZero hx]
    exact t.toInt?_round_signedZero _
  · rw [Binary64.eq_ofInt hx hn]
    exact h

end DType

end TensorLowering
