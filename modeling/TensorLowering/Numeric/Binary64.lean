import TensorLowering.Numeric.Rounding

/-!
# Double-precision numbers

A double is a signed magnitude of units, a signed infinity, or not a number. Most doubles of a
program are whole numbers below `2 ^ 53`, which are held as integers; the others, the negative zero
among them, are held as a sign and a number of units. Different doubles are different values: the
two zeros are told apart, and there is one value that is not a number. Main statements: a double is
made from its sign and units and read back, and sums and products are those of the units, rounded
once.
-/
namespace TensorLowering.Numeric

/-- The signed magnitude is a whole number below `2 ^ 53`, and is not the negative zero. -/
def IsWhole (negative : Bool) (u : Nat) : Prop :=
  u % twoPow unitShift = 0 ∧ u / twoPow unitShift < twoPow 53 ∧ (u = 0 → negative = false)

instance (negative : Bool) (u : Nat) : Decidable (IsWhole negative u) := by
  unfold IsWhole
  infer_instance

inductive Binary64 where
  | nan
  | infinite (negative : Bool)
  | whole (value : Int) (small : value.natAbs < twoPow 53)
  | scaled (negative : Bool) (units : Nat) (held : Format.double.Holds units)
      (apart : ¬ IsWhole negative units)
  deriving DecidableEq

namespace Binary64

/-- The number with the given sign. -/
def signed (negative : Bool) (u : Nat) : Int := if negative then -(u : Int) else u

theorem natAbs_signed (negative : Bool) (u : Nat) : (signed negative u).natAbs = u := by
  cases negative <;> simp [signed]

theorem signed_natAbs (n : Int) : signed (decide (n < 0)) n.natAbs = n := by
  by_cases h : n < 0
  · simp only [signed, h, decide_true, ↓reduceIte]
    omega
  · simp only [signed, h, decide_false, Bool.false_eq_true, ↓reduceIte]
    omega

/-- The double of the given sign and units. -/
def ofUnits (negative : Bool) (u : Nat) (held : Format.double.Holds u) : Binary64 :=
  if h : IsWhole negative u then
    .whole (signed negative (u / twoPow unitShift)) (by rw [natAbs_signed]; exact h.2.1)
  else .scaled negative u held h

/-- The sign; not a number has none. -/
def isNegative : Binary64 → Bool
  | .nan => false
  | .infinite a => a
  | .whole n _ => decide (n < 0)
  | .scaled a .. => a

/-- The magnitude of a finite double. -/
def units : Binary64 → Nat
  | .nan => 0
  | .infinite _ => 0
  | .whole n _ => n.natAbs * twoPow unitShift
  | .scaled _ u .. => u

def signedUnits (x : Binary64) : Int := signed x.isNegative x.units

def isFinite : Binary64 → Bool
  | .nan => false
  | .infinite _ => false
  | .whole .. => true
  | .scaled .. => true

@[simp] theorem isFinite_ofUnits (a : Bool) {u : Nat} (h : Format.double.Holds u) :
    (ofUnits a u h).isFinite = true := by
  unfold ofUnits
  split <;> rfl

@[simp] theorem units_ofUnits (a : Bool) {u : Nat} (h : Format.double.Holds u) :
    (ofUnits a u h).units = u := by
  unfold ofUnits
  split
  · next hw =>
      rw [units, natAbs_signed]
      exact Nat.div_mul_cancel (Nat.dvd_of_mod_eq_zero hw.1)
  · rfl

@[simp] theorem isNegative_ofUnits (a : Bool) {u : Nat} (h : Format.double.Holds u) :
    (ofUnits a u h).isNegative = a := by
  unfold ofUnits
  split
  · next hw =>
      rw [isNegative]
      cases a with
      | false =>
          simp only [signed, Bool.false_eq_true, ↓reduceIte, decide_eq_false_iff_not, Int.not_lt]
          exact Int.natCast_nonneg _
      | true =>
          have hu : u ≠ 0 := fun h0 => nomatch hw.2.2 h0
          have hpos : 0 < u / twoPow unitShift :=
            Nat.div_pos (Nat.le_of_dvd (Nat.pos_of_ne_zero hu) (Nat.dvd_of_mod_eq_zero hw.1))
              (twoPow_pos _)
          simp only [signed, ↓reduceIte, decide_eq_true_eq]
          omega
  · rfl

theorem holds_whole {m : Nat} (h : m < twoPow 53) :
    Format.double.Holds (m * twoPow unitShift) := by
  refine ⟨⟨m, unitShift, h, Nat.zero_le _, rfl⟩, ?_⟩
  calc m * twoPow unitShift
      < twoPow 53 * twoPow unitShift := Nat.mul_lt_mul_of_pos_right h (twoPow_pos _)
    _ = twoPow (53 + unitShift) := (twoPow_add ..).symm
    _ ≤ twoPow Format.double.limitExponent := twoPow_le (by decide)

theorem holds_units (x : Binary64) : Format.double.Holds x.units := by
  cases x with
  | nan => exact Format.double.holds_zero
  | infinite a => exact Format.double.holds_zero
  | whole n h => exact holds_whole h
  | scaled a u h _ => exact h

/-- The double of a whole number of units that is a small integer is that integer. -/
theorem ofUnits_whole {n : Int} (h : n.natAbs < twoPow 53) :
    ofUnits (decide (n < 0)) (n.natAbs * twoPow unitShift) (holds_whole h) = .whole n h := by
  have hdiv := Nat.mul_div_cancel n.natAbs (twoPow_pos unitShift)
  have hw : IsWhole (decide (n < 0)) (n.natAbs * twoPow unitShift) := by
    refine ⟨Nat.mul_mod_left .., by rwa [hdiv], fun h0 => ?_⟩
    have := (Nat.mul_eq_zero.1 h0).resolve_right (Nat.ne_of_gt (twoPow_pos _))
    simp only [decide_eq_false_iff_not]
    omega
  simp only [ofUnits, dif_pos hw, hdiv, signed_natAbs]

/-- A finite double is the one of its sign and units. -/
theorem ofUnits_units {x : Binary64} (h : x.isFinite = true) :
    ofUnits x.isNegative x.units x.holds_units = x := by
  cases x with
  | nan => nomatch h
  | infinite a => nomatch h
  | whole n hn => exact ofUnits_whole hn
  | scaled a u hu apart => exact dif_neg apart

/-- The double nearest to the magnitude `n / 2 ^ s` units, with the given sign. -/
def ofMagnitude (negative : Bool) (n s : Nat) : Binary64 :=
  let u := Format.double.round n s
  if h : u < twoPow Format.double.limitExponent then
    ofUnits negative u ⟨Format.double.keeps_round n s, h⟩
  else .infinite negative

/-- A magnitude that a double holds is not rounded. -/
theorem ofMagnitude_held (negative : Bool) {u : Nat} (h : Format.double.Holds u) :
    ofMagnitude negative u 0 = ofUnits negative u h := by
  simp only [ofMagnitude, h.1.round_eq, dif_pos h.2]

/-- The zero of the given sign. -/
def signedZero (negative : Bool) : Binary64 := ofUnits negative 0 Format.double.holds_zero

def zero : Binary64 := .whole 0 (twoPow_pos 53)

instance : Inhabited Binary64 := ⟨zero⟩
instance : Zero Binary64 := ⟨zero⟩

/-- The double nearest to an integer. -/
def ofInt (n : Int) : Binary64 :=
  if h : n.natAbs < twoPow 53 then .whole n h
  else ofMagnitude (decide (n < 0)) (n.natAbs * twoPow unitShift) 0

theorem ofInt_eq (n : Int) :
    ofInt n = ofMagnitude (decide (n < 0)) (n.natAbs * twoPow unitShift) 0 := by
  unfold ofInt
  split
  · next h => rw [ofMagnitude_held _ (holds_whole h), ofUnits_whole h]
  · rfl

def neg : Binary64 → Binary64
  | .nan => .nan
  | .infinite a => .infinite !a
  | .whole n h => if n = 0 then signedZero true else .whole (-n) (by rwa [Int.natAbs_neg])
  | .scaled a u h _ => ofUnits (!a) u h

/-- The rounded sum. A sum of zero is negative only when both terms are. -/
def add : Binary64 → Binary64 → Binary64
  | .whole m _, .whole n _ => ofInt (m + n)
  | .nan, _ => .nan
  | _, .nan => .nan
  | .infinite a, .infinite b => if a = b then .infinite a else .nan
  | .infinite a, _ => .infinite a
  | _, .infinite b => .infinite b
  | x, y =>
      let sum := x.signedUnits + y.signedUnits
      ofMagnitude (if sum = 0 then x.isNegative && y.isNegative else decide (sum < 0)) sum.natAbs 0

/-- The rounded difference. -/
def sub : Binary64 → Binary64 → Binary64
  | .whole m _, .whole n _ => ofInt (m - n)
  | x, y => add x (neg y)

/-- Both zeros, and nothing else. -/
def isZero : Binary64 → Bool
  | .whole n _ => n == 0
  | .scaled _ u .. => u == 0
  | _ => false

/-- The rounded product. Its sign is that of the factors, also when it is zero. -/
def mul : Binary64 → Binary64 → Binary64
  | .whole m _, .whole n _ =>
      let product := m * n
      if product = 0 then signedZero (decide (m < 0) != decide (n < 0)) else ofInt product
  | .nan, _ => .nan
  | _, .nan => .nan
  | .infinite a, y => if y.isZero then .nan else .infinite (a != y.isNegative)
  | x, .infinite b => if x.isZero then .nan else .infinite (x.isNegative != b)
  | x, y => ofMagnitude (x.isNegative != y.isNegative) (x.units * y.units) unitShift

instance : Neg Binary64 := ⟨neg⟩
instance : Add Binary64 := ⟨add⟩
instance : Sub Binary64 := ⟨sub⟩
instance : Mul Binary64 := ⟨mul⟩

theorem signedUnits_whole {n : Int} (h : n.natAbs < twoPow 53) :
    (whole n h).signedUnits = n * twoPow unitShift := by
  conv => rhs; rw [← signed_natAbs n]
  simp only [signedUnits, isNegative, units, signed, decide_eq_true_eq]
  split
  · rw [Int.natCast_mul, Int.neg_mul]
  · rw [Int.natCast_mul]

theorem mul_twoPow_eq_zero {n : Int} {k : Nat} : n * (twoPow k : Nat) = 0 ↔ n = 0 := by
  have h := twoPow_pos k
  rw [Int.mul_eq_zero]
  omega

theorem mul_twoPow_neg {n : Int} {k : Nat} : n * (twoPow k : Nat) < 0 ↔ n < 0 := by
  have h : (0 : Int) < twoPow k := Int.natCast_pos.2 (twoPow_pos k)
  constructor
  · intro hn
    exact Int.lt_of_mul_lt_mul_right (by rwa [Int.zero_mul]) (Int.le_of_lt h)
  · exact fun hn => Int.mul_neg_of_neg_of_pos hn h

/-- Sums are those of the units, rounded once. -/
theorem add_eq {x y : Binary64} (hx : x.isFinite = true) (hy : y.isFinite = true) :
    add x y =
      ofMagnitude
        (if x.signedUnits + y.signedUnits = 0 then x.isNegative && y.isNegative
          else decide (x.signedUnits + y.signedUnits < 0))
        (x.signedUnits + y.signedUnits).natAbs 0 := by
  cases x with
  | nan => nomatch hx
  | infinite a => nomatch hx
  | scaled a u hu ha =>
      cases y with
      | nan => nomatch hy
      | infinite b => nomatch hy
      | whole n hn => rfl
      | scaled b v hv hb => rfl
  | whole m hm =>
      cases y with
      | nan => nomatch hy
      | infinite b => nomatch hy
      | scaled b v hv hb => rfl
      | whole n hn =>
          have hsum : (whole m hm).signedUnits + (whole n hn).signedUnits =
              (m + n) * twoPow unitShift := by
            rw [signedUnits_whole, signedUnits_whole, Int.add_mul]
          refine (ofInt_eq (m + n)).trans ?_
          rw [hsum, Int.natAbs_mul, Int.natAbs_natCast]
          simp only [mul_twoPow_eq_zero, mul_twoPow_neg, isNegative]
          congr 1
          split
          · next h =>
              rw [h, decide_eq_false (by omega), eq_comm, Bool.and_eq_false_iff]
              simp only [decide_eq_false_iff_not]
              omega
          · rfl

theorem mul_sign {m n : Int} (h : m * n ≠ 0) :
    decide (m * n < 0) = (decide (m < 0) != decide (n < 0)) := by
  have hm : m ≠ 0 := fun h0 => h (by rw [h0, Int.zero_mul])
  have hn : n ≠ 0 := fun h0 => h (by rw [h0, Int.mul_zero])
  rcases Int.lt_or_gt_of_ne hm with hm | hm <;> rcases Int.lt_or_gt_of_ne hn with hn | hn
  · have := Int.mul_pos_of_neg_of_neg hm hn
    simp [hm, hn, Int.not_lt.2 (Int.le_of_lt this)]
  · have := Int.mul_neg_of_neg_of_pos hm hn
    simp [hm, this, Int.not_lt.2 (Int.le_of_lt hn)]
  · have := Int.mul_neg_of_pos_of_neg hm hn
    simp [hn, this, Int.not_lt.2 (Int.le_of_lt hm)]
  · have := Int.mul_pos hm hn
    simp [Int.not_lt.2 (Int.le_of_lt hm), Int.not_lt.2 (Int.le_of_lt hn),
      Int.not_lt.2 (Int.le_of_lt this)]

/-- Products are those of the units, rounded once. -/
theorem mul_eq {x y : Binary64} (hx : x.isFinite = true) (hy : y.isFinite = true) :
    mul x y = ofMagnitude (x.isNegative != y.isNegative) (x.units * y.units) unitShift := by
  cases x with
  | nan => nomatch hx
  | infinite a => nomatch hx
  | scaled a u hu ha =>
      cases y with
      | nan => nomatch hy
      | infinite b => nomatch hy
      | whole n hn => rfl
      | scaled b v hv hb => rfl
  | whole m hm =>
      cases y with
      | nan => nomatch hy
      | infinite b => nomatch hy
      | scaled b v hv hb => rfl
      | whole n hn =>
          have hround : Format.double.round ((whole m hm).units * (whole n hn).units) unitShift =
              Format.double.round ((m * n).natAbs * twoPow unitShift) 0 := by
            rw [← Format.double.round_mul ((m * n).natAbs * twoPow unitShift) 0 unitShift,
              Nat.zero_add, Int.natAbs_mul]
            simp only [units, Nat.mul_assoc, Nat.mul_left_comm]
          have hsame : ofMagnitude (isNegative (whole m hm) != isNegative (whole n hn))
              ((whole m hm).units * (whole n hn).units) unitShift =
              ofMagnitude (decide (m < 0) != decide (n < 0))
                ((m * n).natAbs * twoPow unitShift) 0 := by
            simp only [ofMagnitude, hround, isNegative]
          refine Eq.trans ?_ hsame.symm
          by_cases h : m * n = 0
          · simp only [mul, h, ↓reduceIte, Int.natAbs_zero, Nat.zero_mul]
            exact (ofMagnitude_held _ Format.double.holds_zero).symm
          · simp only [mul, h, ↓reduceIte]
            refine (ofInt_eq (m * n)).trans ?_
            rw [mul_sign h]

/-- The magnitude rounded to a single. -/
def nearestSingle (negative : Bool) (u : Nat) : Binary64 :=
  let w := Format.single.round u 0
  if h : w < twoPow Format.single.limitExponent then
    ofUnits negative w (Format.Holds.widen ⟨Format.single.keeps_round u 0, h⟩)
  else .infinite negative

/-- The nearest single, as a double. Whole numbers below `2 ^ 24` are singles. -/
def toSingle : Binary64 → Binary64
  | .whole n h =>
      if n.natAbs < twoPow 24 then .whole n h
      else nearestSingle (decide (n < 0)) (n.natAbs * twoPow unitShift)
  | .scaled a u .. => nearestSingle a u
  | x => x

theorem toSingle_nearestSingle (a : Bool) (u : Nat) :
    (nearestSingle a u).toSingle = nearestSingle a u := by
  by_cases h : Format.single.round u 0 < twoPow Format.single.limitExponent
  · have hheld := Format.Holds.widen ⟨Format.single.keeps_round u 0, h⟩
    have hvalue : nearestSingle a u = ofUnits a (Format.single.round u 0) hheld := dif_pos h
    have hsame : nearestSingle a (Format.single.round u 0) = nearestSingle a u := by
      simp only [nearestSingle, (Format.single.keeps_round u 0).round_eq]
    have hunits := units_ofUnits a hheld
    have hsign := isNegative_ofUnits a hheld
    rw [← hvalue] at hunits hsign
    rw [← hunits] at hsame
    generalize hx : nearestSingle a u = x at *
    cases x with
    | nan => rfl
    | infinite b => rfl
    | whole n hn =>
        subst hsign
        exact (ite_congr rfl (fun _ => rfl) (fun _ => hsame)).trans (ite_self _)
    | scaled b v hv hb =>
        subst hsign
        exact hsame
  · have hvalue : nearestSingle a u = .infinite a := dif_neg h
    rw [hvalue]
    rfl

theorem toSingle_toSingle (x : Binary64) : x.toSingle.toSingle = x.toSingle := by
  cases x with
  | nan => rfl
  | infinite a => rfl
  | whole n h =>
      rw [toSingle]
      split
      · next hn => rw [toSingle, if_pos hn]
      · exact toSingle_nearestSingle ..
  | scaled a u h _ => exact toSingle_nearestSingle a u

/-- The whole part, with the sign kept. -/
def trunc : Binary64 → Binary64
  | .scaled a u h _ => ofUnits a (u / twoPow unitShift * twoPow unitShift) (h.floor unitShift)
  | x => x

theorem trunc_ofUnits (a : Bool) {q : Nat} (h : Format.double.Holds (q * twoPow unitShift)) :
    (ofUnits a (q * twoPow unitShift) h).trunc = ofUnits a (q * twoPow unitShift) h := by
  by_cases hw : IsWhole a (q * twoPow unitShift)
  · rw [ofUnits, dif_pos hw, trunc]
    nofun
  · have hdiv := Nat.mul_div_cancel q (twoPow_pos unitShift)
    rw [ofUnits, dif_neg hw, trunc]
    simp only [hdiv, ofUnits, dif_neg hw]

theorem trunc_trunc (x : Binary64) : x.trunc.trunc = x.trunc := by
  cases x with
  | nan => rfl
  | infinite a => rfl
  | whole n h => rfl
  | scaled a u h _ => exact trunc_ofUnits a (h.floor unitShift)

/-- The integer that a double stands for, when it stands for one. -/
def toInt? : Binary64 → Option Int
  | .whole n _ => some n
  | .scaled a u .. =>
      if u % twoPow unitShift = 0 then some (signed a (u / twoPow unitShift)) else none
  | _ => none

/-- The whole part as an integer between `lo` and `hi`, the nearer bound when it lies outside;
zero for what is not a number. -/
def clampToInt (lo hi : Int) : Binary64 → Int
  | .nan => 0
  | .infinite a => if a then lo else hi
  | .whole n _ => max lo (min hi n)
  | .scaled a u .. => max lo (min hi (signed a (u / twoPow unitShift)))

end Binary64

end TensorLowering.Numeric
