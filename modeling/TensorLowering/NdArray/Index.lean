/-!
# Positions in a box

A position in a box has one coordinate per axis, each below the size of its axis. Positions are
counted row by row, the innermost axis fastest. Main statements: the count of a position is below
the volume, counting and locating undo each other, a turn of an odometer counts one, and visiting a
box with it is folding over the positions of the box.
-/
namespace TensorLowering.NdArray

/-- The position has one coordinate per axis of the shape, each below its size. -/
def InBounds : List Nat → List Nat → Prop
  | [], [] => True
  | n :: shape, i :: ix => i < n ∧ InBounds shape ix
  | _, _ => False

instance : (shape ix : List Nat) → Decidable (InBounds shape ix)
  | [], [] => .isTrue trivial
  | [], _ :: _ => .isFalse id
  | _ :: _, [] => .isFalse id
  | n :: shape, i :: ix =>
      have := instDecidableInBounds shape ix
      inferInstanceAs (Decidable (i < n ∧ InBounds shape ix))

/-- The number of positions of a box. -/
def volume : List Nat → Nat
  | [] => 1
  | n :: shape => n * volume shape

/-- The number of positions that come before a position. -/
def ravel : List Nat → List Nat → Nat
  | _ :: shape, i :: ix => i * volume shape + ravel shape ix
  | _, _ => 0

/-- The position with the given number of positions before it. -/
def unravel : List Nat → Nat → List Nat
  | [], _ => []
  | _ :: shape, k => k / volume shape :: unravel shape (k % volume shape)

theorem ravel_lt {shape ix : List Nat} (h : InBounds shape ix) : ravel shape ix < volume shape := by
  induction shape generalizing ix with
  | nil => exact Nat.one_pos
  | cons n shape ih =>
      cases ix with
      | nil => exact h.elim
      | cons i ix =>
          have hix := ih h.2
          have hi : (i + 1) * volume shape ≤ n * volume shape := Nat.mul_le_mul_right _ h.1
          simp only [ravel, volume]
          rw [Nat.add_mul, Nat.one_mul] at hi
          omega

theorem unravel_ravel {shape ix : List Nat} (h : InBounds shape ix) :
    unravel shape (ravel shape ix) = ix := by
  induction shape generalizing ix with
  | nil => cases ix <;> simp_all [InBounds, unravel]
  | cons n shape ih =>
      cases ix with
      | nil => exact h.elim
      | cons i ix =>
          have hlt := ravel_lt h.2
          have hpos : 0 < volume shape := Nat.lt_of_le_of_lt (Nat.zero_le _) hlt
          simp [ravel, unravel, Nat.mul_comm i, Nat.mul_add_div hpos, Nat.div_eq_of_lt hlt,
            Nat.mod_eq_of_lt hlt, ih h.2]

theorem inBounds_unravel {shape : List Nat} {k : Nat} (h : k < volume shape) :
    InBounds shape (unravel shape k) := by
  induction shape generalizing k with
  | nil => trivial
  | cons n shape ih =>
      rw [volume] at h
      have hpos : 0 < volume shape := by
        rcases Nat.eq_zero_or_pos (volume shape) with h0 | h0
        · simp [h0] at h
        · exact h0
      exact ⟨Nat.div_lt_of_lt_mul (by rwa [Nat.mul_comm]), ih (Nat.mod_lt _ hpos)⟩

theorem ravel_unravel {shape : List Nat} {k : Nat} (h : k < volume shape) :
    ravel shape (unravel shape k) = k := by
  induction shape generalizing k with
  | nil =>
      have : k = 0 := Nat.lt_one_iff.1 h
      simp [ravel, this]
  | cons n shape ih =>
      rw [volume] at h
      have hpos : 0 < volume shape := by
        rcases Nat.eq_zero_or_pos (volume shape) with h0 | h0
        · simp [h0] at h
        · exact h0
      rw [unravel, ravel, ih (Nat.mod_lt _ hpos), Nat.mul_comm]
      exact Nat.div_add_mod k (volume shape)

/-- Every position of a box, in order. -/
def points : List Nat → List (List Nat)
  | [] => [[]]
  | n :: shape => (List.range n).flatMap fun i => (points shape).map (i :: ·)

theorem mem_points {shape ix : List Nat} : ix ∈ points shape ↔ InBounds shape ix := by
  induction shape generalizing ix with
  | nil => cases ix <;> simp [points, InBounds]
  | cons n shape ih =>
      cases ix with
      | nil => simp [points, InBounds]
      | cons i ix => simp [points, InBounds, ih]

theorem range_mul (n m : Nat) :
    List.range (n * m) = (List.range n).flatMap fun i => (List.range m).map (i * m + ·) := by
  induction n with
  | zero => simp
  | succ n ih =>
      rw [Nat.succ_mul, List.range_add, ih, List.range_succ, List.flatMap_append]
      simp

/-- The positions are listed as they are counted. -/
theorem points_eq (shape : List Nat) :
    points shape = (List.range (volume shape)).map (unravel shape) := by
  induction shape with
  | nil => rfl
  | cons n shape ih =>
      rw [points, volume, range_mul, List.map_flatMap, ih]
      congr 1
      funext i
      rw [List.map_map, List.map_map]
      refine List.map_congr_left fun k hk => ?_
      have hlt : k < volume shape := List.mem_range.1 hk
      have hpos : 0 < volume shape := Nat.lt_of_le_of_lt (Nat.zero_le k) hlt
      simp [unravel, Nat.mul_comm i, Nat.mul_add_div hpos, Nat.div_eq_of_lt hlt,
        Nat.mod_eq_of_lt hlt]

theorem length_points (shape : List Nat) : (points shape).length = volume shape := by
  simp [points_eq]

/-- The positions from one of them on. -/
theorem drop_points {shape ix : List Nat} (h : InBounds shape ix) :
    (points shape).drop (ravel shape ix) = ix :: (points shape).drop (ravel shape ix + 1) := by
  have hlt : ravel shape ix < (points shape).length := by
    rw [length_points]
    exact ravel_lt h
  have hget : (points shape)[ravel shape ix] = ix := by
    simp [points_eq, unravel_ravel h]
  rw [List.drop_eq_getElem_cons hlt, hget]

/-! ## The odometer -/

/-- One turn of an odometer: the innermost wheel goes on by one, and a wheel that has gone round is
back at zero and turns the next one. The flag says that all of them have gone round. -/
def turn : (shape ix : List Nat) → List Nat × Bool
  | n :: shape, i :: ix =>
      match turn shape ix with
      | (rest, false) => (i :: rest, false)
      | (rest, true) => if i + 1 < n then ((i + 1) :: rest, false) else (0 :: rest, true)
  | _, _ => ([], true)

theorem inBounds_turn {shape ix : List Nat} (h : InBounds shape ix) :
    InBounds shape (turn shape ix).1 := by
  induction shape generalizing ix with
  | nil => trivial
  | cons n shape ih =>
      cases ix with
      | nil => exact h.elim
      | cons i ix =>
          have hrest := ih h.2
          unfold turn
          split
          next rest hturn =>
            rw [hturn] at hrest
            exact ⟨h.1, hrest⟩
          next rest hturn =>
            rw [hturn] at hrest
            split
            next hi => exact ⟨hi, hrest⟩
            next => exact ⟨Nat.lt_of_le_of_lt (Nat.zero_le i) h.1, hrest⟩

/-- A turn counts one. What a wheel loses when it goes round is what the next one gains. -/
theorem ravel_turn {shape ix : List Nat} (h : InBounds shape ix) :
    ravel shape (turn shape ix).1 + (if (turn shape ix).2 then volume shape else 0) =
      ravel shape ix + 1 := by
  induction shape generalizing ix with
  | nil => simp [turn, ravel, volume]
  | cons n shape ih =>
      cases ix with
      | nil => exact h.elim
      | cons i ix =>
          have hrest := ih h.2
          have hi := h.1
          unfold turn
          split
          next rest hturn =>
            rw [hturn] at hrest
            simp only [ravel, Bool.false_eq_true, ite_false] at hrest ⊢
            omega
          next rest hturn =>
            rw [hturn] at hrest
            simp only [ravel, ite_true] at hrest ⊢
            split
            next hlt =>
              simp only [ravel, Nat.add_mul, Bool.false_eq_true, ite_false]
              omega
            next hge =>
              obtain rfl : n = i + 1 := by omega
              simp only [ravel, volume, Nat.add_mul, ite_true]
              omega

theorem ravel_turn_of_not {shape ix : List Nat} (h : InBounds shape ix)
    (hturn : (turn shape ix).2 = false) : ravel shape (turn shape ix).1 = ravel shape ix + 1 := by
  have hcount := ravel_turn h
  rwa [hturn] at hcount

/-- The wheels have all gone round after the last position only. -/
theorem ravel_of_turned {shape ix : List Nat} (h : InBounds shape ix)
    (hturn : (turn shape ix).2 = true) : ravel shape ix + 1 = volume shape := by
  have hcount := ravel_turn h
  have hlt := ravel_lt h
  rw [hturn, if_pos rfl] at hcount
  omega

theorem ravel_zeros (shape : List Nat) : ravel shape (shape.map fun _ => 0) = 0 := by
  induction shape with
  | nil => rfl
  | cons n shape ih => rw [List.map_cons, ravel, ih, Nat.zero_mul]

/-- A box that has a position has the one at which the odometer starts. -/
theorem inBounds_zeros {shape ix : List Nat} (h : InBounds shape ix) :
    InBounds shape (shape.map fun _ => 0) := by
  induction shape generalizing ix with
  | nil => trivial
  | cons n shape ih =>
      cases ix with
      | nil => exact h.elim
      | cons i ix => exact ⟨Nat.lt_of_le_of_lt (Nat.zero_le i) h.1, ih h.2⟩

variable {β ε : Type}

/-- Visits the positions of a box from the given one on, until a step fails or the odometer has gone
round. -/
def visitFrom (step : β → List Nat → Except ε β) (shape ix : List Nat) (h : InBounds shape ix)
    (x : β) : Except ε β :=
  match step x ix with
  | .error e => .error e
  | .ok y =>
      match hturn : turn shape ix with
      | (_, true) => .ok y
      | (next, false) =>
          have hnext : InBounds shape next := by
            have hin := inBounds_turn h
            rwa [hturn] at hin
          visitFrom step shape next hnext y
termination_by volume shape - ravel shape ix
decreasing_by
  have hcount := ravel_turn_of_not h (by rw [hturn])
  simp only [hturn] at hcount
  have hlt := ravel_lt h
  omega

/-- Visits the positions of a box in order, until a step fails. No list of them is made. -/
def visit (step : β → List Nat → Except ε β) (shape : List Nat) (x : β) : Except ε β :=
  if h : InBounds shape (shape.map fun _ => 0) then visitFrom step shape _ h x else .ok x

/-- What has been visited is a beginning of the list of positions, and the rest is still to come. -/
theorem visitFrom_eq (step : β → List Nat → Except ε β) {shape ix : List Nat}
    (h : InBounds shape ix) (x : β) :
    visitFrom step shape ix h x = ((points shape).drop (ravel shape ix)).foldlM step x := by
  fun_induction visitFrom step shape ix h x with
  | case1 ix h x e he =>
      rw [drop_points h, List.foldlM_cons, he]
      rfl
  | case2 ix h x y hy next hturn =>
      have hlast : ravel shape ix + 1 = volume shape := ravel_of_turned h (by rw [hturn])
      rw [drop_points h, List.foldlM_cons, hy, hlast, ← length_points, List.drop_length]
      rfl
  | case3 ix h x y hy next hturn hnext ih =>
      have hcount := ravel_turn_of_not h (by rw [hturn])
      rw [hturn] at hcount
      rw [drop_points h, List.foldlM_cons, hy, ih, hcount]
      rfl

/-- Visiting a box is folding over its positions. -/
theorem visit_eq (step : β → List Nat → Except ε β) (shape : List Nat) (x : β) :
    visit step shape x = (points shape).foldlM step x := by
  unfold visit
  split
  next h => rw [visitFrom_eq, ravel_zeros, List.drop_zero]
  next h =>
    have hnone : points shape = [] :=
      List.eq_nil_iff_forall_not_mem.2 fun ix hix => h (inBounds_zeros (mem_points.1 hix))
    rw [hnone]
    rfl

end TensorLowering.NdArray
