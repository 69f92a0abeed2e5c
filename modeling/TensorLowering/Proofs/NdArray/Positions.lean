import Mathlib.Data.List.Forall2
import TensorLowering.NdArray.Basic

/-!
# Positions in boxes that are put together

A box over two lists of sizes is counted block by block. This is what folding axes into one axis and
splitting them again relies on: the number of positions before a position does not change.
-/
namespace TensorLowering.NdArray

variable {A B C x y z : List Nat}

/-! ## Bounds -/

theorem inBounds_iff_forall₂ {shape ix : List Nat} :
    InBounds shape ix ↔ List.Forall₂ (fun i n => i < n) ix shape := by
  induction shape generalizing ix with
  | nil => cases ix <;> simp [InBounds]
  | cons n shape ih => cases ix <;> simp [InBounds, ih]

theorem InBounds.length_eq {shape ix : List Nat} (h : InBounds shape ix) :
    ix.length = shape.length :=
  (inBounds_iff_forall₂.1 h).length_eq

theorem inBounds_append (h : x.length = A.length) :
    InBounds (A ++ B) (x ++ y) ↔ InBounds A x ∧ InBounds B y := by
  induction A generalizing x with
  | nil =>
      obtain rfl := List.length_eq_zero_iff.1 h
      simp [InBounds]
  | cons n A ih =>
      cases x with
      | nil => simp at h
      | cons i x => simp [InBounds, ih (by simpa using h), and_assoc]

theorem InBounds.append (hx : InBounds A x) (hy : InBounds B y) : InBounds (A ++ B) (x ++ y) :=
  (inBounds_append hx.length_eq).2 ⟨hx, hy⟩

/-- A position splits where the sizes do. -/
theorem InBounds.exists_append {ix : List Nat} (h : InBounds (A ++ B) ix) :
    ∃ x y, ix = x ++ y ∧ InBounds A x ∧ InBounds B y := by
  have hlen : (ix.take A.length).length = A.length := by
    have := h.length_eq
    simp only [List.length_append] at this
    rw [List.length_take]
    omega
  refine ⟨ix.take A.length, ix.drop A.length, (List.take_append_drop _ _).symm, ?_⟩
  rw [← List.take_append_drop A.length ix] at h
  exact (inBounds_append hlen).1 h

@[simp] theorem inBounds_nil {ix : List Nat} : InBounds [] ix ↔ ix = [] := by
  cases ix <;> simp [InBounds]

@[simp] theorem inBounds_singleton {n : Nat} {ix : List Nat} :
    InBounds [n] ix ↔ ∃ i, ix = [i] ∧ i < n := by
  cases ix with
  | nil => simp [InBounds]
  | cons i ix =>
      simp only [InBounds, inBounds_nil, List.cons.injEq]
      constructor
      · rintro ⟨hi, rfl⟩
        exact ⟨i, ⟨rfl, rfl⟩, hi⟩
      · rintro ⟨j, ⟨rfl, rfl⟩, hi⟩
        exact ⟨hi, rfl⟩

theorem inBounds_cons {n : Nat} {shape ix : List Nat} :
    InBounds (n :: shape) ix ↔ ∃ i rest, ix = i :: rest ∧ i < n ∧ InBounds shape rest := by
  cases ix with
  | nil => simp [InBounds]
  | cons i ix => simp [InBounds]

/-- The entries at consecutive places are a part of the list. -/
theorem map_getD_range' {α : Type} {A B C : List α} (d : α) :
    (List.range' A.length B.length).map ((A ++ B ++ C).getD · d) = B := by
  refine List.ext_getElem (by simp) fun i hi hi' => ?_
  simp only [List.getElem_map, List.getElem_range', Nat.one_mul]
  rw [List.getD_eq_getElem?_getD, List.append_assoc, List.getElem?_append_right (by omega),
    Nat.add_sub_cancel_left, List.getElem?_append_left hi', List.getElem?_eq_getElem hi']
  rfl

theorem mapM_eq_some {α β : Type} {f : α → Option β} {xs : List α} {ys : List β} :
    xs.mapM f = some ys ↔ List.Forall₂ (fun x y => f x = some y) xs ys := by
  induction xs generalizing ys with
  | nil =>
      constructor
      · rintro ⟨⟩
        exact .nil
      · rintro ⟨⟩
        rfl
  | cons x xs ih =>
      rw [List.mapM_cons, List.forall₂_cons_left_iff]
      constructor
      · intro h
        obtain ⟨y, hy, h⟩ := Option.bind_eq_some_iff.1 h
        obtain ⟨ys, hys, h⟩ := Option.bind_eq_some_iff.1 h
        cases h
        exact ⟨y, ys, hy, ih.1 hys, rfl⟩
      · rintro ⟨y, ys, hy, hys, rfl⟩
        rw [hy, ih.2 hys]
        rfl

theorem mapM_range_eq_some {β : Type} {f : Nat → Option β} {n : Nat} {ys : List β} :
    (List.range n).mapM f = some ys ↔ ys.length = n ∧ ∀ i < n, f i = ys[i]? := by
  rw [mapM_eq_some, List.forall₂_iff_get]
  simp only [List.length_range, List.get_eq_getElem, List.getElem_range]
  constructor
  · rintro ⟨hlen, hentries⟩
    refine ⟨hlen.symm, fun i hi => ?_⟩
    rw [hentries i hi (hlen ▸ hi), List.getElem?_eq_getElem (hlen ▸ hi)]
  · rintro ⟨hlen, hentries⟩
    refine ⟨hlen.symm, fun i hi hi' => ?_⟩
    rw [hentries i hi, List.getElem?_eq_getElem hi']

/-! ## Volumes and counts -/

@[simp] theorem volume_nil : volume [] = 1 := rfl

@[simp] theorem volume_cons (n : Nat) (A : List Nat) : volume (n :: A) = n * volume A := rfl

theorem volume_append : volume (A ++ B) = volume A * volume B := by
  induction A with
  | nil => simp
  | cons n A ih => simp [ih, Nat.mul_assoc]

theorem volume_eq_zero : volume A = 0 ↔ 0 ∈ A := by
  induction A with
  | nil => simp
  | cons n A ih =>
      rw [volume_cons, Nat.mul_eq_zero, ih, List.mem_cons]
      simp only [eq_comm]

theorem ravel_append (h : x.length = A.length) :
    ravel (A ++ B) (x ++ y) = ravel A x * volume B + ravel B y := by
  induction A generalizing x with
  | nil =>
      obtain rfl := List.length_eq_zero_iff.1 h
      simp [ravel]
  | cons n A ih =>
      cases x with
      | nil => simp at h
      | cons i x =>
          simp only [List.cons_append, ravel, ih (by simpa using h), volume_append]
          rw [Nat.add_mul, Nat.mul_assoc, Nat.add_assoc]

/-- Folding a group of axes into one axis keeps the count of every position. -/
theorem ravel_fold (hx : x.length = A.length) (hy : y.length = B.length) :
    ravel (A ++ [volume B] ++ C) (x ++ [ravel B y] ++ z) = ravel (A ++ B ++ C) (x ++ y ++ z) := by
  have hlen : (x ++ [ravel B y]).length = (A ++ [volume B]).length := by simp [hx]
  have hlen' : (x ++ y).length = (A ++ B).length := by simp [hx, hy]
  rw [ravel_append hlen, ravel_append hlen', ravel_append hx, ravel_append hx]
  simp [ravel]

theorem volume_fold : volume (A ++ [volume B] ++ C) = volume (A ++ B ++ C) := by
  simp [volume_append]

theorem volume_flatten (groups : List (List Nat)) :
    volume groups.flatten = volume (groups.map volume) := by
  induction groups with
  | nil => rfl
  | cons A groups ih => rw [List.flatten_cons, volume_append, ih, List.map_cons, volume_cons]

theorem points_one : points (1 :: A) = (points A).map (0 :: ·) := by
  simp [points]

/-! ## Sizes that are not too large -/

/-- The product of the sizes that are not zero. -/
def nonzeroVolume (sizes : List Nat) : Nat := volume (sizes.filter (· ≠ 0))

theorem nonzeroVolume_pos (A : List Nat) : 0 < nonzeroVolume A := by
  rw [Nat.pos_iff_ne_zero, nonzeroVolume, Ne, volume_eq_zero]
  simp

theorem nonzeroVolume_append : nonzeroVolume (A ++ B) = nonzeroVolume A * nonzeroVolume B := by
  simp only [nonzeroVolume, List.filter_append, volume_append]

theorem nonzeroVolume_singleton (n : Nat) : nonzeroVolume [n] = max n 1 := by
  by_cases h : n = 0
  · simp [nonzeroVolume, h]
  · simp [nonzeroVolume, h]
    omega

theorem volume_le_nonzeroVolume (A : List Nat) : volume A ≤ nonzeroVolume A := by
  by_cases h : 0 ∈ A
  · rw [volume_eq_zero.2 h]
    exact Nat.zero_le _
  · have hall : A.filter (· ≠ 0) = A := by
      rw [List.filter_eq_self]
      intro n hn
      rw [decide_eq_true_iff]
      rintro rfl
      exact h hn
    exact Nat.le_of_eq (by rw [nonzeroVolume, hall])

theorem not_tooLarge_iff {sizes : List Nat} :
    ¬ TooLarge sizes ↔ nonzeroVolume sizes < 0x8000000000000000 := by
  simp [TooLarge, nonzeroVolume]

theorem nonzeroVolume_volume_le (A : List Nat) : nonzeroVolume [volume A] ≤ nonzeroVolume A := by
  rw [nonzeroVolume_singleton]
  have hvol := volume_le_nonzeroVolume A
  have hpos := nonzeroVolume_pos A
  omega

/-- Folding axes makes no product larger. -/
theorem not_tooLarge_fold (h : ¬ TooLarge (A ++ B ++ C)) : ¬ TooLarge (A ++ [volume B] ++ C) := by
  rw [not_tooLarge_iff] at h ⊢
  rw [nonzeroVolume_append, nonzeroVolume_append] at h ⊢
  have hle := nonzeroVolume_volume_le B
  exact Nat.lt_of_le_of_lt (Nat.mul_le_mul_right _ (Nat.mul_le_mul_left _ hle)) h

theorem nonzeroVolume_map_volume_le (groups : List (List Nat)) :
    nonzeroVolume (groups.map volume) ≤ nonzeroVolume groups.flatten := by
  induction groups with
  | nil => exact Nat.le_refl _
  | cons A groups ih =>
      rw [List.map_cons, List.flatten_cons, ← List.singleton_append, nonzeroVolume_append,
        nonzeroVolume_append]
      exact Nat.mul_le_mul (nonzeroVolume_volume_le A) ih

theorem not_tooLarge_map_volume {groups : List (List Nat)} (h : ¬ TooLarge groups.flatten) :
    ¬ TooLarge (groups.map volume) :=
  not_tooLarge_iff.2
    (Nat.lt_of_le_of_lt (nonzeroVolume_map_volume_le groups) (not_tooLarge_iff.1 h))

/-- Every part of a list of sizes that is not too large is not too large. -/
theorem not_tooLarge_of_append_left (h : ¬ TooLarge (A ++ B)) : ¬ TooLarge A := by
  rw [not_tooLarge_iff] at h ⊢
  rw [nonzeroVolume_append] at h
  exact Nat.lt_of_le_of_lt (Nat.le_mul_of_pos_right _ (nonzeroVolume_pos B)) h

theorem not_tooLarge_of_append_right (h : ¬ TooLarge (A ++ B)) : ¬ TooLarge B := by
  rw [not_tooLarge_iff] at h ⊢
  rw [nonzeroVolume_append] at h
  exact Nat.lt_of_le_of_lt (Nat.le_mul_of_pos_left _ (nonzeroVolume_pos A)) h

theorem volume_lt_of_not_tooLarge (h : ¬ TooLarge A) : volume A < 0x8000000000000000 :=
  Nat.lt_of_le_of_lt (volume_le_nonzeroVolume A) (not_tooLarge_iff.1 h)

/-- Every size of a shape that is not too large can be counted. -/
theorem lt_of_mem_of_not_tooLarge {n : Nat} (h : ¬ TooLarge A) (hn : n ∈ A) :
    n < 0x8000000000000000 := by
  obtain ⟨B, C, rfl⟩ := List.append_of_mem hn
  have hsingle : ¬ TooLarge ([n] ++ C) := not_tooLarge_of_append_right h
  have hlt := not_tooLarge_iff.1 (not_tooLarge_of_append_left hsingle)
  rw [nonzeroVolume_singleton] at hlt
  omega

/-- The sizes behind the batch and the channels of a shape that is not too large can be
counted. -/
theorem spatial_lt_of_not_tooLarge {n m : Nat} (h : ¬ TooLarge (n :: m :: A)) :
    ∀ k ∈ A, k < 0x8000000000000000 :=
  fun _ hk => lt_of_mem_of_not_tooLarge h (List.mem_cons_of_mem _ (List.mem_cons_of_mem _ hk))

end TensorLowering.NdArray
