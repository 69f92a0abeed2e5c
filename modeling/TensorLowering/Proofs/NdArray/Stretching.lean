import TensorLowering.Proofs.NdArray.CommonShapes

/-!
# Stretching

Where an array is read when it is stretched to a wider shape, and that two arrays stretch to their
common shape. Axes that are the same at the end of two shapes take no part in stretching.
-/
namespace TensorLowering.NdArray

variable {A B C D x y : List Nat}

/-! ## The position that is read -/

theorem aligned_append {α : Type} {A B x y : List α} (hA : A.length ≤ x.length)
    (hB : B.length = y.length) :
    aligned (A ++ B) (x ++ y) = aligned A x ++ B.zip y := by
  have hdrop : (x ++ y).drop ((x ++ y).length - (A ++ B).length) =
      x.drop (x.length - A.length) ++ y := by
    have hcount : (x ++ y).length - (A ++ B).length = x.length - A.length := by
      simp only [List.length_append]
      omega
    rw [hcount, List.drop_append_of_le_length (by omega)]
  rw [aligned, hdrop, List.zip_append (by rw [List.length_drop]; omega), aligned]

theorem aligned_eq_zip {α : Type} {A x : List α} (h : A.length = x.length) :
    aligned A x = A.zip x := by
  rw [aligned, h, Nat.sub_self, List.drop_zero]

theorem alignIndex_append (hA : A.length ≤ x.length) (hB : B.length = y.length) :
    alignIndex (A ++ B) (x ++ y) = alignIndex A x ++ alignIndex B y := by
  rw [alignIndex, aligned_append hA hB, List.map_append, ← aligned_eq_zip hB, alignIndex,
    alignIndex]

/-- A position of the array itself is read as it is. -/
theorem alignIndex_self (h : InBounds A x) : alignIndex A x = x := by
  have hlen := h.length_eq
  rw [alignIndex, aligned_eq_zip hlen.symm]
  induction A generalizing x with
  | nil => simp [inBounds_nil.1 h]
  | cons n A ih =>
      obtain ⟨i, rest, rfl, hi, hrest⟩ := inBounds_cons.1 h
      rw [List.zip_cons_cons, List.map_cons, ih hrest hrest.length_eq]
      by_cases hn : n = 1
      · simp only [hn, ↓reduceIte, List.cons.injEq, and_true]
        omega
      · simp [hn]

/-! ## Shapes that stretch -/

theorem stretchesTo_iff (h : A.length = B.length) :
    StretchesTo A B ↔ List.Forall₂ (fun m n => m = 1 ∨ m = n) A B := by
  rw [StretchesTo, aligned_eq_zip h, List.forall₂_iff_zip]
  constructor
  · rintro ⟨-, hall⟩
    exact ⟨h, fun hmem => hall _ hmem⟩
  · rintro ⟨-, hall⟩
    exact ⟨Nat.le_of_eq h, fun e he => hall (by exact he)⟩

theorem stretchesTo_singleton {m n : Nat} : StretchesTo [m] [n] ↔ m = 1 ∨ m = n := by
  rw [stretchesTo_iff (A := [m]) (B := [n]) rfl, List.forall₂_cons]
  exact and_iff_left .nil

theorem StretchesTo.append_right (h : StretchesTo A B) (C : List Nat) :
    StretchesTo (A ++ C) (B ++ C) := by
  obtain ⟨hlen, hall⟩ := h
  refine ⟨by simpa using hlen, fun e he => ?_⟩
  rw [aligned_append hlen rfl, List.mem_append] at he
  rcases he with he | he
  · exact hall e he
  · rw [List.zip_eq_zipWith, List.zipWith_self, List.mem_map] at he
    obtain ⟨n, -, rfl⟩ := he
    exact .inr rfl

/-- The sizes of an array that stretches are sizes of the target, or one. -/
theorem StretchesTo.mem (h : StretchesTo A B) {n : Nat} (hn : n ∈ A) : n = 1 ∨ n ∈ B := by
  have hlen : (B.drop (B.length - A.length)).length = A.length := by
    have hle := h.1
    rw [List.length_drop]
    omega
  obtain ⟨i, hi, rfl⟩ := List.getElem_of_mem hn
  have hi' : i < (B.drop (B.length - A.length)).length := by omega
  have hmem : (A[i], (B.drop (B.length - A.length))[i]) ∈ aligned A B := by
    have hzip : i < (aligned A B).length := by
      rw [aligned, List.length_zip]
      omega
    exact List.mem_iff_getElem.2 ⟨i, hzip, List.getElem_zip⟩
  rcases h.2 _ hmem with hone | hsame
  · exact .inl hone
  · right
    have hsame' : A[i] = (B.drop (B.length - A.length))[i] := hsame
    rw [hsame']
    exact List.mem_of_mem_drop (List.getElem_mem _)

/-- An array is read within its bounds. -/
theorem StretchesTo.inBounds (h : StretchesTo A B) (hx : InBounds B x) :
    InBounds A (alignIndex A x) := by
  have hlen := hx.length_eq
  -- Only the last axes of the target are read.
  have hsuffix : ∃ B' x', aligned A B = A.zip B' ∧ aligned A x = A.zip x' ∧ InBounds B' x' ∧
      B'.length = A.length := by
    refine ⟨B.drop (B.length - A.length), x.drop (x.length - A.length), rfl, rfl, ?_, ?_⟩
    · rw [hlen]
      exact inBounds_iff_forall₂.2 (List.forall₂_drop _ (inBounds_iff_forall₂.1 hx))
    · have := h.1
      rw [List.length_drop]
      omega
  obtain ⟨B', x', hB, hx', hbounds, hlenB⟩ := hsuffix
  have hall := h.2
  rw [hB] at hall
  rw [alignIndex, hx']
  clear hB hx' hlen hx h
  induction A generalizing B' x' with
  | nil => trivial
  | cons n A ih =>
      cases B' with
      | nil => simp at hlenB
      | cons m B' =>
          obtain ⟨i, rest, rfl, hi, hrest⟩ := inBounds_cons.1 hbounds
          refine ⟨?_, ih B' rest hrest (by simpa using hlenB) fun e he => hall e (by simp [he])⟩
          have hn := hall (n, m) (by simp)
          simp only at hn ⊢
          split <;> omega

/-! ## Stretching to the common shape -/

theorem Common.stretches {A B inner : List Nat} (hlen : A.length = B.length)
    (h : Common (A.zip B) inner) :
    List.Forall₂ (fun m n => m = 1 ∨ m = n) A inner ∧
      List.Forall₂ (fun m n => m = 1 ∨ m = n) B inner := by
  induction A generalizing B inner with
  | nil =>
      obtain rfl := List.length_eq_zero_iff.1 hlen.symm
      cases h
      exact ⟨.nil, .nil⟩
  | cons m A ih =>
      cases B with
      | nil => simp at hlen
      | cons n B =>
          cases h with
          | cons hk hrest =>
              obtain ⟨hA, hB⟩ := ih (by simpa using hlen) hrest
              obtain ⟨hm, hn⟩ := commonSize?_stretches hk
              exact ⟨.cons hm hA, .cons hn hB⟩

/-- Sizes that stretch one by one stretch to a shape with more axes before them. -/
theorem stretchesTo_append_left {outer : List Nat}
    (h : List.Forall₂ (fun m n => m = 1 ∨ m = n) A B) : StretchesTo A (outer ++ B) := by
  have hlen := h.length_eq
  have hshape : aligned A (outer ++ B) = A.zip B := by
    have happend := aligned_append (A := []) (B := A) (x := outer) (y := B) (by simp) hlen
    simpa [aligned] using happend
  refine ⟨by simp [hlen], fun e he => ?_⟩
  rw [hshape] at he
  exact (List.forall₂_iff_zip.1 h).2 he

/-- Both arrays stretch to their common shape. -/
theorem stretchesTo_broadcastShape {lhs rhs sizes : List Nat}
    (h : broadcastShape lhs rhs = .ok sizes) : StretchesTo lhs sizes ∧ StretchesTo rhs sizes := by
  obtain ⟨inner, hinner, rfl⟩ := broadcastShape_eq_ok h
  have hlen : (lhs.drop (lhs.length - rhs.length)).length =
      (rhs.drop (rhs.length - lhs.length)).length := by
    simp only [List.length_drop]
    omega
  obtain ⟨hl, hr⟩ := hinner.stretches hlen
  have hpart : ∀ (xs : List Nat) (n : Nat),
      List.Forall₂ (fun m n => m = 1 ∨ m = n) (xs.drop n) inner →
      List.Forall₂ (fun m n => m = 1 ∨ m = n) xs (xs.take n ++ inner) := by
    intro xs n hdrop
    have hrefl : List.Forall₂ (fun m n => m = 1 ∨ m = n) (xs.take n) (xs.take n) :=
      List.forall₂_same.2 fun _ _ => .inr rfl
    have hall : List.Forall₂ (fun m n => m = 1 ∨ m = n) (xs.take n ++ xs.drop n)
        (xs.take n ++ inner) := List.rel_append hrefl hdrop
    rwa [List.take_append_drop] at hall
  rw [List.append_assoc]
  rcases Nat.le_total lhs.length rhs.length with hle | hle
  · rw [Nat.sub_eq_zero_of_le hle, List.take_zero, List.nil_append]
    rw [Nat.sub_eq_zero_of_le hle, List.drop_zero] at hl
    have hself : StretchesTo rhs ([] ++ (rhs.take (rhs.length - lhs.length) ++ inner)) :=
      stretchesTo_append_left (hpart rhs _ hr)
    exact ⟨stretchesTo_append_left hl, hself⟩
  · rw [Nat.sub_eq_zero_of_le hle, List.take_zero, List.nil_append]
    rw [Nat.sub_eq_zero_of_le hle, List.drop_zero] at hr
    have hself : StretchesTo lhs ([] ++ (lhs.take (lhs.length - rhs.length) ++ inner)) :=
      stretchesTo_append_left (hpart lhs _ hl)
    exact ⟨hself, stretchesTo_append_left hr⟩

/-! ## Shapes of one rank -/

/-- Each size of the first shape is one or the size of the second one there. -/
abbrev Within (A B : List Nat) : Prop := List.Forall₂ (fun m n => m = 1 ∨ m = n) A B

theorem within_self (A : List Nat) : Within A A := List.forall₂_same.2 fun _ _ => .inr rfl

theorem Within.trans (h : Within A B) (h' : Within B C) : Within A C := by
  induction h generalizing C with
  | nil => exact h'
  | cons hmn _ ih =>
      cases h' with
      | cons hnk h' => exact .cons (by omega) (ih h')

theorem Within.set_one (h : Within A B) (a : Nat) : Within (A.set a 1) B := by
  induction h generalizing a with
  | nil => exact .nil
  | cons hmn hrest ih =>
      cases a with
      | zero => exact .cons (.inl rfl) hrest
      | succ a => exact .cons hmn (ih a)

theorem Within.set_both (h : Within A B) (a n : Nat) : Within (A.set a n) (B.set a n) := by
  induction h generalizing a with
  | nil => exact .nil
  | cons hmn hrest ih =>
      cases a with
      | zero => exact .cons (.inr rfl) hrest
      | succ a => exact .cons hmn (ih a)

theorem Within.inBounds (h : Within A B) (hx : InBounds B x) : InBounds A (alignIndex A x) :=
  ((stretchesTo_iff h.length_eq).2 h).inBounds hx

theorem Within.getElem? (h : Within A B) {a m : Nat} (hm : A[a]? = some m) :
    m = 1 ∨ B[a]? = some m := by
  induction h generalizing a with
  | nil => cases hm
  | cons hmn _ ih =>
      cases a with
      | zero =>
          obtain rfl := Option.some.inj hm
          exact hmn.imp_right fun h => congrArg some h.symm
      | succ a => exact ih hm

theorem alignIndex_cons {n i : Nat} (h : A.length = x.length) :
    alignIndex (n :: A) (i :: x) = (if n = 1 then 0 else i) :: alignIndex A x := by
  rw [alignIndex, aligned_eq_zip (by simp [h]), alignIndex, aligned_eq_zip h]
  rfl

theorem length_alignIndex (h : A.length = x.length) : (alignIndex A x).length = x.length := by
  rw [alignIndex, aligned_eq_zip h, List.length_map, List.length_zip, h, Nat.min_self]

/-- A position of an axis that has its size and the coordinate changed. -/
theorem alignIndex_set_set (h : A.length = x.length) (a n i : Nat) :
    alignIndex (A.set a n) (x.set a i) = (alignIndex A x).set a (if n = 1 then 0 else i) := by
  induction A generalizing x a with
  | nil =>
      obtain rfl := List.length_eq_zero_iff.1 h.symm
      rfl
  | cons m A ih =>
      cases x with
      | nil => simp at h
      | cons j x =>
          have hlen : A.length = x.length := by simpa using h
          cases a with
          | zero =>
              rw [List.set_cons_zero, List.set_cons_zero, alignIndex_cons hlen,
                alignIndex_cons hlen]
              rfl
          | succ a =>
              rw [List.set_cons_succ, List.set_cons_succ, alignIndex_cons (by simpa using hlen),
                ih hlen, alignIndex_cons hlen]
              rfl

/-- A position that is moved along an axis is read at the moved one, unless the axis is
stretched. -/
theorem alignIndex_set (h : A.length = x.length) (a i : Nat) :
    alignIndex A (x.set a i) = (alignIndex A x).set a (if A[a]? = some 1 then 0 else i) := by
  by_cases ha : a < A.length
  · have hset := alignIndex_set_set h a A[a] i
    rw [List.set_getElem_self] at hset
    simpa [List.getElem?_eq_getElem ha] using hset
  · rw [List.set_eq_of_length_le (by omega),
      List.set_eq_of_length_le (by rw [length_alignIndex h]; omega)]

/-- An axis of size one is read at its only position. -/
theorem alignIndex_set_one (h : A.length = x.length) (a : Nat) :
    alignIndex (A.set a 1) x = (alignIndex A x).set a 0 := by
  by_cases ha : a < x.length
  · have hset := alignIndex_set_set h a 1 x[a]
    rwa [List.set_getElem_self, if_pos rfl] at hset
  · rw [List.set_eq_of_length_le (by omega),
      List.set_eq_of_length_le (by rw [length_alignIndex h]; omega)]

/-- Stretching twice. -/
theorem alignIndex_alignIndex (hAB : Within A B) (h : B.length = x.length) :
    alignIndex A (alignIndex B x) = alignIndex A x := by
  induction hAB generalizing x with
  | nil =>
      obtain rfl := List.length_eq_zero_iff.1 h.symm
      rfl
  | @cons m n A B hmn hAB ih =>
      cases x with
      | nil => simp at h
      | cons i x =>
          have hlen : B.length = x.length := by simpa using h
          have hlen' : A.length = x.length := hAB.length_eq.trans hlen
          rw [alignIndex_cons hlen,
            alignIndex_cons (by rw [length_alignIndex hlen, hlen']), ih hlen, alignIndex_cons hlen']
          congr 1
          by_cases hm : m = 1
          · simp [hm]
          · have hn : m = n := hmn.resolve_left hm
            simp [← hn, hm]

/-- The common shape of two shapes is within every shape that both are within. -/
theorem Common.within_of {sizes : List Nat} (h : Common (A.zip B) sizes) (hA : Within A C)
    (hB : Within B C) : Within sizes C := by
  induction hA generalizing B sizes with
  | nil =>
      cases hB
      cases h
      exact .nil
  | @cons m k A C hm hA ih =>
      cases hB with
      | @cons n _ B _ hn hB =>
          cases h with
          | @cons _ c _ _ hc hrest =>
              refine .cons ?_ (ih hrest hB)
              have hcommon := commonSize?_eq_some.1 hc
              omega

theorem Common.within {sizes : List Nat} (hlen : A.length = B.length)
    (h : Common (A.zip B) sizes) : Within A sizes ∧ Within B sizes := h.stretches hlen

theorem Within.nonzeroVolume_le (h : Within A B) : nonzeroVolume A ≤ nonzeroVolume B := by
  induction h with
  | nil => exact Nat.le_refl _
  | @cons m n A B hmn _ ih =>
      have hcons : ∀ (n : Nat) (A : List Nat), nonzeroVolume (n :: A) =
          Nat.max n 1 * nonzeroVolume A := fun n A => by
        rw [← List.singleton_append, nonzeroVolume_append, nonzeroVolume_singleton]
      rw [hcons, hcons]
      refine Nat.mul_le_mul ?_ ih
      rcases hmn with rfl | rfl
      · exact Nat.max_le.2 ⟨Nat.le_max_right .., Nat.le_max_right ..⟩
      · exact Nat.le_refl _

theorem Within.not_tooLarge (h : Within A B) (hfit : ¬ TooLarge B) : ¬ TooLarge A :=
  not_tooLarge_iff.2 (Nat.lt_of_le_of_lt h.nonzeroVolume_le (not_tooLarge_iff.1 hfit))

end TensorLowering.NdArray
