import TensorLowering.NdArray.Broadcast
import TensorLowering.Proofs.NdArray.Positions

/-!
# Common shapes

Two sizes have a common size when one of them stretches to the other, and two shapes have the common
sizes of the axes that stand at the same place from the end. Main statements: the common shape of
several shapes does not depend on their order and bracketing, and it consists of the axes that only
one shape has and of the common sizes of the others.
-/
namespace TensorLowering.NdArray

variable {A B C D : List Nat}

/-! ## Sizes -/

/-- The common size of two sizes is the one of them to which both stretch. -/
theorem commonSize?_eq_some {m n k : Nat} : commonSize? m n = some k ↔
    (m = 1 ∨ m = k) ∧ (n = 1 ∨ n = k) ∧ (k = m ∨ k = n) := by
  unfold commonSize?
  split
  next h => rw [Option.some.injEq]; omega
  next =>
    split
    next => rw [Option.some.injEq]; omega
    next =>
      split
      next => rw [Option.some.injEq]; omega
      next => exact iff_of_false nofun (by omega)

theorem commonSize?_eq_none {m n : Nat} : commonSize? m n = none ↔ m ≠ n ∧ m ≠ 1 ∧ n ≠ 1 := by
  unfold commonSize?
  grind

theorem commonSize?_stretches {m n k : Nat} (h : commonSize? m n = some k) :
    (m = 1 ∨ m = k) ∧ (n = 1 ∨ n = k) :=
  (commonSize?_eq_some.1 h).imp_right And.left

theorem commonSize?_one_left (n : Nat) : commonSize? 1 n = some n :=
  commonSize?_eq_some.2 (by omega)

theorem commonSize?_one_right (n : Nat) : commonSize? n 1 = some n :=
  commonSize?_eq_some.2 (by omega)

theorem commonSize?_comm (m n : Nat) : commonSize? m n = commonSize? n m := by
  refine Option.ext fun k => ?_
  rw [commonSize?_eq_some, commonSize?_eq_some]
  omega

theorem commonSize?_self (n : Nat) : commonSize? n n = some n := if_pos rfl

theorem commonSize?_assoc {m n k i c : Nat} (hmn : commonSize? m n = some i)
    (hik : commonSize? i k = some c) :
    ∃ j, commonSize? n k = some j ∧ commonSize? m j = some c := by
  simp only [commonSize?_eq_some] at hmn hik ⊢
  refine ⟨if n = 1 then k else n, ?_⟩
  split <;> omega

/-- Corresponding sizes have the listed sizes in common. -/
def Common (pairs : List (Nat × Nat)) (sizes : List Nat) : Prop :=
  List.Forall₂ (fun pair n => commonSize? pair.1 pair.2 = some n) pairs sizes

/-- A common size is one of the two. -/
theorem Common.exists_mem {pairs : List (Nat × Nat)} {sizes : List Nat} (h : Common pairs sizes)
    {n : Nat} (hn : n ∈ sizes) : ∃ pair ∈ pairs, n = pair.1 ∨ n = pair.2 := by
  induction h with
  | nil => cases hn
  | @cons pair k pairs sizes hk _ ih =>
      rcases List.mem_cons.1 hn with rfl | hn
      · exact ⟨pair, by simp, (commonSize?_eq_some.1 hk).2.2⟩
      · obtain ⟨pair, hpair, hor⟩ := ih hn
        exact ⟨pair, List.mem_cons_of_mem _ hpair, hor⟩

theorem Common.length_eq {sizes : List Nat} (hlen : A.length = B.length)
    (h : Common (A.zip B) sizes) : sizes.length = B.length := by
  have hzip := List.Forall₂.length_eq h
  rw [List.length_zip, hlen, Nat.min_self] at hzip
  exact hzip.symm

theorem common_self (A : List Nat) : Common (A.zip A) A := by
  rw [Common, List.zip_eq_zipWith, List.zipWith_self, List.forall₂_map_left_iff]
  exact List.forall₂_same.2 fun n _ => if_pos rfl

/-- Where both shapes have size one, they have it in common. -/
theorem Common.set_one {sizes : List Nat} (hlen : A.length = B.length)
    (h : Common (A.zip B) sizes) (a : Nat) :
    Common ((A.set a 1).zip (B.set a 1)) (sizes.set a 1) := by
  induction A generalizing B sizes a with
  | nil =>
      obtain rfl := List.length_eq_zero_iff.1 hlen.symm
      cases h
      exact .nil
  | cons m A ih =>
      cases B with
      | nil => simp at hlen
      | cons n B =>
          cases h with
          | cons hk hrest =>
              cases a with
              | zero => exact .cons rfl hrest
              | succ a => exact .cons hk (ih (by simpa using hlen) hrest a)

/-- Size one on one side leaves the size of the other. -/
theorem Common.getElem?_left {sizes : List Nat} (hlen : A.length = B.length)
    (h : Common (A.zip B) sizes) {a : Nat} (hone : B[a]? = some 1) : sizes[a]? = A[a]? := by
  induction A generalizing B sizes a with
  | nil =>
      obtain rfl := List.length_eq_zero_iff.1 hlen.symm
      cases hone
  | cons m A ih =>
      cases B with
      | nil => simp at hlen
      | cons n B =>
          cases h with
          | @cons _ k _ _ hk hrest =>
              cases a with
              | zero =>
                  obtain rfl : n = 1 := Option.some.inj hone
                  have hkm : k = m := by
                    have hcommon := commonSize?_eq_some.1 hk
                    omega
                  rw [hkm]
                  rfl
              | succ a => exact ih (by simpa using hlen) hrest hone

/-! ## Shapes from the last axis to the first -/

/-- Broadcasting of shapes written from the last axis to the first. -/
def broadcastReversed? : List Nat → List Nat → Option (List Nat)
  | [], shape => some shape
  | shape, [] => some shape
  | m :: lhs, n :: rhs => do return (← commonSize? m n) :: (← broadcastReversed? lhs rhs)

theorem broadcastReversed?_nil_right (A : List Nat) : broadcastReversed? A [] = some A := by
  cases A <;> rfl

theorem broadcastReversed?_cons {m n : Nat} {A B C : List Nat} :
    broadcastReversed? (m :: A) (n :: B) = some C ↔
      ∃ k rest, commonSize? m n = some k ∧ broadcastReversed? A B = some rest ∧
        k :: rest = C := by
  rw [broadcastReversed?]
  simp only [Option.bind_eq_bind, Option.bind_eq_some_iff, Option.pure_def, Option.some.injEq]
  constructor
  · rintro ⟨k, hk, rest, hrest, h⟩
    exact ⟨k, rest, hk, hrest, h⟩
  · rintro ⟨k, rest, hk, hrest, h⟩
    exact ⟨k, hk, rest, hrest, h⟩

theorem some_eq_some_iff_getD {A C : List Nat} : some A = some C ↔
    C.length = A.length ∧ ∀ i < C.length, some (A.getD i 1) = C[i]? := by
  constructor
  · rintro ⟨⟩
    exact ⟨rfl, fun i hi => by simp [hi]⟩
  · rintro ⟨hlen, hsizes⟩
    refine congrArg some (List.ext_getElem hlen.symm fun i hi hi' => ?_)
    simpa [hi, hi'] using hsizes i hi'

/-- Each size is the common size of the two that stand there, and one where there is none. -/
theorem broadcastReversed?_eq_some {A B C : List Nat} : broadcastReversed? A B = some C ↔
    C.length = max A.length B.length ∧
      ∀ i < C.length, commonSize? (A.getD i 1) (B.getD i 1) = C[i]? := by
  induction A generalizing B C with
  | nil => simpa [broadcastReversed?, commonSize?_one_left] using some_eq_some_iff_getD (A := B)
  | cons m A ih =>
      cases B with
      | nil =>
          simpa [broadcastReversed?, commonSize?_one_right] using
            some_eq_some_iff_getD (A := m :: A)
      | cons n B =>
          rw [broadcastReversed?_cons]
          constructor
          · rintro ⟨k, rest, hk, hrest, rfl⟩
            obtain ⟨hlen, hsizes⟩ := ih.1 hrest
            refine ⟨by simp only [List.length_cons]; omega, fun i hi => ?_⟩
            cases i with
            | zero => exact hk
            | succ i => exact hsizes i (Nat.lt_of_succ_lt_succ hi)
          · rintro ⟨hlen, hsizes⟩
            cases C with
            | nil => simp only [List.length_cons, List.length_nil] at hlen; omega
            | cons k C =>
                simp only [List.length_cons] at hlen
                refine ⟨k, C, hsizes 0 (Nat.succ_pos _), ih.2 ⟨by omega, fun i hi => ?_⟩, rfl⟩
                exact hsizes (i + 1) (Nat.succ_lt_succ hi)

theorem broadcastReversed?_comm {A B C : List Nat} (h : broadcastReversed? A B = some C) :
    broadcastReversed? B A = some C := by
  induction A generalizing B C with
  | nil => rwa [broadcastReversed?_nil_right]
  | cons m A ih =>
      cases B with
      | nil => rwa [broadcastReversed?_nil_right] at h
      | cons n B =>
          obtain ⟨k, rest, hk, hrest, rfl⟩ := broadcastReversed?_cons.1 h
          rw [commonSize?_comm] at hk
          exact broadcastReversed?_cons.2 ⟨k, rest, hk, ih hrest, rfl⟩

theorem broadcastReversed?_self (A : List Nat) : broadcastReversed? A A = some A := by
  induction A with
  | nil => rfl
  | cons n A ih => exact broadcastReversed?_cons.2 ⟨n, A, commonSize?_self n, ih, rfl⟩

theorem broadcastReversed?_assoc {A B C X D : List Nat} (hAB : broadcastReversed? A B = some X)
    (hXC : broadcastReversed? X C = some D) :
    ∃ Y, broadcastReversed? B C = some Y ∧ broadcastReversed? A Y = some D := by
  induction A generalizing B C X D with
  | nil =>
      cases hAB
      exact ⟨D, hXC, rfl⟩
  | cons m A ih =>
      cases B with
      | nil =>
          rw [broadcastReversed?_nil_right] at hAB
          cases hAB
          exact ⟨C, rfl, hXC⟩
      | cons n B =>
          cases C with
          | nil =>
              rw [broadcastReversed?_nil_right] at hXC
              cases hXC
              exact ⟨n :: B, rfl, hAB⟩
          | cons k C =>
              obtain ⟨i, inner, hmn, hinner, rfl⟩ := broadcastReversed?_cons.1 hAB
              obtain ⟨c, rest, hik, hrest, rfl⟩ := broadcastReversed?_cons.1 hXC
              obtain ⟨j, hnk, hmj⟩ := commonSize?_assoc hmn hik
              obtain ⟨Y, hBC, hAY⟩ := ih hinner hrest
              exact ⟨j :: Y, broadcastReversed?_cons.2 ⟨j, Y, hnk, hBC, rfl⟩,
                broadcastReversed?_cons.2 ⟨c, rest, hmj, hAY, rfl⟩⟩

/-- Broadcasting where one side has nothing beyond the common axes. -/
theorem broadcastReversed?_append {sizes : List Nat} (hlen : A.length = B.length)
    (hend : C = [] ∨ D = []) (h : broadcastReversed? (A ++ C) (B ++ D) = some sizes) :
    ∃ inner, Common (A.zip B) inner ∧ sizes = inner ++ (C ++ D) := by
  induction A generalizing B sizes with
  | nil =>
      obtain rfl := List.length_eq_zero_iff.1 hlen.symm
      refine ⟨[], .nil, ?_⟩
      rcases hend with rfl | rfl
      · simpa [broadcastReversed?, eq_comm] using h
      · simpa [broadcastReversed?_nil_right, eq_comm] using h
  | cons m A ih =>
      cases B with
      | nil => simp at hlen
      | cons n B =>
          obtain ⟨k, rest, hk, hrest, rfl⟩ := broadcastReversed?_cons.1 h
          obtain ⟨inner, hinner, rfl⟩ := ih (by simpa using hlen) hrest
          exact ⟨k :: inner, .cons hk hinner, rfl⟩

theorem broadcastReversed?_append_of_common {sizes : List Nat} (hlen : A.length = B.length)
    (hend : C = [] ∨ D = []) (h : Common (A.zip B) sizes) :
    broadcastReversed? (A ++ C) (B ++ D) = some (sizes ++ (C ++ D)) := by
  induction A generalizing B sizes with
  | nil =>
      obtain rfl := List.length_eq_zero_iff.1 hlen.symm
      cases h
      rcases hend with rfl | rfl
      · rfl
      · simp [broadcastReversed?_nil_right]
  | cons m A ih =>
      cases B with
      | nil => simp at hlen
      | cons n B =>
          cases h with
          | cons hk hrest =>
              exact broadcastReversed?_cons.2
                ⟨_, _, hk, ih (by simpa using hlen) hrest, rfl⟩

/-! ## Shapes -/

variable {a b c d : List Nat}

theorem sizeAt_eq_reverse {shape : List Nat} {rank axis : Nat} (h : axis < rank) :
    sizeAt shape rank axis = shape.reverse.getD (rank - 1 - axis) 1 := by
  rw [sizeAt, List.getD_eq_getElem?_getD, List.getD_eq_getElem?_getD]
  split
  next hin =>
    have hplace : shape.length - 1 - (rank - 1 - axis) = axis + shape.length - rank := by omega
    rw [List.getElem?_reverse (by omega), hplace]
  next hout =>
    rw [List.getElem?_eq_none (by rw [List.length_reverse]; omega)]
    rfl

/-- The sizes of the common shape, from the last axis to the first. -/
theorem broadcastShape_eq_ok_iff {lhs rhs sizes : List Nat} : broadcastShape lhs rhs = .ok sizes ↔
    broadcastReversed? lhs.reverse rhs.reverse = some sizes.reverse := by
  generalize hrank : max lhs.length rhs.length = rank
  have hmapM : broadcastShape lhs rhs = .ok sizes ↔
      (List.range rank).mapM (fun axis =>
        commonSize? (sizeAt lhs rank axis) (sizeAt rhs rank axis)) = some sizes := by
    unfold broadcastShape
    rw [hrank]
    dsimp only
    split
    next shape hshape => rw [hshape, Except.ok.injEq, Option.some.injEq]
    next hnone =>
      rw [hnone]
      exact iff_of_false nofun nofun
  rw [hmapM, mapM_range_eq_some, broadcastReversed?_eq_some, List.length_reverse,
    List.length_reverse, List.length_reverse, hrank]
  refine and_congr_right fun hlen => ?_
  -- An axis counted from the front on the left is counted from the end on the right.
  constructor
  · intro h i hi
    have hsizes := h (rank - 1 - i) (by omega)
    have hback : rank - 1 - (rank - 1 - i) = i := by omega
    rw [sizeAt_eq_reverse (by omega), sizeAt_eq_reverse (by omega), hback] at hsizes
    rw [hsizes, List.getElem?_reverse hi, hlen]
  · intro h axis haxis
    have hsizes := h (rank - 1 - axis) (by omega)
    have hback : sizes.length - 1 - (rank - 1 - axis) = axis := by omega
    rw [List.getElem?_reverse (by omega), hback] at hsizes
    rw [sizeAt_eq_reverse haxis, sizeAt_eq_reverse haxis, hsizes]

theorem broadcastShape_comm (h : broadcastShape a b = .ok c) : broadcastShape b a = .ok c :=
  broadcastShape_eq_ok_iff.2 (broadcastReversed?_comm (broadcastShape_eq_ok_iff.1 h))

theorem broadcastShape_self (a : List Nat) : broadcastShape a a = .ok a :=
  broadcastShape_eq_ok_iff.2 (broadcastReversed?_self _)

theorem broadcastShape_nil_left (a : List Nat) : broadcastShape [] a = .ok a :=
  broadcastShape_eq_ok_iff.2 rfl

theorem broadcastShape_assoc {ab : List Nat} (hab : broadcastShape a b = .ok ab)
    (h : broadcastShape ab c = .ok d) :
    ∃ bc, broadcastShape b c = .ok bc ∧ broadcastShape a bc = .ok d := by
  rw [broadcastShape_eq_ok_iff] at hab h
  obtain ⟨reversed, hbc, hd⟩ := broadcastReversed?_assoc hab h
  rw [← reversed.reverse_reverse] at hbc hd
  exact ⟨reversed.reverse, broadcastShape_eq_ok_iff.2 hbc, broadcastShape_eq_ok_iff.2 hd⟩

/-- The common shape has the axes that only one array has, and then the common sizes. -/
theorem broadcastShape_eq_ok {lhs rhs sizes : List Nat} (h : broadcastShape lhs rhs = .ok sizes) :
    ∃ inner, Common ((lhs.drop (lhs.length - rhs.length)).zip
        (rhs.drop (rhs.length - lhs.length))) inner ∧
      sizes = lhs.take (lhs.length - rhs.length) ++ rhs.take (rhs.length - lhs.length) ++
        inner := by
  have hrev := broadcastShape_eq_ok_iff.1 h
  have hsplit : ∀ xs : List Nat, ∀ n, xs.reverse = (xs.drop n).reverse ++ (xs.take n).reverse := by
    intro xs n
    rw [← List.reverse_append, List.take_append_drop]
  rw [hsplit lhs (lhs.length - rhs.length), hsplit rhs (rhs.length - lhs.length)] at hrev
  have hlen : (lhs.drop (lhs.length - rhs.length)).reverse.length =
      (rhs.drop (rhs.length - lhs.length)).reverse.length := by
    simp only [List.length_reverse, List.length_drop]
    omega
  have hend : (lhs.take (lhs.length - rhs.length)).reverse = [] ∨
      (rhs.take (rhs.length - lhs.length)).reverse = [] := by
    rcases Nat.le_total lhs.length rhs.length with hle | hle
    · left
      simp [Nat.sub_eq_zero_of_le hle]
    · right
      simp [Nat.sub_eq_zero_of_le hle]
  obtain ⟨inner, hinner, hsizes⟩ := broadcastReversed?_append hlen hend hrev
  refine ⟨inner.reverse, ?_, ?_⟩
  · have hflip := List.forall₂_reverse_iff.2 hinner
    rwa [List.zip_eq_zipWith, List.reverse_zipWith hlen, List.reverse_reverse,
      List.reverse_reverse] at hflip
  · rw [← List.reverse_reverse sizes, hsizes]
    rcases hend with hnil | hnil
    · simp [List.reverse_eq_nil_iff.1 hnil]
    · simp [List.reverse_eq_nil_iff.1 hnil]

/-- Shapes whose last axes have common sizes have the axes of the longer one before them. -/
theorem broadcastShape_of_common {lhs rhs inner : List Nat}
    (h : Common ((lhs.drop (lhs.length - rhs.length)).zip
      (rhs.drop (rhs.length - lhs.length))) inner) :
    broadcastShape lhs rhs = .ok (lhs.take (lhs.length - rhs.length) ++
      rhs.take (rhs.length - lhs.length) ++ inner) := by
  have hsplit : ∀ xs : List Nat, ∀ n, xs.reverse = (xs.drop n).reverse ++ (xs.take n).reverse := by
    intro xs n
    rw [← List.reverse_append, List.take_append_drop]
  have hlen : (lhs.drop (lhs.length - rhs.length)).length =
      (rhs.drop (rhs.length - lhs.length)).length := by
    simp only [List.length_drop]
    omega
  have hend : lhs.take (lhs.length - rhs.length) = [] ∨
      rhs.take (rhs.length - lhs.length) = [] := by
    rcases Nat.le_total lhs.length rhs.length with hle | hle
    · exact .inl (by simp [Nat.sub_eq_zero_of_le hle])
    · exact .inr (by simp [Nat.sub_eq_zero_of_le hle])
  have hflip := List.forall₂_reverse_iff.2 h
  rw [List.zip_eq_zipWith, List.reverse_zipWith hlen, ← List.zip_eq_zipWith] at hflip
  have hreversed := broadcastReversed?_append_of_common (by simpa using hlen)
    (hend.imp List.reverse_eq_nil_iff.2 List.reverse_eq_nil_iff.2) hflip
  rw [← hsplit, ← hsplit] at hreversed
  rw [broadcastShape_eq_ok_iff, hreversed]
  rcases hend with hnil | hnil
  · simp [hnil]
  · simp [hnil]

/-- Shapes of one rank have the common sizes of their axes. -/
theorem broadcastShape_iff {sizes : List Nat} (hlen : A.length = B.length) :
    broadcastShape A B = .ok sizes ↔ Common (A.zip B) sizes := by
  constructor
  · intro h
    obtain ⟨inner, hinner, rfl⟩ := broadcastShape_eq_ok h
    simpa [hlen] using hinner
  · intro h
    have hcommon : Common ((A.drop (A.length - B.length)).zip (B.drop (B.length - A.length)))
        sizes := by
      simpa [hlen] using h
    simpa [hlen] using broadcastShape_of_common hcommon

theorem mem_of_broadcastShape {lhs rhs sizes : List Nat} (h : broadcastShape lhs rhs = .ok sizes)
    {n : Nat} (hn : n ∈ sizes) : n ∈ lhs ∨ n ∈ rhs := by
  obtain ⟨inner, hinner, rfl⟩ := broadcastShape_eq_ok h
  rw [List.mem_append, List.mem_append] at hn
  rcases hn with (hn | hn) | hn
  · exact .inl (List.mem_of_mem_take hn)
  · exact .inr (List.mem_of_mem_take hn)
  · obtain ⟨pair, hpair, hor⟩ := Common.exists_mem hinner hn
    obtain ⟨hl, hr⟩ := List.of_mem_zip hpair
    rcases hor with rfl | rfl
    · exact .inl (List.mem_of_mem_drop hl)
    · exact .inr (List.mem_of_mem_drop hr)

end TensorLowering.NdArray
