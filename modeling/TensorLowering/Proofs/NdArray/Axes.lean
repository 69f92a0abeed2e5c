import Mathlib.Data.List.InsertIdx
import TensorLowering.Proofs.NdArray.Positions

/-!
# Axes that come and go

Axes that are inserted into a shape one after the other, the least first, stand at the places that
were named, and erasing them again, the greatest first, leaves the others. Positions follow the
shape that they are in.
-/
namespace TensorLowering.NdArray

variable {axes xs ys shape ix p q : List Nat} {a n : Nat}

/-! ## Entries beside some places -/

/-- The places below `n` that are not listed. -/
def others (axes : List Nat) (n : Nat) : List Nat := (List.range n).filter (· ∉ axes)

/-- The entries of a list at the listed places. -/
def select (dims entries : List Nat) : List Nat := dims.map (entries.getD · 0)

/-- The list without its entries at some places. -/
def without (axes xs : List Nat) : List Nat := select (others axes xs.length) xs

/-- The list with an entry put at each of some places, the least first. -/
def extended (axes : List Nat) (d : Nat) (xs : List Nat) : List Nat :=
  axes.foldl (fun xs a => xs.insertIdx a d) xs

theorem mem_others : a ∈ others axes n ↔ a < n ∧ a ∉ axes := by
  simp [others]

@[simp] theorem without_nil (xs : List Nat) : without [] xs = xs := by
  have hall : others [] xs.length = List.range xs.length := by simp [others]
  rw [without, hall, select]
  refine List.ext_getElem (by simp) fun i hi hi' => ?_
  rw [List.getElem_map, List.getElem_range, List.getD_eq_getElem?_getD,
    List.getElem?_eq_getElem hi', Option.getD_some]

theorem length_without_le (axes xs : List Nat) : (without axes xs).length ≤ xs.length := by
  have hle := List.length_filter_le (· ∉ axes) (List.range xs.length)
  rw [List.length_range] at hle
  rwa [without, select, List.length_map]

/-- Below all the places, the list is as it was. -/
theorem others_of_lt (h : ∀ b ∈ axes, a < b) (ha : a < n) :
    ∃ rest, others axes n = List.range a ++ a :: rest ∧
      others (a :: axes) n = List.range a ++ rest := by
  have hsplit : List.range n = List.range a ++ a :: List.range' (a + 1) (n - (a + 1)) := by
    have hn : n = a + (n - (a + 1) + 1) := by omega
    conv => lhs; rw [hn]
    rw [List.range_eq_range', List.range_eq_range', ← List.range'_append_1, List.range'_succ,
      Nat.zero_add]
  have hbefore : (List.range a).filter (· ∉ axes) = List.range a := by
    refine List.filter_eq_self.2 fun i hi => decide_eq_true fun hmem => ?_
    have hia := List.mem_range.1 hi
    have hai := h i hmem
    omega
  have hbefore' : (List.range a).filter (· ∉ a :: axes) = List.range a := by
    refine List.filter_eq_self.2 fun i hi => decide_eq_true fun hmem => ?_
    have hia := List.mem_range.1 hi
    rcases List.mem_cons.1 hmem with rfl | hmem
    · omega
    · have hai := h i hmem
      omega
  have hself : a ∉ axes := fun hmem => Nat.lt_irrefl a (h a hmem)
  have hafter : (List.range' (a + 1) (n - (a + 1))).filter (· ∉ a :: axes) =
      (List.range' (a + 1) (n - (a + 1))).filter (· ∉ axes) := by
    refine List.filter_congr fun i hi => ?_
    have hne : i ≠ a := by
      have hle := (List.mem_range'_1.1 hi).1
      omega
    simp [hne]
  refine ⟨(List.range' (a + 1) (n - (a + 1))).filter (· ∉ axes), ?_, ?_⟩
  · rw [others, hsplit, List.filter_append, hbefore, List.filter_cons_of_pos (by simpa using hself)]
  · rw [others, hsplit, List.filter_append, hbefore', List.filter_cons_of_neg (by simp), hafter]

theorem without_cons (h : ∀ b ∈ axes, a < b) (xs : List Nat) :
    without (a :: axes) xs = (without axes xs).eraseIdx a := by
  by_cases ha : a < xs.length
  · obtain ⟨rest, hothers, hcons⟩ := others_of_lt h ha
    rw [without, without, hothers, hcons, select, select, List.map_append, List.map_append,
      List.map_cons, List.eraseIdx_append_of_length_le (by simp)]
    simp
  · have hsame : others (a :: axes) xs.length = others axes xs.length := by
      refine List.filter_congr fun i hi => ?_
      have hne : i ≠ a := by
        have hlt := List.mem_range.1 hi
        omega
      simp [hne]
    have hlen : (without axes xs).length ≤ a :=
      Nat.le_trans (length_without_le axes xs) (by omega)
    rw [List.eraseIdx_of_length_le hlen, without, hsame, without]

theorem without_singleton (a : Nat) (xs : List Nat) : without [a] xs = xs.eraseIdx a := by
  rw [without_cons (by simp), without_nil]

theorem getElem?_without (h : ∀ b ∈ axes, a < b) : (without axes xs)[a]? = xs[a]? := by
  by_cases ha : a < xs.length
  · obtain ⟨rest, hothers, -⟩ := others_of_lt h ha
    rw [without, hothers, select, List.map_append, List.getElem?_append_right (by simp)]
    simp [ha]
  · have hlen : (without axes xs).length ≤ a :=
      Nat.le_trans (length_without_le axes xs) (by omega)
    rw [List.getElem?_eq_none hlen, List.getElem?_eq_none (by omega)]

/-- Two lists differ at the given places only. -/
theorem without_eq_iff (h : p.length = q.length) :
    without axes p = without axes q ↔ ∀ i, i ∉ axes → p[i]? = q[i]? := by
  rw [without, without, h, select, select, List.map_inj_left]
  constructor
  · intro hall i hi
    by_cases hlt : i < q.length
    · have hi' := hall i (mem_others.2 ⟨hlt, hi⟩)
      rw [List.getD_eq_getElem?_getD, List.getD_eq_getElem?_getD, List.getElem?_eq_getElem hlt,
        List.getElem?_eq_getElem (h ▸ hlt)] at hi'
      rw [List.getElem?_eq_getElem hlt, List.getElem?_eq_getElem (h ▸ hlt)]
      exact congrArg some hi'
    · rw [List.getElem?_eq_none (by omega), List.getElem?_eq_none (by omega)]
  · intro hall i hi
    rw [List.getD_eq_getElem?_getD, List.getD_eq_getElem?_getD, hall i (mem_others.1 hi).2]

theorem without_congr (h : ∀ a, a ∈ axes ↔ a ∈ ys) (xs : List Nat) :
    without axes xs = without ys xs := by
  have hsame : others axes xs.length = others ys xs.length :=
    List.filter_congr fun i _ => by simp only [h i]
  rw [without, hsame, without]

/-- Erasing undoes inserting. -/
theorem without_extended (h : axes.Pairwise (· < ·)) (d : Nat) (xs : List Nat) :
    without axes (extended axes d xs) = xs := by
  induction axes generalizing xs with
  | nil => exact without_nil xs
  | cons a axes ih =>
      obtain ⟨hlt, hrest⟩ := List.pairwise_cons.1 h
      rw [without_cons hlt, extended, List.foldl_cons]
      exact (congrArg (·.eraseIdx a) (ih hrest (xs.insertIdx a d))).trans
        (List.eraseIdx_insertIdx_self d)

/-- Erasing an entry and putting it back. -/
theorem insertIdx_without {d : Nat} (h : ∀ b ∈ axes, a < b) (ha : xs[a]? = some d) :
    (without (a :: axes) xs).insertIdx a d = without axes xs := by
  obtain ⟨hlt, hget⟩ := List.getElem?_eq_some_iff.1 ((getElem?_without h).trans ha)
  rw [without_cons h, ← hget, List.insertIdx_eraseIdx_getElem hlt]

/-- Inserting undoes erasing. -/
theorem extended_without {d : Nat} (h : axes.Pairwise (· < ·)) (hd : ∀ a ∈ axes, xs[a]? = some d) :
    extended axes d (without axes xs) = xs := by
  induction axes with
  | nil => exact without_nil xs
  | cons a axes ih =>
      obtain ⟨hlt, hrest⟩ := List.pairwise_cons.1 h
      rw [extended, List.foldl_cons, insertIdx_without hlt (hd a (by simp))]
      exact ih hrest fun b hb => hd b (by simp [hb])

/-- Ascending places below the length that they extend a list to are within the list when their turn
comes. -/
theorem head_le_of_pairwise (h : (a :: axes).Pairwise (· < ·))
    (hlt : ∀ b ∈ a :: axes, b < n + (axes.length + 1)) : a ≤ n := by
  have hle : ∀ axes : List Nat, ∀ a, (a :: axes).Pairwise (· < ·) → ∀ m,
      (∀ b ∈ a :: axes, b < m) → a + axes.length < m := by
    intro axes
    induction axes with
    | nil => exact fun a _ m hm => hm a (by simp)
    | cons b axes ih =>
        intro a hpair m hm
        obtain ⟨hab, hrest⟩ := List.pairwise_cons.1 hpair
        have hb := ih b hrest m fun c hc => hm c (by simp [hc])
        have hlt := hab b (by simp)
        rw [List.length_cons]
        omega
  have hsum := hle axes a h _ hlt
  omega

theorem length_extended (h : axes.Pairwise (· < ·))
    (hlt : ∀ b ∈ axes, b < xs.length + axes.length) (d : Nat) :
    (extended axes d xs).length = xs.length + axes.length := by
  induction axes generalizing xs with
  | nil => rfl
  | cons a axes ih =>
      have hle := head_le_of_pairwise h hlt
      have hlen : (xs.insertIdx a d).length = xs.length + 1 := by
        rw [List.length_insertIdx, if_pos hle]
      have hrest : (extended axes d (xs.insertIdx a d)).length = xs.length + 1 + axes.length := by
        rw [← hlen]
        refine ih (List.pairwise_cons.1 h).2 fun b hb => ?_
        have hb' := hlt b (by simp [hb])
        rw [List.length_cons] at hb'
        omega
      rw [extended, List.foldl_cons, List.length_cons]
      exact hrest.trans (by omega)

/-- Where an entry was put, it is. -/
theorem getElem?_extended (h : axes.Pairwise (· < ·))
    (hlt : ∀ b ∈ axes, b < xs.length + axes.length) (d : Nat) (ha : a ∈ axes) :
    (extended axes d xs)[a]? = some d := by
  have hkeep : ∀ (axes xs : List Nat), (∀ b ∈ axes, a < b) →
      (extended axes d xs)[a]? = xs[a]? := by
    intro axes
    induction axes with
    | nil => exact fun xs _ => rfl
    | cons b axes ih =>
        intro xs hb
        rw [extended, List.foldl_cons]
        refine (ih (xs.insertIdx b d) fun c hc => hb c (by simp [hc])).trans ?_
        rw [List.getElem?_insertIdx, if_pos (hb b (by simp))]
  induction axes generalizing xs with
  | nil => cases ha
  | cons b axes ih =>
      have hle := head_le_of_pairwise h hlt
      obtain ⟨hpair, hrest⟩ := List.pairwise_cons.1 h
      have hlen : (xs.insertIdx b d).length = xs.length + 1 := by
        rw [List.length_insertIdx, if_pos hle]
      rw [extended, List.foldl_cons]
      rcases List.mem_cons.1 ha with rfl | ha
      · refine (hkeep axes _ hpair).trans ?_
        rw [List.getElem?_insertIdx, if_neg (Nat.lt_irrefl a), if_pos rfl, if_pos hle]
      · refine ih hrest (fun c hc => ?_) ha
        have hc' := hlt c (by simp [hc])
        rw [List.length_cons] at hc'
        omega

theorem mem_extended {d : Nat} (h : n ∈ extended axes d xs) : n = d ∨ n ∈ xs := by
  induction axes generalizing xs with
  | nil => exact .inr h
  | cons b axes ih =>
      rcases ih h with hn | hn
      · exact .inl hn
      · exact List.eq_or_mem_of_mem_insertIdx hn

/-! ## Positions -/

theorem InBounds.getElem?_lt (h : InBounds shape ix) (hn : shape[a]? = some n) :
    ∃ i : Nat, ix[a]? = some i ∧ i < n := by
  induction shape generalizing ix a with
  | nil => cases hn
  | cons m shape ih =>
      obtain ⟨i, rest, rfl, hi, hrest⟩ := inBounds_cons.1 h
      cases a with
      | zero =>
          obtain rfl := Option.some.inj hn
          exact ⟨i, rfl, hi⟩
      | succ a =>
          obtain ⟨j, hj, hlt⟩ := ih hrest hn
          exact ⟨j, hj, hlt⟩

theorem inBounds_iff_getElem? : InBounds shape ix ↔
    ix.length = shape.length ∧
      ∀ a n : Nat, shape[a]? = some n → ∃ i : Nat, ix[a]? = some i ∧ i < n := by
  constructor
  · exact fun h => ⟨h.length_eq, fun a n hn => h.getElem?_lt hn⟩
  · rintro ⟨hlen, hall⟩
    refine inBounds_iff_forall₂.2 (List.forall₂_iff_get.2 ⟨hlen, fun a ha hn => ?_⟩)
    obtain ⟨i, hi, hlt⟩ := hall a shape[a] (List.getElem?_eq_getElem hn)
    rw [List.getElem?_eq_getElem ha] at hi
    cases hi
    exact hlt

theorem InBounds.set (h : InBounds shape ix) {i : Nat} (hi : i < n) :
    InBounds (shape.set a n) (ix.set a i) := by
  refine inBounds_iff_getElem?.2 ⟨by simp [h.length_eq], fun b m hm => ?_⟩
  rw [List.getElem?_set] at hm ⊢
  split at hm
  next hab =>
    split at hm
    next hlt =>
      cases hm
      rw [if_pos hab, if_pos (h.length_eq ▸ hlt)]
      exact ⟨i, rfl, hi⟩
    next => cases hm
  next hab =>
    rw [if_neg hab]
    exact h.getElem?_lt hm

theorem inBounds_select {dims : List Nat} (hp : InBounds shape ix)
    (hdims : ∀ d ∈ dims, d < shape.length) :
    InBounds (select dims shape) (select dims ix) := by
  rw [inBounds_iff_forall₂] at hp ⊢
  rw [select, select, List.forall₂_map_left_iff, List.forall₂_map_right_iff, List.forall₂_same]
  intro d hd
  have hlt := hdims d hd
  have hlt' : d < ix.length := hp.length_eq ▸ hlt
  simpa [hlt, hlt'] using hp.get hlt' hlt

theorem InBounds.without (h : InBounds shape ix) (axes : List Nat) :
    InBounds (without axes shape) (without axes ix) := by
  rw [NdArray.without, NdArray.without, h.length_eq]
  exact inBounds_select h fun a ha => (mem_others.1 ha).1

theorem InBounds.insertIdx (h : InBounds shape ix) {i : Nat} (hi : i < n) :
    InBounds (shape.insertIdx a n) (ix.insertIdx a i) := by
  induction shape generalizing ix a with
  | nil =>
      obtain rfl := inBounds_nil.1 h
      cases a with
      | zero => exact ⟨hi, trivial⟩
      | succ a => exact h
  | cons m shape ih =>
      obtain ⟨j, rest, rfl, hj, hrest⟩ := inBounds_cons.1 h
      cases a with
      | zero => exact ⟨hi, hj, hrest⟩
      | succ a => exact ⟨hj, ih hrest⟩

theorem InBounds.extended (h : InBounds shape ix) (axes : List Nat) :
    InBounds (extended axes 1 shape) (extended axes 0 ix) := by
  induction axes generalizing shape ix with
  | nil => exact h
  | cons a axes ih => exact ih (h.insertIdx Nat.one_pos)

end TensorLowering.NdArray
