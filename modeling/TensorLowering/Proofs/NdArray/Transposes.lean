import Mathlib.Data.List.Nodup
import Mathlib.Data.List.Perm.Subperm
import TensorLowering.Proofs.NdArray.Tensors

/-!
# Reordered axes

A valid permutation names every axis once. Applying it to the sizes and to a position keeps
positions in bounds, its inverse undoes it, and a transposed tensor has at a reordered position what
the tensor has at the position itself.
-/
namespace TensorLowering

open Numeric NdArray

namespace Permutation

variable {p q : Permutation} {n : Nat}

/-- A valid permutation names every axis. -/
theorem IsValid.mem_axes (hp : p.IsValid n) {axis : Nat} (h : axis < n) : axis ∈ p.axes := by
  have hsubset : p.axes ⊆ List.range n := fun a ha => List.mem_range.2 (hp.2.1 a ha)
  have hperm : p.axes.Perm (List.range n) :=
    (List.Nodup.subperm hp.2.2 hsubset).perm_of_length_le (by simp [hp.1])
  exact hperm.mem_iff.2 (List.mem_range.2 h)

theorem IsValid.exists_axis (hp : p.IsValid n) {axis : Nat} (h : axis < n) :
    ∃ i, ∃ hi : i < p.axes.length, p.axes[i] = axis :=
  List.mem_iff_getElem.1 (hp.mem_axes h)

/-! ## The inverse -/

/-- Setting places once each keeps what was set. -/
theorem getElem?_foldl_set (places : List (Nat × Nat)) {start : List Nat}
    (hnodup : (places.map Prod.fst).Nodup) {axis i : Nat} (haxis : axis < start.length)
    (h : (axis, i) ∈ places ∨ (∀ e ∈ places, e.1 ≠ axis) ∧ start[axis]? = some i) :
    (places.foldl (fun entries e => entries.set e.1 e.2) start)[axis]? = some i := by
  induction places generalizing start with
  | nil =>
      rcases h with h | h
      · cases h
      · exact h.2
  | cons e places ih =>
      rw [List.map_cons, List.nodup_cons] at hnodup
      refine ih hnodup.2 (by simpa using haxis) ?_
      rcases h with h | ⟨hother, hstart⟩
      · rcases List.mem_cons.1 h with rfl | hmem
        · refine .inr ⟨fun e he hsame => hnodup.1 ?_, by simp [haxis]⟩
          exact List.mem_map.2 ⟨e, he, hsame⟩
        · exact .inl hmem
      · have hne := hother e (by simp)
        exact .inr ⟨fun e' he' => hother e' (by simp [he']), by rwa [List.getElem?_set_ne hne]⟩

theorem getElem?_inverse (hp : p.IsValid n) {i : Nat} (hi : i < p.axes.length) :
    p.inverse.axes[p.axes[i]]? = some i := by
  refine getElem?_foldl_set p.axes.zipIdx ?_ ?_ (.inl ?_)
  · rw [List.zipIdx_map_fst]
    exact hp.2.2
  · rw [List.length_replicate, hp.1]
    exact hp.2.1 _ (List.getElem_mem hi)
  · rw [List.mem_zipIdx_iff_getElem?, List.getElem?_eq_getElem hi]

theorem length_inverse (p : Permutation) : p.inverse.axes.length = p.axes.length := by
  have hset : ∀ (places : List (Nat × Nat)) (start : List Nat),
      (places.foldl (fun entries e => entries.set e.1 e.2) start).length = start.length := by
    intro places
    induction places with
    | nil => exact fun _ => rfl
    | cons e places ih => exact fun start => (ih _).trans (List.length_set ..)
  exact (hset _ _).trans (List.length_replicate ..)

section Lists

variable {α β : Type} [Inhabited α] [Inhabited β] {xs : List α}

theorem getD_of_lt {axis : Nat} (h : axis < xs.length) : xs.getD axis default = xs[axis] := by
  simp [h]

/-- Lists that are related entry by entry still are when both are reordered. -/
theorem forall₂_apply {r : α → β → Prop} {ys : List β} (hp : p.IsValid n)
    (h : List.Forall₂ r xs ys) (hlen : xs.length = n) :
    List.Forall₂ r (p.apply xs) (p.apply ys) := by
  rw [apply, apply, List.forall₂_map_left_iff, List.forall₂_map_right_iff, List.forall₂_same]
  intro axis haxis
  have hlt := hp.2.1 axis haxis
  have hx : axis < xs.length := hlen ▸ hlt
  have hy : axis < ys.length := h.length_eq ▸ hx
  rw [getD_of_lt hx, getD_of_lt hy]
  exact h.get hx hy

/-- Reordering keeps the entries. -/
theorem mem_apply (hp : p.IsValid n) (hlen : xs.length = n) {x : α} (hx : x ∈ xs) :
    x ∈ p.apply xs := by
  obtain ⟨axis, haxis, rfl⟩ := List.mem_iff_getElem.1 hx
  exact List.mem_map.2 ⟨axis, hp.mem_axes (hlen ▸ haxis), getD_of_lt haxis⟩

theorem inverse_apply_apply (hp : p.IsValid n) (hlen : xs.length = n) :
    p.inverse.apply (p.apply xs) = xs := by
  refine List.ext_getElem (by rw [length_apply, length_inverse, hp.1, hlen]) fun axis ha hx => ?_
  obtain ⟨i, hi, rfl⟩ := hp.exists_axis (hlen ▸ hx)
  have hinverse := getElem?_inverse hp hi
  obtain ⟨hlt, hvalue⟩ := List.getElem?_eq_some_iff.1 hinverse
  have hi' : i < (p.apply xs).length := by rwa [length_apply]
  have hvalue' : (p.inverse.apply (p.apply xs))[p.axes[i]] = (p.apply xs).getD i default := by
    simp only [apply, List.getElem_map, hvalue]
  rw [hvalue', getD_of_lt hi']
  simp only [apply, List.getElem_map]
  exact getD_of_lt hx

theorem apply_inverse_apply (hp : p.IsValid n) (hlen : xs.length = n) :
    p.apply (p.inverse.apply xs) = xs := by
  refine List.ext_getElem (by rw [length_apply, hp.1, hlen]) fun i ha hx => ?_
  have hi : i < p.axes.length := by rwa [length_apply] at ha
  obtain ⟨hlt, hvalue⟩ := List.getElem?_eq_some_iff.1 (getElem?_inverse hp hi)
  have hlt' : p.axes[i] < (p.inverse.apply xs).length := by rwa [length_apply]
  have hvalue' : (p.apply (p.inverse.apply xs))[i] =
      (p.inverse.apply xs).getD p.axes[i] default := by
    simp only [apply, List.getElem_map]
  rw [hvalue', getD_of_lt hlt']
  simp only [apply, List.getElem_map, hvalue]
  exact getD_of_lt hx

end Lists

/-- The inverse of a valid permutation is valid. -/
theorem IsValid.inverse (hp : p.IsValid n) : p.inverse.IsValid n := by
  have hrange : p.inverse.apply (p.apply (List.range n)) = List.range n :=
    inverse_apply_apply hp (by simp)
  have hentries : ∀ axis ∈ p.inverse.axes, axis < n := by
    intro axis haxis
    obtain ⟨i, hi, rfl⟩ := List.mem_iff_getElem.1 haxis
    have hin : i < n := by rwa [length_inverse, hp.1] at hi
    obtain ⟨j, hj, rfl⟩ := hp.exists_axis hin
    obtain ⟨hlt, hvalue⟩ := List.getElem?_eq_some_iff.1 (getElem?_inverse hp hj)
    rw [hvalue, ← hp.1]
    exact hj
  refine ⟨by rw [length_inverse, hp.1], hentries, ?_⟩
  refine List.Nodup.of_map ((p.apply (List.range n)).getD · default)
    (?_ : (p.inverse.apply (p.apply (List.range n))).Nodup)
  rw [hrange]
  exact List.nodup_range

/-- Lists whose reorderings are related entry by entry are. -/
theorem forall₂_of_apply {α β : Type} [Inhabited α] [Inhabited β] {r : α → β → Prop} {xs : List α}
    {ys : List β} (hp : p.IsValid n) (hxs : xs.length = n) (hys : ys.length = n)
    (h : List.Forall₂ r (p.apply xs) (p.apply ys)) : List.Forall₂ r xs ys := by
  have hback := forall₂_apply hp.inverse h (by rw [length_apply, hp.1])
  rwa [inverse_apply_apply hp hxs, inverse_apply_apply hp hys] at hback

/-! ## Positions -/

theorem inBounds_apply (hp : p.IsValid n) {shape ix : List Nat} (hlen : shape.length = n)
    (h : InBounds shape ix) : InBounds (p.apply shape) (p.apply ix) :=
  inBounds_iff_forall₂.2 (forall₂_apply hp (inBounds_iff_forall₂.1 h)
    (h.length_eq.trans hlen))

/-- Positions of the reordered sizes are reordered positions. -/
theorem exists_apply (hp : p.IsValid n) {shape ix : List Nat} (hlen : shape.length = n)
    (h : InBounds (p.apply shape) ix) : ∃ jx, InBounds shape jx ∧ ix = p.apply jx := by
  have hix : ix.length = n := by rw [h.length_eq, length_apply, hp.1]
  refine ⟨p.inverse.apply ix, ?_, (apply_inverse_apply hp hix).symm⟩
  have hback := inBounds_apply hp.inverse (by rw [length_apply, hp.1]) h
  rwa [inverse_apply_apply hp hlen] at hback

theorem permuted_ofSizes (hp : p.IsValid n) {sizes : List Nat} (hlen : sizes.length = n) :
    (Shape.ofSizes sizes).permuted p = .ok (.ofSizes (p.apply sizes)) := by
  have hcheck : p.check (Shape.ofSizes sizes).rank = .ok () := by
    rw [Shape.rank_ofSizes]
    exact (hlen ▸ hp : p.IsValid sizes.length).check
  rw [Shape.permuted, hcheck]
  refine congrArg (fun dims => Except.ok (Shape.mk dims)) ?_
  rw [Shape.ofSizes, apply, List.map_map]
  refine List.map_congr_left fun axis haxis => ?_
  have hlt : axis < sizes.length := hlen ▸ hp.2.1 axis haxis
  simp [hlt]

end Permutation

namespace NdArray

variable {α : Type} {a : NdArray α} {p q : Permutation} {ix : List Nat}

@[simp] theorem shape_transpose [Inhabited α] (a : NdArray α) (p : Permutation) :
    (a.transpose p).shape = p.apply a.shape := rfl

theorem entry_transpose [Inhabited α] (hp : p.IsValid a.shape.length) (h : InBounds a.shape ix) :
    (a.transpose p).entry (p.apply ix) = a.entry ix := by
  rw [transpose, entry_ofFn _ (Permutation.inBounds_apply hp rfl h),
    Permutation.inverse_apply_apply hp h.length_eq]

/-- An array whose axes are put back in their order. -/
theorem transpose_transpose [Inhabited α] (hp : p.IsValid a.shape.length)
    (hq : q.IsValid a.shape.length)
    (hback : ∀ xs : List Nat, xs.length = a.shape.length → q.apply (p.apply xs) = xs) :
    (a.transpose p).transpose q = a := by
  have hshape : ((a.transpose p).transpose q).shape = a.shape := hback a.shape rfl
  refine ext_entry hshape fun ix hix => ?_
  rw [hshape] at hix
  have hmoved : InBounds (a.transpose p).shape (p.apply ix) := Permutation.inBounds_apply hp rfl hix
  have hq' : q.IsValid (a.transpose p).shape.length := by
    rwa [shape_transpose, Permutation.length_apply, hp.1]
  have hentry := entry_transpose hq' hmoved
  rwa [hback ix hix.length_eq, entry_transpose hp hix] at hentry

end NdArray

namespace Tensor

variable {t : Tensor} {p : Permutation} {ix : List Nat}

/-- The tensor with its axes reordered. -/
def transposed (t : Tensor) (p : Permutation) : Tensor :=
  ofEntries t.dtype (p.apply t.shape) fun ix => t.entry (p.inverse.apply ix)

@[simp] theorem dtype_transposed (t : Tensor) (p : Permutation) :
    (t.transposed p).dtype = t.dtype := rfl

@[simp] theorem shape_transposed (t : Tensor) (p : Permutation) :
    (t.transposed p).shape = p.apply t.shape := rfl

theorem entry_transposed (hp : p.IsValid t.shape.length) (h : InBounds t.shape ix) :
    (t.transposed p).entry (p.apply ix) = t.entry ix := by
  rw [transposed, entry_ofEntries (Permutation.inBounds_apply hp rfl h),
    Permutation.inverse_apply_apply hp h.length_eq, round_entry]

/-- Axes that are put back in their order. -/
theorem transposed_transposed {q : Permutation} (hp : p.IsValid t.shape.length)
    (hq : q.IsValid t.shape.length)
    (hback : ∀ xs : List Nat, xs.length = t.shape.length → q.apply (p.apply xs) = xs) :
    (t.transposed p).transposed q = t := by
  refine ext_entry rfl (hback _ rfl) fun ix hix => ?_
  have hq' : q.IsValid (t.transposed p).shape.length := by
    rwa [shape_transposed, Permutation.length_apply, hp.1]
  have hix' : InBounds t.shape ix := by
    have hshape : ((t.transposed p).transposed q).shape = t.shape := hback _ rfl
    rwa [hshape] at hix
  have hmoved := Permutation.inBounds_apply hp rfl hix'
  have hback' := entry_transposed hq' hmoved
  rw [hback ix hix'.length_eq] at hback'
  rw [hback', entry_transposed hp hix']

/-- What a valid permutation moves, its inverse moves back. -/
theorem transposed_inverse (hp : p.IsValid t.shape.length) :
    (t.transposed p).transposed p.inverse = t :=
  transposed_transposed hp hp.inverse fun _ hlen => Permutation.inverse_apply_apply hp hlen

/-- Axes that stay in their order. -/
theorem transposed_identity (hp : p.IsValid t.shape.length) (h : p.isIdentity = true) :
    t.transposed p = t := by
  have happly : ∀ xs : List Nat, xs.length = t.shape.length → p.apply xs = xs := by
    intro xs hxs
    have haxes : p.axes = List.range xs.length := by
      rw [hxs, ← hp.1]
      exact eq_of_beq h
    refine List.ext_getElem (by rw [Permutation.length_apply, hp.1, hxs]) fun i hi hi' => ?_
    simp [Permutation.apply, haxes, hi']
  refine ext_entry rfl (happly _ rfl) fun ix hix => ?_
  have hix' : InBounds t.shape ix := by
    rwa [shape_transposed, happly _ rfl] at hix
  have hentry := entry_transposed hp hix'
  rwa [happly _ hix'.length_eq] at hentry

end Tensor

theorem evalNode_transpose {supply : Supply} {env : Env} {v : ValueId} {t : Tensor} {shape : Shape}
    {p : Permutation} (hp : p.IsValid t.shape.length) (hv : env.tensor v = .ok t) :
    evalNode supply env ⟨.transpose v p, .tensor ⟨t.dtype, shape⟩⟩ =
      .ok (.tensor (t.transposed p)) := by
  have hcheck : p.check t.data.rank = .ok () := hp.check
  simp only [evalNode, hv, hcheck, Bind.bind, Except.bind, Except.mapError]
  rfl

end TensorLowering
