import TensorLowering.Proofs.NdArray.Tensors

/-!
# Reversed axes

Any axes of a tensor are reversed, or all those behind the first two. Reversing the same axes again
gives the tensor back.
-/
namespace TensorLowering

open Numeric NdArray

namespace NdArray

/-- Coordinates counted from the far ends. -/
def mirrored (shape ix : List Nat) : List Nat := List.zipWith (fun n i => n - 1 - i) shape ix

theorem inBounds_mirrored {shape ix : List Nat} (h : InBounds shape ix) :
    InBounds shape (mirrored shape ix) := by
  induction shape generalizing ix with
  | nil => exact trivial
  | cons n shape ih =>
      obtain ⟨i, rest, rfl, hi, hrest⟩ := inBounds_cons.1 h
      have hlt : n - 1 - i < n := by omega
      exact ⟨hlt, ih hrest⟩

theorem mirrored_mirrored {shape ix : List Nat} (h : InBounds shape ix) :
    mirrored shape (mirrored shape ix) = ix := by
  induction shape generalizing ix with
  | nil => exact (inBounds_nil.1 h).symm
  | cons n shape ih =>
      obtain ⟨i, rest, rfl, hi, hrest⟩ := inBounds_cons.1 h
      have hback := ih hrest
      simp only [mirrored, List.zipWith_cons_cons, List.cons.injEq] at hback ⊢
      exact ⟨by omega, hback⟩

/-- Coordinates counted from the far ends on some axes. -/
def mirroredOn (axes shape ix : List Nat) : List Nat :=
  (shape.zip ix).mapIdx fun axis (n, i) => if axis ∈ axes then n - 1 - i else i

/-- An axis that is listed once is reversed once. -/
theorem reversedIndex_eq_mirroredOn {axes : List Nat} (h : axes.Nodup) (shape ix : List Nat) :
    reversedIndex shape axes ix = mirroredOn axes shape ix := by
  unfold reversedIndex mirroredOn
  congr 1
  funext axis ⟨n, i⟩
  rw [h.count]
  by_cases haxis : axis ∈ axes <;> simp [haxis]

theorem inBounds_mirroredOn {axes shape ix : List Nat} (h : InBounds shape ix) :
    InBounds shape (mirroredOn axes shape ix) := by
  obtain ⟨hlen, hlt⟩ := List.forall₂_iff_get.1 (inBounds_iff_forall₂.1 h)
  have hlen' : (mirroredOn axes shape ix).length = shape.length := by simp [mirroredOn, hlen]
  refine inBounds_iff_forall₂.2 (List.forall₂_iff_get.2 ⟨hlen', fun axis _ hn => ?_⟩)
  have hi := hlt axis (hlen ▸ hn) hn
  simp only [List.get_eq_getElem] at hi
  simp only [mirroredOn, List.get_eq_getElem, List.getElem_mapIdx, List.getElem_zip]
  split <;> omega

theorem mirroredOn_mirroredOn {axes shape ix : List Nat} (h : InBounds shape ix) :
    mirroredOn axes shape (mirroredOn axes shape ix) = ix := by
  obtain ⟨hlen, hlt⟩ := List.forall₂_iff_get.1 (inBounds_iff_forall₂.1 h)
  refine List.ext_getElem (by simp [mirroredOn, hlen]) fun axis _ hi => ?_
  have hin := hlt axis hi (hlen ▸ hi)
  simp only [List.get_eq_getElem] at hin
  simp only [mirroredOn, List.getElem_mapIdx, List.getElem_zip]
  split <;> omega

/-- Axes within a rank are all found to be so. -/
theorem find?_le_eq_none {axes : List Nat} {rank : Nat} (h : ∀ axis ∈ axes, axis < rank) :
    axes.find? (rank ≤ ·) = none := by
  refine List.find?_eq_none.2 fun axis haxis => ?_
  rw [decide_eq_true_eq]
  exact Nat.not_le_of_lt (h axis haxis)

theorem reversedIndex_spatial {m n i j : Nat} {shape ix : List Nat}
    (h : ix.length = shape.length) :
    reversedIndex (m :: n :: shape) (List.range' 2 shape.length) (i :: j :: ix) =
      i :: j :: mirrored shape ix := by
  have hfirst : 0 ∉ List.range' 2 shape.length := by simp
  have hsecond : 1 ∉ List.range' 2 shape.length := by simp
  rw [reversedIndex_eq_mirroredOn List.nodup_range']
  simp only [mirroredOn, List.zip_cons_cons, List.mapIdx_cons, Nat.zero_add, hfirst, hsecond,
    ↓reduceIte, List.cons.injEq, true_and]
  refine List.ext_getElem (by simp [mirrored]) fun axis hx hy => ?_
  have hlt : axis < shape.length := by simpa [mirrored, h] using hy
  have hmem : axis + 1 + 1 ∈ List.range' 2 shape.length := List.mem_range'_1.2 (by omega)
  simp only [mirrored, List.getElem_mapIdx, List.getElem_zip, List.getElem_zipWith, hmem,
    ↓reduceIte]

end NdArray

namespace Tensor

/-- The listed axes reversed. -/
def flipped (t : Tensor) (axes : List Nat) : Tensor :=
  ofEntries t.dtype t.shape fun ix => t.entry (reversedIndex t.shape axes ix)

/-- The axes behind the first two reversed. -/
def mirrored (t : Tensor) (m n : Nat) (sizes : List Nat) : Tensor :=
  ofEntries t.dtype (m :: n :: sizes) fun ix =>
    t.entry (ix.getD 0 0 :: ix.getD 1 0 :: NdArray.mirrored sizes (ix.drop 2))

variable {t : Tensor} {axes : List Nat} {m n : Nat} {sizes : List Nat}

@[simp] theorem shape_flipped (t : Tensor) (axes : List Nat) : (t.flipped axes).shape = t.shape :=
  rfl

theorem arrayResult_flipped {shape : Shape} (haxes : ∀ axis ∈ axes, axis < t.shape.length) :
    arrayResult (.tensor ⟨t.dtype, shape⟩) (t.data.flip axes) =
      .ok (.tensor (t.flipped axes)) := by
  have hchecks : axes.forM t.data.checkAxis = .ok () :=
    forM_eq_ok fun axis haxis => if_pos (haxes axis haxis)
  have hflip : t.data.flip axes = .ok (.ofFn t.shape fun ix =>
      t.entry (reversedIndex t.shape axes ix)) := congrArg (· >>= fun _ => _) hchecks
  rw [hflip]
  rfl

theorem flipped_nil (t : Tensor) : t.flipped [] = t := by
  refine ext_entry rfl rfl fun ix (hix : InBounds t.shape ix) => ?_
  have hsame : reversedIndex t.shape [] ix = ix := by
    refine List.ext_getElem ?_ fun axis h h' => ?_
    · simp [reversedIndex, InBounds.length_eq hix]
    · simp [reversedIndex]
  rw [flipped, entry_ofEntries hix, hsame, round_entry]

theorem entry_flipped {ix : List Nat} (haxes : axes.Nodup) (hix : InBounds t.shape ix) :
    (t.flipped axes).entry ix = t.entry (mirroredOn axes t.shape ix) := by
  rw [flipped, entry_ofEntries hix, round_entry, reversedIndex_eq_mirroredOn haxes]

theorem flipped_flipped (haxes : axes.Nodup) : (t.flipped axes).flipped axes = t := by
  refine ext_entry rfl rfl fun ix (hix : InBounds t.shape ix) => ?_
  rw [entry_flipped (t := t.flipped axes) haxes hix, shape_flipped,
    entry_flipped haxes (inBounds_mirroredOn hix), mirroredOn_mirroredOn hix]

theorem flipped_spatial (ht : t.shape = m :: n :: sizes) :
    t.flipped (List.range' 2 sizes.length) = t.mirrored m n sizes := by
  rw [flipped, ht]
  refine ofEntries_congr fun ix hix => ?_
  obtain ⟨i, rest, rfl, -, hrest⟩ := inBounds_cons.1 hix
  obtain ⟨j, k, rfl, -, hk⟩ := inBounds_cons.1 hrest
  rw [reversedIndex_spatial hk.length_eq]
  rfl

end Tensor

end TensorLowering
