import TensorLowering.Graph.Error

/-!
# Permutations of axes

A permutation lists, for each axis of the result, the axis of the input that it takes. A list that
names every axis below the rank once is valid; others can be written down and are refused when they
are used.
-/
namespace TensorLowering

structure Permutation where
  axes : List Nat
  deriving DecidableEq

namespace Permutation

def IsValid (p : Permutation) (rank : Nat) : Prop :=
  p.axes.length = rank ∧ (∀ a ∈ p.axes, a < rank) ∧ p.axes.Nodup

instance (p : Permutation) (rank : Nat) : Decidable (p.IsValid rank) := by
  unfold IsValid
  infer_instance

/-- Marks the axes as seen, one after the other. An axis without a mark, or one that is marked
already, ends the sweep. -/
def sweep : (axes : List Nat) → (seen : List Bool) → Bool
  | [], _ => true
  | a :: axes, seen =>
      match seen[a]? with
      | some false => sweep axes (seen.set a true)
      | _ => false

def check (p : Permutation) (rank : Nat) : Except GraphError Unit :=
  if p.axes.length = rank ∧ sweep p.axes (List.replicate rank false) then .ok ()
  else .error (.invalidPermutation p.axes rank)

/-- A sweep goes through when it meets no axis twice and only axes that were not marked before. -/
theorem sweep_iff {axes : List Nat} {seen : List Bool} :
    sweep axes seen = true ↔ (∀ a ∈ axes, seen[a]? = some false) ∧ axes.Nodup := by
  induction axes generalizing seen with
  | nil => simp [sweep]
  | cons a axes ih =>
      have hset (b : Nat) : (seen.set a true)[b]? = some false ↔ a ≠ b ∧ seen[b]? = some false := by
        rw [List.getElem?_set]
        split
        next hab => split <;> simp [hab]
        next hab => simp [hab]
      rw [sweep]
      split
      next hnew =>
        rw [ih, List.forall_mem_cons, List.nodup_cons, ← List.forall_mem_ne]
        simp only [hset]
        exact ⟨fun ⟨hall, hnodup⟩ =>
            ⟨⟨hnew, fun b hb => (hall b hb).2⟩, fun b hb => (hall b hb).1, hnodup⟩,
          fun ⟨⟨_, hall⟩, hnot, hnodup⟩ => ⟨fun b hb => ⟨hnot b hb, hall b hb⟩, hnodup⟩⟩
      next hseen => exact ⟨nofun, fun h => absurd (h.1 a (by simp)) hseen⟩

theorem check_eq (p : Permutation) (rank : Nat) : p.check rank =
    if p.IsValid rank then .ok () else .error (.invalidPermutation p.axes rank) := by
  have hsweep : sweep p.axes (List.replicate rank false) = true ↔
      (∀ a ∈ p.axes, a < rank) ∧ p.axes.Nodup := by
    simp [sweep_iff, List.getElem?_replicate]
  simp only [check, hsweep, IsValid]

theorem check_eq_ok {p : Permutation} {rank : Nat} : p.check rank = .ok () ↔ p.IsValid rank := by
  rw [check_eq]
  split
  next h => exact iff_of_true rfl h
  next h => exact iff_of_false nofun h

theorem IsValid.check {p : Permutation} {rank : Nat} (h : p.IsValid rank) :
    p.check rank = .ok () :=
  check_eq_ok.2 h

/-- Every axis stays where it is. -/
def isIdentity (p : Permutation) : Bool := p.axes == List.range p.axes.length

/-- The permutation that undoes a valid one. Of an invalid list, each axis takes the last position
that names it, or zero when none does. -/
def inverse (p : Permutation) : Permutation :=
  ⟨p.axes.zipIdx.foldl (fun inv (a, i) => inv.set a i) (List.replicate p.axes.length 0)⟩

/-- The entries of a list, one per axis, in the order of the result. -/
def apply {α : Type} [Inhabited α] (p : Permutation) (entries : List α) : List α :=
  p.axes.map fun a => entries.getD a default

@[simp] theorem length_apply {α : Type} [Inhabited α] (p : Permutation) (entries : List α) :
    (p.apply entries).length = p.axes.length := by
  simp [apply]

end Permutation

/-- The shape of a tensor with its axes reordered. -/
def Shape.permuted (s : Shape) (p : Permutation) : Except GraphError Shape := do
  p.check s.rank
  return ⟨p.axes.map fun a => s.dims.getD a .dynamic⟩

end TensorLowering
