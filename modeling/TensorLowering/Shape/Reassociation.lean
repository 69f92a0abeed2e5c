import TensorLowering.Graph.Error

/-!
# Groups of axes

A reassociation groups the axes of an expanded shape: group `i` lists the axes that fold into axis
`i` of the collapsed shape. No groups at all fold a tensor with a single element into one without
axes.
-/
namespace TensorLowering

structure Reassociation where
  groups : List (List Nat)
  deriving DecidableEq

namespace Reassociation

def singletons (axes : List Nat) : List (List Nat) := axes.map ([·])

/-- The groups from an axis on, for at most `steps` more groups. A range of axes that begins at the
axis is one group, and the walk goes on behind the range. -/
def groupsFrom (rank start stop : Nat) : (steps axis : Nat) → List (List Nat)
  | 0, _ => []
  | steps + 1, axis =>
      if rank ≤ axis then []
      else if axis = start ∧ start < stop then
        List.range' start (stop - start) :: groupsFrom rank start stop steps stop
      else [axis] :: groupsFrom rank start stop steps (axis + 1)

/-- Folds the axes from `start` up to `stop` into one and leaves the other axes of the `rank`
alone. Each group takes at least one axis, so there are at most `rank` of them. -/
def foldRange (rank start stop : Nat) : Reassociation := ⟨groupsFrom rank start stop rank 0⟩

/-- An axis at or behind the last one has no groups left, whatever the bound on their number. -/
theorem groupsFrom_of_le {rank start stop steps axis : Nat} (h : rank ≤ axis) :
    groupsFrom rank start stop steps axis = [] := by
  cases steps with
  | zero => rfl
  | succ steps => rw [groupsFrom, if_pos h]

theorem groupsFrom_singletons {rank start stop steps axis : Nat} (hsteps : rank ≤ axis + steps)
    (h : start < axis ∨ stop ≤ start ∨ rank ≤ start) :
    groupsFrom rank start stop steps axis = singletons (List.range' axis (rank - axis)) := by
  induction steps generalizing axis with
  | zero =>
      have hle : rank ≤ axis := hsteps
      rw [groupsFrom_of_le hle, Nat.sub_eq_zero_of_le hle]
      rfl
  | succ steps ih =>
      rcases Nat.lt_or_ge axis rank with haxis | haxis
      · have hleft : rank - axis = rank - (axis + 1) + 1 := by omega
        rw [groupsFrom, if_neg (by omega), if_neg (by omega), ih (by omega) (by omega), hleft,
          List.range'_succ]
        rfl
      · rw [groupsFrom_of_le haxis, Nat.sub_eq_zero_of_le haxis]
        rfl

theorem groupsFrom_eq {rank start stop steps axis : Nat} (hsteps : rank ≤ axis + steps)
    (hstart : start < rank) (hstop : start < stop) (haxis : axis ≤ start) :
    groupsFrom rank start stop steps axis =
      singletons (List.range' axis (start - axis)) ++ [List.range' start (stop - start)] ++
        singletons (List.range' stop (rank - stop)) := by
  induction steps generalizing axis with
  | zero => omega
  | succ steps ih =>
      rw [groupsFrom, if_neg (by omega)]
      split
      next h =>
        rw [groupsFrom_singletons (by omega) (.inl hstop), h.1, Nat.sub_self]
        rfl
      next h =>
        have hleft : start - axis = start - (axis + 1) + 1 := by omega
        rw [ih (by omega) (by omega), hleft, List.range'_succ]
        rfl

/-- Nothing is folded when the range is empty or begins past the last axis. -/
theorem foldRange_eq (rank start stop : Nat) : foldRange rank start stop =
    if start < rank ∧ start < stop then
      ⟨singletons (List.range start) ++ [List.range' start (stop - start)] ++
        singletons (List.range' stop (rank - stop))⟩
    else ⟨singletons (List.range rank)⟩ := by
  rw [foldRange, List.range_eq_range', List.range_eq_range']
  split
  next h => rw [groupsFrom_eq (by omega) h.1 h.2 (Nat.zero_le _), Nat.sub_zero]
  next h => rw [groupsFrom_singletons (by omega) (by omega), Nat.sub_zero]

def collapsedRank (r : Reassociation) : Nat := r.groups.length

def expandedRank (r : Reassociation) : Nat := r.groups.flatten.length

/-- The groups list every axis once, in order, and none of them is empty; or there are no groups. -/
def IsValid (r : Reassociation) (rank : Nat) : Prop :=
  r.groups = [] ∨ r.groups.flatten = List.range rank ∧ ∀ g ∈ r.groups, g ≠ []

instance (r : Reassociation) (rank : Nat) : Decidable (r.IsValid rank) := by
  unfold IsValid
  infer_instance

/-- Each axis stands at its own place. -/
def isContiguous (axes : List Nat) : Bool := axes.zipIdx.all fun (axis, place) => place == axis

def check (r : Reassociation) (rank : Nat) : Except GraphError Unit :=
  if r.groups.isEmpty then .ok ()
  else if r.expandedRank = rank ∧ isContiguous r.groups.flatten ∧ r.groups.all (!·.isEmpty) then
    .ok ()
  else .error (.invalidReassociation r.groups rank)

theorem isContiguous_iff {axes : List Nat} :
    isContiguous axes = true ↔ axes = List.range axes.length := by
  rw [isContiguous, List.all_eq_true]
  constructor
  · intro h
    refine List.ext_getElem List.length_range.symm fun i hi hi' => ?_
    have hplace := h (axes[i], i)
      (List.mem_zipIdx_iff_getElem?.2 (List.getElem?_eq_getElem hi))
    rw [List.getElem_range]
    exact (beq_iff_eq.1 hplace).symm
  · rintro h ⟨axis, place⟩ hmem
    have hplace := List.mem_zipIdx_iff_getElem?.1 hmem
    rw [h] at hplace
    obtain ⟨_, hsame⟩ := List.getElem?_eq_some_iff.1 hplace
    rw [List.getElem_range] at hsame
    exact beq_iff_eq.2 hsame

theorem check_eq_ok {r : Reassociation} {rank : Nat} : r.check rank = .ok () ↔ r.IsValid rank := by
  have hflat : r.groups.flatten = List.range rank ↔
      r.expandedRank = rank ∧ isContiguous r.groups.flatten = true := by
    rw [isContiguous_iff, expandedRank]
    constructor
    · intro h
      rw [h, List.length_range]
      exact ⟨rfl, rfl⟩
    · rintro ⟨hlen, h⟩
      rwa [hlen] at h
  have hne : (∀ g ∈ r.groups, g ≠ []) ↔ r.groups.all (!·.isEmpty) = true := by
    simp only [List.all_eq_true, Bool.not_eq_true', List.isEmpty_eq_false_iff]
  rw [check, IsValid, hflat, hne, and_assoc]
  split
  next h => exact iff_of_true rfl (.inl (List.isEmpty_iff.1 h))
  next h =>
    rw [or_iff_right fun hnil => h (List.isEmpty_iff.2 hnil)]
    split
    next hvalid => exact iff_of_true rfl hvalid
    next hnot => exact iff_of_false nofun hnot

/-- The shape with each group of axes folded into one. -/
def collapse (r : Reassociation) (s : Shape) : Except GraphError Shape := do
  r.check s.rank
  return ⟨r.groups.map fun g => Dim.prod (g.map fun a => s.dims.getD a .dynamic)⟩

end Reassociation

end TensorLowering
