import TensorLowering.Lowering.Trilinear
import TensorLowering.Proofs.Build.Elementwise
import TensorLowering.Proofs.Evaluation.Runs

/-!
# Axes that attributes name

Attributes count axes from either end, in any order and more than once. What matters is the set of
the positions that are named.
-/
namespace TensorLowering

open NdArray

/-- The positions that some axes name, in ascending order. -/
def namedAxes (rank : Nat) (axes : List Int) : List Nat :=
  (List.range rank).filter fun a => (a : Int) ∈ axes ∨ (a : Int) - rank ∈ axes

variable {rank a : Nat} {axes : List Int}

theorem mem_namedAxes : a ∈ namedAxes rank axes ↔
    a < rank ∧ ((a : Int) ∈ axes ∨ (a : Int) - rank ∈ axes) := by
  simp [namedAxes]

theorem pairwise_namedAxes (rank : Nat) (axes : List Int) :
    (namedAxes rank axes).Pairwise (· < ·) :=
  List.pairwise_lt_range.filter _

namespace Axis

/-- The axis is counted from the start or from the end. -/
theorem resolve?_names {axis : Int} {position : Nat} (h : resolve? axis rank = some position) :
    axis = position ∨ axis = position - rank := by
  simp only [resolve?] at h
  split at h
  · split at h
    · cases h
      omega
    · cases h
  · split at h
    · cases h
      omega
    · cases h

theorem require_eq_ok {name : String} {axis : Int} {position : Nat} :
    require name rank axis = .ok position ↔ resolve? axis rank = some position := by
  unfold require
  cases resolve? axis rank <;> simp

theorem mapM_require {name : String} {positions : List Nat}
    (h : axes.mapM (require name rank) = .ok positions) :
    List.Forall₂ (fun axis position => resolve? axis rank = some position) axes positions := by
  induction axes generalizing positions with
  | nil =>
      cases h
      exact .nil
  | cons axis axes ih =>
      rw [List.mapM_cons] at h
      obtain ⟨position, hposition, h⟩ := Except.bind_eq_ok.1 h
      obtain ⟨rest, hrest, h⟩ := Except.bind_eq_ok.1 h
      cases h
      exact .cons (require_eq_ok.1 hposition) (ih hrest)

theorem requireSet_eq {name : String} {positions : List Nat}
    (h : requireSet name rank axes = .ok positions) : positions = namedAxes rank axes := by
  obtain ⟨found, hfound, h⟩ := Except.bind_eq_ok.1 h
  cases h
  have hall := mapM_require hfound
  refine List.filter_congr fun a ha => ?_
  have hlt := List.mem_range.1 ha
  rw [Bool.eq_iff_iff, List.contains_iff_mem, decide_eq_true_iff]
  constructor
  · intro hmem
    obtain ⟨i, hi, hget⟩ := List.getElem_of_mem hmem
    have hresolved := hall.get (hall.length_eq ▸ hi) hi
    have haxis := List.getElem_mem (hall.length_eq ▸ hi)
    simp only [List.get_eq_getElem, hget] at hresolved
    rcases resolve?_names hresolved with hfirst | hlast
    · exact .inl (hfirst ▸ haxis)
    · exact .inr (hlast ▸ haxis)
  · intro hnames
    have hsome : ∃ axis ∈ axes, axis = (a : Int) ∨ axis = (a : Int) - rank := by
      rcases hnames with hfirst | hlast
      · exact ⟨_, hfirst, .inl rfl⟩
      · exact ⟨_, hlast, .inr rfl⟩
    obtain ⟨axis, haxis, hcounts⟩ := hsome
    obtain ⟨i, hi, hget⟩ := List.getElem_of_mem haxis
    have hresolved := hall.get hi (hall.length_eq ▸ hi)
    simp only [List.get_eq_getElem, hget] at hresolved
    have hposition := resolve?_names hresolved
    have hbound := resolve?_lt hresolved
    have hi' : i < found.length := hall.length_eq ▸ hi
    have hsame : found[i] = a := by omega
    exact hsame ▸ List.getElem_mem hi'

end Axis

/-- The attributes of a trilinear product, all of them constants. -/
structure TrilinearAxes where
  expand : Triple (List Int)
  summed : List Int
  unroll : Int

namespace TrilinearAxes

/-- The operator with these attributes. -/
def operator (t : TrilinearAxes) (inputs : Triple ValueId) : Trilinear :=
  ⟨inputs, t.expand.map .const, .const t.summed, .const t.unroll⟩

/-- The positions that the attributes name, for a first factor of the given rank. -/
def plan (t : TrilinearAxes) (rank : Nat) : TrilinearPlan :=
  let total := rank + t.expand.first.length
  { total
    expand := t.expand.map (namedAxes total)
    summed := namedAxes total t.summed
    unroll := (if 0 ≤ t.unroll then t.unroll else total + t.unroll).toNat }

theorem plan_eq {t : TrilinearAxes} {inputs : Triple ValueId} {p : TrilinearPlan}
    (h : TrilinearPlan.ofTrilinear (t.operator inputs) rank = .ok p) :
    p = t.plan rank ∧ p.unroll < p.total := by
  obtain ⟨first, hfirst, h⟩ := Except.bind_eq_ok.1 h
  cases hfirst
  obtain ⟨expand1, hexpand1, h⟩ := Except.bind_eq_ok.1 h
  obtain ⟨expand2, hexpand2, h⟩ := Except.bind_eq_ok.1 h
  obtain ⟨expand3, hexpand3, h⟩ := Except.bind_eq_ok.1 h
  obtain ⟨summed, hsummed, h⟩ := Except.bind_eq_ok.1 h
  obtain ⟨axis, haxis, h⟩ := Except.bind_eq_ok.1 h
  cases haxis
  obtain ⟨unroll, hunroll, h⟩ := Except.bind_eq_ok.1 h
  cases h
  have hset : ∀ {name : String} {total : Nat} {xs : List Int} {ps : List Nat},
      ((Attr.const xs).require name >>= Axis.requireSet (name ++ " axis") total) = .ok ps →
      ps = namedAxes total xs := by
    intro name total xs ps hps
    obtain ⟨ys, hys, hps⟩ := Except.bind_eq_ok.1 hps
    cases hys
    exact Axis.requireSet_eq hps
  have hposition := Axis.require_eq_ok.1 hunroll
  refine ⟨?_, Axis.resolve?_lt hposition⟩
  have hunroll' : unroll = (if 0 ≤ t.unroll then t.unroll
      else (rank + t.expand.first.length : Nat) + t.unroll).toNat := by
    have hnames := Axis.resolve?_names hposition
    have hlt := Axis.resolve?_lt hposition
    split <;> omega
  rw [hset hexpand1, hset hexpand2, hset hexpand3, hset hsummed, hunroll']
  rfl

end TrilinearAxes

end TensorLowering
