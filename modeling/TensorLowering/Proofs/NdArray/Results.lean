import TensorLowering.NdArray.Broadcast
import TensorLowering.NdArray.Layout
import TensorLowering.NdArray.Reduce
import TensorLowering.Proofs.Evaluation.Runs

/-!
# Shapes of results

The shape of what an array operation gives, whenever it gives something.
-/
namespace TensorLowering.NdArray

open Numeric

variable {α β γ : Type} {a b : NdArray α} {sizes : List Nat} {axis : Nat}

theorem shape_of_fill {x : α} (h : fill sizes x = .ok b) : b.shape = sizes := by
  unfold fill at h
  split at h
  next => cases h
  next =>
    cases h
    rfl

theorem shape_of_reshape (h : a.reshape sizes = .ok b) : b.shape = sizes := by
  unfold reshape at h
  split at h
  next c hc =>
    cases h
    unfold ofData? at hc
    split at hc
    next => cases hc
    next =>
      split at hc
      next =>
        cases hc
        rfl
      next => cases hc
  next => cases h

variable [Inhabited α] [Inhabited β]

theorem shape_of_broadcastTo (h : a.broadcastTo sizes = .ok b) : b.shape = sizes := by
  unfold broadcastTo at h
  split at h
  next =>
    cases h
    rfl
  next => cases h

theorem shape_of_broadcastAdded {added : List Nat} (h : a.broadcastAdded sizes added = .ok b) :
    b.shape = sizes := by
  obtain ⟨widened, -, hstretched⟩ := Except.bind_eq_ok.1 h
  exact shape_of_broadcastTo hstretched

theorem shape_of_flip {axes : List Nat} (h : a.flip axes = .ok b) : b.shape = a.shape := by
  obtain ⟨⟨⟩, -, h⟩ := Except.bind_eq_ok.1 h
  cases h
  rfl

/-- Padding is not negative, and is added to each size. -/
theorem shape_of_pad {low high : List Int} {x : α} (h : a.pad low high x = .ok b) :
    (∀ p ∈ low.zip high, 0 ≤ p.1 ∧ 0 ≤ p.2) ∧
      b.shape = (a.shape.zip (low.zip high)).map fun (n, lo, hi) => lo.toNat + n + hi.toNat := by
  unfold pad at h
  split at h
  next =>
    split at h <;> cases h
  next hnone =>
    dsimp only at h
    split at h
    next => cases h
    next =>
      split at h
      next => cases h
      next =>
        cases h
        refine ⟨fun p hp => ?_, rfl⟩
        have hkeep := List.find?_eq_none.1 hnone p hp
        simp only [Bool.or_eq_true, decide_eq_true_eq, not_or] at hkeep
        omega

theorem shape_of_insertSlice {starts strides : List Int} {c : NdArray α}
    (h : a.insertSlice b starts strides = .ok c) : c.shape = b.shape := by
  unfold insertSlice at h
  split at h
  next => cases h
  next =>
    obtain ⟨⟨⟩, -, h⟩ := Except.bind_eq_ok.1 h
    cases h
    rfl

theorem shape_of_narrow {start : Int} {len : Nat} (h : a.narrow axis start len = .ok b) :
    b.shape = a.shape.set axis len := by
  obtain ⟨⟨⟩, -, h⟩ := Except.bind_eq_ok.1 h
  dsimp only at h
  split at h
  next => cases h
  next =>
    cases h
    rfl

theorem shape_of_sumKeepDim {a b : NdArray Binary64} (h : a.sumKeepDim axis = .ok b) :
    b.shape = a.shape.set axis 1 := by
  obtain ⟨⟨⟩, -, h⟩ := Except.bind_eq_ok.1 h
  cases h
  rfl

theorem shape_of_squeeze (h : a.squeeze axis = .ok b) : b.shape = a.shape.eraseIdx axis := by
  obtain ⟨⟨⟩, -, h⟩ := Except.bind_eq_ok.1 h
  dsimp only at h
  split at h
  next => cases h
  next =>
    cases h
    rfl

theorem shape_of_unsqueeze (h : a.unsqueeze axis = .ok b) :
    b.shape = a.shape.insertIdx axis 1 := by
  unfold unsqueeze at h
  split at h
  next => cases h
  next =>
    cases h
    rfl

theorem shape_of_zipWith {f : α → β → γ} {b : NdArray β} {c : NdArray γ}
    (h : a.zipWith f b = .ok c) : broadcastShape a.shape b.shape = .ok c.shape := by
  obtain ⟨shape, hshape, h⟩ := Except.bind_eq_ok.1 h
  split at h
  next => cases h
  next =>
    cases h
    exact hshape

/-- A reduction adds to the elements of its initial array. -/
theorem shape_of_reduce {ix : Indexing} {combine : Combine} {lhs rhs init out : NdArray Binary64}
    {zs : Binary64 × Binary64} (h : reduce ix combine lhs rhs zs init = .ok out) :
    out.shape = init.shape := by
  have hstep : ∀ {point : List Nat} {x y : NdArray Binary64},
      accumulate ix combine zs lhs rhs x point = .ok y → y.shape = x.shape := by
    intro point x y hy
    obtain ⟨⟨l, r, o⟩, -, hy⟩ := Except.bind_eq_ok.1 hy
    dsimp only at hy
    split at hy
    next =>
      cases hy
      rfl
    next => cases hy
  have hvisit : ∀ (points : List (List Nat)) (x y : NdArray Binary64),
      points.foldlM (accumulate ix combine zs lhs rhs) x = .ok y → y.shape = x.shape := by
    intro points
    induction points with
    | nil =>
        intro x y hy
        cases hy
        rfl
    | cons point points ih =>
        intro x y hy
        rw [List.foldlM_cons] at hy
        obtain ⟨z, hz, hy⟩ := Except.bind_eq_ok.1 hy
        exact (ih z y hy).trans (hstep hz)
  obtain ⟨bounds, -, h⟩ := Except.bind_eq_ok.1 h
  split at h
  next =>
    cases h
    rfl
  next =>
    rw [visit_eq] at h
    exact hvisit _ _ _ h

end TensorLowering.NdArray
