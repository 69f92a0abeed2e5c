import TensorLowering.Proofs.Build.Elementwise
import TensorLowering.Proofs.NdArray.AxisSums
import TensorLowering.Proofs.Numeric.Integers

/-!
# Tensors of integers

A tensor that is stretched to some sizes shows an integer at each position there. Sums, products and
slices of such tensors show those of the integers, as long as nothing is rounded.
-/
namespace TensorLowering

open Numeric NdArray

/-- An integer that is a double and an element of the type. -/
structure DType.Exactly (t : DType) (n : Int) : Prop where
  double : Binary64.IsDouble n
  keeps : t.Keeps n

instance (t : DType) (n : Int) : Decidable (t.Exactly n) :=
  decidable_of_iff (Binary64.IsDouble n ∧ t.Keeps n) ⟨fun h => ⟨h.1, h.2⟩, fun h => ⟨h.1, h.2⟩⟩

namespace ElementwiseOp

/-- The operation on integers. -/
def ofIntegers : ElementwiseOp → Int → Int → Int
  | add, m, n => m + n
  | mul, m, n => m * n

theorem toInt?_apply {op : ElementwiseOp} {x y : Binary64} {m n : Int} (hx : x.toInt? = some m)
    (hy : y.toInt? = some n) (h : Binary64.IsDouble (op.ofIntegers m n)) :
    (op.apply x y).toInt? = some (op.ofIntegers m n) := by
  cases op with
  | add => exact Binary64.toInt?_add hx hy h
  | mul => exact Binary64.toInt?_mul hx hy h

end ElementwiseOp

namespace Tensor

variable {t u : Tensor} {sizes shape q axes : List Nat} {a k n : Nat} {dtype : DType}
  {F G : List Nat → Int}

/-- The tensor, stretched to the sizes, has these integers. -/
structure Shows (t : Tensor) (sizes : List Nat) (F : List Nat → Int) : Prop where
  within : Within t.shape sizes
  value : ∀ q, InBounds sizes q → (t.entry (alignIndex t.shape q)).toInt? = some (F q)

/-- A tensor of the sizes themselves has the integers as its entries. -/
theorem Shows.entry (h : t.Shows sizes F) (hshape : t.shape = sizes) (hq : InBounds sizes q) :
    (t.entry q).toInt? = some (F q) := by
  have hvalue := h.value q hq
  rwa [hshape, alignIndex_self hq] at hvalue

theorem Shows.congr (h : t.Shows sizes F) (hFG : ∀ q, InBounds sizes q → F q = G q) :
    t.Shows sizes G :=
  ⟨h.within, fun q hq => hFG q hq ▸ h.value q hq⟩

theorem Shows.combined (op : ElementwiseOp) (ht : t.Shows sizes F) (hu : u.Shows sizes G)
    (hcommon : Common (t.shape.zip u.shape) shape)
    (hexact : ∀ q, InBounds sizes q → dtype.Exactly (op.ofIntegers (F q) (G q))) :
    (t.combined op u dtype shape).Shows sizes fun q => op.ofIntegers (F q) (G q) := by
  have hwithin := hcommon.within_of ht.within hu.within
  have hlen : t.shape.length = u.shape.length := by
    rw [ht.within.length_eq, hu.within.length_eq]
  obtain ⟨ht', hu'⟩ := hcommon.within hlen
  refine ⟨hwithin, fun q hq => ?_⟩
  have hread : shape.length = q.length := by rw [hq.length_eq, hwithin.length_eq]
  have hentry : (t.combined op u dtype shape).entry (alignIndex shape q) = dtype.round
      (op.apply (t.entry (alignIndex t.shape q)) (u.entry (alignIndex u.shape q))) := by
    rw [Tensor.combined, entry_ofEntries (hwithin.inBounds hq), alignIndex_alignIndex ht' hread,
      alignIndex_alignIndex hu' hread]
  rw [shape_combined, hentry]
  exact (hexact q hq).keeps.toInt?_round
    (op.toInt?_apply (ht.value q hq) (hu.value q hq) (hexact q hq).double)

/-- Reading along an axis that is not stretched. -/
theorem alignIndex_set_of_lt (hlen : shape.length = q.length) (ha : shape[a]? = some n) {i : Nat}
    (hi : i < n) : alignIndex shape (q.set a i) = (alignIndex shape q).set a i := by
  rw [alignIndex_set hlen]
  split
  next hone =>
    rw [hone] at ha
    cases ha
    rw [Nat.lt_one_iff.1 hi]
  next => rfl

theorem Shows.slice (ht : t.Shows sizes F) (hn : sizes[a]? = some n) (hk : k < n) :
    (t.slice a (if t.shape[a]? = some 1 then 0 else k)).Shows (sizes.set a 1) fun q =>
      F (q.set a k) := by
  have hwithin : Within (t.shape.set a 1) (sizes.set a 1) := ht.within.set_both a 1
  have ha : a < sizes.length := (List.getElem?_eq_some_iff.1 hn).1
  refine ⟨hwithin, fun q hq => ?_⟩
  have hlen : t.shape.length = q.length := by
    rw [hq.length_eq, List.length_set, ht.within.length_eq]
  have hmoved : InBounds sizes (q.set a k) := hq.set_forth ha (by
    rw [List.getD_eq_getElem?_getD, hn]
    exact hk)
  have hread : (alignIndex (t.shape.set a 1) q).modify a
      (· + if t.shape[a]? = some 1 then 0 else k) = alignIndex t.shape (q.set a k) := by
    have ha' : a < (alignIndex t.shape q).length := by
      rw [length_alignIndex hlen, ← hlen, ht.within.length_eq]
      exact ha
    rw [alignIndex_set_one hlen, alignIndex_set hlen, List.modify_eq_set, List.set_set,
      List.getElem?_set_self ha', Option.getD_some, Nat.zero_add]
  rw [shape_slice, entry_slice (hwithin.inBounds hq), hread]
  exact ht.value _ hmoved

/-! ## Sums -/

/-- The sum along an axis at a position is not rounded. -/
structure ExactSum (dtype : DType) (sizes : List Nat) (a : Nat) (F : List Nat → Int)
    (q : List Nat) : Prop where
  subtotal : ∀ j ≤ sizes.getD a 0, Binary64.IsDouble (∑ i ∈ Finset.range j, F (q.set a i))
  total : dtype.Keeps (axisSum sizes a F q)

instance (dtype : DType) (sizes : List Nat) (a : Nat) (F : List Nat → Int) (q : List Nat) :
    Decidable (ExactSum dtype sizes a F q) :=
  decidable_of_iff ((∀ j ≤ sizes.getD a 0,
    Binary64.IsDouble (∑ i ∈ Finset.range j, F (q.set a i))) ∧ dtype.Keeps (axisSum sizes a F q))
    ⟨fun h => ⟨h.1, h.2⟩, fun h => ⟨h.1, h.2⟩⟩

/-- The sums along axes, one after the other, are not rounded. -/
def ExactSums (dtype : DType) : (axes sizes : List Nat) → (List Nat → Int) → Prop
  | [], _, _ => True
  | a :: axes, sizes, F => (∀ q, InBounds (sizes.set a 1) q → ExactSum dtype sizes a F q) ∧
      ExactSums dtype axes (sizes.set a 1) (axisSum sizes a F)

/-- The positions of a box can be tried one by one. -/
instance decidableForallInBounds (shape : List Nat) (r : List Nat → Prop) [DecidablePred r] :
    Decidable (∀ q, InBounds shape q → r q) :=
  decidable_of_iff (∀ q ∈ points shape, r q) (by simp only [mem_points])

instance decidableExactSums (dtype : DType) : (axes sizes : List Nat) → (F : List Nat → Int) →
    Decidable (ExactSums dtype axes sizes F)
  | [], _, _ => .isTrue trivial
  | a :: axes, sizes, F =>
      have := decidableExactSums dtype axes (sizes.set a 1) (axisSum sizes a F)
      inferInstanceAs (Decidable ((∀ q, InBounds (sizes.set a 1) q → ExactSum dtype sizes a F q) ∧
        ExactSums dtype axes (sizes.set a 1) (axisSum sizes a F)))

theorem Shows.summed (ht : t.Shows sizes F) (hn : sizes[a]? = some n) (ha : t.shape[a]? = some n)
    (hexact : ∀ q, InBounds (sizes.set a 1) q → ExactSum t.dtype sizes a F q) :
    (t.summed a).Shows (sizes.set a 1) (axisSum sizes a F) := by
  have hwithin : Within (t.shape.set a 1) (sizes.set a 1) := ht.within.set_both a 1
  have hlt : a < sizes.length := (List.getElem?_eq_some_iff.1 hn).1
  have hsize : sizes.getD a 0 = n := by
    rw [List.getD_eq_getElem?_getD, hn]
    rfl
  have hcount : t.shape.getD a 0 = n := by
    rw [List.getD_eq_getElem?_getD, ha]
    rfl
  refine ⟨hwithin, fun q hq => ?_⟩
  have hlen : t.shape.length = q.length := by
    rw [hq.length_eq, List.length_set, ht.within.length_eq]
  have hterm : ∀ i < n, (t.entry ((alignIndex (t.shape.set a 1) q).set a i)).toInt? =
      some (F (q.set a i)) := by
    intro i hi
    rw [alignIndex_set_one hlen, List.set_set, ← alignIndex_set_of_lt hlen ha hi]
    exact ht.value _ (hq.set_forth hlt (hsize ▸ hi))
  obtain ⟨hsub, htotal⟩ := hexact q hq
  rw [hsize] at hsub
  rw [shape_summed, Tensor.summed, entry_ofEntries (hwithin.inBounds hq), hcount]
  refine htotal.toInt?_round ?_
  have hzero : (0 : Binary64).toInt? = some 0 := rfl
  have hpartial : ∀ j, Binary64.IsDouble
      (0 + (((List.range n).take j).map fun i => F (q.set a i)).sum) := by
    intro j
    rw [List.take_range, Int.zero_add, sum_map_range]
    exact hsub _ (Nat.min_le_right ..)
  have hsum := Binary64.toInt?_foldl hzero (fun i hi => hterm i (List.mem_range.1 hi)) hpartial
  rw [axisSum, hsize]
  rwa [Int.zero_add, sum_map_range] at hsum

/-- Sums along several axes, none of which is stretched. -/
theorem Shows.foldl_summed (ht : t.Shows sizes F)
    (haxes : ∀ a ∈ axes, a < sizes.length ∧ t.shape[a]? = sizes[a]?)
    (hexact : ExactSums t.dtype axes sizes F) :
    (axes.foldl Tensor.summed t).Shows (flattened axes sizes) (axesSum axes sizes F) := by
  induction axes generalizing t sizes F with
  | nil => exact ht
  | cons a axes ih =>
      obtain ⟨hlt, hsame⟩ := haxes a (by simp)
      have hn := List.getElem?_eq_getElem hlt
      refine ih (ht.summed hn (hsame.trans hn) hexact.1) (fun b hb => ?_) hexact.2
      obtain ⟨hlt', hsame'⟩ := haxes b (by simp [hb])
      refine ⟨by rwa [List.length_set], ?_⟩
      rw [shape_summed, List.getElem?_set, List.getElem?_set, ht.within.length_eq, hsame']

end Tensor

end TensorLowering
