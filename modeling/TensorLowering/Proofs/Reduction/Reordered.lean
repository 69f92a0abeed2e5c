import TensorLowering.Proofs.NdArray.Transposes
import TensorLowering.Proofs.Reduction.Sums

/-!
# Reductions over reordered arrays

When the results of each map are reordered as the axes of its array are, the reduction adds the same
terms to the same elements, which are found at reordered positions.
-/
namespace TensorLowering

open Numeric NdArray

instance : Inhabited AffineExpr := ⟨.dim 0⟩

/-- The map with its results reordered. -/
def AffineMap.permuted (m : AffineMap) (p : Permutation) : AffineMap :=
  ⟨m.numDims, p.apply m.results⟩

namespace NdArray

variable {bounds lhsShape rhsShape outShape inner : List Nat} {l r o : List Nat → List Nat}
  {lhs rhs out : AffineMap} {iterators : List IteratorKind} {p q k : Permutation}

theorem Addresses.permuted {m : AffineMap} {shape : List Nat} (hp : p.IsValid shape.length)
    (h : Addresses bounds m shape) : Addresses bounds (m.permuted p) (p.apply shape) :=
  Permutation.forall₂_apply hp h (List.Forall₂.length_eq h)

theorem Addresses.of_permuted {m : AffineMap} {shape : List Nat} (hp : p.IsValid shape.length)
    (hlen : m.results.length = shape.length)
    (h : Addresses bounds (m.permuted p) (p.apply shape)) : Addresses bounds m shape :=
  Permutation.forall₂_of_apply hp hlen rfl h

theorem eval?_permuted {m : AffineMap} {point : List Int} {ix : List Nat} {n : Nat}
    (hp : p.IsValid n) (hlen : ix.length = n) (h : m.eval? point = some (ix.map Int.ofNat)) :
    (m.permuted p).eval? point = some ((p.apply ix).map Int.ofNat) := by
  have hentries := mapM_eq_some.1 h
  have hresults : m.results.length = n := by rw [hentries.length_eq, List.length_map, hlen]
  refine mapM_eq_some.2 ?_
  have hmoved := Permutation.forall₂_apply hp hentries hresults
  have hmap : p.apply (ix.map Int.ofNat) = (p.apply ix).map Int.ofNat := by
    rw [Permutation.apply, Permutation.apply, List.map_map]
    refine List.map_congr_left fun axis haxis => ?_
    have hlt : axis < ix.length := hlen ▸ hp.2.1 axis haxis
    simp [hlt]
  rwa [hmap] at hmoved

/-- Reordered maps route every point to reordered positions. -/
theorem Routes.permuted (hp : p.IsValid lhsShape.length) (hq : q.IsValid rhsShape.length)
    (hk : k.IsValid outShape.length)
    (h : Routes ⟨[lhs, rhs, out], iterators⟩ bounds lhsShape rhsShape outShape l r o) :
    Routes ⟨[lhs.permuted p, rhs.permuted q, out.permuted k], iterators⟩ bounds (p.apply lhsShape)
      (q.apply rhsShape) (k.apply outShape) (fun x => p.apply (l x)) (fun x => q.apply (r x))
      (fun x => k.apply (o x)) := by
  have haddresses := h.addresses
  simp only [List.forall₂_cons, List.forall₂_nil_right_iff, and_true] at haddresses
  obtain ⟨hlhs, hrhs, hout⟩ := haddresses
  refine ⟨h.length, .cons (hlhs.permuted hp) (.cons (hrhs.permuted hq)
    (.cons (hout.permuted hk) .nil)), fun d hd => ?_, fun x hx => ?_,
    fun x hx => Permutation.inBounds_apply hp rfl (h.lhs x hx),
    fun x hx => Permutation.inBounds_apply hq rfl (h.rhs x hx),
    fun x hx => Permutation.inBounds_apply hk rfl (h.out x hx)⟩
  · obtain ⟨m, hm, hmem⟩ := h.cover d hd
    simp only [List.mem_cons, List.not_mem_nil, or_false] at hm
    rcases hm with rfl | rfl | rfl
    · exact ⟨m.permuted p, by simp, Permutation.mem_apply hp (List.Forall₂.length_eq hlhs) hmem⟩
    · exact ⟨m.permuted q, by simp, Permutation.mem_apply hq (List.Forall₂.length_eq hrhs) hmem⟩
    · exact ⟨m.permuted k, by simp, Permutation.mem_apply hk (List.Forall₂.length_eq hout) hmem⟩
  · have hmapped := h.mapped x hx
    simp only [mapped?] at hmapped ⊢
    split at hmapped
    next l' r' o' hl hr ho =>
      cases hmapped
      simp only [eval?_permuted hp (h.lhs x hx).length_eq hl,
        eval?_permuted hq (h.rhs x hx).length_eq hr, eval?_permuted hk (h.out x hx).length_eq ho]
    next => cases hmapped

/-- An array with the axes of another one in another order. -/
structure Reordered (p : Permutation) (a a' : NdArray Binary64) : Prop where
  valid : p.IsValid a.shape.length
  shape : a'.shape = p.apply a.shape
  entry : ∀ ix, InBounds a.shape ix → a'.entry (p.apply ix) = a.entry ix

theorem reordered_transpose {a : NdArray Binary64} (hp : p.IsValid a.shape.length) :
    Reordered p a (a.transpose p) :=
  ⟨hp, rfl, fun _ => entry_transpose hp⟩

variable {a b c a' b' c' : NdArray Binary64}

/-- Terms are added to the element at a reordered position as to that at the position. -/
theorem reduce_permuted (combine : Combine) (zs : Binary64 × Binary64) (ha : Reordered p a a')
    (hb : Reordered q b b') (hc : Reordered k c c')
    (h : Routes ⟨[lhs, rhs, out], iterators⟩ bounds a.shape b.shape c.shape l r o) :
    ∃ d, reduce ⟨[lhs.permuted p, rhs.permuted q, out.permuted k], iterators⟩ combine a' b' zs c' =
        .ok d ∧ d.shape = k.apply c.shape ∧
      ∀ jx, InBounds c.shape jx → d.entry (k.apply jx) =
        addTerms (fun x => term combine zs (a.entry (l x)) (b.entry (r x)))
          ((points bounds).filter fun x => o x = jx) (c.entry jx) := by
  have hroutes := Routes.permuted ha.valid hb.valid hc.valid h
  rw [← ha.shape, ← hb.shape, ← hc.shape] at hroutes
  obtain ⟨d, hrun, hshape, hentry⟩ := reduce_eq_ok combine zs hroutes
  refine ⟨d, hrun, hshape.trans hc.shape, fun jx hjx => ?_⟩
  have hmoved : InBounds c'.shape (k.apply jx) :=
    hc.shape ▸ Permutation.inBounds_apply hc.valid rfl hjx
  -- Reordering is one-to-one, so the points of a reordered position are those of the position.
  have hfilter : (points bounds).filter (fun x => k.apply (o x) = k.apply jx) =
      (points bounds).filter fun x => o x = jx := by
    refine List.filter_congr fun x hx => decide_eq_decide.2 ⟨fun hsame => ?_, congrArg _⟩
    have hback := congrArg k.inverse.apply hsame
    rwa [Permutation.inverse_apply_apply hc.valid (h.out x (mem_points.1 hx)).length_eq,
      Permutation.inverse_apply_apply hc.valid hjx.length_eq] at hback
  rw [hentry _ hmoved, hfilter, hc.entry jx hjx]
  refine addTerms_congr fun x hx => ?_
  have hpoint := mem_points.1 (List.mem_of_mem_filter hx)
  rw [ha.entry _ (h.lhs x hpoint), hb.entry _ (h.rhs x hpoint)]

/-- A reduction over reordered arrays whose outer loops run over the output before it is
reordered. -/
theorem reduce_permuted_eq_ok (combine : Combine) (zs : Binary64 × Binary64)
    (ha : Reordered p a a') (hb : Reordered q b b') (hc : Reordered k c c')
    (h : Routes ⟨[lhs, rhs, out], iterators⟩ (c.shape ++ inner) a.shape b.shape c.shape l r o)
    (ho : ∀ x, InBounds (c.shape ++ inner) x → o x = x.take c.shape.length) :
    ∃ d, reduce ⟨[lhs.permuted p, rhs.permuted q, out.permuted k], iterators⟩ combine a' b' zs c' =
        .ok d ∧ d.shape = k.apply c.shape ∧
      ∀ jx, InBounds c.shape jx → d.entry (k.apply jx) =
        addTerms (fun x => term combine zs (a.entry (l (jx ++ x))) (b.entry (r (jx ++ x))))
          (points inner) (c.entry jx) := by
  obtain ⟨d, hrun, hshape, hentry⟩ := reduce_permuted combine zs ha hb hc h
  refine ⟨d, hrun, hshape, fun jx hjx => ?_⟩
  have houter : (points (c.shape ++ inner)).filter (fun x => o x = jx) =
      (points (c.shape ++ inner)).filter fun x => x.take c.shape.length = jx :=
    List.filter_congr fun x hx => by rw [ho x (mem_points.1 hx)]
  rw [hentry jx hjx, houter, filter_points_append hjx, addTerms_map]

end NdArray

end TensorLowering
