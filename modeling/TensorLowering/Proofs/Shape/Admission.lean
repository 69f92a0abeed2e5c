import Mathlib.Data.List.Forall2
import TensorLowering.Eval.Node
import TensorLowering.Proofs.NdArray.CommonShapes
import TensorLowering.Shape.Broadcast
import TensorLowering.Shape.Permutation
import TensorLowering.Shape.Reassociation

/-!
# Sizes that a declaration admits

A declared shape admits the sizes that agree with it axis by axis. What is computed of declared
shapes admits what is computed of the sizes. Main statements: this holds of axes that are replaced,
removed, inserted, reordered and folded, and of shapes that are broadcast.
-/
namespace TensorLowering

open NdArray

/-- The dimension is the size, or leaves it open. -/
def Dim.Admits (d : Dim) (n : Nat) : Prop := d = .static n ∨ d = .dynamic

namespace Dim.Admits

variable {d e : Dim} {m n k : Nat}

theorem static (n : Nat) : (Dim.static n).Admits n := .inl rfl

theorem dynamic (n : Nat) : Dim.dynamic.Admits n := .inr rfl

theorem mul (hd : d.Admits m) (he : e.Admits n) : (d.mul e).Admits (m * n) := by
  rcases hd with rfl | rfl
  · rcases he with rfl | rfl
    · exact static _
    · exact dynamic _
  · exact dynamic _

/-- What two sizes stretch to is what the dimensions do. -/
theorem broadcast (hd : d.Admits m) (he : e.Admits n) (hk : commonSize? m n = some k) :
    (d.broadcast e).Admits k := by
  rcases hd with rfl | rfl
  · rcases he with rfl | rfl
    · unfold commonSize? at hk
      unfold Dim.broadcast Admits
      grind
    · unfold commonSize? at hk
      unfold Dim.broadcast Admits
      grind
  · rcases he with rfl | rfl
    · unfold commonSize? at hk
      unfold Dim.broadcast Admits
      grind
    · exact dynamic _

end Dim.Admits

/-! ## Lists in which entries correspond -/

section Lists

variable {α β : Type} {r : α → β → Prop} {xs : List α} {ys : List β} {x : α} {y : β}

theorem forall₂_set (h : List.Forall₂ r xs ys) (hxy : r x y) (i : Nat) :
    List.Forall₂ r (xs.set i x) (ys.set i y) := by
  induction h generalizing i with
  | nil => exact .nil
  | cons hfirst hrest ih =>
      cases i with
      | zero => exact .cons hxy hrest
      | succ i => exact .cons hfirst (ih i)

theorem forall₂_eraseIdx (h : List.Forall₂ r xs ys) (i : Nat) :
    List.Forall₂ r (xs.eraseIdx i) (ys.eraseIdx i) := by
  induction h generalizing i with
  | nil => exact .nil
  | cons hfirst hrest ih =>
      cases i with
      | zero => exact hrest
      | succ i => exact .cons hfirst (ih i)

theorem forall₂_insertIdx (h : List.Forall₂ r xs ys) (hxy : r x y) (i : Nat) :
    List.Forall₂ r (xs.insertIdx i x) (ys.insertIdx i y) := by
  induction h generalizing i with
  | nil =>
      cases i with
      | zero => exact .cons hxy .nil
      | succ i => exact .nil
  | cons hfirst hrest ih =>
      cases i with
      | zero => exact .cons hxy (.cons hfirst hrest)
      | succ i => exact .cons hfirst (ih i)

theorem forall₂_getD (h : List.Forall₂ r xs ys) {i : Nat} (hi : i < xs.length) (x : α) (y : β) :
    r (xs.getD i x) (ys.getD i y) := by
  have hi' : i < ys.length := h.length_eq ▸ hi
  rw [List.getD_eq_getElem?_getD, List.getD_eq_getElem?_getD, List.getElem?_eq_getElem hi,
    List.getElem?_eq_getElem hi']
  exact h.get hi hi'

end Lists

namespace Shape

variable {s t : Shape} {sizes : List Nat}

theorem admits_iff : s.Admits sizes ↔ List.Forall₂ Dim.Admits s.dims sizes := by
  rw [List.forall₂_iff_zip, Admits, rank]
  refine and_congr eq_comm ⟨fun h a b he => h (a, b) he, fun h e he => h he⟩

theorem admits_of_dynamic (h : ∀ d ∈ s.dims, d = .dynamic) (hlen : sizes.length = s.rank) :
    s.Admits sizes :=
  ⟨hlen, fun _ he => .inr (h _ (List.of_mem_zip he).1)⟩

namespace Admits

/-- A size that is declared is the size. -/
theorem getElem?_static (h : s.Admits sizes) {i n : Nat} (hn : s.dims[i]? = some (.static n)) :
    sizes[i]? = some n := by
  have hall := admits_iff.1 h
  obtain ⟨hi, hget⟩ := List.getElem?_eq_some_iff.1 hn
  have hi' : i < sizes.length := hall.length_eq ▸ hi
  have hdim := hall.get hi hi'
  simp only [List.get_eq_getElem, hget] at hdim
  rcases hdim with hstatic | hdynamic
  · rw [List.getElem?_eq_getElem hi', Dim.static.inj hstatic]
  · cases hdynamic

theorem set (h : s.Admits sizes) {d : Dim} {n : Nat} (hd : d.Admits n) (i : Nat) :
    Admits ⟨s.dims.set i d⟩ (sizes.set i n) :=
  admits_iff.2 (forall₂_set (admits_iff.1 h) hd i)

theorem eraseIdx (h : s.Admits sizes) (i : Nat) : Admits ⟨s.dims.eraseIdx i⟩ (sizes.eraseIdx i) :=
  admits_iff.2 (forall₂_eraseIdx (admits_iff.1 h) i)

theorem insertIdx (h : s.Admits sizes) {d : Dim} {n : Nat} (hd : d.Admits n) (i : Nat) :
    Admits ⟨s.dims.insertIdx i d⟩ (sizes.insertIdx i n) :=
  admits_iff.2 (forall₂_insertIdx (admits_iff.1 h) hd i)

/-- The axes are reordered in the same way. -/
theorem permuted (h : s.Admits sizes) {p : Permutation} (ht : s.permuted p = .ok t) :
    t.Admits (p.apply sizes) := by
  rw [Shape.permuted, Permutation.check_eq] at ht
  split at ht
  next hvalid =>
    cases ht
    refine admits_iff.2 ?_
    rw [Permutation.apply, List.forall₂_map_left_iff, List.forall₂_map_right_iff, List.forall₂_same]
    exact fun a ha => forall₂_getD (admits_iff.1 h) (hvalid.2.1 a ha) _ _
  next => cases ht

end Admits

/-- A product of dimensions admits the volume of the sizes. -/
theorem prod_admits {dims : List Dim} (h : List.Forall₂ Dim.Admits dims sizes) :
    (Dim.prod dims).Admits (volume sizes) := by
  have hfold : ∀ {d : Dim} {n : Nat}, d.Admits n →
      (dims.foldl Dim.mul d).Admits (n * volume sizes) := by
    induction h with
    | nil =>
        intro d n hd
        rwa [volume, Nat.mul_one]
    | cons hfirst _ ih =>
        intro d n hd
        rw [List.foldl_cons, volume, ← Nat.mul_assoc]
        exact ih (hd.mul hfirst)
  have hprod := hfold (Dim.Admits.static 1)
  rwa [Nat.one_mul] at hprod

/-- Each group of axes is folded in the same way. -/
theorem Admits.collapse (h : s.Admits sizes) {r : Reassociation} (ht : r.collapse s = .ok t) :
    t.Admits (r.groups.map fun g => volume (g.map fun axis => sizes.getD axis 1)) := by
  rw [Reassociation.collapse] at ht
  cases hcheck : r.check s.rank with
  | error e =>
      rw [hcheck] at ht
      cases ht
  | ok _ =>
      rw [hcheck] at ht
      cases ht
      have hvalid := Reassociation.check_eq_ok.1 hcheck
      refine admits_iff.2 ?_
      rw [List.forall₂_map_left_iff, List.forall₂_map_right_iff, List.forall₂_same]
      intro g hg
      refine prod_admits ?_
      rw [List.forall₂_map_left_iff, List.forall₂_map_right_iff, List.forall₂_same]
      intro axis haxis
      have hlt : axis < s.rank := by
        have hmem : axis ∈ r.groups.flatten := List.mem_flatten.2 ⟨g, hg, haxis⟩
        rwa [(hvalid.resolve_left (List.ne_nil_of_mem hg)).1, List.mem_range] at hmem
      exact forall₂_getD (admits_iff.1 h) hlt _ _

/-! ## Broadcasting -/

theorem zipWith_broadcast_ones (ds : List Dim) :
    List.zipWith Dim.broadcast (List.replicate ds.length (.static 1)) ds = ds ∧
      List.zipWith Dim.broadcast ds (List.replicate ds.length (.static 1)) = ds := by
  induction ds with
  | nil => exact ⟨rfl, rfl⟩
  | cons d ds ih =>
      have hleft : (Dim.static 1).broadcast d = d := by cases d <;> rfl
      have hright : d.broadcast (.static 1) = d := by
        rcases d with (_ | _ | n) | _ <;> rfl
      rw [List.length_cons, List.replicate_succ, List.zipWith_cons_cons, List.zipWith_cons_cons,
        hleft, hright, ih.1, ih.2]
      exact ⟨rfl, rfl⟩

/-- The dimensions, filled up with ones. -/
def extendedTo (rank : Nat) (ds : List Dim) : List Dim :=
  ds ++ List.replicate (rank - ds.length) (.static 1)

theorem zipWith_extendedTo_admits {ds es : List Dim} {A B C : List Nat}
    (hd : List.Forall₂ Dim.Admits ds A) (he : List.Forall₂ Dim.Admits es B)
    (hC : broadcastReversed? A B = some C) :
    List.Forall₂ Dim.Admits (List.zipWith Dim.broadcast (extendedTo (max ds.length es.length) ds)
      (extendedTo (max ds.length es.length) es)) C := by
  induction hd generalizing es B C with
  | nil =>
      rw [broadcastReversed?] at hC
      cases hC
      have hones := (zipWith_broadcast_ones es).1
      simpa [extendedTo, hones] using he
  | @cons d m ds A hdm hrest ih =>
      cases he with
      | nil =>
          rw [broadcastReversed?_nil_right] at hC
          cases hC
          have hones := (zipWith_broadcast_ones (d :: ds)).2
          rw [List.length_cons] at hones
          simpa [extendedTo, hones] using List.Forall₂.cons hdm hrest
      | @cons e n es B hen hrest' =>
          obtain ⟨k, rest, hk, hrestC, rfl⟩ := broadcastReversed?_cons.1 hC
          have htail := ih hrest' hrestC
          have hmax : max (ds.length + 1) (es.length + 1) = max ds.length es.length + 1 := by omega
          simp only [extendedTo, List.length_cons, hmax, Nat.add_sub_add_right, List.cons_append,
            List.zipWith_cons_cons]
          exact .cons (hdm.broadcast hen hk) htail

/-- What the sizes stretch to is admitted by what the shapes do. -/
theorem Admits.broadcast {A B C : List Nat} (hs : s.Admits A) (ht : t.Admits B)
    (hC : broadcastShape A B = .ok C) : (s.broadcast t).Admits C := by
  have hR := broadcastShape_eq_ok_iff.1 hC
  have hreversed := zipWith_extendedTo_admits (List.rel_reverse (admits_iff.1 hs))
    (List.rel_reverse (admits_iff.1 ht)) hR
  refine admits_iff.2 (List.forall₂_reverse_iff.1 ?_)
  have hpadded : ∀ u : Shape, ∀ rank, (u.padded rank).reverse = extendedTo rank u.dims.reverse := by
    intro u rank
    simp [padded, extendedTo, Shape.rank]
  have hlength : (s.padded (max s.rank t.rank)).length = (t.padded (max s.rank t.rank)).length := by
    simp only [padded, List.length_append, List.length_replicate, Shape.rank]
    omega
  rw [Shape.broadcast, List.reverse_zipWith hlength, hpadded, hpadded]
  simpa [Shape.rank] using hreversed

end Shape

end TensorLowering
