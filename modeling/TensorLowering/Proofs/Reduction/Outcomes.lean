import TensorLowering.Proofs.Reduction.Sums

/-!
# What a reduction gives

The shapes of the three arrays fit when they give every loop one bound. The loops then run over a
box, and each map places a point of it in its array or outside.

Main statement: a reduction is refused for the shapes of its arrays exactly when they do not fit.
Otherwise it stops exactly when some point of the box is placed outside an array, and else gives the
array in which each element is the left fold, from the initial one, over the points of the box that
are placed on it, in lexicographic order.
-/
namespace TensorLowering

open Numeric NdArray

/-! ## Loops that are read -/

/-- Every loop that the expression reads is below `n`. -/
def AffineExpr.ReadsBelow (n : Nat) (e : AffineExpr) : Prop := ∀ d, e.maxDim? = some d → d < n

def AffineMap.ReadsBelow (n : Nat) (m : AffineMap) : Prop := ∀ e ∈ m.results, e.ReadsBelow n

namespace AffineExpr

theorem ReadsBelow.sum {n : Nat} {a b : AffineExpr} (h : (AffineExpr.sum a b).ReadsBelow n) :
    a.ReadsBelow n ∧ b.ReadsBelow n := by
  simp only [ReadsBelow, maxDim?] at h ⊢
  cases ha : a.maxDim? with
  | none => simpa [ha] using h
  | some x =>
      cases hb : b.maxDim? with
      | none => simpa [ha, hb] using h
      | some y =>
          have hmax := h (max x y) (by simp [ha, hb])
          simp
          omega

/-- An expression has a value where every loop that it reads has one. -/
theorem ReadsBelow.exists_eval? {e : AffineExpr} {point : List Int}
    (h : e.ReadsBelow point.length) : ∃ x, e.eval? point = some x := by
  induction e with
  | dim d => exact ⟨point.get ⟨d, h d rfl⟩, List.getElem?_eq_getElem (h d rfl)⟩
  | const c => exact ⟨c, rfl⟩
  | sum a b iha ihb =>
      obtain ⟨x, hx⟩ := iha h.sum.1
      obtain ⟨y, hy⟩ := ihb h.sum.2
      exact ⟨wrapInt64 (x + y), by simp [eval?, hx, hy]⟩
  | scaled e k ih =>
      obtain ⟨x, hx⟩ := ih h
      exact ⟨wrapInt64 (x * k), by simp [eval?, hx]⟩

end AffineExpr

theorem AffineMap.ReadsBelow.exists_eval? {m : AffineMap} {point : List Int}
    (h : m.ReadsBelow point.length) : ∃ coordinates, m.eval? point = some coordinates := by
  obtain ⟨numDims, results⟩ := m
  change ∀ e ∈ results, e.ReadsBelow point.length at h
  change ∃ coordinates, results.mapM (AffineExpr.eval? point) = some coordinates
  induction results with
  | nil => exact ⟨[], rfl⟩
  | cons e results ih =>
      obtain ⟨x, hx⟩ := (h e List.mem_cons_self).exists_eval?
      obtain ⟨xs, hxs⟩ := ih fun e' he' => h e' (List.mem_cons_of_mem e he')
      exact ⟨x :: xs, by simp [List.mapM_cons, hx, hxs]⟩

/-! ## Shapes that fit -/

namespace Indexing

variable {ix : Indexing} {shapes : List (List Nat)} {bounds : List Nat}

/-- A map addresses an axis of size `n` with the plain variable of the loop `d`. -/
def Binds (ix : Indexing) (shapes : List (List Nat)) (d n : Nat) : Prop :=
  ∃ m shape, (m, shape) ∈ ix.maps.zip shapes ∧
    ∃ i : Nat, m.results[i]? = some (.dim d) ∧ shape[i]? = some n

/-- What is wrong with the shapes of the arrays: one has not as many axes as its map has results,
one loop is to have two bounds, or one has none. -/
inductive Misfit (ix : Indexing) (shapes : List (List Nat)) : Prop
  | rank {m : AffineMap} {shape : List Nat} (h : (m, shape) ∈ ix.maps.zip shapes)
      (hne : m.results.length ≠ shape.length)
  | clash {d n n' : Nat} (h : ix.Binds shapes d n) (h' : ix.Binds shapes d n') (hne : n ≠ n')
  | unbound {d : Nat} (hd : d < ix.numLoops) (h : ∀ n, ¬ ix.Binds shapes d n)

/-- The box over which the loops run: each bound is the size of the axes that the plain variable of
its loop addresses. -/
structure IsBox (ix : Indexing) (shapes : List (List Nat)) (bounds : List Nat) : Prop where
  length : bounds.length = ix.numLoops
  bound : ∀ d n, bounds[d]? = some n ↔ ix.Binds shapes d n

theorem addresses_iff {m : AffineMap} {shape : List Nat} : Addresses bounds m shape ↔
    m.results.length = shape.length ∧ ∀ i d n : Nat, m.results[i]? = some (.dim d) →
      shape[i]? = some n → bounds[d]? = some n := by
  rw [Addresses, List.forall₂_iff_get]
  refine and_congr_right fun hlen => ⟨fun h i d n hi hn => ?_, fun h i hi hn d hd => ?_⟩
  · obtain ⟨hlt, hi⟩ := List.getElem?_eq_some_iff.1 hi
    obtain ⟨hlt', hn⟩ := List.getElem?_eq_some_iff.1 hn
    have hget := h i hlt hlt' d
    simp only [List.get_eq_getElem, hi, hn] at hget
    exact hget rfl
  · refine h i d _ ?_ (List.getElem?_eq_getElem hn)
    rw [List.get_eq_getElem] at hd
    rw [List.getElem?_eq_getElem hi]
    cases he : m.results[i] with
    | dim d' =>
        rw [he] at hd
        rw [Option.some.inj hd]
    | const | sum | scaled =>
        rw [he] at hd
        cases hd

theorem Binds.mem_results {d n : Nat} (h : ix.Binds shapes d n) :
    ∃ m ∈ ix.maps, .dim d ∈ m.results := by
  obtain ⟨m, shape, hmem, i, hi, -⟩ := h
  exact ⟨m, (List.of_mem_zip hmem).1, List.mem_of_getElem? hi⟩

/-- Where ranks agree, a plain variable is that of some axis. -/
theorem exists_binds {d : Nat} (hlen : ix.maps.length = shapes.length)
    (hranks : ∀ m shape, (m, shape) ∈ ix.maps.zip shapes → m.results.length = shape.length)
    (h : ∃ m ∈ ix.maps, .dim d ∈ m.results) : ∃ n, ix.Binds shapes d n := by
  obtain ⟨m, hm, hd⟩ := h
  obtain ⟨j, hj, rfl⟩ := List.mem_iff_getElem.1 hm
  have hj' : j < shapes.length := hlen ▸ hj
  have hmem : (ix.maps[j], shapes[j]) ∈ ix.maps.zip shapes :=
    List.mem_iff_getElem.2 ⟨j, by rw [List.length_zip]; omega, by simp⟩
  obtain ⟨i, hi, he⟩ := List.mem_iff_getElem.1 hd
  have hi' : i < shapes[j].length := hranks _ _ hmem ▸ hi
  exact ⟨shapes[j][i], _, _, hmem, i, by rw [List.getElem?_eq_getElem hi, he],
    List.getElem?_eq_getElem hi'⟩

/-- Bounds are found exactly when the shapes fit, and they are those of the box. -/
theorem loopBounds_iff_isBox (hlen : ix.maps.length = shapes.length) :
    loopBounds ix shapes = .ok bounds ↔ ¬ ix.Misfit shapes ∧ ix.IsBox shapes bounds := by
  rw [loopBounds_eq_ok_iff hlen, List.forall₂_iff_zip]
  constructor
  · rintro ⟨hlength, ⟨-, hmaps⟩, hcover⟩
    have hranks : ∀ m shape, (m, shape) ∈ ix.maps.zip shapes →
        m.results.length = shape.length := fun m shape hmem => (addresses_iff.1 (hmaps hmem)).1
    have hbound : ∀ {d n}, ix.Binds shapes d n → bounds[d]? = some n := by
      rintro d n ⟨m, shape, hmem, i, hi, hn⟩
      exact (addresses_iff.1 (hmaps hmem)).2 i d n hi hn
    refine ⟨fun hmisfit => ?_, hlength, fun d n => ⟨fun hd => ?_, hbound⟩⟩
    · cases hmisfit with
      | rank hmem hne => exact hne (hranks _ _ hmem)
      | clash h h' hne => exact hne (Option.some.inj ((hbound h).symm.trans (hbound h')))
      | unbound hd hnone =>
          obtain ⟨n, hn⟩ := exists_binds hlen hranks (hcover _ hd)
          exact hnone n hn
    · obtain ⟨hlt, -⟩ := List.getElem?_eq_some_iff.1 hd
      obtain ⟨n', hn'⟩ := exists_binds hlen hranks (hcover d (hlength ▸ hlt))
      obtain rfl : n = n' := Option.some.inj (hd.symm.trans (hbound hn'))
      exact hn'
  · rintro ⟨hfits, hbox⟩
    refine ⟨hbox.length, ⟨hlen, fun {m shape} hmem => addresses_iff.2 ⟨?_, ?_⟩⟩, fun d hd => ?_⟩
    · by_contra hne
      exact hfits (.rank hmem hne)
    · exact fun i d n hi hn => (hbox.bound d n).2 ⟨m, shape, hmem, i, hi, hn⟩
    · have hlt : d < bounds.length := hbox.length ▸ hd
      exact ((hbox.bound d _).1 (List.getElem?_eq_getElem hlt)).mem_results

/-- Shapes that fit have a box. -/
theorem exists_isBox (hreads : ∀ m ∈ ix.maps, m.ReadsBelow ix.numLoops)
    (hfits : ¬ ix.Misfit shapes) : ∃ bounds, ix.IsBox shapes bounds := by
  have hbinds : ∀ d : Fin ix.numLoops, ∃ n, ix.Binds shapes d n := by
    intro d
    by_contra hnone
    exact hfits (.unbound d.isLt fun n hn => hnone ⟨n, hn⟩)
  choose size hsize using hbinds
  refine ⟨List.ofFn size, List.length_ofFn, fun d n => ⟨fun hd => ?_, fun hd => ?_⟩⟩
  · obtain ⟨hlt, hn⟩ := List.getElem?_eq_some_iff.1 hd
    rw [List.getElem_ofFn] at hn
    exact hn ▸ hsize ⟨d, by simpa using hlt⟩
  · obtain ⟨m, hm, hmem⟩ := hd.mem_results
    have hlt : d < ix.numLoops := hreads m hm _ hmem d rfl
    have hsame : size ⟨d, hlt⟩ = n := by
      by_contra hne
      exact hfits (.clash (hsize ⟨d, hlt⟩) hd hne)
    rw [List.getElem?_ofFn, dif_pos hlt, hsame]

end Indexing

/-! ## Points of the box -/

/-- The position in an array of the given shape where the map places a point of the loops. -/
def AffineMap.place? (m : AffineMap) (shape p : List Nat) : Option (List Nat) :=
  (m.eval? (p.map Int.ofNat)).bind (position? shape)

/-- The element that is read through the map at a point of the loops. -/
def NdArray.read (a : NdArray Binary64) (m : AffineMap) (p : List Nat) : Binary64 :=
  (m.place? a.shape p).elim 0 a.entry

/-- A map places the point outside its array. -/
def Indexing.Outside (ix : Indexing) (shapes : List (List Nat)) (p : List Nat) : Prop :=
  ∃ m shape, (m, shape) ∈ ix.maps.zip shapes ∧ m.place? shape p = none

namespace NdArray

/-- The positions of a box are listed in lexicographic order, and each once. -/
theorem pairwise_points (shape : List Nat) : (points shape).Pairwise (· < ·) := by
  induction shape with
  | nil => exact List.pairwise_singleton _ _
  | cons n shape ih =>
      rw [points, List.pairwise_flatMap]
      constructor
      · intro i _
        rw [List.pairwise_map]
        exact ih.imp fun h => List.Lex.cons h
      · refine List.pairwise_lt_range.imp fun {i j} hij => ?_
        simp only [List.mem_map]
        rintro _ ⟨x, -, rfl⟩ _ ⟨y, -, rfl⟩
        exact List.Lex.rel hij

section Points

variable {ix : Indexing} {l r o : AffineMap} {bounds p : List Nat}
  {lhs rhs init out : NdArray Binary64} (combine : Combine) (zs : Binary64 × Binary64)

theorem place?_eq_some {m : AffineMap} {shape i : List Nat} : m.place? shape p = some i ↔
    m.eval? (p.map Int.ofNat) = some (i.map Int.ofNat) ∧ InBounds shape i := by
  simp only [AffineMap.place?, Option.bind_eq_some_iff, position?_eq_some]
  constructor
  · rintro ⟨_, hvalue, hin, rfl⟩
    exact ⟨hvalue, hin⟩
  · rintro ⟨hvalue, hin⟩
    exact ⟨_, hvalue, hin, rfl⟩

theorem not_outside_iff (hmaps : ix.maps = [l, r, o]) {a b c : List Nat} :
    ¬ ix.Outside [a, b, c] p ↔
      ∃ i j k, l.place? a p = some i ∧ r.place? b p = some j ∧ o.place? c p = some k := by
  simp only [Indexing.Outside, hmaps, List.zip_cons_cons, List.zip_nil_right, List.mem_cons,
    List.not_mem_nil, or_false, Prod.mk.injEq]
  constructor
  · intro h
    have hplaced : ∀ m shape, (m = l ∧ shape = a) ∨ (m = r ∧ shape = b) ∨ (m = o ∧ shape = c) →
        ∃ i, m.place? shape p = some i := fun m shape hm =>
      Option.ne_none_iff_exists'.1 fun hnone => h ⟨m, shape, hm, hnone⟩
    obtain ⟨i, hi⟩ := hplaced l a (.inl ⟨rfl, rfl⟩)
    obtain ⟨j, hj⟩ := hplaced r b (.inr (.inl ⟨rfl, rfl⟩))
    obtain ⟨k, hk⟩ := hplaced o c (.inr (.inr ⟨rfl, rfl⟩))
    exact ⟨i, j, k, hi, hj, hk⟩
  · rintro ⟨i, j, k, hi, hj, hk⟩ ⟨m, shape, ⟨rfl, rfl⟩ | ⟨rfl, rfl⟩ | ⟨rfl, rfl⟩, hnone⟩
    · cases hi.symm.trans hnone
    · cases hj.symm.trans hnone
    · cases hk.symm.trans hnone

/-- A point passes when all maps place it, and adds its term to the element that it is placed on. -/
theorem accumulate_eq_ok (hmaps : ix.maps = [l, r, o]) {out' : NdArray Binary64} :
    accumulate ix combine zs lhs rhs out p = .ok out' ↔
      ∃ i j k, l.place? lhs.shape p = some i ∧ r.place? rhs.shape p = some j ∧
        o.place? out.shape p = some k ∧
        out.modify k (· + term combine zs (lhs.entry i) (rhs.entry j)) = out' := by
  constructor
  · intro h
    obtain ⟨⟨cl, cr, co⟩, hmapped, hplaced⟩ := Except.bind_eq_ok.1 h
    simp only [mapped?, hmaps] at hmapped
    split at hmapped
    next hl hr ho =>
      cases hmapped
      dsimp only at hplaced
      split at hplaced
      next i j k hi hj hk =>
        cases hplaced
        exact ⟨i, j, k, Option.bind_eq_some_iff.2 ⟨_, hl, hi⟩,
          Option.bind_eq_some_iff.2 ⟨_, hr, hj⟩, Option.bind_eq_some_iff.2 ⟨_, ho, hk⟩, rfl⟩
      next => cases hplaced
    next => cases hmapped
  · rintro ⟨i, j, k, hi, hj, hk, rfl⟩
    obtain ⟨cl, hl, hi⟩ := Option.bind_eq_some_iff.1 hi
    obtain ⟨cr, hr, hj⟩ := Option.bind_eq_some_iff.1 hj
    obtain ⟨co, ho, hk⟩ := Option.bind_eq_some_iff.1 hk
    simp only [accumulate, mapped?, hmaps, hl, hr, ho, bind, Except.bind, hi, hj, hk]
    rfl

/-- A point that is placed outside stops the reduction. -/
theorem accumulate_of_outside (hmaps : ix.maps = [l, r, o])
    (hreads : ∀ m ∈ ix.maps, m.ReadsBelow p.length)
    (h : ix.Outside [lhs.shape, rhs.shape, out.shape] p) :
    accumulate ix combine zs lhs rhs out p = .error (.pointOutside p) := by
  have hvalue : ∀ m ∈ ix.maps, ∃ coordinates, m.eval? (p.map Int.ofNat) = some coordinates := by
    intro m hm
    have hlen : p.length = (p.map Int.ofNat).length := (List.length_map _).symm
    exact (hlen ▸ hreads m hm : m.ReadsBelow (p.map Int.ofNat).length).exists_eval?
  obtain ⟨cl, hl⟩ := hvalue l (by simp [hmaps])
  obtain ⟨cr, hr⟩ := hvalue r (by simp [hmaps])
  obtain ⟨co, ho⟩ := hvalue o (by simp [hmaps])
  simp only [accumulate, mapped?, hmaps, hl, hr, ho, bind, Except.bind]
  split
  next i j k hi hj hk =>
    refine absurd h ((not_outside_iff hmaps).2 ⟨i, j, k, ?_, ?_, ?_⟩)
    · exact Option.bind_eq_some_iff.2 ⟨_, hl, hi⟩
    · exact Option.bind_eq_some_iff.2 ⟨_, hr, hj⟩
    · exact Option.bind_eq_some_iff.2 ⟨_, ho, hk⟩
  next => rfl

theorem foldlM_of_outside (hmaps : ix.maps = [l, r, o]) {ps : List (List Nat)}
    (hreads : ∀ p ∈ ps, ∀ m ∈ ix.maps, m.ReadsBelow p.length) (hout : out.shape = init.shape)
    (h : ∃ p ∈ ps, ix.Outside [lhs.shape, rhs.shape, init.shape] p) :
    ∃ p, ps.foldlM (accumulate ix combine zs lhs rhs) out = .error (.pointOutside p) := by
  induction ps generalizing out with
  | nil => simp at h
  | cons p ps ih =>
      rw [List.foldlM_cons]
      by_cases hp : ix.Outside [lhs.shape, rhs.shape, init.shape] p
      · rw [accumulate_of_outside combine zs hmaps (hreads p List.mem_cons_self) (hout ▸ hp)]
        exact ⟨p, rfl⟩
      · obtain ⟨i, j, k, hi, hj, hk⟩ := (not_outside_iff hmaps).1 hp
        rw [(accumulate_eq_ok combine zs hmaps).2 ⟨i, j, k, hi, hj, hout ▸ hk, rfl⟩]
        have hrest : ∃ q ∈ ps, ix.Outside [lhs.shape, rhs.shape, init.shape] q := by
          obtain ⟨q, hq, houtside⟩ := h
          rcases List.mem_cons.1 hq with rfl | hq
          · exact absurd houtside hp
          · exact ⟨q, hq, houtside⟩
        exact ih (fun q hq => hreads q (List.mem_cons_of_mem p hq)) hout hrest

/-- Points that have been passed are placed inside. -/
theorem not_outside_of_foldlM (hmaps : ix.maps = [l, r, o]) {ps : List (List Nat)}
    {out' : NdArray Binary64} (hout : out.shape = init.shape)
    (h : ps.foldlM (accumulate ix combine zs lhs rhs) out = .ok out') :
    ∀ p ∈ ps, ¬ ix.Outside [lhs.shape, rhs.shape, init.shape] p := by
  induction ps generalizing out with
  | nil => simp
  | cons p ps ih =>
      rw [List.foldlM_cons] at h
      obtain ⟨next, hfirst, hrest⟩ := Except.bind_eq_ok.1 h
      obtain ⟨i, j, k, hi, hj, hk, hnext⟩ := (accumulate_eq_ok combine zs hmaps).1 hfirst
      intro q hq
      rcases List.mem_cons.1 hq with rfl | hq
      · exact (not_outside_iff hmaps).2 ⟨i, j, k, hi, hj, hout ▸ hk⟩
      · have hshape : next.shape = init.shape := hnext ▸ hout
        exact ih hshape hrest q hq

/-- Maps that place every point of the box route it. -/
theorem routes_of_loopBounds (hmaps : ix.maps = [l, r, o])
    (hfound : loopBounds ix [lhs.shape, rhs.shape, init.shape] = .ok bounds)
    (h : ∀ p ∈ points bounds, ¬ ix.Outside [lhs.shape, rhs.shape, init.shape] p) :
    Routes ix bounds lhs.shape rhs.shape init.shape (fun p => (l.place? lhs.shape p).getD [])
      (fun p => (r.place? rhs.shape p).getD []) fun p => (o.place? init.shape p).getD [] := by
  obtain ⟨hlength, haddresses, hcover⟩ := (loopBounds_eq_ok_iff (by rw [hmaps]; rfl)).1 hfound
  have hplaced := fun p hp => (not_outside_iff hmaps).1 (h p (mem_points.2 hp))
  refine ⟨hlength, haddresses, hcover, fun p hp => ?_, fun p hp => ?_, fun p hp => ?_,
    fun p hp => ?_⟩
  all_goals obtain ⟨i, j, k, hi, hj, hk⟩ := hplaced p hp
  · simp only [hi, hj, hk, Option.getD_some, mapped?, hmaps, (place?_eq_some.1 hi).1,
      (place?_eq_some.1 hj).1, (place?_eq_some.1 hk).1]
  · simp only [hi, Option.getD_some, (place?_eq_some.1 hi).2]
  · simp only [hj, Option.getD_some, (place?_eq_some.1 hj).2]
  · simp only [hk, Option.getD_some, (place?_eq_some.1 hk).2]

/-- A reduction that runs routes every point of its loops. -/
theorem exists_routes (hmaps : ix.maps = [l, r, o])
    (h : reduce ix combine lhs rhs zs init = .ok out) :
    ∃ bounds, Routes ix bounds lhs.shape rhs.shape init.shape
      (fun p => (l.place? lhs.shape p).getD []) (fun p => (r.place? rhs.shape p).getD [])
      fun p => (o.place? init.shape p).getD [] := by
  obtain ⟨bounds, hfound, -⟩ := Except.bind_eq_ok.1 h
  rw [reduce_eq_foldlM combine zs hfound] at h
  exact ⟨bounds, routes_of_loopBounds hmaps hfound (not_outside_of_foldlM combine zs hmaps rfl h)⟩

/-! ## The outcomes -/

theorem reduce_of_outside (hmaps : ix.maps = [l, r, o])
    (hreads : ∀ m ∈ ix.maps, m.ReadsBelow ix.numLoops)
    (hfound : loopBounds ix [lhs.shape, rhs.shape, init.shape] = .ok bounds)
    (h : ∃ p ∈ points bounds, ix.Outside [lhs.shape, rhs.shape, init.shape] p) :
    ∃ p, reduce ix combine lhs rhs zs init = .error (.pointOutside p) := by
  have hlength : bounds.length = ix.numLoops :=
    ((loopBounds_eq_ok_iff (by rw [hmaps]; rfl)).1 hfound).1
  rw [reduce_eq_foldlM combine zs hfound]
  refine foldlM_of_outside combine zs hmaps (fun p hp => ?_) rfl h
  rwa [(mem_points.1 hp).length_eq, hlength]

theorem reduce_of_placed (hmaps : ix.maps = [l, r, o])
    (hfound : loopBounds ix [lhs.shape, rhs.shape, init.shape] = .ok bounds)
    (h : ¬ ∃ p ∈ points bounds, ix.Outside [lhs.shape, rhs.shape, init.shape] p) :
    ∃ out, reduce ix combine lhs rhs zs init = .ok out ∧ out.shape = init.shape ∧
      ∀ jx, InBounds init.shape jx →
        out.entry jx = addTerms (fun p => term combine zs (lhs.read l p) (rhs.read r p))
          ((points bounds).filter fun p => o.place? init.shape p = some jx) (init.entry jx) := by
  have hplaced : ∀ p ∈ points bounds, ¬ ix.Outside [lhs.shape, rhs.shape, init.shape] p :=
    fun p hp houtside => h ⟨p, hp, houtside⟩
  obtain ⟨out, hrun, hshape, hentry⟩ :=
    reduce_eq_ok combine zs (routes_of_loopBounds hmaps hfound hplaced)
  refine ⟨out, hrun, hshape, fun jx hjx => ?_⟩
  have hfilter : (points bounds).filter (fun p => (o.place? init.shape p).getD [] = jx) =
      (points bounds).filter fun p => o.place? init.shape p = some jx := by
    refine List.filter_congr fun p hp => ?_
    obtain ⟨i, j, k, -, -, hk⟩ := (not_outside_iff hmaps).1 (hplaced p hp)
    simp only [hk, Option.getD_some, Option.some.injEq]
  rw [hentry jx hjx, hfilter]
  refine addTerms_congr fun p hp => ?_
  obtain ⟨i, j, k, hi, hj, -⟩ := (not_outside_iff hmaps).1 (hplaced p (List.mem_of_mem_filter hp))
  simp only [NdArray.read, hi, hj, Option.getD_some, Option.elim_some]

/-- What a reduction gives, for all arrays and for all maps that read loops of the reduction
only. Where a map places a point is computed in 64 bits. -/
theorem reduce_folds (lhs rhs init : NdArray Binary64) (hmaps : ix.maps = [l, r, o])
    (hreads : ∀ m ∈ ix.maps, m.ReadsBelow ix.numLoops) :
    ((∃ e, reduce ix combine lhs rhs zs init = .error e ∧ e.kind = .shape) ↔
      ix.Misfit [lhs.shape, rhs.shape, init.shape]) ∧
    (¬ ix.Misfit [lhs.shape, rhs.shape, init.shape] →
      ∃ bounds, ix.IsBox [lhs.shape, rhs.shape, init.shape] bounds ∧
        (points bounds).Pairwise (· < ·) ∧ (∀ p, p ∈ points bounds ↔ InBounds bounds p) ∧
        (points bounds = [] → reduce ix combine lhs rhs zs init = .ok init) ∧
        ((∃ e, reduce ix combine lhs rhs zs init = .error e ∧ e.kind = .bounds) ↔
          ∃ p ∈ points bounds, ix.Outside [lhs.shape, rhs.shape, init.shape] p) ∧
        ((¬ ∃ p ∈ points bounds, ix.Outside [lhs.shape, rhs.shape, init.shape] p) →
          ∃ out, reduce ix combine lhs rhs zs init = .ok out ∧ out.shape = init.shape ∧
            ∀ jx, InBounds init.shape jx →
              out.entry jx = addTerms (fun p => term combine zs (lhs.read l p) (rhs.read r p))
                ((points bounds).filter fun p => o.place? init.shape p = some jx)
                (init.entry jx))) := by
  have hlen : ix.maps.length = [lhs.shape, rhs.shape, init.shape].length := by rw [hmaps]; rfl
  -- shapes that fit have a box, and the bounds of the loops are found
  have hbounds : ¬ ix.Misfit [lhs.shape, rhs.shape, init.shape] →
      ∃ bounds, ix.IsBox [lhs.shape, rhs.shape, init.shape] bounds ∧
        loopBounds ix [lhs.shape, rhs.shape, init.shape] = .ok bounds := by
    intro hfits
    obtain ⟨bounds, hbox⟩ := Indexing.exists_isBox hreads hfits
    exact ⟨bounds, hbox, (Indexing.loopBounds_iff_isBox hlen).2 ⟨hfits, hbox⟩⟩
  refine ⟨⟨?_, ?_⟩, ?_⟩
  · rintro ⟨e, herror, hkind⟩
    by_contra hfits
    obtain ⟨bounds, -, hfound⟩ := hbounds hfits
    by_cases hexists : ∃ p ∈ points bounds, ix.Outside [lhs.shape, rhs.shape, init.shape] p
    · obtain ⟨p, hp⟩ := reduce_of_outside combine zs hmaps hreads hfound hexists
      cases hp.symm.trans herror
      cases hkind
    · obtain ⟨out, hrun, -⟩ := reduce_of_placed combine zs hmaps hfound hexists
      cases hrun.symm.trans herror
  · intro hmisfit
    cases hfound : loopBounds ix [lhs.shape, rhs.shape, init.shape] with
    | ok bounds => exact absurd hmisfit ((Indexing.loopBounds_iff_isBox hlen).1 hfound).1
    | error e =>
        refine ⟨e, ?_, failsBy_loopBounds _ _ e hfound⟩
        rw [reduce, hfound]
        rfl
  · intro hfits
    obtain ⟨bounds, hbox, hfound⟩ := hbounds hfits
    refine ⟨bounds, hbox, pairwise_points bounds, fun p => mem_points, fun hnil => ?_, ⟨?_, ?_⟩,
      reduce_of_placed combine zs hmaps hfound⟩
    · rw [reduce_eq_foldlM combine zs hfound, hnil]
      rfl
    · rintro ⟨e, herror, -⟩
      by_contra hnone
      obtain ⟨out, hrun, -⟩ := reduce_of_placed combine zs hmaps hfound hnone
      cases hrun.symm.trans herror
    · intro hexists
      obtain ⟨p, hp⟩ := reduce_of_outside combine zs hmaps hreads hfound hexists
      exact ⟨_, hp, rfl⟩

/-- The array whose elements are numbered in row-major order. -/
def counted (shape : List Nat) : NdArray Binary64 :=
  ofFn shape fun ix => .ofInt (.ofNat (ravel shape ix))

/-- A sum of products that is added to the second element of an array. -/
theorem reduce_folds_onto_second : ∃ out,
    reduce (.ofResults [.dim 0] [.dim 0] [.const 1] [.reduction]) .mulAdd (counted [4])
      (counted [4]) (0, 0) (counted [3]) = .ok out ∧
    out.shape = [3] ∧ out.entry [1] = .ofInt (1 + 0 + 1 + 4 + 9) := by
  have hreads : ∀ m ∈ (Indexing.ofResults [.dim 0] [.dim 0] [.const 1] [.reduction]).maps,
      m.ReadsBelow 1 := by
    simp [Indexing.ofResults, AffineMap.ReadsBelow, AffineExpr.ReadsBelow, AffineExpr.maxDim?]
  have hfound : loopBounds (.ofResults [.dim 0] [.dim 0] [.const 1] [.reduction]) [[4], [4], [3]] =
      .ok [4] := rfl
  obtain ⟨hfits, -⟩ := (Indexing.loopBounds_iff_isBox rfl).1 hfound
  obtain ⟨-, hgives⟩ :=
    reduce_folds .mulAdd (0, 0) (counted [4]) (counted [4]) (counted [3]) rfl hreads
  obtain ⟨bounds, hbox, -, -, -, -, hruns⟩ := hgives hfits
  obtain rfl : [4] = bounds :=
    Except.ok.inj (hfound.symm.trans ((Indexing.loopBounds_iff_isBox rfl).2 ⟨hfits, hbox⟩))
  have hplaced : ¬ ∃ p ∈ points [4],
      (Indexing.ofResults [.dim 0] [.dim 0] [.const 1] [.reduction]).Outside [[4], [4], [3]] p := by
    rintro ⟨p, hp, houtside⟩
    obtain ⟨i, rest, rfl, hi, hrest⟩ := inBounds_cons.1 (mem_points.1 hp)
    obtain rfl := inBounds_nil.1 hrest
    have hplace : ∀ numDims, (AffineMap.mk numDims [.dim 0]).place? [4] [i] = some [i] :=
      fun numDims => place?_eq_some.2 ⟨rfl, hi, trivial⟩
    exact (not_outside_iff rfl).2 ⟨[i], [i], [1], hplace _, hplace _, rfl⟩ houtside
  obtain ⟨out, hrun, hshape, hentry⟩ := hruns hplaced
  exact ⟨out, hrun, hshape, (hentry [1] (by decide)).trans (by decide +kernel)⟩

end Points

end NdArray

end TensorLowering
