import TensorLowering.Proofs.NdArray.Axes
import TensorLowering.Proofs.Reduction.Loops

/-!
# Sums that a reduction computes

When the maps of a reduction send every point of its loops to positions of its three arrays, each
element of the output is the initial one plus the terms of the points that are sent to it, in the
order of the loops. When the outer loops run over the output as it is, these are the points of the
inner loops. When every map keeps some of the loop variables as they are, the sizes of the arrays
are the bounds of those loops, and a point of the loops is sent to its coordinates on them.
-/
namespace TensorLowering.NdArray

open Numeric

variable {bounds lhsShape rhsShape outShape : List Nat} {l r o : List Nat → List Nat}

theorem ravel_inj {shape ix jx : List Nat} (hix : InBounds shape ix) (hjx : InBounds shape jx)
    (h : ravel shape ix = ravel shape jx) : ix = jx := by
  rw [← unravel_ravel hix, h, unravel_ravel hjx]

theorem entry_modify {a : NdArray Binary64} {ix jx : List Nat} {f : Binary64 → Binary64}
    (hix : InBounds a.shape ix) (hjx : InBounds a.shape jx) :
    (a.modify ix f).entry jx = if ix = jx then f (a.entry jx) else a.entry jx := by
  have hlt : ravel a.shape jx < a.data.size := a.size_data ▸ ravel_lt hjx
  have hsame : ravel a.shape ix = ravel a.shape jx ↔ ix = jx :=
    ⟨ravel_inj hix hjx, fun h => h ▸ rfl⟩
  simp only [entry, modify]
  rw [Array.getD_eq_getD_getElem?, Array.getElem?_modify]
  simp only [hsame]
  split
  next => simp [hlt]
  next => simp [hlt]

/-- The maps of the reduction send each point of the loops to positions of its three arrays, whose
sizes are the bounds of the loops. -/
structure Routes (ix : Indexing) (bounds lhsShape rhsShape outShape : List Nat)
    (l r o : List Nat → List Nat) : Prop where
  length : bounds.length = ix.numLoops
  addresses : List.Forall₂ (Addresses bounds) ix.maps [lhsShape, rhsShape, outShape]
  cover : ∀ d < ix.numLoops, ∃ m ∈ ix.maps, .dim d ∈ m.results
  mapped : ∀ p, InBounds bounds p →
    mapped? ix p = .ok ((l p).map Int.ofNat, (r p).map Int.ofNat, (o p).map Int.ofNat)
  lhs : ∀ p, InBounds bounds p → InBounds lhsShape (l p)
  rhs : ∀ p, InBounds bounds p → InBounds rhsShape (r p)
  out : ∀ p, InBounds bounds p → InBounds outShape (o p)

theorem Routes.ranks {ix : Indexing} (h : Routes ix bounds lhsShape rhsShape outShape l r o) :
    List.Forall₂ (fun shape m => shape.length = m.results.length)
      [lhsShape, rhsShape, outShape] ix.maps :=
  (h.addresses.imp fun _ _ hm => hm.length_eq.symm).flip

theorem Routes.found {ix : Indexing} (h : Routes ix bounds lhsShape rhsShape outShape l r o) :
    loopBounds ix [lhsShape, rhsShape, outShape] = .ok bounds :=
  loopBounds_eq_ok h.length h.addresses h.cover

/-- The terms of the listed points added one after the other. -/
def addTerms (term : List Nat → Binary64) (points : List (List Nat)) (x : Binary64) : Binary64 :=
  points.foldl (fun sum p => sum + term p) x

theorem points_eq_nil (h : 0 ∈ bounds) : points bounds = [] := by
  rw [List.eq_nil_iff_forall_not_mem]
  intro p hp
  have hpos := ravel_lt (mem_points.1 hp)
  rw [volume_eq_zero.2 h] at hpos
  omega

/-- Visiting points whose steps all succeed. -/
theorem foldlM_accumulate {ix : Indexing} {combine : Combine} {zs : Binary64 × Binary64}
    {lhs rhs : NdArray Binary64}
    (h : Routes ix bounds lhs.shape rhs.shape outShape l r o) {ps : List (List Nat)}
    (hps : ∀ p ∈ ps, InBounds bounds p) {init : NdArray Binary64} (hinit : init.shape = outShape) :
    ∃ out, ps.foldlM (fun out p => accumulate ix combine zs lhs rhs out p) init = .ok out ∧
      out.shape = outShape ∧ ∀ jx, InBounds outShape jx →
        out.entry jx = addTerms (fun p => term combine zs (lhs.entry (l p)) (rhs.entry (r p)))
          (ps.filter fun p => o p = jx) (init.entry jx) := by
  induction ps generalizing init with
  | nil => exact ⟨init, rfl, hinit, fun jx _ => rfl⟩
  | cons p ps ih =>
      have hp := hps p (by simp)
      have hposition : ∀ {shape ix : List Nat}, InBounds shape ix →
          position? shape (ix.map Int.ofNat) = some ix := fun hix =>
        position?_eq_some.2 ⟨hix, rfl⟩
      have hstep : accumulate ix combine zs lhs rhs init p =
          .ok (init.modify (o p) (· + term combine zs (lhs.entry (l p)) (rhs.entry (r p)))) := by
        have hout : position? init.shape ((o p).map Int.ofNat) = some (o p) :=
          hposition (hinit ▸ h.out p hp)
        simp only [accumulate, h.mapped p hp, hposition (h.lhs p hp), hposition (h.rhs p hp), hout,
          bind, Except.bind]
        rfl
      have hinit' : (init.modify (o p)
          (· + term combine zs (lhs.entry (l p)) (rhs.entry (r p)))).shape = outShape := hinit
      obtain ⟨out, hrun, hshape, hentry⟩ := ih (fun q hq => hps q (by simp [hq])) hinit'
      refine ⟨out, ?_, hshape, fun jx hjx => ?_⟩
      · rw [List.foldlM_cons, hstep]
        exact hrun
      · have hbounds : InBounds init.shape (o p) := hinit ▸ h.out p hp
        rw [hentry jx hjx, entry_modify hbounds (hinit ▸ hjx)]
        by_cases ho : o p = jx
        · rw [if_pos ho, List.filter_cons_of_pos (by simpa using ho)]
          rfl
        · rw [if_neg ho, List.filter_cons_of_neg (by simpa using ho)]

/-- Once its loops have bounds, a reduction folds over the points of their box. -/
theorem reduce_eq_foldlM {ix : Indexing} (combine : Combine) (zs : Binary64 × Binary64)
    {lhs rhs init : NdArray Binary64}
    (h : loopBounds ix [lhs.shape, rhs.shape, init.shape] = .ok bounds) :
    reduce ix combine lhs rhs zs init =
      (points bounds).foldlM (accumulate ix combine zs lhs rhs) init := by
  simp only [reduce, h, bind, Except.bind]
  by_cases hzero : 0 ∈ bounds
  · have hcontains : bounds.contains 0 = true := by simpa using hzero
    rw [if_pos hcontains, points_eq_nil hzero]
    rfl
  · have hcontains : ¬ bounds.contains 0 = true := by simpa using hzero
    rw [if_neg hcontains, visit_eq]

/-- A reduction whose points all have positions runs without an error. -/
theorem reduce_eq_ok {ix : Indexing} (combine : Combine) (zs : Binary64 × Binary64)
    {lhs rhs init : NdArray Binary64}
    (h : Routes ix bounds lhs.shape rhs.shape init.shape l r o) :
    ∃ out, reduce ix combine lhs rhs zs init = .ok out ∧ out.shape = init.shape ∧
      ∀ jx, InBounds init.shape jx →
        out.entry jx = addTerms (fun p => term combine zs (lhs.entry (l p)) (rhs.entry (r p)))
          ((points bounds).filter fun p => o p = jx) (init.entry jx) := by
  rw [reduce_eq_foldlM combine zs h.found]
  exact foldlM_accumulate h (fun p hp => mem_points.1 hp) rfl

/-! ## Loops over the output -/

variable {inner : List Nat}

theorem flatMap_ite_eq {α β : Type} [DecidableEq α] {xs : List α} {a : α} {ys : List β}
    (hnodup : xs.Nodup) (ha : a ∈ xs) : (xs.flatMap fun x => if x = a then ys else []) = ys := by
  induction xs with
  | nil => cases ha
  | cons x xs ih =>
      obtain ⟨hx, hnodup⟩ := List.nodup_cons.1 hnodup
      rw [List.flatMap_cons]
      by_cases he : x = a
      · subst he
        have hrest : (xs.flatMap fun y => if y = x then ys else []) = [] := by
          refine List.flatMap_eq_nil_iff.2 fun y hy => if_neg ?_
          rintro rfl
          exact hx hy
        rw [hrest, if_pos rfl, List.append_nil]
      · rw [if_neg he, List.nil_append, ih hnodup]
        exact (List.mem_cons.1 ha).resolve_left fun h => he h.symm

/-- Among the points of the loops, those over one position of the output run over the inner box. -/
theorem filter_points_append {jx : List Nat} (hjx : InBounds outShape jx) :
    (points (outShape ++ inner)).filter (fun p => p.take outShape.length = jx) =
      (points inner).map (jx ++ ·) := by
  induction outShape generalizing jx with
  | nil => simp [inBounds_nil.1 hjx]
  | cons n outShape ih =>
      obtain ⟨j, rest, rfl, hj, hrest⟩ := inBounds_cons.1 hjx
      have hblock : ∀ i, ((points (outShape ++ inner)).map (i :: ·)).filter
          (fun p => decide (p.take (n :: outShape).length = j :: rest)) =
            if i = j then (points inner).map (j :: rest ++ ·) else [] := by
        intro i
        have hhead : ((fun p => decide (p.take (n :: outShape).length = j :: rest)) ∘ (i :: ·)) =
            fun q : List Nat => decide (i = j) && decide (q.take outShape.length = rest) := by
          funext q
          simp
        rw [List.filter_map, hhead]
        by_cases he : i = j
        · simp only [he, decide_true, Bool.true_and, ↓reduceIte, ih hrest, List.map_map]
          rfl
        · simp [he]
      rw [List.cons_append, points, List.filter_flatMap]
      simp only [hblock]
      exact flatMap_ite_eq List.nodup_range (List.mem_range.2 hj)

/-- Among the points of the loops, those that end in one position run over the outer box. -/
theorem filter_points_drop {z : List Nat} (hz : InBounds outShape z) :
    (points (inner ++ outShape)).filter (fun p => p.drop inner.length = z) =
      (points inner).map (· ++ z) := by
  induction inner with
  | nil =>
      have hone : (points (outShape ++ [])).filter (fun p => p.take outShape.length = z) =
          (points []).map (z ++ ·) := filter_points_append hz
      rw [List.append_nil] at hone
      refine (List.filter_congr fun p hp => ?_).trans (hone.trans (by simp [points]))
      have hlen : p.length = outShape.length := (mem_points.1 hp).length_eq
      rw [List.length_nil, List.drop_zero, List.take_of_length_le (Nat.le_of_eq hlen)]
  | cons n inner ih =>
      rw [List.cons_append, points, points, List.filter_flatMap, List.map_flatMap]
      refine List.flatMap_congr fun i _ => ?_
      rw [List.filter_map, List.map_map]
      have hhead : ((fun p => decide (p.drop (n :: inner).length = z)) ∘ (i :: ·)) =
          fun q : List Nat => decide (q.drop inner.length = z) := rfl
      rw [hhead, ih, List.map_map]
      rfl

/-- Among the points of the loops, those that begin and end in one position of the output run over
the box between. -/
theorem filter_points_between {A C x z : List Nat} (inner : List Nat) (hx : InBounds A x)
    (hz : InBounds C z) :
    (points (A ++ (inner ++ C))).filter
        (fun p => p.take A.length ++ p.drop (A.length + inner.length) = x ++ z) =
      (points inner).map fun k => x ++ (k ++ z) := by
  have hsplit : (points (A ++ (inner ++ C))).filter
      (fun p => p.take A.length ++ p.drop (A.length + inner.length) = x ++ z) =
        ((points (A ++ (inner ++ C))).filter fun p => p.take A.length = x).filter
          fun p => p.drop (A.length + inner.length) = z := by
    rw [List.filter_filter]
    refine List.filter_congr fun p hp => ?_
    have hlen := (mem_points.1 hp).length_eq
    rw [List.length_append] at hlen
    have htake : (p.take A.length).length = x.length := by
      rw [List.length_take, hx.length_eq]
      omega
    rw [← Bool.decide_and]
    refine decide_eq_decide.2 ⟨fun h => ?_, fun h => by rw [h.1, h.2]⟩
    obtain ⟨hfirst, hlast⟩ := List.append_inj h htake
    exact ⟨hlast, hfirst⟩
  rw [hsplit, filter_points_append hx, List.filter_map]
  have hdrop : ((fun p => decide (p.drop (A.length + inner.length) = z)) ∘ (x ++ ·)) =
      fun q : List Nat => decide (q.drop inner.length = z) := by
    funext q
    rw [Function.comp_apply, ← hx.length_eq, List.drop_length_add_append]
  rw [hdrop, filter_points_drop hz, List.map_map]
  rfl

/-- A reduction whose outer loops run over the output adds, to each element, the terms of the inner
loops. -/
theorem reduce_outer_eq_ok {ix : Indexing} (combine : Combine) (zs : Binary64 × Binary64)
    {lhs rhs init : NdArray Binary64}
    (h : Routes ix (init.shape ++ inner) lhs.shape rhs.shape init.shape l r o)
    (ho : ∀ p, InBounds (init.shape ++ inner) p → o p = p.take init.shape.length) :
    ∃ out, reduce ix combine lhs rhs zs init = .ok out ∧ out.shape = init.shape ∧
      ∀ jx, InBounds init.shape jx → out.entry jx =
        addTerms (fun k => term combine zs (lhs.entry (l (jx ++ k))) (rhs.entry (r (jx ++ k))))
          (points inner) (init.entry jx) := by
  obtain ⟨out, hrun, hshape, hentry⟩ := reduce_eq_ok combine zs h
  refine ⟨out, hrun, hshape, fun jx hjx => ?_⟩
  have hfilter : (points (init.shape ++ inner)).filter (fun p => o p = jx) =
      (points (init.shape ++ inner)).filter fun p => p.take init.shape.length = jx := by
    refine List.filter_congr fun p hp => ?_
    rw [ho p (mem_points.1 hp)]
  rw [hentry jx hjx, hfilter, filter_points_append hjx]
  simp only [addTerms, List.foldl_map]

/-- Terms that agree at every point have the same sum. -/
theorem addTerms_congr {term term' : List Nat → Binary64} {ps : List (List Nat)} {x : Binary64}
    (h : ∀ p ∈ ps, term p = term' p) : addTerms term ps x = addTerms term' ps x := by
  unfold addTerms
  induction ps generalizing x with
  | nil => rfl
  | cons p ps ih =>
      rw [List.foldl_cons, List.foldl_cons, h p (by simp)]
      exact ih fun q hq => h q (by simp [hq])

theorem addTerms_map {term : List Nat → Binary64} {f : List Nat → List Nat} {ps : List (List Nat)}
    {x : Binary64} : addTerms term (ps.map f) x = addTerms (fun p => term (f p)) ps x :=
  List.foldl_map

theorem points_singleton (n : Nat) : points [n] = (List.range n).map ([·]) := by
  simp [points, List.map_eq_flatMap]

/-! ## Plain loops -/

section Projections

variable {p dims : List Nat}

/-- The first places. -/
theorem select_range {n : Nat} {entries : List Nat} (h : n ≤ entries.length) :
    select (List.range n) entries = entries.take n := by
  refine List.ext_getElem (by simp [select, h]) fun i hi hi' => ?_
  have hlt : i < n := by simpa [select] using hi
  have hlt' : i < entries.length := by omega
  simp [select, hlt']

/-- Consecutive places. -/
theorem select_range' {first count : Nat} {A B C : List Nat} (hfirst : first = A.length)
    (hcount : count = B.length) : select (List.range' first count) (A ++ B ++ C) = B := by
  subst hfirst hcount
  exact map_getD_range' 0

/-- A map of plain loop variables selects coordinates. -/
theorem eval?_projection (hdims : ∀ d ∈ dims, d < p.length) (numDims : Nat) :
    (AffineMap.mk numDims (dims.map .dim)).eval? (p.map Int.ofNat) =
      some ((select dims p).map Int.ofNat) := by
  rw [AffineMap.eval?]
  induction dims with
  | nil => rfl
  | cons d dims ih =>
      have hd := hdims d (by simp)
      rw [List.map_cons, List.mapM_cons, ih fun d' hd' => hdims d' (by simp [hd'])]
      simp [AffineExpr.eval?, hd, select]

theorem addresses_projection (hdims : ∀ d ∈ dims, d < bounds.length) (numDims : Nat) :
    Addresses bounds ⟨numDims, dims.map .dim⟩ (select dims bounds) := by
  rw [Addresses, select, List.forall₂_map_left_iff, List.forall₂_map_right_iff, List.forall₂_same]
  intro d hd d' hd'
  cases hd'
  have hlt := hdims d hd
  simp [hlt]

/-- Loops over plain variables that run have the sizes of all arrays as their bounds. -/
theorem exists_bounds {lhs rhs out : List Nat} {iterators : List IteratorKind} {combine : Combine}
    {a b c sums : NdArray Numeric.Binary64} {zs : Numeric.Binary64 × Numeric.Binary64}
    (h : reduce (.projections lhs rhs out iterators) combine a b zs c = .ok sums) :
    ∃ bounds : List Nat, lhs.map (bounds[·]?) = a.shape.map some ∧
      rhs.map (bounds[·]?) = b.shape.map some ∧ out.map (bounds[·]?) = c.shape.map some := by
  have hmap : ∀ {bounds dims shape : List Nat} {numDims : Nat},
      Addresses bounds ⟨numDims, dims.map .dim⟩ shape →
        dims.map (bounds[·]?) = shape.map some := by
    intro bounds dims shape numDims haddresses
    refine List.forall₂_eq_eq_eq ▸ List.forall₂_map_left_iff.2 (List.forall₂_map_right_iff.2 ?_)
    exact (List.forall₂_map_left_iff.1 haddresses).imp fun d n hd => hd d rfl
  obtain ⟨bounds, haddresses⟩ := exists_addresses rfl h
  obtain ⟨hlhs, haddresses⟩ := List.forall₂_cons.1 haddresses
  obtain ⟨hrhs, haddresses⟩ := List.forall₂_cons.1 haddresses
  obtain ⟨hout, -⟩ := List.forall₂_cons.1 haddresses
  exact ⟨bounds, hmap hlhs, hmap hrhs, hmap hout⟩

/-- Loops over plain variables route every point. -/
theorem routes_projections {lhs rhs out : List Nat} {iterators : List IteratorKind}
    (hlen : bounds.length = iterators.length) (hl : ∀ d ∈ lhs, d < bounds.length)
    (hr : ∀ d ∈ rhs, d < bounds.length) (ho : ∀ d ∈ out, d < bounds.length)
    (hcover : ∀ d < bounds.length, d ∈ lhs ∨ d ∈ rhs ∨ d ∈ out) :
    Routes (.projections lhs rhs out iterators) bounds (select lhs bounds) (select rhs bounds)
      (select out bounds) (select lhs) (select rhs) (select out) where
  length := hlen
  addresses := .cons (addresses_projection hl _)
    (.cons (addresses_projection hr _) (.cons (addresses_projection ho _) .nil))
  cover := by
    intro d hd
    have hmem := hcover d (hlen ▸ hd)
    simpa [Indexing.projections, Indexing.ofResults] using hmem
  mapped := by
    intro p hp
    have hbound : ∀ {dims : List Nat}, (∀ d ∈ dims, d < bounds.length) → ∀ d ∈ dims, d < p.length :=
      fun h d hd => hp.length_eq ▸ h d hd
    simp only [mapped?, Indexing.projections, Indexing.ofResults, List.map_cons, List.map_nil,
      eval?_projection (hbound hl), eval?_projection (hbound hr), eval?_projection (hbound ho)]
  lhs := fun p hp => inBounds_select hp hl
  rhs := fun p hp => inBounds_select hp hr
  out := fun p hp => inBounds_select hp ho

end Projections

end TensorLowering.NdArray
