import Mathlib.Algebra.BigOperators.Group.Finset.Sigma
import Mathlib.Algebra.BigOperators.Ring.Finset
import TensorLowering.Proofs.NdArray.Axes
import TensorLowering.Proofs.NdArray.Mirrors
import TensorLowering.Proofs.NdArray.Stretching

/-!
# Sums over boxes and along axes

The positions of a box as a finite set: sums over it do not depend on the order in which the
positions are visited. Summing along axes, one after the other, leaves each of them with size one.
Main statement: what is summed up at a position are the entries at all positions that differ from it
on these axes only.
-/
namespace TensorLowering.NdArray

/-! ## Boxes -/

section Boxes

variable {n : Nat} {shape : List Nat}

theorem nodup_points (shape : List Nat) : (points shape).Nodup := by
  induction shape with
  | nil => exact List.nodup_singleton _
  | cons n shape ih =>
      refine List.nodup_flatMap.2 ⟨fun i _ => ih.map (List.cons_injective), ?_⟩
      refine List.nodup_range.imp fun {i j} hne p hi hj => ?_
      obtain ⟨p, -, rfl⟩ := List.mem_map.1 hi
      obtain ⟨q, -, hq⟩ := List.mem_map.1 hj
      exact hne (List.cons.inj hq).1.symm

/-- The positions of a box. -/
def box (shape : List Nat) : Finset (List Nat) := (points shape).toFinset

@[simp] theorem mem_box {ix : List Nat} : ix ∈ box shape ↔ InBounds shape ix := by
  rw [box, List.mem_toFinset, mem_points]

theorem sum_points (f : List Nat → Int) : ((points shape).map f).sum = ∑ p ∈ box shape, f p :=
  (List.sum_toFinset f (nodup_points shape)).symm

theorem sum_map_range (f : Nat → Int) (n : Nat) :
    ((List.range n).map f).sum = ∑ i ∈ Finset.range n, f i := by
  have hrange : (List.range n).toFinset = Finset.range n := by
    ext i
    simp
  rw [← hrange, List.sum_toFinset f List.nodup_range]

theorem sum_points_cons (f : List Nat → Int) :
    ((points (n :: shape)).map f).sum = ∑ i ∈ Finset.range n, ∑ p ∈ box shape, f (i :: p) := by
  have hblock : ∀ is : List Nat,
      ((is.flatMap fun i => (points shape).map (i :: ·)).map f).sum =
        (is.map fun i => ∑ p ∈ box shape, f (i :: p)).sum := by
    intro is
    induction is with
    | nil => rfl
    | cons i is ih =>
        rw [List.flatMap_cons, List.map_append, List.sum_append, ih, List.map_map, List.map_cons,
          List.sum_cons, ← sum_points]
        rfl
  rw [points, hblock, sum_map_range]

/-- Reversing a box visits the same positions. -/
theorem sum_mirrored (f : List Nat → Int) :
    ∑ k ∈ box shape, f (mirrored shape k) = ∑ k ∈ box shape, f k := by
  refine Finset.sum_nbij' (mirrored shape) (mirrored shape) ?_ ?_ ?_ ?_ fun _ _ => rfl
  · exact fun k hk => mem_box.2 (inBounds_mirrored (mem_box.1 hk))
  · exact fun k hk => mem_box.2 (inBounds_mirrored (mem_box.1 hk))
  · exact fun k hk => mirrored_mirrored (mem_box.1 hk)
  · exact fun k hk => mirrored_mirrored (mem_box.1 hk)

/-- Where at most one position is met, the sum is its term. -/
theorem sum_filter_eq_elim {met : List Nat → Prop} [DecidablePred met]
    {found : Option (List Nat)} {f : List Nat → Int}
    (h : ∀ i, found = some i ↔ InBounds shape i ∧ met i) :
    ∑ i ∈ (box shape).filter met, f i = found.elim 0 f := by
  cases found with
  | none =>
      refine Finset.sum_eq_zero fun i hi => ?_
      obtain ⟨hin, hmet⟩ := Finset.mem_filter.1 hi
      cases (h i).2 ⟨mem_box.1 hin, hmet⟩
  | some j =>
      have hj := (h j).1 rfl
      refine Finset.sum_eq_single_of_mem j (Finset.mem_filter.2 ⟨mem_box.2 hj.1, hj.2⟩) ?_
      intro i hi hne
      obtain ⟨hin, hmet⟩ := Finset.mem_filter.1 hi
      exact absurd (Option.some.inj ((h i).2 ⟨mem_box.1 hin, hmet⟩)).symm hne

end Boxes

/-! ## Axes -/

variable {axes axes' sizes p q : List Nat} {a u k n : Nat} {F G : List Nat → Int}

/-- The shape with size one on some axes. -/
def flattened (axes sizes : List Nat) : List Nat := axes.foldl (fun sizes a => sizes.set a 1) sizes

/-- The sum along one axis. -/
def axisSum (sizes : List Nat) (a : Nat) (F : List Nat → Int) (p : List Nat) : Int :=
  ∑ i ∈ Finset.range (sizes.getD a 0), F (p.set a i)

/-- The sum along several axes, one after the other. -/
def axesSum : (axes sizes : List Nat) → (List Nat → Int) → List Nat → Int
  | [], _, F => F
  | a :: axes, sizes, F => axesSum axes (sizes.set a 1) (axisSum sizes a F)

@[simp] theorem length_flattened (axes sizes : List Nat) :
    (flattened axes sizes).length = sizes.length := by
  induction axes generalizing sizes with
  | nil => rfl
  | cons a axes ih => exact (ih _).trans (List.length_set ..)

theorem getElem?_flattened (axes sizes : List Nat) (i : Nat) :
    (flattened axes sizes)[i]? = if i ∈ axes ∧ i < sizes.length then some 1 else sizes[i]? := by
  induction axes generalizing sizes with
  | nil => simp [flattened]
  | cons a axes ih =>
      refine (ih (sizes.set a 1)).trans ?_
      rw [List.length_set, List.getElem?_set]
      by_cases hi : i < sizes.length
      · by_cases ha : a = i
        · simp [ha, hi]
        · have ha' : i ≠ a := Ne.symm ha
          simp [ha, ha', hi]
      · by_cases ha : a = i
        · simp [ha, hi]
        · simp [ha, hi]

theorem flattened_congr (h : ∀ a, a ∈ axes ↔ a ∈ axes') (sizes : List Nat) :
    flattened axes sizes = flattened axes' sizes := by
  refine List.ext_getElem? fun i => ?_
  rw [getElem?_flattened, getElem?_flattened]
  simp only [h i]

theorem flattened_set (h : u ∉ axes) (n : Nat) :
    flattened axes (sizes.set u n) = (flattened axes sizes).set u n := by
  refine List.ext_getElem? fun i => ?_
  rw [getElem?_flattened, List.getElem?_set, List.getElem?_set, getElem?_flattened,
    length_flattened, List.length_set]
  grind

/-- Summing axes that the other shape lacks. -/
theorem Common.flattened {A B : List Nat} (h : Common (A.zip B) sizes)
    (hlen : A.length = B.length) (hone : ∀ a ∈ axes, B[a]? = some 1) :
    Common ((NdArray.flattened axes A).zip B) (NdArray.flattened axes sizes) := by
  induction axes generalizing A sizes with
  | nil => exact h
  | cons a axes ih =>
      have hset := h.set_one hlen a
      have hself : B.set a 1 = B := by
        obtain ⟨ha, hget⟩ := List.getElem?_eq_some_iff.1 (hone a (by simp))
        rw [← hget, List.set_getElem_self]
      rw [hself] at hset
      exact ih hset (by rw [List.length_set, hlen]) fun b hb => hone b (by simp [hb])

theorem Within.flattened {A B : List Nat} (h : Within A B) (axes : List Nat) :
    Within (flattened axes A) B := by
  induction axes generalizing A with
  | nil => exact h
  | cons a axes ih => exact ih (h.set_one a)

theorem without_flattened (axes sizes : List Nat) :
    without axes (flattened axes sizes) = without axes sizes := by
  refine (without_eq_iff (length_flattened axes sizes)).2 fun i hi => ?_
  rw [getElem?_flattened, if_neg fun h => hi h.1]

/-- A position is at zero on the axes with size one. -/
theorem InBounds.getElem?_flattened (h : InBounds (flattened axes sizes) p) (ha : a ∈ axes)
    (hlt : a < sizes.length) : p[a]? = some 0 := by
  obtain ⟨i, hi, hi0⟩ := h.getElem?_lt (n := 1) (a := a) (by
    rw [NdArray.getElem?_flattened, if_pos ⟨ha, hlt⟩])
  rw [hi, Nat.lt_one_iff.1 hi0]

/-- A position moved from zero along an axis. -/
theorem InBounds.set_forth (h : InBounds (sizes.set a 1) q) (ha : a < sizes.length) {i : Nat}
    (hi : i < sizes.getD a 0) : InBounds sizes (q.set a i) := by
  have hmoved := h.set (a := a) hi
  rwa [List.set_set, List.getD_eq_getElem?_getD, List.getElem?_eq_getElem ha, Option.getD_some,
    List.set_getElem_self] at hmoved

/-- Moving forth and back along an axis. -/
theorem InBounds.set_set (h : InBounds (sizes.set a 1) q) (ha : a < sizes.length) (i : Nat) :
    (q.set a i).set a 0 = q ∧ (q.set a i).getD a 0 = i := by
  obtain ⟨j, hj, hj0⟩ := h.getElem?_lt (List.getElem?_set_self ha)
  obtain rfl := Nat.lt_one_iff.1 hj0
  obtain ⟨ha', hqa⟩ := List.getElem?_eq_some_iff.1 hj
  constructor
  · rw [List.set_set, ← hqa, List.set_getElem_self]
  · rw [List.getD_eq_getElem?_getD, List.getElem?_set_self ha', Option.getD_some]

/-- Moving back and forth along an axis. -/
theorem InBounds.set_back (h : InBounds sizes q) (ha : a < sizes.length) :
    InBounds (sizes.set a 1) (q.set a 0) ∧ q.getD a 0 < sizes.getD a 0 ∧
      (q.set a 0).set a (q.getD a 0) = q := by
  have hlen := h.length_eq
  obtain ⟨i, hi, hlt⟩ := h.getElem?_lt (List.getElem?_eq_getElem ha)
  refine ⟨h.set Nat.one_pos, ?_, ?_⟩
  · rw [List.getD_eq_getElem?_getD, List.getD_eq_getElem?_getD, hi, List.getElem?_eq_getElem ha]
    exact hlt
  · rw [List.set_set, List.getD_eq_getElem?_getD, hi]
    obtain ⟨ha', rfl⟩ := List.getElem?_eq_some_iff.1 hi
    exact List.set_getElem_self ha'

theorem without_set (ha : a ∈ axes) (p : List Nat) (i : Nat) :
    without axes (p.set a i) = without axes p := by
  refine (without_eq_iff (List.length_set ..)).2 fun b hb => ?_
  have hne : a ≠ b := fun hab => hb (hab ▸ ha)
  rw [List.getElem?_set_ne hne]

theorem without_mono (hlen : q.length = p.length) (hsub : axes ⊆ axes')
    (h : without axes q = without axes p) : without axes' q = without axes' p :=
  (without_eq_iff hlen).2 fun i hi => (without_eq_iff hlen).1 h i fun hmem => hi (hsub hmem)

/-- What is summed up: the entries at the positions that differ on the given axes only. -/
theorem axesSum_eq (haxes : ∀ a ∈ axes, a < sizes.length) (hp : InBounds (flattened axes sizes) p) :
    axesSum axes sizes F p =
      ∑ q ∈ (box sizes).filter (fun q => without axes q = without axes p), F q := by
  induction axes generalizing sizes F with
  | nil =>
      simp only [without_nil, Finset.filter_eq', mem_box]
      rw [if_pos (show InBounds sizes p from hp), Finset.sum_singleton]
      rfl
  | cons a axes ih =>
      have ha : a < sizes.length := haxes a (by simp)
      have haxes' : ∀ b ∈ axes, b < (sizes.set a 1).length := fun b hb => by
        rw [List.length_set]
        exact haxes b (by simp [hb])
      have hlen : p.length = sizes.length := by rw [hp.length_eq, length_flattened]
      have hzero : p[a]? = some 0 := hp.getElem?_flattened (by simp) ha
      refine (ih haxes' hp).trans ?_
      simp only [axisSum]
      rw [Finset.sum_sigma']
      refine Finset.sum_bij' (fun e _ => e.1.set a e.2) (fun q _ => ⟨q.set a 0, q.getD a 0⟩)
        ?_ ?_ ?_ ?_ fun _ _ => rfl
      · rintro ⟨q, i⟩ he
        obtain ⟨hq, hi⟩ := Finset.mem_sigma.1 he
        obtain ⟨hin, hsame⟩ := Finset.mem_filter.1 hq
        have hmoved := (mem_box.1 hin).set_forth ha (Finset.mem_range.1 hi)
        refine Finset.mem_filter.2 ⟨mem_box.2 hmoved, ?_⟩
        rw [without_set (by simp)]
        exact without_mono (by rw [(mem_box.1 hin).length_eq, List.length_set, hlen])
          (List.subset_cons_self a axes) hsame
      · intro q hq
        obtain ⟨hin, hsame⟩ := Finset.mem_filter.1 hq
        obtain ⟨hback, hlt, -⟩ := (mem_box.1 hin).set_back ha
        refine Finset.mem_sigma.2 ⟨Finset.mem_filter.2 ⟨mem_box.2 hback, ?_⟩,
          Finset.mem_range.2 hlt⟩
        have hlen' : q.length = p.length := by rw [(mem_box.1 hin).length_eq, hlen]
        refine (without_eq_iff (by rw [List.length_set, hlen'])).2 fun i hi => ?_
        rw [List.getElem?_set]
        split
        next hai =>
          subst hai
          rw [if_pos (hlen' ▸ hlen ▸ ha), hzero]
        next hai =>
          refine (without_eq_iff hlen').1 hsame i fun hmem => ?_
          rcases List.mem_cons.1 hmem with hia | hmem
          · exact hai hia.symm
          · exact hi hmem
      · rintro ⟨q, i⟩ he
        obtain ⟨hself, hi⟩ :=
          (mem_box.1 (Finset.mem_filter.1 (Finset.mem_sigma.1 he).1).1).set_set ha i
        simp only [hself, hi]
      · intro q hq
        exact ((mem_box.1 (Finset.mem_filter.1 hq).1).set_back ha).2.2

/-! ## Factors and single positions -/

theorem axesSum_congr (h : ∀ q, q.length = p.length → F q = G q) :
    axesSum axes sizes F p = axesSum axes sizes G p := by
  induction axes generalizing sizes F G with
  | nil => exact h p rfl
  | cons a axes ih =>
      refine ih fun q hq => ?_
      exact Finset.sum_congr rfl fun i _ => h _ (by rw [List.length_set, hq])

/-- A factor that does not change along the axes can be multiplied in before they are summed. -/
theorem axesSum_mul (hG : ∀ a ∈ axes, ∀ q i, q.length = p.length → G (q.set a i) = G q) :
    axesSum axes sizes (fun q => F q * G q) p = axesSum axes sizes F p * G p := by
  induction axes generalizing sizes F with
  | nil => rfl
  | cons a axes ih =>
      have hfirst : ∀ q : List Nat, q.length = p.length →
          axisSum sizes a (fun q => F q * G q) q = axisSum sizes a F q * G q := by
        intro q hq
        rw [axisSum, axisSum, Finset.sum_mul]
        exact Finset.sum_congr rfl fun i _ => by rw [hG a (by simp) q i hq]
      rw [axesSum, axesSum, axesSum_congr hfirst]
      exact ih fun b hb => hG b (by simp [hb])

theorem axesSum_append (axes axes' sizes : List Nat) (F : List Nat → Int) :
    axesSum (axes ++ axes') sizes F =
      axesSum axes' (flattened axes sizes) (axesSum axes sizes F) := by
  induction axes generalizing sizes F with
  | nil => rfl
  | cons a axes ih => exact ih (sizes.set a 1) (axisSum sizes a F)

/-- Summing at a single position of another axis. -/
theorem axesSum_at (hu : u ∉ axes) (n k : Nat) (p : List Nat) :
    axesSum axes (sizes.set u n) (fun q => F (q.set u k)) p = axesSum axes sizes F (p.set u k) := by
  induction axes generalizing sizes F with
  | nil => rfl
  | cons a axes ih =>
      have hne : u ≠ a := fun hua => hu (hua ▸ List.mem_cons_self)
      have hsize : (sizes.set u n).getD a 0 = sizes.getD a 0 := by
        rw [List.getD_eq_getElem?_getD, List.getElem?_set_ne hne, List.getD_eq_getElem?_getD]
      have hfirst : axisSum (sizes.set u n) a (fun q => F (q.set u k)) =
          fun q => axisSum sizes a F (q.set u k) := by
        funext q
        simp only [axisSum, hsize]
        exact Finset.sum_congr rfl fun i _ => congrArg F (List.set_comm _ _ hne.symm)
      rw [axesSum, hfirst, List.set_comm _ _ hne]
      exact ih fun hmem => hu (by simp [hmem])

end TensorLowering.NdArray
