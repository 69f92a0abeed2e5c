import TensorLowering.Proofs.NdArray.Tensors

/-!
# Folding and splitting axes

Groups of axes are folded into one axis each and split again. The sizes before and after have the
same volume, and a range of axes within the rank makes valid groups. Main statement: a folded shape
has as many elements, and a tensor that is folded and split again is the same tensor.
-/
namespace TensorLowering

open NdArray

namespace Dim

theorem mul_assoc (a b c : Dim) : (a.mul b).mul c = a.mul (b.mul c) := by
  cases a <;> cases b <;> cases c <;> simp [mul, Nat.mul_assoc]

theorem one_mul (d : Dim) : (static 1).mul d = d := by cases d <;> simp [mul]

theorem isStatic_mul (a b : Dim) : (a.mul b).isStatic = (a.isStatic && b.isStatic) := by
  cases a <;> cases b <;> rfl

theorem prod_cons (d : Dim) (ds : List Dim) : prod (d :: ds) = d.mul (prod ds) := by
  have hfold : ∀ (ds : List Dim) (a : Dim), ds.foldl mul a = a.mul (prod ds) := by
    intro ds
    induction ds with
    | nil => intro a; cases a <;> simp [prod, mul]
    | cons e ds ih =>
        intro a
        rw [prod, List.foldl_cons, List.foldl_cons, ih, ih, one_mul, mul_assoc]
  rw [prod, List.foldl_cons, one_mul, hfold]

theorem prod_append (ds es : List Dim) : prod (ds ++ es) = (prod ds).mul (prod es) := by
  induction ds with
  | nil => exact (one_mul _).symm
  | cons d ds ih => rw [List.cons_append, prod_cons, prod_cons, ih, mul_assoc]

theorem prod_flatten (groups : List (List Dim)) :
    prod groups.flatten = prod (groups.map prod) := by
  induction groups with
  | nil => rfl
  | cons ds groups ih => rw [List.flatten_cons, prod_append, ih, List.map_cons, prod_cons]

theorem isStatic_prod (ds : List Dim) : (prod ds).isStatic = ds.all isStatic := by
  induction ds with
  | nil => rfl
  | cons d ds ih => rw [prod_cons, isStatic_mul, ih, List.all_cons]

theorem prod_static (ns : List Nat) : prod (ns.map static) = static (volume ns) := by
  induction ns with
  | nil => rfl
  | cons n ns ih => rw [List.map_cons, prod_cons, ih]; rfl

theorem exists_static {d : Dim} (h : d.isStatic = true) : ∃ n, d = static n := by
  cases d with
  | static n => exact ⟨n, rfl⟩
  | dynamic => cases h

end Dim

namespace Reassociation

/-- The sizes with each group of axes folded into one. -/
def collapsedSizes (r : Reassociation) (shape : List Nat) : List Nat :=
  r.groups.map fun g => volume (g.map fun axis => shape.getD axis 1)

theorem flatten_singletons (axes : List Nat) : (singletons axes).flatten = axes := by
  induction axes with
  | nil => rfl
  | cons a axes ih => exact congrArg (a :: ·) ih

theorem ne_nil_of_mem_groupsFrom {rank start stop steps axis : Nat} {g : List Nat}
    (hg : g ∈ groupsFrom rank start stop steps axis) : g ≠ [] := by
  induction steps generalizing axis with
  | zero => cases hg
  | succ steps ih =>
      rw [groupsFrom] at hg
      split at hg
      next => cases hg
      next =>
        split at hg
        next hrange =>
          rcases List.mem_cons.1 hg with rfl | hg
          · rw [Ne, List.range'_eq_nil_iff]
            omega
          · exact ih hg
        next =>
          rcases List.mem_cons.1 hg with rfl | hg
          · exact List.cons_ne_nil _ _
          · exact ih hg

/-- A range is folded as a whole, also where it goes on past the last axis. -/
theorem flatten_foldRange (rank start stop : Nat) : (foldRange rank start stop).groups.flatten =
    List.range (if start < rank ∧ start < stop then max rank stop else rank) := by
  rw [foldRange_eq]
  split
  next h =>
    have hcount : start + (stop - start) + (rank - stop) = max rank stop := by omega
    calc
      _ = List.range' 0 start ++ List.range' start (stop - start) ++
          List.range' stop (rank - stop) := by
        rw [List.flatten_append, List.flatten_append, flatten_singletons, flatten_singletons,
          List.flatten_singleton, List.range_eq_range']
      _ = List.range' 0 start ++ List.range' (0 + start) (stop - start) ++
          List.range' (0 + (start + (stop - start))) (rank - stop) := by
        rw [Nat.zero_add, Nat.zero_add, Nat.add_sub_cancel' (Nat.le_of_lt h.2)]
      _ = List.range (max rank stop) := by
        rw [List.range'_append_1, List.range'_append_1, hcount, List.range_eq_range']
  next => exact flatten_singletons _

/-- A range that is folded ends at the last axis or before, or there is nothing to fold. -/
theorem check_foldRange {rank start stop : Nat} :
    (foldRange rank start stop).check rank = .ok () ↔
      stop ≤ rank ∨ rank ≤ start ∨ stop ≤ start := by
  have hne : ∀ g ∈ (foldRange rank start stop).groups, g ≠ [] :=
    fun _ hg => ne_nil_of_mem_groupsFrom hg
  have hflat := flatten_foldRange rank start stop
  rw [check_eq_ok, IsValid, hflat]
  split
  next h =>
    have hgroups : (foldRange rank start stop).groups ≠ [] := by
      intro hnil
      rw [hnil, if_pos h, List.flatten_nil, eq_comm, List.range_eq_nil] at hflat
      omega
    have hrange : List.range (max rank stop) = List.range rank ↔ max rank stop = rank :=
      ⟨fun heq => by simpa only [List.length_range] using congrArg List.length heq,
        congrArg List.range⟩
    rw [or_iff_right hgroups, hrange, and_iff_left hne]
    omega
  next h => exact iff_of_true (.inr ⟨rfl, hne⟩) (by omega)

section Valid

variable {r : Reassociation} {rank : Nat}

/-- The groups of a valid reassociation, if it has any, take the entries of a list in order. -/
theorem IsValid.flatten_map {α : Type} {xs : List α} (h : r.IsValid xs.length)
    (hgroups : r.groups ≠ []) (d : α) :
    (r.groups.map fun g => g.map fun a => xs.getD a d).flatten = xs := by
  have hflat := (h.resolve_left hgroups).1
  have hentries : (List.range' ([] : List α).length xs.length).map (([] ++ xs ++ []).getD · d) =
      xs := map_getD_range' d
  rw [← List.map_flatten, hflat, List.range_eq_range']
  simpa using hentries

theorem volume_collapsedSizes {shape : List Nat} (h : r.IsValid shape.length)
    (hone : r.groups = [] → volume shape = 1) :
    volume (r.collapsedSizes shape) = volume shape := by
  by_cases hgroups : r.groups = []
  · rw [collapsedSizes, hgroups, hone hgroups]
    rfl
  · have hvolume := volume_flatten (r.groups.map fun g => g.map fun a => shape.getD a 1)
    rw [h.flatten_map hgroups, List.map_map] at hvolume
    exact hvolume.symm

theorem not_tooLarge_collapsedSizes {shape : List Nat} (h : r.IsValid shape.length)
    (hfit : ¬ TooLarge shape) : ¬ TooLarge (r.collapsedSizes shape) := by
  by_cases hgroups : r.groups = []
  · rw [collapsedSizes, hgroups, List.map_nil]
    decide
  · rw [← h.flatten_map hgroups 1] at hfit
    have hmap := not_tooLarge_map_volume hfit
    rwa [List.map_map] at hmap

theorem collapse_eq_ok {s : Shape} (h : r.IsValid s.rank) :
    r.collapse s =
      .ok ⟨r.groups.map fun g => Dim.prod (g.map fun a => s.dims.getD a .dynamic)⟩ := by
  rw [collapse, check_eq_ok.2 h]
  rfl

end Valid

/-- Groups that list every axis are folded to a static shape, and so is a tensor without axes
left. -/
theorem collapse_ofSizes {r : Reassociation} {shape : List Nat} (h : r.IsValid shape.length) :
    r.collapse (.ofSizes shape) = .ok (.ofSizes (r.collapsedSizes shape)) := by
  have hvalid : r.IsValid (Shape.ofSizes shape).rank := by rwa [Shape.rank_ofSizes]
  have hgroup : ∀ g ∈ r.groups,
      g.map (fun a => (Shape.ofSizes shape).dims.getD a .dynamic) =
        (g.map fun a => shape.getD a 1).map Dim.static := by
    intro g hg
    rw [List.map_map]
    refine List.map_congr_left fun a ha => ?_
    have hlt : a < shape.length := by
      have hmem : a ∈ r.groups.flatten := List.mem_flatten.2 ⟨g, hg, ha⟩
      rw [(h.resolve_left (List.ne_nil_of_mem hg)).1] at hmem
      exact List.mem_range.1 hmem
    simp [Shape.ofSizes, hlt]
  have hdims : r.groups.map (fun g =>
      Dim.prod (g.map fun a => (Shape.ofSizes shape).dims.getD a .dynamic)) =
        (r.collapsedSizes shape).map Dim.static := by
    rw [collapsedSizes, List.map_map]
    refine List.map_congr_left fun g hg => ?_
    rw [hgroup g hg, Dim.prod_static]
    rfl
  rw [collapse_eq_ok hvalid, hdims]
  rfl

/-! ## One range of axes -/

variable {A B C : List Nat}

/-- The folding of the axes in the middle. -/
def middle (A B C : List Nat) : Reassociation :=
  foldRange (A ++ B ++ C).length A.length (A ++ B).length

theorem groups_middle (h : B ≠ []) :
    (middle A B C).groups = singletons (List.range A.length) ++
      [List.range' A.length B.length] ++ singletons (List.range' (A ++ B).length C.length) := by
  have hpos : 0 < B.length := List.length_pos_iff.2 h
  have hrange : A.length < (A ++ B ++ C).length ∧ A.length < (A ++ B).length := by
    simp only [List.length_append]
    omega
  have hrest : (A ++ B ++ C).length - (A ++ B).length = C.length := by
    simp only [List.length_append]
    omega
  have hmid : (A ++ B).length - A.length = B.length := by simp
  rw [middle, foldRange_eq, if_pos hrange, hrest, hmid]

theorem isValid_middle : (middle A B C).IsValid (A ++ B ++ C).length :=
  check_eq_ok.1 (check_foldRange.2 (.inl (by simp)))

theorem collapsedRank_middle (h : B ≠ []) :
    (middle A B C).collapsedRank = (A ++ [volume B] ++ C).length := by
  rw [collapsedRank, groups_middle h]
  simp [singletons]

theorem collapsedSizes_middle (h : B ≠ []) :
    (middle A B C).collapsedSizes (A ++ B ++ C) = A ++ [volume B] ++ C := by
  have hsingle : ∀ axes : List Nat,
      (singletons axes).map (fun g => volume (g.map fun axis => (A ++ B ++ C).getD axis 1)) =
        axes.map ((A ++ B ++ C).getD · 1) := by
    intro axes
    simp [singletons, Function.comp_def]
  have hleft : (List.range A.length).map ((A ++ B ++ C).getD · 1) = A := by
    have hmap : (List.range' ([] : List Nat).length A.length).map
        (([] ++ A ++ (B ++ C)).getD · 1) = A := map_getD_range' 1
    rwa [List.nil_append, ← List.append_assoc, List.length_nil, ← List.range_eq_range'] at hmap
  have hright : (List.range' (A ++ B).length C.length).map ((A ++ B ++ C).getD · 1) = C := by
    have hmap : (List.range' (A ++ B).length C.length).map
        ((A ++ B ++ C ++ []).getD · 1) = C := map_getD_range' 1
    rwa [List.append_nil] at hmap
  have hmid : (List.range' A.length B.length).map ((A ++ B ++ C).getD · 1) = B :=
    map_getD_range' 1
  rw [collapsedSizes, groups_middle h, List.map_append, List.map_append, hsingle, hsingle, hleft,
    hright, List.map_singleton, hmid]

end Reassociation

/-! ## Entries of folded tensors -/

namespace Tensor

variable {t : Tensor} {A B C x y z : List Nat}

/-- Folding axes: an entry is found at the count of its coordinates on them. -/
theorem entry_reshaped_fold (ht : t.shape = A ++ B ++ C) (hx : InBounds A x) (hy : InBounds B y)
    (hz : InBounds C z) :
    (t.reshaped (A ++ [volume B] ++ C)).entry (x ++ [ravel B y] ++ z) = t.entry (x ++ y ++ z) := by
  refine entry_reshaped ?_ ?_ ?_
  · rw [ht]
    exact (hx.append hy).append hz
  · exact (hx.append (inBounds_singleton.2 ⟨_, rfl, ravel_lt hy⟩)).append hz
  · rw [ht]
    exact ravel_fold hx.length_eq hy.length_eq

/-- Splitting an axis: an entry is found at its coordinates on the axes it splits into. -/
theorem entry_reshaped_split (ht : t.shape = A ++ [volume B] ++ C) (hx : InBounds A x)
    (hy : InBounds B y) (hz : InBounds C z) :
    (t.reshaped (A ++ B ++ C)).entry (x ++ y ++ z) = t.entry (x ++ [ravel B y] ++ z) := by
  refine entry_reshaped ?_ ?_ ?_
  · rw [ht]
    exact (hx.append (inBounds_singleton.2 ⟨_, rfl, ravel_lt hy⟩)).append hz
  · exact (hx.append hy).append hz
  · rw [ht]
    exact (ravel_fold hx.length_eq hy.length_eq).symm

end Tensor

/-! ## What foldings keep -/

theorem Shape.exists_numElements? {s : Shape} (h : s.isStatic = true) :
    ∃ n, s.numElements? = some n := by
  obtain ⟨n, hn⟩ := Dim.exists_static ((Dim.isStatic_prod s.dims).trans h)
  exact ⟨n, congrArg Dim.static? hn⟩

namespace Reassociation

variable {r : Reassociation} {s : Shape} {t : Tensor} {supply : Supply} {env : Env} {v : ValueId}

theorem numElements?_collapse {c : Shape} (h : r.IsValid s.rank) (hgroups : r.groups ≠ [])
    (hc : r.collapse s = .ok c) : c.numElements? = s.numElements? := by
  have hprod := Dim.prod_flatten (r.groups.map fun g => g.map fun a => s.dims.getD a .dynamic)
  rw [h.flatten_map hgroups, List.map_map] at hprod
  rw [collapse_eq_ok h] at hc
  cases hc
  exact congrArg Dim.static? hprod.symm

theorem isStatic_group {g : List Nat} :
    (Dim.prod (g.map fun a => s.dims.getD a .dynamic)).isStatic = true ↔
      ∀ axis ∈ g, ∃ n, s.dims[axis]? = some (.static n) := by
  rw [Dim.isStatic_prod, List.all_eq_true, List.forall_mem_map]
  refine forall₂_congr fun axis _ => ?_
  rw [List.getD_eq_getElem?_getD]
  rcases s.dims[axis]? with - | ⟨n⟩ | - <;> simp [Dim.isStatic]

theorem evalNode_collapseShape {shape : Shape} (h : r.IsValid t.shape.length)
    (hvolume : volume (r.collapsedSizes t.shape) = volume t.shape)
    (hfit : ¬ TooLarge (r.collapsedSizes t.shape)) (hv : env.tensor v = .ok t) :
    evalNode supply env ⟨.collapseShape v r, .tensor ⟨t.dtype, shape⟩⟩ =
      .ok (.tensor (t.reshaped (r.collapsedSizes t.shape))) := by
  have hcheck : r.check t.data.rank = .ok () := check_eq_ok.2 h
  simp only [evalNode, hv, hcheck, Bind.bind, Except.bind, Except.mapError]
  exact arrayResult_reshape hvolume hfit

theorem evalNode_expandShape {ids : List ValueId} {sizes : List Nat} {shape : Shape}
    (hvolume : volume sizes = volume t.shape) (hfit : ¬ TooLarge sizes)
    (hv : env.tensor v = .ok t) (hids : env.sizes ids = .ok sizes) :
    evalNode supply env ⟨.expandShape v r ids, .tensor ⟨t.dtype, shape⟩⟩ =
      .ok (.tensor (t.reshaped sizes)) := by
  simp only [evalNode, hv, hids, Bind.bind, Except.bind]
  exact arrayResult_reshape hvolume hfit

/-- Folding axes keeps the elements. A range of axes can be folded exactly when it ends within the
axes or when there is nothing to fold. A folded shape has an axis for each group, which is known
when all sizes of the group are, and as many elements as before. A tensor that is folded, and then
split into the sizes it had, is the same tensor; without groups it can be folded when it has a
single element. -/
theorem folding_keeps_elements :
    (∀ rank start stop, (foldRange rank start stop).check rank = .ok () ↔
      stop ≤ rank ∨ rank ≤ start ∨ stop ≤ start) ∧
    (∀ (r : Reassociation) (s : Shape), r.groups ≠ [] → r.check s.rank = .ok () →
      ∃ c, r.collapse s = .ok c ∧ c.rank = r.groups.length ∧
        (s.isStatic = true → ∃ n, s.numElements? = some n ∧ c.numElements? = some n) ∧
        List.Forall₂ (fun g d => d.isStatic = true ↔
          ∀ axis ∈ g, ∃ n, s.dims[axis]? = some (.static n)) r.groups c.dims) ∧
    ∀ (r : Reassociation) (t : Tensor), r.check t.shape.length = .ok () → ¬ TooLarge t.shape →
      (r.groups = [] → volume t.shape = 1) →
      ∃ c : Tensor, c.dtype = t.dtype ∧ c.shape = r.collapsedSizes t.shape ∧
        (∀ (supply : Supply) (env : Env) v shape, env.tensor v = .ok t →
          evalNode supply env ⟨.collapseShape v r, .tensor ⟨t.dtype, shape⟩⟩ = .ok (.tensor c)) ∧
        ∀ (supply : Supply) (env : Env) w r' ids shape, env.tensor w = .ok c →
          env.sizes ids = .ok t.shape →
          evalNode supply env ⟨.expandShape w r' ids, .tensor ⟨t.dtype, shape⟩⟩ =
            .ok (.tensor t) := by
  refine ⟨fun _ _ _ => check_foldRange, fun r s hgroups hcheck => ?_,
    fun r t hcheck hfit hone => ?_⟩
  · have hvalid := check_eq_ok.1 hcheck
    have hcollapse := collapse_eq_ok hvalid
    have hcount := numElements?_collapse hvalid hgroups hcollapse
    refine ⟨_, hcollapse, List.length_map _, fun hstatic => ?_, ?_⟩
    · obtain ⟨n, hn⟩ := Shape.exists_numElements? hstatic
      exact ⟨n, hn, hcount.trans hn⟩
    · exact List.forall₂_map_right_iff.2 (List.forall₂_same.2 fun g _ => isStatic_group)
  · have hvalid := check_eq_ok.1 hcheck
    have hvolume := volume_collapsedSizes hvalid hone
    refine ⟨t.reshaped (r.collapsedSizes t.shape), rfl, rfl, fun _ _ _ _ hv => ?_,
      fun _ _ _ _ _ _ hw hids => ?_⟩
    · exact evalNode_collapseShape hvalid hvolume (not_tooLarge_collapsedSizes hvalid hfit) hv
    · refine (evalNode_expandShape (t := t.reshaped (r.collapsedSizes t.shape)) hvolume.symm hfit
        hw hids).trans ?_
      rw [t.reshaped_reshaped hvolume]

/-- The elements 0 to 5. -/
def pairs : Tensor := .ofEntries .float32 [3, 1, 2] fun ix => .ofInt (ravel [3, 1, 2] ix)

/-- The elements, and the sizes that they have. -/
def pairsStart : Env :=
  (((Env.empty.insert ⟨0⟩ (.tensor pairs)).insert ⟨1⟩ (.index 3)).insert ⟨2⟩ (.index 1)).insert ⟨3⟩
    (.index 2)

theorem folding_keeps_elements_pairs :
    (foldRange 3 1 3).check 3 = .ok () ∧
    (∃ c, (foldRange 3 1 3).collapse ⟨[.static 3, .dynamic, .static 2]⟩ = .ok c ∧ c.rank = 2) ∧
    ∃ c, evalNode (.ofInputs fun _ => none) pairsStart
        ⟨.collapseShape ⟨0⟩ (foldRange 3 1 3), .tensor ⟨.float32, .ofSizes [3, 2]⟩⟩ =
          .ok (.tensor c) ∧
      evalNode (.ofInputs fun _ => none) (pairsStart.insert ⟨4⟩ (.tensor c))
        ⟨.expandShape ⟨4⟩ (foldRange 3 1 3) [⟨1⟩, ⟨2⟩, ⟨3⟩], .tensor pairs.type⟩ =
          .ok (.tensor pairs) := by
  obtain ⟨hrange, hshape, htensor⟩ := folding_keeps_elements
  obtain ⟨c, hc, hrank, -, -⟩ := hshape (foldRange 3 1 3) ⟨[.static 3, .dynamic, .static 2]⟩
    (by decide) (by decide)
  obtain ⟨d, -, -, hfold, hsplit⟩ := htensor (foldRange 3 1 3) pairs (by decide) (by decide)
    (by decide)
  refine ⟨(hrange 3 1 3).2 (by decide), ⟨c, hc, hrank⟩, d, hfold _ _ _ _ ?_,
    hsplit _ _ _ _ _ _ ?_ ?_⟩
  · simp [pairsStart, Env.tensor, Env.get, Env.get?_insert, Value.toTensor, Bind.bind, Except.bind]
  · simp [Env.tensor, Env.get, Env.get?_insert, Value.toTensor, Bind.bind, Except.bind]
  · simp [pairsStart, Env.sizes, Env.index, Env.get, Env.get?_insert, Bind.bind, Except.bind,
      Pure.pure, Except.pure, pairs]

end Reassociation

end TensorLowering
