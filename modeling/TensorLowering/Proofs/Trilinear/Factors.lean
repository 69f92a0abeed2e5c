import TensorLowering.Proofs.Build.Agreement
import TensorLowering.Proofs.Build.Layouts
import TensorLowering.Proofs.Build.Limits
import TensorLowering.Proofs.Conversion.PlainRules
import TensorLowering.Proofs.NdArray.AxisSums
import TensorLowering.Proofs.Shape.Admission
import TensorLowering.Proofs.Trilinear.Plans

/-!
# Unrolling a trilinear product

The factors of a trilinear product, aligned to one rank. Each step of the unrolled loop multiplies
and sums the slices at one position of the unrolled axis, and adds the result to a part of the
output. Main statement: the nodes that the loop creates compute the output after all of its steps.
-/
namespace TensorLowering

open Numeric NdArray Stage Build

/-- An action on each of three entries. -/
theorem Build.Meets.triple {α β γ : Type} {l : Limits} {s : Stage} {f : α → Build β}
    (pre : α → γ → Stage → Prop) (post : β → γ → Stage → Prop) {xs : Triple α} (cs : Triple γ)
    (hpre : ∀ {x c s s'}, s ≤ s' → pre x c s → pre x c s')
    (hpost : ∀ {y c s s'}, s ≤ s' → post y c s → post y c s')
    (h : ∀ {x c s}, pre x c s → (f x).Meets l s fun y s' => post y c s')
    (hxs : xs.Related (pre · · s) cs) :
    (xs.mapM f).Meets l s fun ys s' => ys.Related (post · · s') cs := by
  unfold Triple.mapM
  refine .bind (h hxs.first) fun y₁ s₁ hle₁ hy₁ => ?_
  refine .bind (h (hpre hle₁ hxs.second)) fun y₂ s₂ hle₂ hy₂ => ?_
  refine .bind (h (hpre (hle₁.trans hle₂) hxs.third)) fun y₃ s₃ hle₃ hy₃ => ?_
  exact .pure ⟨hpost (hle₂.trans hle₃) hy₁, hpost hle₃ hy₂, hy₃⟩

theorem Build.Gives.triple {α β γ : Type} {fails : LowerError → Prop} {s : Stage} {f : α → Build β}
    (pre : α → γ → Stage → Prop) (post : β → γ → Stage → Prop) {xs : Triple α} (cs : Triple γ)
    (hpre : ∀ {x c s s'}, s ≤ s' → pre x c s → pre x c s')
    (hpost : ∀ {y c s s'}, s ≤ s' → post y c s → post y c s')
    (h : ∀ {x c s}, pre x c s → (f x).Gives fails s fun y s' => post y c s')
    (hxs : xs.Related (pre · · s) cs) :
    (xs.mapM f).Gives fails s fun ys s' => ys.Related (post · · s') cs :=
  (Meets.triple (l := .failing fails) pre post cs hpre hpost (fun hx => (h hx).meets fun _ => id)
    hxs).gives

/-- The values hold three tensors. -/
abbrev Stage.HoldsAll (s : Stage) (vs : Triple ValueId) (ts : Triple Tensor) : Prop :=
  vs.Related s.Holds ts

theorem Stage.HoldsAll.mono {s s' : Stage} {vs : Triple ValueId} {ts : Triple Tensor}
    (h : s.HoldsAll vs ts) (hle : s ≤ s') : s'.HoldsAll vs ts :=
  ⟨h.first.mono hle, h.second.mono hle, h.third.mono hle⟩

/-- Factors that are aligned: they have one rank, and sizes that agree where they are not one. -/
structure TrilinearFactors (p : TrilinearPlan) where
  dtype : DType
  tensors : Triple Tensor
  /-- The common sizes of the first two. -/
  pairSizes : List Nat
  sizes : List Nat
  first_rank : tensors.first.shape.length = p.total
  second_rank : tensors.second.shape.length = p.total
  third_rank : tensors.third.shape.length = p.total
  pair_common : Common (tensors.first.shape.zip tensors.second.shape) pairSizes
  common : Common (pairSizes.zip tensors.third.shape) sizes
  third_lacks : ∀ a ∈ p.expand.third, tensors.third.shape[a]? = some 1
  unroll_lt : p.unroll < p.total
  summed_lt : ∀ a ∈ p.summed, a < p.total

namespace TrilinearFactors

variable {p : TrilinearPlan} (f : TrilinearFactors p)

/-- The sizes of the output: one on the summed axes. -/
def kept : List Nat := flattened p.summed f.sizes

/-- The sizes of a step after the axes that the third factor lacks are summed. -/
def stepSizes : List Nat := flattened p.summedEarly (f.sizes.set p.unroll 1)

/-- Where a factor is sliced at a step. Size one along the unrolled axis is its only slice. -/
def start (p : TrilinearPlan) (t : Tensor) (k : Nat) : Nat :=
  if t.shape[p.unroll]? = some 1 then 0 else k

def slices (k : Nat) : Triple Tensor := f.tensors.map fun t => t.slice p.unroll (start p t k)

/-- The product of the first two slices, summed along the axes that the third factor lacks. -/
def pairSum (k : Nat) : Tensor :=
  p.summedEarly.foldl Tensor.summed ((f.slices k).first.combined .mul (f.slices k).second f.dtype
    (f.pairSizes.set p.unroll 1))

/-- What a step adds. -/
def contribution (k : Nat) : Tensor :=
  p.summedLate.foldl Tensor.summed
    ((f.pairSum k).combined .mul (f.slices k).third f.dtype f.stepSizes)

/-- The output after some steps. -/
def output : Nat → Tensor
  | 0 => .ofEntries f.dtype f.kept fun _ => 0
  | k + 1 =>
      if p.unrollIsSummed then (output k).combined .add (f.contribution k) f.dtype f.kept
      else
        let slot := (output k).slice p.unroll k
        (slot.combined .add (f.contribution k) f.dtype (f.kept.set p.unroll 1)).inserted (output k)
          (((List.replicate p.total 0).set p.unroll k).map Int.ofNat) (List.replicate p.total 1)

/-! ## Shapes -/

theorem length_pairSizes : f.pairSizes.length = p.total := by
  rw [f.pair_common.length_eq (f.first_rank.trans f.second_rank.symm), f.second_rank]

theorem length_sizes : f.sizes.length = p.total := by
  rw [f.common.length_eq (f.length_pairSizes.trans f.third_rank.symm), f.third_rank]

theorem shape_foldl_summed (axes : List Nat) (t : Tensor) :
    (axes.foldl Tensor.summed t).shape = flattened axes t.shape := by
  induction axes generalizing t with
  | nil => rfl
  | cons a axes ih => exact ih (t.summed a)

theorem shape_pairSum (k : Nat) :
    (f.pairSum k).shape = flattened p.summedEarly (f.pairSizes.set p.unroll 1) :=
  shape_foldl_summed _ _

theorem mem_summedEarly {a : Nat} :
    a ∈ p.summedEarly ↔ a ∈ p.summed ∧ a ≠ p.unroll ∧ a ∈ p.expand.third := by
  simp only [TrilinearPlan.summedEarly, TrilinearPlan.summedInStep, List.mem_filter,
    List.contains_iff_mem, decide_eq_true_eq, and_assoc, ne_eq]

theorem mem_summedLate {a : Nat} :
    a ∈ p.summedLate ↔ a ∈ p.summed ∧ a ≠ p.unroll ∧ a ∉ p.expand.third := by
  simp only [TrilinearPlan.summedLate, TrilinearPlan.summedInStep, List.mem_filter,
    Bool.not_eq_eq_eq_not, Bool.not_true, List.contains_eq_mem, decide_eq_false_iff_not,
    decide_eq_true_eq, and_assoc, ne_eq]

/-- A step is as large as the output at one position of the unrolled axis. -/
theorem shape_contribution (k : Nat) : (f.contribution k).shape = f.kept.set p.unroll 1 := by
  have hshape : (f.contribution k).shape = flattened p.summedLate f.stepSizes :=
    shape_foldl_summed _ _
  rw [hshape]
  refine List.ext_getElem? fun i => ?_
  rw [stepSizes, kept, getElem?_flattened, getElem?_flattened, List.getElem?_set,
    List.getElem?_set, getElem?_flattened, length_flattened, length_flattened, List.length_set]
  simp only [mem_summedEarly, mem_summedLate]
  grind

theorem shape_output (k : Nat) : (f.output k).shape = f.kept := by
  induction k with
  | zero => rfl
  | succ k ih =>
      rw [output]
      split
      next => rfl
      next => rw [Tensor.shape_inserted, ih]

theorem dtype_output (k : Nat) : (f.output k).dtype = f.dtype := by
  cases k with
  | zero => rfl
  | succ k =>
      rw [output]
      split <;> rfl

/-- The sizes of the factors determine the common ones. -/
theorem sizes_eq {f g : TrilinearFactors p} (h : f.tensors = g.tensors) :
    f.pairSizes = g.pairSizes ∧ f.sizes = g.sizes := by
  have hunique : ∀ {A B C D : List Nat}, A.length = B.length → Common (A.zip B) C →
      Common (A.zip B) D → C = D := fun hlen hC hD =>
    Except.ok.inj (((broadcastShape_iff hlen).2 hC).symm.trans ((broadcastShape_iff hlen).2 hD))
  have hpair : f.pairSizes = g.pairSizes :=
    hunique (f.first_rank.trans f.second_rank.symm) f.pair_common (h ▸ g.pair_common)
  refine ⟨hpair, hunique (f.length_pairSizes.trans f.third_rank.symm) f.common ?_⟩
  rw [h, hpair]
  exact g.common

theorem eq_of_tensors {f g : TrilinearFactors p} (h : f.tensors = g.tensors)
    (hdtype : f.dtype = g.dtype) : f = g := by
  obtain ⟨hpair, hsizes⟩ := sizes_eq h
  cases f
  cases g
  cases h
  cases hdtype
  cases hpair
  cases hsizes
  rfl

/-! ## What is not too large -/

theorem within_pairSizes : Within f.pairSizes f.sizes :=
  (f.common.within (f.length_pairSizes.trans f.third_rank.symm)).1

theorem within_kept : Within f.kept f.sizes := (within_self _).flattened _

theorem within_stepSizes : Within f.stepSizes f.sizes :=
  ((within_self _).set_one _).flattened _

/-! ## The nodes of a step -/

variable {fails : LowerError → Prop} {s : Stage}

theorem foldlM_sum_gives {v : ValueId} {t : Tensor} {axes : List Nat} (hv : s.Holds v t)
    (haxes : ∀ a ∈ axes, a < t.shape.length) :
    (TrilinearPlan.sumAxes v axes).Gives fails s fun v' s' =>
      s'.Holds v' (axes.foldl Tensor.summed t) := by
  unfold TrilinearPlan.sumAxes
  induction axes generalizing s v t with
  | nil => exact .pure hv
  | cons a axes ih =>
      rw [List.foldlM_cons]
      refine Gives.bind (sum_gives hv (haxes a (by simp))) fun v₁ s₁ _ hv₁ => ?_
      refine ih hv₁ fun b hb => ?_
      rw [Tensor.shape_summed, List.length_set]
      exact haxes b (by simp [hb])

/-- The size of a factor along the unrolled axis. -/
theorem getElem?_unroll {t : Tensor} {n : Nat} (ht : t.shape.length = p.total)
    (hwithin : Within t.shape f.sizes) (hn : f.sizes[p.unroll]? = some n) :
    ∃ m, t.shape[p.unroll]? = some m ∧ (m = 1 ∨ m = n) := by
  have hlt : p.unroll < t.shape.length := ht ▸ f.unroll_lt
  refine ⟨t.shape[p.unroll], List.getElem?_eq_getElem hlt, ?_⟩
  rcases hwithin.getElem? (List.getElem?_eq_getElem hlt) with hone | hsame
  · exact .inl hone
  · exact .inr (Option.some.inj (hsame.symm.trans hn))

theorem within_first : Within f.tensors.first.shape f.sizes :=
  (f.pair_common.within (f.first_rank.trans f.second_rank.symm)).1.trans f.within_pairSizes

theorem within_second : Within f.tensors.second.shape f.sizes :=
  (f.pair_common.within (f.first_rank.trans f.second_rank.symm)).2.trans f.within_pairSizes

theorem within_third : Within f.tensors.third.shape f.sizes :=
  (f.common.within (f.length_pairSizes.trans f.third_rank.symm)).2

/-- The values that a step reads: the factors, and whether the unrolled axis is stretched. -/
def Reads (s : Stage) (factors : Triple (ValueId × Bool)) : Prop :=
  factors.Related (fun (x : ValueId × Bool) (t : Tensor) =>
    s.Holds x.1 t ∧ x.2 = decide (t.shape[p.unroll]? = some 1)) f.tensors

theorem Reads.mono {s s' : Stage} {factors : Triple (ValueId × Bool)} (h : f.Reads s factors)
    (hle : s ≤ s') : f.Reads s' factors :=
  ⟨⟨h.first.1.mono hle, h.first.2⟩, ⟨h.second.1.mono hle, h.second.2⟩,
    ⟨h.third.1.mono hle, h.third.2⟩⟩

variable {factors : Triple (ValueId × Bool)} {n k : Nat}

/-- Where a factor is sliced, it has a slice. -/
theorem start_lt {t : Tensor} (ht : t.shape.length = p.total) (hwithin : Within t.shape f.sizes)
    (hn : f.sizes[p.unroll]? = some n) (hk : k < n) :
    ∃ m, t.shape[p.unroll]? = some m ∧ start p t k < m := by
  obtain ⟨m, hm, hor⟩ := f.getElem?_unroll ht hwithin hn
  refine ⟨m, hm, ?_⟩
  rw [start, hm]
  split
  next hone =>
    cases hone
    exact Nat.one_pos
  next hone =>
    have hne : m ≠ 1 := fun h => hone (congrArg some h)
    omega

/-- The slices of the factors at a position of the unrolled axis. -/
theorem slices_gives (hreads : f.Reads s factors) (hn : f.sizes[p.unroll]? = some n) (hk : k < n) :
    (factors.mapM fun (x : ValueId × Bool) =>
      narrow x.1 p.unroll (if x.2 then (0 : Int) else k) 1).Gives fails s fun ys s' =>
        s'.HoldsAll ys (f.slices k) := by
  let pre (x : ValueId × Bool) (t : Tensor) (s : Stage) : Prop :=
    (s.Holds x.1 t ∧ x.2 = decide (t.shape[p.unroll]? = some 1)) ∧
      ∃ m, t.shape[p.unroll]? = some m ∧ start p t k < m
  let post (y : ValueId) (t : Tensor) (s : Stage) : Prop :=
    s.Holds y (t.slice p.unroll (start p t k))
  have hslice : ∀ {x : ValueId × Bool} {t : Tensor} {s : Stage}, pre x t s →
      (narrow x.1 p.unroll (if x.2 then (0 : Int) else k) 1).Gives fails s fun y s' =>
        post y t s' := by
    rintro x t s ⟨⟨hv, hone⟩, m, hm, hlt⟩
    have hcast : (if x.2 then (0 : Int) else k) = (start p t k : Nat) := by
      rw [start]
      by_cases h : t.shape[p.unroll]? = some 1
      · simp [hone, h]
      · simp [hone, h]
    rw [hcast]
    exact narrow_gives hv hm hlt
  refine (Gives.triple pre post f.tensors
    (fun hle h => ⟨⟨h.1.1.mono hle, h.1.2⟩, h.2⟩) (fun hle h => Holds.mono h hle) hslice
    ⟨⟨hreads.first, f.start_lt f.first_rank f.within_first hn hk⟩,
      ⟨hreads.second, f.start_lt f.second_rank f.within_second hn hk⟩,
      ⟨hreads.third, f.start_lt f.third_rank f.within_third hn hk⟩⟩).weaken ?_
  exact fun ys s' _ h => ⟨h.first, h.second, h.third⟩

/-- The slices of the first two factors are multiplied in their common shape, and the third one in
the sizes of the step. -/
theorem common_slices (k : Nat) :
    Common ((f.slices k).first.shape.zip (f.slices k).second.shape) (f.pairSizes.set p.unroll 1) ∧
      Common ((f.pairSum k).shape.zip (f.slices k).third.shape) f.stepSizes := by
  refine ⟨f.pair_common.set_one (f.first_rank.trans f.second_rank.symm) p.unroll, ?_⟩
  have hrank : f.pairSizes.length = f.tensors.third.shape.length :=
    f.length_pairSizes.trans f.third_rank.symm
  rw [shape_pairSum]
  refine (f.common.set_one hrank p.unroll).flattened (by simp [hrank]) ?_
  intro a ha
  obtain ⟨-, hne, hlacks⟩ := mem_summedEarly.1 ha
  rw [List.getElem?_set_ne (Ne.symm hne)]
  exact f.third_lacks a hlacks

theorem summedInStep_lt (f : TrilinearFactors p) {a : Nat}
    (ha : a ∈ p.summedEarly ∨ a ∈ p.summedLate) : a < p.total := by
  rcases ha with ha | ha
  · exact f.summed_lt a (mem_summedEarly.1 ha).1
  · exact f.summed_lt a (mem_summedLate.1 ha).1

theorem length_slices (k : Nat) :
    (f.slices k).first.shape.length = p.total ∧ (f.slices k).second.shape.length = p.total ∧
      (f.slices k).third.shape.length = p.total := by
  simp [slices, Triple.map, f.first_rank, f.second_rank, f.third_rank]

theorem length_pairSum (k : Nat) : (f.pairSum k).shape.length = p.total := by
  rw [shape_pairSum, length_flattened, List.length_set, f.length_pairSizes]

theorem length_stepSizes : f.stepSizes.length = p.total := by
  rw [stepSizes, length_flattened, List.length_set, f.length_sizes]

theorem fits_pair (hfit : ¬ TooLarge f.sizes) : ¬ TooLarge (f.pairSizes.set p.unroll 1) :=
  (f.within_pairSizes.set_one _).not_tooLarge hfit

/-- The nodes of a step compute what it adds. -/
theorem step_gives (hfit : ¬ TooLarge f.sizes) (hreads : f.Reads s factors)
    (hn : f.sizes[p.unroll]? = some n) (hk : k < n) :
    (p.step factors f.dtype k).Gives fails s fun v s' => s'.Holds v (f.contribution k) := by
  obtain ⟨hpair, hstep⟩ := f.common_slices k
  obtain ⟨hfirst, hsecond, hthird⟩ := f.length_slices k
  unfold TrilinearPlan.step
  refine Gives.bind (f.slices_gives hreads hn hk) fun ys s₁ hle₁ hys => ?_
  refine Gives.bind (elementwise_gives hys.first hys.second (hfirst.trans hsecond.symm) hpair
    (f.fits_pair hfit)) fun v₁ s₂ hle₂ hv₁ => ?_
  refine Gives.bind (foldlM_sum_gives hv₁ fun a ha => ?_) fun v₂ s₃ hle₃ hv₂ => ?_
  · rw [Tensor.shape_combined, List.length_set, f.length_pairSizes]
    exact f.summedInStep_lt (.inl ha)
  refine Gives.bind (elementwise_gives hv₂ ((hys.third.mono hle₂).mono hle₃)
    ((f.length_pairSum k).trans hthird.symm) hstep
    (f.within_stepSizes.not_tooLarge hfit)) fun v₃ s₄ hle₄ hv₃ => ?_
  refine foldlM_sum_gives hv₃ fun a ha => ?_
  rw [Tensor.shape_combined, f.length_stepSizes]
  exact f.summedInStep_lt (.inr ha)

/-! ## The nodes of the loop -/

variable {v : ValueId} {zero : Size}

theorem getElem?_kept (hn : f.sizes[p.unroll]? = some n) :
    f.kept[p.unroll]? = some (if p.unroll ∈ p.summed then 1 else n) := by
  have hlt : p.unroll < f.sizes.length := f.length_sizes ▸ f.unroll_lt
  rw [kept, getElem?_flattened]
  by_cases h : p.unroll ∈ p.summed
  · rw [if_pos ⟨h, hlt⟩, if_pos h]
  · rw [if_neg (fun hand => h hand.1), if_neg h, hn]

/-- Where a slot is written, it lies within the output. -/
theorem sliceFits_slot {A : List Nat} {total u n k : Nat} (hlen : A.length = total)
    (hn : A[u]? = some n) (hk : k < n) :
    ∀ e ∈ ((((List.replicate total 0).set u k).map Int.ofNat).zip
      (List.replicate total (1 : Int))).zip ((A.set u 1).zip A),
      SliceFits e.2.1 e.2.2 e.1.1 e.1.2 := by
  intro e he
  obtain ⟨i, hi, rfl⟩ := List.getElem_of_mem he
  have hi' : i < A.length := by
    simp only [List.length_zip, List.length_set] at hi
    omega
  simp only [List.getElem_zip, List.getElem_map, List.getElem_set, List.getElem_replicate]
  by_cases hu : u = i
  · subst hu
    have hget : A[u] = n := Option.some.inj ((List.getElem?_eq_getElem hi').symm.trans hn)
    simp only [hget, ↓reduceIte]
    refine ⟨Int.natCast_nonneg k, by decide, ?_⟩
    simp only [Int.ofNat_eq_natCast, one_ne_zero, ↓reduceIte]
    omega
  · simp only [hu, ↓reduceIte]
    refine ⟨Int.le_refl 0, by decide, ?_⟩
    split
    · simp
    · simp only [Int.ofNat_eq_natCast]
      omega

theorem hasSizes_slot {offset : Size} (hzero : s.HasIndex zero 0) (hoffset : s.HasIndex offset k)
    (total u : Nat) :
    s.HasSizes ((List.replicate total zero).set u offset) ((List.replicate total 0).set u k) := by
  refine forall₂_set (r := fun z (n : Nat) => s.HasIndex z n) ?_ hoffset u
  induction total with
  | zero => exact .nil
  | succ total ih => exact .cons hzero ih

theorem length_kept : f.kept.length = p.total := by rw [kept, length_flattened, f.length_sizes]

/-- Where the unrolled axis is summed, a step is as large as the output. -/
theorem shape_contribution_of_mem (hn : f.sizes[p.unroll]? = some n) (hmem : p.unroll ∈ p.summed)
    (k : Nat) : (f.contribution k).shape = f.kept := by
  have hone := f.getElem?_kept hn
  rw [if_pos hmem] at hone
  obtain ⟨hlt, hget⟩ := List.getElem?_eq_some_iff.1 hone
  rw [f.shape_contribution, ← hget, List.set_getElem_self]

theorem shape_slot (k : Nat) :
    ((f.output k).slice p.unroll k).shape = (f.contribution k).shape := by
  rw [Tensor.shape_slice, f.shape_output, f.shape_contribution]

/-- A step is added to the output in the shape of both. -/
theorem common_output (hn : f.sizes[p.unroll]? = some n) (hmem : p.unroll ∈ p.summed) (k : Nat) :
    Common ((f.output k).shape.zip (f.contribution k).shape) f.kept := by
  rw [f.shape_output, f.shape_contribution_of_mem hn hmem]
  exact common_self _

theorem common_slot (k : Nat) :
    Common (((f.output k).slice p.unroll k).shape.zip (f.contribution k).shape)
      (f.kept.set p.unroll 1) := by
  rw [shape_slot, f.shape_contribution]
  exact common_self _

/-- The slot of a step lies within the output. -/
theorem slot_fits {u : Tensor} (hn : f.sizes[p.unroll]? = some n) (hmem : p.unroll ∉ p.summed)
    (hk : k < n) (hu : u.shape = f.kept.set p.unroll 1) :
    ∀ e ∈ ((((List.replicate p.total 0).set p.unroll k).map Int.ofNat).zip
        (List.replicate p.total (1 : Int))).zip (u.shape.zip (f.output k).shape),
      SliceFits e.2.1 e.2.2 e.1.1 e.1.2 := by
  have hsize := f.getElem?_kept hn
  rw [if_neg hmem] at hsize
  rw [hu, f.shape_output]
  exact sliceFits_slot f.length_kept hsize hk

theorem getElem?_output (hn : f.sizes[p.unroll]? = some n) (hmem : p.unroll ∉ p.summed) (k : Nat) :
    (f.output k).shape[p.unroll]? = some n := by
  rw [f.shape_output, f.getElem?_kept hn, if_neg hmem]

/-- The nodes of a step compute the output after it. -/
theorem accumulate_gives (hfit : ¬ TooLarge f.sizes) (hreads : f.Reads s factors)
    (hv : s.Holds v (f.output k)) (hzero : s.HasIndex zero 0) (hn : f.sizes[p.unroll]? = some n)
    (hk : k < n) (hexact : p.unroll ∉ p.summed → Binary64.IsExact k) :
    (p.accumulate factors f.dtype zero v k).Gives fails s fun v' s' =>
      s'.Holds v' (f.output (k + 1)) := by
  unfold TrilinearPlan.accumulate
  refine Gives.bind (f.step_gives hfit hreads hn hk) fun step s₁ hle₁ hstep => ?_
  rw [output]
  by_cases hsummed : p.unrollIsSummed = true
  · have hmem : p.unroll ∈ p.summed := List.contains_iff_mem.1 hsummed
    rw [if_pos hsummed, if_pos hsummed]
    refine elementwise_gives (hv.mono hle₁) hstep ?_ (f.common_output hn hmem k)
      (f.within_kept.not_tooLarge hfit)
    rw [f.shape_output, f.shape_contribution_of_mem hn hmem]
  · have hmem : p.unroll ∉ p.summed := fun hmem => hsummed (List.contains_iff_mem.2 hmem)
    rw [if_neg hsummed, if_neg hsummed]
    refine Gives.bind (narrow_gives (hv.mono hle₁) (f.getElem?_output hn hmem k) hk)
      fun slot s₂ hle₂ hslot => ?_
    refine Gives.bind (elementwise_gives hslot (hstep.mono hle₂)
      (congrArg List.length (f.shape_slot k)) (f.common_slot k)
      ((f.within_kept.set_one p.unroll).not_tooLarge hfit)) fun updated s₃ hle₃ hupdated => ?_
    refine Gives.bind (index_gives (hexact hmem)) fun offset s₄ hle₄ hoffset => ?_
    have hout := (((hv.mono hle₁).mono hle₂).mono hle₃).mono hle₄
    have hzero' := (((hzero.mono hle₁).mono hle₂).mono hle₃).mono hle₄
    exact insertSlice_gives (hupdated.mono hle₄) hout (f.dtype_output k).symm
      (hasSizes_slot hzero' hoffset p.total p.unroll) (by simp [length_kept])
      (by simp [length_kept]) (by simp [f.shape_output]) (f.slot_fits hn hmem hk rfl)

/-- The output can be made, and the indices that it is made and written with are doubles. -/
structure Exact : Prop where
  fits : ¬ TooLarge f.sizes
  kept : ∀ n ∈ f.kept, Binary64.IsExact n
  slot : p.unroll ∉ p.summed → ∀ k < f.sizes.getD p.unroll 0, Binary64.IsExact k

theorem Exact.of_tensors {f g : TrilinearFactors p} (hg : g.Exact) (h : f.tensors = g.tensors) :
    f.Exact := by
  obtain ⟨hfits, hkept, hslot⟩ := hg
  rw [TrilinearFactors.kept, ← (sizes_eq h).2] at hkept
  rw [← (sizes_eq h).2] at hfits hslot
  exact ⟨hfits, hkept, hslot⟩

end TrilinearFactors

namespace TrilinearPlan

variable {p : TrilinearPlan} {s : Stage} {ts : Triple Tensor} {vs : Triple ValueId} {dtype : DType}

/-- Tensors that are factors if their sizes agree. -/
structure Aligns (p : TrilinearPlan) (ts : Triple Tensor) : Prop where
  rank : ∀ t ∈ ts.toList, t.shape.length = p.total
  size_lt : ∀ t ∈ ts.toList, ∀ n ∈ t.shape, n < 0x8000000000000000
  third_lacks : ∀ a ∈ p.expand.third, ts.third.shape[a]? = some 1
  unroll_lt : p.unroll < p.total
  summed_lt : ∀ a ∈ p.summed, a < p.total

theorem any_isOne {zs : List Size} {ns : List Nat} (h : s.KnowsSizes zs ns) (i : Nat) :
    zs[i]?.any Size.isOne = decide (ns[i]? = some 1) := by
  induction h generalizing i with
  | nil => rfl
  | @cons z n _ _ hz _ ih =>
      cases i with
      | zero =>
          rw [List.getElem?_cons_zero, List.getElem?_cons_zero, Option.any_some, Size.isOne,
            hz.known, Bool.eq_iff_iff, beq_iff_eq, decide_eq_true_iff, Option.some.injEq,
            Option.some.injEq]
          omega
      | succ i => exact ih i

/-- The number of steps is the known size of the unrolled axis. -/
theorem unrollSize_cases (config : LoweringConfig) {zs : List Size} {ns : List Nat}
    (h : List.Forall₂ (fun z (n : Nat) => ∀ m, z.known = some m → m = (n : Int)) zs ns) :
    (∃ e, p.unrollSize config zs = .fail e) ∨
      ∃ n, p.unrollSize config zs = pure n ∧ ns[p.unroll]? = some n := by
  unfold unrollSize
  split
  next n hn =>
    split
    next => exact .inl ⟨_, rfl⟩
    next =>
      refine .inr ⟨n, rfl, ?_⟩
      obtain ⟨z, hz, hknown⟩ := Option.bind_eq_some_iff.1 hn
      obtain ⟨hi, rfl⟩ := List.getElem?_eq_some_iff.1 hz
      have hi' : p.unroll < ns.length := h.length_eq ▸ hi
      rw [List.getElem?_eq_getElem hi']
      exact congrArg some (Int.ofNat.inj (List.Forall₂.get h hi hi' n hknown)).symm
  next => exact .inl ⟨_, rfl⟩

theorem unrollSize_gives {config : LoweringConfig} {zs : List Size} {ns : List Nat}
    (h : s.KnowsSizes zs ns) :
    (p.unrollSize config zs).Gives (fun _ => True) s fun n s' =>
      s' = s ∧ ns[p.unroll]? = some n := by
  have hknown : List.Forall₂ (fun z (n : Nat) => ∀ m, z.known = some m → m = (n : Int)) zs ns :=
    List.Forall₂.imp (fun _ _ hz _ hm => Option.some.inj (hm.symm.trans hz.known)) h
  obtain ⟨e, he⟩ | ⟨n, hn, hget⟩ := unrollSize_cases (p := p) config hknown
  · rw [he]
    exact trivial
  · rw [hn]
    exact .pure ⟨rfl, hget⟩

/-- Sizes of which some are set to one. -/
theorem forall₂_flattened {r : Size → Nat → Prop} {zs : List Size} {ns : List Nat} {one : Size}
    (h : List.Forall₂ r zs ns) (hone : r one 1) (axes : List Nat) :
    List.Forall₂ r (axes.foldl (fun sizes axis => sizes.set axis one) zs) (flattened axes ns) := by
  induction axes generalizing zs ns with
  | nil => exact h
  | cons a axes ih => exact ih (forall₂_set h hone a)

/-- Aligned tensors are factors if they stretch to common sizes. -/
theorem Aligns.exists_factors (h : p.Aligns ts) (dtype : DType) {pairSizes sizes : List Nat}
    (hpair : broadcastShape ts.first.shape ts.second.shape = .ok pairSizes)
    (hcommon : broadcastShape pairSizes ts.third.shape = .ok sizes) :
    ∃ f : TrilinearFactors p, f.tensors = ts ∧ f.dtype = dtype ∧ f.sizes = sizes := by
  have hfirst := h.rank ts.first (by simp [Triple.toList])
  have hsecond := h.rank ts.second (by simp [Triple.toList])
  have hthird := h.rank ts.third (by simp [Triple.toList])
  have hlen := hfirst.trans hsecond.symm
  have hpairCommon := (broadcastShape_iff hlen).1 hpair
  have hlen' : pairSizes.length = ts.third.shape.length := by
    rw [hpairCommon.length_eq hlen, hsecond, hthird]
  exact ⟨⟨dtype, ts, pairSizes, sizes, hfirst, hsecond, hthird, hpairCommon,
    (broadcastShape_iff hlen').1 hcommon, h.third_lacks, h.unroll_lt, h.summed_lt⟩, rfl, rfl, rfl⟩

/-- The steps of the loop compute the output after all of them. -/
theorem steps_gives {fails : LowerError → Prop} {f : TrilinearFactors p}
    {zs : Triple (List Size)} {common : List Size} {n : Nat} (hvs : s.HoldsAll vs f.tensors)
    (hzs : zs.Related (fun zs t => s.KnowsSizes zs t.shape) f.tensors)
    (hcommon : s.KnowsSizes common f.sizes) (hn : f.sizes[p.unroll]? = some n)
    (hexact : f.Exact) :
    (p.steps vs f.dtype zs common n).Gives fails s fun v s' => s'.Holds v (f.output n) := by
  obtain ⟨hfits, hkept, hslot⟩ := hexact
  refine Gives.bind (index_gives (n := 1) Binary64.isExact_one) fun one s₁ hle₁ hone => ?_
  have hkeptSizes : s₁.KnowsSizes (p.summed.foldl (fun sizes axis => sizes.set axis one) common)
      f.kept :=
    forall₂_flattened (hcommon.mono hle₁) ⟨hone.known, fun _ => hone⟩ p.summed
  refine Gives.bind (zeros_gives (hkeptSizes.hasSizes hkept) (f.within_kept.not_tooLarge hfits))
    fun output s₂ hle₂ houtput => ?_
  refine Gives.bind (index_gives (n := 0) Binary64.isExact_zero) fun zero s₃ hle₃ hzero => ?_
  have hvs₃ := hvs.mono (hle₁.trans (hle₂.trans hle₃))
  have hreads : f.Reads s₃ (vs.zip (zs.map fun s => s[p.unroll]?.any Size.isOne)) :=
    ⟨⟨hvs₃.first, any_isOne hzs.first p.unroll⟩, ⟨hvs₃.second, any_isOne hzs.second p.unroll⟩,
      ⟨hvs₃.third, any_isOne hzs.third p.unroll⟩⟩
  have hcount : f.sizes.getD p.unroll 0 = n := by
    rw [List.getD_eq_getElem?_getD]
    exact congrArg (·.getD 0) hn
  refine Gives.foldlM_range (fun k v s' => s'.Holds v (f.output k)) (houtput.mono hle₃)
    fun k hk v s' hle' hv => ?_
  exact f.accumulate_gives hfits (hreads.mono f hle') hv (hzero.mono hle') hn hk
    fun hmem => hslot hmem k (hcount ▸ hk)

/-- What the unrolled loop computes, if the sizes of the factors agree. -/
theorem unrolled_gives (config : LoweringConfig) (hvs : s.HoldsAll vs ts) (halign : p.Aligns ts)
    (hexact : ∀ f : TrilinearFactors p, f.tensors = ts → f.Exact) :
    (p.unrolled config vs dtype).Gives (fun _ => True) s fun v s' =>
      ∃ (f : TrilinearFactors p) (n : Nat), f.tensors = ts ∧ f.dtype = dtype ∧
        f.sizes[p.unroll]? = some n ∧ s'.Holds v (f.output n) := by
  have hmem : ts.first ∈ ts.toList ∧ ts.second ∈ ts.toList ∧ ts.third ∈ ts.toList := by
    simp [Triple.toList]
  let pre (v : ValueId) (t : Tensor) (s : Stage) : Prop := s.Holds v t ∧ t ∈ ts.toList
  let post (zs : List Size) (t : Tensor) (s : Stage) : Prop := s.KnowsSizes zs t.shape
  have hdims : ∀ {v : ValueId} {t : Tensor} {s : Stage}, pre v t s →
      (dims v).Gives (fun _ => True) s fun zs s' => post zs t s' :=
    fun h => dims_knows h.1 (halign.size_lt _ h.2)
  refine Gives.bind (Gives.triple pre post ts
    (fun hle h => ⟨h.1.mono hle, h.2⟩) (fun hle h => KnowsSizes.mono h hle) hdims
    ⟨⟨hvs.first, hmem.1⟩, ⟨hvs.second, hmem.2.1⟩, ⟨hvs.third, hmem.2.2⟩⟩) ?_
  intro zs s₁ hle₁ hzs
  refine Gives.bind (broadcastSizes_known hzs.first hzs.second) ?_
  rintro pairZs s₂ hle₂ ⟨pairSizes, hpair, hpairZs⟩
  refine Gives.bind (broadcastSizes_known hpairZs (KnowsSizes.mono hzs.third hle₂)) ?_
  rintro common s₃ hle₃ ⟨sizes, hok, hcommon⟩
  obtain ⟨f, rfl, rfl, rfl⟩ := halign.exists_factors dtype hpair hok
  refine Gives.bind (unrollSize_gives hcommon) ?_
  rintro n s₄ - ⟨rfl, hn⟩
  have hle₁₃ := hle₂.trans hle₃
  refine (steps_gives (hvs.mono (hle₁.trans hle₁₃)) ⟨KnowsSizes.mono hzs.first hle₁₃,
    KnowsSizes.mono hzs.second hle₁₃, KnowsSizes.mono hzs.third hle₁₃⟩ hcommon hn
    (hexact f rfl)).weaken ?_
  exact fun v s' _ hv => ⟨f, n, rfl, rfl, hn, hv⟩

end TrilinearPlan

end TensorLowering
