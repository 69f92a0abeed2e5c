import TensorLowering.Proofs.Build.Integers
import TensorLowering.Proofs.Trilinear.Factors

/-!
# Trilinear products of integers

What the unrolled loop adds up when its factors are integers and nothing is rounded. The sums of a
step that come before the third factor distribute over it. Main statement: after the last step, the
output holds the products of the three factors, summed over the summed axes.
-/
namespace TensorLowering

open Numeric NdArray

namespace TrilinearFactors

variable {p : TrilinearPlan} (f : TrilinearFactors p) (v : Triple (List Nat → Int))

/-- The factors at a position of the common sizes. An axis of size one is read at zero. -/
def read (q : List Nat) : Triple Int :=
  ⟨v.first (alignIndex f.tensors.first.shape q), v.second (alignIndex f.tensors.second.shape q),
    v.third (alignIndex f.tensors.third.shape q)⟩

/-- The product of the three factors at a position. -/
def product (q : List Nat) : Int := (f.read v q).first * (f.read v q).second * (f.read v q).third

/-- The product of the first two factors at a step. -/
def pairTerm (k : Nat) (q : List Nat) : Int :=
  (f.read v (q.set p.unroll k)).first * (f.read v (q.set p.unroll k)).second

/-- The product of the first two factors, summed along the axes that the third one lacks. -/
def pairTotal (k : Nat) : List Nat → Int :=
  axesSum p.summedEarly (f.sizes.set p.unroll 1) (f.pairTerm v k)

/-- The product of these sums with the third factor. -/
def stepTerm (k : Nat) (q : List Nat) : Int :=
  f.pairTotal v k q * (f.read v (q.set p.unroll k)).third

/-- What a step adds. -/
def stepTotal (k : Nat) : List Nat → Int := axesSum p.summedLate f.stepSizes (f.stepTerm v k)

/-- What the output holds after some steps. -/
def outputTotal (k : Nat) (q : List Nat) : Int :=
  if p.unroll ∈ p.summed then ∑ j ∈ Finset.range k, f.stepTotal v j q
  else if q.getD p.unroll 0 < k then f.stepTotal v (q.getD p.unroll 0) (q.set p.unroll 0)
  else 0

/-- The elements of the factors are the integers. -/
structure HasIntegers : Prop where
  first : ∀ i, InBounds f.tensors.first.shape i →
    (f.tensors.first.entry i).toInt? = some (v.first i)
  second : ∀ i, InBounds f.tensors.second.shape i →
    (f.tensors.second.entry i).toInt? = some (v.second i)
  third : ∀ i, InBounds f.tensors.third.shape i →
    (f.tensors.third.entry i).toInt? = some (v.third i)

/-- No product and no partial sum is rounded. -/
structure Unrounded : Prop where
  pair : ∀ k < f.sizes.getD p.unroll 0, ∀ q, InBounds (f.sizes.set p.unroll 1) q →
    f.dtype.Exactly (f.pairTerm v k q)
  pairSums : ∀ k < f.sizes.getD p.unroll 0,
    Tensor.ExactSums f.dtype p.summedEarly (f.sizes.set p.unroll 1) (f.pairTerm v k)
  step : ∀ k < f.sizes.getD p.unroll 0, ∀ q, InBounds f.stepSizes q →
    f.dtype.Exactly (f.stepTerm v k q)
  stepSums : ∀ k < f.sizes.getD p.unroll 0,
    Tensor.ExactSums f.dtype p.summedLate f.stepSizes (f.stepTerm v k)
  output : ∀ k ≤ f.sizes.getD p.unroll 0, ∀ q, InBounds f.kept q →
    f.dtype.Exactly (f.outputTotal v k q)

instance : Decidable (f.Unrounded v) :=
  decidable_of_iff
    ((∀ k < f.sizes.getD p.unroll 0, (∀ q, InBounds (f.sizes.set p.unroll 1) q →
        f.dtype.Exactly (f.pairTerm v k q)) ∧
      Tensor.ExactSums f.dtype p.summedEarly (f.sizes.set p.unroll 1) (f.pairTerm v k) ∧
      (∀ q, InBounds f.stepSizes q → f.dtype.Exactly (f.stepTerm v k q)) ∧
      Tensor.ExactSums f.dtype p.summedLate f.stepSizes (f.stepTerm v k)) ∧
    ∀ k ≤ f.sizes.getD p.unroll 0, ∀ q, InBounds f.kept q → f.dtype.Exactly (f.outputTotal v k q))
    ⟨fun h => ⟨fun k hk => (h.1 k hk).1, fun k hk => (h.1 k hk).2.1, fun k hk => (h.1 k hk).2.2.1,
      fun k hk => (h.1 k hk).2.2.2, h.2⟩,
    fun h => ⟨fun k hk => ⟨h.pair k hk, h.pairSums k hk, h.step k hk, h.stepSums k hk⟩, h.output⟩⟩

variable {f v} {n k : Nat}

/-! ## A step -/

/-- A tensor of integers shows them in any sizes that it stretches to. -/
theorem shows_of_entry {t : Tensor} {sizes : List Nat} {value : List Nat → Int}
    (h : ∀ i, InBounds t.shape i → (t.entry i).toInt? = some (value i))
    (hwithin : Within t.shape sizes) :
    t.Shows sizes fun q => value (alignIndex t.shape q) :=
  ⟨hwithin, fun _ hq => h _ (hwithin.inBounds hq)⟩

theorem shows_pairSum (h : f.HasIntegers v) (hexact : f.Unrounded v)
    (hn : f.sizes[p.unroll]? = some n) (hk : k < n) :
    (f.pairSum k).Shows f.stepSizes (f.pairTotal v k) := by
  have hcount : k < f.sizes.getD p.unroll 0 := by
    rw [List.getD_eq_getElem?_getD, hn]
    exact hk
  have h1 := (shows_of_entry h.first f.within_first).slice hn hk
  have h2 := (shows_of_entry h.second f.within_second).slice hn hk
  have hpair := h1.combined .mul h2 (f.common_slices k).1 (hexact.pair k hcount)
  refine hpair.foldl_summed (fun a ha => ?_) (hexact.pairSums k hcount)
  obtain ⟨-, hne, hlacks⟩ := mem_summedEarly.1 ha
  refine ⟨by rw [List.length_set, f.length_sizes]; exact f.summedInStep_lt (.inl ha), ?_⟩
  -- the third factor lacks the axis, so its size is that of the first two
  rw [Tensor.shape_combined, List.getElem?_set_ne (Ne.symm hne), List.getElem?_set_ne (Ne.symm hne)]
  exact (f.common.getElem?_left (f.length_pairSizes.trans f.third_rank.symm)
    (f.third_lacks a hlacks)).symm

theorem stepSizes_eq : f.stepSizes = (flattened p.summedEarly f.sizes).set p.unroll 1 :=
  flattened_set (fun hmem => (mem_summedEarly.1 hmem).2.1 rfl) 1

/-- The third factor lacks the axes that were summed, also where there is nothing to sum. -/
theorem shows_third (h : f.HasIntegers v) (hn : f.sizes[p.unroll]? = some n) (hk : k < n) :
    (f.slices k).third.Shows f.stepSizes fun q => (f.read v (q.set p.unroll k)).third := by
  have hrank : f.pairSizes.length = f.tensors.third.shape.length :=
    f.length_pairSizes.trans f.third_rank.symm
  have hwithin : Within f.tensors.third.shape (flattened p.summedEarly f.sizes) :=
    ((f.common.flattened hrank fun a ha =>
      f.third_lacks a (mem_summedEarly.1 ha).2.2).within (by simp [hrank])).2
  have hsize : (flattened p.summedEarly f.sizes)[p.unroll]? = some n := by
    rw [getElem?_flattened, if_neg fun hmem => (mem_summedEarly.1 hmem.1).2.1 rfl, hn]
  rw [stepSizes_eq]
  exact (shows_of_entry h.third hwithin).slice hsize hk

theorem shows_contribution (h : f.HasIntegers v) (hexact : f.Unrounded v)
    (hn : f.sizes[p.unroll]? = some n) (hk : k < n) :
    (f.contribution k).Shows (f.kept.set p.unroll 1) (f.stepTotal v k) := by
  have hcount : k < f.sizes.getD p.unroll 0 := by
    rw [List.getD_eq_getElem?_getD, hn]
    exact hk
  have hstep := (shows_pairSum h hexact hn hk).combined .mul (shows_third h hn hk)
    (f.common_slices k).2 (hexact.step k hcount)
  have hshows : (f.contribution k).Shows (flattened p.summedLate f.stepSizes)
      (f.stepTotal v k) := by
    refine hstep.foldl_summed (fun a ha => ⟨?_, rfl⟩) (hexact.stepSums k hcount)
    rw [f.length_stepSizes]
    exact f.summedInStep_lt (.inr ha)
  have hshape : flattened p.summedLate f.stepSizes = f.kept.set p.unroll 1 :=
    (shape_foldl_summed _ _).symm.trans (f.shape_contribution k)
  exact hshape ▸ hshows

/-! ## The loop -/

/-- A slice is placed at one position of an axis. -/
theorem placed_slot {total u k : Nat} {j : List Nat} (hlen : j.length = total) :
    placed ((((List.replicate total 0).set u k).map Int.ofNat).zip (List.replicate total 1)) j =
      (j.modify u (· + k)).map Int.ofNat := by
  rw [placed]
  refine List.ext_getElem (by simp [hlen]) fun i hi hi' => ?_
  simp only [List.getElem_zipWith, List.getElem_zip, List.getElem_map, List.getElem_set,
    List.getElem_replicate, List.getElem_modify, Int.ofNat_eq_natCast]
  by_cases hu : u = i
  · simp only [hu, ↓reduceIte]
    omega
  · simp only [hu, ↓reduceIte]
    omega

/-- What lands on a position is the slice, where it was placed. -/
theorem sourceIndex?_slot {A q : List Nat} {total u k n : Nat} (hlen : A.length = total)
    (hq : InBounds A q) (hn : A[u]? = some n) :
    sourceIndex? (((List.replicate total 0).set u k).map Int.ofNat) (List.replicate total 1)
      (A.set u 1) q = if q.getD u 0 = k then some (q.set u 0) else none := by
  have hiff : ∀ j, sourceIndex? (((List.replicate total 0).set u k).map Int.ofNat)
      (List.replicate total 1) (A.set u 1) q = some j ↔
        InBounds (A.set u 1) j ∧ q = j.modify u (· + k) := by
    intro j
    rw [sourceIndex?_eq_some (by simp [hlen]) (by simp [hlen])
      (by rw [hq.length_eq, List.length_set]) (by simp)]
    refine and_congr_right fun hj => ?_
    rw [placed_slot (by rw [hj.length_eq, List.length_set, hlen])]
    exact (List.map_injective_iff.2 fun _ _ h => Int.ofNat.inj h).eq_iff
  obtain ⟨i, hi, -⟩ := hq.getElem?_lt hn
  obtain ⟨hlt, hget⟩ := List.getElem?_eq_some_iff.1 hi
  have hqu : q.getD u 0 = i := by
    rw [List.getD_eq_getElem?_getD, hi]
    rfl
  rw [hqu]
  split
  next hik =>
    refine (hiff _).2 ⟨hq.set Nat.one_pos, ?_⟩
    rw [List.modify_eq_set, List.set_set, List.getElem?_set_self hlt, Option.getD_some,
      Nat.zero_add, ← hik, ← hget, List.set_getElem_self]
  next hik =>
    refine Option.eq_none_iff_forall_ne_some.2 fun j hj => hik ?_
    obtain ⟨hin, hmoved⟩ := (hiff j).1 hj
    have hu : u < A.length := (List.getElem?_eq_some_iff.1 hn).1
    obtain ⟨i', hi', hzero⟩ := hin.getElem?_lt (List.getElem?_set_self hu)
    rw [hmoved, List.getElem?_modify_eq, hi', Nat.lt_one_iff.1 hzero] at hi
    simpa using hi.symm

theorem outputTotal_zero (q : List Nat) : f.outputTotal v 0 q = 0 := by
  simp [outputTotal]

theorem outputTotal_succ_of_mem (h : p.unroll ∈ p.summed) (q : List Nat) :
    f.outputTotal v (k + 1) q = f.outputTotal v k q + f.stepTotal v k q := by
  rw [outputTotal, outputTotal, if_pos h, if_pos h, Finset.sum_range_succ]

theorem outputTotal_succ (h : p.unroll ∉ p.summed) (q : List Nat) :
    f.outputTotal v (k + 1) q =
      if q.getD p.unroll 0 = k then f.stepTotal v k (q.set p.unroll 0)
      else f.outputTotal v k q := by
  rw [outputTotal, outputTotal, if_neg h, if_neg h]
  grind

/-- Writing the slot of a step. -/
theorem shows_slot (hn : f.sizes[p.unroll]? = some n) (hk : k < n) (hmem : p.unroll ∉ p.summed)
    (hprev : (f.output k).Shows f.kept (f.outputTotal v k))
    (hstep : (f.contribution k).Shows (f.kept.set p.unroll 1) (f.stepTotal v k))
    (hexact : ∀ q, InBounds f.kept q → f.dtype.Exactly (f.outputTotal v (k + 1) q)) :
    Tensor.Shows ((((f.output k).slice p.unroll k).combined .add (f.contribution k) f.dtype
      (f.kept.set p.unroll 1)).inserted (f.output k)
        (((List.replicate p.total 0).set p.unroll k).map Int.ofNat) (List.replicate p.total 1))
      f.kept (f.outputTotal v (k + 1)) := by
  have hsize : f.kept[p.unroll]? = some n := by rw [f.getElem?_kept hn, if_neg hmem]
  have hlt : p.unroll < f.kept.length := (List.getElem?_eq_some_iff.1 hsize).1
  -- the slot has not been written before
  have hslot : ((f.output k).slice p.unroll k).Shows (f.kept.set p.unroll 1) fun _ => 0 := by
    have hslice := hprev.slice hsize hk
    have hstart : (if (f.output k).shape[p.unroll]? = some 1 then 0 else k) = k := by
      rw [f.shape_output, hsize]
      split
      next hone =>
        cases hone
        exact (Nat.lt_one_iff.1 hk).symm
      next => rfl
    rw [hstart] at hslice
    refine hslice.congr fun q hq => ?_
    have hq' : p.unroll < q.length := by rwa [hq.length_eq, List.length_set]
    rw [outputTotal, if_neg hmem, List.getD_eq_getElem?_getD, List.getElem?_set_self hq',
      Option.getD_some, if_neg (Nat.lt_irrefl k)]
  have hslotExact : ∀ q, InBounds (f.kept.set p.unroll 1) q →
      f.dtype.Exactly (ElementwiseOp.add.ofIntegers 0 (f.stepTotal v k q)) := by
    intro q hq
    have hmoved : InBounds f.kept (q.set p.unroll k) := hq.set_forth hlt (by
      rw [List.getD_eq_getElem?_getD, hsize]
      exact hk)
    have htotal := hexact _ hmoved
    have hset := hq.set_set hlt k
    rw [outputTotal_succ hmem, if_pos hset.2, hset.1] at htotal
    rwa [ElementwiseOp.ofIntegers, Int.zero_add]
  have hupdated := hslot.combined .add hstep (f.common_slot k) hslotExact
  refine ⟨by rw [Tensor.shape_inserted, f.shape_output]; exact within_self _, fun q hq => ?_⟩
  have hbounds : InBounds (f.output k).shape q := by rwa [f.shape_output]
  rw [Tensor.shape_inserted, f.shape_output, alignIndex_self hq,
    Tensor.entry_inserted (f.dtype_output k).symm hbounds, Tensor.landing, Tensor.shape_combined,
    sourceIndex?_slot f.length_kept hq hsize, outputTotal_succ hmem]
  by_cases hqk : q.getD p.unroll 0 = k
  · rw [if_pos hqk, if_pos hqk]
    have hentry := hupdated.entry rfl (hq.set (a := p.unroll) Nat.one_pos)
    rwa [ElementwiseOp.ofIntegers, Int.zero_add] at hentry
  · rw [if_neg hqk, if_neg hqk]
    exact hprev.entry (f.shape_output k) hq

/-- The output after some steps. -/
theorem shows_output (h : f.HasIntegers v) (hexact : f.Unrounded v)
    (hn : f.sizes[p.unroll]? = some n) (hk : k ≤ n) :
    (f.output k).Shows f.kept (f.outputTotal v k) := by
  have hcount : f.sizes.getD p.unroll 0 = n := by
    rw [List.getD_eq_getElem?_getD, hn]
    rfl
  induction k with
  | zero =>
      refine ⟨within_self _, fun q hq => ?_⟩
      have hzero : (f.output 0).entry (alignIndex f.kept q) = f.dtype.round 0 :=
        Tensor.entry_ofEntries ((within_self f.kept).inBounds hq)
      rw [f.shape_output, hzero, f.dtype.round_zero, outputTotal_zero]
      rfl
  | succ k ih =>
      have hprev := ih (Nat.le_of_succ_le hk)
      have hstep := shows_contribution h hexact hn hk
      have hout := hexact.output (k + 1) (hcount ▸ hk)
      rw [output]
      by_cases hsummed : p.unrollIsSummed = true
      · have hmem : p.unroll ∈ p.summed := List.contains_iff_mem.1 hsummed
        rw [← f.shape_contribution k, f.shape_contribution_of_mem hn hmem k] at hstep
        rw [if_pos hsummed]
        refine (hprev.combined .add hstep (f.common_output hn hmem k) fun q hq => ?_).congr
          fun q _ => (outputTotal_succ_of_mem hmem q).symm
        have hexact' := hout q hq
        rwa [outputTotal_succ_of_mem hmem] at hexact'
      · have hmem : p.unroll ∉ p.summed := fun hmem => hsummed (List.contains_iff_mem.2 hmem)
        rw [if_neg hsummed]
        exact shows_slot hn hk hmem hprev hstep hout

/-! ## Sums of products -/

/-- The axes that are summed in a step. -/
theorem unroll_notMem_inStep : p.unroll ∉ p.summedEarly ++ p.summedLate := by
  rw [List.mem_append, mem_summedEarly, mem_summedLate]
  rintro (h | h)
  · exact h.2.1 rfl
  · exact h.2.1 rfl

/-- A step adds the products at one position of the unrolled axis: the third factor lacks the axes
that were summed before it. -/
theorem stepTotal_eq {q : List Nat} (hq : q.length = p.total) :
    f.stepTotal v k q =
      axesSum (p.summedEarly ++ p.summedLate) f.sizes (f.product v) (q.set p.unroll k) := by
  have hterm : ∀ q : List Nat, q.length = p.total → f.stepTerm v k q =
      axesSum p.summedEarly (f.sizes.set p.unroll 1)
        (fun q => f.product v (q.set p.unroll k)) q := by
    intro q hq
    refine (axesSum_mul (G := fun q => (f.read v (q.set p.unroll k)).third) ?_).symm
    intro a ha r i hr
    obtain ⟨-, hne, hlacks⟩ := mem_summedEarly.1 ha
    have hlen : f.tensors.third.shape.length = (r.set p.unroll k).length := by
      rw [List.length_set, hr, hq, f.third_rank]
    obtain ⟨hlt, hone⟩ := List.getElem?_eq_some_iff.1 (f.third_lacks a hlacks)
    have hself : f.tensors.third.shape.set a 1 = f.tensors.third.shape := by
      rw [← hone, List.set_getElem_self]
    have hread : alignIndex f.tensors.third.shape ((r.set p.unroll k).set a i) =
        alignIndex f.tensors.third.shape (r.set p.unroll k) := by
      rw [alignIndex_set hlen, if_pos (f.third_lacks a hlacks), ← alignIndex_set_one hlen, hself]
    simp only [read, List.set_comm _ _ hne, hread]
  rw [← axesSum_at unroll_notMem_inStep 1 k q, axesSum_append, stepTotal, stepSizes]
  exact axesSum_congr fun r hr => hterm r (hr.trans hq)

/-- After the last step, the products are summed over the summed axes. -/
theorem outputTotal_eq (hn : f.sizes[p.unroll]? = some n) {q : List Nat}
    (hq : InBounds f.kept q) :
    f.outputTotal v n q =
      ∑ r ∈ (box f.sizes).filter (fun r => without p.summed r = without p.summed q),
        f.product v r := by
  have hlen : q.length = p.total := hq.length_eq.trans f.length_kept
  have hclosed : ∀ axes, (∀ a, a ∈ axes ↔ a ∈ p.summed) → f.outputTotal v n q =
      axesSum axes f.sizes (f.product v) q → f.outputTotal v n q =
        ∑ r ∈ (box f.sizes).filter (fun r => without p.summed r = without p.summed q),
          f.product v r := by
    intro axes haxes htotal
    have hbounds : InBounds (flattened axes f.sizes) q := by
      rwa [flattened_congr haxes]
    rw [htotal, axesSum_eq (fun a ha => f.length_sizes ▸ f.summed_lt a ((haxes a).1 ha)) hbounds]
    simp only [without_congr haxes]
  by_cases hmem : p.unroll ∈ p.summed
  · refine hclosed (p.summedEarly ++ p.summedLate ++ [p.unroll]) (fun a => ?_) ?_
    · simp only [List.mem_append, mem_summedEarly, mem_summedLate, List.mem_singleton]
      grind
    · have hcount : (flattened (p.summedEarly ++ p.summedLate) f.sizes).getD p.unroll 0 = n := by
        rw [List.getD_eq_getElem?_getD, getElem?_flattened,
          if_neg fun h => unroll_notMem_inStep h.1, hn]
        rfl
      rw [outputTotal, if_pos hmem, axesSum_append]
      simp only [axesSum, axisSum, hcount]
      exact Finset.sum_congr rfl fun j _ => stepTotal_eq hlen
  · refine hclosed (p.summedEarly ++ p.summedLate) (fun a => ?_) ?_
    · simp only [List.mem_append, mem_summedEarly, mem_summedLate]
      grind
    · have hsize := f.getElem?_kept hn
      rw [if_neg hmem] at hsize
      obtain ⟨i, hi, hlt⟩ := hq.getElem?_lt hsize
      obtain ⟨hu, hget⟩ := List.getElem?_eq_some_iff.1 hi
      have hqu : q.getD p.unroll 0 = i := by
        rw [List.getD_eq_getElem?_getD, hi]
        rfl
      rw [outputTotal, if_neg hmem, hqu, if_pos hlt, stepTotal_eq (by rw [List.length_set, hlen]),
        List.set_set, ← hget, List.set_getElem_self]

end TrilinearFactors

end TensorLowering
