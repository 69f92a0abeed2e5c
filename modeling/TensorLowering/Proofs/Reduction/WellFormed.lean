import TensorLowering.Proofs.Build.Emissions
import TensorLowering.Proofs.Build.Inputs
import TensorLowering.Proofs.Conversion.PlainRules
import TensorLowering.Proofs.Reduction.Outcomes
import TensorLowering.Proofs.Reduction.Windows

/-!
# Well-formed reductions

In a well-formed reduction every map reads loops of the reduction only, the output is addressed with
the loops that produce it, each once, and every loop is the plain variable of some axis. Main
statement: the reductions of all named kernels are well formed, and so are those with a loop per
batch axis, which are the only others that a batched product creates.
-/
namespace TensorLowering

open Numeric NdArray

namespace AffineExpr

variable {n d : Nat} {a b : AffineExpr}

theorem readsBelow_dim (h : d < n) : (AffineExpr.dim d).ReadsBelow n := by
  rintro _ ⟨⟩
  exact h

theorem readsBelow_const (c : Int) : (AffineExpr.const c).ReadsBelow n := nofun

theorem ReadsBelow.of_sum (ha : a.ReadsBelow n) (hb : b.ReadsBelow n) :
    (AffineExpr.sum a b).ReadsBelow n := by
  intro d hd
  rw [maxDim?] at hd
  cases hma : a.maxDim? with
  | none =>
      rw [hma, Option.merge_none_left] at hd
      exact hb d hd
  | some x =>
      cases hmb : b.maxDim? with
      | none =>
          rw [hma, hmb, Option.merge_none_right] at hd
          exact ha d (hma.trans hd)
      | some y =>
          rw [hma, hmb, Option.merge_some_some, Option.some.injEq] at hd
          have hx := ha x hma
          have hy := hb y hmb
          omega

/-- Folding a sum reads no further loop. -/
theorem ReadsBelow.add (ha : a.ReadsBelow n) (hb : b.ReadsBelow n) : (a.add b).ReadsBelow n := by
  unfold AffineExpr.add
  split
  · exact readsBelow_const _
  · split
    · exact hb
    · exact ha.of_sum hb
  · split
    · exact ha
    · exact ha.of_sum hb
  · exact ha.of_sum hb

theorem ReadsBelow.scale (ha : a.ReadsBelow n) (k : Int) : (a.scale k).ReadsBelow n := by
  unfold AffineExpr.scale
  split
  · exact ha
  · split
    · exact readsBelow_const _
    · split
      · exact readsBelow_const _
      · exact ha

end AffineExpr

namespace Indexing

structure WellFormed (ix : Indexing) : Prop where
  three : ix.maps.length = 3
  numDims : ∀ m ∈ ix.maps, m.numDims = ix.numLoops
  reads : ∀ m ∈ ix.maps, m.ReadsBelow ix.numLoops
  /-- The output is addressed with the loops that produce elements, each once, and with none that is
  summed away. -/
  out : ∃ dims, ix.maps[2]? = some (.projection ix.numLoops dims) ∧ dims.Nodup ∧
    (∀ d, d ∈ dims ↔ ix.iterators[d]? = some .parallel) ∧ ∀ d ∈ ix.reductionDims, d ∉ dims
  bound : ∀ d < ix.numLoops, ∃ m ∈ ix.maps, .dim d ∈ m.results

variable {lhs rhs : List AffineExpr} {dims : List Nat} {iterators : List IteratorKind}

theorem wellFormed_ofResults (hlhs : ∀ e ∈ lhs, e.ReadsBelow iterators.length)
    (hrhs : ∀ e ∈ rhs, e.ReadsBelow iterators.length) (hout : ∀ d ∈ dims, d < iterators.length)
    (hnodup : dims.Nodup)
    (hdims : ∀ d < iterators.length, d ∈ dims ↔ iterators[d]? = some .parallel)
    (hbound : ∀ d < iterators.length, .dim d ∈ lhs ∨ .dim d ∈ rhs ∨ d ∈ dims) :
    (ofResults lhs rhs (dims.map .dim) iterators).WellFormed where
  three := rfl
  numDims := by simp [ofResults, numLoops]
  reads := by
    have hreads : ∀ e ∈ dims.map AffineExpr.dim, e.ReadsBelow iterators.length := by
      intro e he
      obtain ⟨d, hd, rfl⟩ := List.mem_map.1 he
      exact AffineExpr.readsBelow_dim (hout d hd)
    intro m hm
    simp only [ofResults, List.map_cons, List.map_nil, List.mem_cons, List.not_mem_nil,
      or_false] at hm
    rcases hm with rfl | rfl | rfl
    · exact hlhs
    · exact hrhs
    · exact hreads
  out := by
    refine ⟨dims, rfl, hnodup, fun d => ⟨fun hd => (hdims d (hout d hd)).1 hd, fun hd => ?_⟩,
      fun d hd hmem => ?_⟩
    · exact (hdims d (List.getElem?_eq_some_iff.1 hd).1).2 hd
    · have hkind := (List.mem_filter.1 hd).2
      change (iterators[d]? == some .reduction) = true at hkind
      rw [(hdims d (hout d hmem)).1 hmem] at hkind
      cases hkind
  bound := by
    intro d hd
    rcases hbound d hd with hmem | hmem | hmem
    · exact ⟨⟨iterators.length, lhs⟩, by simp [ofResults], hmem⟩
    · exact ⟨⟨iterators.length, rhs⟩, by simp [ofResults], hmem⟩
    · exact ⟨⟨iterators.length, dims.map .dim⟩, by simp [ofResults], List.mem_map_of_mem hmem⟩

theorem wellFormed_projections {lhs rhs : List Nat} (hlhs : ∀ d ∈ lhs, d < iterators.length)
    (hrhs : ∀ d ∈ rhs, d < iterators.length) (hout : ∀ d ∈ dims, d < iterators.length)
    (hnodup : dims.Nodup)
    (hdims : ∀ d < iterators.length, d ∈ dims ↔ iterators[d]? = some .parallel)
    (hbound : ∀ d < iterators.length, d ∈ lhs ∨ d ∈ rhs ∨ d ∈ dims) :
    (projections lhs rhs dims iterators).WellFormed := by
  have hreads : ∀ {ds : List Nat}, (∀ d ∈ ds, d < iterators.length) →
      ∀ e ∈ ds.map AffineExpr.dim, e.ReadsBelow iterators.length := by
    intro ds hds e he
    obtain ⟨d, hd, rfl⟩ := List.mem_map.1 he
    exact AffineExpr.readsBelow_dim (hds d hd)
  refine wellFormed_ofResults (hreads hlhs) (hreads hrhs) hout hnodup hdims fun d hd => ?_
  rcases hbound d hd with hmem | hmem | hmem
  · exact .inl (List.mem_map_of_mem hmem)
  · exact .inr (.inl (List.mem_map_of_mem hmem))
  · exact .inr (.inr hmem)

/-- Loops of which the outer ones produce elements, before others. -/
theorem getElem?_outer {outer d : Nat} {rest : List IteratorKind} (h : d < outer) :
    (List.replicate outer IteratorKind.parallel ++ rest)[d]? = some .parallel := by
  rw [List.getElem?_append_left (by simpa using h), List.getElem?_replicate, if_pos h]

/-- A loop per batch axis. -/
theorem wellFormed_batchIndexing (n : Nat) : (Factors.batchIndexing n).WellFormed := by
  have hrow : List.range n ++ [n, n + 2] = List.range (n + 1) ++ [n + 2] := by
    simp [List.range_succ]
  have hlength : (List.replicate (n + 1) IteratorKind.parallel ++
      [IteratorKind.reduction, IteratorKind.parallel]).length = n + 3 := by simp
  refine wellFormed_projections ?_ ?_ ?_ ?_ ?_ ?_
  · simp
    omega
  · simp
    omega
  · simp
    omega
  · rw [hrow, List.nodup_append]
    refine ⟨List.nodup_range, List.nodup_cons.2 ⟨List.not_mem_nil, List.nodup_nil⟩, ?_⟩
    simp
    omega
  · rw [hlength, hrow]
    intro d hd
    rcases Nat.lt_or_ge d (n + 1) with hlt | hge
    · simp [getElem?_outer hlt, hlt]
    · obtain rfl | rfl : d = n + 1 ∨ d = n + 2 := by omega
      · simp
      · simp
  · rw [hlength]
    intro d hd
    simp
    omega

/-- Loops of which the outer ones produce elements and the inner ones are summed away. -/
theorem wellFormed_nest (dims : List Nat) {out : List AffineExpr} {outer inner : Nat}
    (hlhs : ∀ e ∈ lhs, e.ReadsBelow (outer + inner))
    (hrhs : ∀ e ∈ rhs, e.ReadsBelow (outer + inner)) (hout : out = dims.map .dim)
    (hdims : dims.Perm (List.range outer))
    (hbound : ∀ d, outer ≤ d → d < outer + inner → .dim d ∈ rhs) :
    (ofResults lhs rhs out
      (List.replicate outer .parallel ++ List.replicate inner .reduction)).WellFormed := by
  subst hout
  have hlength : (List.replicate outer IteratorKind.parallel ++
      List.replicate inner IteratorKind.reduction).length = outer + inner := by simp
  have hmem : ∀ d, d ∈ dims ↔ d < outer := fun d => hdims.mem_iff.trans List.mem_range
  refine wellFormed_ofResults (hlength.symm ▸ hlhs) (hlength.symm ▸ hrhs) (fun d hd => ?_)
    (hdims.nodup_iff.2 List.nodup_range) (fun d hd => ?_) fun d hd => ?_
  · have hlt := (hmem d).1 hd
    omega
  · rw [hmem]
    by_cases hlt : d < outer
    · simp [getElem?_outer hlt, hlt]
    · rw [List.getElem?_append_right (by simpa using hlt), List.getElem?_replicate]
      split <;> simp [hlt]
  · by_cases hlt : d < outer
    · exact .inr (.inr ((hmem d).2 hlt))
    · exact .inr (.inl (hbound d (Nat.le_of_not_lt hlt) (hlength ▸ hd)))

end Indexing

/-! ## Convolutions -/

/-- How the operands of a convolution are arranged: the loops before those over the positions of the
output, the number of loops before those over the positions of the kernel, and the loops that
address the axes before and behind the spatial ones of each operand. -/
structure ConvFrame where
  outer : Nat
  inner : Nat
  input : List Nat × List Nat
  weight : List Nat × List Nat
  output : List Nat × List Nat

namespace ConvFrame

/-- The arrangement over `s` spatial axes. -/
def of (s : Nat) : ConvVariant → ConvFrame
  | .standard .channelFirst => ⟨2, 1, ([0, 2 + s], []), ([1, 2 + s], []), ([0, 1], [])⟩
  | .standard .channelLast => ⟨2, 1, ([0], [2 + s]), ([], [2 + s, 1]), ([0], [1])⟩
  | .depthwise .channelFirst => ⟨2, 0, ([0, 1], []), ([1], []), ([0, 1], [])⟩
  | .depthwise .channelLast => ⟨2, 0, ([0], [1]), ([], [1]), ([0], [1])⟩
  | .grouped => ⟨3, 1, ([0, 1, 3 + s], []), ([1, 2, 3 + s], []), ([0, 1, 2], [])⟩

/-- The loops beside those over positions are addressed: the outer ones by the output, each once,
and the inner ones by the weight. -/
structure Fits (f : ConvFrame) (s : Nat) : Prop where
  input : ∀ d ∈ f.input.1 ++ f.input.2, d < f.outer + s + (f.inner + s)
  weight : ∀ d ∈ f.weight.1 ++ f.weight.2, d < f.outer + s + (f.inner + s)
  output : (f.output.1 ++ f.output.2).Perm (List.range f.outer)
  summed : ∀ d, f.outer + s ≤ d → d < f.outer + s + f.inner → d ∈ f.weight.1 ++ f.weight.2

theorem fits (s : Nat) (v : ConvVariant) : (of s v).Fits s := by
  rcases v with (_ | _) | (_ | _) | _
  all_goals
    refine ⟨fun d => ?_, fun d => ?_, .refl _, fun d => ?_⟩
    all_goals
      simp only [of, List.cons_append, List.nil_append, List.mem_cons, List.not_mem_nil, or_false]
      omega

end ConvFrame

namespace ConvKernel

variable {k : ConvKernel} {f : ConvFrame}

/-- Every spatial axis has a stride and a dilation, which are positive. -/
structure Regular (k : ConvKernel) : Prop where
  length : k.dilations.length = k.strides.length
  strides : ∀ n ∈ k.strides, 1 ≤ n
  dilations : ∀ n ∈ k.dilations, 1 ≤ n

/-- Each spatial axis of the input is read where a position of the same axis of the output and one
of the same axis of the weight meet, in 64 bits, and not with a plain variable. -/
def ReadsWindows (k : ConvKernel) (f : ConvFrame) (ix : Indexing) : Prop :=
  ∀ i stride dilation, k.strides[i]? = some stride → k.dilations[i]? = some dilation →
    ∃ lhs rhs out e o w, ix.maps = [lhs, rhs, out] ∧
      lhs.results[f.input.1.length + i]? = some e ∧
      rhs.results[f.weight.1.length + i]? = some (.dim w) ∧
      out.results[f.output.1.length + i]? = some (.dim o) ∧ e.asDim? = none ∧
      ∀ point x y, point[o]? = some x → point[w]? = some y →
        e.eval? point = some (wrapInt64 (x * stride + y * dilation))

/-- The maps in an arrangement. -/
def framed (k : ConvKernel) (f : ConvFrame) : Indexing :=
  let s := k.spatialRank
  let first := f.outer
  let second := f.outer + f.inner + s
  .ofResults (f.input.1.map .dim ++ k.windows first second ++ f.input.2.map .dim)
    (f.weight.1.map .dim ++ loops second s ++ f.weight.2.map .dim)
    (f.output.1.map .dim ++ loops first s ++ f.output.2.map .dim)
    (List.replicate (f.outer + s) .parallel ++ List.replicate (f.inner + s) .reduction)

theorem indexing?_eq_framed (h : k.dilations.length = k.strides.length) :
    k.indexing? = some (k.framed (.of k.spatialRank k.variant)) := by
  have hlen : ¬ k.dilations.length < k.spatialRank := by
    rw [spatialRank, h]
    exact Nat.lt_irrefl _
  obtain ⟨variant, strides, dilations, quantized⟩ := k
  refine (if_neg hlen).trans (congrArg some ?_)
  rcases variant with (_ | _) | (_ | _) | _
  all_goals simp [framed, ConvFrame.of]

theorem windows_readsBelow {first second n : Nat} (hfirst : first + k.spatialRank ≤ n)
    (hsecond : second + k.spatialRank ≤ n) : ∀ e ∈ k.windows first second, e.ReadsBelow n := by
  intro e he
  obtain ⟨i, hi, rfl⟩ := List.mem_mapIdx.1 he
  have hi' : i < k.spatialRank := by
    rw [List.length_zip] at hi
    exact Nat.lt_of_lt_of_le hi (Nat.min_le_left _ _)
  refine .add (.scale (AffineExpr.readsBelow_dim ?_) _) (.scale (AffineExpr.readsBelow_dim ?_) _)
  · omega
  · omega

/-- Plain variables around others. -/
theorem readsBelow_around {before after : List Nat} {middle : List AffineExpr} {n : Nat}
    (h : ∀ d ∈ before ++ after, d < n) (hmiddle : ∀ e ∈ middle, e.ReadsBelow n) :
    ∀ e ∈ before.map .dim ++ middle ++ after.map .dim, e.ReadsBelow n := by
  intro e he
  simp only [List.mem_append, List.mem_map] at he
  rcases he with (⟨d, hd, rfl⟩ | he) | ⟨d, hd, rfl⟩
  · exact AffineExpr.readsBelow_dim (h d (List.mem_append_left _ hd))
  · exact hmiddle e he
  · exact AffineExpr.readsBelow_dim (h d (List.mem_append_right _ hd))

theorem wellFormed_framed (hf : f.Fits k.spatialRank) : (k.framed f).WellFormed := by
  have hloops : ∀ e ∈ loops (f.outer + f.inner + k.spatialRank) k.spatialRank,
      e.ReadsBelow (f.outer + k.spatialRank + (f.inner + k.spatialRank)) := by
    intro e he
    obtain ⟨d, hd, rfl⟩ := List.mem_map.1 he
    rw [List.mem_range'_1] at hd
    exact AffineExpr.readsBelow_dim (by omega)
  refine Indexing.wellFormed_nest
    (f.output.1 ++ List.range' f.outer k.spatialRank ++ f.output.2)
    (readsBelow_around hf.input (windows_readsBelow (by omega) (by omega)))
    (readsBelow_around hf.weight hloops) (by simp [loops]) ?_ fun d hd hlt => ?_
  · have hsplit : List.range (f.outer + k.spatialRank) =
        List.range f.outer ++ List.range' f.outer k.spatialRank := by
      rw [List.range_add, List.range'_eq_map_range]
    rw [hsplit, List.append_assoc]
    refine (List.perm_append_comm.append_left f.output.1).trans ?_
    rw [← List.append_assoc]
    exact hf.output.append_right _
  · by_cases hinner : d < f.outer + k.spatialRank + f.inner
    · have hmem := hf.summed d hd hinner
      simp only [List.mem_append, List.mem_map] at hmem ⊢
      rcases hmem with hmem | hmem
      · exact .inl (.inl ⟨d, hmem, rfl⟩)
      · exact .inr ⟨d, hmem, rfl⟩
    · refine List.mem_append_left _ (List.mem_append_right _ (List.mem_map_of_mem ?_))
      rw [List.mem_range'_1]
      omega

/-- An entry of the middle part. -/
theorem getElem?_around {before after middle : List AffineExpr} {n i : Nat} {e : AffineExpr}
    (hn : n = before.length) (h : middle[i]? = some e) :
    (before ++ middle ++ after)[n + i]? = some e := by
  subst hn
  obtain ⟨hi, -⟩ := List.getElem?_eq_some_iff.1 h
  rw [List.append_assoc, List.getElem?_append_right (Nat.le_add_right _ _),
    Nat.add_sub_cancel_left, List.getElem?_append_left hi, h]

theorem readsWindows_framed (h : k.Regular) : k.ReadsWindows f (k.framed f) := by
  intro i stride dilation hstride hdilation
  have hi : i < k.spatialRank := (List.getElem?_eq_some_iff.1 hstride).1
  have hloop : ∀ first, (loops first k.spatialRank)[i]? = some (.dim (first + i)) := by
    intro first
    rw [loops, List.getElem?_map, List.getElem?_range' hi, Nat.one_mul]
    rfl
  have hwindow : (k.windows f.outer (f.outer + f.inner + k.spatialRank))[i]? =
      some (((AffineExpr.dim (f.outer + i)).scale stride).add
        ((AffineExpr.dim (f.outer + f.inner + k.spatialRank + i)).scale dilation)) := by
    have hstep : (k.strides.zip k.dilations)[i]? = some (stride, dilation) :=
      List.getElem?_zip_eq_some.2 ⟨hstride, hdilation⟩
    rw [windows, List.getElem?_mapIdx, hstep]
    rfl
  have hstride_pos := h.strides stride (List.mem_of_getElem? hstride)
  have hdilation_pos := h.dilations dilation (List.mem_of_getElem? hdilation)
  refine ⟨_, _, _, _, f.outer + i, f.outer + f.inner + k.spatialRank + i, rfl,
    getElem?_around (by simp) hwindow, getElem?_around (by simp) (hloop _),
    getElem?_around (by simp) (hloop _),
    AffineExpr.asDim?_add_scale (by omega) (by omega), fun point x y hx hy => ?_⟩
  exact AffineExpr.eval?_add_scale (by omega) (by omega) hx hy

theorem Regular.wellFormed (h : k.Regular) : ∃ ix, k.indexing? = some ix ∧ ix.WellFormed ∧
    k.ReadsWindows (.of k.spatialRank k.variant) ix :=
  ⟨_, indexing?_eq_framed h.length, wellFormed_framed (ConvFrame.fits _ _), readsWindows_framed h⟩

end ConvKernel

/-! ## Kernels and batches -/

theorem NamedKernel.exists_wellFormed {k : NamedKernel} (h : ∀ c, k = .conv c → c.Regular) :
    ∃ ix, k.indexing? = some ix ∧ ix.WellFormed ∧
      ∀ c, k = .conv c → c.ReadsWindows (.of c.spatialRank c.variant) ix := by
  cases k with
  | conv c =>
      obtain ⟨ix, hix, hwf, hwindows⟩ := (h c rfl).wellFormed
      refine ⟨ix, hix, hwf, ?_⟩
      rintro _ ⟨⟩
      exact hwindows
  | dot | vecmat | matvec | matmul | batchMatmul | quantizedMatmul | quantizedBatchMatmul =>
      exact ⟨_, rfl, Indexing.wellFormed_projections (by decide) (by decide) (by decide) (by decide)
        (by decide) (by decide), nofun⟩

/-- The reductions of named kernels are well formed, and so are those that a batched product
creates. -/
theorem reductions_wellFormed :
    (∀ k : NamedKernel, (∀ c, k = .conv c → c.Regular) →
      ∃ ix, k.indexing? = some ix ∧ ix.WellFormed ∧
        ∀ c, k = .conv c → c.ReadsWindows (.of c.spatialRank c.variant) ix) ∧
    (∀ n, (Factors.batchIndexing n).WellFormed) ∧
    ∀ (f : Factors) (g : Graph) (d d' : Draft) (v : ValueId), Draft.Over g d →
      f.batched.run d = (.ok v, d') →
      ∃ spec zeroPoints ix, d'.reductions = d.reductions ++ [(spec, zeroPoints)] ∧
        f.BatchedBy spec zeroPoints ∧ spec.indexing? = some ix ∧ ix.WellFormed := by
  refine ⟨fun k => NamedKernel.exists_wellFormed, Indexing.wellFormed_batchIndexing,
    fun f g d d' v hover hrun => ?_⟩
  have hcreates : f.batched.Reduces f.BatchedBy False := f.batched_creates
  obtain ⟨spec, zeroPoints, hspec, hcreated⟩ := hcreates.reductions_run hover hrun
  obtain ⟨ix, hix, hwf⟩ : ∃ ix, spec.indexing? = some ix ∧ ix.WellFormed := by
    obtain ⟨-, rfl | ⟨n, -, rfl⟩⟩ := hspec
    · obtain ⟨ix, hix, hwf, -⟩ := NamedKernel.exists_wellFormed
        (k := if f.isQuantized then .quantizedBatchMatmul else .batchMatmul)
        (by cases f.isQuantized <;> nofun)
      exact ⟨ix, hix, hwf⟩
    · exact ⟨_, rfl, Indexing.wellFormed_batchIndexing n⟩
  exact ⟨spec, zeroPoints, ix, hcreated, hspec, hix, hwf⟩

/-- Batches with two open axes. -/
def openStacks : TensorType := ⟨.float32, ⟨[.dynamic, .dynamic, .dynamic, .dynamic]⟩⟩

/-- A grouped kernel, and a product that has a loop for each of two batch axes. -/
theorem reductions_wellFormed_stacked :
    (∃ ix, (NamedKernel.conv ⟨.grouped, [2, 1], [1, 3], true⟩).indexing? = some ix ∧
      ix.WellFormed) ∧
    ∃ v d, (Factors.mk ⟨⟨0⟩, openStacks, none⟩ ⟨⟨1⟩, openStacks, none⟩ .float32).batched.run
        (.ofGraph (.takingAs [openStacks, openStacks])) = (.ok v, d) ∧
      d.reductions = [(.generic (Factors.batchIndexing 2) false, none)] ∧
      (Factors.batchIndexing 2).WellFormed := by
  obtain ⟨v, d, hrun⟩ : ∃ v d,
      (Factors.mk ⟨⟨0⟩, openStacks, none⟩ ⟨⟨1⟩, openStacks, none⟩ .float32).batched.run
        (.ofGraph (.takingAs [openStacks, openStacks])) = (.ok v, d) := ⟨_, _, rfl⟩
  obtain ⟨hkernels, -, hruns⟩ := reductions_wellFormed
  obtain ⟨ix, hix, hwf, -⟩ := hkernels (.conv ⟨.grouped, [2, 1], [1, 3], true⟩) (by
    rintro _ ⟨⟩
    exact ⟨rfl, by decide, by decide⟩)
  obtain ⟨spec, zeroPoints, ix', hcreated, -, hix', hwf'⟩ :=
    hruns _ _ _ d v (Draft.Over.ofGraph _) hrun
  have hreductions : d.reductions = [(.generic (Factors.batchIndexing 2) false, none)] := by
    obtain ⟨⟩ := hrun
    rfl
  obtain ⟨⟩ := hreductions.symm.trans hcreated
  obtain ⟨⟩ := hix'
  exact ⟨⟨ix, hix, hwf⟩, v, d, hrun, hreductions, hwf'⟩

end TensorLowering
