import TensorLowering.Proofs.Build.DeclaredElementwise
import TensorLowering.Proofs.Build.DeclaredLayouts
import TensorLowering.Proofs.Build.Guards
import TensorLowering.Proofs.Trilinear.Products

/-!
# Unrolling a trilinear product of declared factors

The loop over factors of which some sizes are open. Main statement: unless a guard stops the
program, its nodes compute the output of the loop, as long as each factor that has size one along
the unrolled axis, beside others that have more, is declared so.
-/
namespace TensorLowering

open Numeric NdArray Stage Build

/-- Guards may stop the program, and the construction may fail. -/
def Limits.guarded : Limits where
  fails := fun _ => True
  stops := fun e => ∃ message, e = .guardFailed message
  considers := fun _ => True

namespace TrilinearFactors

variable {p : TrilinearPlan} (f : TrilinearFactors p) {l : Limits} {s : Stage} {v : ValueId}
  {factors : Triple (ValueId × Bool)} {n k : Nat} {zero : Size}

/-- The values that the steps below `n` read: the factors, and whether each is sliced at the start
of the unrolled axis. -/
def Slices (s : Stage) (factors : Triple (ValueId × Bool)) (n : Nat) : Prop :=
  factors.Related (fun (x : ValueId × Bool) (t : Tensor) =>
    s.HasTensor x.1 t ∧ ∀ k < n, (if x.2 then (0 : Int) else k) = start p t k) f.tensors

theorem Slices.mono {s s' : Stage} (h : f.Slices s factors n) (hle : s ≤ s') :
    f.Slices s' factors n :=
  ⟨⟨h.first.1.mono hle, h.first.2⟩, ⟨h.second.1.mono hle, h.second.2⟩,
    ⟨h.third.1.mono hle, h.third.2⟩⟩

theorem slices_meets (hreads : f.Slices s factors n) (hn : f.sizes[p.unroll]? = some n)
    (hk : k < n) :
    (factors.mapM fun (x : ValueId × Bool) =>
      narrow x.1 p.unroll (if x.2 then (0 : Int) else k) 1).Meets l s fun ys s' =>
        ys.Related s'.HasTensor (f.slices k) := by
  let pre (x : ValueId × Bool) (t : Tensor) (s : Stage) : Prop :=
    (s.HasTensor x.1 t ∧ (if x.2 then (0 : Int) else k) = start p t k) ∧
      ∃ m, t.shape[p.unroll]? = some m ∧ start p t k < m
  let post (y : ValueId) (t : Tensor) (s : Stage) : Prop :=
    s.HasTensor y (t.slice p.unroll (start p t k))
  have hslice : ∀ {x : ValueId × Bool} {t : Tensor} {s : Stage}, pre x t s →
      (narrow x.1 p.unroll (if x.2 then (0 : Int) else k) 1).Meets l s fun y s' =>
        post y t s' := by
    rintro x t s ⟨⟨hv, hstart⟩, m, hm, hlt⟩
    rw [hstart]
    exact narrow_meets hv hm hlt
  refine (Meets.triple pre post f.tensors
    (fun hle h => ⟨⟨h.1.1.mono hle, h.1.2⟩, h.2⟩) (fun hle h => HasTensor.mono h hle) hslice
    ⟨⟨⟨hreads.first.1, hreads.first.2 k hk⟩, f.start_lt f.first_rank f.within_first hn hk⟩,
      ⟨⟨hreads.second.1, hreads.second.2 k hk⟩, f.start_lt f.second_rank f.within_second hn hk⟩,
      ⟨⟨hreads.third.1, hreads.third.2 k hk⟩,
        f.start_lt f.third_rank f.within_third hn hk⟩⟩).weaken ?_
  exact fun ys s' _ h => ⟨h.first, h.second, h.third⟩

/-- No node of a step stops the program. -/
theorem step_meets (hfit : ¬ TooLarge f.sizes) (hreads : f.Slices s factors n)
    (hn : f.sizes[p.unroll]? = some n) (hk : k < n) :
    (p.step factors f.dtype k).Meets l s fun v s' => s'.HasTensor v (f.contribution k) := by
  obtain ⟨hpair, hstep⟩ := f.common_slices k
  obtain ⟨hfirst, hsecond, hthird⟩ := f.length_slices k
  unfold TrilinearPlan.step
  refine .bind (f.slices_meets hreads hn hk) fun ys s₁ hle₁ hys => ?_
  refine .bind (elementwise_meets hys.first hys.second (hfirst.trans hsecond.symm) hpair
    (f.fits_pair hfit)) fun v₁ s₂ hle₂ hv₁ => ?_
  refine .bind (foldlM_sum_meets hv₁ fun a ha => ?_) fun v₂ s₃ hle₃ hv₂ => ?_
  · rw [Tensor.shape_combined, List.length_set, f.length_pairSizes]
    exact f.summedInStep_lt (.inl ha)
  refine .bind (elementwise_meets hv₂ ((hys.third.mono hle₂).mono hle₃)
    ((f.length_pairSum k).trans hthird.symm) hstep
    (f.within_stepSizes.not_tooLarge hfit)) fun v₃ s₄ hle₄ hv₃ => ?_
  refine foldlM_sum_meets hv₃ fun a ha => ?_
  rw [Tensor.shape_combined, f.length_stepSizes]
  exact f.summedInStep_lt (.inr ha)

theorem areSizes_slot {offset : Size} (hzero : s.IsSize l zero 0) (hoffset : s.IsSize l offset k)
    (total u : Nat) :
    s.AreSizes l ((List.replicate total zero).set u offset) ((List.replicate total 0).set u k) := by
  refine forall₂_set (r := fun z (n : Nat) => s.IsSize l z n) ?_ hoffset u
  induction total with
  | zero => exact .nil
  | succ total ih => exact .cons hzero ih

/-- The nodes of a step compute the output after it. -/
theorem accumulate_meets (hfit : ¬ TooLarge f.sizes) (hreads : f.Slices s factors n)
    (hv : s.HasTensor v (f.output k)) (hzero : s.IsSize l zero 0)
    (hn : f.sizes[p.unroll]? = some n) (hk : k < n)
    (hexact : p.unroll ∉ p.summed → Binary64.IsExact k) :
    (p.accumulate factors f.dtype zero v k).Meets l s fun v' s' =>
      s'.HasTensor v' (f.output (k + 1)) := by
  unfold TrilinearPlan.accumulate
  refine .bind (f.step_meets hfit hreads hn hk) fun step s₁ hle₁ hstep => ?_
  rw [output]
  by_cases hsummed : p.unrollIsSummed = true
  · have hmem : p.unroll ∈ p.summed := List.contains_iff_mem.1 hsummed
    rw [if_pos hsummed, if_pos hsummed]
    refine elementwise_meets (hv.mono hle₁) hstep ?_ (f.common_output hn hmem k)
      (f.within_kept.not_tooLarge hfit)
    rw [f.shape_output, f.shape_contribution_of_mem hn hmem]
  · have hmem : p.unroll ∉ p.summed := fun hmem => hsummed (List.contains_iff_mem.2 hmem)
    rw [if_neg hsummed, if_neg hsummed]
    refine .bind (narrow_meets (hv.mono hle₁) (f.getElem?_output hn hmem k) hk)
      fun slot s₂ hle₂ hslot => ?_
    refine .bind (elementwise_meets hslot (hstep.mono hle₂)
      (congrArg List.length (f.shape_slot k)) (f.common_slot k)
      ((f.within_kept.set_one p.unroll).not_tooLarge hfit)) fun updated s₃ hle₃ hupdated => ?_
    refine .bind (index_meets (.of_isExact (hexact hmem))) fun offset s₄ hle₄ hoffset => ?_
    have hout := (((hv.mono hle₁).mono hle₂).mono hle₃).mono hle₄
    have hzero' := (((hzero.mono hle₁).mono hle₂).mono hle₃).mono hle₄
    exact insertSlice_meets (hupdated.mono hle₄) hout (f.dtype_output k).symm
      (areSizes_slot hzero' hoffset.1 p.total p.unroll) (by simp [length_kept])
      (by simp [length_kept]) (by simp [f.shape_output]) (f.slot_fits hn hmem hk rfl)

/-- The output can be made, the places of its slots are doubles, and each factor that has size one
along the unrolled axis is declared so, if there is a second step. -/
structure Open (types : Triple TensorType) : Prop where
  fits : ¬ TooLarge f.sizes
  slot : p.unroll ∉ p.summed → ∀ k < f.sizes.getD p.unroll 0, Binary64.IsExact k
  units : 1 < f.sizes.getD p.unroll 0 → types.Related (fun (type : TensorType) (t : Tensor) =>
    t.shape[p.unroll]? = some 1 → type.shape.dims[p.unroll]? = some (.static 1)) f.tensors

end TrilinearFactors

namespace TrilinearPlan

variable {p : TrilinearPlan} {s : Stage} {ts : Triple Tensor} {vs : Triple ValueId}
  {types : Triple TensorType} {dtype : DType}

theorem unrollSize_meets {l : Limits} {config : LoweringConfig} {zs : List Size} {ns : List Nat}
    (hfails : ∀ e, l.fails e) (h : s.HaveSizes zs ns) :
    (p.unrollSize config zs).Meets l s fun n s' => s' = s ∧ ns[p.unroll]? = some n := by
  have hknown := List.Forall₂.imp (fun (z : Size) (n : Nat) (hz : s.HasSize z n) => hz.known) h
  obtain ⟨e, he⟩ | ⟨n, hn, hget⟩ := unrollSize_cases (p := p) config hknown
  · rw [he]
    exact hfails e
  · rw [hn]
    exact .pure ⟨rfl, hget⟩

/-- A factor is sliced where it has to be, if its size of one shows. -/
theorem cast_start {type : TensorType} {t : Tensor} {k n : Nat} (htype : t.HasType type)
    (hk : k < n) (hunits : 1 < n → t.shape[p.unroll]? = some 1 →
      type.shape.dims[p.unroll]? = some (.static 1)) :
    (if decide (type.shape.dims[p.unroll]? = some (.static 1)) then (0 : Int) else k) =
      TrilinearFactors.start p t k := by
  rw [TrilinearFactors.start]
  by_cases hsays : type.shape.dims[p.unroll]? = some (.static 1)
  · rw [if_pos (decide_eq_true hsays), if_pos (htype.admits.getElem?_static hsays)]
    rfl
  · rw [decide_eq_false hsays, if_neg Bool.false_ne_true]
    split
    next hone =>
      -- there is only one step
      have hn : ¬ 1 < n := fun h => hsays (hunits h hone)
      obtain rfl : k = 0 := by omega
      rfl
    next => rfl

/-- Sizes that are read from a tensor: which of them are one shows by its declared type. -/
def ShowsOnes (s : Stage) (zs : List Size) (type : TensorType) (t : Tensor) : Prop :=
  s.HaveSizes zs t.shape ∧
    ∀ i : Nat, zs[i]?.any Size.isOne = decide (type.shape.dims[i]? = some (Dim.static 1))

theorem ShowsOnes.mono {s' : Stage} {zs : List Size} {type : TensorType} {t : Tensor}
    (h : ShowsOnes s zs type t) (hle : s ≤ s') : ShowsOnes s' zs type t :=
  ⟨h.1.mono hle, h.2⟩

/-- Each factor is sliced where it has to be. -/
theorem slices_of_declared {f : TrilinearFactors p} {zs : Triple (List Size)} {n : Nat}
    (hvs : vs.Related (fun v c => s.Declared v c.1 c.2) (types.zip f.tensors))
    (hzs : zs.Related (fun zs c => ShowsOnes s zs c.1 c.2) (types.zip f.tensors))
    (hunits : 1 < n → types.Related (fun (type : TensorType) (t : Tensor) =>
      t.shape[p.unroll]? = some 1 → type.shape.dims[p.unroll]? = some (.static 1)) f.tensors) :
    f.Slices s (vs.zip (zs.map fun s => s[p.unroll]?.any Size.isOne)) n := by
  have hstart : ∀ {v : ValueId} {zs : List Size} {type : TensorType} {t : Tensor},
      s.Declared v type t → ShowsOnes s zs type t →
      (1 < n → t.shape[p.unroll]? = some 1 → type.shape.dims[p.unroll]? = some (.static 1)) →
      s.HasTensor v t ∧ ∀ k < n,
        (if zs[p.unroll]?.any Size.isOne then (0 : Int) else k) =
          TrilinearFactors.start p t k := by
    intro v zs type t hv hones hunit
    refine ⟨hv.hasTensor, fun k hk => ?_⟩
    rw [hones.2]
    exact cast_start hv.type hk hunit
  exact ⟨hstart hvs.first hzs.first fun h => (hunits h).first,
    hstart hvs.second hzs.second fun h => (hunits h).second,
    hstart hvs.third hzs.third fun h => (hunits h).third⟩

/-- The steps of the loop compute the output after all of them. -/
theorem steps_meets {l : Limits} {f : TrilinearFactors p} {zs : Triple (List Size)}
    {common : List Size} {n : Nat}
    (hvs : vs.Related (fun v c => s.Declared v c.1 c.2) (types.zip f.tensors))
    (hzs : zs.Related (fun zs c => ShowsOnes s zs c.1 c.2) (types.zip f.tensors))
    (hcommon : s.HaveSizes common f.sizes) (hn : f.sizes[p.unroll]? = some n)
    (hopen : f.Open types) :
    (p.steps vs f.dtype zs common n).Meets l s fun v s' => s'.HasTensor v (f.output n) := by
  obtain ⟨hfits, hslot, hunits⟩ := hopen
  have hcount : f.sizes.getD p.unroll 0 = n := by
    rw [List.getD_eq_getElem?_getD]
    exact congrArg (·.getD 0) hn
  rw [hcount] at hslot hunits
  have hslices := slices_of_declared hvs hzs hunits
  refine .bind (index_meets (n := 1) (.of_isExact Binary64.isExact_one)) fun one s₁ hle₁ hone => ?_
  have hkept : s₁.HaveSizes (p.summed.foldl (fun sizes axis => sizes.set axis one) common)
      f.kept :=
    forall₂_flattened (hcommon.mono hle₁) hone.1.hasSize p.summed
  refine .bind (zeros_meets hkept fun hlarge => absurd hlarge (f.within_kept.not_tooLarge hfits))
    fun output s₂ hle₂ houtput => ?_
  refine .bind (index_meets (n := 0) (.of_isExact Binary64.isExact_zero)) ?_
  intro zero s₃ hle₃ hzero
  have hle := hle₁.trans (hle₂.trans hle₃)
  refine Meets.foldlM_range (fun k v s' => s'.HasTensor v (f.output k)) (houtput.1.mono hle₃)
    fun k hk v s' hle' hv => ?_
  exact f.accumulate_meets hfits (hslices.mono f (hle.trans hle')) hv (hzero.1.mono hle') hn hk
    fun hmem => hslot hmem k hk

/-- What the unrolled loop computes, if no guard stops the program. -/
theorem unrolled_meets (config : LoweringConfig)
    (hvs : vs.Related (fun v c => s.Declared v c.1 c.2) (types.zip ts)) (halign : p.Aligns ts)
    (hexact : ∀ type ∈ types.toList, ∀ n, Dim.static n ∈ type.shape.dims → Binary64.IsExact n)
    (hopen : ∀ f : TrilinearFactors p, f.tensors = ts → f.Open types) :
    (p.unrolled config vs dtype).Meets .guarded s fun v s' =>
      ∃ (f : TrilinearFactors p) (n : Nat), f.tensors = ts ∧ f.dtype = dtype ∧
        f.sizes[p.unroll]? = some n ∧ s'.HasTensor v (f.output n) := by
  have hmem : ts.first ∈ ts.toList ∧ ts.second ∈ ts.toList ∧ ts.third ∈ ts.toList := by
    simp [Triple.toList]
  have hmem' : types.first ∈ types.toList ∧ types.second ∈ types.toList ∧
      types.third ∈ types.toList := by
    simp [Triple.toList]
  let pre (v : ValueId) (c : TensorType × Tensor) (s : Stage) : Prop :=
    s.Declared v c.1 c.2 ∧ c.1 ∈ types.toList ∧ c.2 ∈ ts.toList
  let post (zs : List Size) (c : TensorType × Tensor) (s : Stage) : Prop := ShowsOnes s zs c.1 c.2
  have hdims : ∀ {v : ValueId} {c : TensorType × Tensor} {s : Stage}, pre v c s →
      (dims v).Meets .guarded s fun zs s' => post zs c s' :=
    fun h => dims_declared_meets h.1 (halign.size_lt _ h.2.2) (hexact _ h.2.1)
  refine .bind (Meets.triple pre post (types.zip ts)
    (fun hle h => ⟨h.1.mono hle, h.2⟩) (fun hle h => h.mono hle) hdims
    ⟨⟨hvs.first, hmem'.1, hmem.1⟩, ⟨hvs.second, hmem'.2.1, hmem.2.1⟩,
      ⟨hvs.third, hmem'.2.2, hmem.2.2⟩⟩) ?_
  intro zs s₁ hle₁ hzs
  have hbroadcast : ∀ {s : Stage} {zs zs' : List Size} {ms ns : List Nat},
      s.HaveSizes zs ms → s.HaveSizes zs' ns → (broadcastSizes zs zs').Meets .guarded s
        fun ys s' => ∃ sizes, broadcastShape ms ns = .ok sizes ∧ s'.HaveSizes ys sizes :=
    fun hl hr => broadcastSizes_common_meets hl hr (fun _ _ _ _ => trivial)
      fun _ message => ⟨message, rfl⟩
  refine .bind (hbroadcast hzs.first.1 hzs.second.1) ?_
  rintro pairZs s₂ hle₂ ⟨pairSizes, hpair, hpairZs⟩
  refine .bind (hbroadcast hpairZs (HaveSizes.mono hzs.third.1 hle₂)) ?_
  rintro common s₃ hle₃ ⟨sizes, hok, hcommon⟩
  obtain ⟨f, rfl, rfl, rfl⟩ := halign.exists_factors dtype hpair hok
  refine .bind (unrollSize_meets (fun _ => trivial) hcommon) ?_
  rintro n s₄ - ⟨rfl, hn⟩
  have hle₁₃ := hle₂.trans hle₃
  have hle := hle₁.trans hle₁₃
  refine (steps_meets ⟨hvs.first.mono hle, hvs.second.mono hle, hvs.third.mono hle⟩
    ⟨hzs.first.mono hle₁₃, hzs.second.mono hle₁₃, hzs.third.mono hle₁₃⟩ hcommon hn
    (hopen f rfl)).weaken ?_
  exact fun v s' _ hv => ⟨f, n, rfl, rfl, hn, hv⟩

end TrilinearPlan

end TensorLowering
