import TensorLowering.Proofs.Build.Inputs
import TensorLowering.Proofs.Trilinear.Sums

/-!
# Lowering of trilinear products

The factors are aligned by inserting the axes that each lacks, the loop over the unrolled axis is
run, and the summed axes are removed. Main statement: whenever the rule succeeds, the program with
the created nodes computes the sums of the products, whichever axis is unrolled.
-/
namespace TensorLowering

open Numeric NdArray Stage Build

/-- The value is declared with the type of the tensor and has it when the program runs. -/
structure Graph.Has (g : Graph) (env : Env) (v : ValueId) (t : Tensor) : Prop where
  type : g.tensorType v = .ok t.type
  get : env.get? v = some (.tensor t)

namespace TrilinearPlan

variable {p : TrilinearPlan} {ts : Triple Tensor}

/-- The factors with the axes that they lack. -/
def aligned (p : TrilinearPlan) (ts : Triple Tensor) : Triple Tensor :=
  ⟨ts.first.aligned p.expand.first, ts.second.aligned p.expand.second,
    ts.third.aligned p.expand.third⟩

/-- The integers of factors at positions that also have the axes that a factor lacks. -/
def inserted (p : TrilinearPlan) (v : Triple (List Nat → Int)) : Triple (List Nat → Int) :=
  ⟨fun i => v.first (without p.expand.first i), fun i => v.second (without p.expand.second i),
    fun i => v.third (without p.expand.third i)⟩

/-- The elements of the factors are the integers. -/
def HasIntegers (ts : Triple Tensor) (v : Triple (List Nat → Int)) : Prop :=
  ts.Related (fun (t : Tensor) (value : List Nat → Int) =>
    ∀ i, InBounds t.shape i → (t.entry i).toInt? = some (value i)) v

end TrilinearPlan

namespace TrilinearFactors

variable {p : TrilinearPlan}

/-- The product of the three factors, summed over the summed axes. -/
def total (f : TrilinearFactors p) (v : Triple (List Nat → Int)) (o : List Nat) : Int :=
  ∑ q ∈ (box f.sizes).filter (fun q => without p.summed q = o), f.product (p.inserted v) q

end TrilinearFactors

namespace TrilinearAxes

variable {axes : TrilinearAxes} {ts : Triple Tensor} {rank : Nat} {types : Triple TensorType}

theorem requireRank_eq_ok {p : TrilinearPlan} {i : Nat} {type : TensorType} {expand : List Nat}
    (h : p.requireRank i type expand = .ok ()) : type.rank + expand.length = p.total := by
  unfold TrilinearPlan.requireRank at h
  split at h
  next hrank => exact hrank
  next => cases h

theorem requireRanks_eq_ok {p : TrilinearPlan} (h : p.requireRanks types = .ok ()) :
    types.first.rank + p.expand.first.length = p.total ∧
      types.second.rank + p.expand.second.length = p.total ∧
      types.third.rank + p.expand.third.length = p.total := by
  obtain ⟨⟨⟩, h1, h⟩ := Except.bind_eq_ok.1 h
  obtain ⟨⟨⟩, h2, h3⟩ := Except.bind_eq_ok.1 h
  exact ⟨requireRank_eq_ok h1, requireRank_eq_ok h2, requireRank_eq_ok h3⟩

theorem namedAxes_lt {n total : Nat} {named : List Int}
    (hrank : n + (namedAxes total named).length = total) :
    ∀ a ∈ namedAxes total named, a < n + (namedAxes total named).length := by
  intro a ha
  rw [hrank]
  exact (mem_namedAxes.1 ha).1

/-- Named axes are inserted in their place. -/
theorem aligned_shape {t : Tensor} {total : Nat} {named : List Int}
    (hrank : t.shape.length + (namedAxes total named).length = total) :
    (t.aligned (namedAxes total named)).shape.length = total ∧
      ∀ a ∈ namedAxes total named, (t.aligned (namedAxes total named)).shape[a]? = some 1 := by
  have hlt := namedAxes_lt hrank
  refine ⟨(length_extended (pairwise_namedAxes _ _) hlt 1).trans hrank, fun a ha => ?_⟩
  exact getElem?_extended (pairwise_namedAxes _ _) hlt 1 ha

/-- The aligned factors have one rank. -/
theorem aligns (hfits : ∀ t ∈ ts.toList, ¬ TooLarge t.shape)
    (hunroll : (axes.plan rank).unroll < (axes.plan rank).total)
    (hranks : (axes.plan rank).requireRanks types = .ok ())
    (htypes : types.Related (fun type t => type.rank = t.shape.length) ts) :
    (axes.plan rank).Aligns ((axes.plan rank).aligned ts) := by
  obtain ⟨h1, h2, h3⟩ := requireRanks_eq_ok hranks
  rw [htypes.first] at h1
  rw [htypes.second] at h2
  rw [htypes.third] at h3
  have hsize : ∀ t ∈ ts.toList, ∀ (expand : List Nat), ∀ n ∈ (t.aligned expand).shape,
      n < 0x8000000000000000 := by
    intro t ht expand n hn
    rcases mem_extended hn with rfl | hn
    · decide
    · exact lt_of_mem_of_not_tooLarge (hfits t ht) hn
  simp only [Triple.toList, List.mem_cons, List.not_mem_nil, or_false, forall_eq_or_imp,
    forall_eq] at hsize
  refine ⟨?_, ?_, (aligned_shape h3).2, hunroll, fun a ha => (mem_namedAxes.1 ha).1⟩
  · simp only [Triple.toList, List.mem_cons, List.not_mem_nil, or_false, forall_eq_or_imp,
      forall_eq]
    exact ⟨(aligned_shape h1).1, (aligned_shape h2).1, (aligned_shape h3).1⟩
  · simp only [Triple.toList, List.mem_cons, List.not_mem_nil, or_false, forall_eq_or_imp,
      forall_eq]
    exact ⟨hsize.1 _, hsize.2.1 _, hsize.2.2 _⟩

variable {s : Stage} {inputs : Triple ValueId}

/-- The types of the factors. -/
theorem mapM_tensorType_gives {fails : LowerError → Prop} (hin : s.HoldsAll inputs ts) :
    (inputs.mapM tensorType).Gives fails s fun types _ => types = ts.map Tensor.type := by
  let post (type : TensorType) (t : Tensor) (_ : Stage) : Prop := type = t.type
  refine (Gives.triple (fun v t s => s.Holds v t) post ts
    (fun hle h => h.mono hle) (fun _ h => h) (fun hv => ?_) hin).weaken fun types s' _ h => ?_
  · rw [← bind_pure (tensorType _)]
    exact .tensorType hv (.pure rfl)
  · obtain ⟨first, second, third⟩ := types
    obtain ⟨rfl, rfl, rfl⟩ := h
    rfl

/-- Inserting the axes that the factors lack. -/
theorem mapM_align_gives {fails : LowerError → Prop} (hin : s.HoldsAll inputs ts)
    (hranks : (axes.plan rank).requireRanks (ts.map Tensor.type) = .ok ()) :
    ((inputs.zip (axes.plan rank).expand).mapM fun (x : ValueId × List Nat) =>
      TrilinearPlan.align x.1 x.2).Gives fails s fun vs s' =>
        s'.HoldsAll vs ((axes.plan rank).aligned ts) := by
  obtain ⟨h1, h2, h3⟩ := requireRanks_eq_ok hranks
  simp only [Triple.map, Tensor.rank_type] at h1 h2 h3
  let pre (x : ValueId × List Nat) (c : Tensor × List Nat) (s : Stage) : Prop :=
    s.Holds x.1 c.1 ∧ x.2 = c.2 ∧ c.2.Pairwise (· < ·) ∧
      ∀ a ∈ c.2, a < c.1.shape.length + c.2.length
  let post (v : ValueId) (c : Tensor × List Nat) (s : Stage) : Prop := s.Holds v (c.1.aligned c.2)
  refine (Gives.triple pre post (ts.zip (axes.plan rank).expand)
    (fun hle h => ⟨h.1.mono hle, h.2⟩) (fun hle h => Holds.mono h hle) ?_
    ⟨⟨hin.first, rfl, pairwise_namedAxes _ _, namedAxes_lt h1⟩,
      ⟨hin.second, rfl, pairwise_namedAxes _ _, namedAxes_lt h2⟩,
      ⟨hin.third, rfl, pairwise_namedAxes _ _, namedAxes_lt h3⟩⟩).weaken fun vs s' _ h =>
        ⟨h.first, h.second, h.third⟩
  rintro x ⟨t, expand⟩ s ⟨hv, hexpand, hpair, hlt⟩
  rw [hexpand]
  exact foldlM_unsqueeze_gives hv hpair hlt

/-- What the lowering gives: the sums of the last step, without the summed axes. -/
theorem lower_gives (config : LoweringConfig) {result : TensorType} (hin : s.HoldsAll inputs ts)
    (hfits : ∀ t ∈ ts.toList, ¬ TooLarge t.shape)
    (hexact : ∀ f : TrilinearFactors (axes.plan ts.first.shape.length),
      f.tensors = (axes.plan ts.first.shape.length).aligned ts → f.Exact) :
    (Rule.lowerTrilinear config (axes.operator inputs) result).Gives (fun _ => True) s fun v s' =>
      ∃ (f : TrilinearFactors (axes.plan ts.first.shape.length)) (n : Nat),
        f.tensors = (axes.plan ts.first.shape.length).aligned ts ∧ f.dtype = ts.first.dtype ∧
        f.sizes[(axes.plan ts.first.shape.length).unroll]? = some n ∧
        s'.env.get? v = some (.tensor
          (((f.output n).squeezed (axes.plan ts.first.shape.length).summed).converted
            result.dtype)) ∧
        result.shape.Admits
          ((f.output n).squeezed (axes.plan ts.first.shape.length).summed).shape := by
  unfold Rule.lowerTrilinear
  refine Gives.bind (mapM_tensorType_gives hin) ?_
  rintro types s₁ hle₁ rfl
  refine .attempt fun p hp => ?_
  obtain ⟨rfl, hunroll⟩ := plan_eq hp
  refine .attempt fun _ hranks => ?_
  have hrank : (ts.map Tensor.type).first.rank = ts.first.shape.length := ts.first.rank_type
  rw [hrank] at hunroll hranks ⊢
  dsimp only
  split
  next => exact trivial
  next =>
    refine Gives.bind (mapM_align_gives (HoldsAll.mono hin hle₁) hranks) fun vs s₂ _ hvs => ?_
    have htypes : (ts.map Tensor.type).Related (fun type t => type.rank = t.shape.length) ts :=
      ⟨ts.first.rank_type, ts.second.rank_type, ts.third.rank_type⟩
    refine Gives.bind (TrilinearPlan.unrolled_gives config hvs
      (aligns hfits hunroll hranks htypes) hexact) ?_
    rintro output s₃ - ⟨f, n, htensors, hdtype, hn, houtput⟩
    refine Gives.bind (foldlM_squeeze_gives houtput (pairwise_namedAxes _ _) fun a ha => ?_) ?_
    · rw [f.shape_output, TrilinearFactors.kept, getElem?_flattened,
        if_pos ⟨ha, f.length_sizes ▸ f.summed_lt a ha⟩]
    intro squeezed s₄ _ hsqueezed
    exact (finish_gives hsqueezed (.inl fun _ => trivial)).weaken fun v s' _ hv =>
      ⟨f, n, htensors, hdtype, hn, hv.1, hv.2⟩

end TrilinearAxes

namespace TrilinearFactors

variable {p : TrilinearPlan} {f : TrilinearFactors p} {ts : Triple Tensor}
  {v : Triple (List Nat → Int)} {n : Nat}

theorem hasIntegers_aligned (htensors : f.tensors = p.aligned ts)
    (hv : TrilinearPlan.HasIntegers ts v) (hnamed : p.expand.first.Pairwise (· < ·) ∧
      p.expand.second.Pairwise (· < ·) ∧ p.expand.third.Pairwise (· < ·)) :
    f.HasIntegers (p.inserted v) := by
  have hentry : ∀ {t : Tensor} {value : List Nat → Int} {expand : List Nat},
      (∀ i, InBounds t.shape i → (t.entry i).toInt? = some (value i)) →
      expand.Pairwise (· < ·) → ∀ i, InBounds (t.aligned expand).shape i →
        ((t.aligned expand).entry i).toInt? = some (value (without expand i)) := by
    intro t value expand hvalue hexpand i hi
    have hin := hi.without expand
    rw [Tensor.shape_aligned, without_extended hexpand] at hin
    rw [Tensor.entry_aligned hi]
    exact hvalue _ hin
  constructor
  · rw [htensors]
    exact hentry hv.first hnamed.1
  · rw [htensors]
    exact hentry hv.second hnamed.2.1
  · rw [htensors]
    exact hentry hv.third hnamed.2.2

/-- The entries of the result, where nothing is rounded. -/
theorem toInt?_result {dtype : DType} (hv : f.HasIntegers (p.inserted v))
    (hexact : f.Unrounded (p.inserted v)) (hn : f.sizes[p.unroll]? = some n)
    (hsummed : p.summed.Pairwise (· < ·)) {o : List Nat}
    (ho : InBounds (without p.summed f.sizes) o) (hkeeps : dtype.Keeps (f.total v o)) :
    ((((f.output n).squeezed p.summed).converted dtype).entry o).toInt? = some (f.total v o) := by
  have hshape : without p.summed (f.output n).shape = without p.summed f.sizes := by
    rw [f.shape_output, kept, without_flattened]
  have ho' : InBounds (without p.summed (f.output n).shape) o := hshape ▸ ho
  have hq : InBounds f.kept (extended p.summed 0 o) := by
    have hin := ho.extended p.summed
    rw [← without_flattened, extended_without hsummed fun a ha => ?_] at hin
    · exact hin
    · rw [getElem?_flattened, if_pos ⟨ha, f.length_sizes ▸ f.summed_lt a ha⟩]
  have hentry := (shows_output hv hexact hn (Nat.le_refl n)).entry (f.shape_output n) hq
  rw [outputTotal_eq hn hq, without_extended hsummed] at hentry
  have hconverted := Tensor.entry_converted (t := (f.output n).squeezed p.summed) dtype ho'
  rw [hconverted, Tensor.entry_squeezed ho']
  exact hkeeps.toInt?_round hentry

end TrilinearFactors

section Squares

/-- Axes of three matrices, each of which lacks one. Two are summed, one of them named twice, and
the third is unrolled. -/
def squareAxes : TrilinearAxes := ⟨⟨[2], [0], [1]⟩, [-2, 2, -1], -3⟩

/-- The matrices `[[1, 2], [3, 4]]`, `[[5, 6], [7, 8]]` and `[[1, 1], [0, 2]]`. -/
def squareValues : Triple (List Nat → Int) :=
  ⟨fun i => 1 + 2 * i.getD 0 0 + i.getD 1 0, fun i => 5 + 2 * i.getD 0 0 + i.getD 1 0,
    fun i => 1 - i.getD 0 0 + 2 * i.getD 0 0 * i.getD 1 0⟩

def squares : Triple Tensor :=
  squareValues.map fun value => .ofEntries .float32 [2, 2] fun i => .ofInt (value i)

def squareFactors : TrilinearFactors (squareAxes.plan 2) where
  dtype := .float32
  tensors := (squareAxes.plan 2).aligned squares
  pairSizes := [2, 2, 2]
  sizes := [2, 2, 2]
  first_rank := rfl
  second_rank := rfl
  third_rank := rfl
  pair_common := (broadcastShape_iff (A := [2, 2, 1]) (B := [1, 2, 2]) rfl).1 rfl
  common := (broadcastShape_iff (A := [2, 2, 2]) (B := [2, 1, 2]) rfl).1 rfl
  third_lacks := by decide
  unroll_lt := by decide
  summed_lt := by decide

theorem exact_squares : squareFactors.Exact :=
  ⟨by decide +kernel, by decide +kernel, by decide +kernel⟩

theorem unrounded_squares :
    squareFactors.Unrounded ((squareAxes.plan 2).inserted squareValues) := by
  decide +kernel

end Squares

/-! ## A size that is no double -/

section Oversized

/-- Elementwise products, unrolled along the second of two axes. -/
def rowAxes : TrilinearAxes := ⟨⟨[], [], []⟩, [], 1⟩

/-- That many rows without columns, so that no step is unrolled. -/
def emptyRows : Tensor := .ofEntries .float32 [oversize, 0] fun _ => 0

/-- The factors are all the same. -/
def emptyFactors : TrilinearFactors (rowAxes.plan 2) where
  dtype := .float32
  tensors := ⟨emptyRows, emptyRows, emptyRows⟩
  pairSizes := [oversize, 0]
  sizes := [oversize, 0]
  first_rank := rfl
  second_rank := rfl
  third_rank := rfl
  pair_common := common_self _
  common := common_self _
  third_lacks := by decide
  unroll_lt := by decide
  summed_lt := by decide

/-- The nodes that the rule creates for them. -/
def oversizedRowNodes : List Node :=
  [⟨.constant (.int oversize), .index⟩, ⟨.constant (.int 0), .index⟩,
    ⟨.constant (.int oversize), .index⟩, ⟨.constant (.int 0), .index⟩,
    ⟨.constant (.int oversize), .index⟩, ⟨.constant (.int 0), .index⟩,
    ⟨.constant (.int 1), .index⟩, ⟨.constant (.zero .float32), .scalar .float32⟩,
    ⟨.fill [⟨1⟩, ⟨2⟩] ⟨8⟩, .tensor emptyRows.type⟩, ⟨.constant (.int 0), .index⟩]

theorem run_oversizedRows :
    (Rule.trilinear.apply .standard (.trilinear (rowAxes.operator ⟨⟨0⟩, ⟨0⟩, ⟨0⟩⟩))
        emptyRows.type).run (.ofGraph (.takingIn [emptyRows])) =
      (.ok ⟨9⟩, ⟨⟨(Graph.takingIn [emptyRows]).nodes ++ oversizedRowNodes, [⟨0⟩], []⟩, 1,
        #[⟨1⟩, ⟨2⟩, ⟨3⟩, ⟨4⟩, ⟨5⟩, ⟨6⟩, ⟨7⟩, ⟨8⟩, ⟨9⟩, ⟨10⟩]⟩) := by
  rfl

/-- The output as it is filled: a row is missing. -/
def lackingRow : Tensor := .ofEntries .float32 [9007199254740992, 0] fun _ => 0

theorem fill_lackingRow :
    arrayResult (.tensor emptyRows.type) (fill [9007199254740992, 0] 0) =
      .ok (.tensor lackingRow) :=
  arrayResult_fill (by decide)

variable {g : Graph} {supply : Supply} {env : Env}

/-- The rows of the output are counted by a double. -/
theorem evalFrom_oversizedRows (hg : ∀ i, g.node? ⟨i + 1⟩ = oversizedRowNodes[i]?) :
    ∃ env', g.evalFrom supply env
        [⟨1⟩, ⟨2⟩, ⟨3⟩, ⟨4⟩, ⟨5⟩, ⟨6⟩, ⟨7⟩, ⟨8⟩, ⟨9⟩, ⟨10⟩] = .ok env' ∧
      env'.get? ⟨9⟩ = some (.tensor lackingRow) := by
  simp [Graph.evalFrom, Graph.evalStep, hg, oversizedRowNodes, evalNode, Bind.bind, Except.bind,
    Pure.pure, Except.pure, Env.get, Env.get?_insert, Env.sizes, Env.index, Env.number,
    Value.roundedScalar, Scalar.toDouble_zero, DType.round_zero, toInt64_oversize, toInt64_zero,
    toInt64_one, fill_lackingRow]

end Oversized

end TensorLowering
