import TensorLowering.Proofs.Build.DeclaredOperands
import TensorLowering.Proofs.Trilinear.DeclaredFactors

/-!
# Guards of trilinear products

Where sizes of the factors are open, a lowered product checks them when the program runs. Main
statement: a program that no guard stops returns the sums of the products, as long as sizes of one
along the unrolled axis are declared.
-/
namespace TensorLowering

open Numeric NdArray Stage Build

namespace TrilinearPlan

/-- The types of factors with the axes that they lack. -/
def alignedTypes (p : TrilinearPlan) (types : Triple TensorType) : Triple TensorType :=
  ⟨types.first.aligned p.expand.first, types.second.aligned p.expand.second,
    types.third.aligned p.expand.third⟩

end TrilinearPlan

theorem TensorType.mem_aligned {type : TensorType} {axes : List Nat} {d : Dim}
    (h : d ∈ (type.aligned axes).shape.dims) : d = .static 1 ∨ d ∈ type.shape.dims := by
  induction axes generalizing type with
  | nil => exact .inr h
  | cons axis axes ih =>
      rw [TensorType.aligned_cons] at h
      rcases ih h with hd | hd
      · exact .inl hd
      · exact List.eq_or_mem_of_mem_insertIdx hd

/-- Each size that the type says is one that a double holds. -/
def TensorType.SaysExactly (type : TensorType) : Prop :=
  ∀ n, Dim.static n ∈ type.shape.dims → Binary64.IsExact n

theorem TensorType.SaysExactly.aligned {type : TensorType} (h : type.SaysExactly)
    (axes : List Nat) : (type.aligned axes).SaysExactly := by
  intro n hn
  rcases mem_aligned hn with hone | hmem
  · cases hone
    exact Binary64.isExact_one
  · exact h n hmem

namespace TrilinearAxes

variable {axes : TrilinearAxes} {ts : Triple Tensor} {types : Triple TensorType} {rank : Nat}
  {l : Limits} {s : Stage} {inputs : Triple ValueId}

/-- Three values of declared types. -/
def DeclaredAll (s : Stage) (vs : Triple ValueId) (types : Triple TensorType)
    (ts : Triple Tensor) : Prop :=
  vs.Related (fun v c => s.Declared v c.1 c.2) (types.zip ts)

theorem DeclaredAll.ranks (h : DeclaredAll s inputs types ts) :
    types.Related (fun type t => type.rank = t.shape.length) ts :=
  ⟨h.first.type.admits.1.symm, h.second.type.admits.1.symm, h.third.type.admits.1.symm⟩

/-- The types of the factors. -/
theorem mapM_tensorType_meets (hin : DeclaredAll s inputs types ts) :
    (inputs.mapM tensorType).Meets l s fun found _ => found = types := by
  let pre (v : ValueId) (c : TensorType × Tensor) (s : Stage) : Prop := s.Declared v c.1 c.2
  let post (type : TensorType) (c : TensorType × Tensor) (_ : Stage) : Prop := type = c.1
  refine (Meets.triple pre post (types.zip ts) (fun hle h => Declared.mono h hle) (fun _ h => h)
    (fun hv => ?_) hin).weaken fun found s' _ h => ?_
  · rw [← bind_pure (tensorType _)]
    exact .query hv.declared (.pure rfl)
  · obtain ⟨first, second, third⟩ := found
    obtain ⟨rfl, rfl, rfl⟩ := h
    rfl

/-- Inserting the axes that the factors lack. -/
theorem mapM_align_meets (hin : DeclaredAll s inputs types ts)
    (hranks : (axes.plan rank).requireRanks types = .ok ()) :
    ((inputs.zip (axes.plan rank).expand).mapM fun (x : ValueId × List Nat) =>
      TrilinearPlan.align x.1 x.2).Meets l s fun vs s' =>
        DeclaredAll s' vs ((axes.plan rank).alignedTypes types) ((axes.plan rank).aligned ts) := by
  obtain ⟨h1, h2, h3⟩ := requireRanks_eq_ok hranks
  have hrank : types.Related (fun type t => type.rank = t.shape.length) ts := hin.ranks
  rw [hrank.first] at h1
  rw [hrank.second] at h2
  rw [hrank.third] at h3
  let pre (x : ValueId × List Nat) (c : (TensorType × Tensor) × List Nat) (s : Stage) : Prop :=
    s.Declared x.1 c.1.1 c.1.2 ∧ x.2 = c.2 ∧ c.2.Pairwise (· < ·) ∧
      ∀ a ∈ c.2, a < c.1.2.shape.length + c.2.length
  let post (v : ValueId) (c : (TensorType × Tensor) × List Nat) (s : Stage) : Prop :=
    s.Declared v (c.1.1.aligned c.2) (c.1.2.aligned c.2)
  refine (Meets.triple pre post ((types.zip ts).zip (axes.plan rank).expand)
    (fun hle h => ⟨h.1.mono hle, h.2⟩) (fun hle h => Declared.mono h hle) ?_
    ⟨⟨hin.first, rfl, pairwise_namedAxes _ _, namedAxes_lt h1⟩,
      ⟨hin.second, rfl, pairwise_namedAxes _ _, namedAxes_lt h2⟩,
      ⟨hin.third, rfl, pairwise_namedAxes _ _, namedAxes_lt h3⟩⟩).weaken fun vs s' _ h =>
        ⟨h.first, h.second, h.third⟩
  rintro x ⟨c, expand⟩ s ⟨hv, hexpand, hpair, hlt⟩
  rw [hexpand]
  exact foldlM_unsqueeze_meets hv hpair hlt

/-- What the lowering gives, if no guard stops the program: the sums of the last step, without the
summed axes. -/
theorem lower_meets (config : LoweringConfig) {result : TensorType} {p : TrilinearPlan}
    (hp : p = axes.plan ts.first.shape.length) (hin : DeclaredAll s inputs types ts)
    (hfits : ∀ t ∈ ts.toList, ¬ TooLarge t.shape)
    (hexact : ∀ type ∈ types.toList, type.SaysExactly)
    (hopen : ∀ f : TrilinearFactors p, f.tensors = p.aligned ts → f.Open (p.alignedTypes types))
    (hresult : ∀ d ∈ result.shape.dims, d = .dynamic) :
    (Rule.lowerTrilinear config (axes.operator inputs) result).Meets .guarded s fun v s' =>
      ∃ (f : TrilinearFactors p) (n : Nat), f.tensors = p.aligned ts ∧
        f.dtype = ts.first.dtype ∧ f.sizes[p.unroll]? = some n ∧
        s'.env.get? v =
          some (.tensor (((f.output n).squeezed p.summed).converted result.dtype)) := by
  subst hp
  unfold Rule.lowerTrilinear
  refine .bind (mapM_tensorType_meets hin) ?_
  rintro types s₁ hle₁ rfl
  refine .attempt (fun _ _ => trivial) fun p hp => ?_
  obtain ⟨rfl, hunroll⟩ := plan_eq hp
  refine .attempt (fun _ _ => trivial) fun _ hranks => ?_
  rw [hin.ranks.first] at hunroll hranks ⊢
  dsimp only
  split
  next => exact trivial
  next =>
    have hin₁ : DeclaredAll s₁ inputs types ts :=
      ⟨hin.first.mono hle₁, hin.second.mono hle₁, hin.third.mono hle₁⟩
    refine .bind (mapM_align_meets hin₁ hranks) fun vs s₂ _ hvs => ?_
    have haligned : ∀ type ∈ ((axes.plan ts.first.shape.length).alignedTypes types).toList,
        type.SaysExactly := by
      simp only [Triple.toList, TrilinearPlan.alignedTypes, List.mem_cons, List.not_mem_nil,
        or_false, forall_eq_or_imp, forall_eq] at hexact ⊢
      exact ⟨hexact.1.aligned _, hexact.2.1.aligned _, hexact.2.2.aligned _⟩
    have hdtype : types.first.dtype = ts.first.dtype := hin.first.type.dtype.symm
    rw [hdtype]
    refine .bind (TrilinearPlan.unrolled_meets config hvs
      (aligns hfits hunroll hranks hin.ranks) haligned hopen) ?_
    rintro output s₃ - ⟨f, n, htensors, hfdtype, hn, houtput⟩
    refine .bind (foldlM_squeeze_meets houtput (pairwise_namedAxes _ _) fun a ha => ?_) ?_
    · rw [f.shape_output, TrilinearFactors.kept, getElem?_flattened,
        if_pos ⟨ha, f.length_sizes ▸ f.summed_lt a ha⟩]
    intro squeezed s₄ _ hsqueezed
    exact (finish_meets hsqueezed (fun _ _ => trivial)
      fun hno hlen => absurd (Shape.admits_of_dynamic hresult hlen) hno).weaken fun v s' _ hv =>
        ⟨f, n, htensors, hfdtype, hn, hv.1⟩

end TrilinearAxes

/-- The program with the created nodes stops at a guard, or returns the sums of the products: its
factors then stretch to common sizes. -/
theorem trilinear_stops_at_guards {g : Graph} {supply : Supply} {env : Env}
    (config : LoweringConfig) (h : g.evaluate supply = .ok env) {axes : TrilinearAxes}
    {inputs : Triple ValueId} {types : Triple TensorType} {ts : Triple Tensor}
    {result : TensorType}
    (htypes : inputs.Related (fun v type => g.tensorType v = .ok type) types)
    (hin : inputs.Related (g.Declares env) ts) (hfits : ∀ t ∈ ts.toList, ¬ TooLarge t.shape)
    (hexact : ∀ type ∈ types.toList, type.SaysExactly) {p : TrilinearPlan}
    (hp : p = axes.plan ts.first.shape.length)
    (hopen : ∀ f : TrilinearFactors p, f.tensors = p.aligned ts → f.Open (p.alignedTypes types))
    (hresult : ∀ d ∈ result.shape.dims, d = .dynamic) {v : ValueId} {d : Draft}
    (hrun : (Rule.trilinear.apply config (.trilinear (axes.operator inputs)) result).run
      (.ofGraph g) = (.ok v, d)) :
    (∃ message, (d.commit.withOutputs [v]).run supply = .error (.guardFailed message)) ∨
      ∃ (f : TrilinearFactors p) (n : Nat), f.tensors = p.aligned ts ∧
        f.dtype = ts.first.dtype ∧ f.sizes[p.unroll]? = some n ∧
        (d.commit.withOutputs [v]).run supply =
          .ok [.tensor (((f.output n).squeezed p.summed).converted result.dtype)] := by
  have hdeclared : ∀ {v : ValueId} {type : TensorType} {t : Tensor}, g.tensorType v = .ok type →
      g.Declares env v t → (Stage.ofRun h).Declared v type t := by
    rintro v type t htype ⟨⟨type', htype', ht⟩, hget⟩
    obtain rfl := Except.ok.inj (htype.symm.trans htype')
    exact ⟨htype, ht, hget⟩
  have hall : TrilinearAxes.DeclaredAll (Stage.ofRun h) inputs types ts :=
    ⟨hdeclared htypes.first hin.first, hdeclared htypes.second hin.second,
      hdeclared htypes.third hin.third⟩
  have hmeets := TrilinearAxes.lower_meets config hp hall hfits hexact hopen hresult
  rcases hmeets.commit h hrun fun _ _ _ _ _ _ _ => trivial with
    ⟨e, heval, message, rfl⟩ | ⟨e, hfail, -⟩ |
      ⟨v', s, hok, ⟨f, n, htensors, hdtype, hn, hget⟩, heval⟩
  · exact .inl ⟨message, run_withOutputs_of_error heval⟩
  · cases hfail
  · cases hok
    exact .inr ⟨f, n, htensors, hdtype, hn, run_withOutputs heval hget⟩

/-! ## A row of any size -/

section Rows

/-- The axis of three rows, which is unrolled. -/
def rowAxis : TrilinearAxes := ⟨⟨[], [], []⟩, [], 0⟩

def anyRow : TensorType := ⟨.float32, ⟨[.dynamic]⟩⟩

def rowOfTwo : TensorType := ⟨.float32, .ofSizes [2]⟩

def sliceRow : TensorType := ⟨.float32, .ofSizes [1]⟩

/-- The nodes of the step at position `k`, of which the first one is `n`: the slices, their product,
and the slot of the output, from `out` on. -/
def rowStep (n k out : Nat) : List Node :=
  [⟨.narrow ⟨0⟩ 0 k 1, .tensor sliceRow⟩, ⟨.narrow ⟨1⟩ 0 k 1, .tensor sliceRow⟩,
    ⟨.narrow ⟨2⟩ 0 k 1, .tensor sliceRow⟩, ⟨.elementwise .mul ⟨n⟩ ⟨n + 1⟩, .tensor sliceRow⟩,
    ⟨.elementwise .mul ⟨n + 3⟩ ⟨n + 2⟩, .tensor sliceRow⟩,
    ⟨.narrow ⟨out⟩ 0 k 1, .tensor sliceRow⟩,
    ⟨.elementwise .add ⟨n + 5⟩ ⟨n + 4⟩, .tensor sliceRow⟩, ⟨.constant (.int k), .index⟩,
    ⟨.insertSlice ⟨n + 6⟩ ⟨out⟩ [⟨n + 7⟩] [1], .tensor rowOfTwo⟩]

/-- The nodes that the rule creates for a row of any size and two of size two. -/
def evenRowNodes : List Node :=
  [⟨.dim ⟨0⟩ 0, .index⟩, ⟨.constant (.int 2), .index⟩, ⟨.constant (.int 2), .index⟩,
    ⟨.guard ⟨.broadcastable ⟨3⟩ ⟨4⟩, "incompatible batch dimension 0"⟩, .unit⟩,
    ⟨.constant (.int 1), .index⟩, ⟨.constant (.zero .float32), .scalar .float32⟩,
    ⟨.fill [⟨4⟩] ⟨8⟩, .tensor rowOfTwo⟩, ⟨.constant (.int 0), .index⟩] ++
  rowStep 11 0 9 ++ rowStep 20 1 19 ++ [⟨.cast ⟨28⟩, .tensor anyRow⟩]

theorem run_evenRows :
    (Rule.trilinear.apply .standard (.trilinear (rowAxis.operator ⟨⟨0⟩, ⟨1⟩, ⟨2⟩⟩)) anyRow).run
      (.ofGraph (.takingAs [anyRow, rowOfTwo, rowOfTwo])) =
      (.ok ⟨29⟩, .takingAs [anyRow, rowOfTwo, rowOfTwo] evenRowNodes) := by
  rfl

/-- A row of two equal numbers, and one of a single number. -/
def evenRow (x : Int) : Tensor := .ofEntries .float32 [2] fun _ => .ofInt x

def cell (x : Int) : Tensor := .ofEntries .float32 [1] fun _ => .ofInt x

/-- The output after the first step. -/
def halfRow : Tensor := .ofEntries .float32 [2] fun ix => if ix.getD 0 0 = 0 then .ofInt 8 else 0

/-- What a step evaluates to, of which `out` is the output. -/
def stepValues (k : Nat) (out : Tensor) : List Value :=
  [.tensor (cell 2), .tensor (cell 2), .tensor (cell 2), .tensor (cell 4), .tensor (cell 8),
    .tensor (cell 0), .tensor (cell 8), .index k, .tensor out]

def evenRowValues : List Value :=
  [.index 2, .index 2, .index 2, .unit, .index 1, .scalar .float32 0, .tensor (evenRow 0),
    .index 0] ++ stepValues 0 halfRow ++ stepValues 1 (evenRow 8) ++ [.tensor (evenRow 8)]

theorem arrayResult_rowStep :
    arrayResult (.tensor sliceRow) ((cell 2).data.zipWith ElementwiseOp.mul.apply (cell 2).data) =
        .ok (.tensor (cell 4)) ∧
      arrayResult (.tensor sliceRow) ((cell 4).data.zipWith ElementwiseOp.mul.apply (cell 2).data) =
        .ok (.tensor (cell 8)) ∧
      arrayResult (.tensor sliceRow) ((cell 0).data.zipWith ElementwiseOp.add.apply (cell 8).data) =
        .ok (.tensor (cell 8)) := by
  decide +kernel

theorem arrayResult_rowStart :
    arrayResult (.tensor rowOfTwo) (fill [2] 0) = .ok (.tensor (evenRow 0)) ∧
      arrayResult (.tensor sliceRow) ((evenRow 2).data.narrow 0 0 1) = .ok (.tensor (cell 2)) ∧
      arrayResult (.tensor sliceRow) ((evenRow 0).data.narrow 0 0 1) = .ok (.tensor (cell 0)) ∧
      arrayResult (.tensor rowOfTwo) ((cell 8).data.insertSlice (evenRow 0).data [0] [1]) =
        .ok (.tensor halfRow) := by
  decide +kernel

theorem evalFrom_evenRows {g : Graph} {env : Env} (supply : Supply)
    (hg : ∀ i, g.node? ⟨i + 3⟩ = evenRowNodes[i]?)
    (h0 : env.get? ⟨0⟩ = some (.tensor (evenRow 2)))
    (h1 : env.get? ⟨1⟩ = some (.tensor (evenRow 2)))
    (h2 : env.get? ⟨2⟩ = some (.tensor (evenRow 2))) :
    g.evalFrom supply env ((List.range' 3 evenRowNodes.length).map ValueId.mk) =
      .ok (env.insertFrom 3 evenRowValues) := by
  obtain ⟨hpair, hproduct, hsum⟩ := arrayResult_rowStep
  obtain ⟨hfill, hslice, hslot, hinsert⟩ := arrayResult_rowStart
  have hshape : (evenRow 2).shape = [2] := rfl
  have hslice' : arrayResult (.tensor sliceRow) ((evenRow 2).data.narrow 0 1 1) =
    .ok (.tensor (cell 2)) := by decide +kernel
  have hslot' : arrayResult (.tensor sliceRow) (halfRow.data.narrow 0 1 1) =
    .ok (.tensor (cell 0)) := by decide +kernel
  have hinsert' : arrayResult (.tensor rowOfTwo) ((cell 8).data.insertSlice halfRow.data [1] [1]) =
    .ok (.tensor (evenRow 8)) := by decide +kernel
  have hcheck : (evenRow 8).check (.tensor anyRow) = .ok () := by decide +kernel
  simp [Graph.evalFrom, Graph.evalStep, hg, evenRowNodes, rowStep, evenRowValues, stepValues,
    List.range', Env.insertFrom, evalNode, Bind.bind, Except.bind, Pure.pure, Except.pure, Env.get,
    Env.get?_insert, Env.sizes, Env.index, Env.number, Env.tensor, Value.toTensor, GuardCond.holds,
    Value.roundedScalar, Scalar.toDouble_zero, DType.round_zero, toInt64_zero, toInt64_one,
    toInt64_two, hshape, hfill, hpair, hproduct, hsum, hslice, hslice', hslot, hslot', hinsert,
    hinsert', hcheck, h0, h1, h2]

def evenFactors : TrilinearFactors (rowAxis.plan 1) where
  dtype := .float32
  tensors := (rowAxis.plan 1).aligned ⟨evenRow 2, evenRow 2, evenRow 2⟩
  pairSizes := [2]
  sizes := [2]
  first_rank := rfl
  second_rank := rfl
  third_rank := rfl
  pair_common := common_self [2]
  common := common_self [2]
  third_lacks := by decide
  unroll_lt := by decide
  summed_lt := by decide

theorem open_rows {f : TrilinearFactors (rowAxis.plan 1)}
    (h : f.tensors = (rowAxis.plan 1).aligned ⟨evenRow 2, evenRow 2, evenRow 2⟩) :
    f.Open ((rowAxis.plan 1).alignedTypes ⟨anyRow, rowOfTwo, rowOfTwo⟩) := by
  have hsizes : f.sizes = [2] := (TrilinearFactors.sizes_eq (g := evenFactors) h).2
  have hlong : ¬ ((evenRow 2).aligned []).shape[(rowAxis.plan 1).unroll]? = some 1 := by decide
  refine ⟨by rw [hsizes]; decide, fun _ k hk => ?_, fun _ => ?_⟩
  · rw [hsizes] at hk
    exact Binary64.isExact_of_lt (by have : k < 2 := hk; rw [twoPow_53]; omega)
  · rw [h]
    exact ⟨fun hone => absurd hone hlong, fun hone => absurd hone hlong,
      fun hone => absurd hone hlong⟩

/-- A row that turns out as long as the others is multiplied with them. -/
theorem rows_return : ∃ v d,
    (Rule.trilinear.apply .standard (.trilinear (rowAxis.operator ⟨⟨0⟩, ⟨1⟩, ⟨2⟩⟩)) anyRow).run
      (.ofGraph (.takingAs [anyRow, rowOfTwo, rowOfTwo])) = (.ok v, d) ∧
    (d.commit.withOutputs [v]).run (.takingIn [evenRow 2, evenRow 2, evenRow 2]) =
      .ok [.tensor (evenRow 8)] ∧
    evenRow 8 = ((evenFactors.output 2).squeezed []).converted .float32 := by
  obtain ⟨env, h, hoperand⟩ := Graph.operand_takingAs [anyRow, rowOfTwo, rowOfTwo]
    [evenRow 2, evenRow 2, evenRow 2] (by decide)
  have h0 := (hoperand 0 (evenRow 2) rfl).declares
  have h1 := (hoperand 1 (evenRow 2) rfl).declares
  have h2 := (hoperand 2 (evenRow 2) rfl).declares
  have htypes : Triple.Related (fun v type =>
      (Graph.takingAs [anyRow, rowOfTwo, rowOfTwo]).tensorType v = .ok type) ⟨⟨0⟩, ⟨1⟩, ⟨2⟩⟩
        ⟨anyRow, rowOfTwo, rowOfTwo⟩ := ⟨rfl, rfl, rfl⟩
  have hfits : ∀ t ∈ (⟨evenRow 2, evenRow 2, evenRow 2⟩ : Triple Tensor).toList,
      ¬ TooLarge t.shape := by decide +kernel
  have hexact : ∀ type ∈ (⟨anyRow, rowOfTwo, rowOfTwo⟩ : Triple TensorType).toList,
      type.SaysExactly := by
    have hpair : rowOfTwo.SaysExactly := by
      intro n hn
      obtain rfl : n = 2 := by simpa [rowOfTwo, Shape.ofSizes] using hn
      exact Binary64.isExact_of_lt (by decide +kernel)
    simp only [Triple.toList, List.forall_mem_cons]
    have hrow : anyRow.SaysExactly := fun n hn => by simp [anyRow] at hn
    exact ⟨hrow, hpair, hpair, by simp⟩
  have heval := evalFrom_evenRows (.takingIn [evenRow 2, evenRow 2, evenRow 2])
    (Draft.node?_takingAs [anyRow, rowOfTwo, rowOfTwo] _) h0.2 h1.2 h2.2
  have hvalue : ((Draft.takingAs [anyRow, rowOfTwo, rowOfTwo] evenRowNodes).commit.withOutputs
      [⟨29⟩]).run (.takingIn [evenRow 2, evenRow 2, evenRow 2]) =
        .ok [.tensor (evenRow 8)] := by
    refine run_withOutputs ((evaluate_commit h run_evenRows).trans heval) ?_
    simp [Env.insertFrom, evenRowValues, stepValues, Env.get?_insert]
  rcases trilinear_stops_at_guards .standard h htypes ⟨h0, h1, h2⟩ hfits hexact rfl
    (fun f hf => open_rows hf) (by decide) run_evenRows with
    ⟨message, hstop⟩ | ⟨f, n, htensors, hdtype, hn, hreturns⟩
  · cases hstop.symm.trans hvalue
  · obtain rfl : f = evenFactors := TrilinearFactors.eq_of_tensors htensors hdtype
    obtain rfl : 2 = n := Option.some.inj hn
    have hsame := Except.ok.inj (hvalue.symm.trans hreturns)
    exact ⟨_, _, run_evenRows, hvalue, Value.tensor.inj (List.head_eq_of_cons_eq hsame)⟩

/-! ## Sizes that no guard checks -/

/-- A row of one element has no second slice. -/
theorem evalFrom_shortRow {g : Graph} {env : Env} (supply : Supply)
    (hg : ∀ i, g.node? ⟨i + 3⟩ = evenRowNodes[i]?)
    (h0 : env.get? ⟨0⟩ = some (.tensor (cell 2)))
    (h1 : env.get? ⟨1⟩ = some (.tensor (evenRow 2)))
    (h2 : env.get? ⟨2⟩ = some (.tensor (evenRow 2))) :
    g.evalFrom supply env ((List.range' 3 evenRowNodes.length).map ValueId.mk) =
      .error (.array (.rangeOutside 1 1 1)) := by
  obtain ⟨hpair, hproduct, hsum⟩ := arrayResult_rowStep
  obtain ⟨hfill, hslice, hslot, hinsert⟩ := arrayResult_rowStart
  have hshape : (cell 2).shape = [1] := rfl
  have hcell : arrayResult (.tensor sliceRow) ((cell 2).data.narrow 0 0 1) =
    .ok (.tensor (cell 2)) := by decide +kernel
  have hmissing : arrayResult (.tensor sliceRow) ((cell 2).data.narrow 0 1 1) =
    .error (.array (.rangeOutside 1 1 1)) := by decide +kernel
  simp [Graph.evalFrom, Graph.evalStep, hg, evenRowNodes, rowStep, List.range',
    evalNode, Bind.bind, Except.bind, Pure.pure, Except.pure, Env.get,
    Env.get?_insert, Env.sizes, Env.index, Env.number, Env.tensor, Value.toTensor, GuardCond.holds,
    Value.roundedScalar, Scalar.toDouble_zero, DType.round_zero, toInt64_zero, toInt64_one,
    toInt64_two, hshape, hfill, hpair, hproduct, hsum, hslice, hcell, hmissing, hslot, hinsert,
    h0, h1, h2]

/-- Three axes, of which the second one is unrolled. -/
def middleAxis : TrilinearAxes := ⟨⟨[], [], []⟩, [], 1⟩

/-- That many rows without elements, in one layer. -/
def thinLayer (rows : Nat) : Tensor := .ofEntries .float32 [rows, 1, 0] fun _ => 0

def anyLayer : TensorType := ⟨.float32, ⟨[.dynamic, .dynamic, .dynamic]⟩⟩

/-- The nodes that the rule creates for three such layers. -/
def layerNodes : List Node :=
  [⟨.constant (.int oversize), .index⟩, ⟨.constant (.int 1), .index⟩, ⟨.constant (.int 0), .index⟩,
    ⟨.constant (.int oversize), .index⟩, ⟨.constant (.int 1), .index⟩,
    ⟨.constant (.int 0), .index⟩, ⟨.constant (.int oversize), .index⟩,
    ⟨.constant (.int 1), .index⟩, ⟨.constant (.int 0), .index⟩, ⟨.constant (.int 1), .index⟩,
    ⟨.constant (.zero .float32), .scalar .float32⟩,
    ⟨.fill [⟨1⟩, ⟨2⟩, ⟨3⟩] ⟨11⟩, .tensor (thinLayer oversize).type⟩,
    ⟨.constant (.int 0), .index⟩, ⟨.narrow ⟨0⟩ 1 0 1, .tensor (thinLayer oversize).type⟩,
    ⟨.narrow ⟨0⟩ 1 0 1, .tensor (thinLayer oversize).type⟩,
    ⟨.narrow ⟨0⟩ 1 0 1, .tensor (thinLayer oversize).type⟩,
    ⟨.elementwise .mul ⟨14⟩ ⟨15⟩, .tensor (thinLayer oversize).type⟩,
    ⟨.elementwise .mul ⟨17⟩ ⟨16⟩, .tensor (thinLayer oversize).type⟩,
    ⟨.narrow ⟨12⟩ 1 0 1, .tensor (thinLayer oversize).type⟩,
    ⟨.elementwise .add ⟨19⟩ ⟨18⟩, .tensor (thinLayer oversize).type⟩,
    ⟨.constant (.int 0), .index⟩,
    ⟨.insertSlice ⟨20⟩ ⟨12⟩ [⟨13⟩, ⟨21⟩, ⟨13⟩] [1, 1, 1], .tensor (thinLayer oversize).type⟩,
    ⟨.cast ⟨22⟩, .tensor anyLayer⟩]

theorem run_layers :
    (Rule.trilinear.apply .standard (.trilinear (middleAxis.operator ⟨⟨0⟩, ⟨0⟩, ⟨0⟩⟩)) anyLayer).run
      (.ofGraph (.takingAs [(thinLayer oversize).type])) =
      (.ok ⟨23⟩, .takingAs [(thinLayer oversize).type] layerNodes) := by
  rfl

theorem arrayResult_layers :
    arrayResult (.tensor (thinLayer oversize).type) (fill [9007199254740992, 1, 0] 0) =
        .ok (.tensor (thinLayer 9007199254740992)) ∧
      arrayResult (.tensor (thinLayer oversize).type) ((thinLayer oversize).data.narrow 1 0 1) =
        .ok (.tensor (thinLayer oversize)) ∧
      arrayResult (.tensor (thinLayer oversize).type)
          ((thinLayer oversize).data.zipWith ElementwiseOp.mul.apply (thinLayer oversize).data) =
        .ok (.tensor (thinLayer oversize)) ∧
      arrayResult (.tensor (thinLayer oversize).type)
          ((thinLayer 9007199254740992).data.narrow 1 0 1) =
        .ok (.tensor (thinLayer 9007199254740992)) ∧
      arrayResult (.tensor (thinLayer oversize).type)
          ((thinLayer 9007199254740992).data.zipWith ElementwiseOp.add.apply
            (thinLayer oversize).data) =
        .error (.array (.notBroadcastable [9007199254740992, 1, 0] [oversize, 1, 0])) := by
  decide +kernel

/-- The rows of the output are counted by a double, and those of a step are not. -/
theorem evalFrom_layers {g : Graph} {env : Env} (supply : Supply)
    (hg : ∀ i, g.node? ⟨i + 1⟩ = layerNodes[i]?)
    (h0 : env.get? ⟨0⟩ = some (.tensor (thinLayer oversize))) :
    g.evalFrom supply env ((List.range' 1 layerNodes.length).map ValueId.mk) =
      .error (.array (.notBroadcastable [9007199254740992, 1, 0] [oversize, 1, 0])) := by
  obtain ⟨hfill, hslice, hproduct, hslot, hsum⟩ := arrayResult_layers
  simp [Graph.evalFrom, Graph.evalStep, hg, layerNodes, List.range', evalNode, Bind.bind,
    Except.bind, Pure.pure, Except.pure, Env.get, Env.get?_insert, Env.sizes, Env.index, Env.number,
    Env.tensor, Value.toTensor, Value.roundedScalar, Scalar.toDouble_zero, DType.round_zero,
    toInt64_zero, toInt64_one, toInt64_oversize, hfill, hslice, hproduct, hslot, hsum, h0]

/-- No guard stops a row of one element where the others have two, nor rows of which there are more
than doubles count, and the program fails on both. -/
theorem trilinear_fails_unguarded :
    (List.Forall₂ Tensor.HasType [cell 2, evenRow 2, evenRow 2] [anyRow, rowOfTwo, rowOfTwo] ∧
      ∃ v d e, (Rule.trilinear.apply .standard (.trilinear (rowAxis.operator ⟨⟨0⟩, ⟨1⟩, ⟨2⟩⟩))
          anyRow).run (.ofGraph (.takingAs [anyRow, rowOfTwo, rowOfTwo])) = (.ok v, d) ∧
        (d.commit.withOutputs [v]).run (.takingIn [cell 2, evenRow 2, evenRow 2]) =
          .error (.array e)) ∧
      ∃ v d e, (Rule.trilinear.apply .standard (.trilinear (middleAxis.operator ⟨⟨0⟩, ⟨0⟩, ⟨0⟩⟩))
          anyLayer).run (.ofGraph (.takingAs [(thinLayer oversize).type])) = (.ok v, d) ∧
        (d.commit.withOutputs [v]).run (.takingIn [thinLayer oversize]) = .error (.array e) := by
  constructor
  · obtain ⟨env, h, hoperand⟩ := Graph.operand_takingAs [anyRow, rowOfTwo, rowOfTwo]
      [cell 2, evenRow 2, evenRow 2] (by decide)
    have heval := evalFrom_shortRow (.takingIn [cell 2, evenRow 2, evenRow 2])
      (Draft.node?_takingAs [anyRow, rowOfTwo, rowOfTwo] _) (hoperand 0 _ rfl).declares.2
      (hoperand 1 _ rfl).declares.2 (hoperand 2 _ rfl).declares.2
    have hfails := (evaluate_commit h run_evenRows).trans heval
    exact ⟨by decide, _, _, _, run_evenRows, run_withOutputs_of_error hfails⟩
  · obtain ⟨env, h, hoperand⟩ := Graph.operand_takingAs [(thinLayer oversize).type]
      [thinLayer oversize] (.cons (Tensor.hasType_type _) .nil)
    have heval := evalFrom_layers (.takingIn [thinLayer oversize])
      (Draft.node?_takingAs [(thinLayer oversize).type] _) (hoperand 0 _ rfl).declares.2
    have hfails := (evaluate_commit h run_layers).trans heval
    exact ⟨_, _, _, run_layers, run_withOutputs_of_error hfails⟩

end Rows

end TensorLowering
