import TensorLowering.Conversion.RuleSet
import TensorLowering.Proofs.Convolution.Scopes
import TensorLowering.Proofs.MatrixProduct.Scopes

/-!
# Rules that read what they have seen

Every rule stays within the operands of its operator and what lies behind a quantized one. Main
statement: the nodes that a standard rule creates can be scheduled in the order of their creation
wherever the operator could be, and the value that stands for its result has exactly the declared
type.
-/
namespace TensorLowering

open Build

variable {s : Scope}

/-! ## Trilinear products -/

theorem Build.Stays.triple {α β : Type} [Mentions β] {f : α → Build β} {t : Triple α}
    (h : ∀ x ∈ t.toList, ∀ s', s ≤ s' → (f x).Stays s') : (t.mapM f).Stays s := by
  simp only [Triple.toList, List.mem_cons, List.not_mem_nil, or_false, forall_eq_or_imp,
    forall_eq] at h
  obtain ⟨hfirst, hsecond, hthird⟩ := h
  refine Stays.bind (hfirst s le_rfl) fun first s₁ hle₁ h₁ => ?_
  refine Stays.bind (hsecond s₁ hle₁) fun second s₂ hle₂ h₂ => ?_
  refine Stays.bind (hthird s₂ (hle₁.trans hle₂)) fun third s₃ hle₃ h₃ => ?_
  exact .pure (Scope.sees_triple.2 ⟨h₁.mono (hle₂.trans hle₃), h₂.mono hle₃, h₃⟩)

namespace TrilinearPlan

variable {p : TrilinearPlan} {factors : Triple (ValueId × Bool)} {v : ValueId}

/-- An operation on one axis after the other. -/
theorem foldlM_axes_stays {f : ValueId → Nat → Build ValueId}
    (hf : ∀ (v : ValueId) (axis : Nat) (s : Scope), v ∈ s.seen → (f v axis).Stays s)
    (hv : v ∈ s.seen) (axes : List Nat) : (axes.foldlM f v).Stays s :=
  Stays.foldlM (Scope.sees_value.2 hv) fun v axis _ s' _ hv =>
    hf v axis s' (Scope.sees_value.1 hv)

theorem unrollSize_within (config : LoweringConfig) (sizes : List Size) :
    (p.unrollSize config sizes).Within s fun _ _ => True := by
  unfold unrollSize
  split
  · split
    · exact trivial
    · exact trivial
  · exact trivial

theorem step_stays (hf : s.Sees factors) (dtype : DType) (k : Nat) :
    (p.step factors dtype k).Stays s := by
  have hfactor : ∀ x ∈ factors.toList, x.1 ∈ s.seen := by
    intro x hx
    obtain ⟨h1, h2, h3⟩ := Scope.sees_triple.1 hf
    simp only [Triple.toList, List.mem_cons, List.not_mem_nil, or_false] at hx
    rcases hx with rfl | rfl | rfl
    · exact Scope.sees_value.1 (Scope.sees_pair.1 h1).1
    · exact Scope.sees_value.1 (Scope.sees_pair.1 h2).1
    · exact Scope.sees_value.1 (Scope.sees_pair.1 h3).1
  refine Stays.bind (.triple fun x hx s' hle => narrow_stays (hle (hfactor x hx)) _ _ _) ?_
  intro slices s₁ _ hslices
  obtain ⟨h1, h2, h3⟩ := Scope.sees_triple.1 hslices
  rw [Scope.sees_value] at h1 h2 h3
  refine Stays.bind (elementwise_stays _ h1 h2 dtype) fun pair s₂ hle₂ hpair => ?_
  refine Stays.bind (foldlM_axes_stays (fun v axis s hv => sum_stays hv axis)
    (Scope.sees_value.1 hpair) _) fun pairSum s₃ hle₃ hpairSum => ?_
  refine Stays.bind (elementwise_stays _ (Scope.sees_value.1 hpairSum) (hle₃ (hle₂ h3)) dtype) ?_
  intro product s₄ _ hproduct
  exact foldlM_axes_stays (fun v axis s hv => sum_stays hv axis) (Scope.sees_value.1 hproduct) _

theorem accumulate_stays {zero : Size} (hf : s.Sees factors) (dtype : DType) (hzero : s.Sees zero)
    (hv : v ∈ s.seen) (k : Nat) : (p.accumulate factors dtype zero v k).Stays s := by
  refine Stays.bind (step_stays hf dtype k) fun step s₁ hle₁ hstep => ?_
  rw [Scope.sees_value] at hstep
  split
  · exact elementwise_stays _ (hle₁ hv) hstep dtype
  · refine Stays.bind (narrow_stays (hle₁ hv) _ _ _) fun slot s₂ hle₂ hslot => ?_
    refine Stays.bind (elementwise_stays _ (Scope.sees_value.1 hslot) (hle₂ hstep) dtype) ?_
    intro updated s₃ hle₃ hupdated
    refine Stays.bind (index_stays k) fun offset s₄ hle₄ hoffset => ?_
    refine insertSlice_stays (hle₄ (Scope.sees_value.1 hupdated))
      (hle₄ (hle₃ (hle₂ (hle₁ hv)))) (Scope.sees_list.2 fun z hz => ?_) _
    rcases List.mem_or_eq_of_mem_set hz with hz | rfl
    · rw [List.eq_of_mem_replicate hz]
      exact hzero.mono (hle₁.trans (hle₂.trans (hle₃.trans hle₄)))
    · exact hoffset

theorem unrolled_stays (config : LoweringConfig) {inputs : Triple ValueId} (h : s.Sees inputs)
    (dtype : DType) : (p.unrolled config inputs dtype).Stays s := by
  have hinputs : ∀ x ∈ inputs.toList, x ∈ s.seen := by
    simpa [Triple.toList] using h
  refine Stays.bind (.triple fun x hx s' hle => dims_stays (hle (hinputs x hx))) ?_
  intro sizes s₁ hle₁ hsizes
  obtain ⟨h1, h2, h3⟩ := Scope.sees_triple.1 hsizes
  refine Stays.bind (broadcastSizes_stays h1 h2) fun pair s₂ hle₂ hpair => ?_
  refine Stays.bind (broadcastSizes_stays hpair (h3.mono hle₂)) fun common s₃ hle₃ hcommon => ?_
  refine Within.bind (unrollSize_within config common) fun count s₄ hle₄ _ => ?_
  refine Stays.bind (index_stays 1) fun one s₅ hle₅ hone => ?_
  have hkept : ∀ (axes : List Nat) (zs : List Size), s₅.Sees zs →
      s₅.Sees (axes.foldl (fun sizes axis => sizes.set axis one) zs) := by
    intro axes
    induction axes with
    | nil => exact fun zs hzs => hzs
    | cons axis axes ih =>
        refine fun zs hzs => ih _ (Scope.sees_list.2 fun z hz => ?_)
        rcases List.mem_or_eq_of_mem_set hz with hz | rfl
        · exact Scope.sees_list.1 hzs z hz
        · exact hone
  refine Stays.bind (zeros_stays (hkept p.summed common (hcommon.mono (hle₄.trans hle₅))) dtype) ?_
  intro output s₆ hle₆ houtput
  refine Stays.bind (index_stays 0) fun zero s₇ hle₇ hzero => ?_
  have hle : s ≤ s₇ := hle₁.trans (hle₂.trans (hle₃.trans (hle₄.trans
    (hle₅.trans (hle₆.trans hle₇)))))
  have hfactors : s₇.Sees (inputs.zip (sizes.map fun zs => zs[p.unroll]?.any Size.isOne)) := by
    obtain ⟨h1, h2, h3⟩ := Scope.sees_triple.1 (h.mono hle)
    exact Scope.sees_triple.2 ⟨Scope.sees_pair.2 ⟨h1, Scope.sees_bool _⟩,
      Scope.sees_pair.2 ⟨h2, Scope.sees_bool _⟩, Scope.sees_pair.2 ⟨h3, Scope.sees_bool _⟩⟩
  exact Stays.foldlM (houtput.mono hle₇) fun v k _ s' hle' hv =>
    accumulate_stays (hfactors.mono hle') dtype (hzero.mono hle') (Scope.sees_value.1 hv) k

end TrilinearPlan

namespace Rule

variable {result : TensorType}

theorem lowerTrilinear_within (config : LoweringConfig) {op : Trilinear} (h : s.Sees op.inputs) :
    (lowerTrilinear config op result).Within s fun v s' => s'.Stands v result := by
  have htypes : (op.inputs.mapM tensorType).Within s fun _ _ => True := by
    have htype : ∀ (v : ValueId) (s : Scope), (tensorType v).Within s fun _ _ => True := by
      intro v s
      rw [← bind_pure (tensorType v)]
      exact .tensorType fun _ _ => trivial
    exact .bind (htype _ _) fun _ _ _ _ => .bind (htype _ _) fun _ _ _ _ =>
      .bind (htype _ _) fun _ _ _ _ => trivial
  refine Within.bind htypes fun types s₁ hle₁ _ => ?_
  refine Within.attempt fun p _ => Within.attempt fun _ _ => ?_
  dsimp only
  split
  · exact trivial
  have hinputs : ∀ x ∈ (op.inputs.zip p.expand).toList, x.1 ∈ s₁.seen := by
    have h := h.mono hle₁
    simp only [Scope.sees_triple, Scope.sees_value] at h
    simpa [Triple.toList, Triple.zip] using h
  refine Stays.bind (.triple fun x hx s' hle => ?_) fun factors s₂ _ hfactors => ?_
  · exact TrilinearPlan.foldlM_axes_stays (fun v axis s hv => unsqueeze_stays hv axis)
      (hle (hinputs x hx)) x.2
  refine Stays.bind (TrilinearPlan.unrolled_stays config hfactors _) fun output s₃ _ houtput => ?_
  refine Stays.bind (TrilinearPlan.foldlM_axes_stays (fun v axis s hv => squeeze_stays hv axis)
    (Scope.sees_value.1 houtput) _) fun squeezed s₄ _ hsqueezed => ?_
  exact finish_within (Scope.sees_value.1 hsqueezed) result

theorem lowerFlip_within {op : Flip} (h : op.input ∈ s.seen) :
    (lowerFlip op result).Within s fun v s' => s'.Stands v result := by
  refine Within.attempt fun dims _ => Within.tensorType fun type _ => ?_
  refine Within.attempt fun axes _ => ?_
  refine Stays.bind (flip_stays h axes) fun v s' _ hv => ?_
  exact finish_within (Scope.sees_value.1 hv) result

end Rule

/-! ## Standard rules -/

namespace Rule

/-- A rule stays within the operands of its operator, and gives it a value of the declared type. -/
def StaysWithin (rule : Rule) : Prop :=
  ∀ (config : LoweringConfig) (op : HostOp) (result : TensorType) (s : Scope),
    s.Sees op.operands → (rule.apply config op result).Within s fun v s' => s'.Stands v result

theorem staysWithin_of_mem {rule : Rule} (hrule : rule ∈ RuleSet.standard.rules) :
    rule.StaysWithin := by
  intro config op result s h
  have hmem : ∀ v ∈ op.operands, v ∈ s.seen := fun v hv =>
    Scope.sees_value.1 (Scope.sees_list.1 h v hv)
  by_cases hkind : rule.kind = op.kind
  case neg =>
    rw [RuleSet.apply_eq_decline hrule hkind]
    exact trivial
  have hrule_eq : ∀ rule' ∈ RuleSet.standard.rules, rule'.kind = op.kind → rule = rule' :=
    fun rule' hrule' hkind' => RuleSet.eq_of_kind_eq hrule hrule' (hkind.trans hkind'.symm)
  have hbinary : ∀ operands : BinaryOperands, op.operands = operands.toList → s.Sees operands := by
    intro operands hop
    rw [hop] at hmem
    exact hmem
  cases op with
  | mm operands =>
      obtain rfl := hrule_eq .mm (by simp [RuleSet.standard]) rfl
      exact lowerMm_within config (hbinary operands rfl)
  | matmul operands =>
      obtain rfl := hrule_eq .matmul (by simp [RuleSet.standard]) rfl
      exact lowerMatmul_within (hbinary operands rfl)
  | bmm operands =>
      obtain rfl := hrule_eq .bmm (by simp [RuleSet.standard]) rfl
      exact lowerBmm_within (hbinary operands rfl)
  | convolution op =>
      obtain rfl := hrule_eq .convolution (by simp [RuleSet.standard]) rfl
      refine lowerConvolution_within config (hmem _ (by simp [HostOp.operands]))
        (hmem _ (by simp [HostOp.operands])) (Scope.sees_option.2 fun b hb => ?_)
      exact Scope.sees_value.2 (hmem b (by simp [HostOp.operands, Option.mem_def.1 hb]))
  | trilinear op =>
      obtain rfl := hrule_eq .trilinear (by simp [RuleSet.standard]) rfl
      refine lowerTrilinear_within config ?_
      simp only [Scope.sees_triple, Scope.sees_value]
      exact ⟨hmem _ (by simp [HostOp.operands, Triple.toList]),
        hmem _ (by simp [HostOp.operands, Triple.toList]),
        hmem _ (by simp [HostOp.operands, Triple.toList])⟩
  | flip op =>
      obtain rfl := hrule_eq .flip (by simp [RuleSet.standard]) rfl
      exact lowerFlip_within (hmem _ (by simp [HostOp.operands]))

end Rule

end TensorLowering
