import TensorLowering.HostOp.Basic
import TensorLowering.Lowering.Agreement
import TensorLowering.Lowering.SignedStorage
import TensorLowering.Proofs.Build.Scopes

/-!
# Operands that have been seen

What lies behind a quantized operand was computed before the operand. Main statements: sizes are
compared, and operands are taken apart and shifted to signed storage, within what has been seen.
-/
namespace TensorLowering

open Build

namespace Mentions

instance : Mentions Bool := ⟨fun _ => []⟩

instance : Mentions Reassociation := ⟨fun _ => []⟩

instance {α : Type} [Mentions α] : Mentions (Triple α) := ⟨fun t => values t.toList⟩

instance : Mentions BinaryOperands := ⟨BinaryOperands.toList⟩

end Mentions

namespace Scope

variable {s : Scope}

@[simp] theorem sees_bool (b : Bool) : s.Sees b := by simp [Sees, Mentions.values]

@[simp] theorem sees_reassociation (r : Reassociation) : s.Sees r := by
  simp [Sees, Mentions.values]

@[simp] theorem sees_triple {α : Type} [Mentions α] {t : Triple α} :
    s.Sees t ↔ s.Sees t.first ∧ s.Sees t.second ∧ s.Sees t.third := by
  change s.Sees t.toList ↔ _
  simp [Triple.toList]

@[simp] theorem sees_binary {b : BinaryOperands} :
    s.Sees b ↔ b.lhs ∈ s.seen ∧ b.rhs ∈ s.seen := by
  simp [Sees, Mentions.values, BinaryOperands.toList]

end Scope

variable {s : Scope}

/-! ## Agreement -/

namespace Build

variable {z z' : Size} {zs zs' : List Size}

/-- A condition on sizes that is checked when the program runs. -/
theorem discard_guard_stays {cond : GuardCond} (h : ∀ v ∈ cond.operands, v ∈ s.seen)
    (message : String) : (discard (guard cond message)).Stays s :=
  Stays.bind (guard_stays h message) fun _ _ _ _ => .pure (Scope.sees_unit _)

theorem requireEqual_stays (hz : s.Sees z) (hz' : s.Sees z') (what : String) :
    (requireEqual z z' what).Stays s := by
  rw [Scope.sees_size] at hz hz'
  unfold requireEqual
  split
  · split
    · exact .pure (Scope.sees_unit _)
    · exact trivial
  · exact discard_guard_stays (by simp [GuardCond.operands, hz, hz']) _

theorem requireDivisible_stays (hz : s.Sees z) (hz' : s.Sees z') (what : String) :
    (requireDivisible z z' what).Stays s := by
  rw [Scope.sees_size] at hz hz'
  unfold requireDivisible
  split
  · split
    · exact trivial
    · split
      · exact .pure (Scope.sees_unit _)
      · exact trivial
  · exact discard_guard_stays (by simp [GuardCond.operands, hz, hz']) _

theorem broadcastSize_stays (hz : s.Sees z) (hz' : s.Sees z') (axis : Nat) :
    (broadcastSize z z' axis).Stays s := by
  have hguard : ∀ {a b : Size} {s' : Scope}, s'.Sees a → s'.Sees b →
      ∀ v ∈ (GuardCond.broadcastable a.value b.value).operands, v ∈ s'.seen := by
    intro a b s' ha hb
    rw [Scope.sees_size] at ha hb
    simp [GuardCond.operands, ha, hb]
  unfold broadcastSize
  dsimp only
  split
  · exact .pure hz
  split
  · exact .pure hz'
  split
  · exact .pure hz
  split
  · exact trivial
  · exact Stays.bind (discard_guard_stays (hguard hz' hz) _) fun _ _ hle _ => .pure (hz.mono hle)
  · exact Stays.bind (discard_guard_stays (hguard hz hz') _) fun _ _ hle _ => .pure (hz'.mono hle)
  · refine Stays.bind (arith_stays .max hz hz') fun size s₁ hle₁ hsize => ?_
    refine Stays.bind (discard_guard_stays (hguard (hz.mono hle₁) hsize) _) ?_
    intro _ s₂ hle₂ _
    have hguards := hguard (hz'.mono (hle₁.trans hle₂)) (hsize.mono hle₂)
    refine Stays.bind (discard_guard_stays hguards _) fun _ s₃ hle₃ _ => ?_
    exact .pure (hsize.mono (hle₂.trans hle₃))

theorem broadcastSizes_stays (hzs : s.Sees zs) (hzs' : s.Sees zs') :
    (broadcastSizes zs zs').Stays s := by
  rw [Scope.sees_list] at hzs hzs'
  refine Stays.bind (.mapM fun entry hentry s' hle => ?_) fun inner s' hle hinner => ?_
  · obtain ⟨⟨m, n⟩, axis⟩ := entry
    obtain ⟨hm, hn⟩ := List.of_mem_zip (List.fst_mem_of_mem_zipIdx hentry)
    exact broadcastSize_stays ((hzs m (List.mem_of_mem_drop hm)).mono hle)
      ((hzs' n (List.mem_of_mem_drop hn)).mono hle) axis
  · refine .pure (Scope.sees_append.2 ⟨Scope.sees_append.2 ⟨?_, ?_⟩, hinner⟩)
    · exact Scope.sees_list.2 fun z hz => (hzs z (List.mem_of_mem_take hz)).mono hle
    · exact Scope.sees_list.2 fun z hz => (hzs' z (List.mem_of_mem_take hz)).mono hle

end Build

/-! ## Operands -/

namespace OperandInfo

variable {x y : OperandInfo} {v : ValueId}

/-- What lies behind a quantized operand was computed before it. -/
theorem sees_extract (hv : v ∈ s.seen) (h : extract s.graph v = .ok x) : s.Sees x := by
  obtain ⟨node, hnode, h⟩ := Except.bind_eq_ok.1 h
  have hnode : s.graph.node? v = some node := by
    unfold Graph.node at hnode
    split at hnode
    next hsome => exact (Except.ok.inj hnode) ▸ hsome
    next => cases hnode
  have hclosed := s.orders.closed v hv
  rw [Graph.reads_of_node hnode] at hclosed
  split at h
  next storage scale zeroPoint hop =>
    obtain ⟨type, -, hinfo⟩ := Except.bind_eq_ok.1 h
    cases hinfo
    rw [hop] at hclosed
    simpa [Op.operands] using hclosed
  next =>
    obtain ⟨type, -, hinfo⟩ := Except.bind_eq_ok.1 h
    cases hinfo
    simpa using hv

theorem extract_within {β : Type} {next : OperandInfo → Build β} {post : β → Scope → Prop}
    (hv : v ∈ s.seen) (h : ∀ x, s.Sees x → (next x).Within s post) :
    (query (extract · v) >>= next).Within s post :=
  .query fun x hx => h x (sees_extract hv hx)

theorem normalize_stays (hx : s.Sees x) : x.normalize.Stays s := by
  unfold normalize
  split
  · exact .pure hx
  next zeroPoint hzero =>
  rw [Scope.sees_operand, hzero, Scope.sees_some, Scope.sees_value] at hx
  obtain ⟨hvalue, hzeroPoint⟩ := hx
  refine Stays.bind (scalarCast_stays hzeroPoint _) fun truncated s₁ hle₁ htruncated => ?_
  rw [Scope.sees_value] at htruncated
  dsimp only
  split
  · refine Stays.bind (scalarAddConst_stays htruncated _ _) fun shifted s₂ hle₂ hshifted => ?_
    refine Stays.bind (scalar_stays _ _) fun shift s₃ hle₃ hshift => ?_
    rw [Scope.sees_value] at hshifted hshift
    refine Stays.bind (elementwise_stays _ (hle₃ (hle₂ (hle₁ hvalue))) hshift _) ?_
    intro storage s₄ hle₄ hstorage
    rw [Scope.sees_value] at hstorage
    refine Within.tensorType fun type _ => .pure ?_
    simpa [Scope.sees_operand] using And.intro hstorage (hle₄ (hle₃ hshifted))
  · refine .pure ?_
    simpa [Scope.sees_operand] using And.intro (hle₁ hvalue) htruncated

theorem normalizePair_stays (hx : s.Sees x) (hy : s.Sees y) (operator : String) :
    (x.normalizePair y operator).Stays s := by
  refine Within.attempt fun _ _ => ?_
  refine Stays.bind (normalize_stays hx) fun x' s₁ hle₁ hx' => ?_
  refine Stays.bind (normalize_stays (hy.mono hle₁)) fun y' s₂ hle₂ hy' => ?_
  exact .pure (Scope.sees_pair.2 ⟨hx'.mono hle₂, hy'⟩)

theorem sees_zeroPoints? (hx : s.Sees x) (hy : s.Sees y) : s.Sees (x.zeroPoints? y) := by
  rw [Scope.sees_operand] at hx hy
  unfold zeroPoints?
  cases hxz : x.zeroPoint with
  | none => exact Scope.sees_none
  | some a =>
      cases hyz : y.zeroPoint with
      | none => exact Scope.sees_none
      | some b =>
          rw [hxz] at hx
          rw [hyz] at hy
          exact Scope.sees_some.2
            (Scope.sees_pair.2 ⟨Scope.sees_some.1 hx.2, Scope.sees_some.1 hy.2⟩)

end OperandInfo

end TensorLowering
