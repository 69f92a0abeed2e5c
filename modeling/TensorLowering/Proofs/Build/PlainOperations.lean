import TensorLowering.Build.Compute
import TensorLowering.HostOp.Basic
import TensorLowering.Lowering.Agreement
import TensorLowering.Lowering.SignedStorage

/-!
# What a construction creates

A quiet construction creates neither a host operator nor a reduction, whatever program it finds.
Main statement: each operation of a construction but `reduce` is quiet, and none of them declines:
only a rule gives a reason to leave an operator alone.
-/
namespace TensorLowering

/-- The reason that an error gives for leaving an operator alone. The errors that end a conversion
give none. -/
def LowerError.reason? : LowerError → Option DeclineReason
  | .noMatch reason => some reason
  | _ => none

namespace Op

/-- Neither a host operator nor a reduction. -/
def Quiet : Op → Prop
  | .host _ | .reduce .. => False
  | _ => True

theorem Quiet.ne_host {op : Op} (h : op.Quiet) (hostOp : HostOp) : op ≠ .host hostOp := by
  rintro rfl
  exact h

end Op

namespace Build

variable {α β γ : Type} {declines : Prop} {b : Build α}

/-- Whatever program it finds, the construction creates no host operator. It may decline if that is
said. -/
def Plain (declines : Prop) : Build α → Prop
  | done _ => True
  | fail e => e.reason? = none ∨ declines
  | inspect next => ∀ g, (next g).Plain declines
  | emit op _ next => (∀ hostOp, op ≠ .host hostOp) ∧ ∀ v, (next v).Plain declines

/-- Whatever program it finds, the construction creates neither a host operator nor a reduction. It
may decline if that is said. -/
def Quiet (declines : Prop) : Build α → Prop
  | done _ => True
  | fail e => e.reason? = none ∨ declines
  | inspect next => ∀ g, (next g).Quiet declines
  | emit op _ next => op.Quiet ∧ ∀ v, (next v).Quiet declines

/-- Whatever program it finds, the construction creates one reduction, of a kind and with
zero-points that satisfy `P`, and no host operator. It may decline if that is said. -/
def Reduces (P : ReductionSpec → Option (ValueId × ValueId) → Prop) (declines : Prop) :
    Build α → Prop
  | done _ => False
  | fail e => e.reason? = none ∨ declines
  | inspect next => ∀ g, (next g).Reduces P declines
  | emit op _ next =>
      (op.Quiet ∧ ∀ v, (next v).Reduces P declines) ∨
        ∃ spec lhs rhs zeroPoints init, op = .reduce spec lhs rhs zeroPoints init ∧
          P spec zeroPoints ∧ ∀ v, (next v).Quiet declines

namespace Quiet

theorem plain (h : b.Quiet declines) : b.Plain declines := by
  induction b with
  | done | fail => exact h
  | inspect next ih => exact fun g => ih g (h g)
  | emit op type next ih => exact ⟨h.1.ne_host, fun v => ih v (h.2 v)⟩

theorem pure {a : α} : (Pure.pure a : Build α).Quiet declines := trivial

theorem fatal {e : LowerError} (h : e.reason? = none) : (fail e : Build α).Quiet declines := .inl h

theorem decline {reason : DeclineReason} (h : declines) :
    (Build.decline reason : Build α).Quiet declines := .inr h

/-- One part after the other. -/
theorem bind {f : α → Build β} (h : b.Quiet declines) (hf : ∀ a, (f a).Quiet declines) :
    (b >>= f).Quiet declines := by
  induction b with
  | done a => exact hf a
  | fail e => exact h
  | inspect next ih => exact fun g => ih g (h g)
  | emit op type next ih => exact ⟨h.1, fun v => ih v (h.2 v)⟩

theorem query {f : Graph → Except GraphError α} {next : α → Build β}
    (h : ∀ a, (next a).Quiet declines) : (Build.query f >>= next).Quiet declines := by
  refine bind (fun g => ?_) h
  dsimp only
  split
  · exact pure
  · exact fatal rfl

theorem tensorType {v : ValueId} {next : TensorType → Build β}
    (h : ∀ type, (next type).Quiet declines) : (Build.tensorType v >>= next).Quiet declines :=
  query h

/-- A computation outside the program. -/
theorem attempt {c : Except LowerError α} {next : α → Build β}
    (hc : ∀ e, c = .error e → e.reason? = none ∨ declines) (h : ∀ a, (next a).Quiet declines) :
    (ofExcept c >>= next).Quiet declines := by
  cases c with
  | ok a => exact h a
  | error e => exact hc e rfl

theorem create {op : Op} {type : ValueType} (h : op.Quiet) :
    (Build.create op type).Quiet declines :=
  ⟨h, fun _ => trivial⟩

theorem mapM {f : γ → Build α} {xs : List γ} (h : ∀ x, (f x).Quiet declines) :
    (xs.mapM f).Quiet declines := by
  induction xs with
  | nil => exact pure
  | cons x xs ih =>
      rw [List.mapM_cons]
      exact bind (h x) fun _ => bind ih fun _ => pure

theorem forM {f : γ → Build Unit} {xs : List γ} (h : ∀ x, (f x).Quiet declines) :
    (xs.forM f).Quiet declines := by
  induction xs with
  | nil => exact pure
  | cons x xs ih => exact bind (h x) fun _ => ih

theorem foldlM {step : α → γ → Build α} {xs : List γ} {a : α}
    (h : ∀ a x, (step a x).Quiet declines) : (xs.foldlM step a).Quiet declines := by
  induction xs generalizing a with
  | nil => exact pure
  | cons x xs ih =>
      rw [List.foldlM_cons]
      exact bind (h a x) fun _ => ih

theorem triple {f : γ → Build α} {t : Triple γ} (h : ∀ x, (f x).Quiet declines) :
    (t.mapM f).Quiet declines :=
  bind (h _) fun _ => bind (h _) fun _ => bind (h _) fun _ => pure

theorem discard (h : b.Quiet declines) : (Functor.discard b).Quiet declines :=
  bind h fun _ => pure

end Quiet

namespace Reduces

variable {P : ReductionSpec → Option (ValueId × ValueId) → Prop}

theorem plain (h : b.Reduces P declines) : b.Plain declines := by
  induction b with
  | done => exact h.elim
  | fail => exact h
  | inspect next ih => exact fun g => ih g (h g)
  | emit op type next ih =>
      obtain ⟨hop, hnext⟩ | ⟨_, _, _, _, _, rfl, -, hnext⟩ := h
      · exact ⟨hop.ne_host, fun v => ih v (hnext v)⟩
      · exact ⟨nofun, fun v => (hnext v).plain⟩

theorem weaken {P' : ReductionSpec → Option (ValueId × ValueId) → Prop} (h : b.Reduces P declines)
    (hP : ∀ spec zeroPoints, P spec zeroPoints → P' spec zeroPoints) : b.Reduces P' declines := by
  induction b with
  | done | fail => exact h
  | inspect next ih => exact fun g => ih g (h g)
  | emit op type next ih =>
      obtain ⟨hop, hnext⟩ | ⟨_, _, _, _, _, rfl, hspec, hnext⟩ := h
      · exact .inl ⟨hop, fun v => ih v (hnext v)⟩
      · exact .inr ⟨_, _, _, _, _, rfl, hP _ _ hspec, hnext⟩

/-- What comes before the reduction is quiet. -/
theorem bind {f : α → Build β} (h : b.Quiet declines) (hf : ∀ a, (f a).Reduces P declines) :
    (b >>= f).Reduces P declines := by
  induction b with
  | done a => exact hf a
  | fail e => exact h
  | inspect next ih => exact fun g => ih g (h g)
  | emit op type next ih => exact .inl ⟨h.1, fun v => ih v (h.2 v)⟩

/-- What comes after the reduction is quiet. -/
theorem followed {f : α → Build β} (h : b.Reduces P declines) (hf : ∀ a, (f a).Quiet declines) :
    (b >>= f).Reduces P declines := by
  induction b with
  | done a => exact h.elim
  | fail e => exact h
  | inspect next ih => exact fun g => ih g (h g)
  | emit op type next ih =>
      obtain ⟨hop, hnext⟩ | ⟨_, _, _, _, _, rfl, hspec, hnext⟩ := h
      · exact .inl ⟨hop, fun v => ih v (hnext v)⟩
      · exact .inr ⟨_, _, _, _, _, rfl, hspec, fun v => (hnext v).bind hf⟩

theorem decline {reason : DeclineReason} (h : declines) :
    (Build.decline reason : Build α).Reduces P declines := .inr h

theorem query {f : Graph → Except GraphError α} {next : α → Build β}
    (h : ∀ a, (next a).Reduces P declines) : (Build.query f >>= next).Reduces P declines := by
  rw [← bind_pure (Build.query f)]
  exact bind (.query fun _ => .pure) h

theorem tensorType {v : ValueId} {next : TensorType → Build β}
    (h : ∀ type, (next type).Reduces P declines) :
    (Build.tensorType v >>= next).Reduces P declines :=
  query h

/-- A computation outside the program. -/
theorem attempt {c : Except LowerError α} {next : α → Build β}
    (hc : ∀ e, c = .error e → e.reason? = none ∨ declines) (h : ∀ a, (next a).Reduces P declines) :
    (ofExcept c >>= next).Reduces P declines := by
  cases c with
  | ok a => exact h a
  | error e => exact hc e rfl

end Reduces

/-! ## Scalars and sizes -/

theorem scalar_quiet (value : Scalar) (dtype : DType) : (scalar value dtype).Quiet declines :=
  .create trivial

theorem scalarCast_quiet (v : ValueId) (dtype : DType) : (scalarCast v dtype).Quiet declines :=
  .create trivial

theorem scalarAddConst_quiet (v : ValueId) (n : Int) (dtype : DType) :
    (scalarAddConst v n dtype).Quiet declines :=
  .bind (scalar_quiet _ _) fun _ => .create trivial

theorem guard_quiet (cond : GuardCond) (message : String) :
    (discard (guard cond message)).Quiet declines :=
  .discard (.create trivial)

theorem index_quiet (n : Int) : (index n).Quiet declines := .bind (.create trivial) fun _ => .pure

theorem dim_quiet (v : ValueId) (axis : Nat) : (dim v axis).Quiet declines := by
  refine .tensorType fun type => ?_
  split
  · exact index_quiet _
  · exact .bind (.create trivial) fun _ => .pure
  · exact .fatal rfl

theorem dims_quiet (v : ValueId) : (dims v).Quiet declines :=
  .tensorType fun _ => .mapM fun _ => dim_quiet _ _

theorem arith_quiet (op : ArithOp) (z z' : Size) : (arith op z z').Quiet declines := by
  unfold arith
  dsimp only
  split
  · exact index_quiet _
  · split
    · exact .pure
    · split
      · exact .pure
      · exact .bind (.create trivial) fun _ => .pure

theorem arithConst_quiet (op : ArithOp) (z : Size) (n : Int) :
    (index n >>= arith op z).Quiet declines :=
  .bind (index_quiet n) fun _ => arith_quiet op z _

/-! ## Tensors -/

theorem filled_quiet (zs : List Size) (v : ValueId) (dtype : DType) :
    (filled zs v dtype).Quiet declines :=
  .create trivial

theorem zeros_quiet (zs : List Size) (dtype : DType) : (zeros zs dtype).Quiet declines :=
  .bind (scalar_quiet _ _) fun _ => filled_quiet _ _ _

theorem broadcast_quiet (v : ValueId) (zs : List Size) (added : List Nat) :
    (broadcast v zs added).Quiet declines := by
  refine .tensorType fun type => ?_
  dsimp only
  split
  · exact .fatal rfl
  · exact .create trivial

theorem broadcastTo_quiet (v : ValueId) (zs : List Size) :
    (broadcastTo v zs).Quiet declines := by
  refine .tensorType fun type => ?_
  dsimp only
  split
  · exact .fatal rfl
  · split
    · exact .pure
    · exact .create trivial

theorem transpose_quiet (v : ValueId) (perm : Permutation) :
    (transpose v perm).Quiet declines := by
  refine .tensorType fun type => ?_
  split
  · exact .fatal rfl
  · split
    · exact .pure
    · exact .create trivial

theorem flip_quiet (v : ValueId) (axes : List Nat) : (flip v axes).Quiet declines := by
  refine .tensorType fun type => ?_
  split
  · exact .fatal rfl
  · split
    · exact .pure
    · exact .create trivial

theorem expandShape_quiet (v : ValueId) (groups : Reassociation) (zs : List Size) :
    (expandShape v groups zs).Quiet declines := by
  refine .tensorType fun type => ?_
  split
  · exact .fatal rfl
  · split
    · exact .fatal rfl
    · exact .create trivial

theorem collapseShape_quiet (v : ValueId) (groups : Reassociation) :
    (collapseShape v groups).Quiet declines := by
  refine .tensorType fun type => ?_
  split
  · exact .fatal rfl
  · exact .create trivial

theorem pad_quiet (v : ValueId) (low high : List Int) (w : ValueId) :
    (pad v low high w).Quiet declines := by
  refine .tensorType fun type => ?_
  split
  · exact .fatal rfl
  · split
    · exact .pure
    · exact .create trivial

theorem insertSlice_quiet (v w : ValueId) (zs : List Size) (strides : List Int) :
    (insertSlice v w zs strides).Quiet declines := by
  refine .tensorType fun part => .tensorType fun type => ?_
  split
  · exact .fatal rfl
  · split
    · exact .fatal rfl
    · exact .create trivial

theorem narrow_quiet (v : ValueId) (axis : Nat) (start : Int) (len : Nat) :
    (narrow v axis start len).Quiet declines := by
  refine .tensorType fun type => ?_
  split
  · exact .create trivial
  · exact .fatal rfl

theorem squeeze_quiet (v : ValueId) (axis : Nat) : (squeeze v axis).Quiet declines := by
  refine .tensorType fun type => ?_
  split
  · exact .create trivial
  · exact .fatal rfl

theorem unsqueeze_quiet (v : ValueId) (axis : Nat) : (unsqueeze v axis).Quiet declines := by
  refine .tensorType fun type => ?_
  split
  · exact .create trivial
  · exact .fatal rfl

theorem sum_quiet (v : ValueId) (axis : Nat) : (sum v axis).Quiet declines := by
  refine .tensorType fun type => ?_
  split
  · exact .create trivial
  · exact .fatal rfl

theorem elementwise_quiet (op : ElementwiseOp) (v w : ValueId) (dtype : DType) :
    (elementwise op v w dtype).Quiet declines :=
  .tensorType fun _ => .query fun _ => .create trivial

theorem convert_quiet (v : ValueId) (dtype : DType) : (convert v dtype).Quiet declines := by
  refine .tensorType fun type => ?_
  split
  · exact .pure
  · exact .create trivial

theorem cast_quiet (v : ValueId) (target : TensorType) : (cast v target).Quiet declines := by
  refine .tensorType fun type => ?_
  split
  · exact .fatal rfl
  split
  · exact .fatal rfl
  split
  · exact .fatal rfl
  split
  · exact .pure
  · exact .create trivial

theorem finish_quiet (v : ValueId) (target : TensorType) : (finish v target).Quiet declines :=
  .bind (convert_quiet _ _) fun _ => cast_quiet _ _

theorem checkOperand_quiet (kernel : String) (operand : Nat) (v : ValueId) (map : AffineMap) :
    (checkOperand kernel operand v map).Quiet declines := by
  refine .tensorType fun type => ?_
  split
  · exact .pure
  · exact .fatal rfl

theorem reduce_reduces {P : ReductionSpec → Option (ValueId × ValueId) → Prop}
    {spec : ReductionSpec} {zeroPoints : Option (ValueId × ValueId)} (h : P spec zeroPoints)
    (lhs rhs init : ValueId) : (reduce spec lhs rhs zeroPoints init).Reduces P declines := by
  unfold reduce
  split
  · exact .inl rfl
  · exact .bind (.forM fun _ => checkOperand_quiet _ _ _ _) fun _ =>
      .tensorType fun _ => .inr ⟨_, _, _, _, _, rfl, h, fun _ => .pure⟩

/-! ## Agreement -/

theorem requireEqual_quiet (z z' : Size) (what : String) :
    (requireEqual z z' what).Quiet declines := by
  unfold requireEqual
  split
  · split
    · exact .pure
    · exact .fatal rfl
  · exact guard_quiet _ _

theorem requireDivisible_quiet (z z' : Size) (what : String) :
    (requireDivisible z z' what).Quiet declines := by
  unfold requireDivisible
  split
  · split
    · exact .fatal rfl
    · split
      · exact .pure
      · exact .fatal rfl
  · exact guard_quiet _ _

theorem broadcastSize_quiet (z z' : Size) (axis : Nat) :
    (broadcastSize z z' axis).Quiet declines := by
  unfold broadcastSize
  dsimp only
  split
  · exact .pure
  split
  · exact .pure
  split
  · exact .pure
  split
  · exact .fatal rfl
  · exact .bind (guard_quiet _ _) fun _ => .pure
  · exact .bind (guard_quiet _ _) fun _ => .pure
  · exact .bind (arith_quiet _ _ _) fun _ => .bind (guard_quiet _ _) fun _ =>
      .bind (guard_quiet _ _) fun _ => .pure

theorem broadcastSizes_quiet (zs zs' : List Size) : (broadcastSizes zs zs').Quiet declines :=
  .bind (.mapM fun _ => broadcastSize_quiet _ _ _) fun _ => .pure

end Build

/-! ## Element types and storage -/

theorem DType.requireNumeric_fatal {t : DType} {e : LowerError} (h : t.requireNumeric = .error e) :
    e.reason? = none := by
  unfold requireNumeric at h
  split at h
  · cases h
  · cases h
    rfl

theorem DType.accumulator_fatal {t : DType} {e : LowerError} (h : t.accumulator = .error e) :
    e.reason? = none := by
  unfold accumulator at h
  split at h
  · cases h
  · cases h
    rfl

theorem OperandInfo.normalize_quiet {declines : Prop} (x : OperandInfo) :
    x.normalize.Quiet declines := by
  unfold normalize
  split
  · exact .pure
  · refine .bind (Build.scalarCast_quiet _ _) fun _ => ?_
    dsimp only
    split
    · exact .bind (Build.scalarAddConst_quiet _ _ _) fun _ => .bind (Build.scalar_quiet _ _)
        fun _ => .bind (Build.elementwise_quiet _ _ _ _) fun _ => .tensorType fun _ => .pure
    · exact .pure

end TensorLowering
