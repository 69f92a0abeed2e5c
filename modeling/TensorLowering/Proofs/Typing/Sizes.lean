import TensorLowering.Build.Scalar
import TensorLowering.Build.Size
import TensorLowering.Proofs.Shape.Admission
import TensorLowering.Proofs.Typing.Respects

/-!
# Types of sizes and scalars

A size is tracked if its value is the number that is known of it. Index arithmetic tracks its
result, and sizes that are tracked make a shape that admits their values.
-/
namespace TensorLowering

open Numeric

/-- A number that is known of the size is its value. -/
def Stage.Tracks (s : Stage) (z : Size) : Prop :=
  ∀ n, z.known = some n → s.env.get? z.value = some (.index n)

theorem Stage.Tracks.mono {s s' : Stage} {z : Size} (h : s.Tracks z) (hle : s ≤ s') :
    s'.Tracks z :=
  fun n hn => hle.get _ _ (h n hn)

/-- A size of which nothing is known. -/
theorem Stage.tracks_unknown (s : Stage) (v : ValueId) : s.Tracks ⟨v, none⟩ := nofun

/-- The shape that sizes declare admits what they evaluate to. -/
theorem Stage.admits_sizes {s : Stage} {zs : List Size} {ns : List Nat}
    (hz : ∀ z ∈ zs, s.Tracks z) (h : s.env.sizes (Size.values zs) = .ok ns) :
    (Size.shape zs).Admits ns := by
  refine Shape.admits_iff.2 ?_
  unfold Size.shape
  unfold Env.sizes Size.values at h
  induction zs generalizing ns with
  | nil =>
      cases h
      exact .nil
  | cons z zs ih =>
      rw [List.map_cons, List.mapM_cons] at h
      obtain ⟨n, hn, h⟩ := Except.bind_eq_ok.1 h
      obtain ⟨rest, hrest, h⟩ := Except.bind_eq_ok.1 h
      cases h
      refine .cons ?_ (ih (fun z' hz' => hz z' (by simp [hz'])) hrest)
      obtain ⟨m, hm, hn⟩ := Except.bind_eq_ok.1 hn
      unfold Size.dim
      split
      next k hk =>
        -- what is known of the size is what it was read as
        have hsame := (hz z (by simp) k hk).symm.trans (Env.index_eq_ok.1 hm)
        cases hsame
        split
        next hnonneg =>
          rw [if_neg (Int.not_lt.2 hnonneg)] at hn
          cases hn
          exact .static _
        next => exact .dynamic _
      next => exact .dynamic _

namespace Build

open Respects

variable {s : Stage}

/-! ## Index arithmetic -/

theorem index_respects (n : Int) : (index n).Respects s fun z s' => s'.Tracks z := by
  refine fun value hvalue hsmall => ?_
  cases hvalue
  refine ⟨.index _, fun m hm => ?_⟩
  cases hm
  have hexact : (Binary64.ofInt n).toInt64 = n := Binary64.isExact_of_toInt64_lt hsmall
  rw [Stage.get?_emit_self]
  exact congrArg (some ∘ Value.index) hexact

/-- An index node of which nothing is known. -/
theorem createIndex_respects {op : Op} (h : ∀ value, evalNode s.supply s.env ⟨op, .index⟩ =
    .ok value → value.HasType .index) :
    (do return ⟨← create op .index, none⟩ : Build Size).Respects s fun z s' => s'.Tracks z :=
  fun value hvalue _ => ⟨h value hvalue, Stage.tracks_unknown _ _⟩

theorem dim_respects (tensor : ValueId) (axis : Nat) :
    (dim tensor axis).Respects s fun z s' => s'.Tracks z := by
  refine .tensorType fun type _ => ?_
  split
  next n _ => exact index_respects _
  next =>
    refine createIndex_respects fun value hvalue => ?_
    obtain ⟨t, -, hvalue⟩ := Except.bind_eq_ok.1 hvalue
    split at hvalue
    next =>
      cases hvalue
      exact .index _
    next => cases hvalue
  next => exact trivial

theorem dims_respects (hs : s.Typed) (tensor : ValueId) :
    (dims tensor).Respects s fun zs s' => ∀ z ∈ zs, s'.Tracks z :=
  .tensorType fun _ _ => Respects.mapM hs (fun hle h => h.mono hle) fun axis _ _ _ =>
    dim_respects tensor axis

theorem arith_respects (op : ArithOp) {lhs rhs : Size} (hl : s.Tracks lhs) (hr : s.Tracks rhs) :
    (arith op lhs rhs).Respects s fun z s' => s'.Tracks z := by
  unfold arith
  dsimp only
  split
  next n _ => exact index_respects n
  next =>
    split
    next => exact .pure hr
    next =>
      split
      next => exact .pure hl
      next =>
        refine createIndex_respects fun value hvalue => ?_
        obtain ⟨a, -, hvalue⟩ := Except.bind_eq_ok.1 hvalue
        obtain ⟨b, -, hvalue⟩ := Except.bind_eq_ok.1 hvalue
        split at hvalue
        next => cases hvalue
        next =>
          cases hvalue
          exact .index _

/-- Arithmetic with a constant. -/
theorem arithConst_respects (hs : s.Typed) (op : ArithOp) {lhs : Size} (hl : s.Tracks lhs)
    (n : Int) : (do arith op lhs (← index n)).Respects s fun z s' => s'.Tracks z :=
  .bind hs (index_respects n) fun _ _ hle _ hz => arith_respects op (hl.mono hle) hz

/-! ## Scalars and guards -/

theorem scalar_respects (value : Scalar) (dtype : DType) :
    (scalar value dtype).Respects s fun _ _ => True :=
  .create fun v hv _ => by
    cases hv
    exact ⟨.scalar .., trivial⟩

theorem scalarCast_respects (value : ValueId) (dtype : DType) :
    (scalarCast value dtype).Respects s fun _ _ => True := by
  refine .create fun v hv _ => ⟨?_, trivial⟩
  obtain ⟨x, -, hv⟩ := Except.bind_eq_ok.1 hv
  cases hv
  exact .scalar ..

theorem scalarAddConst_respects (hs : s.Typed) (value : ValueId) (n : Int) (dtype : DType) :
    (scalarAddConst value n dtype).Respects s fun _ _ => True := by
  refine .bind hs (scalar_respects _ dtype) fun rhs s' _ _ _ => ?_
  refine .create fun v hv _ => ⟨?_, trivial⟩
  obtain ⟨a, -, hv⟩ := Except.bind_eq_ok.1 hv
  obtain ⟨b, -, hv⟩ := Except.bind_eq_ok.1 hv
  split at hv
  next => cases hv
  next =>
    cases hv
    exact .scalar ..

theorem guard_respects (cond : GuardCond) (message : String) :
    (guard cond message).Respects s fun _ _ => True := by
  refine .create fun v hv _ => ⟨?_, trivial⟩
  obtain ⟨holds, -, hv⟩ := Except.bind_eq_ok.1 hv
  split at hv
  next =>
    cases hv
    exact .unit
  next => cases hv

end Build

end TensorLowering
