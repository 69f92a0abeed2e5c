import TensorLowering.Lowering.Flip
import TensorLowering.Proofs.Build.Commits
import TensorLowering.Proofs.Build.DeclaredTensors
import TensorLowering.Proofs.NdArray.Mirrors
import TensorLowering.Proofs.Trilinear.Plans

/-!
# Reversed axes of declared tensors

The rule for flips reverses the axes that are named at least once, whatever the declared type leaves
open. Main statement: the lowered program computes the tensor with these axes reversed, declared
with the type of the operand; lowering and running a flip of the same axes once more gives the
tensor back.
-/
namespace TensorLowering

open NdArray

/-- Only the set of the positions that are named matters. -/
theorem namedAxes_congr {rank : Nat} {axes axes' : List Int}
    (h : ∀ a, a ∈ namedAxes rank axes ↔ a ∈ namedAxes rank axes') :
    namedAxes rank axes = namedAxes rank axes' := by
  refine List.filter_congr fun a ha => decide_eq_decide.2 ?_
  have hlt := List.mem_range.1 ha
  simpa [mem_namedAxes, hlt] using h a

namespace Axis

/-- The axis is counted from the start, or from the end of a rank that is a bounded integer. -/
def InRange (rank : Nat) (axis : Int) : Prop :=
  -(rank : Int) ≤ axis ∧ axis < rank ∧ (axis < 0 → Numeric.InInt64 rank)

instance (rank : Nat) (axis : Int) : Decidable (InRange rank axis) := by
  unfold InRange
  infer_instance

variable {rank : Nat} {axis : Int} {axes : List Int} {name : String}

theorem InRange.exists_require (h : InRange rank axis) (name : String) :
    ∃ position, require name rank axis = .ok position := by
  obtain ⟨hlow, hhigh, hrank⟩ := h
  by_cases hneg : axis < 0
  · have hfits : 0 ≤ (rank : Int) + axis ∧ Numeric.InInt64 rank := ⟨by omega, hrank hneg⟩
    exact ⟨_, require_eq_ok.2 ((if_neg (by omega)).trans (if_pos hfits))⟩
  · exact ⟨_, require_eq_ok.2 ((if_pos (by omega)).trans (if_pos hhigh))⟩

theorem exists_mapM_require (h : ∀ axis ∈ axes, InRange rank axis) (name : String) :
    ∃ positions, axes.mapM (require name rank) = .ok positions := by
  induction axes with
  | nil => exact ⟨[], rfl⟩
  | cons axis axes ih =>
      obtain ⟨haxis, haxes⟩ := List.forall_mem_cons.1 h
      obtain ⟨position, hposition⟩ := haxis.exists_require name
      obtain ⟨positions, hpositions⟩ := ih haxes
      refine ⟨position :: positions, ?_⟩
      rw [List.mapM_cons, hposition, hpositions]
      rfl

/-- Axes in range name a set of positions. -/
theorem requireSet_eq_ok (h : ∀ axis ∈ axes, InRange rank axis) :
    requireSet name rank axes = .ok (namedAxes rank axes) := by
  obtain ⟨positions, hpositions⟩ := exists_mapM_require h name
  have hset : requireSet name rank axes =
      .ok ((List.range rank).filter (positions.contains ·)) := by
    rw [requireSet, hpositions]
    rfl
  rw [hset, requireSet_eq hset]

end Axis

namespace Build

variable {fails : LowerError → Prop} {s : Stage} {v : ValueId} {t : Tensor} {type : TensorType}
  {axes : List Nat}

/-- Reversed axes are declared as they were. -/
theorem flip_keeps_type (hv : s.HasArray v t type) (haxes : ∀ axis ∈ axes, axis < t.shape.length) :
    (flip v axes).Gives fails s fun v' s' => s'.HasArray v' (t.flipped axes) type := by
  refine .query hv.declared ?_
  rw [← hv.rank, find?_le_eq_none haxes]
  dsimp only
  split
  next hempty =>
    rw [List.isEmpty_iff.1 hempty, Tensor.flipped_nil]
    exact .pure hv
  next =>
    have htensor : s.env.tensor v = .ok t := Env.tensor_eq_ok.2 hv.get
    have hvalue : evalNode s.supply s.env ⟨.flip v axes, .tensor ⟨type.dtype, type.shape⟩⟩ =
        .ok (.tensor (t.flipped axes)) := by
      simp only [evalNode, htensor, Bind.bind, Except.bind]
      rw [← hv.dtype]
      exact Tensor.arrayResult_flipped haxes
    exact .create hvalue
      { declared := Graph.tensorType_eq_ok.2 ⟨_, s.node?_emit_self _ _ _⟩
        dtype := hv.dtype
        rank := hv.rank
        get := s.get?_emit_self _ _ _ }

/-- A tensor that is declared with the type already is left as it is. -/
theorem finish_keeps (hv : s.HasArray v t type) (hadmits : type.shape.Admits t.shape) :
    (finish v type).Gives fails s fun v' s' => s'.HasArray v' t type := by
  have hconvert : (convert v type.dtype).Gives fails s fun v' s' => s'.HasArray v' t type := by
    refine .query hv.declared ?_
    rw [if_pos rfl]
    exact .pure hv
  refine hconvert.bind fun v' s' _ hv' => .query hv'.declared ?_
  rw [if_neg (not_not.2 rfl), if_neg (not_not.2 rfl), staticMismatch?_of_both hadmits hadmits]
  dsimp only
  rw [if_pos rfl]
  exact .pure hv'

end Build

namespace Rule

open Build

variable {g : Graph} {supply : Supply} {env : Env} {s : Stage} {v : ValueId} {t : Tensor}
  {type : TensorType} {dims : List Int}

theorem lowerFlip_gives {fails : LowerError → Prop} (hv : s.HasArray v t type)
    (hadmits : type.shape.Admits t.shape)
    (hdims : ∀ d ∈ dims, Axis.InRange t.shape.length d) :
    (lowerFlip ⟨v, .const dims⟩ type).Gives fails s fun w s' =>
      s'.HasArray w (t.flipped (namedAxes t.shape.length dims)) type := by
  refine .ofExcept rfl (.query hv.declared ?_)
  rw [← hv.rank]
  refine .ofExcept (Axis.requireSet_eq_ok hdims) ?_
  refine .bind (flip_keeps_type hv fun axis haxis => (mem_namedAxes.1 haxis).1) ?_
  exact fun w s' _ hflipped => finish_keeps hflipped hadmits

/-- The rule succeeds, and its result is the reversed tensor, of the declared type. -/
theorem flip_runs (config : LoweringConfig) (h : g.evaluate supply = .ok env)
    (htype : g.tensorType v = .ok type) (hget : env.get? v = some (.tensor t))
    (ht : t.HasType type) (hdims : ∀ d ∈ dims, Axis.InRange t.shape.length d) :
    ∃ w d env', (flip.apply config (.flip ⟨v, .const dims⟩) type).run (.ofGraph g) = (.ok w, d) ∧
      d.commit.evaluate supply = .ok env' ∧ d.commit.tensorType w = .ok type ∧
      env'.get? w = some (.tensor (t.flipped (namedAxes t.shape.length dims))) := by
  have hv : (Stage.ofRun h).HasArray v t type := ⟨htype, ht.dtype, ht.admits.1, hget⟩
  have hlower : (lowerFlip ⟨v, .const dims⟩ type).Gives (fun _ => False) (Stage.ofRun h) _ :=
    lowerFlip_gives hv ht.admits hdims
  rcases hlower.commit_stage h with
    ⟨e, d, -, hfalse⟩ | ⟨w, d, s, hrun, hgraph, hw, heval⟩
  · exact hfalse.elim
  · refine ⟨w, d, s.env, hrun, heval, ?_, hw.get⟩
    have hdeclared := hw.declared
    rw [← hgraph] at hdeclared
    exact hdeclared

/-- The lowered program reverses the axes that are named at least once, and a flip of the same axes
lowers to a program that gives the tensor back. -/
theorem flip_reverses (config : LoweringConfig) (h : g.evaluate supply = .ok env)
    (htype : g.tensorType v = .ok type) (hget : env.get? v = some (.tensor t))
    (ht : t.HasType type) (hdims : ∀ d ∈ dims, Axis.InRange t.shape.length d) :
    ∃ w d u, (flip.apply config (.flip ⟨v, .const dims⟩) type).run (.ofGraph g) = (.ok w, d) ∧
      (d.commit.withOutputs [w]).run supply = .ok [.tensor u] ∧ u.dtype = t.dtype ∧
      u.shape = t.shape ∧
      (∀ ix, InBounds t.shape ix →
        u.entry ix = t.entry (mirroredOn (namedAxes t.shape.length dims) t.shape ix)) ∧
      d.commit.tensorType w = .ok type ∧
      ∀ (config' : LoweringConfig) (dims' : List Int),
        (∀ d ∈ dims', Axis.InRange t.shape.length d) →
        (∀ a, a ∈ namedAxes t.shape.length dims' ↔ a ∈ namedAxes t.shape.length dims) →
        ∃ w' d', (flip.apply config' (.flip ⟨w, .const dims'⟩) type).run (.ofGraph d.commit) =
            (.ok w', d') ∧
          (d'.commit.withOutputs [w']).run supply = .ok [.tensor t] := by
  have hnodup : (namedAxes t.shape.length dims).Nodup :=
    (pairwise_namedAxes t.shape.length dims).imp Nat.ne_of_lt
  obtain ⟨w, d, env', hrun, heval, hdeclared, hw⟩ := flip_runs config h htype hget ht hdims
  refine ⟨w, d, _, hrun, run_withOutputs heval hw, rfl, rfl,
    fun ix hix => Tensor.entry_flipped hnodup hix, hdeclared, fun config' dims' hdims' hsame => ?_⟩
  obtain ⟨w', d', env'', hrun', heval', -, hw'⟩ :=
    flip_runs config' heval hdeclared hw ⟨ht.dtype, ht.admits⟩ hdims'
  rw [Tensor.shape_flipped, namedAxes_congr hsame, Tensor.flipped_flipped hnodup] at hw'
  exact ⟨w', d', hrun', run_withOutputs heval' hw'⟩

/-- Two rows of three elements, the first size of which is left open. -/
def openRows : TensorType := ⟨.float32, ⟨[.dynamic, .static 3]⟩⟩

def countedRows : Tensor :=
  .ofEntries .float32 [2, 3] fun ix => .ofInt (3 * ix.getD 0 0 + ix.getD 1 0)

/-- The last axis is named three times, and reversed once; naming it once gives the rows back. -/
theorem flip_reverses_rows :
    ∃ w d u, (flip.apply .standard (.flip ⟨⟨0⟩, .const [-1, 1, -1]⟩) openRows).run
        (.ofGraph (.takingAs [openRows])) = (.ok w, d) ∧
      (d.commit.withOutputs [w]).run (.takingIn [countedRows]) = .ok [.tensor u] ∧
      u.entry [1, 0] = countedRows.entry [1, 2] ∧
      ∃ w' d', (flip.apply .standard (.flip ⟨w, .const [1]⟩) openRows).run (.ofGraph d.commit) =
          (.ok w', d') ∧
        (d'.commit.withOutputs [w']).run (.takingIn [countedRows]) = .ok [.tensor countedRows] := by
  have htyped : countedRows.HasType openRows := ⟨rfl, by decide⟩
  have hrange : ∀ d ∈ [(-1 : Int), 1, -1], Axis.InRange countedRows.shape.length d := by decide
  have hsame : namedAxes countedRows.shape.length [1] =
      namedAxes countedRows.shape.length [-1, 1, -1] := by decide
  obtain ⟨env, h, hoperand⟩ := Graph.evaluate_takingAs (.cons htyped .nil)
  obtain ⟨-, -, hget⟩ := hoperand 0 _ _ rfl rfl
  obtain ⟨w, d, u, hrun, hvalue, -, -, hentry, -, hback⟩ :=
    flip_reverses .standard h rfl hget htyped hrange
  exact ⟨w, d, u, hrun, hvalue, hentry [1, 0] (by decide),
    hback .standard [1] (by decide) fun a => by rw [hsame]⟩

end Rule

end TensorLowering
