import TensorLowering.Proofs.Build.Drafts
import TensorLowering.Proofs.Build.PlainOperations

/-!
# Reductions of a draft

The reductions among the nodes that a construction leaves behind, with the zero-points they read.
Main statements: a quiet construction leaves them as they are, and one that reduces adds one.
-/
namespace TensorLowering

/-- The kind of a reduction, and the zero-points that it reads. -/
def Op.reduction? : Op → Option (ReductionSpec × Option (ValueId × ValueId))
  | .reduce spec _ _ zeroPoints _ => some (spec, zeroPoints)
  | _ => none

theorem Op.Quiet.reduction? {op : Op} (h : op.Quiet) : op.reduction? = none := by
  cases op with
  | reduce => exact h.elim
  | _ => rfl

/-- The reductions among the created nodes, in order. -/
def Draft.reductions (d : Draft) : List (ReductionSpec × Option (ValueId × ValueId)) :=
  d.created.toList.filterMap fun id => (d.graph.node? id).bind (·.op.reduction?)

variable {α β : Type} {g : Graph} {d d' : Draft} {declines : Prop} {b : Build α}

theorem Draft.Over.reductions_emit (h : Draft.Over g d) (op : Op) (type : ValueType) :
    (d.emit op type).reductions = d.reductions ++ op.reduction?.toList := by
  have hnew : (d.emit op type).graph.node? d.graph.nextId = some ⟨op, type⟩ :=
    Graph.node?_create_self ..
  have hold : ∀ id ∈ d.created.toList, ((d.emit op type).graph.node? id).bind (·.op.reduction?) =
      (d.graph.node? id).bind (·.op.reduction?) := fun id hid => by
    rw [Draft.emit, Graph.node?_create_of_lt d.graph op type (h.mem_created.1 hid).2]
  have hcreated : (d.emit op type).created.toList = d.created.toList ++ [d.graph.nextId] := by
    simp [Draft.emit]
  rw [Draft.reductions, hcreated, List.filterMap_append, List.filterMap_congr hold]
  cases hop : op.reduction? <;> simp [Draft.reductions, hnew, hop]

namespace Build

/-- A construction that succeeds is one part after the other. -/
theorem run_bind_eq_ok {f : α → Build β} {y : β} :
    (b >>= f).run d = (.ok y, d') ↔
      ∃ x d₁, b.run d = (.ok x, d₁) ∧ (f x).run d₁ = (.ok y, d') := by
  rw [run_bind]
  constructor
  · intro h
    split at h
    next x d₁ hx => exact ⟨x, d₁, hx, h⟩
    next => cases h
  · rintro ⟨x, d₁, hx, hf⟩
    rw [hx]
    exact hf

/-- A question about the program that is answered leaves the draft as it is. -/
theorem run_query_bind_eq_ok {f : Graph → Except GraphError α} {next : α → Build β} {y : β} :
    (query f >>= next).run d = (.ok y, d') ↔
      ∃ x, f d.graph = .ok x ∧ (next x).run d = (.ok y, d') := by
  rw [run_bind, run_query]
  cases f d.graph <;> simp

/-- So does a check that passes. -/
theorem run_check_bind_eq_ok {c : Except LowerError α} {next : α → Build β} {y : β} :
    (ofExcept c >>= next).run d = (.ok y, d') ↔
      ∃ x, c = .ok x ∧ (next x).run d = (.ok y, d') := by
  rw [run_bind]
  cases c <;> simp [ofExcept, run]

/-- A quiet construction creates no reduction. -/
theorem Quiet.reductions_run (h : b.Quiet declines) (hd : Draft.Over g d) :
    (b.run d).2.reductions = d.reductions := by
  induction b generalizing d with
  | done | fail => rfl
  | inspect next ih => exact ih d.graph (h d.graph) hd
  | emit op type next ih =>
      rw [run, ih _ (h.2 _) (hd.emit op type), hd.reductions_emit, h.1.reduction?]
      exact List.append_nil _

/-- A construction that reduces and succeeds creates one reduction. -/
theorem Reduces.reductions_run {P : ReductionSpec → Option (ValueId × ValueId) → Prop}
    (h : b.Reduces P declines) (hd : Draft.Over g d) {a : α} (hrun : b.run d = (.ok a, d')) :
    ∃ spec zeroPoints, P spec zeroPoints ∧
      d'.reductions = d.reductions ++ [(spec, zeroPoints)] := by
  induction b generalizing d with
  | done => exact h.elim
  | fail => cases hrun
  | inspect next ih => exact ih d.graph (h d.graph) hd hrun
  | emit op type next ih =>
      have hemit := hd.reductions_emit op type
      obtain ⟨hop, hnext⟩ | ⟨spec, lhs, rhs, zeroPoints, init, rfl, hspec, hnext⟩ := h
      · rw [hop.reduction?, Option.toList_none, List.append_nil] at hemit
        rw [← hemit]
        exact ih _ (hnext _) (hd.emit op type) hrun
      · -- this node is the reduction, and what comes after it is quiet
        have hrest : (next d.graph.nextId).run (d.emit _ type) = (.ok a, d') := hrun
        have hquiet := (hnext d.graph.nextId).reductions_run
          (hd.emit (.reduce spec lhs rhs zeroPoints init) type)
        rw [hrest] at hquiet
        exact ⟨spec, zeroPoints, hspec, hquiet.trans hemit⟩

end Build

end TensorLowering
