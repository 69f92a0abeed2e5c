import TensorLowering.Conversion.Basic
import TensorLowering.Proofs.Build.Drafts
import TensorLowering.Proofs.Evaluation.Runs

/-!
# What can come of an operator

Everything that a conversion can do with one operator is said once, by `Conversion.Trial` for the
rules that are tried on it, and by `Conversion.Attempt` for the operator itself. What a conversion
keeps follows case by case.
-/
namespace TensorLowering.Conversion

open TensorLowering.Graph

variable {c : Conversion} {op : HostOp} {result : TensorType} {id : ValueId} {g g' : Graph}
  {rule : Rule} {rest : List Rule}

/-- The value and the draft of the first rule that applies to an operator. -/
def applied? (c : Conversion) (op : HostOp) (result : TensorType) (g : Graph) :
    List Rule → Option (ValueId × Draft)
  | [] => none
  | rule :: rest =>
      match (rule.apply c.config op result).run (.ofGraph g) with
      | (.ok replacement, draft) => some (replacement, draft)
      | (.error (.noMatch _), _) => c.applied? op result g rest
      | (.error _, _) => none

/-- Everything that rules can do with an operator: all of them decline it, one of them lowers it,
one of them fails, or one of them applies to an operator that is not scheduled. -/
inductive Trial (c : Conversion) (id : ValueId) (op : HostOp) (result : TensorType) (g : Graph)
    (rules : List Rule) : Except LowerError (Option Outcome) → Graph → Prop where
  | declined {entry : Declined} (hop : entry.op = id) : Trial c id op result g rules
      (.ok (some (.declined entry))) g
  | lowered {rule : Rule} {replacement : ValueId} {d : Draft} {g₁ : Graph} (hrule : rule ∈ rules)
      (hrun : (rule.apply c.config op result).run (.ofGraph g) = (.ok replacement, d))
      (happlied : c.applied? op result g rules = some (replacement, d))
      (hcommit : d.commitBefore id = .ok g₁) : Trial c id op result g rules
      (.ok (some (.lowered ⟨id, op.kind, rule.name, replacement, d.created.size⟩)))
      ((g₁.replaceAllUses id replacement).erase id)
  | failed {e : LowerError} : Trial c id op result g rules (.error e) g
  | detached {rule : Rule} {replacement : ValueId} {d : Draft} {e : GraphError}
      (hrule : rule ∈ rules)
      (hrun : (rule.apply c.config op result).run (.ofGraph g) = (.ok replacement, d))
      (hcommit : d.commitBefore id = .error e) : Trial c id op result g rules
      (.error (.graph e)) d.graph

/-- A rule that declines may stand before the others. -/
theorem Trial.cons {r : Except LowerError (Option Outcome)} {reason : DeclineReason} {d : Draft}
    (h : c.Trial id op result g rest r g')
    (hrun : (rule.apply c.config op result).run (.ofGraph g) = (.error (.noMatch reason), d)) :
    c.Trial id op result g (rule :: rest) r g' := by
  cases h with
  | declined hop => exact .declined hop
  | lowered hrule hrun' happlied hcommit =>
      refine .lowered (List.mem_cons_of_mem _ hrule) hrun' ?_ hcommit
      simpa only [applied?, hrun] using happlied
  | failed => exact .failed
  | detached hrule hrun' hcommit => exact .detached (List.mem_cons_of_mem _ hrule) hrun' hcommit

theorem tryRules_trial (rules : List Rule) {declined : Declined} (hop : declined.op = id) :
    c.Trial id op result g rules ((c.tryRules id op result rules declined g).1.map some)
      (c.tryRules id op result rules declined g).2 := by
  induction rules generalizing declined with
  | nil => exact .declined hop
  | cons rule rest ih =>
      have hover := (Draft.Over.ofGraph g).run (rule.apply c.config op result)
      cases hrun : (rule.apply c.config op result).run (.ofGraph g) with
      | mk applied d =>
          rw [hrun] at hover
          simp only [tryRules, hrun]
          cases applied with
          | ok replacement =>
              have happlied : c.applied? op result g (rule :: rest) = some (replacement, d) := by
                simp only [applied?, hrun]
              cases hcommit : d.commitBefore id with
              | ok g₁ =>
                  simp only [hcommit]
                  exact .lowered List.mem_cons_self hrun happlied hcommit
              | error e =>
                  simp only [hcommit]
                  exact .detached List.mem_cons_self hrun hcommit
          | error e =>
              cases e with
              | noMatch reason =>
                  simp only [hover.discard]
                  refine Trial.cons (ih ?_) hrun
                  exact hop
              | _ =>
                  simp only [hover.discard]
                  exact .failed

/-- A host operator that may not stay. -/
def mustLower (c : Conversion) (g : Graph) (id : ValueId) : Bool :=
  match g.node? id with
  | some ⟨.host op, _⟩ => !c.target.isLegal op.kind
  | _ => false

/-- Everything that can come of one operator: it may stay, it has no tensor type, or its rules are
tried. -/
inductive Attempt (c : Conversion) (id : ValueId) (g : Graph) :
    Except LowerError (Option Outcome) → Graph → Prop where
  | skipped (hstay : c.mustLower g id = false) : Attempt c id g (.ok none) g
  | untyped {e : LowerError} : Attempt c id g (.error e) g
  | tried {op : HostOp} {result : TensorType} {r : Except LowerError (Option Outcome)} {g' : Graph}
      (hnode : g.node? id = some ⟨.host op, .tensor result⟩)
      (hmust : c.mustLower g id = true)
      (htrial : c.Trial id op result g (c.rules.rulesFor op.kind) r g') : Attempt c id g r g'

theorem convertOp_attempt (c : Conversion) (id : ValueId) (g : Graph) :
    c.Attempt id g (c.convertOp id g).1 (c.convertOp id g).2 := by
  cases hnode : g.node? id with
  | none =>
      simp only [convertOp, Graph.node, hnode]
      exact .untyped
  | some node =>
      obtain ⟨nodeOp, type⟩ := node
      simp only [convertOp, Graph.node, hnode]
      cases nodeOp with
      | host op =>
          dsimp only
          cases hlegal : c.target.isLegal op.kind with
          | true => exact .skipped (by simp [mustLower, hnode, hlegal])
          | false =>
              cases htype : g.tensorType id with
              | error e => exact .untyped
              | ok result =>
                  obtain ⟨op', hop'⟩ := tensorType_eq_ok.1 htype
                  cases hnode.symm.trans hop'
                  exact .tried hnode (by simp [mustLower, hnode, hlegal])
                    (tryRules_trial (c.rules.rulesFor op.kind) rfl)
      | _ => exact .skipped (by simp [mustLower, hnode])

theorem attempt_of_convertOp {r : Except LowerError (Option Outcome)}
    (h : c.convertOp id g = (r, g')) : c.Attempt id g r g' := by
  have hattempt := c.convertOp_attempt id g
  rwa [h] at hattempt

/-- A conversion that reaches the end of a list has reached the end of the first operator. -/
theorem convertOps_cons_ok {ids : List ValueId} {outcomes : List Outcome}
    (h : c.convertOps (id :: ids) g = (.ok outcomes, g')) : ∃ outcome g₁ tail,
      c.convertOp id g = (.ok outcome, g₁) ∧ c.convertOps ids g₁ = (.ok tail, g') ∧
      outcomes = outcome.toList ++ tail := by
  cases hop : c.convertOp id g with
  | mk converted g₁ =>
      rw [convertOps, hop] at h
      cases converted with
      | error e => simp at h
      | ok outcome =>
          cases htail : c.convertOps ids g₁ with
          | mk tail g₂ =>
              simp only [htail] at h
              cases tail with
              | error e => simp at h
              | ok tail =>
                  cases h
                  exact ⟨outcome, g₁, tail, rfl, htail, rfl⟩

end TensorLowering.Conversion
