import TensorLowering.Conversion.Report
import TensorLowering.Conversion.RuleSet

/-!
# Conversion of a program

A conversion goes through the scheduled operators and lowers each one that its target does not
allow, by the first rule that applies. The nodes of the replacement are scheduled in place of the
operator and everything that read the operator reads the replacement. In the end dead nodes are
taken off the schedule. An error ends the conversion: operators lowered before it stay lowered.
-/
namespace TensorLowering

structure Conversion where
  rules : RuleSet
  target : ConversionTarget
  config : LoweringConfig

namespace Conversion

/-- The conversion that lowers every operator by the standard rules. -/
def standard (config : LoweringConfig) : Conversion := ⟨.standard, .standard, config⟩

/-- Tries rules on an operator until one applies. `declined` is the outcome when none is left. -/
def tryRules (c : Conversion) (id : ValueId) (op : HostOp) (result : TensorType) :
    List Rule → Declined → Graph → Except LowerError Outcome × Graph
  | [], declined, g => (.ok (.declined declined), g)
  | rule :: rest, declined, g =>
      match (rule.apply c.config op result).run (.ofGraph g) with
      | (.ok replacement, draft) =>
          match draft.commitBefore id with
          | .ok g =>
              (.ok (.lowered ⟨id, op.kind, rule.name, replacement, draft.created.size⟩),
                (g.replaceAllUses id replacement).erase id)
          | .error e => (.error (.graph e), draft.graph)
      | (.error (.noMatch reason), draft) =>
          c.tryRules id op result rest { declined with rule := some rule.name, reason }
            draft.discard
      | (.error e, draft) => (.error e, draft.discard)

/-- Lowers an operator, unless it may stay. -/
def convertOp (c : Conversion) (id : ValueId) (g : Graph) :
    Except LowerError (Option Outcome) × Graph :=
  match g.node id with
  | .error e => (.error (.graph e), g)
  | .ok node =>
      match node.op with
      | .host op =>
          if c.target.isLegal op.kind then (.ok none, g)
          else match g.tensorType id with
            | .error e => (.error (.graph e), g)
            | .ok result =>
                let (outcome, g) := c.tryRules id op result (c.rules.rulesFor op.kind)
                  ⟨id, op.kind, none, .noRule op.kind⟩ g
                (outcome.map some, g)
      | _ => (.ok none, g)

/-- Lowers operators one after the other. -/
def convertOps (c : Conversion) : List ValueId → Graph → Except LowerError (List Outcome) × Graph
  | [], g => (.ok [], g)
  | id :: rest, g =>
      match c.convertOp id g with
      | (.error e, g) => (.error e, g)
      | (.ok outcome, g) =>
          match c.convertOps rest g with
          | (.error e, g) => (.error e, g)
          | (.ok outcomes, g) => (.ok (outcome.toList ++ outcomes), g)

/-- Lowers every operator that may not stay, and takes dead nodes off the schedule. -/
def run (c : Conversion) (g : Graph) : Except LowerError Report × Graph :=
  match g.hostOps? with
  | none => (.error .danglingSchedule, g)
  | some ids =>
      match c.convertOps ids g with
      | (.error e, g) => (.error e, g)
      | (.ok outcomes, g) =>
          match g.prune? with
          | none => (.error .danglingSchedule, g)
          | some (pruned, removed) => (.ok (.ofOutcomes outcomes removed), pruned)

end Conversion

/-- Lowers every host operator of a program by the standard rules. -/
def Graph.lower (g : Graph) (config : LoweringConfig) : Except LowerError Report × Graph :=
  (Conversion.standard config).run g

end TensorLowering
