import TensorLowering.Lowering.Error

/-!
# Reports

What a conversion did with each operator that it had to lower.
-/
namespace TensorLowering

/-- An operator that was lowered, with the value that replaces it. -/
structure Lowered where
  op : ValueId
  kind : HostKind
  rule : String
  replacement : ValueId
  /-- The number of nodes created. -/
  created : Nat
  deriving DecidableEq

/-- An operator that was left alone, with the last rule that declined it. -/
structure Declined where
  op : ValueId
  kind : HostKind
  rule : Option String
  reason : DeclineReason
  deriving DecidableEq

inductive Outcome where
  | lowered (entry : Lowered)
  | declined (entry : Declined)
  deriving DecidableEq

namespace Outcome

def lowered? : Outcome → Option Lowered
  | lowered entry => some entry
  | declined _ => none

def declined? : Outcome → Option Declined
  | lowered _ => none
  | declined entry => some entry

end Outcome

structure Report where
  lowered : List Lowered
  declined : List Declined
  /-- The number of dead nodes taken off the schedule. -/
  pruned : Nat
  deriving DecidableEq

namespace Report

def ofOutcomes (outcomes : List Outcome) (pruned : Nat) : Report :=
  ⟨outcomes.filterMap Outcome.lowered?, outcomes.filterMap Outcome.declined?, pruned⟩

/-- Every operator was lowered. -/
def isComplete (r : Report) : Bool := r.declined.isEmpty

def loweredLine (x : Lowered) : String :=
  "  " ++ x.kind.name ++ " " ++ x.op.render ++ ": " ++ x.rule ++ " -> " ++ x.replacement.render ++
    s!" ({x.created} nodes)\n"

def declinedLine (x : Declined) : String :=
  "  " ++ x.kind.name ++ " " ++ x.op.render ++ ": " ++ x.reason.message ++ "\n"

def render (r : Report) : String :=
  let declined :=
    if r.isComplete then ""
    else s!"Declined: {r.declined.length}\n" ++ String.join (r.declined.map declinedLine)
  s!"Lowered: {r.lowered.length}\n" ++ String.join (r.lowered.map loweredLine) ++ declined ++
    s!"Pruned: {r.pruned}"

end Report

end TensorLowering
