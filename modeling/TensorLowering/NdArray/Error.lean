import TensorLowering.Text

/-!
# Errors of array operations

Shapes that do not fit together, positions outside an array, and requests that no array can answer:
sizes that are too large, and reductions whose maps read loops that they do not have.
-/
namespace TensorLowering

inductive ArrayError where
  | notBroadcastable (lhs rhs : List Nat)
  | broadcastTooLarge
  | cannotBroadcast (source target : List Nat)
  | cannotAddAxis (axis rank : Nat)
  | cannotReshape (source target : List Nat)
  | elementCount (count : Nat) (shape : List Nat)
  | paddingRank
  | negativePadding (low high : Int)
  | cannotInsert (source dest : List Nat)
  | cannotSqueeze (axis size : Nat)
  | negativeSize (size : Int)
  | operandRank (operand rank results : Nat)
  | unknownLoop (loop : Nat)
  | loopClash (loop first second : Nat)
  | unboundLoop (loop : Nat)
  | axisOutside (axis rank : Nat)
  | dimOutside (axis rank : Nat)
  | sliceOutside (start stop stride : Int) (axis size : Nat)
  | rangeOutside (start : Int) (len size : Nat)
  | newAxisOutside (axis rank : Nat)
  | pointOutside (point : List Nat)
  | tooLarge (sizes : List Nat)
  | missingMap
  | missingLoop
  deriving DecidableEq

namespace ArrayError

/-- What an error is about. -/
inductive Kind where
  | shape
  | bounds
  | request
  deriving DecidableEq

def kind : ArrayError → Kind
  | axisOutside .. | dimOutside .. | sliceOutside .. | rangeOutside .. | newAxisOutside ..
  | pointOutside .. => .bounds
  | tooLarge .. | missingMap | missingLoop => .request
  | _ => .shape

def detail : ArrayError → String
  | notBroadcastable lhs rhs =>
      "cannot broadcast " ++ Text.naturals lhs ++ " with " ++ Text.naturals rhs
  | broadcastTooLarge => "broadcast failed"
  | cannotBroadcast source target =>
      "cannot broadcast " ++ Text.naturals source ++ " to " ++ Text.naturals target
  | cannotAddAxis axis rank => s!"cannot add axis {axis} to a rank-{rank} tensor"
  | cannotReshape source target =>
      "cannot reshape " ++ Text.naturals source ++ " to " ++ Text.naturals target
  | elementCount count shape => s!"{count} elements do not fill shape " ++ Text.naturals shape
  | paddingRank => "padding does not match rank"
  | negativePadding low high => s!"negative padding {low}/{high}"
  | cannotInsert source dest =>
      "cannot insert " ++ Text.naturals source ++ " into " ++ Text.naturals dest
  | cannotSqueeze axis size => s!"cannot squeeze axis {axis} of size {size}"
  | negativeSize size => s!"negative size {size}"
  | operandRank operand rank results =>
      s!"operand {operand} has rank {rank}, its map has {results} results"
  | unknownLoop loop => s!"map reads loop {loop}"
  | loopClash loop first second => s!"loop {loop} bound by both {first} and {second}"
  | unboundLoop loop => s!"loop {loop} is unbounded"
  | axisOutside axis rank => s!"axis {axis} of a rank-{rank} tensor"
  | dimOutside axis rank => s!"axis {axis} of rank {rank}"
  | sliceOutside start stop stride axis size =>
      s!"slice {start}..{stop} step {stride} on axis {axis} of size {size}"
  | rangeOutside start len size => s!"narrow {start}+{len} of size {size}"
  | newAxisOutside axis rank => s!"unsqueeze at {axis} of a rank-{rank} tensor"
  | pointOutside point => "reduction point " ++ Text.naturals point
  | tooLarge sizes => "too many elements in " ++ Text.naturals sizes
  | missingMap => "a reduction has three maps"
  | missingLoop => "a map reads a loop that the reduction does not have"

def message (e : ArrayError) : String :=
  match e.kind with
  | .shape => "shape error: " ++ e.detail
  | .bounds => "out of bounds: " ++ e.detail
  | .request => e.detail

end ArrayError

end TensorLowering
