import TensorLowering.Text
import TensorLowering.ValueId
import TensorLowering.ValueType

/-!
# Errors in the construction and in queries of a program
-/
namespace TensorLowering

inductive GraphError where
  | unknownValue (id : ValueId)
  | notATensor (id : ValueId) (type : ValueType)
  | invalidAxis (axis : Int) (rank : Nat)
  | invalidPermutation (axes : List Nat) (rank : Nat)
  | invalidReassociation (groups : List (List Nat)) (rank : Nat)
  | shapeMismatch (expected got : Shape)
  | dtypeMismatch (expected got : DType)
  | operandRank (kernel : String) (operand expected got : Nat)
  | useBeforeDef (user operand : ValueId)
  deriving DecidableEq

def GraphError.message : GraphError → String
  | .unknownValue id => "unknown value " ++ id.render
  | .notATensor id type => "value " ++ id.render ++ " is not a tensor (type " ++ type.render ++ ")"
  | .invalidAxis axis rank => s!"invalid axis {axis} for tensor of rank {rank}"
  | .invalidPermutation axes rank =>
      "invalid permutation " ++ Text.naturals axes ++ s!" for rank {rank}"
  | .invalidReassociation groups rank =>
      "invalid reassociation " ++ Text.bracketed (groups.map Text.naturals) ++ s!" for rank {rank}"
  | .shapeMismatch expected got =>
      "shape mismatch: expected " ++ expected.render ++ ", got " ++ got.render
  | .dtypeMismatch expected got =>
      "dtype mismatch: expected " ++ expected.name ++ ", got " ++ got.name
  | .operandRank kernel operand expected got =>
      kernel ++ s!": operand {operand} has rank {got}, indexing map expects {expected}"
  | .useBeforeDef user operand =>
      user.render ++ " uses " ++ operand.render ++ " before it is defined"

end TensorLowering
