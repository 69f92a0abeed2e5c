import TensorLowering.Graph.Basic

/-!
# Listing of a program

One line per scheduled node: the value that it defines, the operation with its operands, and the
type of the result.
-/
namespace TensorLowering

/-- A reduction shows its kernel after the operands. -/
def Op.kernelLabel : Op → String
  | .reduce spec .. => " \x7b" ++ spec.name ++ "\x7d"
  | _ => ""

def Node.render (id : ValueId) (node : Node) : String :=
  let operands := node.op.operands.map ValueId.render
  let arguments := if operands.isEmpty then "" else " " ++ Text.commaSeparated operands
  id.render ++ " = " ++ node.op.name ++ arguments ++ node.op.kernelLabel ++ " : " ++
    node.type.render ++ "\n"

def Graph.render? (g : Graph) : Option String :=
  g.scheduled?.map fun entries => String.join (entries.map fun (id, node) => node.render id)

end TensorLowering
