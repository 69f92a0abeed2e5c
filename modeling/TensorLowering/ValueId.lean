/-!
# Value identifiers

Each node of a program defines one value, named by the position of the node.
-/
namespace TensorLowering

structure ValueId where
  index : Nat
  deriving DecidableEq, Hashable

namespace ValueId

def next (id : ValueId) : ValueId := ⟨id.index + 1⟩

def render (id : ValueId) : String := "%" ++ toString id.index

end ValueId

end TensorLowering
