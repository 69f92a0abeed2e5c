import TensorLowering.ValueId

/-!
# Host operators

The linear-algebra operators that lowering consumes. An attribute is a constant of the operator or
a run-time value.
-/
namespace TensorLowering

inductive Attr (α : Type) where
  | const (value : α)
  | dynamic (value : ValueId)
  deriving DecidableEq

namespace Attr

/-- The run-time value read, if any. -/
def operands {α : Type} : Attr α → List ValueId
  | const _ => []
  | dynamic v => [v]

def mapOperands {α : Type} (f : ValueId → ValueId) : Attr α → Attr α
  | const x => const x
  | dynamic v => dynamic (f v)

@[simp] theorem operands_mapOperands {α : Type} (f : ValueId → ValueId) (a : Attr α) :
    (a.mapOperands f).operands = a.operands.map f := by
  cases a <;> rfl

end Attr

structure Triple (α : Type) where
  first : α
  second : α
  third : α
  deriving DecidableEq

namespace Triple

def toList {α : Type} (t : Triple α) : List α := [t.first, t.second, t.third]

def map {α β : Type} (f : α → β) (t : Triple α) : Triple β := ⟨f t.first, f t.second, f t.third⟩

/-- Applies an action to each entry, in order. -/
def mapM {α β : Type} {m : Type → Type} [Monad m] (f : α → m β) (t : Triple α) :
    m (Triple β) := do
  let first ← f t.first
  let second ← f t.second
  let third ← f t.third
  return ⟨first, second, third⟩

def zip {α β : Type} (s : Triple α) (t : Triple β) : Triple (α × β) :=
  ⟨(s.first, t.first), (s.second, t.second), (s.third, t.third)⟩

/-- Corresponding entries are related. -/
structure Related {α β : Type} (r : α → β → Prop) (s : Triple α) (t : Triple β) : Prop where
  first : r s.first t.first
  second : r s.second t.second
  third : r s.third t.third

end Triple

/-- The kind of a host operator, by which lowering chooses its rules. -/
inductive HostKind where
  | mm
  | matmul
  | bmm
  | convolution
  | trilinear
  | flip
  deriving DecidableEq, Hashable

namespace HostKind

def all : List HostKind := [mm, matmul, bmm, convolution, trilinear, flip]

def name : HostKind → String
  | mm => "mm"
  | matmul => "matmul"
  | bmm => "bmm"
  | convolution => "convolution"
  | trilinear => "trilinear"
  | flip => "flip"

end HostKind

structure BinaryOperands where
  lhs : ValueId
  rhs : ValueId
  deriving DecidableEq

/-- The input is `[N, C, spatial...]`, the weight `[F, C / groups, kernel...]`, or
`[C, F / groups, kernel...]` when transposed. The optional bias has one entry per output channel. -/
structure Convolution where
  input : ValueId
  weight : ValueId
  bias : Option ValueId
  stride : Attr (List Int)
  padding : Attr (List Int)
  dilation : Attr (List Int)
  outputPadding : Attr (List Int)
  transposed : Attr Bool
  groups : Attr Int
  deriving DecidableEq

/-- The product of three tensors. Unit axes are inserted into each of them first, and some axes are
summed afterwards. The unrolled axis is iterated while lowering. -/
structure Trilinear where
  inputs : Triple ValueId
  expand : Triple (Attr (List Int))
  sumDim : Attr (List Int)
  unrollDim : Attr Int
  deriving DecidableEq

structure Flip where
  input : ValueId
  dims : Attr (List Int)
  deriving DecidableEq

inductive HostOp where
  | mm (operands : BinaryOperands)
  | matmul (operands : BinaryOperands)
  | bmm (operands : BinaryOperands)
  | convolution (op : Convolution)
  | trilinear (op : Trilinear)
  | flip (op : Flip)
  deriving DecidableEq

namespace BinaryOperands

def toList (b : BinaryOperands) : List ValueId := [b.lhs, b.rhs]

def map (f : ValueId → ValueId) (b : BinaryOperands) : BinaryOperands := ⟨f b.lhs, f b.rhs⟩

end BinaryOperands

namespace HostOp

def kind : HostOp → HostKind
  | mm _ => .mm
  | matmul _ => .matmul
  | bmm _ => .bmm
  | convolution _ => .convolution
  | trilinear _ => .trilinear
  | flip _ => .flip

/-- Every value that the operator reads, tensors first. -/
def operands : HostOp → List ValueId
  | mm b | matmul b | bmm b => b.toList
  | convolution c =>
      [c.input, c.weight] ++ c.bias.toList ++ c.stride.operands ++ c.padding.operands ++
        c.dilation.operands ++ c.outputPadding.operands ++ c.transposed.operands ++
        c.groups.operands
  | trilinear t =>
      t.inputs.toList ++ t.expand.toList.flatMap Attr.operands ++ t.sumDim.operands ++
        t.unrollDim.operands
  | flip p => p.input :: p.dims.operands

def mapOperands (f : ValueId → ValueId) : HostOp → HostOp
  | mm b => mm (b.map f)
  | matmul b => matmul (b.map f)
  | bmm b => bmm (b.map f)
  | convolution c =>
      convolution
        { input := f c.input
          weight := f c.weight
          bias := c.bias.map f
          stride := c.stride.mapOperands f
          padding := c.padding.mapOperands f
          dilation := c.dilation.mapOperands f
          outputPadding := c.outputPadding.mapOperands f
          transposed := c.transposed.mapOperands f
          groups := c.groups.mapOperands f }
  | trilinear t =>
      trilinear
        { inputs := t.inputs.map f
          expand := t.expand.map (Attr.mapOperands f)
          sumDim := t.sumDim.mapOperands f
          unrollDim := t.unrollDim.mapOperands f }
  | flip p => flip ⟨f p.input, p.dims.mapOperands f⟩

@[simp] theorem operands_mapOperands (f : ValueId → ValueId) (op : HostOp) :
    (op.mapOperands f).operands = op.operands.map f := by
  cases op with
  | mm b | matmul b | bmm b => rfl
  | convolution c => cases h : c.bias <;> simp [operands, mapOperands, h]
  | trilinear t => simp [operands, mapOperands, Triple.toList, Triple.map]
  | flip p => simp [operands, mapOperands]

end HostOp

end TensorLowering
