import TensorLowering.Op.Basic

/-!
# Operands

The values that an operation reads, in order, and the operation with every one of them replaced.
Main statement: replacing operands replaces each entry of the list of operands.
-/
namespace TensorLowering

namespace GuardCond

def operands : GuardCond → List ValueId
  | equal a b | divisible a b | broadcastable a b => [a, b]

def mapOperands (f : ValueId → ValueId) : GuardCond → GuardCond
  | equal a b => equal (f a) (f b)
  | divisible a b => divisible (f a) (f b)
  | broadcastable a b => broadcastable (f a) (f b)

@[simp] theorem operands_mapOperands (f : ValueId → ValueId) (c : GuardCond) :
    (c.mapOperands f).operands = c.operands.map f := by
  cases c <;> rfl

end GuardCond

namespace Op

def operands : Op → List ValueId
  | input _ | constant _ => []
  | makeQuantized storage _ zeroPoint => [storage, zeroPoint]
  | host op => op.operands
  | dim source _ => [source]
  | arith _ a b | elementwise _ a b => [a, b]
  | scalarCast value => [value]
  | guard g => g.cond.operands
  | fill sizes value => sizes ++ [value]
  | broadcast x sizes _ | broadcastTo x sizes | expandShape x _ sizes => x :: sizes
  | transpose x _ | flip x _ | collapseShape x _ | narrow x _ _ _ | squeeze x _ | unsqueeze x _
  | sum x _ | convert x | cast x => [x]
  | pad x _ _ value => [x, value]
  | insertSlice source dest offsets _ => source :: dest :: offsets
  | reduce _ a b none init => [a, b, init]
  | reduce _ a b (some (za, zb)) init => [a, b, za, zb, init]

def mapOperands (f : ValueId → ValueId) : Op → Op
  | input name => input name
  | constant value => constant value
  | makeQuantized storage scale zeroPoint => makeQuantized (f storage) scale (f zeroPoint)
  | host op => host (op.mapOperands f)
  | dim source axis => dim (f source) axis
  | arith op a b => arith op (f a) (f b)
  | scalarCast value => scalarCast (f value)
  | guard g => guard ⟨g.cond.mapOperands f, g.message⟩
  | fill sizes value => fill (sizes.map f) (f value)
  | broadcast x sizes added => broadcast (f x) (sizes.map f) added
  | broadcastTo x sizes => broadcastTo (f x) (sizes.map f)
  | transpose x perm => transpose (f x) perm
  | flip x axes => flip (f x) axes
  | expandShape x groups sizes => expandShape (f x) groups (sizes.map f)
  | collapseShape x groups => collapseShape (f x) groups
  | pad x low high value => pad (f x) low high (f value)
  | insertSlice source dest offsets strides =>
      insertSlice (f source) (f dest) (offsets.map f) strides
  | narrow x axis start len => narrow (f x) axis start len
  | squeeze x axis => squeeze (f x) axis
  | unsqueeze x axis => unsqueeze (f x) axis
  | elementwise op a b => elementwise op (f a) (f b)
  | sum x axis => sum (f x) axis
  | convert x => convert (f x)
  | cast x => cast (f x)
  | reduce spec a b zeroPoints init =>
      reduce spec (f a) (f b) (zeroPoints.map fun (za, zb) => (f za, f zb)) (f init)

theorem operands_mapOperands (f : ValueId → ValueId) (op : Op) :
    (op.mapOperands f).operands = op.operands.map f := by
  cases op with
  | reduce spec lhs rhs zeroPoints init => cases zeroPoints <;> rfl
  | host op => exact op.operands_mapOperands f
  | guard g => exact g.cond.operands_mapOperands f
  | _ => simp [operands, mapOperands]

end Op

end TensorLowering
