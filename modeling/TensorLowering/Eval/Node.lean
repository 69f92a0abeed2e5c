import TensorLowering.Eval.Env
import TensorLowering.Graph.Basic
import TensorLowering.NdArray.Broadcast
import TensorLowering.NdArray.Layout
import TensorLowering.NdArray.Reduce

/-!
# Evaluation of a node

The value of a node, given the values of its operands. Elements of the result are rounded to the
element type that the node declares; inputs and coerced tensors must have their declared type
already. A guard whose condition does not hold stops the program.
-/
namespace TensorLowering

open Numeric

/-- What a program is run on: its input tensors, and a meaning for host operators, which have none
of their own. -/
structure Supply where
  input : String → Option Tensor
  host : Option (HostOp → List Value → Except EvalError Value)

/-- Inputs for a program that is fully lowered. -/
def Supply.ofInputs (input : String → Option Tensor) : Supply := ⟨input, none⟩

/-- The sizes have the declared rank and every size that the declaration knows. -/
def Shape.Admits (declared : Shape) (sizes : List Nat) : Prop :=
  sizes.length = declared.rank ∧
    ∀ e ∈ declared.dims.zip sizes, e.1 = .static e.2 ∨ e.1 = .dynamic

instance (declared : Shape) (sizes : List Nat) : Decidable (declared.Admits sizes) := by
  unfold Shape.Admits
  infer_instance

/-- Checks a tensor against a declared type. -/
def Tensor.check (t : Tensor) (type : ValueType) : Except EvalError Unit :=
  match type.tensor? with
  | none => .error (.type (.notTensorType type))
  | some declared =>
      if t.dtype ≠ declared.dtype then .error (.type (.element declared.dtype t.dtype))
      else if declared.shape.Admits t.shape then .ok ()
      else .error (.declaredShape t.shape declared.shape)

/-- The elements as a tensor of the declared element type. -/
def tensorResult (type : ValueType) (data : NdArray Binary64) : Except EvalError Value :=
  match type.tensor? with
  | some declared => .ok (.tensor (.ofArray declared.dtype data))
  | none => .error (.type (.notTensorResult type))

/-- The tensor that an array operation gives. -/
def arrayResult (type : ValueType) (data : Except ArrayError (NdArray Binary64)) :
    Except EvalError Value := do
  tensorResult type (← data.mapError .array)

/-- Whether the condition of a guard holds. The second operand is read only where it matters. -/
def GuardCond.holds (env : Env) : GuardCond → Except EvalError Bool
  | equal a b => do
      let m ← env.index a
      let n ← env.index b
      return m == n
  | divisible value divisor => do
      let d ← env.index divisor
      if d = 0 then
        return false
      let n ← env.index value
      if d = -1 ∧ n = minInt64 then
        throw .remainderOverflow
      return n % d == 0
  | broadcastable size target => do
      let m ← env.index size
      if m = 1 then
        return true
      let n ← env.index target
      return m == n

/-- The zero-points of a reduction; a quantized one must have them. -/
def zeroPointsOf (env : Env) (spec : ReductionSpec) :
    Option (ValueId × ValueId) → Except EvalError (Binary64 × Binary64)
  | some (a, b) => do
      let za ← env.number a
      let zb ← env.number b
      return (za, zb)
  | none => if spec.isQuantized then throw (.type .noZeroPoints) else return (0, 0)

/-- The elements widened for a reduction. -/
def Tensor.widened (t : Tensor) : CastKind → NdArray Binary64
  | .signed => t.data.map t.dtype.reinterpretSigned
  | .unsigned => t.data

def ElementwiseOp.apply : ElementwiseOp → Binary64 → Binary64 → Binary64
  | add, x, y => x + y
  | mul, x, y => x * y

def evalNode (supply : Supply) (env : Env) (node : Node) : Except EvalError Value :=
  match node.op with
  | .input name => do
      match supply.input name with
      | none => throw (.missingInput name)
      | some t =>
          t.check node.type
          return .tensor t
  | .constant value =>
      match node.type with
      | .index => .ok (.index value.toDouble.toInt64)
      | .scalar dtype => .ok (.roundedScalar dtype value.toDouble)
      | _ => .error (.type .tensorConstant)
  -- reductions read the zero-point themselves
  | .makeQuantized storage _ _ => env.get storage
  | .host op => do
      match supply.host with
      | none => throw (.unlowered op.kind)
      | some meaning => meaning op (← op.operands.mapM env.get)
  | .dim source axis => do
      let t ← env.tensor source
      match t.shape[axis]? with
      | some n => return .index n
      | none => throw (.array (.dimOutside axis t.shape.length))
  | .arith op lhs rhs => do
      let a ← env.number lhs
      let b ← env.number rhs
      match op.eval? a.toInt64 b.toInt64 with
      | none => throw .divisionByZero
      | some n =>
          match node.type with
          | .scalar dtype => return .roundedScalar dtype (.ofInt n)
          | _ => return .index n
  | .scalarCast value => do
      let x ← env.number value
      match node.type with
      | .scalar dtype => return .roundedScalar dtype x
      | _ => return .index x.toInt64
  | .guard g => do
      if ← g.cond.holds env then return .unit else throw (.guardFailed g.message)
  | .fill sizes value => do
      let sizes ← env.sizes sizes
      let x ← env.number value
      arrayResult node.type (NdArray.fill sizes x)
  | .broadcast input sizes added => do
      let sizes ← env.sizes sizes
      let t ← env.tensor input
      arrayResult node.type (t.data.broadcastAdded sizes added)
  | .broadcastTo input sizes => do
      let sizes ← env.sizes sizes
      let t ← env.tensor input
      arrayResult node.type (t.data.broadcastTo sizes)
  | .transpose input perm => do
      let t ← env.tensor input
      (perm.check t.data.rank).mapError .graph
      tensorResult node.type (t.data.transpose perm)
  | .flip input axes => do
      let t ← env.tensor input
      arrayResult node.type (t.data.flip axes)
  | .expandShape input _ sizes => do
      let sizes ← env.sizes sizes
      let t ← env.tensor input
      arrayResult node.type (t.data.reshape sizes)
  | .collapseShape input groups => do
      let t ← env.tensor input
      (groups.check t.data.rank).mapError .graph
      let sizes := groups.groups.map fun g => NdArray.volume (g.map fun axis => t.shape.getD axis 1)
      arrayResult node.type (t.data.reshape sizes)
  | .pad input low high value => do
      let t ← env.tensor input
      let x ← env.number value
      arrayResult node.type (t.data.pad low high x)
  | .insertSlice source dest offsets strides => do
      let starts ← offsets.mapM env.index
      let src ← env.tensor source
      let dst ← env.tensor dest
      arrayResult node.type (src.data.insertSlice dst.data starts strides)
  | .narrow input axis start len => do
      let t ← env.tensor input
      arrayResult node.type (t.data.narrow axis start len)
  | .squeeze input axis => do
      let t ← env.tensor input
      arrayResult node.type (t.data.squeeze axis)
  | .unsqueeze input axis => do
      let t ← env.tensor input
      arrayResult node.type (t.data.unsqueeze axis)
  | .elementwise op lhs rhs => do
      let a ← env.tensor lhs
      match ← env.get rhs with
      | .tensor b => arrayResult node.type (a.data.zipWith op.apply b.data)
      | _ =>
          let y ← env.number rhs
          tensorResult node.type (a.data.map (op.apply · y))
  | .sum input axis => do
      let t ← env.tensor input
      arrayResult node.type (t.data.sumKeepDim axis)
  | .convert input => do
      let t ← env.tensor input
      tensorResult node.type t.data
  | .cast input => do
      let t ← env.tensor input
      t.check node.type
      return .tensor t
  | .reduce spec lhs rhs zeroPoints init => do
      let zs ← zeroPointsOf env spec zeroPoints
      match spec.indexing? with
      | none => throw (.kernelWithoutIndexing spec.name)
      | some indexing =>
          let a ← env.tensor lhs
          let b ← env.tensor rhs
          let c ← env.tensor init
          arrayResult node.type
            (NdArray.reduce indexing spec.combine (a.widened spec.cast) (b.widened spec.cast) zs
              c.data)

end TensorLowering
