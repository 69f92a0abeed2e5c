import TensorLowering.Exchange.Tree
import TensorLowering.Graph.Error
import TensorLowering.Scalar
import TensorLowering.Shape.Permutation
import TensorLowering.Shape.Reassociation

/-!
# Exchange of types and constants
-/
namespace TensorLowering

instance : Exchange ValueId where
  encode v := .int v.index
  decode? t := (Exchange.natBelow? (Numeric.twoPow 32) t).map ValueId.mk

instance : Exchange DType := .ofNames (DType.all.map fun t => (t.fullName, t))

instance : Exchange Dim where
  encode
    | .static n => .variant "Static" n
    | .dynamic => .text "Dynamic"
  decode? t :=
    match t.variant? with
    | some ("Static", n) => (decode? n).map Dim.static
    | some ("Dynamic", .null) => some .dynamic
    | _ => none

instance : Exchange Shape where
  encode s := encode s.dims
  decode? t := (decode? t).map Shape.mk

instance : Exchange Permutation where
  encode p := encode p.axes
  decode? t := (decode? t).map Permutation.mk

instance : Exchange Reassociation where
  encode r := encode r.groups
  decode? t := (decode? t).map Reassociation.mk

instance : Exchange TensorType where
  encode t := .record [("dtype", encode t.dtype), ("shape", encode t.shape)]
  decode? t := do
    match ← t.fields? ["dtype", "shape"] [] with
    | [dtype, shape] => return ⟨← decode? dtype, ← decode? shape⟩
    | _ => none

instance : Exchange ValueType where
  encode
    | .index => .text "Index"
    | .unit => .text "Unit"
    | .scalar t => .variant "Scalar" t
    | .tensor t => .variant "Tensor" t
  decode? t :=
    match t.variant? with
    | some ("Index", .null) => some .index
    | some ("Unit", .null) => some .unit
    | some ("Scalar", t) => (decode? t).map ValueType.scalar
    | some ("Tensor", t) => (decode? t).map ValueType.tensor
    | _ => none

instance : Exchange Scalar where
  encode
    | .bool b => .variant "Bool" b
    | .int n => .variant "Int" n
    | .float x => .variant "Float" x
  decode? t :=
    match t.variant? with
    | some ("Bool", b) => (decode? b).map Scalar.bool
    | some ("Int", n) => (decode? n).map Scalar.int
    | some ("Float", x) => (decode? x).map Scalar.float
    | _ => none

/-- The name of the alternative that an error is. -/
def GraphError.name : GraphError → String
  | .unknownValue .. => "UnknownValue"
  | .notATensor .. => "NotATensor"
  | .invalidAxis .. => "InvalidAxis"
  | .invalidPermutation .. => "InvalidPermutation"
  | .invalidReassociation .. => "InvalidReassociation"
  | .shapeMismatch .. => "ShapeMismatch"
  | .dtypeMismatch .. => "DTypeMismatch"
  | .operandRank .. => "OperandRank"
  | .useBeforeDef .. => "UseBeforeDef"

def GraphError.fields : GraphError → List (String × Tree)
  | .unknownValue id => [("id", encode id)]
  | .notATensor id type => [("id", encode id), ("ty", encode type)]
  | .invalidAxis axis rank => [("axis", encode axis), ("rank", encode rank)]
  | .invalidPermutation axes rank => [("perm", encode axes), ("rank", encode rank)]
  | .invalidReassociation groups rank => [("groups", encode groups), ("rank", encode rank)]
  | .shapeMismatch expected got => [("expected", encode expected), ("got", encode got)]
  | .dtypeMismatch expected got => [("expected", encode expected), ("got", encode got)]
  | .operandRank kernel operand expected got =>
      [("kernel", encode kernel), ("operand", encode operand), ("expected", encode expected),
        ("got", encode got)]
  | .useBeforeDef user operand => [("user", encode user), ("operand", encode operand)]

def GraphError.ofFields? (name : String) (t : Tree) : Option GraphError := do
  let pair := fun (a b : String) => do
    match ← t.entries? [a, b] [] with
    | [x, y] => some (x, y)
    | _ => none
  match name with
  | "UnknownValue" =>
      match ← t.entries? ["id"] [] with
      | [id] => return .unknownValue (← decode? id)
      | _ => none
  | "NotATensor" => do
      let (id, type) ← pair "id" "ty"
      return .notATensor (← decode? id) (← decode? type)
  | "InvalidAxis" => do
      let (axis, rank) ← pair "axis" "rank"
      return .invalidAxis (← decode? axis) (← decode? rank)
  | "InvalidPermutation" => do
      let (axes, rank) ← pair "perm" "rank"
      return .invalidPermutation (← decode? axes) (← decode? rank)
  | "InvalidReassociation" => do
      let (groups, rank) ← pair "groups" "rank"
      return .invalidReassociation (← decode? groups) (← decode? rank)
  | "ShapeMismatch" => do
      let (expected, got) ← pair "expected" "got"
      return .shapeMismatch (← decode? expected) (← decode? got)
  | "DTypeMismatch" => do
      let (expected, got) ← pair "expected" "got"
      return .dtypeMismatch (← decode? expected) (← decode? got)
  | "OperandRank" =>
      match ← t.entries? ["kernel", "operand", "expected", "got"] [] with
      | [kernel, operand, expected, got] =>
          return .operandRank (← decode? kernel) (← decode? operand) (← decode? expected)
            (← decode? got)
      | _ => none
  | "UseBeforeDef" => do
      let (user, operand) ← pair "user" "operand"
      return .useBeforeDef (← decode? user) (← decode? operand)
  | _ => none

instance : Exchange GraphError where
  encode e := .record [(e.name, .record e.fields)]
  decode? t := do
    let (name, content) ← t.variant?
    GraphError.ofFields? name content

end TensorLowering
