import TensorLowering.Exchange.HostOp
import TensorLowering.Exchange.Reduction
import TensorLowering.Graph.Basic

/-!
# Exchange of programs
-/
namespace TensorLowering

instance : Exchange ArithOp :=
  .ofNames
    [("Add", .add), ("Sub", .sub), ("Mul", .mul), ("FloorDiv", .floorDiv), ("Rem", .rem),
      ("Max", .max)]

instance : Exchange ElementwiseOp := .ofNames [("Add", .add), ("Mul", .mul)]

instance : Exchange OpTraits where
  encode s := .text s.render
  decode?
    | .text s => OpTraits.parse? s
    | _ => none

instance : Exchange GuardCond where
  encode
    | .equal a b => .variant "Eq" (a, b)
    | .divisible value divisor =>
        .record [("Divisible", .record [("value", encode value), ("divisor", encode divisor)])]
    | .broadcastable size target =>
        .record [("Broadcastable", .record [("size", encode size), ("target", encode target)])]
  decode? t := do
    match ← t.variant? with
    | ("Eq", c) =>
        let (a, b) ← decode? c
        return .equal a b
    | ("Divisible", c) =>
        match ← c.entries? ["value", "divisor"] [] with
        | [value, divisor] => return .divisible (← decode? value) (← decode? divisor)
        | _ => none
    | ("Broadcastable", c) =>
        match ← c.entries? ["size", "target"] [] with
        | [size, target] => return .broadcastable (← decode? size) (← decode? target)
        | _ => none
    | _ => none

instance : Exchange Guard where
  encode g := .record [("cond", encode g.cond), ("message", encode g.message)]
  decode? t := do
    match ← t.fields? ["cond", "message"] [] with
    | [cond, message] => return ⟨← decode? cond, ← decode? message⟩
    | _ => none

namespace Op

/-- The name of an operation as an alternative, and its content. -/
def toVariant : Op → String × Tree
  | input name => ("Input", .record [("name", encode name)])
  | constant value => ("Constant", encode value)
  | makeQuantized storage scale zeroPoint => ("MakeQuantized", .record
      [("storage", encode storage), ("scale", encode scale), ("zero_point", encode zeroPoint)])
  | host op => ("Linear", encode op)
  | dim source axis => ("Dim", .record [("source", encode source), ("axis", encode axis)])
  | arith op a b => ("Arith", .record [("op", encode op), ("lhs", encode a), ("rhs", encode b)])
  | scalarCast value => ("ScalarCast", .record [("value", encode value)])
  | guard g => ("Guard", encode g)
  | fill sizes value => ("Fill", .record [("sizes", encode sizes), ("value", encode value)])
  | broadcast x sizes added => ("Broadcast", .record
      [("input", encode x), ("sizes", encode sizes), ("added", encode added)])
  | broadcastTo x sizes => ("BroadcastTo", .record [("input", encode x), ("sizes", encode sizes)])
  | transpose x perm => ("Transpose", .record [("input", encode x), ("perm", encode perm)])
  | flip x axes => ("Flip", .record [("input", encode x), ("axes", encode axes)])
  | expandShape x groups sizes => ("ExpandShape", .record
      [("input", encode x), ("reassociation", encode groups), ("sizes", encode sizes)])
  | collapseShape x groups =>
      ("CollapseShape", .record [("input", encode x), ("reassociation", encode groups)])
  | pad x low high value => ("Pad", .record
      [("input", encode x), ("low", encode low), ("high", encode high), ("value", encode value)])
  | insertSlice source dest offsets strides => ("InsertSlice", .record
      [("source", encode source), ("dest", encode dest), ("offsets", encode offsets),
        ("strides", encode strides)])
  | narrow x axis start len => ("Narrow", .record
      [("input", encode x), ("axis", encode axis), ("start", encode start), ("len", encode len)])
  | squeeze x axis => ("Squeeze", .record [("input", encode x), ("axis", encode axis)])
  | unsqueeze x axis => ("Unsqueeze", .record [("input", encode x), ("axis", encode axis)])
  | elementwise op a b =>
      ("Elementwise", .record [("op", encode op), ("lhs", encode a), ("rhs", encode b)])
  | sum x axis => ("Sum", .record [("input", encode x), ("axis", encode axis)])
  | convert x => ("Convert", .record [("input", encode x)])
  | cast x => ("Cast", .record [("input", encode x)])
  | reduce spec a b zeroPoints init => ("Reduce", .record
      [("spec", encode spec), ("lhs", encode a), ("rhs", encode b),
        ("zero_points", encode zeroPoints), ("init", encode init)])

/-- The content of an operation with a single field. -/
def decode1? {α β : Type} [Exchange α] (make : α → β) (name : String) (t : Tree) : Option β := do
  match ← t.entries? [name] [] with
  | [a] => return make (← decode? a)
  | _ => none

def decode2? {α β γ : Type} [Exchange α] [Exchange β] (make : α → β → γ) (names : List String)
    (t : Tree) : Option γ := do
  match ← t.entries? names [] with
  | [a, b] => return make (← decode? a) (← decode? b)
  | _ => none

def decode3? {α β γ δ : Type} [Exchange α] [Exchange β] [Exchange γ] (make : α → β → γ → δ)
    (names : List String) (t : Tree) : Option δ := do
  match ← t.entries? names [] with
  | [a, b, c] => return make (← decode? a) (← decode? b) (← decode? c)
  | _ => none

def decode4? {α β γ δ ε : Type} [Exchange α] [Exchange β] [Exchange γ] [Exchange δ]
    (make : α → β → γ → δ → ε) (names : List String) (t : Tree) : Option ε := do
  match ← t.entries? names [] with
  | [a, b, c, d] => return make (← decode? a) (← decode? b) (← decode? c) (← decode? d)
  | _ => none

def decodeReduce? (t : Tree) : Option Op := do
  match ← t.entries? ["spec", "lhs", "rhs", "zero_points", "init"] ["zero_points"] with
  | [spec, a, b, zeroPoints, init] =>
      return .reduce (← decode? spec) (← decode? a) (← decode? b) (← decode? zeroPoints)
        (← decode? init)
  | _ => none

def ofVariant? (name : String) (t : Tree) : Option Op :=
  match name with
  | "Input" => decode1? input "name" t
  | "Constant" => (decode? t).map constant
  | "MakeQuantized" => decode3? makeQuantized ["storage", "scale", "zero_point"] t
  | "Linear" => (decode? t).map host
  | "Dim" => decode2? dim ["source", "axis"] t
  | "Arith" => decode3? arith ["op", "lhs", "rhs"] t
  | "ScalarCast" => decode1? scalarCast "value" t
  | "Guard" => (decode? t).map guard
  | "Fill" => decode2? fill ["sizes", "value"] t
  | "Broadcast" => decode3? broadcast ["input", "sizes", "added"] t
  | "BroadcastTo" => decode2? broadcastTo ["input", "sizes"] t
  | "Transpose" => decode2? transpose ["input", "perm"] t
  | "Flip" => decode2? flip ["input", "axes"] t
  | "ExpandShape" => decode3? expandShape ["input", "reassociation", "sizes"] t
  | "CollapseShape" => decode2? collapseShape ["input", "reassociation"] t
  | "Pad" => decode4? pad ["input", "low", "high", "value"] t
  | "InsertSlice" => decode4? insertSlice ["source", "dest", "offsets", "strides"] t
  | "Narrow" => decode4? narrow ["input", "axis", "start", "len"] t
  | "Squeeze" => decode2? squeeze ["input", "axis"] t
  | "Unsqueeze" => decode2? unsqueeze ["input", "axis"] t
  | "Elementwise" => decode3? elementwise ["op", "lhs", "rhs"] t
  | "Sum" => decode2? sum ["input", "axis"] t
  | "Convert" => decode1? convert "input" t
  | "Cast" => decode1? cast "input" t
  | "Reduce" => decodeReduce? t
  | _ => none

end Op

instance : Exchange Op where
  encode op := .record [op.toVariant]
  decode? t := do
    let (name, content) ← t.variant?
    Op.ofVariant? name content

instance : Exchange Node where
  encode n := .record [("op", encode n.op), ("ty", encode n.type)]
  decode? t := do
    match ← t.fields? ["op", "ty"] [] with
    | [op, type] => return ⟨← decode? op, ← decode? type⟩
    | _ => none

instance : Exchange Graph where
  encode g := .record
    [("nodes", encode g.nodes.toList), ("schedule", encode g.schedule),
      ("outputs", encode g.outputs)]
  decode? t := do
    match ← t.fields? ["nodes", "schedule", "outputs"] [] with
    | [nodes, schedule, outputs] =>
        let nodes : List Node ← decode? nodes
        return ⟨nodes.toArray, ← decode? schedule, ← decode? outputs⟩
    | _ => none

end TensorLowering
