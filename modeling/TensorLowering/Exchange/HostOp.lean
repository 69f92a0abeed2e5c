import TensorLowering.Exchange.Types
import TensorLowering.HostOp.Geometry

/-!
# Exchange of host operators
-/
namespace TensorLowering

instance {α : Type} [Exchange α] : Exchange (Attr α) where
  encode
    | .const x => .variant "Const" x
    | .dynamic v => .variant "Dynamic" v
  decode? t :=
    match t.variant? with
    | some ("Const", x) => (decode? x).map Attr.const
    | some ("Dynamic", v) => (decode? v).map Attr.dynamic
    | _ => none

instance {α : Type} [Exchange α] : Exchange (Triple α) where
  encode t := encode t.toList
  decode?
    | .list [a, b, c] => do return ⟨← decode? a, ← decode? b, ← decode? c⟩
    | _ => none

instance : Exchange HostKind :=
  .ofNames
    [("Mm", .mm), ("Matmul", .matmul), ("Bmm", .bmm), ("Convolution", .convolution),
      ("Trilinear", .trilinear), ("Flip", .flip)]

instance : Exchange BinaryOperands where
  encode b := .record [("lhs", encode b.lhs), ("rhs", encode b.rhs)]
  decode? t := do
    match ← t.fields? ["lhs", "rhs"] [] with
    | [lhs, rhs] => return ⟨← decode? lhs, ← decode? rhs⟩
    | _ => none

instance : Exchange Convolution where
  encode c := .record
    [("input", encode c.input), ("weight", encode c.weight), ("bias", encode c.bias),
      ("stride", encode c.stride), ("padding", encode c.padding),
      ("dilation", encode c.dilation), ("output_padding", encode c.outputPadding),
      ("transposed", encode c.transposed), ("groups", encode c.groups)]
  decode? t := do
    match ← t.fields? ["input", "weight", "bias", "stride", "padding", "dilation", "output_padding",
        "transposed", "groups"] ["bias"] with
    | [input, weight, bias, stride, padding, dilation, outputPadding, transposed, groups] =>
        return {
          input := ← decode? input
          weight := ← decode? weight
          bias := ← decode? bias
          stride := ← decode? stride
          padding := ← decode? padding
          dilation := ← decode? dilation
          outputPadding := ← decode? outputPadding
          transposed := ← decode? transposed
          groups := ← decode? groups }
    | _ => none

instance : Exchange Trilinear where
  encode t := .record
    [("inputs", encode t.inputs), ("expand", encode t.expand), ("sum_dim", encode t.sumDim),
      ("unroll_dim", encode t.unrollDim)]
  decode? t := do
    match ← t.fields? ["inputs", "expand", "sum_dim", "unroll_dim"] [] with
    | [inputs, expand, sumDim, unrollDim] =>
        return ⟨← decode? inputs, ← decode? expand, ← decode? sumDim, ← decode? unrollDim⟩
    | _ => none

instance : Exchange Flip where
  encode p := .record [("input", encode p.input), ("dims", encode p.dims)]
  decode? t := do
    match ← t.fields? ["input", "dims"] [] with
    | [input, dims] => return ⟨← decode? input, ← decode? dims⟩
    | _ => none

instance : Exchange HostOp where
  encode
    | .mm b => .variant "Mm" b
    | .matmul b => .variant "Matmul" b
    | .bmm b => .variant "Bmm" b
    | .convolution c => .variant "Convolution" c
    | .trilinear t => .variant "Trilinear" t
    | .flip p => .variant "Flip" p
  decode? t :=
    match t.variant? with
    | some ("Mm", b) => (decode? b).map HostOp.mm
    | some ("Matmul", b) => (decode? b).map HostOp.matmul
    | some ("Bmm", b) => (decode? b).map HostOp.bmm
    | some ("Convolution", c) => (decode? c).map HostOp.convolution
    | some ("Trilinear", t) => (decode? t).map HostOp.trilinear
    | some ("Flip", p) => (decode? p).map HostOp.flip
    | _ => none

instance : Exchange ConvGeometry where
  encode g := .record
    [("padding", encode g.padding), ("stride", encode g.stride), ("dilation", encode g.dilation),
      ("output_padding", encode g.outputPadding), ("groups", encode g.groups),
      ("transposed", encode g.transposed)]
  decode? t := do
    match ← t.fields? ["padding", "stride", "dilation", "output_padding", "groups", "transposed"]
        [] with
    | [padding, stride, dilation, outputPadding, groups, transposed] =>
        return ⟨← decode? padding, ← decode? stride, ← decode? dilation, ← decode? outputPadding,
          ← decode? groups, ← decode? transposed⟩
    | _ => none

end TensorLowering
