import TensorLowering.Exchange.Tree
import TensorLowering.Reduction.Spec

/-!
# Exchange of reductions
-/
namespace TensorLowering

namespace AffineExpr

def toTree : AffineExpr → Tree
  | dim d => .variant "Dim" d
  | const c => .variant "Const" c
  | sum a b => .record [("Add", .list [a.toTree, b.toTree])]
  | scaled e k => .record [("Mul", .list [e.toTree, encode k])]

def ofTree? : Tree → Option AffineExpr
  | .record [("Dim", d)] => (decode? d).map dim
  | .record [("Const", c)] => (decode? c).map const
  | .record [("Add", .list [a, b])] => do return sum (← ofTree? a) (← ofTree? b)
  | .record [("Mul", .list [e, k])] => do return scaled (← ofTree? e) (← decode? k)
  | _ => none

instance : Exchange AffineExpr := ⟨toTree, ofTree?⟩

end AffineExpr

instance : Exchange AffineMap where
  encode m := .record [("num_dims", encode m.numDims), ("results", encode m.results)]
  decode? t := do
    match ← t.fields? ["num_dims", "results"] [] with
    | [numDims, results] => return ⟨← decode? numDims, ← decode? results⟩
    | _ => none

instance : Exchange IteratorKind :=
  .ofNames [("Parallel", .parallel), ("Reduction", .reduction)]

instance : Exchange Combine :=
  .ofNames [("MulAdd", .mulAdd), ("QuantizedMulAdd", .quantizedMulAdd)]

instance : Exchange CastKind := .ofNames [("Signed", .signed), ("Unsigned", .unsigned)]

instance : Exchange ConvLayout :=
  .ofNames [("ChannelFirst", .channelFirst), ("ChannelLast", .channelLast)]

instance : Exchange ConvVariant where
  encode
    | .standard layout => .variant "Standard" layout
    | .depthwise layout => .variant "Depthwise" layout
    | .grouped => .text "Grouped"
  decode? t :=
    match t.variant? with
    | some ("Standard", layout) => (decode? layout).map ConvVariant.standard
    | some ("Depthwise", layout) => (decode? layout).map ConvVariant.depthwise
    | some ("Grouped", .null) => some .grouped
    | _ => none

instance : Exchange ConvKernel where
  encode k := .record
    [("variant", encode k.variant), ("strides", encode k.strides),
      ("dilations", encode k.dilations), ("quantized", encode k.quantized)]
  decode? t := do
    match ← t.fields? ["variant", "strides", "dilations", "quantized"] [] with
    | [variant, strides, dilations, quantized] =>
        return ⟨← decode? variant, ← decode? strides, ← decode? dilations, ← decode? quantized⟩
    | _ => none

namespace NamedKernel

/-- The kernels that have no parameters. -/
def plain : List (String × NamedKernel) :=
  [("Dot", dot), ("Vecmat", vecmat), ("Matvec", matvec), ("Matmul", matmul),
    ("BatchMatmul", batchMatmul), ("QuantizedMatmul", quantizedMatmul),
    ("QuantizedBatchMatmul", quantizedBatchMatmul)]

instance : Exchange NamedKernel where
  encode
    | conv k => .variant "Conv" k
    | k => (Exchange.ofNames plain).encode k
  decode? t :=
    match t.variant? with
    | some ("Conv", k) => (decode? k).map conv
    | _ => (Exchange.ofNames plain).decode? t

end NamedKernel

instance : Exchange Indexing where
  encode ix := .record [("maps", encode ix.maps), ("iterators", encode ix.iterators)]
  decode? t := do
    match ← t.fields? ["maps", "iterators"] [] with
    | [maps, iterators] => return ⟨← decode? maps, ← decode? iterators⟩
    | _ => none

instance : Exchange ReductionKernel where
  encode
    | .named kernel => .variant "Named" kernel
    | .generic indexing => .variant "Generic" indexing
  decode? t :=
    match t.variant? with
    | some ("Named", kernel) => (decode? kernel).map ReductionKernel.named
    | some ("Generic", indexing) => (decode? indexing).map ReductionKernel.generic
    | _ => none

instance : Exchange ReductionSpec where
  encode s := .record
    [("kernel", encode s.kernel), ("combine", encode s.combine), ("cast", encode s.cast)]
  decode? t := do
    match ← t.fields? ["kernel", "combine", "cast"] [] with
    | [kernel, combine, cast] => return ⟨← decode? kernel, ← decode? combine, ← decode? cast⟩
    | _ => none

end TensorLowering
