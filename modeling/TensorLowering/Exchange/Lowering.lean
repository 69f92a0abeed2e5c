import TensorLowering.Conversion.Report
import TensorLowering.Exchange.HostOp
import TensorLowering.Lowering.Rule

/-!
# Exchange of configurations and reports
-/
namespace TensorLowering

namespace LoweringConfig

/-- The setting, or the standard one where none is given. -/
def setting? {α : Type} [Exchange α] (standard : α) : Option Tree → Option α
  | none => some standard
  | some t => decode? t

def ofSettings? (sizes kernels unroll : Option Tree) : Option LoweringConfig := do
  return {
    assumeEqualSizes := ← setting? standard.assumeEqualSizes sizes
    preferDepthwise := ← setting? standard.preferDepthwise kernels
    maxUnroll := ← setting? standard.maxUnroll unroll }

end LoweringConfig

/-- Every setting may be left out. -/
instance : Exchange LoweringConfig where
  encode c := .record
    [("assume_strict_symbolic_shapes", encode c.assumeEqualSizes),
      ("prefer_depthwise_kernels", encode c.preferDepthwise), ("max_unroll", encode c.maxUnroll)]
  decode?
    | .record fields =>
        let setting := fun (name : String) => List.lookup name fields
        LoweringConfig.ofSettings? (setting "assume_strict_symbolic_shapes")
          (setting "prefer_depthwise_kernels") (setting "max_unroll")
    | .list settings =>
        if 3 < settings.length then none
        else LoweringConfig.ofSettings? settings[0]? settings[1]? settings[2]?
    | _ => none

def Lowered.toTree (x : Lowered) : Tree :=
  .record [("op", encode x.op), ("kind", encode x.kind), ("rule", encode x.rule),
    ("replacement", encode x.replacement), ("created", encode x.created)]

def Declined.toTree (x : Declined) : Tree :=
  .record [("op", encode x.op), ("kind", encode x.kind), ("rule", encode x.rule),
    ("reason", encode x.reason.message)]

def Report.toTree (r : Report) : Tree :=
  .record [("lowered", .list (r.lowered.map Lowered.toTree)),
    ("declined", .list (r.declined.map Declined.toTree)), ("pruned", encode r.pruned),
    ("complete", .bool r.isComplete), ("text", encode r.render)]

/-- The name of the alternative that an error is. -/
def LowerError.name : LowerError → String
  | .noMatch .. => "NoMatch"
  | .staticShapeMismatch .. => "StaticShapeMismatch"
  | .invalidElementType .. => "InvalidElementType"
  | .graph error => "Ir." ++ error.name
  | .remainderOverflow => "RemainderOverflow"
  | .kernelWithoutIndexing .. => "KernelWithoutIndexing"
  | .danglingSchedule => "DanglingSchedule"

end TensorLowering
