import TensorLowering.Graph.Error
import TensorLowering.HostOp.Basic
import TensorLowering.NdArray.Error

/-!
# Errors of evaluation
-/
namespace TensorLowering

/-- Why a value is not of the type that its place asks for. -/
inductive TypeFault where
  | kind (expected got : String)
  | element (expected got : DType)
  | tensorConstant
  | notTensorResult (type : ValueType)
  | notTensorType (type : ValueType)
  | noZeroPoints
  deriving DecidableEq

namespace TypeFault

def expected : TypeFault → String
  | kind expected _ => expected
  | element expected _ => expected.name
  | tensorConstant => "index or scalar constant"
  | notTensorResult _ => "tensor result"
  | notTensorType type => type.describe
  | noZeroPoints => "zero-points for a quantized kernel"

def got : TypeFault → String
  | kind _ got => got
  | element _ got => got.name
  | tensorConstant => "tensor"
  | notTensorResult type => type.describe
  | notTensorType _ => "tensor"
  | noZeroPoints => "none"

end TypeFault

inductive EvalError where
  | guardFailed (message : String)
  | missingInput (name : String)
  | unbound (id : ValueId)
  | type (fault : TypeFault)
  | declaredShape (sizes : List Nat) (declared : Shape)
  | array (error : ArrayError)
  | divisionByZero
  | remainderOverflow
  | unlowered (kind : HostKind)
  | missingNode (id : ValueId)
  | kernelWithoutIndexing (name : String)
  | graph (error : GraphError)
  deriving DecidableEq

def EvalError.message : EvalError → String
  | guardFailed message => "guard failed: " ++ message
  | missingInput name => "missing input: " ++ name
  | unbound id => "unbound value " ++ id.render
  | type fault => "type error: expected " ++ fault.expected ++ ", got " ++ fault.got
  | declaredShape sizes declared =>
      "shape error: " ++ Text.naturals sizes ++ " does not fit declared shape " ++
        Text.bracketed (declared.dims.map Dim.describe)
  | array error => error.message
  | divisionByZero => "division by zero"
  | remainderOverflow => "remainder of an overflowing division"
  | unlowered kind => "host operator " ++ kind.name ++ " was not lowered"
  | missingNode id => "no node defines " ++ id.render
  | kernelWithoutIndexing name => "kernel " ++ name ++ " has no indexing"
  | graph error => error.message

end TensorLowering
