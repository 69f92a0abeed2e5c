import TensorLowering.Affine
import TensorLowering.Build.Basic
import TensorLowering.Build.Compute
import TensorLowering.Build.Layout
import TensorLowering.Build.Scalar
import TensorLowering.Build.Size
import TensorLowering.Conversion.Basic
import TensorLowering.Conversion.Report
import TensorLowering.Conversion.RuleSet
import TensorLowering.DType
import TensorLowering.Element
import TensorLowering.Eval.Env
import TensorLowering.Eval.Error
import TensorLowering.Eval.Node
import TensorLowering.Eval.Run
import TensorLowering.Eval.Value
import TensorLowering.Exchange.Graph
import TensorLowering.Exchange.HostOp
import TensorLowering.Exchange.Lowering
import TensorLowering.Exchange.Reduction
import TensorLowering.Exchange.Tree
import TensorLowering.Exchange.Types
import TensorLowering.Exchange.Values
import TensorLowering.Graph.Basic
import TensorLowering.Graph.Error
import TensorLowering.Graph.Listing
import TensorLowering.Graph.Operand
import TensorLowering.Graph.Schedule
import TensorLowering.HostOp.Basic
import TensorLowering.HostOp.Geometry
import TensorLowering.Lowering.Agreement
import TensorLowering.Lowering.AxisSet
import TensorLowering.Lowering.Convolution.Paths
import TensorLowering.Lowering.Convolution.Plan
import TensorLowering.Lowering.Convolution.Rule
import TensorLowering.Lowering.Convolution.Windows
import TensorLowering.Lowering.Error
import TensorLowering.Lowering.Flip
import TensorLowering.Lowering.MatrixProduct.Basic
import TensorLowering.Lowering.MatrixProduct.Batched
import TensorLowering.Lowering.MatrixProduct.Form
import TensorLowering.Lowering.MatrixProduct.Rules
import TensorLowering.Lowering.Rule
import TensorLowering.Lowering.SignedStorage
import TensorLowering.Lowering.Trilinear
import TensorLowering.NdArray.Basic
import TensorLowering.NdArray.Broadcast
import TensorLowering.NdArray.Error
import TensorLowering.NdArray.Index
import TensorLowering.NdArray.Layout
import TensorLowering.NdArray.Reduce
import TensorLowering.Numeric.Binary64
import TensorLowering.Numeric.Exact
import TensorLowering.Numeric.Int64
import TensorLowering.Numeric.Interchange
import TensorLowering.Numeric.Rounding
import TensorLowering.Op.Arith
import TensorLowering.Op.Basic
import TensorLowering.Op.Operands
import TensorLowering.Op.Traits
import TensorLowering.Proofs.Build.Agreement
import TensorLowering.Proofs.Build.Broadcasts
import TensorLowering.Proofs.Build.Commits
import TensorLowering.Proofs.Build.Declared
import TensorLowering.Proofs.Build.DeclaredElementwise
import TensorLowering.Proofs.Build.DeclaredLayouts
import TensorLowering.Proofs.Build.DeclaredOperands
import TensorLowering.Proofs.Build.DeclaredTensors
import TensorLowering.Proofs.Build.Drafts
import TensorLowering.Proofs.Build.Elementwise
import TensorLowering.Proofs.Build.Emissions
import TensorLowering.Proofs.Build.Facts
import TensorLowering.Proofs.Build.Flips
import TensorLowering.Proofs.Build.Guards
import TensorLowering.Proofs.Build.Inputs
import TensorLowering.Proofs.Build.Integers
import TensorLowering.Proofs.Build.Layouts
import TensorLowering.Proofs.Build.Limits
import TensorLowering.Proofs.Build.Matches
import TensorLowering.Proofs.Build.Outcomes
import TensorLowering.Proofs.Build.PlainOperations
import TensorLowering.Proofs.Build.Reductions
import TensorLowering.Proofs.Build.ScopedOperands
import TensorLowering.Proofs.Build.Scopes
import TensorLowering.Proofs.Build.SignedStorage
import TensorLowering.Proofs.Build.Stage
import TensorLowering.Proofs.Build.StoredDifferences
import TensorLowering.Proofs.Build.Tensors
import TensorLowering.Proofs.Conversion.Attempts
import TensorLowering.Proofs.Conversion.DeadNodes
import TensorLowering.Proofs.Conversion.Failures
import TensorLowering.Proofs.Conversion.HostOperators
import TensorLowering.Proofs.Conversion.Idempotence
import TensorLowering.Proofs.Conversion.Meaning
import TensorLowering.Proofs.Conversion.PlainRules
import TensorLowering.Proofs.Conversion.Redirections
import TensorLowering.Proofs.Conversion.Reports
import TensorLowering.Proofs.Conversion.Retries
import TensorLowering.Proofs.Conversion.Rewritings
import TensorLowering.Proofs.Conversion.Schedules
import TensorLowering.Proofs.Conversion.ScopedRules
import TensorLowering.Proofs.Conversion.Splice
import TensorLowering.Proofs.Conversion.StaticOperators
import TensorLowering.Proofs.Conversion.Transactions
import TensorLowering.Proofs.Conversion.Verdicts
import TensorLowering.Proofs.Conversion.WellFormed
import TensorLowering.Proofs.Conversion.ZeroPoints
import TensorLowering.Proofs.Convolution.Buffers
import TensorLowering.Proofs.Convolution.ChannelLast
import TensorLowering.Proofs.Convolution.DeclaredKernels
import TensorLowering.Proofs.Convolution.DeclaredPlans
import TensorLowering.Proofs.Convolution.DeclaredRules
import TensorLowering.Proofs.Convolution.DeclaredWindows
import TensorLowering.Proofs.Convolution.Geometry
import TensorLowering.Proofs.Convolution.KernelChoice
import TensorLowering.Proofs.Convolution.Kernels
import TensorLowering.Proofs.Convolution.KnownSizes
import TensorLowering.Proofs.Convolution.LayoutAgreement
import TensorLowering.Proofs.Convolution.Meetings
import TensorLowering.Proofs.Convolution.OpenSizes
import TensorLowering.Proofs.Convolution.Paths
import TensorLowering.Proofs.Convolution.Plans
import TensorLowering.Proofs.Convolution.Quantized
import TensorLowering.Proofs.Convolution.Scopes
import TensorLowering.Proofs.Convolution.Spreading
import TensorLowering.Proofs.Convolution.Standard
import TensorLowering.Proofs.Convolution.Sums
import TensorLowering.Proofs.Convolution.Transposed
import TensorLowering.Proofs.Convolution.WindowCounts
import TensorLowering.Proofs.Evaluation.Operands
import TensorLowering.Proofs.Evaluation.Representable
import TensorLowering.Proofs.Evaluation.Runs
import TensorLowering.Proofs.Evaluation.Types
import TensorLowering.Proofs.Evaluation.Verified
import TensorLowering.Proofs.MatrixProduct.BatchPaths
import TensorLowering.Proofs.MatrixProduct.Batched
import TensorLowering.Proofs.MatrixProduct.Declared
import TensorLowering.Proofs.MatrixProduct.DeclaredBatches
import TensorLowering.Proofs.MatrixProduct.DeclaredRules
import TensorLowering.Proofs.MatrixProduct.EqualBatches
import TensorLowering.Proofs.MatrixProduct.Forms
import TensorLowering.Proofs.MatrixProduct.Guards
import TensorLowering.Proofs.MatrixProduct.KnownSizes
import TensorLowering.Proofs.MatrixProduct.Matrices
import TensorLowering.Proofs.MatrixProduct.MixedTypes
import TensorLowering.Proofs.MatrixProduct.Quantized
import TensorLowering.Proofs.MatrixProduct.Rules
import TensorLowering.Proofs.MatrixProduct.Scopes
import TensorLowering.Proofs.MatrixProduct.Sizes
import TensorLowering.Proofs.MatrixProduct.Vectors
import TensorLowering.Proofs.NdArray.Axes
import TensorLowering.Proofs.NdArray.AxisSums
import TensorLowering.Proofs.NdArray.Broadcasting
import TensorLowering.Proofs.NdArray.Channels
import TensorLowering.Proofs.NdArray.CommonShapes
import TensorLowering.Proofs.NdArray.Folds
import TensorLowering.Proofs.NdArray.Mirrors
import TensorLowering.Proofs.NdArray.Positions
import TensorLowering.Proofs.NdArray.Reads
import TensorLowering.Proofs.NdArray.Results
import TensorLowering.Proofs.NdArray.Slices
import TensorLowering.Proofs.NdArray.Spread
import TensorLowering.Proofs.NdArray.Stretching
import TensorLowering.Proofs.NdArray.Tensors
import TensorLowering.Proofs.NdArray.Transposes
import TensorLowering.Proofs.Numeric.Elements
import TensorLowering.Proofs.Numeric.Integers
import TensorLowering.Proofs.Op.Division
import TensorLowering.Proofs.Op.Forms
import TensorLowering.Proofs.Reduction.Loops
import TensorLowering.Proofs.Reduction.Outcomes
import TensorLowering.Proofs.Reduction.Reordered
import TensorLowering.Proofs.Reduction.Sums
import TensorLowering.Proofs.Reduction.WellFormed
import TensorLowering.Proofs.Reduction.Windows
import TensorLowering.Proofs.Shape.Admission
import TensorLowering.Proofs.Shape.Permutations
import TensorLowering.Proofs.Trilinear.DeclaredFactors
import TensorLowering.Proofs.Trilinear.Factors
import TensorLowering.Proofs.Trilinear.Guards
import TensorLowering.Proofs.Trilinear.Plans
import TensorLowering.Proofs.Trilinear.Products
import TensorLowering.Proofs.Trilinear.Sums
import TensorLowering.Proofs.Typing.Respects
import TensorLowering.Proofs.Typing.Sessions
import TensorLowering.Proofs.Typing.Sizes
import TensorLowering.Proofs.Typing.Tensors
import TensorLowering.Reduction.Convolution
import TensorLowering.Reduction.Indexing
import TensorLowering.Reduction.Spec
import TensorLowering.Scalar
import TensorLowering.Shape.Axis
import TensorLowering.Shape.Basic
import TensorLowering.Shape.Broadcast
import TensorLowering.Shape.Permutation
import TensorLowering.Shape.Reassociation
import TensorLowering.Text
import TensorLowering.ValueId
import TensorLowering.ValueType
