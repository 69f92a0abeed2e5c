import TensorLowering.Build.Compute
import TensorLowering.Lowering.Agreement
import TensorLowering.Lowering.AxisSet
import TensorLowering.Lowering.Rule

/-!
# Rule for trilinear products

The product of three factors, aligned to one rank, is summed over some of its axes. One axis is
unrolled while lowering: each step multiplies the slices at one position of that axis. Summed axes
that the third factor lacks are summed before it is multiplied in, the others after. Where the
unrolled axis is itself summed, all steps add to the same slot; otherwise each step has its own.
-/
namespace TensorLowering

open Build

/-- The attributes of a trilinear product as positions of axes. -/
structure TrilinearPlan where
  /-- The rank of the aligned factors. -/
  total : Nat
  /-- The axes that each factor lacks. -/
  expand : Triple (List Nat)
  summed : List Nat
  unroll : Nat

namespace TrilinearPlan

def ofTrilinear (op : Trilinear) (firstRank : Nat) : Except LowerError TrilinearPlan := do
  let first ← op.expand.first.require "expand1"
  let total := firstRank + first.length
  let axes := fun (name : String) (a : Attr (List Int)) => do
    Axis.requireSet (name ++ " axis") total (← a.require name)
  let expand1 ← axes "expand1" op.expand.first
  let expand2 ← axes "expand2" op.expand.second
  let expand3 ← axes "expand3" op.expand.third
  let summed ← axes "sum_dim" op.sumDim
  let unroll ← Axis.require "unroll_dim" total (← op.unrollDim.require "unroll_dim")
  return { total, expand := ⟨expand1, expand2, expand3⟩, summed, unroll }

def unrollIsSummed (p : TrilinearPlan) : Bool := p.summed.contains p.unroll

/-- The summed axes other than the unrolled one. -/
def summedInStep (p : TrilinearPlan) : List Nat := p.summed.filter (· ≠ p.unroll)

/-- The axes that are summed before the third factor is multiplied in: it lacks them. -/
def summedEarly (p : TrilinearPlan) : List Nat := p.summedInStep.filter (p.expand.third.contains ·)

def summedLate (p : TrilinearPlan) : List Nat :=
  p.summedInStep.filter (!p.expand.third.contains ·)

/-- Requires each factor to have as many axes as are left for it. -/
def requireRank (p : TrilinearPlan) (factor : Nat) (type : TensorType) (expand : List Nat) :
    Except LowerError Unit :=
  if type.rank + expand.length = p.total then .ok ()
  else .error (.noMatch (.factorRank factor type.rank expand.length p.total))

def requireRanks (p : TrilinearPlan) (types : Triple TensorType) : Except LowerError Unit := do
  p.requireRank 1 types.first p.expand.first
  p.requireRank 2 types.second p.expand.second
  p.requireRank 3 types.third p.expand.third

/-- Inserts the axes that a factor lacks. -/
def align (value : ValueId) (expand : List Nat) : Build ValueId := expand.foldlM unsqueeze value

def sumAxes (value : ValueId) (axes : List Nat) : Build ValueId := axes.foldlM sum value

/-- The size of the unrolled axis. -/
def unrollSize (p : TrilinearPlan) (config : LoweringConfig) (sizes : List Size) : Build Nat := do
  match sizes[p.unroll]?.bind Size.known with
  | some (.ofNat n) =>
      if config.maxUnroll < n then decline (.unrollTooLarge n config.maxUnroll) else return n
  | _ => decline .dynamicUnroll

/-- The summed product of the slices at one position. A factor of size one along the unrolled axis
has its only slice there. -/
def step (p : TrilinearPlan) (factors : Triple (ValueId × Bool)) (dtype : DType) (k : Nat) :
    Build ValueId := do
  let slices ← factors.mapM fun (factor, isOne) =>
    narrow factor p.unroll (if isOne then 0 else k) 1
  let product ← elementwise .mul slices.first slices.second dtype
  let product ← sumAxes product p.summedEarly
  let product ← elementwise .mul product slices.third dtype
  sumAxes product p.summedLate

/-- Adds the contribution of one position to the output. -/
def accumulate (p : TrilinearPlan) (factors : Triple (ValueId × Bool)) (dtype : DType)
    (zero : Size) (output : ValueId) (k : Nat) : Build ValueId := do
  let contribution ← p.step factors dtype k
  if p.unrollIsSummed then elementwise .add output contribution dtype
  else
    let slot ← narrow output p.unroll k 1
    let updated ← elementwise .add slot contribution dtype
    let offset ← index k
    insertSlice updated output ((List.replicate p.total zero).set p.unroll offset)
      (List.replicate p.total 1)

/-- The product of aligned factors, with the summed axes of size one. -/
def unrolled (p : TrilinearPlan) (config : LoweringConfig) (factors : Triple ValueId)
    (dtype : DType) : Build ValueId := do
  let sizes ← factors.mapM dims
  let partialSizes ← broadcastSizes sizes.first sizes.second
  let common ← broadcastSizes partialSizes sizes.third
  let count ← p.unrollSize config common
  let one ← index 1
  let kept := p.summed.foldl (fun sizes axis => sizes.set axis one) common
  let output ← zeros kept dtype
  let zero ← index 0
  let isOne := sizes.map fun s => s[p.unroll]?.any Size.isOne
  (List.range count).foldlM (p.accumulate (factors.zip isOne) dtype zero) output

end TrilinearPlan

namespace Rule

def lowerTrilinear (config : LoweringConfig) (op : Trilinear) (result : TensorType) :
    Build ValueId := do
  let types ← op.inputs.mapM tensorType
  let plan ← ofExcept (TrilinearPlan.ofTrilinear op types.first.rank)
  ofExcept (plan.requireRanks types)
  let dtype := types.first.dtype
  if types.second.dtype ≠ dtype ∨ types.third.dtype ≠ dtype then decline .factorTypes
  else
    let factors ← (op.inputs.zip plan.expand).mapM fun (input, expand) =>
      TrilinearPlan.align input expand
    let output ← plan.unrolled config factors dtype
    let squeezed ← plan.summed.reverse.foldlM squeeze output
    finish squeezed result

def trilinear : Rule where
  name := "trilinear"
  kind := .trilinear
  apply config op result :=
    match op with
    | .trilinear op => lowerTrilinear config op result
    | _ => decline (.otherKind .trilinear)

end Rule

end TensorLowering
