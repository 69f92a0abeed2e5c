import TensorLowering.Lowering.Convolution.Windows
import TensorLowering.Lowering.Rule

/-!
# Kernels of a convolution

Which kernel a convolution uses, and how its operands are arranged for it. Quantized kernels have
the channels last, apart from the grouped one, which splits the channels of each operand into
groups.
-/
namespace TensorLowering

open Build

/-- Moves the channel axis, the second one, behind the others. -/
def Permutation.channelLast (rank : Nat) : Permutation := ⟨0 :: List.range' 2 (rank - 2) ++ [1]⟩

/-- Moves the last axis to the second place. -/
def Permutation.channelFirst (rank : Nat) : Permutation :=
  ⟨0 :: (rank - 1) :: List.range' 1 (rank - 2)⟩

inductive ConvPath where
  | standard
  | quantizedChannelLast
  | depthwise
  | grouped
  deriving DecidableEq

namespace ConvPlan

def path (p : ConvPlan) (config : LoweringConfig) (input weight : ConvSizes) : ConvPath :=
  let groups := p.geometry.groups
  if groups = 1 then
    if p.isQuantized then .quantizedChannelLast else .standard
  else if input.channels.known = some groups ∧ weight.outer.known = some groups ∧
      weight.channels.known = some 1 ∧ config.preferDepthwise then .depthwise
  else .grouped

/-- Runs a kernel that has the channels last, over operands that have them second. -/
def channelLast (p : ConvPlan) (variant : ConvVariant) (input weight init : ValueId)
    (weightPerm : Permutation) : Build ValueId := do
  let input ← transpose input (.channelLast p.rank)
  let weight ← transpose weight weightPerm
  let init ← transpose init (.channelLast p.rank)
  let output ← reduce (p.spec variant) input weight p.zeroPoints? init
  transpose output (.channelFirst p.rank)

def standard (p : ConvPlan) (input weight init : ValueId) : Build ValueId :=
  reduce (p.spec (.standard .channelFirst)) input weight p.zeroPoints? init

/-- The weight is read with its kernel axes first, then channels and filters. -/
def quantizedChannelLast (p : ConvPlan) (input weight init : ValueId) : Build ValueId :=
  p.channelLast (.standard .channelLast) input weight init ⟨List.range' 2 p.spatialRank ++ [1, 0]⟩

/-- One filter per channel: the two outer axes of the weight are folded into one. -/
def depthwise (p : ConvPlan) (input weight init : ValueId) : Build ValueId := do
  let weight ← collapseShape weight (.foldRange p.rank 0 2)
  if p.isQuantized then
    if p.spatialRank ≠ 2 then decline .quantizedDepthwiseRank
    else
      p.channelLast (.depthwise .channelLast) input weight init
        ⟨List.range' 1 p.spatialRank ++ [0]⟩
  else if 2 < p.spatialRank then decline .depthwiseRank
  else reduce (p.spec (.depthwise .channelFirst)) input weight p.zeroPoints? init

/-- Splits an axis into the groups and the entries of each group. The result comes with the folding
that undoes the split. -/
def splitGroups (tensor : ValueId) (axis : Nat) (groups : Size) :
    Build (ValueId × Reassociation) := do
  let sizes ← dims tensor
  match sizes.splitAt axis with
  | (_, []) => invalidAxis axis sizes.length
  | (outer, size :: inner) =>
      let perGroup ← floorDiv size groups
      let fold := Reassociation.foldRange (sizes.length + 1) axis (axis + 2)
      let split ← expandShape tensor fold (outer ++ [groups, perGroup] ++ inner)
      return (split, fold)

def grouped (p : ConvPlan) (input weight init : ValueId) : Build ValueId := do
  if p.spatialRank ≠ 2 then decline .groupedRank
  else
    let groups ← index p.geometry.groups
    let (input, _) ← splitGroups input 1 groups
    let (init, fold) ← splitGroups init 1 groups
    let (weight, _) ← splitGroups weight 0 groups
    let output ← reduce (p.spec .grouped) input weight p.zeroPoints? init
    collapseShape output fold

def run (p : ConvPlan) (path : ConvPath) (input weight init : ValueId) : Build ValueId :=
  match path with
  | .standard => p.standard input weight init
  | .quantizedChannelLast => p.quantizedChannelLast input weight init
  | .depthwise => p.depthwise input weight init
  | .grouped => p.grouped input weight init

end ConvPlan

end TensorLowering
