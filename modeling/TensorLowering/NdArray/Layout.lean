import TensorLowering.NdArray.Basic
import TensorLowering.NdArray.Error
import TensorLowering.Numeric.Binary64
import TensorLowering.Shape.Permutation

/-!
# Layout of arrays

Operations that rearrange, select or place elements. Each checks that its request fits the shape
and then gives the entry at every position of the result.
-/
namespace TensorLowering.NdArray

open Numeric

variable {α : Type} [Inhabited α]

def checkAxis (a : NdArray α) (axis : Nat) : Except ArrayError Unit :=
  if axis < a.rank then .ok () else .error (.axisOutside axis a.rank)

/-- An array whose elements are all the same. -/
def fill (sizes : List Nat) (x : α) : Except ArrayError (NdArray α) :=
  if TooLarge sizes then .error (.tooLarge sizes) else .ok (ofFn sizes fun _ => x)

/-- The same elements in row-major order under another shape. -/
def reshape (a : NdArray α) (sizes : List Nat) : Except ArrayError (NdArray α) :=
  match ofData? sizes a.data with
  | some b => .ok b
  | none => .error (.cannotReshape a.shape sizes)

/-- Axis `i` of the result is axis `p i` of the array, for a valid permutation. -/
def transpose (a : NdArray α) (p : Permutation) : NdArray α :=
  ofFn (p.apply a.shape) fun ix => a.entry (p.inverse.apply ix)

/-- The position whose coordinates count from the far end on the axes listed an odd number of
times. -/
def reversedIndex (shape axes ix : List Nat) : List Nat :=
  (shape.zip ix).mapIdx fun axis (n, i) => if axes.count axis % 2 = 1 then n - 1 - i else i

/-- Reverses the array along each listed axis in turn. -/
def flip (a : NdArray α) (axes : List Nat) : Except ArrayError (NdArray α) := do
  axes.forM a.checkAxis
  return ofFn a.shape fun ix => a.entry (reversedIndex a.shape axes ix)

/-- The coordinate in a source of size `n` that lands on `i` when consecutive elements are placed
`stride` apart from `start` on. -/
def sourceCoordinate? (start stride : Int) (n i : Nat) : Option Nat :=
  let shift := (i : Int) - start
  if 0 ≤ shift ∧ shift % stride = 0 ∧ shift / stride < n then some (shift / stride).toNat else none

/-- The position in a source of the given shape that lands on a position, if one does. -/
def sourceIndex? (starts strides : List Int) (shape ix : List Nat) : Option (List Nat) :=
  ((starts.zip strides).zip (shape.zip ix)).mapM fun ((start, stride), (n, i)) =>
    sourceCoordinate? start stride n i

/-- Surrounds an array with a constant. -/
def pad (a : NdArray α) (low high : List Int) (x : α) : Except ArrayError (NdArray α) := do
  if low.length ≠ a.rank ∨ high.length ≠ a.rank then
    throw .paddingRank
  match (low.zip high).find? fun (lo, hi) => lo < 0 || hi < 0 with
  | some (lo, hi) => throw (.negativePadding lo hi)
  | none =>
      let sizes := (a.shape.zip (low.zip high)).map fun (n, lo, hi) => lo.toNat + n + hi.toNat
      if TooLarge sizes then
        throw (.tooLarge sizes)
      let ones := low.map fun _ => 1
      return ofFn sizes fun ix =>
        match sourceIndex? low ones a.shape ix with
        | some source => a.entry source
        | none => x

/-- Checks that `n` elements, `stride` apart from `start` on, fit an axis of the given size. -/
def checkSlice (axis n size : Nat) (start stride : Int) : Except ArrayError Unit :=
  let stop := if n = 0 then start else start + (n - 1) * stride + 1
  if start < 0 ∨ stride < 1 ∨ size < stop then
    .error (.sliceOutside start stop stride axis size)
  else .ok ()

/-- Writes a source into a copy of an array of the same rank. -/
def insertSlice (source dest : NdArray α) (starts strides : List Int) :
    Except ArrayError (NdArray α) := do
  if source.rank ≠ dest.rank ∨ starts.length ≠ dest.rank ∨ strides.length ≠ dest.rank then
    throw (.cannotInsert source.shape dest.shape)
  ((starts.zip strides).zip (source.shape.zip dest.shape)).zipIdx.forM
    fun (((start, stride), (n, size)), axis) => checkSlice axis n size start stride
  return ofFn dest.shape fun ix =>
    match sourceIndex? starts strides source.shape ix with
    | some position => source.entry position
    | none => dest.entry ix

/-- The positions from `start` on, `len` of them, of one axis. -/
def narrow (a : NdArray α) (axis : Nat) (start : Int) (len : Nat) :
    Except ArrayError (NdArray α) := do
  a.checkAxis axis
  let size := a.shape.getD axis 0
  if start < 0 ∨ size < start + len then
    throw (.rangeOutside start len size)
  return ofFn (a.shape.set axis len) fun ix => a.entry (ix.modify axis (· + start.toNat))

/-- The sums along one axis, which keeps size one. Each starts from zero and goes in order. -/
def sumKeepDim (a : NdArray Binary64) (axis : Nat) : Except ArrayError (NdArray Binary64) := do
  a.checkAxis axis
  let size := a.shape.getD axis 0
  return ofFn (a.shape.set axis 1) fun ix =>
    (List.range size).foldl (fun acc i => acc + a.entry (ix.set axis i)) 0

/-- Removes an axis of size one. -/
def squeeze (a : NdArray α) (axis : Nat) : Except ArrayError (NdArray α) := do
  a.checkAxis axis
  let size := a.shape.getD axis 0
  if size ≠ 1 then
    throw (.cannotSqueeze axis size)
  return ofFn (a.shape.eraseIdx axis) fun ix => a.entry (ix.insertIdx axis 0)

/-- Inserts an axis of size one at a position up to the rank. -/
def unsqueeze (a : NdArray α) (axis : Nat) : Except ArrayError (NdArray α) :=
  if a.rank < axis then .error (.newAxisOutside axis a.rank)
  else .ok (ofFn (a.shape.insertIdx axis 1) fun ix => a.entry (ix.eraseIdx axis))

end TensorLowering.NdArray
