import TensorLowering.Build.Scalar
import TensorLowering.Build.Size

/-!
# Tensors and their layout

Every operation computes the type of its result, so that each static size is known through the whole
construction. An operation that would change nothing returns its input.
-/
namespace TensorLowering.Build

open Numeric

/-! ## New tensors -/

def filled (sizes : List Size) (value : ValueId) (dtype : DType) : Build ValueId :=
  createTensor (.fill (Size.values sizes) value) dtype (Size.shape sizes)

def zeros (sizes : List Size) (dtype : DType) : Build ValueId := do
  let zero ← scalar (.zero dtype) dtype
  filled sizes zero dtype

/-- Repeats a tensor along the listed axes of the result. -/
def broadcast (input : ValueId) (sizes : List Size) (added : List Nat) : Build ValueId := do
  let type ← tensorType input
  let shape := Size.shape sizes
  if type.rank + added.length ≠ sizes.length ∨ ∃ a ∈ added, sizes.length ≤ a then
    fail (.graph (.shapeMismatch shape type.shape))
  else createTensor (.broadcast input (Size.values sizes) added) type.dtype shape

/-- Stretches a tensor to the given sizes, aligned on the last axes. -/
def broadcastTo (input : ValueId) (sizes : List Size) : Build ValueId := do
  let type ← tensorType input
  let shape := Size.shape sizes
  if sizes.length < type.rank then fail (.graph (.shapeMismatch shape type.shape))
  else if type.shape.isStatic ∧ type.shape = shape then return input
  else createTensor (.broadcastTo input (Size.values sizes)) type.dtype shape

/-! ## Order of axes and elements -/

def transpose (input : ValueId) (perm : Permutation) : Build ValueId := do
  let type ← tensorType input
  match type.shape.permuted perm with
  | .error e => fail (.graph e)
  | .ok shape =>
      if perm.isIdentity then return input
      else createTensor (.transpose input perm) type.dtype shape

/-- Reverses a tensor along the listed axes. -/
def flip (input : ValueId) (axes : List Nat) : Build ValueId := do
  let type ← tensorType input
  match axes.find? (type.rank ≤ ·) with
  | some axis => invalidAxis axis type.rank
  | none =>
      if axes.isEmpty then return input
      else createTensor (.flip input axes) type.dtype type.shape

/-! ## Groups of axes -/

/-- Splits each axis into the group of axes in its place. -/
def expandShape (input : ValueId) (groups : Reassociation) (sizes : List Size) :
    Build ValueId := do
  let type ← tensorType input
  match groups.check sizes.length with
  | .error e => fail (.graph e)
  | .ok () =>
      if groups.collapsedRank ≠ type.rank then
        fail (.graph (.invalidReassociation groups.groups sizes.length))
      else
        createTensor (.expandShape input groups (Size.values sizes)) type.dtype (Size.shape sizes)

/-- Folds each group of axes into one axis. -/
def collapseShape (input : ValueId) (groups : Reassociation) : Build ValueId := do
  let type ← tensorType input
  match groups.collapse type.shape with
  | .error e => fail (.graph e)
  | .ok shape => createTensor (.collapseShape input groups) type.dtype shape

/-! ## Slices -/

/-- The size of a padded axis. -/
def paddedDim (dim : Dim) (low high : Int) : Dim :=
  match dim with
  | .static n =>
      let size := clampNat n + low + high
      if 0 ≤ size then .static size.toNat else .dynamic
  | .dynamic => .dynamic

/-- Puts copies of a scalar around a tensor. -/
def pad (input : ValueId) (low high : List Int) (value : ValueId) : Build ValueId := do
  let type ← tensorType input
  if low.length ≠ type.rank ∨ high.length ≠ type.rank then
    invalidAxis (Nat.max low.length high.length) type.rank
  else if (low ++ high).all (· == 0) then return input
  else
    let dims := List.zipWith (fun dim (lo, hi) => paddedDim dim lo hi) type.shape.dims
      (low.zip high)
    createTensor (.pad input low high value) type.dtype ⟨dims⟩

/-- Writes one tensor into a copy of another, at the given offsets and strides. -/
def insertSlice (source dest : ValueId) (offsets : List Size) (strides : List Int) :
    Build ValueId := do
  let part ← tensorType source
  let type ← tensorType dest
  if part.dtype ≠ type.dtype then fail (.graph (.dtypeMismatch type.dtype part.dtype))
  else if part.rank ≠ type.rank ∨ offsets.length ≠ type.rank ∨ strides.length ≠ type.rank then
    fail (.graph (.shapeMismatch type.shape part.shape))
  else
    createTensor (.insertSlice source dest (Size.values offsets) strides) type.dtype type.shape

/-- The entries from `start` on, `len` of them, along one axis. -/
def narrow (input : ValueId) (axis : Nat) (start : Int) (len : Nat) : Build ValueId := do
  let type ← tensorType input
  if axis < type.rank then
    createTensor (.narrow input axis start len) type.dtype ⟨type.shape.dims.set axis (.static len)⟩
  else invalidAxis axis type.rank

/-- Removes an axis of size one. -/
def squeeze (input : ValueId) (axis : Nat) : Build ValueId := do
  let type ← tensorType input
  if axis < type.rank then
    createTensor (.squeeze input axis) type.dtype ⟨type.shape.dims.eraseIdx axis⟩
  else invalidAxis axis type.rank

/-- Inserts an axis of size one. -/
def unsqueeze (input : ValueId) (axis : Nat) : Build ValueId := do
  let type ← tensorType input
  if axis ≤ type.rank then
    createTensor (.unsqueeze input axis) type.dtype ⟨type.shape.dims.insertIdx axis (.static 1)⟩
  else invalidAxis axis type.rank

end TensorLowering.Build
