import TensorLowering.NdArray.Basic
import TensorLowering.NdArray.Error

/-!
# Broadcasting

Shapes are aligned on their last axes. Two sizes agree when they are equal or one of them is one,
and an axis of size one is read at its only position wherever it is stretched.
-/
namespace TensorLowering.NdArray

variable {α β γ : Type}

/-- The size to which two sizes stretch. -/
def commonSize? (m n : Nat) : Option Nat :=
  if m = n then some m else if m = 1 then some n else if n = 1 then some m else none

/-- The size of a shape on an axis of a wider one. Axes that the shape does not have are ones. -/
def sizeAt (shape : List Nat) (rank axis : Nat) : Nat :=
  if rank ≤ axis + shape.length then shape.getD (axis + shape.length - rank) 1 else 1

def broadcastShape (lhs rhs : List Nat) : Except ArrayError (List Nat) :=
  let rank := max lhs.length rhs.length
  match (List.range rank).mapM fun axis =>
    commonSize? (sizeAt lhs rank axis) (sizeAt rhs rank axis) with
  | some shape => .ok shape
  | none => .error (.notBroadcastable lhs rhs)

/-- Pairs each axis of a shape with the entry that stands in its place from the end. -/
def aligned (shape entries : List α) : List (α × α) :=
  shape.zip (entries.drop (entries.length - shape.length))

/-- The position at which an array of the given shape is read, at a position of a wider one. -/
def alignIndex (shape ix : List Nat) : List Nat :=
  (aligned shape ix).map fun (n, i) => if n = 1 then 0 else i

/-- Every axis of the source has size one or the size of the axis it is aligned with. -/
def StretchesTo (source target : List Nat) : Prop :=
  source.length ≤ target.length ∧ ∀ e ∈ aligned source target, e.1 = 1 ∨ e.1 = e.2

instance (source target : List Nat) : Decidable (StretchesTo source target) := by
  unfold StretchesTo
  infer_instance

def broadcastTo [Inhabited α] (a : NdArray α) (sizes : List Nat) :
    Except ArrayError (NdArray α) :=
  if StretchesTo a.shape sizes ∧ ¬ TooLarge sizes then
    .ok (ofFn sizes fun ix => a.entry (alignIndex a.shape ix))
  else .error (.cannotBroadcast a.shape sizes)

/-- Applies a function to corresponding elements of two arrays, both stretched to one shape. -/
def zipWith [Inhabited α] [Inhabited β] (f : α → β → γ) (a : NdArray α) (b : NdArray β) :
    Except ArrayError (NdArray γ) := do
  let shape ← broadcastShape a.shape b.shape
  if TooLarge shape then
    throw .broadcastTooLarge
  return ofFn shape fun ix => f (a.entry (alignIndex a.shape ix)) (b.entry (alignIndex b.shape ix))

/-- Inserts an axis of size one. -/
def insertAxis [Inhabited α] (a : NdArray α) (axis : Nat) : NdArray α :=
  ofFn (a.shape.insertIdx axis 1) fun ix => a.entry (ix.eraseIdx axis)

/-- Inserts axes of size one at the given positions of the result, the least first, and stretches
the array to the given sizes. -/
def broadcastAdded [Inhabited α] (a : NdArray α) (sizes added : List Nat) :
    Except ArrayError (NdArray α) := do
  let widened ← (added.mergeSort (· ≤ ·)).foldlM (fun (b : NdArray α) axis =>
    if b.rank < axis then .error (.cannotAddAxis axis b.rank) else .ok (b.insertAxis axis)) a
  widened.broadcastTo sizes

end TensorLowering.NdArray
