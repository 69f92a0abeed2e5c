import TensorLowering.NdArray.Index

/-!
# Dense arrays

A dense array has a size per axis and its elements in row-major order. An array is read through the
entry at each position; arrays are built by giving the entry at each position. Main statements: the
entry of a built array is the one given, and arrays of one shape with the same entries are equal.
-/
namespace TensorLowering

structure NdArray (α : Type) where
  shape : List Nat
  data : Array α
  size_data : data.size = NdArray.volume shape
  deriving DecidableEq

namespace NdArray

variable {α β : Type}

def rank (a : NdArray α) : Nat := a.shape.length

/-- Sizes of which no array is made: the sizes that are not zero have too large a product. -/
def TooLarge (sizes : List Nat) : Prop := 0x8000000000000000 ≤ volume (sizes.filter (· ≠ 0))

instance (sizes : List Nat) : Decidable (TooLarge sizes) := by
  unfold TooLarge
  infer_instance

/-- The array with the given entry at each position. -/
def ofFn (shape : List Nat) (f : List Nat → α) : NdArray α where
  shape := shape
  data := Array.ofFn fun k : Fin (volume shape) => f (unravel shape k)
  size_data := Array.size_ofFn

/-- The array with the given elements in row-major order, if they fill its shape. -/
def ofData? (shape : List Nat) (data : Array α) : Option (NdArray α) :=
  if TooLarge shape then none
  else if h : data.size = volume shape then some ⟨shape, data, h⟩
  else none

/-- The element at a position; a default past the bounds. -/
def entry [Inhabited α] (a : NdArray α) (ix : List Nat) : α :=
  a.data.getD (ravel a.shape ix) default

def map (f : α → β) (a : NdArray α) : NdArray β where
  shape := a.shape
  data := a.data.map f
  size_data := by rw [Array.size_map, a.size_data]

/-- The array with one element changed, when the position is within the bounds. -/
def modify (a : NdArray α) (ix : List Nat) (f : α → α) : NdArray α where
  shape := a.shape
  data := a.data.modify (ravel a.shape ix) f
  size_data := by rw [Array.size_modify, a.size_data]

@[simp] theorem shape_ofFn (shape : List Nat) (f : List Nat → α) : (ofFn shape f).shape = shape :=
  rfl

@[simp] theorem shape_map (f : α → β) (a : NdArray α) : (a.map f).shape = a.shape := rfl

@[simp] theorem shape_modify (a : NdArray α) (ix : List Nat) (f : α → α) :
    (a.modify ix f).shape = a.shape := rfl

theorem entry_ofFn [Inhabited α] {shape ix : List Nat} (f : List Nat → α)
    (h : InBounds shape ix) : (ofFn shape f).entry ix = f ix := by
  simp [entry, ofFn, ravel_lt h, unravel_ravel h]

theorem entry_map [Inhabited α] [Inhabited β] (f : α → β) (a : NdArray α) {ix : List Nat}
    (h : InBounds a.shape ix) : (a.map f).entry ix = f (a.entry ix) := by
  have hlt : ravel a.shape ix < a.data.size := a.size_data ▸ ravel_lt h
  simp [entry, map, hlt]

theorem ext_entry [Inhabited α] {a b : NdArray α} (hshape : a.shape = b.shape)
    (h : ∀ ix, InBounds a.shape ix → a.entry ix = b.entry ix) : a = b := by
  obtain ⟨shape, data, hdata⟩ := a
  obtain ⟨_, data', hdata'⟩ := b
  subst hshape
  have hsize : data.size = data'.size := hdata.trans hdata'.symm
  have : data = data' := by
    refine Array.ext hsize fun k hk hk' => ?_
    have hprod : k < volume shape := hdata ▸ hk
    have := h (unravel shape k) (inBounds_unravel hprod)
    simpa [entry, ravel_unravel hprod, hk, hk'] using this
  subst this
  rfl

/-- Every array is built from its entries. -/
theorem ofFn_entry [Inhabited α] (a : NdArray α) : ofFn a.shape a.entry = a :=
  ext_entry rfl fun _ h => entry_ofFn _ h

end NdArray

end TensorLowering
