import TensorLowering.Eval.Node
import TensorLowering.Proofs.NdArray.Positions
import TensorLowering.Proofs.Numeric.Elements

/-!
# Tensors given by their entries

A tensor is known by its element type, its shape and its entries. Layout operations give tensors
whose entries are those of another one at other positions; they are rounded already.
-/
namespace TensorLowering

open Numeric NdArray

namespace Tensor

/-- The type that says all about a tensor but its entries. -/
def type (t : Tensor) : TensorType := ⟨t.dtype, .ofSizes t.shape⟩

def entry (t : Tensor) (ix : List Nat) : Binary64 := t.data.entry ix

/-- The tensor with the given entries, rounded to the element type. -/
def ofEntries (dtype : DType) (shape : List Nat) (f : List Nat → Binary64) : Tensor :=
  .ofArray dtype (.ofFn shape f)

variable {t t' : Tensor} {dtype : DType} {shape ix : List Nat} {f f' : List Nat → Binary64}

@[simp] theorem dtype_type (t : Tensor) : t.type.dtype = t.dtype := rfl

@[simp] theorem shape_type (t : Tensor) : t.type.shape = .ofSizes t.shape := rfl

@[simp] theorem rank_type (t : Tensor) : t.type.rank = t.shape.length := by
  simp [type, TensorType.rank]

@[simp] theorem dtype_ofEntries : (ofEntries dtype shape f).dtype = dtype := rfl

@[simp] theorem shape_ofEntries : (ofEntries dtype shape f).shape = shape := rfl

theorem entry_ofEntries (h : InBounds shape ix) :
    (ofEntries dtype shape f).entry ix = dtype.round (f ix) := by
  have hmap : ((NdArray.ofFn shape f).map dtype.round).entry ix =
      dtype.round ((NdArray.ofFn shape f).entry ix) := entry_map _ _ h
  rw [entry_ofFn f h] at hmap
  exact hmap

/-- Every entry, also the default past the bounds, is rounded already. -/
@[simp] theorem round_entry (t : Tensor) (ix : List Nat) :
    t.dtype.round (t.entry ix) = t.entry ix := by
  unfold entry NdArray.entry
  rw [Array.getD_eq_getD_getElem?]
  cases h : t.data.data[ravel t.data.shape ix]? with
  | none => exact t.dtype.round_zero
  | some x => exact t.rounded x (Array.mem_of_getElem? h)

theorem ofEntries_congr (h : ∀ ix, InBounds shape ix → f ix = f' ix) :
    ofEntries dtype shape f = ofEntries dtype shape f' := by
  have harray : NdArray.ofFn shape f = NdArray.ofFn shape f' := by
    refine ext_entry rfl fun ix hix => ?_
    have hbounds : InBounds shape ix := hix
    rw [entry_ofFn f hbounds, entry_ofFn f' hbounds, h ix hbounds]
  rw [ofEntries, harray, ofEntries]

/-- Every tensor is given by its entries. -/
theorem ofEntries_entry (t : Tensor) : ofEntries t.dtype t.shape t.entry = t := by
  have harray : NdArray.ofFn t.data.shape t.data.entry = t.data := ofFn_entry t.data
  unfold ofEntries
  exact (congrArg (ofArray t.dtype) harray).trans t.ofArray_data

theorem ofArray_eq_ofEntries (dtype : DType) (a : NdArray Binary64) :
    ofArray dtype a = ofEntries dtype a.shape a.entry := by
  rw [ofEntries, ofFn_entry]

theorem ext_entry (hdtype : t.dtype = t'.dtype) (hshape : t.shape = t'.shape)
    (h : ∀ ix, InBounds t.shape ix → t.entry ix = t'.entry ix) : t = t' := by
  rw [← ofEntries_entry t, ← ofEntries_entry t', hdtype, ← hshape]
  exact ofEntries_congr h

@[simp] theorem shape_widened (t : Tensor) (c : CastKind) : (t.widened c).shape = t.shape := by
  cases c <;> rfl

/-- The elements as a reduction reads them. -/
theorem entry_widened (t : Tensor) (c : CastKind) (ix : List Nat) (h : InBounds t.shape ix) :
    (t.widened c).entry ix = c.extend t.dtype (t.entry ix) := by
  cases c with
  | unsigned => rfl
  | signed => exact entry_map _ _ h

/-- An element as a factor of a reduction, less the zero-point of its operand if there is one. -/
def factor (t : Tensor) (c : CastKind) (z : Option Binary64) (ix : List Nat) : Binary64 :=
  c.factor t.dtype z (t.entry ix)

theorem factor_congr {c : CastKind} {z : Option Binary64} {jx : List Nat}
    (hdtype : t.dtype = t'.dtype) (hentry : t.entry ix = t'.entry jx) :
    t.factor c z ix = t'.factor c z jx := by
  rw [factor, factor, hdtype, hentry]

/-! ## The same elements under another shape -/

/-- The elements in row-major order under another shape. -/
def reshaped (t : Tensor) (sizes : List Nat) : Tensor :=
  ofEntries t.dtype sizes fun ix => t.entry (unravel t.shape (ravel sizes ix))

@[simp] theorem dtype_reshaped (t : Tensor) (sizes : List Nat) :
    (t.reshaped sizes).dtype = t.dtype := rfl

@[simp] theorem shape_reshaped (t : Tensor) (sizes : List Nat) :
    (t.reshaped sizes).shape = sizes := rfl

/-- An entry stays where the same number of positions come before it. -/
theorem entry_reshaped {sizes jx : List Nat} (hix : InBounds t.shape ix) (hjx : InBounds sizes jx)
    (h : ravel sizes jx = ravel t.shape ix) : (t.reshaped sizes).entry jx = t.entry ix := by
  rw [reshaped, entry_ofEntries hjx, h, unravel_ravel hix, round_entry]

theorem reshaped_self (t : Tensor) : t.reshaped t.shape = t := by
  refine ext_entry rfl rfl fun ix hix => ?_
  exact entry_reshaped hix hix rfl

/-- Another shape of the same volume can be taken back. -/
theorem reshaped_reshaped {sizes : List Nat} (t : Tensor)
    (hvolume : volume sizes = volume t.shape) : (t.reshaped sizes).reshaped t.shape = t := by
  refine ext_entry rfl rfl fun ix hix => ?_
  have hbounds : InBounds t.shape ix := hix
  have hlt : ravel t.shape ix < volume sizes := hvolume ▸ ravel_lt hbounds
  have hthere : InBounds sizes (unravel sizes (ravel t.shape ix)) := inBounds_unravel hlt
  have hsame : ravel t.shape ix = ravel sizes (unravel sizes (ravel t.shape ix)) :=
    (ravel_unravel hlt).symm
  rw [entry_reshaped (t := t.reshaped sizes) hthere hbounds hsame,
    entry_reshaped hbounds hthere hsame.symm]

end Tensor

/-- Checks that all succeed. -/
theorem NdArray.forM_eq_ok {α ε : Type} {f : α → Except ε Unit} {xs : List α}
    (h : ∀ x ∈ xs, f x = .ok ()) : xs.forM f = .ok () := by
  induction xs with
  | nil => rfl
  | cons x xs ih =>
      have hcons : (x :: xs).forM f = f x >>= fun _ => xs.forM f := rfl
      rw [hcons, h x (by simp)]
      exact ih fun y hy => h y (by simp [hy])

/-- Elements that fill the new shape can be given it. -/
theorem NdArray.reshape_eq_ok {a : NdArray Binary64} {sizes : List Nat}
    (hvolume : volume sizes = volume a.shape) (hfit : ¬ TooLarge sizes) :
    ∃ b, a.reshape sizes = .ok b ∧ b.shape = sizes ∧
      ∀ ix, InBounds sizes ix → b.entry ix = a.entry (unravel a.shape (ravel sizes ix)) := by
  have hsize : a.data.size = volume sizes := a.size_data.trans hvolume.symm
  refine ⟨⟨sizes, a.data, hsize⟩, ?_, rfl, fun ix hix => ?_⟩
  · simp [reshape, ofData?, hfit, hsize]
  · have hlt : ravel sizes ix < volume a.shape := hvolume ▸ ravel_lt hix
    simp only [entry, ravel_unravel hlt]

/-! ## Results of nodes -/

theorem arrayResult_fill {type : TensorType} {sizes : List Nat} {x : Binary64}
    (hfit : ¬ TooLarge sizes) : arrayResult (.tensor type) (fill sizes x) =
      .ok (.tensor (.ofEntries type.dtype sizes fun _ => x)) := by
  rw [fill, if_neg hfit]
  rfl

/-- The value of a node that gives the elements another shape. -/
theorem arrayResult_reshape {t : Tensor} {sizes : List Nat}
    (hvolume : volume sizes = volume t.shape) (hfit : ¬ TooLarge sizes) :
    arrayResult (.tensor (t.reshaped sizes).type) (t.data.reshape sizes) =
      .ok (.tensor (t.reshaped sizes)) := by
  obtain ⟨b, hb, hshape, hentries⟩ := NdArray.reshape_eq_ok (a := t.data) hvolume hfit
  have hsame : Tensor.ofArray t.dtype b = t.reshaped sizes := by
    rw [Tensor.ofArray_eq_ofEntries, hshape, Tensor.reshaped]
    exact Tensor.ofEntries_congr hentries
  rw [hb, ← hsame]
  rfl

theorem arrayResult_error (type : ValueType) (e : ArrayError) :
    arrayResult type (.error e) = .error (.array e) := rfl

end TensorLowering
