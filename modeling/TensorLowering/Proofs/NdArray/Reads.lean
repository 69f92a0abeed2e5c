import TensorLowering.Proofs.NdArray.Tensors

/-!
# Reading past the bounds

A padded tensor is read as the tensor itself at shifted coordinates, which may lie past the bounds
on either side; it has the value of the padding there.
-/
namespace TensorLowering

open Numeric NdArray

namespace NdArray

theorem position?_map_ofNat {shape ix : List Nat} (h : InBounds shape ix) :
    position? shape (ix.map Int.ofNat) = some ix :=
  position?_eq_some.2 ⟨h, rfl⟩

/-- A position of a box of one kind of axes before another. -/
theorem position?_append {A B x : List Nat} {y : List Int} (hx : InBounds A x) :
    position? (A ++ B) (x.map Int.ofNat ++ y) = (position? B y).map (x ++ ·) := by
  induction A generalizing x with
  | nil =>
      obtain rfl := inBounds_nil.1 hx
      simp
  | cons n A ih =>
      obtain ⟨i, rest, rfl, hi, hrest⟩ := inBounds_cons.1 hx
      have hbound : (0 : Int) ≤ i ∧ (i : Int) < n := ⟨Int.natCast_nonneg i, Int.ofNat_lt.2 hi⟩
      have htail := ih hrest
      simp only [List.cons_append, List.map_cons, Int.ofNat_eq_natCast, position?, hbound, and_self,
        ↓reduceIte, Int.toNat_natCast] at htail ⊢
      rw [htail, Option.map_map]
      rfl

/-- The coordinates in a source that is placed from `starts` on. -/
def shifted (starts : List Int) (ix : List Nat) : List Int :=
  List.zipWith (fun start (i : Nat) => i - start) starts ix

/-- Elements that are placed next to each other are found at the shifted coordinates. -/
theorem sourceIndex?_ones {starts : List Int} {shape ix : List Nat}
    (hshape : starts.length = shape.length) (hix : ix.length = shape.length) :
    sourceIndex? starts (starts.map fun _ => 1) shape ix = position? shape (shifted starts ix) := by
  induction starts generalizing shape ix with
  | nil =>
      obtain rfl := List.length_eq_zero_iff.1 hshape.symm
      obtain rfl := List.length_eq_zero_iff.1 hix
      rfl
  | cons start starts ih =>
      cases shape with
      | nil => simp at hshape
      | cons n shape =>
          cases ix with
          | nil => simp at hix
          | cons i ix =>
              have hrest := @ih shape ix (by simpa using hshape)
                (by simpa using hix)
              have hunit : sourceCoordinate? start 1 n i =
                  if 0 ≤ (i : Int) - start ∧ (i : Int) - start < n then
                    some ((i : Int) - start).toNat else none := by
                simp [sourceCoordinate?]
              simp only [sourceIndex?, shifted, List.map_cons, List.zip_cons_cons, List.mapM_cons,
                List.zipWith_cons_cons, position?, hunit] at hrest ⊢
              rw [hrest]
              split
              · cases position? shape (List.zipWith (fun start (i : Nat) => i - start) starts ix)
                <;> rfl
              · rfl

/-- The sizes with the listed edges added on both sides. -/
def paddedSizes (shape : List Nat) (edges : List Int) : List Nat :=
  List.zipWith (fun n (edge : Int) => edge.toNat + n + edge.toNat) shape edges

theorem map_zip_edges (shape : List Nat) (edges : List Int) :
    (shape.zip (edges.zip edges)).map (fun e => e.2.1.toNat + e.1 + e.2.2.toNat) =
      paddedSizes shape edges := by
  rw [List.zip_eq_zipWith, List.zip_eq_zipWith, List.zipWith_self, List.zipWith_map_right,
    List.map_zipWith]
  rfl

theorem paddedSizes_replicate_zero (shape : List Nat) :
    paddedSizes shape (List.replicate shape.length 0) = shape := by
  induction shape with
  | nil => rfl
  | cons n shape ih => simpa [paddedSizes, List.replicate_succ] using ih

theorem shifted_replicate_zero (ix : List Nat) :
    shifted (List.replicate ix.length 0) ix = ix.map Int.ofNat := by
  induction ix with
  | nil => rfl
  | cons i ix ih => simpa [shifted, List.replicate_succ] using ih

end NdArray

namespace Tensor

variable {t : Tensor} {ix : List Nat} {edges : List Int} {v : Binary64}

/-- The element at a position, and a value of its own past the bounds. -/
def readOr (t : Tensor) (v : Binary64) (coordinates : List Int) : Binary64 :=
  match position? t.shape coordinates with
  | some ix => t.entry ix
  | none => v

/-- The element at a position, and zero past the bounds. -/
def read (t : Tensor) (coordinates : List Int) : Binary64 :=
  match position? t.shape coordinates with
  | some ix => t.entry ix
  | none => 0

theorem readOr_zero (t : Tensor) (coordinates : List Int) :
    t.readOr 0 coordinates = t.read coordinates := rfl

theorem readOr_map_ofNat (h : InBounds t.shape ix) :
    t.readOr v (ix.map Int.ofNat) = t.entry ix := by
  rw [readOr, position?_map_ofNat h]

/-- What is read is an element of the type. -/
theorem round_readOr (hv : t.dtype.round v = v) (coordinates : List Int) :
    t.dtype.round (t.readOr v coordinates) = t.readOr v coordinates := by
  rw [readOr]
  split
  · exact t.round_entry _
  · exact hv

/-- The tensor with copies of a value around it. -/
def padded (t : Tensor) (edges : List Int) (v : Binary64) : Tensor :=
  ofEntries t.dtype (paddedSizes t.shape edges) fun ix => t.readOr v (shifted edges ix)

@[simp] theorem dtype_padded (t : Tensor) (edges : List Int) (v : Binary64) :
    (t.padded edges v).dtype = t.dtype := rfl

@[simp] theorem shape_padded (t : Tensor) (edges : List Int) (v : Binary64) :
    (t.padded edges v).shape = paddedSizes t.shape edges := rfl

theorem entry_padded (hv : t.dtype.round v = v) (h : InBounds (paddedSizes t.shape edges) ix) :
    (t.padded edges v).entry ix = t.readOr v (shifted edges ix) := by
  rw [padded, entry_ofEntries h, round_readOr hv]

theorem pad_eq (t : Tensor) (v : Binary64) (hlen : edges.length = t.shape.length)
    (hedges : ∀ e ∈ edges, 0 ≤ e) :
    t.data.pad edges edges v =
      if TooLarge (paddedSizes t.shape edges) then .error (.tooLarge (paddedSizes t.shape edges))
      else .ok (.ofFn (paddedSizes t.shape edges) fun ix => t.readOr v (shifted edges ix)) := by
  have hrank : ¬ (edges.length ≠ t.data.rank ∨ edges.length ≠ t.data.rank) := by
    simp only [or_self, not_not]
    exact hlen
  have hsizes : (t.data.shape.zip (edges.zip edges)).map
      (fun e => e.2.1.toNat + e.1 + e.2.2.toNat) = paddedSizes t.shape edges :=
    map_zip_edges t.shape edges
  unfold NdArray.pad
  rw [if_neg hrank]
  dsimp only
  split
  next lo hi hfind =>
    have hmem := List.mem_of_find?_eq_some hfind
    have hneg := List.find?_some hfind
    obtain ⟨hlo, hhi⟩ := List.of_mem_zip hmem
    have hlo' := hedges _ hlo
    have hhi' := hedges _ hhi
    simp only [Bool.or_eq_true, decide_eq_true_eq] at hneg
    omega
  next =>
    rw [hsizes]
    split
    next => rfl
    next =>
      refine congrArg Except.ok (NdArray.ext_entry rfl fun ix hix => ?_)
      have hix' : InBounds (paddedSizes t.shape edges) ix := hix
      have hlen' : ix.length = t.shape.length := by
        rw [hix'.length_eq, paddedSizes, List.length_zipWith, hlen, Nat.min_self]
      have hsource : sourceIndex? edges (edges.map fun _ => 1) t.data.shape ix =
          position? t.shape (shifted edges ix) := sourceIndex?_ones hlen hlen'
      rw [entry_ofFn _ hix', entry_ofFn _ hix', hsource]
      rfl

theorem pad_eq_ok (t : Tensor) (v : Binary64) (hlen : edges.length = t.shape.length)
    (hedges : ∀ e ∈ edges, 0 ≤ e) (hfit : ¬ TooLarge (paddedSizes t.shape edges)) :
    t.data.pad edges edges v =
      .ok (.ofFn (paddedSizes t.shape edges) fun ix => t.readOr v (shifted edges ix)) :=
  (pad_eq t v hlen hedges).trans (if_neg hfit)

theorem padded_replicate_zero (hv : t.dtype.round v = v) :
    t.padded (List.replicate t.shape.length 0) v = t := by
  refine ext_entry rfl (paddedSizes_replicate_zero t.shape) fun ix hix => ?_
  have hix' : InBounds t.shape ix := by
    rwa [shape_padded, paddedSizes_replicate_zero] at hix
  rw [entry_padded hv hix, ← hix'.length_eq, shifted_replicate_zero, readOr_map_ofNat hix']

end Tensor

end TensorLowering
