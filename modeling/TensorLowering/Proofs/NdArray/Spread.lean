import TensorLowering.Proofs.Evaluation.Runs
import TensorLowering.Proofs.NdArray.Tensors

/-!
# Elements that are spread out

Consecutive elements of a source are placed a stride apart in a larger tensor. What lands on a
position is the element whose place that is, if there is one; otherwise the larger tensor keeps its
own.
-/
namespace TensorLowering

open Numeric NdArray

namespace NdArray

/-- Where elements are placed, with a start and a stride an axis. -/
def placed (places : List (Int × Int)) (ix : List Nat) : List Int :=
  List.zipWith (fun place (i : Nat) => place.1 + i * place.2) places ix

theorem sourceCoordinate?_eq_some {start stride : Int} {n i j : Nat} (hstride : 1 ≤ stride) :
    sourceCoordinate? start stride n i = some j ↔ j < n ∧ (i : Int) = start + j * stride := by
  have hne : stride ≠ 0 := by omega
  simp only [sourceCoordinate?]
  constructor
  · intro h
    split at h
    next hfits =>
      obtain ⟨hnonneg, hmod, hlt⟩ := hfits
      cases h
      have hquotient : 0 ≤ ((i : Int) - start) / stride := Int.ediv_nonneg hnonneg (by omega)
      have hback : ((i : Int) - start) / stride * stride = i - start :=
        Int.ediv_mul_cancel (Int.dvd_of_emod_eq_zero hmod)
      refine ⟨by omega, ?_⟩
      rw [Int.toNat_of_nonneg hquotient, hback]
      omega
    next => cases h
  · rintro ⟨hlt, hi⟩
    have hshift : (i : Int) - start = j * stride := by omega
    have hnonneg : (0 : Int) ≤ j * stride := Int.mul_nonneg (by omega) (by omega)
    rw [hshift, Int.mul_emod_left, Int.mul_ediv_cancel _ hne, if_pos ⟨hnonneg, rfl, by omega⟩,
      Int.toNat_natCast]

/-- The element that lands on a position is the one that is placed there. -/
theorem sourceIndex?_eq_some {starts strides : List Int} {shape ix jx : List Nat}
    (hstarts : starts.length = shape.length) (hstrides : strides.length = shape.length)
    (hix : ix.length = shape.length) (hpos : ∀ stride ∈ strides, 1 ≤ stride) :
    sourceIndex? starts strides shape ix = some jx ↔
      InBounds shape jx ∧ ix.map Int.ofNat = placed (starts.zip strides) jx := by
  induction shape generalizing starts strides ix jx with
  | nil =>
      obtain rfl := List.length_eq_zero_iff.1 hstarts
      obtain rfl := List.length_eq_zero_iff.1 hstrides
      obtain rfl := List.length_eq_zero_iff.1 hix
      simp [sourceIndex?, placed, eq_comm, pure]
  | cons n shape ih =>
      cases starts with
      | nil => simp at hstarts
      | cons start starts =>
          cases strides with
          | nil => simp at hstrides
          | cons stride strides =>
              cases ix with
              | nil => simp at hix
              | cons i ix =>
                  have hrest := fun jx => @ih starts strides ix jx (by simpa using hstarts)
                    (by simpa using hstrides) (by simpa using hix) fun s hs => hpos s (by simp [hs])
                  have hfirst := fun j => @sourceCoordinate?_eq_some start stride n i j
                    (hpos stride (by simp))
                  simp only [sourceIndex?] at hrest
                  simp only [sourceIndex?, List.zip_cons_cons, List.mapM_cons, placed,
                    List.map_cons]
                  constructor
                  · intro h
                    obtain ⟨j, hj, h⟩ := Option.bind_eq_some_iff.1 h
                    obtain ⟨rest, hjx, h⟩ := Option.bind_eq_some_iff.1 h
                    cases h
                    obtain ⟨hlt, hi⟩ := (hfirst j).1 hj
                    obtain ⟨hin, hix⟩ := (hrest rest).1 hjx
                    refine ⟨⟨hlt, hin⟩, ?_⟩
                    rw [List.zipWith_cons_cons, hix]
                    exact congrArg (· :: _) hi
                  · rintro ⟨hin, hplaced⟩
                    obtain ⟨j, rest, rfl, hlt, hrestIn⟩ := inBounds_cons.1 hin
                    rw [List.zipWith_cons_cons, List.cons.injEq] at hplaced
                    rw [(hfirst j).2 ⟨hlt, hplaced.1⟩, (hrest rest).2 ⟨hrestIn, hplaced.2⟩]
                    rfl

/-- An axis on which elements keep their places. -/
theorem sourceIndex?_cons {starts strides : List Int} {shape ix : List Nat} {n i : Nat}
    (hi : i < n) :
    sourceIndex? (0 :: starts) (1 :: strides) (n :: shape) (i :: ix) =
      (sourceIndex? starts strides shape ix).map (i :: ·) := by
  have hfirst : sourceCoordinate? 0 1 n i = some i :=
    (sourceCoordinate?_eq_some (by decide)).2 ⟨hi, by omega⟩
  rw [Option.map_eq_bind]
  simp only [sourceIndex?, List.zip_cons_cons, List.mapM_cons, hfirst]
  rfl

end NdArray

/-- A slice of the given number of elements lies within an axis. -/
def SliceFits (n size : Nat) (start stride : Int) : Prop :=
  0 ≤ start ∧ 1 ≤ stride ∧ (if n = 0 then start else start + (n - 1) * stride + 1) ≤ size

namespace NdArray

variable {α : Type} [Inhabited α] {source dest out : NdArray α} {starts strides : List Int}

theorem checkSlice_eq_ok_iff {axis n size : Nat} {start stride : Int} :
    checkSlice axis n size start stride = .ok () ↔ SliceFits n size start stride := by
  unfold checkSlice SliceFits
  dsimp only
  generalize (if n = 0 then start else start + (n - 1) * stride + 1) = stop
  split
  next hoff => exact ⟨nofun, fun hfits => absurd hfits (by omega)⟩
  next hfits => exact ⟨fun _ => by omega, fun _ => rfl⟩

/-- What a position holds after elements have landed. -/
def landed (source dest : NdArray α) (starts strides : List Int) (ix : List Nat) : α :=
  match sourceIndex? starts strides source.shape ix with
  | some jx => source.entry jx
  | none => dest.entry ix

/-- Elements are written when the slice lies within the array on every axis. -/
theorem insertSlice_eq_ok_iff (hsource : source.rank = dest.rank)
    (hstarts : starts.length = dest.rank) (hstrides : strides.length = dest.rank) :
    source.insertSlice dest starts strides = .ok out ↔
      (∀ e ∈ (starts.zip strides).zip (source.shape.zip dest.shape),
        SliceFits e.2.1 e.2.2 e.1.1 e.1.2) ∧
      out = .ofFn dest.shape (landed source dest starts strides) := by
  have hranks : ¬ (source.rank ≠ dest.rank ∨ starts.length ≠ dest.rank ∨
      strides.length ≠ dest.rank) := by simp [hsource, hstarts, hstrides]
  unfold insertSlice
  rw [if_neg hranks]
  constructor
  · intro h
    obtain ⟨⟨⟩, hchecks, h⟩ := Except.bind_eq_ok.1 h
    refine ⟨fun e he => ?_, (Except.ok.inj h).symm⟩
    obtain ⟨axis, haxis, rfl⟩ := List.getElem_of_mem he
    exact checkSlice_eq_ok_iff.1 (Except.eq_ok_of_forM hchecks (_, axis)
      (List.mem_zipIdx_iff_getElem?.2 (List.getElem?_eq_getElem haxis)))
  · rintro ⟨hfits, rfl⟩
    have hchecks : ((starts.zip strides).zip (source.shape.zip dest.shape)).zipIdx.forM
        (fun e => checkSlice e.2 e.1.2.1 e.1.2.2 e.1.1.1 e.1.1.2) = .ok () :=
      forM_eq_ok fun e he => checkSlice_eq_ok_iff.2 (hfits e.1 (List.fst_mem_of_mem_zipIdx he))
    exact congrArg (· >>= fun _ => _) hchecks

end NdArray

namespace Tensor

variable {t u : Tensor} {starts strides : List Int} {ix : List Nat}

/-- What a position holds after elements have landed. -/
def landing (t u : Tensor) (starts strides : List Int) (ix : List Nat) : Binary64 :=
  match sourceIndex? starts strides t.shape ix with
  | some jx => t.entry jx
  | none => u.entry ix

theorem round_landing (hdtype : t.dtype = u.dtype) (starts strides : List Int) (ix : List Nat) :
    t.dtype.round (t.landing u starts strides ix) = t.landing u starts strides ix := by
  unfold landing
  split
  · exact t.round_entry _
  · rw [hdtype]
    exact u.round_entry _

/-- A tensor with the elements of another one in it. -/
def inserted (t u : Tensor) (starts strides : List Int) : Tensor :=
  ofEntries t.dtype u.shape (t.landing u starts strides)

@[simp] theorem dtype_inserted : (t.inserted u starts strides).dtype = t.dtype := rfl

@[simp] theorem shape_inserted : (t.inserted u starts strides).shape = u.shape := rfl

theorem entry_inserted (hdtype : t.dtype = u.dtype) (h : InBounds u.shape ix) :
    (t.inserted u starts strides).entry ix = t.landing u starts strides ix := by
  rw [inserted, entry_ofEntries h, round_landing hdtype]

theorem insertSlice_eq_ok (hstarts : starts.length = t.shape.length)
    (hstrides : strides.length = t.shape.length) (hsizes : u.shape.length = t.shape.length)
    (hfits : ∀ e ∈ (starts.zip strides).zip (t.shape.zip u.shape),
      SliceFits e.2.1 e.2.2 e.1.1 e.1.2) :
    t.data.insertSlice u.data starts strides =
      .ok (.ofFn u.shape (t.landing u starts strides)) :=
  (insertSlice_eq_ok_iff hsizes.symm (hstarts.trans hsizes.symm)
    (hstrides.trans hsizes.symm)).2 ⟨hfits, rfl⟩

end Tensor

end TensorLowering
