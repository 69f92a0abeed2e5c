import TensorLowering.Proofs.NdArray.Stretching
import TensorLowering.Proofs.NdArray.Tensors

/-!
# Vectors along the channel axis

A vector gets unit axes for the batch and for every spatial axis, one after the other, and is then
stretched. Each position of the result has the entry of its channel.
-/
namespace TensorLowering

open Numeric NdArray

/-- The axes of a result of the given rank other than the channel axis. -/
def otherAxes (rank : Nat) : List Nat := (List.range rank).filter (· ≠ 1)

theorem otherAxes_add_two (k : Nat) : otherAxes (k + 2) = 0 :: List.range' 2 k := by
  have hrange : List.range (k + 2) = 0 :: 1 :: List.range' 2 k := by
    rw [List.range_eq_range', List.range'_succ, List.range'_succ]
  rw [otherAxes, hrange]
  simp only [List.filter_cons, ne_eq, Nat.zero_ne_one, not_false_eq_true, decide_true, ↓reduceIte,
    not_true_eq_false, decide_false, Bool.false_eq_true, List.cons.injEq, true_and]
  refine List.filter_eq_self.2 fun i hi => ?_
  have hle := (List.mem_range'_1.1 hi).1
  simp only [decide_eq_true_eq]
  omega

theorem mergeSort_otherAxes (k : Nat) :
    (otherAxes (k + 2)).mergeSort (· ≤ ·) = otherAxes (k + 2) := by
  refine List.mergeSort_of_pairwise ?_
  rw [otherAxes_add_two, List.pairwise_cons]
  refine ⟨fun i _ => by simp, ?_⟩
  exact (List.pairwise_lt_range' 1).imp fun h => decide_eq_true (Nat.le_of_lt h)

namespace Tensor

variable {b : Tensor} {m : Nat}

/-- The vector with a unit axis before it and some behind it. -/
def channelArray (b : Tensor) (m k : Nat) : NdArray Binary64 :=
  .ofFn (1 :: m :: List.replicate k 1) fun ix => b.entry [ix.getD 1 0]

theorem insertAxis_zero (hb : b.shape = [m]) : b.data.insertAxis 0 = b.channelArray m 0 := by
  have hshape : b.data.shape = [m] := hb
  refine NdArray.ext_entry (by simp [insertAxis, channelArray, hshape]) fun ix hix => ?_
  have hix' : InBounds [1, m] ix := by simpa [insertAxis, hshape] using hix
  obtain ⟨i, rest, rfl, -, hrest⟩ := inBounds_cons.1 hix'
  obtain ⟨j, rfl, -⟩ := inBounds_singleton.1 hrest
  have hinsert : b.data.shape.insertIdx 0 1 = [1, m] := by simp [hshape]
  have hentry : (b.channelArray m 0).entry [i, j] = b.entry [j] := entry_ofFn _ hix'
  rw [insertAxis, entry_ofFn _ (hinsert ▸ hix'), hentry]
  rfl

theorem insertAxis_channelArray (b : Tensor) (m k : Nat) :
    (b.channelArray m k).insertAxis (k + 2) = b.channelArray m (k + 1) := by
  have hshape : (1 :: m :: List.replicate k 1).insertIdx (k + 2) 1 =
      1 :: m :: List.replicate (k + 1) 1 := by
    have hself := List.insertIdx_length_self (l := 1 :: m :: List.replicate k 1) (x := 1)
    simpa [List.replicate_succ'] using hself
  refine NdArray.ext_entry hshape fun ix hix => ?_
  have hix' : InBounds (1 :: m :: List.replicate (k + 1) 1) ix := hshape ▸ hix
  have hsplit : 1 :: m :: List.replicate (k + 1) 1 = (1 :: m :: List.replicate k 1) ++ [1] := by
    simp [List.replicate_succ']
  rw [hsplit] at hix'
  obtain ⟨x, y, rfl, hx, hy⟩ := hix'.exists_append
  obtain ⟨j, rfl, hj⟩ := inBounds_singleton.1 hy
  have hlen : x.length = k + 2 := by simpa using hx.length_eq
  have herase : (x ++ [j]).eraseIdx (k + 2) = x := by
    rw [List.eraseIdx_append_of_length_le (by omega), hlen]
    simp
  have hone : 1 < x.length := by omega
  have hinsert : InBounds ((b.channelArray m k).shape.insertIdx (k + 2) 1) (x ++ [j]) := hix
  have hbefore : (b.channelArray m k).entry x = b.entry [x.getD 1 0] := entry_ofFn _ hx
  have hafter : (b.channelArray m (k + 1)).entry (x ++ [j]) = b.entry [(x ++ [j]).getD 1 0] :=
    entry_ofFn _ (hsplit ▸ hx.append hy)
  have hcoordinate : (x ++ [j]).getD 1 0 = x.getD 1 0 := by
    simp [List.getElem?_append_left hone]
  rw [insertAxis, entry_ofFn _ hinsert, herase, hbefore, hafter, hcoordinate]

theorem foldlM_insertAxis (b : Tensor) (m j k : Nat) :
    (List.range' (j + 2) k).foldlM (fun (c : NdArray Binary64) axis =>
      if c.rank < axis then Except.error (ArrayError.cannotAddAxis axis c.rank)
      else Except.ok (c.insertAxis axis)) (b.channelArray m j) =
        .ok (b.channelArray m (j + k)) := by
  induction k generalizing j with
  | zero => rfl
  | succ k ih =>
      have hrank : ¬ (b.channelArray m j).rank < j + 2 := by simp [channelArray, NdArray.rank]
      have hnext := ih (j + 1)
      rw [Nat.add_right_comm j 1 2, Nat.add_assoc j 1 k, Nat.add_comm 1 k] at hnext
      rw [List.range'_succ, List.foldlM_cons, if_neg hrank, insertAxis_channelArray]
      exact hnext

/-- The vector with one entry for each channel, repeated along the other axes. -/
def alongChannels (b : Tensor) (sizes : List Nat) : Tensor :=
  ofEntries b.dtype sizes fun ix => b.entry [ix.getD 1 0]

theorem alignIndex_channel {n k : Nat} {out o : List Nat} {i j : Nat} (hk : k = out.length)
    (ho : o.length = out.length) :
    [(alignIndex (1 :: m :: List.replicate k 1) (n :: i :: o)).getD 1 j] = alignIndex [m] [i] := by
  subst hk
  have halign : aligned (1 :: m :: List.replicate out.length 1) (n :: i :: o) =
      (1, n) :: (m, i) :: (List.replicate out.length 1).zip o := by
    rw [aligned_eq_zip (by simp [ho])]
    rfl
  rw [alignIndex, halign]
  rfl

/-- A vector is stretched along the channel axis and repeated along the others. -/
theorem broadcastAdded_vector (n f : Nat) (out : List Nat) (hb : b.shape = [m]) :
    b.data.broadcastAdded (n :: f :: out) (otherAxes (out.length + 2)) =
      if StretchesTo [m] [f] ∧ ¬ TooLarge (n :: f :: out) then
        .ok (.ofFn (n :: f :: out) fun ix => b.entry (alignIndex [m] [ix.getD 1 0]))
      else .error (.cannotBroadcast (1 :: m :: List.replicate out.length 1) (n :: f :: out)) := by
  have hrank : ¬ b.data.rank < 0 := Nat.not_lt_zero _
  have hfold := foldlM_insertAxis b m 0 out.length
  rw [Nat.zero_add, Nat.zero_add] at hfold
  have hunits : List.Forall₂ (fun n k => n = 1 ∨ n = k) (List.replicate out.length 1) out :=
    List.forall₂_iff_get.2 ⟨by simp, fun i hi hi' => .inl (by simp)⟩
  have hstretch : StretchesTo (1 :: m :: List.replicate out.length 1) (n :: f :: out) ↔
      StretchesTo [m] [f] := by
    rw [stretchesTo_iff (by simp), stretchesTo_singleton, List.forall₂_cons, List.forall₂_cons]
    exact ⟨fun h => h.2.1, fun h => ⟨.inl rfl, h, hunits⟩⟩
  rw [broadcastAdded, mergeSort_otherAxes, otherAxes_add_two, List.foldlM_cons, if_neg hrank,
    insertAxis_zero hb]
  simp only [bind, Except.bind]
  rw [hfold]
  refine ite_congr (congrArg (· ∧ _) (propext hstretch)) (fun h => congrArg Except.ok ?_)
    fun _ => rfl
  refine NdArray.ext_entry rfl fun ix hix => ?_
  have hix' : InBounds (n :: f :: out) ix := hix
  refine (entry_ofFn _ hix').trans ?_
  rw [entry_ofFn _ hix', channelArray, shape_ofFn, entry_ofFn _ ((hstretch.2 h.1).inBounds hix')]
  obtain ⟨i, rest, rfl, -, hrest⟩ := inBounds_cons.1 hix'
  obtain ⟨j, o, rfl, -, ho⟩ := inBounds_cons.1 hrest
  rw [alignIndex_channel rfl ho.length_eq]
  rfl

end Tensor

end TensorLowering
