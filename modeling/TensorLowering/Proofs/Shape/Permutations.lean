import Mathlib.Data.Fintype.EquivFin
import TensorLowering.Proofs.Convolution.ChannelLast

/-!
# Permutations and their inverses

The lists that are accepted as permutations of some axes are the bijections of these axes. The
inverse of an accepted list is the list that undoes it, on shapes as on tensors, and the order that
puts channels last is undone by the one that puts them back in the second place.
-/
namespace TensorLowering

open NdArray

namespace Permutation

variable {p q : Permutation} {n : Nat}

/-! ## Bijections -/

theorem IsValid.exists_equiv (hp : p.IsValid n) :
    ∃ e : Equiv.Perm (Fin n), p.axes = List.ofFn fun i => (e i : Nat) := by
  have hlen := hp.1
  subst hlen
  let f : Fin p.axes.length → Fin p.axes.length := fun i =>
    ⟨p.axes[i], hp.2.1 _ (List.getElem_mem i.2)⟩
  -- No axis is named twice, and as many are named as there are.
  have hinj : Function.Injective f := fun i j hij =>
    Fin.ext ((List.Nodup.getElem_inj_iff hp.2.2).1 (congrArg Fin.val hij))
  refine ⟨Equiv.ofBijective f (Finite.injective_iff_bijective.1 hinj), ?_⟩
  exact List.ofFn_getElem.symm

theorem isValid_ofFn (e : Equiv.Perm (Fin n)) : IsValid ⟨List.ofFn fun i => (e i : Nat)⟩ n := by
  refine ⟨List.length_ofFn, fun axis haxis => ?_, ?_⟩
  · obtain ⟨i, rfl⟩ := (List.mem_ofFn' _ _).1 haxis
    exact (e i).2
  · exact List.nodup_ofFn.2 (Fin.val_injective.comp e.injective)

theorem isValid_iff_exists_equiv :
    p.IsValid n ↔ ∃ e : Equiv.Perm (Fin n), p.axes = List.ofFn fun i => (e i : Nat) := by
  refine ⟨IsValid.exists_equiv, fun ⟨e, he⟩ => ?_⟩
  have hvalid := isValid_ofFn e
  rwa [← he] at hvalid

/-! ## Inverses -/

theorem apply_range (hp : p.IsValid n) : p.apply (List.range n) = p.axes := by
  refine List.ext_getElem (length_apply ..) fun i hi hi' => ?_
  have hlt : p.axes[i] < n := hp.2.1 _ (List.getElem_mem hi')
  simp [apply, hlt]

/-- What undoes a permutation is its inverse. -/
theorem inverse_eq (hp : p.IsValid n) (hq : q.IsValid n)
    (hback : ∀ xs : List Nat, xs.length = n → q.apply (p.apply xs) = xs) : p.inverse = q := by
  have hlen : (p.inverse.apply (List.range n)).length = n := by
    rw [length_apply, length_inverse, hp.1]
  have hsame := hback _ hlen
  rw [apply_inverse_apply hp List.length_range, apply_range hq, apply_range hp.inverse] at hsame
  exact congrArg Permutation.mk hsame.symm

theorem inverse_inverse (hp : p.IsValid n) : p.inverse.inverse = p :=
  inverse_eq hp.inverse hp fun _ hlen => apply_inverse_apply hp hlen

theorem inverse_channelLast {rank : Nat} (h : 2 ≤ rank) :
    (channelLast rank).inverse = channelFirst rank := by
  obtain ⟨r, rfl⟩ := Nat.exists_eq_add_of_le' h
  exact inverse_eq (isValid_channelLast r) (isValid_channelFirst r)
    fun _ hlen => apply_channelFirst_channelLast r hlen

/-! ## Shapes and tensors -/

/-- Dimensions that are reordered are put back by the inverse. -/
theorem permuted_permuted {s : Shape} (hp : p.IsValid s.rank) :
    ∃ c, s.permuted p = .ok c ∧ c.permuted p.inverse = .ok s := by
  let _ : Inhabited Dim := ⟨.dynamic⟩
  have hmoved : s.permuted p = .ok ⟨p.apply s.dims⟩ := by
    rw [Shape.permuted, hp.check]
    rfl
  have hback : (Shape.mk (p.apply s.dims)).permuted p.inverse =
      .ok ⟨p.inverse.apply (p.apply s.dims)⟩ := by
    have hcheck : p.inverse.check (Shape.mk (p.apply s.dims)).rank = .ok () := by
      rw [Shape.rank, length_apply, hp.1]
      exact hp.inverse.check
    rw [Shape.permuted, hcheck]
    rfl
  rw [inverse_apply_apply hp rfl] at hback
  exact ⟨_, hmoved, hback⟩

/-- The lists that are accepted are the bijections of the axes. The inverse of an accepted list is
accepted, its own inverse is the list again, and it puts back the dimensions of a shape and the
entries of a tensor that the list moves. Channels that are put last are put back in the second
place by the inverse. -/
theorem bijections_undone :
    (∀ (p : Permutation) (rank : Nat), p.check rank = .ok () ↔
      ∃ e : Equiv.Perm (Fin rank), p.axes = List.ofFn fun i => (e i : Nat)) ∧
    (∀ (p : Permutation) (rank : Nat), p.check rank = .ok () →
      p.inverse.check rank = .ok () ∧ p.inverse.inverse = p ∧
      (∀ s : Shape, s.rank = rank → ∃ c, s.permuted p = .ok c ∧ c.permuted p.inverse = .ok s) ∧
      ∀ t : Tensor, t.shape.length = rank → ∃ c : Tensor, c.dtype = t.dtype ∧
        c.shape = p.apply t.shape ∧
        (∀ ix, InBounds t.shape ix → c.entry (p.apply ix) = t.entry ix) ∧
        (∀ (supply : Supply) (env : Env) v shape, env.tensor v = .ok t →
          evalNode supply env ⟨.transpose v p, .tensor ⟨t.dtype, shape⟩⟩ = .ok (.tensor c)) ∧
        ∀ (supply : Supply) (env : Env) w shape, env.tensor w = .ok c →
          evalNode supply env ⟨.transpose w p.inverse, .tensor ⟨t.dtype, shape⟩⟩ =
            .ok (.tensor t)) ∧
    ∀ rank, 2 ≤ rank → (channelLast rank).inverse = channelFirst rank := by
  refine ⟨fun p rank => check_eq_ok.trans isValid_iff_exists_equiv, fun p rank hcheck => ?_,
    fun rank => inverse_channelLast⟩
  have hp := check_eq_ok.1 hcheck
  refine ⟨hp.inverse.check, inverse_inverse hp, fun s hs => permuted_permuted (hs ▸ hp),
    fun t ht => ?_⟩
  subst ht
  have hback : p.inverse.IsValid (t.transposed p).shape.length := by
    rw [Tensor.shape_transposed, length_apply, hp.1]
    exact hp.inverse
  refine ⟨t.transposed p, rfl, rfl, fun ix hix => Tensor.entry_transposed hp hix,
    fun _ _ _ _ hv => evalNode_transpose hp hv, fun _ _ _ _ hw => ?_⟩
  refine (evalNode_transpose (t := t.transposed p) hback hw).trans ?_
  rw [t.transposed_inverse hp]

/-- The elements 0 to 5, in two rows. -/
def rows : Tensor := .ofEntries .float32 [1, 2, 3] fun ix => .ofInt (ravel [1, 2, 3] ix)

theorem bijections_undone_rotation :
    (Permutation.mk [2, 0, 1]).check 3 = .ok () ∧
    (∃ e : Equiv.Perm (Fin 3), [2, 0, 1] = List.ofFn fun i => (e i : Nat)) ∧
    (∃ c, (Shape.mk [.static 2, .dynamic, .static 4]).permuted ⟨[2, 0, 1]⟩ = .ok c ∧
      c.permuted (Permutation.mk [2, 0, 1]).inverse = .ok ⟨[.static 2, .dynamic, .static 4]⟩) ∧
    (∃ c, evalNode (.ofInputs fun _ => none) (Env.empty.insert ⟨0⟩ (.tensor rows))
        ⟨.transpose ⟨0⟩ ⟨[2, 0, 1]⟩, .tensor ⟨.float32, .ofSizes [3, 1, 2]⟩⟩ = .ok (.tensor c) ∧
      evalNode (.ofInputs fun _ => none) (Env.empty.insert ⟨1⟩ (.tensor c))
        ⟨.transpose ⟨1⟩ (Permutation.mk [2, 0, 1]).inverse, .tensor rows.type⟩ =
          .ok (.tensor rows)) ∧
    (channelLast 4).inverse = channelFirst 4 := by
  obtain ⟨hiff, hundone, hchannels⟩ := bijections_undone
  obtain ⟨-, -, hshape, htensor⟩ := hundone ⟨[2, 0, 1]⟩ 3 (by decide)
  obtain ⟨c, -, -, -, hmove, hback⟩ := htensor rows rfl
  have hheld : ∀ (id : ValueId) (t : Tensor),
      (Env.empty.insert id (.tensor t)).tensor id = .ok t := fun id t => by
    simp [Env.tensor, Env.get, Env.get?_insert, Value.toTensor, Bind.bind, Except.bind]
  exact ⟨by decide, (hiff _ 3).1 (by decide), hshape _ rfl,
    ⟨c, hmove _ _ _ _ (hheld _ _), hback _ _ _ _ (hheld _ _)⟩, hchannels 4 (by decide)⟩

end Permutation

end TensorLowering
