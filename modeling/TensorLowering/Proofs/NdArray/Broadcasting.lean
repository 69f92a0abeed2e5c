import TensorLowering.Proofs.NdArray.Results
import TensorLowering.Proofs.NdArray.Stretching

/-!
# Broadcasting

Broadcasting makes shapes a partial commutative monoid in which every shape is idempotent: the
order and the bracketing of several shapes make no difference to their common shape, nor to whether
they have one, and the shape without axes is the unit. Two arrays are combined exactly when their
shapes have a common shape of which an array can be made, entry by entry.
-/
namespace TensorLowering.NdArray

/-! ## Elements -/

/-- The axes of a shape are the last axes of a position of a wider one. The position in the shape
has the coordinates there, and the first one on the axes of size one. -/
def ReadsAt (shape ix jx : List Nat) : Prop :=
  InBounds shape jx ∧ ∀ axis n, shape[axis]? = some n →
    jx[axis]? = if n = 1 then some 0 else ix[ix.length - shape.length + axis]?

theorem readsAt_alignIndex {shape sizes ix : List Nat} (h : StretchesTo shape sizes)
    (hix : InBounds sizes ix) : ReadsAt shape ix (alignIndex shape ix) := by
  refine ⟨h.inBounds hix, fun axis n hn => ?_⟩
  have hle : shape.length ≤ ix.length := hix.length_eq ▸ h.1
  have hlt := (List.getElem?_eq_some_iff.1 hn).1
  have hplace : ix.length - shape.length + axis < ix.length := by omega
  have hpair : (aligned shape ix)[axis]? = some (n, ix[ix.length - shape.length + axis]) :=
    List.getElem?_zip_eq_some.2 ⟨hn, by rw [List.getElem?_drop, List.getElem?_eq_getElem hplace]⟩
  rw [alignIndex, List.getElem?_map, hpair, List.getElem?_eq_getElem hplace]
  exact apply_ite some (n = 1) 0 _

section ZipWith

variable {α β γ : Type} [Inhabited α] [Inhabited β] {x : NdArray α} {y : NdArray β}
  {f : α → β → γ} {shape : List Nat}

theorem zipWith_of_broadcastShape (h : broadcastShape x.shape y.shape = .ok shape)
    (hfit : ¬ TooLarge shape) : x.zipWith f y = .ok (.ofFn shape fun ix =>
      f (x.entry (alignIndex x.shape ix)) (y.entry (alignIndex y.shape ix))) := by
  simp only [zipWith, h, Bind.bind, Except.bind, if_neg hfit]
  rfl

/-- Two arrays are combined when their shapes have a common shape that is not too large. -/
theorem zipWith_eq_ok_iff {z : NdArray γ} : x.zipWith f y = .ok z ↔
    ∃ shape, broadcastShape x.shape y.shape = .ok shape ∧ ¬ TooLarge shape ∧
      z = .ofFn shape fun ix =>
        f (x.entry (alignIndex x.shape ix)) (y.entry (alignIndex y.shape ix)) := by
  constructor
  · intro h
    have hshape := shape_of_zipWith h
    have hfit : ¬ TooLarge z.shape := by
      intro hlarge
      simp only [zipWith, hshape, Bind.bind, Except.bind, if_pos hlarge] at h
      cases h
    have hz := (zipWith_of_broadcastShape hshape hfit).symm.trans h
    exact ⟨z.shape, hshape, hfit, (Except.ok.inj hz).symm⟩
  · rintro ⟨shape, hshape, hfit, rfl⟩
    exact zipWith_of_broadcastShape hshape hfit

end ZipWith

/-- The common shape of several shapes does not depend on their order and bracketing, and neither
does whether there is one; a shape and itself have the shape in common, and so have the shape and
the one without axes. Two arrays are combined exactly when an array of their common shape can be
made, and each element of the result is made of the elements that the arrays have there. -/
theorem broadcasting_laws :
    (∀ a b c, broadcastShape a b = .ok c ↔ broadcastShape b a = .ok c) ∧
    (∀ a, broadcastShape a a = .ok a) ∧
    (∀ a, broadcastShape [] a = .ok a ∧ broadcastShape a [] = .ok a) ∧
    (∀ a b c d, (broadcastShape a b >>= fun ab => broadcastShape ab c) = .ok d ↔
      (broadcastShape b c >>= fun bc => broadcastShape a bc) = .ok d) ∧
    ∀ (α β γ : Type) [Inhabited α] [Inhabited β] [Inhabited γ] (x : NdArray α) (y : NdArray β)
      (f : α → β → γ),
      ((∃ z, x.zipWith f y = .ok z) ↔
        ∃ shape, broadcastShape x.shape y.shape = .ok shape ∧ ¬ TooLarge shape) ∧
      ∀ z, x.zipWith f y = .ok z → broadcastShape x.shape y.shape = .ok z.shape ∧
        ∀ ix, InBounds z.shape ix → ∃ jx kx, ReadsAt x.shape ix jx ∧ ReadsAt y.shape ix kx ∧
          z.entry ix = f (x.entry jx) (y.entry kx) := by
  refine ⟨fun a b c => ⟨broadcastShape_comm, broadcastShape_comm⟩, broadcastShape_self,
    fun a => ⟨broadcastShape_nil_left a, broadcastShape_comm (broadcastShape_nil_left a)⟩,
    fun a b c d => ?_, fun α β γ _ _ _ x y f => ⟨?_, fun z hz => ?_⟩⟩
  · rw [Except.bind_eq_ok, Except.bind_eq_ok]
    constructor
    · rintro ⟨ab, hab, hd⟩
      exact broadcastShape_assoc hab hd
    · -- The other bracketing is this one with the shapes in reverse.
      rintro ⟨bc, hbc, hd⟩
      obtain ⟨ba, hba, hd⟩ := broadcastShape_assoc (broadcastShape_comm hbc)
        (broadcastShape_comm hd)
      exact ⟨ba, broadcastShape_comm hba, broadcastShape_comm hd⟩
  · simp only [zipWith_eq_ok_iff]
    constructor
    · rintro ⟨_, shape, hshape, hfit, -⟩
      exact ⟨shape, hshape, hfit⟩
    · rintro ⟨shape, hshape, hfit⟩
      exact ⟨_, shape, hshape, hfit, rfl⟩
  · obtain ⟨shape, hshape, -, rfl⟩ := zipWith_eq_ok_iff.1 hz
    obtain ⟨hx, hy⟩ := stretchesTo_broadcastShape hshape
    exact ⟨hshape, fun ix hix => ⟨_, _, readsAt_alignIndex hx hix, readsAt_alignIndex hy hix,
      entry_ofFn _ hix⟩⟩

/-- A column of two elements and a row of three. -/
theorem broadcasting_laws_column_row :
    (broadcastShape [2, 1] [3] >>= fun ab => broadcastShape ab [0, 1, 1]) = .ok [0, 2, 3] ∧
    (broadcastShape [3] [0, 1, 1] >>= fun bc => broadcastShape [2, 1] bc) = .ok [0, 2, 3] ∧
    ∃ z, (ofFn [2, 1] fun ix => ix.headD 0).zipWith (· + ·) (ofFn [3] fun ix => ix.headD 0) =
        .ok z ∧
      z.shape = [2, 3] ∧ ∃ jx kx, ReadsAt [2, 1] [1, 2] jx ∧ ReadsAt [3] [1, 2] kx ∧
        z.entry [1, 2] = (ofFn [2, 1] fun ix => ix.headD 0).entry jx +
          (ofFn [3] fun ix => ix.headD 0).entry kx := by
  obtain ⟨-, -, -, hassoc, hzip⟩ := broadcasting_laws
  obtain ⟨hiff, hentries⟩ := hzip Nat Nat Nat (ofFn [2, 1] fun ix => ix.headD 0)
    (ofFn [3] fun ix => ix.headD 0) (· + ·)
  have hleft : (broadcastShape [2, 1] [3] >>= fun ab => broadcastShape ab [0, 1, 1]) =
      .ok [0, 2, 3] := by decide
  have hshape : broadcastShape [2, 1] [3] = .ok [2, 3] := by decide
  obtain ⟨z, hz⟩ := hiff.2 ⟨[2, 3], hshape, by decide⟩
  obtain ⟨hcommon, hread⟩ := hentries z hz
  have hzshape : z.shape = [2, 3] := (Except.ok.inj (hshape.symm.trans hcommon)).symm
  exact ⟨hleft, (hassoc _ _ _ _).1 hleft, z, hz, hzshape, hread [1, 2] (by rw [hzshape]; decide)⟩

end TensorLowering.NdArray
