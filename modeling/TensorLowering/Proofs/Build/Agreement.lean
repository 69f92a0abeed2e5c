import TensorLowering.Proofs.Build.Facts
import TensorLowering.Proofs.NdArray.Stretching

/-!
# Known sizes that agree

Checks of known sizes create nothing, and the common sizes of two shapes are found while the program
is built.
-/
namespace TensorLowering.Build

open Numeric NdArray Stage

variable {fails : LowerError → Prop} {s : Stage} {lhs rhs : Size} {zs zs' : List Size}
  {ms ns : List Nat}

/-- The common size of two known sizes is one of them. -/
theorem broadcastSize_known {m n axis : Nat} (hm : lhs.known = some (m : Int))
    (hn : rhs.known = some (n : Int))
    (hfails : commonSize? m n = none → ∀ what x y, fails (.staticShapeMismatch what x y)) :
    (broadcastSize lhs rhs axis).Gives fails s fun z s' => s' = s ∧
      (commonSize? m n = some m ∧ z = lhs ∨ commonSize? m n = some n ∧ z = rhs) := by
  have hone : ∀ {z : Size} {n : Nat}, z.known = some (n : Int) → (z.isOne = true ↔ n = 1) := by
    intro z n hz
    simp only [Size.isOne, hz, beq_iff_eq, Option.some.injEq]
    omega
  have hsame : (lhs.known.isSome = true ∧ lhs.known = rhs.known) ↔ m = n := by
    simp only [hm, hn, Option.isSome_some, true_and, Option.some.injEq]
    omega
  simp only [broadcastSize, hsame, hone hm, hone hn]
  unfold commonSize? at hfails ⊢
  split
  next => exact .pure ⟨rfl, .inl ⟨rfl, rfl⟩⟩
  next =>
    split
    next => exact .pure ⟨rfl, .inr ⟨rfl, rfl⟩⟩
    next =>
      split
      next => exact .pure ⟨rfl, .inl ⟨rfl, rfl⟩⟩
      next hm1 hn1 hne =>
        rw [if_neg hm1, if_neg hn1, if_neg hne] at hfails
        rw [hm, hn]
        exact hfails rfl _ _ _

theorem broadcastSize_gives {m n k axis : Nat} (hm : s.HasIndex lhs m) (hn : s.HasIndex rhs n)
    (hk : commonSize? m n = some k) :
    (broadcastSize lhs rhs axis).Gives fails s fun z s' => s'.HasIndex z k := by
  refine (broadcastSize_known hm.known hn.known fun hnone => ?_).weaken fun z s' hle hz => ?_
  · cases hnone.symm.trans hk
  · rcases hz.2 with ⟨hsize, rfl⟩ | ⟨hsize, rfl⟩
    · obtain rfl := Option.some.inj (hsize.symm.trans hk)
      exact hm.mono hle
    · obtain rfl := Option.some.inj (hsize.symm.trans hk)
      exact hn.mono hle

/-- The common sizes of axes that correspond. -/
theorem mapM_broadcastSize_gives {pairs : List (Size × Size)} {known : List (Nat × Nat)}
    {sizes : List Nat} {axis : Nat}
    (hpairs : List.Forall₂ (fun z n => s.HasIndex z.1 n.1 ∧ s.HasIndex z.2 n.2) pairs
      (known.map fun n => ((n.1 : Int), (n.2 : Int))))
    (hcommon : Common known sizes) :
    ((pairs.zipIdx axis).mapM fun ((m, n), axis) => broadcastSize m n axis).Gives fails s
      fun zs s' => s'.HasSizes zs sizes := by
  induction hcommon generalizing s pairs axis with
  | nil =>
      cases hpairs
      exact .pure .nil
  | cons hk _ ih =>
      cases hpairs with
      | @cons z _ pairs _ hz hrest =>
          rw [List.zipIdx_cons, List.mapM_cons]
          refine Gives.bind (broadcastSize_gives hz.1 hz.2 hk) fun y s₁ hle₁ hy => ?_
          have hrest₁ := List.Forall₂.imp
            (fun _ _ h => And.intro (h.1.mono hle₁) (h.2.mono hle₁)) hrest
          refine Gives.bind (ih hrest₁) fun ys s₂ hle₂ hys => ?_
          exact .pure (.cons (hy.mono hle₂) hys)

theorem broadcastSizes_gives {sizes : List Nat} (hl : s.HasSizes zs ms) (hr : s.HasSizes zs' ns)
    (hsizes : broadcastShape ms ns = .ok sizes) :
    (broadcastSizes zs zs').Gives fails s fun ys s' => s'.HasSizes ys sizes := by
  obtain ⟨inner, hinner, rfl⟩ := broadcastShape_eq_ok hsizes
  have hlen := hl.length_eq
  have hlen' := hr.length_eq
  have htake : ∀ {zs : List Size} {ns : List Nat} (n : Nat), s.HasSizes zs ns →
      s.HasSizes (zs.take n) (ns.take n) := fun n h => List.forall₂_take n h
  have hdrop : ∀ {zs : List Size} {ns : List Nat} (n : Nat), s.HasSizes zs ns →
      s.HasSizes (zs.drop n) (ns.drop n) := fun n h => List.forall₂_drop n h
  have hzip : ∀ {zs zs' : List Size} {ms ns : List Nat}, s.HasSizes zs ms → s.HasSizes zs' ns →
      List.Forall₂ (fun z n => s.HasIndex z.1 n.1 ∧ s.HasIndex z.2 n.2) (zs.zip zs')
        ((ms.zip ns).map fun n => ((n.1 : Int), (n.2 : Int))) := by
    intro zs zs' ms ns h h'
    induction h generalizing zs' ns with
    | nil => simp
    | cons hz _ ih =>
        cases h' with
        | nil => simp
        | cons hz' h' => exact .cons ⟨hz, hz'⟩ (ih h')
  simp only [broadcastSizes, hlen, hlen']
  refine Gives.bind (mapM_broadcastSize_gives (hzip (hdrop _ hl) (hdrop _ hr)) hinner) ?_
  intro ys s₁ hle₁ hys
  have houter : s.HasSizes (zs.take (ms.length - ns.length) ++ zs'.take (ns.length - ms.length))
      (ms.take (ms.length - ns.length) ++ ns.take (ns.length - ms.length)) :=
    List.rel_append (htake _ hl) (htake _ hr)
  exact .pure (List.rel_append (houter.mono hle₁) hys)

/-- The sizes that known sizes are broadcast to, if there are any. -/
theorem broadcastSizes_known (hl : s.KnowsSizes zs ms) (hr : s.KnowsSizes zs' ns) :
    (broadcastSizes zs zs').Gives (fun _ => True) s fun ys s' =>
      ∃ sizes, broadcastShape ms ns = .ok sizes ∧ s'.KnowsSizes ys sizes := by
  have hmapM : ∀ {zs zs' : List Size} {ms ns : List Nat}, s.KnowsSizes zs ms → s.KnowsSizes zs' ns →
      ∀ axis : Nat, (((zs.zip zs').zipIdx axis).mapM fun ((m, n), axis) =>
        broadcastSize m n axis).Gives (fun _ => True) s fun ys s' => s' = s ∧
          ∃ sizes, Common (ms.zip ns) sizes ∧ s'.KnowsSizes ys sizes := by
    intro zs zs' ms ns hl hr
    induction hl generalizing zs' ns with
    | nil => exact fun _ => .pure ⟨rfl, [], .nil, .nil⟩
    | @cons z m zs ms hz _ ih =>
        cases hr with
        | nil => exact fun _ => .pure ⟨rfl, [], .nil, .nil⟩
        | @cons z' n zs' ns hz' hr =>
            intro axis
            rw [List.zip_cons_cons, List.zipIdx_cons, List.mapM_cons]
            refine Gives.bind (broadcastSize_known hz.known hz'.known fun _ _ _ _ => trivial) ?_
            rintro y s₁ - ⟨rfl, hy⟩
            refine Gives.bind (ih hr (axis + 1)) ?_
            rintro ys s₂ - ⟨rfl, sizes, hcommon, hys⟩
            rcases hy with ⟨hsize, rfl⟩ | ⟨hsize, rfl⟩
            · exact .pure ⟨rfl, m :: sizes, .cons hsize hcommon, .cons hz hys⟩
            · exact .pure ⟨rfl, n :: sizes, .cons hsize hcommon, .cons hz' hys⟩
  have hlen := List.Forall₂.length_eq hl
  have hlen' := List.Forall₂.length_eq hr
  have hdrop : ∀ {zs : List Size} {ns : List Nat} (n : Nat), s.KnowsSizes zs ns →
      s.KnowsSizes (zs.drop n) (ns.drop n) := fun n h => List.forall₂_drop n h
  simp only [broadcastSizes, hlen, hlen']
  refine Gives.bind (hmapM (hdrop _ hl) (hdrop _ hr) _) ?_
  rintro ys s' - ⟨rfl, sizes, hcommon, hys⟩
  exact .pure ⟨_, broadcastShape_of_common hcommon, List.rel_append
    (List.rel_append (List.forall₂_take _ hl) (List.forall₂_take _ hr)) hys⟩

end TensorLowering.Build
