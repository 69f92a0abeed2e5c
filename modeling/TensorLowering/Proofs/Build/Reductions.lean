import TensorLowering.Proofs.Build.Tensors
import TensorLowering.Proofs.Reduction.Reordered

/-!
# Reductions in a construction

The node of a reduction whose loops run without an error has a value, and when the outer loops run
over the output, its entries are sums over the inner loops.
-/
namespace TensorLowering.Build

open Numeric NdArray Stage

variable {fails : LowerError → Prop} {s : Stage} {spec : ReductionSpec} {indexing : Indexing}
  {lhs rhs init : ValueId} {a b c : Tensor} {ids : Option (ValueId × ValueId)}
  {zs : Option (Binary64 × Binary64)}

/-- A reduction whose loops run without an error. -/
theorem reduce_gives {out : NdArray Binary64} (hindexing : spec.indexing? = some indexing)
    (hquantized : spec.isQuantized = zs.isSome) (ha : s.Holds lhs a) (hb : s.Holds rhs b)
    (hc : s.Holds init c) (hz : s.HasZeroPoints ids zs)
    (hranks : List.Forall₂ (fun shape m => shape.length = m.results.length)
      [a.shape, b.shape, c.shape] indexing.maps)
    (hout : NdArray.reduce indexing spec.combine (a.widened spec.cast) (b.widened spec.cast)
      (zs.getD (0, 0)) c.data = .ok out)
    (hshape : out.shape = c.shape) :
    (reduce spec lhs rhs ids init).Gives fails s fun v s' =>
      s'.Holds v (.ofArray c.dtype out) := by
  obtain ⟨maps, iterators⟩ := indexing
  cases hranks with
  | @cons _ lhsMap _ maps ha' hranks =>
  cases hranks with
  | @cons _ rhsMap _ maps hb' hranks =>
  cases hranks with
  | @cons _ outMap _ maps hc' hranks =>
  cases hranks
  have hcheck : ∀ {β : Type} {v : ValueId} {t : Tensor} {m : AffineMap} {i : Nat}
      {next : Unit → Build β} {post : β → Stage → Prop}, s.Holds v t →
      t.shape.length = m.results.length → (next ()).Gives fails s post →
      (checkOperand spec.name i v m >>= next).Gives fails s post := by
    intro β v t m i next post hv hrank hnext
    have hunit : (checkOperand spec.name i v m).Gives fails s fun _ s' => s' = s := by
      refine .tensorType hv ?_
      have hrank' : t.type.rank = m.results.length := by rw [Tensor.rank_type, hrank]
      simp only [hrank', ↓reduceIte]
      exact .pure rfl
    refine hunit.bind ?_
    rintro ⟨⟩ s' - rfl
    exact hnext
  unfold reduce
  simp only [hindexing, List.zip_cons_cons, List.zip_nil_right, List.zipIdx_cons, List.zipIdx_nil,
    List.forM_eq_forM, List.forM_cons, List.forM_nil, LawfulMonad.bind_assoc,
    LawfulMonad.pure_bind]
  refine hcheck ha ha' (hcheck hb hb' (hcheck hc hc' (.tensorType hc ?_)))
  have htype : (Tensor.ofArray c.dtype out).type = c.type := by
    rw [Tensor.type, Tensor.type, Tensor.shape_ofArray, hshape, Tensor.dtype_ofArray]
  rw [← htype]
  refine .create ?_ (s.holds_emit _ _)
  have hlhs := ha.tensor
  have hrhs := hb.tensor
  have hinit := hc.tensor
  have hpoints := hz.zeroPointsOf hquantized
  simp only [evalNode, hpoints, hindexing, hlhs, hrhs, hinit, hout, Bind.bind, Except.bind]
  rfl

/-- The term of two elements is the product of the factors. -/
theorem term_widened (hcombine : spec.combine = ReductionSpec.combineFor zs.isSome) {i j : List Nat}
    (hi : InBounds a.shape i) (hj : InBounds b.shape j) :
    term spec.combine (zs.getD (0, 0)) ((a.widened spec.cast).entry i)
        ((b.widened spec.cast).entry j) =
      a.factor spec.cast (zs.map Prod.fst) i * b.factor spec.cast (zs.map Prod.snd) j := by
  rw [hcombine, Tensor.entry_widened a _ _ hi, Tensor.entry_widened b _ _ hj]
  cases zs <;> rfl

/-- The entries of `c`, each with the products of two factors added for the points of the inner
loops. -/
def productSums (c a b : Tensor) (cast : CastKind) (zs : Option (Binary64 × Binary64))
    (inner : List Nat) (l r : List Nat → List Nat) : Tensor :=
  .ofEntries c.dtype c.shape fun jx =>
    addTerms (fun k => a.factor cast (zs.map Prod.fst) (l (jx ++ k)) *
      b.factor cast (zs.map Prod.snd) (r (jx ++ k))) (points inner) (c.entry jx)

theorem isQuantized_of_combine (hcombine : spec.combine = ReductionSpec.combineFor zs.isSome) :
    spec.isQuantized = zs.isSome := by
  cases zs <;> simp [ReductionSpec.isQuantized, hcombine, ReductionSpec.combineFor]

/-- The loops of a reduction add the products of two factors to the entries of `c`. -/
theorem reduce_sums_eq_ok {inner : List Nat} {l r o : List Nat → List Nat}
    (hcombine : spec.combine = ReductionSpec.combineFor zs.isSome)
    (hroutes : Routes indexing (c.shape ++ inner) a.shape b.shape c.shape l r o)
    (ho : ∀ p, InBounds (c.shape ++ inner) p → o p = p.take c.shape.length) :
    ∃ out, NdArray.reduce indexing spec.combine (a.widened spec.cast) (b.widened spec.cast)
        (zs.getD (0, 0)) c.data = .ok out ∧ out.shape = c.shape ∧
      Tensor.ofArray c.dtype out = productSums c a b spec.cast zs inner l r := by
  have hroutes' : Routes indexing (c.data.shape ++ inner) (a.widened spec.cast).shape
      (b.widened spec.cast).shape c.data.shape l r o := by
    rw [Tensor.shape_widened, Tensor.shape_widened]
    exact hroutes
  obtain ⟨out, hout, hshape, hentry⟩ :=
    reduce_outer_eq_ok spec.combine (zs.getD (0, 0)) hroutes' ho
  refine ⟨out, hout, hshape, ?_⟩
  rw [Tensor.ofArray_eq_ofEntries, hshape]
  refine Tensor.ofEntries_congr fun jx hjx => ?_
  rw [hentry jx hjx]
  refine addTerms_congr fun k hk => ?_
  have hpoint : InBounds (c.shape ++ inner) (jx ++ k) := InBounds.append hjx (mem_points.1 hk)
  exact term_widened hcombine (hroutes.lhs _ hpoint) (hroutes.rhs _ hpoint)

/-- Each entry is the initial one plus the terms of the inner loops. -/
theorem reduce_sums_gives {inner : List Nat} {l r o : List Nat → List Nat}
    (hindexing : spec.indexing? = some indexing)
    (hcombine : spec.combine = ReductionSpec.combineFor zs.isSome) (ha : s.Holds lhs a)
    (hb : s.Holds rhs b) (hc : s.Holds init c) (hz : s.HasZeroPoints ids zs)
    (hroutes : Routes indexing (c.shape ++ inner) a.shape b.shape c.shape l r o)
    (ho : ∀ p, InBounds (c.shape ++ inner) p → o p = p.take c.shape.length) :
    (reduce spec lhs rhs ids init).Gives fails s fun v s' =>
      s'.Holds v (productSums c a b spec.cast zs inner l r) := by
  obtain ⟨out, hout, hshape, hsums⟩ := reduce_sums_eq_ok hcombine hroutes ho
  exact (reduce_gives hindexing (isQuantized_of_combine hcombine) ha hb hc hz hroutes.ranks hout
    hshape).weaken fun _ _ _ hv => hv.of_eq hsums

section Reordered

variable {p q k : Permutation} {lhsMap rhsMap outMap : AffineMap} {iterators : List IteratorKind}

theorem reordered_widened {t : Tensor} (hp : p.IsValid t.shape.length) (cast : CastKind) :
    Reordered p (t.widened cast) ((t.transposed p).widened cast) := by
  refine ⟨by rwa [Tensor.shape_widened], ?_, fun ix hix => ?_⟩
  · rw [Tensor.shape_widened, Tensor.shape_widened, Tensor.shape_transposed]
  · rw [Tensor.shape_widened] at hix
    have hmoved : InBounds (t.transposed p).shape (p.apply ix) :=
      Permutation.inBounds_apply hp rfl hix
    rw [Tensor.entry_widened _ _ _ hmoved, Tensor.entry_widened _ _ _ hix,
      Tensor.entry_transposed hp hix, Tensor.dtype_transposed]

/-- The same over arrays whose axes are reordered, by a kernel whose maps are. -/
theorem reduce_reordered_eq_ok {inner : List Nat} {l r o : List Nat → List Nat}
    (hp : p.IsValid a.shape.length) (hq : q.IsValid b.shape.length) (hk : k.IsValid c.shape.length)
    (hcombine : spec.combine = ReductionSpec.combineFor zs.isSome)
    (hroutes : Routes ⟨[lhsMap, rhsMap, outMap], iterators⟩ (c.shape ++ inner) a.shape b.shape
      c.shape l r o)
    (ho : ∀ x, InBounds (c.shape ++ inner) x → o x = x.take c.shape.length) :
    ∃ out, NdArray.reduce ⟨[lhsMap.permuted p, rhsMap.permuted q, outMap.permuted k], iterators⟩
        spec.combine ((a.transposed p).widened spec.cast) ((b.transposed q).widened spec.cast)
        (zs.getD (0, 0)) (c.transposed k).data = .ok out ∧ out.shape = (c.transposed k).shape ∧
      Tensor.ofArray c.dtype out =
        (productSums c a b spec.cast zs inner l r).transposed k := by
  have hroutes' : Routes ⟨[lhsMap, rhsMap, outMap], iterators⟩ (c.data.shape ++ inner)
      (a.widened spec.cast).shape (b.widened spec.cast).shape c.data.shape l r o := by
    rw [Tensor.shape_widened, Tensor.shape_widened]
    exact hroutes
  have hinit : Reordered k c.data (c.transposed k).data :=
    ⟨hk, rfl, fun _ hix => Tensor.entry_transposed hk hix⟩
  obtain ⟨out, hout, hshape, hentry⟩ := reduce_permuted_eq_ok spec.combine (zs.getD (0, 0))
    (reordered_widened hp spec.cast) (reordered_widened hq spec.cast) hinit hroutes' ho
  refine ⟨out, hout, hshape, Tensor.ext_entry rfl hshape fun ix hix => ?_⟩
  have hix' : InBounds (k.apply c.shape) ix := by
    rw [Tensor.shape_ofArray, hshape] at hix
    exact hix
  obtain ⟨jx, hjx, rfl⟩ := Permutation.exists_apply hk rfl hix'
  have hsums : ((productSums c a b spec.cast zs inner l r).transposed k).entry (k.apply jx) =
      (productSums c a b spec.cast zs inner l r).entry jx :=
    Tensor.entry_transposed (t := productSums c a b spec.cast zs inner l r) hk hjx
  have hout' : InBounds out.shape (k.apply jx) := hshape ▸ hix'
  rw [hsums, productSums, Tensor.entry_ofEntries hjx, Tensor.ofArray_eq_ofEntries,
    Tensor.entry_ofEntries hout', hentry jx hjx]
  refine congrArg c.dtype.round (addTerms_congr fun x hx => ?_)
  have hpoint : InBounds (c.shape ++ inner) (jx ++ x) := InBounds.append hjx (mem_points.1 hx)
  exact term_widened hcombine (hroutes.lhs _ hpoint) (hroutes.rhs _ hpoint)

theorem reduce_reordered_gives {inner : List Nat} {l r o : List Nat → List Nat}
    (hp : p.IsValid a.shape.length) (hq : q.IsValid b.shape.length) (hk : k.IsValid c.shape.length)
    (hindexing : spec.indexing? =
      some ⟨[lhsMap.permuted p, rhsMap.permuted q, outMap.permuted k], iterators⟩)
    (hcombine : spec.combine = ReductionSpec.combineFor zs.isSome)
    (ha : s.Holds lhs (a.transposed p))
    (hb : s.Holds rhs (b.transposed q)) (hc : s.Holds init (c.transposed k))
    (hz : s.HasZeroPoints ids zs)
    (hroutes : Routes ⟨[lhsMap, rhsMap, outMap], iterators⟩ (c.shape ++ inner) a.shape b.shape
      c.shape l r o)
    (ho : ∀ x, InBounds (c.shape ++ inner) x → o x = x.take c.shape.length) :
    (reduce spec lhs rhs ids init).Gives fails s fun v s' =>
      s'.Holds v ((productSums c a b spec.cast zs inner l r).transposed k) := by
  obtain ⟨out, hout, hshape, hsums⟩ := reduce_reordered_eq_ok hp hq hk hcombine hroutes ho
  have hpermuted := Routes.permuted hp hq hk hroutes
  exact (reduce_gives hindexing (isQuantized_of_combine hcombine) ha hb hc hz hpermuted.ranks hout
    hshape).weaken fun _ _ _ hv => hv.of_eq hsums

end Reordered

end TensorLowering.Build
