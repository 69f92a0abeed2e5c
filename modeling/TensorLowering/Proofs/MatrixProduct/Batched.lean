import TensorLowering.Lowering.MatrixProduct.Batched
import TensorLowering.Proofs.Build.Agreement
import TensorLowering.Proofs.MatrixProduct.Forms

/-!
# Products of batches

Both operands are stretched to the common batch. A batch of several axes is folded into one axis for
the kernel and split again afterwards, so that the element at a position of the batch is summed at
the count of that position.
-/
namespace TensorLowering

open Numeric NdArray Stage Build

namespace Factors

variable {f : Factors} {s : Stage} {fails : LowerError → Prop} {a b t : Tensor}
  {zs : Option (Binary64 × Binary64)}

/-! ## Sizes -/

/-- The batch comes first, then the rows and the columns. -/
theorem axes_of_batch {shape batch : List Nat} {m n : Nat} (h : shape = batch ++ [m, n]) :
    (List.range batch.length).mapM (shape[·]?) = some batch ∧
      shape[batch.length]? = some m ∧ shape[batch.length + 1]? = some n := by
  have hmap : (List.range' ([] : List Nat).length batch.length).mapM
      (([] ++ batch ++ [m, n])[·]?) = some batch := mapM_getElem?_range'
  rw [List.nil_append, List.length_nil, ← List.range_eq_range', ← h] at hmap
  exact ⟨hmap, by simp [h], by simp [h]⟩

/-- The sizes of a batch of matrices. -/
structure Sized (s : Stage) (z : BatchSizes) (batch : List Nat) (rows columns : Nat) : Prop where
  batch : s.HasSizes z.batch batch
  rows : s.HasIndex z.rows rows
  columns : s.HasIndex z.columns columns

theorem Sized.mono {s s' : Stage} {z : BatchSizes} {batch : List Nat} {rows columns : Nat}
    (h : Sized s z batch rows columns) (hle : s ≤ s') : Sized s' z batch rows columns :=
  ⟨h.batch.mono hle, h.rows.mono hle, h.columns.mono hle⟩

theorem batchSizes_gives {x : OperandInfo} {batch : List Nat} {m n : Nat}
    (hx : s.Holds x.value t) (htype : x.type = t.type) (hshape : t.shape = batch ++ [m, n])
    (hexact : ∀ k ∈ batch ++ [m, n], Binary64.IsExact k) :
    (batchSizes x).Gives fails s fun z s' => Sized s' z batch m n := by
  have hrank : x.rank - 2 = batch.length := by
    rw [OperandInfo.rank, htype, Tensor.rank_type, hshape]
    simp
  obtain ⟨hbatch, hm, hn⟩ := axes_of_batch hshape
  unfold batchSizes
  simp only [hrank]
  refine Gives.bind (mapM_dim_gives hx hbatch fun k hk => hexact k (by simp [hk])) ?_
  intro zs s₁ hle₁ hzs
  have hx₁ := hx.mono hle₁
  refine Gives.bind (dim_gives hx₁ hm (hexact m (by simp))) fun rows s₂ hle₂ hrows => ?_
  refine Gives.bind (dim_gives (hx₁.mono hle₂) hn (hexact n (by simp))) ?_
  intro columns s₃ hle₃ hcolumns
  exact .pure ⟨hzs.mono (hle₂.trans hle₃), hrows.mono hle₃, hcolumns⟩

/-- The product of known sizes; only the last of the partial products is read. -/
theorem foldlM_mul_gives {first : Size} {m : Nat} {zs : List Size} {ns : List Nat}
    (hknown : first.known = some (m : Int)) (hfirst : zs = [] → s.HasIndex first m)
    (hz : s.HasSizes zs ns) (hfit : ¬ TooLarge (m :: ns))
    (hexact : Binary64.IsExact ((m * volume ns : Nat) : Int)) :
    (zs.foldlM mul first).Gives fails s fun z s' =>
      s'.HasIndex z ((m * volume ns : Nat) : Int) := by
  induction zs generalizing first m ns s with
  | nil =>
      cases hz
      exact .pure (by simpa using hfirst rfl)
  | cons y zs ih =>
      cases hz with
      | @cons _ n _ ns hy hrest =>
          have hrest' : s.HasSizes zs ns := hrest
          have hvolume : m * volume (n :: ns) = m * n * volume ns := by
            rw [volume_cons, Nat.mul_assoc]
          rw [hvolume] at hexact ⊢
          have hsmall : m * n < 0x8000000000000000 := by
            have hpair : ¬ TooLarge ([m, n] ++ ns) := hfit
            have hlt := volume_lt_of_not_tooLarge (not_tooLarge_of_append_left hpair)
            simpa using hlt
          have hmul : ArithOp.mul.eval? m n = some ((m * n : Nat) : Int) := by
            refine bounded?_eq_some.2 ⟨?_, by simp⟩
            have hcast : (m : Int) * n = ((m * n : Nat) : Int) := by simp
            simp only [InInt64, minInt64, maxInt64, hcast]
            omega
          have hfit' : ¬ TooLarge (m * n :: ns) := by
            have hfold := not_tooLarge_fold (A := []) (B := [m, n]) (C := ns) hfit
            simpa using hfold
          rw [List.foldlM_cons]
          refine Gives.bind (arith_known hknown hy.known hmul) fun y₁ s₁ hle₁ hy₁ => ?_
          refine ih hy₁.known (fun hnil => hy₁.index ?_) (hrest'.mono hle₁) hfit' hexact
          have hns : ns = [] := by
            have hlen := hrest'.length_eq
            rw [hnil] at hlen
            exact List.length_eq_zero_iff.1 hlen.symm
          simpa [hns] using hexact

theorem product_gives {zs : List Size} {ns : List Nat} (hz : s.HasSizes zs ns)
    (hfit : ¬ TooLarge ns) (hexact : Binary64.IsExact (volume ns)) :
    (product zs).Gives fails s fun z s' => s'.HasIndex z (volume ns) := by
  cases hz with
  | nil => exact index_gives hexact
  | cons hfirst hrest =>
      exact foldlM_mul_gives hfirst.known (fun _ => hfirst) hrest hfit hexact

/-! ## The kernel on one batch axis -/

/-- The sum of a product of two batches at a position. -/
def batchSum (zs : Option (Binary64 × Binary64)) (k : Nat) (a b : Tensor) (batch i j : Nat) :
    Binary64 :=
  (List.range k).foldl (fun sum q =>
    sum + a.factor .signed (zs.map Prod.fst) [batch, i, q] *
      b.factor .signed (zs.map Prod.snd) [batch, q, j]) 0

theorem runsOver_batch (quantized : Bool) (c m n k : Nat) :
    RunsOver (.named (if quantized then .quantizedBatchMatmul else .batchMatmul)) quantized
      [c, m, n] [k] [0, 1, 3] [0, 3, 2] := by
  refine ⟨⟨[.parallel, .parallel, .parallel, .reduction], rfl, ?_⟩, ?_, by simp, by simp, ?_⟩
  · cases quantized <;> rfl
  · cases quantized <;> rfl
  · intro d hd
    simp at hd ⊢
    omega

theorem entry_loopSums_batch {accumulator : DType} {c m n k batch i j : Nat} (hbatch : batch < c)
    (hi : i < m) (hj : j < n) :
    (loopSums accumulator .signed zs [c, m, n] [k] [0, 1, 3] [0, 3, 2] a b).entry [batch, i, j] =
      accumulator.round (batchSum zs k a b batch i j) := by
  have hbounds : InBounds [c, m, n] [batch, i, j] := ⟨hbatch, hi, hj, trivial⟩
  rw [loopSums_eq, Tensor.entry_ofEntries hbounds, points_singleton, addTerms, List.foldl_map]
  rfl

theorem cast_batchKernel (quantized : Bool) : (ReductionSpec.named
    (if quantized then .quantizedBatchMatmul else .batchMatmul)).cast = .signed := by
  cases quantized <;> rfl

theorem batchKernel_gives {lhs rhs : ValueId} {sizes : List Size} {c m n k : Nat}
    (hf : s.HasZeroPoints f.zeroPoints? zs) (ha : s.Holds lhs a) (hb : s.Holds rhs b)
    (hashape : a.shape = [c, m, k]) (hbshape : b.shape = [c, k, n])
    (hz : s.HasSizes sizes [c, m, n]) (hfit : ¬ TooLarge [c, m, n]) :
    (zeros sizes f.accumulator >>= fun init =>
      f.reduce (.named (if zs.isSome then .quantizedBatchMatmul else .batchMatmul)) lhs rhs
        init).Gives fails s fun v s' =>
      ∃ t, s'.Holds v t ∧ t.dtype = f.accumulator ∧ t.shape = [c, m, n] ∧
        ∀ batch i j, batch < c → i < m → j < n →
          t.entry [batch, i, j] = f.accumulator.round (batchSum zs k a b batch i j) := by
  refine (kernel_gives (runsOver_batch zs.isSome c m n k) hf ha hb hz hfit hashape
    hbshape).weaken ?_
  intro v s' _ hv
  rw [cast_batchKernel] at hv
  exact ⟨_, hv, rfl, rfl, fun batch i j hbatch hi hj => entry_loopSums_batch hbatch hi hj⟩

/-! ## Stretching and folding the batch -/

/-- A stretched batch of matrices is read at the stretched position of the batch. -/
theorem entry_stretched_batch {own batch rest bx ix : List Nat} (ht : t.shape = own ++ rest)
    (hstretch : StretchesTo own batch) (hbx : InBounds batch bx) (hix : InBounds rest ix) :
    (t.stretched (batch ++ rest)).entry (bx ++ ix) = t.entry (alignIndex own bx ++ ix) := by
  have hle : own.length ≤ bx.length := hbx.length_eq ▸ hstretch.1
  rw [Tensor.entry_stretched (hbx.append hix), ht, alignIndex_append hle hix.length_eq.symm,
    alignIndex_self hix]

/-- The sum of a product of two batches at a position of the batch. -/
def positionSum (zs : Option (Binary64 × Binary64)) (k : Nat) (a b : Tensor) (bx : List Nat)
    (i j : Nat) : Binary64 :=
  (List.range k).foldl (fun sum q =>
    sum + a.factor .signed (zs.map Prod.fst) (bx ++ [i, q]) *
      b.factor .signed (zs.map Prod.snd) (bx ++ [q, j])) 0

/-- With the batch axes folded into one, the kernel sums at the count of a position. -/
theorem batchSum_folded {batch bx : List Nat} {m n k i j : Nat} (ha : a.shape = batch ++ [m, k])
    (hb : b.shape = batch ++ [k, n]) (hbx : InBounds batch bx) (hi : i < m) (hj : j < n) :
    batchSum zs k (a.reshaped (volume batch :: [m, k])) (b.reshaped (volume batch :: [k, n]))
      (ravel batch bx) i j = positionSum zs k a b bx i j := by
  refine List.foldl_ext _ _ _ fun sum q hq => ?_
  have hq' := List.mem_range.1 hq
  have hiq : InBounds [m, k] [i, q] := ⟨hi, hq', trivial⟩
  have hqj : InBounds [k, n] [q, j] := ⟨hq', hj, trivial⟩
  have hleft : (a.reshaped (volume batch :: [m, k])).entry [ravel batch bx, i, q] =
      a.entry (bx ++ [i, q]) :=
    Tensor.entry_reshaped_fold (A := []) (x := []) ha trivial hbx hiq
  have hright : (b.reshaped (volume batch :: [k, n])).entry [ravel batch bx, q, j] =
      b.entry (bx ++ [q, j]) :=
    Tensor.entry_reshaped_fold (A := []) (x := []) hb trivial hbx hqj
  rw [Tensor.factor_congr (a.dtype_reshaped _) hleft,
    Tensor.factor_congr (b.dtype_reshaped _) hright]

section Products

variable {p : ProductSizes} {m n : Nat} {acc : DType}

/-- The sizes of batches of matrices. -/
theorem sizes_of_matrices (hrows : p.rows = some m) (hcolumns : p.columns = some n) :
    p.lhs = p.lhsBatch ++ [m, p.inner] ∧ p.rhs = p.rhsBatch ++ [p.inner, n] ∧
      p.out = p.batch ++ [m, n] := by
  rw [ProductSizes.lhs, ProductSizes.rhs, ProductSizes.out, hrows, hcolumns]
  exact ⟨rfl, rfl, rfl⟩

theorem fits_of_matrices (h : p.Fits) (hrows : p.rows = some m) (hcolumns : p.columns = some n) :
    ¬ TooLarge (p.batch ++ [m, p.inner]) ∧ ¬ TooLarge (p.batch ++ [p.inner, n]) ∧
      ¬ TooLarge (p.batch ++ [m, n]) := by
  obtain ⟨hlhs, hrhs, hout⟩ := h
  rw [ProductSizes.out] at hout
  rw [hrows] at hlhs hout
  rw [hcolumns] at hrhs hout
  exact ⟨hlhs, hrhs, hout⟩

/-- Where a batch is stretched, the sizes of the operands are read back from doubles too. -/
theorem isExact_of_matrices (h : p.Exact) (hbatch : p.batch ≠ []) (hrows : p.rows = some m)
    (hcolumns : p.columns = some n) :
    (∀ k ∈ p.lhs, Binary64.IsExact k) ∧ ∀ k ∈ p.rhs, Binary64.IsExact k := by
  obtain ⟨hlhs, hrhs, hout⟩ := sizes_of_matrices hrows hcolumns
  obtain ⟨hsl, hsr⟩ := stretchesTo_broadcastShape p.common
  have hexact := h.out
  rw [hout] at hexact
  have hown : ∀ own : List Nat, StretchesTo own p.batch → ∀ k ∈ own, Binary64.IsExact k := by
    intro own hstretch k hk
    rcases hstretch.mem hk with rfl | hk
    · exact Binary64.isExact_one
    · exact hexact k (by simp [hk])
  rw [hlhs, hrhs]
  simp only [List.mem_append, List.mem_cons, List.not_mem_nil, or_false]
  refine ⟨?_, ?_⟩
  · rintro k (hk | rfl | rfl)
    · exact hown _ hsl k hk
    · exact hexact k (by simp)
    · exact h.inner hbatch
  · rintro k (hk | rfl | rfl)
    · exact hown _ hsr k hk
    · exact h.inner hbatch
    · exact hexact k (by simp)

/-- Sums at the positions of stretched operands are those of the product. -/
theorem eq_products_of_positions (ha : a.shape = p.lhs) (hb : b.shape = p.rhs)
    (hrows : p.rows = some m) (hcolumns : p.columns = some n) (hdtype : t.dtype = acc)
    (hshape : t.shape = p.batch ++ [m, n])
    (hentry : ∀ bx i j, InBounds p.batch bx → i < m → j < n →
      t.entry (bx ++ [i, j]) = acc.round (positionSum zs p.inner
        (a.stretched (p.batch ++ [m, p.inner])) (b.stretched (p.batch ++ [p.inner, n])) bx i j)) :
    t = p.products acc (a.factor .signed (zs.map Prod.fst))
      (b.factor .signed (zs.map Prod.snd)) := by
  obtain ⟨hsl, hsr⟩ := stretchesTo_broadcastShape p.common
  obtain ⟨hashape, hbshape, hpout⟩ := sizes_of_matrices hrows hcolumns
  rw [← ha] at hashape
  rw [← hb] at hbshape
  refine Tensor.ext_entry hdtype (hshape.trans hpout.symm) fun ix hix => ?_
  rw [hshape] at hix
  obtain ⟨bx, ij, rfl, hbx, hij⟩ := hix.exists_append
  obtain ⟨i, rest, rfl, hi, hrest⟩ := inBounds_cons.1 hij
  obtain ⟨j, rfl, hj⟩ := inBounds_singleton.1 hrest
  have hrow : [i].length = p.rows.toList.length := by rw [hrows]; rfl
  rw [hentry bx i j hbx hi hj, ProductSizes.entry_products (hpout ▸ hix),
    show [i, j] = [i] ++ [j] from rfl, p.sum_append _ _ hbx.length_eq hrow]
  refine congrArg acc.round (List.foldl_ext _ _ _ fun sum q hq => ?_)
  have hq' := List.mem_range.1 hq
  have hiq : InBounds [m, p.inner] [i, q] := ⟨hi, hq', trivial⟩
  have hqj : InBounds [p.inner, n] [q, j] := ⟨hq', hj, trivial⟩
  have hleft := Tensor.factor_congr (c := .signed) (z := zs.map Prod.fst)
    (a.dtype_stretched (p.batch ++ [m, p.inner]))
    (entry_stretched_batch hashape hsl hbx hiq)
  have hright := Tensor.factor_congr (c := .signed) (z := zs.map Prod.snd)
    (b.dtype_stretched (p.batch ++ [p.inner, n]))
    (entry_stretched_batch hbshape hsr hbx hqj)
  rw [hleft, hright]
  rfl

/-- A batch of one axis is the one that the kernel runs over. -/
theorem eq_products_of_axis {c : Nat} (ha : a.shape = p.lhs) (hb : b.shape = p.rhs)
    (hrows : p.rows = some m) (hcolumns : p.columns = some n) (hbatch : p.batch = [c])
    (hdtype : t.dtype = acc) (hshape : t.shape = [c, m, n])
    (hentry : ∀ batch i j, batch < c → i < m → j < n →
      t.entry [batch, i, j] = acc.round (batchSum zs p.inner
        (a.stretched (p.batch ++ [m, p.inner])) (b.stretched (p.batch ++ [p.inner, n])) batch i
        j)) :
    t = p.products acc (a.factor .signed (zs.map Prod.fst))
      (b.factor .signed (zs.map Prod.snd)) := by
  refine eq_products_of_positions ha hb hrows hcolumns hdtype (by rw [hshape, hbatch]; rfl) ?_
  intro bx i j hbx hi hj
  obtain ⟨q, rfl, hq⟩ := inBounds_singleton.1 (hbatch ▸ hbx)
  exact hentry q i j hq hi hj

/-- A batch of several axes is folded for the kernel, and what the kernel fills is split. -/
theorem reshaped_eq_products (ha : a.shape = p.lhs) (hb : b.shape = p.rhs)
    (hrows : p.rows = some m) (hcolumns : p.columns = some n) (hdtype : t.dtype = acc)
    (hshape : t.shape = [volume p.batch, m, n])
    (hentry : ∀ batch i j, batch < volume p.batch → i < m → j < n →
      t.entry [batch, i, j] = acc.round (batchSum zs p.inner
        ((a.stretched (p.batch ++ [m, p.inner])).reshaped (volume p.batch :: [m, p.inner]))
        ((b.stretched (p.batch ++ [p.inner, n])).reshaped (volume p.batch :: [p.inner, n])) batch i
        j)) :
    t.reshaped (p.batch ++ [m, n]) = p.products acc (a.factor .signed (zs.map Prod.fst))
      (b.factor .signed (zs.map Prod.snd)) := by
  refine eq_products_of_positions ha hb hrows hcolumns hdtype rfl fun bx i j hbx hi hj => ?_
  have hsplit := Tensor.entry_reshaped_split (A := []) (x := []) (B := p.batch) (C := [m, n])
    (z := [i, j]) hshape trivial hbx ⟨hi, hj, trivial⟩
  refine hsplit.trans ((hentry _ i j (ravel_lt hbx) hi hj).trans ?_)
  rw [batchSum_folded (Tensor.shape_stretched _ _) (Tensor.shape_stretched _ _) hbx hi hj]

end Products

/-! ## The two ways to run a batch -/

theorem HasSizes.countP_isNone {zs : List Size} {ns : List Nat} (h : s.HasSizes zs ns) :
    zs.countP (·.known.isNone) = 0 := by
  refine List.countP_eq_zero.2 fun z hz => ?_
  induction h with
  | nil => cases hz
  | cons hfirst _ ih =>
      rcases List.mem_cons.1 hz with rfl | hz
      · simp [hfirst.known]
      · exact ih hz

/-- A batch of several axes is folded into one axis for the kernel. -/
def foldedProduct (f : Factors) (batch : List Size) (rows columns : Size) (lhs rhs : ValueId) :
    Build ValueId := do
  let fold := Reassociation.foldRange (batch.length + 2) 0 batch.length
  let lhs ← collapseShape lhs fold
  let rhs ← collapseShape rhs fold
  let size ← product batch
  let init ← zeros [size, rows, columns] f.accumulator
  let result ← f.reduce (.named (if f.isQuantized then .quantizedBatchMatmul else .batchMatmul))
    lhs rhs init
  expandShape result fold (batch ++ [rows, columns])

/-- The product of operands that have one batch: its only axis is the one of the kernel, several
axes are folded into one unless that takes several unknown sizes, and otherwise each axis is a
loop. -/
def commonProduct (f : Factors) (batch : List Size) (rows columns : Size) (lhs rhs : ValueId) :
    Build ValueId := do
  if batch.length = 1 then
    let init ← zeros (batch ++ [rows, columns]) f.accumulator
    f.reduce (.named (if f.isQuantized then .quantizedBatchMatmul else .batchMatmul)) lhs rhs init
  else if batch.countP (·.known.isNone) ≤ 1 then f.foldedProduct batch rows columns lhs rhs
  else
    let init ← zeros (batch ++ [rows, columns]) f.accumulator
    f.reduce (.generic (batchIndexing batch.length) f.isQuantized) lhs rhs init

section Kernels

variable {p : ProductSizes} {m n : Nat} {sizes : List Size} {rows columns : Size}
  {lhs rhs : ValueId}

/-- The fold of the batch axes, whatever the two axes behind them. -/
theorem foldRange_batch {sizes : List Size} {batch : List Nat} (h : sizes.length = batch.length)
    (i j : Nat) :
    Reassociation.foldRange (sizes.length + 2) 0 sizes.length = .middle [] batch [i, j] := by
  simp [Reassociation.middle, h]

theorem foldedProduct_gives (hf : s.HasZeroPoints f.zeroPoints? zs)
    (hquantized : f.isQuantized = zs.isSome) (ha : a.shape = p.lhs) (hb : b.shape = p.rhs)
    (hrows : p.rows = some m) (hcolumns : p.columns = some n) (hbatch : p.batch ≠ [])
    (hexact : Binary64.IsExact (volume p.batch)) (hfits : p.Fits)
    (hlhs : s.Holds lhs (a.stretched (p.batch ++ [m, p.inner])))
    (hrhs : s.Holds rhs (b.stretched (p.batch ++ [p.inner, n]))) (hsizes : s.HasSizes sizes p.batch)
    (hrow : s.HasIndex rows m) (hcolumn : s.HasIndex columns n) :
    (f.foldedProduct sizes rows columns lhs rhs).Gives fails s fun v s' =>
      s'.Holds v (p.products f.accumulator (a.factor .signed (zs.map Prod.fst))
        (b.factor .signed (zs.map Prod.snd))) := by
  obtain ⟨hafit, hbfit, hfit⟩ := fits_of_matrices hfits hrows hcolumns
  have hfold := foldRange_batch hsizes.length_eq
  have hout : s.HasSizes (sizes ++ [rows, columns]) (p.batch ++ [m, n]) :=
    List.rel_append hsizes (.cons hrow (.cons hcolumn .nil))
  unfold foldedProduct
  refine Gives.bind (hfold m p.inner ▸ collapseShape_gives (A := []) hlhs rfl hbatch
    (not_tooLarge_fold (A := []) hafit)) fun lhs' s₁ hle₁ hlhs' => ?_
  refine Gives.bind (hfold p.inner n ▸ collapseShape_gives (A := []) (hrhs.mono hle₁) rfl hbatch
    (not_tooLarge_fold (A := []) hbfit)) fun rhs' s₂ hle₂ hrhs' => ?_
  refine Gives.bind (product_gives (hsizes.mono (hle₁.trans hle₂))
    (not_tooLarge_of_append_left hfit) hexact) fun size s₃ hle₃ hsize => ?_
  have hle := hle₁.trans (hle₂.trans hle₃)
  have hsizes' : s₃.HasSizes [size, rows, columns] [volume p.batch, m, n] :=
    .cons hsize (.cons (hrow.mono hle) (.cons (hcolumn.mono hle) .nil))
  rw [hquantized, ← LawfulMonad.bind_assoc]
  refine Gives.bind (batchKernel_gives (k := p.inner) (hf.mono hle) (hlhs'.mono (hle₂.trans hle₃))
    (hrhs'.mono hle₃) rfl rfl hsizes' (not_tooLarge_fold (A := []) hfit)) ?_
  rintro v s₄ hle₄ ⟨t, ht, hdtype, hshape, hentry⟩
  refine (hfold m n ▸ expandShape_gives (A := []) ht hshape hbatch (hout.mono (hle.trans hle₄))
    hfit : Gives fails (expandShape v _ _) s₄ _).weaken fun v' s₅ _ hv' => ?_
  exact reshaped_eq_products ha hb hrows hcolumns hdtype hshape hentry ▸ hv'

theorem commonProduct_gives (hf : s.HasZeroPoints f.zeroPoints? zs)
    (hquantized : f.isQuantized = zs.isSome) (ha : a.shape = p.lhs) (hb : b.shape = p.rhs)
    (hrows : p.rows = some m) (hcolumns : p.columns = some n) (hbatch : p.batch ≠ [])
    (hexact : Binary64.IsExact (volume p.batch)) (hfits : p.Fits)
    (hlhs : s.Holds lhs (a.stretched (p.batch ++ [m, p.inner])))
    (hrhs : s.Holds rhs (b.stretched (p.batch ++ [p.inner, n]))) (hsizes : s.HasSizes sizes p.batch)
    (hrow : s.HasIndex rows m) (hcolumn : s.HasIndex columns n) :
    (f.commonProduct sizes rows columns lhs rhs).Gives fails s fun v s' =>
      s'.Holds v (p.products f.accumulator (a.factor .signed (zs.map Prod.fst))
        (b.factor .signed (zs.map Prod.snd))) := by
  have hcount : sizes.countP (·.known.isNone) ≤ 1 := by
    rw [HasSizes.countP_isNone hsizes]
    exact Nat.zero_le 1
  unfold commonProduct
  simp only [hcount, ↓reduceIte]
  split
  next hone =>
    obtain ⟨c, hc⟩ := List.length_eq_one_iff.1 (hsizes.length_eq ▸ hone)
    have hout : s.HasSizes (sizes ++ [rows, columns]) (p.batch ++ [m, n]) :=
      List.rel_append hsizes (.cons hrow (.cons hcolumn .nil))
    obtain ⟨-, -, hfit⟩ := fits_of_matrices hfits hrows hcolumns
    rw [hc] at hout hfit
    rw [hquantized]
    refine (batchKernel_gives (k := p.inner) hf hlhs hrhs
      (by rw [Tensor.shape_stretched, hc]; rfl) (by rw [Tensor.shape_stretched, hc]; rfl)
      hout hfit).weaken ?_
    rintro v s' - ⟨t, ht, hdtype, hshape, hentry⟩
    exact eq_products_of_axis ha hb hrows hcolumns hc hdtype hshape hentry ▸ ht
  next hone =>
    exact foldedProduct_gives hf hquantized ha hb hrows hcolumns hbatch hexact hfits hlhs hrhs
      hsizes hrow hcolumn

end Kernels

theorem batched_gives {p : ProductSizes} {m n : Nat} (hf : f.Ready s a b zs) (ha : a.shape = p.lhs)
    (hb : b.shape = p.rhs) (hrows : p.rows = some m) (hcolumns : p.columns = some n)
    (hbatch : p.batch ≠ []) (hexact : p.Exact) (hfits : p.Fits) :
    f.batched.Gives fails s fun v s' =>
      s'.Holds v (p.products f.accumulator (a.factor .signed (zs.map Prod.fst))
        (b.factor .signed (zs.map Prod.snd))) := by
  obtain ⟨hashape, hbshape, -⟩ := sizes_of_matrices hrows hcolumns
  obtain ⟨haexact, hbexact⟩ := isExact_of_matrices hexact hbatch hrows hcolumns
  obtain ⟨hafit, hbfit, -⟩ := fits_of_matrices hfits hrows hcolumns
  obtain ⟨hsl, hsr⟩ := stretchesTo_broadcastShape p.common
  rw [hashape] at haexact
  rw [hbshape] at hbexact
  rw [← ha] at hashape
  rw [← hb] at hbshape
  unfold batched
  refine Gives.bind (batchSizes_gives hf.lhs hf.lhsType hashape haexact) ?_
  intro x s₁ hle₁ hx
  have hf₁ := hf.mono hle₁
  refine Gives.bind (batchSizes_gives hf₁.rhs hf₁.rhsType hbshape hbexact) ?_
  intro y s₂ hle₂ hy
  refine Gives.bind (broadcastSizes_gives (hx.batch.mono hle₂) hy.batch p.common) ?_
  intro sizes s₃ hle₃ hsizes
  have hx₃ := hx.mono (hle₂.trans hle₃)
  have hy₃ := hy.mono hle₃
  refine Gives.bind (requireEqual_gives hx₃.columns.known hy₃.rows.known) ?_
  rintro ⟨⟩ s₄ - rfl
  have hf₃ := hf₁.mono (hle₂.trans hle₃)
  have hlhs : s₄.HasSizes (sizes ++ [x.rows, x.columns]) (p.batch ++ [m, p.inner]) :=
    List.rel_append hsizes (.cons hx₃.rows (.cons hx₃.columns .nil))
  refine Gives.bind (broadcastTo_gives hf₃.lhs hlhs (hashape ▸ hsl.append_right _) hafit) ?_
  intro lhs s₅ hle₅ hlhs
  have hrhs : s₅.HasSizes (sizes ++ [y.rows, y.columns]) (p.batch ++ [p.inner, n]) :=
    List.rel_append (hsizes.mono hle₅)
      (.cons (hy₃.rows.mono hle₅) (.cons (hy₃.columns.mono hle₅) .nil))
  refine Gives.bind (broadcastTo_gives (hf₃.rhs.mono hle₅) hrhs
    (hbshape ▸ hsr.append_right _) hbfit) ?_
  intro rhs s₆ hle₆ hrhs
  have hle₄₆ := hle₅.trans hle₆
  exact commonProduct_gives (hf₃.mono hle₄₆).zeroPoints hf.quantized ha hb hrows hcolumns hbatch
    hexact.batch hfits (hlhs.mono hle₆) hrhs (hsizes.mono hle₄₆) (hx₃.rows.mono hle₄₆)
    (hy₃.columns.mono hle₄₆)

end Factors

end TensorLowering
