import TensorLowering.Build.Size
import TensorLowering.Proofs.Build.Inputs
import TensorLowering.Proofs.Build.Limits
import TensorLowering.Proofs.NdArray.Stretching
import TensorLowering.Proofs.Typing.Sizes

/-!
# What is declared at a stage

A declared type may leave sizes of a tensor open, and a size may be known only when the program
runs. A value has a tensor if its declared type admits that, and a size has a number if nothing else
is known of it.
-/
namespace TensorLowering

open Numeric NdArray

/-- An index is read back from a double as it is, as far as its value is considered. -/
structure Limits.Exact (l : Limits) (n : Int) : Prop where
  constant : l.considers (.index (Binary64.ofInt n).toInt64) → Binary64.IsExact n
  index : l.considers (.index n) → Binary64.IsExact n

theorem Limits.Exact.of_isExact {l : Limits} {n : Int} (h : Binary64.IsExact n) : l.Exact n :=
  ⟨fun _ => h, fun _ => h⟩

theorem Limits.Exact.of_small {l : Limits} (hl : ∀ value, l.considers value → value.Small)
    (n : Int) : l.Exact n :=
  ⟨fun h => Binary64.isExact_of_toInt64_lt (hl _ h), fun h => Binary64.isExact_of_lt (hl _ h)⟩

namespace Stage

variable {l : Limits} {s s' : Stage} {v : ValueId} {t t' : Tensor} {z : Size} {n : Int}
  {zs : List Size} {ns : List Nat}

/-- The value is a tensor of its declared type. -/
structure HasTensor (s : Stage) (v : ValueId) (t : Tensor) : Prop where
  type : ∃ type, s.graph.tensorType v = .ok type ∧ t.HasType type
  get : s.env.get? v = some (.tensor t)

/-- The value is a tensor of the declared element type, with as many axes as are declared. Its sizes
may be others. -/
structure HasArray (s : Stage) (v : ValueId) (t : Tensor) (type : TensorType) : Prop where
  declared : s.graph.tensorType v = .ok type
  dtype : t.dtype = type.dtype
  rank : t.shape.length = type.rank
  get : s.env.get? v = some (.tensor t)

/-- The value of the size is the number, and nothing else is known of it. -/
structure HasSize (s : Stage) (z : Size) (n : Int) : Prop where
  get : s.env.get? z.value = some (.index n)
  known : ∀ m, z.known = some m → m = n

theorem HasSize.of_unknown {s : Stage} {z : Size} {n : Int}
    (hget : s.env.get? z.value = some (.index n)) (hz : z.known = none) : s.HasSize z n :=
  ⟨hget, fun m hm => by cases hz.symm.trans hm⟩

/-- The values of the sizes are the numbers, whatever else is known of them. -/
def HaveValues (s : Stage) (zs : List Size) (ns : List Nat) : Prop :=
  List.Forall₂ (fun z (n : Nat) => s.env.get? z.value = some (.index n)) zs ns

def HaveSizes (s : Stage) (zs : List Size) (ns : List Nat) : Prop :=
  List.Forall₂ (fun z (n : Nat) => s.HasSize z n) zs ns

/-- The value of the size is the number, which a double holds, and nothing else is known of it. -/
structure IsSize (s : Stage) (l : Limits) (z : Size) (n : Int) : Prop where
  get : s.env.get? z.value = some (.index n)
  known : ∀ m, z.known = some m → m = n
  exact : Binary64.IsExact n
  considered : l.considers (.index n)

def AreSizes (s : Stage) (l : Limits) (zs : List Size) (ns : List Nat) : Prop :=
  List.Forall₂ (fun z (n : Nat) => s.IsSize l z n) zs ns

/-! ### Tensors -/

theorem HasTensor.mono (h : s.HasTensor v t) (hle : s ≤ s') : s'.HasTensor v t := by
  obtain ⟨⟨type, htype, ht⟩, hget⟩ := h
  exact ⟨⟨type, Le.tensorType hle htype, ht⟩, hle.get _ _ hget⟩

theorem HasTensor.of_eq (h : s.HasTensor v t) (ht : t = t') : s.HasTensor v t' := ht ▸ h

theorem HasTensor.tensor (h : s.HasTensor v t) : s.env.tensor v = .ok t :=
  Env.tensor_eq_ok.2 h.get

theorem HasArray.hasTensor {type : TensorType} (h : s.HasArray v t type)
    (hadmits : type.shape.Admits t.shape) : s.HasTensor v t :=
  ⟨⟨type, h.declared, h.dtype, hadmits⟩, h.get⟩

theorem HasTensor.hasArray (h : s.HasTensor v t) :
    ∃ type, s.HasArray v t type ∧ type.shape.Admits t.shape := by
  obtain ⟨⟨type, htype, ht⟩, hget⟩ := h
  exact ⟨type, ⟨htype, ht.dtype, ht.admits.1, hget⟩, ht.admits⟩

/-! ### Sizes -/

theorem HasSize.mono (h : s.HasSize z n) (hle : s ≤ s') : s'.HasSize z n :=
  ⟨hle.get _ _ h.get, h.known⟩

theorem HaveSizes.mono (h : s.HaveSizes zs ns) (hle : s ≤ s') : s'.HaveSizes zs ns :=
  List.Forall₂.imp (fun _ _ hz => hz.mono hle) h

theorem HasSize.index (h : s.HasSize z n) : s.env.index z.value = .ok n :=
  Env.index_eq_ok.2 h.get

/-- Arithmetic reads a size through a double. -/
theorem HasSize.number (h : s.HasSize z n) : s.env.number z.value = .ok (.ofInt n) := by
  simp [Env.number, Env.get, h.get, bind, Except.bind, pure, Except.pure]

theorem HaveSizes.length_eq (h : s.HaveSizes zs ns) : zs.length = ns.length :=
  List.Forall₂.length_eq h

theorem HaveValues.mono (h : s.HaveValues zs ns) (hle : s ≤ s') : s'.HaveValues zs ns :=
  List.Forall₂.imp (fun _ _ hz => hle.get _ _ hz) h

theorem HaveValues.length_eq (h : s.HaveValues zs ns) : zs.length = ns.length :=
  List.Forall₂.length_eq h

theorem HaveValues.sizes (h : s.HaveValues zs ns) : s.env.sizes (Size.values zs) = .ok ns := by
  induction h with
  | nil => rfl
  | @cons z n zs ns hz _ ih =>
      have hfirst : s.env.index z.value = .ok (n : Int) := Env.index_eq_ok.2 hz
      have hnonneg : ¬ (n : Int) < 0 := Int.not_lt.2 (Int.natCast_nonneg n)
      simp only [Env.sizes, Size.values] at ih ⊢
      rw [List.map_cons, List.mapM_cons, hfirst, ih]
      simp [bind, Except.bind, pure, Except.pure, hnonneg]

theorem HaveSizes.haveValues (h : s.HaveSizes zs ns) : s.HaveValues zs ns :=
  List.Forall₂.imp (fun _ _ hz => hz.get) h

theorem HaveSizes.sizes (h : s.HaveSizes zs ns) : s.env.sizes (Size.values zs) = .ok ns :=
  h.haveValues.sizes

theorem HasSize.dim_admits {n : Nat} (h : s.HasSize z n) : z.dim.Admits n := by
  unfold Size.dim
  split
  next m hm =>
    obtain rfl := h.known m hm
    rw [if_pos (Int.natCast_nonneg n), Int.toNat_natCast]
    exact .static n
  next => exact .dynamic n

/-- The shape that sizes declare admits their values. -/
theorem HaveSizes.admits (h : s.HaveSizes zs ns) : (Size.shape zs).Admits ns :=
  Shape.admits_iff.2
    (List.forall₂_map_left_iff.2 (List.Forall₂.imp (fun _ _ hz => hz.dim_admits) h))

/-! ### Sizes that doubles hold -/

theorem IsSize.mono (h : s.IsSize l z n) (hle : s ≤ s') : s'.IsSize l z n :=
  ⟨hle.get _ _ h.get, h.known, h.exact, h.considered⟩

theorem AreSizes.mono (h : s.AreSizes l zs ns) (hle : s ≤ s') : s'.AreSizes l zs ns :=
  List.Forall₂.imp (fun _ _ hz => hz.mono hle) h

theorem IsSize.hasSize (h : s.IsSize l z n) : s.HasSize z n := ⟨h.get, h.known⟩

theorem AreSizes.haveSizes (h : s.AreSizes l zs ns) : s.HaveSizes zs ns :=
  List.Forall₂.imp (fun _ _ hz => hz.hasSize) h

theorem IsSize.index (h : s.IsSize l z n) : s.env.index z.value = .ok n := h.hasSize.index

theorem IsSize.number (h : s.IsSize l z n) : s.env.number z.value = .ok (.ofInt n) :=
  h.hasSize.number

theorem IsSize.lt (hl : ∀ value, l.considers value → value.Small) (h : s.IsSize l z n) :
    n.natAbs < 0x20000000000000 := by
  rw [← twoPow_53]
  exact hl _ h.considered

theorem AreSizes.length_eq (h : s.AreSizes l zs ns) : zs.length = ns.length :=
  List.Forall₂.length_eq h

theorem AreSizes.append {zs' : List Size} {ns' : List Nat} (h : s.AreSizes l zs ns)
    (h' : s.AreSizes l zs' ns') : s.AreSizes l (zs ++ zs') (ns ++ ns') :=
  List.rel_append h h'

theorem AreSizes.sizes (h : s.AreSizes l zs ns) : s.env.sizes (Size.values zs) = .ok ns :=
  h.haveSizes.sizes

theorem AreSizes.admits (h : s.AreSizes l zs ns) : (Size.shape zs).Admits ns := h.haveSizes.admits

theorem AreSizes.indices (h : s.AreSizes l zs ns) :
    (Size.values zs).mapM s.env.index = .ok (ns.map Int.ofNat) := by
  induction h with
  | nil => rfl
  | cons hz _ ih =>
      have hfirst := hz.index
      simp only [Size.values] at ih ⊢
      rw [List.map_cons, List.mapM_cons, hfirst, ih]
      rfl

theorem AreSizes.all (h : s.AreSizes l zs ns) :
    ∀ n ∈ ns, Binary64.IsExact n ∧ l.considers (.index n) := by
  induction h with
  | nil => nofun
  | cons hz _ ih => exact List.forall_mem_cons.2 ⟨⟨hz.exact, hz.considered⟩, ih⟩

theorem HaveSizes.areSizes (h : s.HaveSizes zs ns)
    (hall : ∀ n ∈ ns, Binary64.IsExact n ∧ l.considers (.index n)) : s.AreSizes l zs ns := by
  induction h with
  | nil => exact .nil
  | cons hz _ ih =>
      obtain ⟨hfirst, hrest⟩ := List.forall_mem_cons.1 hall
      exact .cons ⟨hz.get, hz.known, hfirst.1, hfirst.2⟩ (ih hrest)

/-- A tensor that was just created. -/
theorem hasTensor_emit (s : Stage) {op : Op} {type : TensorType} (h : t.HasType type) :
    (s.emit op (.tensor type) (.tensor t)).HasTensor s.graph.nextId t :=
  ⟨⟨type, Graph.tensorType_eq_ok.2 ⟨op, s.node?_emit_self op _ _⟩, h⟩, s.get?_emit_self op _ _⟩

end Stage

open Stage

namespace Build

variable {α β : Type} {l : Limits} {s : Stage} {v : ValueId} {t : Tensor} {z lhs rhs : Size}
  {m n k : Int} {zs : List Size} {ns : List Nat} {post : α → Stage → Prop}

/-! ## Sizes -/

theorem Meets.tensorType {next : TensorType → Build α} (hv : s.HasTensor v t)
    (h : ∀ type, s.graph.tensorType v = .ok type → t.HasType type → (next type).Meets l s post) :
    (tensorType v >>= next).Meets l s post := by
  obtain ⟨type, htype, ht⟩ := hv.type
  exact .query htype (h type htype ht)

theorem index_meets (hexact : l.Exact n) :
    (index n).Meets l s fun z s' => s'.IsSize l z n ∧ z.known = some n := by
  have hvalue : evalNode s.supply s.env ⟨.constant (.int n), .index⟩ =
      .ok (.index (Binary64.ofInt n).toInt64) := rfl
  have hcreate : (Build.create (.constant (.int n)) .index).Meets l s fun v s' =>
      s'.env.get? v = some (.index n) ∧ Binary64.IsExact n ∧ l.considers (.index n) := by
    refine .create hvalue fun hkeep => ?_
    have hn := hexact.constant hkeep
    rw [show (Binary64.ofInt n).toInt64 = n from hn] at hkeep ⊢
    exact ⟨s.get?_emit_self _ _ _, hn, hkeep⟩
  refine .bind hcreate fun v s' _ h => ?_
  obtain ⟨hget, hn, hkeep⟩ := h
  exact .pure ⟨⟨hget, fun m hm => (Option.some.inj hm).symm, hn, hkeep⟩, rfl⟩

/-- An index node of which nothing is known. -/
theorem createIndex_meets {op : Op} (hvalue : evalNode s.supply s.env ⟨op, .index⟩ = .ok (.index n))
    (hexact : l.Exact n) :
    (do return ⟨← create op .index, none⟩ : Build Size).Meets l s fun z s' => s'.IsSize l z n := by
  have hcreate : (Build.create op .index).Meets l s fun v s' =>
      s'.env.get? v = some (.index n) ∧ l.considers (.index n) :=
    .create hvalue fun hkeep => ⟨s.get?_emit_self _ _ _, hkeep⟩
  refine .bind hcreate fun v s' _ h => ?_
  exact .pure ⟨h.1, fun m hm => (by cases hm), hexact.index h.2, h.2⟩

/-- The size of an axis. It is known where the declared type says every size. -/
theorem dim_meets {axis n : Nat} (hv : s.HasTensor v t) (hn : t.shape[axis]? = some n)
    (hlt : n < 0x8000000000000000) (hexact : l.Exact n) :
    (dim v axis).Meets l s fun z s' =>
      s'.IsSize l z n ∧ (s.Holds v t → z.known = some (n : Int)) := by
  have hclamp : clampNat n = n := clampNat_of_le (by simp only [maxInt64]; omega)
  refine .tensorType hv fun type htype ht => ?_
  split
  next size hsize =>
    obtain rfl : n = size := Option.some.inj (hn.symm.trans (ht.admits.getElem?_static hsize))
    rw [hclamp]
    exact (index_meets hexact).weaken fun z s' _ hz => ⟨hz.1, fun _ => hz.2⟩
  next hdynamic =>
    refine (createIndex_meets (n := n) ?_ hexact).weaken fun z s' _ hz => ⟨hz, fun hholds => ?_⟩
    · have htensor := hv.tensor
      simp only [evalNode, htensor, hn, Bind.bind, Except.bind]
      rfl
    · -- a static type leaves no size open
      rw [hholds.type] at htype
      cases htype
      simp [Tensor.type, Shape.ofSizes, hn] at hdynamic
  next hnone =>
    have hlen := List.getElem?_eq_none_iff.1 hnone
    obtain ⟨hlen', -⟩ := List.getElem?_eq_some_iff.1 hn
    have hrank : t.shape.length = type.shape.dims.length := ht.admits.1
    omega

theorem mapM_dim_meets {axes : List Nat} (hv : s.HasTensor v t)
    (hn : axes.mapM (t.shape[·]?) = some ns) (hlt : ∀ n ∈ ns, n < 0x8000000000000000)
    (hexact : ∀ n ∈ ns, l.Exact (n : Nat)) :
    (axes.mapM (dim v)).Meets l s fun zs s' =>
      s'.AreSizes l zs ns ∧
        (s.Holds v t → zs.map Size.known = ns.map fun n : Nat => some (n : Int)) := by
  induction axes generalizing s ns with
  | nil =>
      cases hn
      exact .pure ⟨.nil, fun _ => rfl⟩
  | cons axis axes ih =>
      rw [List.mapM_cons] at hn
      obtain ⟨n, haxis, hn⟩ := Option.bind_eq_some_iff.1 hn
      obtain ⟨rest, hrest, hn⟩ := Option.bind_eq_some_iff.1 hn
      cases hn
      rw [List.mapM_cons]
      refine Meets.bind (dim_meets hv haxis (hlt n (by simp)) (hexact n (by simp))) ?_
      rintro z s₁ hle₁ ⟨hz, hknown⟩
      refine Meets.bind (ih (hv.mono hle₁) hrest (fun n hn => hlt n (by simp [hn]))
        fun n hn => hexact n (by simp [hn])) ?_
      rintro zs s₂ hle₂ ⟨hzs, hknowns⟩
      refine .pure ⟨.cons (hz.mono hle₂) hzs, fun hholds => ?_⟩
      rw [List.map_cons, List.map_cons, hknown hholds, hknowns (hholds.mono hle₁)]

/-- The sizes of every axis. -/
theorem dims_meets (hv : s.HasTensor v t) (hlt : ∀ n ∈ t.shape, n < 0x8000000000000000)
    (hexact : ∀ n ∈ t.shape, l.Exact (n : Nat)) :
    (dims v).Meets l s fun zs s' => s'.AreSizes l zs t.shape := by
  refine .tensorType hv fun type _ ht => ?_
  have hrank : type.rank = t.shape.length := ht.admits.1.symm
  rw [hrank]
  exact (mapM_dim_meets hv mapM_getElem?_range hlt hexact).weaken fun _ _ _ hzs => hzs.1

/-- Index arithmetic. -/
theorem arith_meets {op : ArithOp} (hm : s.IsSize l lhs m) (hn : s.IsSize l rhs n)
    (hk : op.eval? m n = some k) (hexact : l.Exact k) :
    (arith op lhs rhs).Meets l s fun z s' => s'.IsSize l z k := by
  unfold arith
  dsimp only
  split
  next c hc =>
    obtain ⟨x, hx, hc⟩ := Option.bind_eq_some_iff.1 hc
    obtain ⟨y, hy, hc⟩ := Option.bind_eq_some_iff.1 hc
    obtain rfl := hm.known x hx
    obtain rfl := hn.known y hy
    obtain rfl := Option.some.inj (hc.symm.trans hk)
    exact (index_meets hexact).weaken fun _ _ _ hz => hz.1
  next =>
    split
    next hleft =>
      -- the left operand changes nothing
      rw [Bool.and_eq_true, beq_iff_eq] at hleft
      obtain ⟨u, hu⟩ := Option.isSome_iff_exists.1 hleft.1
      rw [← hm.known u hu, ArithOp.eval?_leftUnit (hleft.2.symm.trans hu)] at hk
      exact .pure ((bounded?_eq_some.1 hk).2 ▸ hn)
    next =>
      split
      next hright =>
        rw [Bool.and_eq_true, beq_iff_eq] at hright
        obtain ⟨u, hu⟩ := Option.isSome_iff_exists.1 hright.1
        rw [← hn.known u hu, ArithOp.eval?_rightUnit (hright.2.symm.trans hu)] at hk
        exact .pure ((bounded?_eq_some.1 hk).2 ▸ hm)
      next =>
        refine createIndex_meets ?_ hexact
        have hlhs := hm.number
        have hrhs := hn.number
        have hmexact : (Binary64.ofInt m).toInt64 = m := hm.exact
        have hnexact : (Binary64.ofInt n).toInt64 = n := hn.exact
        simp only [evalNode, hlhs, hrhs, hmexact, hnexact, hk, Bind.bind, Except.bind]
        rfl

/-! ## Sizes below `2 ^ 53` -/

section Small

variable (hl : ∀ value, l.considers value → value.Small)
include hl

theorem add_meets (hm : s.IsSize l lhs m) (hn : s.IsSize l rhs n) :
    (add lhs rhs).Meets l s fun z s' => s'.IsSize l z (m + n) := by
  have hm' := hm.lt hl
  have hn' := hn.lt hl
  refine arith_meets hm hn (bounded?_eq_some.2 ⟨?_, rfl⟩) (.of_small hl _)
  simp only [InInt64, minInt64, maxInt64]
  omega

theorem sub_meets (hm : s.IsSize l lhs m) (hn : s.IsSize l rhs n) :
    (sub lhs rhs).Meets l s fun z s' => s'.IsSize l z (m - n) := by
  have hm' := hm.lt hl
  have hn' := hn.lt hl
  refine arith_meets hm hn (bounded?_eq_some.2 ⟨?_, rfl⟩) (.of_small hl _)
  simp only [InInt64, minInt64, maxInt64]
  omega

theorem floorDiv_meets (hm : s.IsSize l lhs m) (hn : s.IsSize l rhs n) (hpos : 1 ≤ n) :
    (floorDiv lhs rhs).Meets l s fun z s' => s'.IsSize l z (m / n) := by
  have hm' := hm.lt hl
  have hle : (m / n).natAbs ≤ m.natAbs := Int.natAbs_ediv_le_natAbs m n
  have hdiv : ArithOp.floorDiv.eval? m n = some (m / n) := by
    have hrange : ∀ k : Int, k.natAbs ≤ m.natAbs → InInt64 k := by
      intro k hk
      simp only [InInt64, minInt64, maxInt64]
      omega
    rw [ArithOp.eval?_floorDiv (hrange m le_rfl) (by omega),
      Int.fdiv_eq_ediv_of_nonneg m (by omega)]
    exact bounded?_eq_some.2 ⟨hrange _ hle, rfl⟩
  exact arith_meets hm hn hdiv (.of_small hl _)

theorem addConst_meets (hm : s.IsSize l lhs m) (n : Int) :
    (addConst lhs n).Meets l s fun z s' => s'.IsSize l z (m + n) :=
  .bind (index_meets (.of_small hl n)) fun _ _ hle hn => add_meets hl (hm.mono hle) hn.1

/-- A product may be too large though its factors are small. -/
theorem mulConst_meets (hm : s.IsSize l lhs m)
    (hbound : n.natAbs < 0x20000000000000 → InInt64 (m * n)) :
    (mulConst lhs n).Meets l s fun z s' => s'.IsSize l z (m * n) :=
  .bind (index_meets (.of_small hl n)) fun _ _ hle hn =>
    arith_meets (hm.mono hle) hn.1 (bounded?_eq_some.2 ⟨hbound (hn.1.lt hl), rfl⟩) (.of_small hl _)

end Small

end Build

end TensorLowering
