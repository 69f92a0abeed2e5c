import TensorLowering.Build.Compute
import TensorLowering.Lowering.Agreement
import TensorLowering.Proofs.Build.Stage
import TensorLowering.Proofs.NdArray.Tensors

/-!
# What is known at a stage

A value holds a tensor of its declared static type, a size is a known number that its value has
when the program runs, and a scalar is a number. All of this stays known at later stages.
-/
namespace TensorLowering

open Numeric NdArray

namespace Stage

variable {s s' : Stage} {v : ValueId} {t t' : Tensor} {z : Size} {n : Int} {zs : List Size}
  {ns : List Nat} {x : Binary64}

/-- The value has the tensor, and its declared type says every size. -/
structure Holds (s : Stage) (v : ValueId) (t : Tensor) : Prop where
  type : s.graph.tensorType v = .ok t.type
  get : s.env.get? v = some (.tensor t)

/-- The size is known, and its value is the same index. -/
structure HasIndex (s : Stage) (z : Size) (n : Int) : Prop where
  known : z.known = some n
  get : s.env.get? z.value = some (.index n)

/-- The size is known, and its value is the same index if a double holds that. -/
structure Knows (s : Stage) (z : Size) (n : Int) : Prop where
  known : z.known = some n
  index : Binary64.IsExact n → s.HasIndex z n

/-- The sizes are known, and their values are the same indices. -/
def HasSizes (s : Stage) (zs : List Size) (ns : List Nat) : Prop :=
  List.Forall₂ (fun z (n : Nat) => s.HasIndex z n) zs ns

/-- The sizes are known, and each one's value is the same index if a double holds that. -/
def KnowsSizes (s : Stage) (zs : List Size) (ns : List Nat) : Prop :=
  List.Forall₂ (fun z (n : Nat) => s.Knows z n) zs ns

/-- The value is a scalar of the given number. -/
def HasScalar (s : Stage) (v : ValueId) (x : Binary64) : Prop :=
  ∃ dtype, s.env.get? v = some (.scalar dtype x)

/-- The zero-points are scalars of the given numbers, or there are none. -/
def HasZeroPoints (s : Stage) (ids : Option (ValueId × ValueId))
    (zs : Option (Binary64 × Binary64)) : Prop :=
  Option.Rel (fun ids zs => s.HasScalar ids.1 zs.1 ∧ s.HasScalar ids.2 zs.2) ids zs

theorem Le.tensorType (h : s ≤ s') {type : TensorType} (ht : s.graph.tensorType v = .ok type) :
    s'.graph.tensorType v = .ok type := by
  obtain ⟨op, hnode⟩ := Graph.tensorType_eq_ok.1 ht
  exact Graph.tensorType_eq_ok.2 ⟨op, (h.node v (Graph.lt_size_of_node? hnode)).trans hnode⟩

theorem Holds.mono (h : s.Holds v t) (hle : s ≤ s') : s'.Holds v t :=
  ⟨Le.tensorType hle h.type, hle.get _ _ h.get⟩

theorem Holds.of_eq (h : s.Holds v t) (ht : t = t') : s.Holds v t' := ht ▸ h

theorem HasIndex.mono (h : s.HasIndex z n) (hle : s ≤ s') : s'.HasIndex z n :=
  ⟨h.known, hle.get _ _ h.get⟩

theorem Knows.mono (h : s.Knows z n) (hle : s ≤ s') : s'.Knows z n :=
  ⟨h.known, fun hexact => (h.index hexact).mono hle⟩

theorem HasSizes.mono (h : s.HasSizes zs ns) (hle : s ≤ s') : s'.HasSizes zs ns :=
  List.Forall₂.imp (fun _ _ hz => hz.mono hle) h

theorem KnowsSizes.mono (h : s.KnowsSizes zs ns) (hle : s ≤ s') : s'.KnowsSizes zs ns :=
  List.Forall₂.imp (fun _ _ hz => hz.mono hle) h

theorem HasSizes.knowsSizes (h : s.HasSizes zs ns) : s.KnowsSizes zs ns :=
  List.Forall₂.imp (fun _ _ hz => ⟨hz.known, fun _ => hz⟩) h

/-- Sizes that doubles hold are the values of known sizes. -/
theorem KnowsSizes.hasSizes (h : s.KnowsSizes zs ns) (hexact : ∀ n ∈ ns, Binary64.IsExact n) :
    s.HasSizes zs ns := by
  induction h with
  | nil => exact .nil
  | cons hz _ ih =>
      exact .cons (hz.index (hexact _ (by simp))) (ih fun n hn => hexact n (by simp [hn]))

theorem HasScalar.mono (h : s.HasScalar v x) (hle : s ≤ s') : s'.HasScalar v x :=
  h.imp fun _ hget => hle.get _ _ hget

theorem HasZeroPoints.mono {ids : Option (ValueId × ValueId)} {zs : Option (Binary64 × Binary64)}
    (h : s.HasZeroPoints ids zs) (hle : s ≤ s') : s'.HasZeroPoints ids zs := by
  cases h with
  | none => exact .none
  | some h => exact .some ⟨h.1.mono hle, h.2.mono hle⟩

/-! ## Reading values -/

theorem Holds.tensor (h : s.Holds v t) : s.env.tensor v = .ok t := by
  simp [Env.tensor, Env.get, h.get, bind, Except.bind, Value.toTensor]

theorem HasIndex.index (h : s.HasIndex z n) : s.env.index z.value = .ok n := by
  simp [Env.index, Env.get, h.get, bind, Except.bind, pure, Except.pure]

theorem HasScalar.number (h : s.HasScalar v x) : s.env.number v = .ok x := by
  obtain ⟨dtype, hget⟩ := h
  simp [Env.number, Env.get, hget, bind, Except.bind, pure, Except.pure]

/-- What a reduction reads as its zero-points. -/
theorem HasZeroPoints.zeroPointsOf {ids : Option (ValueId × ValueId)}
    {zs : Option (Binary64 × Binary64)} {spec : ReductionSpec} (h : s.HasZeroPoints ids zs)
    (hquantized : spec.isQuantized = zs.isSome) :
    zeroPointsOf s.env spec ids = .ok (zs.getD (0, 0)) := by
  cases h with
  | none => simp [TensorLowering.zeroPointsOf, hquantized, pure, Except.pure]
  | some h =>
      simp [TensorLowering.zeroPointsOf, h.1.number, h.2.number, bind, Except.bind, pure,
        Except.pure]

theorem HasSizes.sizes (h : s.HasSizes zs ns) : s.env.sizes (Size.values zs) = .ok ns := by
  induction h with
  | nil => rfl
  | @cons z n zs ns hz _ ih =>
      have hfirst := hz.index
      have hnonneg : ¬ (n : Int) < 0 := Int.not_lt.2 (Int.natCast_nonneg n)
      simp only [Env.sizes, Size.values] at ih ⊢
      rw [List.map_cons, List.mapM_cons, hfirst, ih]
      simp [bind, Except.bind, pure, Except.pure, hnonneg]

theorem HasSizes.indices (h : s.HasSizes zs ns) :
    (Size.values zs).mapM s.env.index = .ok (ns.map Int.ofNat) := by
  induction h with
  | nil => rfl
  | cons hz _ ih =>
      have hfirst := hz.index
      simp only [Size.values] at ih ⊢
      rw [List.map_cons, List.mapM_cons, hfirst, ih]
      rfl

/-- Known sizes make a static shape. -/
theorem HasSizes.shape (h : s.HasSizes zs ns) : Size.shape zs = .ofSizes ns := by
  have hdims : zs.map Size.dim = ns.map Dim.static := by
    induction h with
    | nil => rfl
    | cons hz _ ih => simp [Size.dim, hz.known, ih]
  rw [Size.shape, hdims, Shape.ofSizes]

theorem HasSizes.length_eq (h : s.HasSizes zs ns) : zs.length = ns.length :=
  List.Forall₂.length_eq h

/-- A tensor that was just created. -/
theorem holds_emit (s : Stage) (op : Op) (t : Tensor) :
    (s.emit op (.tensor t.type) (.tensor t)).Holds s.graph.nextId t where
  type := Graph.tensorType_eq_ok.2 ⟨op, s.node?_emit_self op _ _⟩
  get := s.get?_emit_self op _ _

end Stage

open Stage

namespace Build

variable {α β : Type} {fails : LowerError → Prop} {s : Stage} {v : ValueId} {t : Tensor}
  {z : Size} {zs : List Size} {ns : List Nat} {post : α → Stage → Prop}

/-! ## Looking at the program -/

theorem Gives.query {γ : Type} {f : Graph → Except GraphError γ} {c : γ} {next : γ → Build α}
    (hf : f s.graph = .ok c) (h : (next c).Gives fails s post) :
    (query f >>= next).Gives fails s post := by
  simp only [Build.query, Bind.bind, Build.bind, Gives, hf]
  exact h

theorem Gives.tensorType {next : TensorType → Build α} (hv : s.Holds v t)
    (h : (next t.type).Gives fails s post) : (tensorType v >>= next).Gives fails s post :=
  Gives.query hv.type h

theorem Gives.ofExcept {γ : Type} {x : Except LowerError γ} {next : γ → Build α} {c : γ}
    (hx : x = .ok c) (h : (next c).Gives fails s post) :
    (ofExcept x >>= next).Gives fails s post := by
  subst hx
  exact h

/-- A query that may fail. -/
theorem Gives.inquire {γ : Type} {f : Graph → Except GraphError γ} {next : γ → Build α}
    (h : ∀ c, f s.graph = .ok c → (next c).Gives (fun _ => True) s post) :
    (Build.query f >>= next).Gives (fun _ => True) s post := by
  cases hf : f s.graph with
  | error e =>
      simp only [Build.query, Bind.bind, Build.bind, Gives, hf]
  | ok c => exact .query hf (h c hf)

/-- A check that may fail. -/
theorem Gives.attempt {γ : Type} {x : Except LowerError γ} {next : γ → Build α}
    (h : ∀ c, x = .ok c → (next c).Gives (fun _ => True) s post) :
    (Build.ofExcept x >>= next).Gives (fun _ => True) s post := by
  cases x with
  | error e => exact trivial
  | ok c => exact h c rfl

/-! ## Nodes -/

theorem Gives.create {op : Op} {type : ValueType} {value : Value}
    {post : ValueId → Stage → Prop} (hvalue : evalNode s.supply s.env ⟨op, type⟩ = .ok value)
    (hpost : post s.graph.nextId (s.emit op type value)) :
    (create op type).Gives fails s post :=
  ⟨value, hvalue, hpost⟩

/-- A node for a tensor of a static type. -/
theorem Gives.createTensor {op : Op} {dtype : DType} {shape : Shape}
    (htype : (⟨dtype, shape⟩ : TensorType) = t.type)
    (hvalue : evalNode s.supply s.env ⟨op, .tensor t.type⟩ = .ok (.tensor t)) :
    (createTensor op dtype shape).Gives fails s fun v s' => s'.Holds v t := by
  rw [Build.createTensor, htype]
  exact .create hvalue (s.holds_emit op t)

/-! ## Constants and sizes -/

/-- A constant is known, and it is the same number when the program runs if it is exact. -/
theorem index_known {n : Int} : (index n).Gives fails s fun z s' => s'.Knows z n := by
  have hvalue : evalNode s.supply s.env ⟨.constant (.int n), .index⟩ =
      .ok (.index (Binary64.ofInt n).toInt64) := rfl
  refine ⟨_, hvalue, rfl, fun hexact => ⟨rfl, ?_⟩⟩
  rw [s.get?_emit_self, show (Binary64.ofInt n).toInt64 = n from hexact]

theorem index_gives {n : Int} (h : Binary64.IsExact n) :
    (index n).Gives fails s fun z s' => s'.HasIndex z n :=
  index_known.weaken fun _ _ _ hz => hz.index h

/-- The size of an axis of a static type is known. -/
theorem dim_known {axis n : Nat} (hv : s.Holds v t) (hn : t.shape[axis]? = some n) :
    (dim v axis).Gives fails s fun z s' =>
      z.known = some (clampNat n) ∧ (Binary64.IsExact n → s'.HasIndex z n) := by
  refine .tensorType hv ?_
  have hdim : t.type.shape.dims[axis]? = some (.static n) := by
    simp [Tensor.type, Shape.ofSizes, hn]
  rw [hdim]
  refine index_known.weaken fun z s' _ hz => ⟨hz.known, fun hexact => ?_⟩
  have hclamp : clampNat n = n := clampNat_of_le hexact.inInt64.2
  rw [hclamp] at hz
  exact hz.index hexact

theorem dim_knows {axis n : Nat} (hv : s.Holds v t) (hn : t.shape[axis]? = some n)
    (hlt : n < 0x8000000000000000) :
    (dim v axis).Gives fails s fun z s' => s'.Knows z n := by
  have hclamp : clampNat n = n := clampNat_of_le (by simp only [maxInt64]; omega)
  have hgives : (dim v axis).Gives fails s _ := dim_known hv hn
  rw [hclamp] at hgives
  exact hgives.weaken fun z s' _ hz => ⟨hz.1, hz.2⟩

theorem dim_gives {axis n : Nat} (hv : s.Holds v t) (hn : t.shape[axis]? = some n)
    (hexact : Binary64.IsExact n) :
    (dim v axis).Gives fails s fun z s' => s'.HasIndex z n :=
  (dim_known hv hn).weaken fun _ _ _ hz => hz.2 hexact

/-- The sizes of several axes of a static type. -/
theorem mapM_dim_knows {axes : List Nat} (hv : s.Holds v t)
    (hn : axes.mapM (t.shape[·]?) = some ns) (hlt : ∀ n ∈ ns, n < 0x8000000000000000) :
    (axes.mapM (dim v)).Gives fails s fun zs s' => s'.KnowsSizes zs ns := by
  induction axes generalizing s ns with
  | nil =>
      cases hn
      exact .pure .nil
  | cons axis axes ih =>
      rw [List.mapM_cons] at hn
      obtain ⟨n, haxis, hn⟩ := Option.bind_eq_some_iff.1 hn
      obtain ⟨rest, hrest, hn⟩ := Option.bind_eq_some_iff.1 hn
      cases hn
      rw [List.mapM_cons]
      refine Gives.bind (dim_knows hv haxis (hlt n (by simp))) fun z s₁ hle₁ hz => ?_
      refine Gives.bind (ih (hv.mono hle₁) hrest fun n hn => hlt n (by simp [hn])) ?_
      exact fun zs s₂ hle₂ hzs => .pure (.cons (hz.mono hle₂) hzs)

theorem mapM_dim_gives {axes : List Nat} (hv : s.Holds v t)
    (hn : axes.mapM (t.shape[·]?) = some ns) (hexact : ∀ n ∈ ns, Binary64.IsExact n) :
    (axes.mapM (dim v)).Gives fails s fun zs s' => s'.HasSizes zs ns :=
  (mapM_dim_knows hv hn fun n hmem => (hexact n hmem).lt).weaken fun _ _ _ hzs =>
    hzs.hasSizes hexact

theorem mapM_getElem?_range' {A B C : List Nat} :
    (List.range' A.length B.length).mapM ((A ++ B ++ C)[·]?) = some B := by
  induction B generalizing A with
  | nil => rfl
  | cons n B ih =>
      have hfirst : (A ++ n :: B ++ C)[A.length]? = some n := by simp
      have hrest := ih (A := A ++ [n])
      rw [List.length_append, List.length_singleton, List.append_assoc A, List.singleton_append]
        at hrest
      rw [List.length_cons, List.range'_succ, List.mapM_cons, hfirst, hrest]
      rfl

theorem mapM_getElem?_range {A : List Nat} : (List.range A.length).mapM (A[·]?) = some A := by
  have hall := mapM_getElem?_range' (A := []) (B := A) (C := [])
  rwa [List.nil_append, List.append_nil, List.length_nil, ← List.range_eq_range'] at hall

/-- The sizes of a static type. -/
theorem dims_knows (hv : s.Holds v t) (hlt : ∀ n ∈ t.shape, n < 0x8000000000000000) :
    (dims v).Gives fails s fun zs s' => s'.KnowsSizes zs t.shape := by
  refine .tensorType hv ?_
  rw [Tensor.rank_type]
  exact mapM_dim_knows hv mapM_getElem?_range hlt

theorem dims_gives (hv : s.Holds v t) (hexact : ∀ n ∈ t.shape, Binary64.IsExact n) :
    (dims v).Gives fails s fun zs s' => s'.HasSizes zs t.shape :=
  (dims_knows hv fun n hn => (hexact n hn).lt).weaken fun _ _ _ hzs => hzs.hasSizes hexact

theorem scalar_gives {value : Scalar} {dtype : DType} :
    (scalar value dtype).Gives fails s fun v s' =>
      s'.HasScalar v (dtype.round value.toDouble) :=
  .create rfl ⟨dtype, s.get?_emit_self _ _ _⟩

/-- Arithmetic on known sizes. -/
theorem arith_known {op : ArithOp} {lhs rhs : Size} {m n k : Int} (hm : lhs.known = some m)
    (hn : rhs.known = some n) (hk : op.eval? m n = some k) :
    (arith op lhs rhs).Gives fails s fun z s' => s'.Knows z k := by
  have hresult : (do op.eval? (← lhs.known) (← rhs.known) : Option Int) = some k := by
    simp [hm, hn, hk]
  unfold Build.arith
  simp only [hresult]
  exact index_known

/-- Known sizes that pass the check are equal. -/
theorem requireEqual_known {lhs rhs : Size} {m n : Int} {what : String} (hm : lhs.known = some m)
    (hn : rhs.known = some n) :
    (requireEqual lhs rhs what).Gives (fun _ => True) s fun _ s' => s' = s ∧ m = n := by
  simp only [requireEqual, hm, hn]
  split
  next heq => exact .pure ⟨rfl, heq⟩
  next => exact trivial

theorem requireEqual_gives {lhs rhs : Size} {n : Int} {what : String} (hm : lhs.known = some n)
    (hn : rhs.known = some n) : (requireEqual lhs rhs what).Gives fails s fun _ s' => s' = s := by
  simp only [requireEqual, hm, hn, ↓reduceIte]
  exact .pure rfl

end Build

end TensorLowering
