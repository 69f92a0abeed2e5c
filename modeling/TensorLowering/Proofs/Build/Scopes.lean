import Mathlib.Order.Basic
import TensorLowering.Build.Compute
import TensorLowering.Graph.Operand
import TensorLowering.Proofs.Conversion.Schedules

/-!
# Constructions that read what they have seen

A construction is handed some values and creates others. `Within` follows it through everything that
it can do: each node that it creates reads only values that it has seen, so that its nodes can be
scheduled in the order of their creation. Main statement: what is followed is what happens to a
draft. The operations of a construction are followed one by one.
-/
namespace TensorLowering

/-- A program under construction, and the values that its next node may read, in an order in which
they can be computed. -/
structure Scope where
  graph : Graph
  seen : List ValueId
  orders : graph.Orders seen

/-- Results of constructions are made of values. -/
class Mentions (α : Type) where
  values : α → List ValueId

namespace Mentions

variable {α β : Type}

instance : Mentions ValueId := ⟨fun v => [v]⟩

instance : Mentions Unit := ⟨fun _ => []⟩

instance : Mentions Size := ⟨fun z => [z.value]⟩

instance [Mentions α] : Mentions (List α) := ⟨fun xs => xs.flatMap values⟩

instance [Mentions α] : Mentions (Option α) := ⟨fun o => o.toList.flatMap values⟩

instance [Mentions α] [Mentions β] : Mentions (α × β) := ⟨fun p => values p.1 ++ values p.2⟩

instance : Mentions OperandInfo := ⟨fun x => x.value :: x.zeroPoint.toList⟩

end Mentions

namespace Scope

variable {α β : Type} [Mentions α] [Mentions β] {s s' : Scope}

/-- The scope after the next node has been created. -/
def emit (s : Scope) (op : Op) (type : ValueType) (h : ∀ v ∈ op.operands, v ∈ s.seen) : Scope where
  graph := s.graph.create op type
  seen := s.seen ++ [s.graph.nextId]
  orders := s.orders.create type h

instance : LE Scope := ⟨fun s s' => s.seen ⊆ s'.seen⟩

instance : Preorder Scope where
  le_refl s := List.Subset.refl s.seen
  le_trans s s' s'' h h' := List.Subset.trans h h'

theorem le_emit (s : Scope) {op : Op} (type : ValueType) (h : ∀ v ∈ op.operands, v ∈ s.seen) :
    s ≤ s.emit op type h :=
  List.subset_append_left _ _

/-- Every value that something is made of has been seen. -/
def Sees (s : Scope) (a : α) : Prop := ∀ v ∈ Mentions.values a, v ∈ s.seen

theorem Sees.mono {a : α} (h : s.Sees a) (hle : s ≤ s') : s'.Sees a := fun v hv => hle (h v hv)

@[simp] theorem sees_value {v : ValueId} : s.Sees v ↔ v ∈ s.seen := by
  simp [Sees, Mentions.values]

@[simp] theorem sees_size {z : Size} : s.Sees z ↔ z.value ∈ s.seen := by
  simp [Sees, Mentions.values]

@[simp] theorem sees_unit (u : Unit) : s.Sees u := by
  simp [Sees, Mentions.values]

@[simp] theorem sees_pair {p : α × β} : s.Sees p ↔ s.Sees p.1 ∧ s.Sees p.2 := by
  simp [Sees, Mentions.values, or_imp, forall_and]

theorem sees_list {xs : List α} : s.Sees xs ↔ ∀ x ∈ xs, s.Sees x := by
  simp only [Sees, Mentions.values, List.mem_flatMap]
  refine ⟨fun h x hx v hv => h v ⟨x, hx, hv⟩, fun h v hv => ?_⟩
  obtain ⟨x, hx, hv⟩ := hv
  exact h x hx v hv

@[simp] theorem sees_nil : s.Sees ([] : List α) := by simp [sees_list]

@[simp] theorem sees_cons {x : α} {xs : List α} : s.Sees (x :: xs) ↔ s.Sees x ∧ s.Sees xs := by
  simp [sees_list]

@[simp] theorem sees_append {xs ys : List α} : s.Sees (xs ++ ys) ↔ s.Sees xs ∧ s.Sees ys := by
  simp [sees_list, or_imp, forall_and]

theorem sees_option {o : Option α} : s.Sees o ↔ ∀ x ∈ o, s.Sees x := by
  cases o <;> simp [Sees, Mentions.values]

@[simp] theorem sees_none : s.Sees (none : Option α) := by simp [sees_option]

@[simp] theorem sees_some {x : α} : s.Sees (some x) ↔ s.Sees x := by simp [sees_option]

@[simp] theorem sees_operand {x : OperandInfo} :
    s.Sees x ↔ x.value ∈ s.seen ∧ s.Sees x.zeroPoint := by
  simp [Sees, Mentions.values]

/-- The value can be read and has exactly the given type. -/
def Stands (s : Scope) (v : ValueId) (type : TensorType) : Prop :=
  v ∈ s.seen ∧ s.graph.typeOf v = .ok (.tensor type)

theorem mem_sizes {zs : List Size} (h : s.Sees zs) : ∀ v ∈ Size.values zs, v ∈ s.seen := by
  intro v hv
  obtain ⟨z, hz, rfl⟩ := List.mem_map.1 hv
  exact sees_size.1 (sees_list.1 h z hz)

end Scope

namespace Build

variable {α β : Type} {s : Scope} {b : Build α} {post : α → Scope → Prop}

/-- In the scope `s`, every node that the construction creates reads what has been seen by then, and
a result satisfies `post` in the last scope. -/
def Within : Build α → Scope → (α → Scope → Prop) → Prop
  | done a, s, post => post a s
  | fail _, _, _ => True
  | inspect next, s, post => (next s.graph).Within s post
  | emit op type next, s, post =>
      ∃ h : ∀ v ∈ op.operands, v ∈ s.seen, (next s.graph.nextId).Within (s.emit op type h) post

namespace Within

/-- The last scope comes after the first one. -/
theorem strengthen (h : b.Within s post) : b.Within s fun a s' => s ≤ s' ∧ post a s' := by
  have hlift : ∀ s₀, s₀ ≤ s → b.Within s fun a s' => s₀ ≤ s' ∧ post a s' := by
    induction b generalizing s with
    | done a => exact fun s₀ hle => ⟨hle, h⟩
    | fail e => exact fun _ _ => trivial
    | inspect next ih => exact ih s.graph h
    | emit op type next ih =>
        intro s₀ hle
        obtain ⟨hop, hnext⟩ := h
        exact ⟨hop, ih _ hnext s₀ (hle.trans (s.le_emit type hop))⟩
  exact hlift s le_rfl

/-- One part after the other. -/
theorem bind {f : α → Build β} {post' : β → Scope → Prop} (h : b.Within s post)
    (hf : ∀ a s', s ≤ s' → post a s' → (f a).Within s' post') : (b >>= f).Within s post' := by
  have hseq : ∀ {s₁ : Scope}, b.Within s₁ (fun a s' => s ≤ s' ∧ post a s') →
      (b >>= f).Within s₁ post' := by
    intro s₁ hb
    clear h
    induction b generalizing s₁ with
    | done a => exact hf a s₁ hb.1 hb.2
    | fail e => exact trivial
    | inspect next ih => exact ih s₁.graph hb
    | emit op type next ih => exact ⟨hb.1, ih s₁.graph.nextId hb.2⟩
  exact hseq h.strengthen

theorem pure {a : α} (h : post a s) : (Pure.pure a : Build α).Within s post := h

/-- A question about the program. -/
theorem query {f : Graph → Except GraphError α} {next : α → Build β} {post : β → Scope → Prop}
    (h : ∀ a, f s.graph = .ok a → (next a).Within s post) :
    (Build.query f >>= next).Within s post := by
  cases hf : f s.graph with
  | ok a =>
      simp only [Build.query, Bind.bind, Build.bind, Within, hf]
      exact h a hf
  | error e => simp only [Build.query, Bind.bind, Build.bind, Within, hf]

theorem tensorType {v : ValueId} {next : TensorType → Build β} {post : β → Scope → Prop}
    (h : ∀ type, s.graph.tensorType v = .ok type → (next type).Within s post) :
    (Build.tensorType v >>= next).Within s post := query h

/-- A computation outside the program. -/
theorem attempt {c : Except LowerError α} {next : α → Build β} {post : β → Scope → Prop}
    (h : ∀ a, c = .ok a → (next a).Within s post) : (Build.ofExcept c >>= next).Within s post := by
  cases c with
  | ok a => exact h a rfl
  | error e => exact trivial

/-- What happens to a draft: the created values were seen last. -/
theorem run (h : b.Within s post) {d d' : Draft} (hd : d.graph = s.graph) {a : α}
    (hrun : b.run d = (.ok a, d')) :
    ∃ s' ids, post a s' ∧ s'.graph = d'.graph ∧ d'.created.toList = d.created.toList ++ ids ∧
      s'.seen = s.seen ++ ids := by
  induction b generalizing s d with
  | done a =>
      cases hrun
      exact ⟨s, [], h, hd.symm, by simp, by simp⟩
  | fail e => cases hrun
  | inspect next ih => exact ih d.graph (hd ▸ h) hd hrun
  | emit op type next ih =>
      obtain ⟨hop, hnext⟩ := h
      have hid : d.graph.nextId = s.graph.nextId := by rw [hd]
      have hgraph : (d.emit op type).graph = (s.emit op type hop).graph := by
        simp [Draft.emit, Scope.emit, hd]
      have hrun' : (next s.graph.nextId).run (d.emit op type) = (.ok a, d') := hid ▸ hrun
      obtain ⟨s', ids, hpost, hgraph', hcreated, hseen⟩ := ih _ hnext hgraph hrun'
      refine ⟨s', s.graph.nextId :: ids, hpost, hgraph', ?_, ?_⟩
      · rw [hcreated]
        simp [Draft.emit, hid]
      · rw [hseen]
        simp [Scope.emit]

end Within

/-- The construction stays within what it has seen, and so does its result. -/
def Stays [Mentions α] (b : Build α) (s : Scope) : Prop := b.Within s fun a s' => s'.Sees a

namespace Stays

variable [Mentions α]

theorem pure {a : α} (h : s.Sees a) : (Pure.pure a : Build α).Stays s := h

theorem bind {f : α → Build β} {post : β → Scope → Prop} (h : b.Stays s)
    (hf : ∀ a s', s ≤ s' → s'.Sees a → (f a).Within s' post) : (b >>= f).Within s post :=
  Within.bind h hf

theorem create {op : Op} {type : ValueType} (h : ∀ v ∈ op.operands, v ∈ s.seen) :
    (Build.create op type).Stays s :=
  ⟨h, Scope.sees_value.2 (by simp [Scope.emit])⟩

/-- A list of results that are made one after the other. -/
theorem mapM {γ : Type} {f : γ → Build α} {xs : List γ}
    (h : ∀ x ∈ xs, ∀ s', s ≤ s' → (f x).Stays s') : (xs.mapM f).Stays s := by
  induction xs generalizing s with
  | nil => exact .pure Scope.sees_nil
  | cons x xs ih =>
      rw [List.mapM_cons]
      refine bind (h x (by simp) s le_rfl) fun y s₁ hle₁ hy => ?_
      refine bind (ih fun x' hx' s' hle => h x' (by simp [hx']) s' (hle₁.trans hle)) ?_
      intro ys s₂ hle₂ hys
      exact .pure (Scope.sees_cons.2 ⟨hy.mono hle₂, hys⟩)

theorem forM {γ : Type} {f : γ → Build Unit} {xs : List γ}
    (h : ∀ x ∈ xs, ∀ s', s ≤ s' → (f x).Stays s') : (xs.forM f).Stays s := by
  induction xs generalizing s with
  | nil => exact .pure (Scope.sees_unit _)
  | cons x xs ih =>
      refine bind (h x (by simp) s le_rfl) fun _ s₁ hle₁ _ => ?_
      exact ih fun x' hx' s' hle => h x' (by simp [hx']) s' (hle₁.trans hle)

/-- A result that is made step by step. -/
theorem foldlM {γ : Type} {step : α → γ → Build α} {xs : List γ} {a : α} (ha : s.Sees a)
    (h : ∀ a, ∀ x ∈ xs, ∀ s', s ≤ s' → s'.Sees a → (step a x).Stays s') :
    (xs.foldlM step a).Stays s := by
  induction xs generalizing s a with
  | nil => exact .pure ha
  | cons x xs ih =>
      rw [List.foldlM_cons]
      refine bind (h a x (by simp) s le_rfl ha) fun a' s₁ hle₁ ha' => ?_
      exact ih ha' fun a'' x' hx' s' hle => h a'' x' (by simp [hx']) s' (hle₁.trans hle)

end Stays

variable {v w : ValueId} {z z' : Size} {zs zs' : List Size}

/-! ## Scalars and sizes -/

theorem scalar_stays (value : Scalar) (dtype : DType) : (scalar value dtype).Stays s :=
  .create (by simp [Op.operands])

theorem scalarCast_stays (hv : v ∈ s.seen) (dtype : DType) : (scalarCast v dtype).Stays s :=
  .create (by simp [Op.operands, hv])

theorem scalarAddConst_stays (hv : v ∈ s.seen) (n : Int) (dtype : DType) :
    (scalarAddConst v n dtype).Stays s := by
  refine .bind (scalar_stays _ dtype) fun rhs s' hle hrhs => Stays.create ?_
  simp [Op.operands, hle hv, Scope.sees_value.1 hrhs]

theorem guard_stays {cond : GuardCond} (h : ∀ v ∈ cond.operands, v ∈ s.seen) (message : String) :
    (guard cond message).Stays s :=
  .create h

theorem index_stays (n : Int) : (index n).Stays s := by
  refine Stays.bind (.create (by simp [Op.operands])) fun v s' _ hv => .pure ?_
  simpa using hv

theorem dim_stays (hv : v ∈ s.seen) (axis : Nat) : (dim v axis).Stays s := by
  refine Within.tensorType fun type _ => ?_
  split
  · exact index_stays _
  · refine Stays.bind (.create (by simp [Op.operands, hv])) fun w s' _ hw => .pure ?_
    simpa using hw
  · exact trivial

theorem dims_stays (hv : v ∈ s.seen) : (dims v).Stays s :=
  Within.tensorType fun _ _ => Stays.mapM fun axis _ _ hle => dim_stays (hle hv) axis

theorem arith_stays (op : ArithOp) (hz : s.Sees z) (hz' : s.Sees z') :
    (arith op z z').Stays s := by
  unfold arith
  dsimp only
  split
  · exact index_stays _
  · split
    · exact .pure hz'
    · split
      · exact .pure hz
      · rw [Scope.sees_size] at hz hz'
        refine Stays.bind (.create (by simp [Op.operands, hz, hz'])) fun v s' _ hv => .pure ?_
        simpa using hv

theorem arithConst_stays (op : ArithOp) (hz : s.Sees z) (n : Int) :
    (index n >>= arith op z).Stays s :=
  .bind (index_stays n) fun _ _ hle hn => arith_stays op (hz.mono hle) hn

/-! ## Tensors -/

theorem filled_stays (hzs : s.Sees zs) (hv : v ∈ s.seen) (dtype : DType) :
    (filled zs v dtype).Stays s := by
  refine Stays.create fun u hu => ?_
  rcases List.mem_append.1 hu with hu | hu
  · exact Scope.mem_sizes hzs u hu
  · exact List.mem_singleton.1 hu ▸ hv

theorem zeros_stays (hzs : s.Sees zs) (dtype : DType) : (zeros zs dtype).Stays s :=
  .bind (scalar_stays _ dtype) fun _ _ hle hzero =>
    filled_stays (hzs.mono hle) (Scope.sees_value.1 hzero) dtype

theorem mem_cons_sizes (hv : v ∈ s.seen) (hzs : s.Sees zs) :
    ∀ u ∈ v :: Size.values zs, u ∈ s.seen :=
  List.forall_mem_cons.2 ⟨hv, Scope.mem_sizes hzs⟩

theorem broadcast_stays (hv : v ∈ s.seen) (hzs : s.Sees zs) (added : List Nat) :
    (broadcast v zs added).Stays s := by
  refine Within.tensorType fun type _ => ?_
  dsimp only
  split
  · exact trivial
  · exact Stays.create (mem_cons_sizes hv hzs)

theorem broadcastTo_stays (hv : v ∈ s.seen) (hzs : s.Sees zs) :
    (broadcastTo v zs).Stays s := by
  refine Within.tensorType fun type _ => ?_
  dsimp only
  split
  · exact trivial
  · split
    · exact .pure (Scope.sees_value.2 hv)
    · exact Stays.create (mem_cons_sizes hv hzs)

/-- An operation on one tensor. -/
theorem createUnary_stays {op : Op} (hv : v ∈ s.seen) (hop : op.operands = [v]) (dtype : DType)
    (shape : Shape) : (createTensor op dtype shape).Stays s :=
  Stays.create (by simp [hop, hv])

theorem transpose_stays (hv : v ∈ s.seen) (perm : Permutation) : (transpose v perm).Stays s := by
  refine Within.tensorType fun type _ => ?_
  split
  · exact trivial
  · split
    · exact .pure (Scope.sees_value.2 hv)
    · exact createUnary_stays hv rfl _ _

theorem flip_stays (hv : v ∈ s.seen) (axes : List Nat) : (flip v axes).Stays s := by
  refine Within.tensorType fun type _ => ?_
  split
  · exact trivial
  · split
    · exact .pure (Scope.sees_value.2 hv)
    · exact createUnary_stays hv rfl _ _

theorem expandShape_stays (hv : v ∈ s.seen) (groups : Reassociation) (hzs : s.Sees zs) :
    (expandShape v groups zs).Stays s := by
  refine Within.tensorType fun type _ => ?_
  split
  · exact trivial
  · split
    · exact trivial
    · exact Stays.create (mem_cons_sizes hv hzs)

theorem collapseShape_stays (hv : v ∈ s.seen) (groups : Reassociation) :
    (collapseShape v groups).Stays s := by
  refine Within.tensorType fun type _ => ?_
  split
  · exact trivial
  · exact createUnary_stays hv rfl _ _

theorem pad_stays (hv : v ∈ s.seen) (low high : List Int) (hw : w ∈ s.seen) :
    (pad v low high w).Stays s := by
  refine Within.tensorType fun type _ => ?_
  split
  · exact trivial
  · split
    · exact .pure (Scope.sees_value.2 hv)
    · exact Stays.create (by simp [Op.operands, hv, hw])

theorem insertSlice_stays (hv : v ∈ s.seen) (hw : w ∈ s.seen) (hzs : s.Sees zs)
    (strides : List Int) : (insertSlice v w zs strides).Stays s := by
  refine Within.tensorType fun part _ => Within.tensorType fun type _ => ?_
  split
  · exact trivial
  · split
    · exact trivial
    · exact Stays.create (List.forall_mem_cons.2 ⟨hv, mem_cons_sizes hw hzs⟩)

theorem narrow_stays (hv : v ∈ s.seen) (axis : Nat) (start : Int) (len : Nat) :
    (narrow v axis start len).Stays s := by
  refine Within.tensorType fun type _ => ?_
  split
  · exact createUnary_stays hv rfl _ _
  · exact trivial

theorem squeeze_stays (hv : v ∈ s.seen) (axis : Nat) : (squeeze v axis).Stays s := by
  refine Within.tensorType fun type _ => ?_
  split
  · exact createUnary_stays hv rfl _ _
  · exact trivial

theorem unsqueeze_stays (hv : v ∈ s.seen) (axis : Nat) : (unsqueeze v axis).Stays s := by
  refine Within.tensorType fun type _ => ?_
  split
  · exact createUnary_stays hv rfl _ _
  · exact trivial

theorem sum_stays (hv : v ∈ s.seen) (axis : Nat) : (sum v axis).Stays s := by
  refine Within.tensorType fun type _ => ?_
  split
  · exact createUnary_stays hv rfl _ _
  · exact trivial

theorem elementwise_stays (op : ElementwiseOp) (hv : v ∈ s.seen) (hw : w ∈ s.seen)
    (dtype : DType) : (elementwise op v w dtype).Stays s := by
  refine Within.tensorType fun type _ => Within.query fun other _ => ?_
  exact Stays.create (by simp [Op.operands, hv, hw])

theorem convert_stays (hv : v ∈ s.seen) (dtype : DType) : (convert v dtype).Stays s := by
  refine Within.tensorType fun type _ => ?_
  split
  · exact .pure (Scope.sees_value.2 hv)
  · exact createUnary_stays hv rfl _ _

/-- A value that is cast has exactly the type that it is cast to. -/
theorem cast_within (hv : v ∈ s.seen) (target : TensorType) :
    (cast v target).Within s fun w s' => s'.Stands w target := by
  refine Within.tensorType fun type htype => ?_
  split
  · exact trivial
  split
  · exact trivial
  split
  · exact trivial
  split
  next hsame =>
    exact .pure ⟨hv, Graph.typeOf_eq_ok.2 (hsame ▸ Graph.tensorType_eq_ok.1 htype)⟩
  next =>
    exact ⟨by simp [Op.operands, hv], by simp [Scope.emit],
      Graph.typeOf_eq_ok.2 ⟨_, Graph.node?_create_self ..⟩⟩

theorem finish_within (hv : v ∈ s.seen) (target : TensorType) :
    (finish v target).Within s fun w s' => s'.Stands w target :=
  .bind (convert_stays hv target.dtype) fun _ _ _ hw => cast_within (Scope.sees_value.1 hw) target

theorem checkOperand_stays (kernel : String) (operand : Nat) (v : ValueId) (map : AffineMap) :
    (checkOperand kernel operand v map).Stays s := by
  refine Within.tensorType fun type _ => ?_
  split
  · exact .pure (Scope.sees_unit _)
  · exact trivial

theorem reduce_stays (spec : ReductionSpec) {init : ValueId}
    {zeroPoints : Option (ValueId × ValueId)} (hv : v ∈ s.seen) (hw : w ∈ s.seen)
    (hzeros : s.Sees zeroPoints) (hinit : init ∈ s.seen) :
    (reduce spec v w zeroPoints init).Stays s := by
  unfold reduce
  split
  · exact trivial
  next indexing =>
    refine Stays.bind (.forM fun entry _ s' _ => checkOperand_stays _ _ _ _) fun _ s' hle _ => ?_
    refine Within.tensorType fun type _ => Stays.create ?_
    cases zeroPoints with
    | none => simp [Op.operands, hle hv, hle hw, hle hinit]
    | some zs =>
        simp at hzeros
        simp [Op.operands, hle hv, hle hw, hle hinit, hle hzeros.1, hle hzeros.2]

end Build

end TensorLowering
