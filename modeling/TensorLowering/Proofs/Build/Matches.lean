import TensorLowering.Lowering.Agreement
import TensorLowering.Lowering.SignedStorage
import TensorLowering.Proofs.Build.PlainOperations
import TensorLowering.Proofs.Conversion.WellFormed
import TensorLowering.Proofs.Typing.Respects

/-!
# Constructions on two programs

A construction sees of a value only its type, and of a size only the number that is known of it.
`Matches` follows two constructions on two programs at once: both give a result, or both fail, and
for the same reason if they decline. Main statement: what has been followed declines on both
programs or on neither.
-/
namespace TensorLowering

/-- Two programs under construction. -/
structure Pair where
  left : Draft
  right : Draft

namespace Pair

/-- Both programs declare what they declared. -/
instance : LE Pair := ⟨fun s s' =>
  (∀ v type, s.left.graph.typeOf v = .ok type → s'.left.graph.typeOf v = .ok type) ∧
    ∀ v type, s.right.graph.typeOf v = .ok type → s'.right.graph.typeOf v = .ok type⟩

instance : Preorder Pair where
  le_refl _ := ⟨fun _ _ h => h, fun _ _ h => h⟩
  le_trans _ _ _ h h' := ⟨fun v type hv => h'.1 v type (h.1 v type hv),
    fun v type hv => h'.2 v type (h.2 v type hv)⟩

/-- The values are declared with one type. -/
def Same (s : Pair) (v v' : ValueId) : Prop := s.left.graph.SameType s.right.graph v v'

theorem Same.mono {s s' : Pair} {v v' : ValueId} (h : s.Same v v') (hle : s ≤ s') :
    s'.Same v v' := by
  obtain ⟨type, hv, hv'⟩ := h
  exact ⟨type, hle.1 v type hv, hle.2 v' type hv'⟩

/-- The values are declared as tensors of one shape, or as no tensors. -/
def SameShape (s : Pair) (v v' : ValueId) : Prop :=
  ∃ type type' : ValueType, s.left.graph.typeOf v = .ok type ∧ s.right.graph.typeOf v' = .ok type' ∧
    type.tensor?.map TensorType.shape = type'.tensor?.map TensorType.shape

theorem Same.sameShape {s : Pair} {v v' : ValueId} (h : s.Same v v') : s.SameShape v v' := by
  obtain ⟨type, hv, hv'⟩ := h
  exact ⟨type, type, hv, hv', rfl⟩

theorem SameShape.mono {s s' : Pair} {v v' : ValueId} (h : s.SameShape v v') (hle : s ≤ s') :
    s'.SameShape v v' := by
  obtain ⟨type, type', hv, hv', hshape⟩ := h
  exact ⟨type, type', hle.1 v type hv, hle.2 v' type' hv', hshape⟩

end Pair

theorem Draft.Extends.typeOf {d d' : Draft} {ids : List ValueId} (h : d.Extends d' ids)
    {v : ValueId} {type : ValueType} (hv : d.graph.typeOf v = .ok type) :
    d'.graph.typeOf v = .ok type := by
  obtain ⟨op, hnode⟩ := Graph.typeOf_eq_ok.1 hv
  exact Graph.typeOf_eq_ok.2 ⟨op, (h.node v (Graph.lt_size_of_node? hnode)).trans hnode⟩

/-- The same is known of the sizes. -/
def Size.Alike (z z' : Size) : Prop := z.known = z'.known

/-! ## Lists of counterparts -/

section Counterparts

variable {α α' β β' : Type} {R : α → α' → Prop} {S : β → β' → Prop} {xs : List α} {xs' : List α'}
  {ys : List β} {ys' : List β'}

theorem forall₂_eq_self : List.Forall₂ (fun x x' => x' = x) xs xs :=
  List.forall₂_same.2 fun _ _ => rfl

theorem forall₂_zip_zip (h : List.Forall₂ R xs xs') (h' : List.Forall₂ S ys ys') :
    List.Forall₂ (fun e e' => R e.1 e'.1 ∧ S e.2 e'.2) (xs.zip ys) (xs'.zip ys') := by
  induction h generalizing ys ys' with
  | nil => exact .nil
  | cons hx _ ih =>
      cases h' with
      | nil => exact .nil
      | cons hy h' => exact .cons ⟨hx, hy⟩ (ih h')

theorem forall₂_zipIdx (h : List.Forall₂ R xs xs') (n : Nat) :
    List.Forall₂ (fun e e' => R e.1 e'.1 ∧ e'.2 = e.2) (xs.zipIdx n) (xs'.zipIdx n) := by
  induction h generalizing n with
  | nil => exact .nil
  | cons hx _ ih => exact .cons ⟨hx, rfl⟩ (ih (n + 1))

end Counterparts

namespace Build

variable {α α' β β' γ γ' : Type} {b : Build α} {b' : Build α'} {s : Pair}
  {post : α → α' → Pair → Prop}

/-- On the two programs of a pair, both constructions give results, which satisfy `post` in the
last pair, or both fail, for the same reason if they decline. -/
def Matches (b : Build α) (b' : Build α') (s : Pair) (post : α → α' → Pair → Prop) : Prop :=
  match b.run s.left, b'.run s.right with
  | (.ok a, d), (.ok a', d') => post a a' ⟨d, d'⟩
  | (.error e, _), (.error e', _) => e.reason? = e'.reason?
  | _, _ => False

/-- The reason for which a construction declines. -/
def reason? (b : Build α) (d : Draft) : Option DeclineReason :=
  match (b.run d).1 with
  | .ok _ => none
  | .error e => e.reason?

theorem le_run (b : Build α) (b' : Build α') (s : Pair) :
    s ≤ ⟨(b.run s.left).2, (b'.run s.right).2⟩ := by
  obtain ⟨ids, hids⟩ := run_extends b s.left
  obtain ⟨ids', hids'⟩ := run_extends b' s.right
  exact ⟨fun _ _ hv => hids.typeOf hv, fun _ _ hv => hids'.typeOf hv⟩

/-- A construction that may not decline gives no reason. -/
theorem Plain.reason?_eq_none (h : b.Plain False) (d : Draft) : b.reason? d = none := by
  induction b generalizing d with
  | done a => rfl
  | fail e => exact h.resolve_right id
  | inspect next ih => exact ih d.graph (h d.graph) d
  | emit op type next ih => exact ih d.graph.nextId (h.2 _) (d.emit op type)

/-- What follows gives no reason if it may not decline. -/
theorem reason?_bind_plain {f : α → Build β} (hf : ∀ a, (f a).Plain False) (d : Draft) :
    (b >>= f).reason? d = b.reason? d := by
  have hnone := fun a d' => (hf a).reason?_eq_none d'
  unfold reason? at hnone ⊢
  rw [run_bind]
  cases b.run d with
  | mk r d' =>
      cases r with
      | ok a => exact hnone a d'
      | error e => rfl

theorem reason?_attempt {c : Except LowerError γ} {next : γ → Build α} {next' : γ → Build α'}
    {d d' : Draft} (h : ∀ a, (next a).reason? d = (next' a).reason? d') :
    (ofExcept c >>= next).reason? d = (ofExcept c >>= next').reason? d' := by
  cases c with
  | ok a => exact h a
  | error e => rfl

theorem reason?_eq_of_plain (h : b.Plain False) (h' : b'.Plain False) (d d' : Draft) :
    b.reason? d = b'.reason? d' :=
  (h.reason?_eq_none d).trans (h'.reason?_eq_none d').symm

namespace Matches

theorem cases (h : b.Matches b' s post) :
    (∃ a a' d d', b.run s.left = (.ok a, d) ∧ b'.run s.right = (.ok a', d') ∧ s ≤ ⟨d, d'⟩ ∧
      post a a' ⟨d, d'⟩) ∨
    ∃ e e' d d', b.run s.left = (.error e, d) ∧ b'.run s.right = (.error e', d') ∧
      e.reason? = e'.reason? := by
  have hle := le_run b b' s
  unfold Matches at h
  cases hleft : b.run s.left with
  | mk r d =>
      cases hright : b'.run s.right with
      | mk r' d' =>
          rw [hleft, hright] at h hle
          cases r with
          | ok a =>
              cases r' with
              | ok a' => exact .inl ⟨a, a', d, d', rfl, rfl, hle, h⟩
              | error e' => exact h.elim
          | error e =>
              cases r' with
              | ok a' => exact h.elim
              | error e' => exact .inr ⟨e, e', d, d', rfl, rfl, h⟩

/-- One pair of parts after the other. -/
theorem bind {f : α → Build β} {f' : α' → Build β'} {post' : β → β' → Pair → Prop}
    (h : b.Matches b' s post)
    (hf : ∀ a a' s', s ≤ s' → post a a' s' → (f a).Matches (f' a') s' post') :
    (b >>= f).Matches (b' >>= f') s post' := by
  unfold Matches
  rw [run_bind, run_bind]
  rcases h.cases with ⟨a, a', d, d', hrun, hrun', hle, hpost⟩ | ⟨e, e', d, d', hrun, hrun', he⟩
  · rw [hrun, hrun']
    exact hf a a' ⟨d, d'⟩ hle hpost
  · rw [hrun, hrun']
    exact he

/-- What follows gives the reasons, unless there are reasons already. -/
theorem reason?_bind {f : α → Build β} {f' : α' → Build β'} (h : b.Matches b' s post)
    (hf : ∀ a a' s', s ≤ s' → post a a' s' → (f a).reason? s'.left = (f' a').reason? s'.right) :
    (b >>= f).reason? s.left = (b' >>= f').reason? s.right := by
  unfold reason? at hf ⊢
  rw [run_bind, run_bind]
  rcases h.cases with ⟨a, a', d, d', hrun, hrun', hle, hpost⟩ | ⟨e, e', d, d', hrun, hrun', he⟩
  · rw [hrun, hrun']
    exact hf a a' ⟨d, d'⟩ hle hpost
  · rw [hrun, hrun']
    exact he

theorem weaken {post' : α → α' → Pair → Prop} (h : b.Matches b' s post)
    (himp : ∀ a a' s', s ≤ s' → post a a' s' → post' a a' s') : b.Matches b' s post' := by
  rw [← bind_pure b, ← bind_pure b']
  exact h.bind himp

theorem pure {a : α} {a' : α'} (h : post a a' s) :
    (Pure.pure a : Build α).Matches (Pure.pure a') s post := h

theorem fail {e e' : LowerError} (h : e.reason? = e'.reason?) :
    (Build.fail e : Build α).Matches (Build.fail e' : Build α') s post := h

/-- A question that has one answer on both programs. -/
theorem of_query {f f' : Graph → Except GraphError α} (h : f s.left.graph = f' s.right.graph) :
    (Build.query f).Matches (Build.query f') s fun a a' s' => s' = s ∧ a' = a ∧
      f s.left.graph = .ok a := by
  unfold Matches
  rw [run_query, run_query, ← h]
  cases f s.left.graph with
  | ok a => exact ⟨rfl, rfl, rfl⟩
  | error e => rfl

theorem of_tensorType {v v' : ValueId} (hv : s.Same v v') :
    (Build.tensorType v).Matches (Build.tensorType v') s fun t t' s' => s' = s ∧ t' = t := by
  obtain ⟨type, hv, hv'⟩ := hv
  unfold Matches Build.tensorType
  rw [run_query, run_query, Graph.tensorType, hv, Graph.tensorType, hv']
  cases type with
  | tensor t => exact ⟨rfl, rfl⟩
  | _ => rfl

theorem query {f f' : Graph → Except GraphError γ} {next : γ → Build α} {next' : γ → Build α'}
    (hsame : f s.left.graph = f' s.right.graph)
    (h : ∀ a, f s.left.graph = .ok a → (next a).Matches (next' a) s post) :
    (Build.query f >>= next).Matches (Build.query f' >>= next') s post := by
  refine (of_query hsame).bind ?_
  rintro a _ _ - ⟨rfl, rfl, ha⟩
  exact h _ ha

theorem tensorType {v v' : ValueId} {next : TensorType → Build α} {next' : TensorType → Build α'}
    (hv : s.Same v v') (h : ∀ type, (next type).Matches (next' type) s post) :
    (Build.tensorType v >>= next).Matches (Build.tensorType v' >>= next') s post := by
  refine (of_tensorType hv).bind ?_
  rintro t _ _ - ⟨rfl, rfl⟩
  exact h _

/-- What follows sees of the types only the shape. -/
theorem tensorShape {v v' : ValueId} {next : TensorType → Build α} {next' : TensorType → Build α'}
    (hv : s.SameShape v v') (h : ∀ type dtype,
      (next type).Matches (next' { type with dtype := dtype }) s post) :
    (Build.tensorType v >>= next).Matches (Build.tensorType v' >>= next') s post := by
  obtain ⟨type, type', hv, hv', hshape⟩ := hv
  unfold Matches Build.tensorType
  rw [run_bind, run_bind, run_query, run_query, Graph.tensorType, hv, Graph.tensorType, hv']
  cases htensor : type.tensor? with
  | none =>
      rw [htensor] at hshape
      cases htensor' : type'.tensor? with
      | none => simp only [Bind.bind, Except.bind, htensor, htensor']; rfl
      | some t' => rw [htensor'] at hshape; cases hshape
  | some t =>
      rw [htensor] at hshape
      cases htensor' : type'.tensor? with
      | none => rw [htensor'] at hshape; cases hshape
      | some t' =>
          obtain ⟨dtype', shape'⟩ := t'
          rw [htensor'] at hshape
          obtain rfl : t.shape = shape' := Option.some.inj hshape
          simp only [Bind.bind, Except.bind, htensor, htensor']
          exact h t dtype'

/-- A computation outside the program. -/
theorem attempt {c : Except LowerError γ} {next : γ → Build α} {next' : γ → Build α'}
    (h : ∀ a, c = .ok a → (next a).Matches (next' a) s post) :
    (ofExcept c >>= next).Matches (ofExcept c >>= next') s post := by
  cases c with
  | ok a => exact h a rfl
  | error e => rfl

theorem create {op op' : Op} {type : ValueType} :
    (Build.create op type).Matches (Build.create op' type) s fun v v' s' => s'.Same v v' :=
  ⟨type, Graph.typeOf_eq_ok.2 ⟨op, Graph.node?_create_self ..⟩,
    Graph.typeOf_eq_ok.2 ⟨op', Graph.node?_create_self ..⟩⟩

/-- Lists of results that are made one after the other. -/
theorem mapM {R : γ → γ' → Prop} {f : γ → Build α} {f' : γ' → Build α'} {xs : List γ}
    {xs' : List γ'} (hxs : List.Forall₂ R xs xs')
    (hmono : ∀ {a a' s s'}, s ≤ s' → post a a' s → post a a' s')
    (h : ∀ x x' s', s ≤ s' → R x x' → (f x).Matches (f' x') s' post) :
    (xs.mapM f).Matches (xs'.mapM f') s fun ys ys' s' =>
      List.Forall₂ (fun y y' => post y y' s') ys ys' := by
  induction hxs generalizing s with
  | nil => exact .pure .nil
  | cons hx hxs ih =>
      rw [List.mapM_cons, List.mapM_cons]
      refine bind (h _ _ s le_rfl hx) fun y y' s₁ hle₁ hy => ?_
      refine bind (ih fun x x' s' hle => h x x' s' (hle₁.trans hle)) fun ys ys' s₂ hle₂ hys => ?_
      exact .pure (.cons (hmono hle₂ hy) hys)

/-- Three results that are made one after the other. -/
theorem triple {R : γ → γ' → Prop} {f : γ → Build α} {f' : γ' → Build α'} {t : Triple γ}
    {t' : Triple γ'} (ht : Triple.Related R t t')
    (hmono : ∀ {a a' s s'}, s ≤ s' → post a a' s → post a a' s')
    (h : ∀ x x' s', s ≤ s' → R x x' → (f x).Matches (f' x') s' post) :
    (t.mapM f).Matches (t'.mapM f') s fun y y' s' => y.Related (post · · s') y' := by
  obtain ⟨hfirst, hsecond, hthird⟩ := ht
  refine bind (h _ _ s le_rfl hfirst) fun y₁ y₁' s₁ hle₁ h₁ => ?_
  refine bind (h _ _ s₁ hle₁ hsecond) fun y₂ y₂' s₂ hle₂ h₂ => ?_
  refine bind (h _ _ s₂ (hle₁.trans hle₂) hthird) fun y₃ y₃' s₃ hle₃ h₃ => ?_
  exact .pure ⟨hmono (hle₂.trans hle₃) h₁, hmono hle₃ h₂, h₃⟩

/-- Checks that are made one after the other. -/
theorem forM {R : γ → γ' → Prop} {f : γ → Build PUnit} {f' : γ' → Build PUnit} {xs : List γ}
    {xs' : List γ'} (hxs : List.Forall₂ R xs xs')
    (h : ∀ x x' s', s ≤ s' → R x x' → (f x).Matches (f' x') s' fun _ _ _ => True) :
    (xs.forM f).Matches (xs'.forM f') s fun _ _ _ => True := by
  induction hxs generalizing s with
  | nil => exact .pure trivial
  | cons hx hxs ih =>
      rw [List.forM_eq_forM, List.forM_eq_forM, List.forM_cons, List.forM_cons]
      exact bind (h _ _ s le_rfl hx) fun _ _ s₁ hle _ =>
        ih fun x x' s' hle' => h x x' s' (hle.trans hle')

/-- Results that are made step by step. -/
theorem foldlM {step : α → γ → Build α} {step' : α' → γ → Build α'} {xs : List γ} {a : α} {a' : α'}
    (ha : post a a' s)
    (h : ∀ a a' x s', s ≤ s' → post a a' s' → (step a x).Matches (step' a' x) s' post) :
    (xs.foldlM step a).Matches (xs.foldlM step' a') s post := by
  induction xs generalizing s a a' with
  | nil => exact .pure ha
  | cons x xs ih =>
      rw [List.foldlM_cons, List.foldlM_cons]
      refine bind (h a a' x s le_rfl ha) fun y y' s₁ hle₁ hy => ?_
      exact ih hy fun a a' x s' hle => h a a' x s' (hle₁.trans hle)

theorem discard (h : b.Matches b' s post) :
    (Functor.discard b).Matches (Functor.discard b') s fun _ _ _ => True :=
  h.bind fun _ _ _ _ _ => .pure trivial

end Matches

variable {v v' w w' : ValueId} {z z' y y' : Size} {zs zs' : List Size}

/-! ## Scalars and sizes -/

theorem scalar_matches (value value' : Scalar) (dtype : DType) :
    (scalar value dtype).Matches (scalar value' dtype) s fun v v' s' => s'.Same v v' :=
  .create

theorem scalarCast_matches (v v' : ValueId) (dtype : DType) :
    (scalarCast v dtype).Matches (scalarCast v' dtype) s fun v v' s' => s'.Same v v' :=
  .create

theorem scalarAddConst_matches (v v' : ValueId) (n : Int) (dtype : DType) :
    (scalarAddConst v n dtype).Matches (scalarAddConst v' n dtype) s
      fun v v' s' => s'.Same v v' :=
  (scalar_matches _ _ dtype).bind fun _ _ _ _ _ => .create

theorem guard_matches (cond cond' : GuardCond) (message message' : String) :
    (discard (guard cond message)).Matches (discard (guard cond' message')) s fun _ _ _ => True :=
  Matches.create.discard

theorem index_matches (n : Int) :
    (index n).Matches (index n) s fun z z' _ => z.Alike z' :=
  Matches.create.bind fun _ _ _ _ _ => .pure rfl

theorem dim_matches (hv : s.SameShape v v') (axis : Nat) :
    (dim v axis).Matches (dim v' axis) s fun z z' _ => z.Alike z' := by
  refine .tensorShape hv fun type dtype => ?_
  dsimp only
  split
  · exact index_matches _
  · exact Matches.create.bind fun _ _ _ _ _ => .pure rfl
  · exact .fail rfl

theorem dims_matches (hv : s.Same v v') :
    (dims v).Matches (dims v') s fun zs zs' _ => List.Forall₂ Size.Alike zs zs' := by
  refine .tensorType hv fun type => ?_
  refine .mapM forall₂_eq_self (fun _ h => h) fun axis axis' s' hle haxis => ?_
  rw [haxis]
  exact dim_matches (hv.mono hle).sameShape axis

theorem arith_matches (op : ArithOp) (hz : z.Alike z') (hy : y.Alike y') :
    (arith op z y).Matches (arith op z' y') s fun z z' _ => z.Alike z' := by
  unfold arith
  rw [hz, hy]
  dsimp only
  split
  · exact index_matches _
  · split
    · exact .pure hy
    · split
      · exact .pure hz
      · exact Matches.create.bind fun _ _ _ _ _ => .pure rfl

theorem arithConst_matches (op : ArithOp) (hz : z.Alike z') (n : Int) :
    (index n >>= arith op z).Matches (index n >>= arith op z') s fun z z' _ => z.Alike z' :=
  (index_matches n).bind fun _ _ _ _ hn => arith_matches op hz hn

/-! ## Tensors -/

theorem shape_eq_of_alike (h : List.Forall₂ Size.Alike zs zs') :
    Size.shape zs = Size.shape zs' := by
  have hdims : zs.map Size.dim = zs'.map Size.dim := by
    induction h with
    | nil => rfl
    | cons hz _ ih => rw [List.map_cons, List.map_cons, ih, Size.dim, hz, Size.dim]
  rw [Size.shape, hdims, Size.shape]

theorem filled_matches (h : List.Forall₂ Size.Alike zs zs') (v v' : ValueId) (dtype : DType) :
    (filled zs v dtype).Matches (filled zs' v' dtype) s fun v v' s' => s'.Same v v' := by
  unfold filled
  rw [shape_eq_of_alike h]
  exact .create

theorem zeros_matches (h : List.Forall₂ Size.Alike zs zs') (dtype : DType) :
    (zeros zs dtype).Matches (zeros zs' dtype) s fun v v' s' => s'.Same v v' :=
  (scalar_matches _ _ dtype).bind fun _ _ _ _ _ => filled_matches h _ _ dtype

theorem broadcast_matches (hv : s.Same v v') (h : List.Forall₂ Size.Alike zs zs')
    (added : List Nat) :
    (broadcast v zs added).Matches (broadcast v' zs' added) s fun v v' s' => s'.Same v v' := by
  refine .tensorType hv fun type => ?_
  dsimp only
  rw [shape_eq_of_alike h, List.Forall₂.length_eq h]
  split
  · exact .fail rfl
  · exact .create

theorem transpose_matches (hv : s.Same v v') (perm : Permutation) :
    (transpose v perm).Matches (transpose v' perm) s fun v v' s' => s'.Same v v' := by
  refine .tensorType hv fun type => ?_
  split
  · exact .fail rfl
  · split
    · exact .pure hv
    · exact .create

theorem flip_matches (hv : s.Same v v') (axes : List Nat) :
    (flip v axes).Matches (flip v' axes) s fun v v' s' => s'.Same v v' := by
  refine .tensorType hv fun type => ?_
  split
  · exact .fail rfl
  · split
    · exact .pure hv
    · exact .create

theorem collapseShape_matches (hv : s.Same v v') (groups : Reassociation) :
    (collapseShape v groups).Matches (collapseShape v' groups) s fun v v' s' => s'.Same v v' := by
  refine .tensorType hv fun type => ?_
  split
  · exact .fail rfl
  · exact .create

theorem pad_matches (hv : s.Same v v') (low high : List Int) (w w' : ValueId) :
    (pad v low high w).Matches (pad v' low high w') s fun v v' s' => s'.Same v v' := by
  refine .tensorType hv fun type => ?_
  split
  · exact .fail rfl
  · split
    · exact .pure hv
    · exact .create

theorem insertSlice_matches (hv : s.Same v v') (hw : s.Same w w')
    (h : List.Forall₂ Size.Alike zs zs') (strides : List Int) :
    (insertSlice v w zs strides).Matches (insertSlice v' w' zs' strides) s
      fun v v' s' => s'.Same v v' := by
  refine .tensorType hv fun part => .tensorType hw fun type => ?_
  rw [List.Forall₂.length_eq h]
  split
  · exact .fail rfl
  · split
    · exact .fail rfl
    · exact .create

theorem unsqueeze_matches (hv : s.Same v v') (axis : Nat) :
    (unsqueeze v axis).Matches (unsqueeze v' axis) s fun v v' s' => s'.Same v v' := by
  refine .tensorType hv fun type => ?_
  split
  · exact .create
  · exact .fail rfl

theorem elementwise_matches (op : ElementwiseOp) (hv : s.Same v v') (hw : s.Same w w')
    (dtype : DType) :
    (elementwise op v w dtype).Matches (elementwise op v' w' dtype) s
      fun v v' s' => s'.Same v v' := by
  obtain ⟨other, hother, hother'⟩ := hw
  exact .tensorType hv fun type => .query (hother.trans hother'.symm) fun _ _ => .create

theorem convert_matches (hv : s.Same v v') (dtype : DType) :
    (convert v dtype).Matches (convert v' dtype) s fun v v' s' => s'.Same v v' := by
  refine .tensorType hv fun type => ?_
  split
  · exact .pure hv
  · exact .create

theorem cast_matches (hv : s.Same v v') (target : TensorType) :
    (cast v target).Matches (cast v' target) s fun v v' s' => s'.Same v v' := by
  refine .tensorType hv fun type => ?_
  split
  · exact .fail rfl
  split
  · exact .fail rfl
  split
  · exact .fail rfl
  split
  · exact .pure hv
  · exact .create

theorem finish_matches (hv : s.Same v v') (target : TensorType) :
    (finish v target).Matches (finish v' target) s fun v v' s' => s'.Same v v' :=
  (convert_matches hv _).bind fun _ _ _ _ hv => cast_matches hv target

/-! ## Reductions -/

theorem checkOperand_matches (hv : s.SameShape v v') (kernel : String) (operand : Nat)
    (map : AffineMap) :
    (checkOperand kernel operand v map).Matches (checkOperand kernel operand v' map) s
      fun _ _ _ => True := by
  refine .tensorShape hv fun type dtype => ?_
  unfold TensorType.rank
  dsimp only
  split
  · exact .pure trivial
  · exact .fail rfl

theorem reduce_matches {u u' : ValueId} (hv : s.SameShape v v') (hw : s.SameShape w w')
    (hu : s.Same u u') (spec : ReductionSpec) :
    (reduce spec v w none u).Matches (reduce spec v' w' none u') s fun v v' s' => s'.Same v v' := by
  unfold reduce
  split
  next => exact .fail rfl
  next indexing _ =>
    have hoperands : List.Forall₂ s.SameShape [v, w, u] [v', w', u'] :=
      .cons hv (.cons hw (.cons hu.sameShape .nil))
    have hmaps : List.Forall₂ (fun m m' => m' = m) indexing.maps indexing.maps := forall₂_eq_self
    refine Matches.bind (Matches.forM (forall₂_zipIdx (forall₂_zip_zip hoperands hmaps) 0) ?_) ?_
    · rintro ⟨⟨x, map⟩, operand⟩ ⟨⟨x', map'⟩, operand'⟩ s' hle ⟨⟨hx, rfl⟩, rfl⟩
      exact checkOperand_matches (hx.mono hle) _ _ _
    · exact fun _ _ s' hle _ => .tensorType (hu.mono hle) fun _ => .create

/-! ## Agreement -/

theorem requireEqual_matches (hz : z.Alike z') (hy : y.Alike y') (what : String) :
    (requireEqual z y what).Matches (requireEqual z' y' what) s fun _ _ _ => True := by
  unfold requireEqual
  rw [hz, hy]
  split
  · split
    · exact .pure trivial
    · exact .fail rfl
  · exact guard_matches _ _ _ _

theorem requireDivisible_matches (hz : z.Alike z') (hy : y.Alike y') (what : String) :
    (requireDivisible z y what).Matches (requireDivisible z' y' what) s fun _ _ _ => True := by
  unfold requireDivisible
  rw [hz, hy]
  split
  · split
    · exact .fail rfl
    · split
      · exact .pure trivial
      · exact .fail rfl
  · exact guard_matches _ _ _ _

theorem broadcastSize_matches (hz : z.Alike z') (hy : y.Alike y') (axis : Nat) :
    (broadcastSize z y axis).Matches (broadcastSize z' y' axis) s fun z z' _ => z.Alike z' := by
  unfold broadcastSize Size.isOne
  rw [hz, hy]
  dsimp only
  split
  · exact .pure hz
  split
  · exact .pure hy
  split
  · exact .pure hz
  split
  · exact .fail rfl
  · exact (guard_matches _ _ _ _).bind fun _ _ _ _ _ => .pure hz
  · exact (guard_matches _ _ _ _).bind fun _ _ _ _ _ => .pure hy
  · refine (arith_matches .max hz hy).bind fun _ _ _ _ h => ?_
    exact (guard_matches _ _ _ _).bind fun _ _ _ _ _ => (guard_matches _ _ _ _).bind
      fun _ _ _ _ _ => .pure h

theorem broadcastSizes_matches {ys ys' : List Size} (hzs : List.Forall₂ Size.Alike zs zs')
    (hys : List.Forall₂ Size.Alike ys ys') :
    (broadcastSizes zs ys).Matches (broadcastSizes zs' ys') s
      fun zs zs' _ => List.Forall₂ Size.Alike zs zs' := by
  unfold broadcastSizes
  rw [List.Forall₂.length_eq hzs, List.Forall₂.length_eq hys]
  dsimp only
  have houter : List.Forall₂ Size.Alike
      (zs.take (zs'.length - ys'.length) ++ ys.take (ys'.length - zs'.length))
      (zs'.take (zs'.length - ys'.length) ++ ys'.take (ys'.length - zs'.length)) :=
    List.rel_append (List.forall₂_take _ hzs) (List.forall₂_take _ hys)
  have hpairs := forall₂_zip_zip (List.forall₂_drop (zs'.length - ys'.length) hzs)
    (List.forall₂_drop (ys'.length - zs'.length) hys)
  rw [List.Forall₂.length_eq houter]
  refine (Matches.mapM (forall₂_zipIdx hpairs _) (fun _ h => h) ?_).bind
    fun inner inner' _ _ hinner => .pure (List.rel_append houter hinner)
  rintro ⟨⟨m, n⟩, axis⟩ ⟨⟨m', n'⟩, axis'⟩ s' - ⟨⟨hm, hn⟩, rfl⟩
  exact broadcastSize_matches hm hn _

end Build

/-! ## Operands -/

namespace Graph

/-- Both programs have the same node of a value. -/
def Shares (g g' : Graph) (v : ValueId) : Prop :=
  ∃ node, g.node? v = some node ∧ g'.node? v = some node

/-- Both programs have the same node of a value, and of the values that it reads. -/
structure SharesOperand (g g' : Graph) (v : ValueId) : Prop where
  value : g.Shares g' v
  reads : ∀ w ∈ g.reads v, g.Shares g' w

theorem Shares.same {g g' : Graph} {v : ValueId} (h : g.Shares g' v) : g.SameType g' v v := by
  obtain ⟨⟨op, type⟩, hnode, hnode'⟩ := h
  exact ⟨type, typeOf_eq_ok.2 ⟨op, hnode⟩, typeOf_eq_ok.2 ⟨op, hnode'⟩⟩

theorem Shares.typeOf_eq {g g' : Graph} {v : ValueId} (h : g.Shares g' v) :
    g'.typeOf v = g.typeOf v := by
  obtain ⟨type, htype, htype'⟩ := h.same
  exact htype'.trans htype.symm

end Graph

namespace OperandInfo

open Build

variable {s : Pair} {x x' : OperandInfo}

/-- The same is known of two operands of a pair. -/
structure Alike (s : Pair) (x x' : OperandInfo) : Prop where
  value : s.Same x.value x'.value
  type : x'.type = x.type
  quantized : x'.isQuantized = x.isQuantized

theorem Alike.mono {s' : Pair} (h : Alike s x x') (hle : s ≤ s') : Alike s' x x' :=
  ⟨h.value.mono hle, h.type, h.quantized⟩

/-- An operand that two programs share is taken apart in the same way. -/
theorem extract_shared {g g' : Graph} {v : ValueId} (h : g.SharesOperand g' v) :
    extract g' v = extract g v ∧ ∀ x, extract g v = .ok x → g.Shares g' x.value := by
  obtain ⟨⟨node, hnode, hnode'⟩, hreads⟩ := h
  rw [Graph.reads_of_node hnode] at hreads
  have htype : ∀ w, g.Shares g' w → g'.tensorType w = g.tensorType w := fun w hw => by
    rw [Graph.tensorType, hw.typeOf_eq, Graph.tensorType]
  simp only [extract, Graph.node, hnode, hnode', Bind.bind, Except.bind]
  split
  next storage scale zeroPoint hop =>
    have hstorage := hreads storage (by simp [hop, Op.operands])
    refine ⟨by rw [htype storage hstorage], fun x hx => ?_⟩
    cases hdeclared : g.tensorType storage with
    | error e => simp [hdeclared] at hx
    | ok type =>
        rw [hdeclared] at hx
        cases hx
        exact hstorage
  next =>
    have hvalue : g.Shares g' v := ⟨node, hnode, hnode'⟩
    refine ⟨by rw [htype v hvalue], fun x hx => ?_⟩
    cases hdeclared : g.tensorType v with
    | error e => simp [hdeclared] at hx
    | ok type =>
        rw [hdeclared] at hx
        cases hx
        exact hvalue

theorem extract_matches {v : ValueId} (hv : s.left.graph.SharesOperand s.right.graph v) :
    (query (extract · v)).Matches (query (extract · v)) s fun x x' s' => s' = s ∧ x' = x ∧
      Alike s x x := by
  obtain ⟨heq, hshares⟩ := extract_shared hv
  refine (Matches.of_query heq.symm).weaken fun x x' s' _ h => ⟨h.1, h.2.1, ?_⟩
  exact ⟨(hshares x h.2.2).same, rfl, rfl⟩

theorem normalize_matches (h : Alike s x x') :
    x.normalize.Matches x'.normalize s fun x x' s' => Alike s' x x' := by
  obtain ⟨value, type, zeroPoint⟩ := x
  obtain ⟨value', type', zeroPoint'⟩ := x'
  obtain ⟨hvalue, rfl, hquantized⟩ := h
  cases zeroPoint with
  | none =>
      cases zeroPoint' with
      | none => exact .pure ⟨hvalue, rfl, rfl⟩
      | some zeroPoint' => cases hquantized
  | some zeroPoint =>
      cases zeroPoint' with
      | none => cases hquantized
      | some zeroPoint' =>
          refine (scalarCast_matches _ _ _).bind fun truncated truncated' s₁ hle₁ _ => ?_
          dsimp only
          split
          · refine (scalarAddConst_matches _ _ _ _).bind fun shifted shifted' s₂ hle₂ _ => ?_
            refine (scalar_matches _ _ _).bind fun shift shift' s₃ hle₃ hshift => ?_
            refine (elementwise_matches _ (hvalue.mono (hle₁.trans (hle₂.trans hle₃))) hshift
              _).bind fun storage storage' s₄ hle₄ hstorage => ?_
            exact .tensorType hstorage fun type => .pure ⟨hstorage, rfl, rfl⟩
          · exact .pure ⟨hvalue.mono hle₁, rfl, rfl⟩

end OperandInfo

end TensorLowering
