import Mathlib.Order.Basic
import TensorLowering.Proofs.Build.Drafts
import TensorLowering.Proofs.Evaluation.Runs

/-!
# Constructions and the values of their nodes

A stage of a construction is the program built so far together with the values that its nodes have
when it runs. `Gives` follows a construction from a stage: every node that is created can be
evaluated there, and the result satisfies a condition in the last stage. Later stages know all that
earlier ones know. Main statements: constructions can be followed one part after the other, and what
is followed is what happens when the program with the created nodes runs.
-/
namespace TensorLowering

/-- A program under construction, and the values of its nodes. -/
structure Stage where
  supply : Supply
  graph : Graph
  env : Env
  closed : ∀ id value, env.get? id = some value → id.index < graph.size

namespace Stage

variable {s s' s'' : Stage}

/-- The program that a supply runs, with every value that it computes. -/
def ofRun {g : Graph} {supply : Supply} {env : Env} (h : g.evaluate supply = .ok env) : Stage where
  supply := supply
  graph := g
  env := env
  closed := fun _ _ hid => Graph.lt_size_of_evaluate h hid

/-- The next node can be bound. -/
theorem lt_size_of_get?_insert (s : Stage) (op : Op) (type : ValueType) (value : Value)
    (id : ValueId) (w : Value) (hid : (s.env.insert s.graph.nextId value).get? id = some w) :
    id.index < (s.graph.create op type).size := by
  rw [Env.get?_insert] at hid
  rw [Graph.size_create]
  split at hid
  next he =>
    subst he
    exact Nat.lt_succ_self _
  next hne =>
    have hlt := s.closed id w hid
    omega

/-- The stage after the next node has been created. -/
def emit (s : Stage) (op : Op) (type : ValueType) (value : Value) : Stage where
  supply := s.supply
  graph := s.graph.create op type
  env := s.env.insert s.graph.nextId value
  closed := s.lt_size_of_get?_insert op type value

/-- A later stage has the nodes and the values of an earlier one. -/
structure Le (s s' : Stage) : Prop where
  supply : s'.supply = s.supply
  size : s.graph.size ≤ s'.graph.size
  node : ∀ id, id.index < s.graph.size → s'.graph.node? id = s.graph.node? id
  get : ∀ id value, s.env.get? id = some value → s'.env.get? id = some value

instance : LE Stage := ⟨Le⟩

instance : Preorder Stage where
  le_refl s := ⟨rfl, Nat.le_refl _, fun _ _ => rfl, fun _ _ h => h⟩
  le_trans s s' s'' h h' :=
    ⟨h'.supply.trans h.supply, Nat.le_trans h.size h'.size,
      fun id hid => (h'.node id (Nat.lt_of_lt_of_le hid h.size)).trans (h.node id hid),
      fun id value hid => h'.get id value (h.get id value hid)⟩

theorem le_emit (s : Stage) (op : Op) (type : ValueType) (value : Value) :
    s ≤ s.emit op type value where
  supply := rfl
  size := by simp [emit]
  node := fun id hid => Graph.node?_create_of_lt s.graph op type hid
  get := by
    intro id w hid
    have hlt := s.closed id w hid
    have hne : s.graph.nextId ≠ id := by
      rintro rfl
      simp [Graph.nextId] at hlt
    simp [emit, Env.get?_insert, hne, hid]

@[simp] theorem get?_emit_self (s : Stage) (op : Op) (type : ValueType) (value : Value) :
    (s.emit op type value).env.get? s.graph.nextId = some value := by
  simp [emit, Env.get?_insert]

@[simp] theorem node?_emit_self (s : Stage) (op : Op) (type : ValueType) (value : Value) :
    (s.emit op type value).graph.node? s.graph.nextId = some ⟨op, type⟩ := by
  simp [emit]

end Stage

namespace Build

variable {α β : Type} {fails : LowerError → Prop} {s : Stage} {b : Build α}

/-- From the stage `s`, the construction fails in one of the allowed ways, or creates nodes that
have values and ends with a result and a stage that satisfy `post`. -/
def Gives (fails : LowerError → Prop) : Build α → Stage → (α → Stage → Prop) → Prop
  | done a, s, post => post a s
  | fail e, _, _ => fails e
  | inspect next, s, post => (next s.graph).Gives fails s post
  | emit op type next, s, post =>
      ∃ value, evalNode s.supply s.env ⟨op, type⟩ = .ok value ∧
        (next s.graph.nextId).Gives fails (s.emit op type value) post

namespace Gives

/-- The last stage comes after the first one. -/
theorem strengthen {post : α → Stage → Prop} (h : b.Gives fails s post) :
    b.Gives fails s fun a s' => s ≤ s' ∧ post a s' := by
  have hlift : ∀ s₀, s₀ ≤ s → b.Gives fails s fun a s' => s₀ ≤ s' ∧ post a s' := by
    induction b generalizing s with
    | done a => exact fun s₀ hle => ⟨hle, h⟩
    | fail e => exact fun s₀ _ => h
    | inspect next ih => exact fun s₀ hle => ih s.graph h s₀ hle
    | emit op type next ih =>
        intro s₀ hle
        obtain ⟨value, hvalue, hnext⟩ := h
        exact ⟨value, hvalue, ih _ hnext s₀ (hle.trans (s.le_emit op type value))⟩
  exact hlift s le_rfl

theorem weaken {post post' : α → Stage → Prop} (h : b.Gives fails s post)
    (himp : ∀ a s', s ≤ s' → post a s' → post' a s') : b.Gives fails s post' := by
  have hmono : ∀ {s₁ : Stage} {q q' : α → Stage → Prop}, (∀ a s', q a s' → q' a s') →
      b.Gives fails s₁ q → b.Gives fails s₁ q' := by
    intro s₁ q q' hq hb
    clear h himp
    induction b generalizing s₁ with
    | done a => exact hq a s₁ hb
    | fail e => exact hb
    | inspect next ih => exact ih s₁.graph hb
    | emit op type next ih =>
        obtain ⟨value, hvalue, hnext⟩ := hb
        exact ⟨value, hvalue, ih _ hnext⟩
  exact hmono (fun a s' hq => himp a s' hq.1 hq.2) h.strengthen

/-- One part after the other. -/
theorem bind {f : α → Build β} {post : α → Stage → Prop} {post' : β → Stage → Prop}
    (h : b.Gives fails s post)
    (hf : ∀ a s', s ≤ s' → post a s' → (f a).Gives fails s' post') :
    (b >>= f).Gives fails s post' := by
  have hseq : ∀ {s₁ : Stage}, b.Gives fails s₁ (fun a s' => s ≤ s' ∧ post a s') →
      (b >>= f).Gives fails s₁ post' := by
    intro s₁ hb
    clear h
    induction b generalizing s₁ with
    | done a => exact hf a s₁ hb.1 hb.2
    | fail e => exact hb
    | inspect next ih => exact ih s₁.graph hb
    | emit op type next ih =>
        obtain ⟨value, hvalue, hnext⟩ := hb
        exact ⟨value, hvalue, ih _ hnext⟩
  exact hseq h.strengthen

theorem pure {post : α → Stage → Prop} {a : α} (h : post a s) :
    (Pure.pure a : Build α).Gives fails s post := h

/-! ## Running what was constructed -/

/-- What is followed from a stage is what happens: the construction fails as allowed, or the nodes
that it adds to a draft of the program evaluate to the values of its last stage. -/
theorem run {post : α → Stage → Prop} (h : b.Gives fails s post) {d : Draft}
    (hd : d.graph = s.graph) :
    (∃ e d', b.run d = (.error e, d') ∧ fails e) ∨
      ∃ a d' s' ids, b.run d = (.ok a, d') ∧ d'.graph = s'.graph ∧ post a s' ∧ s ≤ s' ∧
        d'.created.toList = d.created.toList ++ ids ∧
        d'.graph.evalFrom s.supply s.env ids = .ok s'.env := by
  induction b generalizing s d with
  | done a => exact .inr ⟨a, d, s, [], rfl, hd, h, le_rfl, by simp, rfl⟩
  | fail e => exact .inl ⟨e, d, rfl, h⟩
  | inspect next ih =>
      have h' : (next d.graph).Gives fails s post := hd ▸ h
      exact ih d.graph h' hd
  | emit op type next ih =>
      obtain ⟨value, hvalue, hnext⟩ := h
      have hd' : (d.emit op type).graph = (s.emit op type value).graph := by
        simp [Draft.emit, Stage.emit, hd]
      have hid : d.graph.nextId = s.graph.nextId := by rw [hd]
      have hemit : (emit op type next).run d = (next s.graph.nextId).run (d.emit op type) := by
        rw [Build.run, hid]
      rcases ih s.graph.nextId hnext hd' with
        ⟨e, d', hrun, he⟩ | ⟨a, d', s', ids, hrun, hgraph, hpost, hle, hcreated, heval⟩
      · exact .inl ⟨e, d', hemit.trans hrun, he⟩
      · refine .inr ⟨a, d', s', s.graph.nextId :: ids, hemit.trans hrun, hgraph, hpost,
          (s.le_emit op type value).trans hle, ?_, ?_⟩
        · rw [hcreated]
          simp [Draft.emit, hid]
        · have hnode : d'.graph.node? s.graph.nextId = some ⟨op, type⟩ := by
            rw [hgraph, hle.node _ (by simp [Stage.emit, Graph.nextId]), Stage.node?_emit_self]
          exact Graph.evalFrom_cons.2 ⟨_, Graph.evalStep_eq_ok.2 ⟨_, value, hnode, hvalue, rfl⟩,
            heval⟩

end Gives

end Build

end TensorLowering
