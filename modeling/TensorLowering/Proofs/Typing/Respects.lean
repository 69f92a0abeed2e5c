import TensorLowering.Proofs.Build.Stage
import TensorLowering.Proofs.Evaluation.Types

/-!
# Constructions whose nodes have their types

Whether a created node can be evaluated is only known when the program runs. `Respects` follows a
construction through every way in which its nodes can be evaluated: each value has the type that the
node declares, and the result satisfies a condition in the last stage. Main statement: wherever the
created nodes run, their values have their types.
-/
namespace TensorLowering

open Numeric

/-- Every value belongs to a node and has its type, and it is small. -/
def Stage.Typed (s : Stage) : Prop :=
  ∀ id value, s.env.get? id = some value →
    ∃ node, s.graph.node? id = some node ∧ value.HasType node.type ∧ value.Small

theorem Stage.Typed.emit {s : Stage} {op : Op} {type : ValueType} {value : Value} (hs : s.Typed)
    (htype : value.HasType type) (hsmall : value.Small) : (s.emit op type value).Typed := by
  intro id w hid
  rw [Stage.emit, Env.get?_insert] at hid
  split at hid
  next hnew =>
    cases hid
    exact ⟨_, hnew ▸ s.node?_emit_self op type value, htype, hsmall⟩
  next =>
    obtain ⟨node, hnode, hrest⟩ := hs id w hid
    exact ⟨node, ((s.le_emit op type value).node id (s.closed id w hid)).trans hnode, hrest⟩

/-! ## What is left as it was -/

/-- A later draft has the nodes of an earlier one, and new nodes behind them. -/
structure Draft.Extends (d d' : Draft) (ids : List ValueId) : Prop where
  created : d'.created.toList = d.created.toList ++ ids
  node : ∀ id, id.index < d.graph.size → d'.graph.node? id = d.graph.node? id
  fresh : ∀ id ∈ ids, d.graph.size ≤ id.index

theorem Build.run_extends {α : Type} (b : Build α) (d : Draft) :
    ∃ ids, d.Extends (b.run d).2 ids := by
  induction b generalizing d with
  | done a => exact ⟨[], by simp [run], fun _ _ => rfl, nofun⟩
  | fail e => exact ⟨[], by simp [run], fun _ _ => rfl, nofun⟩
  | inspect next ih => exact ih d.graph d
  | emit op type next ih =>
      obtain ⟨ids, hcreated, hnode, hfresh⟩ := ih d.graph.nextId (d.emit op type)
      have hsize : (d.emit op type).graph.size = d.graph.size + 1 := Graph.size_create ..
      refine ⟨d.graph.nextId :: ids, ?_, fun id hid => ?_, fun id hid => ?_⟩
      · rw [run, hcreated]
        simp [Draft.emit]
      · exact (hnode id (by omega)).trans (Graph.node?_create_of_lt d.graph op type hid)
      · rcases List.mem_cons.1 hid with rfl | hmem
        · exact Nat.le_refl _
        · have hle := hfresh id hmem
          omega

/-- What is created from a new node on is that node and the ones behind it, and the node stays as it
is. -/
theorem Draft.Extends.of_emit {α : Type} {op : Op} {type : ValueType} {b : Build α} {d d' : Draft}
    {result : Except LowerError α} {ids : List ValueId} (h : d.Extends d' ids)
    (hrun : b.run (d.emit op type) = (result, d')) :
    ∃ rest, ids = d.graph.nextId :: rest ∧ (d.emit op type).Extends d' rest ∧
      d'.graph.node? d.graph.nextId = some ⟨op, type⟩ ∧ d.graph.nextId ∉ rest := by
  obtain ⟨rest, hrest⟩ := b.run_extends (d.emit op type)
  rw [hrun] at hrest
  have hsize : (d.emit op type).graph.size = d.graph.size + 1 := Graph.size_create ..
  have hlt : d.graph.nextId.index < (d.emit op type).graph.size := by
    rw [hsize]
    exact Nat.lt_succ_self _
  refine ⟨rest, ?_, hrest, ?_, fun hmem => Nat.not_le_of_lt hlt (hrest.fresh _ hmem)⟩
  · have hcreated := h.created.symm.trans hrest.created
    simpa [Draft.emit] using hcreated
  · rw [hrest.node _ hlt, Draft.emit, Graph.node?_create_self]

namespace Build

variable {α β : Type} {s : Stage} {b : Build α} {post : α → Stage → Prop}

/-- From the stage `s`, every value that a created node can have is of its type as far as it is
small, and a result satisfies `post` in the last stage. -/
def Respects : Build α → Stage → (α → Stage → Prop) → Prop
  | done a, s, post => post a s
  | fail _, _, _ => True
  | inspect next, s, post => (next s.graph).Respects s post
  | emit op type next, s, post =>
      ∀ value, evalNode s.supply s.env ⟨op, type⟩ = .ok value → value.Small →
        value.HasType type ∧ (next s.graph.nextId).Respects (s.emit op type value) post

namespace Respects

/-- The last stage comes after the first one, and its values have their types. -/
theorem strengthen (hs : s.Typed) (h : b.Respects s post) :
    b.Respects s fun a s' => s ≤ s' ∧ s'.Typed ∧ post a s' := by
  have hlift : ∀ s₀, s₀ ≤ s → b.Respects s fun a s' => s₀ ≤ s' ∧ s'.Typed ∧ post a s' := by
    induction b generalizing s with
    | done a => exact fun s₀ hle => ⟨hle, hs, h⟩
    | fail e => exact fun _ _ => trivial
    | inspect next ih => exact ih s.graph hs h
    | emit op type next ih =>
        intro s₀ hle value hvalue hsmall
        obtain ⟨htype, hnext⟩ := h value hvalue hsmall
        exact ⟨htype, ih _ (hs.emit htype hsmall) hnext s₀ (hle.trans (s.le_emit op type value))⟩
  exact hlift s le_rfl

/-- One part after the other. -/
theorem bind {f : α → Build β} {post' : β → Stage → Prop} (hs : s.Typed) (h : b.Respects s post)
    (hf : ∀ a s', s ≤ s' → s'.Typed → post a s' → (f a).Respects s' post') :
    (b >>= f).Respects s post' := by
  have hseq : ∀ {s₁ : Stage}, b.Respects s₁ (fun a s' => s ≤ s' ∧ s'.Typed ∧ post a s') →
      (b >>= f).Respects s₁ post' := by
    intro s₁ hb
    clear h
    induction b generalizing s₁ with
    | done a => exact hf a s₁ hb.1 hb.2.1 hb.2.2
    | fail e => exact trivial
    | inspect next ih => exact ih s₁.graph hb
    | emit op type next ih => exact fun value hvalue hsmall =>
        (hb value hvalue hsmall).imp_right (ih s₁.graph.nextId)
  exact hseq (h.strengthen hs)

theorem pure {a : α} (h : post a s) : (Pure.pure a : Build α).Respects s post := h

/-- Each entry of a list gives a result that satisfies a condition. -/
theorem mapM {γ : Type} {f : γ → Build β} {post : β → Stage → Prop} {xs : List γ} (hs : s.Typed)
    (hmono : ∀ {y s₁ s₂}, s₁ ≤ s₂ → post y s₁ → post y s₂)
    (h : ∀ x s', s ≤ s' → s'.Typed → (f x).Respects s' post) :
    (xs.mapM f).Respects s fun ys s' => ∀ y ∈ ys, post y s' := by
  induction xs generalizing s with
  | nil => exact .pure nofun
  | cons x xs ih =>
      rw [List.mapM_cons]
      refine bind hs (h x s le_rfl hs) fun y s₁ hle₁ hs₁ hy => ?_
      refine bind hs₁ (ih hs₁ fun x' s' hle => h x' s' (hle₁.trans hle)) fun ys s₂ hle₂ _ hys => ?_
      refine .pure fun z hz => ?_
      rcases List.mem_cons.1 hz with rfl | hmem
      · exact hmono hle₂ hy
      · exact hys z hmem

/-- One action for each entry of a list. -/
theorem forM {γ : Type} {f : γ → Build PUnit} {xs : List γ} (hs : s.Typed)
    (h : ∀ x s', s'.Typed → (f x).Respects s' fun _ _ => True) :
    (xs.forM f).Respects s fun _ _ => True := by
  induction xs generalizing s with
  | nil => exact .pure trivial
  | cons x xs ih =>
      exact bind hs (h x s hs) fun _ _ _ hs' _ => ih hs'

/-- A question about the program. -/
theorem query {f : Graph → Except GraphError α} {next : α → Build β} {post : β → Stage → Prop}
    (h : ∀ a, f s.graph = .ok a → (next a).Respects s post) :
    (Build.query f >>= next).Respects s post := by
  cases hf : f s.graph with
  | ok a =>
      simp only [Build.query, Bind.bind, Build.bind, Respects, hf]
      exact h a hf
  | error e => simp only [Build.query, Bind.bind, Build.bind, Respects, hf]

theorem tensorType {v : ValueId} {next : TensorType → Build β} {post : β → Stage → Prop}
    (h : ∀ type, s.graph.tensorType v = .ok type → (next type).Respects s post) :
    (Build.tensorType v >>= next).Respects s post := query h

theorem create {op : Op} {type : ValueType} {post : ValueId → Stage → Prop}
    (h : ∀ value, evalNode s.supply s.env ⟨op, type⟩ = .ok value → value.Small →
      value.HasType type ∧ post s.graph.nextId (s.emit op type value)) :
    (Build.create op type).Respects s post := h

/-! ## Running what was constructed -/

/-- Wherever the nodes that a construction adds to a draft can be evaluated, and their values are
small, those values are the ones of a stage in which every value has its type. -/
theorem run (h : b.Respects s post) (hs : s.Typed) {d d' : Draft} (hd : d.graph = s.graph)
    {result : Except LowerError α} (hrun : b.run d = (result, d')) {ids : List ValueId}
    (hids : d.Extends d' ids) {env : Env}
    (heval : d'.graph.evalFrom s.supply s.env ids = .ok env)
    (hsmall : ∀ id value, env.get? id = some value → value.Small) :
    ∃ s', s'.graph = d'.graph ∧ s'.env = env ∧ s ≤ s' ∧ s'.Typed ∧
      ∀ a, result = .ok a → post a s' := by
  induction b generalizing s d ids with
  | done a =>
      cases hrun
      obtain rfl : ids = [] := by simpa using hids.created
      cases heval
      exact ⟨s, hd.symm, rfl, le_rfl, hs, fun _ ha => by cases ha; exact h⟩
  | fail e =>
      cases hrun
      obtain rfl : ids = [] := by simpa using hids.created
      cases heval
      exact ⟨s, hd.symm, rfl, le_rfl, hs, nofun⟩
  | inspect next ih => exact ih d.graph (hd ▸ h) hs hd hrun hids heval
  | emit op type next ih =>
      have hid : d.graph.nextId = s.graph.nextId := by rw [hd]
      have hnext : (next d.graph.nextId).run (d.emit op type) = (result, d') := hrun
      obtain ⟨rest, rfl, hrest, hthere, hnot⟩ := hids.of_emit hnext
      obtain ⟨env₁, hstep, hrun'⟩ := Graph.evalFrom_cons.1 heval
      obtain ⟨node, value, hnode, hvalue, rfl⟩ := Graph.evalStep_eq_ok.1 hstep
      obtain rfl := Option.some.inj (hthere.symm.trans hnode)
      -- nothing that runs later has the number of the new node
      have hnew : env.get? d.graph.nextId = some value := by
        rw [Graph.get?_evalFrom hrun' hnot, Env.get?_insert, if_pos rfl]
      obtain ⟨htype, hpost⟩ := h value hvalue (hsmall _ _ hnew)
      rw [hid] at hnext hrun'
      obtain ⟨s', hgraph, henv, hle, hrest'⟩ := ih s.graph.nextId hpost
        (hs.emit htype (hsmall _ _ hnew)) (by simp [Draft.emit, Stage.emit, hd]) hnext hrest hrun'
      exact ⟨s', hgraph, henv, (s.le_emit op type value).trans hle, hrest'⟩

end Respects

end Build

end TensorLowering
