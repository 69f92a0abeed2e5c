import TensorLowering.Proofs.Conversion.Meaning
import TensorLowering.Proofs.Conversion.ScopedRules

/-!
# Conversion keeps programs well formed

Operators are lowered one after the other, and what read an operator reads the value that replaces
it. Main statement: a verified program is verified after a conversion, also after one that ended
with an error. Its nodes keep their types, and these nodes and the outputs read values of exactly
the types that they read before.
-/
namespace TensorLowering

open TensorLowering.Graph

variable {g g' g'' : Graph} {f f' : ValueId → ValueId} {x v : ValueId} {type : ValueType}

namespace Graph

/-! ## Programs under new names -/

/-- The second program has the nodes of the first one, and reads `f v` where the first one reads
`v`. A value and its new name have one type. -/
structure Renames (f : ValueId → ValueId) (g g' : Graph) : Prop where
  node : ∀ {x node}, g.node? x = some node →
    g'.node? x = some { node with op := node.op.mapOperands f }
  type : ∀ {v type}, g.typeOf v = .ok type → g'.typeOf (f v) = .ok type
  outputs : g'.outputs = g.outputs.map f

namespace Renames

theorem typeOf (h : Renames f g g') (hx : g.typeOf x = .ok type) : g'.typeOf x = .ok type := by
  obtain ⟨op, hnode⟩ := typeOf_eq_ok.1 hx
  exact typeOf_eq_ok.2 ⟨_, h.node hnode⟩

/-- Nodes may be added behind the nodes that there are. -/
theorem of_node (hnodes : ∀ {x node}, g.node? x = some node → g'.node? x = some node)
    (houtputs : g'.outputs = g.outputs) : Renames (fun v => v) g g' where
  node hx := by
    rw [Op.mapOperands_id]
    exact hnodes hx
  type hv := by
    obtain ⟨op, hnode⟩ := typeOf_eq_ok.1 hv
    exact typeOf_eq_ok.2 ⟨op, hnodes hnode⟩
  outputs := by rw [houtputs, List.map_id']

theorem trans (h : Renames f g g') (h' : Renames f' g' g'') : Renames (f' ∘ f) g g'' where
  node hx := by
    rw [h'.node (h.node hx), Op.mapOperands_mapOperands]
  type hv := h'.type (h.type hv)
  outputs := by rw [h'.outputs, h.outputs, List.map_map]

end Renames

/-- The second program is verified, and has the nodes of the first one under new names. -/
structure Continues (g g' : Graph) : Prop where
  verified : g'.verify = .ok ()
  renames : ∃ f, Renames f g g'

namespace Continues

theorem refl (hg : g.verify = .ok ()) : g.Continues g :=
  ⟨hg, _, .of_node (fun hx => hx) rfl⟩

theorem trans (h : g.Continues g') (h' : g'.Continues g'') : g.Continues g'' := by
  obtain ⟨f, hf⟩ := h.renames
  obtain ⟨f', hf'⟩ := h'.renames
  exact ⟨h'.verified, _, hf.trans hf'⟩

end Continues

/-! ## One operator -/

namespace Splices

variable {d : Draft} {id replacement : ValueId} {before after : List ValueId}

/-- A program in which nodes have been put in place of a value is verified. -/
theorem verified (h : Splices d id replacement g g' before after)
    (hschedule : g'.schedule = before ++ d.created.toList ++ after.filter (· ≠ id))
    (houtputs : g'.outputs = g.outputs.map (redirect id replacement))
    (hscheduled : ∀ v ∈ g.outputs, v ∈ before ++ id :: after) : g'.verify = .ok () := by
  rw [verify_eq_ok, hschedule, houtputs]
  refine ⟨h.orders_new, fun w hw => ?_⟩
  obtain ⟨v, hv, rfl⟩ := List.mem_map.1 hw
  by_cases hvid : v = id
  · rw [hvid, redirect_self]
    exact List.mem_append_left _ (h.early_of_seen h.seen).1
  · have hmem := hscheduled v hv
    simp only [List.mem_append, List.mem_cons, hvid, false_or] at hmem
    rw [redirect_of_ne hvid]
    rcases hmem with hmem | hmem <;> simp [hmem, hvid]

theorem renames (h : Splices d id replacement g g' before after)
    (houtputs : g'.outputs = g.outputs.map (redirect id replacement))
    (hid : g.typeOf id = .ok type) (hreplacement : d.graph.typeOf replacement = .ok type) :
    Renames (redirect id replacement) g g' := by
  have hdraft : ∀ {x : ValueId} {node : Node}, g.node? x = some node →
      d.graph.node? x = some node :=
    fun hx => (h.extendsGraph.node? (lt_size_of_node? hx)).trans hx
  have htype : ∀ {x : ValueId} {t : ValueType}, d.graph.typeOf x = .ok t →
      g'.typeOf x = .ok t := by
    intro x t hx
    obtain ⟨op, hnode⟩ := typeOf_eq_ok.1 hx
    exact typeOf_eq_ok.2 ⟨_, by rw [h.nodes, hnode]; rfl⟩
  refine ⟨fun hx => by rw [h.nodes, hdraft hx]; rfl, ?_, houtputs⟩
  intro v t hv
  by_cases hvid : v = id
  · obtain rfl : type = t := Except.ok.inj (hid.symm.trans (hvid ▸ hv))
    rw [hvid, redirect_self]
    exact htype hreplacement
  · rw [redirect_of_ne hvid]
    obtain ⟨op, hnode⟩ := typeOf_eq_ok.1 hv
    exact htype (typeOf_eq_ok.2 ⟨op, hdraft hnode⟩)

end Splices

end Graph

/-- A draft that could not be committed leaves its nodes behind. -/
theorem Draft.Over.continues {d : Draft} (h : d.Over g) (hg : g.verify = .ok ()) :
    g.Continues d.graph := by
  obtain ⟨horders, houtputs⟩ := verify_eq_ok.1 hg
  have hnodes : ∀ {x : ValueId} {node : Node}, g.node? x = some node →
      d.graph.node? x = some node :=
    fun hx => (h.node? (lt_size_of_node? hx)).trans hx
  refine ⟨?_, _, .of_node hnodes h.outputs⟩
  rw [verify_eq_ok, h.schedule, h.outputs]
  exact ⟨horders.congr fun x hx => h.node? (horders.lt_size hx), houtputs⟩

/-- Lowering an operator by a rule that stays within its operands. -/
theorem Rule.StaysWithin.continues {rule : Rule} (hrule : rule.StaysWithin)
    {config : LoweringConfig} {op : HostOp} {result : TensorType} {id replacement : ValueId}
    {d : Draft} {g₁ : Graph} (hg : g.verify = .ok ())
    (hnode : g.node? id = some ⟨.host op, .tensor result⟩)
    (hrun : (rule.apply config op result).run (.ofGraph g) = (.ok replacement, d))
    (hcommit : d.commitBefore id = .ok g₁) :
    g.Continues ((g₁.replaceAllUses id replacement).erase id) := by
  have hover : d.Over g := .of_run hrun
  obtain ⟨before, after, hschedule, hfirst, rfl⟩ := Draft.commitBefore_eq_ok hover hcommit
  obtain ⟨horders, houtputs⟩ := verify_eq_ok.1 hg
  rw [hschedule] at horders houtputs
  -- The rule can read what is computed before the operator and not again.
  have hsees : (⟨g, _, horders.filter_notMem⟩ : Scope).Sees op.operands := by
    refine Scope.sees_list.2 fun v hv => Scope.sees_value.2 ?_
    rw [← show g.reads id = op.operands from reads_of_node hnode] at hv
    obtain ⟨hbefore, hne, hafter⟩ := horders.mem_before hv
    simp [hbefore, hne, hafter]
  obtain ⟨s, ids, ⟨hseen, htype⟩, hgraph, hcreated, hids⟩ :=
    (hrule config op result _ hsees).run rfl hrun
  obtain rfl : d.created.toList = ids := hcreated
  have hsplices : Splices d id replacement g
      ((({ d.graph with schedule := before ++ d.created.toList ++ id :: after } :
        Graph).replaceAllUses id replacement).erase id) before after :=
    { orders := horders
      first := hfirst
      extendsGraph := hover
      created := hgraph ▸ hids ▸ s.orders
      seen := hids ▸ hseen
      nodes := fun x => node?_replaceAllUses }
  have hid : id ∉ before ++ d.created.toList :=
    List.not_mem_append hfirst (hsplices.notMem_created (by simp))
  have houtputs' := congrArg (List.map (redirect id replacement)) hover.outputs
  refine ⟨hsplices.verified (filter_ne_append hid) houtputs' houtputs, _,
    hsplices.renames houtputs' (typeOf_eq_ok.2 ⟨_, hnode⟩) (hgraph ▸ htype)⟩

namespace Conversion

variable {c : Conversion} {op : HostOp} {result : TensorType} {id : ValueId}

theorem convertOp_continues (hrules : ∀ rule ∈ c.rules.rules, rule.StaysWithin)
    (id : ValueId) (hg : g.verify = .ok ()) : g.Continues (c.convertOp id g).2 := by
  cases hop : c.convertOp id g with
  | mk r g₁ =>
      cases attempt_of_convertOp hop with
      | skipped | untyped => exact .refl hg
      | tried hnode hmust htrial =>
          cases htrial with
          | declined | failed => exact .refl hg
          | lowered hrule hrun happlied hcommit =>
              exact (hrules _ (List.mem_of_mem_filter hrule)).continues hg hnode hrun hcommit
          | detached hrule hrun hcommit => exact (Draft.Over.of_run hrun).continues hg

/-! ## All operators -/

theorem convertOps_continues (hrules : ∀ rule ∈ c.rules.rules, rule.StaysWithin)
    (ids : List ValueId) (hg : g.verify = .ok ()) : g.Continues (c.convertOps ids g).2 := by
  induction ids generalizing g with
  | nil => exact .refl hg
  | cons id rest ih =>
      have hfirst := convertOp_continues hrules id hg
      unfold convertOps
      cases hop : c.convertOp id g with
      | mk converted g₁ =>
          rw [hop] at hfirst
          cases converted with
          | error e => exact hfirst
          | ok outcome =>
              have hrest := hfirst.trans (ih hfirst.verified)
              dsimp only
              cases htail : c.convertOps rest g₁ with
              | mk tail g₂ =>
                  rw [htail] at hrest
                  cases tail with
                  | error e => exact hrest
                  | ok outcomes => exact hrest

end Conversion

theorem Graph.pruneDead_continues (hg : g.verify = .ok ()) (h : g.pruneDead? = some g') :
    g.Continues g' := by
  obtain ⟨entries, hentries, rfl⟩ := Option.map_eq_some_iff.1 h
  obtain ⟨hschedule, hnodes⟩ := scheduled?_eq_some hentries
  obtain ⟨horders, houtputs⟩ := verify_eq_ok.1 hg
  rw [← hschedule] at horders houtputs
  obtain ⟨hlive, hlast⟩ := horders.liveEntries g.outputs hnodes
  refine ⟨verify_eq_ok.2 ⟨hlive.congr fun x _ => rfl, ?_⟩, _, .of_node (fun hx => hx) rfl⟩
  exact fun v hv => hlast v hv (houtputs v hv)

/-- A conversion by rules that stay within their operands. -/
theorem Conversion.run_continues {c : Conversion}
    (hrules : ∀ rule ∈ c.rules.rules, rule.StaysWithin) (hg : g.verify = .ok ()) :
    g.Continues (c.run g).2 := by
  unfold run
  cases g.hostOps? with
  | none => exact .refl hg
  | some ids =>
      have hops := convertOps_continues hrules ids hg
      dsimp only
      cases hconverted : c.convertOps ids g with
      | mk converted g₁ =>
          rw [hconverted] at hops
          cases converted with
          | error e => exact hops
          | ok outcomes =>
              dsimp only
              rw [prune?]
              cases hprune : g₁.pruneDead? with
              | none => exact hops
              | some pruned => exact hops.trans (pruneDead_continues hops.verified hprune)

/-! ## What a conversion keeps -/

namespace Graph

/-- The values of two programs are declared with one type. -/
def SameType (g g' : Graph) (v v' : ValueId) : Prop :=
  ∃ type, g.typeOf v = .ok type ∧ g'.typeOf v' = .ok type

/-- The second program is verified. What the first one computes is declared there with its type, by
the same operation on operands of the same types, and so are the outputs. -/
structure Keeps (g g' : Graph) : Prop where
  verified : g'.verify = .ok ()
  types : ∀ x ∈ g.schedule, g.SameType g' x x
  operands : ∀ x ∈ g.schedule, ∃ node f, g.node? x = some node ∧
    g'.node? x = some { node with op := node.op.mapOperands f } ∧
    ∀ v ∈ node.op.operands, g.SameType g' v (f v)
  outputs : List.Forall₂ (g.SameType g') g.outputs g'.outputs

theorem Continues.keeps (h : g.Continues g') (hg : g.verify = .ok ()) : g.Keeps g' := by
  obtain ⟨f, hf⟩ := h.renames
  obtain ⟨horders, houtputs⟩ := verify_eq_ok.1 hg
  have htype : ∀ v ∈ g.schedule, ∃ type, g.typeOf v = .ok type := by
    intro v hv
    obtain ⟨⟨op, type⟩, hnode⟩ := horders.node v hv
    exact ⟨type, typeOf_eq_ok.2 ⟨op, hnode⟩⟩
  have hrenamed : ∀ v ∈ g.schedule, g.SameType g' v (f v) := by
    intro v hv
    obtain ⟨type, hv⟩ := htype v hv
    exact ⟨type, hv, hf.type hv⟩
  refine ⟨h.verified, fun x hx => ?_, fun x hx => ?_, ?_⟩
  · obtain ⟨type, hx⟩ := htype x hx
    exact ⟨type, hx, hf.typeOf hx⟩
  · obtain ⟨node, hnode⟩ := horders.node x hx
    refine ⟨node, f, hnode, hf.node hnode, fun v hv => hrenamed v ?_⟩
    exact horders.closed x hx v (reads_of_node hnode ▸ hv)
  · rw [hf.outputs, List.forall₂_map_right_iff, List.forall₂_same]
    exact fun v hv => hrenamed v (houtputs v hv)

/-- Lowering, whether it ends with a report or with an error, keeps a verified program well formed
and its values at their types. -/
theorem lower_keeps (hg : g.verify = .ok ()) (config : LoweringConfig) :
    g.Keeps (g.lower config).2 :=
  (Conversion.run_continues (fun _ => Rule.staysWithin_of_mem) hg).keeps hg

theorem verify_reversePair : reversePair.verify = .ok () := by
  refine verify_eq_ok.2 ⟨⟨?_, by decide, by decide, by decide⟩, by decide⟩
  simp [reversePair, node?]

theorem lower_keeps_reversePair :
    reversePair.verify = .ok () ∧ reversePair.Keeps (reversePair.lower .standard).2 :=
  ⟨verify_reversePair, lower_keeps verify_reversePair .standard⟩

end Graph

end TensorLowering
