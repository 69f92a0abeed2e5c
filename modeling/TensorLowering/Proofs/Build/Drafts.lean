import Mathlib.Data.List.Nodup
import TensorLowering.Build.Basic

/-!
# What a construction does to a program

A construction only adds nodes. The program that it starts from keeps its nodes, its schedule and
its outputs, the created values are the next free ones in order, and a discarded draft is the
program as it was.
-/
namespace TensorLowering

theorem Graph.lt_size_of_node? {g : Graph} {id : ValueId} {node : Node}
    (h : g.node? id = some node) :
    id.index < g.size :=
  (Array.getElem?_eq_some_iff.1 h).1

namespace Draft

/-- The draft holds the program `g` with the created nodes behind it. -/
structure Over (g : Graph) (d : Draft) : Prop where
  base : d.base = g.size
  size : d.graph.size = g.size + d.created.size
  nodes : d.graph.nodes.take g.size = g.nodes
  created : d.created.toList = (List.range' g.size d.created.size).map ValueId.mk
  schedule : d.graph.schedule = g.schedule
  outputs : d.graph.outputs = g.outputs

namespace Over

variable {g : Graph} {d : Draft}

theorem ofGraph (g : Graph) : Over g (ofGraph g) where
  base := rfl
  size := rfl
  nodes := by simp [Draft.ofGraph, Graph.size]
  created := rfl
  schedule := rfl
  outputs := rfl

theorem emit (h : Over g d) (op : Op) (type : ValueType) : Over g (d.emit op type) where
  base := h.base
  size := by simp [Draft.emit, h.size, Nat.add_assoc]
  nodes := by
    have hle : g.size ≤ d.graph.nodes.size := by
      have hsize := h.size
      simp only [Graph.size] at hsize ⊢
      omega
    rw [← h.nodes]
    simp [Draft.emit, Graph.create, Array.extract_push_of_le hle]
  created := by
    simp [Draft.emit, h.created, List.range'_concat, Graph.nextId, h.size]
  schedule := h.schedule
  outputs := h.outputs

theorem run {α : Type} (b : Build α) (h : Over g d) : Over g (b.run d).2 := by
  induction b generalizing d with
  | done | fail => exact h
  | inspect next ih => exact ih d.graph h
  | emit op type next ih => exact ih _ (h.emit op type)

theorem of_run {α : Type} {b : Build α} {r : Except LowerError α}
    (h : b.run (Draft.ofGraph g) = (r, d)) : Over g d := by
  have hover := (ofGraph g).run b
  rwa [h] at hover

/-- The nodes that were there are there. -/
theorem node? (h : Over g d) {id : ValueId} (hid : id.index < g.size) :
    d.graph.node? id = g.node? id := by
  have htake : (d.graph.nodes.take g.size)[id.index]? = d.graph.nodes[id.index]? := by
    have hsize := h.size
    simp only [Graph.size] at hid hsize ⊢
    rw [Array.take_eq_extract, Array.getElem?_extract, if_pos (by omega), Nat.zero_add]
  rw [Graph.node?, ← htake, h.nodes]
  rfl

theorem mem_created (h : Over g d) {id : ValueId} :
    id ∈ d.created.toList ↔ g.size ≤ id.index ∧ id.index < d.graph.size := by
  rw [h.created, h.size]
  obtain ⟨i⟩ := id
  simp

theorem nodup_created (h : Over g d) : d.created.toList.Nodup := by
  rw [h.created]
  exact List.Nodup.map (fun _ _ => congrArg ValueId.index) List.nodup_range'

/-- Discarding a draft gives the program back. -/
theorem discard (h : Over g d) : d.discard = g := by
  have hnodes := h.nodes
  have hschedule := h.schedule
  have houtputs := h.outputs
  simp only [Draft.discard, Graph.truncate, h.base, hnodes, hschedule, houtputs]

end Over

end Draft

end TensorLowering
