import TensorLowering.Proofs.Conversion.HostOperators
import TensorLowering.Proofs.Op.Forms

/-!
# Redirected uses

When a program reads one value wherever it read another, every operation keeps its form. Main
statement: replacing operands replaces each of them and nothing else in an operation; so, once the
uses of a value are redirected, nothing reads the value any more, and those that read it are the
readers of the other value, along with its own.
-/
namespace TensorLowering

open TensorLowering.Graph

variable {g : Graph} {source target v x : ValueId} {vs : List ValueId}

theorem notMem_map_redirect (h : source ≠ target) : source ∉ vs.map (redirect source target) := by
  intro hmem
  obtain ⟨v, -, hv⟩ := List.mem_map.1 hmem
  by_cases hvs : v = source
  · subst hvs
    exact h (hv.symm.trans (redirect_self v target))
  · exact hvs ((redirect_of_ne hvs).symm.trans hv)

theorem mem_map_redirect :
    target ∈ vs.map (redirect source target) ↔ source ∈ vs ∨ target ∈ vs := by
  constructor
  · intro hmem
    obtain ⟨v, hv, hredirect⟩ := List.mem_map.1 hmem
    by_cases hvs : v = source
    · exact .inl (hvs ▸ hv)
    · exact .inr ((redirect_of_ne hvs).symm.trans hredirect ▸ hv)
  · rintro (hmem | hmem)
    · exact List.mem_map.2 ⟨source, hmem, redirect_self source target⟩
    · refine List.mem_map.2 ⟨target, hmem, ?_⟩
      by_cases heq : target = source
      · rw [heq, redirect_self]
      · exact redirect_of_ne heq

namespace Graph

/-- A program that has a node for everything that it schedules finds the readers of a value. -/
theorem users?_eq (h : ∀ x ∈ g.schedule, x.index < g.size) :
    g.users? v = some (g.schedule.filter fun x => v ∈ g.reads x) := by
  obtain ⟨entries, hentries⟩ := exists_scheduled? h
  obtain ⟨hschedule, hnodes⟩ := scheduled?_eq_some hentries
  rw [users?, hentries, Option.map_some, ← hschedule, List.filter_map]
  congr 2
  refine List.filter_congr fun e he => ?_
  simp [reads_of_node (hnodes e he)]

theorem reads_replaceAllUses :
    (g.replaceAllUses source target).reads x = (g.reads x).map (redirect source target) := by
  rw [reads, node?_replaceAllUses]
  cases hx : g.node? x with
  | none => simp [reads, hx]
  | some node =>
      rw [reads_of_node hx]
      exact node.op.operands_mapOperands (redirect source target)

theorem typeOf_replaceAllUses : (g.replaceAllUses source target).typeOf x = g.typeOf x := by
  rw [typeOf, typeOf, Graph.node, Graph.node, node?_replaceAllUses]
  cases g.node? x <;> rfl

end Graph

/-- Replacing operands replaces each of them, in order, and leaves all else as it is. Hence a value
whose uses are redirected has no use left, and the other value is read where either was. -/
theorem replaceAllUses_moves_users :
    (∀ (op : Op) (f : ValueId → ValueId), (op.mapOperands f).operands = op.operands.map f ∧
      (op.mapOperands f).form = op.form ∧
      ∀ op' : Op, op'.form = op.form → op'.operands = op.operands.map f →
        op' = op.mapOperands f) ∧
    ∀ (g : Graph) (source target : ValueId), (∀ x ∈ g.schedule, x.index < g.size) →
      source ≠ target →
      (∀ x node, (g.replaceAllUses source target).node? x = some node →
        source ∉ node.op.operands) ∧
      source ∉ (g.replaceAllUses source target).outputs ∧
      (∃ users users', g.users? source = some users ∧ g.users? target = some users' ∧
        (g.replaceAllUses source target).users? target =
          some (g.schedule.filter fun x => x ∈ users ∨ x ∈ users')) ∧
      (∀ x, (g.replaceAllUses source target).typeOf x = g.typeOf x) ∧
      (g.replaceAllUses source target).schedule = g.schedule := by
  refine ⟨fun op f => ⟨op.operands_mapOperands f, op.form_mapOperands f, fun op' hform h => ?_⟩,
    fun g source target hschedule hne => ⟨fun x node hnode => ?_, ?_, ?_, fun x =>
      typeOf_replaceAllUses, rfl⟩⟩
  · exact Op.eq_of_form (hform.trans (op.form_mapOperands f).symm)
      (h.trans (op.operands_mapOperands f).symm)
  · rw [← reads_of_node hnode, reads_replaceAllUses]
    exact notMem_map_redirect hne
  · exact notMem_map_redirect hne
  · have hschedule' : ∀ x ∈ (g.replaceAllUses source target).schedule,
        x.index < (g.replaceAllUses source target).size := by
      simpa [replaceAllUses, Graph.size] using hschedule
    refine ⟨_, _, users?_eq hschedule, users?_eq hschedule, ?_⟩
    rw [users?_eq hschedule']
    refine congrArg some (List.filter_congr fun x hx => decide_eq_decide.2 ?_)
    have hx : x ∈ g.schedule := hx
    simp only [reads_replaceAllUses, mem_map_redirect, List.mem_filter, decide_eq_true_eq, hx,
      true_and]

/-- One conversion reads the first of two inputs; it becomes the only reader of the second. -/
theorem replaceAllUses_moves_users_of_input :
    ∃ (g : Graph) (x y c : ValueId), (∀ v ∈ g.schedule, v.index < g.size) ∧ x ≠ y ∧
      g.outputs = [x, c] ∧ g.users? x = some [c] ∧ g.users? y = some [] ∧
      (g.replaceAllUses x y).users? y = some [c] ∧ x ∉ (g.replaceAllUses x y).outputs := by
  let type : TensorType := ⟨.float32, ⟨[.static 2]⟩⟩
  let g := (((Graph.empty.pushInput "x" type).pushInput "y" type).push (.cast ⟨0⟩)
    (.tensor type)).withOutputs [⟨0⟩, ⟨2⟩]
  have hschedule : ∀ v ∈ g.schedule, v.index < g.size := by decide
  have hx : g.users? ⟨0⟩ = some [⟨2⟩] := by decide
  have hy : g.users? ⟨1⟩ = some [] := by decide
  obtain ⟨-, hout, ⟨users, users', husers, husers', hmoved⟩, -⟩ :=
    replaceAllUses_moves_users.2 g ⟨0⟩ ⟨1⟩ hschedule (by decide)
  cases hx.symm.trans husers
  cases hy.symm.trans husers'
  exact ⟨g, ⟨0⟩, ⟨1⟩, ⟨2⟩, hschedule, by decide, rfl, hx, hy, hmoved, hout⟩

end TensorLowering
