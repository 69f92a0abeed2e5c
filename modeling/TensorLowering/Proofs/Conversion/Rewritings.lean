import TensorLowering.Proofs.Conversion.Attempts
import TensorLowering.Proofs.Conversion.Schedules

/-!
# Operators lowered one after the other

Everything that rules can do with an operator is said once, by `Conversion.Trial`. Main statements:
a program in which operators have been lowered has grown by the created nodes, all of which are
scheduled; its nodes and outputs read the replacements; and its schedule has lost the operators and
nothing else. A conversion that reaches its end has made one entry for each operator that it had to
lower.
-/
namespace TensorLowering

open TensorLowering.Graph

variable {g g' g₁ : Graph} {d : Draft} {id replacement : ValueId} {entry : Lowered}
  {lowered : List Lowered}

namespace Graph

/-- The values of the next `n` nodes. -/
def nextIds (g : Graph) (n : Nat) : List ValueId := (List.range' g.size n).map ValueId.mk

@[simp] theorem length_nextIds (g : Graph) (n : Nat) : (g.nextIds n).length = n := by
  simp [nextIds]

theorem mem_nextIds {x : ValueId} {n : Nat} :
    x ∈ g.nextIds n ↔ g.size ≤ x.index ∧ x.index < g.size + n := by
  obtain ⟨i⟩ := x
  simp [nextIds]

theorem nextIds_add {m n : Nat} (h : g₁.size = g.size + m) :
    g.nextIds m ++ g₁.nextIds n = g.nextIds (m + n) := by
  rw [nextIds, nextIds, nextIds, h, ← List.map_append, List.range'_append_1]

/-- A predicate that is false of new values sees none of them. -/
theorem filter_nextIds {p : ValueId → Bool} (h : ∀ x, g.size ≤ x.index → p x = false) (n : Nat) :
    (g.nextIds n).filter p = [] := by
  refine List.filter_eq_nil_iff.2 fun x hx => ?_
  rw [h x (mem_nextIds.1 hx).1]
  exact Bool.false_ne_true

end Graph

/-! ## One operator -/

/-- The operator of an entry has been lowered: the created nodes are scheduled in its place, and
everything that read it reads the replacement. -/
structure Lowered.Rewrites (entry : Lowered) (g g' : Graph) : Prop where
  old : entry.op.index < g.size
  size : g'.size = g.size + entry.created
  node : ∀ x, x.index < g.size → g'.node? x = (g.node? x).map fun node =>
    { node with op := node.op.mapOperands (redirect entry.op entry.replacement) }
  outputs : g'.outputs = g.outputs.map (redirect entry.op entry.replacement)
  schedule : ∃ before after, g.schedule = before ++ entry.op :: after ∧ entry.op ∉ before ∧
    g'.schedule = before ++ g.nextIds entry.created ++ after.filter (· ≠ entry.op)

theorem Draft.Over.rewrites (hover : d.Over g) (hcommit : d.commitBefore id = .ok g₁)
    (hid : id.index < g.size) (kind : HostKind) (rule : String) :
    (Lowered.mk id kind rule replacement d.created.size).Rewrites g
      ((g₁.replaceAllUses id replacement).erase id) := by
  obtain ⟨before, after, hschedule, hbefore, rfl⟩ := Draft.commitBefore_eq_ok hover hcommit
  refine ⟨hid, ?_, fun x hx => ?_, congrArg _ hover.outputs, before, after, hschedule, hbefore, ?_⟩
  · rw [← hover.size]
    simp [erase, replaceAllUses, Graph.size]
  · rw [← hover.node? hx]
    exact node?_replaceAllUses
  · have hnew : id ∉ before ++ d.created.toList :=
      List.not_mem_append hbefore fun hmem => Nat.not_le_of_lt hid (hover.mem_created.1 hmem).1
    rw [nextIds, ← hover.created]
    exact filter_ne_append hnew

namespace Lowered.Rewrites

theorem size_le (h : entry.Rewrites g g') : g.size ≤ g'.size := h.size ▸ Nat.le_add_right _ _

/-- The operator itself is gone, and no other value. -/
theorem perm (h : entry.Rewrites g g') :
    g'.schedule.Perm (g.schedule.filter (· ≠ entry.op) ++ g.nextIds entry.created) := by
  obtain ⟨before, after, hschedule, hbefore, hschedule'⟩ := h.schedule
  rw [hschedule, hschedule', filter_ne_append hbefore, List.append_assoc, List.append_assoc]
  exact List.perm_append_comm.append_left before

theorem filter_schedule (h : entry.Rewrites g g') {p : ValueId → Bool}
    (hp : ∀ x, g.size ≤ x.index → p x = false) :
    g'.schedule.filter p = (g.schedule.filter (· ≠ entry.op)).filter p := by
  obtain ⟨before, after, hschedule, hbefore, hschedule'⟩ := h.schedule
  rw [hschedule, hschedule', filter_ne_append hbefore]
  simp [filter_nextIds hp]

end Lowered.Rewrites

/-! ## Several operators -/

/-- The operators of the entries have been lowered one after the other. -/
inductive Rewriting : List Lowered → Graph → Graph → Prop where
  | nil {g : Graph} : Rewriting [] g g
  | cons {g g₁ g' : Graph} {entry : Lowered} {rest : List Lowered} (hfirst : entry.Rewrites g g₁)
      (hrest : Rewriting rest g₁ g') : Rewriting (entry :: rest) g g'

/-- What is read in place of a value once operators have been lowered. -/
def redirectAll : List Lowered → ValueId → ValueId
  | [], v => v
  | entry :: rest, v => redirectAll rest (redirect entry.op entry.replacement v)

theorem redirectAll_of_notMem {v : ValueId} (h : v ∉ lowered.map Lowered.op) :
    redirectAll lowered v = v := by
  induction lowered with
  | nil => rfl
  | cons entry rest ih =>
      obtain ⟨hne, hrest⟩ := List.ne_and_not_mem_of_not_mem_cons h
      rw [redirectAll, redirect_of_ne hne, ih hrest]

theorem filter_notMem_cons (entry : Lowered) (rest : List Lowered) (ids : List ValueId) :
    (ids.filter (· ≠ entry.op)).filter (· ∉ rest.map Lowered.op) =
      ids.filter (· ∉ (entry :: rest).map Lowered.op) := by
  rw [List.filter_filter]
  congr 1
  funext x
  by_cases hx : x = entry.op <;> simp [hx]

/-- The number of nodes created for all entries. -/
def totalCreated : List Lowered → Nat
  | [] => 0
  | entry :: rest => entry.created + totalCreated rest

namespace Rewriting

theorem append {lowered' : List Lowered} (h : Rewriting lowered g g₁)
    (h' : Rewriting lowered' g₁ g') : Rewriting (lowered ++ lowered') g g' := by
  induction h with
  | nil => exact h'
  | cons hfirst hrest ih => exact .cons hfirst (ih h')

theorem size (h : Rewriting lowered g g') : g'.size = g.size + totalCreated lowered := by
  induction h with
  | nil => rfl
  | cons hfirst hrest ih => rw [ih, hfirst.size, totalCreated, Nat.add_assoc]

theorem size_le (h : Rewriting lowered g g') : g.size ≤ g'.size := h.size ▸ Nat.le_add_right _ _

/-- Nodes stay, and read what replaces their operands. -/
theorem node (h : Rewriting lowered g g') {x : ValueId} (hx : x.index < g.size) :
    g'.node? x = (g.node? x).map fun node =>
      { node with op := node.op.mapOperands (redirectAll lowered) } := by
  induction h with
  | nil => simp [redirectAll, Op.mapOperands_id]
  | @cons g g₁ g' entry rest hfirst hrest ih =>
      rw [ih (Nat.lt_of_lt_of_le hx hfirst.size_le), hfirst.node x hx, Option.map_map]
      congr 1
      funext node
      simp only [Function.comp_apply, Op.mapOperands_mapOperands]
      rfl

/-- A node that reads no lowered operator is what it was. -/
theorem node?_eq (h : Rewriting lowered g g') {x : ValueId} (hx : x.index < g.size)
    (hreads : ∀ v ∈ g.reads x, v ∉ lowered.map Lowered.op) : g'.node? x = g.node? x := by
  rw [h.node hx]
  cases hnode : g.node? x with
  | none => rfl
  | some node =>
      rw [reads_of_node hnode] at hreads
      rw [Option.map_some,
        Op.mapOperands_eq_self fun v hv => redirectAll_of_notMem (hreads v hv)]

theorem outputs (h : Rewriting lowered g g') :
    g'.outputs = g.outputs.map (redirectAll lowered) := by
  induction h with
  | nil => simp [redirectAll]
  | cons hfirst hrest ih =>
      rw [ih, hfirst.outputs, List.map_map]
      rfl

/-- A predicate that is false of new values finds in the schedule what it found, but for the lowered
operators. -/
theorem filter_schedule (h : Rewriting lowered g g') {p : ValueId → Bool}
    (hp : ∀ x, g.size ≤ x.index → p x = false) :
    g'.schedule.filter p = (g.schedule.filter (· ∉ lowered.map Lowered.op)).filter p := by
  induction h with
  | nil => simp
  | @cons g g₁ g' entry rest hfirst hrest ih =>
      have hp₁ : ∀ x, g₁.size ≤ x.index → p x = false := fun x hx =>
        hp x (Nat.le_trans hfirst.size_le hx)
      rw [ih hp₁, List.filter_comm, hfirst.filter_schedule hp, List.filter_comm,
        filter_notMem_cons]

/-- Values that were scheduled in some order are scheduled in that order if none of them was
lowered. -/
theorem sublist (h : Rewriting lowered g g') {ids : List ValueId} (hids : ids.Sublist g.schedule)
    (hnodes : ∀ x ∈ ids, x.index < g.size) (hnot : ∀ x ∈ ids, x ∉ lowered.map Lowered.op) :
    ids.Sublist g'.schedule := by
  have hold : ∀ x ∈ ids, decide (x.index < g.size) = true := fun x hx =>
    decide_eq_true (hnodes x hx)
  have hkept : ∀ x ∈ ids, decide (x ∉ lowered.map Lowered.op) = true := fun x hx =>
    decide_eq_true (hnot x hx)
  have hsublist := (hids.filter (· ∉ lowered.map Lowered.op)).filter (·.index < g.size)
  rw [List.filter_eq_self.2 hkept, List.filter_eq_self.2 hold,
    ← h.filter_schedule fun x hx => decide_eq_false (Nat.not_lt_of_le hx)] at hsublist
  exact hsublist.trans List.filter_sublist

/-- The schedule consists of what was scheduled, but for the lowered operators, and of the created
nodes. -/
theorem perm (h : Rewriting lowered g g') (hold : ∀ entry ∈ lowered, entry.op.index < g.size) :
    g'.schedule.Perm
      (g.schedule.filter (· ∉ lowered.map Lowered.op) ++ g.nextIds (totalCreated lowered)) := by
  induction h with
  | nil => simp [totalCreated, nextIds]
  | @cons g g₁ g' entry rest hfirst hrest ih =>
      have hlt : ∀ e ∈ rest, e.op.index < g.size := fun e he => hold e (List.mem_cons_of_mem _ he)
      have hcreated : (g.nextIds entry.created).filter (· ∉ rest.map Lowered.op) =
          g.nextIds entry.created := by
        refine List.filter_eq_self.2 fun x hx => decide_eq_true fun hmem => ?_
        obtain ⟨e, he, rfl⟩ := List.mem_map.1 hmem
        exact Nat.not_le_of_lt (hlt e he) (mem_nextIds.1 hx).1
      have hfirst' := (hfirst.perm.filter (· ∉ rest.map Lowered.op)).append_right
        (g₁.nextIds (totalCreated rest))
      rw [List.filter_append, hcreated, filter_notMem_cons, List.append_assoc,
        nextIds_add hfirst.size, ← totalCreated] at hfirst'
      exact (ih fun e he => Nat.lt_of_lt_of_le (hlt e he) hfirst.size_le).trans hfirst'

theorem length_schedule (h : Rewriting lowered g g')
    (hold : ∀ entry ∈ lowered, entry.op.index < g.size) :
    g'.schedule.length + (g.schedule.filter (· ∈ lowered.map Lowered.op)).length =
      g.schedule.length + totalCreated lowered := by
  have hlength := (h.perm hold).length_eq
  have hsplit := List.length_eq_length_filter_add (l := g.schedule)
    fun x => decide (x ∈ lowered.map Lowered.op)
  simp only [List.length_append, length_nextIds, decide_not] at hlength
  omega

/-- Every created node is scheduled. -/
theorem mem_schedule (h : Rewriting lowered g g')
    (hold : ∀ entry ∈ lowered, entry.op.index < g.size) {x : ValueId} (hx : g.size ≤ x.index)
    (hx' : x.index < g'.size) : x ∈ g'.schedule := by
  rw [(h.perm hold).mem_iff, List.mem_append, mem_nextIds, ← h.size]
  exact .inr ⟨hx, hx'⟩

/-- A value stays scheduled unless it was lowered. -/
theorem mem_schedule_iff (h : Rewriting lowered g g')
    (hold : ∀ entry ∈ lowered, entry.op.index < g.size) {x : ValueId} (hx : x.index < g.size) :
    x ∈ g'.schedule ↔ x ∈ g.schedule ∧ x ∉ lowered.map Lowered.op := by
  rw [(h.perm hold).mem_iff, List.mem_append, mem_nextIds]
  simp [Nat.not_le_of_lt hx]

/-- What is scheduled has a node. -/
theorem lt_size (h : Rewriting lowered g g') (hnodes : ∀ x ∈ g.schedule, x.index < g.size) :
    ∀ x ∈ g'.schedule, x.index < g'.size := by
  induction h with
  | nil => exact hnodes
  | cons hfirst hrest ih =>
      refine ih fun x hx => ?_
      rw [hfirst.size]
      rcases List.mem_append.1 (hfirst.perm.mem_iff.1 hx) with hx | hx
      · exact Nat.lt_add_right _ (hnodes x (List.mem_of_mem_filter hx))
      · exact (mem_nextIds.1 hx).2

end Rewriting

/-! ## What a conversion does -/

def Outcome.op : Outcome → ValueId
  | .lowered entry => entry.op
  | .declined entry => entry.op

theorem Outcome.lowered?_eq_some {outcome : Outcome} {entry : Lowered} :
    outcome.lowered? = some entry ↔ outcome = .lowered entry := by
  cases outcome <;> simp [lowered?]

theorem Outcome.declined?_eq_some {outcome : Outcome} {entry : Declined} :
    outcome.declined? = some entry ↔ outcome = .declined entry := by
  cases outcome <;> simp [declined?]

theorem Outcome.op_mem {outcomes : List Outcome} {entry : Lowered}
    (h : entry ∈ outcomes.filterMap Outcome.lowered?) : entry.op ∈ outcomes.map Outcome.op := by
  obtain ⟨outcome, houtcome, hentry⟩ := List.mem_filterMap.1 h
  obtain rfl := Outcome.lowered?_eq_some.1 hentry
  exact List.mem_map_of_mem houtcome

namespace Conversion

variable {c : Conversion} {op : HostOp} {result : TensorType} {rules tried : List Rule}

/-- Reading other values does not make a node another operator. -/
theorem mustLower_congr {f : ValueId → ValueId} (h : g'.node? id = (g.node? id).map fun node =>
    { node with op := node.op.mapOperands f }) : c.mustLower g' id = c.mustLower g id := by
  rw [mustLower, h, mustLower]
  cases g.node? id with
  | none => rfl
  | some node =>
      obtain ⟨op, type⟩ := node
      cases op with
      | host op => cases op <;> rfl
      | _ => rfl

/-- What an attempt without an error does. -/
theorem convertOp_ok {outcome : Option Outcome} (h : c.convertOp id g = (.ok outcome, g')) :
    outcome.toList.map Outcome.op = [id].filter (c.mustLower g) ∧
      Rewriting (outcome.toList.filterMap Outcome.lowered?) g g' := by
  cases attempt_of_convertOp h with
  | skipped hstay => exact ⟨by simp [hstay], .nil⟩
  | tried hnode hmust htrial =>
      cases htrial with
      | declined hop => exact ⟨by simp [hmust, Outcome.op, hop], .nil⟩
      | lowered hrule hrun happlied hcommit =>
          refine ⟨by simp [hmust, Outcome.op], .cons ?_ .nil⟩
          exact (Draft.Over.of_run hrun).rewrites hcommit (lt_size_of_node? hnode) _ _

/-- Where an attempt ends with an error, the program is as it was, or the operator was not
scheduled. -/
theorem convertOp_error {e : LowerError} (h : c.convertOp id g = (.error e, g')) :
    g' = g ∨ id ∉ g.schedule ∧ e = .graph (.unknownValue id) ∧
      ∃ d, Draft.Over g d ∧ g' = d.graph := by
  cases attempt_of_convertOp h with
  | untyped => exact .inl rfl
  | tried hnode hmust htrial =>
      cases htrial with
      | failed => exact .inl rfl
      | detached hrule hrun hcommit =>
          have hover := Draft.Over.of_run hrun
          rw [Draft.commitBefore, insertBefore, hover.schedule] at hcommit
          split at hcommit
          next => cases hcommit
          next hnone =>
            cases hcommit
            exact .inr ⟨insertAt?_eq_none.1 hnone, rfl, _, hover, rfl⟩

/-- A conversion that reaches the end of a list of operators has made an entry for each one that it
had to lower. -/
theorem convertOps_ok {ids : List ValueId} {outcomes : List Outcome}
    (hids : ∀ id ∈ ids, id.index < g.size) (h : c.convertOps ids g = (.ok outcomes, g')) :
    outcomes.map Outcome.op = ids.filter (c.mustLower g) ∧
      Rewriting (outcomes.filterMap Outcome.lowered?) g g' := by
  induction ids generalizing g outcomes with
  | nil =>
      cases h
      exact ⟨rfl, .nil⟩
  | cons id rest ih =>
      have hrest := (List.forall_mem_cons.1 hids).2
      obtain ⟨outcome, g₁, tail, hop, htail, rfl⟩ := convertOps_cons_ok h
      obtain ⟨hopEntry, hopRewriting⟩ := convertOp_ok hop
      obtain ⟨hentries, hrewriting⟩ := ih
        (fun x hx => Nat.lt_of_lt_of_le (hrest x hx) hopRewriting.size_le) htail
      have hmust : rest.filter (c.mustLower g₁) = rest.filter (c.mustLower g) :=
        List.filter_congr fun x hx => mustLower_congr (hopRewriting.node (hrest x hx))
      refine ⟨?_, List.filterMap_append ▸ hopRewriting.append hrewriting⟩
      rw [List.map_append, hopEntry, hentries, hmust, ← List.filter_append, List.singleton_append]

/-- A conversion that ends with an error ends with the error of one operator. -/
theorem convertOps_error {ids : List ValueId} {e : LowerError}
    (h : c.convertOps ids g = (.error e, g')) :
    ∃ done id rest outcomes g₁, ids = done ++ id :: rest ∧
      c.convertOps done g = (.ok outcomes, g₁) ∧ c.convertOp id g₁ = (.error e, g') := by
  induction ids generalizing g with
  | nil => cases h
  | cons id rest ih =>
      cases hop : c.convertOp id g with
      | mk converted g₁ =>
          rw [convertOps, hop] at h
          cases converted with
          | error e' =>
              cases h
              exact ⟨[], id, rest, [], g, rfl, rfl, hop⟩
          | ok outcome =>
              cases htail : c.convertOps rest g₁ with
              | mk tail g₂ =>
                  simp only [htail] at h
                  cases tail with
                  | ok tail => simp at h
                  | error e' =>
                      cases h
                      obtain ⟨done, id', rest', outcomes, g₃, rfl, hdone, hid'⟩ := ih htail
                      refine ⟨id :: done, id', rest', outcome.toList ++ outcomes, g₃, rfl, ?_, hid'⟩
                      simp [convertOps, hop, hdone]

end Conversion

end TensorLowering
