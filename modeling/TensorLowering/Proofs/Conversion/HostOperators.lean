import TensorLowering.Proofs.Conversion.Meaning
import TensorLowering.Proofs.Conversion.Schedules

/-!
# Host operators of a schedule

The host operators of a program are the values on its schedule whose nodes are host operators, in
order. Main statements: a program that has a node for everything that it schedules finds them,
taking dead nodes off the schedule keeps them, and doing so twice is doing it once.
-/
namespace TensorLowering.Graph

variable {g g' : Graph} {x : ValueId} {outputs : List ValueId}
  {entries kept : List (ValueId × Node)}

theorem exists_node_iff : (∃ node, g.node? x = some node) ↔ x.index < g.size := by
  constructor
  · rintro ⟨node, hnode⟩
    exact lt_size_of_node? hnode
  · exact fun h => ⟨_, Array.getElem?_eq_getElem h⟩

/-- The node of a value is a host operator. -/
def isHostAt (g : Graph) (x : ValueId) : Bool := (g.node? x).any fun node => node.op.isHost

/-- The host operators of the schedule, in order. -/
def hosts (g : Graph) : List ValueId := g.schedule.filter g.isHostAt

theorem mem_hosts : x ∈ g.hosts ↔ x ∈ g.schedule ∧ g.isHostAt x = true := List.mem_filter

theorem hosts_sublist (g : Graph) : g.hosts.Sublist g.schedule := List.filter_sublist

theorem isHostAt_of_le (h : g.size ≤ x.index) : g.isHostAt x = false := by
  have hnone : g.node? x = none := Array.getElem?_eq_none h
  simp [isHostAt, hnone]

theorem isHost_mapOperands (f : ValueId → ValueId) (op : Op) :
    (op.mapOperands f).isHost = op.isHost := by
  cases op <;> rfl

/-- Reading other values does not make a node a host operator, or another operation. -/
theorem isHostAt_congr {f : ValueId → ValueId} (h : g'.node? x = (g.node? x).map fun node =>
    { node with op := node.op.mapOperands f }) : g'.isHostAt x = g.isHostAt x := by
  rw [isHostAt, h, isHostAt]
  cases g.node? x with
  | none => rfl
  | some node => exact isHost_mapOperands f node.op

theorem exists_scheduled? (h : ∀ x ∈ g.schedule, x.index < g.size) :
    ∃ entries, g.scheduled? = some entries := by
  rw [scheduled?]
  generalize g.schedule = ids at h
  induction ids with
  | nil => exact ⟨[], rfl⟩
  | cons x rest ih =>
      obtain ⟨hx, hrest⟩ := List.forall_mem_cons.1 h
      obtain ⟨node, hnode⟩ := exists_node_iff.2 hx
      obtain ⟨entries, hentries⟩ := ih hrest
      refine ⟨(x, node) :: entries, ?_⟩
      rw [List.mapM_cons, hnode, hentries]
      rfl

theorem filter_host (hnodes : ∀ e ∈ entries, g.node? e.1 = some e.2) :
    (entries.filter fun e => e.2.op.isHost).map Prod.fst =
      (entries.map Prod.fst).filter g.isHostAt := by
  rw [List.filter_map]
  congr 1
  refine List.filter_congr fun e he => ?_
  simp [isHostAt, hnodes e he]

/-- A program that has a node for everything that it schedules finds its host operators. -/
theorem hostOps?_eq (h : ∀ x ∈ g.schedule, x.index < g.size) :
    g.hostOps? = some g.hosts := by
  obtain ⟨entries, hentries⟩ := exists_scheduled? h
  obtain ⟨hschedule, hnodes⟩ := scheduled?_eq_some hentries
  rw [hostOps?, hentries, Option.map_some, hosts, ← hschedule]
  exact congrArg some (filter_host hnodes)

/-! ## Dead nodes -/

/-- A host operator is not pure, so that nothing takes it off the schedule. -/
theorem isPure_of_isHost {op : Op} (h : op.isHost = true) : op.isPure = false := by
  obtain ⟨hostOp, rfl⟩ := (Op.isHost_iff op).1 h
  change (OpTraits.ofList [.host]).contains .pure = false
  decide

theorem liveEntries_filter {p : ValueId → Bool}
    (hp : ∀ e ∈ entries, p e.1 = true → e.2.op.isPure = false) :
    (liveEntries outputs entries).1.filter p = (entries.map Prod.fst).filter p := by
  induction entries with
  | nil => rfl
  | cons entry rest ih =>
      obtain ⟨hentry, hrest⟩ := List.forall_mem_cons.1 hp
      have ih := ih hrest
      obtain ⟨id, node⟩ := entry
      rw [liveEntries_cons]
      split
      next => simp [List.filter_cons, ih]
      next hdead =>
        have hid : p id ≠ true := fun hid => hdead (by simp [hentry hid])
        simp [ih, hid]

/-- The entries that are live are all live among themselves. -/
theorem liveEntries_live (hnodes : ∀ e ∈ entries, g.node? e.1 = some e.2)
    (hkept : kept.map Prod.fst = (liveEntries outputs entries).1)
    (hkeptNodes : ∀ e ∈ kept, g.node? e.1 = some e.2) :
    liveEntries outputs kept = liveEntries outputs entries := by
  induction entries generalizing kept with
  | nil =>
      obtain rfl : kept = [] := List.map_eq_nil_iff.1 hkept
      rfl
  | cons entry rest ih =>
      obtain ⟨id, node⟩ := entry
      obtain ⟨hentry, hrest⟩ := List.forall_mem_cons.1 hnodes
      rw [liveEntries_cons] at hkept ⊢
      split at hkept
      next hlive =>
        obtain ⟨⟨id', node'⟩, kept', rfl, hid, hkept'⟩ := List.map_eq_cons_iff.1 hkept
        obtain ⟨hentry', hrest'⟩ := List.forall_mem_cons.1 hkeptNodes
        obtain rfl : id' = id := hid
        obtain rfl : node' = node := Option.some.inj (hentry'.symm.trans hentry)
        rw [liveEntries_cons, ih hrest hkept' hrest']
      next hdead => rw [if_neg hdead, ih hrest hkept hkeptNodes]

/-- What is left of a program from which dead nodes have been taken off the schedule. -/
theorem pruneDead?_eq_some (h : g.pruneDead? = some g') : g'.nodes = g.nodes ∧
    g'.outputs = g.outputs ∧ g'.schedule.Sublist g.schedule ∧ g'.hosts = g.hosts := by
  obtain ⟨entries, hentries, rfl⟩ := Option.map_eq_some_iff.1 h
  obtain ⟨hschedule, hnodes⟩ := scheduled?_eq_some hentries
  refine ⟨rfl, rfl, hschedule ▸ liveEntries_sublist g.outputs entries, ?_⟩
  rw [hosts, hosts, ← hschedule]
  refine liveEntries_filter fun e he hhost => isPure_of_isHost ?_
  change ((g.node? e.1).any fun node => node.op.isHost) = true at hhost
  rwa [hnodes e he] at hhost

theorem hostOps?_pruneDead (hnodes : ∀ x ∈ g.schedule, x.index < g.size)
    (h : g.pruneDead? = some g') : g'.hostOps? = some g.hosts := by
  obtain ⟨hnodesEq, -, hsublist, hhosts⟩ := pruneDead?_eq_some h
  rw [hostOps?_eq fun x hx => ?_, hhosts]
  rw [size, hnodesEq]
  exact hnodes x (hsublist.subset hx)

/-- Dead nodes are taken off the schedule once and for all. -/
theorem pruneDead?_pruned (h : g.pruneDead? = some g') : g'.pruneDead? = some g' := by
  obtain ⟨entries, hentries, rfl⟩ := Option.map_eq_some_iff.1 h
  obtain ⟨hschedule, hnodes⟩ := scheduled?_eq_some hentries
  have hsublist := liveEntries_sublist g.outputs entries
  obtain ⟨kept, hkept⟩ := exists_scheduled?
    (g := { g with schedule := (liveEntries g.outputs entries).1 }) fun x hx => by
      obtain ⟨e, he, rfl⟩ := List.mem_map.1 (hsublist.subset hx)
      exact lt_size_of_node? (hnodes e he)
  obtain ⟨hkeptSchedule, hkeptNodes⟩ := scheduled?_eq_some hkept
  rw [pruneDead?, hkept, Option.map_some]
  change some { g with schedule := (liveEntries g.outputs kept).1 } = _
  rw [liveEntries_live hnodes hkeptSchedule hkeptNodes]

/-- A program that has a node for everything that it schedules can be pruned. -/
theorem exists_pruneDead? (h : ∀ x ∈ g.schedule, x.index < g.size) :
    ∃ g', g.pruneDead? = some g' := by
  obtain ⟨entries, hentries⟩ := exists_scheduled? h
  exact ⟨_, congrArg _ hentries⟩

end TensorLowering.Graph
