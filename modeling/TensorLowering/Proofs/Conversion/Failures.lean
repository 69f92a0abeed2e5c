import TensorLowering.Proofs.Conversion.HostOperators
import TensorLowering.Proofs.Conversion.Rewritings

/-!
# Conversions that end with an error

A conversion that ends with an error has lowered some operators and stopped at the next one. Main
statement: what it leaves is the program with those operators lowered, in which the operator that
failed is scheduled as before, unless that operator is one of those that were lowered, which takes a
schedule that lists it twice. Such a schedule can leave nodes behind that nothing schedules.
-/
namespace TensorLowering

open TensorLowering.Graph

variable {g g' g₁ : Graph} {c : Conversion} {e : LowerError} {id : ValueId}
  {lowered : List Lowered}

/-- Where a program has nodes for everything that it schedules, only operators can fail. -/
theorem Conversion.run_convertOps_error (hnodes : ∀ x ∈ g.schedule, x.index < g.size)
    (h : c.run g = (.error e, g')) :
    c.convertOps g.hosts g = (.error e, g') := by
  cases hops : c.convertOps g.hosts g with
  | mk converted g₁ =>
      simp only [run, hostOps?_eq hnodes, hops, prune?] at h
      cases converted with
      | error e' => simpa using h
      | ok outcomes =>
          obtain ⟨hentries, hrewriting⟩ := convertOps_ok
            (fun x hx => hnodes x (mem_hosts.1 hx).1) hops
          obtain ⟨pruned, hpruned⟩ := exists_pruneDead? (g := g₁) (hrewriting.lt_size hnodes)
          simp [hpruned] at h

/-- The operators of the entries have been lowered in the program, and nothing else has happened: it
has grown by the nodes created for them, which are all scheduled, and `id` is scheduled with the
operator that it was, which reads the replacements. -/
structure Graph.HalfLowered (g g' : Graph) (lowered : List Lowered) (id : ValueId) : Prop where
  size : g'.size = g.size + totalCreated lowered
  node : ∀ x, x.index < g.size → g'.node? x = (g.node? x).map fun node =>
    { node with op := node.op.mapOperands (redirectAll lowered) }
  outputs : g'.outputs = g.outputs.map (redirectAll lowered)
  created : ∀ x, g.size ≤ x.index → x.index < g'.size → x ∈ g'.schedule
  scheduled : id ∈ g'.schedule
  operator : ∃ op type, g.node? id = some ⟨.host op, type⟩ ∧
    g'.node? id = some ⟨.host (op.mapOperands (redirectAll lowered)), type⟩

/-- The conversion has lowered the operators of the entries and failed at `id`, the next one. -/
structure Conversion.FailsAt (c : Conversion) (g : Graph) (e : LowerError) (g' : Graph)
    (lowered : List Lowered) (id : ValueId) : Prop where
  fails : ∃ done rest outcomes g₁, g.hostOps? = some (done ++ id :: rest) ∧
    c.convertOps done g = (.ok outcomes, g₁) ∧ c.convertOp id g₁ = (.error e, g') ∧
    outcomes.filterMap Outcome.lowered? = lowered
  once : id ∉ lowered.map Lowered.op → g.HalfLowered g' lowered id
  twice : id ∈ lowered.map Lowered.op → 1 < g.schedule.count id

theorem Rewriting.halfLowered (h : Rewriting lowered g g')
    (hold : ∀ entry ∈ lowered, entry.op.index < g.size) (hid : id ∈ g.schedule)
    (hhost : g.isHostAt id = true) (hnot : id ∉ lowered.map Lowered.op) :
    g.HalfLowered g' lowered id := by
  obtain ⟨⟨op, type⟩, hnode, hop⟩ := (Option.any_eq_true ..).1 hhost
  obtain ⟨hostOp, rfl⟩ := (Op.isHost_iff op).1 hop
  have hsize : id.index < g.size := lt_size_of_node? hnode
  have hnode' := h.node hsize
  rw [hnode] at hnode'
  exact ⟨h.size, fun x hx => h.node hx, h.outputs, fun x hx hx' => h.mem_schedule hold hx hx',
    (h.mem_schedule_iff hold hsize).2 ⟨hid, hnot⟩, hostOp, type, hnode, hnode'⟩

/-- What a conversion that ends with an error leaves. -/
theorem Conversion.run_error (hg : g.verify = .ok ()) (h : c.run g = (.error e, g')) :
    ∃ lowered id, c.FailsAt g e g' lowered id := by
  have hnodes : ∀ x ∈ g.schedule, x.index < g.size := fun x => (verify_eq_ok.1 hg).1.lt_size
  have hhosts := hostOps?_eq hnodes
  obtain ⟨done, id, rest, outcomes, g₁, hids, hdone, hid⟩ :=
    convertOps_error (run_convertOps_error hnodes h)
  rw [hids] at hhosts
  have hmem : ∀ x ∈ done ++ id :: rest, x ∈ g.schedule ∧ g.isHostAt x = true := fun x hx =>
    mem_hosts.1 (hids ▸ hx)
  obtain ⟨hidSchedule, hidHost⟩ := hmem id (by simp)
  obtain ⟨hentries, hrewriting⟩ := convertOps_ok
    (fun x hx => hnodes x (hmem x (by simp [hx])).1) hdone
  have hlowered : ∀ x ∈ (outcomes.filterMap Outcome.lowered?).map Lowered.op, x ∈ done := by
    intro x hx
    obtain ⟨entry, hentry, rfl⟩ := List.mem_map.1 hx
    exact List.mem_of_mem_filter (hentries ▸ Outcome.op_mem hentry)
  have hold : ∀ entry ∈ outcomes.filterMap Outcome.lowered?, entry.op.index < g.size :=
    fun entry hentry => hnodes _ (hmem _ (by simp [hlowered _ (List.mem_map_of_mem hentry)])).1
  refine ⟨outcomes.filterMap Outcome.lowered?, id,
    ⟨done, rest, outcomes, g₁, hhosts, hdone, hid, rfl⟩, fun hnot => ?_, fun hin => ?_⟩
  · have hhalf := hrewriting.halfLowered hold hidSchedule hidHost hnot
    have hidSize : id.index < g₁.size :=
      Nat.lt_of_lt_of_le (hnodes id hidSchedule) hrewriting.size_le
    rcases convertOp_error hid with rfl | ⟨hunscheduled, -⟩
    · exact hhalf
    · exact absurd hhalf.scheduled hunscheduled
  · calc 1 < (done ++ id :: rest).count id := by
          have hpos := List.count_pos_iff.2 (hlowered id hin)
          rw [List.count_append, List.count_cons_self]
          omega
      _ ≤ g.schedule.count id := hids ▸ g.hosts_sublist.count_le id

/-! ## A product that fails behind a flip -/

section Failing

/-- The product of a matrix with two rows and three columns with itself, the first one reversed. -/
def flipThenMm : Graph where
  nodes := #[⟨.input "x", .tensor ⟨.float32, .ofSizes [2, 3]⟩⟩,
    ⟨.host (.flip ⟨⟨0⟩, .const [0]⟩), .tensor ⟨.float32, .ofSizes [2, 3]⟩⟩,
    ⟨.host (.mm ⟨⟨1⟩, ⟨0⟩⟩), .tensor ⟨.float32, .ofSizes [2, 3]⟩⟩]
  schedule := [⟨0⟩, ⟨1⟩, ⟨2⟩]
  outputs := [⟨2⟩]

theorem verify_flipThenMm : flipThenMm.verify = .ok () := by
  refine verify_eq_ok.2 ⟨⟨?_, by decide, by decide, by decide⟩, by decide⟩
  simp [flipThenMm, node?]

theorem run_flipThenMm : (Conversion.standard .standard).run flipThenMm =
    (.error (.staticShapeMismatch "contracting dimension" 3 2),
      ((Conversion.standard .standard).run flipThenMm).2) := by
  decide +kernel

theorem Conversion.run_error_flipThenMm : flipThenMm.verify = .ok () ∧
    ∃ lowered id, (Conversion.standard .standard).FailsAt flipThenMm
      (.staticShapeMismatch "contracting dimension" 3 2)
      ((Conversion.standard .standard).run flipThenMm).2 lowered id :=
  ⟨verify_flipThenMm, Conversion.run_error verify_flipThenMm run_flipThenMm⟩

/-- A program that schedules one operator twice. -/
def flipTwice : Graph where
  nodes := #[⟨.input "x", .tensor ⟨.float32, .ofSizes [2]⟩⟩,
    ⟨.host (.flip ⟨⟨0⟩, .const [0]⟩), .tensor ⟨.float32, .ofSizes [2]⟩⟩]
  schedule := [⟨0⟩, ⟨1⟩, ⟨1⟩]
  outputs := [⟨1⟩]

/-- The second attempt on an operator that is scheduled twice fails and leaves a node behind, and
the operator is not scheduled. -/
theorem Conversion.leaves_node_behind : flipTwice.verify = .ok () ∧
    ((Conversion.standard .standard).run flipTwice).1 = .error (.graph (.unknownValue ⟨1⟩)) ∧
    ⟨1⟩ ∉ ((Conversion.standard .standard).run flipTwice).2.schedule ∧
    ∀ lowered id, ¬flipTwice.HalfLowered ((Conversion.standard .standard).run flipTwice).2
      lowered id := by
  refine ⟨?_, by decide +kernel, by decide +kernel, fun lowered id h => ?_⟩
  · refine verify_eq_ok.2 ⟨⟨?_, by decide, by decide, by decide⟩, by decide⟩
    simp [flipTwice, node?]
  · have hsize : 3 < ((Conversion.standard .standard).run flipTwice).2.size := by decide +kernel
    have hdetached : ⟨3⟩ ∉ ((Conversion.standard .standard).run flipTwice).2.schedule := by
      decide +kernel
    exact hdetached (h.created ⟨3⟩ (by decide) hsize)

end Failing

end TensorLowering
