import TensorLowering.Proofs.Conversion.Meaning
import TensorLowering.Proofs.Typing.Sessions

/-!
# Transactions

Steps are taken on a draft one after the other: constructions are called, types are looked up and
rules are tried on operators, and each of these may fail. Main statement: at every point on the way
the program is as it was, with the created nodes behind it and none of them scheduled. Discarding
the draft gives the program back, and committing it only schedules the created nodes.
-/
namespace TensorLowering

variable {g : Graph} {d d' : Draft} {α : Type}

/-- The drafts that a construction passes through, from the first one to the last. -/
def Build.drafts : Build α → Draft → List Draft
  | done _, d | fail _, d => [d]
  | inspect next, d => (next d.graph).drafts d
  | emit op type next, d => d :: (next d.graph.nextId).drafts (d.emit op type)

/-- What is kept when a node is created is kept all the way. -/
theorem Draft.Over.of_mem_drafts {b : Build α} (h : Over g d) (hd : d' ∈ b.drafts d) :
    Over g d' := by
  induction b generalizing d with
  | done | fail => exact List.mem_singleton.1 hd ▸ h
  | inspect next ih => exact ih d.graph h hd
  | emit op type next ih =>
      rcases List.mem_cons.1 hd with rfl | hd
      · exact h
      · exact ih _ (h.emit op type) hd

/-! ## Steps -/

/-- A step of a transaction: a call of a construction, a look at the type of a value, or a rule that
is tried on an operator. -/
inductive Step where
  | call (c : Call)
  | look (v : ValueId)
  | attempt (rule : Rule) (config : LoweringConfig) (op : HostOp) (result : TensorType)

namespace Step

def build : Step → Build Unit
  | call c => discard c.build
  | look v => discard (Build.tensorType v)
  | attempt rule config op result => discard (rule.apply config op result)

/-- The drafts that steps pass through. A step that fails leaves what it has created, and the next
one goes on from there. -/
def drafts : List Step → Draft → List Draft
  | [], d => [d]
  | step :: rest, d => step.build.drafts d ++ drafts rest (step.build.run d).2

theorem over_of_mem_drafts {steps : List Step} (h : Draft.Over g d) (hd : d' ∈ drafts steps d) :
    Draft.Over g d' := by
  induction steps generalizing d with
  | nil => exact List.mem_singleton.1 hd ▸ h
  | cons step rest ih =>
      rcases List.mem_append.1 hd with hd | hd
      · exact h.of_mem_drafts hd
      · exact ih (h.run step.build) hd

end Step

/-! ## What a transaction does -/

namespace Draft

/-- Nothing of the program has changed but for detached nodes behind it, which are the created ones
in order. They can be discarded, or scheduled immediately before the first occurrence of a value. -/
structure Isolated (g : Graph) (d : Draft) : Prop where
  grows : g.size ≤ d.graph.size
  node : ∀ id, id.index < g.size → d.graph.node? id = g.node? id
  schedule : d.graph.schedule = g.schedule
  outputs : d.graph.outputs = g.outputs
  created : d.created.toList = (List.range' g.size (d.graph.size - g.size)).map ValueId.mk
  detached : ∀ id ∈ d.created.toList, id ∉ d.graph.schedule
  discard : d.discard = g
  commitBefore : ∀ anchor ∈ g.schedule, ∃ before after,
    g.schedule = before ++ anchor :: after ∧ anchor ∉ before ∧ d.commitBefore anchor =
      .ok { d.graph with schedule := before ++ d.created.toList ++ anchor :: after }

theorem Over.commitBefore {anchor : ValueId} (h : Over g d) (hanchor : anchor ∈ g.schedule) :
    ∃ before after, g.schedule = before ++ anchor :: after ∧ anchor ∉ before ∧
      d.commitBefore anchor =
        .ok { d.graph with schedule := before ++ d.created.toList ++ anchor :: after } := by
  rw [Draft.commitBefore, Graph.insertBefore, h.schedule]
  cases hins : Graph.insertAt? anchor d.created.toList g.schedule with
  | none => exact absurd hanchor (Graph.insertAt?_eq_none.1 hins)
  | some schedule =>
      obtain ⟨before, after, hschedule, hbefore, rfl⟩ := Graph.insertAt?_eq_some hins
      exact ⟨before, after, hschedule, hbefore, rfl⟩

theorem Over.toIsolated (hids : ∀ id ∈ g.schedule, id.index < g.size) (h : Over g d) :
    d.Isolated g where
  grows := by
    rw [h.size]
    exact Nat.le_add_right _ _
  node _ hid := h.node? hid
  schedule := h.schedule
  outputs := h.outputs
  created := by
    rw [h.size, Nat.add_sub_cancel_left]
    exact h.created
  detached id hid hmem :=
    Nat.not_le_of_lt (hids id (h.schedule ▸ hmem)) (h.mem_created.1 hid).1
  discard := h.discard
  commitBefore _ := h.commitBefore

end Draft

/-- A transaction is all or nothing, whatever steps are taken and wherever they stop. -/
theorem Step.isolated (hids : ∀ id ∈ g.schedule, id.index < g.size) {steps : List Step}
    (hd : d ∈ drafts steps (.ofGraph g)) : d.Isolated g :=
  (over_of_mem_drafts (.ofGraph g) hd).toIsolated hids

/-- Steps that fail, that decline and that succeed. -/
def reversalSteps : List Step :=
  [.call (.narrow ⟨9⟩ 0 0 1), .call (.index 3),
    .attempt .mm .standard (.flip ⟨⟨0⟩, .const [0]⟩) ⟨.float32, .ofSizes [2]⟩,
    .attempt .flip .standard (.flip ⟨⟨0⟩, .const [0]⟩) ⟨.float32, .ofSizes [2]⟩]

def reversalDraft : Draft :=
  ((Draft.ofGraph reversePair).emit (.constant (.int 3)) .index).emit (.flip ⟨0⟩ [0])
    (.tensor ⟨.float32, .ofSizes [2]⟩)

theorem Step.isolated_reversal : (∀ id ∈ reversePair.schedule, id.index < reversePair.size) ∧
    reversalDraft ∈ drafts reversalSteps (.ofGraph reversePair) ∧
    reversalDraft.Isolated reversePair := by
  have hids : ∀ id ∈ reversePair.schedule, id.index < reversePair.size := by decide
  have hd : reversalDraft ∈ drafts reversalSteps (.ofGraph reversePair) :=
    List.mem_of_getElem? (i := 5) rfl
  exact ⟨hids, hd, isolated hids hd⟩

end TensorLowering
