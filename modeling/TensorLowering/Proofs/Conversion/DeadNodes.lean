import TensorLowering.Proofs.Conversion.HostOperators
import TensorLowering.Proofs.Conversion.WellFormed

/-!
# Dead nodes

A value is live when the program gives it out, when its node has an effect, or when a live value
reads it. Main statement: pruning a verified program leaves the live values on its schedule and
nothing else, where one sweep from the last entry to the first finds all of them. The pruned program
is verified, has nothing left to prune, and computes what the program computed.
-/
namespace TensorLowering.Graph

variable {g : Graph} {before after : List ValueId} {x v : ValueId}

/-- The node of the value does more than compute it. -/
def HasEffect (g : Graph) (v : ValueId) : Prop :=
  ∃ node, g.node? v = some node ∧ node.op.isPure = false

/-- What outputs and effects need. -/
inductive Live (g : Graph) : ValueId → Prop
  | output {v : ValueId} (h : v ∈ g.outputs) : g.Live v
  | effect {v : ValueId} (h : v ∈ g.schedule) (heffect : g.HasEffect v) : g.Live v
  | operand {x v : ValueId} (h : g.Live x) (hv : v ∈ g.reads x) : g.Live v

theorem Live.mem_schedule (hg : g.verify = .ok ()) (h : g.Live v) : v ∈ g.schedule := by
  obtain ⟨horders, houtputs⟩ := verify_eq_ok.1 hg
  induction h with
  | output h => exact houtputs _ h
  | effect h _ => exact h
  | operand _ hv ih => exact horders.closed _ ih _ hv

/-- A value is read later than it is computed. -/
theorem Orders.mem_after (h : g.Orders (before ++ v :: after)) (hx : x ∈ before ++ v :: after)
    (hv : v ∈ g.reads x) : x ∈ after := by
  rcases List.mem_append.1 hx with hx | hx
  · obtain ⟨first, rest, rfl⟩ := List.append_of_mem hx
    rw [List.append_assoc, List.cons_append] at h
    exact absurd (by simp) (h.mem_before hv).2.2
  · rcases List.mem_cons.1 hx with rfl | hx
    · exact absurd hv (h.irrefl x (by simp))
    · exact hx

/-! ## The sweep -/

variable {entries : List (ValueId × Node)} {keep : ValueId → Bool}

/-- The sweep over the end of a schedule has found the live entries there, and what these read. -/
theorem liveEntries_eq_filter (hg : g.verify = .ok ())
    (hkeep : ∀ v, keep v = true ↔ g.Live v) (hnodes : ∀ e ∈ entries, g.node? e.1 = some e.2)
    (hschedule : g.schedule = before ++ entries.map Prod.fst) :
    (liveEntries g.outputs entries).1 = (entries.map Prod.fst).filter keep ∧
      ∀ v, v ∈ (liveEntries g.outputs entries).2 ↔
        v ∈ g.outputs ∨ ∃ x ∈ entries.map Prod.fst, g.Live x ∧ v ∈ g.reads x := by
  induction entries generalizing before with
  | nil => simp [liveEntries]
  | cons entry rest ih =>
      obtain ⟨id, node⟩ := entry
      obtain ⟨hnode, hrest⟩ := List.forall_mem_cons.1 hnodes
      have hschedule' : g.schedule = before ++ [id] ++ rest.map Prod.fst := by simpa using hschedule
      obtain ⟨hkept, hused⟩ := ih hrest hschedule'
      have hmem : id ∈ g.schedule := by simp [hschedule]
      -- whoever reads the value is scheduled later, so the sweep has met the reader already
      have hlive : ((liveEntries g.outputs rest).2.contains id || !node.op.isPure) = true ↔
          g.Live id := by
        rw [Bool.or_eq_true, List.contains_iff_mem, hused, Bool.not_eq_true']
        constructor
        · rintro ((hout | ⟨x, -, hx, hread⟩) | heffect)
          · exact .output hout
          · exact .operand hx hread
          · exact .effect hmem ⟨node, hnode, heffect⟩
        · intro h
          cases h with
          | output hout => exact .inl (.inl hout)
          | effect _ heffect =>
              obtain ⟨node', hnode', heffect⟩ := heffect
              cases hnode.symm.trans hnode'
              exact .inr heffect
          | operand hx hread =>
              have horders : g.Orders (before ++ id :: rest.map Prod.fst) := by
                have h := (verify_eq_ok.1 hg).1
                rwa [hschedule] at h
              have hx' := hx.mem_schedule hg
              rw [hschedule] at hx'
              exact .inl (.inr ⟨_, horders.mem_after hx' hread, hx, hread⟩)
      rw [liveEntries_cons, List.map_cons]
      by_cases h : g.Live id
      · rw [if_pos (hlive.2 h), List.filter_cons_of_pos ((hkeep id).2 h), hkept]
        refine ⟨rfl, fun v => ?_⟩
        simp only [List.mem_append, hused, List.mem_cons, exists_eq_or_imp, h, true_and,
          reads_of_node hnode]
        exact or_left_comm
      · rw [if_neg (fun hdead => h (hlive.1 hdead)),
          List.filter_cons_of_neg (fun hdead => h ((hkeep id).1 hdead)), hkept]
        refine ⟨rfl, fun v => ?_⟩
        simp only [hused, List.mem_cons, exists_eq_or_imp, h, false_and, false_or]

/-! ## What is left -/

/-- Pruning a verified program takes what is not live off its schedule, once and for all, and keeps
what the program computes. -/
theorem prune_keeps_live (hg : g.verify = .ok ()) :
    ∃ g' removed, g.prune? = some (g', removed) ∧ g'.nodes = g.nodes ∧ g'.outputs = g.outputs ∧
      (∃ keep : ValueId → Bool, (∀ v, keep v = true ↔ g.Live v) ∧
        g'.schedule = g.schedule.filter keep) ∧
      g'.verify = .ok () ∧ g'.schedule.length + removed = g.schedule.length ∧
      g'.prune? = some (g', 0) ∧
      ∀ input : String → Option Tensor,
        (∀ outs, g.run (.ofInputs input) = .ok outs → g'.run (.ofInputs input) = .ok outs) ∧
        ∀ e, g'.run (.ofInputs input) = .error e → ∃ e', g.run (.ofInputs input) = .error e' := by
  have hnodes : ∀ x ∈ g.schedule, x.index < g.size := fun x hx =>
    (verify_eq_ok.1 hg).1.lt_size hx
  obtain ⟨g', hpruned⟩ := exists_pruneDead? hnodes
  obtain ⟨hnodesEq, houtputs, hsublist, -⟩ := pruneDead?_eq_some hpruned
  have hruns : ∀ (input : String → Option Tensor) outs,
      g.run (.ofInputs input) = .ok outs → g'.run (.ofInputs input) = .ok outs :=
    fun input outs => run_pruneDead (Supply.ignoresNames_ofInputs input) hpruned
  refine ⟨g', g.schedule.length - g'.schedule.length, by rw [prune?, hpruned]; rfl, hnodesEq,
    houtputs, ?_, (pruneDead_continues hg hpruned).verified, ?_, ?_, fun input =>
      ⟨hruns input, fun e he => ?_⟩⟩
  · classical
    obtain ⟨entries, hentries, rfl⟩ := Option.map_eq_some_iff.1 hpruned
    obtain ⟨hschedule, hentryNodes⟩ := scheduled?_eq_some hentries
    have hwhole : g.schedule = [] ++ entries.map Prod.fst := hschedule.symm
    have hlive : ∀ v, decide (g.Live v) = true ↔ g.Live v := fun v => decide_eq_true_iff
    obtain ⟨hkept, -⟩ := liveEntries_eq_filter hg hlive hentryNodes hwhole
    exact ⟨_, hlive, hschedule ▸ hkept⟩
  · exact Nat.add_sub_of_le hsublist.length_le
  · rw [prune?, pruneDead?_pruned hpruned, Option.map_some, Nat.sub_self]
  · cases hrun : g.run (.ofInputs input) with
    | error e' => exact ⟨e', rfl⟩
    | ok outs => cases (hruns input outs hrun).symm.trans he

section Guarded

/-- A row whose size is counted three times: a guard compares two of the counts, and nothing reads
the third. -/
def guardedRow : Graph where
  nodes := #[⟨.input "x", .tensor ⟨.float32, .ofSizes [2]⟩⟩, ⟨.dim ⟨0⟩ 0, .index⟩,
    ⟨.dim ⟨0⟩ 0, .index⟩, ⟨.dim ⟨0⟩ 0, .index⟩,
    ⟨.guard ⟨.equal ⟨1⟩ ⟨2⟩, "sizes differ"⟩, .unit⟩]
  schedule := [⟨0⟩, ⟨1⟩, ⟨2⟩, ⟨3⟩, ⟨4⟩]
  outputs := [⟨0⟩]

/-- The counts that the guard compares are kept, and the third one is not. -/
theorem prune_keeps_live_guarded :
    guardedRow.verify = .ok () ∧ ∃ g', guardedRow.prune? = some (g', 1) ∧
      g'.schedule = [⟨0⟩, ⟨1⟩, ⟨2⟩, ⟨4⟩] ∧ g'.verify = .ok () ∧ g'.prune? = some (g', 0) := by
  have hverify : guardedRow.verify = .ok () := by
    refine verify_eq_ok.2 ⟨⟨?_, by decide, by decide, by decide⟩, by decide⟩
    simp [guardedRow, node?]
  obtain ⟨g', removed, hpruned, -, -, -, hverify', -, hagain, -⟩ := prune_keeps_live hverify
  obtain ⟨rfl, rfl⟩ : { guardedRow with schedule := [⟨0⟩, ⟨1⟩, ⟨2⟩, ⟨4⟩] } = g' ∧ 1 = removed :=
    Prod.mk.inj (Option.some.inj hpruned)
  exact ⟨hverify, _, hpruned, rfl, hverify', hagain⟩

end Guarded

end TensorLowering.Graph
