import TensorLowering.Proofs.Conversion.HostOperators
import TensorLowering.Proofs.Conversion.Retries

/-!
# What a report accounts for

The operators that a conversion has to lower are found once, before the first of them is lowered.
Main statement: the report of a conversion has one entry for each of them, in the order of the
schedule; the host operators that are scheduled afterwards are those that were not lowered; and the
numbers of nodes and of scheduled values are what the entries say. Rules create no host operators:
no operation of a construction does.
-/
namespace TensorLowering

open TensorLowering.Graph

variable {g g' g₁ : Graph} {c : Conversion} {id : ValueId} {report : Report}
  {outcomes : List Outcome}

/-! ## Host operators stay host operators -/

theorem Graph.isHostAt_create {op : Op} (h : ∀ hostOp, op ≠ .host hostOp) (type : ValueType) :
    (g.create op type).isHostAt = g.isHostAt := by
  funext x
  by_cases hx : x.index < g.size
  · rw [isHostAt, node?_create_of_lt g op type hx, isHostAt]
  rw [isHostAt_of_le (Nat.le_of_not_lt hx)]
  by_cases hnew : x.index = g.size
  · obtain rfl : x = g.nextId := by
      cases x
      exact congrArg ValueId.mk hnew
    rw [isHostAt, node?_create_self]
    refine Bool.eq_false_iff.2 fun hop => ?_
    obtain ⟨hostOp, rfl⟩ := (Op.isHost_iff op).1 hop
    exact h hostOp rfl
  · refine isHostAt_of_le ?_
    have hsize : (g.create op type).size = g.size + 1 := Array.size_push ..
    omega

theorem Build.Plain.isHostAt_run {α : Type} {b : Build α} {declines : Prop}
    (h : b.Plain declines) (d : Draft) : (b.run d).2.graph.isHostAt = d.graph.isHostAt := by
  induction b generalizing d with
  | done | fail => rfl
  | inspect next ih => exact ih d.graph (h d.graph) d
  | emit op type next ih =>
      rw [Build.run, ih _ (h.2 _)]
      exact isHostAt_create h.1 type

namespace Conversion

theorem convertOp_isHostAt {outcome : Option Outcome}
    (hrules : ∀ rule ∈ c.rules.rules, rule.CreatesNoHost)
    (h : c.convertOp id g = (.ok outcome, g')) : g'.isHostAt = g.isHostAt := by
  cases attempt_of_convertOp h with
  | skipped => rfl
  | @tried op result _ _ hnode hmust htrial =>
      cases htrial with
      | declined => rfl
      | @lowered rule replacement d g₁ hrule hrun happlied hcommit =>
          obtain ⟨before, after, -, -, rfl⟩ :=
            Draft.commitBefore_eq_ok (Draft.Over.of_run hrun) hcommit
          have hplain := hrules rule (List.mem_of_mem_filter hrule) c.config op result
          have hrunHost := hplain.isHostAt_run (.ofGraph g)
          rw [hrun] at hrunHost
          refine Eq.trans (funext fun x => ?_) hrunHost
          exact isHostAt_congr node?_replaceAllUses

theorem convertOps_isHostAt {ids : List ValueId}
    (hrules : ∀ rule ∈ c.rules.rules, rule.CreatesNoHost)
    (h : c.convertOps ids g = (.ok outcomes, g')) : g'.isHostAt = g.isHostAt := by
  induction ids generalizing g outcomes with
  | nil =>
      cases h
      rfl
  | cons id rest ih =>
      obtain ⟨outcome, g₁, tail, hop, htail, rfl⟩ := convertOps_cons_ok h
      rw [ih htail, convertOp_isHostAt hrules hop]

end Conversion

/-! ## Entries -/

/-- Where a property tells lowered operators from declined ones, the entries are in the order of
the operators. -/
theorem Outcome.map_op_split {p : ValueId → Bool}
    (hlowered : ∀ entry, .lowered entry ∈ outcomes → p entry.op = true)
    (hdeclined : ∀ entry, .declined entry ∈ outcomes → p entry.op = false) :
    (outcomes.filterMap Outcome.lowered?).map Lowered.op =
        (outcomes.map Outcome.op).filter p ∧
      (outcomes.filterMap Outcome.declined?).map Declined.op =
        (outcomes.map Outcome.op).filter fun x => !p x := by
  induction outcomes with
  | nil => exact ⟨rfl, rfl⟩
  | cons outcome rest ih =>
      obtain ⟨hlow, hdec⟩ := ih (fun entry he => hlowered entry (List.mem_cons_of_mem _ he))
        fun entry he => hdeclined entry (List.mem_cons_of_mem _ he)
      cases outcome with
      | lowered entry =>
          have hp := hlowered entry List.mem_cons_self
          simp [List.filterMap_cons, lowered?, declined?, op, hp, hlow, hdec]
      | declined entry =>
          have hp := hdeclined entry List.mem_cons_self
          simp [List.filterMap_cons, lowered?, declined?, op, hp, hlow, hdec]

/-- Two entries for an operator that has one entry are the same. -/
theorem Outcome.eq_of_count {outcome outcome' : Outcome} (h : outcome ∈ outcomes)
    (h' : outcome' ∈ outcomes) (hop : outcome'.op = outcome.op)
    (hcount : (outcomes.map Outcome.op).count outcome.op = 1) : outcome' = outcome := by
  rw [List.count, List.countP_map, List.countP_eq_length_filter] at hcount
  obtain ⟨only, honly⟩ := List.length_eq_one_iff.1 hcount
  have hmem : ∀ o ∈ outcomes, o.op = outcome.op → o = only := fun o ho heq =>
    List.mem_singleton.1 (honly ▸ List.mem_filter.2 ⟨ho, by simp [heq]⟩)
  rw [hmem outcome h rfl, hmem outcome' h' hop]

/-! ## The report of a conversion -/

namespace Conversion

/-- A conversion has ended with a report: `outcomes` is what came of the host operators, and `g₁`
the program from which dead nodes had not been taken off yet. -/
structure Ends (c : Conversion) (g : Graph) (outcomes : List Outcome) (g₁ : Graph)
    (report : Report) (g' : Graph) : Prop where
  ops : c.convertOps g.hosts g = (.ok outcomes, g₁)
  entries : outcomes.map Outcome.op = g.hosts.filter (c.mustLower g)
  rewriting : Rewriting (outcomes.filterMap Outcome.lowered?) g g₁
  pruned : g₁.pruneDead? = some g'
  report_eq : report = .ofOutcomes outcomes (g₁.schedule.length - g'.schedule.length)

theorem run_ends (hnodes : ∀ x ∈ g.schedule, x.index < g.size)
    (h : c.run g = (.ok report, g')) : ∃ outcomes g₁, c.Ends g outcomes g₁ report g' := by
  cases hops : c.convertOps g.hosts g with
  | mk converted g₁ =>
      simp only [run, hostOps?_eq hnodes, hops, prune?] at h
      cases converted with
      | error e => simp at h
      | ok outcomes =>
          cases hprune : g₁.pruneDead? with
          | none => simp [hprune] at h
          | some pruned =>
              simp only [hprune, Option.map_some, Prod.mk.injEq, Except.ok.injEq] at h
              obtain ⟨rfl, rfl⟩ := h
              obtain ⟨hentries, hrewriting⟩ :=
                convertOps_ok (fun x hx => hnodes x (mem_hosts.1 hx).1) hops
              exact ⟨outcomes, g₁, hops, hentries, hrewriting, hprune, rfl⟩

/-- The report of a conversion accounts for the host operators of the program. -/
structure Accounts (c : Conversion) (g g' : Graph) (report : Report) (hosts : List ValueId) :
    Prop where
  hosts_eq : g.hostOps? = some hosts
  entries : ∃ outcomes : List Outcome, outcomes.map Outcome.op = hosts.filter (c.mustLower g) ∧
    report.lowered = outcomes.filterMap Outcome.lowered? ∧
    report.declined = outcomes.filterMap Outcome.declined?
  left : g'.hostOps? = some (hosts.filter (· ∉ report.lowered.map Lowered.op))
  size : g'.size = g.size + totalCreated report.lowered
  scheduled : g'.schedule.length + report.pruned +
    (g.schedule.filter (· ∈ report.lowered.map Lowered.op)).length =
      g.schedule.length + totalCreated report.lowered

/-- No operator is among the lowered and among the declined ones. -/
structure Separates (c : Conversion) (g g' : Graph) (report : Report) (hosts : List ValueId) :
    Prop where
  lowered : report.lowered.map Lowered.op =
    (hosts.filter (c.mustLower g)).filter (· ∈ report.lowered.map Lowered.op)
  declined : report.declined.map Declined.op =
    (hosts.filter (c.mustLower g)).filter (· ∉ report.lowered.map Lowered.op)
  scheduled : g'.schedule.length + report.pruned + report.lowered.length =
    g.schedule.length + totalCreated report.lowered

namespace Ends

theorem accounts (h : c.Ends g outcomes g₁ report g')
    (hrules : ∀ rule ∈ c.rules.rules, rule.CreatesNoHost)
    (hnodes : ∀ x ∈ g.schedule, x.index < g.size) : c.Accounts g g' report g.hosts := by
  obtain ⟨hops, hentries, hrewriting, hprune, rfl⟩ := h
  have hhost : g₁.isHostAt = g.isHostAt := convertOps_isHostAt hrules hops
  have hold : ∀ entry ∈ outcomes.filterMap Outcome.lowered?, entry.op.index < g.size :=
    fun entry he =>
      hnodes _ (mem_hosts.1 (List.mem_of_mem_filter (hentries ▸ Outcome.op_mem he))).1
  obtain ⟨hnodesEq, -, hsublist, -⟩ := pruneDead?_eq_some hprune
  refine ⟨hostOps?_eq hnodes, ⟨outcomes, hentries, rfl, rfl⟩, ?_, ?_, ?_⟩
  · rw [hostOps?_pruneDead (hrewriting.lt_size hnodes) hprune, hosts, hhost,
      hrewriting.filter_schedule fun x hx => isHostAt_of_le hx, List.filter_comm]
    rfl
  · rw [Graph.size, hnodesEq]
    exact hrewriting.size
  · rw [Report.ofOutcomes, Nat.add_sub_of_le hsublist.length_le]
    exact hrewriting.length_schedule hold

/-- Operators that are found once are not declined and lowered. -/
theorem separates (h : c.Ends g outcomes g₁ report g')
    (haccounts : c.Accounts g g' report g.hosts)
    (honce : ∀ entry, .lowered entry ∈ outcomes → g.hosts.count entry.op = 1) :
    c.Separates g g' report g.hosts := by
  have hmem : ∀ {entry}, entry ∈ report.lowered ↔ .lowered entry ∈ outcomes := by
    intro entry
    rw [h.report_eq, Report.ofOutcomes, List.mem_filterMap]
    simp [Outcome.lowered?_eq_some]
  have hwork : ∀ entry ∈ report.lowered, entry.op ∈ g.hosts.filter (c.mustLower g) :=
    fun entry he => h.entries ▸ List.mem_map_of_mem (f := Outcome.op) (hmem.1 he)
  have hlow : ∀ entry, .lowered entry ∈ outcomes →
      decide (entry.op ∈ report.lowered.map Lowered.op) = true := fun entry he =>
    decide_eq_true (List.mem_map_of_mem (hmem.2 he))
  have hdec : ∀ entry, .declined entry ∈ outcomes →
      decide (entry.op ∈ report.lowered.map Lowered.op) = false := by
    refine fun entry he => decide_eq_false fun hop => ?_
    obtain ⟨entry', he', hop⟩ := List.mem_map.1 hop
    have hcount : (outcomes.map Outcome.op).count entry'.op = 1 := by
      rw [h.entries, List.count_filter (List.mem_filter.1 (hwork entry' he')).2]
      exact honce entry' (hmem.1 he')
    cases Outcome.eq_of_count (hmem.1 he') he hop.symm hcount
  obtain ⟨hlowered, hdeclined⟩ :=
    Outcome.map_op_split (p := fun x => decide (x ∈ report.lowered.map Lowered.op)) hlow hdec
  have hreport : outcomes.filterMap Outcome.lowered? = report.lowered ∧
      outcomes.filterMap Outcome.declined? = report.declined := by
    rw [h.report_eq]
    exact ⟨rfl, rfl⟩
  rw [h.entries, hreport.1] at hlowered
  rw [h.entries, hreport.2] at hdeclined
  refine ⟨hlowered, hdeclined.trans (List.filter_congr fun x _ => (decide_not ..).symm), ?_⟩
  have hfilter : g.schedule.filter (· ∈ report.lowered.map Lowered.op) =
      (g.hosts.filter (c.mustLower g)).filter (· ∈ report.lowered.map Lowered.op) := by
    rw [hosts, List.filter_filter, List.filter_filter]
    refine List.filter_congr fun x _ => ?_
    by_cases hx : x ∈ report.lowered.map Lowered.op
    · obtain ⟨entry, he, rfl⟩ := List.mem_map.1 hx
      obtain ⟨hhost, hmust⟩ := List.mem_filter.1 (hwork entry he)
      rw [hmust, (List.mem_filter.1 hhost).2, Bool.and_true, Bool.and_true]
    · rw [decide_eq_false hx, Bool.false_and, Bool.false_and]
  have hscheduled := haccounts.scheduled
  rwa [hfilter, ← hlowered, List.length_map] at hscheduled

theorem settles (h : c.Ends g outcomes g₁ report g')
    (hrules : ∀ rule ∈ c.rules.rules, rule ∈ RuleSet.standard.rules) (hg : g.verify = .ok ()) :
    c.Settles g.hosts outcomes g₁ :=
  convertOps_settles (fun rule hrule => Rule.steady_of_mem (hrules rule hrule))
    (fun rule hrule => Rule.staysWithin_of_mem (hrules rule hrule)) hg g.hosts_sublist h.ops

end Ends

end Conversion

/-! ## Three reversals -/

/-- A vector is reversed, the result is reversed along an axis that is not known, and nothing reads
the third reversal. -/
def threeFlips : Graph where
  nodes := #[⟨.input "x", .tensor ⟨.float32, .ofSizes [2]⟩⟩,
    ⟨.host (.flip ⟨⟨0⟩, .const [0]⟩), .tensor ⟨.float32, .ofSizes [2]⟩⟩,
    ⟨.host (.flip ⟨⟨1⟩, .dynamic ⟨0⟩⟩), .tensor ⟨.float32, .ofSizes [2]⟩⟩,
    ⟨.host (.flip ⟨⟨0⟩, .const [0]⟩), .tensor ⟨.float32, .ofSizes [2]⟩⟩]
  schedule := [⟨0⟩, ⟨1⟩, ⟨2⟩, ⟨3⟩]
  outputs := [⟨2⟩]

theorem verify_threeFlips : threeFlips.verify = .ok () := by
  refine verify_eq_ok.2 ⟨⟨?_, by decide, by decide, by decide⟩, by decide⟩
  simp [threeFlips, node?]

def threeFlipsReport : Report where
  lowered := [⟨⟨1⟩, .flip, "flip", ⟨4⟩, 1⟩, ⟨⟨3⟩, .flip, "flip", ⟨5⟩, 1⟩]
  declined := [⟨⟨2⟩, .flip, some "flip", .notConstant "flip dims"⟩]
  pruned := 1

theorem run_threeFlips : (Conversion.standard .standard).run threeFlips =
    (.ok threeFlipsReport, ((Conversion.standard .standard).run threeFlips).2) :=
  Prod.ext (by decide +kernel) rfl

/-- Reverses along the first axis, whatever the operator says, as soon as a program has more than
three nodes. -/
def Rule.lateFlip : Rule where
  name := "late flip"
  kind := .flip
  apply _ op result := .inspect fun g =>
    match op with
    | .flip op =>
        if 3 < g.size then lowerFlip ⟨op.input, .const [0]⟩ result
        else Build.decline (.notConstant "flip dims")
    | _ => Build.decline (.otherKind .flip)

theorem Rule.createsNoHost_lateFlip : lateFlip.CreatesNoHost := by
  intro config op result g
  cases op with
  | flip op =>
      dsimp only
      split
      · exact (lowerFlip_quiet trivial _ result).plain
      · exact .inr trivial
  | _ => exact .inr trivial

/-- Lowers by the rule for flips, and by the late one where that declines. -/
def Conversion.late : Conversion := ⟨⟨[.flip, .lateFlip]⟩, .standard, .standard⟩

/-- A vector is reversed along an axis that is not known, before and after it is reversed along its
first axis. -/
def flipsAround : Graph where
  nodes := #[⟨.input "x", .tensor ⟨.float32, .ofSizes [2]⟩⟩,
    ⟨.host (.flip ⟨⟨0⟩, .dynamic ⟨0⟩⟩), .tensor ⟨.float32, .ofSizes [2]⟩⟩,
    ⟨.host (.flip ⟨⟨0⟩, .const [0]⟩), .tensor ⟨.float32, .ofSizes [2]⟩⟩]
  schedule := [⟨0⟩, ⟨1⟩, ⟨2⟩, ⟨1⟩]
  outputs := [⟨1⟩, ⟨2⟩]

theorem verify_flipsAround : flipsAround.verify = .ok () := by
  refine verify_eq_ok.2 ⟨⟨?_, by decide, by decide, by decide⟩, by decide⟩
  simp [flipsAround, node?]

/-- The report of the conversion with the late rule. -/
def flipsAroundReport : Report where
  lowered := [⟨⟨2⟩, .flip, "flip", ⟨3⟩, 1⟩, ⟨⟨1⟩, .flip, "late flip", ⟨4⟩, 1⟩]
  declined := [⟨⟨1⟩, .flip, some "late flip", .notConstant "flip dims"⟩]
  pruned := 0

end TensorLowering
