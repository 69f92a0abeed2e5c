import TensorLowering.Proofs.Conversion.Reports

/-!
# Lowering twice

After a conversion by standard rules every operator that the conversion had to lower is gone or was
declined, and what a rule can see of a declined operator has not changed since. Main statement:
lowering a program a second time lowers nothing, declines the same operators for the same reasons,
finds no dead node, and leaves the program as it is.
-/
namespace TensorLowering

open TensorLowering.Graph

variable {g g' g₁ : Graph} {c : Conversion} {report : Report} {outcomes : List Outcome}
  {ids : List ValueId} {x id : ValueId}

/-- Programs with the same nodes share what can be seen of a value that is scheduled in order. -/
theorem Graph.Orders.sharesOperator (h : g.Orders ids) (hnodes : g'.nodes = g.nodes)
    (hx : x ∈ ids) : g.SharesOperator g' x := by
  have hshares : ∀ v ∈ ids, g.Shares g' v := by
    intro v hv
    obtain ⟨node, hnode⟩ := h.node v hv
    refine ⟨node, hnode, ?_⟩
    rwa [node?, hnodes]
  refine ⟨hshares x hx, fun v hv => ?_⟩
  have hv := h.closed x hx v hv
  exact ⟨hshares v hv, fun w hw => hshares w (h.closed v hv w hw)⟩

theorem Report.ofOutcomes_declined (entries : List Declined) (pruned : Nat) :
    ofOutcomes (entries.map Outcome.declined) pruned = ⟨[], entries, pruned⟩ := by
  have hlowered : Outcome.lowered? ∘ Outcome.declined = fun _ => none := rfl
  have hdeclined : Outcome.declined? ∘ Outcome.declined = some := rfl
  rw [ofOutcomes, List.filterMap_map, List.filterMap_map, hlowered, hdeclined, List.filterMap_some]
  simp

namespace Conversion

theorem convertOp_of_mustLower (hid : id.index < g.size) (h : c.mustLower g id = false) :
    c.convertOp id g = (.ok none, g) := by
  obtain ⟨⟨op, type⟩, hnode⟩ := exists_node_iff.2 hid
  simp only [convertOp, Graph.node, hnode]
  cases op with
  | host op =>
      have hlegal : c.target.isLegal op.kind = true := by simpa [mustLower, hnode] using h
      simp only [hlegal, if_true]
  | _ => rfl

/-- Where each operator may stay or is declined, the program stays as it is. -/
theorem convertOps_of_declined {entries : List Declined} (hids : ∀ x ∈ ids, x.index < g.size)
    (hentries : entries.map Declined.op = ids.filter (c.mustLower g))
    (hdecline : ∀ entry ∈ entries, c.decline? g entry.op = some entry) :
    c.convertOps ids g = (.ok (entries.map Outcome.declined), g) := by
  induction ids generalizing entries with
  | nil =>
      obtain rfl : entries = [] := List.map_eq_nil_iff.1 hentries
      rfl
  | cons id rest ih =>
      obtain ⟨hid, hrest⟩ := List.forall_mem_cons.1 hids
      cases hmust : c.mustLower g id with
      | false =>
          rw [List.filter_cons_of_neg (by simp [hmust])] at hentries
          simp [convertOps, convertOp_of_mustLower hid hmust, ih hrest hentries hdecline]
      | true =>
          rw [List.filter_cons_of_pos hmust] at hentries
          obtain ⟨entry, tail, rfl, rfl, htail⟩ := List.map_eq_cons_iff.1 hentries
          obtain ⟨hentry, hdecline⟩ := List.forall_mem_cons.1 hdecline
          simp [convertOps, convertOp_of_decline? hentry, ih hrest htail hdecline]

/-- A second conversion has nothing to do. -/
theorem Ends.run_again (h : c.Ends g outcomes g₁ report g')
    (hrules : ∀ rule ∈ c.rules.rules, rule ∈ RuleSet.standard.rules) (hg : g.verify = .ok ()) :
    c.run g' = (.ok ⟨[], report.declined, 0⟩, g') := by
  have hnodes : ∀ x ∈ g.schedule, x.index < g.size := fun x => (verify_eq_ok.1 hg).1.lt_size
  have hsettles := h.settles hrules hg
  have haccounts :=
    h.accounts (fun rule hrule => Rule.createsNoHost_of_mem (hrules rule hrule)) hnodes
  have hseparates := h.separates haccounts hsettles.lowered
  have horders : g₁.Orders g₁.schedule := by
    have hcontinues := convertOps_continues
      (fun rule hrule => Rule.staysWithin_of_mem (hrules rule hrule)) g.hosts hg
    rw [h.ops] at hcontinues
    exact (verify_eq_ok.1 hcontinues.verified).1
  obtain ⟨hnodesEq, -, hsublist, -⟩ := pruneDead?_eq_some h.pruned
  have hnodes' : ∀ x ∈ g'.schedule, x.index < g'.size := fun x hx => by
    rw [Graph.size, hnodesEq]
    exact horders.lt_size (hsublist.subset hx)
  have hhosts : g'.hosts = g.hosts.filter (· ∉ report.lowered.map Lowered.op) :=
    Option.some.inj ((hostOps?_eq hnodes').symm.trans haccounts.left)
  -- The operators that must be lowered and are left are those that were declined.
  have hentries : report.declined.map Declined.op = g'.hosts.filter (c.mustLower g') := by
    rw [hseparates.declined, List.filter_comm, hhosts]
    refine List.filter_congr fun x hx => ?_
    have hnode := h.rewriting.node (hnodes x (mem_hosts.1 (List.mem_of_mem_filter hx)).1)
    rw [node?, ← hnodesEq] at hnode
    exact (mustLower_congr hnode).symm
  have hdecline : ∀ entry ∈ report.declined, c.decline? g' entry.op = some entry := by
    intro entry he
    have hmem : entry.op ∈ g'.hosts :=
      List.mem_of_mem_filter (hentries ▸ List.mem_map_of_mem he)
    have hshares := horders.sharesOperator hnodesEq (hsublist.subset (mem_hosts.1 hmem).1)
    rw [decline?_congr (fun rule hrule => Rule.steady_of_mem (hrules rule hrule)) hshares]
    rw [h.report_eq] at he
    obtain ⟨outcome, houtcome, hdeclined⟩ := List.mem_filterMap.1 he
    exact hsettles.declined entry (Outcome.declined?_eq_some.1 hdeclined ▸ houtcome)
  have hops := convertOps_of_declined (fun x hx => hnodes' x (mem_hosts.1 hx).1) hentries hdecline
  simp only [run, hostOps?_eq hnodes', hops, prune?, pruneDead?_pruned h.pruned, Option.map_some,
    Nat.sub_self, Report.ofOutcomes_declined]

end Conversion

namespace Graph

/-- Lowering a program that has been lowered does nothing, and gives the same reasons. -/
theorem lower_again {config : LoweringConfig} (hg : g.verify = .ok ())
    (h : g.lower config = (.ok report, g')) :
    g'.lower config = (.ok ⟨[], report.declined, 0⟩, g') := by
  obtain ⟨outcomes, g₁, hends⟩ :=
    Conversion.run_ends (fun x => (verify_eq_ok.1 hg).1.lt_size) h
  exact hends.run_again (fun _ hrule => hrule) hg

theorem lower_again_threeFlips : threeFlips.verify = .ok () ∧
    (threeFlips.lower .standard).2.lower .standard =
      (.ok ⟨[], threeFlipsReport.declined, 0⟩, (threeFlips.lower .standard).2) :=
  ⟨verify_threeFlips, lower_again verify_threeFlips run_threeFlips⟩

end Graph

end TensorLowering
