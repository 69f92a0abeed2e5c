import TensorLowering.Proofs.Conversion.Rewritings
import TensorLowering.Proofs.Conversion.Verdicts

/-!
# Operators that are tried again

What a rule can see of an operator is computed before the operator and not again, so that it is
never one of the operators that are lowered later. Main statements: an operator that was declined
is declined again after others have been lowered, with the same entry, and an operator that was
lowered cannot be tried again without an error.
-/
namespace TensorLowering

open TensorLowering.Graph

variable {g g' g₁ : Graph} {id x : ValueId} {before after ids : List ValueId}
  {lowered : List Lowered}

/-! ## What a rule can see of an operator -/

/-- Both programs have the same node of an operator, and share its operands. -/
structure Graph.SharesOperator (g g' : Graph) (x : ValueId) : Prop where
  node : g.Shares g' x
  operands : ∀ v ∈ g.reads x, g.SharesOperand g' v

/-- Lowering an operator, or operators after it, does not change what a rule can see of it. -/
theorem Rewriting.sharesOperator (h : Rewriting lowered g g')
    (horders : g.Orders (before ++ x :: after))
    (hlowered : ∀ entry ∈ lowered, entry.op ∈ x :: after) : g.SharesOperator g' x := by
  -- What comes before the operator and not again is closed under reads, and none of it is lowered.
  have hearly := horders.filter_notMem
  have hnot : ∀ v ∈ before.filter (· ∉ x :: after), v ∉ lowered.map Lowered.op := by
    intro v hv hmem
    obtain ⟨entry, hentry, rfl⟩ := List.mem_map.1 hmem
    exact of_decide_eq_true (List.mem_filter.1 hv).2 (hlowered entry hentry)
  have hshares : ∀ y, y ∈ before ++ x :: after →
      (∀ v ∈ g.reads y, v ∈ before.filter (· ∉ x :: after)) → g.Shares g' y := by
    intro y hy hreads
    obtain ⟨node, hnode⟩ := horders.node y hy
    refine ⟨node, hnode, ?_⟩
    rw [h.node?_eq (horders.lt_size hy) fun v hv => hnot v (hreads v hv), hnode]
  have hoperands : ∀ v ∈ g.reads x, v ∈ before.filter (· ∉ x :: after) := by
    intro v hv
    obtain ⟨hbefore, hne, hafter⟩ := horders.mem_before hv
    simp [hbefore, hne, hafter]
  have hsharesEarly : ∀ v ∈ before.filter (· ∉ x :: after), g.Shares g' v := fun v hv =>
    hshares v (List.mem_append_left _ (List.mem_of_mem_filter hv)) (hearly.closed v hv)
  refine ⟨hshares x (by simp) hoperands, fun v hv => ⟨hsharesEarly v (hoperands v hv), ?_⟩⟩
  exact fun w hw => hsharesEarly w (hearly.closed v (hoperands v hv) w hw)

/-! ## Declining again -/

/-- The entry of an operator that was declined. -/
def declinedEntry? : Except LowerError (Option Outcome) → Option Declined
  | .ok (some (.declined entry)) => some entry
  | _ => none

namespace Conversion

variable {c : Conversion} {op : HostOp} {result : TensorType} {outcomes : List Outcome}

/-- The entry that a conversion makes for an operator that it declines. -/
def decline? (c : Conversion) (g : Graph) (id : ValueId) : Option Declined :=
  declinedEntry? (c.convertOp id g).1

/-- The next rule is tried if a rule declines. -/
theorem declinedEntry?_tryRules (rule : Rule) (rest : List Rule) (declined : Declined) :
    declinedEntry? ((c.tryRules id op result (rule :: rest) declined g).1.map some) =
      ((rule.apply c.config op result).reason? (.ofGraph g)).bind fun reason =>
        declinedEntry? ((c.tryRules id op result rest
          { declined with rule := some rule.name, reason } g).1.map some) := by
  have hover := (Draft.Over.ofGraph g).run (rule.apply c.config op result)
  unfold Build.reason?
  cases hrun : (rule.apply c.config op result).run (.ofGraph g) with
  | mk applied d =>
      rw [hrun] at hover
      simp only [tryRules, hrun]
      cases applied with
      | ok replacement =>
          dsimp only
          cases d.commitBefore id <;> rfl
      | error e =>
          cases e with
          | noMatch reason =>
              simp only [hover.discard]
              rfl
          | _ => rfl

theorem tryRules_declined_again {rules : List Rule} (hrules : ∀ rule ∈ rules, rule.Steady)
    (h : ∀ v ∈ op.operands, g.SharesOperand g' v) (declined : Declined) :
    declinedEntry? ((c.tryRules id op result rules declined g).1.map some) =
      declinedEntry? ((c.tryRules id op result rules declined g').1.map some) := by
  induction rules generalizing declined with
  | nil => rfl
  | cons rule rest ih =>
      obtain ⟨hrule, hrest⟩ := List.forall_mem_cons.1 hrules
      rw [declinedEntry?_tryRules, declinedEntry?_tryRules,
        hrule c.config op result ⟨.ofGraph g, .ofGraph g'⟩ h]
      congr 1
      funext reason
      exact ih hrest _

/-- Whether an operator is declined depends on what a rule can see of it. -/
theorem decline?_congr (hrules : ∀ rule ∈ c.rules.rules, rule.Steady)
    (h : g.SharesOperator g' id) : c.decline? g' id = c.decline? g id := by
  obtain ⟨⟨node, hnode, hnode'⟩, hoperands⟩ := h
  have htype : g'.tensorType id = g.tensorType id := by
    rw [tensorType, Shares.typeOf_eq ⟨node, hnode, hnode'⟩, tensorType]
  rw [reads_of_node hnode] at hoperands
  obtain ⟨nodeOp, type⟩ := node
  unfold decline? convertOp
  simp only [Graph.node, hnode, hnode', htype]
  cases nodeOp with
  | host op =>
      dsimp only
      split
      · rfl
      · cases g.tensorType id with
        | error e => rfl
        | ok result =>
            refine (tryRules_declined_again (fun rule hrule => hrules rule ?_) hoperands _).symm
            exact List.mem_of_mem_filter hrule
  | _ => rfl

theorem convertOp_of_decline? {entry : Declined} (h : c.decline? g id = some entry) :
    c.convertOp id g = (.ok (some (.declined entry)), g) := by
  cases hop : c.convertOp id g with
  | mk converted g₁ =>
      rw [decline?, hop] at h
      cases attempt_of_convertOp hop with
      | skipped => cases h
      | untyped => cases h
      | tried hnode hmust htrial =>
          cases htrial with
          | declined hop =>
              cases h
              rfl
          | _ => cases h

/-- An operator that is neither scheduled nor declined cannot be lowered. -/
theorem convertOp_of_notMem {r : Except LowerError (Option Outcome)}
    (hmust : c.mustLower g id = true) (hschedule : id ∉ g.schedule)
    (hdecline : c.decline? g id = none) (h : c.convertOp id g = (r, g')) : ∃ e, r = .error e := by
  rw [decline?, h] at hdecline
  cases attempt_of_convertOp h with
  | skipped hstay => simp [hstay] at hmust
  | untyped => exact ⟨_, rfl⟩
  | tried hnode _ htrial =>
      cases htrial with
      | declined => cases hdecline
      | lowered hrule hrun happlied hcommit =>
          obtain ⟨before, after, hsplit, -⟩ :=
            Draft.commitBefore_eq_ok (Draft.Over.of_run hrun) hcommit
          exact absurd (by simp [hsplit]) hschedule
      | failed => exact ⟨_, rfl⟩
      | detached => exact ⟨_, rfl⟩

/-! ## Several operators -/

theorem op_of_convertOp {outcome : Outcome} (h : c.convertOp id g = (.ok (some outcome), g')) :
    outcome.op = id ∧ c.mustLower g id = true := by
  obtain ⟨hentry, -⟩ := convertOp_ok h
  cases hmust : c.mustLower g id with
  | false => simp [hmust] at hentry
  | true => simpa [hmust] using hentry

/-- Each entry comes from an attempt on a program in which some of the operators were lowered. -/
theorem exists_convertOp {outcome : Outcome} (hids : ∀ x ∈ ids, x.index < g.size)
    (h : c.convertOps ids g = (.ok outcomes, g')) (houtcome : outcome ∈ outcomes) :
    ∃ lowered g₁ g₂, Rewriting lowered g g₁ ∧ (∀ entry ∈ lowered, entry.op ∈ ids) ∧
      c.convertOp outcome.op g₁ = (.ok (some outcome), g₂) := by
  induction ids generalizing g outcomes with
  | nil =>
      cases h
      cases houtcome
  | cons id rest ih =>
      have hrest := (List.forall_mem_cons.1 hids).2
      obtain ⟨first, g₁, tail, hop, htail, rfl⟩ := convertOps_cons_ok h
      obtain ⟨hentry, hrewriting⟩ := convertOp_ok hop
      rcases List.mem_append.1 houtcome with hfirst | htailMem
      · obtain rfl := Option.mem_toList.1 hfirst
        obtain ⟨rfl, -⟩ := op_of_convertOp hop
        exact ⟨[], g, g₁, .nil, by simp, hop⟩
      · obtain ⟨lowered, g₂, g₃, hlater, hops, hconvert⟩ := ih
          (fun x hx => Nat.lt_of_lt_of_le (hrest x hx) hrewriting.size_le) htail htailMem
        refine ⟨_, g₂, g₃, hrewriting.append hlater, fun entry he => ?_, hconvert⟩
        rcases List.mem_append.1 he with he | he
        · have hmem := hentry ▸ Outcome.op_mem he
          rw [List.mem_singleton.1 (List.mem_of_mem_filter hmem)]
          exact List.mem_cons_self
        · exact List.mem_cons_of_mem _ (hops entry he)

theorem exists_convertOp_of_mem (hids : ∀ x ∈ ids, x.index < g.size)
    (h : c.convertOps ids g = (.ok outcomes, g')) (hmem : id ∈ ids)
    (hmust : c.mustLower g id = true) : ∃ outcome lowered g₁ g₂, Rewriting lowered g g₁ ∧
      (∀ entry ∈ lowered, entry.op ∈ ids) ∧ c.convertOp id g₁ = (.ok (some outcome), g₂) := by
  have htried : id ∈ outcomes.map Outcome.op := by
    rw [(convertOps_ok hids h).1]
    exact List.mem_filter.2 ⟨hmem, hmust⟩
  obtain ⟨outcome, houtcome, rfl⟩ := List.mem_map.1 htried
  exact ⟨outcome, exists_convertOp hids h houtcome⟩

section Steady

variable {rest : List ValueId} {outcome : Outcome} (hsteady : ∀ rule ∈ c.rules.rules, rule.Steady)
  (horders : g.Orders (before ++ id :: after)) (hrest : ∀ x ∈ rest, x ∈ id :: after)
include hsteady horders hrest

/-- An operator that is declined is declined whenever it is tried again. -/
theorem eq_declined_of_mem {entry : Declined} (hdecline : c.decline? g id = some entry)
    (h : c.convertOps rest g = (.ok outcomes, g')) (houtcome : outcome ∈ outcomes)
    (hop : outcome.op = id) : outcome = .declined entry := by
  have hrestSize : ∀ x ∈ rest, x.index < g.size := fun x hx =>
    horders.lt_size (List.mem_append_right _ (hrest x hx))
  obtain ⟨lowered, g₁, g₂, hrewriting, hops, hconvert⟩ := exists_convertOp hrestSize h houtcome
  have hshares := hrewriting.sharesOperator horders fun e he => hrest _ (hops e he)
  rw [hop, convertOp_of_decline? ((decline?_congr hsteady hshares).trans hdecline)] at hconvert
  cases hconvert
  rfl

/-- An operator that has been lowered is not tried again before a conversion reaches its end. -/
theorem notMem_of_lowered {entry : Lowered}
    (hop : c.convertOp id g = (.ok (some (.lowered entry)), g₁))
    (h : c.convertOps rest g₁ = (.ok outcomes, g')) : id ∉ rest := by
  intro hmem
  have hid : id.index < g.size := horders.lt_size (by simp)
  obtain ⟨hentry : entry.op = id, hmust⟩ := op_of_convertOp hop
  have hrewriting : Rewriting [entry] g g₁ := (convertOp_ok hop).2
  have hrestSize : ∀ x ∈ rest, x.index < g₁.size := fun x hx =>
    Nat.lt_of_lt_of_le (horders.lt_size (List.mem_append_right _ (hrest x hx))) hrewriting.size_le
  -- The operator must be lowered still, so there is another attempt on it.
  have hmust₁ : c.mustLower g₁ id = true := mustLower_congr (hrewriting.node hid) ▸ hmust
  obtain ⟨outcome, lowered, g₂, g₃, hlater, hops, hconvert⟩ :=
    exists_convertOp_of_mem hrestSize h hmem hmust₁
  have hrewriting₂ := hrewriting.append hlater
  have hold : ∀ e ∈ [entry] ++ lowered, e.op ∈ id :: after := by
    intro e he
    rcases List.mem_append.1 he with he | he
    · rw [List.mem_singleton.1 he]
      exact List.mem_cons.2 (.inl hentry)
    · exact hrest _ (hops e he)
  -- It is not declined now, because it was not then, and it is not scheduled any more.
  have hdecline : c.decline? g₂ id = none := by
    rw [decline?_congr hsteady (hrewriting₂.sharesOperator horders hold), decline?, hop]
    rfl
  have hschedule : id ∉ g₂.schedule := by
    intro hscheduled
    rw [hrewriting₂.mem_schedule_iff
      (fun e he => horders.lt_size (List.mem_append_right _ (hold e he))) hid] at hscheduled
    exact hscheduled.2 (List.mem_map.2 ⟨entry, by simp, hentry⟩)
  obtain ⟨e, he⟩ := convertOp_of_notMem (mustLower_congr (hrewriting₂.node hid) ▸ hmust) hschedule
    hdecline hconvert
  cases he

/-- An operator that has been declined would be declined again in the end. -/
theorem decline?_of_declined {entry : Declined}
    (hop : c.convertOp id g = (.ok (some (.declined entry)), g₁))
    (h : c.convertOps rest g₁ = (.ok outcomes, g')) : c.decline? g' entry.op = some entry := by
  have hrestSize : ∀ x ∈ rest, x.index < g.size := fun x hx =>
    horders.lt_size (List.mem_append_right _ (hrest x hx))
  obtain ⟨hentry : entry.op = id, -⟩ := op_of_convertOp hop
  cases (convertOp_ok hop).2
  obtain ⟨hentries, hrewriting⟩ := convertOps_ok hrestSize h
  have hshares := hrewriting.sharesOperator horders fun e he =>
    hrest _ (List.mem_of_mem_filter (hentries ▸ Outcome.op_mem he))
  rw [hentry, decline?_congr hsteady hshares, decline?, hop]
  rfl

/-- An operator that has been tried is not lowered later. -/
theorem op_ne_of_lowered {first : Option Outcome} {entry : Lowered}
    (hop : c.convertOp id g = (.ok first, g₁)) (h : c.convertOps rest g₁ = (.ok outcomes, g'))
    (hentry : .lowered entry ∈ outcomes) : entry.op ≠ id := by
  rintro rfl
  obtain ⟨hfirst, hrewriting⟩ := convertOp_ok hop
  have hagain : entry.op ∈ rest.filter (c.mustLower g₁) := by
    rw [← (convertOps_ok (fun x hx => Nat.lt_of_lt_of_le
      (horders.lt_size (List.mem_append_right _ (hrest x hx))) hrewriting.size_le) h).1]
    exact List.mem_map_of_mem hentry
  obtain ⟨hmem, hmust⟩ := List.mem_filter.1 hagain
  cases first with
  | none =>
      cases hrewriting
      simp [hmust] at hfirst
  | some first =>
      cases first with
      | declined first =>
          cases hrewriting
          have hdecline : c.decline? g entry.op = some first := by
            rw [decline?, hop]
            rfl
          cases eq_declined_of_mem hsteady horders hrest hdecline h hentry rfl
      | lowered first => exact notMem_of_lowered hsteady horders hrest hop h hmem

end Steady

/-- What a list of attempts that reaches its end has settled. -/
structure Settles (c : Conversion) (ids : List ValueId) (outcomes : List Outcome) (g' : Graph) :
    Prop where
  declined : ∀ entry, .declined entry ∈ outcomes → c.decline? g' entry.op = some entry
  lowered : ∀ entry, .lowered entry ∈ outcomes → ids.count entry.op = 1

theorem Settles.cons {rest : List ValueId} {first : Option Outcome} {tail : List Outcome}
    (h : c.Settles rest tail g') (htail : ∀ entry, .lowered entry ∈ tail → entry.op ≠ id)
    (hdeclined : ∀ entry, first = some (.declined entry) → c.decline? g' entry.op = some entry)
    (hlowered : ∀ entry, first = some (.lowered entry) → entry.op = id ∧ id ∉ rest) :
    c.Settles (id :: rest) (first.toList ++ tail) g' := by
  refine ⟨fun entry he => ?_, fun entry he => ?_⟩
  · rcases List.mem_append.1 he with he | he
    · exact hdeclined entry (Option.mem_toList.1 he)
    · exact h.declined entry he
  · rcases List.mem_append.1 he with he | he
    · obtain ⟨rfl, hnot⟩ := hlowered entry (Option.mem_toList.1 he)
      rw [List.count_cons_self, List.count_eq_zero_of_not_mem hnot]
    · rw [List.count_cons_of_ne (htail entry he).symm]
      exact h.lowered entry he

theorem sublist_of_notMem {rest : List ValueId} (h : (x :: rest).Sublist (before ++ x :: after))
    (hx : x ∉ before) : rest.Sublist after := by
  obtain ⟨early, late, hsplit, hearly, hlate⟩ := List.sublist_append_iff.1 h
  cases early with
  | nil =>
      obtain rfl : x :: rest = late := hsplit
      exact List.cons_sublist_cons.1 hlate
  | cons y early =>
      obtain ⟨rfl, -⟩ := List.cons_eq_cons.1 hsplit
      exact absurd (hearly.subset List.mem_cons_self) hx

/-- What has been declined would be declined again in the end, and what has been lowered was tried
once. -/
theorem convertOps_settles (hsteady : ∀ rule ∈ c.rules.rules, rule.Steady)
    (hwithin : ∀ rule ∈ c.rules.rules, rule.StaysWithin) (hg : g.verify = .ok ())
    (hids : ids.Sublist g.schedule) (h : c.convertOps ids g = (.ok outcomes, g')) :
    c.Settles ids outcomes g' := by
  induction ids generalizing g outcomes with
  | nil =>
      cases h
      exact ⟨by simp, by simp⟩
  | cons id rest ih =>
      obtain ⟨first, g₁, tail, hop, htail, rfl⟩ := convertOps_cons_ok h
      obtain ⟨before, after, hschedule, hfirst⟩ :=
        List.eq_append_cons_of_mem (hids.subset List.mem_cons_self)
      have horders : g.Orders (before ++ id :: after) := hschedule ▸ (verify_eq_ok.1 hg).1
      have hrest : ∀ x ∈ rest, x ∈ id :: after := fun x hx =>
        List.mem_cons_of_mem id ((sublist_of_notMem (hschedule ▸ hids) hfirst).subset hx)
      have hrestSize : ∀ x ∈ rest, x.index < g.size := fun x hx =>
        horders.lt_size (List.mem_append_right _ (hrest x hx))
      have hrewriting := (convertOp_ok hop).2
      have hlowered : ∀ entry, first = some (.lowered entry) → entry.op = id ∧ id ∉ rest := by
        rintro entry rfl
        exact ⟨(op_of_convertOp hop).1, notMem_of_lowered hsteady horders hrest hop htail⟩
      have hverified : g₁.verify = .ok () := by
        have hcontinues := convertOp_continues hwithin id hg
        rw [hop] at hcontinues
        exact hcontinues.verified
      have hpending : rest.Sublist g₁.schedule := by
        refine hrewriting.sublist ((List.sublist_cons_self id rest).trans hids) hrestSize ?_
        intro x hx hmem
        obtain ⟨entry, he, rfl⟩ := List.mem_map.1 hmem
        obtain ⟨outcome, houtcome, hlower⟩ := List.mem_filterMap.1 he
        obtain rfl := Outcome.lowered?_eq_some.1 hlower
        obtain ⟨hop, hnot⟩ := hlowered entry (Option.mem_toList.1 houtcome)
        exact hnot (hop ▸ hx)
      refine (ih hverified hpending htail).cons ?_ ?_ hlowered
      · exact fun entry he => op_ne_of_lowered hsteady horders hrest hop htail he
      · rintro entry rfl
        exact decline?_of_declined hsteady horders hrest hop htail

end Conversion

end TensorLowering
