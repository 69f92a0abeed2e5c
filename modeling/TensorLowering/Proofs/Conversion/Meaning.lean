import TensorLowering.Proofs.Conversion.Attempts
import TensorLowering.Proofs.Conversion.Splice

/-!
# Conversion preserves meaning

Host operators have no meaning of their own. Under any meaning that is given to them, a program
that a conversion has lowered computes the outputs that it computed before, as long as every
operator that was lowered was replaced by nodes that compute the value of the operator.
-/
namespace TensorLowering

open TensorLowering.Graph

variable {g g' : Graph} {supply : Supply} {outs : List Value}

namespace Conversion

variable {c : Conversion} {op : HostOp} {result : TensorType} {id : ValueId}

/-- If the operator is lowered, the created nodes compute its value from the values available just
before it. -/
def SoundAt (c : Conversion) (supply : Supply) (id : ValueId) (g : Graph) : Prop :=
  ∀ op result replacement draft env value,
    g.node? id = some ⟨.host op, .tensor result⟩ → c.target.isLegal op.kind = false →
    c.applied? op result g (c.rules.rulesFor op.kind) = some (replacement, draft) →
    g.evalFrom supply .empty (g.scheduledBefore id) = .ok env →
    evalNode supply env ⟨.host op, .tensor result⟩ = .ok value →
    draft.Computes supply env replacement value

/-- Every operator that is lowered on the way is replaced soundly in the program at that point. -/
def SoundOn (c : Conversion) (supply : Supply) : List ValueId → Graph → Prop
  | [], _ => True
  | id :: rest, g => c.SoundAt supply id g ∧ c.SoundOn supply rest (c.convertOp id g).2

/-- Every operator of the program that is lowered is replaced soundly. -/
def SoundFor (c : Conversion) (supply : Supply) (g : Graph) : Prop :=
  ∀ ids, g.hostOps? = some ids → c.SoundOn supply ids g

/-! ## One operator -/

/-- Converting one operator leaves the program alone, or lowers the operator. -/
theorem convertOp_cases {outcome : Option Outcome} (h : c.convertOp id g = (.ok outcome, g')) :
    g' = g ∨ ∃ op result replacement draft g₁, g.node? id = some ⟨.host op, .tensor result⟩ ∧
      c.target.isLegal op.kind = false ∧
      c.applied? op result g (c.rules.rulesFor op.kind) = some (replacement, draft) ∧
      draft.Over g ∧ draft.commitBefore id = .ok g₁ ∧
      g' = (g₁.replaceAllUses id replacement).erase id := by
  cases attempt_of_convertOp h with
  | skipped => exact .inl rfl
  | tried hnode hmust htrial =>
      cases htrial with
      | declined => exact .inl rfl
      | lowered hrule hrun happlied hcommit =>
          refine .inr ⟨_, _, _, _, _, hnode, ?_, happlied, Draft.Over.of_run hrun, hcommit, rfl⟩
          simpa [mustLower, hnode] using hmust

/-- Converting an operator that is replaced soundly keeps the outputs. -/
theorem run_convertOp (hs : supply.IgnoresNames) {outcome : Option Outcome}
    (h : c.convertOp id g = (.ok outcome, g')) (hsound : c.SoundAt supply id g)
    (hnodup : g.schedule.Nodup) (hrun : g.run supply = .ok outs) :
    g'.schedule.Nodup ∧ g'.run supply = .ok outs := by
  rcases convertOp_cases h with rfl | ⟨op, result, replacement, draft, g₁, hnode, hlegal, happlied,
    hover, hcommit, rfl⟩
  · exact ⟨hnodup, hrun⟩
  · obtain ⟨before, after, hreplaces⟩ := Draft.replaces_of_commitBefore hover hcommit hnodup
      (lt_size_of_node? hnode)
    exact hreplaces.run hs hnode
      (fun env value => hsound op result replacement draft env value hnode hlegal happlied) hrun

/-! ## All operators -/

theorem run_convertOps (hs : supply.IgnoresNames) {ids : List ValueId} {outcomes : List Outcome}
    (h : c.convertOps ids g = (.ok outcomes, g')) (hsound : c.SoundOn supply ids g)
    (hnodup : g.schedule.Nodup) (hrun : g.run supply = .ok outs) :
    g'.run supply = .ok outs := by
  induction ids generalizing g outcomes with
  | nil =>
      cases h
      exact hrun
  | cons id rest ih =>
      obtain ⟨hsoundId, hsoundRest⟩ := hsound
      obtain ⟨outcome, g₁, tail, hop, htail, -⟩ := convertOps_cons_ok h
      rw [hop] at hsoundRest
      obtain ⟨hnodup₁, hrun₁⟩ := run_convertOp hs hop hsoundId hnodup hrun
      exact ih htail hsoundRest hnodup₁ hrun₁

end Conversion

/-! ## Pruning -/

theorem Graph.scheduled?_eq_some {entries : List (ValueId × Node)}
    (h : g.scheduled? = some entries) :
    entries.map Prod.fst = g.schedule ∧ ∀ e ∈ entries, g.node? e.1 = some e.2 := by
  rw [scheduled?] at h
  generalize g.schedule = ids at h
  induction ids generalizing entries with
  | nil =>
      cases h
      simp
  | cons id rest ih =>
      rw [List.mapM_cons] at h
      cases hnode : g.node? id with
      | none => simp [hnode] at h
      | some node =>
          rw [hnode, Option.map_some, Option.bind_eq_bind, Option.bind_some] at h
          obtain ⟨tail, htail, hentries⟩ := Option.bind_eq_some_iff.1 h
          cases hentries
          obtain ⟨hfst, hnodes⟩ := ih htail
          refine ⟨by rw [List.map_cons, hfst], fun e he => ?_⟩
          rcases List.mem_cons.1 he with rfl | he
          · exact hnode
          · exact hnodes e he

/-- Taking dead nodes off the schedule keeps the outputs. -/
theorem Graph.run_pruneDead (hs : supply.IgnoresNames) (h : g.pruneDead? = some g')
    (hrun : g.run supply = .ok outs) : g'.run supply = .ok outs := by
  obtain ⟨entries, hentries, rfl⟩ := Option.map_eq_some_iff.1 h
  obtain ⟨hschedule, hnodes⟩ := scheduled?_eq_some hentries
  obtain ⟨env₁, heval, houts⟩ := Except.bind_eq_ok.1 hrun
  rw [Graph.evaluate, ← hschedule] at heval
  have hcarriesEmpty : ∀ x ∈ (liveEntries g.outputs entries).2,
      Env.Carries (fun v => v) .empty .empty x := by
    intro x _ w hx
    exact hx
  obtain ⟨env₁', heval', hcarries⟩ := evalFrom_liveEntries hs hnodes hcarriesEmpty heval
  refine Except.bind_eq_ok.2 ⟨env₁', heval', ?_⟩
  have hmapped := outputs_renamed hcarries houts
  rwa [List.map_id'] at hmapped

/-- A converted program has the outputs that the program had under the given meaning of host
operators, if each lowered operator was replaced soundly. -/
theorem Conversion.run_preserves_meaning {c : Conversion} {report : Report}
    {input : String → Option Tensor} {meaning : HostOp → List Value → Except EvalError Value}
    (h : c.run g = (.ok report, g')) (hsound : c.SoundFor (.ofMeaning input meaning) g)
    (hnodup : g.schedule.Nodup) (hrun : g.run (.ofMeaning input meaning) = .ok outs) :
    g'.run (.ofMeaning input meaning) = .ok outs := by
  have hs := Supply.ignoresNames_ofMeaning input meaning
  cases hids : g.hostOps? with
  | none => simp [Conversion.run, hids] at h
  | some ids =>
      cases hops : c.convertOps ids g with
      | mk converted g₁ =>
          simp only [Conversion.run, hids, hops, prune?] at h
          cases converted with
          | error e => simp at h
          | ok outcomes =>
              cases hprune : g₁.pruneDead? with
              | none => simp [hprune] at h
              | some pruned =>
                  simp only [hprune, Option.map_some, Prod.mk.injEq] at h
                  obtain ⟨-, rfl⟩ := h
                  exact run_pruneDead hs hprune
                    (Conversion.run_convertOps hs hops (hsound ids hids) hnodup hrun)

/-! ## A pair reversed -/

section Reversal

/-- A program that reverses a pair of singles. -/
def reversePair : Graph where
  nodes := #[⟨.input "x", .tensor ⟨.float32, .ofSizes [2]⟩⟩,
    ⟨.host (.flip ⟨⟨0⟩, .const [0]⟩), .tensor ⟨.float32, .ofSizes [2]⟩⟩]
  schedule := [⟨0⟩, ⟨1⟩]
  outputs := [⟨1⟩]

/-- A list of integers as a tensor with one axis. -/
def singles (xs : List Int) : Tensor :=
  .ofArray .float32 (.ofFn [xs.length] fun ix => .ofInt (xs.getD (ix.headD 0) 0))

/-- The pair of one and two, and reversal as the meaning of every operator. -/
def pairSupply : Supply :=
  .ofMeaning (fun _ => some (singles [1, 2])) fun _ values =>
    match values with
    | [.tensor t] => arrayResult (.tensor ⟨.float32, .ofSizes [2]⟩) (t.data.flip [0])
    | _ => .ok .unit

theorem check_singles : (singles [1, 2]).check (.tensor ⟨.float32, .ofSizes [2]⟩) = .ok () := by
  decide +kernel

theorem flip_singles :
    arrayResult (.tensor ⟨.float32, .ofSizes [2]⟩) ((singles [1, 2]).data.flip [0]) =
      .ok (.tensor (singles [2, 1])) := by
  decide +kernel

theorem run_reversePair : reversePair.run pairSupply = .ok [.tensor (singles [2, 1])] := by
  simp [Graph.run, Graph.evaluate, Graph.evalFrom, Graph.evalStep, reversePair, node?, bind,
    Except.bind, pure, Except.pure, evalNode, pairSupply, Supply.ofMeaning, Env.get,
    Env.get?_insert, HostOp.operands, Attr.operands, check_singles, flip_singles]

theorem applied?_reversePair :
    (Conversion.standard .standard).applied? (.flip ⟨⟨0⟩, .const [0]⟩)
      ⟨.float32, .ofSizes [2]⟩ reversePair [.flip] =
      some (⟨2⟩, (Draft.ofGraph reversePair).emit (.flip ⟨0⟩ [0])
        (.tensor ⟨.float32, .ofSizes [2]⟩)) := by
  rfl

theorem soundFor_reversePair :
    (Conversion.standard .standard).SoundFor pairSupply reversePair := by
  intro ids hids
  have hops : reversePair.hostOps? = some [⟨1⟩] := by decide +kernel
  obtain rfl : [⟨1⟩] = ids := Option.some.inj (hops.symm.trans hids)
  refine ⟨?_, trivial⟩
  intro op result replacement draft env value hnode hlegal happlied heval hvalue
  cases hnode
  have hrules : (Conversion.standard .standard).rules.rulesFor .flip = [.flip] := by
    simp [Conversion.standard, RuleSet.standard, RuleSet.rulesFor, Rule.mm, Rule.flip, Rule.matmul,
      Rule.bmm, Rule.convolution, Rule.trilinear]
  cases (hrules ▸ happlied).symm.trans applied?_reversePair
  obtain rfl : Env.empty.insert ⟨0⟩ (.tensor (singles [1, 2])) = env := by
    simpa [scheduledBefore, Graph.evalFrom, Graph.evalStep, reversePair, node?, bind, Except.bind,
      pure, Except.pure, evalNode, pairSupply, Supply.ofMeaning, check_singles] using heval
  obtain rfl : .tensor (singles [2, 1]) = value := by
    simpa [bind, Except.bind, pure, Except.pure, evalNode, pairSupply, Supply.ofMeaning, Env.get,
      Env.get?_insert, HostOp.operands, Attr.operands, flip_singles] using hvalue
  refine ⟨_, evalFrom_cons.2 ⟨_, evalStep_eq_ok.2
    ⟨_, .tensor (singles [2, 1]), node?_create_self .., ?_, rfl⟩, rfl⟩, ?_⟩
  · simp [evalNode, Env.tensor, Env.get, Env.get?_insert, bind, Except.bind, Value.toTensor,
      flip_singles]
  · simp [Env.get?_insert, Draft.ofGraph, Graph.nextId, reversePair, Graph.size]

theorem Conversion.outputs_reversePair :
    ((Conversion.standard .standard).run reversePair).2.run pairSupply =
      .ok [.tensor (singles [2, 1])] := by
  have hrun : (Conversion.standard .standard).run reversePair =
      (.ok ⟨[⟨⟨1⟩, .flip, "flip", ⟨2⟩, 1⟩], [], 0⟩,
        ((Conversion.standard .standard).run reversePair).2) := by
    decide +kernel
  exact Conversion.run_preserves_meaning hrun soundFor_reversePair (by decide) run_reversePair

end Reversal

end TensorLowering
