import TensorLowering.Graph.Operand
import TensorLowering.Proofs.Build.Facts

/-!
# Constructions that are run

A construction that was followed from a running program is committed to it, and the nodes that it
created run after everything else. The output that is its result has the value that was followed.
-/
namespace TensorLowering

variable {g : Graph} {supply : Supply} {env : Env} {α : Type}

/-- An operand that is not quantized is declared with the type of the tensor and has it when the
program runs. -/
structure Graph.Plain (g : Graph) (env : Env) (v : ValueId) (t : Tensor) : Prop where
  extract : OperandInfo.extract g v = .ok ⟨v, t.type, none⟩
  get : env.get? v = some (.tensor t)

theorem Graph.Plain.holds {v : ValueId} {t : Tensor} (hv : g.Plain env v t)
    (h : g.evaluate supply = .ok env) : (Stage.ofRun h).Holds v t where
  type := by
    have hextract := hv.extract
    obtain ⟨node, -, hextract⟩ := Except.bind_eq_ok.1 hextract
    split at hextract
    · obtain ⟨type, -, hpair⟩ := Except.bind_eq_ok.1 hextract
      cases hpair
    · obtain ⟨type, htype, hpair⟩ := Except.bind_eq_ok.1 hextract
      cases hpair
      exact htype
  get := hv.get

namespace Build

/-- The construction succeeds, and the program with the created nodes computes the tensor. -/
def Computes (b : Build ValueId) (g : Graph) (supply : Supply) (t : Tensor) : Prop :=
  ∃ v d, b.run (.ofGraph g) = (.ok v, d) ∧
    (d.commit.withOutputs [v]).run supply = .ok [.tensor t]

/-- The created nodes run after the program that they were created in, if it schedules nodes of its
own only. -/
theorem evaluate_commit_of_scheduled {b : Build α} {c : Except LowerError α} {d : Draft}
    (hids : ∀ id ∈ g.schedule, id.index < g.size) (hrun : b.run (.ofGraph g) = (c, d)) :
    d.commit.evaluate supply =
      g.evaluate supply >>= fun env => d.graph.evalFrom supply env d.created.toList := by
  have hover : Draft.Over g d := by
    have hover := (Draft.Over.ofGraph g).run b
    rwa [hrun] at hover
  have hbefore : d.graph.evalFrom supply .empty g.schedule = g.evaluate supply :=
    Graph.evalFrom_congr fun id hid => hover.node? (hids id hid)
  have hsplit : d.commit.evaluate supply =
      d.graph.evalFrom supply .empty (g.schedule ++ d.created.toList) := by
    rw [← hover.schedule]
    rfl
  rw [hsplit, Graph.evalFrom, List.foldlM_append]
  exact congrArg (· >>= fun env => d.graph.evalFrom supply env d.created.toList) hbefore

/-- They run in its values. -/
theorem evaluate_commit {b : Build α} {c : Except LowerError α} {d : Draft}
    (h : g.evaluate supply = .ok env) (hrun : b.run (.ofGraph g) = (c, d)) :
    d.commit.evaluate supply = d.graph.evalFrom supply env d.created.toList := by
  rw [evaluate_commit_of_scheduled (fun id hid => Graph.lt_size_of_evalFrom h hid) hrun, h]
  rfl

/-- A verified program that fails goes on to fail. -/
theorem evaluate_commit_of_error {b : Build α} {c : Except LowerError α} {d : Draft} {e : EvalError}
    (hverify : g.verify = .ok ()) (h : g.evaluate supply = .error e)
    (hrun : b.run (.ofGraph g) = (c, d)) : d.commit.evaluate supply = .error e := by
  rw [evaluate_commit_of_scheduled (fun id hid => Graph.lt_size_of_verify hverify hid) hrun, h]
  rfl

/-- What is followed from the values of a program is what the committed program computes, and the
nodes that are followed are those of the draft. -/
theorem Gives.commit_stage {fails : LowerError → Prop} {b : Build α} {post : α → Stage → Prop}
    (h : g.evaluate supply = .ok env) (hb : b.Gives fails (Stage.ofRun h) post) :
    (∃ e d, b.run (.ofGraph g) = (.error e, d) ∧ fails e) ∨
      ∃ a d s, b.run (.ofGraph g) = (.ok a, d) ∧ d.graph = s.graph ∧ post a s ∧
        d.commit.evaluate supply = .ok s.env := by
  rcases hb.run (d := .ofGraph g) rfl with
    herror | ⟨a, d, s, ids, hrun, hgraph, hpost, -, hcreated, heval⟩
  · exact .inl herror
  · have hcreated' : d.created.toList = ids := by simpa [Draft.ofGraph] using hcreated
    refine .inr ⟨a, d, s, hrun, hgraph, hpost, ?_⟩
    rw [evaluate_commit h hrun, hcreated']
    exact heval

theorem Gives.commit {fails : LowerError → Prop} {b : Build α} {post : α → Stage → Prop}
    (h : g.evaluate supply = .ok env) (hb : b.Gives fails (Stage.ofRun h) post) :
    (∃ e d, b.run (.ofGraph g) = (.error e, d) ∧ fails e) ∨
      ∃ a d s, b.run (.ofGraph g) = (.ok a, d) ∧ post a s ∧
        d.commit.evaluate supply = .ok s.env :=
  (hb.commit_stage h).imp_right fun ⟨a, d, s, hrun, _, hpost, heval⟩ =>
    ⟨a, d, s, hrun, hpost, heval⟩

theorem run_withOutputs {v : ValueId} {value : Value} (h : g.evaluate supply = .ok env)
    (hv : env.get? v = some value) : (g.withOutputs [v]).run supply = .ok [value] := by
  have hget : env.get v = .ok value := Env.get_eq_ok.2 hv
  refine Except.bind_eq_ok.2 ⟨env, h, ?_⟩
  change [v].mapM env.get = _
  rw [List.mapM_cons, hget, List.mapM_nil]
  rfl

theorem run_withOutputs_of_error {outputs : List ValueId} {e : EvalError}
    (h : g.evaluate supply = .error e) : (g.withOutputs outputs).run supply = .error e := by
  have heval : (g.withOutputs outputs).evaluate supply = .error e := h
  rw [Graph.run, heval]
  rfl

/-- Nothing is computed where a created node stops the program. -/
theorem not_computes_of_error {b : Build ValueId} {v : ValueId} {d : Draft} {e : EvalError}
    (h : g.evaluate supply = .ok env) (hrun : b.run (.ofGraph g) = (.ok v, d))
    (herror : d.graph.evalFrom supply env d.created.toList = .error e) (t : Tensor) :
    ¬ b.Computes g supply t := by
  rintro ⟨w, d', hrun', hvalue⟩
  cases hrun.symm.trans hrun'
  rw [run_withOutputs_of_error ((evaluate_commit h hrun).trans herror)] at hvalue
  cases hvalue

theorem Gives.computes {b : Build ValueId} {t : Tensor} (h : g.evaluate supply = .ok env)
    (hb : b.Gives (fun _ => False) (Stage.ofRun h) fun v s =>
      s.env.get? v = some (.tensor t)) : b.Computes g supply t := by
  rcases hb.commit h with ⟨e, d, -, hfalse⟩ | ⟨v, d, s, hrun, hget, heval⟩
  · exact hfalse.elim
  · exact ⟨v, d, hrun, run_withOutputs heval hget⟩

/-- What is followed from the values of a program happens whenever the construction succeeds. -/
theorem Gives.of_run {b : Build α} {post : α → Stage → Prop} (h : g.evaluate supply = .ok env)
    (hb : b.Gives (fun _ => True) (Stage.ofRun h) post) {a : α} {d : Draft}
    (hrun : b.run (.ofGraph g) = (.ok a, d)) :
    ∃ s, post a s ∧ d.commit.evaluate supply = .ok s.env := by
  rcases hb.commit h with ⟨e, d', herror, -⟩ | ⟨a', d', s, hrun', hpost, heval⟩
  · rw [hrun] at herror
    cases herror
  · rw [hrun] at hrun'
    cases hrun'
    exact ⟨s, hpost, heval⟩

end Build

end TensorLowering
