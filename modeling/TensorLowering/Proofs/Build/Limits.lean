import TensorLowering.Proofs.Build.Inputs
import TensorLowering.Proofs.Typing.Respects

/-!
# Constructions that may stop

Where sizes are declared open, a program can stop at a node that a construction has created for it.
`Meets` follows a construction within limits: it may fail in some ways, its nodes may stop the
program in some ways, and only some values are considered. Whatever else happens satisfies a
condition in the last stage. Main statement: what is followed is what happens when the program with
the created nodes runs.
-/
namespace TensorLowering

/-- How a construction may fail, how its nodes may stop the program, and which of their values are
considered. -/
structure Limits where
  fails : LowerError → Prop
  stops : EvalError → Prop
  considers : Value → Prop

/-- The construction may fail in some ways, but none of its nodes stops the program, and every value
is considered. -/
def Limits.failing (fails : LowerError → Prop) : Limits := ⟨fails, fun _ => False, fun _ => True⟩

/-- Nothing goes wrong, and every value is considered. -/
def Limits.sound : Limits := .failing fun _ => False

/-- Every value that the program computes, up to where it stops, satisfies a condition. -/
def Graph.EveryValue (g : Graph) (supply : Supply) (p : Value → Prop) : Prop :=
  ∀ ids env, ids <+: g.schedule → g.evalFrom supply .empty ids = .ok env →
    ∀ id value, env.get? id = some value → p value

/-- The values of a finished program are all that it computes. -/
theorem Graph.everyValue_of_evaluate {g : Graph} {supply : Supply} {env : Env} {p : Value → Prop}
    (h : g.evaluate supply = .ok env) (hnodup : g.schedule.Nodup)
    (hp : ∀ id value, env.get? id = some value → p value) : g.EveryValue supply p := by
  rintro ids env₁ ⟨rest, hrest⟩ hids id value hid
  have hsplit : g.evalFrom supply .empty (ids ++ rest) = .ok env := by
    rw [hrest]
    exact h
  obtain ⟨env₂, hids', hafter⟩ := evalFrom_append.1 hsplit
  obtain rfl := Except.ok.inj (hids.symm.trans hids')
  have hmem := mem_of_evalFrom hids hid
  have hnot : id ∉ rest := by
    rw [← hrest] at hnodup
    exact fun h => (List.disjoint_of_nodup_append hnodup) hmem h
  exact hp id value ((get?_evalFrom hafter hnot).trans hid)

theorem Build.everyValue_commit {α : Type} {g : Graph} {supply : Supply} {env : Env} {n : Nat}
    {b : Build α} {result : Except LowerError α} {d : Draft} {p : Value → Prop}
    {values : List Value} (h : g.evaluate supply = .ok env)
    (hrun : b.run (.ofGraph g) = (result, d))
    (heval : d.graph.evalFrom supply env d.created.toList = .ok (env.insertFrom n values))
    (hnodup : d.commit.schedule.Nodup) (henv : ∀ id value, env.get? id = some value → p value)
    (hvalues : ∀ value ∈ values, p value) : d.commit.EveryValue supply p :=
  Graph.everyValue_of_evaluate ((evaluate_commit h hrun).trans heval) hnodup
    (Env.forall_insertFrom henv hvalues)

/-- Where tensors are taken in, what the created nodes compute is all that is computed besides. -/
theorem Build.everyValue_takingAs {α : Type} {types : List TensorType} {ts : List Tensor}
    {env : Env} {n : Nat} {b : Build α} {result : Except LowerError α} {d : Draft}
    {p : Value → Prop} {values : List Value} (htypes : List.Forall₂ Tensor.HasType ts types)
    (h : (Graph.takingAs types).evaluate (.takingIn ts) = .ok env)
    (hrun : b.run (.ofGraph (.takingAs types)) = (result, d))
    (heval : d.graph.evalFrom (.takingIn ts) env d.created.toList =
      .ok (env.insertFrom n values))
    (hnodup : d.commit.schedule.Nodup) (hts : ∀ t ∈ ts, p (.tensor t))
    (hvalues : ∀ value ∈ values, p value) : d.commit.EveryValue (.takingIn ts) p := by
  refine everyValue_commit h hrun heval hnodup (fun id value hid => ?_) hvalues
  obtain ⟨t, ht, rfl⟩ := Graph.get?_takingAs htypes h hid
  exact hts t ht

namespace Build

variable {α β : Type} {l : Limits} {s : Stage} {b : Build α} {post : α → Stage → Prop}

/-- From the stage `s`, the construction fails in one of the allowed ways, or creates nodes of which
one stops the program in an allowed way, or ends with a result and a stage that satisfy `post`. -/
def Meets (l : Limits) : Build α → Stage → (α → Stage → Prop) → Prop
  | done a, s, post => post a s
  | fail e, _, _ => l.fails e
  | inspect next, s, post => (next s.graph).Meets l s post
  | emit op type next, s, post =>
      (∀ e, evalNode s.supply s.env ⟨op, type⟩ = .error e → l.stops e) ∧
        ∀ value, evalNode s.supply s.env ⟨op, type⟩ = .ok value → l.considers value →
          (next s.graph.nextId).Meets l (s.emit op type value) post

theorem Gives.meets {fails : LowerError → Prop} (h : b.Gives fails s post)
    (hfails : ∀ e, fails e → l.fails e) : b.Meets l s post := by
  induction b generalizing s with
  | done a => exact h
  | fail e => exact hfails e h
  | inspect next ih => exact ih s.graph h
  | emit op type next ih =>
      obtain ⟨value, hvalue, hnext⟩ := h
      refine ⟨fun e he => ?_, fun w hw _ => ?_⟩
      · cases hvalue.symm.trans he
      · obtain rfl := Except.ok.inj (hvalue.symm.trans hw)
        exact ih _ hnext

/-- Where no node stops the program, what is met is given. -/
theorem Meets.gives {fails : LowerError → Prop} (h : b.Meets (.failing fails) s post) :
    b.Gives fails s post := by
  induction b generalizing s with
  | done a => exact h
  | fail e => exact h
  | inspect next ih => exact ih s.graph h
  | emit op type next ih =>
      cases hvalue : evalNode s.supply s.env ⟨op, type⟩ with
      | error e => exact (h.1 e hvalue).elim
      | ok value => exact ⟨value, hvalue, ih _ (h.2 value hvalue trivial)⟩

/-- What a construction that does not fail gives is met. -/
theorem Gives.meets_always (h : b.Gives (fun _ => False) s post) : b.Meets l s post :=
  h.meets fun _ => False.elim

namespace Meets

/-- The last stage comes after the first one. -/
theorem strengthen (h : b.Meets l s post) : b.Meets l s fun a s' => s ≤ s' ∧ post a s' := by
  have hlift : ∀ s₀, s₀ ≤ s → b.Meets l s fun a s' => s₀ ≤ s' ∧ post a s' := by
    induction b generalizing s with
    | done a => exact fun s₀ hle => ⟨hle, h⟩
    | fail e => exact fun _ _ => h
    | inspect next ih => exact fun s₀ hle => ih s.graph h s₀ hle
    | emit op type next ih =>
        refine fun s₀ hle => ⟨h.1, fun value hvalue hkeep => ?_⟩
        exact ih _ (h.2 value hvalue hkeep) s₀ (hle.trans (s.le_emit op type value))
  exact hlift s le_rfl

theorem weaken {post' : α → Stage → Prop} (h : b.Meets l s post)
    (himp : ∀ a s', s ≤ s' → post a s' → post' a s') : b.Meets l s post' := by
  have hmono : ∀ {s₁ : Stage} {q q' : α → Stage → Prop}, (∀ a s', q a s' → q' a s') →
      b.Meets l s₁ q → b.Meets l s₁ q' := by
    intro s₁ q q' hq hb
    clear h himp
    induction b generalizing s₁ with
    | done a => exact hq a s₁ hb
    | fail e => exact hb
    | inspect next ih => exact ih s₁.graph hb
    | emit op type next ih =>
        exact ⟨hb.1, fun value hvalue hkeep => ih _ (hb.2 value hvalue hkeep)⟩
  exact hmono (fun a s' hq => himp a s' hq.1 hq.2) h.strengthen

/-- One part after the other. -/
theorem bind {f : α → Build β} {post' : β → Stage → Prop} (h : b.Meets l s post)
    (hf : ∀ a s', s ≤ s' → post a s' → (f a).Meets l s' post') :
    (b >>= f).Meets l s post' := by
  have hseq : ∀ {s₁ : Stage}, b.Meets l s₁ (fun a s' => s ≤ s' ∧ post a s') →
      (b >>= f).Meets l s₁ post' := by
    intro s₁ hb
    clear h
    induction b generalizing s₁ with
    | done a => exact hf a s₁ hb.1 hb.2
    | fail e => exact hb
    | inspect next ih => exact ih s₁.graph hb
    | emit op type next ih =>
        exact ⟨hb.1, fun value hvalue hkeep => ih _ (hb.2 value hvalue hkeep)⟩
  exact hseq h.strengthen

/-- What comes after a part that never ends is not reached. -/
theorem bind_of_never {f : α → Build β} {post' : β → Stage → Prop}
    (h : b.Meets l s fun _ _ => False) : (b >>= f).Meets l s post' :=
  h.bind fun _ _ _ => False.elim

theorem pure {a : α} (h : post a s) : (Pure.pure a : Build α).Meets l s post := h

/-- A loop keeps its invariant. -/
theorem foldlM_range {step : β → Nat → Build β} (inv : Nat → β → Stage → Prop) {n : Nat} {x : β}
    (hstart : inv 0 x s) (hstep : ∀ k < n, ∀ y s', s ≤ s' → inv k y s' →
      (step y k).Meets l s' (inv (k + 1))) :
    ((List.range n).foldlM step x).Meets l s (inv n) := by
  induction n with
  | zero => exact .pure hstart
  | succ n ih =>
      rw [List.range_succ, List.foldlM_append]
      refine bind (ih fun k hk => hstep k (Nat.lt_succ_of_lt hk)) fun y s' hle hy => ?_
      rw [List.foldlM_cons]
      exact bind (hstep n (Nat.lt_succ_self n) y s' hle hy) fun y s' _ hy => .pure hy

/-! ## Looking at the program -/

theorem query {γ : Type} {f : Graph → Except GraphError γ} {c : γ} {next : γ → Build α}
    (hf : f s.graph = .ok c) (h : (next c).Meets l s post) :
    (Build.query f >>= next).Meets l s post := by
  simp only [Build.query, Bind.bind, Build.bind, Meets, hf]
  exact h

/-- A check that may fail. -/
theorem attempt {γ : Type} {x : Except LowerError γ} {next : γ → Build α}
    (hfails : ∀ e, x = .error e → l.fails e) (h : ∀ c, x = .ok c → (next c).Meets l s post) :
    (Build.ofExcept x >>= next).Meets l s post := by
  cases x with
  | error e => exact hfails e rfl
  | ok c => exact h c rfl

/-! ## Nodes -/

theorem create {op : Op} {type : ValueType} {value : Value} {post : ValueId → Stage → Prop}
    (hvalue : evalNode s.supply s.env ⟨op, type⟩ = .ok value)
    (hpost : l.considers value → post s.graph.nextId (s.emit op type value)) :
    (Build.create op type).Meets l s post := by
  refine ⟨fun e he => ?_, fun w hw hkeep => ?_⟩
  · cases hvalue.symm.trans he
  · obtain rfl := Except.ok.inj (hvalue.symm.trans hw)
    exact hpost hkeep

/-- A node at which the program may stop. -/
theorem create_of_stops {op : Op} {type : ValueType} {post : ValueId → Stage → Prop}
    (hstops : ∀ e, evalNode s.supply s.env ⟨op, type⟩ = .error e → l.stops e)
    (hpost : ∀ value, evalNode s.supply s.env ⟨op, type⟩ = .ok value →
      post s.graph.nextId (s.emit op type value)) :
    (Build.create op type).Meets l s post :=
  ⟨hstops, fun value hvalue _ => hpost value hvalue⟩

/-! ## Running what was constructed -/

/-- What is followed from a stage is what happens, unless a value is met that is not considered: the
nodes that the construction adds to a draft stop the program as allowed, or evaluate to the values
of a last stage when the construction does not fail. -/
theorem run (h : b.Meets l s post) {d d' : Draft} (hd : d.graph = s.graph)
    {result : Except LowerError α} (hrun : b.run d = (result, d')) {ids : List ValueId}
    (hids : d.Extends d' ids)
    (hvalues : ∀ before env, before <+: ids → d'.graph.evalFrom s.supply s.env before = .ok env →
      ∀ id ∈ before, ∀ value, env.get? id = some value → l.considers value) :
    (∃ e, d'.graph.evalFrom s.supply s.env ids = .error e ∧ l.stops e) ∨
      (∃ e, result = .error e ∧ l.fails e) ∨
      ∃ a s', result = .ok a ∧ post a s' ∧ s ≤ s' ∧
        d'.graph.evalFrom s.supply s.env ids = .ok s'.env := by
  induction b generalizing s d ids with
  | done a =>
      cases hrun
      obtain rfl : ids = [] := by simpa using hids.created
      exact .inr (.inr ⟨a, s, rfl, h, le_rfl, rfl⟩)
  | fail e =>
      cases hrun
      exact .inr (.inl ⟨e, rfl, h⟩)
  | inspect next ih => exact ih d.graph (hd ▸ h) hd hrun hids hvalues
  | emit op type next ih =>
      have hid : d.graph.nextId = s.graph.nextId := by rw [hd]
      have hnext : (next d.graph.nextId).run (d.emit op type) = (result, d') := hrun
      obtain ⟨rest, rfl, hrest, hnode, -⟩ := hids.of_emit hnext
      cases hvalue : evalNode s.supply s.env ⟨op, type⟩ with
      | error e =>
          refine .inl ⟨e, ?_, h.1 e hvalue⟩
          simp only [Graph.evalFrom, List.foldlM_cons, Graph.evalStep, hnode, hvalue, Bind.bind,
            Except.bind]
      | ok value =>
          have hemit : (s.emit op type value).env = s.env.insert d.graph.nextId value := by
            rw [hid]
            rfl
          have hstep : d'.graph.evalStep s.supply s.env d.graph.nextId =
              .ok (s.emit op type value).env :=
            Graph.evalStep_eq_ok.2 ⟨_, value, hnode, hvalue, hemit⟩
          have hcons : ∀ xs, d'.graph.evalFrom s.supply s.env (d.graph.nextId :: xs) =
              d'.graph.evalFrom s.supply (s.emit op type value).env xs := by
            intro xs
            rw [Graph.evalFrom, List.foldlM_cons, hstep]
            rfl
          have hkeep : l.considers value := hvalues [d.graph.nextId] _ (by simp) (hcons [])
            d.graph.nextId (by simp) value (by rw [hemit, Env.get?_insert, if_pos rfl])
          rw [hid] at hnext
          rw [hcons]
          rcases ih s.graph.nextId (h.2 value hvalue hkeep)
            (by simp [Draft.emit, Stage.emit, hd]) hnext hrest
            (fun before env hbefore heval id hmem => hvalues (d.graph.nextId :: before) env
              ((List.prefix_cons_inj _).2 hbefore) ((hcons before).trans heval) id
                (by simp [hmem])) with hstop | hfail | ⟨a, s', hresult, hpost, hle, heval⟩
          · exact .inl hstop
          · exact .inr (.inl hfail)
          · exact .inr (.inr ⟨a, s', hresult, hpost, (s.le_emit op type value).trans hle, heval⟩)

/-- What is followed from the values of a program is what the program with the created nodes
does. -/
theorem commit {g : Graph} {supply : Supply} {env : Env} {result : Except LowerError α} {d : Draft}
    (h : g.evaluate supply = .ok env) (hb : b.Meets l (Stage.ofRun h) post)
    (hrun : b.run (.ofGraph g) = (result, d)) (hvalues : d.commit.EveryValue supply l.considers) :
    (∃ e, d.commit.evaluate supply = .error e ∧ l.stops e) ∨
      (∃ e, result = .error e ∧ l.fails e) ∨
      ∃ a s, result = .ok a ∧ post a s ∧ d.commit.evaluate supply = .ok s.env := by
  obtain ⟨ids, hids⟩ := b.run_extends (.ofGraph g)
  rw [hrun] at hids
  have hover : Draft.Over g d := by
    have hover := (Draft.Over.ofGraph g).run b
    rwa [hrun] at hover
  have hcreated : d.created.toList = ids := by simpa [Draft.ofGraph] using hids.created
  have hbefore : d.commit.evalFrom supply .empty g.schedule = .ok env := by
    have hnodes : ∀ id ∈ g.schedule, d.commit.node? id = g.node? id := fun id hid =>
      hover.node? (Graph.lt_size_of_evalFrom h hid)
    rw [Graph.evalFrom_congr hnodes]
    exact h
  have hschedule : d.commit.schedule = g.schedule ++ ids := by
    rw [← hcreated, ← hover.schedule]
    rfl
  rw [evaluate_commit h hrun, hcreated]
  rcases hb.run rfl hrun hids fun before env' hprefix heval id hmem value hvalue =>
      hvalues (g.schedule ++ before) env'
        (hschedule ▸ (List.prefix_append_right_inj _).2 hprefix)
        (Graph.evalFrom_append.2 ⟨env, hbefore, heval⟩) id value hvalue with
    hstop | hfail | ⟨a, s, hresult, hpost, -, heval⟩
  · exact .inl hstop
  · exact .inr (.inl hfail)
  · exact .inr (.inr ⟨a, s, hresult, hpost, heval⟩)

/-- A construction that nothing goes wrong with computes what it is followed to. -/
theorem computes {g : Graph} {supply : Supply} {env : Env} {t : Tensor} {b : Build ValueId}
    (h : g.evaluate supply = .ok env) (hb : b.Meets .sound (Stage.ofRun h) fun v s =>
      s.env.get? v = some (.tensor t)) : b.Computes g supply t := by
  rcases hb.commit h (d := (b.run (.ofGraph g)).2) rfl fun _ _ _ _ _ _ _ => trivial with
    ⟨e, -, hstop⟩ | ⟨e, -, hfail⟩ | ⟨v, s, hresult, hget, heval⟩
  · exact hstop.elim
  · exact hfail.elim
  · exact ⟨v, _, Prod.ext hresult rfl, run_withOutputs heval hget⟩

end Meets

theorem Gives.foldlM_range {fails : LowerError → Prop} {step : β → Nat → Build β}
    (inv : Nat → β → Stage → Prop) {n : Nat} {x : β} (hstart : inv 0 x s)
    (hstep : ∀ k < n, ∀ y s', s ≤ s' → inv k y s' → (step y k).Gives fails s' (inv (k + 1))) :
    ((List.range n).foldlM step x).Gives fails s (inv n) :=
  (Meets.foldlM_range (l := .failing fails) inv hstart fun k hk y s' hle hy =>
    (hstep k hk y s' hle hy).meets fun _ => id).gives

end Build

end TensorLowering
