import TensorLowering.Graph.Schedule
import TensorLowering.Proofs.Evaluation.Operands

/-!
# Runs over a schedule

A run evaluates scheduled values one after the other. It leaves every other value as it was, it
looks only at the nodes that it evaluates, and a run over renamed operands computes the same values
under the new names. A run over the live entries of a schedule computes what the outputs read.
-/
namespace TensorLowering

theorem Except.bind_eq_ok {ε α β : Type} {x : Except ε α} {f : α → Except ε β} {b : β} :
    x >>= f = .ok b ↔ ∃ a, x = .ok a ∧ f a = .ok b := by
  cases x with
  | error e =>
      constructor
      · nofun
      · rintro ⟨a, ⟨⟩, -⟩
  | ok a =>
      constructor
      · exact fun h => ⟨a, rfl, h⟩
      · rintro ⟨_, ⟨⟩, h⟩
        exact h

/-- Checks that succeed one after the other all succeed. -/
theorem Except.eq_ok_of_forM {ε α : Type} {f : α → Except ε Unit} {xs : List α}
    (h : xs.forM f = .ok ()) : ∀ x ∈ xs, f x = .ok () := by
  induction xs with
  | nil => nofun
  | cons x xs ih =>
      obtain ⟨⟨⟩, hx, hxs⟩ := Except.bind_eq_ok.1 (h : (f x >>= fun _ => xs.forM f) = .ok ())
      exact List.forall_mem_cons.2 ⟨hx, ih hxs⟩

theorem Env.get_eq_ok {env : Env} {id : ValueId} {value : Value} :
    env.get id = .ok value ↔ env.get? id = some value := by
  cases h : env.get? id <;> simp [Env.get, h]

namespace Env

/-- The environment with values inserted under the numbers from `n` on. -/
def insertFrom (env : Env) (n : Nat) : List Value → Env
  | [] => env
  | value :: values => (env.insert ⟨n⟩ value).insertFrom (n + 1) values

theorem forall_insertFrom {env : Env} {n : Nat} {values : List Value} {p : Value → Prop}
    (henv : ∀ id value, env.get? id = some value → p value) (h : ∀ value ∈ values, p value) :
    ∀ id value, (env.insertFrom n values).get? id = some value → p value := by
  induction values generalizing env n with
  | nil => exact henv
  | cons first values ih =>
      rw [List.forall_mem_cons] at h
      refine ih (fun id value hid => ?_) h.2
      rw [get?_insert] at hid
      split at hid
      next =>
        cases hid
        exact h.1
      next => exact henv id value hid

end Env

theorem Op.mapOperands_eq_self {f : ValueId → ValueId} {op : Op}
    (h : ∀ v ∈ op.operands, f v = v) : op.mapOperands f = op := by
  have hlist : ∀ vs : List ValueId, vs.map f = vs ↔ ∀ v ∈ vs, f v = v := by
    intro vs
    induction vs with
    | nil => simp
    | cons v vs ih => simp [ih]
  cases op with
  | input | constant => rfl
  | host op => exact congrArg Op.host (HostOp.mapOperands_eq_self h)
  | guard g =>
      obtain ⟨cond, message⟩ := g
      cases cond <;>
        simpa [mapOperands, operands, GuardCond.mapOperands, GuardCond.operands] using h
  | reduce spec lhs rhs zeroPoints init =>
      cases zeroPoints <;> simpa [mapOperands, operands, Prod.ext_iff, and_assoc] using h
  | _ => simpa [mapOperands, operands, hlist, or_imp, forall_and] using h

@[simp] theorem Op.mapOperands_id (op : Op) : op.mapOperands (fun v => v) = op :=
  mapOperands_eq_self fun _ _ => rfl

theorem Op.mapOperands_mapOperands (f g : ValueId → ValueId) (op : Op) :
    (op.mapOperands f).mapOperands g = op.mapOperands (g ∘ f) := by
  cases op with
  | guard guard =>
      obtain ⟨cond, message⟩ := guard
      cases cond <;> rfl
  | host op => exact congrArg Op.host (op.mapOperands_mapOperands f g)
  | reduce spec lhs rhs zeroPoints init => cases zeroPoints <;> rfl
  | _ => simp [mapOperands]

namespace Graph

variable {g g' : Graph} {supply : Supply} {env env' env₁ : Env} {id : ValueId} {ids : List ValueId}

theorem typeOf_eq_ok {type : ValueType} :
    g.typeOf id = .ok type ↔ ∃ op, g.node? id = some ⟨op, type⟩ := by
  cases h : g.node? id with
  | none => simp [typeOf, node, h, Except.map]
  | some n =>
      obtain ⟨op, type'⟩ := n
      simp [typeOf, node, h, Except.map]

theorem tensorType_eq_ok {t : TensorType} :
    g.tensorType id = .ok t ↔ ∃ op, g.node? id = some ⟨op, .tensor t⟩ := by
  cases h : g.node? id with
  | none => simp [tensorType, typeOf, node, h, Except.map, Except.bind_eq_ok]
  | some n =>
      obtain ⟨op, type⟩ := n
      cases type <;>
        simp [tensorType, typeOf, node, h, Except.map, Except.bind_eq_ok, ValueType.tensor?, pure,
          Except.pure, throw, throwThe, MonadExceptOf.throw]

/-! ## One step -/

/-- The nodes that follow some first ones. -/
theorem node?_append {nodes : Array Node} {created : List Node} {b c : List ValueId} {n : Nat}
    (h : nodes.size = n) (i : Nat) :
    (⟨nodes ++ created, b, c⟩ : Graph).node? ⟨i + n⟩ = created[i]? := by
  subst h
  rw [node?, ← Array.getElem?_toList, Array.toList_appendList,
    List.getElem?_append_right (by simp)]
  simp

theorem evalStep_eq_ok : g.evalStep supply env id = .ok env' ↔
    ∃ node value, g.node? id = some node ∧ evalNode supply env node = .ok value ∧
      env' = env.insert id value := by
  cases h : g.node? id with
  | none => simp [evalStep, h, throw, throwThe, MonadExceptOf.throw]
  | some node =>
      simp only [evalStep, h, Except.bind_eq_ok]
      constructor
      · rintro ⟨value, hvalue, ⟨⟩⟩
        exact ⟨node, value, rfl, hvalue, rfl⟩
      · rintro ⟨_, value, ⟨⟩, hvalue, rfl⟩
        exact ⟨value, hvalue, rfl⟩

theorem evalFrom_cons : g.evalFrom supply env (id :: ids) = .ok env' ↔
    ∃ env₁, g.evalStep supply env id = .ok env₁ ∧ g.evalFrom supply env₁ ids = .ok env' := by
  rw [evalFrom, List.foldlM_cons, Except.bind_eq_ok]
  rfl

theorem evalFrom_append {xs ys : List ValueId} : g.evalFrom supply env (xs ++ ys) = .ok env' ↔
    ∃ env₁, g.evalFrom supply env xs = .ok env₁ ∧ g.evalFrom supply env₁ ys = .ok env' := by
  rw [evalFrom, List.foldlM_append, Except.bind_eq_ok]
  rfl

/-! ## What a run reads and writes -/

/-- A run leaves the values that it does not compute as they were. -/
theorem get?_evalFrom (h : g.evalFrom supply env ids = .ok env') (hid : id ∉ ids) :
    env'.get? id = env.get? id := by
  induction ids generalizing env with
  | nil =>
      cases h
      rfl
  | cons first ids ih =>
      obtain ⟨env₁, hstep, hrest⟩ := evalFrom_cons.1 h
      obtain ⟨node, value, -, -, rfl⟩ := evalStep_eq_ok.1 hstep
      rw [ih hrest (fun hmem => hid (by simp [hmem])), Env.get?_insert,
        if_neg fun he => hid (by simp [he])]

/-- A run computes every scheduled value. -/
theorem exists_get?_of_evalFrom (h : g.evalFrom supply env ids = .ok env') (hid : id ∈ ids) :
    ∃ value, env'.get? id = some value := by
  induction ids generalizing env with
  | nil => cases hid
  | cons first ids ih =>
      obtain ⟨env₁, hstep, hrest⟩ := evalFrom_cons.1 h
      by_cases hmem : id ∈ ids
      · exact ih hrest hmem
      · obtain rfl : id = first := (List.mem_cons.1 hid).resolve_right hmem
        obtain ⟨node, value, -, -, rfl⟩ := evalStep_eq_ok.1 hstep
        exact ⟨value, by rw [get?_evalFrom hrest hmem, Env.get?_insert, if_pos rfl]⟩

theorem mem_of_evalFrom {value : Value} (h : g.evalFrom supply .empty ids = .ok env)
    (hid : env.get? id = some value) : id ∈ ids := by
  by_cases hmem : id ∈ ids
  · exact hmem
  · rw [get?_evalFrom h hmem, Env.get?_empty] at hid
    cases hid

/-- Every value that a run computes has a node. -/
theorem lt_size_of_evalFrom (h : g.evalFrom supply env ids = .ok env') (hid : id ∈ ids) :
    id.index < g.size := by
  induction ids generalizing env with
  | nil => cases hid
  | cons first ids ih =>
      obtain ⟨env₁, hstep, hrest⟩ := evalFrom_cons.1 h
      rcases List.mem_cons.1 hid with rfl | hmem
      · obtain ⟨node, value, hnode, -, -⟩ := evalStep_eq_ok.1 hstep
        exact (Array.getElem?_eq_some_iff.1 hnode).1
      · exact ih hrest hmem

/-- So has every value that a verified program schedules. -/
theorem lt_size_of_verify (h : g.verify = .ok ()) (hid : id ∈ g.schedule) :
    id.index < g.size := by
  obtain ⟨⟨⟩, hentries, -⟩ := Except.bind_eq_ok.1 h
  obtain ⟨i, hi⟩ := List.mem_iff_getElem?.1 hid
  have hentry := Except.eq_ok_of_forM hentries (id, i) (List.mem_zipIdx_iff_getElem?.2 hi)
  obtain ⟨node, hnode, -⟩ := Except.bind_eq_ok.1 hentry
  unfold Graph.node at hnode
  split at hnode
  next hsome => exact (Array.getElem?_eq_some_iff.1 hsome).1
  next => cases hnode

/-- A program binds only values that have a node. -/
theorem lt_size_of_evaluate (h : g.evaluate supply = .ok env) {value : Value}
    (hid : env.get? id = some value) : id.index < g.size :=
  lt_size_of_evalFrom h (mem_of_evalFrom h hid)

/-- A run looks only at the nodes that it evaluates. -/
theorem evalFrom_congr (h : ∀ id ∈ ids, g'.node? id = g.node? id) :
    g'.evalFrom supply env ids = g.evalFrom supply env ids := by
  induction ids generalizing env with
  | nil => rfl
  | cons first ids ih =>
      have hstep : g'.evalStep supply env first = g.evalStep supply env first := by
        simp only [evalStep, h first (by simp)]
      simp only [evalFrom, List.foldlM_cons, hstep]
      exact congrArg _ (funext fun env => ih fun id hid => h id (by simp [hid]))

/-! ## Renamed operands -/

/-- A value computed on both sides is carried, and so is every other value unless the new name
hides it. -/
theorem carries_insert {f : ValueId → ValueId} {value : Value} {x : ValueId}
    (h : Env.Carries f env env' x) (hid : f id = id)
    (hx : f x = id → x = id ∨ env.get? x = none) :
    Env.Carries f (env.insert id value) (env'.insert id value) x := by
  intro w hw
  rw [Env.get?_insert] at hw ⊢
  by_cases hxid : id = x
  · subst hxid
    rw [if_pos rfl] at hw
    rw [if_pos hid.symm, hw]
  · rw [if_neg hxid] at hw
    rw [if_neg]
    · exact h w hw
    · intro hfx
      rcases hx hfx.symm with hsame | hnone
      · exact hxid hsame.symm
      · rw [hnone] at hw
        cases hw

/-- Under new names, a run computes the same values. A new name may be that of a computed value
only if the old name is the same or is not bound at all. -/
theorem evalFrom_renamed (hs : supply.IgnoresNames) {f : ValueId → ValueId}
    (hnode : ∀ id ∈ ids, ∀ node, g.node? id = some node →
      g'.node? id = some { node with op := node.op.mapOperands f })
    (hself : ∀ id ∈ ids, f id = id)
    (hback : ∀ x, f x ∈ ids → f x = x ∨ env.get? x = none ∧ x ∉ ids)
    (henv : ∀ x, Env.Carries f env env' x) (h : g.evalFrom supply env ids = .ok env₁) :
    ∃ env₁', g'.evalFrom supply env' ids = .ok env₁' ∧ ∀ x, Env.Carries f env₁ env₁' x := by
  induction ids generalizing env env' with
  | nil =>
      cases h
      exact ⟨env', rfl, henv⟩
  | cons id ids ih =>
      obtain ⟨env₂, hstep, hrest⟩ := evalFrom_cons.1 h
      obtain ⟨node, value, hn, hvalue, rfl⟩ := evalStep_eq_ok.1 hstep
      have hvalue' := follows_evalNode hs (fun x _ => henv x) value hvalue
      have hstep' : g'.evalStep supply env' id = .ok (env'.insert id value) :=
        evalStep_eq_ok.2 ⟨_, value, hnode id (by simp) node hn, hvalue', rfl⟩
      have hcarries : ∀ x, Env.Carries f (env.insert id value) (env'.insert id value) x := by
        refine fun x => carries_insert (henv x) (hself id (by simp)) fun hfx => ?_
        rcases hback x (by simp [hfx]) with hsame | ⟨hnone, -⟩
        · exact .inl (hsame.symm.trans hfx)
        · exact .inr hnone
      obtain ⟨env₁', hrun, hcarries'⟩ := ih (fun i hi => hnode i (by simp [hi]))
        (fun i hi => hself i (by simp [hi]))
        (fun x hx => by
          rcases hback x (by simp [hx]) with hsame | ⟨hnone, hmem⟩
          · exact .inl hsame
          · have hne : id ≠ x := fun he => hmem (by simp [he])
            exact .inr ⟨by rw [Env.get?_insert, if_neg hne, hnone], fun hi => hmem (by simp [hi])⟩)
        hcarries hrest
      exact ⟨env₁', evalFrom_cons.2 ⟨_, hstep', hrun⟩, hcarries'⟩

/-- Outputs that are read under new names have the same values. -/
theorem outputs_renamed {f : ValueId → ValueId} (henv : ∀ x ∈ ids, Env.Carries f env env' x)
    {values : List Value} (h : ids.mapM env.get = .ok values) :
    (ids.map f).mapM env'.get = .ok values :=
  Follows.mapM (fun x hx => (henv x hx).get) values h

/-! ## Live entries -/

/-- The live entries of a schedule compute all that the outputs read. -/
theorem evalFrom_liveEntries (hs : supply.IgnoresNames) {outputs : List ValueId}
    {entries : List (ValueId × Node)} (hnodes : ∀ e ∈ entries, g.node? e.1 = some e.2)
    (henv : ∀ x ∈ (liveEntries outputs entries).2, Env.Carries (fun v => v) env env' x)
    (h : g.evalFrom supply env (entries.map Prod.fst) = .ok env₁) :
    ∃ env₁', g.evalFrom supply env' (liveEntries outputs entries).1 = .ok env₁' ∧
      ∀ x ∈ outputs, Env.Carries (fun v => v) env₁ env₁' x := by
  induction entries generalizing env env' with
  | nil =>
      cases h
      exact ⟨env', rfl, henv⟩
  | cons entry rest ih =>
      obtain ⟨id, node⟩ := entry
      obtain ⟨env₂, hstep, hrest⟩ := evalFrom_cons.1 h
      obtain ⟨node', value, hn, hvalue, rfl⟩ := evalStep_eq_ok.1 hstep
      obtain rfl : node' = node := Option.some.inj (hn.symm.trans (hnodes _ (by simp)))
      have hnodes' : ∀ e ∈ rest, g.node? e.1 = some e.2 := fun e he => hnodes e (by simp [he])
      by_cases hlive : ((liveEntries outputs rest).2.contains id || !node'.op.isPure) = true
      · simp only [liveEntries, hlive, ↓reduceIte] at henv ⊢
        have hvalue' : evalNode supply env' node' = .ok value := by
          have hfollows : Follows (evalNode supply env ⟨node'.op, node'.type⟩)
              (evalNode supply env' ⟨node'.op.mapOperands fun v => v, node'.type⟩) :=
            follows_evalNode hs fun x hx => henv x (List.mem_append_left _ hx)
          rw [Op.mapOperands_id] at hfollows
          exact hfollows value hvalue
        obtain ⟨env₁', hrun, hcarries⟩ := ih hnodes'
          (fun x hx => carries_insert (henv x (List.mem_append_right _ hx)) rfl .inl) hrest
        exact ⟨env₁', evalFrom_cons.2 ⟨_, evalStep_eq_ok.2 ⟨_, _, hn, hvalue', rfl⟩, hrun⟩,
          hcarries⟩
      · simp only [liveEntries, hlive] at henv ⊢
        -- Nothing that is left reads the value of a dead entry.
        have hdead : ∀ x ∈ (liveEntries outputs rest).2, id ≠ x := by
          rintro x hx rfl
          simp [hx] at hlive
        refine ih hnodes' (fun x hx w hw => ?_) hrest
        rw [Env.get?_insert, if_neg (hdead x hx)] at hw
        exact henv x hx w hw

end Graph

end TensorLowering
