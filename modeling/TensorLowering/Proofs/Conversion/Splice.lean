import TensorLowering.Proofs.Build.Drafts
import TensorLowering.Proofs.Evaluation.Runs

/-!
# Putting nodes in place of a value

The nodes of a draft are scheduled before a value, everything that read the value reads another one
instead, and the value is taken off the schedule. When the created nodes compute, from the values
available just before the old value, the same value under the new name, the program keeps its
outputs.
-/
namespace TensorLowering

open TensorLowering.Graph

variable {g g' g₁ : Graph} {d : Draft} {supply : Supply} {env : Env} {id replacement : ValueId}
  {value : Value}

/-- The created nodes, run in the given values, compute `value` as `replacement`. -/
def Draft.Computes (d : Draft) (supply : Supply) (env : Env) (replacement : ValueId)
    (value : Value) : Prop :=
  ∃ env', d.graph.evalFrom supply env d.created.toList = .ok env' ∧
    env'.get? replacement = some value

/-- The values scheduled before the first occurrence of a value. -/
def Graph.scheduledBefore (g : Graph) (id : ValueId) : List ValueId :=
  g.schedule.takeWhile (· ≠ id)

namespace Graph

theorem insertAt?_eq_some {ids schedule out : List ValueId}
    (h : insertAt? id ids schedule = some out) :
    ∃ before after, schedule = before ++ id :: after ∧ id ∉ before ∧
      out = before ++ ids ++ id :: after := by
  induction schedule generalizing out with
  | nil => cases h
  | cons s rest ih =>
      rw [insertAt?] at h
      split at h
      next he =>
        obtain rfl := he
        cases h
        exact ⟨[], rest, rfl, by simp, by simp⟩
      next hne =>
        obtain ⟨out', hout', rfl⟩ := Option.map_eq_some_iff.1 h
        obtain ⟨before, after, rfl, hmem, rfl⟩ := ih hout'
        refine ⟨s :: before, after, rfl, ?_, rfl⟩
        simp [hmem, Ne.symm hne]

theorem insertAt?_eq_none {ids schedule : List ValueId} :
    insertAt? id ids schedule = none ↔ id ∉ schedule := by
  induction schedule with
  | nil => simp [insertAt?]
  | cons s rest ih =>
      by_cases h : s = id
      · simp [insertAt?, h]
      · simp [insertAt?, h, ih, Ne.symm h]

theorem takeWhile_ne_append {before after : List ValueId} (h : id ∉ before) :
    (before ++ id :: after).takeWhile (· ≠ id) = before := by
  have hall : ∀ x ∈ before, decide (x ≠ id) = true := by
    intro x hx
    rw [decide_eq_true_iff]
    rintro rfl
    exact h hx
  rw [List.takeWhile_append_of_pos hall]
  simp

theorem filter_ne_self {ids : List ValueId} (h : id ∉ ids) : ids.filter (· ≠ id) = ids := by
  rw [List.filter_eq_self]
  intro x hx
  rw [decide_eq_true_iff]
  rintro rfl
  exact h hx

/-- Erasing a value takes every occurrence. -/
theorem filter_ne_append {before after : List ValueId} (h : id ∉ before) :
    (before ++ id :: after).filter (· ≠ id) = before ++ after.filter (· ≠ id) := by
  rw [List.filter_append, List.filter_cons_of_neg (by simp), filter_ne_self h]

theorem node?_replaceAllUses {source target : ValueId} :
    (g.replaceAllUses source target).node? id = (g.node? id).map fun node =>
      { node with op := node.op.mapOperands fun v => if v = source then target else v } := by
  simp [replaceAllUses, node?]

end Graph

/-- Reads `target` in place of `source`. -/
def redirect (source target v : ValueId) : ValueId := if v = source then target else v

@[simp] theorem redirect_self (source target : ValueId) : redirect source target source = target :=
  if_pos rfl

theorem redirect_of_ne {source target v : ValueId} (h : v ≠ source) :
    redirect source target v = v :=
  if_neg h

namespace Draft

/-- The program `g'` runs the created nodes where `g` computes `id`, and reads `replacement`
wherever `g` reads `id`. -/
structure Replaces (d : Draft) (id replacement : ValueId) (g g' : Graph)
    (before after : List ValueId) : Prop where
  extendsGraph : d.Over g
  nodup : (before ++ id :: after).Nodup
  idSize : id.index < g.size
  schedule : g.schedule = before ++ id :: after
  scheduleNew : g'.schedule = before ++ (d.created.toList ++ after)
  outputsNew : g'.outputs = g.outputs.map (redirect id replacement)
  nodeNew : ∀ x node, d.graph.node? x = some node →
    g'.node? x = some { node with op := node.op.mapOperands (redirect id replacement) }

/-- Committing a draft before a value schedules the created nodes before its first occurrence. -/
theorem commitBefore_eq_ok (hover : d.Over g) (h : d.commitBefore id = .ok g₁) :
    ∃ before after, g.schedule = before ++ id :: after ∧ id ∉ before ∧
      g₁ = { d.graph with schedule := before ++ d.created.toList ++ id :: after } := by
  rw [commitBefore, insertBefore, hover.schedule] at h
  cases hins : insertAt? id d.created.toList g.schedule with
  | none => simp [hins] at h
  | some schedule =>
      rw [hins] at h
      cases h
      obtain ⟨before, after, hsched, hbefore, rfl⟩ := insertAt?_eq_some hins
      exact ⟨before, after, hsched, hbefore, rfl⟩

/-- Committing a draft before a value, redirecting its uses and erasing it replaces it. -/
theorem replaces_of_commitBefore (hover : d.Over g) (hcommit : d.commitBefore id = .ok g₁)
    (hnodup : g.schedule.Nodup) (hid : id.index < g.size) :
    ∃ before after,
      d.Replaces id replacement g ((g₁.replaceAllUses id replacement).erase id) before after := by
  obtain ⟨before, after, hsched, hbefore, rfl⟩ := commitBefore_eq_ok hover hcommit
  have hcreated : id ∉ d.created.toList := fun hmem =>
    Nat.not_lt.2 (hover.mem_created.1 hmem).1 hid
  have hafter : id ∉ after := by
    rw [hsched] at hnodup
    exact (List.nodup_cons.1 (List.nodup_append.1 hnodup).2.1).1
  refine ⟨before, after, hover, hsched ▸ hnodup, hid, hsched, ?_, ?_, ?_⟩
  · have hmem : id ∉ before ++ d.created.toList := by simp [hbefore, hcreated]
    rw [← List.append_assoc]
    refine (filter_ne_append hmem).trans ?_
    rw [filter_ne_self hafter]
  · rw [← hover.outputs]
    rfl
  · intro x node hx
    have hmap : (({ d.graph with schedule := before ++ d.created.toList ++ id :: after } :
        Graph).replaceAllUses id replacement).node? x = _ := node?_replaceAllUses
    rwa [show ({ d.graph with schedule := before ++ d.created.toList ++ id :: after } :
      Graph).node? x = some node from hx] at hmap

namespace Replaces

variable {before after : List ValueId} {env₁ env₂ env₁' env₂' : Env}

theorem id_notMem_before (h : d.Replaces id replacement g g' before after) : id ∉ before :=
  fun hmem => (List.nodup_append.1 h.nodup).2.2 id hmem id (by simp) rfl

theorem id_notMem_after (h : d.Replaces id replacement g g' before after) : id ∉ after :=
  (List.nodup_cons.1 (List.nodup_append.1 h.nodup).2.1).1

theorem disjoint (h : d.Replaces id replacement g g' before after) :
    ∀ x ∈ before, x ∉ after :=
  fun x hx hx' => (List.nodup_append.1 h.nodup).2.2 x hx x (by simp [hx']) rfl

theorem scheduledBefore_eq (h : d.Replaces id replacement g g' before after) :
    g.scheduledBefore id = before := by
  rw [scheduledBefore, h.schedule, takeWhile_ne_append h.id_notMem_before]

/-- The created values are not values of the old program. -/
theorem notMem_created (h : d.Replaces id replacement g g' before after) {x : ValueId}
    (hx : x.index < g.size) : x ∉ d.created.toList :=
  fun hmem => Nat.not_lt.2 (h.extendsGraph.mem_created.1 hmem).1 hx

theorem nodeNew_of_lt (h : d.Replaces id replacement g g' before after) {x : ValueId}
    (hx : x.index < g.size) (node : Node) (hnode : g.node? x = some node) :
    g'.node? x = some { node with op := node.op.mapOperands (redirect id replacement) } :=
  h.nodeNew x node ((h.extendsGraph.node? hx).trans hnode)

/-- A schedule without repetitions stays one. -/
theorem nodup_scheduleNew (h : d.Replaces id replacement g g' before after)
    (hbefore : ∀ x ∈ before, x.index < g.size) (hafter : ∀ x ∈ after, x.index < g.size) :
    g'.schedule.Nodup := by
  rw [h.scheduleNew]
  obtain ⟨hndb, hnda, -⟩ := List.nodup_append.1 h.nodup
  refine List.nodup_append.2 ⟨hndb, List.nodup_append.2
    ⟨h.extendsGraph.nodup_created, (List.nodup_cons.1 hnda).2, ?_⟩, ?_⟩
  · rintro x hx y hy rfl
    exact h.notMem_created (hafter x hy) hx
  · rintro x hx y hy rfl
    rcases List.mem_append.1 hy with hy | hy
    · exact h.notMem_created (hbefore x hx) hy
    · exact h.disjoint x hx hy

/-! ## The three parts of the run -/

theorem evalFrom_before (h : d.Replaces id replacement g g' before after)
    (hs : supply.IgnoresNames) (heval : g.evalFrom supply .empty before = .ok env₁) :
    ∃ env₁', g'.evalFrom supply .empty before = .ok env₁' ∧
      ∀ x, Env.Carries (redirect id replacement) env₁ env₁' x := by
  refine evalFrom_renamed hs (fun x hx => h.nodeNew_of_lt (lt_size_of_evalFrom heval hx)) ?_ ?_ ?_
    heval
  · rintro x hx
    exact redirect_of_ne (by rintro rfl; exact h.id_notMem_before hx)
  · intro x _
    by_cases hx : x = id
    · exact .inr ⟨by simp, hx ▸ h.id_notMem_before⟩
    · exact .inl (redirect_of_ne hx)
  · intro x w hx
    simp at hx

theorem evalFrom_created (h : d.Replaces id replacement g g' before after)
    (hs : supply.IgnoresNames) (hid : env₁.get? id = none)
    (hcarries : ∀ x, Env.Carries (redirect id replacement) env₁ env₁' x)
    (heval : d.graph.evalFrom supply env₁ d.created.toList = .ok env₂) :
    ∃ env₂', g'.evalFrom supply env₁' d.created.toList = .ok env₂' ∧
      ∀ x, Env.Carries (redirect id replacement) env₂ env₂' x := by
  refine evalFrom_renamed hs (fun x _ => h.nodeNew x) ?_ ?_ hcarries heval
  · rintro x hx
    exact redirect_of_ne (by rintro rfl; exact h.notMem_created h.idSize hx)
  · intro x _
    by_cases hx : x = id
    · exact .inr ⟨hx ▸ hid, hx ▸ h.notMem_created h.idSize⟩
    · exact .inl (redirect_of_ne hx)

theorem evalFrom_after (h : d.Replaces id replacement g g' before after)
    (hs : supply.IgnoresNames) (hreplacement : replacement ∉ after)
    (hcarries : ∀ x, Env.Carries (redirect id replacement) env₁ env₁' x)
    (heval : g.evalFrom supply env₁ after = .ok env₂) :
    ∃ env₂', g'.evalFrom supply env₁' after = .ok env₂' ∧
      ∀ x, Env.Carries (redirect id replacement) env₂ env₂' x := by
  refine evalFrom_renamed hs (fun x hx => h.nodeNew_of_lt (lt_size_of_evalFrom heval hx)) ?_ ?_
    hcarries heval
  · rintro x hx
    exact redirect_of_ne (by rintro rfl; exact h.id_notMem_after hx)
  · intro x hx
    by_cases hxid : x = id
    · rw [hxid, redirect_self] at hx
      exact absurd hx hreplacement
    · exact .inl (redirect_of_ne hxid)

/-- Where the created nodes have run and hold the old value as `replacement`, every read that is
left finds what it found. -/
theorem carries_value (h : d.Replaces id replacement g g' before after)
    (hbound : ∀ x w, env₁.get? x = some w → x.index < g.size)
    (hne : replacement ≠ id) (hreplacement : env₂.get? replacement = some value)
    (heval : d.graph.evalFrom supply env₁ d.created.toList = .ok env₂)
    (hcarries : ∀ x, Env.Carries (redirect id replacement) env₂ env₂' x) (x : ValueId) :
    Env.Carries (redirect id replacement) (env₁.insert id value) env₂' x := by
  intro w hx
  rw [Env.get?_insert] at hx
  by_cases hxid : id = x
  · subst hxid
    rw [if_pos rfl] at hx
    cases hx
    have hr := hcarries replacement value hreplacement
    rw [redirect_of_ne hne] at hr
    rwa [redirect_self]
  · rw [if_neg hxid] at hx
    refine hcarries x w ?_
    rw [get?_evalFrom heval (h.notMem_created (hbound x w hx)), hx]

end Replaces

/-- A program in which a value is replaced by created nodes that compute the same keeps its
outputs. -/
theorem Replaces.run {before after : List ValueId}
    (h : d.Replaces id replacement g g' before after) (hs : supply.IgnoresNames) {node : Node}
    (hnode : g.node? id = some node)
    (hsound : ∀ env value, g.evalFrom supply .empty (g.scheduledBefore id) = .ok env →
      evalNode supply env node = .ok value → d.Computes supply env replacement value)
    {outs : List Value} (hrun : g.run supply = .ok outs) :
    g'.schedule.Nodup ∧ g'.run supply = .ok outs := by
  obtain ⟨env₃, heval, houts⟩ := Except.bind_eq_ok.1 hrun
  rw [Graph.evaluate, h.schedule] at heval
  obtain ⟨env₁, heval₁, heval⟩ := evalFrom_append.1 heval
  obtain ⟨env, hstep, heval₃⟩ := evalFrom_cons.1 heval
  obtain ⟨node', value, hnode', hvalue, rfl⟩ := evalStep_eq_ok.1 hstep
  obtain rfl : node' = node := Option.some.inj (hnode'.symm.trans hnode)
  obtain ⟨env₂, heval₂, hreplacement⟩ :=
    hsound env₁ value (h.scheduledBefore_eq ▸ heval₁) hvalue
  have hbefore : ∀ x w, env₁.get? x = some w → x ∈ before := fun x w =>
    mem_of_evalFrom heval₁
  have hidnone : env₁.get? id = none := Option.eq_none_iff_forall_ne_some.2 fun w hw =>
    h.id_notMem_before (hbefore id w hw)
  have hbound : ∀ x w, env₁.get? x = some w → x.index < g.size := fun x w hx =>
    lt_size_of_evalFrom heval₁ (hbefore x w hx)
  -- The replacement is a created value or one computed before, so it is neither the old value nor
  -- computed later.
  have horigin : replacement ∈ d.created.toList ∨ replacement ∈ before := by
    by_cases hmem : replacement ∈ d.created.toList
    · exact .inl hmem
    · rw [get?_evalFrom heval₂ hmem] at hreplacement
      exact .inr (hbefore _ _ hreplacement)
  have hne : replacement ≠ id := by
    rintro rfl
    exact horigin.elim (h.notMem_created h.idSize) h.id_notMem_before
  have hafter : replacement ∉ after := fun hmem =>
    horigin.elim (h.notMem_created (lt_size_of_evalFrom heval₃ hmem))
      fun hb => h.disjoint _ hb hmem
  obtain ⟨env₁', heval₁', hcarries₁⟩ := h.evalFrom_before hs heval₁
  obtain ⟨env₂', heval₂', hcarries₂⟩ := h.evalFrom_created hs hidnone hcarries₁ heval₂
  obtain ⟨env₃', heval₃', hcarries₃⟩ := h.evalFrom_after hs hafter
    (h.carries_value hbound hne hreplacement heval₂ hcarries₂) heval₃
  constructor
  · exact h.nodup_scheduleNew (fun x => lt_size_of_evalFrom heval₁)
      fun x => lt_size_of_evalFrom heval₃
  · refine Except.bind_eq_ok.2 ⟨env₃', ?_, ?_⟩
    · rw [Graph.evaluate, h.scheduleNew]
      exact evalFrom_append.2 ⟨env₁', heval₁', evalFrom_append.2 ⟨env₂', heval₂', heval₃'⟩⟩
    · rw [h.outputsNew]
      exact outputs_renamed (fun x _ => hcarries₃ x) houts

end Draft

end TensorLowering
