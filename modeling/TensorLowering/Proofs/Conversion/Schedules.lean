import TensorLowering.Proofs.Conversion.Splice
import TensorLowering.Proofs.NdArray.Tensors

/-!
# Schedules in order

A list of values is in order when a program can compute them one after the other: each reads only
values of the list, and none that is computed at its own place or later. Main statements: a program
is verified exactly when its schedule is in order and has its outputs, and it stays so when nodes
are put in place of a value, and when dead nodes are taken off the schedule.
-/
namespace TensorLowering.Graph

variable {g g' : Graph} {ids before after : List ValueId} {x v : ValueId} {node : Node}

/-- The values that a node reads. -/
def reads (g : Graph) (x : ValueId) : List ValueId :=
  ((g.node? x).map fun node => node.op.operands).getD []

theorem reads_of_node (h : g.node? x = some node) : g.reads x = node.op.operands := by
  simp [reads, h]

theorem reads_congr (h : g'.node? x = g.node? x) : g'.reads x = g.reads x := by
  rw [reads, h, reads]

/-- The program can compute the values one after the other. A value may be listed several times, but
not where it has been read. -/
structure Orders (g : Graph) (ids : List ValueId) : Prop where
  node : ∀ x ∈ ids, ∃ node, g.node? x = some node
  closed : ∀ x ∈ ids, ∀ v ∈ g.reads x, v ∈ ids
  irrefl : ∀ x ∈ ids, x ∉ g.reads x
  later : ids.Pairwise fun x y => y ∉ g.reads x

/-! ## What is verified -/

/-- The last position of a value comes before another one when all of its positions do. -/
theorem any_position?_lt {i : Nat} : (g.position? v).any (· < i) = true ↔
    v ∈ g.schedule ∧ ∀ j, g.schedule[j]? = some v → j < i := by
  rw [position?, List.findRev?_eq_find?_reverse]
  cases hfind : g.schedule.zipIdx.reverse.find? fun entry => entry.1 == v with
  | none =>
      rw [List.find?_eq_none] at hfind
      simp only [Option.map_none, Option.any_none, Bool.false_eq_true, false_iff, not_and]
      intro hv
      obtain ⟨j, hj⟩ := List.mem_iff_getElem?.1 hv
      have hentry : (v, j) ∈ g.schedule.zipIdx.reverse :=
        List.mem_reverse.2 (List.mem_zipIdx_iff_getElem?.2 hj)
      exact absurd (beq_self_eq_true v) (hfind _ hentry)
  | some entry =>
      obtain ⟨w, j⟩ := entry
      obtain ⟨hw, later, earlier, hsplit, hlater⟩ := List.find?_eq_some_iff_append.1 hfind
      obtain rfl : w = v := beq_iff_eq.1 hw
      have hentries : g.schedule.zipIdx = earlier.reverse ++ (w, j) :: later.reverse := by
        rw [← List.reverse_reverse g.schedule.zipIdx, hsplit]
        simp
      have hat : ∀ k : Nat, (g.schedule.zipIdx)[k]? = g.schedule[k]?.map (·, k) := by
        intro k
        rw [List.getElem?_zipIdx, Nat.zero_add]
      have hthere := hat earlier.length
      rw [hentries, List.getElem?_append_right (by simp)] at hthere
      simp only [List.length_reverse, Nat.sub_self, List.getElem?_cons_zero] at hthere
      obtain ⟨w', hw', hpair⟩ := Option.map_eq_some_iff.1 hthere.symm
      obtain ⟨rfl, rfl⟩ := Prod.mk.inj hpair
      simp only [Option.map_some, Option.any_some, decide_eq_true_eq]
      refine ⟨fun hlt => ⟨List.mem_of_getElem? hw', fun k hk => ?_⟩, fun h => h.2 _ hw'⟩
      by_contra hge
      have hk' := hat k
      rw [hk, hentries, List.getElem?_append_right (by simp; omega), List.length_reverse,
        List.getElem?_cons, if_neg (by omega)] at hk'
      have hmem := List.mem_reverse.1 (List.mem_of_getElem? hk')
      simpa using hlater _ hmem

theorem verifyEntry_eq_ok {i : Nat} : g.verifyEntry g.lastPositions x i = .ok () ↔
    (∃ node, g.node? x = some node) ∧
      ∀ v ∈ g.reads x, v ∈ g.schedule ∧ ∀ j, g.schedule[j]? = some v → j < i := by
  cases hnode : g.node? x with
  | none => simp [verifyEntry, Graph.node, hnode, bind, Except.bind]
  | some node =>
      have hfind : (node.op.operands.find? fun v => !(g.lastPositions[v]?).any (· < i)) = none ↔
          ∀ v ∈ node.op.operands, v ∈ g.schedule ∧ ∀ j, g.schedule[j]? = some v → j < i := by
        simp only [List.find?_eq_none, getElem?_lastPositions, Bool.not_eq_true,
          Bool.not_eq_false', any_position?_lt]
      rw [reads_of_node hnode, ← hfind]
      simp only [Option.some.injEq, exists_eq', true_and, verifyEntry, Graph.node, hnode, bind,
        Except.bind]
      cases node.op.operands.find? fun v => !(g.lastPositions[v]?).any (· < i) with
      | none => simp [pure, Except.pure]
      | some v => simp [throw, throwThe, MonadExceptOf.throw]

/-- The order in terms of positions. -/
theorem orders_iff : g.Orders ids ↔ ∀ (i : Nat) x, ids[i]? = some x →
    (∃ node, g.node? x = some node) ∧
      ∀ v ∈ g.reads x, v ∈ ids ∧ ∀ j, ids[j]? = some v → j < i := by
  refine ⟨fun h i x hx => ?_, fun h => ⟨fun x hx => ?_, fun x hx v hv => ?_,
    fun x hx hself => ?_, ?_⟩⟩
  · have hmem := List.mem_of_getElem? hx
    refine ⟨h.node x hmem, fun v hv => ⟨h.closed x hmem v hv, fun j hj => ?_⟩⟩
    by_contra hge
    obtain ⟨hi, rfl⟩ := List.getElem?_eq_some_iff.1 hx
    obtain ⟨hj', rfl⟩ := List.getElem?_eq_some_iff.1 hj
    rcases Nat.lt_or_eq_of_le (Nat.le_of_not_lt hge) with hlt | rfl
    · exact List.pairwise_iff_getElem.1 h.later i j hi hj' hlt hv
    · exact h.irrefl _ hmem hv
  · obtain ⟨i, hi⟩ := List.mem_iff_getElem?.1 hx
    exact (h i x hi).1
  · obtain ⟨i, hi⟩ := List.mem_iff_getElem?.1 hx
    exact ((h i x hi).2 v hv).1
  · obtain ⟨i, hi⟩ := List.mem_iff_getElem?.1 hx
    exact Nat.lt_irrefl i (((h i x hi).2 x hself).2 i hi)
  · refine List.pairwise_iff_getElem.2 fun i j hi hj hlt hread => ?_
    have hback := ((h i _ (List.getElem?_eq_getElem hi)).2 _ hread).2 j
      (List.getElem?_eq_getElem hj)
    omega

/-- A program is verified when its schedule is in order and has every output. -/
theorem verify_eq_ok : g.verify = .ok () ↔
    g.Orders g.schedule ∧ ∀ v ∈ g.outputs, v ∈ g.schedule := by
  let check (entry : ValueId × Nat) := g.verifyEntry g.lastPositions entry.1 entry.2
  have hentries : g.schedule.zipIdx.forM check = .ok () ↔ g.Orders g.schedule := by
    rw [orders_iff]
    refine ⟨fun h i x hx => ?_, fun h => NdArray.forM_eq_ok fun entry hentry => ?_⟩
    · exact verifyEntry_eq_ok.1
        (Except.eq_ok_of_forM h (x, i) (List.mem_zipIdx_iff_getElem?.2 hx))
    · exact verifyEntry_eq_ok.2 (h _ _ (List.mem_zipIdx_iff_getElem?.1 hentry))
  have houtputs : (g.outputs.find? fun v => !g.schedule.contains v) = none ↔
      ∀ v ∈ g.outputs, v ∈ g.schedule := by
    simp [List.find?_eq_none]
  rw [← hentries, ← houtputs, verify, Except.bind_eq_ok]
  cases g.outputs.find? fun v => !g.schedule.contains v with
  | none =>
      refine ⟨?_, fun h => ⟨(), h.1, rfl⟩⟩
      rintro ⟨⟨⟩, hforM, -⟩
      exact ⟨hforM, rfl⟩
  | some v =>
      refine ⟨?_, fun h => ?_⟩
      · rintro ⟨-, -, h⟩
        cases h
      · cases h.2

namespace Orders

theorem lt_size (h : g.Orders ids) (hx : x ∈ ids) : x.index < g.size := by
  obtain ⟨node, hnode⟩ := h.node x hx
  exact lt_size_of_node? hnode

/-- The order depends on the nodes of the values only. -/
theorem congr (h : g.Orders ids) (hnodes : ∀ x ∈ ids, g'.node? x = g.node? x) : g'.Orders ids where
  node x hx := (hnodes x hx).symm ▸ h.node x hx
  closed x hx := reads_congr (hnodes x hx) ▸ h.closed x hx
  irrefl x hx := reads_congr (hnodes x hx) ▸ h.irrefl x hx
  later := h.later.imp_of_mem fun {x _} hx _ hxy => reads_congr (hnodes x hx) ▸ hxy

/-- What comes first does not need what comes later. -/
theorem of_append (h : g.Orders (before ++ after)) : g.Orders before := by
  obtain ⟨hbefore, -, hacross⟩ := List.pairwise_append.1 h.later
  refine ⟨fun x hx => h.node x (by simp [hx]), fun x hx v hv => ?_,
    fun x hx => h.irrefl x (by simp [hx]), hbefore⟩
  rcases List.mem_append.1 (h.closed x (by simp [hx]) v hv) with hmem | hmem
  · exact hmem
  · exact absurd hv (hacross x hx v hmem)

/-- A value reads what was computed before it, and is not computed again. -/
theorem mem_before (h : g.Orders (before ++ x :: after)) (hv : v ∈ g.reads x) :
    v ∈ before ∧ v ≠ x ∧ v ∉ after := by
  obtain ⟨-, hafter, -⟩ := List.pairwise_append.1 h.later
  have hne : v ≠ x := by
    rintro rfl
    exact h.irrefl v (by simp) hv
  have hnot : v ∉ after := fun hmem => (List.pairwise_cons.1 hafter).1 v hmem hv
  have hmem := h.closed x (by simp) v hv
  simp only [List.mem_append, List.mem_cons, hne, hnot, or_false] at hmem
  exact ⟨hmem, hne, hnot⟩

/-- So do the values that are not computed again later. -/
theorem filter_notMem (h : g.Orders (before ++ after)) :
    g.Orders (before.filter (· ∉ after)) := by
  obtain ⟨-, -, hacross⟩ := List.pairwise_append.1 h.later
  have hbefore := h.of_append
  refine ⟨fun x hx => hbefore.node x (List.mem_of_mem_filter hx), fun x hx v hv => ?_,
    fun x hx => hbefore.irrefl x (List.mem_of_mem_filter hx),
    hbefore.later.sublist List.filter_sublist⟩
  have hx := List.mem_of_mem_filter hx
  refine List.mem_filter.2 ⟨hbefore.closed x hx v hv, ?_⟩
  exact decide_eq_true fun hmem => hacross x hx v hmem hv

/-- A new node can read what has been computed. -/
theorem create (h : g.Orders ids) {op : Op} (type : ValueType) (hop : ∀ v ∈ op.operands, v ∈ ids) :
    (g.create op type).Orders (ids ++ [g.nextId]) := by
  have hold : (g.create op type).Orders ids :=
    h.congr fun x hx => node?_create_of_lt g op type (h.lt_size hx)
  have hnew : (g.create op type).reads g.nextId = op.operands :=
    reads_of_node (node?_create_self g op type)
  have hfresh : g.nextId ∉ ids := fun hmem => Nat.lt_irrefl _ (h.lt_size hmem)
  refine ⟨fun x hx => ?_, fun x hx v hv => ?_, fun x hx => ?_, ?_⟩
  · rcases List.mem_append.1 hx with hx | hx
    · exact hold.node x hx
    · obtain rfl := List.mem_singleton.1 hx
      exact ⟨_, node?_create_self g op type⟩
  · refine List.mem_append_left _ ?_
    rcases List.mem_append.1 hx with hx | hx
    · exact hold.closed x hx v hv
    · obtain rfl := List.mem_singleton.1 hx
      exact hop v (hnew ▸ hv)
  · rcases List.mem_append.1 hx with hx | hx
    · exact hold.irrefl x hx
    · obtain rfl := List.mem_singleton.1 hx
      exact fun hself => hfresh (hop _ (hnew ▸ hself))
  · refine List.pairwise_append.2
      ⟨hold.later, List.pairwise_singleton _ _, fun x hx y hy hread => ?_⟩
    obtain rfl := List.mem_singleton.1 hy
    exact hfresh (hold.closed x hx _ hread)

end Orders

/-! ## Nodes in place of a value -/

/-- The nodes of a draft are put in place of the first `id`, of which the schedule loses every
occurrence, and another value is read instead. The nodes and the value need only what was computed
before `id` and is not computed again. -/
structure Splices (d : Draft) (id replacement : ValueId) (g g' : Graph)
    (before after : List ValueId) : Prop where
  orders : g.Orders (before ++ id :: after)
  first : id ∉ before
  extendsGraph : d.Over g
  created : d.graph.Orders (before.filter (· ∉ id :: after) ++ d.created.toList)
  seen : replacement ∈ before.filter (· ∉ id :: after) ++ d.created.toList
  nodes : ∀ x, g'.node? x = (d.graph.node? x).map fun node =>
    { node with op := node.op.mapOperands (redirect id replacement) }

namespace Splices

variable {d : Draft} {id replacement : ValueId}

theorem notMem_created (h : Splices d id replacement g g' before after)
    (hx : x ∈ before ++ id :: after) : x ∉ d.created.toList :=
  fun hmem => Nat.not_le_of_lt (h.orders.lt_size hx) (h.extendsGraph.mem_created.1 hmem).1

theorem node?_old (h : Splices d id replacement g g' before after)
    (hx : x ∈ before ++ id :: after) : d.graph.node? x = g.node? x :=
  h.extendsGraph.node? (h.orders.lt_size hx)

/-- What the nodes can read is computed before them, and not again. -/
theorem early_of_seen (h : Splices d id replacement g g' before after)
    (hv : v ∈ before.filter (· ∉ id :: after) ++ d.created.toList) :
    v ∈ before ++ d.created.toList ∧ v ∉ after := by
  rcases List.mem_append.1 hv with hv | hv
  · obtain ⟨hv, hnot⟩ := List.mem_filter.1 hv
    exact ⟨List.mem_append_left _ hv,
      fun hmem => of_decide_eq_true hnot (List.mem_cons_of_mem _ hmem)⟩
  · exact ⟨List.mem_append_right _ hv, fun hmem => h.notMem_created (by simp [hmem]) hv⟩

theorem ne_of_early (h : Splices d id replacement g g' before after)
    (hv : v ∈ before ++ d.created.toList) : v ≠ id := by
  rintro rfl
  rcases List.mem_append.1 hv with hv | hv
  · exact h.first hv
  · exact h.notMem_created (by simp) hv

theorem reads_created (h : Splices d id replacement g g' before after)
    (hx : x ∈ d.created.toList) (hv : v ∈ d.graph.reads x) :
    v ∈ before ++ d.created.toList ∧ v ∉ after :=
  h.early_of_seen (h.created.closed x (by simp [hx]) v hv)

theorem reads_before (h : Splices d id replacement g g' before after) (hx : x ∈ before) :
    d.graph.reads x = g.reads x :=
  reads_congr (h.node?_old (by simp [hx]))

theorem reads_eq (h : Splices d id replacement g g' before after) (x : ValueId) :
    g'.reads x = (d.graph.reads x).map (redirect id replacement) := by
  rw [reads, h.nodes]
  cases hx : d.graph.node? x with
  | none => simp [reads, hx]
  | some node => simp [reads, hx, Op.operands_mapOperands]

/-- Values that come early read what they read in the draft. -/
theorem reads_early (h : Splices d id replacement g g' before after)
    (hx : x ∈ before ++ d.created.toList) :
    g'.reads x = d.graph.reads x ∧ ∀ v ∈ d.graph.reads x, v ∈ before ++ d.created.toList := by
  have hclosed : ∀ v ∈ d.graph.reads x, v ∈ before ++ d.created.toList := by
    intro v hv
    rcases List.mem_append.1 hx with hx | hx
    · rw [h.reads_before hx] at hv
      exact List.mem_append_left _ (h.orders.of_append.closed x hx v hv)
    · exact (h.reads_created hx hv).1
  refine ⟨?_, hclosed⟩
  rw [h.reads_eq, List.map_congr_left fun v hv => redirect_of_ne (h.ne_of_early (hclosed v hv)),
    List.map_id']

/-- Values that come later read what they read before, or the new value. -/
theorem reads_late (h : Splices d id replacement g g' before after) (hx : x ∈ after)
    (hv : v ∈ g'.reads x) : v = replacement ∨ v ∈ g.reads x ∧ v ≠ id := by
  rw [h.reads_eq, reads_congr (h.node?_old (by simp [hx]))] at hv
  obtain ⟨w, hw, rfl⟩ := List.mem_map.1 hv
  by_cases hwid : w = id
  · exact .inl (hwid ▸ redirect_self w replacement)
  · rw [redirect_of_ne hwid]
    exact .inr ⟨hw, hwid⟩

/-- Nothing computes the new value again. -/
theorem notMem_replacement (h : Splices d id replacement g g' before after) :
    replacement ∉ after := (h.early_of_seen h.seen).2

theorem exists_node (h : Splices d id replacement g g' before after)
    (hx : x ∈ before ++ d.created.toList ++ after) : ∃ node, g'.node? x = some node := by
  have hthere : ∃ node, d.graph.node? x = some node := by
    simp only [List.mem_append] at hx
    rcases hx with (hx | hx) | hx
    · exact h.node?_old (x := x) (by simp [hx]) ▸ h.orders.node x (by simp [hx])
    · exact h.created.node x (by simp [hx])
    · exact h.node?_old (x := x) (by simp [hx]) ▸ h.orders.node x (by simp [hx])
  obtain ⟨node, hnode⟩ := hthere
  exact ⟨_, by rw [h.nodes, hnode]; rfl⟩

theorem orders_early (h : Splices d id replacement g g' before after) :
    g'.Orders (before ++ d.created.toList) := by
  have hbefore : g.Orders before := h.orders.of_append
  refine ⟨fun x hx => h.exists_node (List.mem_append_left _ hx), fun x hx v hv => ?_,
    fun x hx hself => ?_, ?_⟩
  · exact (h.reads_early hx).2 v ((h.reads_early hx).1 ▸ hv)
  · rw [(h.reads_early hx).1] at hself
    rcases List.mem_append.1 hx with hx | hx
    · exact hbefore.irrefl x hx (h.reads_before hx ▸ hself)
    · exact h.created.irrefl x (by simp [hx]) hself
  · refine List.pairwise_append.2 ⟨?_, ?_, fun x hx y hy hread => ?_⟩
    · refine hbefore.later.imp_of_mem fun {x _} hx _ hxy => ?_
      rwa [(h.reads_early (by simp [hx])).1, h.reads_before hx]
    · refine (List.pairwise_append.1 h.created.later).2.1.imp_of_mem fun {x _} hx _ hxy => ?_
      rwa [(h.reads_early (by simp [hx])).1]
    · rw [(h.reads_early (by simp [hx])).1, h.reads_before hx] at hread
      exact h.notMem_created (by simp [hbefore.closed x hx y hread]) hy

/-- The new schedule is in order. -/
theorem orders_new (h : Splices d id replacement g g' before after) :
    g'.Orders (before ++ d.created.toList ++ after.filter (· ≠ id)) := by
  have hearly := h.orders_early
  have hmem : ∀ {x}, x ∈ after.filter (· ≠ id) → x ∈ after := List.mem_of_mem_filter
  refine ⟨fun x hx => h.exists_node ?_, fun x hx v hv => ?_, fun x hx hself => ?_, ?_⟩
  · rcases List.mem_append.1 hx with hx | hx
    · exact List.mem_append_left _ hx
    · exact List.mem_append_right _ (hmem hx)
  · rcases List.mem_append.1 hx with hx | hx
    · exact List.mem_append_left _ (hearly.closed x hx v hv)
    rcases h.reads_late (hmem hx) hv with rfl | ⟨hv, hne⟩
    · exact List.mem_append_left _ (h.early_of_seen h.seen).1
    have hread := h.orders.closed x (by simp [hmem hx]) v hv
    simp only [List.mem_append, List.mem_cons, hne, false_or] at hread
    rcases hread with hread | hread
    · simp [hread]
    · simp [hread, hne]
  · rcases List.mem_append.1 hx with hx | hx
    · exact hearly.irrefl x hx hself
    rcases h.reads_late (hmem hx) hself with rfl | ⟨hv, -⟩
    · exact h.notMem_replacement (hmem hx)
    · exact h.orders.irrefl x (by simp [hmem hx]) hv
  · obtain ⟨-, hlater, hacross⟩ := List.pairwise_append.1 h.orders.later
    refine List.pairwise_append.2 ⟨hearly.later, ?_, fun x hx y hy hread => ?_⟩
    · refine ((List.pairwise_cons.1 hlater).2.sublist List.filter_sublist).imp_of_mem
        fun {x y} hx hy hxy hread => ?_
      rcases h.reads_late (hmem hx) hread with rfl | ⟨hread, -⟩
      · exact h.notMem_replacement (hmem hy)
      · exact hxy hread
    · rw [(h.reads_early hx).1] at hread
      rcases List.mem_append.1 hx with hx | hx
      · exact hacross x hx y (by simp [hmem hy]) (h.reads_before hx ▸ hread)
      · exact (h.reads_created hx hread).2 (hmem hy)

end Splices

/-! ## Dead nodes -/

variable {entries : List (ValueId × Node)} (outputs : List ValueId)

theorem liveEntries_cons (id : ValueId) (node : Node) (rest : List (ValueId × Node)) :
    liveEntries outputs ((id, node) :: rest) =
      if (liveEntries outputs rest).2.contains id || !node.op.isPure then
        (id :: (liveEntries outputs rest).1, node.op.operands ++ (liveEntries outputs rest).2)
      else liveEntries outputs rest := rfl

theorem liveEntries_sublist (entries : List (ValueId × Node)) :
    (liveEntries outputs entries).1.Sublist (entries.map Prod.fst) := by
  induction entries with
  | nil => exact .refl _
  | cons entry rest ih =>
      obtain ⟨id, node⟩ := entry
      rw [liveEntries_cons]
      split
      · exact ih.cons_cons id
      · exact ih.cons id

/-- What is read by outputs and live nodes. -/
theorem mem_liveEntries_used (hnodes : ∀ e ∈ entries, g.node? e.1 = some e.2) :
    (∀ v ∈ outputs, v ∈ (liveEntries outputs entries).2) ∧
      ∀ x ∈ (liveEntries outputs entries).1, ∀ v ∈ g.reads x,
        v ∈ (liveEntries outputs entries).2 := by
  induction entries with
  | nil => exact ⟨fun v hv => hv, by simp [liveEntries]⟩
  | cons entry rest ih =>
      obtain ⟨id, node⟩ := entry
      obtain ⟨houtputs, hreads⟩ := ih fun e he => hnodes e (by simp [he])
      rw [liveEntries_cons]
      split
      · refine ⟨fun v hv => by simp [houtputs v hv], fun x hx v hv => ?_⟩
        rcases List.mem_cons.1 hx with rfl | hx
        · rw [reads_of_node (hnodes _ List.mem_cons_self)] at hv
          exact List.mem_append_left _ hv
        · exact List.mem_append_right _ (hreads x hx v hv)
      · exact ⟨houtputs, hreads⟩

/-- What is read stays, because no node reads its own value or one that comes later. -/
theorem mem_liveEntries (hself : ∀ e ∈ entries, e.1 ∉ e.2.op.operands)
    (hlater : entries.Pairwise fun e e' => e'.1 ∉ e.2.op.operands) :
    ∀ v ∈ entries.map Prod.fst, v ∈ (liveEntries outputs entries).2 →
      v ∈ (liveEntries outputs entries).1 := by
  induction entries with
  | nil => simp
  | cons entry rest ih =>
      obtain ⟨id, node⟩ := entry
      obtain ⟨hlater, hrest⟩ := List.pairwise_cons.1 hlater
      have ih := ih (fun e he => hself e (by simp [he])) hrest
      have hself := hself _ List.mem_cons_self
      intro v hv hused
      rw [liveEntries_cons] at hused ⊢
      rcases List.mem_cons.1 hv with rfl | hv
      · -- its own operands do not make a node live
        have hthere : v ∈ (liveEntries outputs rest).2 := by
          split at hused
          · exact (List.mem_append.1 hused).resolve_left hself
          · exact hused
        rw [List.contains_iff_mem.2 hthere, Bool.true_or, if_pos rfl]
        exact List.mem_cons_self
      · obtain ⟨entry, hentry, rfl⟩ := List.mem_map.1 hv
        split at hused
        next hlive =>
          rw [if_pos hlive]
          exact List.mem_cons_of_mem _
            (ih _ hv ((List.mem_append.1 hused).resolve_left (hlater entry hentry)))
        next hdead =>
          rw [if_neg hdead]
          exact ih _ hv hused

/-- A schedule stays in order when dead nodes are taken off, and keeps the outputs. -/
theorem Orders.liveEntries (h : g.Orders (entries.map Prod.fst))
    (hnodes : ∀ e ∈ entries, g.node? e.1 = some e.2) :
    g.Orders (Graph.liveEntries outputs entries).1 ∧
      ∀ v ∈ outputs, v ∈ entries.map Prod.fst → v ∈ (Graph.liveEntries outputs entries).1 := by
  obtain ⟨houtputs, hreads⟩ := mem_liveEntries_used outputs hnodes
  have hlive : ∀ v ∈ entries.map Prod.fst, v ∈ (Graph.liveEntries outputs entries).2 →
      v ∈ (Graph.liveEntries outputs entries).1 := mem_liveEntries outputs ?_ ?_
  · have hsublist := liveEntries_sublist outputs entries
    refine ⟨⟨fun x hx => h.node x (hsublist.subset hx), fun x hx v hv => ?_,
      fun x hx => h.irrefl x (hsublist.subset hx), h.later.sublist hsublist⟩, fun v hv hmem => ?_⟩
    · exact hlive v (h.closed x (hsublist.subset hx) v hv) (hreads x hx v hv)
    · exact hlive v hmem (houtputs v hv)
  · intro e he
    rw [← reads_of_node (hnodes e he)]
    exact h.irrefl e.1 (List.mem_map_of_mem he)
  · refine (List.pairwise_map.1 h.later).imp_of_mem fun {e _} he _ hlater => ?_
    rwa [← reads_of_node (hnodes e he)]

end TensorLowering.Graph
