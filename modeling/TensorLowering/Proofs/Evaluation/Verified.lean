import Mathlib.Data.List.Induction
import TensorLowering.Proofs.Conversion.Schedules

/-!
# Runs of verified programs

What a node reads are its operands: its evaluation can stop at a value that is not bound only if
that value is one of them. A verified program has computed the operands of a node when it comes to
the node.

A program sets up one equation for each scheduled value: it is what its node gives in the values of
its operands. A run in order solves the equations, and whenever they have a solution every run in
order computes it.

Main statements: a verified program finds every node that it schedules and every value that it
reads, and a program is verified that has been built by adding nodes that read values returned
before. Two verified programs with the same nodes and outputs, whose schedules list the same values,
have the same outputs, and one of them can be run exactly when the other one can.
-/
namespace TensorLowering

/-! ## Where a computation stops -/

/-- The error does not say that a node is missing, and a value that it says is not bound is one of
`ids` and has no value. -/
def EvalError.Within (env : Env) (ids : List ValueId) : EvalError → Prop
  | missingNode _ => False
  | unbound v => v ∈ ids ∧ env.get? v = none
  | _ => True

/-- A computation that looks for no values but `ids`. -/
def LooksFor {α : Type} (env : Env) (ids : List ValueId) (x : Except EvalError α) : Prop :=
  ∀ e, x = .error e → e.Within env ids

namespace LooksFor

variable {α β : Type} {env : Env} {ids : List ValueId} {id : ValueId}

theorem ok (a : α) : LooksFor env ids (.ok a) := nofun

theorem error {e : EvalError} (h : e.Within env ids) :
    LooksFor env ids (.error e : Except EvalError α) := by
  rintro _ ⟨⟩
  exact h

theorem bind {x : Except EvalError α} {f : α → Except EvalError β} (h : LooksFor env ids x)
    (hf : ∀ a, LooksFor env ids (f a)) : LooksFor env ids (x >>= f) := by
  cases x with
  | error e => exact error (h e rfl)
  | ok a => exact hf a

theorem mapM {γ : Type} {xs : List γ} {f : γ → Except EvalError β}
    (h : ∀ x ∈ xs, LooksFor env ids (f x)) : LooksFor env ids (xs.mapM f) := by
  induction xs with
  | nil => exact ok _
  | cons x xs ih =>
      rw [List.mapM_cons]
      exact (h x (by simp)).bind fun _ => (ih fun y hy => h y (by simp [hy])).bind fun _ => ok _

theorem mapError {ε : Type} (f : ε → EvalError) (x : Except ε α)
    (h : ∀ e, (f e).Within env ids) : LooksFor env ids (x.mapError f) := by
  cases x with
  | error e => exact error (h e)
  | ok a => exact ok a

/-! ### Reading the environment -/

theorem get (h : id ∈ ids) : LooksFor env ids (env.get id) := by
  unfold Env.get
  cases hget : env.get? id with
  | none => exact error ⟨h, hget⟩
  | some value => exact ok value

theorem index (h : id ∈ ids) : LooksFor env ids (env.index id) := by
  refine (get h).bind fun value => ?_
  cases value with
  | index n => exact ok n
  | scalar | tensor | unit => exact error trivial

theorem number (h : id ∈ ids) : LooksFor env ids (env.number id) := by
  refine (get h).bind fun value => ?_
  cases value with
  | index | scalar => exact ok _
  | tensor | unit => exact error trivial

theorem tensor (h : id ∈ ids) : LooksFor env ids (env.tensor id) := by
  refine (get h).bind fun value => ?_
  cases value with
  | tensor t => exact ok t
  | index | scalar | unit => exact error trivial

theorem sizes {vs : List ValueId} (h : ∀ v ∈ vs, v ∈ ids) : LooksFor env ids (env.sizes vs) := by
  refine mapM fun v hv => (index (h v hv)).bind fun n => ?_
  split
  · exact error trivial
  · exact ok _

/-! ### Results -/

theorem check (t : Tensor) (type : ValueType) : LooksFor env ids (t.check type) := by
  unfold Tensor.check
  split
  · exact error trivial
  · split
    · exact error trivial
    · split
      · exact ok _
      · exact error trivial

theorem tensorResult (type : ValueType) (data : NdArray Numeric.Binary64) :
    LooksFor env ids (tensorResult type data) := by
  unfold TensorLowering.tensorResult
  split
  · exact ok _
  · exact error trivial

theorem arrayResult (type : ValueType) (data : Except ArrayError (NdArray Numeric.Binary64)) :
    LooksFor env ids (arrayResult type data) :=
  (mapError .array data fun _ => trivial).bind fun a => tensorResult type a

end LooksFor

/-! ## What a node looks for -/

section Nodes

variable {env : Env} {ids : List ValueId}

theorem GuardCond.looksFor_holds {c : GuardCond} (h : ∀ v ∈ c.operands, v ∈ ids) :
    LooksFor env ids (c.holds env) := by
  cases c with
  | equal a b =>
      exact (LooksFor.index (h a (by simp [operands]))).bind fun _ =>
        (LooksFor.index (h b (by simp [operands]))).bind fun _ => .ok _
  | divisible value divisor =>
      refine (LooksFor.index (h divisor (by simp [operands]))).bind fun d => ?_
      split
      · exact .ok _
      · refine (LooksFor.index (h value (by simp [operands]))).bind fun n => ?_
        split
        · exact .error trivial
        · exact .ok _
  | broadcastable size target =>
      refine (LooksFor.index (h size (by simp [operands]))).bind fun m => ?_
      split
      · exact .ok _
      · exact (LooksFor.index (h target (by simp [operands]))).bind fun _ => .ok _

theorem looksFor_zeroPointsOf {spec : ReductionSpec} {zeroPoints : Option (ValueId × ValueId)}
    (h : ∀ z ∈ zeroPoints, z.1 ∈ ids ∧ z.2 ∈ ids) :
    LooksFor env ids (zeroPointsOf env spec zeroPoints) := by
  cases zeroPoints with
  | none =>
      simp only [zeroPointsOf]
      split
      · exact .error trivial
      · exact .ok _
  | some z =>
      obtain ⟨ha, hb⟩ := h z rfl
      exact (LooksFor.number ha).bind fun _ => (LooksFor.number hb).bind fun _ => .ok _

/-- A node looks for its operands only. -/
theorem looksFor_evalNode (input : String → Option Tensor) (node : Node) :
    LooksFor env node.op.operands (evalNode (.ofInputs input) env node) := by
  obtain ⟨op, type⟩ := node
  cases op with
  | input name =>
      simp only [evalNode]
      cases (Supply.ofInputs input).input name with
      | none => exact .error trivial
      | some t => exact (LooksFor.check t type).bind fun _ => .ok _
  | constant value =>
      simp only [evalNode]
      split
      · exact .ok _
      · exact .ok _
      · exact .error trivial
  | makeQuantized storage scale zeroPoint => exact .get (by simp [Op.operands])
  | host op => exact .error trivial
  | dim source axis =>
      refine (LooksFor.tensor (by simp [Op.operands])).bind fun t => ?_
      split
      · exact .ok _
      · exact .error trivial
  | arith op lhs rhs =>
      refine (LooksFor.number (by simp [Op.operands])).bind fun a =>
        (LooksFor.number (by simp [Op.operands])).bind fun b => ?_
      split
      · exact .error trivial
      · split
        · exact .ok _
        · exact .ok _
  | scalarCast value =>
      refine (LooksFor.number (by simp [Op.operands])).bind fun x => ?_
      split
      · exact .ok _
      · exact .ok _
  | guard g =>
      refine (GuardCond.looksFor_holds fun v hv => hv).bind fun holds => ?_
      split
      · exact .ok _
      · exact .error trivial
  | fill sizes value =>
      exact (LooksFor.sizes fun v hv => by simp [Op.operands, hv]).bind fun _ =>
        (LooksFor.number (by simp [Op.operands])).bind fun _ => .arrayResult _ _
  | broadcast input sizes added | broadcastTo input sizes | expandShape input groups sizes =>
      exact (LooksFor.sizes fun v hv => by simp [Op.operands, hv]).bind fun _ =>
        (LooksFor.tensor (by simp [Op.operands])).bind fun _ => .arrayResult _ _
  | transpose input perm =>
      exact (LooksFor.tensor (by simp [Op.operands])).bind fun _ =>
        (LooksFor.mapError .graph _ fun _ => trivial).bind fun _ => .tensorResult _ _
  | collapseShape input groups =>
      exact (LooksFor.tensor (by simp [Op.operands])).bind fun _ =>
        (LooksFor.mapError .graph _ fun _ => trivial).bind fun _ => .arrayResult _ _
  | flip input axes | narrow input axis start len | squeeze input axis | unsqueeze input axis
  | sum input axis =>
      exact (LooksFor.tensor (by simp [Op.operands])).bind fun _ => .arrayResult _ _
  | pad input low high value =>
      exact (LooksFor.tensor (by simp [Op.operands])).bind fun _ =>
        (LooksFor.number (by simp [Op.operands])).bind fun _ => .arrayResult _ _
  | insertSlice source dest offsets strides =>
      exact (LooksFor.mapM fun v hv => .index (by simp [Op.operands, hv])).bind fun _ =>
        (LooksFor.tensor (by simp [Op.operands])).bind fun _ =>
          (LooksFor.tensor (by simp [Op.operands])).bind fun _ => .arrayResult _ _
  | elementwise op lhs rhs =>
      refine (LooksFor.tensor (by simp [Op.operands])).bind fun a =>
        (LooksFor.get (by simp [Op.operands])).bind fun v => ?_
      split
      · exact .arrayResult _ _
      · exact (LooksFor.number (by simp [Op.operands])).bind fun _ => .tensorResult _ _
  | convert input => exact (LooksFor.tensor (by simp [Op.operands])).bind fun _ => .tensorResult _ _
  | cast input =>
      exact (LooksFor.tensor (by simp [Op.operands])).bind fun t =>
        (LooksFor.check t type).bind fun _ => .ok _
  | reduce spec lhs rhs zeroPoints init =>
      have hz : ∀ z ∈ zeroPoints, z.1 ∈ (Op.reduce spec lhs rhs zeroPoints init).operands ∧
          z.2 ∈ (Op.reduce spec lhs rhs zeroPoints init).operands := by
        rintro z hz
        rw [Option.mem_def] at hz
        subst hz
        simp [Op.operands]
      refine (looksFor_zeroPointsOf hz).bind fun zs => ?_
      split
      · exact .error trivial
      · exact (LooksFor.tensor (by cases zeroPoints <;> simp [Op.operands])).bind fun _ =>
          (LooksFor.tensor (by cases zeroPoints <;> simp [Op.operands])).bind fun _ =>
            (LooksFor.tensor (by cases zeroPoints <;> simp [Op.operands])).bind fun _ =>
              .arrayResult _ _

end Nodes

/-! ## Verified programs -/

/-- Where every value that is looked for is bound, no value is missing. -/
theorem EvalError.Within.of_bound {env : Env} {ids : List ValueId} {e : EvalError}
    (h : e.Within env ids) (hbound : ∀ v ∈ ids, ∃ value, env.get? v = some value) :
    e.Within .empty [] := by
  cases e with
  | missingNode id => exact h.elim
  | unbound v =>
      obtain ⟨hv, hnone⟩ := h
      obtain ⟨value, hvalue⟩ := hbound v hv
      rw [hvalue] at hnone
      cases hnone
  | _ => exact trivial

theorem LooksFor.of_bound {α : Type} {env : Env} {ids : List ValueId} {x : Except EvalError α}
    (h : LooksFor env ids x) (hbound : ∀ v ∈ ids, ∃ value, env.get? v = some value) :
    LooksFor .empty [] x :=
  fun e he => (h e he).of_bound hbound

namespace Graph

variable {g : Graph} {ids before after : List ValueId}

/-- Computing values in order, a program misses none. -/
theorem Orders.looksFor_evalFrom {env : Env} (h : g.Orders (before ++ after))
    (input : String → Option Tensor) (hbound : ∀ v ∈ before, ∃ value, env.get? v = some value) :
    LooksFor .empty [] (g.evalFrom (.ofInputs input) env after) := by
  induction after generalizing before env with
  | nil => exact .ok env
  | cons x after ih =>
      obtain ⟨node, hnode⟩ := h.node x (by simp)
      have hoperands : ∀ v ∈ node.op.operands, ∃ value, env.get? v = some value := by
        rw [← reads_of_node hnode]
        exact fun v hv => hbound v (h.mem_before hv).1
      have hstep : g.evalStep (.ofInputs input) env x =
          evalNode (.ofInputs input) env node >>= fun value => .ok (env.insert x value) := by
        simp only [evalStep, hnode]
        rfl
      rw [evalFrom, List.foldlM_cons, hstep]
      cases hvalue : evalNode (.ofInputs input) env node with
      | error e => exact .error ((looksFor_evalNode input node e hvalue).of_bound hoperands)
      | ok value =>
          have hrest : g.Orders ((before ++ [x]) ++ after) := by simpa using h
          refine ih hrest fun v hv => ?_
          rw [Env.get?_insert]
          split
          next => exact ⟨value, rfl⟩
          next hne =>
            refine hbound v ((List.mem_append.1 hv).resolve_right fun hx => hne ?_)
            exact (List.mem_singleton.1 hx).symm

/-- A verified program misses no value, nor does it miss an output. -/
theorem looksFor_run (h : g.verify = .ok ()) (input : String → Option Tensor) :
    LooksFor .empty [] (g.run (.ofInputs input)) := by
  obtain ⟨horders, houtputs⟩ := verify_eq_ok.1 h
  unfold run
  cases heval : g.evaluate (.ofInputs input) with
  | error e =>
      have hall : g.Orders ([] ++ g.schedule) := horders
      exact .error (hall.looksFor_evalFrom input nofun e heval)
  | ok env =>
      have hread : LooksFor env g.outputs (g.outputs.mapM env.get) := .mapM fun v hv => .get hv
      exact hread.of_bound fun v hv => exists_get?_of_evalFrom heval (houtputs v hv)

/-! ## Programs built by adding nodes -/

/-- A program that has been built by adding nodes that read values returned before, with the values
that have been returned. -/
inductive Assembled : Graph → List ValueId → Prop
  | empty : Assembled .empty []
  | push {g : Graph} {ids : List ValueId} (h : Assembled g ids) (op : Op) (type : ValueType)
      (hop : ∀ v ∈ op.operands, v ∈ ids) : Assembled (g.push op type) (ids ++ [g.nextId])
  | input {g : Graph} {ids : List ValueId} (h : Assembled g ids) (name : String)
      (type : TensorType) : Assembled (g.pushInput name type) (ids ++ [g.nextId])
  | constant {g : Graph} {ids : List ValueId} (h : Assembled g ids) (value : Scalar)
      (type : ValueType) : Assembled (g.pushConstant value type) (ids ++ [g.nextId])

/-- The next value is computed after all that there are. -/
theorem Orders.push (h : g.Orders ids) {op : Op} (type : ValueType)
    (hop : ∀ v ∈ op.operands, v ∈ ids) : (g.push op type).Orders (ids ++ [g.nextId]) :=
  (h.create type hop).congr fun _ _ => rfl

/-- The values are scheduled as they have been returned. -/
theorem Assembled.orders (h : Assembled g ids) : g.schedule = ids ∧ g.Orders ids := by
  have hpush : ∀ {g : Graph} {ids : List ValueId} (op : Op) (type : ValueType),
      (∀ v ∈ op.operands, v ∈ ids) → g.schedule = ids ∧ g.Orders ids →
        (g.push op type).schedule = ids ++ [g.nextId] ∧
          (g.push op type).Orders (ids ++ [g.nextId]) :=
    fun op type hop ⟨hschedule, horders⟩ =>
      ⟨congrArg (· ++ [_]) hschedule, horders.push type hop⟩
  induction h with
  | empty => exact ⟨rfl, nofun, nofun, nofun, .nil⟩
  | push h op type hop ih => exact hpush op type hop ih
  | input h name type ih => exact hpush (.input name) (.tensor type) nofun ih
  | constant h value type ih => exact hpush (.constant value) type nofun ih

/-- A verified program finds every node that it schedules and every value that it reads, whatever
its inputs are. A program that has been built by adding nodes is verified, with any of the values
that have been returned as its outputs. -/
theorem verify_binds :
    (∀ g : Graph, g.verify = .ok () → (∀ id ∈ g.schedule, ∃ node, g.node? id = some node) ∧
      ∀ (input : String → Option Tensor) (id : ValueId),
        g.run (.ofInputs input) ≠ .error (.missingNode id) ∧
          g.run (.ofInputs input) ≠ .error (.unbound id)) ∧
    ∀ (g : Graph) (ids outputs : List ValueId), Assembled g ids → (∀ v ∈ outputs, v ∈ ids) →
      (g.withOutputs outputs).verify = .ok () := by
  refine ⟨fun g h => ⟨fun id hid => (verify_eq_ok.1 h).1.node id hid, fun input id => ⟨?_, ?_⟩⟩,
    fun g ids outputs h houtputs => ?_⟩
  · exact fun hrun => looksFor_run h input _ hrun
  · exact fun hrun => nomatch (looksFor_run h input _ hrun).1
  · obtain ⟨hschedule, horders⟩ := h.orders
    have hall : (g.withOutputs outputs).Orders ids := horders.congr fun _ _ => rfl
    exact verify_eq_ok.2 ⟨hschedule ▸ hall, hschedule ▸ houtputs⟩

section Counts

/-- A program that takes in a row, twice over, and counts its entries. -/
def countTwice : Graph where
  nodes := #[⟨.input "x", .tensor ⟨.float32, ⟨[.dynamic]⟩⟩⟩, ⟨.dim ⟨0⟩ 0, .index⟩]
  schedule := [⟨0⟩, ⟨0⟩, ⟨1⟩]
  outputs := [⟨1⟩]

/-- The program that takes in a row and counts its entries. -/
def countRow : Graph :=
  (Graph.empty.pushInput "x" ⟨.float32, ⟨[.dynamic]⟩⟩).push (.dim ⟨0⟩ 0) .index

theorem verify_countTwice : countTwice.verify = .ok () := by
  refine verify_eq_ok.2 ⟨⟨?_, by decide, by decide, by decide⟩, by decide⟩
  simp [countTwice, node?]

theorem assembled_countRow : Assembled countRow [⟨0⟩, ⟨1⟩] :=
  .push (.input .empty "x" _) (.dim ⟨0⟩ 0) .index (by decide)

theorem verify_binds_counts :
    countTwice.verify = .ok () ∧ countTwice.run (.ofInputs fun _ => none) ≠ .error (.unbound ⟨0⟩) ∧
      Assembled countRow [⟨0⟩, ⟨1⟩] ∧ (countRow.withOutputs [⟨1⟩, ⟨0⟩]).verify = .ok () :=
  ⟨verify_countTwice, ((verify_binds.1 _ verify_countTwice).2 _ _).2, assembled_countRow,
    verify_binds.2 _ _ _ assembled_countRow (by decide)⟩

end Counts

end Graph

/-! ## Programs in another order -/

namespace Graph

variable {g g' : Graph} {input : String → Option Tensor} {env env' : Env}
  {ids before : List ValueId} {x : ValueId}

/-- The environment holds for the value what its node gives in that environment. -/
def Solves (g : Graph) (input : String → Option Tensor) (env : Env) (x : ValueId) : Prop :=
  ∃ node value, g.node? x = some node ∧ evalNode (.ofInputs input) env node = .ok value ∧
    env.get? x = some value

/-- A node has the same value wherever its operands have the same values. -/
theorem evalNode_eq_ok_of_agree {node : Node} {value : Value}
    (h : ∀ v ∈ node.op.operands, env'.get? v = env.get? v)
    (hvalue : evalNode (.ofInputs input) env node = .ok value) :
    evalNode (.ofInputs input) env' node = .ok value := by
  have hfollows : Follows (evalNode (.ofInputs input) env ⟨node.op, node.type⟩)
      (evalNode (.ofInputs input) env' ⟨node.op.mapOperands fun v => v, node.type⟩) :=
    follows_evalNode (Supply.ignoresNames_ofInputs input) fun v hv w hw => (h v hv).trans hw
  rw [Op.mapOperands_id] at hfollows
  exact hfollows value hvalue

/-- An equation holds wherever its value and its operands are as they were. -/
theorem Solves.congr (h : g.Solves input env x) (hself : env'.get? x = env.get? x)
    (hreads : ∀ v ∈ g.reads x, env'.get? v = env.get? v) : g.Solves input env' x := by
  obtain ⟨node, value, hnode, hvalue, hget⟩ := h
  rw [reads_of_node hnode] at hreads
  exact ⟨node, value, hnode, evalNode_eq_ok_of_agree hreads hvalue, hself.trans hget⟩

/-- The last value of a list is computed in the values of the others. -/
theorem evalFrom_concat {supply : Supply} :
    g.evalFrom supply env (ids ++ [x]) = .ok env' ↔
      ∃ env₁ node value, g.evalFrom supply env ids = .ok env₁ ∧ g.node? x = some node ∧
        evalNode supply env₁ node = .ok value ∧ env' = env₁.insert x value := by
  have hlast : ∀ env₁, g.evalFrom supply env₁ [x] = g.evalStep supply env₁ x := by
    intro env₁
    rw [evalFrom, List.foldlM_cons]
    exact bind_pure _
  simp only [evalFrom_append, hlast, evalStep_eq_ok]
  constructor
  · rintro ⟨env₁, hrun, node, value, hnode, hvalue, henv⟩
    exact ⟨env₁, node, value, hrun, hnode, hvalue, henv⟩
  · rintro ⟨env₁, node, value, hrun, hnode, hvalue, henv⟩
    exact ⟨env₁, hrun, node, value, hnode, hvalue, henv⟩

/-- Computing one more value solves its equation, and those that were solved stay so. -/
theorem Orders.solves_insert {node : Node} {value : Value} (h : g.Orders (before ++ [x]))
    (hbefore : ∀ y ∈ before, g.Solves input env y) (hnode : g.node? x = some node)
    (hvalue : evalNode (.ofInputs input) env node = .ok value) :
    ∀ y ∈ before ++ [x], g.Solves input (env.insert x value) y := by
  have hagree : ∀ v, v ≠ x → (env.insert x value).get? v = env.get? v :=
    fun v hv => by rw [Env.get?_insert, if_neg (Ne.symm hv)]
  have hreads : ∀ y ∈ before ++ [x], ∀ v ∈ g.reads y,
      (env.insert x value).get? v = env.get? v := by
    rintro y hy v hv
    refine hagree v ?_
    rintro rfl
    rcases List.mem_append.1 hy with hy | hy
    · exact (List.pairwise_append.1 h.later).2.2 y hy v (by simp) hv
    · obtain rfl := List.mem_singleton.1 hy
      exact h.irrefl y (by simp) hv
  intro y hy
  by_cases hyx : y = x
  · subst hyx
    refine ⟨node, value, hnode, evalNode_eq_ok_of_agree ?_ hvalue, ?_⟩
    · exact reads_of_node hnode ▸ hreads y hy
    · rw [Env.get?_insert, if_pos rfl]
  · have hy' : y ∈ before := (List.mem_append.1 hy).resolve_right fun h => hyx (by simpa using h)
    exact (hbefore y hy').congr (hagree y hyx) (hreads y hy)

/-- A run in order solves the equation of every value that it computes. -/
theorem Orders.solves_of_evalFrom (h : g.Orders ids)
    (heval : g.evalFrom (.ofInputs input) .empty ids = .ok env) :
    ∀ x ∈ ids, g.Solves input env x := by
  induction ids using List.reverseRecOn generalizing env with
  | nil => nofun
  | append_singleton before x ih =>
      obtain ⟨env₁, node, value, hrun, hnode, hvalue, rfl⟩ := evalFrom_concat.1 heval
      exact h.solves_insert (ih h.of_append hrun) hnode hvalue

/-- Where the equations have a solution, a run in order computes it. -/
theorem Orders.evalFrom_of_solves (h : g.Orders ids) (hsolves : ∀ x ∈ ids, g.Solves input env x) :
    ∃ env', g.evalFrom (.ofInputs input) .empty ids = .ok env' ∧
      ∀ x ∈ ids, env'.get? x = env.get? x := by
  induction ids using List.reverseRecOn with
  | nil => exact ⟨.empty, rfl, nofun⟩
  | append_singleton before x ih =>
      obtain ⟨env₁, hrun, hagree⟩ := ih h.of_append fun y hy => hsolves y (by simp [hy])
      obtain ⟨node, value, hnode, hvalue, hget⟩ := hsolves x (by simp)
      have hvalue₁ : evalNode (.ofInputs input) env₁ node = .ok value := by
        refine evalNode_eq_ok_of_agree (fun v hv => hagree v ?_) hvalue
        exact (h.mem_before (reads_of_node hnode ▸ hv)).1
      refine ⟨env₁.insert x value, evalFrom_concat.2 ⟨_, _, _, hrun, hnode, hvalue₁, rfl⟩, ?_⟩
      intro y hy
      rw [Env.get?_insert]
      split
      next hxy => rw [← hxy, hget]
      next hxy =>
        refine hagree y ((List.mem_append.1 hy).resolve_right fun hmem => hxy ?_)
        exact (List.mem_singleton.1 hmem).symm

/-- What a program computes, one with the same nodes computes too whose schedule is in order, lists
no other values and has the outputs. -/
theorem follows_run_of_subset (hnodes : g'.nodes = g.nodes) (houtputs : g'.outputs = g.outputs)
    (hsubset : g'.schedule ⊆ g.schedule) (h : g.verify = .ok ()) (h' : g'.verify = .ok ())
    (input : String → Option Tensor) :
    Follows (g.run (.ofInputs input)) (g'.run (.ofInputs input)) := by
  obtain ⟨horders, -⟩ := verify_eq_ok.1 h
  obtain ⟨horders', hscheduled⟩ := verify_eq_ok.1 h'
  intro values hrun
  obtain ⟨env, heval, hvalues⟩ := Except.bind_eq_ok.1 hrun
  have hsolves : ∀ x ∈ g'.schedule, g'.Solves input env x := by
    intro x hx
    obtain ⟨node, value, hnode, hrest⟩ := horders.solves_of_evalFrom heval x (hsubset hx)
    exact ⟨node, value, by rw [node?, hnodes, ← node?, hnode], hrest⟩
  obtain ⟨env', heval', hagree⟩ := horders'.evalFrom_of_solves hsolves
  refine Except.bind_eq_ok.2 ⟨env', heval', ?_⟩
  have hcarries : ∀ v ∈ g.outputs, Env.Carries (fun v => v) env env' v :=
    fun v hv w hw => (hagree v (hscheduled v (houtputs ▸ hv))).trans hw
  have hvalues' := outputs_renamed hcarries hvalues
  rwa [List.map_id', ← houtputs] at hvalues'

/-- The order of nodes that do not need each other does not matter. -/
theorem run_eq_ok_iff_of_perm (hnodes : g'.nodes = g.nodes) (houtputs : g'.outputs = g.outputs)
    (hperm : g'.schedule.Perm g.schedule) (h : g.verify = .ok ()) (h' : g'.verify = .ok ())
    (input : String → Option Tensor) (values : List Value) :
    g.run (.ofInputs input) = .ok values ↔ g'.run (.ofInputs input) = .ok values :=
  ⟨follows_run_of_subset hnodes houtputs hperm.subset h h' input values,
    follows_run_of_subset hnodes.symm houtputs.symm hperm.symm.subset h' h input values⟩

section RowAndColumn

/-- A program that counts the entries of a row and those of a column. -/
def countBoth (schedule : List ValueId) : Graph where
  nodes := #[⟨.input "row", .tensor ⟨.float32, ⟨[.dynamic]⟩⟩⟩, ⟨.dim ⟨0⟩ 0, .index⟩,
    ⟨.input "column", .tensor ⟨.float32, ⟨[.dynamic]⟩⟩⟩, ⟨.dim ⟨2⟩ 0, .index⟩]
  schedule := schedule
  outputs := [⟨1⟩, ⟨3⟩]

theorem verify_countBoth : (countBoth [⟨0⟩, ⟨1⟩, ⟨2⟩, ⟨3⟩]).verify = .ok () ∧
    (countBoth [⟨2⟩, ⟨3⟩, ⟨0⟩, ⟨1⟩]).verify = .ok () := by
  constructor <;> refine verify_eq_ok.2 ⟨⟨?_, by decide, by decide, by decide⟩, by decide⟩ <;>
    simp [countBoth, node?]

/-- A row of zeros. -/
def zeros (n : Nat) : Tensor := .ofArray .float32 (.ofFn [n] fun _ => 0)

@[simp] theorem shape_zeros (n : Nat) : (zeros n).shape = [n] := rfl

@[simp] theorem check_zeros (n : Nat) :
    (zeros n).check (.tensor ⟨.float32, ⟨[.dynamic]⟩⟩) = .ok () := by
  simp [Tensor.check, ValueType.tensor?, zeros, NdArray.ofFn, Shape.Admits, Shape.rank]

/-- Two entries in the row and three in the column. -/
def rowAndColumn (name : String) : Option Tensor :=
  some (zeros (if name = "row" then 2 else 3))

theorem run_countBoth : (countBoth [⟨0⟩, ⟨1⟩, ⟨2⟩, ⟨3⟩]).run (.ofInputs rowAndColumn) =
    .ok [.index 2, .index 3] := by
  simp [run, evaluate, evalFrom, evalStep, countBoth, node?, bind, Except.bind, pure, Except.pure,
    evalNode, Supply.ofInputs, rowAndColumn, Env.tensor, Env.get, Env.get?_insert, Value.toTensor]

/-- The column can come first. -/
theorem run_countBoth_column : (countBoth [⟨2⟩, ⟨3⟩, ⟨0⟩, ⟨1⟩]).run (.ofInputs rowAndColumn) =
    .ok [.index 2, .index 3] :=
  (run_eq_ok_iff_of_perm (by rfl) (by rfl) (by decide) verify_countBoth.1 verify_countBoth.2
    rowAndColumn [.index 2, .index 3]).1 run_countBoth

end RowAndColumn

end Graph

end TensorLowering
