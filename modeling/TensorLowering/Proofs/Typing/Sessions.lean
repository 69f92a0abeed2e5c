import TensorLowering.Proofs.Typing.Tensors

/-!
# Sessions of constructions

A session calls one construction after the other on a program, with sizes that earlier calls have
returned. A call that fails leaves what it has created, and the session goes on. Main statement:
wherever the created nodes run from values that have their types, every tensor among their values
has its declared type, and whatever is known of a size is its value.
-/
namespace TensorLowering

open NdArray Numeric

/-- A call of a construction. -/
inductive Call where
  | index (n : Int)
  | dim (tensor : ValueId) (axis : Nat)
  | dims (tensor : ValueId)
  | arith (op : ArithOp) (lhs rhs : Size)
  | addConst (lhs : Size) (n : Int)
  | mulConst (lhs : Size) (n : Int)
  | scalar (value : Scalar) (dtype : DType)
  | scalarCast (value : ValueId) (dtype : DType)
  | scalarAddConst (value : ValueId) (n : Int) (dtype : DType)
  | guard (cond : GuardCond) (message : String)
  | filled (sizes : List Size) (value : ValueId) (dtype : DType)
  | zeros (sizes : List Size) (dtype : DType)
  | broadcast (input : ValueId) (sizes : List Size) (added : List Nat)
  | broadcastTo (input : ValueId) (sizes : List Size)
  | transpose (input : ValueId) (perm : Permutation)
  | flip (input : ValueId) (axes : List Nat)
  | expandShape (input : ValueId) (groups : Reassociation) (sizes : List Size)
  | collapseShape (input : ValueId) (groups : Reassociation)
  | pad (input : ValueId) (low high : List Int) (value : ValueId)
  | insertSlice (source dest : ValueId) (offsets : List Size) (strides : List Int)
  | narrow (input : ValueId) (axis : Nat) (start : Int) (len : Nat)
  | squeeze (input : ValueId) (axis : Nat)
  | unsqueeze (input : ValueId) (axis : Nat)
  | elementwise (op : ElementwiseOp) (lhs rhs : ValueId) (dtype : DType)
  | sum (input : ValueId) (axis : Nat)
  | convert (input : ValueId) (dtype : DType)
  | cast (input : ValueId) (target : TensorType)
  | finish (input : ValueId) (target : TensorType)
  | reduce (spec : ReductionSpec) (lhs rhs : ValueId) (zeroPoints : Option (ValueId × ValueId))
      (init : ValueId)

namespace Build

variable {s : Stage}

/-- A construction that returns one size. -/
def oneSize (b : Build Size) : Build (List Size) := do return [← b]

/-- A construction that returns no size. -/
def noSize (b : Build ValueId) : Build (List Size) := do
  let _ ← b
  return []

theorem Respects.oneSize {b : Build Size} (hs : s.Typed)
    (h : b.Respects s fun z s' => s'.Tracks z) :
    b.oneSize.Respects s fun zs s' => ∀ z ∈ zs, s'.Tracks z :=
  .bind hs h fun _ _ _ _ hz => .pure fun _ hmem => List.mem_singleton.1 hmem ▸ hz

theorem Respects.noSize {b : Build ValueId} (hs : s.Typed)
    (h : b.Respects s fun _ _ => True) :
    b.noSize.Respects s fun zs s' => ∀ z ∈ zs, s'.Tracks z :=
  .bind hs h fun _ _ _ _ _ => .pure nofun

end Build

namespace Call

/-- The sizes that are passed to the call. -/
def sizes : Call → List Size
  | arith _ lhs rhs => [lhs, rhs]
  | addConst lhs _ | mulConst lhs _ => [lhs]
  | filled sizes _ _ | zeros sizes _ | broadcast _ sizes _ | broadcastTo _ sizes
  | expandShape _ _ sizes | insertSlice _ _ sizes _ => sizes
  | _ => []

/-- What the call constructs, and the sizes that it returns. -/
def build : Call → Build (List Size)
  | index n => (Build.index n).oneSize
  | dim tensor axis => (Build.dim tensor axis).oneSize
  | dims tensor => Build.dims tensor
  | arith op lhs rhs => (Build.arith op lhs rhs).oneSize
  | addConst lhs n => (Build.addConst lhs n).oneSize
  | mulConst lhs n => (Build.mulConst lhs n).oneSize
  | scalar value dtype => (Build.scalar value dtype).noSize
  | scalarCast value dtype => (Build.scalarCast value dtype).noSize
  | scalarAddConst value n dtype => (Build.scalarAddConst value n dtype).noSize
  | guard cond message => (Build.guard cond message).noSize
  | filled sizes value dtype => (Build.filled sizes value dtype).noSize
  | zeros sizes dtype => (Build.zeros sizes dtype).noSize
  | broadcast input sizes added => (Build.broadcast input sizes added).noSize
  | broadcastTo input sizes => (Build.broadcastTo input sizes).noSize
  | transpose input perm => (Build.transpose input perm).noSize
  | flip input axes => (Build.flip input axes).noSize
  | expandShape input groups sizes => (Build.expandShape input groups sizes).noSize
  | collapseShape input groups => (Build.collapseShape input groups).noSize
  | pad input low high value => (Build.pad input low high value).noSize
  | insertSlice source dest offsets strides =>
      (Build.insertSlice source dest offsets strides).noSize
  | narrow input axis start len => (Build.narrow input axis start len).noSize
  | squeeze input axis => (Build.squeeze input axis).noSize
  | unsqueeze input axis => (Build.unsqueeze input axis).noSize
  | elementwise op lhs rhs dtype => (Build.elementwise op lhs rhs dtype).noSize
  | sum input axis => (Build.sum input axis).noSize
  | convert input dtype => (Build.convert input dtype).noSize
  | cast input target => (Build.cast input target).noSize
  | finish input target => (Build.finish input target).noSize
  | reduce spec lhs rhs zeroPoints init => (Build.reduce spec lhs rhs zeroPoints init).noSize

open Build in
/-- Whatever is called, the created nodes have their types and the returned sizes are tracked. -/
theorem build_respects {s : Stage} (hs : s.Typed) (c : Call) (hc : ∀ z ∈ c.sizes, s.Tracks z) :
    c.build.Respects s fun zs s' => ∀ z ∈ zs, s'.Tracks z := by
  cases c with
  | index n => exact .oneSize hs (index_respects n)
  | dim tensor axis => exact .oneSize hs (dim_respects tensor axis)
  | dims tensor => exact dims_respects hs tensor
  | arith op lhs rhs =>
      exact .oneSize hs (arith_respects op (hc lhs (by simp [sizes])) (hc rhs (by simp [sizes])))
  | addConst lhs n =>
      exact .oneSize hs (arithConst_respects hs .add (hc lhs (by simp [sizes])) n)
  | mulConst lhs n =>
      exact .oneSize hs (arithConst_respects hs .mul (hc lhs (by simp [sizes])) n)
  | scalar value dtype => exact .noSize hs (scalar_respects value dtype)
  | scalarCast value dtype => exact .noSize hs (scalarCast_respects value dtype)
  | scalarAddConst value n dtype => exact .noSize hs (scalarAddConst_respects hs value n dtype)
  | guard cond message => exact .noSize hs (guard_respects cond message)
  | filled sizes value dtype => exact .noSize hs (filled_respects hc value dtype)
  | zeros sizes dtype => exact .noSize hs (zeros_respects hs hc dtype)
  | broadcast input sizes added => exact .noSize hs (broadcast_respects hc input added)
  | broadcastTo input sizes => exact .noSize hs (broadcastTo_respects hc input)
  | transpose input perm => exact .noSize hs (transpose_respects hs input perm)
  | flip input axes => exact .noSize hs (flip_respects hs input axes)
  | expandShape input groups sizes => exact .noSize hs (expandShape_respects hc input groups)
  | collapseShape input groups => exact .noSize hs (collapseShape_respects hs input groups)
  | pad input low high value => exact .noSize hs (pad_respects hs input low high value)
  | insertSlice source dest offsets strides =>
      exact .noSize hs (insertSlice_respects hs source dest offsets strides)
  | narrow input axis start len => exact .noSize hs (narrow_respects hs input axis start len)
  | squeeze input axis => exact .noSize hs (squeeze_respects hs input axis)
  | unsqueeze input axis => exact .noSize hs (unsqueeze_respects hs input axis)
  | elementwise op lhs rhs dtype => exact .noSize hs (elementwise_respects hs op lhs rhs dtype)
  | sum input axis => exact .noSize hs (sum_respects hs input axis)
  | convert input dtype => exact .noSize hs (convert_respects hs input dtype)
  | cast input target => exact .noSize hs (cast_respects input target)
  | finish input target => exact .noSize hs (finish_respects hs input target)
  | reduce spec lhs rhs zeroPoints init =>
      exact .noSize hs (reduce_respects hs spec lhs rhs zeroPoints init)

end Call

/-- The sizes that a call returned, if it did not fail. -/
def returned : Except LowerError (List Size) → List Size
  | .ok zs => zs
  | .error _ => []

/-- The draft of a program after some calls, and the sizes that they have returned. -/
inductive Session (g : Graph) : Draft → List Size → Prop
  | start : Session g (.ofGraph g) []
  | call {d : Draft} {zs : List Size} (h : Session g d zs) (c : Call)
      (hc : ∀ z ∈ c.sizes, z ∈ zs) :
      Session g (c.build.run d).2 (zs ++ returned (c.build.run d).1)

/-- Every value belongs to a node of the program and has its type. -/
def Env.Conforms (env : Env) (g : Graph) : Prop :=
  ∀ id value, env.get? id = some value →
    ∃ node, g.node? id = some node ∧ value.HasType node.type

namespace Session

variable {g : Graph} {d : Draft} {zs : List Size} {supply : Supply} {start env : Env}

theorem draft_over (h : Session g d zs) : Draft.Over g d := by
  induction h with
  | start => exact .ofGraph g
  | call _ c _ ih => exact ih.run c.build

/-- The nodes of a further call do not change the values that were there. -/
theorem get?_of_extends (h : Session g d zs) (hstart : start.Conforms g) {d' : Draft}
    {ids : List ValueId} {env' : Env} {id : ValueId} {value : Value} (hids : d.Extends d' ids)
    (hrun : d.graph.evalFrom supply start d.created.toList = .ok env)
    (hafter : d'.graph.evalFrom supply env ids = .ok env') (hid : env.get? id = some value) :
    env'.get? id = some value := by
  have hover := h.draft_over
  rw [Graph.get?_evalFrom hafter, hid]
  intro hmem
  have hle := hids.fresh id hmem
  have hnot : id ∉ d.created.toList := fun hcreated =>
    Nat.not_lt_of_le hle (hover.mem_created.1 hcreated).2
  rw [Graph.get?_evalFrom hrun hnot] at hid
  obtain ⟨node, hnode, -⟩ := hstart id value hid
  have hlt := Graph.lt_size_of_node? hnode
  have hsize := hover.size
  omega

/-- What has been evaluated after some calls: a stage in which every value has its type and every
returned size is tracked. -/
theorem exists_stage (h : Session g d zs) (hstart : start.Conforms g)
    (hrun : d.graph.evalFrom supply start d.created.toList = .ok env)
    (hsmall : ∀ id value, env.get? id = some value → value.Small) :
    ∃ s : Stage, s.supply = supply ∧ s.graph = d.graph ∧ s.env = env ∧ s.Typed ∧
      ∀ z ∈ zs, s.Tracks z := by
  induction h generalizing env with
  | start =>
      cases hrun
      have hclosed : ∀ id value, start.get? id = some value → id.index < g.size := by
        intro id value hid
        obtain ⟨node, hnode, -⟩ := hstart id value hid
        exact Graph.lt_size_of_node? hnode
      refine ⟨⟨supply, g, start, hclosed⟩, rfl, rfl, rfl, fun id value hid => ?_, nofun⟩
      obtain ⟨node, hnode, htype⟩ := hstart id value hid
      exact ⟨node, hnode, htype, hsmall id value hid⟩
  | @call d zs h c hc ih =>
      have hover := h.draft_over
      obtain ⟨ids, hids⟩ := c.build.run_extends d
      rw [hids.created] at hrun
      obtain ⟨env₁, hbefore, hafter⟩ := Graph.evalFrom_append.1 hrun
      have hbefore' : d.graph.evalFrom supply start d.created.toList = .ok env₁ := by
        rw [← hbefore]
        exact (Graph.evalFrom_congr fun id hid => hids.node id (hover.mem_created.1 hid).2).symm
      obtain ⟨s, hsupply, hgraph, henv, hs, htracks⟩ := ih hbefore' fun id value hid =>
        hsmall id value (h.get?_of_extends hstart hids hbefore' hafter hid)
      rw [← hsupply, ← henv] at hafter
      obtain ⟨s', hgraph', henv', hle, hs', hpost⟩ :=
        (c.build_respects hs fun z hz => htracks z (hc z hz)).run hs hgraph.symm rfl hids hafter
          hsmall
      refine ⟨s', hle.supply.trans hsupply, hgraph', henv', hs', fun z hz => ?_⟩
      rcases List.mem_append.1 hz with hold | hnew
      · exact (htracks z hold).mono hle
      · cases hresult : (c.build.run d).1 with
        | ok returnedSizes =>
            rw [hresult] at hnew
            exact hpost returnedSizes hresult z hnew
        | error e =>
            rw [hresult] at hnew
            cases hnew

/-- Wherever the created nodes run from values that have their types, and indices and sizes are
below `2 ^ 53`, each value that is declared as a tensor is one of the declared element type, rank
and static sizes, and each size evaluates to what is known of it. -/
theorem values_conform (h : Session g d zs) (hstart : start.Conforms g)
    (hrun : d.graph.evalFrom supply start d.created.toList = .ok env)
    (hsmall : ∀ id value, env.get? id = some value → value.Small) :
    (∀ v ∈ d.created.toList, ∀ type, d.graph.tensorType v = .ok type →
      ∃ t, env.get? v = some (.tensor t) ∧ t.HasType type) ∧
    ∀ z ∈ zs, ∀ n, z.known = some n → env.get? z.value = some (.index n) := by
  obtain ⟨s, -, hgraph, rfl, hs, htracks⟩ := h.exists_stage hstart hrun hsmall
  refine ⟨fun v hv type htype => ?_, htracks⟩
  obtain ⟨value, hvalue⟩ := Graph.exists_get?_of_evalFrom hrun hv
  obtain ⟨op, hnode⟩ := Graph.tensorType_eq_ok.1 htype
  obtain ⟨node, hnode', htyped, -⟩ := hs v value hvalue
  rw [hgraph] at hnode'
  obtain rfl := Option.some.inj (hnode.symm.trans hnode')
  cases htyped with
  | @tensor t _ ht => exact ⟨t, hvalue, ht⟩

end Session

section Rows

/-- The type of tensors with any number of rows of three. -/
def rowsType : TensorType := ⟨.float32, ⟨[.dynamic, .static 3]⟩⟩

def rowsGraph : Graph := ⟨#[⟨.input "x", .tensor rowsType⟩], [⟨0⟩], []⟩

/-- Two rows of ones. -/
def twoRows : Tensor := .ofArray .float32 (.ofFn [2, 3] fun _ => .ofInt 1)

def rowCount : Size := ⟨⟨1⟩, none⟩

def rowSize : Size := ⟨⟨2⟩, some 3⟩

def rowNodes : List Node :=
  [⟨.dim ⟨0⟩ 0, .index⟩, ⟨.constant (.int 3), .index⟩,
    ⟨.constant (.zero .float32), .scalar .float32⟩, ⟨.fill [⟨1⟩, ⟨2⟩] ⟨3⟩, .tensor rowsType⟩,
    ⟨.elementwise .add ⟨0⟩ ⟨4⟩, .tensor rowsType⟩]

def rowsDraft : Draft :=
  ⟨⟨rowsGraph.nodes ++ rowNodes, [⟨0⟩], []⟩, 1, #[⟨1⟩, ⟨2⟩, ⟨3⟩, ⟨4⟩, ⟨5⟩]⟩

/-- A session that adds zeros to the rows. One of its calls fails. -/
theorem session_rows : Session rowsGraph rowsDraft [rowCount, rowSize] := by
  have hcount : Session rowsGraph _ [rowCount] := .call .start (.dim ⟨0⟩ 0) nofun
  have hsizes : Session rowsGraph _ [rowCount, rowSize] := .call hcount (.dim ⟨0⟩ 1) nofun
  have hfailed : Session rowsGraph _ [rowCount, rowSize] := .call hsizes (.narrow ⟨9⟩ 0 0 1) nofun
  have hzeros : Session rowsGraph _ [rowCount, rowSize] :=
    .call hfailed (.zeros [rowCount, rowSize] .float32) fun _ h => h
  exact .call hzeros (.elementwise .add ⟨0⟩ ⟨4⟩ .float32) nofun

/-- The value of the rows, before any node is created. -/
def rowsStart : Env := Env.empty.insert ⟨0⟩ (.tensor twoRows)

theorem conforms_rowsStart : rowsStart.Conforms rowsGraph := by
  intro id value hid
  rw [rowsStart, Env.get?_insert] at hid
  split at hid
  next h0 =>
    subst h0
    cases hid
    exact ⟨_, rfl, .tensor (by decide +kernel)⟩
  next =>
    rw [Env.get?_empty] at hid
    cases hid

def zeroRows : Tensor := .ofArray .float32 (.ofFn [2, 3] fun _ => 0)

/-- The values of the nodes. -/
def rowsEnd : Env :=
  ((((rowsStart.insert ⟨1⟩ (.index 2)).insert ⟨2⟩ (.index 3)).insert ⟨3⟩
    (.scalar .float32 0)).insert ⟨4⟩ (.tensor zeroRows)).insert ⟨5⟩ (.tensor twoRows)

theorem evalFrom_rows (supply : Supply) :
    rowsDraft.graph.evalFrom supply rowsStart rowsDraft.created.toList = .ok rowsEnd := by
  have hthree : (Scalar.int 3).toDouble.toInt64 = 3 := by decide +kernel
  have hfill : arrayResult (.tensor rowsType) (fill [2, 3] 0) = .ok (.tensor zeroRows) := by
    decide +kernel
  have hadd : arrayResult (.tensor rowsType)
      (twoRows.data.zipWith ElementwiseOp.add.apply zeroRows.data) = .ok (.tensor twoRows) := by
    decide +kernel
  have hsize : twoRows.shape[0]? = some 2 := rfl
  simp [rowsDraft, rowsGraph, rowNodes, rowsStart, rowsEnd, Graph.evalFrom, Graph.evalStep,
    Graph.node?, evalNode, Bind.bind, Except.bind, Pure.pure, Except.pure, Env.get, Env.get?_insert,
    Env.sizes, Env.index, Env.number, Env.tensor, Value.toTensor, Value.roundedScalar,
    Scalar.toDouble_zero, DType.round_zero, hthree, hfill, hadd, hsize]

theorem small_rowsEnd (id : ValueId) (value : Value) (hid : rowsEnd.get? id = some value) :
    value.Small := by
  have h53 := twoPow_53
  have hindex : ∀ n : Int, n.natAbs < 4 → (Value.index n).Small := fun n hn => by
    simp only [Value.Small]
    omega
  have htensor : ∀ t : Tensor, t.shape = [2, 3] → (Value.tensor t).Small := fun t ht n hn => by
    simp only [ht, List.mem_cons, List.not_mem_nil, or_false] at hn
    omega
  simp only [rowsEnd, rowsStart, Env.get?_insert, Env.get?_empty] at hid
  split_ifs at hid <;> cases hid
  · exact htensor _ rfl
  · exact htensor _ rfl
  · exact trivial
  · exact hindex 3 (by decide)
  · exact hindex 2 (by decide)
  · exact htensor _ rfl

theorem values_conform_rows : ∃ t, rowsEnd.get? ⟨5⟩ = some (.tensor t) ∧ t.HasType rowsType ∧
    rowsEnd.get? rowSize.value = some (.index 3) := by
  obtain ⟨htensors, hsizes⟩ := session_rows.values_conform conforms_rowsStart
    (evalFrom_rows (.ofInputs fun _ => none)) small_rowsEnd
  obtain ⟨t, hget, htype⟩ := htensors ⟨5⟩ (by decide) rowsType rfl
  exact ⟨t, hget, htype, hsizes rowSize (by decide) 3 rfl⟩

end Rows

end TensorLowering
