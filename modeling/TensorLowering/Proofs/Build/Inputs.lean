import TensorLowering.Proofs.Build.Commits
import TensorLowering.Proofs.Build.SignedStorage
import TensorLowering.Proofs.Evaluation.Types

/-!
# Programs that only take in operands

Any tensors are the values of a program that takes them in as its inputs, and any two tensors of
short integers, with any zero-points that they could hold, are the quantized operands of a program
that takes in the tensors. Constructions that read them are run from there.
-/
namespace TensorLowering

open Numeric NdArray

theorem Shape.admits_ofSizes (sizes : List Nat) : (Shape.ofSizes sizes).Admits sizes := by
  refine ⟨(rank_ofSizes sizes).symm, fun e he => .inl ?_⟩
  have hzip : (Shape.ofSizes sizes).dims.zip sizes = sizes.map fun n => (.static n, n) := by
    simp [ofSizes, List.zip_eq_zipWith, List.zipWith_map_left, List.zipWith_self]
  rw [hzip, List.mem_map] at he
  obtain ⟨n, -, rfl⟩ := he
  rfl

theorem Tensor.hasType_type (t : Tensor) : t.HasType t.type := ⟨rfl, Shape.admits_ofSizes t.shape⟩

/-- The name of an input. -/
def inputName (i : Nat) : String := .ofList (List.replicate (i + 1) 'x')

/-- The program that takes in tensors of declared types. -/
def Graph.takingAs (types : List TensorType) : Graph where
  nodes := (types.mapIdx fun i type => ⟨.input (inputName i), .tensor type⟩).toArray
  schedule := (List.range types.length).map ValueId.mk
  outputs := []

/-- The program that takes in tensors. -/
def Graph.takingIn (ts : List Tensor) : Graph where
  nodes := (ts.mapIdx fun i t => ⟨.input (inputName i), .tensor t.type⟩).toArray
  schedule := (List.range ts.length).map ValueId.mk
  outputs := []

/-- The tensors as the inputs of that program. -/
def Supply.takingIn (ts : List Tensor) : Supply := .ofInputs fun name => ts[name.length - 1]?

namespace Graph

variable {types : List TensorType} {ts : List Tensor} {t : Tensor} {type : TensorType} {i : Nat}

/-- What is taken in is declared with the type of the tensor. -/
theorem takingIn_eq (ts : List Tensor) : takingIn ts = takingAs (ts.map Tensor.type) := by
  have hnodes : (ts.mapIdx fun i t => (⟨.input (inputName i), .tensor t.type⟩ : Node)) =
      (ts.map Tensor.type).mapIdx fun i type => ⟨.input (inputName i), .tensor type⟩ := by
    rw [List.mapIdx_eq_zipIdx_map, List.mapIdx_eq_zipIdx_map, List.zipIdx_map, List.map_map]
    rfl
  rw [takingIn, takingAs, hnodes, List.length_map]

theorem node?_takingAs (h : types[i]? = some type) :
    (takingAs types).node? ⟨i⟩ = some ⟨.input (inputName i), .tensor type⟩ := by
  simp [node?, takingAs, h]

theorem evalFrom_takingAs (h : List.Forall₂ Tensor.HasType ts types) {n : Nat}
    (hn : n ≤ ts.length) :
    ∃ env, (takingAs types).evalFrom (.takingIn ts) .empty ((List.range n).map ValueId.mk) =
        .ok env ∧
      ∀ i < n, ∀ t, ts[i]? = some t → env.get? ⟨i⟩ = some (.tensor t) := by
  induction n with
  | zero => exact ⟨_, rfl, nofun⟩
  | succ n ih =>
      obtain ⟨env, heval, hget⟩ := ih (by omega)
      have ht : ts[n]? = some ts[n] := List.getElem?_eq_getElem hn
      have hntypes : n < types.length := h.length_eq ▸ hn
      have hvalue : evalNode (.takingIn ts) env ⟨.input (inputName n), .tensor types[n]⟩ =
          .ok (.tensor ts[n]) := by
        have hinput : (Supply.takingIn ts).input (inputName n) = some ts[n] := by
          simp [Supply.takingIn, Supply.ofInputs, inputName, ht]
        have hcheck := Tensor.check_eq_ok.2 (h.get hn hntypes)
        simp only [List.get_eq_getElem] at hcheck
        simp only [evalNode, hinput, hcheck, bind, Except.bind]
        rfl
      refine ⟨env.insert ⟨n⟩ (.tensor ts[n]), ?_, fun i hi t hi' => ?_⟩
      · rw [List.range_succ, List.map_append]
        exact evalFrom_append.2 ⟨env, heval, evalFrom_cons.2 ⟨_, evalStep_eq_ok.2
          ⟨_, _, node?_takingAs (List.getElem?_eq_getElem hntypes), hvalue, rfl⟩, rfl⟩⟩
      · rw [Env.get?_insert]
        split
        next hsame =>
          obtain rfl : n = i := congrArg ValueId.index hsame
          rw [Option.some.inj (ht.symm.trans hi')]
        next hne =>
          have hin : i ≠ n := fun hsame => hne (congrArg ValueId.mk hsame.symm)
          exact hget i (by omega) t hi'

/-- Every tensor that is taken in is an operand of its declared type. -/
theorem evaluate_takingAs (h : List.Forall₂ Tensor.HasType ts types) :
    ∃ env, (takingAs types).evaluate (.takingIn ts) = .ok env ∧
      ∀ i t type, ts[i]? = some t → types[i]? = some type →
        OperandInfo.extract (takingAs types) ⟨i⟩ = .ok ⟨⟨i⟩, type, none⟩ ∧ t.HasType type ∧
          env.get? ⟨i⟩ = some (.tensor t) := by
  obtain ⟨env, heval, hget⟩ := evalFrom_takingAs h (Nat.le_refl _)
  rw [h.length_eq] at heval
  refine ⟨env, heval, fun i t type ht hi => ?_⟩
  have hnode := node?_takingAs hi
  have htype : (takingAs types).tensorType ⟨i⟩ = .ok type := tensorType_eq_ok.2 ⟨_, hnode⟩
  obtain ⟨hlt, rfl⟩ := List.getElem?_eq_some_iff.1 ht
  obtain ⟨hlt', rfl⟩ := List.getElem?_eq_some_iff.1 hi
  refine ⟨?_, h.get hlt hlt', hget i hlt _ ht⟩
  simp only [OperandInfo.extract, node, hnode, htype, bind, Except.bind]
  rfl

/-- A program that takes in tensors has no other values. -/
theorem get?_takingAs {env : Env} (h : List.Forall₂ Tensor.HasType ts types)
    (heval : (takingAs types).evaluate (.takingIn ts) = .ok env) {id : ValueId} {value : Value}
    (hid : env.get? id = some value) : ∃ t ∈ ts, value = .tensor t := by
  have hmem : id ∈ (List.range types.length).map ValueId.mk := mem_of_evalFrom heval hid
  obtain ⟨i, hi, rfl⟩ := List.mem_map.1 hmem
  have hlt : i < ts.length := by
    rw [h.length_eq]
    exact List.mem_range.1 hi
  obtain ⟨env', heval', hget⟩ := evalFrom_takingAs h (Nat.le_refl _)
  rw [h.length_eq] at heval'
  obtain rfl := Except.ok.inj (heval.symm.trans heval')
  refine ⟨ts[i], List.getElem_mem hlt, ?_⟩
  exact Option.some.inj (hid.symm.trans (hget i hlt _ (List.getElem?_eq_getElem hlt)))

/-- Every tensor that is taken in is an operand with its own type. -/
theorem evaluate_takingIn (ts : List Tensor) :
    ∃ env, (takingIn ts).evaluate (.takingIn ts) = .ok env ∧
      ∀ i t, ts[i]? = some t → (takingIn ts).Plain env ⟨i⟩ t := by
  have htypes : List.Forall₂ Tensor.HasType ts (ts.map Tensor.type) :=
    List.forall₂_map_right_iff.2 (List.forall₂_same.2 fun t _ => t.hasType_type)
  obtain ⟨env, heval, hplain⟩ := evaluate_takingAs htypes
  rw [takingIn_eq]
  refine ⟨env, heval, fun i t ht => ?_⟩
  obtain ⟨hextract, -, hget⟩ := hplain i t t.type ht (by rw [List.getElem?_map, ht]; rfl)
  exact ⟨hextract, hget⟩

end Graph

/-- What a construction leaves behind that has created nodes after the inputs. -/
def Draft.takingAs (types : List TensorType) (created : List Node) : Draft where
  graph := { Graph.takingAs types with nodes := (Graph.takingAs types).nodes ++ created }
  base := types.length
  created := ((List.range' types.length created.length).map ValueId.mk).toArray

theorem Draft.node?_takingAs (types : List TensorType) (created : List Node) (i : Nat) :
    (takingAs types created).graph.node? ⟨i + types.length⟩ = created[i]? :=
  Graph.node?_append (by simp [Graph.takingAs]) i

/-! ## Quantized operands -/

namespace Graph

/-- Constant zero-points, and the quantized operands that they are attached to. -/
def zeroPointNodes (a b : Tensor) (za zb : Int) : List Node :=
  [⟨.constant (.int za), .index⟩, ⟨.constant (.int zb), .index⟩,
    ⟨.makeQuantized ⟨0⟩ (.ofInt 1) ⟨2⟩, .tensor a.type⟩,
    ⟨.makeQuantized ⟨1⟩ (.ofInt 1) ⟨3⟩, .tensor b.type⟩]

/-- The program that takes in the storage of two quantized operands. -/
def takingQuantized (a b : Tensor) (za zb : Int) : Graph where
  nodes := (takingIn [a, b]).nodes ++ zeroPointNodes a b za zb
  schedule := [⟨0⟩, ⟨1⟩, ⟨2⟩, ⟨3⟩, ⟨4⟩, ⟨5⟩]
  outputs := []

variable {a b : Tensor} {za zb : Int}

theorem node?_takingQuantized (i : Nat) :
    (takingQuantized a b za zb).node? ⟨i + 2⟩ = (zeroPointNodes a b za zb)[i]? :=
  node?_append rfl i

theorem evaluate_takingQuantized (a b : Tensor) (za zb : Int) (hza : Binary64.IsExact za)
    (hzb : Binary64.IsExact zb) :
    ∃ env, (takingQuantized a b za zb).evaluate (.takingIn [a, b]) = .ok env ∧
      env.get? ⟨0⟩ = some (.tensor a) ∧ env.get? ⟨1⟩ = some (.tensor b) ∧
      env.get? ⟨2⟩ = some (.index za) ∧ env.get? ⟨3⟩ = some (.index zb) := by
  obtain ⟨env, heval, hplain⟩ := evaluate_takingIn [a, b]
  have hfirst : (takingQuantized a b za zb).evalFrom (.takingIn [a, b]) .empty [⟨0⟩, ⟨1⟩] =
      .ok env := by
    refine (evalFrom_congr (g := takingIn [a, b]) fun id hid => ?_).trans heval
    simp only [List.mem_cons, List.not_mem_nil, or_false] at hid
    rcases hid with rfl | rfl <;> rfl
  have ha := (hplain 0 a rfl).get
  have hb := (hplain 1 b rfl).get
  have hza' : (Scalar.int za).toDouble.toInt64 = za := hza
  have hzb' : (Scalar.int zb).toDouble.toInt64 = zb := hzb
  have hnode : ∀ i, (takingQuantized a b za zb).node? ⟨i + 2⟩ = (zeroPointNodes a b za zb)[i]? :=
    node?_takingQuantized
  refine ⟨(((env.insert ⟨2⟩ (.index za)).insert ⟨3⟩ (.index zb)).insert ⟨4⟩ (.tensor a)).insert ⟨5⟩
    (.tensor b), ?_, ?_⟩
  · change (takingQuantized a b za zb).evalFrom _ _ ([⟨0⟩, ⟨1⟩] ++ [⟨2⟩, ⟨3⟩, ⟨4⟩, ⟨5⟩]) = _
    refine evalFrom_append.2 ⟨env, hfirst, ?_⟩
    simp [evalFrom, evalStep, hnode, zeroPointNodes, evalNode, hza', hzb', Env.get,
      Env.get?_insert, ha, hb, Bind.bind, Except.bind, Pure.pure, Except.pure]
  · simp [Env.get?_insert, ha, hb]

/-- Both are quantized operands. -/
theorem quantized_takingQuantized {env : Env} (hget : env.get? ⟨0⟩ = some (.tensor a) ∧
      env.get? ⟨1⟩ = some (.tensor b) ∧ env.get? ⟨2⟩ = some (.index za) ∧
      env.get? ⟨3⟩ = some (.index zb))
    (ha : a.dtype.IsShortInteger) (hb : b.dtype.IsShortInteger) (hza : a.dtype.Contains za)
    (hzb : b.dtype.Contains zb) :
    (takingQuantized a b za zb).Quantized env ⟨4⟩ a za ∧
      (takingQuantized a b za zb).Quantized env ⟨5⟩ b zb := by
  obtain ⟨hfirst, hsecond, hthird, hfourth⟩ := hget
  have hnumber : ∀ {v : ValueId} {n : Int}, env.get? v = some (.index n) →
      env.number v = .ok (.ofInt n) := by
    intro v n hv
    simp [Env.number, Env.get, hv, bind, Except.bind, pure, Except.pure]
  refine ⟨⟨ha, hza, ⟨0⟩, ⟨2⟩, .ofInt za, ?_, hfirst, hnumber hthird,
      Binary64.toInt?_ofInt (ha.natAbs_lt hza)⟩,
    ⟨hb, hzb, ⟨1⟩, ⟨3⟩, .ofInt zb, ?_, hsecond, hnumber hfourth,
      Binary64.toInt?_ofInt (hb.natAbs_lt hzb)⟩⟩
  · rfl
  · rfl

end Graph

end TensorLowering
