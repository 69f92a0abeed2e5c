import TensorLowering.Proofs.Build.SignedStorage
import TensorLowering.Proofs.Evaluation.Types

/-!
# What the values of a run hold

Every node rounds what it computes to the element type that it declares, or hands on a value that
has been rounded. So rounding leaves every scalar of a run, and every element of its tensors, as it
is. Main statement: of an integer type of at most 32 bits they are integers of the type, and of 64
bits they have no fraction. Integers of 64 bits do not wrap: products leave their range.
-/
namespace TensorLowering

open Numeric NdArray

namespace Numeric.Binary64

variable {x : Binary64}

/-- The whole part of a finite double is an integer. -/
theorem exists_toInt?_trunc (h : x.isFinite = true) : ∃ n, x.trunc.toInt? = some n := by
  cases x with
  | nan | infinite a => cases h
  | whole n hn => exact ⟨n, rfl⟩
  | scaled a u hu apart =>
      refine ⟨signed a (u / twoPow unitShift), toInt?_eq_some.2 ⟨isFinite_ofUnits a _, ?_, ?_⟩⟩
      · rw [trunc, units_ofUnits, natAbs_signed]
      · rw [trunc, isNegative_ofUnits, natAbs_signed]

end Numeric.Binary64

namespace DType

variable {t : DType} {x : Binary64}

/-- What short integers are rounded to is an integer of the type. -/
theorem IsShortInteger.exists_toInt? (h : t.IsShortInteger) (hx : t.round x = x) :
    ∃ n, x.toInt? = some n ∧ t.Contains n := by
  obtain ⟨n, hn, hcontains⟩ := h.exists_round x
  rw [← hx, hn]
  exact ⟨n, Binary64.toInt?_ofInt (h.natAbs_lt hcontains), hcontains⟩

/-- What integers are rounded to has no fraction. -/
theorem exists_toInt?_of_isInteger (h : t.isInteger = true) (hx : t.round x = x)
    (hfinite : x.isFinite = true) : ∃ n, x.toInt? = some n := by
  by_cases hshort : t.IsShortInteger
  · obtain ⟨n, hn, -⟩ := hshort.exists_toInt? hx
    exact ⟨n, hn⟩
  · have htrunc : x.trunc = x := by
      cases t with
      | signed w | unsigned w =>
          obtain rfl : w = .w64 := Decidable.not_not.1 hshort
          exact hx
      | _ => cases h
    exact htrunc ▸ Binary64.exists_toInt?_trunc hfinite

end DType

/-! ## Rounded values -/

namespace Value

/-- The scalar, or the elements of the tensor, each with its element type. -/
def elements : Value → List (DType × Binary64)
  | scalar dtype x => [(dtype, x)]
  | tensor t => t.data.data.toList.map (t.dtype, ·)
  | index _ | unit => []

/-- Rounding leaves the elements as they are. -/
def Rounded (value : Value) : Prop := ∀ e ∈ value.elements, e.1.round e.2 = e.2

theorem rounded_index (n : Int) : (index n).Rounded := nofun

theorem rounded_unit : unit.Rounded := nofun

theorem rounded_tensor (t : Tensor) : (tensor t).Rounded := by
  rintro e he
  obtain ⟨x, hx, rfl⟩ := List.mem_map.1 he
  exact t.rounded x (Array.mem_toList_iff.1 hx)

theorem rounded_roundedScalar (dtype : DType) (x : Binary64) :
    (roundedScalar dtype x).Rounded := by
  rintro e he
  obtain rfl := List.mem_singleton.1 he
  exact dtype.round_round x

end Value

/-- Whatever value the computation gives is rounded. -/
def GivesRounded (x : Except EvalError Value) : Prop := ∀ value, x = .ok value → value.Rounded

namespace GivesRounded

theorem ok {value : Value} (h : value.Rounded) : GivesRounded (.ok value) := by
  rintro _ ⟨⟩
  exact h

theorem error (e : EvalError) : GivesRounded (.error e) := nofun

theorem bind {α : Type} {x : Except EvalError α} {f : α → Except EvalError Value}
    (h : ∀ a, GivesRounded (f a)) : GivesRounded (x >>= f) := by
  intro value hvalue
  obtain ⟨a, -, ha⟩ := Except.bind_eq_ok.1 hvalue
  exact h a value ha

theorem tensorResult (type : ValueType) (data : NdArray Binary64) :
    GivesRounded (tensorResult type data) := by
  unfold TensorLowering.tensorResult
  split
  · exact ok (Value.rounded_tensor _)
  · exact error _

theorem arrayResult (type : ValueType) (data : Except ArrayError (NdArray Binary64)) :
    GivesRounded (arrayResult type data) :=
  bind fun _ => tensorResult type _

end GivesRounded

namespace Env

/-- The values that are held are rounded. -/
def Rounded (env : Env) : Prop := ∀ id value, env.get? id = some value → value.Rounded

theorem rounded_empty : empty.Rounded := by
  intro id value h
  rw [get?_empty] at h
  cases h

theorem Rounded.insert {env : Env} {value : Value} (h : env.Rounded) (hvalue : value.Rounded)
    (id : ValueId) : (env.insert id value).Rounded := by
  intro other w hw
  rw [get?_insert] at hw
  split at hw
  · cases hw
    exact hvalue
  · exact h other w hw

end Env

/-- In rounded values, a node is evaluated to one. -/
theorem givesRounded_evalNode {env : Env} (h : env.Rounded) (input : String → Option Tensor)
    (node : Node) : GivesRounded (evalNode (.ofInputs input) env node) := by
  obtain ⟨op, type⟩ := node
  cases op with
  | input name =>
      simp only [evalNode]
      split
      · exact .error _
      · exact .bind fun _ => .ok (Value.rounded_tensor _)
  | constant value =>
      simp only [evalNode]
      split
      · exact .ok (Value.rounded_index _)
      · exact .ok (Value.rounded_roundedScalar _ _)
      · exact .error _
  -- The storage is handed on.
  | makeQuantized storage scale zeroPoint =>
      exact fun value hvalue => h storage value (Env.get_eq_ok.1 hvalue)
  | host op => exact .error _
  | dim source axis =>
      refine .bind fun t => ?_
      split
      · exact .ok (Value.rounded_index _)
      · exact .error _
  | arith op lhs rhs =>
      refine .bind fun a => .bind fun b => ?_
      split
      · exact .error _
      · split
        · exact .ok (Value.rounded_roundedScalar _ _)
        · exact .ok (Value.rounded_index _)
  | scalarCast value =>
      refine .bind fun x => ?_
      split
      · exact .ok (Value.rounded_roundedScalar _ _)
      · exact .ok (Value.rounded_index _)
  | guard g =>
      refine .bind fun holds => ?_
      split
      · exact .ok Value.rounded_unit
      · exact .error _
  | fill sizes value | broadcast input sizes added | broadcastTo input sizes
  | expandShape input groups sizes | pad input low high value =>
      exact .bind fun _ => .bind fun _ => .arrayResult _ _
  | transpose input perm => exact .bind fun _ => .bind fun _ => .tensorResult _ _
  | collapseShape input groups => exact .bind fun _ => .bind fun _ => .arrayResult _ _
  | flip input axes | narrow input axis start len | squeeze input axis | unsqueeze input axis
  | sum input axis =>
      exact .bind fun _ => .arrayResult _ _
  | insertSlice source dest offsets strides =>
      exact .bind fun _ => .bind fun _ => .bind fun _ => .arrayResult _ _
  | elementwise op lhs rhs =>
      refine .bind fun a => .bind fun v => ?_
      split
      · exact .arrayResult _ _
      · exact .bind fun _ => .tensorResult _ _
  | convert input => exact .bind fun _ => .tensorResult _ _
  | cast input => exact .bind fun t => .bind fun _ => .ok (Value.rounded_tensor t)
  | reduce spec lhs rhs zeroPoints init =>
      refine .bind fun zs => ?_
      split
      · exact .error _
      · exact .bind fun _ => .bind fun _ => .bind fun _ => .arrayResult _ _

namespace Graph

variable {g : Graph} {input : String → Option Tensor} {env env' : Env} {id : ValueId}
  {ids : List ValueId} {value : Value}

/-- A run keeps values rounded. -/
theorem rounded_evalFrom (h : env.Rounded)
    (heval : g.evalFrom (.ofInputs input) env ids = .ok env') : env'.Rounded := by
  induction ids generalizing env with
  | nil =>
      cases heval
      exact h
  | cons x ids ih =>
      obtain ⟨env₁, hstep, hrest⟩ := evalFrom_cons.1 heval
      obtain ⟨node, value, -, hvalue, rfl⟩ := evalStep_eq_ok.1 hstep
      exact ih (h.insert (givesRounded_evalNode h input node value hvalue) x) hrest

/-- Integers of at most 32 bits that a run computes are in the range of their type, whatever the
program and its inputs are, and finite integers of 64 bits have no fraction. -/
theorem integers_of_evaluate (heval : g.evaluate (.ofInputs input) = .ok env)
    (hget : env.get? id = some value) :
    (∀ e ∈ value.elements, e.1.IsShortInteger → ∃ n, e.2.toInt? = some n ∧ e.1.Contains n) ∧
      ∀ e ∈ value.elements, e.1.isInteger = true → e.2.isFinite = true →
        ∃ n, e.2.toInt? = some n := by
  have hrounded : value.Rounded := rounded_evalFrom Env.rounded_empty heval id value hget
  exact ⟨fun e he hshort => hshort.exists_toInt? (hrounded e he),
    fun e he hinteger => DType.exists_toInt?_of_isInteger hinteger (hrounded e he)⟩

section Squares

/-- A program that squares an integer. -/
def squares (dtype : DType) : Graph where
  nodes := #[⟨.input "x", .tensor ⟨dtype, .ofSizes [1]⟩⟩,
    ⟨.elementwise .mul ⟨0⟩ ⟨0⟩, .tensor ⟨dtype, .ofSizes [1]⟩⟩]
  schedule := [⟨0⟩, ⟨1⟩]
  outputs := [⟨1⟩]

theorem evaluate_squares {dtype : DType} {x y : Tensor}
    (hx : x.check (.tensor ⟨dtype, .ofSizes [1]⟩) = .ok ())
    (hy : arrayResult (.tensor ⟨dtype, .ofSizes [1]⟩)
      (x.data.zipWith ElementwiseOp.mul.apply x.data) = .ok (.tensor y)) :
    (squares dtype).evaluate (.ofInputs fun _ => some x) =
      .ok ((Env.empty.insert ⟨0⟩ (.tensor x)).insert ⟨1⟩ (.tensor y)) := by
  simp [evaluate, evalFrom, evalStep, squares, node?, bind, Except.bind, pure, Except.pure,
    evalNode, Supply.ofInputs, hx, hy, Env.tensor, Env.get, Env.get?_insert, Value.toTensor]

/-- A tensor of one integer. -/
def oneInteger (dtype : DType) (n : Int) : Tensor := .ofArray dtype (.ofFn [1] fun _ => .ofInt n)

theorem check_oneInteger (dtype : DType) (n : Int) :
    (oneInteger dtype n).check (.tensor ⟨dtype, .ofSizes [1]⟩) = .ok () := by
  have hshape : (oneInteger dtype n).shape = [1] := rfl
  have hdtype : (oneInteger dtype n).dtype = dtype := rfl
  have hadmits : (Shape.ofSizes [1]).Admits [1] := by decide
  simp [Tensor.check, ValueType.tensor?, hshape, hdtype, hadmits]

/-- The square of 200 wraps. -/
theorem squares_wrap : ∃ env, (squares (.unsigned .w8)).evaluate
      (.ofInputs fun _ => some (oneInteger (.unsigned .w8) 200)) = .ok env ∧
    env.get? ⟨1⟩ = some (.tensor (oneInteger (.unsigned .w8) 64)) ∧
    ∀ e ∈ (Value.tensor (oneInteger (.unsigned .w8) 64)).elements, e.1.IsShortInteger →
      ∃ n, e.2.toInt? = some n ∧ e.1.Contains n := by
  have heval := evaluate_squares (check_oneInteger (.unsigned .w8) 200)
    (y := oneInteger (.unsigned .w8) 64) (by decide +kernel)
  have hget : ((Env.empty.insert ⟨0⟩ (.tensor (oneInteger (.unsigned .w8) 200))).insert ⟨1⟩
      (.tensor (oneInteger (.unsigned .w8) 64))).get? ⟨1⟩ =
      some (.tensor (oneInteger (.unsigned .w8) 64)) := by
    rw [Env.get?_insert, if_pos rfl]
  exact ⟨_, heval, hget, (integers_of_evaluate heval hget).1⟩

/-- The square of `2 ^ 32` leaves the range of its type. -/
theorem squares_leave_range : ∃ t env value,
    Tensor.ofData (.signed .w64) [1] #[.ofInt 4294967296] = .ok t ∧
      (squares (.signed .w64)).evaluate (.ofInputs fun _ => some t) = .ok env ∧
      env.get? ⟨1⟩ = some value ∧
      ∃ e ∈ value.elements, e.1 = .signed .w64 ∧
        ∀ n, e.2.toInt? = some n → ¬ e.1.Contains n := by
  have heval := evaluate_squares (check_oneInteger (.signed .w64) 4294967296)
    (y := oneInteger (.signed .w64) 18446744073709551616) (by decide +kernel)
  refine ⟨_, _, _, ?_, heval, by rw [Env.get?_insert, if_pos rfl],
    (.signed .w64, .ofInt 18446744073709551616), by decide +kernel, rfl, ?_⟩
  · decide +kernel
  · intro n hn
    have hvalue : (Binary64.ofInt 18446744073709551616).toInt? = some 18446744073709551616 := by
      decide +kernel
    obtain rfl : 18446744073709551616 = n := Option.some.inj (hvalue.symm.trans hn)
    decide

end Squares

end Graph

end TensorLowering
