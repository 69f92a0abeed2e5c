import TensorLowering.Proofs.Evaluation.Runs
import TensorLowering.Proofs.NdArray.Tensors

/-!
# Values of declared types

A value has a declared type if it is of that kind, with the declared element type, the declared rank
and every size that the declaration knows. What a node gives has the element type that it declares.
-/
namespace TensorLowering

open Numeric NdArray

/-- The tensor has the element type, the rank and the static sizes of the type. -/
structure Tensor.HasType (t : Tensor) (type : TensorType) : Prop where
  dtype : t.dtype = type.dtype
  admits : type.shape.Admits t.shape

instance (t : Tensor) (type : TensorType) : Decidable (t.HasType type) :=
  decidable_of_iff (t.dtype = type.dtype ∧ type.shape.Admits t.shape)
    ⟨fun h => ⟨h.1, h.2⟩, fun h => ⟨h.1, h.2⟩⟩

namespace Value

inductive HasType : Value → ValueType → Prop
  | index (n : Int) : HasType (.index n) .index
  | scalar (dtype : DType) (x : Binary64) : HasType (.scalar dtype x) (.scalar dtype)
  | tensor {t : Tensor} {type : TensorType} (h : t.HasType type) :
      HasType (.tensor t) (.tensor type)
  | unit : HasType .unit .unit

/-- Indices and sizes are below `2 ^ 53`, in magnitude. -/
def Small : Value → Prop
  | index n => n.natAbs < twoPow 53
  | tensor t => ∀ n ∈ t.shape, n < twoPow 53
  | scalar .. | unit => True

instance : DecidablePred Small
  | index n => inferInstanceAs (Decidable (n.natAbs < twoPow 53))
  | tensor t => inferInstanceAs (Decidable (∀ n ∈ t.shape, n < twoPow 53))
  | scalar .. => inferInstanceAs (Decidable True)
  | unit => inferInstanceAs (Decidable True)

end Value

theorem Tensor.check_eq_ok {t : Tensor} {type : TensorType} :
    t.check (.tensor type) = .ok () ↔ t.HasType type := by
  simp only [check, ValueType.tensor?]
  split
  next hne => exact iff_of_false (fun h => by cases h) fun h => hne h.dtype
  next heq =>
    split
    next hadmits => exact iff_of_true rfl ⟨Decidable.not_not.1 heq, hadmits⟩
    next hnot => exact iff_of_false (fun h => by cases h) fun h => hnot h.admits

section Results

variable {dtype : DType} {shape : Shape} {type : TensorType} {value : Value}

/-- A result of the declared rank and static sizes has the declared type. -/
theorem hasType_ofArray {a : NdArray Binary64} (h : shape.Admits a.shape) :
    (Value.tensor (.ofArray dtype a)).HasType (.tensor ⟨dtype, shape⟩) :=
  .tensor ⟨rfl, h⟩

theorem hasType_arrayResult {result : Except ArrayError (NdArray Binary64)}
    (hvalue : arrayResult (.tensor ⟨dtype, shape⟩) result = .ok value)
    (h : ∀ a, result = .ok a → shape.Admits a.shape) : value.HasType (.tensor ⟨dtype, shape⟩) := by
  obtain ⟨a, ha, hvalue⟩ := Except.bind_eq_ok.1 hvalue
  cases hvalue
  refine hasType_ofArray (h a ?_)
  cases result with
  | ok b =>
      cases ha
      rfl
  | error e => cases ha

end Results

namespace Env

variable {env : Env} {id : ValueId}

theorem tensor_eq_ok {t : Tensor} : env.tensor id = .ok t ↔ env.get? id = some (.tensor t) := by
  rw [Env.tensor, Except.bind_eq_ok]
  constructor
  · rintro ⟨value, hvalue, ht⟩
    cases value with
    | tensor u =>
        cases ht
        exact Env.get_eq_ok.1 hvalue
    | index n => cases ht
    | scalar dtype x => cases ht
    | unit => cases ht
  · exact fun h => ⟨_, Env.get_eq_ok.2 h, rfl⟩

theorem index_eq_ok {n : Int} : env.index id = .ok n ↔ env.get? id = some (.index n) := by
  rw [Env.index, Except.bind_eq_ok]
  constructor
  · rintro ⟨value, hvalue, hn⟩
    cases value with
    | index m =>
        cases hn
        exact Env.get_eq_ok.1 hvalue
    | tensor t => cases hn
    | scalar dtype x => cases hn
    | unit => cases hn
  · exact fun h => ⟨_, Env.get_eq_ok.2 h, rfl⟩

end Env

end TensorLowering
