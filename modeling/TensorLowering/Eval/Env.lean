import Std.Data.HashMap
import TensorLowering.Eval.Value

/-!
# Environments

The values computed so far. Reading a value that is absent or of the wrong kind is an error.
-/
namespace TensorLowering

open Numeric

structure Env where
  values : Std.HashMap ValueId Value

namespace Env

def empty : Env := ⟨∅⟩

def get? (env : Env) (id : ValueId) : Option Value := env.values[id]?

def insert (env : Env) (id : ValueId) (value : Value) : Env := ⟨env.values.insert id value⟩

/-- The number of values held. -/
def size (env : Env) : Nat := env.values.size

@[simp] theorem get?_empty (id : ValueId) : empty.get? id = none := by
  simp [empty, get?]

theorem get?_insert (env : Env) (id other : ValueId) (value : Value) :
    (env.insert id value).get? other = if id = other then some value else env.get? other := by
  simp [insert, get?, Std.HashMap.getElem?_insert]

def get (env : Env) (id : ValueId) : Except EvalError Value :=
  match env.get? id with
  | some value => .ok value
  | none => .error (.unbound id)

def index (env : Env) (id : ValueId) : Except EvalError Int := do
  match ← env.get id with
  | .index n => return n
  | other => throw (.type (.kind "index" other.kind))

/-- The number that an index or a scalar stands for. -/
def number (env : Env) (id : ValueId) : Except EvalError Binary64 := do
  match ← env.get id with
  | .index n => return .ofInt n
  | .scalar _ x => return x
  | other => throw (.type (.kind "scalar" other.kind))

def tensor (env : Env) (id : ValueId) : Except EvalError Tensor := do (← env.get id).toTensor

/-- Run-time sizes, none of them negative. -/
def sizes (env : Env) (ids : List ValueId) : Except EvalError (List Nat) :=
  ids.mapM fun id => do
    let n ← env.index id
    if n < 0 then throw (.array (.negativeSize n)) else return n.toNat

end Env

end TensorLowering
