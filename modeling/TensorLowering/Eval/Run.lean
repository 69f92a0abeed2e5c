import TensorLowering.Eval.Node

/-!
# Running a program

The scheduled nodes are evaluated in order, each in the values computed before it.
-/
namespace TensorLowering

/-- Evaluates one scheduled value. -/
def Graph.evalStep (g : Graph) (supply : Supply) (env : Env) (id : ValueId) :
    Except EvalError Env := do
  match g.node? id with
  | none => throw (.missingNode id)
  | some node => return env.insert id (← evalNode supply env node)

/-- Evaluates a list of values, one after the other. -/
def Graph.evalFrom (g : Graph) (supply : Supply) (env : Env) (ids : List ValueId) :
    Except EvalError Env :=
  ids.foldlM (g.evalStep supply) env

/-- Every value that the program computes. -/
def Graph.evaluate (g : Graph) (supply : Supply) : Except EvalError Env :=
  g.evalFrom supply .empty g.schedule

/-- The outputs of the program. -/
def Graph.run (g : Graph) (supply : Supply) : Except EvalError (List Value) := do
  let env ← g.evaluate supply
  g.outputs.mapM env.get

end TensorLowering
