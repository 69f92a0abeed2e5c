import TensorLowering.Graph.Schedule
import TensorLowering.Lowering.Error

/-!
# Construction of nodes

A construction describes the nodes that replace an operator. It can look at the program built so
far, create nodes, and fail; it has no way to change what is there. It runs on a draft: a program
with the nodes created so far at its end, none of them scheduled. A draft is committed by scheduling
the created nodes, or discarded by removing them.
-/
namespace TensorLowering

structure Draft where
  graph : Graph
  /-- The number of nodes before the first one was created. -/
  base : Nat
  /-- The values of the created nodes, in order. -/
  created : Array ValueId

namespace Draft

def ofGraph (g : Graph) : Draft := ⟨g, g.size, #[]⟩

def emit (d : Draft) (op : Op) (type : ValueType) : Draft :=
  let id := d.graph.nextId
  { d with graph := d.graph.create op type, created := d.created.push id }

/-- The program with the created nodes scheduled last. -/
def commit (d : Draft) : Graph := d.graph.append d.created.toList

/-- The program with the created nodes scheduled immediately before `anchor`. -/
def commitBefore (d : Draft) (anchor : ValueId) : Except GraphError Graph :=
  d.graph.insertBefore anchor d.created.toList

/-- The program without the created nodes. -/
def discard (d : Draft) : Graph := d.graph.truncate d.base

end Draft

inductive Build (α : Type) where
  | done (result : α)
  | fail (error : LowerError)
  | inspect (next : Graph → Build α)
  | emit (op : Op) (type : ValueType) (next : ValueId → Build α)

namespace Build

variable {α β : Type}

def bind : Build α → (α → Build β) → Build β
  | done a, f => f a
  | fail e, _ => fail e
  | inspect next, f => inspect fun g => (next g).bind f
  | emit op type next, f => emit op type fun v => (next v).bind f

instance : Monad Build where
  pure := done
  bind := bind

/-- The result, and the draft with the nodes created up to the end or up to the failure. -/
def run : Build α → Draft → Except LowerError α × Draft
  | done a, d => (.ok a, d)
  | fail e, d => (.error e, d)
  | inspect next, d => (next d.graph).run d
  | emit op type next, d => (next d.graph.nextId).run (d.emit op type)

theorem bind_done (b : Build α) : b.bind done = b := by
  induction b with
  | done | fail => rfl
  | inspect next ih => simp [bind, ih]
  | emit op type next ih => simp [bind, ih]

theorem bind_assoc {γ : Type} (b : Build α) (f : α → Build β) (g : β → Build γ) :
    (b.bind f).bind g = b.bind fun a => (f a).bind g := by
  induction b with
  | done | fail => rfl
  | inspect next ih => simp [bind, ih]
  | emit op type next ih => simp [bind, ih]

instance : LawfulMonad Build :=
  LawfulMonad.mk' Build bind_done (fun _ _ => rfl) bind_assoc

theorem run_bind (b : Build α) (f : α → Build β) (d : Draft) :
    (b >>= f).run d =
      match b.run d with
      | (.ok a, d') => (f a).run d'
      | (.error e, d') => (.error e, d') := by
  change (b.bind f).run d = _
  induction b generalizing d with
  | done | fail => rfl
  | inspect next ih => exact ih d.graph d
  | emit op type next ih => exact ih _ _

@[simp] theorem run_pure (a : α) (d : Draft) : (pure a : Build α).run d = (.ok a, d) := rfl

/-- A query of the program built so far. -/
def query (f : Graph → Except GraphError α) : Build α :=
  inspect fun g =>
    match f g with
    | .ok a => done a
    | .error e => fail (.graph e)

def decline (reason : DeclineReason) : Build α := fail (.noMatch reason)

def ofExcept : Except LowerError α → Build α
  | .ok a => done a
  | .error e => fail e

def create (op : Op) (type : ValueType) : Build ValueId := emit op type done

def createTensor (op : Op) (dtype : DType) (shape : Shape) : Build ValueId :=
  create op (.tensor ⟨dtype, shape⟩)

def tensorType (v : ValueId) : Build TensorType := query (·.tensorType v)

theorem run_query (f : Graph → Except GraphError α) (d : Draft) :
    (query f).run d =
      match f d.graph with
      | .ok a => (.ok a, d)
      | .error e => (.error (.graph e), d) := by
  simp only [query, run]
  cases f d.graph <;> rfl

@[simp] theorem run_create (op : Op) (type : ValueType) (d : Draft) :
    (create op type).run d = (.ok d.graph.nextId, d.emit op type) := rfl

end Build

end TensorLowering
