import TensorLowering.Graph.Error
import TensorLowering.Op.Operands
import TensorLowering.Op.Traits

/-!
# Programs

A program holds its nodes in the order of their creation and a schedule that lists the values to
compute. A node can exist without being scheduled: a lowering creates its nodes first, and they are
scheduled once it has succeeded. Nothing forces the schedule to name existing nodes, or operands to
come before their users; `verify` checks both.
-/
namespace TensorLowering

structure Node where
  op : Op
  type : ValueType
  deriving DecidableEq

structure Graph where
  nodes : Array Node
  schedule : List ValueId
  outputs : List ValueId
  deriving DecidableEq

namespace Graph

def empty : Graph := ⟨#[], [], []⟩

/-- The number of nodes, scheduled or not. -/
def size (g : Graph) : Nat := g.nodes.size

def isEmpty (g : Graph) : Bool := g.nodes.isEmpty

def node? (g : Graph) (id : ValueId) : Option Node := g.nodes[id.index]?

def node (g : Graph) (id : ValueId) : Except GraphError Node :=
  match g.node? id with
  | some node => .ok node
  | none => .error (.unknownValue id)

def typeOf (g : Graph) (id : ValueId) : Except GraphError ValueType :=
  (g.node id).map Node.type

def tensorType (g : Graph) (id : ValueId) : Except GraphError TensorType := do
  let type ← g.typeOf id
  match type.tensor? with
  | some t => return t
  | none => throw (.notATensor id type)

/-- The value that the next node will define. -/
def nextId (g : Graph) : ValueId := ⟨g.size⟩

/-- Adds a node without scheduling it. It defines `nextId`. -/
def create (g : Graph) (op : Op) (type : ValueType) : Graph :=
  { g with nodes := g.nodes.push ⟨op, type⟩ }

/-- Schedules values at the end. -/
def append (g : Graph) (ids : List ValueId) : Graph := { g with schedule := g.schedule ++ ids }

/-- Adds a node and schedules it last. -/
def push (g : Graph) (op : Op) (type : ValueType) : Graph := (g.create op type).append [g.nextId]

def pushInput (g : Graph) (name : String) (type : TensorType) : Graph :=
  g.push (.input name) (.tensor type)

def pushConstant (g : Graph) (value : Scalar) (type : ValueType) : Graph :=
  g.push (.constant value) type

def withOutputs (g : Graph) (outputs : List ValueId) : Graph := { g with outputs }

/-- Keeps the first `n` nodes. -/
def truncate (g : Graph) (n : Nat) : Graph := { g with nodes := g.nodes.take n }

/-- The scheduled values with their nodes, when every one of them has a node. -/
def scheduled? (g : Graph) : Option (List (ValueId × Node)) :=
  g.schedule.mapM fun id => (g.node? id).map (id, ·)

@[simp] theorem size_create (g : Graph) (op : Op) (type : ValueType) :
    (g.create op type).size = g.size + 1 := by
  simp [create, size]

@[simp] theorem node?_create_self (g : Graph) (op : Op) (type : ValueType) :
    (g.create op type).node? g.nextId = some ⟨op, type⟩ := by
  simp [create, node?, nextId, size]

theorem node?_create_of_lt (g : Graph) (op : Op) (type : ValueType) {id : ValueId}
    (h : id.index < g.size) : (g.create op type).node? id = g.node? id := by
  have hne : id.index ≠ g.nodes.size := Nat.ne_of_lt h
  simp [create, node?, Array.getElem?_push, hne]

end Graph

end TensorLowering
