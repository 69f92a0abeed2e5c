import Std.Data.HashMap
import TensorLowering.Graph.Basic

/-!
# Schedules

Editing and checking the schedule of a program: where values are inserted, which uses are
redirected, which nodes are dead, and whether every value is computed before it is read.
-/
namespace TensorLowering.Graph

/-- Puts `ids` before the first occurrence of `anchor`, if there is one. -/
def insertAt? (anchor : ValueId) (ids : List ValueId) : List ValueId → Option (List ValueId)
  | [] => none
  | s :: rest =>
      if s = anchor then some (ids ++ s :: rest)
      else (insertAt? anchor ids rest).map (s :: ·)

/-- Schedules `ids` immediately before `anchor`. -/
def insertBefore (g : Graph) (anchor : ValueId) (ids : List ValueId) : Except GraphError Graph :=
  match insertAt? anchor ids g.schedule with
  | some schedule => .ok { g with schedule }
  | none => .error (.unknownValue anchor)

/-- Takes a value off the schedule. Its node stays. -/
def erase (g : Graph) (id : ValueId) : Graph :=
  { g with schedule := g.schedule.filter (· ≠ id) }

/-- Reads `target` wherever `source` was read, in every node and among the outputs. -/
def replaceAllUses (g : Graph) (source target : ValueId) : Graph :=
  let redirect := fun v => if v = source then target else v
  { g with
    nodes := g.nodes.map fun node => { node with op := node.op.mapOperands redirect }
    outputs := g.outputs.map redirect }

/-- The scheduled host operators, in order. -/
def hostOps? (g : Graph) : Option (List ValueId) :=
  g.scheduled?.map fun entries => (entries.filter fun (_, node) => node.op.isHost).map Prod.fst

/-- The scheduled nodes that read a value. -/
def users? (g : Graph) (id : ValueId) : Option (List ValueId) :=
  g.scheduled?.map fun entries =>
    (entries.filter fun (_, node) => node.op.operands.contains id).map Prod.fst

/-- The live entries of a schedule, and the values that they and the outputs read: an entry is live
when it is not pure, or when an output or a later live entry reads it. -/
def liveEntries (outputs : List ValueId) :
    List (ValueId × Node) → List ValueId × List ValueId
  | [] => ([], outputs)
  | (id, node) :: rest =>
      let (kept, used) := liveEntries outputs rest
      if used.contains id || !node.op.isPure then (id :: kept, node.op.operands ++ used)
      else (kept, used)

/-- Takes dead nodes off the schedule. -/
def pruneDead? (g : Graph) : Option Graph :=
  g.scheduled?.map fun entries => { g with schedule := (liveEntries g.outputs entries).1 }

/-- Takes dead nodes off the schedule, and counts the entries that it loses. -/
def prune? (g : Graph) : Option (Graph × Nat) :=
  g.pruneDead?.map fun pruned => (pruned, g.schedule.length - pruned.schedule.length)

/-- The last position at which each value is scheduled. -/
def lastPositions (g : Graph) : Std.HashMap ValueId Nat :=
  g.schedule.zipIdx.foldl (fun last entry => last.insert entry.1 entry.2) ∅

/-- The last position at which a value is scheduled. -/
def position? (g : Graph) (id : ValueId) : Option Nat :=
  (g.schedule.zipIdx.findRev? fun entry => entry.1 == id).map Prod.snd

theorem getElem?_foldl_insert (entries : List (ValueId × Nat)) (last : Std.HashMap ValueId Nat)
    (id : ValueId) :
    (entries.foldl (fun last entry => last.insert entry.1 entry.2) last)[id]? =
      ((entries.findRev? fun entry => entry.1 == id).map Prod.snd).or last[id]? := by
  induction entries generalizing last with
  | nil => simp [List.findRev?]
  | cons entry entries ih =>
      rw [List.foldl_cons, ih, Std.HashMap.getElem?_insert, List.findRev?]
      cases entries.findRev? fun entry => entry.1 == id with
      | some later => rfl
      | none => by_cases h : entry.1 == id <;> simp [h]

/-- The table of last positions holds the last position of every value. -/
theorem getElem?_lastPositions (g : Graph) (id : ValueId) :
    g.lastPositions[id]? = g.position? id := by
  rw [lastPositions, getElem?_foldl_insert, position?, Std.HashMap.getElem?_empty, Option.or_none]

/-- Checks that every operand of the value scheduled at position `i` comes before it. -/
def verifyEntry (g : Graph) (last : Std.HashMap ValueId Nat) (user : ValueId) (i : Nat) :
    Except GraphError Unit := do
  let node ← g.node user
  match node.op.operands.find? fun v => !(last[v]?).any (· < i) with
  | some operand => throw (.useBeforeDef user operand)
  | none => return

/-- Checks that scheduled nodes read only values scheduled before them, and that every output is
scheduled. -/
def verify (g : Graph) : Except GraphError Unit := do
  let last := g.lastPositions
  g.schedule.zipIdx.forM fun (user, i) => g.verifyEntry last user i
  match g.outputs.find? fun out => !g.schedule.contains out with
  | some out => throw (.unknownValue out)
  | none => return

end TensorLowering.Graph
