import TensorLowering.NdArray.Basic
import TensorLowering.NdArray.Error
import TensorLowering.Numeric.Binary64
import TensorLowering.Reduction.Spec

/-!
# Running a reduction

The bounds of the loops are read off the operands: an axis that a map addresses with a plain loop
variable bounds that loop. The points of the resulting box are visited in order, and each adds one
term to the element of the output that it is mapped to.
-/
namespace TensorLowering.NdArray

open Numeric

/-- The bounds found so far, one per loop. -/
abbrev LoopBounds := List (Option Nat)

/-- Binds a loop to the size of an axis. -/
def bindLoop (bounds : LoopBounds) (loop size : Nat) : Except ArrayError LoopBounds :=
  match bounds[loop]? with
  | none => .error (.unknownLoop loop)
  | some none => .ok (bounds.set loop (some size))
  | some (some bound) =>
      if bound = size then .ok bounds else .error (.loopClash loop bound size)

/-- Binds the loops that a map uses as they are to the sizes of the axes that they address. -/
def bindMap (bounds : LoopBounds) (operand : Nat) (map : AffineMap) (shape : List Nat) :
    Except ArrayError LoopBounds :=
  if map.results.length ≠ shape.length then
    .error (.operandRank operand shape.length map.results.length)
  else (map.results.zip shape).foldlM (fun bounds (expr, size) =>
    match expr.asDim? with
    | some loop => bindLoop bounds loop size
    | none => .ok bounds) bounds

/-- The bounds of all loops. -/
def loopBounds (ix : Indexing) (shapes : List (List Nat)) : Except ArrayError (List Nat) := do
  let bounds ← (ix.maps.zip shapes).zipIdx.foldlM (fun bounds ((map, shape), operand) =>
    bindMap bounds operand map shape) (List.replicate ix.numLoops none)
  bounds.zipIdx.mapM fun (bound, loop) =>
    match bound with
    | some n => .ok n
    | none => .error (.unboundLoop loop)

/-- The coordinates as a position of the shape, when they are one. -/
def position? : (shape : List Nat) → (coordinates : List Int) → Option (List Nat)
  | [], [] => some []
  | n :: shape, i :: coordinates =>
      if 0 ≤ i ∧ i < n then (position? shape coordinates).map (i.toNat :: ·) else none
  | _, _ => none

theorem position?_eq_some {shape : List Nat} {coordinates : List Int} {ix : List Nat} :
    position? shape coordinates = some ix ↔
      InBounds shape ix ∧ coordinates = ix.map Int.ofNat := by
  induction shape generalizing coordinates ix with
  | nil => cases coordinates <;> cases ix <;> simp [position?, InBounds]
  | cons n shape ih =>
      cases coordinates with
      | nil => cases ix <;> simp [position?, InBounds]
      | cons i coordinates =>
          cases ix with
          | nil => simp [position?, InBounds]
          | cons j ix =>
              simp only [position?, InBounds, List.map_cons, List.cons.injEq, Int.ofNat_eq_natCast]
              split
              · next hi =>
                  simp only [Option.map_eq_some_iff, ih, List.cons.injEq]
                  constructor
                  · rintro ⟨ix, ⟨hix, hc⟩, hj, rfl⟩
                    exact ⟨⟨by omega, hix⟩, by omega, hc⟩
                  · rintro ⟨⟨_, hix⟩, hj, hc⟩
                    exact ⟨ix, ⟨hix, hc⟩, by omega, rfl⟩
              · next hi =>
                  simp only [reduceCtorEq, false_iff]
                  rintro ⟨⟨hj, _⟩, rfl, _⟩
                  exact hi ⟨Int.natCast_nonneg j, Int.ofNat_lt.2 hj⟩

/-- The term that two elements contribute. -/
def term (combine : Combine) (zeroPoints : Binary64 × Binary64) (x y : Binary64) : Binary64 :=
  match combine with
  | .mulAdd => x * y
  | .quantizedMulAdd => (x - zeroPoints.1) * (y - zeroPoints.2)

/-- Where the three maps send a point of the loops. -/
def mapped? (ix : Indexing) (point : List Nat) :
    Except ArrayError (List Int × List Int × List Int) :=
  match ix.maps with
  | lhs :: rhs :: out :: _ =>
      let point := point.map Int.ofNat
      match lhs.eval? point, rhs.eval? point, out.eval? point with
      | some l, some r, some o => .ok (l, r, o)
      | _, _, _ => .error .missingLoop
  | _ => .error .missingMap

/-- Adds the term of one point. -/
def accumulate (ix : Indexing) (combine : Combine) (zeroPoints : Binary64 × Binary64)
    (lhs rhs out : NdArray Binary64) (point : List Nat) :
    Except ArrayError (NdArray Binary64) := do
  let (l, r, o) ← mapped? ix point
  match position? lhs.shape l, position? rhs.shape r, position? out.shape o with
  | some l, some r, some o =>
      return out.modify o (· + term combine zeroPoints (lhs.entry l) (rhs.entry r))
  | _, _, _ => throw (.pointOutside point)

/-- Runs the loops over an initial output. Loops without an iteration leave it as it is. -/
def reduce (ix : Indexing) (combine : Combine) (lhs rhs : NdArray Binary64)
    (zeroPoints : Binary64 × Binary64) (init : NdArray Binary64) :
    Except ArrayError (NdArray Binary64) := do
  let bounds ← loopBounds ix [lhs.shape, rhs.shape, init.shape]
  if bounds.contains 0 then
    return init
  visit (accumulate ix combine zeroPoints lhs rhs) bounds init

end TensorLowering.NdArray
