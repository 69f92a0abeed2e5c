import TensorLowering.Op.Basic
import TensorLowering.Text

/-!
# Traits of operations

A trait is a static property of an operation. A set of traits is a word with one bit per trait; it
is written as the names of its traits, and bits that belong to none are written as one number.
-/
namespace TensorLowering

inductive OpTrait where
  | pure
  | sideEffect
  | view
  | reduction
  | host
  | scalar
  | interface
  deriving DecidableEq

namespace OpTrait

/-- Every trait, in the order of its bit. -/
def all : List OpTrait := [pure, sideEffect, view, reduction, host, scalar, interface]

def bit : OpTrait → Nat
  | pure => 0
  | sideEffect => 1
  | view => 2
  | reduction => 3
  | host => 4
  | scalar => 5
  | interface => 6

def name : OpTrait → String
  | pure => "PURE"
  | sideEffect => "SIDE_EFFECT"
  | view => "VIEW"
  | reduction => "REDUCTION"
  | host => "HOST"
  | scalar => "SCALAR"
  | interface => "INTERFACE"

def ofName? (s : String) : Option OpTrait := all.find? (·.name == s)

end OpTrait

/-- A word of 32 bits, one for each trait and some to spare. -/
structure OpTraits where
  word : BitVec 32
  deriving DecidableEq

namespace OpTraits

def empty : OpTraits := ⟨0⟩

def contains (s : OpTraits) (t : OpTrait) : Bool := s.word.getLsbD t.bit

def insert (s : OpTraits) (t : OpTrait) : OpTraits := ⟨s.word ||| BitVec.twoPow 32 t.bit⟩

def ofList (ts : List OpTrait) : OpTraits := ts.foldl insert empty

def toList (s : OpTraits) : List OpTrait := OpTrait.all.filter s.contains

/-- The bits that belong to no trait. -/
def spare (s : OpTraits) : BitVec 32 := s.word &&& ~~~(ofList OpTrait.all).word

def render (s : OpTraits) : String :=
  let spare := if s.spare = 0 then [] else ["0x" ++ Text.Hexadecimal.render s.spare.toNat 0]
  " | ".intercalate (s.toList.map OpTrait.name ++ spare)

/-- The word written in hexadecimal, with or without a plus sign before it. -/
def word? (numeral : List Char) : Option (BitVec 32) := do
  let digits := match numeral with
    | '+' :: rest => rest
    | digits => digits
  let n ← Text.Hexadecimal.value? digits
  if n < Numeric.twoPow 32 then some (BitVec.ofNat 32 n) else none

/-- The characters that may stand around a name: the blanks of the Unicode standard. -/
def isBlank (c : Char) : Bool :=
  let n := c.toNat
  (9 ≤ n && n ≤ 13) || n == 0x20 || n == 0x85 || n == 0xa0 || n == 0x1680 ||
    (0x2000 ≤ n && n ≤ 0x200a) || n == 0x2028 || n == 0x2029 || n == 0x202f || n == 0x205f ||
    n == 0x3000

def trim (s : List Char) : List Char :=
  ((s.dropWhile isBlank).reverse.dropWhile isBlank).reverse

/-- One entry: the name of a trait, or a number. -/
def entry? (s : List Char) : Option (BitVec 32) :=
  match s with
  | '0' :: 'x' :: digits => word? digits
  | s => (OpTrait.ofName? (String.ofList s)).map fun t => BitVec.twoPow 32 t.bit

/-- Reads entries separated by bars; blanks alone are the empty set. -/
def parse? (s : String) : Option OpTraits :=
  let cs := s.toList
  if (trim cs).isEmpty then some empty
  else do
    let entries ← (cs.splitOn '|').mapM fun e => entry? (trim e)
    return ⟨entries.foldl (· ||| ·) 0⟩

end OpTraits

def Op.traits : Op → OpTraits
  | .input .. => .ofList [.interface]
  | .constant .. | .dim .. | .arith .. | .scalarCast .. => .ofList [.pure, .scalar]
  | .guard .. => .ofList [.sideEffect, .scalar]
  | .host .. => .ofList [.host]
  | .makeQuantized .. | .transpose .. | .expandShape .. | .collapseShape .. | .squeeze ..
  | .unsqueeze .. | .narrow .. | .cast .. => .ofList [.pure, .view]
  | .reduce .. => .ofList [.pure, .reduction]
  | .fill .. | .broadcast .. | .broadcastTo .. | .flip .. | .pad .. | .insertSlice ..
  | .elementwise .. | .sum .. | .convert .. => .ofList [.pure]

/-- The operation may be dropped when nothing reads its result. -/
def Op.isPure (op : Op) : Bool := op.traits.contains .pure

/-- The operation waits to be lowered. -/
def Op.isHost (op : Op) : Bool := op.traits.contains .host

theorem Op.isHost_iff (op : Op) : op.isHost = true ↔ ∃ h, op = .host h := by
  cases op <;> simp [isHost, traits] <;> decide

end TensorLowering
