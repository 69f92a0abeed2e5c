import TensorLowering.Numeric.Int64
import TensorLowering.Numeric.Interchange
import TensorLowering.Text

/-!
# Exchange trees

Programs are exchanged as trees of records, lists, texts and numbers. A choice between alternatives
is the name of the alternative, or a record whose only field is that name with the content. A
structure is a record of its fields, where an optional field may be absent, or the list of its
fields in order. The named fields of an alternative are always a record. A double is a whole number
where it is one, and otherwise the text of its interchange word.
-/
namespace TensorLowering

open Numeric

inductive Tree where
  | null
  | bool (b : Bool)
  | int (n : Int)
  | real (x : Binary64)
  | text (s : String)
  | list (items : List Tree)
  | record (fields : List (String × Tree))
  deriving Inhabited

/-- Types whose values can be written as trees and read back. -/
class Exchange (α : Type) where
  encode : α → Tree
  decode? : Tree → Option α

export Exchange (encode decode?)

namespace Tree

/-- An alternative with content. -/
def variant {α : Type} [Exchange α] (name : String) (content : α) : Tree :=
  record [(name, encode content)]

/-- The name of an alternative and its content, if it has any. -/
def variant? : Tree → Option (String × Tree)
  | text name => some (name, null)
  | record [(name, content)] => some (name, content)
  | _ => none

/-- The name of an alternative that has no content. -/
def name? (t : Tree) : Option String :=
  match t.variant? with
  | some (name, null) => some name
  | _ => none

/-- The fields of a record with the given names, in order. The optional ones may be absent. -/
def entries? (names optional : List String) : Tree → Option (List Tree)
  | record fields => names.mapM fun name =>
      match List.lookup name fields with
      | some content => some content
      | none => if optional.contains name then some null else none
  | _ => none

/-- The fields of a structure with the given names, in order. The optional ones may be absent from
a record. -/
def fields? (names optional : List String) : Tree → Option (List Tree)
  | list items => if items.length = names.length then some items else none
  | t => t.entries? names optional

end Tree

namespace Exchange

/-- A type of named alternatives without content. -/
@[reducible] def ofNames {α : Type} [BEq α] (names : List (String × α)) : Exchange α where
  encode x := .text (((names.find? fun entry => entry.2 == x).map Prod.fst).getD "")
  decode? t := t.name?.bind fun name => List.lookup name names

def natBelow? (limit : Nat) : Tree → Option Nat
  | .int n => if 0 ≤ n ∧ n < limit then some n.toNat else none
  | _ => none

/-- Whole numbers up to `2 ^ 53` in magnitude are written as numbers, except for minus zero. -/
def wholeNumber? (x : Binary64) : Option Int :=
  if x = -0 then none else x.toInt?.filter fun n => n.natAbs ≤ twoPow 53

def encodeDouble (x : Binary64) : Tree :=
  match wholeNumber? x with
  | some n => .int n
  | none => if x = .nan then .text "NaN" else .text ("0x" ++ Text.Hexadecimal.render x.toWord 16)

def decodeDouble? : Tree → Option Binary64
  | .int n => some (.ofInt n)
  | .real x => some x
  | .text s =>
      match s.toList with
      | ['N', 'a', 'N'] => some .nan
      | '0' :: 'x' :: digits =>
          if digits.length = 16 then (Text.Hexadecimal.value? digits).map .ofWord else none
      | _ => none
  | _ => none

end Exchange

instance : Exchange Bool where
  encode := .bool
  decode?
    | .bool b => some b
    | _ => none

instance : Exchange Nat where
  encode n := .int n
  decode? := Exchange.natBelow? (twoPow 64)

instance : Exchange Int where
  encode := .int
  decode?
    | .int n => bounded? n
    | _ => none

instance : Exchange String where
  encode := .text
  decode?
    | .text s => some s
    | _ => none

instance : Exchange Binary64 := ⟨Exchange.encodeDouble, Exchange.decodeDouble?⟩

instance {α : Type} [Exchange α] : Exchange (List α) where
  encode xs := .list (xs.map encode)
  decode?
    | .list items => items.mapM decode?
    | _ => none

instance {α : Type} [Exchange α] : Exchange (Option α) where
  encode
    | some x => encode x
    | none => .null
  decode?
    | .null => some none
    | t => (decode? t).map some

instance {α β : Type} [Exchange α] [Exchange β] : Exchange (α × β) where
  encode x := .list [encode x.1, encode x.2]
  decode?
    | .list [a, b] => do return (← decode? a, ← decode? b)
    | _ => none

end TensorLowering
