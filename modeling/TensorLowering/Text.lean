/-!
# Texts

A list is written between square brackets, its entries separated by a comma and a blank. Bit
patterns are read and written as hexadecimal numerals.
-/
namespace TensorLowering.Text

def commaSeparated (entries : List String) : String := ", ".intercalate entries

def bracketed (entries : List String) : String := "[" ++ commaSeparated entries ++ "]"

def naturals (entries : List Nat) : String := bracketed (entries.map toString)

namespace Hexadecimal

/-- The value of a digit in either case. -/
def digit? (c : Char) : Option Nat :=
  if '0' ≤ c ∧ c ≤ '9' then some (c.toNat - '0'.toNat)
  else if 'a' ≤ c ∧ c ≤ 'f' then some (c.toNat - 'a'.toNat + 10)
  else if 'A' ≤ c ∧ c ≤ 'F' then some (c.toNat - 'A'.toNat + 10)
  else none

/-- The number that the digits stand for, when there are digits and nothing else. -/
def value? (digits : List Char) : Option Nat :=
  if digits.isEmpty then none
  else digits.foldlM (fun n c => (digit? c).map (16 * n + ·)) 0

/-- The digits of a number in lower case, with zeros before them up to the given width. -/
def render (n width : Nat) : String :=
  let digits := Nat.toDigits 16 n
  String.ofList (List.replicate (width - digits.length) '0' ++ digits)

end Hexadecimal

end TensorLowering.Text
