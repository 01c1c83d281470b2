/-!
# OpcodeAtlas.Decimal.Numeral — natural numbers in decimal digits

A numeral is a row of ASCII digits, which a plus sign may stand in front of.
-/

namespace OpcodeAtlas.Decimal

/-- Why a text is no numeral. -/
inductive NumeralFault where
  | empty
  | invalidDigit
deriving DecidableEq, Repr

namespace NumeralFault

/-- The name of the fault. -/
def name : NumeralFault → String
  | .empty => "Empty"
  | .invalidDigit => "InvalidDigit"

/-- The wording of the fault. -/
def message : NumeralFault → String
  | .empty => "cannot parse integer from empty string"
  | .invalidDigit => "invalid digit found in string"

end NumeralFault

/-- The number that digits spell, the highest first. -/
def ofDigits (digits : List Char) : Nat :=
  digits.foldl (fun n c => 10 * n + (c.toNat - '0'.toNat)) 0

/-- The number that a numeral spells. -/
def readNumeral (text : List Char) : Except NumeralFault Nat :=
  match text with
  | [] => .error .empty
  | c :: rest =>
    let digits := if c = '+' then rest else text
    if digits ≠ [] ∧ digits.all Char.isDigit then .ok (ofDigits digits) else .error .invalidDigit

end OpcodeAtlas.Decimal
