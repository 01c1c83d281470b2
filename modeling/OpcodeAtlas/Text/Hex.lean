/-!
# OpcodeAtlas.Text.Hex — digits

Reading and writing numbers in base sixteen, and padding to a column.

* `hexValue?` reads one ASCII digit of either case;
* `lowerHex`, `upperHex` write a natural number without leading zeros;
* `word64` is the 64-bit two's complement pattern that a signed number is shown as in base sixteen.
-/

namespace OpcodeAtlas.Text

/-- The value of an ASCII hexadecimal digit of either case. -/
def hexValue? (b : UInt8) : Option Nat :=
  if 0x30 ≤ b ∧ b ≤ 0x39 then some (b.toNat - 0x30)
  else if 0x61 ≤ b ∧ b ≤ 0x66 then some (b.toNat - 0x61 + 10)
  else if 0x41 ≤ b ∧ b ≤ 0x46 then some (b.toNat - 0x41 + 10)
  else none

/-- Base sixteen, digits `0` to `f`. -/
def lowerHex (n : Nat) : String := String.ofList (Nat.toDigits 16 n)

/-- Base sixteen, digits `0` to `F`. -/
def upperHex (n : Nat) : String := String.ofList ((Nat.toDigits 16 n).map Char.toUpper)

/-- The text with `fill` in front of it until it is `width` characters long. -/
def padLeft (width : Nat) (fill : Char) (s : String) : String :=
  String.ofList (List.replicate (width - s.length) fill ++ s.toList)

/-- The text with blanks behind it until it is `width` characters long. -/
def padRight (width : Nat) (s : String) : String :=
  String.ofList (s.toList ++ List.replicate (width - s.length) ' ')

/-- The 64-bit two's complement pattern of a signed number. -/
def word64 (n : Int) : Nat := (n % 0x1_0000_0000_0000_0000).toNat

end OpcodeAtlas.Text
