/-!
# OpcodeAtlas.Decimal.Shortest — real numbers as text

A real number is written with the fewest digits that read back as the same number; of two such texts
the nearer one is taken, and of two equally near the one with an even last digit.
`Binary.shortest` finds the digits of a number `m · 2 ^ q` in exact arithmetic: it looks at the two
neighbours of the number on ever finer decimal grids until one lies in the interval of reals that
round to it.

* `Binary.ofBits` — the number behind a bit pattern, with its rounding interval;
* `Binary.shortest` — digits and exponent;
* `render` — positional from 10⁻⁵ up to below 10¹⁶, always with a point; otherwise with an exponent.
-/

namespace OpcodeAtlas.Decimal

/-- A positive number and the interval that rounds to it, over a common denominator. -/
structure Binary where
  value : Nat
  low : Nat
  high : Nat
  denominator : Nat
  /-- Whether the ends of the interval round to the number, too. -/
  closed : Bool

/-- The finite positive number with the given bit pattern, sign left out. -/
def Binary.ofBits (bits : Nat) : Binary :=
  let fraction : Nat := bits % 0x10_0000_0000_0000
  let biased : Nat := bits / 0x10_0000_0000_0000 % 0x800
  let m : Nat := if biased = 0 then fraction else fraction + 0x10_0000_0000_0000
  let q : Int := if biased = 0 then -1076 else (biased : Int) - 1077
  let below := if fraction = 0 ∧ 1 < biased then 1 else 2
  let scale := Nat.pow 2 q.toNat
  { value := 4 * m * scale
    low := (4 * m - below) * scale
    high := (4 * m + 2) * scale
    denominator := Nat.pow 2 (-q).toNat
    closed := m % 2 == 0 }

namespace Binary

/-- Whether `digits · 10 ^ exponent` lies in the interval. -/
def holds (x : Binary) (digits : Nat) (exponent : Int) : Bool :=
  let point := digits * Nat.pow 10 exponent.toNat * x.denominator
  let scale := Nat.pow 10 (-exponent).toNat
  if x.closed then x.low * scale ≤ point && point ≤ x.high * scale
  else x.low * scale < point && point < x.high * scale

/-- The decimal exponent of the leading digit. -/
def leadingExponent (x : Binary) : Int :=
  let guess := ((x.value.log2 : Int) - (x.denominator.log2 : Int)) * 1233 / 4096
  let atLeast (e : Int) : Bool :=
    Nat.pow 10 e.toNat * x.denominator ≤ x.value * Nat.pow 10 (-e).toNat
  if atLeast (guess + 1) then guess + 1 else if atLeast guess then guess else guess - 1

/-- The neighbours on the grid of `10 ^ exponent`: the number not above, and whether the next one is
preferred to it, being nearer or, of two equally near, the even one. -/
def floorOn (x : Binary) (exponent : Int) : Nat × Bool :=
  let numerator := x.value * Nat.pow 10 (-exponent).toNat
  let denominator := x.denominator * Nat.pow 10 exponent.toNat
  let floor := numerator / denominator
  let rest := numerator % denominator
  (floor, denominator < 2 * rest || (2 * rest == denominator && floor % 2 == 1))

/-- Tries grids of more and more digits. -/
def search (x : Binary) (leading : Int) : (left : Nat) → (count : Nat) → Nat × Int
  | 0, count =>
    let exponent := leading - (count : Int) + 1
    ((floorOn x exponent).1, exponent)
  | left + 1, count =>
    let exponent := leading - (count : Int) + 1
    let (floor, upIsPreferred) := floorOn x exponent
    match holds x floor exponent, holds x (floor + 1) exponent with
    | true, true => (if upIsPreferred then floor + 1 else floor, exponent)
    | true, false => (floor, exponent)
    | false, true => (floor + 1, exponent)
    | false, false => search x leading left (count + 1)

/-- The fewest digits that read back, as a number and the exponent of its last digit. -/
def shortest (x : Binary) : Nat × Int := search x x.leadingExponent 17 1

end Binary

/-- Lays out digits, the last of which stands for `10 ^ exponent`. -/
def layOut (digits : List Char) (exponent : Int) : String :=
  let leading := exponent + (digits.length : Int) - 1
  if 0 ≤ leading ∧ leading < 16 then
    let whole := leading.toNat + 1
    let padded := digits ++ List.replicate (whole - digits.length) '0'
    let fraction := digits.drop whole
    String.ofList (padded.take whole ++ '.' :: (if fraction.isEmpty then ['0'] else fraction))
  else if -5 ≤ leading ∧ leading < 0 then
    String.ofList ('0' :: '.' :: (List.replicate (-leading - 1).toNat '0' ++ digits))
  else
    let mantissa := match digits with
      | first :: second :: rest => first :: '.' :: second :: rest
      | short => short
    let sign := if leading < 0 then '-' else '+'
    String.ofList (mantissa ++ 'e' :: sign :: (toString leading.natAbs).toList)

/-- The digits of a positive number without trailing zeros, and the exponent of the last one. -/
def trimmed : (digits : List Char) → (exponent : Int) → List Char × Int :=
  fun digits exponent =>
    let kept := (digits.reverse.dropWhile (· == '0')).reverse
    (kept, exponent + (digits.length - kept.length : Nat))

/-- A finite number as text. -/
def render (x : Float) : String :=
  let bits := x.toBits.toNat
  let sign := if bits / 0x8000_0000_0000_0000 = 1 then "-" else ""
  let magnitude := bits % 0x8000_0000_0000_0000
  if magnitude = 0 then sign ++ "0.0"
  else
    let (digits, exponent) := (Binary.ofBits magnitude).shortest
    let (kept, last) := trimmed (toString digits).toList exponent
    sign ++ layOut kept last

end OpcodeAtlas.Decimal
