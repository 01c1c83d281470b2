import OpcodeAtlas.Json.Feed
import OpcodeAtlas.Json.Value

/-!
# OpcodeAtlas.Json.Number — reading numbers

A literal without fraction and exponent is an integer as long as its digits fit into 64 bits unsigned,
or into 64 bits signed behind a minus sign. Every other literal is real, minus zero among them: its
leading digits, as many as fit into 64 bits, are scaled by a power of ten. Digits that no longer fit
count as zeros in front of the point and are left out behind it.

* `number` — the reader of a literal behind its sign;
* `scaled?` — a significand times a power of ten.
-/

namespace OpcodeAtlas.Json

/-- The largest significand. -/
def maxSignificand : Nat := 0xFFFF_FFFF_FFFF_FFFF

/-- The largest exponent that is read digit by digit. -/
def maxExponent : Nat := 0x7FFF_FFFF

/-- The value of an ASCII decimal digit. -/
def digit? (b : UInt8) : Option Nat :=
  if 0x30 ≤ b ∧ b ≤ 0x39 then some (b.toNat - 0x30) else none

/-- The marks of an exponent. -/
def isExponentMark (b : UInt8) : Bool := b == 0x65 || b == 0x45

/-! ## Real numbers -/

/-- A power of ten. -/
def powerOfTen (n : Nat) : Float := Float.ofScientific 1 false n

/-- The largest exponent that a float has a power of ten for. -/
def largestPower : Nat := 308

/-- The product of a significand and a power of ten, nothing if it is too large. Large negative
exponents are taken off in steps of the largest power; after three of them nothing is left. -/
def scaled? (significand : Nat) (exponent : Int) : Option Float :=
  let x := Float.ofNat significand
  match exponent with
  | .ofNat n =>
    if n ≤ largestPower then
      let y := x * powerOfTen n
      if y.isInf then none else some y
    else if significand = 0 then some x
    else none
  | .negSucc n =>
    -- Less than 2 ^ 64, and three times divided by 10 ^ 308: nothing is left to divide.
    let steps := n / largestPower
    let y := (List.range (min steps 3)).foldl (fun y _ => y / powerOfTen largestPower) x
    some (y / powerOfTen (n + 1 - steps * largestPower))

/-- The number with the given sign. -/
def signed (negative : Bool) (x : Float) : Number := .real (if negative then -x else x)

/-- Ends a real number whose last byte has been taken. -/
def finishReal (negative : Bool) (significand : Nat) (exponent : Int) (feed : Feed) :
    Except Failure (Number × Feed) :=
  match scaled? significand exponent with
  | some x => .ok (signed negative x, feed)
  | none => .error (.seen .numberOutOfRange feed)

/-! ## Parts of a literal -/

/-- Skips digits. -/
def skipDigits : Feed → Except Failure Feed
  | [] => .ok []
  | none :: rest => .error (.source rest)
  | some b :: rest => if (digit? b).isSome then skipDigits rest else .ok (some b :: rest)

/-- The digits of an exponent behind the first; `base` is the exponent of the significand. -/
def exponentDigits (negative : Bool) (significand : Nat) (base : Int) (down : Bool)
    (exponent : Nat) : Step Number
  | [] => finish []
  | none :: rest => .error (.source rest)
  | some b :: rest =>
    match digit? b with
    | some d =>
      if 10 * exponent + d ≤ maxExponent then
        exponentDigits negative significand base down (10 * exponent + d) rest
      else if significand ≠ 0 ∧ !down then .error (.taken .numberOutOfRange rest)
      else (skipDigits rest).map fun feed => (signed negative 0, feed)
    | none => finish (some b :: rest)
where
  /-- Ends the number in front of the given items. -/
  finish (feed : Feed) : Except Failure (Number × Feed) :=
    finishReal negative significand (if down then base - exponent else base + exponent) feed

/-- An exponent behind its mark and its sign. -/
def unsignedExponent (negative : Bool) (significand : Nat) (base : Int) (down : Bool) : Step Number
  | [] => .error (.taken .endOfValue [])
  | none :: rest => .error (.source rest)
  | some b :: rest =>
    match digit? b with
    | some d => exponentDigits negative significand base down d rest
    | none => .error (.taken .invalidNumber rest)

/-- An exponent behind its mark. -/
def exponent (negative : Bool) (significand : Nat) (base : Int) (feed : Feed) :
    Except Failure (Number × Feed) := do
  match ← peek feed with
  | some 0x2B => unsignedExponent negative significand base false feed.tail
  | some 0x2D => unsignedExponent negative significand base true feed.tail
  | _ => unsignedExponent negative significand base false feed

/-- What may follow the digits of a fraction. -/
def afterFraction (negative : Bool) (significand : Nat) (base : Int) (feed : Feed) :
    Except Failure (Number × Feed) := do
  match ← peek feed with
  | some b =>
    if isExponentMark b then exponent negative significand base feed.tail
    else finishReal negative significand base feed
  | none => finishReal negative significand base feed

/-- The digits of a fraction; `base` is the exponent of the significand, `any` tells whether there
was a digit before. -/
def fraction (negative : Bool) (significand : Nat) (base : Int) (any : Bool) : Step Number
  | [] => finish []
  | none :: rest => .error (.source rest)
  | some b :: rest =>
    match digit? b with
    | some d =>
      if 10 * significand + d ≤ maxSignificand then
        fraction negative (10 * significand + d) (base - 1) true rest
      else do afterFraction negative significand base (← skipDigits rest)
    | none => finish (some b :: rest)
where
  /-- Ends the digits in front of the given items; there must have been one. -/
  finish (feed : Feed) : Except Failure (Number × Feed) :=
    if any then afterFraction negative significand base feed
    else .error (.seen (if feed.isEmpty then .endOfValue else .invalidNumber) feed)

/-- The digits in front of the point that no longer fit into the significand. -/
def excessDigits (negative : Bool) (significand : Nat) (base : Int) : Step Number
  | [] => finishReal negative significand base []
  | none :: rest => .error (.source rest)
  | some b :: rest =>
    if (digit? b).isSome then excessDigits negative significand (base + 1) rest
    else if b = 0x2E then fraction negative significand base false rest
    else if isExponentMark b then exponent negative significand base rest
    else finishReal negative significand base (some b :: rest)

/-- What may follow the digits in front of the point. -/
def afterInteger (negative : Bool) (significand : Nat) (feed : Feed) :
    Except Failure (Number × Feed) := do
  match ← peek feed with
  | some b =>
    if b = 0x2E then fraction negative significand 0 false feed.tail
    else if isExponentMark b then exponent negative significand 0 feed.tail
    else return (plain, feed)
  | none => return (plain, feed)
where
  /-- The number of a literal without fraction and exponent. -/
  plain : Number :=
    if !negative then .integer significand
    else if 1 ≤ significand ∧ significand ≤ 0x8000_0000_0000_0000 then .integer (-significand)
    else signed true (Float.ofNat significand)

/-- The digits in front of the point behind the first. -/
def integerDigits (negative : Bool) (significand : Nat) : Step Number
  | [] => afterInteger negative significand []
  | none :: rest => .error (.source rest)
  | some b :: rest =>
    match digit? b with
    | some d =>
      if 10 * significand + d ≤ maxSignificand then
        integerDigits negative (10 * significand + d) rest
      else excessDigits negative significand 1 rest
    | none => afterInteger negative significand (some b :: rest)

/-- A number behind its sign. No digit may follow a leading zero. -/
def number (negative : Bool) : Step Number
  | [] => .error (.taken .endOfValue [])
  | none :: rest => .error (.source rest)
  | some b :: rest =>
    match digit? b with
    | none => .error (.taken .invalidNumber rest)
    | some 0 => do
      match ← peek rest with
      | some next =>
        if (digit? next).isSome then throw (.seen .invalidNumber rest)
        else afterInteger negative 0 rest
      | none => afterInteger negative 0 rest
    | some d => integerDigits negative d rest

end OpcodeAtlas.Json
