import OpcodeAtlas.Json.Feed
import OpcodeAtlas.Text.Hex
import OpcodeAtlas.Text.Utf8

/-!
# OpcodeAtlas.Json.Text — reading text between quotes

The reader of a text goes from byte to byte; `Escape` says what it is in the middle of. An escape of
four digits in the range of leading surrogates must be followed by one in the range of trailing
surrogates, and both give one character.

* `Escape.step` — what a byte adds to the text;
* `textBytes`, `text` — the bytes up to the closing quote, and the text that they spell.
-/

namespace OpcodeAtlas.Json

/-- What the reader of a text is in the middle of. -/
inductive Escape where
  | none
  /-- Behind a backslash. -/
  | opened
  /-- Behind `\u`, a leading surrogate and some of the four digits, last one first. -/
  | digits (leading : Option Nat) (seen : List UInt8)
  /-- Behind a leading surrogate. -/
  | leading (code : Nat)
  /-- Behind a leading surrogate and a backslash. -/
  | leadingOpened (code : Nat)
deriving DecidableEq, Repr

namespace Escape

/-- The byte that a one-letter escape stands for. -/
def letter? (b : UInt8) : Option UInt8 :=
  if b = 0x22 ∨ b = 0x5C ∨ b = 0x2F then some b
  else if b = 0x62 then some 0x08
  else if b = 0x66 then some 0x0C
  else if b = 0x6E then some 0x0A
  else if b = 0x72 then some 0x0D
  else if b = 0x74 then some 0x09
  else Option.none

/-- The number that digits spell, the last digit first. -/
def code? : List UInt8 → Option Nat
  | [] => some 0
  | b :: rest => do return 16 * (← code? rest) + (← Text.hexValue? b)

/-- The bytes of the character with a code. -/
def encoded (code : Nat) : List UInt8 := String.utf8EncodeChar (Char.ofNat code)

/-- What four digits add, behind a leading surrogate or not. -/
def finish (leading? : Option Nat) (code : Nat) : Except Fault (Escape × List UInt8) :=
  let isTrailing := 0xDC00 ≤ code ∧ code ≤ 0xDFFF
  match leading? with
  | some high =>
    if isTrailing then
      .ok (.none, encoded (0x10000 + (high - 0xD800) * 0x400 + (code - 0xDC00)))
    else .error .loneSurrogate
  | Option.none =>
    if isTrailing then .error .loneSurrogate
    else if 0xD800 ≤ code ∧ code ≤ 0xDBFF then .ok (.leading code, [])
    else .ok (.none, encoded code)

/-- What a byte other than the closing quote adds to the text. -/
def step : Escape → UInt8 → Except Fault (Escape × List UInt8)
  | .none, b =>
    if b = 0x5C then .ok (.opened, [])
    else if b < 0x20 then .error .controlCharacter
    else .ok (.none, [b])
  | .opened, b =>
    if b = 0x75 then .ok (.digits Option.none [], [])
    else match letter? b with
      | some meant => .ok (.none, [meant])
      | Option.none => .error .invalidEscape
  | .digits leading? seen, b =>
    if seen.length < 3 then .ok (.digits leading? (b :: seen), [])
    else match code? (b :: seen) with
      | some code => finish leading? code
      | Option.none => .error .invalidEscape
  | .leading high, b =>
    if b = 0x5C then .ok (.leadingOpened high, []) else .error .endOfEscape
  | .leadingOpened high, b =>
    if b = 0x75 then .ok (.digits (some high) [], []) else .error .endOfEscape

end Escape

/-- The bytes of a text up to its closing quote, behind those found before, last one first. -/
def textBytes (state : Escape) (found : List UInt8) : Step (List UInt8)
  | [] => .error (.taken .endOfString [])
  | none :: rest => .error (.source rest)
  | some b :: rest =>
    if state = .none ∧ b = 0x22 then .ok (found.reverse, rest)
    else match state.step b with
      | .error fault => .error (.taken fault rest)
      | .ok (state, added) => textBytes state (added.reverse ++ found) rest

/-- The text behind an opening quote. Bytes that spell no text are noticed at the closing quote and
reported at the first of them. -/
def text (feed : Feed) : Except Failure (String × Feed) := do
  let (bytes, rest) ← textBytes .none [] feed
  match Text.ofUtf8? bytes with
  | some s => return (s, rest)
  | none =>
    let taken := feed.length - rest.length
    -- Counted back from the closing quote, as if every byte had been written as itself.
    let malformed := bytes.length - Text.wellFormedLength bytes
    throw (.taken .invalidText (feed.drop (taken - malformed)))

end OpcodeAtlas.Json
