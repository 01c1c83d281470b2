import OpcodeAtlas.Json.Feed

/-!
# OpcodeAtlas.Json.Comment — comments between the parts of a document

A map file may hold `//` comments up to the end of a line and `/* */` comments. Every byte of a
comment reaches the reader as a blank, the newline behind a line comment as itself; so the places of
later faults do not depend on what a comment says. Text between double quotes is left alone.

* `Lexeme.next`, `Lexeme.shown` — what a byte does to the state, and what the reader sees of it;
* `withoutComments` — the feed of a document with comments.
-/

namespace OpcodeAtlas.Json

/-- What a byte is part of. -/
inductive Lexeme where
  /-- The document outside of text and comments. -/
  | plain
  | text
  /-- The byte after a backslash in a text. -/
  | escape
  /-- The byte after a slash. -/
  | slash
  | block
  /-- The byte after an asterisk in a block comment. -/
  | blockStar
  | line
deriving DecidableEq, Repr

namespace Lexeme

/-- The state after a byte. -/
def next : Lexeme → UInt8 → Lexeme
  | .plain, b => if b = 0x22 then .text else if b = 0x2F then .slash else .plain
  | .text, b => if b = 0x22 then .plain else if b = 0x5C then .escape else .text
  | .escape, _ => .text
  | .slash, b => if b = 0x2A then .block else if b = 0x2F then .line else .slash
  | .block, b => if b = 0x2A then .blockStar else .block
  | .blockStar, b => if b = 0x2F then .plain else if b = 0x2A then .blockStar else .block
  | .line, b => if b = 0x0A then .plain else .line

/-- What the reader sees of a byte: itself, a blank, or nothing where a lone slash ends the feed. -/
def shown : Lexeme → UInt8 → Option UInt8
  | .plain, b => if b = 0x2F then some 0x20 else some b
  | .text, b => some b
  | .escape, b => some b
  | .slash, b => if b = 0x2A ∨ b = 0x2F then some 0x20 else none
  | .block, _ => some 0x20
  | .blockStar, _ => some 0x20
  | .line, b => if b = 0x0A then some b else some 0x20

/-- Whether a document may end here. -/
def mayEnd : Lexeme → Bool
  | .plain => true
  | .line => true
  | _ => false

end Lexeme

/-- The feed of the bytes that follow a state, behind what was shown before, last item first. -/
def showFrom (state : Lexeme) (shown : Feed) : List UInt8 → Feed
  | [] => (if state.mayEnd then shown else none :: shown).reverse
  | b :: rest => showFrom (state.next b) (state.shown b :: shown) rest

/-- The feed of a document with comments. -/
def withoutComments (bytes : List UInt8) : Feed := showFrom .plain [] bytes

end OpcodeAtlas.Json
