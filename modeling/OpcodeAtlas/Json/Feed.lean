/-!
# OpcodeAtlas.Json.Feed — bytes on their way to the reader

The reader takes its bytes one by one from a `Feed`. An item of a feed is a byte, or `none` where the
source refuses to go on. A reader may look at the next byte before it takes it; a byte counts as read
as soon as it has been looked at, and faults are reported at the place up to which bytes were read.

* `Fault` — what can be wrong with a document, `Failure` — a fault and the part not yet read;
* `Feed.position` — line and column of a failure;
* `peek`, `skipBlank`, `expect` — the steps that readers are made of.
-/

namespace OpcodeAtlas.Json

/-- The items that a reader takes, `none` where the source fails. -/
abbrev Feed := List (Option UInt8)

/-- A feed of bytes from a source that never fails. -/
def Feed.ofBytes (bytes : List UInt8) : Feed := bytes.map some

/-! ## Faults -/

/-- What can be wrong with a document. -/
inductive Fault where
  | endOfValue | endOfList | endOfObject | endOfString
  | expectedColon | expectedListEnd | expectedObjectEnd | expectedIdent | expectedValue
  | keyNotText
  | invalidEscape | invalidNumber | numberOutOfRange | invalidText | controlCharacter
  | loneSurrogate | endOfEscape
  | trailingComma | trailingCharacters
  | tooDeep
  /-- The source failed. -/
  | sourceFailed
deriving DecidableEq, Repr

/-- The wording of a fault. -/
def Fault.message : Fault → String
  | .endOfValue => "EOF while parsing a value"
  | .endOfList => "EOF while parsing a list"
  | .endOfObject => "EOF while parsing an object"
  | .endOfString => "EOF while parsing a string"
  | .expectedColon => "expected `:`"
  | .expectedListEnd => "expected `,` or `]`"
  | .expectedObjectEnd => "expected `,` or `\x7d`"
  | .expectedIdent => "expected ident"
  | .expectedValue => "expected value"
  | .keyNotText => "key must be a string"
  | .invalidEscape => "invalid escape"
  | .invalidNumber => "invalid number"
  | .numberOutOfRange => "number out of range"
  | .invalidText => "invalid unicode code point"
  | .controlCharacter => "control character (\\u0000-\\u001F) found while parsing a string"
  | .loneSurrogate => "lone leading surrogate in hex escape"
  | .endOfEscape => "unexpected end of hex escape"
  | .trailingComma => "trailing comma"
  | .trailingCharacters => "trailing characters"
  | .tooDeep => "recursion limit exceeded"
  | .sourceFailed => "invalid data"

/-- A fault, the items not read when it was noticed, and whether it is reported with a place. A failing
source has none of its own; the innermost list or object around it provides one. -/
structure Failure where
  fault : Fault
  unread : Feed
  placed : Bool
deriving DecidableEq, Repr

/-- A step of a reader: what it made of the items it took, and the items after them. -/
abbrev Step (α : Type) := Feed → Except Failure (α × Feed)

/-- A fault noticed when no item had been looked at beyond those taken. -/
def Failure.taken (fault : Fault) (unread : Feed) : Failure := ⟨fault, unread, true⟩

/-- A fault noticed by a look at the next item, or at the end of the feed. -/
def Failure.seen (fault : Fault) (feed : Feed) : Failure := ⟨fault, feed.tail, true⟩

/-- The source failed before the given items. -/
def Failure.source (unread : Feed) : Failure := ⟨.sourceFailed, unread, false⟩

/-! ## Places -/

/-- A place in a document: the line, counted from one, and the bytes read since its start. -/
structure Position where
  line : Nat
  column : Nat
deriving DecidableEq, Repr

/-- The place in front of all bytes. -/
def Position.start : Position := ⟨1, 0⟩

/-- The place after one more item. -/
def Position.advance (p : Position) : Option UInt8 → Position
  | none => p
  | some b => if b = 0x0A then ⟨p.line + 1, 0⟩ else ⟨p.line, p.column + 1⟩

/-- The place in a feed when only the given rest of it is unread. -/
def Feed.position (feed unread : Feed) : Position :=
  (feed.take (feed.length - unread.length)).foldl Position.advance .start

/-! ## Steps -/

/-- The next byte, which stays where it is; nothing at the end of the feed. -/
def peek : Feed → Except Failure (Option UInt8)
  | [] => .ok none
  | some b :: _ => .ok (some b)
  | none :: rest => .error (.source rest)

/-- True of the four bytes that may stand between the parts of a document. -/
def isBlankByte (b : UInt8) : Bool := b == 0x20 || b == 0x09 || b == 0x0A || b == 0x0D

/-- The feed from its first byte that is not blank. -/
def skipBlank : Feed → Except Failure Feed
  | [] => .ok []
  | some b :: rest => if isBlankByte b then skipBlank rest else .ok (some b :: rest)
  | none :: rest => .error (.source rest)

/-- Takes the rest of a literal word. -/
def expect : List UInt8 → Feed → Except Failure Feed
  | [], feed => .ok feed
  | _ :: _, [] => .error (.taken .endOfValue [])
  | _ :: _, none :: rest => .error (.source rest)
  | wanted :: others, some b :: rest =>
    if b = wanted then expect others rest else .error (.taken .expectedIdent rest)

end OpcodeAtlas.Json
