import OpcodeAtlas.Log.Event

/-!
# OpcodeAtlas.Command.Console — lines on a console

Lines are shown in colour or without. In colour a word stands between the sequence that turns its style
on and the one that turns all styles off. Without colour, log lines hold no escape sequence and no
control character but white space.

* `paint` — a word in a style;
* `withoutSequences` — a text without escape sequences;
* `logLine` — a record of the log.
-/

namespace OpcodeAtlas.Console

/-- Turns all styles off. -/
def resetSequence : String := "\x1b[0m"

/-- The sequence that turns a style on. -/
def styleSequence (style : String) : String := "\x1b[" ++ style ++ "m"

/-- A word in a style. Where the word itself turns all styles off, its style is turned on again. -/
def paint (colored : Bool) (style : String) (word : String) : String :=
  if colored then
    let again := word.replace resetSequence (resetSequence ++ styleSequence style)
    styleSequence style ++ again ++ resetSequence
  else word

/-! ## Text without escape sequences

White space inside a short or a control sequence suspends it: the text behind is shown up to the next
control character, with which the sequence goes on. A character beyond ASCII among that text ends the
suspended sequence for good. -/

/-- What a character is part of. -/
inductive Sequence where
  /-- Plain text. -/
  | none
  /-- Behind the escape character. -/
  | opened
  /-- Behind further characters of a short sequence. -/
  | short
  /-- A sequence that ends with a letter. -/
  | control
  /-- A sequence that ends with the bell. -/
  | command
  /-- The numbers in front of a string for the device. -/
  | device
  /-- A string, which ends with a character whose encoding has the byte 0x9C. -/
  | string
deriving DecidableEq, Repr

/-- True of white space that moves the cursor. -/
def isMove (c : Char) : Bool := c = '\t' ∨ c = '\n' ∨ c = '\x0c' ∨ c = '\r'

/-- True of a character that plain text shows. -/
def isPlain (c : Char) : Bool := isMove c ∨ (0x20 ≤ c.toNat ∧ c.toNat ≠ 0x7F)

namespace Sequence

/-- The state after a character. -/
def next (s : Sequence) (c : Char) : Sequence :=
  let n := c.toNat
  if n = 0x1B then .opened
  -- Cancel and substitute end any sequence.
  else if n = 0x18 ∨ n = 0x1A then .none
  -- No other control character counts, but for the bell.
  else if n < 0x20 ∨ n = 0x7F then
    if s = .command ∧ n = 0x07 then .none else s
  else if 0x7F < n then
    if s = .string ∧ 0x9C ∈ String.utf8EncodeChar c then .none else s
  else match s with
    | .none => .none
    | .opened =>
      if n < 0x30 then .short
      else if c = '[' then .control
      else if c = ']' then .command
      else if c = 'P' then .device
      else if c = 'X' ∨ c = '^' ∨ c = '_' then .string
      else .none
    | .short => if n < 0x30 then .short else .none
    | .control => if n < 0x40 then .control else .none
    | .command => .command
    | .device => if n < 0x40 then .device else .string
    | .string => .string

/-- Whether a character is shown where it meets this state. -/
def shows (s : Sequence) (c : Char) : Bool :=
  match s with
  | .none => isPlain c
  | .opened | .short | .control => isMove c
  | .command | .device | .string => false

end Sequence

/-- The characters that are shown, behind a state that may be suspended. -/
def shownFrom (s : Sequence) (suspended : Bool) : List Char → List Char
  | [] => []
  | c :: rest =>
    if suspended && isPlain c then
      c :: shownFrom (if c.toNat < 0x80 then s else .none) true rest
    else if s.shows c then c :: shownFrom s true rest
    else shownFrom (s.next c) false rest

/-- The text without escape sequences and control characters. -/
def withoutSequences (s : String) : String := String.ofList (shownFrom .none false s.toList)

/-! ## The log -/

/-- The style of a level. -/
def levelStyle : LogLevel → String
  | .error => styleSequence "1" ++ styleSequence "31"
  | .warn => styleSequence "33"
  | .info => styleSequence "32"
  | .debug => styleSequence "34"

/-- A record of the log as lines; the second line and all others are indented by four blanks. -/
def logLine (colored : Bool) (e : Event) : String :=
  let level := Text.padRight 5 e.level.name
  let message := e.message.replace "\n" "\n    "
  if colored then
    let bracket := styleSequence "90"
    s!"{bracket}[{resetSequence}{levelStyle e.level}{level}{resetSequence} " ++
      s!"{e.source}{bracket}]{resetSequence} {message}\n"
  else withoutSequences s!"[{level} {e.source}] {message}\n"

/-- The records of a log that goes down to a level; nothing when the log is off. -/
def logLines (colored : Bool) (least : Option LogLevel) (events : List Event) : String :=
  match least with
  | none => ""
  | some least =>
    String.join ((events.filter fun e => e.level.shownAt least).map (logLine colored))

end OpcodeAtlas.Console
