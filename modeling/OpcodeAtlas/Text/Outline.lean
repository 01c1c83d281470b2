/-!
# OpcodeAtlas.Text.Outline — values shown by their structure

Messages show a value with the names of its parts, on one line or on a line for each part.

* `Outline.inline` — on one line: `Point { x: 1, y: 2 }`;
* `Outline.indented` — on many lines, each part on its own, four blanks deeper than the whole.
-/

namespace OpcodeAtlas

/-- What a value is made of. -/
inductive Outline where
  /-- A value without parts. -/
  | word (text : String)
  /-- A part that has a name. -/
  | named (name : String) (value : Outline)
  /-- Parts between an opening and a closing; on one line, blanks keep loose parts off both. -/
  | group (opening : String) (loose : Bool) (parts : List Outline) (closing : String)

namespace Outline

/-- A number. -/
def number (n : Nat) : Outline := .word (toString n)

/-- Values in a row. -/
def list (items : List Outline) : Outline := .group "[" false items "]"

/-- Numbers in a row. -/
def numbers (ns : List Nat) : Outline := .list (ns.map number)

/-- A value that wraps others. -/
def call (name : String) (arguments : List Outline) : Outline :=
  .group (name ++ "(") false arguments ")"

/-- A record with named fields. -/
def record (name : String) (fields : List (String × Outline)) : Outline :=
  .group (name ++ " \x7b") true (fields.map fun f => .named f.1 f.2) "\x7d"

/-- A value that may be missing. -/
def option : Option Outline → Outline
  | some value => .call "Some" [value]
  | none => .word "None"

mutual

/-- The value on one line. -/
def inline : Outline → String
  | .word text => text
  | .named name value => name ++ ": " ++ value.inline
  | .group opening loose parts closing =>
    let gap := if loose then " " else ""
    opening ++ gap ++ ", ".intercalate (inlineEach parts) ++ gap ++ closing

/-- Each of the values on one line. -/
def inlineEach : List Outline → List String
  | [] => []
  | part :: rest => part.inline :: inlineEach rest

end

mutual

/-- The value on many lines; all lines but the first begin with the margin. -/
def indentedFrom (margin : String) : Outline → String
  | .word text => text
  | .named name value => name ++ ": " ++ value.indentedFrom margin
  | .group opening _ [] closing => opening ++ closing
  | .group opening _ parts closing =>
    opening ++ "\n" ++ linesFrom (margin ++ "    ") parts ++ margin ++ closing

/-- Each of the values from the margin on, with a comma behind it. -/
def linesFrom (margin : String) : List Outline → String
  | [] => ""
  | part :: rest => margin ++ part.indentedFrom margin ++ ",\n" ++ linesFrom margin rest

end

/-- The value on many lines. -/
def indented (value : Outline) : String := value.indentedFrom ""

end Outline

end OpcodeAtlas
