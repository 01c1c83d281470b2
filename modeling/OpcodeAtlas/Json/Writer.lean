import OpcodeAtlas.Text.Hex

/-!
# OpcodeAtlas.Json.Writer — writing objects

Writes an object whose members are texts or whole numbers, compactly or with one member on a line. In
a text the quote, the backslash and the characters below U+0020 are escaped, and nothing else.

* `quote` — a text between quotes;
* `Style`, `object` — an object in one of two styles.
-/

namespace OpcodeAtlas.Json

/-- One character of a text between quotes. -/
def escaped (c : Char) : List Char :=
  if c = '"' then ['\\', '"']
  else if c = '\\' then ['\\', '\\']
  else if c = '\x08' then ['\\', 'b']
  else if c = '\t' then ['\\', 't']
  else if c = '\n' then ['\\', 'n']
  else if c = '\x0c' then ['\\', 'f']
  else if c = '\r' then ['\\', 'r']
  else if c.toNat < 0x20 then
    ['\\', 'u', '0', '0', Nat.digitChar (c.toNat / 16), Nat.digitChar (c.toNat % 16)]
  else [c]

/-- A text between quotes. -/
def quote (s : String) : List Char := '"' :: s.toList.flatMap escaped ++ ['"']

/-- How the members of an object are set apart. -/
inductive Style where
  /-- Nothing stands between the marks. -/
  | compact
  /-- Every member has a line of its own, indented by two blanks. -/
  | pretty
deriving DecidableEq, Repr

/-- What stands in front of a member. -/
def Style.beforeMember : Style → List Char
  | .compact => []
  | .pretty => ['\n', ' ', ' ']

/-- What stands between a key and its value. -/
def Style.colon : Style → List Char
  | .compact => [':']
  | .pretty => [':', ' ']

/-- What stands behind the last member. -/
def Style.afterMembers : Style → List Char
  | .compact => []
  | .pretty => ['\n']

/-- One member, its value written already. -/
def member (style : Style) (m : String × List Char) : List Char :=
  style.beforeMember ++ quote m.1 ++ style.colon ++ m.2

/-- The characters of an object whose values are written already. -/
def objectChars (style : Style) : List (String × List Char) → List Char
  | [] => ['\x7b', '\x7d']
  | first :: others =>
    '\x7b' :: member style first ++ others.flatMap (fun m => ',' :: member style m) ++
      style.afterMembers ++ ['\x7d']

/-- An object of texts. -/
def objectOfTexts (style : Style) (members : List (String × String)) : String :=
  String.ofList (objectChars style (members.map fun m => (m.1, quote m.2)))

/-- An object of whole numbers. -/
def objectOfNumbers (style : Style) (members : List (String × Int)) : String :=
  String.ofList (objectChars style (members.map fun m => (m.1, (toString m.2).toList)))

end OpcodeAtlas.Json
