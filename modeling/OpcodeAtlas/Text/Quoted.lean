import OpcodeAtlas.Text.Hex
import OpcodeAtlas.Text.Unprintable

/-!
# OpcodeAtlas.Text.Quoted — text between double quotes

The form in which foreign text is shown inside a message: quotes around it, and an escape for every
character that could be misread — the quote, the backslash, controls, characters without a glyph and
characters that would combine with their neighbour.
-/

namespace OpcodeAtlas.Text

/-- One character as it stands between the quotes. -/
def quotedChar (c : Char) : String :=
  if c = '\x00' then "\\0"
  else if c = '\t' then "\\t"
  else if c = '\n' then "\\n"
  else if c = '\r' then "\\r"
  else if c = '"' then "\\\""
  else if c = '\\' then "\\\\"
  else if isExtending c || isUnprintable c then "\\u\x7b" ++ lowerHex c.toNat ++ "\x7d"
  else c.toString

/-- The text between double quotes, with escapes. -/
def quoted (s : String) : String :=
  "\"" ++ String.join (s.toList.map quotedChar) ++ "\""

end OpcodeAtlas.Text
