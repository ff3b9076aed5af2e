import RiscV.Text.Numeral
import RiscV.Text.Shapeless

/-!
# Quoted text

Text in a message is shown in double quotes.  The quote and the backslash are
escaped, a few controls have escapes of one letter, and any other character
without a shape of its own is shown by its code point.
-/

namespace RiscV.Text

/-- How one character is shown between quotes. -/
def escaped (c : Char) : String :=
  if c = '"' then "\\\""
  else if c = '\\' then "\\\\"
  else if c = '\n' then "\\n"
  else if c = '\r' then "\\r"
  else if c = '\t' then "\\t"
  else if c.toNat = 0 then "\\0"
  else if isShapeless c then "\\u\x7b" ++ hex c.toNat ++ "\x7d"
  else c.toString

/-- The text in quotes. -/
def quoted (text : String) : String :=
  "\"" ++ String.join (text.toList.map escaped) ++ "\""

end RiscV.Text
