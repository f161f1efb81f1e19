import Neighbor.Text.Hex
import Neighbor.Text.Unprintable
import Neighbor.Text.Extending

/-!
# Quoted text

A text in a message stands between double quotes. The double quote and the backslash are written
with a backslash before them; tab, line feed, carriage return and the null character have short
escapes; any other character that cannot be seen by itself is written as its code point.
-/

namespace Neighbor.Text

/-- The code point of a character in hexadecimal, as `\u\x7bfeff\x7d`. -/
def codePointEscape (c : Char) : List Char :=
  ['\\', 'u', '\x7b'] ++ hexDigits c.toNat ++ ['\x7d']

/-- How one character is written inside quotes. -/
def quotedChar (c : Char) : List Char :=
  if c = '"' then ['\\', '"']
  else if c = '\\' then ['\\', '\\']
  else if c = '\t' then ['\\', 't']
  else if c = '\n' then ['\\', 'n']
  else if c = '\r' then ['\\', 'r']
  else if c = '\x00' then ['\\', '0']
  else if isExtending c || !isPrintable c then codePointEscape c
  else [c]

/-- A text in double quotes. -/
def quoted (s : String) : String :=
  String.ofList ('"' :: s.toList.flatMap quotedChar ++ ['"'])

end Neighbor.Text
