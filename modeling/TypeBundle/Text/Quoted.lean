import TypeBundle.Text.Digits
import TypeBundle.Text.Printable
/-!
# Quoted texts in messages

A message shows a text between double quotes. Quotes and backslashes are escaped, line breaks, tabs
and the null character have their letters, and characters that cannot be shown are written by code
point.
-/

namespace TypeBundle.Text

/-- A character as it stands in a quoted text. -/
def showChar (c : Char) : List Char :=
  if c = '\x22' then ['\\', '\x22']
  else if c = '\\' then ['\\', '\\']
  else if c = '\n' then ['\\', 'n']
  else if c = '\r' then ['\\', 'r']
  else if c = '\t' then ['\\', 't']
  else if c = '\x00' then ['\\', '0']
  else if isPrintable c then [c]
  else ['\\', 'u', '\x7b'] ++ digits 16 c.toNat ++ ['\x7d']

/-- The text between quotes. -/
def quoted (s : String) : String :=
  String.ofList ('\x22' :: (s.toList.flatMap showChar ++ ['\x22']))

end TypeBundle.Text
