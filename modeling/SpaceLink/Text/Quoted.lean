import SpaceLink.Number.Numeral
import SpaceLink.Text.Visible

/-!
Text in double quotes, as messages show it: the quote, the backslash and the common controls are
escaped by a letter, and every other character that is not shown by its code point.
-/

set_option autoImplicit false

namespace SpaceLink.Text

def escaped (c : Char) : List Char :=
  if c = '\x00' then ['\\', '0']
  else if c = '\t' then ['\\', 't']
  else if c = '\r' then ['\\', 'r']
  else if c = '\n' then ['\\', 'n']
  else if c = '\\' then ['\\', '\\']
  else if c = '"' then ['\\', '"']
  else if isVisible c then [c]
  else ['\\', 'u', '\x7b'] ++ Numeral.digits 16 c.toNat ++ ['\x7d']

def quoted (s : String) : String :=
  String.ofList (['"'] ++ s.toList.flatMap escaped ++ ['"'])

end SpaceLink.Text
