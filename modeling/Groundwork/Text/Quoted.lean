import Groundwork.Text.Digits
import Groundwork.Text.Hidden

/-!
# Quoted text

A text in double quotes, in which a character that does not show by itself is written as an escape
sequence: `quotedChar` writes one character, `quoted` the text.
-/

namespace Groundwork.Text

/-- A character as it is written between the quotes. -/
def quotedChar (c : Char) : List Char :=
  if c = '\x00' then ['\\', '0']
  else if c = '\t' then ['\\', 't']
  else if c = '\r' then ['\\', 'r']
  else if c = '\n' then ['\\', 'n']
  else if c = '"' then ['\\', '"']
  else if c = '\\' then ['\\', '\\']
  else if isHidden c then ['\\', 'u', '{'] ++ hexadecimal c.toNat ++ ['}']
  else [c]

/-- The text in double quotes. -/
def quoted (s : String) : String :=
  String.ofList ('"' :: s.toList.flatMap quotedChar ++ ['"'])

end Groundwork.Text
