import Arbiter.Text.Hex
import Arbiter.Text.Invisible

/-!
# Quoted texts

A text in double quotes, on one line and readable: double quotes, backslashes and line ends are
escaped, and a character that cannot be seen by itself is shown by its number.
-/

namespace Arbiter.Text.Quoted

/-- How a character is written inside the quotes. -/
def escape (c : Char) : List Char :=
  if c.toNat = 0 then ['\\', '0']
  else if c = '\t' then ['\\', 't']
  else if c = '\n' then ['\\', 'n']
  else if c = '\r' then ['\\', 'r']
  else if c = '\\' ∨ c = '"' then ['\\', c]
  else if isInvisible c then ['\\', 'u', '\x7b'] ++ Nat.toDigits 16 c.toNat ++ ['\x7d']
  else [c]

/-- A text in quotes. -/
def text (s : String) : String :=
  String.ofList ('"' :: s.toList.flatMap escape ++ ['"'])

end Arbiter.Text.Quoted
