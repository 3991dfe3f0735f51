/-
  Text/Quoted.lean --- a string in double quotes, as messages show it.

  The quote and the backslash are written after a backslash, tab, line feed, carriage return and
  NUL by their letter, and every other character that does not print on its own by its number in
  base sixteen. So a quoted string stays on one line and shows each of its characters.
-/
import SwaggerRoutes.Text.Digits
import SwaggerRoutes.Text.Unprintable

set_option autoImplicit false

namespace SwaggerRoutes.Text

/-- How one character stands inside a quoted string. -/
def quotedChar (c : Char) : List Char :=
  match c with
  | '\x00' => ['\\', '0']
  | '\t' => ['\\', 't']
  | '\n' => ['\\', 'n']
  | '\r' => ['\\', 'r']
  | '"' => ['\\', '"']
  | '\\' => ['\\', '\\']
  | c => if isUnprintable c then ['\\', 'u', '{'] ++ lowerHex c.toNat ++ ['}'] else [c]

/-- A string in double quotes, with escapes for what would not show. -/
def quoted (s : String) : String :=
  String.ofList ('"' :: s.toList.flatMap quotedChar ++ ['"'])

end SwaggerRoutes.Text
