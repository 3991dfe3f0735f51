/-
  Json/Printer.lean --- JSON values as text.

  One printer serves both layouts.  A `Spacing` says what stands after the colon of a member and at
  each place where a line may be broken: nothing in compact text, and in indented text a blank and a
  line break with two blanks per level.  Empty arrays and objects have nothing between their
  brackets in either.
-/
import SwaggerRoutes.Json.Value

set_option autoImplicit false

namespace SwaggerRoutes.Json

/-! ## Strings -/

/-- How one character stands inside a JSON string.  Control characters without a letter of their own
are written by four digits. -/
def escapedChar (c : Char) : List Char :=
  match c with
  | '"' => ['\\', '"']
  | '\\' => ['\\', '\\']
  | '\x08' => ['\\', 'b']
  | '\x0c' => ['\\', 'f']
  | '\n' => ['\\', 'n']
  | '\r' => ['\\', 'r']
  | '\t' => ['\\', 't']
  | c => if c.toNat < 0x20 then '\\' :: 'u' :: Text.lowerHexOfWidth 4 c.toNat else [c]

/-- A text as a JSON string, with its quotes. -/
def stringText (s : String) : List Char :=
  '"' :: s.toList.flatMap escapedChar ++ ['"']

/-! ## Values -/

/-- The blank characters of a layout. -/
structure Spacing where
  /-- What follows the colon of a member. -/
  afterColon : List Char
  /-- What stands before the parts of a container and before its end, at a level. -/
  lineBreak : Nat → List Char

namespace Spacing

/-- Nothing between the parts. -/
def compact : Spacing := ⟨[], fun _ => []⟩

/-- A part on each line, indented by two blanks per level. -/
def indented : Spacing := ⟨[' '], fun level => '\n' :: List.replicate (2 * level) ' '⟩

end Spacing

mutual

/-- A value as text, at a level of nesting. -/
def write (s : Spacing) (level : Nat) : Value → List Char
  | .null => "null".toList
  | .bool b => (if b then "true" else "false").toList
  | .number n => n.text.toList
  | .text t => stringText t
  | .array items => '[' :: writeItems s level items ++ [']']
  | .object members => '{' :: writeMembers s level members ++ ['}']

/-- The items of an array as text, without the brackets. -/
def writeItems (s : Spacing) (level : Nat) : List Value → List Char
  | [] => []
  | v :: rest =>
    s.lineBreak (level + 1) ++ write s (level + 1) v ++
      (if rest.isEmpty then s.lineBreak level else ',' :: writeItems s level rest)

/-- The members of an object as text, without the braces. -/
def writeMembers (s : Spacing) (level : Nat) : List (String × Value) → List Char
  | [] => []
  | (k, v) :: rest =>
    s.lineBreak (level + 1) ++ stringText k ++ ':' :: s.afterColon ++ write s (level + 1) v ++
      (if rest.isEmpty then s.lineBreak level else ',' :: writeMembers s level rest)

end

namespace Value

/-- A value as text without blanks. -/
def compactText (v : Value) : String :=
  String.ofList (write .compact 0 v)

/-- A value as text with a part on each line. -/
def indentedText (v : Value) : String :=
  String.ofList (write .indented 0 v)

end Value

end SwaggerRoutes.Json
