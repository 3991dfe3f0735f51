/-
  Naming/Stripped.lean --- a text cut down to characters of identifiers.

  A title or a label is read once from the left.  Characters of identifiers are kept, underscores
  and dollar signs among them; of the others only that there were some is remembered, until the next
  character is kept, which then gets a space in front unless it is the first one.  Words so stay
  apart, however many characters were between them, and there is no space at either end.
-/
import SwaggerRoutes.Naming.Identifier

set_option autoImplicit false

namespace SwaggerRoutes.Naming

/-- How far a text has been read. -/
structure Scan where
  /-- The characters kept, with spaces between words. -/
  kept : List Char
  /-- Whether the last character read was dropped. -/
  dropped : Bool
  deriving Repr, DecidableEq

namespace Scan

/-- Nothing read. -/
def start : Scan :=
  { kept := [], dropped := false }

/-- Reads one more character. -/
def next (s : Scan) (c : Char) : Scan :=
  if isIdentifierPart c then
    if s.dropped && !s.kept.isEmpty then { kept := s.kept ++ [' ', c], dropped := false }
    else { kept := s.kept ++ [c], dropped := false }
  else { s with dropped := true }

/-- Reads a text from the left. -/
def ofText (text : List Char) : Scan :=
  text.foldl next start

end Scan

/-- The characters of identifiers in a text, with one space for each gap between two of them. -/
def stripped (text : List Char) : List Char :=
  (Scan.ofText text).kept

end SwaggerRoutes.Naming
