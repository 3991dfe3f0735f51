/-
  Yaml/Cursor.lean --- a place in a YAML text.

  A cursor counts bytes, lines and columns: what a character means depends on its column, and a key
  must end on the line on which it starts, a limited number of bytes further on.  There are five
  line breaks; a carriage return with a line feed behind it is one.
-/

set_option autoImplicit false

namespace SwaggerRoutes.Yaml

/-! ## Characters -/

/-- Characters that may stand in a YAML text. -/
def isAllowed (c : Char) : Bool :=
  let n := c.toNat
  n == 0x09 || n == 0x0A || n == 0x0D || (0x20 ≤ n && n ≤ 0x7E) || n == 0x85 ||
    (0xA0 ≤ n && n ≤ 0xD7FF) || (0xE000 ≤ n && n ≤ 0xFFFD) || 0x10000 ≤ n

/-- Characters that end a line. -/
def isBreak (c : Char) : Bool :=
  c == '\n' || c == '\r' || c == '\u0085' || c == '\u2028' || c == '\u2029'

/-- A space or a tab. -/
def isBlank (c : Char) : Bool :=
  c == ' ' || c == '\t'

/-- Letters, digits, the underscore and the hyphen. -/
def isWord (c : Char) : Bool :=
  c.isAlphanum || c == '_' || c == '-'

/-- The mark of an encoding, which may stand at the start of a line. -/
def byteOrderMark : Char := '\uFEFF'

/-- The number of bytes that characters take. -/
def byteCount (cs : List Char) : Nat :=
  cs.foldl (fun n c => n + c.utf8Size) 0

/-! ## Cursors -/

/-- A place in a text. -/
structure Cursor where
  /-- What follows. -/
  rest : List Char
  /-- The number of bytes before. -/
  index : Nat
  /-- The number of lines before. -/
  line : Nat
  /-- The number of characters before on this line. -/
  column : Nat
  deriving Repr

namespace Cursor

/-- The start of a text. -/
def ofText (s : String) : Cursor :=
  ⟨s.toList, 0, 0, 0⟩

/-- The character at an offset. -/
def at? (c : Cursor) (i : Nat) : Option Char :=
  c.rest[i]?

/-- Whether a given character stands at an offset. -/
def has (c : Cursor) (ch : Char) (i : Nat) : Bool :=
  c.at? i == some ch

/-- Whether a break or the end of the text stands at an offset. -/
def endsLine (c : Cursor) (i : Nat) : Bool :=
  (c.at? i).all isBreak

/-- Whether a blank, a break or the end of the text stands at an offset. -/
def endsWord (c : Cursor) (i : Nat) : Bool :=
  (c.at? i).all fun ch => isBlank ch || isBreak ch

/-- Whether a blank stands here. -/
def atBlank (c : Cursor) : Bool :=
  (c.at? 0).any isBlank

/-- Whether a break stands here. -/
def atBreak (c : Cursor) : Bool :=
  (c.at? 0).any isBreak

/-- Whether the text ends here. -/
def atEnd (c : Cursor) : Bool :=
  c.rest.isEmpty

/-- Whether a line starts here with three of a character that stand alone. -/
def atMarker (c : Cursor) (ch : Char) : Bool :=
  c.column == 0 && c.has ch 0 && c.has ch 1 && c.has ch 2 && c.endsWord 3

/-- Whether a line that starts or ends a document starts here. -/
def atDocumentMarker (c : Cursor) : Bool :=
  c.atMarker '-' || c.atMarker '.'

/-- The place `n` characters further on the line. -/
def skip (c : Cursor) (n : Nat) : Cursor :=
  ⟨c.rest.drop n, c.index + byteCount (c.rest.take n), c.line, c.column + n⟩

/-- The characters of the line in front that have a property, and the place behind them. -/
def takeWhile (c : Cursor) (p : Char → Bool) : List Char × Cursor :=
  let taken := c.rest.takeWhile p
  (taken, c.skip taken.length)

/-- The place behind the characters of the line in front that have a property. -/
def skipWhile (c : Cursor) (p : Char → Bool) : Cursor :=
  (c.takeWhile p).2

/-- The break in front as it stands in a value, and the start of the next line.  All breaks but the
line and the paragraph separator stand for a line feed. -/
def takeBreak (c : Cursor) : List Char × Cursor :=
  match c.rest with
  | '\r' :: '\n' :: rest => (['\n'], ⟨rest, c.index + 2, c.line + 1, 0⟩)
  | ch :: rest =>
    if isBreak ch then
      let kept := if ch = '\u2028' ∨ ch = '\u2029' then ch else '\n'
      ([kept], ⟨rest, c.index + ch.utf8Size, c.line + 1, 0⟩)
    else ([], c)
  | [] => ([], c)

/-- The start of the next line, if a break stands here. -/
def skipBreak (c : Cursor) : Cursor :=
  c.takeBreak.2

/-- The place behind a comment, if one stands here. -/
def skipComment (c : Cursor) : Cursor :=
  if c.has '#' 0 then c.skipWhile fun ch => !isBreak ch else c

end Cursor

end SwaggerRoutes.Yaml
