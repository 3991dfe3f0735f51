/-
  Yaml/Token/Marks.lean --- directives, anchors, aliases and tags.

  Each function reads one of them at a cursor and returns its token and the place behind it, or none
  where the text is not well formed.
-/
import SwaggerRoutes.Text.Digits
import SwaggerRoutes.Yaml.Cursor
import SwaggerRoutes.Yaml.Tag
import SwaggerRoutes.Yaml.Token

set_option autoImplicit false

namespace SwaggerRoutes.Yaml

/-! ## Anchors and aliases -/

/-- The name behind the sign of an anchor or an alias. -/
def readAnchorName (c : Cursor) : Option (String × Cursor) := do
  let (name, c) := (c.skip 1).takeWhile isWord
  let ends := c.endsWord 0 || (c.at? 0).any fun ch => "?:,]\x7d%@\x60".toList.contains ch
  guard (!name.isEmpty && ends)
  pure (String.ofList name, c)

/-! ## Tags -/

/-- Characters that stand for themselves in a tag; `full` adds those that end one in a collection
written in brackets. -/
def isTagChar (full : Bool) (c : Char) : Bool :=
  isWord c || ";/?:@&=+$.!~*'()".toList.contains c || (full && ",[]".toList.contains c)

/-- The octet that two digits behind a percent sign write. -/
def readOctet (c : Cursor) : Option (Nat × Cursor) := do
  guard (c.has '%' 0)
  let a ← c.at? 1
  let b ← c.at? 2
  let n ← Text.readDigits? 16 [a, b]
  pure (n, c.skip 3)

/-- A number of octets that continue a character. -/
def readContinuation : Nat → Cursor → Option (List UInt8 × Cursor)
  | 0, c => some ([], c)
  | n + 1, c => do
    let (octet, c) ← readOctet c
    guard (octet / 0x40 = 2)
    let (more, c) ← readContinuation n c
    pure (UInt8.ofNat octet :: more, c)

/-- One to four escaped octets: the first tells how many follow it.  They need not be the octets of
any character. -/
def readEscapedOctets (c : Cursor) : Option (List UInt8 × Cursor) := do
  let (octet, c) ← readOctet c
  let width ←
    if octet < 0x80 then some 0
    else if 0xC0 ≤ octet ∧ octet < 0xE0 then some 1
    else if 0xE0 ≤ octet ∧ octet < 0xF0 then some 2
    else if 0xF0 ≤ octet ∧ octet < 0xF8 then some 3
    else none
  let (more, c) ← readContinuation width c
  pure (UInt8.ofNat octet :: more, c)

/-- The octets of a tag.  `fuel` bounds the number of characters. -/
def readTagOctets (full : Bool) : Nat → Cursor → Option (List UInt8 × Cursor)
  | 0, _ => none
  | fuel + 1, c =>
    match c.at? 0 with
    | some '%' => do
      let (octets, c) ← readEscapedOctets c
      let (more, c) ← readTagOctets full fuel c
      pure (octets ++ more, c)
    | some ch =>
      if isTagChar full ch then do
        let (more, c) ← readTagOctets full fuel (c.skip 1)
        pure (String.utf8EncodeChar ch ++ more, c)
      else some ([], c)
    | none => some ([], c)

/-- The octets of a tag behind those that have been read as a handle; there must be some, though
those after one that is zero do not count as the tag's. -/
def readTagRest (full : Bool) (handle : List Char) (c : Cursor) : Option (List UInt8 × Cursor) := do
  let (more, after) ← readTagOctets full (c.rest.length + 1) c
  guard (!handle.isEmpty || after.index ≠ c.index)
  pure (Tag.bounded ((handle.drop 1).flatMap String.utf8EncodeChar ++ more), after)

/-- A handle: an exclamation mark, a name, and if it stands there another exclamation mark. -/
def readHandle (c : Cursor) : Option (List Char × Cursor) := do
  guard (c.has '!' 0)
  let (name, c) := (c.skip 1).takeWhile isWord
  if c.has '!' 0 then pure ('!' :: name ++ ['!'], c.skip 1)
  else pure ('!' :: name, c)

/-- Whether what has been read as a handle is one with two exclamation marks. -/
def isClosedHandle (handle : List Char) : Bool :=
  2 ≤ handle.length && handle.getLast? == some '!'

/-- The tag at a cursor. -/
def readTag (flow : Bool) (c : Cursor) : Option (Token × Cursor) := do
  let (token, c) ←
    if c.has '<' 1 then do
      let (suffix, c) ← readTagRest true [] (c.skip 2)
      guard (c.has '>' 0)
      pure (Token.tag "" suffix, c.skip 1)
    else do
      let (handle, c) ← readHandle c
      if isClosedHandle handle then do
        let (suffix, c) ← readTagRest false [] c
        pure (Token.tag (String.ofList handle) suffix, c)
      else do
        let (suffix, c) ← readTagRest false handle c
        if suffix.isEmpty then pure (Token.tag "" (Text.utf8 "!"), c)
        else pure (Token.tag "!" suffix, c)
  guard (c.endsWord 0 || (flow && c.has ',' 0))
  pure (token, c)

/-! ## Directives -/

/-- A number of at most nine digits. -/
def readVersionNumber (c : Cursor) : Option (Nat × Cursor) := do
  let (ds, c) := c.takeWhile Char.isDigit
  guard (!ds.isEmpty && ds.length ≤ 9)
  pure (Text.natOfDigits ds, c)

/-- The version behind `%YAML`. -/
def readVersion (c : Cursor) : Option (Token × Cursor) := do
  let (major, c) ← readVersionNumber (c.skipWhile isBlank)
  guard (c.has '.' 0)
  let (minor, c) ← readVersionNumber (c.skip 1)
  pure (.version major minor, c)

/-- The handle behind `%TAG`, and what it stands for. -/
def readHandleLine (c : Cursor) : Option (Token × Cursor) := do
  let (handle, c) ← readHandle (c.skipWhile isBlank)
  guard (handle == ['!'] || isClosedHandle handle)
  guard c.atBlank
  let (expansion, c) ← readTagRest true [] (c.skipWhile isBlank)
  guard (c.endsWord 0)
  pure (.handle (String.ofList handle) expansion, c)

/-- The directive at a cursor, with the break behind it. -/
def readDirective (c : Cursor) : Option (Token × Cursor) := do
  let (name, c) := (c.skip 1).takeWhile isWord
  guard (c.endsWord 0)
  let (token, c) ←
    if name == "YAML".toList then readVersion c
    else if name == "TAG".toList then readHandleLine c
    else none
  let c := (c.skipWhile isBlank).skipComment
  guard (c.endsLine 0)
  pure (token, c.skipBreak)

end SwaggerRoutes.Yaml
