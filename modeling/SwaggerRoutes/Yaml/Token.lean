/-
  Yaml/Token.lean --- the parts of a YAML text.

  Indentation is told by tokens: a block collection starts with one and ends with `blockEnd`.  The
  token `key` stands before each key, though a text seldom writes it.
-/

set_option autoImplicit false

namespace SwaggerRoutes.Yaml

/-- How a scalar is written. -/
inductive Style where
  | plain
  | single
  | double
  | literal
  | folded
  deriving DecidableEq, Repr, Inhabited

/-- A part of a YAML text. -/
inductive Token where
  /-- A `%YAML` line. -/
  | version (major minor : Nat)
  /-- A `%TAG` line: a handle and the octets for which it stands. -/
  | handle (name : String) (expansion : List UInt8)
  | documentStart
  | documentEnd
  | blockSequence
  | blockMapping
  | blockEnd
  | openSequence
  | closeSequence
  | openMapping
  | closeMapping
  /-- The hyphen of an item. -/
  | item
  /-- The comma between items. -/
  | comma
  | key
  | value
  | anchor (name : String)
  | reference (name : String)
  /-- A tag: its handle, empty where it has none, and the octets of the rest. -/
  | tag (handle : String) (suffix : List UInt8)
  | scalar (text : String) (style : Style)
  /-- The end of the text. -/
  | done
  deriving DecidableEq, Repr, Inhabited

end SwaggerRoutes.Yaml
