/-
  Naming/Identifier.lean --- names that Java sources may declare.

  An identifier is an ASCII letter, an underscore or a dollar sign followed by such characters and
  digits, and no reserved word.  A qualified name is a sequence of identifiers with points between
  them; it names a package, or a class in one.
-/
import SwaggerRoutes.Text.Pieces

set_option autoImplicit false

namespace SwaggerRoutes.Naming

open Text

/-- Words that are no identifiers although they have their form. -/
def reservedWords : List String :=
  ["abstract", "assert", "boolean", "break", "byte", "case", "catch", "char", "class", "const",
    "continue", "default", "do", "double", "else", "enum", "extends", "false", "final", "finally",
    "float", "for", "goto", "if", "implements", "import", "instanceof", "int", "interface", "long",
    "native", "new", "null", "package", "private", "protected", "public", "return", "short",
    "static", "strictfp", "super", "switch", "synchronized", "this", "throw", "throws",
    "transient", "true", "try", "void", "volatile", "while", "_"]

/-- Whether a word is reserved. -/
def isReserved (word : List Char) : Bool :=
  reservedWords.contains (String.ofList word)

/-- Characters with which an identifier may start. -/
def isIdentifierStart (c : Char) : Bool :=
  c.isAlpha || c == '_' || c == '$'

/-- Characters of identifiers. -/
def isIdentifierPart (c : Char) : Bool :=
  isIdentifierStart c || c.isDigit

/-- Whether characters form an identifier. -/
def isIdentifierChars (cs : List Char) : Bool :=
  !isReserved cs &&
    match cs with
    | [] => false
    | c :: rest => isIdentifierStart c && rest.all isIdentifierPart

/-- Whether a string is an identifier. -/
def isIdentifier (name : String) : Bool :=
  isIdentifierChars name.toList

/-- The parts of a name between its points. -/
def segments (name : String) : List (List Char) :=
  pieces '.' name.toList

/-- Whether a string is a sequence of identifiers with points between them. -/
def isQualifiedName (name : String) : Bool :=
  (segments name).all isIdentifierChars

/-- A class in a package. -/
def qualify (package name : String) : String :=
  package ++ "." ++ name

end SwaggerRoutes.Naming
