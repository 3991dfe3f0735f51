/-
  Document/Mismatch.lean --- why a well-formed document does not have the shape that is wanted.
-/
import SwaggerRoutes.Text.Quoted
import SwaggerRoutes.Decimal.Number

set_option autoImplicit false

namespace SwaggerRoutes.Document

/-- What stands in the document. -/
inductive Found where
  | bool (b : Bool)
  /-- A number, and how doubles are laid out. -/
  | number (layout : Decimal.Layout) (n : Decimal.Number)
  /-- An integer beyond sixty-four bits. -/
  | wide (i : Int)
  | text (s : String)
  | null
  /-- Nothing at all. -/
  | unit
  | sequence
  | map
  /-- A value under a tag of its own. -/
  | enumeration
  deriving DecidableEq, Repr

/-- What is wanted. -/
inductive Wanted where
  | text
  | flag
  | integer
  | float
  | null
  | unit
  | sequence
  | table
  | record (name : String)
  /-- A tag that names a choice. -/
  | tag
  /-- The name of a field. -/
  | fieldName
  /-- The first key of a free-form object. -/
  | textKey
  /-- Any value at all. -/
  | anything
  /-- Any value that JSON can write. -/
  | anyJson
  deriving DecidableEq, Repr

/-- Why a document does not have its shape. -/
inductive Mismatch where
  /-- Something of another kind stands there. -/
  | wrongType (found : Found) (wanted : Wanted)
  /-- A scalar that is no value of the kind its tag names. -/
  | wrongValue (found : Found) (wanted : Wanted)
  /-- A record of `count` fields, written as a sequence, lacks the item at `place`. -/
  | tooShort (place : Nat) (name : String) (count : Nat)
  /-- A needed field is missing. -/
  | missing (field : String)
  /-- A field is given twice. -/
  | repeated (field : String)
  /-- No name of a choice. -/
  | unknownName (given : String) (names : List String)
  /-- Neither of two shapes. -/
  | neither (name : String)
  /-- A value under a tag of its own where two shapes are possible. -/
  | taggedEither
  /-- An integer beyond those that JSON can write. -/
  | outOfRange
  deriving DecidableEq, Repr

/-! ## Messages -/

/-- The words for what was found. -/
def Found.words : Found → String
  | .bool b => "boolean `" ++ (if b then "true" else "false") ++ "`"
  | .number _ (.int i) => "integer `" ++ String.ofList (Text.signedDecimal i) ++ "`"
  | .number l (.double d) => "floating point `" ++ d.text l ++ "`"
  | .wide i =>
    "integer `" ++ String.ofList (Text.signedDecimal i) ++ "` as " ++
      (if i < 0 then "i128" else "u128")
  | .text s => "string " ++ Text.quoted s
  | .null => "null"
  | .unit => "unit value"
  | .sequence => "sequence"
  | .map => "map"
  | .enumeration => "enum"

/-- The words for what is wanted. -/
def Wanted.words : Wanted → String
  | .text => "a string"
  | .flag => "a boolean"
  | .integer => "an integer"
  | .float => "a float"
  | .null => "null"
  | .unit => "unit"
  | .sequence => "a sequence"
  | .table => "a map"
  | .record name => "struct " ++ name
  | .tag => "a YAML tag starting with '!'"
  | .fieldName => "field identifier"
  | .textKey => "a string key"
  | .anything => "any value"
  | .anyJson => "any valid JSON value"

/-- The words for a list of names. -/
def namesWords : List String → String
  | [] => "there are no variants"
  | [a] => "`" ++ a ++ "`"
  | [a, b] => "`" ++ a ++ "` or `" ++ b ++ "`"
  | names => "one of " ++ ", ".intercalate (names.map fun a => "`" ++ a ++ "`")

/-- The message for a mismatch. -/
def Mismatch.message : Mismatch → String
  | .wrongType f w => "invalid type: " ++ f.words ++ ", expected " ++ w.words
  | .wrongValue f w => "invalid value: " ++ f.words ++ ", expected " ++ w.words
  | .tooShort place name count =>
    "invalid length " ++ String.ofList (Text.decimal place) ++ ", expected struct " ++ name ++
      " with " ++ String.ofList (Text.decimal count) ++
      (if count = 1 then " element" else " elements")
  | .missing field => "missing field `" ++ field ++ "`"
  | .repeated field => "duplicate field `" ++ field ++ "`"
  | .unknownName given names =>
    if names.isEmpty then "unknown variant `" ++ given ++ "`, there are no variants"
    else "unknown variant `" ++ given ++ "`, expected " ++ namesWords names
  | .neither name => "data did not match any variant of untagged enum " ++ name
  | .taggedEither => "untagged and internally tagged enums do not support enum input"
  | .outOfRange => "JSON number out of range"

end SwaggerRoutes.Document
