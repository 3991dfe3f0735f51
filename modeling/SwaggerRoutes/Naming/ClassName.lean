/-
  Naming/ClassName.lean --- the name of a class out of a title.

  A title is first cut down to characters of identifiers.  What is left is cut into words: at its
  spaces, underscores and dollar signs, between a small letter and a capital, and before the last of
  several capitals when a small letter follows.  Each word is written with a capital and small
  letters behind it.
-/
import SwaggerRoutes.Naming.Stripped
import SwaggerRoutes.Swagger.Spec

set_option autoImplicit false

namespace SwaggerRoutes.Naming

open Text

/-- The end of every derived class name, and the whole of it if the title has nothing to offer. -/
def classSuffix : String := "RestDslRoutes"

/-- The kind of letter last met in a word. -/
inductive LetterCase where
  /-- No letter since the word began. -/
  | unknown
  | lower
  | upper
  deriving DecidableEq, Repr

/-- The words in a run of letters and digits, behind the start of a word whose last letter is of a
kind. -/
def cutWords (last : LetterCase) (word : List Char) : List Char → List (List Char)
  | [] => []
  | [c] => [word ++ [c]]
  | c :: d :: rest =>
    let now := if c.isLower then .lower else if c.isUpper then .upper else last
    if now = .lower ∧ d.isUpper = true then (word ++ [c]) :: cutWords .unknown [] (d :: rest)
    else if last = .upper ∧ c.isUpper = true ∧ d.isLower = true then
      word :: cutWords .unknown [c] (d :: rest)
    else cutWords now (word ++ [c]) (d :: rest)

/-- A word with a capital and small letters behind it. -/
def capitalize : List Char → List Char
  | [] => []
  | c :: cs => c.toUpper :: cs.map Char.toLower

/-- The words of a text of ASCII characters, capitalized, one after the other. -/
def pascalCase (text : List Char) : List Char :=
  ((runs Char.isAlphanum text).flatMap fun run => cutWords .unknown [] run).flatMap capitalize

/-- What a title gives to a class name. -/
def classStem (title : List Char) : List Char :=
  pascalCase (stripped title)

/-- The class name for a title; one that starts with a digit is not used. -/
def classNameOfTitle (title : List Char) : String :=
  match classStem title with
  | [] => classSuffix
  | c :: cs =>
    if isIdentifierStart c then String.ofList (c :: cs) ++ classSuffix else classSuffix

/-- The class name for a description. -/
def className (s : Swagger.Spec) : String :=
  match s.title? with
  | some title => classNameOfTitle title.toList
  | none => classSuffix

end SwaggerRoutes.Naming
